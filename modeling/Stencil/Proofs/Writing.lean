import Stencil.Dockerfile
import Stencil.Proofs.Routes

/-!
# Writing one file

A path leads to a location through directories only, and a file is written only where no directory is.
So writing a file takes away no step of any path that leads somewhere, and whoever follows the path of
the file afterwards finds what was written. Everywhere else the files are as they were.
-/

namespace Stencil

namespace FileSystem

theorem write_of_not_directory {fs : FileSystem} {l : Location}
    (hl : fs.find? l ≠ some .directory) (bytes : ByteArray) :
    fs.write l bytes = .ok (fs.put l (.file bytes)) := by
  unfold write
  split
  · next hdirectory => exact absurd hdirectory hl
  · rfl

theorem put_eq_self {fs : FileSystem} {l : Location} {n : Node} (hne : l ≠ [])
    (h : fs.find? l = some n) : fs.put l n = fs := by
  obtain ⟨nodes⟩ := fs
  unfold put
  rw [if_neg hne]
  congr 1
  apply Std.ExtTreeMap.ext_getElem?
  intro k
  simp only [Std.ExtTreeMap.getElem?_insert, Std.compare_eq_iff_eq]
  split_ifs with hk
  · rw [← hk, ← h]
    cases l with
    | nil => exact absurd rfl hne
    | cons name l => rfl
  · rfl

theorem put_comm (fs : FileSystem) {l k : Location} (h : l ≠ k) (n m : Node) :
    (fs.put l n).put k m = (fs.put k m).put l n := by
  unfold put
  split_ifs
  · rfl
  · rfl
  · rfl
  · congr 1
    apply Std.ExtTreeMap.ext_getElem?
    intro i
    simp only [Std.ExtTreeMap.getElem?_insert, Std.compare_eq_iff_eq]
    split_ifs with hk hl
    · exact absurd (hl.trans hk.symm) h
    · rfl
    · rfl
    · rfl

theorem read_put_of_ne (fs : FileSystem) {l k : Location} (h : l ≠ k) (n : Node) :
    (fs.put k n).read l = fs.read l := by
  unfold read
  rw [find?_put_of_ne fs n h]

theorem write_put_of_ne (fs : FileSystem) {l k : Location} (h : l ≠ k) (n : Node)
    (bytes : ByteArray) : (fs.put k n).write l bytes = (fs.write l bytes).map (·.put k n) := by
  unfold write
  rw [find?_put_of_ne fs n h, put_comm fs (Ne.symm h)]
  split <;> rfl

end FileSystem

namespace World

/-- The path leads to a file with these bytes. -/
def Holds (w : World) (p : Path) (bytes : ByteArray) : Prop :=
  ∃ l, w.locate p = .ok l ∧ w.files.find? l = some (.file bytes)

/-- The path leads to a file, or to a place in a directory where a file can be. -/
def CanWrite (w : World) (p : Path) : Prop :=
  ∃ l, w.locate p = .ok l ∧ w.files.find? l ≠ some .directory

/-- Nothing but the file that the path leads to has changed from one world to the other. -/
def SameExceptAt (p : Path) (w w' : World) : Prop :=
  w' = { w with files := w'.files } ∧
    ∀ l, w.locate p ≠ .ok l → w'.files.find? l = w.files.find? l

theorem read_of_locate {w : World} {p : Path} {l : Location} (h : w.locate p = .ok l) :
    w.read p = w.files.read l := by
  unfold read
  rw [h]
  rfl

theorem write_of_locate {w : World} {p : Path} {l : Location} (h : w.locate p = .ok l)
    (bytes : ByteArray) :
    w.write p bytes = (w.files.write l bytes).map fun files => { w with files } := by
  unfold write
  rw [h]
  rfl

theorem read_eq_ok_iff {w : World} {p : Path} {bytes : ByteArray} :
    w.read p = .ok bytes ↔ w.Holds p bytes := by
  constructor
  · intro h
    cases hl : w.locate p with
    | error e =>
      unfold read at h
      rw [hl] at h
      cases h
    | ok l =>
      rw [read_of_locate hl] at h
      unfold FileSystem.read at h
      split at h
      · next hfile =>
        cases h
        exact ⟨l, hl, hfile⟩
      · cases h
      · cases h
  · rintro ⟨l, hl, hfile⟩
    rw [read_of_locate hl]
    unfold FileSystem.read
    rw [hfile]

theorem Holds.unique {w : World} {p : Path} {bytes bytes' : ByteArray} (h : w.Holds p bytes)
    (h' : w.Holds p bytes') : bytes = bytes' := by
  rw [← read_eq_ok_iff] at h h'
  rw [h] at h'
  exact Except.ok.inj h'

/-- The world with a file of these bytes at a location. -/
def put (w : World) (l : Location) (bytes : ByteArray) : World :=
  { w with files := w.files.put l (.file bytes) }

theorem write_eq_ok_iff {w w' : World} {p : Path} {bytes : ByteArray} :
    w.write p bytes = .ok w' ↔
      ∃ l, w.locate p = .ok l ∧ w.files.find? l ≠ some .directory ∧ w' = w.put l bytes := by
  constructor
  · intro h
    cases hl : w.locate p with
    | error e =>
      unfold write at h
      rw [hl] at h
      cases h
    | ok l =>
      rw [write_of_locate hl] at h
      by_cases hfree : w.files.find? l = some .directory
      · unfold FileSystem.write at h
        rw [hfree] at h
        cases h
      · rw [FileSystem.write_of_not_directory hfree] at h
        cases h
        exact ⟨l, rfl, hfree, rfl⟩
  · rintro ⟨l, hl, hfree, rfl⟩
    rw [write_of_locate hl, FileSystem.write_of_not_directory hfree]
    rfl

section
variable {w : World} {p : Path} {l : Location}

theorem put_eq_self {bytes : ByteArray} (h : w.files.find? l = some (.file bytes)) :
    w.put l bytes = w := by
  have hne : l ≠ [] := by
    rintro rfl
    cases h
  unfold put
  rw [FileSystem.put_eq_self hne h]

theorem holds_put_self (hl : w.locate p = .ok l) (hfree : w.files.find? l ≠ some .directory)
    (bytes : ByteArray) : (w.put l bytes).Holds p bytes :=
  ⟨l, (FileSystem.sameDirectories_put hfree bytes).locate hl,
    FileSystem.find?_put_self _ _ (FileSystem.ne_nil_of_not_directory hfree)⟩

theorem Holds.put_of_ne {bytes : ByteArray} (h : w.Holds p bytes)
    (hfree : w.files.find? l ≠ some .directory) (hne : w.locate p ≠ .ok l) (bytes' : ByteArray) :
    (w.put l bytes').Holds p bytes := by
  obtain ⟨k, hk, hfile⟩ := h
  refine ⟨k, (FileSystem.sameDirectories_put hfree bytes').locate hk, ?_⟩
  change (w.files.put l _).find? k = _
  rw [FileSystem.find?_put_of_ne, hfile]
  rintro rfl
  exact hne hk

theorem sameExceptAt_put (hl : w.locate p = .ok l) (bytes : ByteArray) :
    SameExceptAt p w (w.put l bytes) := by
  refine ⟨rfl, ?_⟩
  intro k hk
  have hkl : k ≠ l := by
    rintro rfl
    exact hk hl
  exact FileSystem.find?_put_of_ne _ _ hkl

/-- What is written is there afterwards, and nothing else has changed. -/
theorem write_of_canWrite (h : w.CanWrite p) (bytes : ByteArray) :
    ∃ w', w.write p bytes = .ok w' ∧ w'.Holds p bytes ∧ SameExceptAt p w w' := by
  obtain ⟨l, hl, hfree⟩ := h
  exact ⟨w.put l bytes, write_eq_ok_iff.2 ⟨l, hl, hfree, rfl⟩, holds_put_self hl hfree bytes,
    sameExceptAt_put hl bytes⟩

theorem write_of_not_canWrite (h : ¬ w.CanWrite p) (bytes : ByteArray) :
    ∃ cause, w.write p bytes = .error cause := by
  cases hwrite : w.write p bytes with
  | error cause => exact ⟨cause, rfl⟩
  | ok w' =>
    obtain ⟨l, hl, hfree, -⟩ := write_eq_ok_iff.1 hwrite
    exact absurd ⟨l, hl, hfree⟩ h

end

end World

end Stencil
