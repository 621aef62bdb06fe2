import Mathlib.Tactic.SplitIfs
import Stencil.World

/-!
# Routes

What a path is refused for, or which pieces of it are followed, does not depend on the files: that is its
route. Where the route leads depends on the directories alone, so it leads there still when files have
been written. A route that leads nowhere may fail in another way then, but only if it goes through a
place where a file has been written; `trail` lists the places that it goes through.
-/

namespace Stencil

namespace FileSystem

/-- The pieces that are followed from the root for a path, for someone in `directory`. -/
def route (directory : Option Path) (p : Path) : Except FileError (List Text) :=
  if p.text.contains '\x00' then .error .nulInName
  else if p.text = [] then .error .notFound
  else if pathLimit ≤ byteLength p.text then .error .nameTooLong
  else if p.isAbsolute then .ok (Path.pieces p.text)
  else
    match directory with
    | some d => .ok (Path.pieces (d.join p).text)
    | none => .error .notFound

theorem locate_eq_bind (fs : FileSystem) (directory : Option Path) (p : Path) :
    fs.locate directory p = route directory p >>= fs.walk [] := by
  unfold locate route
  split_ifs
  · rfl
  · rfl
  · rfl
  · rfl
  · cases directory <;> rfl

theorem locate_of_route {directory : Option Path} {p : Path} {pieces : List Text}
    (h : route directory p = .ok pieces) (fs : FileSystem) :
    fs.locate directory p = fs.walk [] pieces := by
  rw [locate_eq_bind, h]
  rfl

theorem locate_of_route_error {directory : Option Path} {p : Path} {e : FileError}
    (h : route directory p = .error e) (fs : FileSystem) : fs.locate directory p = .error e := by
  rw [locate_eq_bind, h]
  rfl

section
variable {fs fs' : FileSystem} {here next l : Location} {piece : Text} {pieces : List Text}

@[simp] theorem walk_nil : fs.walk here [] = .ok here := rfl

theorem walk_cons : fs.walk here (piece :: pieces) = fs.step here piece >>= (fs.walk · pieces) := by
  unfold walk
  rw [List.foldlM_cons]

theorem walk_append (front : List Text) :
    fs.walk here (front ++ pieces) = fs.walk here front >>= (fs.walk · pieces) := by
  unfold walk
  rw [List.foldlM_append]

theorem walk_cons_eq_ok_iff :
    fs.walk here (piece :: pieces) = .ok l ↔
      ∃ next, fs.step here piece = .ok next ∧ fs.walk next pieces = .ok l := by
  rw [walk_cons]
  cases fs.step here piece <;> simp [bind, Except.bind]

theorem walk_append_eq_ok_iff {front : List Text} :
    fs.walk here (front ++ pieces) = .ok l ↔
      ∃ middle, fs.walk here front = .ok middle ∧ fs.walk middle pieces = .ok l := by
  rw [walk_append]
  cases fs.walk here front <;> simp [bind, Except.bind]

/-- A piece is followed from directories only. -/
theorem directory_of_step (h : fs.step here piece = .ok next) : fs.find? here = some .directory := by
  unfold step at h
  split at h
  · cases h
  · cases h
  · next hdirectory => exact hdirectory

/-- Two file systems with the same directories, whatever their files. -/
def SameDirectories (fs fs' : FileSystem) : Prop :=
  ∀ l, fs.find? l = some .directory ↔ fs'.find? l = some .directory

theorem SameDirectories.symm (h : fs.SameDirectories fs') : fs'.SameDirectories fs :=
  fun l => (h l).symm

theorem SameDirectories.step (h : fs.SameDirectories fs') (hstep : fs.step here piece = .ok next) :
    fs'.step here piece = .ok next := by
  have hhere := directory_of_step hstep
  unfold FileSystem.step at hstep ⊢
  rw [hhere] at hstep
  rw [(h here).1 hhere]
  exact hstep

theorem SameDirectories.walk (h : fs.SameDirectories fs') (hwalk : fs.walk here pieces = .ok l) :
    fs'.walk here pieces = .ok l := by
  induction pieces generalizing here with
  | nil => exact hwalk
  | cons piece pieces ih =>
    rw [walk_cons_eq_ok_iff] at hwalk ⊢
    obtain ⟨next, hstep, hwalk⟩ := hwalk
    exact ⟨next, h.step hstep, ih hwalk⟩

theorem SameDirectories.locate (h : fs.SameDirectories fs') {directory : Option Path} {p : Path}
    (hlocate : fs.locate directory p = .ok l) : fs'.locate directory p = .ok l := by
  cases hroute : route directory p with
  | error e =>
    rw [locate_of_route_error hroute] at hlocate
    cases hlocate
  | ok pieces =>
    rw [locate_of_route hroute] at hlocate ⊢
    exact h.walk hlocate

theorem ne_nil_of_not_directory (hl : fs.find? l ≠ some .directory) : l ≠ [] := by
  rintro rfl
  exact hl rfl

theorem not_directory_of_file {bytes : ByteArray} (hl : fs.find? l = some (.file bytes)) :
    fs.find? l ≠ some .directory := by
  rw [hl]
  intro h
  cases h

/-- A file is written only where no directory is, and writing it makes none. -/
theorem sameDirectories_put (hl : fs.find? l ≠ some .directory) (bytes : ByteArray) :
    fs.SameDirectories (fs.put l (.file bytes)) := by
  intro k
  by_cases hk : k = l
  · subst hk
    rw [find?_put_self _ _ (ne_nil_of_not_directory hl)]
    constructor
    · intro h
      exact absurd h hl
    · intro h
      cases h
  · rw [find?_put_of_ne _ _ hk]

/-- The locations that a walk goes through, up to the one that it leads to or stops at. -/
def trail (fs : FileSystem) (here : Location) : List Text → List Location
  | [] => [here]
  | piece :: pieces =>
    here ::
      match fs.step here piece with
      | .ok next => fs.trail next pieces
      | .error _ => []

theorem start_mem_trail : here ∈ fs.trail here pieces := by
  cases pieces with
  | nil => exact List.mem_singleton_self here
  | cons piece pieces => exact List.mem_cons_self

theorem mem_trail_of_walk (h : fs.walk here pieces = .ok l) : l ∈ fs.trail here pieces := by
  induction pieces generalizing here with
  | nil =>
    cases h
    exact start_mem_trail
  | cons piece pieces ih =>
    obtain ⟨next, hstep, hwalk⟩ := walk_cons_eq_ok_iff.1 h
    rw [trail, hstep]
    exact List.mem_cons_of_mem here (ih hwalk)

theorem step_put_of_ne (h : here ≠ l) (n : Node) : (fs.put l n).step here piece = fs.step here piece := by
  unfold step
  rw [find?_put_of_ne fs n h]

/-- What is put beside a walk does not change it. -/
theorem walk_put_of_notMem_trail (h : l ∉ fs.trail here pieces) (n : Node) :
    (fs.put l n).walk here pieces = fs.walk here pieces := by
  induction pieces generalizing here with
  | nil => rfl
  | cons piece pieces ih =>
    rw [trail, List.mem_cons, not_or] at h
    obtain ⟨hhere, h⟩ := h
    rw [walk_cons, walk_cons, step_put_of_ne (Ne.symm hhere)]
    cases hstep : fs.step here piece with
    | error e => rfl
    | ok next =>
      rw [hstep] at h
      exact ih h

theorem trail_put_of_notMem_trail (h : l ∉ fs.trail here pieces) (n : Node) :
    (fs.put l n).trail here pieces = fs.trail here pieces := by
  induction pieces generalizing here with
  | nil => rfl
  | cons piece pieces ih =>
    rw [trail, List.mem_cons, not_or] at h
    obtain ⟨hhere, h⟩ := h
    rw [trail, trail, step_put_of_ne (Ne.symm hhere)]
    cases hstep : fs.step here piece with
    | error e => rfl
    | ok next =>
      rw [hstep] at h
      simp only [ih h]

end

end FileSystem

namespace World

/-- The locations that a path goes through, the one that it leads to included. -/
def trail (w : World) (p : Path) : List Location :=
  match FileSystem.route w.directory p with
  | .ok pieces => w.files.trail [] pieces
  | .error _ => []

end World

end Stencil
