import Stencil.Proofs.Deciding
import Stencil.Proofs.WorldRuns
import Stencil.Proofs.Writing

/-!
# Filling is all or nothing

Filling the template at a path reads one file and writes one file, and it writes only when everything
else has succeeded. Whatever fails before, the world is as it was, the old Dockerfile included; when
nothing fails, the Dockerfile is the filled text and nothing else has changed. Checking finds the same
faults of the template and never changes anything.
-/

namespace Stencil

theorem decodeText_eq_ok_iff {bytes : ByteArray} {s : Text} :
    decodeText bytes = .ok s ↔ bytes = encodeText s := by
  constructor
  · intro h
    unfold decodeText at h
    split at h
    · next chars hchars =>
      cases h
      have hsome : bytes.utf8Decode?.isSome := by rw [hchars]; rfl
      have hencode := ByteArray.utf8Encode_get_utf8Decode? (h := hsome)
      simp only [hchars, Option.get_some] at hencode
      rw [← hencode]
      simp [encodeText]
    · cases h
  · rintro rfl
    exact decodeText_encodeText s

namespace World

theorem readText_eq_ok_iff {w : World} {p : Path} {s : Text} :
    w.readText p = .ok s ↔ w.Holds p (encodeText s) := by
  rw [← read_eq_ok_iff]
  unfold readText
  cases w.read p with
  | error e => simp [bind, Except.bind]
  | ok bytes =>
    change decodeText bytes = .ok s ↔ _
    rw [decodeText_eq_ok_iff, Except.ok.injEq]

section
open Template
variable {w : World} {p : Path}

theorem run_ofFile_eq_ok_iff {w' : World} {t : Template} :
    w.run (ofFile p) = (.ok t, w') ↔ w.Holds p (encodeText t.source) ∧ w' = w := by
  rw [← readText_eq_ok_iff]
  cases hread : w.readText p with
  | error cause => simp [run_ofFile_of_unreadable hread]
  | ok source =>
    rw [run_ofFile_of_readable hread, Prod.mk.injEq, @eq_comm _ w]
    apply and_congr_left
    intro _
    cases t
    simp

/-- Writing an output puts the text at one location, or fails and changes nothing. -/
theorem run_writeOutput_cases (w : World) (p : Path) (text : Text) :
    (∃ l, w.locate p.output = .ok l ∧ w.files.find? l ≠ some .directory ∧
      w.run (writeOutput p text) = (.ok p.output, w.put l (encodeText text))) ∨
    ∃ cause, w.run (writeOutput p text) = (.error (.unwritable p.output cause), w) := by
  rw [run_writeOutput]
  cases hwrite : w.write p.output (encodeText text) with
  | error cause => exact Or.inr ⟨cause, rfl⟩
  | ok w' =>
    obtain ⟨l, hl, hfree, rfl⟩ := write_eq_ok_iff.1 hwrite
    exact Or.inl ⟨l, hl, hfree, rfl⟩

theorem run_writeOutput_eq_ok_iff {w' : World} {text : Text} {output : Path} :
    w.run (writeOutput p text) = (.ok output, w') ↔ output = p.output ∧
      ∃ l, w.locate p.output = .ok l ∧ w.files.find? l ≠ some .directory ∧
        w' = w.put l (encodeText text) := by
  rw [run_writeOutput, ← write_eq_ok_iff]
  cases w.write p.output (encodeText text) <;> simp [eq_comm]

theorem run_fillFile_of_holds {source text : Text} {table : Table} {l : Location}
    (hsource : w.Holds p (encodeText source)) (hfill : fill ⟨source⟩ table = .ok text)
    (hl : w.locate p.output = .ok l) (hfree : w.files.find? l ≠ some .directory) :
    w.run (fillFile p table) = (.ok p.output, w.put l (encodeText text)) := by
  rw [run_fillFile_of_fillable (readText_eq_ok_iff.2 hsource) hfill]
  exact run_writeOutput_eq_ok_iff.2 ⟨rfl, l, hl, hfree, rfl⟩

/-- Filling a file puts some bytes at one location, or fails and changes nothing. -/
theorem run_fillFile_cases (w : World) (p : Path) (table : Table) :
    (∃ l bytes, w.locate p.output = .ok l ∧ w.files.find? l ≠ some .directory ∧
      w.run (fillFile p table) = (.ok p.output, w.put l bytes)) ∨
    ∃ e, w.run (fillFile p table) = (.error e, w) := by
  cases hread : w.readText p with
  | error cause => exact Or.inr ⟨_, run_fillFile_of_unreadable hread table⟩
  | ok source =>
    cases hfill : fill ⟨source⟩ table with
    | error errors => exact Or.inr ⟨_, run_fillFile_of_unfillable hread hfill⟩
    | ok text =>
      rw [run_fillFile_of_fillable hread hfill]
      obtain ⟨l, hl, hfree, hrun⟩ | ⟨cause, hrun⟩ := run_writeOutput_cases w p text
      · exact Or.inl ⟨l, _, hl, hfree, hrun⟩
      · exact Or.inr ⟨_, hrun⟩

end

end World

namespace Template

open World

/-- Filling is all or nothing. A file that cannot be read, or is no text, and a template with errors
are reported by filling and checking alike; an output that cannot be written is reported by filling. In
all these cases the world is as it was. Otherwise the output holds the filled text and can be read back,
and nothing but the output has changed. Checking never changes anything. -/
theorem fillFile_all_or_nothing (w : World) (p : Path) (table : Table) :
    ((∀ source, ¬ w.Holds p (encodeText source)) →
      ∃ cause, w.run (fillFile p table) = (.error (.unreadable p cause), w) ∧
        w.run (checkFile p table) = (.error (.unreadable p cause), w)) ∧
    ∀ source, w.Holds p (encodeText source) →
      (∀ errors, fill ⟨source⟩ table = .error errors →
        w.run (fillFile p table) = (.error (.unfillable errors), w) ∧
        w.run (checkFile p table) = (.error (.unfillable errors), w)) ∧
      ∀ text, fill ⟨source⟩ table = .ok text →
        w.run (checkFile p table) = (.ok (identifiers ⟨source⟩), w) ∧
        (¬ w.CanWrite p.output → ∃ cause,
          w.run (fillFile p table) = (.error (.unwritable p.output cause), w)) ∧
        (w.CanWrite p.output → ∃ w', w.run (fillFile p table) = (.ok p.output, w') ∧
          w'.Holds p.output (encodeText text) ∧
          w'.run (ofFile p.output) = (.ok ⟨text⟩, w') ∧ SameExceptAt p.output w w') := by
  constructor
  · intro hnone
    cases hread : w.readText p with
    | error cause =>
      exact ⟨cause, run_fillFile_of_unreadable hread table, run_checkFile_of_unreadable hread table⟩
    | ok source => exact absurd (readText_eq_ok_iff.1 hread) (hnone source)
  · intro source hsource
    have hread := readText_eq_ok_iff.2 hsource
    have hcheck := run_checkFile_of_readable hread table
    constructor
    · intro errors hfill
      rw [check_eq_error_iff.2 hfill] at hcheck
      exact ⟨run_fillFile_of_unfillable hread hfill, hcheck⟩
    · intro text hfill
      have hrun := run_fillFile_of_fillable hread hfill
      rw [run_writeOutput] at hrun
      rw [check_eq_ok_iff.2 ⟨⟨text, hfill⟩, rfl⟩] at hcheck
      refine ⟨hcheck, ?_, ?_⟩
      · intro hblocked
        obtain ⟨cause, hwrite⟩ := write_of_not_canWrite hblocked (encodeText text)
        rw [hwrite] at hrun
        exact ⟨cause, hrun⟩
      · intro hfree
        obtain ⟨w', hwrite, hholds, hsame⟩ := write_of_canWrite hfree (encodeText text)
        rw [hwrite] at hrun
        exact ⟨w', hrun, hholds, run_ofFile_of_readable (readText_eq_ok_iff.2 hholds), hsame⟩

/-- A longer file at the output leaves nothing behind. -/
theorem fillFile_over_longer_output :
    let bytes := encodeText "new @@@@".toList
    let files := (FileSystem.empty.put ["t".toList] (.file bytes)).put ["Dockerfile".toList]
      (.file (encodeText "an old and longer file".toList))
    let w : World := ⟨files, none, none, [], [], []⟩
    w.Holds ⟨"/t".toList⟩ bytes ∧ w.CanWrite ⟨"/Dockerfile".toList⟩ ∧
      ∃ w', w.run (fillFile ⟨"/t".toList⟩ .empty) = (.ok ⟨"/Dockerfile".toList⟩, w') ∧
        w'.Holds ⟨"/Dockerfile".toList⟩ (encodeText "new @@".toList) := by
  intro bytes files w
  have hsource : w.Holds ⟨"/t".toList⟩ bytes := by
    refine ⟨["t".toList], by decide +kernel, ?_⟩
    change files.find? _ = _
    rw [FileSystem.find?_put_of_ne _ _ (by decide)]
    exact FileSystem.find?_put_self _ _ (by decide)
  have hfree : w.CanWrite ⟨"/Dockerfile".toList⟩ := by
    refine ⟨["Dockerfile".toList], by decide +kernel, ?_⟩
    change files.find? _ ≠ _
    rw [FileSystem.find?_put_self _ _ (by decide)]
    simp
  have hfill : fill ⟨"new @@@@".toList⟩ Table.empty = .ok "new @@".toList := by decide +kernel
  have houtput : Path.output ⟨"/t".toList⟩ = ⟨"/Dockerfile".toList⟩ := by decide +kernel
  obtain ⟨-, -, hwritten⟩ :=
    ((fillFile_all_or_nothing w ⟨"/t".toList⟩ .empty).2 _ hsource).2 _ hfill
  rw [houtput] at hwritten
  obtain ⟨w', hrun, hholds, -⟩ := hwritten hfree
  exact ⟨hsource, hfree, w', hrun, hholds⟩

end Template

end Stencil
