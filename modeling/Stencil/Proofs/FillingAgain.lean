import Stencil.Proofs.FillingFiles

/-!
# Filling a second time

A fill that succeeds leaves its template as it was, unless the template is the very file that has been
written. So a second fill comes to the same and changes nothing more, for all templates but those that are
Dockerfiles themselves. The second fill of such a template is a fill of what the first has made of it.
-/

namespace Stencil

theorem encodeText_injective : Function.Injective encodeText := by
  intro s t h
  have hs := decodeText_encodeText s
  rw [h, decodeText_encodeText] at hs
  exact (Except.ok.inj hs).symm

namespace World

/-- A world with one file, in the root. -/
def oneFile (name text : Text) : World :=
  ⟨FileSystem.empty.put [name] (.file (encodeText text)), none, none, [], [], []⟩

theorem find?_oneFile (name text : Text) :
    (oneFile name text).files.find? [name] = some (.file (encodeText text)) :=
  FileSystem.find?_put_self _ _ (List.cons_ne_nil name [])

theorem find?_oneFile_of_ne {name other : Text} (h : other ≠ name) (text : Text) :
    (oneFile name text).files.find? [other] = none := by
  have hne : [other] ≠ [name] := by simpa using h
  unfold oneFile
  rw [FileSystem.find?_put_of_ne _ _ hne]
  rfl

end World

namespace Template

open World

/-- A fill changes nothing exactly when the output holds the filled text already. -/
theorem run_fillFile_eq_self_iff {w : World} {p : Path} {source text : Text} {table : Table}
    (hsource : w.Holds p (encodeText source)) (htext : w.Holds p.output (encodeText text)) :
    w.run (fillFile p table) = (.ok p.output, w) ↔ fill ⟨source⟩ table = .ok text := by
  obtain ⟨l, hl, hfile⟩ := htext
  have hfree := FileSystem.not_directory_of_file hfile
  rw [run_fillFile_eq_ok_iff]
  constructor
  · rintro ⟨⟨found⟩, filled, hread, hfill, hwrite⟩
    obtain ⟨hfound, -⟩ := run_ofFile_eq_ok_iff.1 hread
    obtain ⟨-, k, hk, -, hw⟩ := run_writeOutput_eq_ok_iff.1 hwrite
    rw [hl] at hk
    cases hk
    have hfilled : w.Holds p.output (encodeText filled) := by
      rw [hw]
      exact holds_put_self hl hfree _
    have hfound := encodeText_injective (hfound.unique hsource)
    have hfilled := encodeText_injective (hfilled.unique ⟨l, hl, hfile⟩)
    subst hfound hfilled
    exact hfill
  · intro hfill
    exact ⟨⟨source⟩, text, run_ofFile_eq_ok_iff.2 ⟨hsource, rfl⟩, hfill,
      run_writeOutput_eq_ok_iff.2 ⟨rfl, l, hl, hfree, (put_eq_self hfile).symm⟩⟩

/-- A fill that has succeeded succeeds again with the same output, and changes nothing more, exactly when
the output is not the template itself or holds a text that is filled to itself. -/
theorem fillFile_again_iff {w w' : World} {p output : Path} {table : Table}
    (h : w.run (fillFile p table) = (.ok output, w')) :
    w'.run (fillFile p table) = (.ok output, w') ↔
      w.locate p ≠ w.locate output ∨
        ∃ text, w'.Holds output (encodeText text) ∧ fill ⟨text⟩ table = .ok text := by
  obtain ⟨⟨source⟩, text, hread, hfill, hwrite⟩ := run_fillFile_eq_ok_iff.1 h
  obtain ⟨hsource, -⟩ := run_ofFile_eq_ok_iff.1 hread
  obtain ⟨rfl, l, hl, hfree, rfl⟩ := run_writeOutput_eq_ok_iff.1 hwrite
  have houtput := holds_put_self hl hfree (encodeText text)
  by_cases hself : w.locate p = w.locate p.output
  · have htemplate := holds_put_self (hself.trans hl) hfree (encodeText text)
    rw [run_fillFile_eq_self_iff htemplate houtput]
    constructor
    · intro hfixed
      exact Or.inr ⟨text, houtput, hfixed⟩
    · rintro (hother | ⟨found, hfound, hfixed⟩)
      · exact absurd hself hother
      · have hfound := encodeText_injective (hfound.unique houtput)
        subst hfound
        exact hfixed
  · have htemplate := hsource.put_of_ne hfree (by rwa [← hl]) (encodeText text)
    rw [run_fillFile_eq_self_iff htemplate houtput]
    constructor
    · intro _
      exact Or.inl hself
    · intro _
      exact hfill

/-- The template of an escape is filled again to the same Dockerfile. -/
theorem fillFile_again_of_escape :
    let p : Path := ⟨"/t".toList⟩
    let w := oneFile "t".toList "@@@@".toList
    ∃ w', w.run (fillFile p .empty) = (.ok ⟨"/Dockerfile".toList⟩, w') ∧
      w.locate p ≠ w.locate ⟨"/Dockerfile".toList⟩ ∧
      w'.run (fillFile p .empty) = (.ok ⟨"/Dockerfile".toList⟩, w') := by
  intro p w
  have hsource : w.Holds p (encodeText "@@@@".toList) :=
    ⟨["t".toList], by decide +kernel, find?_oneFile _ _⟩
  have hfree : w.files.find? ["Dockerfile".toList] ≠ some .directory := by
    rw [find?_oneFile_of_ne (by decide)]
    intro h
    cases h
  have hfill : fill ⟨"@@@@".toList⟩ Table.empty = .ok "@@".toList := by decide +kernel
  have hrun := run_fillFile_of_holds hsource hfill (by decide +kernel) hfree
  have hother : w.locate p ≠ w.locate p.output := by decide +kernel
  exact ⟨_, hrun, hother, (fillFile_again_iff hrun).2 (Or.inl hother)⟩

/-- A Dockerfile that is its own template is not filled again when it held an escape. -/
theorem fillFile_again_fails_on_dockerfile :
    let p : Path := ⟨"/Dockerfile".toList⟩
    let w := oneFile "Dockerfile".toList "@@@@".toList
    ∃ w' errors, w.run (fillFile p .empty) = (.ok p, w') ∧
      w'.run (fillFile p .empty) = (.error (.unfillable errors), w') := by
  intro p w
  have hsource : w.Holds p (encodeText "@@@@".toList) :=
    ⟨["Dockerfile".toList], by decide +kernel, find?_oneFile _ _⟩
  have hfree := FileSystem.not_directory_of_file (find?_oneFile "Dockerfile".toList "@@@@".toList)
  have hfill : fill ⟨"@@@@".toList⟩ Table.empty = .ok "@@".toList := by decide +kernel
  have hagain : fill ⟨"@@".toList⟩ Table.empty = .error [.invalid ⟨0, 2⟩ .first] := by decide +kernel
  have hrun := run_fillFile_of_holds hsource hfill (by decide +kernel) hfree
  have hself := holds_put_self (p := p) (by decide +kernel) hfree (encodeText "@@".toList)
  exact ⟨_, _, hrun, run_fillFile_of_unfillable (readText_eq_ok_iff.2 hself) hagain⟩

end Template

end Stencil
