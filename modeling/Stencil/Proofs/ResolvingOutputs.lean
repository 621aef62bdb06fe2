import Stencil.Proofs.AcceptedPaths
import Stencil.Proofs.ResolvingPaths
import Stencil.Proofs.RunningCommands
import Stencil.Proofs.SiblingOutput

/-!
# Resolving before or after

The output of a resolved path and the resolved output of the path go through the same components, as
resolving changes what stands before the last component and the output changes the last one alone. Only a
path that is nothing but `~` is left out, since its last component is the home itself. So a run, which
resolves first, and the library, which does not, fill the same Dockerfile. They differ in one thing: the
run hands over the longer path, and a system refuses paths for their length.
-/

namespace Stencil

namespace Path

variable {raw home directory : Path}

theorem withoutCurrent_concat {last : Component} (h : last ≠ .current) (l : List Component) :
    withoutCurrent (l ++ [last]) = withoutCurrent l ++ [last] := by
  cases l with
  | nil =>
    cases last with
    | current => exact absurd rfl h
    | _ => rfl
  | cons first l => cases first <;> rfl

theorem components_output_concat {l : List Component} {last : Component}
    (h : raw.components = l ++ [last]) (hroot : last ≠ .root) :
    raw.output.components = l ++ [.name dockerfileName.text] := by
  rw [components_output ⟨last, by simp [h], hroot⟩, h, List.dropLast_concat]

theorem isAbsolute_output_concat {l : List Component} {last : Component}
    (h : raw.components = l ++ [last]) (hroot : last ≠ .root) :
    raw.output.isAbsolute = raw.isAbsolute :=
  isAbsolute_output_of_components ⟨last, by simp [h], hroot⟩

theorem components_join_of_head?_ne (habsolute : directory.isAbsolute) (hraw : raw.isAbsolute = false)
    (hhead : raw.components.head? ≠ some (.name ['~'])) :
    (directory.join (raw.expanded home)).components =
      directory.components ++ withoutCurrent raw.components := by
  rw [expanded_of_belowHome?_eq_none (belowHome?_of_head?_ne hhead),
    components_join (text_ne_nil_of_isAbsolute habsolute) hraw]

theorem join_expanded_of_isAbsolute (h : raw.isAbsolute) :
    directory.join (raw.expanded home) = raw := by
  rw [expanded_of_belowHome?_eq_none (belowHome?_of_isAbsolute h), join_of_isAbsolute h]

/-- What a path is resolved to goes through the same components as what its output is resolved to, up to
the last one. -/
theorem exists_components_join_expanded (habsolute : directory.isAbsolute) (home : Path)
    {l : List Component} {last : Component} (hraw : raw.components = l ++ [last]) (hroot : last ≠ .root)
    (hcurrent : last ≠ .current) (htilde : raw.components ≠ [.name ['~']]) :
    ∃ front : List Component,
      (directory.join (raw.expanded home)).components = front ++ [last] ∧
      (directory.join (raw.output.expanded home)).components =
        front ++ [.name dockerfileName.text] := by
  have houtput := components_output_concat hraw hroot
  have habs := isAbsolute_output_concat hraw hroot
  by_cases hrelative : raw.isAbsolute
  · rw [join_expanded_of_isAbsolute hrelative, join_expanded_of_isAbsolute (habs.trans hrelative)]
    exact ⟨l, hraw, houtput⟩
  · have hrelative : raw.isAbsolute = false := by simpa using hrelative
    cases l with
    | nil =>
      have hhead : raw.components.head? ≠ some (.name ['~']) := by
        intro h
        rw [hraw] at h htilde
        obtain rfl : last = .name ['~'] := Option.some.inj h
        exact htilde rfl
      rw [components_join_of_head?_ne habsolute hrelative hhead,
        components_join_of_head?_ne habsolute (habs.trans hrelative) (by rw [houtput]; decide),
        hraw, houtput, withoutCurrent_concat hcurrent, withoutCurrent_concat (by simp)]
      exact ⟨directory.components, by simp [withoutCurrent], by simp [withoutCurrent]⟩
    | cons first l =>
      by_cases hfirst : first = .name ['~']
      · rw [hfirst] at hraw houtput
        rw [components_join_expanded habsolute hraw, components_join_expanded habsolute houtput]
        exact ⟨_, (List.append_assoc ..).symm, (List.append_assoc ..).symm⟩
      · have hhead : ∀ c, ((first :: l) ++ [c]).head? ≠ some (.name ['~']) := by
          intro c
          simpa using hfirst
        rw [components_join_of_head?_ne habsolute hrelative (hraw ▸ hhead last),
          components_join_of_head?_ne habsolute (habs.trans hrelative) (houtput ▸ hhead _), hraw,
          houtput, withoutCurrent_concat hcurrent, withoutCurrent_concat (by simp)]
        exact ⟨_, (List.append_assoc ..).symm, (List.append_assoc ..).symm⟩

end Path

namespace FileSystem

open Stencil.Path (isFiller)

variable {fs : FileSystem} {here : Location}

/-- Outside of a directory all pieces fail alike. -/
theorem walk_of_not_directory (h : fs.find? here ≠ some .directory) (piece piece' : Text)
    (pieces pieces' : List Text) :
    fs.walk here (piece :: pieces) = fs.walk here (piece' :: pieces') := by
  rw [walk_cons, walk_cons]
  unfold step
  split
  · rfl
  · rfl
  · next hdirectory => exact absurd hdirectory h

/-- Fillers before another piece make no difference, not even to how the walk fails. -/
theorem walk_filter_concat (pieces : List Text) (last : Text) :
    fs.walk here (pieces ++ [last]) =
      fs.walk here (pieces.filter (fun piece => !isFiller piece) ++ [last]) := by
  induction pieces generalizing here with
  | nil => rfl
  | cons piece pieces ih =>
    by_cases hfiller : isFiller piece
    · rw [List.filter_cons_of_neg (by simp [hfiller])]
      by_cases hhere : fs.find? here = some .directory
      · rw [List.cons_append, walk_cons, step_filler hfiller hhere, ← ih]
        rfl
      · have hne : pieces.filter (fun piece => !isFiller piece) ++ [last] ≠ [] := by simp
        obtain ⟨first, rest, hrest⟩ := List.exists_cons_of_ne_nil hne
        rw [hrest]
        exact walk_of_not_directory hhere _ _ _ _
    · rw [List.filter_cons_of_pos (by simp [hfiller]), List.cons_append, List.cons_append, walk_cons,
        walk_cons]
      cases fs.step here piece with
      | error e => rfl
      | ok next => exact ih

/-- A path whose last piece is no filler leads where its steps lead. -/
theorem walk_pieces_of_concat {p : Path} {l : List Text} {last : Text}
    (hpieces : Path.pieces p.text = l ++ [last]) (hlast : isFiller last = false) :
    fs.walk here (Path.pieces p.text) = fs.walk here p.steps := by
  rw [Path.steps, hpieces, List.filter_append, walk_filter_concat]
  simp [hlast]

theorem walk_pieces_output (fs : FileSystem) (here : Location) (p : Path) :
    fs.walk here (Path.pieces p.output.text) = fs.walk here p.output.steps := by
  obtain ⟨front, hpieces, -⟩ := p.exists_pieces_output
  exact walk_pieces_of_concat hpieces Path.isFiller_dockerfileName

theorem route_of_isAccepted {p : Path} (hne : p.text ≠ []) (h : p.IsAccepted) (directory : Path) :
    route (some directory) p = .ok (Path.pieces (directory.join p).text) := by
  unfold route
  rw [if_neg (by simpa using h.1), if_neg hne, if_neg (by simpa using h.2)]
  split
  · next habsolute => rw [Path.join_of_isAbsolute habsolute]
  · rfl

theorem exists_route_eq_error {p : Path} (hne : p.text ≠ []) (h : ¬ p.IsAccepted)
    (directory : Option Path) : ∃ e, route directory p = .error e := by
  unfold route
  by_cases hnul : p.text.contains '\x00'
  · exact ⟨_, if_pos hnul⟩
  · have hlong : pathLimit ≤ byteLength p.text := by
      by_contra hshort
      exact h ⟨by simpa using hnul, by simpa using hshort⟩
    rw [if_neg hnul, if_neg hne, if_pos hlong]
    exact ⟨_, rfl⟩

end FileSystem

namespace Path

theorem text_ne_nil_of_steps_ne_nil {p : Path} (h : p.steps ≠ []) : p.text ≠ [] := by
  intro hnil
  apply h
  rw [steps, hnil]
  rfl

theorem steps_output_ne_nil (p : Path) : p.output.steps ≠ [] := by simp [steps_output]

end Path

namespace World

variable {w w' : World} {raw p q directory : Path} {table : Table} {l : Location}

/-- A path leads to a location when it is accepted and its pieces behind the current directory do. -/
theorem locate_eq_ok_iff (hdirectory : w.directory = some directory) (hsteps : p.steps ≠ []) :
    w.locate p = .ok l ↔
      p.IsAccepted ∧ w.files.walk [] (Path.pieces (directory.join p).text) = .ok l := by
  have hne := Path.text_ne_nil_of_steps_ne_nil hsteps
  unfold locate
  rw [hdirectory]
  by_cases haccepted : p.IsAccepted
  · rw [FileSystem.locate_of_route (FileSystem.route_of_isAccepted hne haccepted directory)]
    simp [haccepted]
  · obtain ⟨e, hroute⟩ := FileSystem.exists_route_eq_error hne haccepted (some directory)
    rw [FileSystem.locate_of_route_error hroute]
    simp [haccepted]

/-- Behind the current directory the output of a path leads where the output of the path behind the
current directory leads. -/
theorem walk_output_join (fs : FileSystem) (directory : Path) (hsteps : raw.steps ≠ []) :
    fs.walk [] (Path.pieces (directory.join raw.output).text) =
      fs.walk [] (Path.pieces (directory.join raw).output.text) := by
  by_cases hraw : raw.isAbsolute
  · have houtput : raw.output.isAbsolute := by rw [Path.isAbsolute_output hsteps, hraw]
    rw [Path.join_of_isAbsolute hraw, Path.join_of_isAbsolute houtput]
  · have hraw : raw.isAbsolute = false := by simpa using hraw
    have houtput : raw.output.isAbsolute = false := by rw [Path.isAbsolute_output hsteps, hraw]
    obtain ⟨front, hfront, -⟩ := Path.exists_pieces_join directory houtput
    obtain ⟨above, habove, -⟩ := raw.exists_pieces_output
    have hpieces : Path.pieces (directory.join raw.output).text =
        (front ++ above) ++ [Path.dockerfileName.text] := by
      rw [hfront, habove, List.append_assoc]
    have hjoin : (directory.join raw.output).steps = (directory.join raw).output.steps := by
      rw [Path.steps_join directory houtput, Path.steps_output, Path.steps_output,
        Path.steps_join directory hraw, List.dropLast_append_of_ne_nil hsteps, List.append_assoc]
    rw [FileSystem.walk_pieces_of_concat hpieces Path.isFiller_dockerfileName, hjoin,
      FileSystem.walk_pieces_output]

/-- Whether filling the template at the end of an absolute path leaves `w'`: there is a file with a
template, no directory is in the place of its Dockerfile, and there the filled text is put. How long the
two paths are does not matter. -/
def FillsAt (w : World) (p : Path) (table : Table) (w' : World) : Prop :=
  ∃ source text k l, w.files.walk [] (Path.pieces p.text) = .ok k ∧
    w.files.find? k = some (.file (encodeText source)) ∧ Template.fill ⟨source⟩ table = .ok text ∧
    w.files.walk [] (Path.pieces p.output.text) = .ok l ∧ w.files.find? l ≠ some .directory ∧
    w' = w.put l (encodeText text)

/-- Filling a file reads at the place where the path leads, and writes where its output leads. -/
theorem run_fillFile_eq_ok_iff_locate {output : Path} :
    w.run (Template.fillFile p table) = (.ok output, w') ↔
      output = p.output ∧ ∃ source text k l, w.locate p = .ok k ∧
        w.files.find? k = some (.file (encodeText source)) ∧
        Template.fill ⟨source⟩ table = .ok text ∧ w.locate p.output = .ok l ∧
        w.files.find? l ≠ some .directory ∧ w' = w.put l (encodeText text) := by
  constructor
  · intro hrun
    obtain ⟨t, text, hread, hfill, hwrite⟩ := run_fillFile_eq_ok_iff.1 hrun
    obtain ⟨⟨k, hk, hfile⟩, -⟩ := run_ofFile_eq_ok_iff.1 hread
    obtain ⟨houtput, l, hl, hfree, rfl⟩ := run_writeOutput_eq_ok_iff.1 hwrite
    exact ⟨houtput, t.source, text, k, l, hk, hfile, hfill, hl, hfree, rfl⟩
  · rintro ⟨rfl, source, text, k, l, hk, hfile, hfill, hl, hfree, rfl⟩
    exact run_fillFile_of_holds ⟨k, hk, hfile⟩ hfill hl hfree

/-- The library fills the template behind the current directory, as long as the path and its output are
accepted. -/
theorem run_fillFile_iff_fillsAt (hdirectory : w.directory = some directory) (hsteps : raw.steps ≠ [])
    {output : Path} :
    w.run (Template.fillFile raw table) = (.ok output, w') ↔
      output = raw.output ∧ raw.IsAccepted ∧ raw.output.IsAccepted ∧
        w.FillsAt (directory.join raw) table w' := by
  rw [run_fillFile_eq_ok_iff_locate]
  simp only [locate_eq_ok_iff hdirectory hsteps,
    locate_eq_ok_iff hdirectory (Path.steps_output_ne_nil raw), walk_output_join _ directory hsteps]
  constructor
  · rintro ⟨rfl, source, text, k, l, ⟨hraw, hk⟩, hfile, hfill, ⟨houtput, hl⟩, hfree, hw⟩
    exact ⟨rfl, hraw, houtput, source, text, k, l, hk, hfile, hfill, hl, hfree, hw⟩
  · rintro ⟨rfl, hraw, houtput, source, text, k, l, hk, hfile, hfill, hl, hfree, hw⟩
    exact ⟨rfl, source, text, k, l, ⟨hraw, hk⟩, hfile, hfill, ⟨houtput, hl⟩, hfree, hw⟩

end World

namespace CommandLine

open World

variable {o : Options} {w w' : World} {table : Table} {p : Path} {arguments : List Text}

theorem Options.Loads.unique {table' : Table} (h : o.Loads w table) (h' : o.Loads w table') :
    table = table' := by
  unfold Options.Loads at h h'
  cases hfile : o.table with
  | none =>
    rw [hfile] at h h'
    exact h.trans h'.symm
  | some file =>
    rw [hfile] at h h'
    have hruns := h.symm.trans h'
    simpa using hruns

/-- A run that fills leaves what the library leaves for the resolved path. -/
theorem invoke_eq_zero_iff_run_fillFile (h : o.IsWritten arguments) (hfill : o.check = false)
    (hloads : o.Loads w table) (hresolves : w.run o.template.resolve = (.ok p, w)) :
    w.invoke arguments = (0, w') ↔ w.run (Template.fillFile p table) = (.ok p.output, w') := by
  rw [invoke_eq_zero_iff h, run_work_of_fill h.1 hfill]
  constructor
  · rintro ⟨table', p', output, ⟨hloads', hresolves'⟩, hrun⟩
    rw [hresolves] at hresolves'
    cases hresolves'
    rw [hloads.unique hloads']
    obtain ⟨t, text, hread, htext, hwrite⟩ := run_fillFile_eq_ok_iff.1 hrun
    obtain ⟨rfl, -⟩ := run_writeOutput_eq_ok_iff.1 hwrite
    exact hrun
  · intro hrun
    exact ⟨table, p, p.output, ⟨hloads, hresolves⟩, hrun⟩

/-- A run succeeds, or reports why it does not and changes nothing else. -/
theorem invoke_eq_zero_or_one (h : o.IsWritten arguments) (w : World) :
    (∃ w', w.invoke arguments = (0, w')) ∨ ∃ errors, w.invoke arguments = (1, { w with errors }) := by
  cases hrun : w.run (work o) with
  | mk result w' =>
    cases result with
    | ok a => exact Or.inl ⟨w', (invoke_eq_zero_iff h).2 hrun⟩
    | error failure =>
      obtain ⟨rfl, -⟩ := reports_of_run_work h.1 hrun
      rw [invoke_of_run h.parse, hrun]
      exact Or.inr ⟨_, rfl⟩

end CommandLine

namespace Path

open World CommandLine

section
variable {w w' : World} {directory raw : Path} {o : Options} {arguments : List Text} {table : Table}

/-- The program does what the library does for the path as it is, as long as the whole path and its output
are accepted. -/
theorem invoke_iff_run_fillFile (hdirectory : w.directory = some directory)
    (habsolute : directory.isAbsolute) (hsteps : raw.steps ≠ []) (hwritten : o.IsWritten arguments)
    (hfill : o.check = false) (hloads : o.Loads w table) (htemplate : o.template = raw)
    (hresolves : w.run raw.resolve = (.ok (directory.join raw), w)) :
    w.invoke arguments = (0, w') ↔
      w.run (Template.fillFile raw table) = (.ok raw.output, w') ∧
        (directory.join raw).IsAccepted ∧ (directory.join raw).output.IsAccepted := by
  have hjoin := isAbsolute_join_of_directory habsolute raw
  have hjoinSteps : (directory.join raw).steps ≠ [] := by
    by_cases hraw : raw.isAbsolute
    · rwa [join_of_isAbsolute hraw]
    · simp [steps_join directory (by simpa using hraw), hsteps]
  rw [invoke_eq_zero_iff_run_fillFile hwritten hfill hloads (htemplate ▸ hresolves), htemplate,
    run_fillFile_iff_fillsAt hdirectory hjoinSteps, run_fillFile_iff_fillsAt hdirectory hsteps,
    join_of_isAbsolute hjoin]
  constructor
  · rintro ⟨-, hp, houtput, hfills⟩
    exact ⟨⟨rfl, hp.of_join, houtput.output_of_join hsteps, hfills⟩, hp, houtput⟩
  · rintro ⟨⟨-, -, -, hfills⟩, hp, houtput⟩
    exact ⟨rfl, hp, houtput, hfills⟩

end

/-- Resolving a path with a last component that is a name or a `..`, and computing its output, in either
order: the two results go through the same components, unless the path is nothing but `~`. So for a path
that does not begin with `~` the program, which resolves it, and the library, when it is called with the
path as it is, fill the same template into the same Dockerfile. The library does so when the path and its
output are accepted, and the program does the same as the library when the resolved path, which is longer,
and its output are accepted as well; otherwise the program reports why, and changes nothing. -/
theorem resolve_output_commute {w : World} {home directory : Path} (hhome : w.home = some home)
    (hdirectory : w.directory = some directory) (habsolute : directory.isAbsolute) {raw : Path}
    {last : Component} (hlast : raw.components.getLast? = some last)
    (hnamed : last = .parent ∨ ∃ name, last = .name name)
    (htilde : raw.components ≠ [.name ['~']]) :
    ∃ p q, w.run raw.resolve = (.ok p, w) ∧ w.run raw.output.resolve = (.ok q, w) ∧
      p.output.components = q.components ∧
      (raw.components.head? ≠ some (.name ['~']) →
        ∀ (o : Options) (arguments : List Text) (table : Table), o.IsWritten arguments →
          o.template = raw → o.check = false → o.Loads w table →
          (∀ output w', w.run (Template.fillFile raw table) = (.ok output, w') ↔
            output = raw.output ∧ raw.IsAccepted ∧ raw.output.IsAccepted ∧ w.FillsAt p table w') ∧
          (∀ w', w.invoke arguments = (0, w') ↔
            w.run (Template.fillFile raw table) = (.ok raw.output, w') ∧
              p.IsAccepted ∧ p.output.IsAccepted) ∧
          ((∃ w', w.invoke arguments = (0, w')) ∨
            ∃ errors, w.invoke arguments = (1, { w with errors }))) := by
  obtain ⟨l, hraw⟩ := List.getLast?_eq_some_iff.1 hlast
  have hroot : last ≠ .root := by rcases hnamed with rfl | ⟨name, rfl⟩ <;> simp
  have hcurrent : last ≠ .current := by rcases hnamed with rfl | ⟨name, rfl⟩ <;> simp
  obtain ⟨front, hp, hq⟩ :=
    exists_components_join_expanded habsolute home hraw hroot hcurrent htilde
  have hresolves := run_resolve_of_directory hhome hdirectory raw
  refine ⟨_, _, hresolves, run_resolve_of_directory hhome hdirectory raw.output, ?_, ?_⟩
  · rw [components_output_concat hp hroot, hq]
  · intro hhead o arguments table hwritten htemplate hfill hloads
    rw [expanded_of_belowHome?_eq_none (belowHome?_of_head?_ne hhead)] at hresolves ⊢
    have hsteps : raw.steps ≠ [] := by
      intro hnil
      rcases components_of_steps_eq_nil hnil with h | h | h <;> rw [h] at hlast
      · cases hlast
      · exact hroot (Option.some.inj hlast).symm
      · exact hcurrent (Option.some.inj hlast).symm
    refine ⟨?library, ?program, invoke_eq_zero_or_one hwritten w⟩
    case library =>
      intro output w'
      exact run_fillFile_iff_fillsAt hdirectory hsteps
    case program =>
      intro w'
      exact invoke_iff_run_fillFile hdirectory habsolute hsteps hwritten hfill hloads htemplate hresolves

theorem isWritten_template {p : Path} (h : IsPlain p.text) :
    Options.IsWritten ⟨p, none, false, false⟩ [p.text] :=
  ⟨rfl, [.template p.text], [[p.text]], List.Perm.refl _, .cons (.template h) .nil, rfl⟩

/-- A template behind dots: the path, its resolution and its output have different texts. -/
theorem resolve_output_commute_behind_dots :
    let raw : Path := ⟨"./t".toList⟩
    let files := FileSystem.empty.put ["t".toList] (.file (encodeText "@@@@".toList))
    let w : World := ⟨files, some ⟨"/.".toList⟩, some ⟨"h".toList⟩, [], [], []⟩
    let o : Options := ⟨raw, none, false, false⟩
    raw.components.getLast? = some (.name "t".toList) ∧ o.IsWritten ["./t".toList] ∧
      o.Loads w Table.chapel ∧
      ∃ p q w', w.run raw.resolve = (.ok p, w) ∧ w.run raw.output.resolve = (.ok q, w) ∧
        p.output.components = q.components ∧
        w.run (Template.fillFile raw Table.chapel) = (.ok raw.output, w') ∧
        w.invoke ["./t".toList] = (0, w') := by
  intro raw files w o
  have hlast : raw.components.getLast? = some (.name "t".toList) := by decide
  have hwritten : o.IsWritten ["./t".toList] := isWritten_template (p := raw) (by decide)
  obtain ⟨p, q, hp, hq, hcomponents, hrest⟩ :=
    resolve_output_commute (w := w) rfl rfl (by decide) hlast (Or.inr ⟨_, rfl⟩) (by decide)
  obtain ⟨-, hprogram, -⟩ := hrest (by decide) o _ Table.chapel hwritten rfl rfl rfl
  have hfile : files.find? ["t".toList] = some (.file (encodeText "@@@@".toList)) :=
    FileSystem.find?_put_self _ _ (by decide)
  have hholds : w.Holds raw (encodeText "@@@@".toList) := ⟨_, by decide +kernel, hfile⟩
  have hfill : Template.fill ⟨"@@@@".toList⟩ Table.chapel = .ok "@@".toList := by decide +kernel
  have hfree : files.find? ["Dockerfile".toList] ≠ some .directory := by
    rw [FileSystem.find?_put_of_ne _ _ (by decide)]
    simp [FileSystem.empty]
  have hrun := run_fillFile_of_holds hholds hfill (by decide +kernel) hfree
  have hp' : w.run raw.resolve = (.ok ⟨"/././t".toList⟩, w) := rfl
  rw [hp'] at hp
  cases hp
  have hinvoke := (hprogram _).2 ⟨hrun, by decide, by decide⟩
  exact ⟨hlast, hwritten, rfl, _, q, _, hp', hq, hcomponents, hrun, hinvoke⟩

theorem isPlain_slashed (n : ℕ) : IsPlain (slashed n).text := by simp [IsPlain, slashed]

theorem walk_join_slashed (fs : FileSystem) (directory : Path) (n : ℕ) :
    fs.walk [] (pieces (directory.join (slashed (n + 1))).text) =
      fs.walk [] (directory.steps ++ [['t']]) := by
  obtain ⟨front, hfront, -⟩ := exists_pieces_join directory (isAbsolute_slashed (n + 1))
  rw [pieces_slashed, ← List.append_assoc] at hfront
  rw [FileSystem.walk_pieces_of_concat hfront (by decide), steps_join directory (isAbsolute_slashed _),
    steps_slashed]

theorem walk_output_join_slashed (fs : FileSystem) (directory : Path) (n : ℕ) :
    fs.walk [] (pieces (directory.join (slashed (n + 1))).output.text) =
      fs.walk [] (directory.steps ++ [dockerfileName.text]) := by
  rw [FileSystem.walk_pieces_output, steps_output, steps_join directory (isAbsolute_slashed _),
    steps_slashed, List.dropLast_concat]

/-- Behind so many slashes that the path is still accepted, but no longer behind a current directory of
two bytes, the library writes the Dockerfile and the program does not. -/
theorem invoke_refuses_slashed :
    let raw := slashed 4091
    let files := (FileSystem.empty.put ["d".toList] .directory).put ["t".toList, "d".toList]
      (.file (encodeText "@@@@".toList))
    let w : World := ⟨files, some ⟨"/d".toList⟩, some ⟨"/h".toList⟩, [], [], []⟩
    let o : Options := ⟨raw, none, false, false⟩
    let dockerfile : Location := ["Dockerfile".toList, "d".toList]
    raw.components = [.current, .name "t".toList] ∧ o.IsWritten [raw.text] ∧ o.Loads w Table.chapel ∧
      (∃ w', w.run (Template.fillFile raw Table.chapel) = (.ok raw.output, w') ∧
        w'.files.find? dockerfile = some (.file (encodeText "@@".toList))) ∧
      ∃ errors, w.invoke [raw.text] = (1, { w with errors }) ∧ w.files.find? dockerfile = none := by
  intro raw files w o dockerfile
  have hwritten : o.IsWritten [raw.text] := isWritten_template (isPlain_slashed 4091)
  have hsteps : raw.steps ≠ [] := by
    rw [steps_slashed 4090]
    exact List.cons_ne_nil _ _
  have hfile : files.find? ["t".toList, "d".toList] = some (.file (encodeText "@@@@".toList)) :=
    FileSystem.find?_put_self _ _ (by decide)
  have hnone : files.find? dockerfile = none := by
    rw [FileSystem.find?_put_of_ne _ _ (by decide), FileSystem.find?_put_of_ne _ _ (by decide)]
    rfl
  have hfree : files.find? dockerfile ≠ some .directory := by simp [hnone]
  have hfill : Template.fill ⟨"@@@@".toList⟩ Table.chapel = .ok "@@".toList := by decide +kernel
  have hfills : w.FillsAt (join ⟨"/d".toList⟩ raw) Table.chapel
      (w.put dockerfile (encodeText "@@".toList)) := by
    refine ⟨_, _, ["t".toList, "d".toList], dockerfile, ?_, hfile, hfill, ?_, hfree, rfl⟩
    · rw [walk_join_slashed _ _ 4090]
      decide +kernel
    · rw [walk_output_join_slashed _ _ 4090]
      decide +kernel
  have hrun := (run_fillFile_iff_fillsAt rfl hsteps).2
    ⟨rfl, isAccepted_slashed (by decide), isAccepted_output_slashed 4090, hfills⟩
  have hrefused : ¬ (join ⟨"/d".toList⟩ raw).IsAccepted :=
    not_isAccepted_join_slashed (by decide) (by decide) (by decide)
  have hresolves : w.run raw.resolve = (.ok (join ⟨"/d".toList⟩ raw), w) := by
    have hhead : raw.components.head? ≠ some (.name ['~']) := by
      rw [components_slashed 4090]
      decide
    rw [run_resolve_of_directory rfl rfl, expanded_of_belowHome?_eq_none (belowHome?_of_head?_ne hhead)]
  obtain ⟨w', hzero⟩ | ⟨errors, hinvoke⟩ := invoke_eq_zero_or_one hwritten w
  · obtain ⟨-, haccepted, -⟩ :=
      (invoke_iff_run_fillFile rfl (by decide) hsteps hwritten rfl rfl rfl hresolves).1 hzero
    exact absurd haccepted hrefused
  · refine ⟨components_slashed 4090, hwritten, rfl, ⟨_, hrun, ?_⟩, errors, hinvoke, hnone⟩
    change (w.files.put dockerfile _).find? dockerfile = _
    exact FileSystem.find?_put_self _ _ (by decide)

end Path

end Stencil
