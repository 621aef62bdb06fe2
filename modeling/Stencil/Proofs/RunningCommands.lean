import Stencil.CommandLine.Run
import Stencil.Proofs.FillingFiles
import Stencil.Proofs.ReadingArguments

/-!
# The command line does what the library does

A run does not fill or check a file in one go: it puts the steps together by itself, so that it can
report each failure in its own way. Still it succeeds exactly when the library does, and leaves the same
world, apart from the names that a check prints. When it fails it changes nothing, and what it reports is
the failure of the first step that fails.
-/

namespace Stencil

/-- The exit code of the program with the given arguments in a world, and the world that it leaves. -/
def World.invoke (w : World) (arguments : List Text) : Nat × World :=
  (CommandLine.program arguments : StateM World Nat) w

namespace CommandLine

open World

/-- Names as a check prints them, each on a line of its own. -/
def listing (names : List Text) : Text := names.flatMap (· ++ ['\n'])

namespace Options

section
variable (o : Options) (w : World)

/-- Whether the options name this table: the one in their file, or the table of Chapel. -/
def Loads (table : Table) : Prop :=
  match o.table with
  | some file => w.run (Table.ofFile file) = (.ok table, w)
  | none => table = Table.chapel

/-- Whether the options name this table and this path. -/
structure Names (table : Table) (path : Path) : Prop where
  loads : o.Loads w table
  resolves : w.run o.template.resolve = (.ok path, w)

/-- Whether the library fills the file that the options name, and leaves `w'`. -/
def Fills (w' : World) : Prop :=
  ∃ table path output, o.Names w table path ∧
    w.run (Template.fillFile path table) = (.ok output, w')

/-- Whether the library finds these names in the file that the options name. -/
def Lists (names : List Text) : Prop :=
  ∃ table path, o.Names w table path ∧ w.run (Template.checkFile path table) = (.ok names, w)

/-- What is reported of the first step that fails. -/
inductive Reports : Text → Prop
  | table {file : Path} {cause : TableError} (named : o.table = some file)
      (fails : w.run (Table.ofFile file) = (.error cause, w)) :
      Reports ("Error loading substitution table '".toList ++ file.text ++ "': ".toList ++
        cause.message ++ ['\n'])
  | path {table : Table} {cause : FillError} (loads : o.Loads w table)
      (fails : w.run o.template.resolve = (.error cause, w)) :
      Reports ("Error: ".toList ++ cause.message ++ ['\n'])
  | read {table : Table} {path : Path} {cause : FillError} (names : o.Names w table path)
      (fails : w.run (Template.ofFile path) = (.error cause, w)) :
      Reports ("Error: ".toList ++ cause.message ++ ['\n'])
  | template {table : Table} {path : Path} {template : Template} {errors : List TemplateError}
      (names : o.Names w table path) (reads : w.run (Template.ofFile path) = (.ok template, w))
      (fails : template.fill table = .error errors) :
      Reports (errors.flatMap fun e => e.format template.source path.text false)
  | write {table : Table} {path : Path} {template : Template} {text : Text} {cause : FillError}
      (names : o.Names w table path) (reads : w.run (Template.ofFile path) = (.ok template, w))
      (fills : template.fill table = .ok text) (writes : o.check = false)
      (fails : w.run (Template.writeOutput path text) = (.error cause, w)) :
      Reports ("Error: ".toList ++ cause.message ++ ['\n'])

end

end Options

section
variable {o : Options} {w w' : World}

theorem note_of_quiet {m : Type → Type} [Monad m] [System m] (h : o.verbose = false) (e : Event) :
    (note o e : m Unit) = pure () := by
  unfold note
  rw [h]
  rfl

theorem isReadOnly_loadTable (o : Options) :
    IsReadOnly (loadTable o : ExceptT Failure (StateM World) Table) := by
  unfold loadTable
  split
  · exact (isReadOnly_tableOfFile _).adapt _
  · exact isReadOnly_pure _

theorem run_loadTable_eq_ok_iff {table : Table} :
    w.run (loadTable o) = (.ok table, w') ↔ o.Loads w table ∧ w' = w := by
  unfold loadTable Options.Loads
  cases o.table with
  | none => simp [eq_comm]
  | some file =>
    dsimp only
    rw [run_adapt_eq_ok_iff]
    constructor
    · intro h
      cases (isReadOnly_tableOfFile file).eq_of_run h
      exact ⟨h, rfl⟩
    · rintro ⟨h, rfl⟩
      exact h

theorem reports_of_run_loadTable {failure : Failure}
    (h : w.run (loadTable o) = (.error failure, w')) : w' = w ∧ o.Reports w failure.report := by
  unfold loadTable at h
  cases htable : o.table with
  | none =>
    rw [htable] at h
    cases h
  | some file =>
    rw [htable] at h
    obtain ⟨cause, hfails, rfl⟩ := run_adapt_eq_error_iff.1 h
    cases (isReadOnly_tableOfFile file).eq_of_run hfails
    exact ⟨rfl, .table htable hfails⟩

/-- What is left to do when the template has been read. -/
def conclude (o : Options) (table : Table) (path : Path) (t : Template) :
    ExceptT Failure (StateM World) Unit :=
  if o.check then do
    let names ← liftExcept ((t.check table).mapError (Failure.template path t))
    System.print (listing names)
  else do
    let text ← liftExcept ((t.fill table).mapError (Failure.template path t))
    let _ ← (Template.writeOutput path text).adapt .step

/-- A quiet run is its steps alone. -/
theorem work_of_quiet (h : o.verbose = false) :
    work o = (do
      let table ← loadTable o
      let path ← o.template.resolve.adapt .step
      let t ← (Template.ofFile path).adapt .step
      conclude o table path t) := by
  unfold work
  simp only [note_of_quiet h, pure_bind]
  rfl

theorem run_work_of_loads (hquiet : o.verbose = false) {table : Table} (hloads : o.Loads w table) :
    w.run (work o) = w.run (do
      let path ← o.template.resolve.adapt .step
      let t ← (Template.ofFile path).adapt .step
      conclude o table path t) := by
  rw [work_of_quiet hquiet]
  apply run_bind_ok
  exact run_loadTable_eq_ok_iff.2 ⟨hloads, rfl⟩

theorem run_work_of_names (hquiet : o.verbose = false) {table : Table} {path : Path}
    (hnames : o.Names w table path) :
    w.run (work o) = w.run (do
      let t ← (Template.ofFile path).adapt .step
      conclude o table path t) := by
  rw [run_work_of_loads hquiet hnames.loads]
  apply run_bind_ok
  exact run_adapt_eq_ok_iff.2 hnames.resolves

theorem run_work_of_reads (hquiet : o.verbose = false) {table : Table} {path : Path} {t : Template}
    (hnames : o.Names w table path) (hread : w.run (Template.ofFile path) = (.ok t, w)) :
    w.run (work o) = w.run (conclude o table path t) := by
  rw [run_work_of_names hquiet hnames]
  apply run_bind_ok
  exact run_adapt_eq_ok_iff.2 hread

section
variable {table : Table} {path : Path} {t : Template}

theorem run_conclude_of_fill (h : o.check = false) :
    w.run (conclude o table path t) = (.ok (), w') ↔
      ∃ text output, t.fill table = .ok text ∧
        w.run (Template.writeOutput path text) = (.ok output, w') := by
  unfold conclude
  rw [if_neg (by simp [h])]
  simp only [run_bind_eq_ok_iff, run_liftExcept_eq_ok_iff, run_adapt_eq_ok_iff, run_pure]
  constructor
  · rintro ⟨text, _, ⟨hfill, rfl⟩, output, w₁, hwrite, hdone⟩
    cases hdone
    exact ⟨text, output, hfill, hwrite⟩
  · rintro ⟨text, output, hfill, hwrite⟩
    exact ⟨text, w, ⟨hfill, rfl⟩, output, w', hwrite, rfl⟩

/-- What is left to do changes nothing when it fails. -/
theorem reports_of_run_conclude {failure : Failure} (hnames : o.Names w table path)
    (hread : w.run (Template.ofFile path) = (.ok t, w))
    (h : w.run (conclude o table path t) = (.error failure, w')) :
    w' = w ∧ o.Reports w failure.report := by
  unfold conclude at h
  cases hcheck : o.check with
  | true =>
    rw [if_pos hcheck, run_bind_eq_error_iff] at h
    simp only [run_liftExcept_eq_error_iff, run_print] at h
    obtain ⟨⟨errors, hfails, rfl⟩, rfl⟩ | ⟨names, w₁, -, hprint⟩ := h
    · exact ⟨rfl, .template hnames hread (Template.check_eq_error_iff.1 hfails)⟩
    · cases hprint
  | false =>
    rw [if_neg (by simp [hcheck])] at h
    simp only [run_bind_eq_error_iff, run_liftExcept_eq_error_iff, run_liftExcept_eq_ok_iff,
      run_adapt_eq_error_iff] at h
    obtain ⟨⟨errors, hfails, rfl⟩, rfl⟩ | ⟨text, w₁, ⟨hfill, rfl⟩, h⟩ := h
    · exact ⟨rfl, .template hnames hread hfails⟩
    obtain ⟨cause, hfails, rfl⟩ | ⟨output, w₂, -, hdone⟩ := h
    · have hw : w' = w₁ := by
        rw [run_writeOutput] at hfails
        split at hfails <;> cases hfails
        rfl
      cases hw
      exact ⟨rfl, .write hnames hread hfill hcheck hfails⟩
    · cases hdone

end

/-- A quiet run succeeds exactly when it comes to a template and does what is left to do with it. -/
theorem run_work_eq_ok_iff (hquiet : o.verbose = false) :
    w.run (work o) = (.ok (), w') ↔
      ∃ table path t, o.Names w table path ∧ w.run (Template.ofFile path) = (.ok t, w) ∧
        w.run (conclude o table path t) = (.ok (), w') := by
  constructor
  · intro h
    rw [work_of_quiet hquiet] at h
    simp only [run_bind_eq_ok_iff, run_loadTable_eq_ok_iff, run_adapt_eq_ok_iff] at h
    obtain ⟨table, _, ⟨hloads, rfl⟩, path, w₁, hresolve, t, w₂, hread, hrest⟩ := h
    cases (isReadOnly_resolve _).eq_of_run hresolve
    cases (isReadOnly_ofFile _).eq_of_run hread
    exact ⟨table, path, t, ⟨hloads, hresolve⟩, hread, hrest⟩
  · rintro ⟨table, path, t, hnames, hread, hrest⟩
    rw [run_work_of_reads hquiet hnames hread]
    exact hrest

/-- A quiet run that fails has changed nothing, and reports the first step that fails. -/
theorem reports_of_run_work (hquiet : o.verbose = false) {failure : Failure}
    (h : w.run (work o) = (.error failure, w')) : w' = w ∧ o.Reports w failure.report := by
  rw [work_of_quiet hquiet] at h
  simp only [run_bind_eq_error_iff, run_loadTable_eq_ok_iff, run_adapt_eq_ok_iff,
    run_adapt_eq_error_iff] at h
  obtain h | ⟨table, _, ⟨hloads, rfl⟩, h⟩ := h
  · exact reports_of_run_loadTable h
  obtain ⟨cause, hfails, rfl⟩ | ⟨path, w₁, hresolve, h⟩ := h
  · cases (isReadOnly_resolve _).eq_of_run hfails
    exact ⟨rfl, .path hloads hfails⟩
  cases (isReadOnly_resolve _).eq_of_run hresolve
  obtain ⟨cause, hfails, rfl⟩ | ⟨t, w₂, hread, h⟩ := h
  · cases (isReadOnly_ofFile _).eq_of_run hfails
    exact ⟨rfl, .read ⟨hloads, hresolve⟩ hfails⟩
  cases (isReadOnly_ofFile _).eq_of_run hread
  exact reports_of_run_conclude ⟨hloads, hresolve⟩ hread h

/-- A run that fills succeeds exactly when the library fills the file. -/
theorem run_work_of_fill (hquiet : o.verbose = false) (hfill : o.check = false) :
    w.run (work o) = (.ok (), w') ↔ o.Fills w w' := by
  rw [run_work_eq_ok_iff hquiet]
  simp only [run_conclude_of_fill hfill]
  constructor
  · rintro ⟨table, path, t, hnames, hread, text, output, htext, hwrite⟩
    exact ⟨table, path, output, hnames,
      run_fillFile_eq_ok_iff.2 ⟨t, text, hread, htext, hwrite⟩⟩
  · rintro ⟨table, path, output, hnames, hrun⟩
    obtain ⟨t, text, hread, htext, hwrite⟩ := run_fillFile_eq_ok_iff.1 hrun
    exact ⟨table, path, t, hnames, hread, text, output, htext, hwrite⟩

theorem invoke_of_mistake {arguments : List Text} {e : UsageError} (h : parse arguments = .error e)
    (w : World) : w.invoke arguments = (2, { w with errors := w.errors ++ e.report }) := by
  unfold World.invoke program
  rw [h]
  rfl

theorem invoke_of_help {arguments : List Text} (h : parse arguments = .ok .help) (w : World) :
    w.invoke arguments = (0, { w with output := w.output ++ help }) := by
  unfold World.invoke program
  rw [h]
  rfl

theorem invoke_of_run {arguments : List Text} (h : parse arguments = .ok (.run o)) (w : World) :
    w.invoke arguments =
      match w.run (work o) with
      | (.ok (), w') => (0, w')
      | (.error failure, w') => (1, { w' with errors := w'.errors ++ failure.report }) := by
  unfold World.invoke program
  rw [h]
  change (CommandLine.run o : StateM World Nat) w = _
  unfold CommandLine.run
  cases hrun : w.run (work o) with
  | mk result w' =>
    have hwork : (work o : ExceptT Failure (StateM World) Unit).run w = (result, w') := hrun
    simp only [bind, StateT.bind, hwork]
    cases result <;> rfl

theorem invoke_eq_zero_iff {arguments : List Text} (h : o.IsWritten arguments) :
    w.invoke arguments = (0, w') ↔ w.run (work o) = (.ok (), w') := by
  rw [invoke_of_run h.parse]
  obtain ⟨result, w₁⟩ := w.run (work o)
  cases result <;> simp

end

end CommandLine

end Stencil
