import Stencil.Proofs.OutputPaths
import Stencil.Proofs.RunningCommands

/-!
# Only Dockerfiles change

Templates are read, resolved, checked, filled and written, tables are loaded, and the program is run with
any arguments, in any order. One such operation writes one file at most, and only when it succeeds: the
output of a template. The output of a template is called Dockerfile for every path that the template can
have. So however long this goes on, no directory comes or goes, no file goes, and no file of another name
has other bytes than in the beginning.
-/

namespace Stencil

namespace FileSystem

/-- Two file systems with the same directories, where the second has all the files of the first, and
differs from it only in the bytes of Dockerfiles and in Dockerfiles that are new. -/
structure SameButDockerfiles (fs fs' : FileSystem) : Prop where
  directories : fs.SameDirectories fs'
  files : ∀ l bytes, fs.find? l = some (.file bytes) → ∃ bytes', fs'.find? l = some (.file bytes')
  others : ∀ l, l.head? ≠ some Path.dockerfileName.text → fs'.find? l = fs.find? l

theorem SameButDockerfiles.refl (fs : FileSystem) : fs.SameButDockerfiles fs where
  directories := fun _ => Iff.rfl
  files := fun _ bytes h => ⟨bytes, h⟩
  others := fun _ _ => rfl

theorem SameButDockerfiles.trans {fs₁ fs₂ fs₃ : FileSystem} (h : fs₁.SameButDockerfiles fs₂)
    (h' : fs₂.SameButDockerfiles fs₃) : fs₁.SameButDockerfiles fs₃ where
  directories := fun l => (h.directories l).trans (h'.directories l)
  files := by
    intro l bytes hfile
    obtain ⟨bytes', hfile'⟩ := h.files l bytes hfile
    exact h'.files l bytes' hfile'
  others := fun l hl => (h'.others l hl).trans (h.others l hl)

theorem sameButDockerfiles_put {fs : FileSystem} {l : Location} (hfree : fs.find? l ≠ some .directory)
    (hname : l.head? = some Path.dockerfileName.text) (bytes : ByteArray) :
    fs.SameButDockerfiles (fs.put l (.file bytes)) where
  directories := sameDirectories_put hfree bytes
  files := by
    intro k old hold
    rw [find?_put fs _ (ne_nil_of_not_directory hfree)]
    split
    · exact ⟨bytes, rfl⟩
    · exact ⟨old, hold⟩
  others := by
    intro k hk
    apply find?_put_of_ne
    rintro rfl
    exact hk hname

end FileSystem

/-- What can be asked for: one of the operations of the library, or a run of the program. -/
inductive Operation where
  | read (template : Path)
  | resolve (template : Path)
  | loadTable (file : Path)
  | check (template : Path) (table : Table)
  | fill (template : Path) (table : Table)
  | write (template : Path) (contents : Text)
  | invoke (arguments : List Text)

namespace World

/-- The world after an operation, whatever the operation comes to. -/
def perform (w : World) : Operation → World
  | .read p => (w.run (Template.ofFile p)).2
  | .resolve p => (w.run p.resolve).2
  | .loadTable p => (w.run (Table.ofFile p)).2
  | .check p table => (w.run (Template.checkFile p table)).2
  | .fill p table => (w.run (Template.fillFile p table)).2
  | .write p contents => (w.run (Template.writeOutput p contents)).2
  | .invoke arguments => (w.invoke arguments).2

/-- The world after operations one after the other. -/
def performAll (w : World) (operations : List Operation) : World := operations.foldl perform w

/-- An operation that succeeds in writing the output of the template at a path. The path of a template
that is given to the program is the one that it resolves to. -/
inductive Writes (w : World) : Operation → Path → Prop
  | fill {p : Path} {table : Table} {output : Path} {w' : World}
      (succeeds : w.run (Template.fillFile p table) = (.ok output, w')) : Writes w (.fill p table) p
  | write {p : Path} {contents : Text} {output : Path} {w' : World}
      (succeeds : w.run (Template.writeOutput p contents) = (.ok output, w')) :
      Writes w (.write p contents) p
  | invoke {arguments : List Text} {o : CommandLine.Options} {p : Path} {w' : World}
      (asks : CommandLine.parse arguments = .ok (.run o)) (fills : o.check = false)
      (resolves : w.run o.template.resolve = (.ok p, w)) (succeeds : w.invoke arguments = (0, w')) :
      Writes w (.invoke arguments) p

/-- Among operations one after the other there is one that writes the output of the template at a path. -/
inductive WritesAmong : World → List Operation → Path → Prop
  | first {w : World} {op : Operation} {operations : List Operation} {p : Path} (writes : w.Writes op p) :
      WritesAmong w (op :: operations) p
  | later {w : World} {op : Operation} {operations : List Operation} {p : Path}
      (writes : WritesAmong (w.perform op) operations p) : WritesAmong w (op :: operations) p

/-- Two worlds in which paths mean the same and lead to the same files. -/
structure SameFiles (w w' : World) : Prop where
  files : w'.files = w.files
  directory : w'.directory = w.directory
  home : w'.home = w.home

namespace SameFiles

variable {w w' w'' : World}

theorem refl (w : World) : w.SameFiles w := ⟨rfl, rfl, rfl⟩

theorem trans (h : w.SameFiles w') (h' : w'.SameFiles w'') : w.SameFiles w'' where
  files := h'.files.trans h.files
  directory := h'.directory.trans h.directory
  home := h'.home.trans h.home

theorem locate (h : w.SameFiles w') (p : Path) : w'.locate p = w.locate p := by
  unfold World.locate
  rw [h.files, h.directory]

theorem put (h : w.SameFiles w') (l : Location) (bytes : ByteArray) :
    (w.put l bytes).SameFiles (w'.put l bytes) where
  files := by
    unfold World.put
    rw [h.files]
  directory := h.directory
  home := h.home

/-- A path is resolved without looking at the files. -/
theorem run_resolve (h : w.SameFiles w') (p : Path) :
    (w'.run p.resolve).1 = (w.run p.resolve).1 := by
  obtain ⟨files, directory, home, time, output, errors⟩ := w
  obtain ⟨files', directory', home', time', output', errors'⟩ := w'
  obtain ⟨hfiles, hdirectory, hhome⟩ := h
  dsimp only at hfiles hdirectory hhome
  subst hfiles hdirectory hhome
  unfold Path.resolve Path.expandHome
  cases p.belowHome? with
  | none =>
    dsimp only
    rw [pure_bind]
    split
    · rfl
    · cases directory' <;> rfl
  | some rest =>
    cases home' with
    | none => rfl
    | some home =>
      change (World.run _ (if (home.join rest).isAbsolute then _ else _)).1 =
        (World.run _ (if (home.join rest).isAbsolute then _ else _)).1
      split
      · rfl
      · cases directory' <;> rfl

end SameFiles

/-- The second world is the first with a file at the output of the template at a path. What has been
printed may differ. -/
def OutputWritten (p : Path) (w w' : World) : Prop :=
  ∃ l bytes, w.locate p.output = .ok l ∧ w.files.find? l ≠ some .directory ∧
    (w.put l bytes).SameFiles w'

theorem outputWritten_put {p : Path} {w : World} {l : Location} (hl : w.locate p.output = .ok l)
    (hfree : w.files.find? l ≠ some .directory) (bytes : ByteArray) :
    OutputWritten p w (w.put l bytes) := ⟨l, bytes, hl, hfree, .refl _⟩

theorem OutputWritten.congr {p : Path} {w₁ w₂ w₁' w₂' : World} (h : OutputWritten p w₂ w₂')
    (h₁ : w₁.SameFiles w₂) (h₂ : w₂'.SameFiles w₁') : OutputWritten p w₁ w₁' := by
  obtain ⟨l, bytes, hl, hfree, hput⟩ := h
  rw [h₁.locate] at hl
  rw [h₁.files] at hfree
  exact ⟨l, bytes, hl, hfree, ((h₁.put l bytes).trans hput).trans h₂⟩

section
variable {ε α β : Type}

/-- A computation that writes no file. It may print. -/
def KeepsFiles (x : ExceptT ε (StateM World) α) : Prop := ∀ w : World, w.SameFiles (w.run x).2

theorem IsReadOnly.keepsFiles {x : ExceptT ε (StateM World) α} (hx : IsReadOnly x) :
    KeepsFiles x := by
  intro w
  rw [hx w]
  exact .refl w

/-- A computation writes no file, or it succeeds and has written the output of a template at one of
these paths. -/
def WritesAtMost (templates : Path → Prop) (w : World) (x : ExceptT ε (StateM World) α) : Prop :=
  w.SameFiles (w.run x).2 ∨
    ∃ p a, templates p ∧ (w.run x).1 = .ok a ∧ OutputWritten p w (w.run x).2

theorem KeepsFiles.writesAtMost {x : ExceptT ε (StateM World) α} (hx : KeepsFiles x)
    (templates : Path → Prop) (w : World) : w.WritesAtMost templates x := .inl (hx w)

/-- Nothing is written before the last step of a computation. -/
theorem KeepsFiles.bind_writesAtMost {x : ExceptT ε (StateM World) α}
    {f : α → ExceptT ε (StateM World) β} {w : World} {templates : Path → Prop} (hx : KeepsFiles x)
    (hf : ∀ a w', w.run x = (.ok a, w') → w.SameFiles w' → w'.WritesAtMost templates (f a)) :
    w.WritesAtMost templates (x >>= f) := by
  have hsame := hx w
  unfold WritesAtMost
  cases hrun : w.run x with
  | mk result w' =>
    rw [hrun] at hsame
    cases result with
    | error e =>
      rw [run_bind_error hrun]
      exact .inl hsame
    | ok a =>
      rw [run_bind_ok hrun]
      obtain hkept | ⟨p, b, hp, hb, hwritten⟩ := hf a w' hrun hsame
      · exact .inl (hsame.trans hkept)
      · exact .inr ⟨p, b, hp, hb, hwritten.congr hsame (.refl _)⟩

/-- Nothing is written behind a computation by a last step that only prints. -/
theorem WritesAtMost.bind_of_prints {x : ExceptT ε (StateM World) α}
    {f : α → ExceptT ε (StateM World) β} {w : World} {templates : Path → Prop}
    (hx : w.WritesAtMost templates x)
    (hf : ∀ (a : α) (w₁ : World), ∃ b w₂, w₁.run (f a) = (.ok b, w₂) ∧ w₁.SameFiles w₂) :
    w.WritesAtMost templates (x >>= f) := by
  unfold WritesAtMost at hx ⊢
  cases hrun : w.run x with
  | mk result w₁ =>
    rw [hrun] at hx
    cases result with
    | error e =>
      rw [run_bind_error hrun]
      obtain hkept | ⟨p, a, -, herror, -⟩ := hx
      · exact .inl hkept
      · cases herror
    | ok a =>
      obtain ⟨b, w₂, hprint, hsame⟩ := hf a w₁
      rw [run_bind_ok hrun, hprint]
      obtain hkept | ⟨p, c, hp, -, hwritten⟩ := hx
      · exact .inl (hkept.trans hsame)
      · exact .inr ⟨p, b, hp, rfl, hwritten.congr (.refl _) hsame⟩

end

/-- Writing an output writes the output, or no file. -/
theorem writesAtMost_writeOutput {ε : Type} {templates : Path → Prop} {p : Path} (hp : templates p)
    (w : World) (text : Text) (f : FillError → ε) :
    w.WritesAtMost templates ((Template.writeOutput p text).adapt f) := by
  unfold WritesAtMost
  rw [run_adapt]
  obtain ⟨l, hl, hfree, hrun⟩ | ⟨cause, hrun⟩ := run_writeOutput_cases w p text
  · rw [hrun]
    exact .inr ⟨p, p.output, hp, rfl, outputWritten_put hl hfree _⟩
  · rw [hrun]
    exact .inl (.refl w)

open CommandLine

theorem run_note (o : Options) (e : Event) (w : World) :
    ∃ b w', w.run (note o e : ExceptT Failure (StateM World) Unit) = (.ok b, w') ∧ w.SameFiles w' := by
  unfold note
  cases o.verbose with
  | false => exact ⟨(), w, rfl, .refl w⟩
  | true => exact ⟨(), { w with errors := w.errors ++ e.line w.time }, rfl, rfl, rfl, rfl⟩

theorem keepsFiles_note (o : Options) (e : Event) :
    KeepsFiles (note o e : ExceptT Failure (StateM World) Unit) := by
  intro w
  obtain ⟨_, w', hrun, hsame⟩ := run_note o e w
  rw [hrun]
  exact hsame

/-- The work of a run writes the output of the template that the options name, or no file. It writes
no file when it is to check. -/
theorem writesAtMost_work (o : Options) (w : World) :
    w.WritesAtMost (fun p => o.check = false ∧ w.run o.template.resolve = (.ok p, w)) (work o) := by
  unfold work
  apply (isReadOnly_loadTable o).keepsFiles.bind_writesAtMost
  intro table w₁ _ h₁
  apply (keepsFiles_note o _).bind_writesAtMost
  intro _ w₂ _ h₂
  apply ((isReadOnly_resolve o.template).adapt _).keepsFiles.bind_writesAtMost
  intro p w₃ hresolve h₃
  have hresolves : w.run o.template.resolve = (.ok p, w) := by
    have hsame := (h₁.trans h₂).run_resolve o.template
    rw [run_adapt_eq_ok_iff.1 hresolve] at hsame
    exact Prod.ext hsame.symm (isReadOnly_resolve _ w)
  apply ((isReadOnly_ofFile p).adapt _).keepsFiles.bind_writesAtMost
  intro t w₄ _ _
  apply (keepsFiles_note o _).bind_writesAtMost
  intro _ w₅ _ _
  split
  · apply (keepsFiles_note o _).bind_writesAtMost
    intro _ w₆ _ _
    apply (isReadOnly_liftExcept _).keepsFiles.bind_writesAtMost
    intro names w₇ _ _
    exact KeepsFiles.writesAtMost (fun w => ⟨rfl, rfl, rfl⟩) _ _
  · next hcheck =>
    apply (isReadOnly_liftExcept _).keepsFiles.bind_writesAtMost
    intro text w₆ _ _
    have hp : o.check = false ∧ w.run o.template.resolve = (.ok p, w) :=
      ⟨by simpa using hcheck, hresolves⟩
    exact (writesAtMost_writeOutput hp w₆ text _).bind_of_prints fun output => run_note o _

/-- A run of the program writes the output of the template that it is given, or no file. -/
theorem invoke_cases (w : World) (arguments : List Text) :
    w.SameFiles (w.invoke arguments).2 ∨
      ∃ p, w.Writes (.invoke arguments) p ∧ OutputWritten p w (w.invoke arguments).2 := by
  cases hparse : parse arguments with
  | error e =>
    rw [invoke_of_mistake hparse]
    exact .inl ⟨rfl, rfl, rfl⟩
  | ok request =>
    cases request with
    | help =>
      rw [invoke_of_help hparse]
      exact .inl ⟨rfl, rfl, rfl⟩
    | run o =>
      have hwork := writesAtMost_work o w
      have hinvoke := invoke_of_run hparse w
      unfold WritesAtMost at hwork
      cases hrun : w.run (work o) with
      | mk result w' =>
        rw [hrun] at hwork hinvoke
        rw [hinvoke]
        cases result with
        | error failure =>
          obtain hkept | ⟨p, a, -, herror, -⟩ := hwork
          · exact .inl (hkept.trans ⟨rfl, rfl, rfl⟩)
          · cases herror
        | ok a =>
          obtain hkept | ⟨p, b, ⟨hfill, hresolves⟩, -, hwritten⟩ := hwork
          · exact .inl hkept
          · exact .inr ⟨p, .invoke hparse hfill hresolves hinvoke, hwritten⟩

/-- An operation writes the output of a template, or no file. -/
theorem perform_cases (w : World) (op : Operation) :
    w.SameFiles (w.perform op) ∨ ∃ p, w.Writes op p ∧ OutputWritten p w (w.perform op) := by
  cases op with
  | read p => exact .inl ((isReadOnly_ofFile p).keepsFiles w)
  | resolve p => exact .inl ((isReadOnly_resolve p).keepsFiles w)
  | loadTable p => exact .inl ((isReadOnly_tableOfFile p).keepsFiles w)
  | check p table => exact .inl ((isReadOnly_checkFile p table).keepsFiles w)
  | fill p table =>
    rw [perform]
    obtain ⟨l, bytes, hl, hfree, hrun⟩ | ⟨e, hrun⟩ := run_fillFile_cases w p table
    · rw [hrun]
      exact .inr ⟨p, .fill hrun, outputWritten_put hl hfree bytes⟩
    · rw [hrun]
      exact .inl (.refl w)
  | write p contents =>
    rw [perform]
    obtain ⟨l, hl, hfree, hrun⟩ | ⟨cause, hrun⟩ := run_writeOutput_cases w p contents
    · rw [hrun]
      exact .inr ⟨p, .write hrun, outputWritten_put hl hfree _⟩
    · rw [hrun]
      exact .inl (.refl w)
  | invoke arguments => exact w.invoke_cases arguments

theorem OutputWritten.sameButDockerfiles {p : Path} {w w' : World} (h : OutputWritten p w w') :
    w.files.SameButDockerfiles w'.files := by
  obtain ⟨l, bytes, hl, hfree, hput⟩ := h
  rw [hput.files]
  exact FileSystem.sameButDockerfiles_put hfree (FileSystem.head?_of_locate_output hl) bytes

theorem OutputWritten.locate_of_changed {p : Path} {w w' : World} {l : Location}
    (h : OutputWritten p w w') (hchanged : w'.files.find? l ≠ w.files.find? l) :
    w.locate p.output = .ok l := by
  obtain ⟨k, bytes, hk, -, hput⟩ := h
  by_cases hlk : l = k
  · rw [hlk]
    exact hk
  · rw [hput.files] at hchanged
    exact absurd (FileSystem.find?_put_of_ne _ _ hlk) hchanged

/-- What an operation preserves. -/
theorem perform_sameButDockerfiles (w : World) (op : Operation) :
    w.files.SameButDockerfiles (w.perform op).files := by
  obtain hsame | ⟨p, -, hwritten⟩ := w.perform_cases op
  · rw [hsame.files]
    exact .refl _
  · exact hwritten.sameButDockerfiles

theorem directory_perform (w : World) (op : Operation) : (w.perform op).directory = w.directory := by
  obtain hsame | ⟨p, -, l, bytes, -, -, hput⟩ := w.perform_cases op
  · exact hsame.directory
  · exact hput.directory

theorem locate_of_locate_perform {w : World} {op : Operation} {p : Path} {l : Location}
    (h : (w.perform op).locate p = .ok l) : w.locate p = .ok l := by
  unfold locate at h ⊢
  rw [directory_perform] at h
  exact (w.perform_sameButDockerfiles op).directories.symm.locate h

/-- What operations preserve one after the other. -/
theorem performAll_sameButDockerfiles (w : World) (operations : List Operation) :
    w.files.SameButDockerfiles (w.performAll operations).files := by
  induction operations generalizing w with
  | nil => exact .refl _
  | cons op operations ih => exact (w.perform_sameButDockerfiles op).trans (ih (w.perform op))

/-- A file that has changed is the output of a template that has been written. -/
theorem writesAmong_of_changed {w : World} {operations : List Operation} {l : Location}
    (h : (w.performAll operations).files.find? l ≠ w.files.find? l) :
    ∃ p, w.WritesAmong operations p ∧ w.locate p.output = .ok l := by
  induction operations generalizing w with
  | nil => exact absurd rfl h
  | cons op operations ih =>
    by_cases hfirst : (w.perform op).files.find? l = w.files.find? l
    · rw [← hfirst] at h
      obtain ⟨p, hwrites, hl⟩ := ih h
      exact ⟨p, .later hwrites, locate_of_locate_perform hl⟩
    · obtain hsame | ⟨p, hwrites, hwritten⟩ := w.perform_cases op
      · rw [hsame.files] at hfirst
        exact absurd rfl hfirst
      · exact ⟨p, .first hwrites, hwritten.locate_of_changed hfirst⟩

theorem files_performAll_of_no_writes {w : World} {operations : List Operation}
    (h : ∀ p, ¬ w.WritesAmong operations p) : (w.performAll operations).files = w.files := by
  induction operations generalizing w with
  | nil => rfl
  | cons op operations ih =>
    have hrest := ih fun p hp => h p (.later hp)
    obtain hsame | ⟨p, hwrites, -⟩ := w.perform_cases op
    · exact hrest.trans hsame.files
    · exact absurd (.first hwrites) (h p)

/-- Whatever is done, and at whatever point one looks, only Dockerfiles have changed. The directories are
the ones of the beginning, the files of the beginning are still there, and all but those called
Dockerfile have the bytes that they had. What has changed is the output of a template that an operation
has succeeded in writing by then, and without such an operation nothing has changed. -/
theorem performAll_changes_only_dockerfiles (w : World) (operations : List Operation) (k : Nat) :
    let done := operations.take k
    let now := w.performAll done
    w.files.SameButDockerfiles now.files ∧
      (∀ l, now.files.find? l ≠ w.files.find? l →
        ∃ p, w.WritesAmong done p ∧ w.locate p.output = .ok l) ∧
      ((∀ p, ¬ w.WritesAmong done p) → now.files = w.files) := by
  intro done now
  exact ⟨w.performAll_sameButDockerfiles done, fun l => writesAmong_of_changed,
    files_performAll_of_no_writes⟩

end World

end Stencil
