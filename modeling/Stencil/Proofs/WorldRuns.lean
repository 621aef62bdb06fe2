import Stencil.Dockerfile

/-!
# Computations in a world

A computation that may fail has a result in a world and leaves a world behind. `run` gives both, and
each service and each operation on files has one equation for its run, so that longer computations are
followed step by step without looking into the monads they are written in.
-/

namespace Stencil.World

section
variable {ε δ α β : Type}

/-- What a computation comes to in a world, and the world that it leaves. -/
def run (w : World) (x : ExceptT ε (StateM World) α) : Except ε α × World := x w

@[simp] theorem run_pure (w : World) (a : α) :
    w.run (pure a : ExceptT ε (StateM World) α) = (.ok a, w) := rfl

@[simp] theorem run_throw (w : World) (e : ε) :
    w.run (throw e : ExceptT ε (StateM World) α) = (.error e, w) := rfl

theorem run_bind (w : World) (x : ExceptT ε (StateM World) α) (f : α → ExceptT ε (StateM World) β) :
    w.run (x >>= f) =
      match w.run x with
      | (.ok a, w') => w'.run (f a)
      | (.error e, w') => (.error e, w') := by
  change ExceptT.bindCont f (w.run x).1 (w.run x).2 = _
  obtain ⟨r, w'⟩ := w.run x
  cases r <;> rfl

theorem run_bind_ok {w w' : World} {x : ExceptT ε (StateM World) α} {a : α}
    (h : w.run x = (.ok a, w')) (f : α → ExceptT ε (StateM World) β) :
    w.run (x >>= f) = w'.run (f a) := by
  rw [run_bind, h]

theorem run_bind_error {w w' : World} {x : ExceptT ε (StateM World) α} {e : ε}
    (h : w.run x = (.error e, w')) (f : α → ExceptT ε (StateM World) β) :
    w.run (x >>= f) = (.error e, w') := by
  rw [run_bind, h]

theorem run_bind_eq_ok_iff {w w' : World} {x : ExceptT ε (StateM World) α}
    {f : α → ExceptT ε (StateM World) β} {b : β} :
    w.run (x >>= f) = (.ok b, w') ↔
      ∃ a w₁, w.run x = (.ok a, w₁) ∧ w₁.run (f a) = (.ok b, w') := by
  rw [run_bind]
  obtain ⟨r, w₁⟩ := w.run x
  cases r <;> simp [and_assoc]

theorem run_bind_eq_error_iff {w w' : World} {x : ExceptT ε (StateM World) α}
    {f : α → ExceptT ε (StateM World) β} {e : ε} :
    w.run (x >>= f) = (.error e, w') ↔
      w.run x = (.error e, w') ∨ ∃ a w₁, w.run x = (.ok a, w₁) ∧ w₁.run (f a) = (.error e, w') := by
  rw [run_bind]
  obtain ⟨r, w₁⟩ := w.run x
  cases r <;> simp [and_assoc]

@[simp] theorem run_adapt (w : World) (f : ε → δ) (x : ExceptT ε (StateM World) α) :
    w.run (x.adapt f) = ((w.run x).1.mapError f, (w.run x).2) := rfl

theorem mapError_eq_ok_iff {r : Except ε α} {f : ε → δ} {a : α} :
    r.mapError f = .ok a ↔ r = .ok a := by
  constructor
  · intro h
    cases r with
    | ok b =>
      cases h
      rfl
    | error e => cases h
  · rintro rfl
    rfl

theorem mapError_eq_error_iff {r : Except ε α} {f : ε → δ} {d : δ} :
    r.mapError f = .error d ↔ ∃ e, r = .error e ∧ d = f e := by
  constructor
  · intro h
    cases r with
    | ok b => cases h
    | error e =>
      cases h
      exact ⟨e, rfl, rfl⟩
  · rintro ⟨e, rfl, rfl⟩
    rfl

theorem run_adapt_eq_ok_iff {w w' : World} {x : ExceptT ε (StateM World) α} {f : ε → δ} {a : α} :
    w.run (x.adapt f) = (.ok a, w') ↔ w.run x = (.ok a, w') := by
  rw [run_adapt, Prod.mk.injEq, mapError_eq_ok_iff, Prod.ext_iff]

theorem run_adapt_eq_error_iff {w w' : World} {x : ExceptT ε (StateM World) α} {f : ε → δ} {d : δ} :
    w.run (x.adapt f) = (.error d, w') ↔ ∃ e, w.run x = (.error e, w') ∧ d = f e := by
  rw [run_adapt, Prod.mk.injEq, mapError_eq_error_iff]
  constructor
  · rintro ⟨⟨e, he, hd⟩, hw⟩
    exact ⟨e, Prod.ext he hw, hd⟩
  · rintro ⟨e, he, hd⟩
    rw [he]
    exact ⟨⟨e, rfl, hd⟩, rfl⟩

@[simp] theorem run_liftExcept (w : World) (r : Except ε α) :
    w.run (liftExcept r : ExceptT ε (StateM World) α) = (r, w) := by
  cases r <;> rfl

theorem run_liftExcept_eq_ok_iff {w w' : World} {r : Except ε α} {f : ε → δ} {a : α} :
    w.run (liftExcept (r.mapError f) : ExceptT δ (StateM World) α) = (.ok a, w') ↔
      r = .ok a ∧ w' = w := by
  rw [run_liftExcept, Prod.mk.injEq, mapError_eq_ok_iff, @eq_comm _ w]

theorem run_liftExcept_eq_error_iff {w w' : World} {r : Except ε α} {f : ε → δ} {d : δ} :
    w.run (liftExcept (r.mapError f) : ExceptT δ (StateM World) α) = (.error d, w') ↔
      (∃ e, r = .error e ∧ d = f e) ∧ w' = w := by
  rw [run_liftExcept, Prod.mk.injEq, mapError_eq_error_iff, @eq_comm _ w]

@[simp] theorem run_read (w : World) (p : Path) :
    w.run (ExceptT.mk (System.read p)) = (w.read p, w) := rfl

@[simp] theorem run_write (w : World) (p : Path) (bytes : ByteArray) :
    w.run (ExceptT.mk (System.write p bytes)) =
      match w.write p bytes with
      | .ok w' => (.ok (), w')
      | .error e => (.error e, w) := rfl

@[simp] theorem run_print (w : World) (s : Text) :
    w.run (System.print s : ExceptT ε (StateM World) Unit) =
      (.ok (), { w with output := w.output ++ s }) := rfl

/-- What reading the text of a file comes to. -/
def readText (w : World) (p : Path) : Except FileError Text := w.read p >>= decodeText

theorem run_readText (w : World) (p : Path) :
    w.run (Stencil.readText p) = (w.readText p, w) := by
  unfold Stencil.readText readText
  rw [run_bind, run_read]
  cases w.read p <;> rfl

/-- A computation that leaves every world as it finds it. -/
def IsReadOnly (x : ExceptT ε (StateM World) α) : Prop := ∀ w : World, (w.run x).2 = w

theorem isReadOnly_pure (a : α) : IsReadOnly (pure a : ExceptT ε (StateM World) α) := fun _ => rfl

theorem isReadOnly_throw (e : ε) : IsReadOnly (throw e : ExceptT ε (StateM World) α) := fun _ => rfl

theorem isReadOnly_liftM (r : Except ε α) :
    IsReadOnly (liftM r : ExceptT ε (StateM World) α) := fun _ => rfl

theorem isReadOnly_liftExcept (r : Except ε α) :
    IsReadOnly (liftExcept r : ExceptT ε (StateM World) α) := by
  intro w
  rw [run_liftExcept]

/-- A computation that changes nothing succeeds or fails in the world it started in. -/
theorem IsReadOnly.cases {x : ExceptT ε (StateM World) α} (hx : IsReadOnly x) (w : World) :
    (∃ a, w.run x = (.ok a, w)) ∨ ∃ e, w.run x = (.error e, w) := by
  have hrun : w.run x = ((w.run x).1, w) := Prod.ext rfl (hx w)
  cases hresult : (w.run x).1 with
  | ok a => exact .inl ⟨a, by rw [hrun, hresult]⟩
  | error e => exact .inr ⟨e, by rw [hrun, hresult]⟩

theorem IsReadOnly.bind {x : ExceptT ε (StateM World) α} {f : α → ExceptT ε (StateM World) β}
    (hx : IsReadOnly x) (hf : ∀ a, IsReadOnly (f a)) : IsReadOnly (x >>= f) := by
  intro w
  obtain ⟨a, ha⟩ | ⟨e, he⟩ := hx.cases w
  · rw [run_bind_ok ha]
    exact hf a w
  · rw [run_bind_error he]

theorem IsReadOnly.adapt {x : ExceptT ε (StateM World) α} (hx : IsReadOnly x) (f : ε → δ) :
    IsReadOnly (x.adapt f) := fun w => hx w

theorem IsReadOnly.eq_of_run {x : ExceptT ε (StateM World) α} (hx : IsReadOnly x) {w w' : World}
    {r : Except ε α} (h : w.run x = (r, w')) : w' = w := by
  have hw := hx w
  rw [h] at hw
  exact hw

theorem isReadOnly_readText (p : Path) : IsReadOnly (Stencil.readText p) := by
  intro w
  rw [run_readText]

end

section
open Template

theorem isReadOnly_tableOfFile (p : Path) : IsReadOnly (Table.ofFile p) := by
  unfold Table.ofFile
  apply IsReadOnly.bind
  · exact (isReadOnly_readText p).adapt _
  · exact fun source => isReadOnly_liftM _

theorem isReadOnly_ofFile (p : Path) : IsReadOnly (ofFile p) := by
  unfold ofFile
  apply IsReadOnly.bind
  · exact (isReadOnly_readText p).adapt _
  · exact fun source => isReadOnly_pure _

theorem isReadOnly_checkFile (p : Path) (table : Table) : IsReadOnly (checkFile p table) := by
  unfold checkFile
  apply IsReadOnly.bind
  · exact isReadOnly_ofFile p
  · exact fun t => isReadOnly_liftExcept _

theorem isReadOnly_expandHome (p : Path) : IsReadOnly p.expandHome := by
  unfold Path.expandHome
  split
  · exact isReadOnly_pure p
  · apply IsReadOnly.bind
    · exact fun w => rfl
    · intro home
      cases home with
      | none => exact isReadOnly_throw _
      | some home => exact isReadOnly_pure _

theorem isReadOnly_resolve (p : Path) : IsReadOnly p.resolve := by
  unfold Path.resolve
  apply IsReadOnly.bind
  · exact isReadOnly_expandHome p
  · intro q
    split
    · exact isReadOnly_pure q
    · apply IsReadOnly.bind
      · exact IsReadOnly.adapt (fun w => rfl) _
      · exact fun directory => isReadOnly_pure _

theorem run_ofFile_of_unreadable {w : World} {p : Path} {cause : FileError}
    (h : w.readText p = .error cause) : w.run (ofFile p) = (.error (.unreadable p cause), w) := by
  unfold ofFile
  apply run_bind_error
  rw [run_adapt, run_readText, h]
  rfl

theorem run_ofFile_of_readable {w : World} {p : Path} {source : Text}
    (h : w.readText p = .ok source) : w.run (ofFile p) = (.ok ⟨source⟩, w) := by
  unfold ofFile
  have hread : w.run ((Stencil.readText p).adapt (FillError.unreadable p)) = (.ok source, w) := by
    rw [run_adapt, run_readText, h]
    rfl
  rw [run_bind_ok hread, run_pure]

theorem run_writeOutput (w : World) (p : Path) (text : Text) :
    w.run (writeOutput p text) =
      match w.write p.output (encodeText text) with
      | .ok w' => (.ok p.output, w')
      | .error cause => (.error (.unwritable p.output cause), w) := by
  unfold writeOutput
  rw [run_bind, run_adapt, run_write]
  cases w.write p.output (encodeText text) <;> rfl

section
variable {w : World} {p : Path}

theorem run_fillFile_of_unreadable {cause : FileError} (h : w.readText p = .error cause)
    (table : Table) : w.run (fillFile p table) = (.error (.unreadable p cause), w) := by
  unfold fillFile
  apply run_bind_error
  exact run_ofFile_of_unreadable h

theorem run_fillFile_of_unfillable {source : Text} {table : Table} {errors : List TemplateError}
    (h : w.readText p = .ok source) (hfill : fill ⟨source⟩ table = .error errors) :
    w.run (fillFile p table) = (.error (.unfillable errors), w) := by
  unfold fillFile
  rw [run_bind_ok (run_ofFile_of_readable h), hfill]
  apply run_bind_error
  exact run_liftExcept w _

theorem run_fillFile_of_fillable {source text : Text} {table : Table}
    (h : w.readText p = .ok source) (hfill : fill ⟨source⟩ table = .ok text) :
    w.run (fillFile p table) = w.run (writeOutput p text) := by
  unfold fillFile
  rw [run_bind_ok (run_ofFile_of_readable h), hfill]
  apply run_bind_ok
  exact run_liftExcept w _

theorem run_checkFile_of_unreadable {cause : FileError} (h : w.readText p = .error cause)
    (table : Table) : w.run (checkFile p table) = (.error (.unreadable p cause), w) := by
  unfold checkFile
  apply run_bind_error
  exact run_ofFile_of_unreadable h

theorem run_checkFile_of_readable {source : Text} (h : w.readText p = .ok source) (table : Table) :
    w.run (checkFile p table) = ((check ⟨source⟩ table).mapError .unfillable, w) := by
  unfold checkFile
  rw [run_bind_ok (run_ofFile_of_readable h), run_liftExcept]

theorem run_fillFile_eq_ok_iff {w' : World} {table : Table} {output : Path} :
    w.run (fillFile p table) = (.ok output, w') ↔
      ∃ template text, w.run (ofFile p) = (.ok template, w) ∧ fill template table = .ok text ∧
        w.run (writeOutput p text) = (.ok output, w') := by
  unfold fillFile
  simp only [run_bind_eq_ok_iff, run_liftExcept_eq_ok_iff]
  constructor
  · rintro ⟨template, w₁, hread, text, w₂, ⟨hfill, rfl⟩, hwrite⟩
    cases (isReadOnly_ofFile p).eq_of_run hread
    exact ⟨template, text, hread, hfill, hwrite⟩
  · rintro ⟨template, text, hread, hfill, hwrite⟩
    exact ⟨template, w, hread, text, w, ⟨hfill, rfl⟩, hwrite⟩

end

end

end Stencil.World
