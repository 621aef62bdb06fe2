import Stencil.Proofs.SearchFilling
import Stencil.Proofs.SourceLines

/-!
# Text behind other text

What a text is filled to does not depend on where it stands, but the places of its errors do. Behind
another text a span moves by the bytes of that text and a line by its newlines; a column moves only on
the first line, by the characters behind the last newline of the other text. `behind` says so for
spans, positions and errors, and filling a text from a place behind another one comes to the same
filled text and to errors that have moved.
-/

namespace Stencil

/-- The characters behind the last newline of a text. -/
def lastLine (s : Text) : Text := (s.reverse.takeWhile (· ≠ '\n')).reverse

@[simp] theorem lastLine_nil : lastLine [] = [] := rfl

theorem lastLine_append_newline (s : Text) : lastLine (s ++ ['\n']) = [] := by
  simp [lastLine]

theorem lastLine_append_of_ne (s : Text) {c : Char} (hc : c ≠ '\n') :
    lastLine (s ++ [c]) = lastLine s ++ [c] := by
  simp [lastLine, hc]

/-- A span of a text, when the text stands behind `s`. -/
def Span.behind (s : Text) (span : Span) : Span :=
  ⟨byteLength s + span.start, byteLength s + span.stop⟩

namespace Position

/-- A position of a text, when the text stands behind `s`. -/
def behind (s : Text) (p : Position) : Position :=
  ⟨p.line + s.count '\n', if p.line = 1 then p.column + (lastLine s).length else p.column⟩

theorem behind_step (s : Text) {p : Position} (hp : p.line ≠ 0) (c : Char) :
    (p.behind s).step c = (p.step c).behind s := by
  unfold step behind
  by_cases hc : c = '\n'
  · have hline : p.line + 1 ≠ 1 := by omega
    simp only [hc, if_true, hline, if_false, mk.injEq, and_true]
    omega
  · simp only [hc, if_false]
    split
    · simp only [mk.injEq, true_and]
      omega
    · rfl

theorem behind_advance (s : Text) {p : Position} (hp : p.line ≠ 0) (t : Text) :
    (p.behind s).advance t = (p.advance t).behind s := by
  induction t generalizing p with
  | nil => rfl
  | cons c t ih =>
    have hstep : (p.step c).line ≠ 0 := by
      unfold step
      split <;> simp [hp]
    rw [advance_cons, advance_cons, behind_step s hp, ih hstep]

theorem first_advance_eq_behind (s : Text) : first.advance s = first.behind s := by
  induction s using List.reverseRecOn with
  | nil => rfl
  | append_singleton s c ih =>
    rw [advance_append, ih, advance_cons, advance_nil]
    by_cases hc : c = '\n'
    · simp [hc, step, behind, first, lastLine_append_newline, Nat.add_assoc]
    · simp [hc, step, behind, first, lastLine_append_of_ne s hc, Nat.add_assoc]

end Position

namespace TemplateError

/-- An error of a text, when the text stands behind `s`. -/
def behind (s : Text) : TemplateError → TemplateError
  | undefined name span suggestions => undefined name (span.behind s) suggestions
  | invalid span p => invalid (span.behind s) (p.behind s)

end TemplateError

namespace Template.Search

open TemplateError (behind)

theorem contribution_behind (s : Text) (table : Table) (name : Text) (span : Span) :
    contribution table name (span.behind s) = (contribution table name span).mapError (behind s) := by
  unfold contribution
  cases table.get? name <;> rfl

theorem fill_behind (s : Text) (table : Table) (p : Position) (t : Token) (span : Span) :
    Token.Placed.fill table (p.behind s) ⟨t, span.behind s⟩ =
      (Token.Placed.fill table p ⟨t, span⟩).mapError (behind s) := by
  cases t with
  | named name => exact contribution_behind s table name span
  | braced name => exact contribution_behind s table name span
  | _ => rfl

theorem put_mapError (f : TemplateError → TemplateError) (part : Except TemplateError Text)
    (r : Text × List TemplateError) :
    put (part.mapError f) (r.1, r.2.map f) = ((put part r).1, (put part r).2.map f) := by
  cases part <;> rfl

/-- Behind another text, the same text comes out and the errors have moved. -/
theorem fillFrom_behind (s : Text) (table : Table) (offset : Nat) {p : Position} (hp : p.line ≠ 0)
    (t : Text) :
    fillFrom table (byteLength s + offset) (p.behind s) t =
      ((fillFrom table offset p t).1, (fillFrom table offset p t).2.map (behind s)) := by
  induction t using Token.reading_induction generalizing offset p with
  | nil =>
    rw [fillFrom_eq, fillFrom_eq]
    rfl
  | token u rest hu hrest ih =>
    have hline : (p.advance u.spelling).line ≠ 0 := by
      rw [SourceLine.line_advance]
      omega
    rw [fillFrom_spelling_append hu hrest, fillFrom_spelling_append hu hrest,
      Position.behind_advance s hp, Nat.add_assoc, ih _ hline, ← put_mapError]
    exact congrArg (put · _) (fill_behind s table p u ⟨offset, offset + u.width⟩)

end Template.Search

end Stencil
