import Stencil.Proofs.Lexing
import Stencil.Template

/-!
# Errors and their tokens

Every error of a filling comes from one token of the source, a delimiter that dangles or a placeholder
without an entry. It names the stretch of that token and, where it gives a position, the position
reached by walking over everything before the token.
-/

namespace Stencil

namespace Token.Placed

/-- A contribution is that of one token, at the position behind the tokens before it. -/
theorem mem_fillAll {table : Table} {p : Position} {start : Nat} {ts : List Token}
    {part : Except TemplateError Text} (h : part ∈ fillAll table p (placeAll start ts)) :
    ∃ us t vs, ts = us ++ t :: vs ∧
      part = fill table (p.advance (spellAll us))
        ⟨t, start + byteLength (spellAll us), start + byteLength (spellAll us) + t.width⟩ := by
  induction ts generalizing start p with
  | nil => cases h
  | cons u ts ih =>
    rw [placeAll_cons, fillAll] at h
    rcases List.mem_cons.1 h with rfl | h
    · exact ⟨[], u, ts, rfl, rfl⟩
    · obtain ⟨us, t, vs, rfl, rfl⟩ := ih h
      refine ⟨u :: us, t, vs, rfl, ?_⟩
      simp only [spellAll_cons, Position.advance_append, byteLength_append, byteLength_spelling,
        Nat.add_assoc]

/-- A token that contributes an error dangles or is a placeholder without an entry. -/
theorem fill_eq_error_iff {table : Table} {p : Position} {t : Placed} {e : TemplateError} :
    t.fill table p = .error e ↔
      (t.token = .dangling ∧ e = .invalid t.span p) ∨
        ∃ name, (t.token = .named name ∨ t.token = .braced name) ∧ table.get? name = none ∧
          e = .undefined name t.span (table.suggestions name) := by
  obtain ⟨token, span⟩ := t
  cases token with
  | named name =>
    cases hget : table.get? name with
    | none => simp [fill, hget, eq_comm]
    | some value => simp [fill, hget]
  | braced name =>
    cases hget : table.get? name with
    | none => simp [fill, hget, eq_comm]
    | some value => simp [fill, hget]
  | dangling => simp [fill, eq_comm]
  | _ => simp [fill]

end Token.Placed

namespace Template

theorem mem_problems_iff {t : Template} {table : Table} {e : TemplateError} :
    e ∈ t.problems table ↔ .error e ∈ t.parts table := by
  rw [problems, Token.Placed.errors, List.mem_filterMap]
  constructor
  · intro h
    obtain ⟨part, hpart, he⟩ := h
    cases part with
    | error e' =>
      cases he
      exact hpart
    | ok text => cases he
  · intro h
    exact ⟨.error e, h, rfl⟩

/-- An error stands on the token that it comes from. -/
theorem mem_problems {source : Text} {table : Table} {e : TemplateError}
    (h : e ∈ problems ⟨source⟩ table) :
    ∃ before token after, source = before ++ token.spelling ++ after ∧ token.IsProper ∧
      Token.Placed.fill table (Position.first.advance before)
        ⟨token, byteLength before, byteLength before + byteLength token.spelling⟩ = .error e := by
  have hspell := Token.spellAll_lex source
  have hpart := mem_problems_iff.1 h
  rw [parts, tokens, Token.lex_eq_placeAll] at hpart
  obtain ⟨us, token, vs, hts, he⟩ := Token.Placed.mem_fillAll hpart
  have hmem : token ∈ (Token.lex source).map (·.token) := by
    rw [hts]
    simp
  obtain ⟨placed, hplaced, rfl⟩ := List.mem_map.1 hmem
  refine ⟨Token.spellAll us, placed.token, Token.spellAll vs, ?_,
    Token.isProper_of_mem_lex hplaced, ?_⟩
  · rw [← hspell, hts]
    simp
  · rw [Nat.zero_add] at he
    rw [Token.byteLength_spelling, he]

theorem span_of_fill_eq_error {table : Table} {p : Position} {t : Token.Placed} {e : TemplateError}
    (h : t.fill table p = .error e) : e.span = t.span := by
  rcases Token.Placed.fill_eq_error_iff.1 h with ⟨-, rfl⟩ | ⟨name, -, -, rfl⟩
  · rfl
  · rfl

end Template

end Stencil
