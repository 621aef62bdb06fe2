import Stencil.Proofs.Deciding
import Stencil.Proofs.Problems
import Stencil.Proofs.ReplacementTexts
import Stencil.Proofs.Shifting
import Stencil.Proofs.Spelling

/-!
# Lists of errors

The errors of a template come from its tokens one after the other. `errorsFrom` is their list for tokens
that stand from some place on, and it falls apart where the tokens do. Each error tells the truth about
its own token, `IsAccurate`. Tokens do not overlap and take the position on, so the errors of a list
stand in order, `Precedes`: the spans one behind the other, and the positions too.
-/

namespace Stencil

namespace Position

/-- Whether a position is on an earlier line than another one, or further left on the same line. -/
def Before (p q : Position) : Prop := p.line < q.line ∨ p.line = q.line ∧ p.column < q.column

theorem Before.trans {p q r : Position} (h : p.Before q) (h' : q.Before r) : p.Before r := by
  unfold Before at *
  omega

theorem before_step (p : Position) (c : Char) : p.Before (p.step c) := by
  unfold step
  split
  · exact Or.inl (Nat.lt_succ_self p.line)
  · exact Or.inr ⟨rfl, Nat.lt_succ_self p.column⟩

/-- A walk over some text ends behind the position that it begins at. -/
theorem before_advance {s : Text} (hs : s ≠ []) (p : Position) : p.Before (p.advance s) := by
  induction s generalizing p with
  | nil => exact absurd rfl hs
  | cons c s ih =>
    have hstep := before_step p c
    by_cases hnil : s = []
    · rw [hnil]
      exact hstep
    · exact hstep.trans (ih hnil _)

/-- The position behind a text, counted by its newlines and its last line. -/
theorem first_advance_eq (s : Text) :
    first.advance s = ⟨s.count '\n' + 1, (lastLine s).length + 1⟩ := by
  rw [first_advance_eq_behind]
  simp [behind, first, Nat.add_comm]

end Position

namespace TemplateError

/-- The position that an error gives in its message. -/
def position? : TemplateError → Option Position
  | undefined .. => none
  | invalid _ p => some p

/-- Whether an error ends before another one begins, in bytes and in the positions that they give. -/
structure Precedes (a b : TemplateError) : Prop where
  stop_le : a.span.stop ≤ b.span.start
  before : ∀ p ∈ a.position?, ∀ q ∈ b.position?, p.Before q

/-- What an error says of the source and of the table, when it is true. -/
def IsAccurate (source : Text) (table : Table) : TemplateError → Prop
  | undefined name span suggestions =>
    (slice? source span = some ('@' :: '@' :: name) ∨
      slice? source span = some ('@' :: '@' :: '{' :: name ++ ['}'])) ∧
    isIdentifier name ∧ name ∉ table.names ∧ ∀ key ∈ suggestions, key ∈ table.names ∧ key ≠ name
  | invalid span p =>
    slice? source span = some ['@', '@'] ∧
    ∃ before after, cutAt? source span.start = some (before, after) ∧
      p = ⟨before.count '\n' + 1, (lastLine before).length + 1⟩

/-- Whether an error stands at or behind a byte and a position. -/
structure IsFrom (start : Nat) (p : Position) (e : TemplateError) : Prop where
  start_le : start ≤ e.span.start
  position : ∀ q ∈ e.position?, p = q ∨ p.Before q

theorem IsFrom.mono {start start' : Nat} {p p' : Position} {e : TemplateError}
    (h : IsFrom start' p' e) (hstart : start ≤ start') (hp : p.Before p') : IsFrom start p e := by
  refine ⟨Nat.le_trans hstart h.start_le, fun q hq => Or.inr ?_⟩
  rcases h.position q hq with rfl | hbefore
  · exact hp
  · exact hp.trans hbefore

end TemplateError

namespace Token.Placed

variable {table : Table}

/-- The errors of tokens that stand from byte `start` and position `p` on. -/
def errorsFrom (table : Table) (start : Nat) (p : Position) (ts : List Token) :
    List TemplateError :=
  errors (fillAll table p (placeAll start ts))

theorem errorsFrom_cons (start : Nat) (p : Position) (t : Token) (ts : List Token) :
    errorsFrom table start p (t :: ts) =
      errors [fill table p ⟨t, start, start + t.width⟩] ++
        errorsFrom table (start + t.width) (p.advance t.spelling) ts := by
  unfold errorsFrom
  rw [placeAll_cons, fillAll]
  cases fill table p ⟨t, start, start + t.width⟩ <;> rfl

theorem errorsFrom_append (start : Nat) (p : Position) (us vs : List Token) :
    errorsFrom table start p (us ++ vs) =
      errorsFrom table start p us ++
        errorsFrom table (start + byteLength (spellAll us)) (p.advance (spellAll us)) vs := by
  induction us generalizing start p with
  | nil => rfl
  | cons u us ih =>
    rw [List.cons_append, errorsFrom_cons, errorsFrom_cons, ih, spellAll_cons, byteLength_append,
      byteLength_spelling, Position.advance_append, Nat.add_assoc, List.append_assoc]

/-- An error comes from one token, and those before and behind it from the tokens there. -/
theorem exists_of_errorsFrom_eq {start : Nat} {p : Position} {ts : List Token}
    {before after : List TemplateError} {e : TemplateError}
    (h : errorsFrom table start p ts = before ++ e :: after) :
    ∃ us t vs, ts = us ++ t :: vs ∧ errorsFrom table start p us = before ∧
      fill table (p.advance (spellAll us))
        ⟨t, start + byteLength (spellAll us), start + byteLength (spellAll us) + t.width⟩ =
          .error e ∧
      errorsFrom table (start + byteLength (spellAll us) + t.width)
        ((p.advance (spellAll us)).advance t.spelling) vs = after := by
  induction ts generalizing start p before with
  | nil => simp [errorsFrom, fillAll, errors] at h
  | cons u ts ih =>
    rw [errorsFrom_cons] at h
    -- The error is that of the first token, or one of those behind it.
    have hcases : (before = [] ∧ fill table p ⟨u, start, start + u.width⟩ = .error e ∧
          errorsFrom table (start + u.width) (p.advance u.spelling) ts = after) ∨
        ∃ before', before = errors [fill table p ⟨u, start, start + u.width⟩] ++ before' ∧
          errorsFrom table (start + u.width) (p.advance u.spelling) ts = before' ++ e :: after := by
      cases hfill : fill table p ⟨u, start, start + u.width⟩ with
      | ok text =>
        rw [hfill] at h
        exact Or.inr ⟨before, rfl, h⟩
      | error e' =>
        rw [hfill] at h
        cases before with
        | nil =>
          obtain ⟨rfl, hrest⟩ := List.cons.inj h
          exact Or.inl ⟨rfl, rfl, hrest⟩
        | cons b before =>
          obtain ⟨rfl, hrest⟩ := List.cons.inj h
          exact Or.inr ⟨before, rfl, hrest⟩
    rcases hcases with ⟨rfl, hfill, hafter⟩ | ⟨before', rfl, hrest⟩
    · exact ⟨[], u, ts, rfl, rfl, hfill, hafter⟩
    · obtain ⟨us, t, vs, rfl, hbefore, hfill, hafter⟩ := ih hrest
      refine ⟨u :: us, t, vs, rfl, ?_, ?_, ?_⟩
      · rw [errorsFrom_cons, hbefore]
      · simpa only [spellAll_cons, byteLength_append, byteLength_spelling, Position.advance_append,
          Nat.add_assoc] using hfill
      · simpa only [spellAll_cons, byteLength_append, byteLength_spelling, Position.advance_append,
          Nat.add_assoc] using hafter

/-- The error of one token has the span of the token, and its position if it gives any. -/
theorem span_position_of_fill_eq_error {t : Placed} {p : Position} {e : TemplateError}
    (h : t.fill table p = .error e) : e.span = t.span ∧ ∀ q ∈ e.position?, p = q := by
  rcases fill_eq_error_iff.1 h with ⟨-, rfl⟩ | ⟨name, -, -, rfl⟩
  · exact ⟨rfl, fun q hq => Option.some.inj hq⟩
  · exact ⟨rfl, fun q hq => by cases hq⟩

theorem mem_errors_singleton {part : Except TemplateError Text} {e : TemplateError} :
    e ∈ errors [part] ↔ part = .error e := by
  cases part <;> simp [errors, eq_comm]

/-- The errors of tokens in a row stand from their first byte on, and in order. -/
theorem errorsFrom_inOrder {ts : List Token} (h : ∀ t ∈ ts, t.IsProper) (start : Nat) (p : Position) :
    (∀ e ∈ errorsFrom table start p ts, e.IsFrom start p) ∧
      (errorsFrom table start p ts).Pairwise TemplateError.Precedes := by
  induction ts generalizing start p with
  | nil => simp [errorsFrom, fillAll, errors]
  | cons t ts ih =>
    obtain ⟨ht, hts⟩ := List.forall_mem_cons.1 h
    obtain ⟨hfrom, hpairwise⟩ := ih hts (start + t.width) (p.advance t.spelling)
    have hbefore := Position.before_advance (spelling_ne_nil ht) p
    have hhead : ∀ e ∈ errors [fill table p ⟨t, start, start + t.width⟩],
        e.span = ⟨start, start + t.width⟩ ∧ ∀ q ∈ e.position?, p = q := by
      intro e he
      exact span_position_of_fill_eq_error (mem_errors_singleton.1 he)
    rw [errorsFrom_cons]
    constructor
    · intro e he
      rcases List.mem_append.1 he with he | he
      · obtain ⟨hspan, hposition⟩ := hhead e he
        exact ⟨by rw [hspan], fun q hq => Or.inl (hposition q hq)⟩
      · exact (hfrom e he).mono (Nat.le_add_right start t.width) hbefore
    · refine List.pairwise_append.2 ⟨?_, hpairwise, ?_⟩
      · cases fill table p ⟨t, start, start + t.width⟩ <;> simp [errors]
      · intro e he e' he'
        obtain ⟨hspan, hposition⟩ := hhead e he
        obtain ⟨hstart, hfollows⟩ := hfrom e' he'
        refine ⟨by rwa [hspan], fun q hq r hr => ?_⟩
        rw [← hposition q hq]
        rcases hfollows r hr with rfl | hr
        · exact hbefore
        · exact hbefore.trans hr

end Token.Placed

namespace Template

open Token.Placed (errorsFrom)

theorem problems_spellAll {ts : List Token} (h : Token.WellFormed ts) (table : Table) :
    problems ⟨Token.spellAll ts⟩ table = errorsFrom table 0 .first ts := by
  rw [problems, parts, tokens, Token.lex_spellAll h, errorsFrom]

/-- Every template is the spelling of well formed tokens, and its errors are theirs. -/
theorem exists_problems_eq (source : Text) :
    ∃ ts, Token.WellFormed ts ∧ source = Token.spellAll ts ∧
      ∀ table : Table, problems ⟨source⟩ table = errorsFrom table 0 .first ts := by
  have hwell := Token.wellFormed_lex source
  have hspell := Token.spellAll_lex source
  refine ⟨_, hwell, hspell.symm, fun table => ?_⟩
  rw [← problems_spellAll hwell, hspell]

theorem mem_names_of_mem_suggestions {table : Table} {name key : Text}
    (h : key ∈ table.suggestions name) : key ∈ table.names :=
  List.mem_of_mem_filter h

/-- An error of a template is true, and stands on some characters of the source. -/
theorem isAccurate_of_mem_problems {source : Text} {table : Table} {e : TemplateError}
    (h : e ∈ problems ⟨source⟩ table) :
    e.IsAccurate source table ∧ e.span.start < e.span.stop ∧ e.span.stop ≤ byteLength source ∧
      IsPlace source e.span.start ∧ IsPlace source e.span.stop := by
  obtain ⟨before, token, after, rfl, hproper, hfill⟩ := mem_problems h
  have hspan := span_of_fill_eq_error hfill
  have hslice : slice? (before ++ token.spelling ++ after) e.span = some token.spelling := by
    rw [hspan]
    exact slice?_append before token.spelling after
  refine ⟨?_, ?_, ?_, ⟨before, token.spelling ++ after, ?_, ?_⟩,
    ⟨before ++ token.spelling, after, rfl, ?_⟩⟩
  · rcases Token.Placed.fill_eq_error_iff.1 hfill with ⟨hdangling, rfl⟩ | ⟨name, hname, hget, rfl⟩
    · obtain rfl : token = .dangling := hdangling
      refine ⟨hslice, before, ['@', '@'] ++ after, ?_, Position.first_advance_eq before⟩
      rw [List.append_assoc]
      exact cutAt?_append before _
    · have hmissing : name ∉ table.names := by
        rw [Table.mem_names_iff]
        rcases table.get?_cases name with ⟨-, value, hvalue⟩ | ⟨hcontains, -⟩
        · rw [hget] at hvalue
          cases hvalue
        · simp [hcontains]
      have hsuggested : ∀ key ∈ table.suggestions name, key ∈ table.names ∧ key ≠ name := by
        intro key hkey
        have hmem := mem_names_of_mem_suggestions hkey
        exact ⟨hmem, fun heq => hmissing (heq ▸ hmem)⟩
      rcases hname with hname | hname
      · obtain rfl : token = .named name := hname
        exact ⟨Or.inl hslice, hproper, hmissing, hsuggested⟩
      · obtain rfl : token = .braced name := hname
        exact ⟨Or.inr hslice, hproper, hmissing, hsuggested⟩
  · have hpos := Token.width_pos hproper
    rw [hspan, Token.byteLength_spelling]
    exact Nat.lt_add_of_pos_right hpos
  · rw [hspan, byteLength_append, byteLength_append]
    exact Nat.le_add_right _ _
  · rw [List.append_assoc]
  · rw [hspan]
  · rw [hspan, byteLength_append]

/-- The errors of a template that is not filled. There is one at least. Each stands on some characters
of the source, between two of its characters or at its ends, and what it says is true. They stand in
order: no two of them overlap, each begins behind the one before, and so do the positions in their
messages. -/
theorem fill_errors_inOrder {source : Text} {table : Table} {errors : List TemplateError}
    (h : fill ⟨source⟩ table = .error errors) :
    errors ≠ [] ∧ errors.Pairwise TemplateError.Precedes ∧
      ∀ e ∈ errors,
        e.IsAccurate source table ∧ e.span.start < e.span.stop ∧ e.span.stop ≤ byteLength source ∧
          IsPlace source e.span.start ∧ IsPlace source e.span.stop := by
  obtain ⟨hne, rfl⟩ := fill_eq_error_iff.1 h
  refine ⟨hne, ?_, fun e => isAccurate_of_mem_problems⟩
  obtain ⟨ts, hwell, -, hproblems⟩ := exists_problems_eq source
  rw [hproblems]
  exact (Token.Placed.errorsFrom_inOrder hwell.1 0 .first).2

/-- A character of two bytes and a newline stand before the errors, and an error without a position
stands between two that have one. -/
theorem fill_errors_inOrder_behind_two_bytes :
    ∃ table, Table.ofEntries [(['A'], ['x'])] = .ok table ∧
      let errors := [.invalid ⟨2, 4⟩ ⟨1, 2⟩, .undefined ['a'] ⟨5, 10⟩ [['A']],
        .invalid ⟨10, 12⟩ ⟨2, 6⟩]
      fill ⟨"é@@\n@@\x7ba\x7d@@".toList⟩ table = .error errors ∧
        errors.Pairwise TemplateError.Precedes ∧
        TemplateError.IsAccurate "é@@\n@@\x7ba\x7d@@".toList table (.invalid ⟨10, 12⟩ ⟨2, 6⟩) := by
  obtain ⟨table, htable⟩ : ∃ table, Table.ofEntries [(['A'], ['x'])] = .ok table := ⟨_, rfl⟩
  have hfill : fill ⟨"é@@\n@@\x7ba\x7d@@".toList⟩ table =
      .error [.invalid ⟨2, 4⟩ ⟨1, 2⟩, .undefined ['a'] ⟨5, 10⟩ [['A']],
        .invalid ⟨10, 12⟩ ⟨2, 6⟩] := by
    cases htable
    decide +kernel
  obtain ⟨-, hpairwise, heach⟩ := fill_errors_inOrder hfill
  exact ⟨table, htable, hfill, hpairwise, (heach (.invalid ⟨10, 12⟩ ⟨2, 6⟩) (by simp)).1⟩

end Template

end Stencil
