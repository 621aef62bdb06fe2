import Stencil.Proofs.ErrorLists
import Stencil.Proofs.Names
import Stencil.Proofs.ReportPlace
import Stencil.Proofs.SearchFilling

/-!
# Mending one error

Writing a name of the table over a placeholder without an entry mends that error and no other. The
lexer finds the tokens before and behind the place again, because a placeholder in braces may stand
wherever a placeholder stood and ends by itself. So the errors before it are the same, and those behind
it have moved with their tokens: by the bytes that the text has grown or shrunk, and in their columns
by as much on the line of the edit.
-/

namespace Stencil

/-- A text with the characters of a span replaced; none when the span is no stretch of the text. -/
def splice? (s : Text) (span : Span) (t : Text) : Option Text :=
  if span.start ≤ span.stop then
    match cutAt? s span.start, cutAt? s span.stop with
    | some (before, _), some (_, after) => some (before ++ t ++ after)
    | _, _ => none
  else none

theorem splice?_append (before middle after t : Text) :
    splice? (before ++ middle ++ after)
      ⟨byteLength before, byteLength before + byteLength middle⟩ t = some (before ++ t ++ after) := by
  have hstart := cutAt?_append before (middle ++ after)
  have hstop := cutAt?_append (before ++ middle) after
  rw [byteLength_append] at hstop
  rw [← List.append_assoc] at hstart
  simp only [splice?, Nat.le_add_right, if_true, hstart, hstop]

/-- A span that stands `d` bytes further on. -/
structure Span.Moved (d : Int) (span span' : Span) : Prop where
  start_eq : (span'.start : Int) = span.start + d
  stop_eq : (span'.stop : Int) = span.stop + d

namespace Position

/-- A position not above line `line`, after that line has grown by `d` characters before it. -/
structure Moved (d : Int) (line : Nat) (p p' : Position) : Prop where
  le_line : line ≤ p.line
  line_eq : p'.line = p.line
  column_eq : (p'.column : Int) = p.column + if p.line = line then d else 0

theorem Moved.step {d : Int} {line : Nat} {p p' : Position} (h : Moved d line p p') (c : Char) :
    Moved d line (p.step c) (p'.step c) := by
  obtain ⟨hle, hline, hcolumn⟩ := h
  unfold Position.step
  by_cases hc : c = '\n'
  · have hne : p.line + 1 ≠ line := by omega
    simp only [hc, if_true, hline]
    exact ⟨Nat.le_succ_of_le hle, rfl, by simp [hne]⟩
  · simp only [hc, if_false]
    refine ⟨hle, hline, ?_⟩
    push_cast
    omega

theorem Moved.advance {d : Int} {line : Nat} {p p' : Position} (h : Moved d line p p') (s : Text) :
    Moved d line (p.advance s) (p'.advance s) := by
  induction s generalizing p p' with
  | nil => exact h
  | cons c s ih => exact ih (h.step c)

theorem advance_of_newline_notMem {s : Text} (h : '\n' ∉ s) (p : Position) :
    p.advance s = ⟨p.line, p.column + s.length⟩ := by
  induction s generalizing p with
  | nil => rfl
  | cons c s ih =>
    have hc : c ≠ '\n' := fun hc => h (hc ▸ List.mem_cons_self)
    have hs : '\n' ∉ s := fun hs => h (List.mem_cons_of_mem c hs)
    rw [advance_cons, step, if_neg hc, ih hs, List.length_cons, Nat.add_assoc, Nat.add_comm 1]

end Position

namespace TemplateError

/-- An error behind an edit on line `line` by which the text has grown by `d` bytes. -/
inductive Moved (d : Int) (line : Nat) : TemplateError → TemplateError → Prop
  | undefined {name : Text} {span span' : Span} {suggestions : List Text}
      (moved : span.Moved d span') :
      Moved d line (.undefined name span suggestions) (.undefined name span' suggestions)
  | invalid {span span' : Span} {p p' : Position} (moved : span.Moved d span')
      (position : p.Moved d line p') :
      Moved d line (.invalid span p) (.invalid span' p')

end TemplateError

namespace Token

/-- A token may be exchanged for another one that may stand in its place. -/
theorem WellFormed.exchange {us vs : List Token} {t t' : Token} (h : WellFormed (us ++ t :: vs))
    (proper : t'.IsProper) (left : ∀ u, MayFollow u t → MayFollow u t')
    (right : ∀ v, MayFollow t' v) : WellFormed (us ++ t' :: vs) := by
  obtain ⟨hproper, hchain⟩ := h
  constructor
  · intro u hu
    rcases List.mem_append.1 hu with hu | hu
    · exact hproper u (List.mem_append_left _ hu)
    · rcases List.mem_cons.1 hu with rfl | hu
      · exact proper
      · exact hproper u (List.mem_append_right _ (List.mem_cons_of_mem t hu))
  · rw [List.isChain_append] at hchain ⊢
    obtain ⟨hus, htail, hseam⟩ := hchain
    refine ⟨hus, List.isChain_cons.2 ⟨fun v _ => right v, htail.of_cons⟩, ?_⟩
    intro u hu v hv
    cases hv
    exact left u (hseam u hu t rfl)

theorem WellFormed.brace {us vs : List Token} {t : Token} {name key : Text}
    (h : WellFormed (us ++ t :: vs)) (ht : t = named name ∨ t = braced name)
    (hkey : isIdentifier key = true) : WellFormed (us ++ braced key :: vs) := by
  refine h.exchange hkey ?_ ?_
  · intro u hu
    rcases ht with rfl | rfl <;> cases u <;> simp_all [MayFollow]
  · intro v
    cases v <;> trivial

namespace Placed

open Template.Search (contribution)

variable {table : Table}

/-- The errors of the same tokens at a later place. -/
theorem forall₂_moved {d : Int} {line start start' : Nat} {p p' : Position}
    (hstart : (start' : Int) = start + d) (hp : p.Moved d line p') (ts : List Token) :
    List.Forall₂ (TemplateError.Moved d line) (errorsFrom table start p ts)
      (errorsFrom table start' p' ts) := by
  induction ts generalizing start start' p p' with
  | nil => exact .nil
  | cons t ts ih =>
    rw [errorsFrom_cons, errorsFrom_cons]
    have hstop : ((start' + t.width : Nat) : Int) = (start + t.width : Nat) + d := by
      push_cast
      omega
    have hspan : Span.Moved d ⟨start, start + t.width⟩ ⟨start', start' + t.width⟩ := ⟨hstart, hstop⟩
    have hname (name : Text) : List.Forall₂ (TemplateError.Moved d line)
        (errors [contribution table name ⟨start, start + t.width⟩])
        (errors [contribution table name ⟨start', start' + t.width⟩]) := by
      unfold contribution
      cases table.get? name with
      | none => exact .cons (.undefined hspan) .nil
      | some value => exact .nil
    refine List.rel_append ?_ (ih hstop (hp.advance t.spelling))
    cases t with
    | named name => exact hname name
    | braced name => exact hname name
    | dangling => exact .cons (.invalid hspan hp) .nil
    | _ => exact .nil

end Placed

end Token

namespace Template

open Token.Placed (errorsFrom)

/-- A placeholder without newlines takes the position on along its line. -/
theorem advance_spelling {t : Token} {name : Text} (ht : t.IsProper)
    (hname : t = .named name ∨ t = .braced name) (p : Position) :
    p.advance t.spelling = ⟨p.line, p.column + t.width⟩ := by
  have hvisible := (TemplateError.isVisible_spelling ht hname).1
  have hlength : byteLength t.spelling = t.spelling.length :=
    (byteLength_eq_length_iff _).2 fun c hc => utf8Size_of_isVisible (hvisible c hc)
  rw [Position.advance_of_newline_notMem (TemplateError.newline_notMem_of_isVisible hvisible),
    ← hlength, Token.byteLength_spelling]

/-- A template with a placeholder of the table written over one without an entry. -/
theorem problems_exchange {table : Table} {us vs : List Token} {t : Token} {name key : Text}
    (h : Token.WellFormed (us ++ t :: vs)) (ht : t = .named name ∨ t = .braced name)
    (hkey : key ∈ table.names) :
    problems ⟨Token.spellAll (us ++ .braced key :: vs)⟩ table =
      errorsFrom table 0 .first us ++
        errorsFrom table (byteLength (Token.spellAll us) + (Token.braced key).width)
          ((Position.first.advance (Token.spellAll us)).advance (Token.braced key).spelling) vs := by
  obtain ⟨value, hvalue⟩ := Table.exists_get?_of_mem_names hkey
  have hwell := h.brace ht (Table.isIdentifier_of_mem_names hkey)
  rw [problems_spellAll hwell, Token.Placed.errorsFrom_append, Token.Placed.errorsFrom_cons,
    Nat.zero_add]
  have hfill : Token.Placed.fill table (Position.first.advance (Token.spellAll us))
      ⟨.braced key, byteLength (Token.spellAll us),
        byteLength (Token.spellAll us) + (Token.braced key).width⟩ = .ok value := by
    simp [Token.Placed.fill, hvalue]
  rw [hfill]
  rfl

/-- The tokens of a template around a placeholder without an entry. -/
theorem exists_of_problems_eq {source : Text} {table : Table} {name : Text} {span : Span}
    {suggestions : List Text} {before after : List TemplateError}
    (h : problems ⟨source⟩ table = before ++ .undefined name span suggestions :: after) :
    ∃ us t vs, Token.WellFormed (us ++ t :: vs) ∧
      source = Token.spellAll us ++ t.spelling ++ Token.spellAll vs ∧
      (t = .named name ∨ t = .braced name) ∧
      span = ⟨byteLength (Token.spellAll us), byteLength (Token.spellAll us) + t.width⟩ ∧
      suggestions = table.suggestions name ∧ errorsFrom table 0 .first us = before ∧
      errorsFrom table (byteLength (Token.spellAll us) + t.width)
        ((Position.first.advance (Token.spellAll us)).advance t.spelling) vs = after := by
  obtain ⟨ts, hwell, rfl, hproblems⟩ := exists_problems_eq source
  rw [hproblems] at h
  obtain ⟨us, t, vs, rfl, hbefore, hfill, hafter⟩ := Token.Placed.exists_of_errorsFrom_eq h
  rw [Nat.zero_add] at hfill hafter
  refine ⟨us, t, vs, hwell, by simp, ?_⟩
  rcases Token.Placed.fill_eq_error_iff.1 hfill with ⟨-, herror⟩ | ⟨name', ht, -, herror⟩
  · cases herror
  · cases herror
    exact ⟨ht, rfl, rfl, hbefore, hafter⟩

/-- Mending one error mends exactly that error. When a name of the table, such as one of those
suggested, is written over the placeholder of an error, the errors before it stay as they are and those
behind it move: their spans by the bytes that the text has grown, and their columns by as much when
they stand on the line of the placeholder. Without other errors the template can now be filled. -/
theorem fill_of_mended {source : Text} {table : Table} {name : Text} {span : Span}
    {suggestions : List Text} {before after : List TemplateError}
    (h : fill ⟨source⟩ table = .error (before ++ .undefined name span suggestions :: after)) :
    (∀ key ∈ suggestions, key ∈ table.names) ∧
    ∀ key ∈ table.names, ∃ mended p moved,
      splice? source span (Token.braced key).spelling = some mended ∧
      Position.ofOffset? source span.start = some p ∧
      List.Forall₂ (TemplateError.Moved (byteLength key + 4 - (span.stop - span.start)) p.line)
        after moved ∧
      fill ⟨mended⟩ table =
        match before ++ moved with
        | [] => .ok (filling ⟨mended⟩ table)
        | errors => .error errors := by
  obtain ⟨us, t, vs, hwell, rfl, ht, rfl, rfl, hbefore, hafter⟩ :=
    exists_of_problems_eq (fill_eq_error_iff.1 h).2.symm
  refine ⟨fun key => mem_names_of_mem_suggestions, fun key hkey => ?_⟩
  have hproper : t.IsProper := hwell.1 t (by simp)
  have hkeyProper : (Token.braced key).IsProper := Table.isIdentifier_of_mem_names hkey
  have hmended : Token.spellAll (us ++ .braced key :: vs) =
      Token.spellAll us ++ (Token.braced key).spelling ++ Token.spellAll vs := by simp
  refine ⟨Token.spellAll (us ++ .braced key :: vs), Position.first.advance (Token.spellAll us),
    errorsFrom table (byteLength (Token.spellAll us) + (Token.braced key).width)
      ((Position.first.advance (Token.spellAll us)).advance (Token.braced key).spelling) vs,
    ?_, ?_, ?_, ?_⟩
  · rw [hmended, ← Token.byteLength_spelling]
    exact splice?_append _ _ _ _
  · rw [List.append_assoc]
    exact Position.ofOffset?_append _ _
  · rw [← hafter, advance_spelling hproper ht, advance_spelling hkeyProper (Or.inr rfl)]
    have hwidth : ((Token.braced key).width : Int) = byteLength key + 4 := rfl
    apply Token.Placed.forall₂_moved
    · push_cast
      omega
    · refine ⟨Nat.le_refl _, rfl, ?_⟩
      rw [if_pos rfl]
      push_cast
      omega
  · rw [← hbefore, ← problems_exchange hwell ht hkey]
    rfl

/-- The suggestion is written over the name; of two errors behind it the one on the same line moves
within the line. -/
theorem fill_of_mended_capital :
    ∃ table, Table.ofEntries [(['A'], ['x'])] = .ok table ∧
      fill ⟨"@@a @@\n@@".toList⟩ table =
        .error [.undefined ['a'] ⟨0, 3⟩ [['A']], .invalid ⟨4, 6⟩ ⟨1, 5⟩, .invalid ⟨7, 9⟩ ⟨2, 1⟩] ∧
      ['A'] ∈ table.names ∧
      ∃ moved, List.Forall₂ (TemplateError.Moved 2 1) [.invalid ⟨4, 6⟩ ⟨1, 5⟩, .invalid ⟨7, 9⟩ ⟨2, 1⟩]
          moved ∧
        fill ⟨"@@\x7bA\x7d @@\n@@".toList⟩ table = .error moved := by
  obtain ⟨table, htable⟩ : ∃ table, Table.ofEntries [(['A'], ['x'])] = .ok table := ⟨_, rfl⟩
  have hfill : fill ⟨"@@a @@\n@@".toList⟩ table =
      .error ([] ++ .undefined ['a'] ⟨0, 3⟩ [['A']] ::
        [.invalid ⟨4, 6⟩ ⟨1, 5⟩, .invalid ⟨7, 9⟩ ⟨2, 1⟩]) := by
    cases htable
    decide +kernel
  obtain ⟨hsuggested, hmended⟩ := fill_of_mended hfill
  have hkey : ['A'] ∈ table.names := hsuggested ['A'] (List.mem_singleton_self _)
  obtain ⟨mended, p, moved, hsplice, hp, hmoved, hfilled⟩ := hmended ['A'] hkey
  have htext : splice? "@@a @@\n@@".toList ⟨0, 3⟩ (Token.braced ['A']).spelling =
      some "@@\x7bA\x7d @@\n@@".toList := by decide
  rw [htext] at hsplice
  cases hsplice
  cases hp
  refine ⟨table, htable, hfill, hkey, moved, hmoved, ?_⟩
  rw [hfilled]
  cases hmoved
  rfl

end Template

end Stencil
