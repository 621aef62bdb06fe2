import Stencil.Proofs.Taking
import Stencil.Toml.Strings
import Stencil.Toml.Writer

/-!
# Written strings are read back

A string is read back as it was, in whichever of the two forms it was written. Between double quotes
the parser takes the characters that stand for themselves run by run, and every other one by its escape.
A verbatim string alternates between single quotes, at most two in a row, and text without any; the
parser takes it group by group, one or two quotes and the text behind them.
-/

namespace Stencil.Toml.Parser

variable {rest : Text}

/-- A text is put together from its longest stretches of characters with a property, and from single
characters without it. -/
theorem run_induction {p : Char → Bool} {motive : Text → Prop} (nil : motive [])
    (other : ∀ c s, p c = false → motive s → motive (c :: s))
    (run : ∀ t s, t ≠ [] → (∀ c ∈ t, p c = true) → (∀ c ∈ s.head?, p c = false) → motive s →
      motive (t ++ s))
    (s : Text) : motive s := by
  -- the stretch that has been collected so far goes along
  suffices h : ∀ t, (∀ c ∈ t, p c = true) → motive (t ++ s) from h [] (by simp)
  have close (t s : Text) (ht : ∀ c ∈ t, p c = true) (hs : ∀ c ∈ s.head?, p c = false)
      (h : motive s) : motive (t ++ s) := by
    cases t with
    | nil => exact h
    | cons c t => exact run (c :: t) s (List.cons_ne_nil c t) ht hs h
  induction s with
  | nil =>
    intro t ht
    exact close t [] ht (by simp) nil
  | cons c s ih =>
    intro t ht
    cases hc : p c with
    | true =>
      have h := ih (t ++ [c]) (by simpa [or_imp, forall_and] using ⟨ht, hc⟩)
      rwa [List.append_assoc] at h
    | false => exact close t (c :: s) ht (by simpa using hc) (other c s hc (ih [] (by simp)))

section Escapes

open Writer (escaped letterOf? fourDigits)

theorem escapeLetter?_of_letterOf? {c letter : Char} (h : letterOf? c = some letter) :
    escapeLetter? letter = some c := by
  unfold letterOf? at h
  split at h <;> cases h <;> rfl

theorem takes_escape_letter {c letter : Char} (h : escapeLetter? letter = some c) :
    Takes escape ['\\', letter] rest (· = c) := by
  refine (takes_char '\\').bind (u := [letter]) fun _ _ => ?_
  refine takes_next?.bind_look ?_
  rintro _ rfl
  simp only [List.cons_append, List.head?_cons]
  split
  · next hnone => cases hnone
  · next hu =>
    cases hu
    cases h
  · next hU =>
    cases hU
    cases h
  · next hletter =>
    cases hletter
    rw [h]
    exact (takes_char letter).bind_last fun _ _ => takes_pure rfl

theorem charOfCode?_toNat (c : Char) : charOfCode? c.toNat = some c := by
  have hvalid : c.toNat.isValidChar := c.valid
  rw [charOfCode?, dif_pos hvalid]
  rfl

theorem fourDigits_spec : ∀ n < 128, (fourDigits n).length = 4 ∧
    (fourDigits n).all isHexDigit = true ∧ digitsValue 16 (fourDigits n) = n := by
  decide +kernel

theorem takes_escape_code {c : Char} (hc : c.toNat < 128) :
    Takes escape ('\\' :: 'u' :: fourDigits c.toNat) rest (· = c) := by
  obtain ⟨hlength, hdigits, hvalue⟩ := fourDigits_spec c.toNat hc
  refine (takes_char '\\').bind (u := 'u' :: fourDigits c.toNat) fun _ _ => ?_
  refine takes_next?.bind_look ?_
  rintro _ rfl
  refine (takes_char 'u').bind (u := fourDigits c.toNat) fun _ _ => ?_
  apply Takes.inside
  apply Takes.commit
  have htake : Takes (takeExactly (fourDigits c.toNat).length isHexDigit) (fourDigits c.toNat) rest
      (· = fourDigits c.toNat) := takes_takeExactly (List.all_eq_true.1 hdigits)
  rw [hlength] at htake
  refine htake.checked ?_
  rintro _ rfl
  rw [hvalue, charOfCode?_toNat]
  exact ⟨c, rfl, rfl⟩

/-- A character stands for itself, or its escape stands for it. -/
theorem escaped_cases (c : Char) :
    (escaped c = [c] ∧ isBasicChar c = true) ∨
      ∃ d t, escaped c = '\\' :: d :: t ∧ ∀ rest, Takes escape ('\\' :: d :: t) rest (· = c) := by
  unfold escaped
  split
  · next letter hletter =>
    exact .inr ⟨letter, [], rfl,
      fun _ => takes_escape_letter (escapeLetter?_of_letterOf? hletter)⟩
  · next hletter =>
    split
    · next hcontrol =>
      refine .inr ⟨'u', fourDigits c.toNat, rfl, fun _ => takes_escape_code ?_⟩
      simp only [Bool.or_eq_true, decide_eq_true_eq] at hcontrol
      omega
    · next hcontrol =>
      refine .inl ⟨rfl, ?_⟩
      have hquote : c ≠ '"' := by
        rintro rfl
        cases hletter
      have hbackslash : c ≠ '\\' := by
        rintro rfl
        cases hletter
      simp only [Bool.or_eq_true, decide_eq_true_eq, not_or, Nat.not_lt] at hcontrol
      simp [isBasicChar, hquote, hbackslash, hcontrol]

theorem isBasicChar_of_escaped {c : Char} (h : escaped c = [c]) : isBasicChar c = true := by
  rcases escaped_cases c with ⟨-, hbasic⟩ | ⟨d, t, ht, -⟩
  · exact hbasic
  · rw [h] at ht
    cases ht

theorem takes_basicPart_escaped {c : Char} (h : escaped c ≠ [c]) :
    Takes basicPart (escaped c) rest (· = [c]) := by
  rcases escaped_cases c with ⟨hself, -⟩ | ⟨d, t, ht, htakes⟩
  · exact absurd hself h
  · rw [ht]
    apply Takes.either_right
    · exact declines_takeWhile1 (by decide)
    · refine (htakes rest).bind_last ?_
      rintro _ rfl
      exact takes_pure rfl

theorem declines_basicPart_quote : Declines basicPart ('"' :: rest) := by
  apply Declines.either
  · exact declines_takeWhile1 (by decide)
  · apply Declines.bind
    apply Declines.bind
    exact declines_char (by simp)

/-- A run of characters that stand for themselves is followed by an escape or by the closing quote. -/
theorem isBasicChar_head_escaped {s : Text} (hs : ∀ c ∈ s.head?, escaped c ≠ [c]) :
    ∀ c ∈ (s.flatMap escaped ++ '"' :: rest).head?, isBasicChar c = false := by
  cases s with
  | nil => simp; decide
  | cons c s =>
    rcases escaped_cases c with ⟨hself, -⟩ | ⟨d, t, ht, -⟩
    · exact absurd hself (hs c rfl)
    · simp only [List.flatMap_cons, ht, List.cons_append, List.head?_cons, Option.mem_some_iff,
        forall_eq']
      decide

/-- Up to the closing quote the parts of a string give the string. -/
theorem exists_repeats_basicPart (s rest : Text) :
    ∃ parts, Repeats basicPart ('"' :: rest) (s.flatMap escaped) parts ∧ parts.flatten = s := by
  induction s using run_induction (p := fun c => escaped c == [c]) with
  | nil => exact ⟨[], .nil declines_basicPart_quote, rfl⟩
  | other c s hc ih =>
    obtain ⟨parts, hparts, rfl⟩ := ih
    have hescaped : escaped c ≠ [c] := beq_eq_false_iff_ne.1 hc
    have hne : escaped c ≠ [] := by
      rcases escaped_cases c with ⟨hself, -⟩ | ⟨d, t, ht, -⟩ <;> simp [*]
    exact ⟨[c] :: parts, .cons (takes_basicPart_escaped hescaped) hne hparts, rfl⟩
  | run t s hne ht hs ih =>
    obtain ⟨parts, hparts, rfl⟩ := ih
    have hself (c : Char) (hc : c ∈ t) : escaped c = [c] := beq_iff_eq.1 (ht c hc)
    have hrun : t.flatMap escaped = t := by
      have hmap : t.map escaped = t.map fun c => [c] := List.map_congr_left hself
      rw [List.flatMap_def, hmap, ← List.flatMap_def, List.flatMap_singleton']
    have htake : Takes basicPart t (parts.flatten.flatMap escaped ++ '"' :: rest) (· = t) := by
      apply Takes.either_left
      apply takes_takeWhile1 hne
      · exact fun c hc => isBasicChar_of_escaped (hself c hc)
      · exact isBasicChar_head_escaped fun c hc => beq_eq_false_iff_ne.1 (hs c hc)
    refine ⟨t :: parts, ?_, rfl⟩
    rw [List.flatMap_append, hrun]
    exact .cons htake hne hparts

theorem takes_basicString (s : Text) :
    Takes basicString (Writer.basicString s) rest (· = s) := by
  obtain ⟨parts, hparts, hs⟩ := exists_repeats_basicPart s rest
  refine (takes_char '"').bind (u := s.flatMap escaped ++ ['"']) fun _ _ => ?_
  refine hparts.many.bind ?_
  rintro _ rfl
  exact (takes_char '"').commit.inside.bind_last fun _ _ => takes_pure hs

/-- A string between double quotes does not begin with three of them, even if it is empty. -/
theorem declines_multilineBasicString (s : Text) (hrest : rest.head? ≠ some '"') :
    Declines multilineBasicString (Writer.basicString s ++ rest) := by
  apply Declines.inside
  apply Declines.bind
  apply declines_literal
  cases s with
  | nil =>
    cases rest with
    | nil => decide
    | cons c rest => simpa [Writer.basicString, eq_comm] using hrest
  | cons c s =>
    rcases escaped_cases c with ⟨hself, hbasic⟩ | ⟨d, t, ht, -⟩
    · have hquote : c ≠ '"' := by
        rintro rfl
        cases hbasic
      simp [Writer.basicString, hself, hquote.symm]
    · simp [Writer.basicString, ht]

theorem takes_string_basic (s : Text) (hrest : rest.head? ≠ some '"') :
    Takes string (Writer.basicString s) rest (· = s) := by
  apply Takes.either_right (declines_multilineBasicString s hrest)
  exact (takes_basicString s).either_left

end Escapes

section Verbatim

open Writer (canBeVerbatim)

/-- Text that can stand between single quotes when line ends are let through as well. -/
def IsPlain (t : Text) : Prop := ∀ c ∈ t, isLiteralChar c = true ∨ c = '\n'

/-- Groups of one or two single quotes and the text behind them. -/
inductive IsGrouped : Text → Prop where
  | nil : IsGrouped []
  | group {q t u : Text} : q = ['\''] ∨ q = ['\'', '\''] → t ≠ [] → IsPlain t → IsGrouped u →
      IsGrouped (q ++ t ++ u)

theorem canBeVerbatim_of_cons {c : Char} {s : Text} (h : canBeVerbatim (c :: s) = true) :
    canBeVerbatim s = true := by
  simp only [canBeVerbatim, List.all_cons, occursIn, Bool.and_eq_true, Bool.not_eq_true',
    Bool.or_eq_false_iff, decide_eq_true_eq] at h ⊢
  obtain ⟨⟨⟨-, hchars⟩, -, hthree⟩, hlast⟩ := h
  refine ⟨⟨hchars, hthree⟩, ?_⟩
  cases s with
  | nil => simp
  | cons d s => simpa using hlast

theorem isLiteralChar_or_newline {c : Char} {s : Text} (h : canBeVerbatim (c :: s) = true)
    (hc : c ≠ '\'') : isLiteralChar c = true ∨ c = '\n' := by
  simp only [canBeVerbatim, List.all_cons, Bool.and_eq_true, Bool.or_eq_true,
    decide_eq_true_eq] at h
  obtain ⟨⟨⟨(rfl | rfl) | hvisible, -⟩, -⟩, -⟩ := h
  · exact .inl rfl
  · exact .inr rfl
  · exact .inl (by simp [isLiteralChar, hc, hvisible])

/-- What can be written verbatim is plain text and groups behind it. -/
theorem exists_isGrouped {s : Text} (h : canBeVerbatim s = true) :
    ∃ t u, s = t ++ u ∧ IsPlain t ∧ IsGrouped u := by
  induction s with
  | nil => exact ⟨[], [], rfl, by simp [IsPlain], .nil⟩
  | cons c s ih =>
    obtain ⟨t, u, rfl, ht, hu⟩ := ih (canBeVerbatim_of_cons h)
    by_cases hc : c = '\''
    · subst hc
      cases t with
      | cons d t => exact ⟨[], _, rfl, by simp [IsPlain], .group (.inl rfl) (by simp) ht hu⟩
      | nil =>
        cases hu with
        | nil => cases h
        | @group q t u hq hne ht hu =>
          rcases hq with rfl | rfl
          · exact ⟨[], _, rfl, by simp [IsPlain], .group (.inr rfl) hne ht hu⟩
          · simp [canBeVerbatim, occursIn] at h
    · refine ⟨c :: t, u, rfl, ?_, hu⟩
      intro d hd
      rcases List.mem_cons.1 hd with rfl | hd
      · exact isLiteralChar_or_newline h hc
      · exact ht d hd

theorem takes_newline : Takes newline ['\n'] rest fun _ => True := by
  refine takes_next?.bind_look ?_
  rintro _ rfl
  exact takes_char '\n'

theorem declines_newline {s : Text} (hn : s.head? ≠ some '\n') (hr : s.head? ≠ some '\r') :
    Declines newline s := by
  refine Takes.declines_bind (t := []) takes_next? ?_
  rintro _ rfl
  split
  · next h => exact absurd h hn
  · next h => exact absurd h hr
  · exact declines_failAfterOne

theorem declines_multilineLiteralPart : Declines multilineLiteralPart ('\'' :: rest) := by
  apply Declines.either
  · exact declines_takeWhile1 (by decide)
  · apply Declines.bind
    exact declines_newline (by simp) (by simp)

theorem takes_multilineLiteralPart_newline :
    Takes multilineLiteralPart ['\n'] rest (· = ['\n']) := by
  apply Takes.either_right
  · exact declines_takeWhile1 (by decide)
  · exact takes_newline.bind_last fun _ _ => takes_pure rfl

theorem exists_repeats_multilineLiteralPart {t : Text} (ht : IsPlain t) (rest : Text) :
    ∃ parts, Repeats multilineLiteralPart ('\'' :: rest) t parts ∧ parts.flatten = t := by
  induction t using run_induction (p := isLiteralChar) with
  | nil => exact ⟨[], .nil declines_multilineLiteralPart, rfl⟩
  | other c t hc ih =>
    obtain ⟨hliteral | rfl, htail⟩ := List.forall_mem_cons.1 ht
    · rw [hc] at hliteral
      cases hliteral
    · obtain ⟨parts, hparts, rfl⟩ := ih htail
      exact ⟨['\n'] :: parts, .cons takes_multilineLiteralPart_newline (by simp) hparts, rfl⟩
  | run r t hne hr hhead ih =>
    obtain ⟨parts, hparts, rfl⟩ := ih (List.forall_mem_append.1 ht).2
    refine ⟨r :: parts, .cons ?_ hne hparts, rfl⟩
    apply Takes.either_left
    apply takes_takeWhile1 hne hr
    cases h : parts.flatten with
    | nil => simp; decide
    | cons c t => simpa [h] using hhead

/-- Plain text does not begin with a single quote. -/
theorem IsPlain.head_ne {t : Text} (ht : IsPlain t) : t.head? ≠ some '\'' := by
  intro h
  rcases ht '\'' (List.mem_of_head? h) with hliteral | hnewline
  · cases hliteral
  · cases hnewline

theorem takes_innerQuotes {q t : Text} (hq : q = ['\''] ∨ q = ['\'', '\'']) (hne : t ≠ [])
    (ht : IsPlain t) : Takes (innerQuotes '\'' (otherThan '\'')) q (t ++ rest) (· = q) := by
  have hhead := ht.head_ne
  cases t with
  | nil => exact absurd rfl hne
  | cons c t =>
    have hc : c ≠ '\'' := by simpa using hhead
    have hother : Takes (otherThan '\'') [c] (t ++ rest) fun _ => True :=
      (takes_satisfy (by simpa using hc)).bind_last fun _ _ => takes_pure trivial
    have hlook : Takes (peek (otherThan '\'')) [] (c :: t ++ rest) fun _ => True := hother.peek
    rcases hq with rfl | rfl
    · apply Takes.either_right
      · apply Declines.bind
        exact declines_literal (by simpa using hc.symm)
      · refine (takes_char '\'').bind_last fun _ _ => ?_
        exact hlook.bind_last fun _ _ => takes_pure rfl
    · apply Takes.either_left
      refine (takes_literal _).bind_last fun _ _ => ?_
      exact hlook.bind_last fun _ _ => takes_pure rfl

theorem IsGrouped.append_quotes {u : Text} (hu : IsGrouped u) (rest : Text) :
    ∃ v, u ++ '\'' :: rest = '\'' :: v := by
  cases hu with
  | nil => exact ⟨rest, rfl⟩
  | group hq => rcases hq with rfl | rfl <;> exact ⟨_, rfl⟩

theorem takes_multilineLiteralGroup {q t : Text} (hq : q = ['\''] ∨ q = ['\'', '\''])
    (hne : t ≠ []) (ht : IsPlain t) :
    Takes multilineLiteralGroup (q ++ t) ('\'' :: rest) (· = q ++ t) := by
  refine (takes_innerQuotes hq hne ht).bind ?_
  rintro _ rfl
  obtain ⟨parts, hparts, hflatten⟩ := exists_repeats_multilineLiteralPart ht rest
  refine (hparts.many1 hne).bind_last ?_
  rintro _ rfl
  exact takes_pure (by rw [hflatten])

theorem declines_innerQuotes {follows : Parser Unit} (htwo : Declines follows ('\'' :: rest))
    (hone : Declines follows ('\'' :: '\'' :: rest)) :
    Declines (innerQuotes '\'' follows) ('\'' :: '\'' :: '\'' :: rest) := by
  apply Declines.either
  · refine Takes.declines_bind (t := ['\'', '\'']) (takes_literal _) fun _ _ => ?_
    exact htwo.peek.bind
  · refine Takes.declines_bind (t := ['\'']) (takes_char '\'') fun _ _ => ?_
    exact hone.peek.bind

theorem declines_otherThan : Declines (otherThan '\'') ('\'' :: rest) := by
  apply Declines.bind
  exact declines_satisfy (by simp)

theorem exists_repeats_multilineLiteralGroup {u : Text} (hu : IsGrouped u) (rest : Text) :
    ∃ groups, Repeats multilineLiteralGroup ('\'' :: '\'' :: '\'' :: rest) u groups ∧
      groups.flatten = u := by
  induction hu with
  | nil =>
    have hend : Declines multilineLiteralGroup ('\'' :: '\'' :: '\'' :: rest) :=
      (declines_innerQuotes declines_otherThan declines_otherThan).bind
    exact ⟨[], .nil hend, rfl⟩
  | @group q t u hq hne ht hu ih =>
    obtain ⟨groups, hgroups, hflatten⟩ := ih
    obtain ⟨v, hv⟩ := hu.append_quotes ('\'' :: '\'' :: rest)
    refine ⟨(q ++ t) :: groups, .cons ?_ (by simp [hne]) hgroups, by simp [hflatten]⟩
    rw [hv]
    exact takes_multilineLiteralGroup hq hne ht

theorem declines_closing (hrest : rest.head? ≠ some '\'') :
    Declines (innerQuotes '\'' (literal ['\'', '\'', '\'']))
      ('\'' :: '\'' :: '\'' :: rest) := by
  apply declines_innerQuotes <;> apply declines_literal <;>
    simp only [List.cons_prefix_cons, true_and]
  all_goals
    intro h
    obtain ⟨t, rfl⟩ := h
    exact hrest rfl

/-- The body of a verbatim string is the string. -/
theorem takes_multilineLiteralBody {s : Text} (hs : canBeVerbatim s = true)
    (hrest : rest.head? ≠ some '\'') :
    Takes multilineLiteralBody s ('\'' :: '\'' :: '\'' :: rest) (· = s) := by
  obtain ⟨t, u, rfl, ht, hu⟩ := exists_isGrouped hs
  obtain ⟨v, hv⟩ := hu.append_quotes ('\'' :: '\'' :: rest)
  obtain ⟨parts, hparts, hflatten⟩ := exists_repeats_multilineLiteralPart ht v
  rw [← hv] at hparts
  refine hparts.many.bind ?_
  rintro _ rfl
  obtain ⟨groups, hgroups, hflatten'⟩ := exists_repeats_multilineLiteralGroup hu rest
  refine hgroups.many.bind_last ?_
  rintro _ rfl
  refine (declines_closing hrest).optional.bind_last ?_
  rintro _ rfl
  exact takes_pure (by simp [hflatten, hflatten'])

theorem takes_multilineLiteralString {s : Text} (hs : canBeVerbatim s = true)
    (hrest : rest.head? ≠ some '\'') :
    Takes multilineLiteralString (Writer.verbatimString s) rest (· = s) := by
  apply Takes.inside
  refine (takes_literal ['\'', '\'', '\'']).bind
    (u := '\n' :: s ++ ['\'', '\'', '\'']) fun _ _ => ?_
  refine takes_newline.optional.bind (u := s ++ ['\'', '\'', '\'']) fun _ _ => ?_
  refine (takes_multilineLiteralBody hs hrest).commit.bind ?_
  rintro _ rfl
  exact (takes_literal _).commit.bind_last fun _ _ => takes_pure rfl

theorem takes_string_verbatim {s : Text} (hs : canBeVerbatim s = true)
    (hrest : rest.head? ≠ some '\'') :
    Takes string (Writer.verbatimString s) rest (· = s) := by
  apply Takes.either_right
  · apply Declines.inside
    apply Declines.bind
    exact declines_literal (by simp [Writer.verbatimString])
  apply Takes.either_right
  · apply Declines.bind
    exact declines_char (by simp [Writer.verbatimString])
  · exact (takes_multilineLiteralString hs hrest).either_left

end Verbatim

/-- A string is read back in whichever form it was written, if its line ends behind it. -/
theorem takes_string (w : Writer.Written) (hrest : rest.head? = some '\n') :
    Takes string w.render rest (· = w.text) := by
  unfold Writer.Written.render
  split
  · next h =>
    rw [Bool.and_eq_true] at h
    exact takes_string_verbatim h.2 (by simp [hrest])
  · exact takes_string_basic w.text (by simp [hrest])

end Stencil.Toml.Parser
