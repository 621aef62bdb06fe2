import Stencil.Toml.Blank

/-!
# What parsers take

That a written text is read back is told parser by parser. `Takes` says that a parser takes a text off
the front of a document and what it gives then, and `Declines` that it fails in a way that lets a choice
go on. Each combinator has its rules for the two, so that a parser put together of others takes what
they take one after the other, wherever in the document the text stands.
-/

namespace Stencil.Toml.Parser

variable {α β : Type} {p : Parser α} {s t u rest : Text} {P : α → Prop} {Q : β → Prop}

/-- Before `rest` the parser takes `t`, and gives something with property `P`. -/
def Takes (p : Parser α) (t rest : Text) (P : α → Prop) : Prop :=
  ∀ offset, ∃ a, p ⟨offset, t ++ rest⟩ = .ok (a, ⟨offset + byteLength t, rest⟩) ∧ P a

/-- The parser fails on the text, and is not committed to it. -/
def Declines (p : Parser α) (s : Text) : Prop :=
  ∀ offset, ∃ e, p ⟨offset, s⟩ = .error e ∧ e.committed = false

section Sequences

theorem bind_apply (p : Parser α) (q : α → Parser β) (c : Cursor) :
    (p >>= q) c =
      match p c with
      | .ok (a, c') => q a c'
      | .error e => .error e := by
  change (p c >>= fun r => q r.1 r.2) = _
  cases p c <;> rfl

theorem takes_pure {a : α} (ha : P a) : Takes (pure a) [] rest P := fun _ => ⟨a, rfl, ha⟩

theorem Takes.bind {q : α → Parser β} (hp : Takes p t (u ++ rest) P)
    (hq : ∀ a, P a → Takes (q a) u rest Q) : Takes (p >>= q) (t ++ u) rest Q := by
  intro offset
  obtain ⟨a, hpa, ha⟩ := hp offset
  obtain ⟨b, hqb, hb⟩ := hq a ha (offset + byteLength t)
  refine ⟨b, ?_, hb⟩
  rw [List.append_assoc, bind_apply, hpa, byteLength_append, ← Nat.add_assoc]
  exact hqb

/-- What is taken last leaves nothing more to take. -/
theorem Takes.bind_last {q : α → Parser β} (hp : Takes p t rest P)
    (hq : ∀ a, P a → Takes (q a) [] rest Q) : Takes (p >>= q) t rest Q := by
  have h := Takes.bind (u := []) hp hq
  rwa [List.append_nil] at h

/-- A parser that only looks takes nothing before the rest. -/
theorem Takes.bind_look {q : α → Parser β} (hp : Takes p [] (t ++ rest) P)
    (hq : ∀ a, P a → Takes (q a) t rest Q) : Takes (p >>= q) t rest Q :=
  Takes.bind (t := []) hp hq

theorem Declines.bind {q : α → Parser β} (h : Declines p s) : Declines (p >>= q) s := by
  intro offset
  obtain ⟨e, he, hcommitted⟩ := h offset
  exact ⟨e, by rw [bind_apply, he], hcommitted⟩

theorem Takes.declines_bind {q : α → Parser β} (hp : Takes p t rest P)
    (hq : ∀ a, P a → Declines (q a) rest) : Declines (p >>= q) (t ++ rest) := by
  intro offset
  obtain ⟨a, hpa, ha⟩ := hp offset
  obtain ⟨e, he, hcommitted⟩ := hq a ha (offset + byteLength t)
  exact ⟨e, by rw [bind_apply, hpa]; exact he, hcommitted⟩

end Sequences

section Characters

theorem declines_fail : Declines (fail : Parser α) s := fun _ => ⟨_, rfl, rfl⟩

theorem takes_next? : Takes next? [] rest (· = rest.head?) := fun _ => ⟨_, rfl, rfl⟩

theorem takes_second? : Takes second? [] rest (· = rest.tail.head?) := fun _ => ⟨_, rfl, rfl⟩

theorem takes_satisfy {p : Char → Bool} {c : Char} (hc : p c = true) :
    Takes (satisfy p) [c] rest (· = c) := by
  intro offset
  exact ⟨c, by simp [satisfy, hc], rfl⟩

theorem declines_satisfy {p : Char → Bool} (h : ∀ c ∈ s.head?, p c = false) :
    Declines (satisfy p) s := by
  intro offset
  cases s with
  | nil => exact ⟨_, rfl, rfl⟩
  | cons c s =>
    have hc : p c = false := h c rfl
    exact ⟨_, by simp only [satisfy, hc]; rfl, rfl⟩

theorem takes_char (c : Char) : Takes (char c) [c] rest fun _ => True :=
  (takes_satisfy (by simp)).bind_last fun _ _ => takes_pure trivial

theorem declines_char {c : Char} (h : s.head? ≠ some c) : Declines (char c) s := by
  apply Declines.bind
  apply declines_satisfy
  intro d hd
  rw [beq_eq_false_iff_ne]
  rintro rfl
  exact h hd

theorem declines_failAfterOne : Declines (failAfterOne : Parser α) s := by
  intro offset
  cases s <;> exact ⟨_, rfl, rfl⟩

theorem takes_literal (s : Text) : Takes (literal s) s rest fun _ => True := by
  intro offset
  exact ⟨(), by simp [literal], trivial⟩

theorem declines_literal (h : ¬ t <+: s) : Declines (literal t) s := by
  intro offset
  have hprefix : t.isPrefixOf s = false := by
    rw [← Bool.not_eq_true, List.isPrefixOf_iff_prefix]
    exact h
  exact ⟨_, by simp only [literal, hprefix]; rfl, rfl⟩

theorem takes_takeWhile {p : Char → Bool} (ht : ∀ c ∈ t, p c = true)
    (hrest : ∀ c ∈ rest.head?, p c = false) : Takes (takeWhile p) t rest (· = t) := by
  intro offset
  have hend : rest.takeWhile p = [] ∧ rest.dropWhile p = rest := by
    cases rest with
    | nil => exact ⟨rfl, rfl⟩
    | cons c rest => simp [hrest c rfl]
  refine ⟨t, ?_, rfl⟩
  simp only [takeWhile, List.takeWhile_append_of_pos ht, List.dropWhile_append_of_pos ht, hend.1,
    hend.2, List.append_nil]

theorem takes_takeWhile1 {p : Char → Bool} (hne : t ≠ []) (ht : ∀ c ∈ t, p c = true)
    (hrest : ∀ c ∈ rest.head?, p c = false) : Takes (takeWhile1 p) t rest (· = t) := by
  cases t with
  | nil => exact absurd rfl hne
  | cons c t =>
    refine takes_next?.bind_look ?_
    rintro _ rfl
    have hc : p c = true := ht c List.mem_cons_self
    simp only [List.cons_append, List.head?_cons, hc, if_true]
    exact takes_takeWhile ht hrest

theorem declines_takeWhile1 {p : Char → Bool} {c : Char} (hc : p c = false) :
    Declines (takeWhile1 p) (c :: s) := by
  refine Takes.declines_bind (t := []) takes_next? ?_
  rintro _ rfl
  simp only [List.head?_cons, hc]
  exact declines_fail

theorem takes_takeExactly {p : Char → Bool} (ht : ∀ c ∈ t, p c = true) :
    Takes (takeExactly t.length p) t rest (· = t) := by
  intro offset
  have htake : t.takeWhile p = t := by
    have happend : (t ++ []).takeWhile p = t ++ [].takeWhile p := List.takeWhile_append_of_pos ht
    simpa using happend
  refine ⟨t, ?_, rfl⟩
  simp [takeExactly, htake]

end Characters

section Failures

theorem Takes.mapFailure {f : Failure → Failure} (h : Takes p t rest P) :
    Takes (p.mapFailure f) t rest P := by
  intro offset
  obtain ⟨a, hp, ha⟩ := h offset
  exact ⟨a, by rw [Parser.mapFailure, hp], ha⟩

theorem Takes.commit (h : Takes p t rest P) : Takes p.commit t rest P := h.mapFailure

theorem Takes.inside {k : Construct} (h : Takes p t rest P) : Takes (p.inside k) t rest P :=
  h.mapFailure

theorem Takes.expecting {ws : List Expectation} (h : Takes p t rest P) :
    Takes (p.expecting ws) t rest P :=
  h.mapFailure

theorem Declines.inside {k : Construct} (h : Declines p s) : Declines (p.inside k) s := by
  intro offset
  obtain ⟨e, he, hcommitted⟩ := h offset
  exact ⟨{ e with inside := e.inside ++ [k] }, by rw [Parser.inside, Parser.mapFailure, he],
    hcommitted⟩

/-- A check that finds no fault lets through what the parser gives. -/
theorem Takes.checked {check : α → Except Fault β} (h : Takes p t rest P)
    (hcheck : ∀ a, P a → ∃ b, check a = .ok b ∧ Q b) : Takes (checked p check) t rest Q := by
  intro offset
  obtain ⟨a, hp, ha⟩ := h offset
  obtain ⟨b, hb, hQ⟩ := hcheck a ha
  refine ⟨b, ?_, hQ⟩
  rw [Parser.checked, checkedWith, hp]
  simp only [hb]
  rfl

end Failures

section Choices

variable {q : Parser α}

theorem Takes.either_left (h : Takes p t rest P) : Takes (either p q) t rest P := by
  intro offset
  obtain ⟨a, hp, ha⟩ := h offset
  exact ⟨a, by rw [either, hp], ha⟩

theorem Takes.either_right (hp : Declines p (t ++ rest)) (hq : Takes q t rest P) :
    Takes (either p q) t rest P := by
  intro offset
  obtain ⟨e, he, hcommitted⟩ := hp offset
  obtain ⟨a, hqa, ha⟩ := hq offset
  exact ⟨a, by simp [either, he, hcommitted, hqa], ha⟩

theorem Declines.either (hp : Declines p s) (hq : Declines q s) : Declines (either p q) s := by
  intro offset
  obtain ⟨e, he, hcommitted⟩ := hp offset
  obtain ⟨e', he', hcommitted'⟩ := hq offset
  exact ⟨e', by simp [Parser.either, he, hcommitted, he'], hcommitted'⟩

theorem Takes.optional (h : Takes p t rest P) :
    Takes (optional p) t rest fun a => ∃ b, a = some b ∧ P b := by
  intro offset
  obtain ⟨a, hp, ha⟩ := h offset
  exact ⟨some a, by rw [Parser.optional, hp], a, rfl, ha⟩

theorem Declines.optional (h : Declines p rest) : Takes (optional p) [] rest (· = none) := by
  intro offset
  obtain ⟨e, he, hcommitted⟩ := h offset
  exact ⟨none, by simp [Parser.optional, he, hcommitted], rfl⟩

theorem Takes.peek (h : Takes p t rest P) : Takes (peek p) [] (t ++ rest) P := by
  intro offset
  obtain ⟨a, hp, ha⟩ := h offset
  exact ⟨a, by simp [Parser.peek, hp], ha⟩

theorem Declines.peek (h : Declines p s) : Declines (peek p) s := by
  intro offset
  obtain ⟨e, he, hcommitted⟩ := h offset
  exact ⟨e, by simp [Parser.peek, he], hcommitted⟩

end Choices

section Repetitions

/-- The parser, over and over, takes a text piece by piece before `rest`, and nothing of `rest`. -/
inductive Repeats (p : Parser α) (rest : Text) : Text → List α → Prop where
  | nil : Declines p rest → Repeats p rest [] []
  | cons {t u : Text} {a : α} {as : List α} : Takes p t (u ++ rest) (· = a) → t ≠ [] →
      Repeats p rest u as → Repeats p rest (t ++ u) (a :: as)

/-- Every piece has a character, so it does no harm to allow more pieces than characters. -/
theorem Repeats.upTo {as : List α} {n : Nat} (h : Repeats p rest t as) (hn : t.length ≤ n) :
    Takes (upTo n p) t rest (· = as) := by
  induction h generalizing n with
  | nil hrest =>
    cases n with
    | zero => exact takes_pure rfl
    | succ n =>
      refine hrest.optional.bind_look ?_
      rintro _ rfl
      exact takes_pure rfl
  | @cons t u a as hp hne _ ih =>
    have hpositive := List.length_pos_iff.2 hne
    rw [List.length_append] at hn
    obtain ⟨n, rfl⟩ : ∃ m, n = m + 1 := ⟨n - 1, by omega⟩
    refine hp.optional.bind ?_
    rintro _ ⟨a, rfl, rfl⟩
    refine (ih (by omega)).bind_last ?_
    rintro _ rfl
    exact takes_pure rfl

theorem Repeats.many {as : List α} (h : Repeats p rest t as) : Takes (many p) t rest (· = as) := by
  intro offset
  exact h.upTo (by simp) offset

theorem Repeats.many1 {as : List α} (h : Repeats p rest t as) (hne : t ≠ []) :
    Takes (many1 p) t rest (· = as) := by
  cases h with
  | nil => exact absurd rfl hne
  | cons hp _ hu =>
    refine hp.bind ?_
    rintro _ rfl
    refine hu.many.bind_last ?_
    rintro _ rfl
    exact takes_pure rfl

end Repetitions

section Spans

theorem Takes.withSpan (h : Takes p t rest P) : Takes (withSpan p) t rest fun r => P r.1 := by
  intro offset
  obtain ⟨a, hp, ha⟩ := h offset
  exact ⟨(a, ⟨offset, offset + byteLength t⟩), by simp [Parser.withSpan, hp], ha⟩

end Spans

end Stencil.Toml.Parser
