import Stencil.Proofs.Shifting
import Stencil.Proofs.Spelling

/-!
# Where lexing may begin anew

The lexer looks ahead and cuts stretches in the middle, but nothing of that reaches over the start of a
token. Any first tokens of a text are well formed by themselves, and so are the ones behind them, so the
lexer reads both back from their spellings. What differs is the place: the tokens that come later stand
behind the spelling of the first ones.
-/

namespace Stencil.Token

/-- A token of a text, when the text stands behind `s`. -/
def Placed.behind (s : Text) (t : Placed) : Placed := ⟨t.token, t.span.behind s⟩

/-- A token that is moved towards the front by some bytes. -/
def Placed.back (bytes : Nat) (t : Placed) : Placed :=
  ⟨t.token, t.span.start - bytes, t.span.stop - bytes⟩

/-- The byte where a token of a text starts; behind the last token, the end of the text. -/
def startOf (s : Text) (i : Nat) : Nat :=
  match (lex s)[i]? with
  | some t => t.span.start
  | none => byteLength s

theorem Placed.back_behind (s : Text) (t : Placed) : (t.behind s).back (byteLength s) = t := by
  simp [behind, back, Span.behind]

theorem map_back_map_behind (s : Text) (ts : List Placed) :
    (ts.map (Placed.behind s)).map (Placed.back (byteLength s)) = ts := by
  induction ts with
  | nil => rfl
  | cons t ts ih => rw [List.map_cons, List.map_cons, ih, Placed.back_behind]

/-- Tokens in a row move together. -/
theorem placeAll_behind (s : Text) (start : Nat) (ts : List Token) :
    placeAll (byteLength s + start) ts = (placeAll start ts).map (Placed.behind s) := by
  induction ts generalizing start with
  | nil => rfl
  | cons t ts ih =>
    rw [placeAll_cons, placeAll_cons, List.map_cons, Nat.add_assoc, ih]
    rfl

theorem take_placeAll (start : Nat) (ts : List Token) (i : Nat) :
    (placeAll start ts).take i = placeAll start (ts.take i) := by
  induction ts generalizing start i with
  | nil => simp
  | cons t ts ih =>
    cases i with
    | zero => rfl
    | succ i => rw [placeAll_cons, List.take_succ_cons, List.take_succ_cons, placeAll_cons, ih]

/-- The tokens behind the first ones stand behind the spelling of these. -/
theorem drop_placeAll (start : Nat) (ts : List Token) (i : Nat) :
    (placeAll start ts).drop i =
      placeAll (start + byteLength (spellAll (ts.take i))) (ts.drop i) := by
  induction ts generalizing start i with
  | nil => simp
  | cons t ts ih =>
    cases i with
    | zero => rfl
    | succ i =>
      rw [placeAll_cons, List.drop_succ_cons, List.drop_succ_cons, List.take_succ_cons, ih,
        spellAll_cons, byteLength_append, byteLength_spelling, Nat.add_assoc]

theorem WellFormed.take {ts : List Token} (h : WellFormed ts) (i : Nat) : WellFormed (ts.take i) :=
  ⟨fun t ht => h.1 t (List.mem_of_mem_take ht), h.2.take i⟩

theorem WellFormed.drop {ts : List Token} (h : WellFormed ts) (i : Nat) : WellFormed (ts.drop i) :=
  ⟨fun t ht => h.1 t (List.mem_of_mem_drop ht), h.2.drop i⟩

/-- A token starts where the spelling of the tokens before it ends. -/
theorem startOf_spellAll {ts : List Token} (h : WellFormed ts) (i : Nat) :
    startOf (spellAll ts) i = byteLength (spellAll (ts.take i)) := by
  unfold startOf
  rw [lex_spellAll h, ← List.head?_drop, drop_placeAll, Nat.zero_add]
  cases hrest : ts.drop i with
  | nil => rw [List.take_of_length_le (List.drop_eq_nil_iff.1 hrest), placeAll_nil, List.head?_nil]
  | cons t rest => rfl

/-- Every start of a token, and the end of the text, is a place where lexing may begin anew. It lies
between two characters. What stands before it has the tokens that come before, and what stands behind it
has the other tokens, moved back by the bytes of what stands before. -/
theorem lex_restarts (s : Text) (i : Nat) :
    ∃ before after, cutAt? s (startOf s i) = some (before, after) ∧
      lex before = (lex s).take i ∧
      lex after = ((lex s).drop i).map (Placed.back (startOf s i)) ∧
      (lex s).drop i = (lex after).map (Placed.behind before) := by
  -- The cut goes through the tokens; the text is cut where their spelling is.
  generalize hts : (lex s).map (·.token) = ts
  have hwell : WellFormed ts := hts ▸ wellFormed_lex s
  have hspell : spellAll ts = s := hts ▸ spellAll_lex s
  subst hspell
  have hcut : spellAll ts = spellAll (ts.take i) ++ spellAll (ts.drop i) := by
    rw [← spellAll_append, List.take_append_drop]
  have hbefore : lex (spellAll (ts.take i)) = (lex (spellAll ts)).take i := by
    rw [lex_spellAll (hwell.take i), lex_spellAll hwell, take_placeAll]
  have hafter : (lex (spellAll ts)).drop i =
      (lex (spellAll (ts.drop i))).map (Placed.behind (spellAll (ts.take i))) := by
    rw [lex_spellAll (hwell.drop i), lex_spellAll hwell, drop_placeAll, Nat.zero_add,
      ← placeAll_behind, Nat.add_zero]
  refine ⟨spellAll (ts.take i), spellAll (ts.drop i), ?_, hbefore, ?_, hafter⟩
  · rw [startOf_spellAll hwell, hcut]
    exact cutAt?_append _ _
  · rw [startOf_spellAll hwell, hafter, map_back_map_behind]

end Stencil.Token
