import Stencil.Proofs.Reading

/-!
# Lexing loses nothing

The tokens of a text stand one after the other from its first byte to its last, and each spells the
stretch that it stands on. This rests on one fact, that a text is empty or a proper token before a rest
where the token ends.
-/

namespace Stencil

/-- An offset between two characters of a text or at one of its ends. -/
def IsPlace (s : Text) (offset : Nat) : Prop :=
  ∃ before after, s = before ++ after ∧ byteLength before = offset

/-- The stretches are not empty and stand one after the other from `start` to `stop`. -/
def Tiles (start stop : Nat) : List Span → Prop
  | [] => start = stop
  | span :: spans => span.start = start ∧ start < span.stop ∧ Tiles span.stop stop spans

theorem slice?_append (before middle after : Text) :
    slice? (before ++ middle ++ after)
      ⟨byteLength before, byteLength before + byteLength middle⟩ = some middle := by
  have hcut := cutAt?_append before (middle ++ after)
  rw [← List.append_assoc] at hcut
  simp only [slice?, hcut, Nat.le_add_right, if_true, Nat.add_sub_cancel_left, cutAt?_append,
    Option.map_some]

namespace Token

@[simp] theorem spellAll_nil : spellAll [] = [] := rfl

@[simp] theorem spellAll_cons (t : Token) (ts : List Token) :
    spellAll (t :: ts) = t.spelling ++ spellAll ts := rfl

@[simp] theorem spellAll_append (ts us : List Token) :
    spellAll (ts ++ us) = spellAll ts ++ spellAll us := List.flatMap_append

theorem spellAll_readFrom (start : Nat) (s : Text) :
    spellAll ((readFrom start s).map (·.token)) = s := by
  induction s using reading_induction generalizing start with
  | nil => simp
  | token t rest ht hrest ih =>
    rw [readFrom_spelling_append ht hrest, List.map_cons, spellAll_cons, ih]

theorem spellAll_lex (s : Text) : spellAll ((lex s).map (·.token)) = s := by
  rw [lex_eq_readFrom]
  exact spellAll_readFrom 0 s

theorem lex_eq_placeAll (s : Text) : lex s = placeAll 0 ((lex s).map (·.token)) := by
  rw [lex_eq_readFrom]
  exact readFrom_eq_placeAll 0 s

theorem isProper_of_mem_readFrom {start : Nat} {s : Text} {t : Placed} (h : t ∈ readFrom start s) :
    t.token.IsProper := by
  induction s using reading_induction generalizing start with
  | nil => simp at h
  | token u rest hu hrest ih =>
    rw [readFrom_spelling_append hu hrest] at h
    rcases List.mem_cons.1 h with rfl | h
    · exact hu
    · exact ih h

theorem isProper_of_mem_lex {s : Text} {t : Placed} (h : t ∈ lex s) : t.token.IsProper := by
  rw [lex_eq_readFrom] at h
  exact isProper_of_mem_readFrom h

/-- A placed token stands behind the spelling of the tokens before it. -/
theorem mem_placeAll {start : Nat} {ts : List Token} {t : Placed} (h : t ∈ placeAll start ts) :
    ∃ us vs, ts = us ++ t.token :: vs ∧ t.span.start = start + byteLength (spellAll us) ∧
      t.span.stop = t.span.start + t.token.width := by
  induction ts generalizing start with
  | nil => simp at h
  | cons u ts ih =>
    rw [placeAll_cons] at h
    rcases List.mem_cons.1 h with rfl | h
    · exact ⟨[], ts, rfl, rfl, rfl⟩
    · obtain ⟨us, vs, rfl, hstart, hstop⟩ := ih h
      refine ⟨u :: us, vs, rfl, ?_, hstop⟩
      rw [hstart, spellAll_cons, byteLength_append, byteLength_spelling, Nat.add_assoc]

/-- A token of a text stands on its own spelling. -/
theorem mem_readFrom {s : Text} {t : Placed} (h : t ∈ readFrom 0 s) :
    ∃ before after, s = before ++ t.token.spelling ++ after ∧
      t.span = ⟨byteLength before, byteLength before + byteLength t.token.spelling⟩ := by
  have hspell := spellAll_readFrom 0 s
  have hplace := readFrom_eq_placeAll 0 s
  rw [hplace] at h
  obtain ⟨us, vs, hts, hstart, hstop⟩ := mem_placeAll h
  refine ⟨spellAll us, spellAll vs, ?_, ?_⟩
  · rw [← hspell, hts]
    simp
  · rw [Nat.zero_add] at hstart
    rw [byteLength_spelling, ← hstart, ← hstop]

theorem tiles_readFrom (start : Nat) (s : Text) :
    Tiles start (start + byteLength s) ((readFrom start s).map (·.span)) := by
  induction s using reading_induction generalizing start with
  | nil => simp [Tiles]
  | token t rest ht hrest ih =>
    have hpos := width_pos ht
    have h := ih (start + t.width)
    rw [readFrom_spelling_append ht hrest, List.map_cons, byteLength_append, byteLength_spelling,
      ← Nat.add_assoc]
    exact ⟨rfl, Nat.lt_add_of_pos_right hpos, h⟩

/-- Lexing is lossless. The spans of the tokens lead without a gap from the first byte to the last,
their ends lie between characters, and what stands between them is what the token spells. -/
theorem lex_lossless (s : Text) :
    Tiles 0 (byteLength s) ((lex s).map (·.span)) ∧
      (∀ t ∈ lex s, t.token.IsProper ∧ IsPlace s t.span.start ∧ IsPlace s t.span.stop ∧
        slice? s t.span = some t.token.spelling) ∧
      spellAll ((lex s).map (·.token)) = s := by
  rw [lex_eq_readFrom]
  refine ⟨?_, ?_, spellAll_readFrom 0 s⟩
  · have h := tiles_readFrom 0 s
    rwa [Nat.zero_add] at h
  · intro t ht
    obtain ⟨before, after, hs, hspan⟩ := mem_readFrom ht
    refine ⟨isProper_of_mem_readFrom ht, ?_, ?_, ?_⟩
    · exact ⟨before, t.token.spelling ++ after, by rw [hs, List.append_assoc], by rw [hspan]⟩
    · exact ⟨before ++ t.token.spelling, after, hs, by rw [hspan, byteLength_append]⟩
    · rw [hspan, hs]
      exact slice?_append before t.token.spelling after

end Token

end Stencil
