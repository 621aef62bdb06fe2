import Stencil.Proofs.ErrorLists

/-!
# Positions and offsets

The places of a text are its two ends and what lies between two of its characters. Places and their
positions stand for each other: a place further on has a position further on, and from the position the
place is found again, as above its line there are whole lines and its column counts the characters of the
line before it. An offset that is no place lies inside a character, or past the end.
-/

namespace Stencil

/-- An offset between the first and the last byte of a character. -/
def IsInside (s : Text) (offset : Nat) : Prop :=
  ∃ before c after, s = before ++ c :: after ∧ byteLength before < offset ∧
    offset < byteLength before + c.utf8Size

theorem isPlace_byteLength (s : Text) : IsPlace s (byteLength s) :=
  ⟨s, [], (List.append_nil s).symm, rfl⟩

/-- Two places cut a text in three. -/
theorem exists_middle {s : Text} {a b : Nat} (ha : IsPlace s a) (hb : IsPlace s b) (h : a < b) :
    ∃ before middle after, s = before ++ (middle ++ after) ∧ middle ≠ [] ∧
      byteLength before = a ∧ byteLength (before ++ middle) = b := by
  obtain ⟨before, rest, hs, rfl⟩ := ha
  obtain ⟨front, after, hs', rfl⟩ := hb
  rcases List.append_eq_append_iff.1 (hs.symm.trans hs') with
    ⟨middle, rfl, rfl⟩ | ⟨middle, rfl, -⟩
  · refine ⟨before, middle, after, hs, ?_, rfl, rfl⟩
    rintro rfl
    rw [List.append_nil] at h
    exact Nat.lt_irrefl _ h
  · rw [byteLength_append] at h
    omega

/-- Up to the end of a text an offset is a place or lies inside a character. -/
theorem isPlace_or_isInside {s : Text} {offset : Nat} (h : offset ≤ byteLength s) :
    IsPlace s offset ∨ IsInside s offset := by
  induction s generalizing offset with
  | nil =>
    have hzero : offset = 0 := Nat.le_zero.1 h
    exact Or.inl ⟨[], [], rfl, hzero.symm⟩
  | cons c s ih =>
    rw [byteLength_cons] at h
    by_cases hzero : offset = 0
    · exact Or.inl ⟨[], c :: s, rfl, hzero.symm⟩
    · by_cases hfirst : offset < c.utf8Size
      · refine Or.inr ⟨[], c, s, rfl, Nat.pos_of_ne_zero hzero, ?_⟩
        rwa [byteLength_nil, Nat.zero_add]
      · have hrest : offset - c.utf8Size ≤ byteLength s := by omega
        rcases ih hrest with ⟨before, after, rfl, hbefore⟩ | ⟨before, d, after, rfl, hlow, hhigh⟩
        · exact Or.inl ⟨c :: before, after, rfl, by rw [byteLength_cons]; omega⟩
        · exact Or.inr ⟨c :: before, d, after, rfl, by rw [byteLength_cons]; omega,
            by rw [byteLength_cons]; omega⟩

theorem IsInside.not_isPlace {s : Text} {offset : Nat} (h : IsInside s offset) :
    ¬ IsPlace s offset := by
  rintro ⟨front, rest, hs, hfront⟩
  obtain ⟨before, c, after, hs', hlow, hhigh⟩ := h
  -- The place would lie before the character, or have all of it in front.
  rcases List.append_eq_append_iff.1 (hs.symm.trans hs') with
    ⟨middle, rfl, -⟩ | ⟨middle, rfl, hmiddle⟩
  · rw [byteLength_append] at hlow
    omega
  · rw [byteLength_append] at hfront
    cases middle with
    | nil =>
      rw [byteLength_nil] at hfront
      omega
    | cons d middle =>
      obtain ⟨rfl, -⟩ := List.cons.inj hmiddle
      rw [byteLength_cons] at hfront
      omega

/-- A text is its whole lines and the line behind them. -/
theorem exists_above (s : Text) :
    ∃ above, s = above ++ lastLine s ∧ (above = [] ∨ above.getLast? = some '\n') ∧
      '\n' ∉ lastLine s := by
  induction s using List.reverseRecOn with
  | nil => exact ⟨[], rfl, Or.inl rfl, List.not_mem_nil⟩
  | append_singleton s c ih =>
    by_cases hc : c = '\n'
    · subst hc
      rw [lastLine_append_newline]
      exact ⟨s ++ ['\n'], (List.append_nil _).symm, Or.inr (by simp), List.not_mem_nil⟩
    · obtain ⟨above, hs, habove, hline⟩ := ih
      rw [lastLine_append_of_ne s hc]
      refine ⟨above, ?_, habove, by simp [hline, Ne.symm hc]⟩
      rw [← List.append_assoc, ← hs]

namespace Position

theorem firstLines_newline (n : Nat) (s : Text) :
    firstLines (n + 1) ('\n' :: s) = '\n' :: firstLines n s := by
  simp [firstLines]

theorem firstLines_of_ne (n : Nat) {c : Char} (hc : c ≠ '\n') (s : Text) :
    firstLines (n + 1) (c :: s) = c :: firstLines (n + 1) s := by
  simp [firstLines, hc]

/-- Whole lines at the front of a text are its first lines. -/
theorem firstLines_append {above : Text} (h : above = [] ∨ above.getLast? = some '\n') (rest : Text) :
    firstLines (above.count '\n') (above ++ rest) = above := by
  induction above with
  | nil => rfl
  | cons c above ih =>
    have htail : above = [] ∨ above.getLast? = some '\n' := by
      cases above with
      | nil => exact Or.inl rfl
      | cons d above => exact Or.inr (by simpa using h)
    by_cases hc : c = '\n'
    · rw [hc, List.count_cons_self, List.cons_append, firstLines_newline, ih htail]
    · -- The line goes on, so its newline is still to come.
      have hmem : '\n' ∈ above := by
        rcases htail with rfl | hlast
        · simp [hc] at h
        · exact List.mem_of_getLast? hlast
      obtain ⟨n, hn⟩ := Nat.exists_eq_add_one.2 (List.count_pos_iff.2 hmem)
      rw [hn] at ih
      rw [List.count_cons_of_ne hc, hn, List.cons_append, firstLines_of_ne n hc, ih htail]

/-- The offset of a position is found again. -/
theorem offset_advance (before after : Text) :
    (first.advance before).offset (before ++ after) = byteLength before := by
  obtain ⟨above, hbefore, habove, hline⟩ := exists_above before
  have hcount : before.count '\n' = above.count '\n' := by
    rw [hbefore, List.count_append, List.count_eq_zero.2 hline, Nat.add_zero]
  have hfirst : firstLines (before.count '\n') (before ++ after) = above := by
    have hlines := firstLines_append habove (lastLine before ++ after)
    rwa [← List.append_assoc, ← hbefore, ← hcount] at hlines
  have hrest : (before ++ after).drop above.length = lastLine before ++ after := by
    conv_lhs => rw [hbefore, List.append_assoc]
    exact List.drop_left
  rw [first_advance_eq]
  unfold offset
  simp only [Nat.add_sub_cancel, hfirst, hrest, List.take_left]
  rw [← byteLength_append, ← hbefore]

theorem ofOffset?_of_isPlace {s : Text} {a : Nat} (h : IsPlace s a) :
    ∃ p, ofOffset? s a = some p ∧ p.offset s = a := by
  obtain ⟨before, after, rfl, rfl⟩ := h
  exact ⟨_, ofOffset?_append before after, offset_advance before after⟩

theorem before_of_lt {s : Text} {a b : Nat} (ha : IsPlace s a) (hb : IsPlace s b) (h : a < b) :
    ∃ p q, ofOffset? s a = some p ∧ ofOffset? s b = some q ∧ p.Before q := by
  obtain ⟨before, middle, after, rfl, hne, rfl, rfl⟩ := exists_middle ha hb h
  refine ⟨first.advance before, first.advance (before ++ middle), ?_, ?_, ?_⟩
  · exact ofOffset?_append before (middle ++ after)
  · rw [← List.append_assoc]
    exact ofOffset?_append (before ++ middle) after
  · rw [advance_append]
    exact before_advance hne _

theorem ofOffset?_of_le {s : Text} {a : Nat} (h : byteLength s ≤ a) :
    ofOffset? s a = ofOffset? s (byteLength s) := by
  unfold ofOffset?
  rw [Nat.min_eq_right h, Nat.min_self]

theorem ofOffset?_eq_none_iff {s : Text} {a : Nat} :
    ofOffset? s a = none ↔ a < byteLength s ∧ IsInside s a := by
  constructor
  · intro hnone
    have hlt : a < byteLength s := by
      by_contra hle
      obtain ⟨p, hp, -⟩ := ofOffset?_of_isPlace (isPlace_byteLength s)
      rw [ofOffset?_of_le (Nat.not_lt.1 hle), hp] at hnone
      cases hnone
    refine ⟨hlt, (isPlace_or_isInside hlt.le).resolve_left ?_⟩
    intro hplace
    obtain ⟨p, hp, -⟩ := ofOffset?_of_isPlace hplace
    rw [hp] at hnone
    cases hnone
  · rintro ⟨hlt, hinside⟩
    unfold ofOffset?
    rw [Nat.min_eq_left hlt.le]
    cases hcut : cutAt? s a with
    | none => rfl
    | some cut =>
      obtain ⟨before, after⟩ := cut
      obtain ⟨hs, hbefore⟩ := eq_append_of_cutAt? hcut
      exact absurd ⟨before, after, hs, hbefore⟩ hinside.not_isPlace

/-- Positions identify the places of a text. A place behind another one has a position behind that of
the other one, so no two places share a position, and every place is the byte length of the lines above
its position and of the characters before it in its line. An offset past the end has the position of the
end. Only the offsets inside a character have no position. -/
theorem ofOffset?_identifies (s : Text) :
    (∀ a b, IsPlace s a → IsPlace s b → a < b →
      ∃ p q, ofOffset? s a = some p ∧ ofOffset? s b = some q ∧ p.Before q) ∧
    (∀ a b, IsPlace s a → IsPlace s b → ofOffset? s a = ofOffset? s b → a = b) ∧
    (∀ a, IsPlace s a → ∃ p, ofOffset? s a = some p ∧ p.offset s = a) ∧
    (∀ a, byteLength s ≤ a → ofOffset? s a = ofOffset? s (byteLength s)) ∧
    ∀ a, ofOffset? s a = none ↔ a < byteLength s ∧ IsInside s a := by
  refine ⟨fun a b => before_of_lt, ?_, fun a => ofOffset?_of_isPlace, fun a => ofOffset?_of_le,
    fun a => ofOffset?_eq_none_iff⟩
  intro a b ha hb heq
  obtain ⟨p, hp, rfl⟩ := ofOffset?_of_isPlace ha
  obtain ⟨q, hq, rfl⟩ := ofOffset?_of_isPlace hb
  rw [hp, hq] at heq
  rw [Option.some.inj heq]

/-- On both sides of a newline behind a character of two bytes, inside that character, and past the
end. -/
theorem ofOffset?_identifies_around_newline :
    let s : Text := ['é', '\n', 'x']
    IsPlace s 2 ∧ IsPlace s 3 ∧
      (∃ p q, ofOffset? s 2 = some p ∧ ofOffset? s 3 = some q ∧ p.Before q) ∧
      (∃ p, ofOffset? s 3 = some p ∧ p.offset s = 3) ∧
      ofOffset? s 9 = ofOffset? s 4 ∧ ofOffset? s 1 = none := by
  intro s
  have hfirst : IsPlace s 2 := ⟨['é'], ['\n', 'x'], rfl, rfl⟩
  have hsecond : IsPlace s 3 := ⟨['é', '\n'], ['x'], rfl, rfl⟩
  have hinside : IsInside s 1 := ⟨[], 'é', ['\n', 'x'], rfl, by decide, by decide⟩
  obtain ⟨hmono, -, hback, hend, hnone⟩ := ofOffset?_identifies s
  exact ⟨hfirst, hsecond, hmono 2 3 hfirst hsecond (by decide), hback 3 hsecond,
    hend 9 (by decide), (hnone 1).2 ⟨by decide, hinside⟩⟩

end Position

end Stencil
