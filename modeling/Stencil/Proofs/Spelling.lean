import Stencil.Proofs.Lexing

/-!
# Well formed token lists

A list of tokens is well formed when each is proper and each may be followed by the next. Read from
the front this says that every token ends where the spelling of the others begins, which is the
condition of the lexer; so the lexer reads a list back from its spelling exactly when it is well
formed, and whatever it reads is.
-/

namespace Stencil.Token

/-- What opens a placeholder in a text is at its front, or it is a name in braces that reach into what
follows. -/
theorem OpensPlaceholder.reach {s rest : Text} (hs : s ≠ []) (h : OpensPlaceholder (s ++ rest)) :
    OpensPlaceholder s ∨ ∃ name more tail, isIdentifier name ∧ more ≠ [] ∧
      '{' :: name ++ ['}'] = s ++ more ∧ rest = more ++ tail := by
  rcases h with ⟨d, tail, htail, hd⟩ | ⟨name, tail, hid, htail⟩
  · cases s with
    | nil => exact absurd rfl hs
    | cons c s => exact Or.inl (Or.inl ⟨c, s, rfl, (List.cons.inj htail).1 ▸ hd⟩)
  · have hcut : s ++ rest = ('{' :: name ++ ['}']) ++ tail := by
      rw [htail, List.append_assoc]
      rfl
    rcases List.append_eq_append_iff.1 hcut with ⟨more, hmore, hrest⟩ | ⟨more, hmore, -⟩
    · by_cases hnil : more = []
      · rw [hnil, List.append_nil] at hmore
        exact Or.inl (Or.inr ⟨name, [], hid, hmore.symm⟩)
      · exact Or.inr ⟨name, more, tail, hid, hnil, hmore, hrest⟩
    · exact Or.inl (Or.inr ⟨name, more, hid, by rw [hmore]; simp⟩)

/-- Text in front of a rest that begins with `@`, if at all, opens a placeholder by itself or not at
all: neither names nor braces reach into the rest. -/
theorem opensPlaceholder_append_iff {s rest : Text} (hs : s ≠ []) (hrest : (run s).Ends rest) :
    OpensPlaceholder (s ++ rest) ↔ OpensPlaceholder s := by
  constructor
  · intro h
    rcases h.reach hs with h | ⟨name, more, tail, hid, hmore, hbraces, htail⟩
    · exact h
    · -- The braces would hold the first character of the rest.
      cases more with
      | nil => exact absurd rfl hmore
      | cons c more =>
        have hc : c = '@' := hrest c (by rw [htail]; rfl)
        have hmem : '@' ∈ '{' :: name ++ ['}'] := by
          rw [hbraces, hc]
          simp
        have hname := at_notMem_of_isIdentifier hid
        simp [hname] at hmem
  · intro h
    exact h.append rest

/-- A token ends where a second one begins exactly when it may be followed by it. -/
theorem ends_spelling_append_iff {t u : Token} (hu : u.IsProper) {rest : Text}
    (hrest : u.Ends rest) : t.Ends (u.spelling ++ rest) ↔ MayFollow t u := by
  cases u with
  | run text =>
    obtain ⟨hne, hat⟩ := hu
    cases text with
    | nil => exact absurd rfl hne
    | cons c text =>
      have hc : c ≠ '@' := fun h => hat (h ▸ List.mem_cons_self)
      cases t with
      | dangling =>
        have hopen := opensPlaceholder_append_iff hne hrest
        simpa [Ends, MayFollow, spelling, hc.symm] using not_congr hopen
      | _ => simp [Ends, MayFollow, spelling, hc]
  | atSign =>
    cases t with
    | dangling =>
      have hhead : rest.head? ≠ some '@' := hrest
      have hesc : ¬ ['@', '@'] <+: '@' :: rest := by
        intro hprefix
        obtain ⟨tail, htail⟩ := hprefix
        rw [← (List.cons.inj htail).2] at hhead
        exact hhead rfl
      have hopen : ¬ OpensPlaceholder ('@' :: rest) := by
        intro h
        rcases h with ⟨c, tail, htail, hc⟩ | ⟨name, tail, -, htail⟩
        · rw [← (List.cons.inj htail).1] at hc
          exact absurd hc (by decide)
        · exact absurd (List.cons.inj htail).1 (by decide)
      exact iff_of_true ⟨hesc, hopen⟩ trivial
    | _ => simp [Ends, MayFollow, spelling, isNamePart]
  | _ => cases t <;> simp [Ends, MayFollow, spelling, isNamePart]

theorem ends_nil (t : Token) : t.Ends [] := by
  cases t with
  | dangling =>
    refine ⟨by simp, ?_⟩
    intro h
    rcases h with ⟨c, tail, htail, -⟩ | ⟨name, tail, -, htail⟩
    · cases htail
    · cases htail
  | _ => simp [Ends]

theorem wellFormed_nil : WellFormed [] := ⟨by simp, .nil⟩

/-- Well formed, told by neighbours. -/
theorem wellFormed_cons_iff_mayFollow {t : Token} {ts : List Token} :
    WellFormed (t :: ts) ↔ t.IsProper ∧ (∀ u ∈ ts.head?, MayFollow t u) ∧ WellFormed ts := by
  simp only [WellFormed, List.forall_mem_cons, List.isChain_cons]
  tauto

/-- Well formed, told from the front. -/
theorem wellFormed_cons_iff {t : Token} {ts : List Token} :
    WellFormed (t :: ts) ↔ t.IsProper ∧ t.Ends (spellAll ts) ∧ WellFormed ts := by
  induction ts generalizing t with
  | nil => simp [WellFormed, ends_nil]
  | cons u us ih =>
    have hhead : (∀ v ∈ (u :: us).head?, MayFollow t v) ↔ MayFollow t u := by simp
    rw [wellFormed_cons_iff_mayFollow, hhead]
    refine and_congr_right fun _ => and_congr_left fun hwell => ?_
    obtain ⟨hu, hrest, -⟩ := ih.1 hwell
    exact (ends_spelling_append_iff hu hrest).symm

theorem readFrom_spellAll {ts : List Token} (h : WellFormed ts) (start : Nat) :
    readFrom start (spellAll ts) = placeAll start ts := by
  induction ts generalizing start with
  | nil => simp
  | cons t ts ih =>
    obtain ⟨ht, hrest, hts⟩ := wellFormed_cons_iff.1 h
    rw [spellAll_cons, readFrom_spelling_append ht hrest, ih hts, placeAll_cons]

theorem wellFormed_readFrom (start : Nat) (s : Text) :
    WellFormed ((readFrom start s).map (·.token)) := by
  induction s using reading_induction generalizing start with
  | nil => simpa using wellFormed_nil
  | token t rest ht hrest ih =>
    rw [readFrom_spelling_append ht hrest, List.map_cons]
    refine wellFormed_cons_iff.2 ⟨ht, ?_, ih _⟩
    rwa [spellAll_readFrom]

theorem lex_spellAll {ts : List Token} (h : WellFormed ts) : lex (spellAll ts) = placeAll 0 ts := by
  rw [lex_eq_readFrom]
  exact readFrom_spellAll h 0

theorem wellFormed_lex (s : Text) : WellFormed ((lex s).map (·.token)) := by
  rw [lex_eq_readFrom]
  exact wellFormed_readFrom 0 s

/-- The lexer reads a list of tokens back from its spelling, each at the bytes that it takes up there,
exactly when the list is well formed, and it reads nothing but well formed lists. -/
theorem lex_spellAll_eq_iff :
    (∀ ts : List Token, lex (spellAll ts) = placeAll 0 ts ↔ WellFormed ts) ∧
      ∀ s : Text, WellFormed ((lex s).map (·.token)) := by
  simp only [lex_eq_readFrom]
  refine ⟨?_, wellFormed_readFrom 0⟩
  intro ts
  constructor
  · intro h
    have hwell := wellFormed_readFrom 0 (spellAll ts)
    rw [h, map_token_placeAll] at hwell
    exact hwell
  · intro h
    exact readFrom_spellAll h 0

end Stencil.Token
