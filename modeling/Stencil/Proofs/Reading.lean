import Stencil.Proofs.TokenStep

/-!
# Lexing and reading

Joining lexemes comes to the same tokens as reading the text one token at a time. The two agree on the
first token and on what is left behind it, so they agree on a whole text. The first cut has to be
followed only as far as the token goes: whatever a token is, the lexemes behind it are those of the rest
alone, save that a stretch without `@` which the token ends in the middle of is cut there.
-/

namespace Stencil

namespace Lexeme

theorem split_cons_of_ne {c : Char} (hc : c ≠ '@') (s : Text) :
    split (c :: s) =
      match split s with
      | run text :: ls => run (c :: text) :: ls
      | ls => run [c] :: ls :=
  split.eq_4 c s (fun _ h _ => hc h) hc

theorem split_at {s : Text} (h : s.head? ≠ some '@') : split ('@' :: s) = atSign :: split s := by
  refine split.eq_3 s ?_
  intro tail hs
  rw [hs] at h
  exact h rfl

/-- The lexemes of a text that begins with `@`. -/
theorem split_of_at {s : Text} (hs : ∀ c ∈ s.head?, c = '@') :
    split s = [] ∨ (∃ ls, split s = delimiter :: ls) ∨ ∃ ls, split s = atSign :: ls := by
  cases s with
  | nil => exact Or.inl rfl
  | cons c s =>
    have hc : c = '@' := hs c rfl
    subst hc
    by_cases hhead : s.head? = some '@'
    · obtain ⟨tail, rfl⟩ := List.head?_eq_some_iff.1 hhead
      exact Or.inr (Or.inl ⟨split tail, rfl⟩)
    · exact Or.inr (Or.inr ⟨split s, split_at hhead⟩)

/-- A stretch without `@` stays whole. -/
theorem split_run {text rest : Text} (hne : text ≠ []) (htext : '@' ∉ text)
    (hrest : ∀ c ∈ rest.head?, c = '@') : split (text ++ rest) = run text :: split rest := by
  induction text with
  | nil => exact absurd rfl hne
  | cons c text ih =>
    have hc : c ≠ '@' := by
      intro h
      exact htext (h ▸ List.mem_cons_self)
    rw [List.cons_append, split_cons_of_ne hc]
    cases text with
    | nil =>
      rw [List.nil_append]
      rcases split_of_at hrest with h | ⟨ls, h⟩ | ⟨ls, h⟩ <;> rw [h]
    | cons d text =>
      have htail : '@' ∉ d :: text := fun h => htext (List.mem_cons_of_mem c h)
      rw [ih (List.cons_ne_nil d text) htail]

/-- The lexemes of a text without `@`. -/
def stretch : Text → List Lexeme
  | [] => []
  | c :: text => [run (c :: text)]

theorem split_append {text rest : Text} (htext : '@' ∉ text) (hrest : ∀ c ∈ rest.head?, c = '@') :
    split (text ++ rest) = stretch text ++ split rest := by
  cases text with
  | nil => rfl
  | cons c text => exact split_run (List.cons_ne_nil c text) htext hrest

end Lexeme

namespace Token

theorem spelling_ne_nil {t : Token} (ht : t.IsProper) : t.spelling ≠ [] := by
  cases t with
  | run text => exact ht.1
  | _ => simp [spelling]

theorem width_pos {t : Token} (ht : t.IsProper) : 0 < t.width := by
  rw [← byteLength_spelling]
  exact byteLength_pos (spelling_ne_nil ht)

/-- Every text is empty, or a proper token before a rest where the token ends. -/
@[elab_as_elim]
theorem reading_induction {motive : Text → Prop} (nil : motive [])
    (token : ∀ (t : Token) (rest : Text), t.IsProper → t.Ends rest → motive rest →
      motive (t.spelling ++ rest))
    (s : Text) : motive s := by
  cases h : next? s with
  | none =>
    rw [next?_eq_none_iff.1 h]
    exact nil
  | some step =>
    obtain ⟨t, rest⟩ := step
    have hlt := length_next? h
    obtain ⟨hs, ht, hrest⟩ := next?_eq_some_iff.1 h
    rw [hs]
    exact token t rest ht hrest (reading_induction nil token rest)
termination_by s.length

@[simp] theorem readFrom_nil (start : Nat) : readFrom start [] = [] := by
  rw [readFrom]
  rfl

theorem readFrom_spelling_append {t : Token} (ht : t.IsProper) {rest : Text} (hrest : t.Ends rest)
    (start : Nat) :
    readFrom start (t.spelling ++ rest) =
      ⟨t, start, start + t.width⟩ :: readFrom (start + t.width) rest := by
  have h := next?_eq_some_iff.2 ⟨rfl, ht, hrest⟩
  rw [readFrom]
  split
  · next hnone =>
    rw [h] at hnone
    cases hnone
  · next token tail hsome =>
    rw [h] at hsome
    cases hsome
    rfl

/-- A text is cut into a stretch without `@` and a rest that does not go on with it. -/
theorem exists_run (s : Text) :
    ∃ text rest, s = text ++ rest ∧ '@' ∉ text ∧ ∀ c ∈ rest.head?, c = '@' := by
  obtain ⟨hs, htext, hrest⟩ := takeWhile_dropWhile_eq_iff.1
    (⟨rfl, rfl⟩ : s.takeWhile (· != '@') = _ ∧ s.dropWhile (· != '@') = _)
  refine ⟨_, _, hs, ?_, ?_⟩
  · intro hmem
    simpa using htext '@' hmem
  · intro c hc
    simpa using hrest c hc

theorem OpensPlaceholder.append {s : Text} (h : OpensPlaceholder s) (rest : Text) :
    OpensPlaceholder (s ++ rest) := by
  rcases h with ⟨c, s, rfl, hc⟩ | ⟨name, s, hname, rfl⟩
  · exact Or.inl ⟨c, s ++ rest, rfl, hc⟩
  · exact Or.inr ⟨name, s ++ rest, hname, by simp⟩

/-- A delimiter takes in the body at the front of the stretch behind it. What is left of the stretch
keeps its place. -/
theorem fuse_delimiter_run {t : Token} {body text : Text} (hwidth : t.width = 2 + byteLength body)
    (hread : placeholderBody? (body ++ text) = some (t, text)) (start : Nat) (ls : List Lexeme) :
    fuse (Lexeme.placeAll start (.delimiter :: .run (body ++ text) :: ls)) =
      ⟨t, start, start + t.width⟩ ::
        fuse (Lexeme.placeAll (start + t.width) (Lexeme.stretch text ++ ls)) := by
  have hstop : start + 2 + (byteLength (body ++ text) - byteLength text) = start + t.width := by
    rw [byteLength_append, hwidth]
    omega
  have hend : start + 2 + byteLength (body ++ text) = start + t.width + byteLength text := by
    rw [byteLength_append, hwidth]
    omega
  change fuse (⟨.delimiter, start, start + 2⟩ ::
    ⟨.run (body ++ text), start + 2, start + 2 + byteLength (body ++ text)⟩ ::
      Lexeme.placeAll (start + 2 + byteLength (body ++ text)) ls) = _
  rw [fuse, hread]
  simp only [hstop, hend]
  cases text with
  | nil =>
    rw [byteLength_nil, Nat.add_zero, if_neg (Nat.lt_irrefl _)]
    rfl
  | cons c text =>
    have hpos := byteLength_pos (List.cons_ne_nil c text)
    rw [if_pos (Nat.lt_add_of_pos_right hpos)]
    rfl

/-- A placeholder is read from the delimiter and the stretch behind it. -/
theorem fuse_body {t : Token} {body rest : Text} (hspelling : t.spelling = '@' :: '@' :: body)
    (hne : body ≠ []) (hbody : '@' ∉ body)
    (hread : ∀ text, text <+: rest → placeholderBody? (body ++ text) = some (t, text)) (start : Nat) :
    fuse (Lexeme.placeAll start (Lexeme.split (t.spelling ++ rest))) =
      ⟨t, start, start + t.width⟩ ::
        fuse (Lexeme.placeAll (start + t.width) (Lexeme.split rest)) := by
  obtain ⟨text, rest, rfl, htext, hrest⟩ := exists_run rest
  have hrun : '@' ∉ body ++ text := by
    rw [List.mem_append]
    exact fun h => h.elim hbody htext
  have hsplit : Lexeme.split (t.spelling ++ (text ++ rest)) =
      .delimiter :: .run (body ++ text) :: Lexeme.split rest := by
    rw [hspelling, List.cons_append, List.cons_append, Lexeme.split, ← List.append_assoc,
      Lexeme.split_run (by simp [hne]) hrun hrest]
  have hwidth : t.width = 2 + byteLength body := by
    have hat : '@'.utf8Size = 1 := rfl
    rw [← byteLength_spelling, hspelling, byteLength_cons, byteLength_cons, hat]
    omega
  rw [hsplit, fuse_delimiter_run hwidth (hread text (List.prefix_append text rest)),
    Lexeme.split_append htext hrest]

/-- A delimiter without anything to take in dangles. -/
theorem fuse_dangling {rest : Text} (hrest : dangling.Ends rest) (start : Nat) :
    fuse (Lexeme.placeAll start (Lexeme.split ('@' :: '@' :: rest))) =
      ⟨dangling, start, start + 2⟩ ::
        fuse (Lexeme.placeAll (start + 2) (Lexeme.split rest)) := by
  obtain ⟨hescape, hopens⟩ := hrest
  have hsplit : Lexeme.split ('@' :: '@' :: rest) = .delimiter :: Lexeme.split rest := rfl
  rw [hsplit]
  obtain ⟨text, rest, rfl, htext, hrest⟩ := exists_run rest
  cases text with
  | nil =>
    cases rest with
    | nil => rfl
    | cons c rest =>
      have hc : c = '@' := hrest c rfl
      subst hc
      have hhead : rest.head? ≠ some '@' := by
        intro h
        obtain ⟨tail, rfl⟩ := List.head?_eq_some_iff.1 h
        exact hescape ⟨tail, rfl⟩
      rw [List.nil_append, Lexeme.split_at hhead]
      rfl
  | cons c text =>
    -- The body is looked for in the stretch alone, and a body in the stretch is one in the text.
    have hnone : placeholderBody? (c :: text) = none :=
      placeholderBody?_eq_none_iff.2 fun h => hopens (h.append rest)
    rw [Lexeme.split_run (List.cons_ne_nil c text) htext hrest, Lexeme.placeAll, Lexeme.placeAll,
      fuse, hnone]
    rfl

theorem fuse_spelling_append {t : Token} (ht : t.IsProper) {rest : Text} (hrest : t.Ends rest)
    (start : Nat) :
    fuse (Lexeme.placeAll start (Lexeme.split (t.spelling ++ rest))) =
      ⟨t, start, start + t.width⟩ ::
        fuse (Lexeme.placeAll (start + t.width) (Lexeme.split rest)) := by
  cases t with
  | escaped => rfl
  | named name =>
    refine fuse_body rfl ?_ (at_notMem_of_isIdentifier ht) ?_ start
    · rintro rfl
      cases ht
    · intro text hprefix
      obtain ⟨rest', hrest'⟩ := hprefix
      refine placeholderBody?_eq_some_iff.2 (Or.inr ⟨name, rfl, ht, rfl, ?_⟩)
      intro c hc
      refine hrest c ?_
      rw [← hrest']
      cases text with
      | nil => cases hc
      | cons d text => exact hc
  | braced name =>
    refine fuse_body rfl (List.cons_ne_nil _ _) ?_ ?_ start
    · have hname := at_notMem_of_isIdentifier ht
      simp [hname]
    · intro text _
      refine placeholderBody?_eq_some_iff.2 (Or.inl ⟨name, rfl, ht, ?_⟩)
      simp
  | dangling => exact fuse_dangling hrest start
  | atSign =>
    change fuse (Lexeme.placeAll start (Lexeme.split ('@' :: rest))) = _
    rw [Lexeme.split_at hrest]
    rfl
  | run text =>
    change fuse (Lexeme.placeAll start (Lexeme.split (text ++ rest))) = _
    rw [Lexeme.split_run ht.1 ht.2 hrest]
    rfl

/-- Lexing a text and reading it token by token come to the same tokens. -/
theorem lex_eq_readFrom (s : Text) : lex s = readFrom 0 s := by
  have h (start : Nat) : fuse (Lexeme.placeAll start (Lexeme.split s)) = readFrom start s := by
    induction s using reading_induction generalizing start with
    | nil =>
      rw [readFrom_nil]
      rfl
    | token t rest ht hrest ih =>
      rw [fuse_spelling_append ht hrest, readFrom_spelling_append ht hrest, ih]
  exact h 0

end Token

end Stencil
