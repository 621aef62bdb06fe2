import Mathlib.Data.List.TakeWhile
import Stencil.Token.WellFormed

/-!
# One step of reading

Reading takes one token off the front of a text and leaves the rest. Which token it takes is told here
without any search: the text is spelled by the token and the rest, the token is proper, and it ends
where the rest begins. `Ends` is that last condition, one case for each kind of token, and
`next?_eq_some_iff` says that the three together determine the step.
-/

namespace Stencil.Token

/-- Whether a token may end where `rest` begins, so that nothing more is read for it. -/
def Ends : Token → Text → Prop
  | run _, rest => ∀ c ∈ rest.head?, c = '@'
  | named _, rest => ∀ c ∈ rest.head?, ¬ isNamePart c
  | atSign, rest => rest.head? ≠ some '@'
  | dangling, rest => ¬ ['@', '@'] <+: rest ∧ ¬ OpensPlaceholder rest
  | escaped, _ | braced _, _ => True

theorem isNamePart_of_mem {name : Text} (h : isIdentifier name) : ∀ c ∈ name, isNamePart c := by
  cases name with
  | nil => simp at h
  | cons c s =>
    simp only [isIdentifier_cons, Bool.and_eq_true, List.all_eq_true] at h
    intro d hd
    rcases List.mem_cons.1 hd with rfl | hd
    · exact isNamePart_of_isNameStart h.1
    · exact h.2 d hd

theorem ne_at_of_isNamePart {c : Char} (h : isNamePart c) : c ≠ '@' := by
  intro hc
  rw [hc] at h
  exact absurd h (by decide)

theorem at_notMem_of_isIdentifier {name : Text} (h : isIdentifier name) : '@' ∉ name :=
  fun hm => ne_at_of_isNamePart (isNamePart_of_mem h _ hm) rfl

/-- A text is cut in only one way into characters of a class and a rest that does not begin with one. -/
theorem takeWhile_dropWhile_eq_iff {p : Char → Bool} {s t rest : Text} :
    s.takeWhile p = t ∧ s.dropWhile p = rest ↔
      s = t ++ rest ∧ (∀ c ∈ t, p c) ∧ ∀ c ∈ rest.head?, ¬ p c := by
  constructor
  · intro h
    obtain ⟨ht, hrest⟩ := h
    subst ht hrest
    refine ⟨List.takeWhile_append_dropWhile.symm, fun c hc => List.mem_takeWhile_imp hc, ?_⟩
    intro c hc
    have hnot := List.head?_dropWhile_not p s
    rw [Option.mem_def.1 hc] at hnot
    simpa using hnot
  · intro h
    obtain ⟨hs, ht, hrest⟩ := h
    subst hs
    rw [List.takeWhile_append_of_pos ht, List.dropWhile_append_of_pos ht]
    cases rest with
    | nil => simp
    | cons c rest =>
      have hc : p c = false := by simpa using hrest c rfl
      simp [hc]

theorem bareName?_eq_some_iff {s name rest : Text} :
    bareName? s = some (name, rest) ↔
      s = name ++ rest ∧ isIdentifier name ∧ ∀ c ∈ rest.head?, ¬ isNamePart c := by
  simp only [bareName?]
  constructor
  · intro h
    split at h
    · next hname =>
      cases h
      obtain ⟨hs, -, hrest⟩ := takeWhile_dropWhile_eq_iff.1 ⟨rfl, rfl⟩
      exact ⟨hs, hname, hrest⟩
    · cases h
  · intro h
    obtain ⟨hs, hname, hrest⟩ := h
    obtain ⟨ht, hd⟩ := takeWhile_dropWhile_eq_iff.2 ⟨hs, isNamePart_of_mem hname, hrest⟩
    rw [ht, hd, if_pos hname]

theorem bareName?_of_isNameStart {c : Char} (hc : isNameStart c) (s : Text) :
    bareName? (c :: s) = some (c :: s.takeWhile isNamePart, s.dropWhile isNamePart) := by
  have hpart := isNamePart_of_isNameStart hc
  simp [bareName?, hpart, hc]

theorem bareName?_of_not_isNameStart {c : Char} (hc : ¬ isNameStart c) (s : Text) :
    bareName? (c :: s) = none := by
  by_cases hpart : isNamePart c <;> simp [bareName?, hpart, hc]

theorem ne_brace_of_isNameStart {c : Char} (h : isNameStart c) : c ≠ '{' := by
  rintro rfl
  exact absurd h (by decide)

theorem placeholderBody?_brace (s : Text) :
    placeholderBody? ('{' :: s) =
      match bareName? s with
      | some (name, '}' :: rest) => some (braced name, rest)
      | _ => none := rfl

theorem placeholderBody?_of_ne_brace {s : Text} (h : s.head? ≠ some '{') :
    placeholderBody? s =
      match bareName? s with
      | some (name, rest) => some (named name, rest)
      | none => none := by
  cases s with
  | nil => rfl
  | cons c s =>
    have hc : c ≠ '{' := by simpa using h
    exact placeholderBody?.eq_2 (c :: s) fun s' hs => hc (List.cons.inj hs).1

theorem head?_ne_brace_of_isIdentifier {name : Text} (h : isIdentifier name) (rest : Text) :
    (name ++ rest).head? ≠ some '{' := by
  cases name with
  | nil => simp at h
  | cons c name =>
    simp only [isIdentifier_cons, Bool.and_eq_true] at h
    simpa using ne_brace_of_isNameStart h.1

theorem not_delimiter_prefix_of_isIdentifier {name : Text} (h : isIdentifier name) (rest : Text) :
    ¬ ['@', '@'] <+: name ++ rest := by
  intro hprefix
  obtain ⟨tail, htail⟩ := hprefix
  cases name with
  | nil => simp at h
  | cons c name =>
    have hc : isNamePart c := isNamePart_of_mem h c List.mem_cons_self
    exact ne_at_of_isNamePart hc (List.cons.inj htail).1.symm

/-- The body of a placeholder is a name in braces, or a name as long as possible. -/
theorem placeholderBody?_eq_some_iff {s rest : Text} {t : Token} :
    placeholderBody? s = some (t, rest) ↔
      (∃ name, t = braced name ∧ isIdentifier name ∧ s = '{' :: name ++ '}' :: rest) ∨
        ∃ name, t = named name ∧ isIdentifier name ∧ s = name ++ rest ∧
          ∀ c ∈ rest.head?, ¬ isNamePart c := by
  constructor
  · intro h
    by_cases hb : s.head? = some '{'
    · obtain ⟨s, rfl⟩ := List.head?_eq_some_iff.1 hb
      rw [placeholderBody?_brace] at h
      split at h
      · next name tail hname =>
        cases h
        obtain ⟨rfl, hid, -⟩ := bareName?_eq_some_iff.1 hname
        exact Or.inl ⟨name, rfl, hid, rfl⟩
      · cases h
    · rw [placeholderBody?_of_ne_brace hb] at h
      split at h
      · next name tail hname =>
        cases h
        obtain ⟨hs, hid, hrest⟩ := bareName?_eq_some_iff.1 hname
        exact Or.inr ⟨name, rfl, hid, hs, hrest⟩
      · cases h
  · intro h
    rcases h with ⟨name, rfl, hid, rfl⟩ | ⟨name, rfl, hid, rfl, hrest⟩
    · have hname : bareName? (name ++ '}' :: rest) = some (name, '}' :: rest) :=
        bareName?_eq_some_iff.2 ⟨rfl, hid, by rintro c ⟨⟩; decide⟩
      rw [List.cons_append, placeholderBody?_brace, hname]
      rfl
    · have hname : bareName? (name ++ rest) = some (name, rest) :=
        bareName?_eq_some_iff.2 ⟨rfl, hid, hrest⟩
      rw [placeholderBody?_of_ne_brace (head?_ne_brace_of_isIdentifier hid rest), hname]

theorem opensPlaceholder_iff {s : Text} :
    OpensPlaceholder s ↔ ∃ t rest, placeholderBody? s = some (t, rest) := by
  constructor
  · intro h
    rcases h with ⟨c, s, rfl, hc⟩ | ⟨name, rest, hid, rfl⟩
    · have hb : (c :: s).head? ≠ some '{' := by simpa using ne_brace_of_isNameStart hc
      rw [placeholderBody?_of_ne_brace hb, bareName?_of_isNameStart hc]
      exact ⟨_, _, rfl⟩
    · exact ⟨_, _, placeholderBody?_eq_some_iff.2 (Or.inl ⟨name, rfl, hid, rfl⟩)⟩
  · intro h
    obtain ⟨t, rest, h⟩ := h
    rcases placeholderBody?_eq_some_iff.1 h with ⟨name, -, hid, rfl⟩ | ⟨name, -, hid, rfl, -⟩
    · exact Or.inr ⟨name, rest, hid, rfl⟩
    · cases name with
      | nil => simp at hid
      | cons c name =>
        simp only [isIdentifier_cons, Bool.and_eq_true] at hid
        exact Or.inl ⟨c, name ++ rest, rfl, hid.1⟩

theorem placeholderBody?_eq_none_iff {s : Text} :
    placeholderBody? s = none ↔ ¬ OpensPlaceholder s := by
  rw [opensPlaceholder_iff, Option.eq_none_iff_forall_not_mem]
  simp [Option.mem_def]

@[simp] theorem next?_nil : next? [] = none := rfl

theorem next?_delimiter {s : Text} (h : ¬ ['@', '@'] <+: s) :
    next? ('@' :: '@' :: s) =
      match placeholderBody? s with
      | some (token, rest) => some (token, rest)
      | none => some (dangling, s) := by
  have hescape : ∀ s', s = '@' :: '@' :: s' → False := by
    intro s' hs
    exact h ⟨s', hs.symm⟩
  exact next?.eq_3 s hescape

theorem next?_at {s : Text} (h : s.head? ≠ some '@') : next? ('@' :: s) = some (atSign, s) := by
  rw [next?]
  · rintro s' rfl
    simp at h
  · rintro s' rfl
    simp at h

theorem next?_run {c : Char} (hc : c ≠ '@') (s : Text) :
    next? (c :: s) =
      some (run ((c :: s).takeWhile (· != '@')), (c :: s).dropWhile (· != '@')) := by
  rw [next?]
  · exact fun s' hat => absurd hat hc
  · exact fun s' hat => absurd hat hc
  · exact hc

/-- What reading takes off a text is spelled there, is proper, and ends where the rest begins. -/
theorem next?_sound {s rest : Text} {t : Token} (h : next? s = some (t, rest)) :
    s = t.spelling ++ rest ∧ t.IsProper ∧ t.Ends rest := by
  match s with
  | [] => simp at h
  | c :: s =>
    by_cases hc : c = '@'
    · subst hc
      by_cases hat : s.head? = some '@'
      · obtain ⟨s, rfl⟩ := List.head?_eq_some_iff.1 hat
        by_cases hesc : ['@', '@'] <+: s
        · obtain ⟨s, rfl⟩ := hesc
          cases h
          exact ⟨rfl, trivial, trivial⟩
        · rw [next?_delimiter hesc] at h
          cases hbody : placeholderBody? s with
          | none =>
            rw [hbody] at h
            cases h
            exact ⟨rfl, trivial, hesc, placeholderBody?_eq_none_iff.1 hbody⟩
          | some body =>
            obtain ⟨token, tail⟩ := body
            rw [hbody] at h
            cases h
            rcases placeholderBody?_eq_some_iff.1 hbody with
              ⟨name, rfl, hid, rfl⟩ | ⟨name, rfl, hid, rfl, hrest⟩
            · exact ⟨by simp [spelling], hid, trivial⟩
            · exact ⟨rfl, hid, hrest⟩
      · rw [next?_at hat] at h
        cases h
        exact ⟨rfl, trivial, hat⟩
    · rw [next?_run hc] at h
      cases h
      obtain ⟨hs, hall, hrest⟩ :=
        takeWhile_dropWhile_eq_iff.1
          (⟨rfl, rfl⟩ : (c :: s).takeWhile (· != '@') = _ ∧ (c :: s).dropWhile (· != '@') = _)
      refine ⟨hs, ⟨?_, ?_⟩, ?_⟩
      · simp [hc]
      · intro hm
        simpa using hall '@' hm
      · intro d hd
        simpa using hrest d hd

/-- A proper token that ends where the rest begins is what reading takes off its spelling. -/
theorem next?_complete {t : Token} (ht : t.IsProper) {rest : Text} (hrest : t.Ends rest) :
    next? (t.spelling ++ rest) = some (t, rest) := by
  cases t with
  | escaped => rfl
  | named name =>
    have hesc := not_delimiter_prefix_of_isIdentifier ht rest
    have hbody : placeholderBody? (name ++ rest) = some (named name, rest) :=
      placeholderBody?_eq_some_iff.2 (Or.inr ⟨name, rfl, ht, rfl, hrest⟩)
    change next? ('@' :: '@' :: (name ++ rest)) = _
    rw [next?_delimiter hesc, hbody]
  | braced name =>
    have hesc : ¬ ['@', '@'] <+: '{' :: name ++ '}' :: rest := by
      intro hprefix
      obtain ⟨tail, htail⟩ := hprefix
      simp at htail
    have hbody : placeholderBody? ('{' :: name ++ '}' :: rest) = some (braced name, rest) :=
      placeholderBody?_eq_some_iff.2 (Or.inl ⟨name, rfl, ht, rfl⟩)
    have hs : (braced name).spelling ++ rest = '@' :: '@' :: ('{' :: name ++ '}' :: rest) := by
      simp [spelling]
    rw [hs, next?_delimiter hesc, hbody]
  | dangling =>
    change next? ('@' :: '@' :: rest) = _
    rw [next?_delimiter hrest.1, placeholderBody?_eq_none_iff.2 hrest.2]
  | atSign => exact next?_at hrest
  | run text =>
    obtain ⟨hne, hat⟩ := ht
    cases text with
    | nil => exact absurd rfl hne
    | cons c text =>
      have hc : c ≠ '@' := fun h => hat (h ▸ List.mem_cons_self)
      have hall : ∀ d ∈ c :: text, (d != '@') = true := by
        intro d hd
        simpa using fun h : d = '@' => hat (h ▸ hd)
      have hstop : ∀ d ∈ rest.head?, ¬ (d != '@') = true := by
        intro d hd
        simpa using hrest d hd
      obtain ⟨ht, hd⟩ := takeWhile_dropWhile_eq_iff.2 ⟨rfl, hall, hstop⟩
      change next? (c :: (text ++ rest)) = _
      rw [next?_run hc]
      rw [List.cons_append] at ht hd
      rw [ht, hd]

theorem next?_eq_some_iff {s rest : Text} {t : Token} :
    next? s = some (t, rest) ↔ s = t.spelling ++ rest ∧ t.IsProper ∧ t.Ends rest :=
  ⟨next?_sound, fun h => h.1 ▸ next?_complete h.2.1 h.2.2⟩

theorem next?_eq_none_iff {s : Text} : next? s = none ↔ s = [] := by
  constructor
  · intro h
    unfold next? at h
    split at h
    · rfl
    · cases h
    · split at h <;> cases h
    · cases h
    · cases h
  · rintro rfl
    rfl

end Stencil.Token
