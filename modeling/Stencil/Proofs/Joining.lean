import Stencil.Proofs.Deciding
import Stencil.Proofs.Shifting
import Stencil.Proofs.Spelling

/-!
# Templates one behind the other

A text is sealed when its end cannot become part of a delimiter, a name or a brace: no token of it goes
on in a text behind it, save that a stretch without `@` at its end grows. So the tokens of the two texts
together are those of the one and those of the other, up to that stretch. Stretches are copied, have no
name and do not dangle, and a template put together of two has the filled text, the errors and the names
of both.
-/

namespace Stencil

/-- Whether a text ends in a character that no delimiter, name or brace goes on behind. -/
def IsSealed (s : Text) : Prop := ∀ c ∈ s.getLast?, c ≠ '@' ∧ c ≠ '{' ∧ ¬ isNamePart c

instance (s : Text) : Decidable (IsSealed s) :=
  decidable_of_iff (s.getLast?.all fun c => c ≠ '@' ∧ c ≠ '{' ∧ ¬ isNamePart c)
    (by simp [IsSealed, Option.all_eq_true])

/-- A text of which the tokens end where they end, whatever follows; only a stretch without `@` at its
end may go on. -/
inductive IsSettled : Text → Prop
  | run {text : Text} (plain : '@' ∉ text) : IsSettled text
  | token {u : Token} {rest : Text} (proper : u.IsProper) (ends : ∀ t, u.Ends (rest ++ t))
      (settled : IsSettled rest) : IsSettled (u.spelling ++ rest)

namespace IsSealed

theorem of_append {s t : Text} (h : IsSealed (s ++ t)) : IsSealed t := by
  intro c hc
  apply h
  rw [List.getLast?_append, Option.mem_def.1 hc]
  rfl

theorem last {s : Text} {c : Char} (h : IsSealed (s ++ [c])) :
    c ≠ '@' ∧ c ≠ '{' ∧ ¬ isNamePart c :=
  h c (by simp)

/-- A sealed text that opens no placeholder opens none with a text behind it either. -/
theorem opensPlaceholder_append_iff {s : Text} (hs : s ≠ []) (h : IsSealed s) (t : Text) :
    Token.OpensPlaceholder (s ++ t) ↔ Token.OpensPlaceholder s := by
  constructor
  · intro hopen
    rcases hopen.reach hs with hopen | ⟨name, more, tail, hid, hmore, hbraces, -⟩
    · exact hopen
    · -- The text would end in the brace or in the name that it opens.
      obtain ⟨init, c, rfl⟩ := (List.eq_nil_or_concat' s).resolve_left hs
      obtain ⟨more, d, rfl⟩ := (List.eq_nil_or_concat' more).resolve_left hmore
      rw [← List.append_assoc] at hbraces
      have hname := (List.append_inj' hbraces rfl).1
      have hmem : c ∈ '{' :: name := by
        rw [hname]
        simp
      obtain ⟨-, hbrace, hpart⟩ := h.last
      rcases List.mem_cons.1 hmem with hc | hc
      · exact absurd hc hbrace
      · exact absurd (Token.isNamePart_of_mem hid c hc) hpart
  · intro hopen
    exact hopen.append t

/-- What follows a sealed text does not matter to a token that ends at its front. -/
theorem ends_append {u : Token} {s : Text} (hs : s ≠ []) (h : IsSealed s) (hu : u.Ends s) (t : Text) :
    u.Ends (s ++ t) := by
  have hhead : (s ++ t).head? = s.head? := by
    cases s with
    | nil => exact absurd rfl hs
    | cons c s => rfl
  cases u with
  | dangling =>
    obtain ⟨hescape, hopen⟩ := hu
    constructor
    · rintro ⟨tail, htail⟩
      match s with
      | [] => exact hs rfl
      | [c] =>
        have hc : '@' = c := (List.cons.inj htail).1
        exact (h.last (s := [])).1 hc.symm
      | c :: d :: s =>
        simp only [List.cons_append, List.cons.injEq] at htail
        obtain ⟨rfl, rfl, -⟩ := htail
        exact hescape ⟨s, rfl⟩
    · rwa [opensPlaceholder_append_iff hs h]
  | escaped => trivial
  | braced name => trivial
  | named name => rwa [Token.Ends, hhead]
  | atSign => rwa [Token.Ends, hhead]
  | run text => rwa [Token.Ends, hhead]

/-- A sealed text is settled: its tokens end where they end, whatever follows. -/
theorem isSettled {s : Text} (h : IsSealed s) : IsSettled s := by
  induction s using Token.reading_induction with
  | nil => exact .run (by simp)
  | token u rest hu hrest ih =>
    have hsealed := h.of_append
    by_cases hnil : rest = []
    · subst hnil
      rw [List.append_nil] at h ⊢
      have hlast : (∀ t, u.Ends ([] ++ t)) → IsSettled u.spelling := by
        intro hends
        have hsettled := IsSettled.token hu hends (ih hsealed)
        rwa [List.append_nil] at hsettled
      cases u with
      | run text => exact .run hu.2
      | braced name => exact hlast fun _ => trivial
      | named name =>
        -- A name ends in a part of a name.
        cases name using List.reverseRecOn with
        | nil => cases hu
        | append_singleton init c =>
          have hpart : isNamePart c := Token.isNamePart_of_mem hu c (by simp)
          exact absurd hpart (h.last (s := '@' :: '@' :: init)).2.2
      | escaped => exact absurd rfl (h.last (s := ['@', '@', '@'])).1
      | dangling => exact absurd rfl (h.last (s := ['@'])).1
      | atSign => exact absurd rfl (h.last (s := [])).1
    · exact .token hu (hsealed.ends_append hnil hrest) (ih hsealed)

end IsSealed

namespace Template.Search

/-- A text behind a settled one is filled from where that one ends. -/
theorem fillFrom_append {s : Text} (h : IsSettled s) (table : Table) (offset : Nat) (p : Position)
    (t : Text) :
    fillFrom table offset p (s ++ t) =
      ((fillFrom table offset p s).1 ++
          (fillFrom table (offset + byteLength s) (p.advance s) t).1,
        (fillFrom table offset p s).2 ++
          (fillFrom table (offset + byteLength s) (p.advance s) t).2) := by
  induction h generalizing offset p with
  | @run text htext =>
    have hrest := @fillFrom_append_of_split table offset p text t
      (splitDelimiter?_append_of_notMem htext t)
    have halone := @fillFrom_append_of_split table offset p text []
      (splitDelimiter?_append_of_notMem htext [])
    rw [List.append_nil] at halone
    rw [hrest, halone, fillFrom_eq table (offset + byteLength text) _ []]
    simp [put, splitDelimiter?]
  | @token u rest hu hends _ ih =>
    have hrest : u.Ends rest := by simpa using hends []
    rw [List.append_assoc, fillFrom_spelling_append hu (hends t), fillFrom_spelling_append hu hrest,
      ih, byteLength_append, Token.byteLength_spelling, Position.advance_append, Nat.add_assoc]
    cases Token.Placed.fill table p ⟨u, offset, offset + u.width⟩ <;> simp [put]

end Template.Search

namespace Token

def isRun : Token → Bool
  | run _ => true
  | _ => false

/-- The tokens of a text from byte `start` on, its stretches without `@` left out. -/
def marks (start : Nat) (s : Text) : List Token :=
  ((readFrom start s).map (·.token)).filter fun t => !t.isRun

theorem marks_spelling_append {t : Token} (ht : t.IsProper) {rest : Text} (hrest : t.Ends rest)
    (start : Nat) :
    marks start (t.spelling ++ rest) =
      [t].filter (fun t => !t.isRun) ++ marks (start + t.width) rest := by
  unfold marks
  rw [readFrom_spelling_append ht hrest, List.map_cons, ← List.filter_append]
  rfl

/-- Where a text stands does not matter to its tokens. -/
theorem marks_start (start : Nat) (s : Text) : marks start s = marks 0 s := by
  induction s using reading_induction generalizing start with
  | nil => simp [marks]
  | token t rest ht hrest ih =>
    rw [marks_spelling_append ht hrest, marks_spelling_append ht hrest, ih, ih (0 + t.width)]

theorem marks_run_append {text : Text} (htext : '@' ∉ text) (s : Text) :
    marks 0 (text ++ s) = marks 0 s := by
  obtain ⟨more, rest, rfl, hmore, hrest⟩ := exists_run s
  have hrun : ∀ u : Text, '@' ∉ u → marks 0 (u ++ rest) = marks 0 rest := by
    intro u hu
    cases u with
    | nil => rfl
    | cons c u =>
      have hproper : (run (c :: u)).IsProper := ⟨List.cons_ne_nil c u, hu⟩
      exact (marks_spelling_append hproper hrest 0).trans (marks_start _ rest)
  have hboth : '@' ∉ text ++ more := by
    rw [List.mem_append]
    exact fun hmem => hmem.elim htext hmore
  rw [← List.append_assoc, hrun _ hboth, hrun _ hmore]

theorem marks_append {s : Text} (h : IsSettled s) (t : Text) :
    marks 0 (s ++ t) = marks 0 s ++ marks 0 t := by
  induction h with
  | @run text htext =>
    have halone := marks_run_append htext []
    rw [List.append_nil] at halone
    rw [marks_run_append htext, halone]
    simp [marks]
  | @token u rest hu hends _ ih =>
    have hrest : u.Ends rest := by simpa using hends []
    rw [List.append_assoc, marks_spelling_append hu (hends t), marks_spelling_append hu hrest,
      marks_start _ (rest ++ t), marks_start _ rest, ih, List.append_assoc]

end Token

namespace Template

/-- Stretches without `@` have no names. -/
theorem identifiers_eq_marks (source : Text) :
    identifiers ⟨source⟩ = ((Token.marks 0 source).filterMap (·.placeholder?)).eraseDups := by
  have hrun : ∀ t : Token, (if !t.isRun then t.placeholder? else none) = t.placeholder? := by
    intro t
    cases t <;> rfl
  unfold identifiers tokens Token.marks
  rw [Token.lex_eq_readFrom, List.filterMap_filter, List.filterMap_map]
  simp only [hrun]
  rfl

theorem isWellFormed_eq_marks (source : Text) :
    isWellFormed ⟨source⟩ = (Token.marks 0 source).all (· != .dangling) := by
  have hrun : ∀ t : Token, (!(!t.isRun) || t != .dangling) = (t != .dangling) := by
    intro t
    cases t <;> rfl
  unfold isWellFormed tokens Token.marks
  rw [Token.lex_eq_readFrom, List.all_filter, List.all_map]
  simp only [hrun]
  rfl

theorem identifiers_append {s : Text} (h : IsSettled s) (t : Text) :
    identifiers ⟨s ++ t⟩ =
      identifiers ⟨s⟩ ++ (identifiers ⟨t⟩).filter (· ∉ identifiers ⟨s⟩) := by
  simp only [identifiers_eq_marks, Token.marks_append h, List.filterMap_append,
    List.eraseDups_append, List.removeAll, eraseDups_filter, List.mem_eraseDups, List.elem_eq_mem,
    decide_not]

theorem isWellFormed_append {s : Text} (h : IsSettled s) (t : Text) :
    isWellFormed ⟨s ++ t⟩ = (isWellFormed ⟨s⟩ && isWellFormed ⟨t⟩) := by
  simp only [isWellFormed_eq_marks, Token.marks_append h, List.all_append]

theorem filling_append {s : Text} (h : IsSettled s) (t : Text) (table : Table) :
    filling ⟨s ++ t⟩ table = filling ⟨s⟩ table ++ filling ⟨t⟩ table ∧
      problems ⟨s ++ t⟩ table =
        problems ⟨s⟩ table ++ (problems ⟨t⟩ table).map (TemplateError.behind s) := by
  have hwhole := Search.fillFrom_append h table 0 .first t
  have hbehind := Search.fillFrom_behind s table 0 (p := .first) (by decide) t
  rw [Nat.add_zero, ← Position.first_advance_eq_behind] at hbehind
  rw [Nat.zero_add, hbehind] at hwhole
  simp only [Search.fillFrom_first, Prod.mk.injEq] at hwhole
  exact hwhole

/-- A template behind a sealed text. It is filled to both filled texts when both can be filled; else it
has the errors of the first text, and behind them those of the second, which have moved by the bytes,
the newlines and the last line of the first. It is well formed when both are, and the names of the
second that are new come behind those of the first. -/
theorem fill_append_of_isSealed {s : Text} (h : IsSealed s) (t : Text) (table : Table) :
    (fill ⟨s ++ t⟩ table =
      match fill ⟨s⟩ table, fill ⟨t⟩ table with
      | .ok text, .ok text' => .ok (text ++ text')
      | .ok _, .error errors => .error (errors.map (TemplateError.behind s))
      | .error errors, .ok _ => .error errors
      | .error errors, .error errors' =>
        .error (errors ++ errors'.map (TemplateError.behind s))) ∧
    isWellFormed ⟨s ++ t⟩ = (isWellFormed ⟨s⟩ && isWellFormed ⟨t⟩) ∧
    identifiers ⟨s ++ t⟩ =
      identifiers ⟨s⟩ ++ (identifiers ⟨t⟩).filter (· ∉ identifiers ⟨s⟩) := by
  have hsettled := h.isSettled
  refine ⟨?_, isWellFormed_append hsettled t, identifiers_append hsettled t⟩
  obtain ⟨hfilling, hproblems⟩ := filling_append hsettled t table
  rw [fill_eq, fill_eq, fill_eq, hfilling, hproblems]
  cases problems ⟨s⟩ table <;> cases problems ⟨t⟩ table <;> simp

/-- Behind a line that stays open, a column moves on the first line only. -/
theorem fill_joined_lines :
    IsSealed ['é', '\n', '@', '@', ' '] ∧
      fill ⟨['é', '\n', '@', '@', ' '] ++ ['@', '@', '\n', '@', '@', 'A']⟩ Table.empty =
        .error [.invalid ⟨3, 5⟩ ⟨2, 1⟩, .invalid ⟨6, 8⟩ ⟨2, 4⟩, .undefined ['A'] ⟨9, 12⟩ []] := by
  have h : IsSealed ['é', '\n', '@', '@', ' '] := by decide
  refine ⟨h, ?_⟩
  rw [(fill_append_of_isSealed h _ .empty).1]
  decide +kernel

end Template

end Stencil
