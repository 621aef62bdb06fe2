import Mathlib.Data.List.Forall2
import Stencil.Proofs.Lexing
import Stencil.Template

/-!
# Which templates can be filled

Filling, checking, the test for dangling delimiters and the list of names go over the tokens of a
template each for itself, and they tell one story. A token is faulty when it dangles or names nothing
in the table. A template can be filled exactly when none of its tokens is faulty; if some are, filling
and checking report one error for each of them, in their order and at their place.
-/

namespace Stencil

section Once
variable {α : Type} [BEq α] [LawfulBEq α]

theorem eraseDups_append_singleton (l : List α) (a : α) :
    (l ++ [a]).eraseDups = l.eraseDups ++ if a ∈ l then [] else [a] := by
  rw [List.eraseDups_append]
  by_cases ha : a ∈ l <;> simp [List.removeAll, List.eraseDups_cons, ha]

/-- What is kept of a list stands in the order in which it first appears there. -/
theorem pairwise_eraseDups (l : List α) :
    l.eraseDups.Pairwise fun a b => l.idxOf a < l.idxOf b := by
  induction l using List.reverseRecOn with
  | nil => simp
  | append_singleton l c ih =>
    rw [eraseDups_append_singleton, List.pairwise_append]
    have hmem : ∀ a ∈ l.eraseDups, (l ++ [c]).idxOf a = l.idxOf a ∧ a ∈ l := by
      intro a ha
      have ha : a ∈ l := List.mem_eraseDups.1 ha
      exact ⟨List.idxOf_append_of_mem ha, ha⟩
    refine ⟨?_, ?_, ?_⟩
    · apply ih.imp_of_mem
      intro a b ha hb hlt
      rw [(hmem a ha).1, (hmem b hb).1]
      exact hlt
    · split <;> simp
    · intro a ha b hb
      split at hb
      · cases hb
      · next hc =>
        obtain rfl := List.mem_singleton.1 hb
        obtain ⟨hindex, ha⟩ := hmem a ha
        rw [hindex, List.idxOf_append_of_notMem hc]
        have hlt := List.idxOf_lt_length_of_mem ha
        omega

theorem nodup_eraseDups (l : List α) : l.eraseDups.Nodup := by
  apply (pairwise_eraseDups l).imp
  rintro a b hlt rfl
  exact Nat.lt_irrefl _ hlt

theorem eraseDups_filter (p : α → Bool) (l : List α) :
    (l.filter p).eraseDups = l.eraseDups.filter p := by
  induction l using List.reverseRecOn with
  | nil => rfl
  | append_singleton l a ih =>
    rw [List.filter_append, eraseDups_append_singleton, List.filter_append]
    by_cases hp : p a
    · rw [List.filter_cons_of_pos hp, List.filter_nil, eraseDups_append_singleton, ih]
      by_cases ha : a ∈ l <;> simp [ha, hp]
    · rw [List.filter_cons_of_neg hp, List.filter_nil, List.append_nil, ih]
      split <;> simp [hp]

end Once

namespace Token

/-- Whether a token keeps a template from being filled. -/
def isFaulty (table : Table) : Token → Bool
  | dangling => true
  | named name | braced name => !table.contains name
  | escaped | atSign | run _ => false

theorem placeholder?_eq_some_iff {t : Token} {name : Text} :
    t.placeholder? = some name ↔ t = named name ∨ t = braced name := by
  cases t <;> simp [placeholder?]

end Token

namespace TemplateError

/-- The errors that the tokens of a source stand for. -/
inductive Reports (source : Text) (table : Table) : Token.Placed → TemplateError → Prop
  | dangling {span : Span} {p : Position} (position : Position.ofOffset? source span.start = some p) :
      Reports source table ⟨.dangling, span⟩ (.invalid span p)
  | named {name : Text} {span : Span} (missing : table.contains name = false) :
      Reports source table ⟨.named name, span⟩ (.undefined name span (table.suggestions name))
  | braced {name : Text} {span : Span} (missing : table.contains name = false) :
      Reports source table ⟨.braced name, span⟩ (.undefined name span (table.suggestions name))

theorem reports_unique (source : Text) (table : Table) :
    Relator.RightUnique (Reports source table) := by
  intro t e e' h h'
  cases h with
  | dangling position =>
    cases h' with
    | dangling position' =>
      rw [position] at position'
      cases position'
      rfl
  | named missing =>
    cases h'
    rfl
  | braced missing =>
    cases h'
    rfl

end TemplateError

theorem Table.contains_eq_isSome_get? (table : Table) (name : Text) :
    table.contains name = (table.get? name).isSome :=
  Std.ExtTreeMap.contains_eq_isSome_getElem?

theorem Table.get?_cases (table : Table) (name : Text) :
    (table.contains name = true ∧ ∃ value, table.get? name = some value) ∨
      table.contains name = false ∧ table.get? name = none := by
  rw [contains_eq_isSome_get?]
  cases table.get? name with
  | none => exact Or.inr ⟨rfl, rfl⟩
  | some value => exact Or.inl ⟨rfl, value, rfl⟩

namespace Token.Placed

open TemplateError (Reports)

/-- A token contributes text, or it is faulty and contributes the error that it stands for. -/
theorem fill_eq_ok_or_reports {source : Text} {p : Position} {t : Placed}
    (h : Position.ofOffset? source t.span.start = some p) (table : Table) :
    (t.token.isFaulty table = false ∧ ∃ text, t.fill table p = .ok text) ∨
      t.token.isFaulty table = true ∧ ∃ e, t.fill table p = .error e ∧ Reports source table t e := by
  obtain ⟨token, span⟩ := t
  cases token with
  | named name =>
    rcases table.get?_cases name with ⟨hname, value, hget⟩ | ⟨hname, hget⟩
    · exact Or.inl ⟨by simp [isFaulty, hname], value, by simp [fill, hget]⟩
    · exact Or.inr ⟨by simp [isFaulty, hname], _, by simp [fill, hget], .named hname⟩
  | braced name =>
    rcases table.get?_cases name with ⟨hname, value, hget⟩ | ⟨hname, hget⟩
    · exact Or.inl ⟨by simp [isFaulty, hname], value, by simp [fill, hget]⟩
    · exact Or.inr ⟨by simp [isFaulty, hname], _, by simp [fill, hget], .braced hname⟩
  | dangling => exact Or.inr ⟨rfl, _, rfl, .dangling h⟩
  | escaped => exact Or.inl ⟨rfl, _, rfl⟩
  | atSign => exact Or.inl ⟨rfl, _, rfl⟩
  | run text => exact Or.inl ⟨rfl, _, rfl⟩

/-- Behind any tokens, each token that follows contributes at its own place in the text. -/
theorem forall₂_fillAll {R : Placed → Except TemplateError Text → Prop} {source : Text}
    {table : Table}
    (h : ∀ t p, slice? source t.span = some t.token.spelling →
      Position.ofOffset? source t.span.start = some p → R t (t.fill table p))
    (us ts : List Token) (hsource : source = spellAll us ++ spellAll ts) :
    List.Forall₂ R (placeAll (byteLength (spellAll us)) ts)
      (fillAll table (Position.first.advance (spellAll us))
        (placeAll (byteLength (spellAll us)) ts)) := by
  induction ts generalizing us with
  | nil => exact .nil
  | cons t ts ih =>
    have hnext := ih (us ++ [t]) (by simp [hsource])
    simp only [spellAll_append, spellAll_cons, spellAll_nil, List.append_nil, byteLength_append,
      byteLength_spelling, Position.advance_append] at hnext
    rw [placeAll_cons, fillAll]
    refine .cons (h _ _ ?_ ?_) hnext
    · rw [hsource, spellAll_cons, ← List.append_assoc, ← byteLength_spelling]
      exact slice?_append _ _ _
    · rw [hsource]
      exact Position.ofOffset?_append _ _

/-- Where each contribution is text or the error that its token stands for, the errors are those of the
faulty tokens. -/
theorem forall₂_reports {source : Text} {table : Table} {ts : List Placed}
    {parts : List (Except TemplateError Text)}
    (h : List.Forall₂ (fun t part => (t.token.isFaulty table = false ∧ ∃ text, part = .ok text) ∨
      t.token.isFaulty table = true ∧ ∃ e, part = .error e ∧ Reports source table t e) ts parts) :
    List.Forall₂ (Reports source table) (ts.filter (·.token.isFaulty table)) (errors parts) := by
  induction h with
  | nil => exact .nil
  | cons hpart _ ih =>
    rcases hpart with ⟨hfaulty, text, rfl⟩ | ⟨hfaulty, e, rfl, he⟩
    · rw [List.filter_cons, if_neg (by simpa using hfaulty)]
      exact ih
    · rw [List.filter_cons, if_pos hfaulty]
      exact .cons he ih

end Token.Placed

namespace Template

open TemplateError (Reports)

/-- Each token of a template contributes at its own place in the source. -/
theorem forall₂_parts {R : Token.Placed → Except TemplateError Text → Prop} {source : Text}
    {table : Table}
    (h : ∀ t p, slice? source t.span = some t.token.spelling →
      Position.ofOffset? source t.span.start = some p → R t (t.fill table p)) :
    List.Forall₂ R (Token.lex source) (parts ⟨source⟩ table) := by
  have hsource : source = Token.spellAll ((Token.lex source).map (·.token)) :=
    (Token.spellAll_lex source).symm
  have hparts := Token.Placed.forall₂_fillAll h [] _ hsource
  change List.Forall₂ R (Token.placeAll 0 _)
    (Token.Placed.fillAll table .first (Token.placeAll 0 _)) at hparts
  rw [← Token.lex_eq_placeAll] at hparts
  exact hparts

/-- The errors of a template are those that its faulty tokens stand for, one for each, in their
order. -/
theorem forall₂_reports_problems (source : Text) (table : Table) :
    List.Forall₂ (Reports source table)
      ((Token.lex source).filter (·.token.isFaulty table)) (problems ⟨source⟩ table) :=
  Token.Placed.forall₂_reports (forall₂_parts fun _ _ _ hplace =>
    Token.Placed.fill_eq_ok_or_reports hplace table)

theorem fill_eq_error_iff {t : Template} {table : Table} {errors : List TemplateError} :
    t.fill table = .error errors ↔ errors ≠ [] ∧ errors = t.problems table := by
  rw [fill_eq]
  cases t.problems table with
  | nil => simp
  | cons e es =>
    constructor
    · intro h
      cases h
      exact ⟨List.cons_ne_nil e es, rfl⟩
    · intro h
      rw [h.2]

theorem exists_fill_eq_ok_iff {t : Template} {table : Table} :
    (∃ text, t.fill table = .ok text) ↔ t.problems table = [] := by
  rw [fill_eq]
  cases t.problems table <;> simp

/-- The names of a template are those of its placeholders. -/
theorem mem_identifiers_iff {t : Template} {name : Text} :
    name ∈ t.identifiers ↔ ∃ p ∈ t.tokens, p.token = .named name ∨ p.token = .braced name := by
  unfold identifiers
  rw [List.mem_eraseDups, List.mem_filterMap]
  simp only [Token.placeholder?_eq_some_iff]

theorem isIdentifier_of_mem_identifiers {t : Template} {name : Text} (h : name ∈ t.identifiers) :
    isIdentifier name := by
  obtain ⟨p, hp, htoken⟩ := mem_identifiers_iff.1 h
  have hproper := Token.isProper_of_mem_lex hp
  rcases htoken with htoken | htoken <;> rwa [htoken] at hproper

/-- No token is faulty exactly when none dangles and every name has an entry. -/
theorem forall_not_isFaulty_iff {t : Template} {table : Table} :
    (∀ p ∈ t.tokens, p.token.isFaulty table = false) ↔
      t.isWellFormed ∧ ∀ name ∈ t.identifiers, table.contains name := by
  unfold isWellFormed
  rw [List.all_eq_true]
  constructor
  · intro h
    constructor
    · intro p hp
      have hp := h p hp
      rw [bne_iff_ne]
      intro hdangling
      rw [hdangling] at hp
      cases hp
    · intro name hname
      obtain ⟨p, hp, htoken⟩ := mem_identifiers_iff.1 hname
      have hp := h p hp
      rcases htoken with htoken | htoken <;> simpa [htoken, Token.isFaulty] using hp
  · rintro ⟨hwell, hnames⟩ p hp
    have hname : ∀ name, p.token = .named name ∨ p.token = .braced name → table.contains name :=
      fun name htoken => hnames name (mem_identifiers_iff.2 ⟨p, hp, htoken⟩)
    cases htoken : p.token with
    | dangling => simpa [htoken] using hwell p hp
    | named name => simpa [Token.isFaulty] using hname name (Or.inl htoken)
    | braced name => simpa [Token.isFaulty] using hname name (Or.inr htoken)
    | _ => rfl

theorem problems_eq_nil_iff {source : Text} {table : Table} :
    problems ⟨source⟩ table = [] ↔
      isWellFormed ⟨source⟩ ∧ ∀ name ∈ identifiers ⟨source⟩, table.contains name := by
  have h := forall₂_reports_problems source table
  rw [← forall_not_isFaulty_iff]
  constructor
  · intro hnil p hp
    rw [hnil, List.forall₂_nil_right_iff, List.filter_eq_nil_iff] at h
    simpa using h p hp
  · intro hfree
    have hnil : (Token.lex source).filter (·.token.isFaulty table) = [] := by
      rw [List.filter_eq_nil_iff]
      intro p hp
      simpa using hfree p hp
    rwa [hnil, List.forall₂_nil_left_iff] at h

theorem check_eq_error_iff {t : Template} {table : Table} {errors : List TemplateError} :
    t.check table = .error errors ↔ t.fill table = .error errors := by
  unfold check
  cases t.fill table <;> simp

theorem check_eq_ok_iff {t : Template} {table : Table} {names : List Text} :
    t.check table = .ok names ↔ (∃ text, t.fill table = .ok text) ∧ names = t.identifiers := by
  unfold check
  cases t.fill table <;> simp [eq_comm]

/-- Checking and filling decide alike. A template can be filled exactly when no delimiter of it dangles
and the table has all its names. What keeps it from being filled is one error for each faulty token, in
the order of the tokens. Its names are listed once each, in the order in which they first appear. -/
theorem check_decides_as_fill (source : Text) (table : Table) :
    ((∃ names, check ⟨source⟩ table = .ok names) ↔ ∃ text, fill ⟨source⟩ table = .ok text) ∧
    ((∃ text, fill ⟨source⟩ table = .ok text) ↔
      isWellFormed ⟨source⟩ ∧ ∀ name ∈ identifiers ⟨source⟩, table.contains name) ∧
    (∀ errors, check ⟨source⟩ table = .error errors ↔ fill ⟨source⟩ table = .error errors) ∧
    (∀ errors, fill ⟨source⟩ table = .error errors ↔
      errors ≠ [] ∧ List.Forall₂ (Reports source table)
        ((Token.lex source).filter (·.token.isFaulty table)) errors) ∧
    (∀ names, check ⟨source⟩ table = .ok names ↔
      (∃ text, fill ⟨source⟩ table = .ok text) ∧ names = identifiers ⟨source⟩) ∧
    (identifiers ⟨source⟩).Nodup ∧
    ((identifiers ⟨source⟩).Pairwise fun a b =>
      ((Token.lex source).filterMap (·.token.placeholder?)).idxOf a <
        ((Token.lex source).filterMap (·.token.placeholder?)).idxOf b) ∧
    ∀ name, name ∈ identifiers ⟨source⟩ ↔
      ∃ t ∈ Token.lex source, t.token = .named name ∨ t.token = .braced name := by
  refine ⟨?_, ?_, fun errors => check_eq_error_iff, ?_, fun names => check_eq_ok_iff,
    nodup_eraseDups _, pairwise_eraseDups _, fun name => mem_identifiers_iff⟩
  · simp only [check_eq_ok_iff, exists_and_left, exists_eq, and_true]
  · rw [exists_fill_eq_ok_iff]
    exact problems_eq_nil_iff
  · intro errors
    have hproblems := forall₂_reports_problems source table
    rw [fill_eq_error_iff]
    apply and_congr_right
    intro _
    constructor
    · rintro rfl
      exact hproblems
    · intro h
      exact (TemplateError.reports_unique source table).forall₂ h hproblems

end Template

end Stencil
