import Stencil.Proofs.ErrorLists
import Stencil.Proofs.SearchFilling

/-!
# Growing tables

A table with more entries fills more templates. What a table fills is filled to the same text by every
table that extends it, and of the errors of a template those go whose names are new; the others stay,
with suggestions that can only become more. In the other direction a table may be cut down to the names
of a template that it fills.
-/

namespace Stencil

namespace Table

/-- Whether a table has every entry of another one, with the same text. -/
def Extends (b a : Table) : Prop :=
  ∀ name value, a.get? name = some value → b.get? name = some value

/-- The entries of a table that have one of the given names. -/
def restrict (t : Table) (names : List Text) : Table where
  name := t.name
  description := t.description
  entries := t.entries.filter fun name _ => names.contains name
  isIdentifier_of_mem := by
    intro name hname
    obtain ⟨hmem, -⟩ := Std.ExtTreeMap.mem_filter.1 hname
    exact t.isIdentifier_of_mem name hmem

theorem get?_restrict (t : Table) (names : List Text) (name : Text) :
    (t.restrict names).get? name = if name ∈ names then t.get? name else none := by
  have hfilter : (t.restrict names).get? name =
      (t.get? name).filter fun _ => names.contains name := Std.ExtTreeMap.getElem?_filter'
  rw [hfilter]
  by_cases hname : name ∈ names
  · cases t.get? name <;> simp [hname]
  · cases t.get? name <;> simp [hname]

variable {a b : Table}

theorem Extends.mem_names (h : b.Extends a) {name : Text} (hname : name ∈ a.names) :
    name ∈ b.names := by
  rw [mem_names_iff, contains_eq_isSome_get?, Option.isSome_iff_exists] at hname ⊢
  obtain ⟨value, hvalue⟩ := hname
  exact ⟨value, h name value hvalue⟩

theorem Extends.suggestions_subset (h : b.Extends a) (name : Text) :
    a.suggestions name ⊆ b.suggestions name := by
  intro key hkey
  obtain ⟨hmem, halike⟩ := List.mem_filter.1 hkey
  exact List.mem_filter.2 ⟨h.mem_names hmem, halike⟩

end Table

namespace TemplateError

/-- The same error with the same suggestions, and possibly more. -/
inductive Enriched : TemplateError → TemplateError → Prop
  | undefined {name : Text} {span : Span} {suggestions suggestions' : List Text}
      (subset : suggestions ⊆ suggestions') :
      Enriched (.undefined name span suggestions) (.undefined name span suggestions')
  | invalid {span : Span} {p : Position} : Enriched (.invalid span p) (.invalid span p)

/-- Whether an error is there with a table too: no table mends a dangling delimiter. -/
def remainsWith (table : Table) : TemplateError → Bool
  | undefined name _ _ => !table.contains name
  | invalid .. => true

end TemplateError

namespace Token.Placed

open TemplateError (Enriched)
open Template.Search (contribution)

variable {a b : Table}

/-- A token contributes the same text with every table that has the same entry for its name. -/
theorem fill_eq_ok_of_get? {t : Placed} {p : Position} {text : Text} (h : t.fill a p = .ok text)
    (hname : ∀ name value, t.token.placeholder? = some name → a.get? name = some value →
      b.get? name = some value) : t.fill b p = .ok text := by
  obtain ⟨token, span⟩ := t
  have hplaceholder : ∀ name, token.placeholder? = some name → contribution a name span = .ok text →
      contribution b name span = .ok text := by
    intro name hplaceholder hcontribution
    unfold contribution at hcontribution ⊢
    cases hget : a.get? name with
    | none =>
      rw [hget] at hcontribution
      cases hcontribution
    | some value =>
      rw [hget] at hcontribution
      rw [hname name value hplaceholder hget]
      exact hcontribution
  cases token with
  | named name => exact hplaceholder name rfl h
  | braced name => exact hplaceholder name rfl h
  | dangling => cases h
  | _ => exact h

theorem fillAll_eq_of_get? {ts : List Placed} {p : Position}
    (h : ∀ part ∈ fillAll a p ts, ∃ text, part = .ok text)
    (hnames : ∀ t ∈ ts, ∀ name value, t.token.placeholder? = some name → a.get? name = some value →
      b.get? name = some value) : fillAll b p ts = fillAll a p ts := by
  induction ts generalizing p with
  | nil => rfl
  | cons t ts ih =>
    obtain ⟨hhead, htail⟩ := List.forall_mem_cons.1 hnames
    obtain ⟨⟨text, htext⟩, hparts⟩ := List.forall_mem_cons.1 h
    rw [fillAll, fillAll, htext, fill_eq_ok_of_get? htext hhead, ih hparts htail]

/-- A missing name either has an entry in the larger table, or is still missing there. -/
theorem forall₂_enriched_contribution (h : b.Extends a) (name : Text) (span : Span) :
    List.Forall₂ Enriched ((errors [contribution a name span]).filter (·.remainsWith b))
      (errors [contribution b name span]) := by
  unfold contribution
  cases ha : a.get? name with
  | some value =>
    rw [h name value ha]
    exact .nil
  | none =>
    rcases b.get?_cases name with ⟨hcontains, value, hb⟩ | ⟨hcontains, hb⟩
    · simp [hb, errors, TemplateError.remainsWith, hcontains]
    · simpa [hb, errors, TemplateError.remainsWith, hcontains] using
        Enriched.undefined (h.suggestions_subset name)

/-- The errors of tokens with the larger table are those that remain of the errors with the smaller
one. -/
theorem forall₂_enriched (h : b.Extends a) (start : Nat) (p : Position) (ts : List Token) :
    List.Forall₂ Enriched ((errorsFrom a start p ts).filter (·.remainsWith b))
      (errorsFrom b start p ts) := by
  induction ts generalizing start p with
  | nil => exact .nil
  | cons t ts ih =>
    rw [errorsFrom_cons, errorsFrom_cons, List.filter_append]
    refine List.rel_append ?_ (ih _ _)
    cases t with
    | named name => exact forall₂_enriched_contribution h name _
    | braced name => exact forall₂_enriched_contribution h name _
    | dangling => exact .cons .invalid .nil
    | _ => exact .nil

end Token.Placed

namespace Template

open TemplateError (Enriched)

variable {source text : Text} {a b : Table}

/-- What a table fills is filled to the same text by every table with the same entries for the names of
the template. -/
theorem fill_eq_ok_of_get? (h : fill ⟨source⟩ a = .ok text)
    (hnames : ∀ name ∈ identifiers ⟨source⟩, ∀ value, a.get? name = some value →
      b.get? name = some value) : fill ⟨source⟩ b = .ok text := by
  have hproblems := exists_fill_eq_ok_iff.1 ⟨text, h⟩
  have hok : ∀ part ∈ parts ⟨source⟩ a, ∃ text, part = .ok text := by
    intro part hpart
    cases part with
    | ok text => exact ⟨text, rfl⟩
    | error e =>
      have he := mem_problems_iff.2 hpart
      rw [hproblems] at he
      cases he
  have hparts : parts ⟨source⟩ b = parts ⟨source⟩ a := by
    refine Token.Placed.fillAll_eq_of_get? hok ?_
    intro t ht name value hplaceholder hvalue
    have hname := mem_identifiers_iff.2 ⟨t, ht, Token.placeholder?_eq_some_iff.1 hplaceholder⟩
    exact hnames name hname value hvalue
  rw [fill, hparts]
  exact h

theorem forall₂_enriched_problems (h : b.Extends a) (source : Text) :
    List.Forall₂ Enriched ((problems ⟨source⟩ a).filter (·.remainsWith b)) (problems ⟨source⟩ b) := by
  obtain ⟨ts, -, -, hproblems⟩ := exists_problems_eq source
  rw [hproblems, hproblems]
  exact Token.Placed.forall₂_enriched h 0 .first ts

/-- A table that grows fills what it filled before, to the same text. Of the errors of a template it
keeps those of dangling delimiters and of names that are still missing, in their order and at their
place, with suggestions that become no fewer; the template is filled exactly when no error remains. And
a table that fills a template does so with the entries for the names of the template alone. -/
theorem fill_of_extends (h : b.Extends a) (source : Text) :
    (∀ text, fill ⟨source⟩ a = .ok text →
      fill ⟨source⟩ b = .ok text ∧
        fill ⟨source⟩ (a.restrict (identifiers ⟨source⟩)) = .ok text) ∧
    ∀ errors, fill ⟨source⟩ a = .error errors →
      ((∃ text, fill ⟨source⟩ b = .ok text) ↔ errors.filter (·.remainsWith b) = []) ∧
        ∀ remaining, fill ⟨source⟩ b = .error remaining →
          List.Forall₂ Enriched (errors.filter (·.remainsWith b)) remaining := by
  constructor
  · intro text htext
    constructor
    · exact fill_eq_ok_of_get? htext fun name _ value => h name value
    · refine fill_eq_ok_of_get? htext fun name hname value hvalue => ?_
      rw [Table.get?_restrict, if_pos hname, hvalue]
  · intro errors herrors
    obtain ⟨-, rfl⟩ := fill_eq_error_iff.1 herrors
    have henriched := forall₂_enriched_problems h source
    constructor
    · rw [exists_fill_eq_ok_iff]
      constructor
      · intro hnone
        rwa [hnone, List.forall₂_nil_right_iff] at henriched
      · intro hnone
        rwa [hnone, List.forall₂_nil_left_iff] at henriched
    · intro remaining hremaining
      obtain ⟨-, rfl⟩ := fill_eq_error_iff.1 hremaining
      exact henriched

/-- The first error goes, the second has one more suggestion, and the third stays as it is. -/
theorem fill_of_extends_by_one_entry :
    ∃ a b, Table.ofEntries [(['A'], ['x'])] = .ok a ∧
      Table.ofEntries [(['A'], ['x']), (['B'], ['y'])] = .ok b ∧ b.Extends a ∧
      fill ⟨"@@B@@\x7bAB\x7d@@".toList⟩ a = .error [.undefined ['B'] ⟨0, 3⟩ [],
        .undefined ['A', 'B'] ⟨3, 9⟩ [['A']], .invalid ⟨9, 11⟩ ⟨1, 10⟩] ∧
      ¬ (∃ text, fill ⟨"@@B@@\x7bAB\x7d@@".toList⟩ b = .ok text) ∧
      List.Forall₂ Enriched
        [.undefined ['A', 'B'] ⟨3, 9⟩ [['A']], .invalid ⟨9, 11⟩ ⟨1, 10⟩]
        [.undefined ['A', 'B'] ⟨3, 9⟩ [['A'], ['B']], .invalid ⟨9, 11⟩ ⟨1, 10⟩] := by
  obtain ⟨a, ha⟩ : ∃ a, Table.ofEntries [(['A'], ['x'])] = .ok a := ⟨_, rfl⟩
  obtain ⟨b, hb⟩ : ∃ b, Table.ofEntries [(['A'], ['x']), (['B'], ['y'])] = .ok b := ⟨_, rfl⟩
  have hextends : b.Extends a := by
    intro name value hvalue
    have hcontains := Table.contains_of_ofEntries ha name
    rw [Table.contains_eq_isSome_get?, hvalue] at hcontains
    obtain rfl : name = ['A'] := by simpa using hcontains.symm
    cases ha
    cases hb
    cases hvalue
    rfl
  have herrors : fill ⟨"@@B@@\x7bAB\x7d@@".toList⟩ a = .error [.undefined ['B'] ⟨0, 3⟩ [],
      .undefined ['A', 'B'] ⟨3, 9⟩ [['A']], .invalid ⟨9, 11⟩ ⟨1, 10⟩] := by
    cases ha
    decide +kernel
  have hremaining : fill ⟨"@@B@@\x7bAB\x7d@@".toList⟩ b = .error
      [.undefined ['A', 'B'] ⟨3, 9⟩ [['A'], ['B']], .invalid ⟨9, 11⟩ ⟨1, 10⟩] := by
    cases hb
    decide +kernel
  obtain ⟨hfills, henriched⟩ := (fill_of_extends hextends _).2 _ herrors
  have hfilter : [.undefined ['B'] ⟨0, 3⟩ [], .undefined ['A', 'B'] ⟨3, 9⟩ [['A']],
      .invalid ⟨9, 11⟩ ⟨1, 10⟩].filter (TemplateError.remainsWith b) =
        [.undefined ['A', 'B'] ⟨3, 9⟩ [['A']], .invalid ⟨9, 11⟩ ⟨1, 10⟩] := by
    cases hb
    decide +kernel
  rw [hfilter] at hfills henriched
  refine ⟨a, b, ha, hb, hextends, herrors, ?_, henriched _ hremaining⟩
  rw [hfills]
  exact List.cons_ne_nil _ _

end Template

end Stencil
