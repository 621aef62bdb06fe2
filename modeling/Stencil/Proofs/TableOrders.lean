import Stencil.Proofs.Names
import Stencil.Report
import Stencil.Table.Listing

/-!
# Tables are maps

A table built from pairs has the last text of each name, and nothing of the order of the pairs is left in
it. A listing of the same entries goes over them in an order of its own. Its names are the same set, and
so are the names like a given one; sorted by their bytes they are the same list. So whatever a listing is
asked for, and whatever a template becomes with it, is as with the table.
-/

namespace Stencil

/-- The last text that the pairs give for a name. -/
def lastText? (pairs : List (Text × Text)) (name : Text) : Option Text := pairs.reverse.lookup name

theorem getElem?_ofList (pairs : List (Text × Text)) (name : Text) :
    (Std.ExtTreeMap.ofList pairs)[name]? = lastText? pairs name := by
  unfold lastText?
  rw [Std.ExtTreeMap.ofList_eq_insertMany_empty]
  induction pairs using List.reverseRecOn with
  | nil => rfl
  | append_singleton pairs pair ih =>
    obtain ⟨k, v⟩ := pair
    rw [Std.ExtTreeMap.insertMany_append, Std.ExtTreeMap.insertMany_list_singleton,
      Std.ExtTreeMap.getElem?_insert, ih, List.reverse_concat, List.lookup_cons]
    simp only [Std.compare_eq_iff_eq]
    by_cases hk : k = name
    · subst hk
      simp
    · have hne : (name == k) = false := by simpa using Ne.symm hk
      rw [if_neg hk, hne]

theorem isSome_lastText?_iff {pairs : List (Text × Text)} {name : Text} :
    (lastText? pairs name).isSome ↔ name ∈ pairs.map Prod.fst := by
  rw [← getElem?_ofList, ← Std.ExtTreeMap.mem_iff_isSome_getElem?, Std.ExtTreeMap.mem_ofList,
    List.contains_iff_mem]

/-- Lists of names in the order of their bytes are equal when they have the same names. -/
theorem eq_of_pairwise_bytes_lt {l m : List Text} (hl : l.Pairwise fun s t => bytes s < bytes t)
    (hm : m.Pairwise fun s t => bytes s < bytes t) (h : ∀ name, name ∈ l ↔ name ∈ m) : l = m := by
  have hantisymm : Std.Antisymm fun s t : Text => bytes s < bytes t :=
    ⟨fun s t hst hts => absurd hts (List.lt_asymm hst)⟩
  have hirrefl : Std.Irrefl fun s t : Text => bytes s < bytes t := ⟨fun s => List.lt_irrefl (bytes s)⟩
  exact List.Pairwise.eq_of_mem_iff hl hm h

namespace Table

variable {t : Table} {pairs : List (Text × Text)}

theorem pairwise_names (t : Table) : t.names.Pairwise fun a b => bytes a < bytes b :=
  (Std.ExtTreeMap.ordered_keys (t := t.entries)).imp bytes_lt_of_compare

theorem pairwise_suggestions (t : Table) (name : Text) :
    (t.suggestions name).Pairwise fun a b => bytes a < bytes b :=
  t.pairwise_names.filter _

theorem get?_of_ofEntries (h : ofEntries pairs = .ok t) (name : Text) :
    t.get? name = lastText? pairs name := by
  rw [get?, entries_of_ofMap h, getElem?_ofList]

theorem mem_names_of_ofEntries (h : ofEntries pairs = .ok t) {name : Text} :
    name ∈ t.names ↔ name ∈ pairs.map Prod.fst := by
  rw [mem_names_iff, contains_of_ofEntries h, List.contains_iff_mem]

theorem size_eq_length_names (t : Table) : t.size = t.names.length :=
  Std.ExtTreeMap.length_keys.symm

theorem isEmpty_of_ofEntries (h : ofEntries pairs = .ok t) : t.isEmpty = true ↔ pairs = [] := by
  rw [isEmpty, entries_of_ofMap h, Std.ExtTreeMap.ofList_eq_insertMany_empty,
    Std.ExtTreeMap.isEmpty_insertMany_list]
  simp

/-- What a table is refused for. -/
theorem invalidName_of_ofMap {name description : Option Text} {entries : Std.ExtTreeMap Text Text}
    {e : TableError} (h : ofMap name description entries = .error e) :
    ∃ k ∈ entries, isIdentifier k = false ∧ e = .invalidName k := by
  unfold ofMap at h
  split at h
  · next bad hbad =>
    cases h
    have hnot := List.find?_some hbad
    exact ⟨bad, Std.ExtTreeMap.mem_keys.1 (List.mem_of_find?_eq_some hbad), by simpa using hnot, rfl⟩
  · cases h

theorem invalidName_of_ofEntries {e : TableError} (h : ofEntries pairs = .error e) :
    ∃ k ∈ pairs.map Prod.fst, isIdentifier k = false ∧ e = .invalidName k := by
  obtain ⟨k, hk, hnot, he⟩ := invalidName_of_ofMap h
  rw [Std.ExtTreeMap.mem_ofList, List.contains_iff_mem] at hk
  exact ⟨k, hk, hnot, he⟩

end Table

namespace Listing

variable {l : Listing} {pairs : List (Text × Text)} {name text : Text}

/-- Whether a listing has the entries that the pairs give, in whatever order. -/
def Lists (l : Listing) (pairs : List (Text × Text)) : Prop :=
  ∀ name text, (name, text) ∈ l.entries ↔ lastText? pairs name = some text

theorem bytes_lt_of_le_of_ne {s t : Text} (hle : bytes s ≤ bytes t) (hne : s ≠ t) :
    bytes s < bytes t := by
  cases hcompare : compare s t with
  | lt => exact bytes_lt_of_compare hcompare
  | eq => exact absurd (Std.LawfulEqCmp.eq_of_compare hcompare) hne
  | gt => exact absurd (bytes_lt_of_compare (Std.OrientedCmp.lt_of_gt hcompare)) hle

/-- Names that are listed once are in increasing order when they are sorted. -/
theorem pairwise_sorted {names : List Text} (h : names.Nodup) :
    (sorted names).Pairwise fun a b => bytes a < bytes b := by
  have hsorted : (sorted names).Pairwise fun a b => decide (bytes a ≤ bytes b) = true := by
    apply List.pairwise_mergeSort
    · intro a b c hab hbc
      rw [decide_eq_true_eq] at hab hbc ⊢
      exact List.le_trans hab hbc
    · intro a b
      rw [Bool.or_eq_true, decide_eq_true_eq, decide_eq_true_eq]
      exact List.le_total _ _
  have hnodup : (sorted names).Nodup := (List.mergeSort_perm names _).nodup_iff.2 h
  refine (hsorted.and hnodup).imp ?_
  rintro a b ⟨hle, hne⟩
  exact bytes_lt_of_le_of_ne (of_decide_eq_true hle) hne

theorem mem_sorted {names : List Text} : name ∈ sorted names ↔ name ∈ names :=
  (List.mergeSort_perm names _).mem_iff

theorem length_sorted (names : List Text) : (sorted names).length = names.length :=
  List.length_mergeSort names

theorem lookup_eq_some_iff_mem {entries : List (Text × Text)} (h : (entries.map Prod.fst).Nodup) :
    entries.lookup name = some text ↔ (name, text) ∈ entries := by
  induction entries with
  | nil => simp
  | cons entry entries ih =>
    obtain ⟨k, v⟩ := entry
    rw [List.map_cons, List.nodup_cons] at h
    obtain ⟨hk, hrest⟩ := h
    by_cases hname : name = k
    · subst hname
      have hnot : (name, text) ∉ entries := fun hmem => hk (List.mem_map.2 ⟨_, hmem, rfl⟩)
      simp [hnot, eq_comm]
    · have hne : (name == k) = false := by simpa using hname
      rw [List.lookup_cons, hne, List.mem_cons, Prod.mk.injEq]
      simp only [hname, false_and, false_or]
      exact ih hrest

/-- A listing finds the text of a name wherever it stands. -/
theorem get?_eq_some_iff : l.get? name = some text ↔ (name, text) ∈ l.entries :=
  lookup_eq_some_iff_mem l.nodup_names

theorem mem_map_fst_iff : name ∈ l.entries.map Prod.fst ↔ ∃ text, (name, text) ∈ l.entries := by
  simp

theorem mem_map_fst_iff_isSome : name ∈ l.entries.map Prod.fst ↔ (l.get? name).isSome := by
  simp only [mem_map_fst_iff, Option.isSome_iff_exists, get?_eq_some_iff]

theorem contains_iff : l.contains name = true ↔ name ∈ l.entries.map Prod.fst := by
  simp [contains]

theorem pairwise_names (l : Listing) : l.names.Pairwise fun a b => bytes a < bytes b :=
  pairwise_sorted l.nodup_names

theorem pairwise_suggestions (l : Listing) (name : Text) :
    (l.suggestions name).Pairwise fun a b => bytes a < bytes b :=
  pairwise_sorted (l.nodup_names.filter _)

/-- A listing is refused for a name of its own that is no identifier. -/
theorem refused?_eq_none_iff :
    l.refused? = none ↔ ∀ k ∈ l.entries.map Prod.fst, isIdentifier k = true := by
  rw [refused?, Option.map_eq_none_iff, List.find?_eq_none]
  simp

theorem invalidName_of_refused? {e : TableError} (h : l.refused? = some e) :
    ∃ k ∈ l.entries.map Prod.fst, isIdentifier k = false ∧ e = .invalidName k := by
  obtain ⟨k, hk, rfl⟩ := Option.map_eq_some_iff.1 h
  have hnot := List.find?_some hk
  exact ⟨k, List.mem_of_find?_eq_some hk, by simpa using hnot, rfl⟩

namespace Lists

theorem get?_eq (h : l.Lists pairs) (name : Text) : l.get? name = lastText? pairs name := by
  apply Option.ext
  intro text
  rw [get?_eq_some_iff, h]

/-- The names of a listing are those of the pairs. -/
theorem mem_map_fst_iff (h : l.Lists pairs) {name : Text} :
    name ∈ l.entries.map Prod.fst ↔ name ∈ pairs.map Prod.fst := by
  rw [mem_map_fst_iff_isSome, h.get?_eq, isSome_lastText?_iff]

end Lists

/-- A listing and a table say the same to whatever they are asked. -/
structure Agrees (l : Listing) (t : Table) : Prop where
  get?_eq : ∀ name, l.get? name = t.get? name
  contains_eq : ∀ name, l.contains name = t.contains name
  names_eq : l.names = t.names
  size_eq : l.size = t.size
  isEmpty_eq : l.isEmpty = t.isEmpty
  suggestions_eq : ∀ name, l.suggestions name = t.suggestions name

section
variable {t : Table}

theorem agrees_of_get?_eq (h : ∀ name, l.get? name = t.get? name) : l.Agrees t := by
  have hcontains : ∀ name, l.contains name = t.contains name := by
    intro name
    rw [Bool.eq_iff_iff, contains_iff, mem_map_fst_iff_isSome, h, t.contains_eq_isSome_get?]
  have hmem : ∀ name, name ∈ l.entries.map Prod.fst ↔ name ∈ t.names := by
    intro name
    rw [Table.mem_names_iff, ← hcontains, contains_iff]
  have hnames : l.names = t.names := by
    apply eq_of_pairwise_bytes_lt l.pairwise_names t.pairwise_names
    intro name
    rw [names, mem_sorted, hmem]
  have hsize : l.size = t.size := by
    rw [t.size_eq_length_names, ← hnames, names, length_sorted, List.length_map, size]
  refine ⟨h, hcontains, hnames, hsize, ?_, ?_⟩
  · have hempty : t.isEmpty = t.names.isEmpty := Std.ExtTreeMap.isEmpty_keys.symm
    rw [hempty, ← hnames, Bool.eq_iff_iff, isEmpty, List.isEmpty_iff_length_eq_zero,
      List.isEmpty_iff_length_eq_zero, names, length_sorted, List.length_map]
  · intro name
    apply eq_of_pairwise_bytes_lt (l.pairwise_suggestions name) (t.pairwise_suggestions name)
    intro k
    rw [suggestions, mem_sorted, Table.suggestions, List.mem_filter, List.mem_filter, hmem]

end

end Listing

namespace Listing.Agrees

variable {l : Listing} {t : Table}

/-- What a template asks for, the listing answers as the table does. -/
theorem toLookup_eq (h : l.Agrees t) : (l : Lookup) = t := by
  unfold Listing.toLookup Table.toLookup
  rw [funext h.get?_eq, funext h.suggestions_eq]

end Listing.Agrees

namespace Table

variable {t : Table} {pairs pairs' : List (Text × Text)}

theorem ofList_eq_of_lastText?_eq (h : ∀ k, lastText? pairs k = lastText? pairs' k) :
    Std.ExtTreeMap.ofList pairs = Std.ExtTreeMap.ofList pairs' := by
  apply Std.ExtTreeMap.ext_getElem?
  intro k
  rw [getElem?_ofList, getElem?_ofList, h]

theorem mem_map_fst_iff_of_lastText?_eq (h : ∀ k, lastText? pairs k = lastText? pairs' k) (k : Text) :
    k ∈ pairs.map Prod.fst ↔ k ∈ pairs'.map Prod.fst := by
  rw [← isSome_lastText?_iff, ← isSome_lastText?_iff, h]

/-- A table that is built from pairs is a map, and nothing of their order is left in it. Building
succeeds exactly when every name is an identifier, and else it is refused for a name that is none. The
table has the last text of each name; its names are the ones of the pairs, in increasing order of their
bytes, and their number is its size; it is empty exactly without pairs; and having a name, having a text
for it and listing it are the same. Other pairs with the same last texts build the same table. And with
all listings of these entries, in whatever order they go over them, it is the same: they are refused
exactly when the table is, for a name of the pairs that is no identifier, they answer as the table does,
and every template is filled, checked and reported on alike. -/
theorem ofEntries_is_map (pairs : List (Text × Text)) :
    ((∃ t, ofEntries pairs = .ok t) ↔ ∀ k ∈ pairs.map Prod.fst, isIdentifier k = true) ∧
    (∀ e, ofEntries pairs = .error e →
      ∃ k ∈ pairs.map Prod.fst, isIdentifier k = false ∧ e = .invalidName k) ∧
    (∀ t, ofEntries pairs = .ok t →
      (∀ k, t.get? k = lastText? pairs k) ∧
      (t.names.Pairwise fun a b => bytes a < bytes b) ∧
      (∀ k, k ∈ t.names ↔ k ∈ pairs.map Prod.fst) ∧
      t.size = t.names.length ∧ (t.isEmpty = true ↔ pairs = []) ∧
      ∀ k, (t.contains k = true ↔ (t.get? k).isSome) ∧ (t.contains k = true ↔ k ∈ t.names)) ∧
    ∀ pairs', (∀ k, lastText? pairs k = lastText? pairs' k) →
      (∀ t, ofEntries pairs = .ok t → ofEntries pairs' = .ok t) ∧
      ∀ l : Listing, l.Lists pairs' →
        (l.refused? = none ↔ ∃ t, ofEntries pairs = .ok t) ∧
        (∀ e, l.refused? = some e →
          ∃ k ∈ pairs.map Prod.fst, isIdentifier k = false ∧ e = .invalidName k) ∧
        ∀ t, ofEntries pairs = .ok t →
          l.Agrees t ∧ ∀ source,
            Template.fill ⟨source⟩ l = Template.fill ⟨source⟩ t ∧
            Template.check ⟨source⟩ l = Template.check ⟨source⟩ t ∧
            ∀ file colour, Template.reports ⟨source⟩ l file colour =
              Template.reports ⟨source⟩ t file colour := by
  refine ⟨exists_ofEntries_eq_ok_iff, fun e => invalidName_of_ofEntries, ?built, ?orders⟩
  case built =>
    intro t ht
    refine ⟨get?_of_ofEntries ht, t.pairwise_names, fun k => mem_names_of_ofEntries ht,
      t.size_eq_length_names, isEmpty_of_ofEntries ht, fun k => ⟨?_, mem_names_iff.symm⟩⟩
    rw [contains_eq_isSome_get?]
  case orders =>
    intro pairs' hsame
    have hkeys := mem_map_fst_iff_of_lastText?_eq hsame
    refine ⟨?_, ?_⟩
    · intro t ht
      rw [← ht, ofEntries, ofEntries, ofList_eq_of_lastText?_eq hsame]
    · intro l hl
      refine ⟨?_, ?_, ?_⟩
      · rw [Listing.refused?_eq_none_iff, exists_ofEntries_eq_ok_iff]
        simp only [hl.mem_map_fst_iff, hkeys]
      · intro e he
        obtain ⟨k, hk, hnot, heq⟩ := Listing.invalidName_of_refused? he
        exact ⟨k, (hkeys k).2 (hl.mem_map_fst_iff.1 hk), hnot, heq⟩
      · intro t ht
        have hagrees : l.Agrees t := by
          apply Listing.agrees_of_get?_eq
          intro k
          rw [hl.get?_eq, get?_of_ofEntries ht, hsame]
        refine ⟨hagrees, fun source => ?_⟩
        rw [hagrees.toLookup_eq]
        exact ⟨rfl, rfl, fun _ _ => rfl⟩

/-- A name that is given twice, and a listing that begins with the greater name. -/
theorem ofEntries_is_map_of_twice :
    let a : Text := ['A']
    let b : Text := ['B']
    let pairs : List (Text × Text) := [(b, ['1']), (a, ['2']), (b, ['3'])]
    let l : Listing := ⟨[(b, ['3']), (a, ['2'])], by decide⟩
    l.Lists pairs ∧ ∃ t, ofEntries pairs = .ok t ∧ t.get? b = some ['3'] ∧
      ofEntries [(a, ['2']), (b, ['3'])] = .ok t ∧ l.names = t.names ∧
      l.suggestions [] = t.suggestions [] ∧
      Template.fill ⟨"@@B@@C".toList⟩ l = Template.fill ⟨"@@B@@C".toList⟩ t := by
  intro a b pairs l
  have hlast : ∀ k, lastText? pairs k = lastText? [(a, ['2']), (b, ['3'])] k := by
    intro k
    by_cases hb : k == b <;> simp [lastText?, pairs, List.lookup_cons, hb]
  have hlists : l.Lists pairs := by
    intro name text
    rw [← Listing.get?_eq_some_iff, hlast]
    exact Iff.rfl
  obtain ⟨hexists, -, hbuilt, horders⟩ := ofEntries_is_map pairs
  obtain ⟨t, ht⟩ := hexists.2 (by decide)
  have hother := (horders [(a, ['2']), (b, ['3'])] hlast).1 t ht
  obtain ⟨hagrees, hfill⟩ := ((horders pairs fun _ => rfl).2 l hlists).2.2 t ht
  exact ⟨hlists, t, ht, (hbuilt t ht).1 b, hother, hagrees.names_eq, hagrees.suggestions_eq [],
    (hfill _).1⟩

end Table

end Stencil
