import Stencil.Proofs.DistinctKeys
import Stencil.Proofs.TableOrders
import Stencil.Proofs.WrittenTables

/-!
# What a table document may be

A document is decoded entry by entry, and the first entry that does not fit ends it. Whether an entry fits
depends on nothing before it, and every name stands once in a table; so a document is accepted exactly when
the metadata and the substitutions that are found in it are of the right shape. Its names are looked at when
all of it is decoded, and a name that is no identifier is reported only of a document of that shape.
-/

namespace Stencil

namespace Toml

def Node.IsText (n : Node) : Prop := ∃ text, n.IsString text

/-- Whether a document has a node of the kind under the name. -/
def HasKind (source name : Text) (kind : String) : Prop :=
  ∃ d n, parse source = .ok d ∧ d.entries.get? name = some n ∧ n.kind = kind

theorem hasKind_iff {source name : Text} {kind : String} :
    HasKind source name kind ↔
      ((parse source).toOption.bind fun d => (d.entries.get? name).map Node.kind) = some kind := by
  unfold HasKind
  cases parse source with
  | error e => simp [Except.toOption]
  | ok d => simp [Except.toOption]

instance (source name : Text) (kind : String) : Decidable (HasKind source name kind) :=
  decidable_of_iff _ hasKind_iff.symm

end Toml

namespace Table

open Toml (Node Entries HasKind)

/-- The substitutions of a document are a table of strings. A date is taken for a table with a single
text. -/
inductive IsSubstitutions : Node → List (Text × Text) → Prop
  | table {form : Toml.Form} {entries : Entries} {span : Option Span} {pairs : List (Text × Text)}
      (texts : entries.Matches Node.IsString pairs) : IsSubstitutions (.table form entries span) pairs
  | dateTime {text : Text} {span : Span} :
      IsSubstitutions (.dateTime text span) [(dateTimeName, text)]

/-- The metadata of a document are a table whose name and description are strings, where it has them, or an
array that begins with two strings. A date is taken for a table that has neither. -/
inductive IsMetadata : Node → Prop
  | table {form : Toml.Form} {entries : Entries} {span : Option Span}
      (name : ∀ n ∈ entries.get? "name".toList, n.IsText)
      (description : ∀ n ∈ entries.get? "description".toList, n.IsText) :
      IsMetadata (.table form entries span)
  | array {name description : Node} {others : List Node} {span : Span} (name_isText : name.IsText)
      (description_isText : description.IsText) :
      IsMetadata (.array (name :: description :: others) span)
  | dateTime {text : Text} {span : Span} : IsMetadata (.dateTime text span)

/-- The document has substitutions, which give these pairs, and its metadata are in order if it has them. -/
structure HasSchema (d : Toml.Document) (pairs : List (Text × Text)) : Prop where
  metadata : ∀ n ∈ d.entries.get? "metadata".toList, IsMetadata n
  substitutions : ∃ n, d.entries.get? "substitutions".toList = some n ∧ IsSubstitutions n pairs

section Folding

variable {ε α β : Type} {f : β → α → Except ε β} {P : α → Prop}

/-- When it depends on the item alone whether a step succeeds, a fold succeeds if every item lets it. -/
theorem exists_foldlM_eq_ok_iff (hf : ∀ b a, (∃ b', f b a = .ok b') ↔ P a) (l : List α) (b : β) :
    (∃ b', l.foldlM f b = .ok b') ↔ ∀ a ∈ l, P a := by
  induction l generalizing b with
  | nil => exact ⟨fun _ => by simp, fun _ => ⟨b, rfl⟩⟩
  | cons a l ih =>
    rw [List.forall_mem_cons, ← hf b a]
    constructor
    · rintro ⟨b', h⟩
      rw [List.foldlM_cons] at h
      obtain ⟨b₁, hstep, hrest⟩ := Toml.exists_of_bind_eq_ok h
      exact ⟨⟨b₁, hstep⟩, (ih b₁).1 ⟨b', hrest⟩⟩
    · rintro ⟨⟨b₁, hstep⟩, hl⟩
      rw [foldlM_cons_of_eq_ok hstep]
      exact (ih b₁).2 hl

/-- A step that has one thing to do in one case, another in a second one and nothing otherwise succeeds when
what it has to do succeeds. -/
theorem exists_choice_eq_ok_iff {γ : Type} {p q : Prop} [Decidable p] [Decidable q] (hpq : p → ¬q)
    {x : Except ε α} {y : Except ε β} {f : α → γ} {g : β → γ} {c : γ} :
    (∃ c', (if p then do return f (← x) else if q then do return g (← y) else .ok c) = .ok c') ↔
      (p → ∃ a, x = .ok a) ∧ (q → ∃ b, y = .ok b) := by
  by_cases hp : p
  · rw [if_pos hp]
    have hq := hpq hp
    cases x <;> simp [hp, hq, bind, Except.bind, pure, Except.pure]
  · rw [if_neg hp]
    by_cases hq : q
    · rw [if_pos hq]
      cases y <;> simp [hp, hq, bind, Except.bind, pure, Except.pure]
    · simp [hp, hq]

end Folding

section Shapes

variable {key : Span} {n : Node} {pairs : List (Text × Text)}

theorem textOf_eq_ok_iff {text : Text} : textOf key n = .ok text ↔ n.IsString text := by
  cases n with
  | string text' span =>
    constructor
    · intro h
      cases h
      exact ⟨span, rfl⟩
    · rintro ⟨_, h⟩
      cases h
      rfl
  | _ =>
    constructor
    · intro h
      cases h
    · rintro ⟨_, h⟩
      cases h

theorem exists_textOf_eq_ok_iff : (∃ text, textOf key n = .ok text) ↔ n.IsText :=
  exists_congr fun _ => textOf_eq_ok_iff

theorem matches_of_mapM_textOf {entries : Entries}
    (h : (entries.mapM fun (k, n) => do return (k.name, ← textOf k.span n)) = Except.ok pairs) :
    entries.Matches Node.IsString pairs := by
  induction entries generalizing pairs with
  | nil =>
    cases h
    exact .nil
  | cons e entries ih =>
    obtain ⟨k, n⟩ := e
    rw [List.mapM_cons] at h
    obtain ⟨pair, hpair, h⟩ := Toml.exists_of_bind_eq_ok h
    obtain ⟨rest, hrest, h⟩ := Toml.exists_of_bind_eq_ok h
    obtain ⟨text, htext, hpair⟩ := Toml.exists_of_bind_eq_ok hpair
    cases hpair
    cases h
    exact .cons ⟨rfl, textOf_eq_ok_iff.1 htext⟩ (ih hrest)

theorem substitutionsOf_eq_ok_iff (key : Span) :
    substitutionsOf key n = .ok pairs ↔ IsSubstitutions n pairs := by
  constructor
  · intro h
    cases n with
    | table form entries span => exact .table (matches_of_mapM_textOf h)
    | dateTime text span =>
      cases h
      exact .dateTime
    | _ => cases h
  · intro h
    cases h with
    | table texts => exact mapM_textOf texts
    | dateTime => rfl

theorem IsSubstitutions.unique {pairs' : List (Text × Text)} (h : IsSubstitutions n pairs)
    (h' : IsSubstitutions n pairs') : pairs = pairs' := by
  rw [← substitutionsOf_eq_ok_iff ⟨0, 0⟩] at h h'
  rw [h] at h'
  exact Except.ok.inj h'

end Shapes

section Metadata

variable {key : Span}

theorem Metadata.exists_add_eq_ok_iff (m : Metadata) (e : Toml.Key × Node) :
    (∃ m', m.add e = .ok m') ↔
      (e.1.name = "name".toList → e.2.IsText) ∧ (e.1.name = "description".toList → e.2.IsText) := by
  have hne (h : e.1.name = "name".toList) : e.1.name ≠ "description".toList := by
    rw [h]
    decide
  rw [← exists_textOf_eq_ok_iff]
  exact exists_choice_eq_ok_iff hne

/-- Whether a table is in order as metadata depends on the two nodes that are found in it. -/
theorem Metadata.exists_ofEntries_eq_ok_iff {entries : Entries} (h : entries.IsKeyed) :
    (∃ m, ofEntries entries = .ok m) ↔
      (∀ n ∈ entries.get? "name".toList, n.IsText) ∧
        ∀ n ∈ entries.get? "description".toList, n.IsText := by
  rw [ofEntries, exists_foldlM_eq_ok_iff exists_add_eq_ok_iff, h.forall_get?_iff, h.forall_get?_iff]
  exact forall₂_and

theorem Metadata.exists_ofItems_eq_ok_iff {items : List Node} :
    (∃ m, ofItems key items = .ok m) ↔
      ∃ name description others, items = name :: description :: others ∧ name.IsText ∧
        description.IsText := by
  constructor
  · rintro ⟨m, h⟩
    match items with
    | [] => cases h
    | [n] =>
      obtain ⟨text, -, h⟩ := Toml.exists_of_bind_eq_ok h
      cases h
    | n :: d :: others =>
      obtain ⟨name, hname, h⟩ := Toml.exists_of_bind_eq_ok h
      obtain ⟨description, hdescription, -⟩ := Toml.exists_of_bind_eq_ok h
      exact ⟨n, d, others, rfl, ⟨name, textOf_eq_ok_iff.1 hname⟩,
        ⟨description, textOf_eq_ok_iff.1 hdescription⟩⟩
  · rintro ⟨n, d, others, rfl, ⟨name, hname⟩, ⟨description, hdescription⟩⟩
    rw [ofItems, textOf_eq_ok_iff.2 hname, textOf_eq_ok_iff.2 hdescription]
    exact ⟨_, rfl⟩

theorem exists_metadataOf_eq_ok_iff {n : Node} (h : n.IsKeyed) :
    (∃ m, metadataOf key n = .ok m) ↔ IsMetadata n := by
  cases n with
  | table form entries span =>
    rw [metadataOf, Metadata.exists_ofEntries_eq_ok_iff (Toml.Node.isKeyed_table_iff.1 h)]
    constructor
    · rintro ⟨name, description⟩
      exact .table name description
    · intro h
      cases h with
      | table name description => exact ⟨name, description⟩
  | array items span =>
    rw [metadataOf, Metadata.exists_ofItems_eq_ok_iff]
    constructor
    · rintro ⟨name, description, others, rfl, hname, hdescription⟩
      exact .array hname hdescription
    · intro h
      cases h with
      | array hname hdescription => exact ⟨_, _, _, rfl, hname, hdescription⟩
  | sections items span =>
    -- It is read as an array is, but what it begins with is a table and no string.
    rw [metadataOf, Metadata.exists_ofItems_eq_ok_iff]
    constructor
    · rintro ⟨name, description, others, rfl, ⟨text, place, rfl⟩, -⟩
      cases h with
      | sections tables _ =>
        obtain ⟨_, _, _, hname⟩ := tables _ List.mem_cons_self
        cases hname
    · intro h
      cases h
  | dateTime text span => exact ⟨fun _ => .dateTime, fun _ => ⟨_, rfl⟩⟩
  | _ =>
    constructor
    · rintro ⟨m, h⟩
      cases h
    · intro h
      cases h

end Metadata

section Contents

variable {c c' : Contents} {e : Toml.Key × Node} {entries : Entries}

theorem ne_substitutions_of_eq_metadata {name : Text} (h : name = "metadata".toList) :
    name ≠ "substitutions".toList := by
  rw [h]
  decide

theorem Contents.exists_add_eq_ok_iff (c : Contents) (e : Toml.Key × Node) :
    (∃ c', c.add e = .ok c') ↔
      (e.1.name = "metadata".toList → ∃ m, metadataOf e.1.span e.2 = .ok m) ∧
        (e.1.name = "substitutions".toList → ∃ pairs, IsSubstitutions e.2 pairs) := by
  simp only [← substitutionsOf_eq_ok_iff e.1.span]
  exact exists_choice_eq_ok_iff ne_substitutions_of_eq_metadata

/-- One entry gives the substitutions, and no other changes them. -/
theorem Contents.substitutions_of_add (h : c.add e = .ok c') :
    e.1.name ≠ "substitutions".toList ∧ c'.substitutions = c.substitutions ∨
      e.1.name = "substitutions".toList ∧
        ∃ pairs, IsSubstitutions e.2 pairs ∧ c'.substitutions = some pairs := by
  obtain ⟨k, n⟩ := e
  unfold Contents.add at h
  dsimp only at h
  split_ifs at h with hmetadata hsubstitutions
  · obtain ⟨m, -, h⟩ := Toml.exists_of_bind_eq_ok h
    cases h
    exact .inl ⟨ne_substitutions_of_eq_metadata hmetadata, rfl⟩
  · obtain ⟨pairs, hpairs, h⟩ := Toml.exists_of_bind_eq_ok h
    cases h
    exact .inr ⟨hsubstitutions, pairs, (substitutionsOf_eq_ok_iff k.span).1 hpairs, rfl⟩
  · cases h
    exact .inl ⟨hsubstitutions, rfl⟩

/-- After some entries the substitutions are those of one of them, or still what they were. -/
theorem Contents.substitutions_of_foldlM (h : entries.foldlM Contents.add c = .ok c') :
    (∀ e ∈ entries, e.1.name ≠ "substitutions".toList) ∧ c'.substitutions = c.substitutions ∨
      ∃ e ∈ entries, e.1.name = "substitutions".toList ∧
        ∃ pairs, IsSubstitutions e.2 pairs ∧ c'.substitutions = some pairs := by
  induction entries generalizing c with
  | nil =>
    cases h
    exact .inl ⟨by simp, rfl⟩
  | cons e entries ih =>
    rw [List.foldlM_cons] at h
    obtain ⟨c₁, hstep, hrest⟩ := Toml.exists_of_bind_eq_ok h
    rcases ih hrest with ⟨hnone, hsame⟩ | ⟨e', he', hgiven⟩
    · rw [hsame]
      rcases substitutions_of_add hstep with ⟨hname, hadd⟩ | hadd
      · exact .inl ⟨List.forall_mem_cons.2 ⟨hname, hnone⟩, hadd⟩
      · exact .inr ⟨e, List.mem_cons_self, hadd⟩
    · exact .inr ⟨e', List.mem_cons_of_mem e he', hgiven⟩

variable {pairs : List (Text × Text)}

theorem exists_contentsOf_eq_ok_iff (h : entries.IsKeyed) :
    (∃ c, contentsOf entries = .ok c) ↔
      (∀ n ∈ entries.get? "metadata".toList, IsMetadata n) ∧
        ∀ n ∈ entries.get? "substitutions".toList, ∃ pairs, IsSubstitutions n pairs := by
  rw [contentsOf, exists_foldlM_eq_ok_iff Contents.exists_add_eq_ok_iff, h.forall_get?_iff,
    h.forall_get?_iff, ← forall₂_and]
  refine forall₂_congr fun e he => and_congr_left fun _ => imp_congr_right fun _ => ?_
  exact exists_metadataOf_eq_ok_iff (h.keyed e he)

theorem substitutions_of_contentsOf (h : entries.IsKeyed) (hc : contentsOf entries = .ok c) :
    c.substitutions = some pairs ↔
      ∃ n, entries.get? "substitutions".toList = some n ∧ IsSubstitutions n pairs := by
  rcases Contents.substitutions_of_foldlM hc with
    ⟨hnone, hsame⟩ | ⟨e, he, hname, pairs', hpairs', hgiven⟩
  · rw [hsame]
    constructor
    · intro h
      cases h
    · rintro ⟨n, hn, -⟩
      obtain ⟨e, he, hname, -⟩ := Entries.exists_mem_of_get? hn
      exact absurd hname (hnone e he)
  · have hfound : entries.get? "substitutions".toList = some e.2 :=
      h.get?_eq_some_iff.2 ⟨e, he, hname, rfl⟩
    rw [hgiven, hfound]
    constructor
    · intro h
      cases h
      exact ⟨e.2, rfl, hpairs'⟩
    · rintro ⟨n, hn, hpairs⟩
      cases hn
      rw [hpairs'.unique hpairs]

/-- A document is decoded exactly when it has the shape of a table document. -/
theorem exists_decode_eq_ok_iff {d : Toml.Document} (h : d.entries.IsKeyed) :
    (∃ metadata, decode d = .ok (metadata, pairs)) ↔ HasSchema d pairs := by
  constructor
  · rintro ⟨metadata, hdecode⟩
    obtain ⟨c, hc, hdecode⟩ := Toml.exists_of_bind_eq_ok hdecode
    have hshapes := (exists_contentsOf_eq_ok_iff h).1 ⟨c, hc⟩
    refine ⟨hshapes.1, (substitutions_of_contentsOf h hc).1 ?_⟩
    split at hdecode
    · next pairs' hsome =>
      cases hdecode
      exact hsome
    · cases hdecode
  · intro hschema
    obtain ⟨n, hn, hpairs⟩ := hschema.substitutions
    have hgiven : ∀ m ∈ d.entries.get? "substitutions".toList, ∃ pairs, IsSubstitutions m pairs := by
      intro m hm
      cases hn.symm.trans hm
      exact ⟨pairs, hpairs⟩
    obtain ⟨c, hc⟩ := (exists_contentsOf_eq_ok_iff h).2 ⟨hschema.metadata, hgiven⟩
    refine ⟨c.metadata, ?_⟩
    rw [decode, hc]
    dsimp only [bind, Except.bind]
    rewrite [(substitutions_of_contentsOf h hc).2 hschema.substitutions]
    rfl

end Contents

section Loading

variable {source : Text} {d : Toml.Document} {pairs : List (Text × Text)}

/-- The table of a document of the right shape has the pairs of the document, unless a name of them is no
identifier. -/
theorem ofDocument_of_hasSchema (hparse : Toml.parse source = .ok d) (h : HasSchema d pairs) :
    ∃ metadata : Metadata,
      ofDocument source = ofMap metadata.name metadata.description (Std.ExtTreeMap.ofList pairs) := by
  obtain ⟨metadata, hdecode⟩ := (exists_decode_eq_ok_iff (Toml.isKeyed_of_parse hparse)).2 h
  refine ⟨metadata, ?_⟩
  rw [ofDocument, hparse]
  dsimp only
  rw [hdecode]

theorem malformed_of_not_hasSchema
    (h : ¬ ∃ d pairs, Toml.parse source = .ok d ∧ HasSchema d pairs) :
    ∃ e, ofDocument source = .error (.malformed e) := by
  unfold ofDocument
  cases hparse : Toml.parse source with
  | error e => exact ⟨e, rfl⟩
  | ok d =>
    dsimp only
    cases hdecode : decode d with
    | error mismatch => exact ⟨⟨source, mismatch.1, mismatch.2⟩, rfl⟩
    | ok contents =>
      have hschema := (exists_decode_eq_ok_iff (Toml.isKeyed_of_parse hparse)).1 ⟨contents.1, hdecode⟩
      exact absurd ⟨d, contents.2, hparse, hschema⟩ h

theorem exists_hasSchema_of_ne_malformed (h : ∀ e, ofDocument source ≠ .error (.malformed e)) :
    ∃ d pairs, Toml.parse source = .ok d ∧ HasSchema d pairs := by
  by_contra hnot
  obtain ⟨e, he⟩ := malformed_of_not_hasSchema hnot
  exact h e he

/-- A document of the right shape is a table, or it is refused for a name. -/
theorem HasSchema.ofDocument_cases (h : HasSchema d pairs) (hparse : Toml.parse source = .ok d) :
    ((∀ k ∈ pairs.map Prod.fst, isIdentifier k = true) ∧ ∃ table, ofDocument source = .ok table) ∨
      (¬ ∀ k ∈ pairs.map Prod.fst, isIdentifier k = true) ∧
        ∃ k, ofDocument source = .error (.invalidName k) := by
  have hmem (k : Text) : k ∈ Std.ExtTreeMap.ofList pairs ↔ k ∈ pairs.map Prod.fst := by
    rw [Std.ExtTreeMap.mem_ofList, List.contains_iff_mem]
  obtain ⟨metadata, heq⟩ := ofDocument_of_hasSchema hparse h
  rw [heq]
  cases hmap : ofMap metadata.name metadata.description (Std.ExtTreeMap.ofList pairs) with
  | ok table =>
    have hnames := exists_ofMap_eq_ok_iff.1 ⟨table, hmap⟩
    exact .inl ⟨fun k hk => hnames k ((hmem k).2 hk), table, rfl⟩
  | error e =>
    obtain ⟨k, hk, hnot, rfl⟩ := invalidName_of_ofMap hmap
    refine .inr ⟨fun hnames => ?_, k, rfl⟩
    rw [hnames k ((hmem k).1 hk)] at hnot
    cases hnot

/-- Which documents are tables. A document is taken for a table exactly when it has substitutions that are
strings, with identifiers for their names, and its metadata are in order if it has them. It is refused for a
name exactly when all of that holds but for the names, and it counts as malformed in all other cases. -/
theorem ofDocument_decides (source : Text) :
    ((∃ table, ofDocument source = .ok table) ↔
      ∃ d pairs, Toml.parse source = .ok d ∧ HasSchema d pairs ∧
        ∀ k ∈ pairs.map Prod.fst, isIdentifier k = true) ∧
    ((∃ k, ofDocument source = .error (.invalidName k)) ↔
      ∃ d pairs, Toml.parse source = .ok d ∧ HasSchema d pairs ∧
        ¬ ∀ k ∈ pairs.map Prod.fst, isIdentifier k = true) ∧
    ((∃ e, ofDocument source = .error (.malformed e)) ↔
      ¬ ∃ d pairs, Toml.parse source = .ok d ∧ HasSchema d pairs) := by
  refine ⟨⟨?_, ?_⟩, ⟨?_, ?_⟩, ?_, malformed_of_not_hasSchema⟩
  · rintro ⟨table, htable⟩
    have hne : ∀ e, ofDocument source ≠ .error (.malformed e) := by simp [htable]
    obtain ⟨d, pairs, hparse, hschema⟩ := exists_hasSchema_of_ne_malformed hne
    rcases hschema.ofDocument_cases hparse with ⟨hnames, -⟩ | ⟨-, k, hk⟩
    · exact ⟨d, pairs, hparse, hschema, hnames⟩
    · rw [htable] at hk
      cases hk
  · rintro ⟨d, pairs, hparse, hschema, hnames⟩
    rcases hschema.ofDocument_cases hparse with ⟨-, htable⟩ | ⟨hnot, -⟩
    · exact htable
    · exact absurd hnames hnot
  · rintro ⟨k, hk⟩
    have hne : ∀ e, ofDocument source ≠ .error (.malformed e) := by simp [hk]
    obtain ⟨d, pairs, hparse, hschema⟩ := exists_hasSchema_of_ne_malformed hne
    rcases hschema.ofDocument_cases hparse with ⟨-, table, htable⟩ | ⟨hnot, -⟩
    · rw [hk] at htable
      cases htable
    · exact ⟨d, pairs, hparse, hschema, hnot⟩
  · rintro ⟨d, pairs, hparse, hschema, hnot⟩
    rcases hschema.ofDocument_cases hparse with ⟨hnames, -⟩ | ⟨-, hk⟩
    · exact absurd hnames hnot
    · exact hk
  · rintro ⟨e, he⟩ ⟨d, pairs, hparse, hschema⟩
    rcases hschema.ofDocument_cases hparse with ⟨-, table, htable⟩ | ⟨-, k, hk⟩
    · rw [he] at htable
      cases htable
    · rw [he] at hk
      cases hk

/-- Tables are not asked for as such. Metadata may also be an array or a date, and of substitutions that are a
date nothing is refused but the name that it then has. -/
theorem ofDocument_without_tables :
    (HasKind "metadata = [\"a\", \"b\"]\n[substitutions]\n".toList "metadata".toList "array" ∧
      ∃ table, ofDocument "metadata = [\"a\", \"b\"]\n[substitutions]\n".toList = .ok table) ∧
    (HasKind "metadata = 1979-05-27\n[substitutions]\n".toList "metadata".toList "datetime" ∧
      ∃ table, ofDocument "metadata = 1979-05-27\n[substitutions]\n".toList = .ok table) ∧
    HasKind "substitutions = 1979-05-27".toList "substitutions".toList "datetime" ∧
      ofDocument "substitutions = 1979-05-27".toList = .error (.invalidName dateTimeName) := by
  have haccepted (source : Text) (h : (ofDocument source).toBool = true) :
      ∃ table, ofDocument source = .ok table := by
    cases hsource : ofDocument source with
    | ok table => exact ⟨table, rfl⟩
    | error e =>
      rw [hsource] at h
      cases h
  have hrefused : (match ofDocument "substitutions = 1979-05-27".toList with
      | .ok _ => none
      | .error e => some e) = some (.invalidName dateTimeName) := by
    decide +kernel
  refine ⟨⟨?_, haccepted _ ?_⟩, ⟨?_, haccepted _ ?_⟩, ?_, ?_⟩
  · decide +kernel
  · decide +kernel
  · decide +kernel
  · decide +kernel
  · decide +kernel
  · split at hrefused
    · cases hrefused
    · next e he =>
      rw [he, Option.some.inj hrefused]

end Loading

end Table

end Stencil
