import Mathlib.Data.List.Nodup
import Mathlib.Tactic.SplitIfs
import Stencil.Proofs.Giving
import Stencil.Toml.Document

/-!
# No key twice

In a document every table has each of its names once, and an array of tables holds tables only. The tables
of a document are made by dotted keys, by the headers on the way to others, in braces and line by line, and
each of these either finds a name taken and fails, or adds it to a table that does not have it. What one
step keeps is then kept by all lines of a document.
-/

namespace Stencil.Toml

/-- Every table in the node has each name once, and every array of tables in it holds tables only. -/
inductive Node.IsKeyed : Node → Prop
  | string {text : Text} {span : Span} : IsKeyed (.string text span)
  | integer {value : Int} {span : Span} : IsKeyed (.integer value span)
  | float {value : Binary64} {span : Span} : IsKeyed (.float value span)
  | boolean {value : Bool} {span : Span} : IsKeyed (.boolean value span)
  | dateTime {text : Text} {span : Span} : IsKeyed (.dateTime text span)
  | array {items : List Node} {span : Span} (items_keyed : ∀ n ∈ items, IsKeyed n) :
      IsKeyed (.array items span)
  | table {form : Form} {entries : Entries} {span : Option Span}
      (nodup : (entries.map fun e => e.1.name).Nodup) (entries_keyed : ∀ e ∈ entries, IsKeyed e.2) :
      IsKeyed (.table form entries span)
  | sections {items : List Node} {span : Option Span}
      (tables : ∀ n ∈ items, ∃ form entries span, n = .table form entries span)
      (items_keyed : ∀ n ∈ items, IsKeyed n) : IsKeyed (.sections items span)

/-- The entries have each name once, and so has every table in them. -/
structure Entries.IsKeyed (es : Entries) : Prop where
  nodup : (es.map fun e => e.1.name).Nodup
  keyed : ∀ e ∈ es, e.2.IsKeyed

theorem exists_of_bind_eq_ok {ε α β : Type} {x : Except ε α} {f : α → Except ε β} {b : β}
    (h : x >>= f = .ok b) : ∃ a, x = .ok a ∧ f a = .ok b := by
  cases x with
  | error e => cases h
  | ok a => exact ⟨a, rfl, h⟩

/-- What each step of a fold keeps, the fold keeps. -/
theorem foldlM_invariant {ε α β : Type} {I : β → Prop} {f : β → α → Except ε β} {l : List α} {b b' : β}
    (hf : ∀ a ∈ l, ∀ b b', I b → f b a = .ok b' → I b') (hb : I b) (h : l.foldlM f b = .ok b') :
    I b' := by
  induction l generalizing b with
  | nil =>
    cases h
    exact hb
  | cons a l ih =>
    rw [List.foldlM_cons] at h
    obtain ⟨b₁, hstep, hrest⟩ := exists_of_bind_eq_ok h
    have hb₁ := hf a List.mem_cons_self b b₁ hb hstep
    exact ih (fun a ha => hf a (List.mem_cons_of_mem _ ha)) hb₁ hrest

namespace Node

variable {form : Form} {entries : Entries} {items : List Node} {span : Option Span}

theorem isKeyed_table_iff : (table form entries span).IsKeyed ↔ entries.IsKeyed := by
  constructor
  · intro h
    cases h with
    | table nodup keyed => exact ⟨nodup, keyed⟩
  · intro h
    exact .table h.nodup h.keyed

/-- A table may be put behind the tables of an array. -/
theorem IsKeyed.sections_concat {l : List Node} (h : (Node.sections items span).IsKeyed)
    (hl : l ⊆ items) (hentries : entries.IsKeyed) {span' span'' : Option Span} :
    (Node.sections (l ++ [Node.table form entries span']) span'').IsKeyed := by
  cases h with
  | sections tables keyed =>
    refine .sections ?_ ?_ <;> intro n hn <;> rcases List.mem_append.1 hn with hn | hn
    · exact tables n (hl hn)
    · exact ⟨form, entries, span', List.mem_singleton.1 hn⟩
    · exact keyed n (hl hn)
    · rw [List.mem_singleton.1 hn]
      exact isKeyed_table_iff.2 hentries

theorem IsKeyed.of_getLast? {span' : Option Span} (h : (Node.sections items span).IsKeyed)
    (hlast : items.getLast? = some (Node.table form entries span')) : entries.IsKeyed := by
  cases h with
  | sections tables keyed => exact isKeyed_table_iff.1 (keyed _ (List.mem_of_getLast? hlast))

end Node

namespace Entries

variable {es es' : Entries} {key : Key} {name : Text} {n : Node}

theorem isKeyed_nil : IsKeyed [] := ⟨List.nodup_nil, by simp⟩

theorem get?_eq_none_iff : get? name es = none ↔ name ∉ es.map fun e => e.1.name := by
  unfold get?
  rw [Option.map_eq_none_iff, List.find?_eq_none]
  simp

theorem exists_mem_of_get? (h : get? name es = some n) : ∃ e ∈ es, e.1.name = name ∧ e.2 = n := by
  obtain ⟨e, he, hn⟩ := Option.map_eq_some_iff.1 h
  exact ⟨e, List.mem_of_find?_eq_some he, by simpa using List.find?_some he, hn⟩

theorem IsKeyed.get? (h : es.IsKeyed) (hn : Entries.get? name es = some n) : n.IsKeyed := by
  obtain ⟨e, he, -, rfl⟩ := exists_mem_of_get? hn
  exact h.keyed e he

/-- With each name once, the entry of a name is the one that is found for it. -/
theorem IsKeyed.get?_eq_some_iff (h : es.IsKeyed) :
    Entries.get? name es = some n ↔ ∃ e ∈ es, e.1.name = name ∧ e.2 = n := by
  constructor
  · exact exists_mem_of_get?
  · rintro ⟨e, he, rfl, rfl⟩
    cases hfound : Entries.get? e.1.name es with
    | none => exact absurd (List.mem_map_of_mem he) (get?_eq_none_iff.1 hfound)
    | some m =>
      obtain ⟨e', he', hname, rfl⟩ := exists_mem_of_get? hfound
      rw [List.inj_on_of_nodup_map h.nodup he' he hname]

/-- What all entries of a name are, the one that is found for it is. -/
theorem IsKeyed.forall_get?_iff {P : Node → Prop} (h : es.IsKeyed) :
    (∀ n ∈ es.get? name, P n) ↔ ∀ e ∈ es, e.1.name = name → P e.2 := by
  constructor
  · intro hget e he hname
    exact hget e.2 (h.get?_eq_some_iff.2 ⟨e, he, hname, rfl⟩)
  · intro hall n hn
    obtain ⟨e, he, hname, rfl⟩ := exists_mem_of_get? hn
    exact hall e he hname

theorem IsKeyed.concat (h : es.IsKeyed) (hnew : Entries.get? key.name es = none) (hn : n.IsKeyed) :
    IsKeyed (es ++ [(key, n)]) := by
  constructor
  · rw [List.map_append, List.map_singleton, ← List.concat_eq_append]
    exact h.nodup.concat (get?_eq_none_iff.1 hnew)
  · intro e he
    rcases List.mem_append.1 he with he | he
    · exact h.keyed e he
    · rwa [List.mem_singleton.1 he]

theorem IsKeyed.replace (h : es.IsKeyed) (hn : n.IsKeyed) : IsKeyed (replace name n es) := by
  unfold Entries.replace
  constructor
  · have hnames : (es.map fun e => if e.1.name == name then (e.1, n) else e).map
        (fun e => e.1.name) = es.map fun e => e.1.name := by
      rw [List.map_map]
      apply List.map_congr_left
      intro e _
      dsimp only [Function.comp]
      split <;> rfl
    rw [hnames]
    exact h.nodup
  · intro e he
    obtain ⟨e', he', rfl⟩ := List.mem_map.1 he
    split
    · exact hn
    · exact h.keyed e' he'

theorem IsKeyed.erase (h : es.IsKeyed) : IsKeyed (erase name es) := by
  unfold Entries.erase
  exact ⟨h.nodup.sublist (List.filter_sublist.map _), fun e he => h.keyed e (List.mem_of_mem_filter he)⟩

/-- A dotted key adds a name to a table that does not have it, on whichever level. -/
theorem isKeyed_of_addDotted {made own : Form} {duplicate : Text → Fault} {before path : List Key}
    (hes : es.IsKeyed) (hn : n.IsKeyed)
    (h : addDotted made duplicate before own path key n es = .ok es') : es'.IsKeyed := by
  induction path generalizing before own es es' with
  | nil =>
    unfold addDotted at h
    split_ifs at h with _ htaken
    cases h
    exact hes.concat (by simpa using htaken) hn
  | cons k path ih =>
    unfold addDotted at h
    dsimp only at h
    split at h
    · next hnew =>
      obtain ⟨inner, hinner, hrest⟩ := exists_of_bind_eq_ok h
      cases hrest
      exact hes.concat hnew (Node.isKeyed_table_iff.2 (ih isKeyed_nil hinner))
    · next form inner span hfound =>
      split_ifs at h
      obtain ⟨inner', hinner, hrest⟩ := exists_of_bind_eq_ok h
      cases hrest
      have hkeyed := Node.isKeyed_table_iff.1 (hes.get? hfound)
      exact hes.replace (Node.isKeyed_table_iff.2 (ih hkeyed hinner))
    · next items span hfound =>
      split at h
      · next form inner innerSpan hlast =>
        obtain ⟨inner', hinner, hrest⟩ := exists_of_bind_eq_ok h
        cases hrest
        have hitems := hes.get? hfound
        exact hes.replace
          (hitems.sections_concat (List.dropLast_subset items) (ih (hitems.of_getLast? hlast) hinner))
      · cases h
    · cases h

/-- What is done at the end of a header's keys, and keeps the entries there, keeps all of them. -/
theorem isKeyed_of_visit {β : Type} {P : β → Prop} {f : Entries → Except Fault (β × Entries)} {b : β}
    {before path : List Key}
    (hf : ∀ es b es', es.IsKeyed → f es = .ok (b, es') → P b ∧ es'.IsKeyed) (hes : es.IsKeyed)
    (h : visit f before path es = .ok (b, es')) : P b ∧ es'.IsKeyed := by
  induction path generalizing before es es' b with
  | nil => exact hf es b es' hes h
  | cons k path ih =>
    unfold visit at h
    dsimp only at h
    split at h
    · next hnew =>
      obtain ⟨⟨b', inner⟩, hinner, hrest⟩ := exists_of_bind_eq_ok h
      cases hrest
      obtain ⟨hb, hkeyed⟩ := ih isKeyed_nil hinner
      exact ⟨hb, hes.concat hnew (Node.isKeyed_table_iff.2 hkeyed)⟩
    · next form inner span hfound =>
      split_ifs at h
      obtain ⟨⟨b', inner'⟩, hinner, hrest⟩ := exists_of_bind_eq_ok h
      cases hrest
      obtain ⟨hb, hkeyed⟩ := ih (Node.isKeyed_table_iff.1 (hes.get? hfound)) hinner
      exact ⟨hb, hes.replace (Node.isKeyed_table_iff.2 hkeyed)⟩
    · next items span hfound =>
      split at h
      · next form inner innerSpan hlast =>
        obtain ⟨⟨b', inner'⟩, hinner, hrest⟩ := exists_of_bind_eq_ok h
        cases hrest
        have hitems := hes.get? hfound
        obtain ⟨hb, hkeyed⟩ := ih (hitems.of_getLast? hlast) hinner
        exact ⟨hb, hes.replace (hitems.sections_concat (List.dropLast_subset items) hkeyed)⟩
      · cases h
    · cases h

end Entries

namespace Draft

/-- What has been joined to the document and what is still open have each name once. -/
structure IsKeyed (d : Draft) : Prop where
  root : d.root.IsKeyed
  opened : d.opened.entries.IsKeyed

variable {d d' : Draft}

theorem isKeyed_empty : IsKeyed .empty := ⟨Entries.isKeyed_nil, Entries.isKeyed_nil⟩

theorem isKeyed_of_visitParent {β : Type} [Inhabited β] {P : β → Prop} {path : List Key}
    {f : Key → Entries → Except Fault (β × Entries)} {b : β} {es es' : Entries} (hdefault : P default)
    (hf : ∀ key es b es', es.IsKeyed → f key es = .ok (b, es') → P b ∧ es'.IsKeyed)
    (hes : es.IsKeyed) (h : visitParent path f es = .ok (b, es')) : P b ∧ es'.IsKeyed := by
  unfold visitParent at h
  split at h
  · next above key _ => exact Entries.isKeyed_of_visit (hf key) hes h
  · cases h
    exact ⟨hdefault, hes⟩

theorem IsKeyed.addPair {keys : List Key} {n : Node} (h : d.IsKeyed) (hn : n.IsKeyed)
    (heq : d.addPair keys n = .ok d') : d'.IsKeyed := by
  unfold Draft.addPair at heq
  split at heq
  · cases heq
    exact h
  · obtain ⟨entries, hentries, hrest⟩ := exists_of_bind_eq_ok heq
    cases hrest
    exact ⟨h.root, Entries.isKeyed_of_addDotted h.opened hn hentries⟩

theorem IsKeyed.close (h : d.IsKeyed) (heq : d.close = .ok d') : d'.IsKeyed := by
  unfold Draft.close at heq
  dsimp only at heq
  split at heq
  · cases heq
    exact ⟨h.opened, h.opened⟩
  · obtain ⟨⟨u, root⟩, hroot, hrest⟩ := exists_of_bind_eq_ok heq
    cases hrest
    refine ⟨(isKeyed_of_visitParent (P := fun _ => True) trivial ?_ h.root hroot).2, h.opened⟩
    intro key es b es' hes hstep
    refine ⟨trivial, ?_⟩
    split at hstep
    · next hnew =>
      cases hstep
      exact hes.concat hnew (Node.isKeyed_table_iff.2 h.opened)
    · next items span hfound =>
      split at hstep
      · cases hstep
        exact hes.replace ((hes.get? hfound).sections_concat (List.Subset.refl items) h.opened)
      · cases hstep
    · cases hstep

theorem IsKeyed.openTable {path : List Key} {span : Span} (h : d.IsKeyed)
    (heq : d.openTable path span = .ok d') : d'.IsKeyed := by
  unfold Draft.openTable at heq
  obtain ⟨closed, hclosed, heq⟩ := exists_of_bind_eq_ok heq
  obtain ⟨⟨entries, root⟩, hroot, hrest⟩ := exists_of_bind_eq_ok heq
  cases hrest
  have hboth : Entries.IsKeyed entries ∧ Entries.IsKeyed root := by
    refine isKeyed_of_visitParent Entries.isKeyed_nil ?_ (h.close hclosed).root hroot
    intro key es b es' hes hstep
    split at hstep
    · cases hstep
      exact ⟨Entries.isKeyed_nil, hes⟩
    · next inner span hfound =>
      cases hstep
      exact ⟨Node.isKeyed_table_iff.1 (hes.get? hfound), hes.erase⟩
    · cases hstep
  exact ⟨hboth.2, hboth.1⟩

theorem IsKeyed.openElement {path : List Key} {span : Span} (h : d.IsKeyed)
    (heq : d.openElement path span = .ok d') : d'.IsKeyed := by
  unfold Draft.openElement at heq
  obtain ⟨closed, hclosed, heq⟩ := exists_of_bind_eq_ok heq
  obtain ⟨⟨u, root⟩, hroot, hrest⟩ := exists_of_bind_eq_ok heq
  cases hrest
  refine ⟨(isKeyed_of_visitParent (P := fun _ => True) trivial ?_ (h.close hclosed).root hroot).2,
    Entries.isKeyed_nil⟩
  intro key es b es' hes hstep
  refine ⟨trivial, ?_⟩
  split at hstep
  · next hnew =>
    cases hstep
    exact hes.concat hnew (.sections (by simp) (by simp))
  · cases hstep
    exact hes
  · cases hstep

end Draft

namespace Parser

theorem isKeyed_of_inlineEntries {pairs : List (List Key × Node)} {entries : Entries}
    (hpairs : ∀ pair ∈ pairs, pair.2.IsKeyed) (h : inlineEntries pairs = .ok entries) :
    entries.IsKeyed := by
  unfold inlineEntries at h
  refine foldlM_invariant ?_ Entries.isKeyed_nil h
  rintro ⟨keys, n⟩ hmem es es' hes hstep
  dsimp only at hstep
  split at hstep
  · exact Entries.isKeyed_of_addDotted hes (hpairs _ hmem) hstep
  · cases hstep
    exact hes

section
variable {value : Parser Node}

theorem gives_keyValue (h : Gives value Node.IsKeyed) (rest : Parser Unit) :
    Gives (keyValue value rest) fun pair => pair.2.IsKeyed := by
  refine Gives.after fun keys => Gives.bind (P := Node.IsKeyed) ?_ fun n hn => gives_pure hn
  refine Gives.commit (Gives.after fun _ => Gives.after fun _ => h.bind fun n hn => ?_)
  exact Gives.after fun _ => gives_pure hn

theorem gives_array (h : Gives value Node.IsKeyed) :
    Gives (array value) fun items => ∀ n ∈ items, n.IsKeyed := by
  have hitem : Gives (do blanks; let item ← value; blanks; return item) Node.IsKeyed :=
    Gives.after fun _ => h.bind fun n hn => Gives.after fun _ => gives_pure hn
  have hitems : Gives (arrayItems value) fun items => ∀ n ∈ items, n.IsKeyed := by
    refine Gives.after fun c => ?_
    split
    · exact gives_pure (by simp)
    · refine (hitem.separated _).bind fun items hkeyed => ?_
      have hgive : Gives (do blanks; return items) fun items => ∀ n ∈ items, n.IsKeyed :=
        Gives.after fun _ => gives_pure hkeyed
      dsimp only
      split
      · exact hgive
      · exact Gives.after fun _ => hgive
  refine Gives.after fun _ => hitems.commit.bind fun items hkeyed => ?_
  exact Gives.after fun _ => gives_pure hkeyed

theorem gives_inlineTable (h : Gives value Node.IsKeyed) :
    Gives (inlineTable value) Entries.IsKeyed := by
  have hpairs : Gives (do
      let pairs ← separated (char ',') (keyValue value gap)
      gap
      return pairs) fun pairs => ∀ pair ∈ pairs, pair.2.IsKeyed :=
    ((gives_keyValue h gap).separated _).bind fun pairs hkeyed => Gives.after fun _ => gives_pure hkeyed
  have hentries := (hpairs.checked fun pairs entries => isKeyed_of_inlineEntries).commit
  refine Gives.after fun _ => hentries.bind fun entries hkeyed => ?_
  exact Gives.after fun _ => gives_pure hkeyed

theorem gives_word {text : Text} {n : Span → Node} (hn : ∀ span, (n span).IsKeyed) :
    Gives (word text n) fun n => ∀ span, (n span).IsKeyed :=
  ((Gives.after fun _ => gives_pure hn).inside _).expecting _

end

theorem gives_valueWith {nested : Option (Parser Node)}
    (h : ∀ value ∈ nested, Gives value Node.IsKeyed) : Gives (valueWith nested) Node.IsKeyed := by
  unfold valueWith
  refine Gives.bind (Gives.withSpan (P := fun n => ∀ span, Node.IsKeyed (n span)) ?_) fun r hr =>
    gives_pure (hr r.2)
  refine Gives.after fun c => ?_
  split
  · exact gives_fail
  · exact Gives.after fun _ => gives_pure fun _ => .string
  · exact Gives.after fun _ => gives_pure fun _ => .string
  · split
    · exact gives_refuse
    · next value =>
      exact (gives_array (h value rfl)).bind fun items hitems => gives_pure fun _ => .array hitems
  · split
    · exact gives_refuse
    · next value =>
      refine (gives_inlineTable (h value rfl)).bind fun entries hentries => ?_
      exact gives_pure fun _ => Node.isKeyed_table_iff.2 hentries
  · exact Gives.after fun _ => gives_pure fun _ => .integer
  · exact Gives.after fun _ => gives_pure fun _ => .float
  · exact (gives_word fun _ => .boolean).commit
  · exact (gives_word fun _ => .boolean).commit
  · exact gives_word fun _ => .float
  · exact gives_word fun _ => .float
  · split
    · refine Gives.either ?_ (Gives.either ?_ ?_)
      · exact Gives.after fun _ => gives_pure fun _ => .dateTime
      · exact Gives.after fun _ => gives_pure fun _ => .float
      · exact Gives.after fun _ => gives_pure fun _ => .integer
    · exact (gives_fail.inside _).expecting _

theorem gives_value (depth : Nat) : Gives (value depth) Node.IsKeyed := by
  induction depth with
  | zero => exact gives_valueWith (by simp)
  | succ depth ih =>
    refine gives_valueWith fun v hv => ?_
    cases hv
    exact ih

section
variable {d : Draft}

theorem gives_pairLine (h : d.IsKeyed) : Gives (pairLine d) Draft.IsKeyed := by
  refine (gives_keyValue (gives_value _) _).checked ?_
  rintro ⟨keys, n⟩ d' hn heq
  exact h.addPair hn heq

theorem gives_headerLine (h : d.IsKeyed) : Gives (headerLine d) Draft.IsKeyed := by
  refine Gives.inside (Gives.after fun first => Gives.after fun second => ?_) _
  split
  · exact (gives_any _).checked fun header d' _ heq => h.openElement heq
  · exact (gives_any _).checked fun header d' _ heq => h.openTable heq
  · exact gives_fail

/-- What each line keeps, all lines keep. -/
theorem gives_lines (n : Nat) (h : d.IsKeyed) : Gives (lines n d) Draft.IsKeyed := by
  induction n generalizing d with
  | zero => exact gives_pure h
  | succ n ih =>
    refine Gives.after fun c => ?_
    split
    case h_1 => exact gives_pure h
    case h_2 => exact Gives.after fun _ => Gives.after fun _ => ih h
    case h_3 => exact (gives_headerLine h).commit.bind fun d' h' => Gives.after fun _ => ih h'
    case h_4 | h_5 =>
      refine Gives.after fun o => ?_
      split
      · exact Gives.after fun _ => ih h
      · exact gives_pure h
    case h_6 => exact (gives_pairLine h).commit.bind fun d' h' => Gives.after fun _ => ih h'

theorem gives_document : Gives document Draft.IsKeyed := by
  refine Gives.after fun _ => Gives.after fun _ => Gives.after fun c => ?_
  exact (gives_lines _ Draft.isKeyed_empty).bind fun d h => Gives.after fun _ => gives_pure h

end

end Parser

/-- Every table of a document has each of its names once, and every array of tables holds tables. -/
theorem isKeyed_of_parse {source : Text} {d : Document} (h : parse source = .ok d) :
    d.entries.IsKeyed := by
  unfold parse at h
  split at h
  · cases h
  · next draft c hdraft =>
    split at h
    · cases h
    · next closed hclosed =>
      cases h
      exact ((Parser.gives_document hdraft).close hclosed).root

end Stencil.Toml
