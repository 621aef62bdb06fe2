import Mathlib.Data.List.Sort
import Stencil.Proofs.Deciding
import Stencil.Template.Segment

/-!
# Replacement texts are opaque

Of a table, filling uses the names to decide and to suggest, and the texts only to copy them. So two
tables with the same names meet the same errors in every template. A template without dangling
delimiters is a list of segments whatever the table is, and every table with all their names fills it
with the literal texts and its own texts, one after the other, even if those look like placeholders.
-/

namespace Stencil

namespace Table

/-- Two tables have the same names, whatever their texts. -/
def SameNames (a b : Table) : Prop := ∀ name, a.contains name = b.contains name

variable {a b : Table}

theorem entries_of_ofMap {name description : Option Text} {entries : Std.ExtTreeMap Text Text}
    (h : ofMap name description entries = .ok a) : a.entries = entries := by
  unfold ofMap at h
  split at h
  · cases h
  · cases h
    rfl

theorem contains_of_ofEntries {pairs : List (Text × Text)} (h : ofEntries pairs = .ok a)
    (name : Text) : a.contains name = (pairs.map Prod.fst).contains name := by
  unfold contains
  rw [entries_of_ofMap h, Std.ExtTreeMap.contains_ofList]

theorem mem_names_iff {name : Text} : name ∈ a.names ↔ a.contains name = true :=
  Std.ExtTreeMap.mem_keys

/-- The names are listed in increasing order, so which they are decides how they are listed. -/
theorem SameNames.names_eq (h : a.SameNames b) : a.names = b.names := by
  have hantisymm : Std.Antisymm fun s t : Text => compare s t = .lt :=
    ⟨fun s t hst hts => absurd hts (Std.OrientedCmp.not_lt_of_lt hst)⟩
  have hirrefl : Std.Irrefl fun s t : Text => compare s t = .lt :=
    ⟨fun s hs => Std.OrientedCmp.not_lt_of_lt hs hs⟩
  apply List.Pairwise.eq_of_mem_iff (Std.ExtTreeMap.ordered_keys (t := a.entries))
    (Std.ExtTreeMap.ordered_keys (t := b.entries))
  intro name
  have ha : name ∈ a.entries.keys ↔ a.contains name = true := mem_names_iff
  have hb : name ∈ b.entries.keys ↔ b.contains name = true := mem_names_iff
  rw [ha, hb, h name]

theorem SameNames.suggestions_eq (h : a.SameNames b) (name : Text) :
    a.suggestions name = b.suggestions name := by
  unfold suggestions
  rw [h.names_eq]

theorem SameNames.isFaulty_eq (h : a.SameNames b) (t : Token) : t.isFaulty a = t.isFaulty b := by
  cases t with
  | named name => rw [Token.isFaulty, Token.isFaulty, h name]
  | braced name => rw [Token.isFaulty, Token.isFaulty, h name]
  | _ => rfl

theorem SameNames.reports (h : a.SameNames b) {source : Text} {t : Token.Placed} {e : TemplateError}
    (he : TemplateError.Reports source a t e) : TemplateError.Reports source b t e := by
  cases he with
  | dangling position => exact .dangling position
  | named missing =>
    rw [h.suggestions_eq]
    exact .named (by rw [← h, missing])
  | braced missing =>
    rw [h.suggestions_eq]
    exact .braced (by rw [← h, missing])

end Table

theorem exists_mapM_eq_some {α β : Type} {f : α → Option β} {l : List α}
    (h : ∀ a ∈ l, ∃ b, f a = some b) : ∃ bs, l.mapM f = some bs := by
  induction l with
  | nil => exact ⟨[], rfl⟩
  | cons a l ih =>
    obtain ⟨b, hb⟩ := h a List.mem_cons_self
    obtain ⟨bs, hbs⟩ := ih fun a ha => h a (List.mem_cons_of_mem _ ha)
    refine ⟨b :: bs, ?_⟩
    rw [List.mapM_cons, hb, hbs]
    rfl

theorem Table.exists_filled? {table : Table} {segment : Segment}
    (h : ∀ name, segment.name? = some name → table.contains name = true) :
    ∃ piece, segment.filled? table.get? = some piece := by
  cases segment with
  | literal text => exact ⟨text, rfl⟩
  | placeholder name =>
    rcases table.get?_cases name with ⟨-, value, hget⟩ | ⟨hmissing, -⟩
    · exact ⟨value, hget⟩
    · rw [h name rfl] at hmissing
      cases hmissing

namespace Token.Placed

/-- A token contributes what its segment becomes. -/
theorem fill_of_filled? {t : Placed} {segment : Segment} {table : Table} {piece : Text}
    (hsegment : Segment.ofToken? t.token = some segment)
    (hpiece : segment.filled? table.get? = some piece) (p : Position) :
    t.fill table p = .ok piece := by
  obtain ⟨token, span⟩ := t
  cases token with
  | dangling => cases hsegment
  | named name =>
    cases hsegment
    have hget : table.get? name = some piece := hpiece
    simp [fill, hget]
  | braced name =>
    cases hsegment
    have hget : table.get? name = some piece := hpiece
    simp [fill, hget]
  | _ =>
    cases hsegment
    cases hpiece
    rfl

theorem fillAll_of_filled? {ts : List Placed} {segments : List Segment} {table : Table}
    {pieces : List Text} (hsegments : ts.mapM (fun t => Segment.ofToken? t.token) = some segments)
    (hpieces : segments.mapM (Segment.filled? table.get?) = some pieces) (p : Position) :
    fillAll table p ts = pieces.map .ok := by
  induction ts generalizing segments pieces p with
  | nil =>
    cases hsegments
    cases hpieces
    rfl
  | cons t ts ih =>
    rw [List.mapM_cons] at hsegments
    obtain ⟨segment, hsegment, hsegments⟩ := Option.bind_eq_some_iff.1 hsegments
    obtain ⟨segments, hrest, hsegments⟩ := Option.bind_eq_some_iff.1 hsegments
    cases hsegments
    rw [List.mapM_cons] at hpieces
    obtain ⟨piece, hpiece, hpieces⟩ := Option.bind_eq_some_iff.1 hpieces
    obtain ⟨pieces, hfilled, hpieces⟩ := Option.bind_eq_some_iff.1 hpieces
    cases hpieces
    rw [fillAll, fill_of_filled? hsegment hpiece, ih hrest hfilled]
    rfl

end Token.Placed

namespace Template

variable {t : Template} {table : Table}

theorem exists_segments (h : t.isWellFormed) : ∃ segments, t.segments? = some segments := by
  apply exists_mapM_eq_some
  intro p hp
  have hp := bne_iff_ne.1 (List.all_eq_true.1 h p hp)
  cases htoken : p.token with
  | dangling => exact absurd htoken hp
  | _ => exact ⟨_, rfl⟩

/-- Contributions that are all text are the filled text. -/
theorem fill_of_parts_eq {pieces : List Text} (h : t.parts table = pieces.map .ok) :
    t.fill table = .ok pieces.flatten := by
  have hproblems : t.problems table = [] := by
    unfold problems Token.Placed.errors
    rw [h, List.filterMap_map]
    exact List.filterMap_eq_nil_iff.2 fun piece _ => rfl
  have hfilling : t.filling table = pieces.flatten := by
    unfold filling Token.Placed.texts
    rw [h, List.flatMap_map, List.flatMap_id']
  rw [fill_eq, hproblems, hfilling]

theorem fill_of_segments {segments : List Segment} (h : t.segments? = some segments)
    (hnames : ∀ name ∈ segments.filterMap Segment.name?, table.contains name = true) :
    ∃ pieces, segments.mapM (Segment.filled? table.get?) = some pieces ∧
      t.fill table = .ok pieces.flatten := by
  obtain ⟨pieces, hpieces⟩ := exists_mapM_eq_some fun segment hsegment =>
    Table.exists_filled? fun name hname =>
      hnames name (List.mem_filterMap.2 ⟨segment, hsegment, hname⟩)
  exact ⟨pieces, hpieces, fill_of_parts_eq (Token.Placed.fillAll_of_filled? h hpieces .first)⟩

theorem problems_eq_of_sameNames {a b : Table} (h : a.SameNames b) (source : Text) :
    problems ⟨source⟩ a = problems ⟨source⟩ b := by
  have hfaulty : (fun t : Token.Placed => t.token.isFaulty a) = fun t => t.token.isFaulty b :=
    funext fun t => h.isFaulty_eq t.token
  have ha := (forall₂_reports_problems source a).imp fun t e => h.reports
  rw [hfaulty] at ha
  exact (TemplateError.reports_unique source b).forall₂ ha (forall₂_reports_problems source b)

/-- Replacement texts are opaque. The segments of a template without dangling delimiters depend on its
source alone, and every table that has their names fills the template with the literal texts and its own
texts as they are, one after the other. Two tables with the same names fill the same templates, and meet
the same errors in the others. -/
theorem fill_copies_values (source : Text) :
    (isWellFormed ⟨source⟩ →
      ∃ segments, segments? ⟨source⟩ = some segments ∧
        ∀ table : Table,
          (∀ name ∈ segments.filterMap Segment.name?, table.contains name = true) →
            ∃ pieces, segments.mapM (Segment.filled? table.get?) = some pieces ∧
              fill ⟨source⟩ table = .ok pieces.flatten) ∧
    ∀ a b : Table, a.SameNames b →
      (∃ s t, fill ⟨source⟩ a = .ok s ∧ fill ⟨source⟩ b = .ok t) ∨
        ∃ errors, fill ⟨source⟩ a = .error errors ∧ fill ⟨source⟩ b = .error errors := by
  constructor
  · intro hwell
    obtain ⟨segments, hsegments⟩ := exists_segments hwell
    exact ⟨segments, hsegments, fun table hnames => fill_of_segments hsegments hnames⟩
  · intro a b hsame
    have hproblems := problems_eq_of_sameNames hsame source
    by_cases hnone : problems ⟨source⟩ a = []
    · obtain ⟨s, hs⟩ := exists_fill_eq_ok_iff.2 hnone
      obtain ⟨t, ht⟩ := exists_fill_eq_ok_iff.2 (hproblems ▸ hnone)
      exact Or.inl ⟨s, t, hs, ht⟩
    · have ha := fill_eq_error_iff.2 ⟨hnone, rfl⟩
      have hb := fill_eq_error_iff.2 ⟨hproblems ▸ hnone, hproblems⟩
      exact Or.inr ⟨_, ha, hb⟩

/-- Texts that look like a delimiter and like a placeholder stand side by side, and are not read. -/
theorem fill_lookalike_values :
    let source := "@@X@@{Y}@@@@".toList
    let pairs := [("X".toList, "@".toList), ("Y".toList, "@@X".toList)]
    let blank := [("X".toList, []), ("Y".toList, [])]
    ∃ a b, Table.ofEntries pairs = .ok a ∧ Table.ofEntries blank = .ok b ∧
      isWellFormed ⟨source⟩ ∧ a.SameNames b ∧
      segments? ⟨source⟩ =
        some [.placeholder "X".toList, .placeholder "Y".toList, .literal "@@".toList] ∧
      fill ⟨source⟩ a = .ok "@@@X@@".toList ∧ ∃ t, fill ⟨source⟩ b = .ok t := by
  intro source pairs blank
  obtain ⟨a, ha⟩ : ∃ a, Table.ofEntries pairs = .ok a := ⟨_, rfl⟩
  obtain ⟨b, hb⟩ : ∃ b, Table.ofEntries blank = .ok b := ⟨_, rfl⟩
  have hwell : isWellFormed ⟨source⟩ := by decide +kernel
  have hsame : a.SameNames b := by
    intro name
    rw [Table.contains_of_ofEntries ha, Table.contains_of_ofEntries hb]
    rfl
  have hnamed : segments? ⟨source⟩ =
      some [.placeholder "X".toList, .placeholder "Y".toList, .literal "@@".toList] := by
    decide +kernel
  obtain ⟨hcopies, hdecide⟩ := fill_copies_values source
  obtain ⟨segments, hsegments, hfill⟩ := hcopies hwell
  rw [hnamed] at hsegments
  cases hsegments
  have hnames : ∀ name ∈ ["X".toList, "Y".toList], a.contains name = true := by
    intro name hname
    rw [Table.contains_of_ofEntries ha]
    exact List.contains_iff_mem.2 hname
  obtain ⟨pieces, hpieces, hfill⟩ := hfill a hnames
  have htexts : pieces = ["@".toList, "@@X".toList, "@@".toList] := by
    cases ha
    cases hpieces
    decide +kernel
  rw [htexts] at hfill
  refine ⟨a, b, ha, hb, hwell, hsame, hnamed, hfill, ?_⟩
  obtain ⟨s, t, -, ht⟩ | ⟨errors, herrors, -⟩ := hdecide a b hsame
  · exact ⟨t, ht⟩
  · rw [hfill] at herrors
    cases herrors

end Template

end Stencil
