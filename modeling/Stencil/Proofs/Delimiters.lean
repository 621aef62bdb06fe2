import Mathlib.Data.List.Infix
import Stencil.Proofs.Joining
import Stencil.Proofs.ReplacementTexts

/-!
# Delimiters before and after filling

A text without a delimiter is filled to itself by every table; a text with one is not by a table without
entries. A filled text is made of pieces, one for each token, and two `@` come together in it inside a
piece or at a seam. When there are no escapes and the values are tame, no piece holds a delimiter, and
only the single `@` ends in one; behind that stands text, which begins with something else. When there
are no values, every escape makes the filled text shorter by two characters.
-/

namespace Stencil

/-- Whether two `@` stand side by side somewhere in a text. -/
def HoldsDelimiter (s : Text) : Prop := ['@', '@'] <:+: s

instance : DecidablePred HoldsDelimiter := fun s =>
  inferInstanceAs (Decidable (['@', '@'] <:+: s))

/-- Whether a text neither holds a delimiter nor ends in the first half of one. -/
def IsTame (s : Text) : Prop := ¬ HoldsDelimiter s ∧ s.getLast? ≠ some '@'

instance : DecidablePred IsTame := fun s =>
  inferInstanceAs (Decidable (¬ HoldsDelimiter s ∧ s.getLast? ≠ some '@'))

theorem holdsDelimiter_cons_iff {c : Char} {s : Text} :
    HoldsDelimiter (c :: s) ↔ (c = '@' ∧ s.head? = some '@') ∨ HoldsDelimiter s := by
  have hhead : ['@'] <+: s ↔ s.head? = some '@' := by
    rw [List.head?_eq_some_iff]
    exact exists_congr fun rest => eq_comm
  unfold HoldsDelimiter
  rw [List.infix_cons_iff, List.cons_prefix_cons, hhead, @eq_comm _ '@']

theorem not_holdsDelimiter_of_notMem {s : Text} (h : '@' ∉ s) : ¬ HoldsDelimiter s :=
  fun hs => h (hs.subset List.mem_cons_self)

theorem isTame_of_notMem {s : Text} (h : '@' ∉ s) : IsTame s :=
  ⟨not_holdsDelimiter_of_notMem h, fun hlast => h (List.mem_of_getLast? hlast)⟩

/-- A delimiter in two texts together is in one of them or at their seam. -/
theorem not_holdsDelimiter_append {s t : Text} (hs : ¬ HoldsDelimiter s) (ht : ¬ HoldsDelimiter t)
    (hseam : s.getLast? = some '@' → t.head? ≠ some '@') : ¬ HoldsDelimiter (s ++ t) := by
  induction s with
  | nil => exact ht
  | cons c s ih =>
    rw [holdsDelimiter_cons_iff, not_or] at hs
    rw [List.cons_append, holdsDelimiter_cons_iff, not_or]
    cases s with
    | nil => exact ⟨fun hpair => hseam (congrArg some hpair.1) hpair.2, ht⟩
    | cons d s =>
      rw [List.getLast?_cons_cons] at hseam
      exact ⟨hs.1, ih hs.2 hseam⟩

theorem Table.get?_of_isEmpty {table : Table} (h : table.isEmpty) (name : Text) :
    table.get? name = none := by
  have hentries : table.entries = ∅ := Std.ExtTreeMap.isEmpty_iff.1 h
  rw [get?, hentries]
  exact Std.ExtTreeMap.getElem?_empty

namespace Token

/-- What a token becomes in a filled text. -/
def filled? (table : Table) (t : Token) : Option Text :=
  (Segment.ofToken? t).bind (Segment.filled? table.get?)

variable {table : Table}

theorem get?_of_contribution {name piece : Text} {span : Span}
    (h : Template.Search.contribution table name span = .ok piece) :
    table.get? name = some piece := by
  unfold Template.Search.contribution at h
  cases hget : table.get? name with
  | none =>
    rw [hget] at h
    cases h
  | some value =>
    rw [hget] at h
    cases h
    rfl

theorem filled?_of_fill {t : Token} {span : Span} {p : Position} {piece : Text}
    (h : Placed.fill table p ⟨t, span⟩ = .ok piece) : t.filled? table = some piece := by
  cases t with
  | named name => exact get?_of_contribution h
  | braced name => exact get?_of_contribution h
  | dangling => cases h
  | _ =>
    cases h
    rfl

/-- A text that is filled without an error becomes one piece for each of its tokens. -/
theorem exists_pieces_of_fillFrom {s text : Text} {offset : Nat} {p : Position}
    (h : Template.Search.fillFrom table offset p s = (text, [])) :
    ∃ pieces, List.Forall₂ (fun t piece => t.filled? table = some piece)
      ((readFrom offset s).map (·.token)) pieces ∧ text = pieces.flatten := by
  induction s using reading_induction generalizing offset p text with
  | nil =>
    rw [Template.Search.fillFrom_eq] at h
    cases h
    rw [readFrom_nil]
    exact ⟨[], .nil, rfl⟩
  | token t rest ht hrest ih =>
    rw [Template.Search.fillFrom_spelling_append ht hrest] at h
    rw [readFrom_spelling_append ht hrest, List.map_cons]
    cases hpart : Placed.fill table p ⟨t, offset, offset + t.width⟩ with
    | error e =>
      rw [hpart] at h
      cases (Prod.mk.inj h).2
    | ok piece =>
      rw [hpart] at h
      obtain ⟨htext, herrors⟩ := Prod.mk.inj h
      obtain ⟨pieces, hpieces, hflatten⟩ := ih (Prod.ext rfl herrors)
      refine ⟨piece :: pieces, .cons (filled?_of_fill hpart) hpieces, ?_⟩
      exact htext.symm.trans (congrArg (piece ++ ·) hflatten)

section
variable {ts : List Token} {pieces : List Text}

theorem isTame_of_filled? {t : Token} {piece : Text} (ht : t.IsProper)
    (hpiece : t.filled? table = some piece) (hescaped : t ≠ escaped) (hat : t ≠ atSign)
    (hvalue : ∀ name, t.placeholder? = some name → ∀ value, table.get? name = some value →
      IsTame value) : IsTame piece := by
  cases t with
  | escaped => exact absurd rfl hescaped
  | atSign => exact absurd rfl hat
  | dangling => cases hpiece
  | named name => exact hvalue name rfl piece hpiece
  | braced name => exact hvalue name rfl piece hpiece
  | run text =>
    cases hpiece
    exact isTame_of_notMem ht.2

/-- Behind a single `@` stands text that begins with something else, or nothing. -/
theorem head?_flatten_ne_at
    (h : List.Forall₂ (fun t piece => t.filled? table = some piece) ts pieces)
    (hproper : ∀ t ∈ ts, t.IsProper) (hfollow : ∀ t ∈ ts.head?, MayFollow atSign t) :
    pieces.flatten.head? ≠ some '@' := by
  cases h with
  | nil => simp
  | @cons t piece _ _ hpiece _ =>
    obtain ⟨text, rfl⟩ := hfollow t rfl
    obtain ⟨hne, hat⟩ := hproper (run text) List.mem_cons_self
    cases hpiece
    cases piece with
    | nil => exact absurd rfl hne
    | cons c piece =>
      intro hhead
      have hc : c = '@' := Option.some.inj hhead
      exact hat (hc ▸ List.mem_cons_self)

/-- Without escapes, tame values bring no delimiter into a filled text. -/
theorem not_holdsDelimiter_flatten
    (h : List.Forall₂ (fun t piece => t.filled? table = some piece) ts pieces)
    (hwell : WellFormed ts) (hescaped : escaped ∉ ts)
    (hvalues : ∀ t ∈ ts, ∀ name, t.placeholder? = some name → ∀ value,
      table.get? name = some value → IsTame value) : ¬ HoldsDelimiter pieces.flatten := by
  induction h with
  | nil => exact not_holdsDelimiter_of_notMem List.not_mem_nil
  | @cons t piece ts pieces hpiece hpieces ih =>
    obtain ⟨hproper, hfollow, htail⟩ := wellFormed_cons_iff_mayFollow.1 hwell
    obtain ⟨hvalue, hvalues⟩ := List.forall_mem_cons.1 hvalues
    obtain ⟨hne, hescaped⟩ := List.ne_and_not_mem_of_not_mem_cons hescaped
    have hrest := ih htail hescaped hvalues
    rw [List.flatten_cons]
    -- The seam matters behind a single `@` only, as no other piece ends in one.
    by_cases hat : t = atSign
    · subst hat
      cases hpiece
      have hseam := head?_flatten_ne_at hpieces htail.1 hfollow
      exact not_holdsDelimiter_append (by decide) hrest fun _ => hseam
    · obtain ⟨hpiece, hlast⟩ := isTame_of_filled? hproper hpiece (Ne.symm hne) hat hvalue
      exact not_holdsDelimiter_append hpiece hrest fun h => absurd h hlast

/-- Without entries, only an escape becomes another text, and that is shorter by two. -/
theorem length_flatten (hempty : ∀ name, table.get? name = none)
    (h : List.Forall₂ (fun t piece => t.filled? table = some piece) ts pieces) :
    pieces.flatten.length + 2 * ts.count escaped = (spellAll ts).length := by
  induction h with
  | nil => rfl
  | @cons t piece ts pieces hpiece _ ih =>
    have hvalue : ∀ name, table.get? name ≠ some piece := by
      intro name hget
      rw [hempty] at hget
      cases hget
    rw [List.flatten_cons, List.length_append, spellAll_cons, List.length_append,
      List.count_cons, ← ih]
    cases t with
    | named name => exact absurd hpiece (hvalue name)
    | braced name => exact absurd hpiece (hvalue name)
    | dangling => cases hpiece
    | escaped =>
      cases hpiece
      simp only [spelling, List.length_cons, List.length_nil, BEq.rfl, if_true]
      omega
    | atSign =>
      cases hpiece
      simp [spelling]
      omega
    | run text =>
      cases hpiece
      simp [spelling]
      omega

end

end Token

namespace Template

theorem Search.splitDelimiter?_of_not_holdsDelimiter {s : Text} (h : ¬ HoldsDelimiter s) :
    splitDelimiter? s = none := by
  induction s with
  | nil => rfl
  | cons c s ih =>
    rw [holdsDelimiter_cons_iff, not_or] at h
    rw [splitDelimiter?_cons fun hc hs => h.1 ⟨hc, hs⟩, ih h.2]
    rfl

theorem fill_of_not_holdsDelimiter {source : Text} (h : ¬ HoldsDelimiter source) (table : Table) :
    fill ⟨source⟩ table = .ok source := by
  rw [← Search.fillFrom_first_eq_iff, Search.fillFrom_eq, Search.splitDelimiter?_of_not_holdsDelimiter h]

theorem exists_pieces_of_fill {source text : Text} {table : Table}
    (h : fill ⟨source⟩ table = .ok text) :
    ∃ pieces, List.Forall₂ (fun t piece => t.filled? table = some piece)
      ((Token.lex source).map (·.token)) pieces ∧ text = pieces.flatten := by
  rw [Token.lex_eq_readFrom]
  exact Token.exists_pieces_of_fillFrom (Search.fillFrom_first_eq_iff.2 h)

theorem not_holdsDelimiter_of_fill {source text : Text} {table : Table}
    (h : fill ⟨source⟩ table = .ok text) (hescaped : ∀ t ∈ tokens ⟨source⟩, t.token ≠ .escaped)
    (hvalues : ∀ name ∈ identifiers ⟨source⟩, ∀ value, table.get? name = some value →
      IsTame value) : ¬ HoldsDelimiter text := by
  obtain ⟨pieces, hpieces, rfl⟩ := exists_pieces_of_fill h
  refine Token.not_holdsDelimiter_flatten hpieces (Token.wellFormed_lex source) ?_ ?_
  · intro hmem
    obtain ⟨t, ht, htoken⟩ := List.mem_map.1 hmem
    exact hescaped t ht htoken
  · intro token hmem name hname
    obtain ⟨t, ht, rfl⟩ := List.mem_map.1 hmem
    exact hvalues name (mem_identifiers_iff.2 ⟨t, ht, Token.placeholder?_eq_some_iff.1 hname⟩)

/-- A filled text has no delimiter left when the source has no escape and the values for its names are
tame: none of them holds a delimiter or ends in an `@`. So every table fills that text to itself. -/
theorem fill_leaves_no_delimiter {source text : Text} {table : Table}
    (h : fill ⟨source⟩ table = .ok text) (hescaped : ∀ t ∈ tokens ⟨source⟩, t.token ≠ .escaped)
    (hvalues : ∀ name ∈ identifiers ⟨source⟩, ∀ value, table.get? name = some value →
      IsTame value) :
    ¬ HoldsDelimiter text ∧ ∀ other : Table, fill ⟨text⟩ other = .ok text := by
  have hfree := not_holdsDelimiter_of_fill h hescaped hvalues
  exact ⟨hfree, fill_of_not_holdsDelimiter hfree⟩

/-- Single `@` stand before text and behind an empty value, and a value that begins with one stands
behind a value. -/
theorem fill_leaves_no_delimiter_between_ats :
    ∃ table, Table.ofEntries [(['A'], []), (['B'], ['@', 'b'])] = .ok table ∧
      fill ⟨"@ @@A@@\x7bB\x7d@@A@".toList⟩ table = .ok "@ @b@".toList ∧
      ¬ HoldsDelimiter "@ @b@".toList ∧
      ∀ other : Table, fill ⟨"@ @b@".toList⟩ other = .ok "@ @b@".toList := by
  obtain ⟨table, htable⟩ : ∃ table,
    Table.ofEntries [(['A'], []), (['B'], ['@', 'b'])] = .ok table := ⟨_, rfl⟩
  have hfill : fill ⟨"@ @@A@@\x7bB\x7d@@A@".toList⟩ table = .ok "@ @b@".toList := by
    cases htable
    decide +kernel
  have hescaped : ∀ t ∈ tokens ⟨"@ @@A@@\x7bB\x7d@@A@".toList⟩, t.token ≠ .escaped := by
    decide +kernel
  have hvalues : ∀ name ∈ identifiers ⟨"@ @@A@@\x7bB\x7d@@A@".toList⟩, ∀ value,
      table.get? name = some value → IsTame value := by
    have hnames : identifiers ⟨"@ @@A@@\x7bB\x7d@@A@".toList⟩ = [['A'], ['B']] := by
      decide +kernel
    rw [hnames]
    cases htable
    rintro name hname value hvalue
    rcases List.mem_pair.1 hname with rfl | rfl
    · cases hvalue
      decide
    · cases hvalue
      decide
  exact ⟨table, htable, hfill, fill_leaves_no_delimiter hfill hescaped hvalues⟩

/-- Without entries, a text that is filled to itself holds no delimiter: the escapes would make it
shorter. -/
theorem not_holdsDelimiter_of_fill_eq_self {source : Text} {table : Table} (hempty : table.isEmpty)
    (h : fill ⟨source⟩ table = .ok source) : ¬ HoldsDelimiter source := by
  have hnone := Table.get?_of_isEmpty hempty
  obtain ⟨pieces, hpieces, hflatten⟩ := exists_pieces_of_fill h
  have hlength := Token.length_flatten hnone hpieces
  rw [← hflatten, Token.spellAll_lex] at hlength
  -- Source and filled text are equally long, which leaves no room for an escape.
  have hcount : ((Token.lex source).map (·.token)).count .escaped = 0 := by omega
  have hescaped := List.count_eq_zero.1 hcount
  refine not_holdsDelimiter_of_fill h ?_ ?_
  · intro t ht htoken
    exact hescaped (List.mem_map.2 ⟨t, ht, htoken⟩)
  · intro name _ value hvalue
    rw [hnone] at hvalue
    cases hvalue

/-- The literal templates are those without a delimiter. Every table copies them, a table without
entries copies no other template, and so they are the templates that every table copies. -/
theorem fill_eq_self_iff (source : Text) :
    (¬ HoldsDelimiter source → ∀ table : Table, fill ⟨source⟩ table = .ok source) ∧
    (HoldsDelimiter source →
      ∀ table : Table, table.isEmpty → fill ⟨source⟩ table ≠ .ok source) ∧
    ((∀ table : Table, fill ⟨source⟩ table = .ok source) ↔ ¬ HoldsDelimiter source) := by
  refine ⟨fill_of_not_holdsDelimiter, ?_, ?_, fill_of_not_holdsDelimiter⟩
  · intro hholds table hempty hfill
    exact not_holdsDelimiter_of_fill_eq_self hempty hfill hholds
  · intro hcopies
    have hempty : Table.empty.isEmpty := rfl
    exact not_holdsDelimiter_of_fill_eq_self hempty (hcopies .empty)

/-- Single `@` are copied at both ends of a text; of five in a row four are an escape. -/
theorem fill_eq_self_iff_of_ats :
    (¬ HoldsDelimiter "@é@".toList ∧ ∀ table : Table, fill ⟨"@é@".toList⟩ table = .ok "@é@".toList) ∧
      HoldsDelimiter "@@@@@".toList ∧ Table.empty.isEmpty ∧
      fill ⟨"@@@@@".toList⟩ Table.empty ≠ .ok "@@@@@".toList := by
  have hfree : ¬ HoldsDelimiter "@é@".toList := by decide
  have hholds : HoldsDelimiter "@@@@@".toList := by decide
  have hempty : Table.empty.isEmpty := rfl
  exact ⟨⟨hfree, (fill_eq_self_iff _).1 hfree⟩, hholds, hempty,
    (fill_eq_self_iff _).2.1 hholds .empty hempty⟩

end Template

end Stencil
