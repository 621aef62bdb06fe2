import Mathlib.Algebra.Group.Nat.Even
import Mathlib.Data.List.DropRight
import Stencil.Proofs.Joining
import Stencil.Proofs.ReplacementTexts

/-!
# Templates written from segments

Literal text and placeholders can be written as a template that is filled back to the text and the
values. Escaped text is read delimiter by delimiter, as it was written; only an `@` that is left over
at its end could make a delimiter with what follows. So the text may have any form at the end of a
template, and has to end in an even number of `@` before a placeholder.
-/

namespace Stencil

namespace Segment

/-- The number of `@` at the end of a text. -/
def trailingAts (s : Text) : Nat := (s.rtakeWhile (· == '@')).length

/-- Whether the second segment may be written right behind the first one. -/
def MayPrecede : Segment → Segment → Prop
  | literal _, literal _ => False
  | literal text, placeholder _ => Even (trailingAts text)
  | placeholder _, _ => True

theorem trailingAts_le_length (s : Text) : trailingAts s ≤ s.length :=
  (List.rtakeWhile_suffix (· == '@') s).length_le

/-- A character in front counts when it is an `@` and nothing else follows. -/
theorem trailingAts_cons (c : Char) (s : Text) :
    trailingAts (c :: s) = trailingAts s + if trailingAts s = s.length ∧ c = '@' then 1 else 0 := by
  simp only [trailingAts, List.rtakeWhile, List.length_reverse, List.reverse_cons,
    List.takeWhile_append]
  by_cases hall : ((s.reverse).takeWhile (· == '@')).length = s.length
  · by_cases hc : c = '@' <;> simp [hall, hc]
  · simp [hall]

/-- The second text is the first one escaped, with `rest` behind it, read token by token; only
characters other than `@` are taken one at a time. -/
inductive Escapes (rest : Text) : Text → Text → Prop
  | done : Escapes rest [] rest
  | token {u : Token} {text s t : Text} (stands : ofToken? u = some (literal text))
      (proper : u.IsProper) (ends : u.Ends t) (escapes : Escapes rest s t) :
      Escapes rest (text ++ s) (u.spelling ++ t)
  | char {c : Char} {s t : Text} (plain : c ≠ '@') (escapes : Escapes rest s t) :
      Escapes rest (c :: s) (c :: t)

theorem head?_escape (s : Text) : (escape s).head? = s.head? := by
  fun_cases escape s <;> simp

/-- Two `@` more or less at the front do not change whether a text ends in an even number of them. -/
theorem even_trailingAts_delimiter (s : Text) :
    Even (trailingAts ('@' :: '@' :: s)) ↔ Even (trailingAts s) := by
  have hle := trailingAts_le_length s
  have hcount : trailingAts ('@' :: '@' :: s) = trailingAts s ∨
      trailingAts ('@' :: '@' :: s) = trailingAts s + 2 := by
    simp only [trailingAts_cons, List.length_cons, and_true]
    split_ifs <;> omega
  simp only [Nat.even_iff]
  omega

theorem trailingAts_cons_of_ne {c : Char} (hc : c ≠ '@') (s : Text) :
    trailingAts (c :: s) = trailingAts s := by
  simp [trailingAts_cons, hc]

theorem trailingAts_at {s : Text} (hs : s ≠ []) (h : s.head? ≠ some '@') :
    trailingAts ('@' :: s) = trailingAts s := by
  cases s with
  | nil => exact absurd rfl hs
  | cons c s =>
    have hc : c ≠ '@' := by simpa using h
    have hle := trailingAts_le_length s
    rw [trailingAts_cons, trailingAts_cons_of_ne hc, List.length_cons, if_neg (by omega), Nat.add_zero]

/-- What begins with `@` joins with no `@` that is left over when the text ends in an even number of
them. -/
theorem escapes_of_even {rest : Text} (s : Text)
    (h : rest.head? = some '@' → Even (trailingAts s)) : Escapes rest s (escape s ++ rest) := by
  fun_induction escape s with
  | case1 s ih =>
    have htail := ih fun hrest => (even_trailingAts_delimiter s).1 (h hrest)
    exact .token (u := .escaped) rfl trivial trivial htail
  | case2 c s hpair ih =>
    by_cases hc : c = '@'
    · subst hc
      have hhead : s.head? ≠ some '@' := by
        intro hat
        obtain ⟨tail, rfl⟩ := List.head?_eq_some_iff.1 hat
        exact hpair tail rfl rfl
      by_cases hs : s = []
      · subst hs
        have hends : Token.atSign.Ends rest := fun hat => absurd (h hat) (by decide)
        exact .token (u := .atSign) rfl trivial hends .done
      · have hends : Token.atSign.Ends (escape s ++ rest) := by
          rw [Token.Ends, List.head?_append, head?_escape]
          cases s with
          | nil => exact absurd rfl hs
          | cons d s => simpa using hhead
        exact .token (u := .atSign) rfl trivial hends
          (ih fun hrest => trailingAts_at hs hhead ▸ h hrest)
    · exact .char hc (ih fun hrest => trailingAts_cons_of_ne hc s ▸ h hrest)
  | case3 => exact .done

end Segment

namespace Template.Search

open Segment (Escapes)

/-- Escaped text is filled to the text that was escaped. -/
theorem fillFrom_of_escapes {rest s t : Text} (h : Escapes rest s t) (table : Table) (offset : Nat)
    (p : Position) :
    ∃ stop q, fillFrom table offset p t = put (.ok s) (fillFrom table stop q rest) := by
  induction h generalizing offset p with
  | done => exact ⟨offset, p, rfl⟩
  | @token u text s t stands proper ends _ ih =>
    obtain ⟨stop, q, htail⟩ := ih (offset + u.width) (p.advance u.spelling)
    have hfill : Token.Placed.fill table p ⟨u, offset, offset + u.width⟩ = .ok text :=
      Token.Placed.fill_of_filled? stands rfl p
    exact ⟨stop, q, by rw [fillFrom_spelling_append proper ends, hfill, htail, put_ok_append]⟩
  | @char c s t plain _ ih =>
    obtain ⟨stop, q, htail⟩ := ih (offset + byteLength [c]) (p.advance [c])
    have hsplit := splitDelimiter?_append_of_notMem (s := [c]) (by simpa using plain.symm) t
    refine ⟨stop, q, ?_⟩
    rw [← List.singleton_append, fillFrom_append_of_split hsplit, htail, ← put_ok_append]
    rfl

end Template.Search

namespace Token

open Segment (Escapes)

/-- Escaped text has no placeholders, and no delimiter of it dangles. -/
theorem marks_of_escapes {rest s t : Text} (h : Escapes rest s t) :
    (marks 0 t).filterMap (·.placeholder?) = (marks 0 rest).filterMap (·.placeholder?) ∧
      (marks 0 t).all (· != .dangling) = (marks 0 rest).all (· != .dangling) := by
  induction h with
  | done => exact ⟨rfl, rfl⟩
  | @token u text s t stands proper ends _ ih =>
    rw [marks_spelling_append proper ends, marks_start, List.filterMap_append, List.all_append,
      ih.1, ih.2]
    cases u with
    | named name => cases stands
    | braced name => cases stands
    | dangling => cases stands
    | _ => exact ⟨rfl, rfl⟩
  | @char c s t plain _ ih =>
    have hplain : '@' ∉ [c] := by simpa using plain.symm
    rw [← List.singleton_append, marks_run_append hplain]
    exact ih

end Token

namespace Segment

variable {segment : Segment} {segments : List Segment}

/-- Text that stands before other segments leaves no `@` over that could join with them. -/
theorem even_of_isChain {text : Text} (h : (literal text :: segments).IsChain MayPrecede)
    (hat : (segments.flatMap written).head? = some '@') : Even (trailingAts text) := by
  cases segments with
  | nil => cases hat
  | cons segment segments =>
    have hnext := (List.isChain_cons_cons.1 h).1
    cases segment with
    | literal _ => exact False.elim hnext
    | placeholder _ => exact hnext

theorem escapes_written {text : Text} (h : (literal text :: segments).IsChain MayPrecede) :
    Escapes (segments.flatMap written) text ((literal text :: segments).flatMap written) := by
  rw [List.flatMap_cons]
  exact escapes_of_even text (even_of_isChain h)

/-- Segments are filled one after the other. -/
theorem fillFrom_flatMap_written {table : Table} {pieces : List Text}
    (hchain : segments.IsChain MayPrecede)
    (hnames : ∀ name ∈ segments.filterMap name?, isIdentifier name = true)
    (hpieces : segments.mapM (filled? table.get?) = some pieces) (offset : Nat) (p : Position) :
    Template.Search.fillFrom table offset p (segments.flatMap written) = (pieces.flatten, []) := by
  induction segments generalizing pieces offset p with
  | nil =>
    cases hpieces
    rw [Template.Search.fillFrom_eq]
    rfl
  | cons segment segments ih =>
    rw [List.mapM_cons] at hpieces
    obtain ⟨piece, hpiece, hpieces⟩ := Option.bind_eq_some_iff.1 hpieces
    obtain ⟨pieces, hrest, hpieces⟩ := Option.bind_eq_some_iff.1 hpieces
    cases hpieces
    have htail := @ih pieces hchain.of_cons
    cases segment with
    | literal text =>
      cases hpiece
      obtain ⟨stop, q, hfill⟩ :=
        Template.Search.fillFrom_of_escapes (escapes_written hchain) table offset p
      rw [hfill, htail hnames hrest]
      rfl
    | placeholder name =>
      obtain ⟨hname, hnames⟩ := List.forall_mem_cons.1 hnames
      have hproper : (Token.braced name).IsProper := hname
      have hfill : Token.Placed.fill table p
          ⟨.braced name, offset, offset + (Token.braced name).width⟩ = .ok piece :=
        Token.Placed.fill_of_filled? rfl hpiece p
      rw [List.flatMap_cons, written, Template.Search.fillFrom_spelling_append hproper trivial, hfill,
        htail hnames hrest]
      rfl

/-- The placeholders of written segments are theirs, and no delimiter of them dangles. -/
theorem marks_flatMap_written (hchain : segments.IsChain MayPrecede)
    (hnames : ∀ name ∈ segments.filterMap name?, isIdentifier name = true) :
    (Token.marks 0 (segments.flatMap written)).filterMap (·.placeholder?) =
        segments.filterMap name? ∧
      (Token.marks 0 (segments.flatMap written)).all (· != .dangling) = true := by
  induction segments with
  | nil => simp [Token.marks]
  | cons segment segments ih =>
    cases segment with
    | literal text =>
      obtain ⟨hplaceholders, hdangling⟩ := Token.marks_of_escapes (escapes_written hchain)
      rw [hplaceholders, hdangling]
      exact ih hchain.of_cons hnames
    | placeholder name =>
      obtain ⟨hname, hnames⟩ := List.forall_mem_cons.1 hnames
      have hproper : (Token.braced name).IsProper := hname
      obtain ⟨hplaceholders, hdangling⟩ := ih hchain.of_cons hnames
      rw [List.flatMap_cons, written, Token.marks_spelling_append hproper trivial, Token.marks_start,
        List.filterMap_append, List.all_append, hplaceholders, hdangling]
      exact ⟨rfl, rfl⟩

end Segment

namespace Template

open Segment (MayPrecede filled? name? escape)

/-- Every document of literal text and placeholders can be written as a template, as long as no two
texts are neighbours and none before a placeholder ends in an odd number of `@`. The template is well
formed, has the names of the document, and is filled to the texts and the values by every table that has
those names. Every text at all is what its escaped form is filled to. -/
theorem fill_ofSegments :
    (∀ segments : List Segment, segments.IsChain MayPrecede →
      (∀ name ∈ segments.filterMap name?, isIdentifier name = true) →
        (ofSegments segments).isWellFormed = true ∧
        (ofSegments segments).identifiers = (segments.filterMap name?).eraseDups ∧
        ∀ table : Table, (∀ name ∈ segments.filterMap name?, table.contains name = true) →
          ∃ pieces, segments.mapM (filled? table.get?) = some pieces ∧
            (ofSegments segments).fill table = .ok pieces.flatten) ∧
    ∀ (text : Text) (table : Table), fill ⟨escape text⟩ table = .ok text := by
  constructor
  · intro segments hchain hnames
    obtain ⟨hplaceholders, hdangling⟩ := Segment.marks_flatMap_written hchain hnames
    refine ⟨?_, ?_, ?_⟩
    · rw [ofSegments, isWellFormed_eq_marks, hdangling]
    · rw [ofSegments, identifiers_eq_marks, hplaceholders]
    · intro table hcontains
      obtain ⟨pieces, hpieces⟩ := exists_mapM_eq_some fun segment hsegment =>
        Table.exists_filled? fun name hname =>
          hcontains name (List.mem_filterMap.2 ⟨segment, hsegment, hname⟩)
      have hwritten := Segment.fillFrom_flatMap_written hchain hnames hpieces 0 .first
      exact ⟨pieces, hpieces, Search.fillFrom_first_eq_iff.1 hwritten⟩
  · intro text table
    have hpieces : [Segment.literal text].mapM (filled? table.get?) = some [text] := rfl
    have hwritten := Segment.fillFrom_flatMap_written (.singleton (.literal text))
      (by simp [name?]) hpieces 0 .first
    rw [List.flatMap_cons, List.flatMap_nil, List.append_nil, List.flatten_singleton] at hwritten
    exact Search.fillFrom_first_eq_iff.1 hwritten

/-- An even number of `@` before a placeholder, and an odd number behind it. -/
theorem fill_ofSegments_between_ats :
    let segments : List Segment :=
      [.literal ['x', '@', '@'], .placeholder ['A'], .literal ['@', '@', '@']]
    segments.IsChain MayPrecede ∧
      ofSegments segments = ⟨"x@@@@@@\x7bA\x7d@@@@@".toList⟩ ∧
      (ofSegments segments).identifiers = [['A']] ∧
      ∃ table, Table.ofEntries [(['A'], ['@'])] = .ok table ∧
        (ofSegments segments).fill table = .ok "x@@@@@@".toList := by
  intro segments
  have hchain : segments.IsChain MayPrecede := by
    refine .cons_cons ?_ (.cons_cons trivial (.singleton _))
    rw [MayPrecede]
    decide
  have hnames : ∀ name ∈ segments.filterMap name?, isIdentifier name = true := by decide
  obtain ⟨-, hidentifiers, hfill⟩ := fill_ofSegments.1 segments hchain hnames
  obtain ⟨table, htable⟩ : ∃ table, Table.ofEntries [(['A'], ['@'])] = .ok table := ⟨_, rfl⟩
  obtain ⟨pieces, hpieces, hfill⟩ := hfill table fun name hname => by
    rw [Table.contains_of_ofEntries htable]
    exact List.contains_iff_mem.2 hname
  refine ⟨hchain, by decide, by rw [hidentifiers]; decide, table, htable, ?_⟩
  rw [hfill]
  have htexts : pieces = [['x', '@', '@'], ['@'], ['@', '@', '@']] := by
    cases htable
    cases hpieces
    decide +kernel
  rw [htexts]
  rfl

end Template

end Stencil
