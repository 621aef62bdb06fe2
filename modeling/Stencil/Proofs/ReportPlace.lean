import Stencil.Proofs.Problems
import Stencil.Proofs.SourceLines
import Stencil.Proofs.Underlining

/-!
# Whether a report points at its error

A report takes the bytes of a span for characters and breaks lines by a rule of its own. Neither shows
as long as every character before the error takes one byte and every line before it ends with a newline,
and one of them shows as soon as that fails: a line end that is no newline puts the report in a later
line, and a character of several bytes puts it in a later column or behind that.
-/

namespace Stencil

theorem length_le_byteLength (s : Text) : s.length ≤ byteLength s := by
  induction s with
  | nil => exact Nat.le_refl 0
  | cons c s ih =>
    have hc := c.utf8Size_pos
    rw [List.length_cons, byteLength_cons]
    omega

theorem byteLength_eq_length_iff (s : Text) :
    byteLength s = s.length ↔ ∀ c ∈ s, c.utf8Size = 1 := by
  induction s with
  | nil => simp
  | cons c s ih =>
    have hc := c.utf8Size_pos
    have hs := length_le_byteLength s
    rw [List.forall_mem_cons, ← ih, List.length_cons, byteLength_cons]
    omega

/-- Whether a character is one of ASCII that can be seen. -/
def IsVisible (c : Char) : Prop := 0x20 < c.toNat ∧ c.toNat < 0x7F

theorem isVisible_of_isNamePart {c : Char} (h : isNamePart c) : IsVisible c := by
  have hranges : ((decide (65 ≤ c.val ∧ c.val ≤ 90) || (97 ≤ c.val && c.val ≤ 122)) ||
      (48 ≤ c.val && c.val ≤ 57) || c == '_') = true := h
  simp only [Bool.or_eq_true, Bool.and_eq_true, decide_eq_true_eq, beq_iff_eq,
    UInt32.le_iff_toNat_le] at hranges
  change (((65 ≤ c.toNat ∧ c.toNat ≤ 90) ∨ (97 ≤ c.toNat ∧ c.toNat ≤ 122)) ∨
    (48 ≤ c.toNat ∧ c.toNat ≤ 57)) ∨ c = '_' at hranges
  rcases hranges with h | rfl
  · rw [IsVisible]
    omega
  · rw [IsVisible]
    decide

theorem utf8Size_of_isVisible {c : Char} (h : IsVisible c) : c.utf8Size = 1 := by
  refine Char.utf8Size_eq_one_iff.2 (UInt32.le_iff_toNat_le.2 ?_)
  exact Nat.le_of_lt_succ (Nat.lt_trans h.2 (by decide))

theorem not_isBlank_of_isVisible {c : Char} (h : IsVisible c) : ¬ isBlank c := by
  obtain ⟨hlow, hhigh⟩ := h
  intro hblank
  simp only [isBlank, inRanges, blankRanges, List.any_cons, List.any_nil, Bool.or_eq_true,
    Bool.and_eq_true, decide_eq_true_eq, Bool.false_eq_true, or_false] at hblank
  omega

theorem isBlank_of_isLineEnd {c : Char} (h : isLineEnd c) : isBlank c := by
  simp only [isLineEnd, Bool.or_eq_true, decide_eq_true_eq] at h
  rcases h with (((((rfl | rfl) | rfl) | rfl) | rfl) | rfl) | rfl <;> decide

theorem isNarrow_of_isVisible {c : Char} (h : IsVisible c) : Report.IsNarrow c := by
  refine ⟨not_isBlank_of_isVisible h, ?_⟩
  rw [charWidth, if_pos (Nat.lt_trans h.2 (by decide))]

/-- A control character does not stand in a text without control characters. -/
theorem notMem_of_control {c : Char} (hc : c.toNat < 0x20) {s : Text}
    (hs : s.all (fun d => 0x20 ≤ d.toNat) = true) : c ∉ s := by
  intro hmem
  have hle : 0x20 ≤ c.toNat := of_decide_eq_true (List.all_eq_true.1 hs c hmem)
  exact absurd hle (Nat.not_le_of_lt hc)

theorem notMem_decimal_of_control {c : Char} (hc : c.toNat < 0x20) (n : Nat) : c ∉ decimal n := by
  apply notMem_of_control hc
  rw [List.all_eq_true]
  intro d hd
  have hdigit : d.isDigit := Nat.isDigit_of_mem_toDigits (by decide) (by decide) hd
  exact decide_eq_true (Nat.le_trans (by decide) (Char.isDigit_iff_toNat.1 hdigit).1)

/-- Whether a text has a byte for each of its characters and a newline for each of its lines. -/
structure Aligned (s : Text) : Prop where
  utf8Size_eq_one : ∀ c ∈ s, c.utf8Size = 1
  onlyNewlines : SourceLine.OnlyNewlines s

namespace TemplateError

open Report (statedPosition? underlined?)

/-- Where an error stands in its source, on a stretch of characters that can be seen. Its message takes
up a single row. -/
structure StandsOn (e : TemplateError) (source before stretch after : Text) : Prop where
  source_eq : source = before ++ stretch ++ after
  span_eq : e.span = ⟨byteLength before, byteLength before + byteLength stretch⟩
  ne_nil : stretch ≠ []
  isVisible : ∀ c ∈ stretch, IsVisible c
  newline_notMem : '\n' ∉ e.message

theorem isVisible_of_isIdentifier {name : Text} (h : isIdentifier name) : ∀ c ∈ name, IsVisible c :=
  fun c hc => isVisible_of_isNamePart (Token.isNamePart_of_mem h c hc)

theorem newline_notMem_of_isVisible {s : Text} (h : ∀ c ∈ s, IsVisible c) : '\n' ∉ s := by
  intro hmem
  exact absurd (h _ hmem).1 (by decide)

theorem isVisible_spelling {t : Token} (ht : t.IsProper) {name : Text}
    (hname : t = .named name ∨ t = .braced name) :
    (∀ c ∈ t.spelling, IsVisible c) ∧ ∀ c ∈ name, IsVisible c := by
  have hat : IsVisible '@' := by rw [IsVisible]; decide
  have hopen : IsVisible '{' := by rw [IsVisible]; decide
  have hclose : IsVisible '}' := by rw [IsVisible]; decide
  rcases hname with rfl | rfl
  · have hvisible := isVisible_of_isIdentifier ht
    refine ⟨?_, hvisible⟩
    intro c hc
    simp only [Token.spelling, List.mem_cons] at hc
    rcases hc with rfl | rfl | hc
    · exact hat
    · exact hat
    · exact hvisible c hc
  · have hvisible := isVisible_of_isIdentifier ht
    refine ⟨?_, hvisible⟩
    intro c hc
    simp only [Token.spelling, List.mem_cons, List.mem_append, List.cons_append, List.not_mem_nil,
      or_false] at hc
    rcases hc with rfl | rfl | rfl | hc | rfl
    · exact hat
    · exact hat
    · exact hopen
    · exact hvisible c hc
    · exact hclose

/-- A message has no control characters but those of the name in it. -/
theorem notMem_message_invalid {c : Char} (hc : c.toNat < 0x20) (span : Span) (p : Position) :
    c ∉ (invalid span p).message := by
  have hline : c ∉ "invalid placeholder in template: line ".toList :=
    notMem_of_control hc (by decide)
  have hcolumn : c ∉ ", column ".toList := notMem_of_control hc (by decide)
  change c ∉ "invalid placeholder in template: line ".toList ++ decimal p.line ++
    ", column ".toList ++ decimal p.column
  simp only [List.mem_append, not_or]
  exact ⟨⟨⟨hline, notMem_decimal_of_control hc _⟩, hcolumn⟩, notMem_decimal_of_control hc _⟩

theorem notMem_message_undefined {c : Char} (hc : c.toNat < 0x20) {name : Text} (hname : c ∉ name)
    (span : Span) (suggestions : List Text) :
    c ∉ (undefined name span suggestions).message := by
  have hopen : c ∉ "undefined placeholder '".toList := notMem_of_control hc (by decide)
  have hclose : c ∉ ['\''] := notMem_of_control hc (by decide)
  change c ∉ "undefined placeholder '".toList ++ name ++ ['\'']
  simp only [List.mem_append, not_or]
  exact ⟨⟨hopen, hname⟩, hclose⟩

/-- Every error of a filling stands on its token, and a position in it is that of the token. -/
theorem exists_standsOn {source : Text} {table : Table} {e : TemplateError}
    (he : e ∈ Template.problems ⟨source⟩ table) :
    ∃ before stretch after, e.StandsOn source before stretch after ∧
      ∀ span p, e = .invalid span p → p = Position.first.advance before := by
  obtain ⟨before, token, after, hsource, hproper, hfill⟩ := Template.mem_problems he
  have hspan := Template.span_of_fill_eq_error hfill
  have hne := Token.spelling_ne_nil hproper
  refine ⟨before, token.spelling, after, ?_, ?_⟩
  · rcases Token.Placed.fill_eq_error_iff.1 hfill with ⟨htoken, rfl⟩ | ⟨name, htoken, -, rfl⟩
    · refine ⟨hsource, hspan, hne, ?_, notMem_message_invalid (by decide) _ _⟩
      intro c hc
      rw [show token = .dangling from htoken] at hc
      have hat : c = '@' := by simpa [Token.spelling] using hc
      rw [hat, IsVisible]
      decide
    · obtain ⟨hspelling, hname⟩ := isVisible_spelling hproper htoken
      have hmessage := notMem_message_undefined (by decide) (newline_notMem_of_isVisible hname)
      exact ⟨hsource, hspan, hne, hspelling, hmessage _ _⟩
  · rintro span p rfl
    rcases Token.Placed.fill_eq_error_iff.1 hfill with ⟨-, h⟩ | ⟨name, -, -, h⟩
    · cases h
      rfl
    · cases h

namespace StandsOn

variable {e : TemplateError} {source before stretch after : Text}
  (h : e.StandsOn source before stretch after)

include h

theorem cutAt?_start : cutAt? source e.span.start = some (before, stretch ++ after) := by
  rw [h.span_eq, h.source_eq, List.append_assoc]
  exact cutAt?_append before (stretch ++ after)

theorem ofOffset?_start :
    Position.ofOffset? source e.span.start = some (Position.first.advance before) := by
  rw [h.span_eq, h.source_eq, List.append_assoc]
  exact Position.ofOffset?_append before (stretch ++ after)

theorem slice?_span : slice? source e.span = some stretch := by
  rw [h.span_eq, h.source_eq]
  exact slice?_append before stretch after

theorem byteLength_stretch : byteLength stretch = stretch.length :=
  (byteLength_eq_length_iff stretch).2 fun c hc => utf8Size_of_isVisible (h.isVisible c hc)

theorem not_isLineEnd : ∀ c ∈ stretch, ¬ isLineEnd c := by
  intro c hc hend
  exact not_isBlank_of_isVisible (h.isVisible c hc) (isBlank_of_isLineEnd hend)

/-- The report of an error states the place of the line that its start falls into. -/
theorem statedPosition?_format_eq (file : Text) :
    statedPosition? file (e.format source file false) =
      (e.report source file).ends?.map fun ends =>
        ⟨ends.1.index + 1, e.span.start - ends.1.start + 1⟩ :=
  Report.statedPosition?_layout (e.report source file) h.newline_notMem

/-- A report that states the right position has been led astray by nothing before its error. -/
theorem aligned_of_statedPosition? (file : Text)
    (hstated : statedPosition? file (e.format source file false) =
      some (Position.first.advance before)) : Aligned before := by
  have hstart : e.span.start = byteLength before := by rw [h.span_eq]
  rw [h.statedPosition?_format_eq, Option.map_eq_some_iff] at hstated
  obtain ⟨⟨first, last⟩, hends, hposition⟩ := hstated
  have hfirst : SourceLine.at? source (byteLength before) = some first := by
    rw [← hstart]
    exact (Report.ends?_eq_some_iff.1 hends).1
  have hpos : 0 < stretch.length := List.length_pos_iff.2 h.ne_nil
  obtain ⟨more, hplace⟩ := SourceLine.at?_append h.ne_nil h.not_isLineEnd after
  rw [← h.source_eq] at hplace
  have htrue := hplace before.length (Nat.le_refl _) (by omega)
  have hline : first.index = before.count '\n' := by
    have hadvance := SourceLine.line_advance .first before
    rw [← hposition] at hadvance
    simpa [Position.first, Nat.add_comm] using hadvance
  have hcount := SourceLine.count_newline_le before
  have hlength := length_le_byteLength before
  -- In bytes the start is never before its true place, and the line of that place has at least one
  -- line end before it for each newline; so the stated line is right only for the line of that place.
  rcases SourceLine.index_lt_or_eq hlength htrue hfirst with hlt | heq
  · simp only at hlt
    omega
  · have hnewlines : SourceLine.OnlyNewlines before := by
      refine (SourceLine.count_newline_eq_iff before).1 ?_
      rw [← hline, ← heq]
    refine ⟨(byteLength_eq_length_iff before).1 ?_, hnewlines⟩
    have hcolumn : e.span.start - first.start + 1 = (SourceLine.ended before).2.length + 1 := by
      have hadvance := SourceLine.first_advance hnewlines
      rw [← hposition] at hadvance
      exact congrArg Position.column hadvance
    have hflat := congrArg List.length (SourceLine.flatten_ended before)
    rw [List.length_append] at hflat
    rw [← heq, hstart] at hcolumn
    simp only at hcolumn
    omega

/-- The stretch of a report is a stretch of the line that the text before the error begins. -/
theorem ends?_report (halign : Aligned before) (file : Text) :
    ∃ line : SourceLine, ∃ more : Text, (e.report source file).ends? = some (line, line) ∧
      line.index = (SourceLine.ended before).1.length ∧
      line.start = (SourceLine.ended before).1.flatten.length ∧
      line.text = (SourceLine.ended before).2 ++ stretch ++ more := by
  have hpos : 0 < stretch.length := List.length_pos_iff.2 h.ne_nil
  have hlength := (byteLength_eq_length_iff before).2 halign.utf8Size_eq_one
  have hstart : e.span.start = before.length := by rw [h.span_eq, hlength]
  have hstop : e.span.stop = before.length + stretch.length := by
    rw [h.span_eq, hlength, h.byteLength_stretch]
  obtain ⟨more, hplace⟩ := SourceLine.at?_append h.ne_nil h.not_isLineEnd after
  rw [← h.source_eq] at hplace
  have hfirst := hplace e.span.start (by omega) (by omega)
  have hlast := hplace (max (e.span.stop - 1) e.span.start) (by omega) (by omega)
  refine ⟨⟨_, _, (SourceLine.ended before).2 ++ stretch ++ more⟩, more, ?_, rfl, rfl, rfl⟩
  exact Report.ends?_eq_some_iff.2 ⟨hfirst, hlast⟩

theorem statedPosition?_format (halign : Aligned before) (file : Text) :
    statedPosition? file (e.format source file false) = some (Position.first.advance before) := by
  have hlength := (byteLength_eq_length_iff before).2 halign.utf8Size_eq_one
  have hflat := congrArg List.length (SourceLine.flatten_ended before)
  rw [List.length_append] at hflat
  obtain ⟨line, more, hends, hindex, hstart, -⟩ := h.ends?_report halign file
  have hcolumn : byteLength before - line.start = (SourceLine.ended before).2.length := by omega
  rw [h.statedPosition?_format_eq, hends, Option.map_some, h.span_eq, hcolumn, hindex,
    SourceLine.first_advance halign.onlyNewlines]

theorem underlined?_format (halign : Aligned before) (file : Text) :
    underlined? file (e.format source file false) = some stretch := by
  have hlength := (byteLength_eq_length_iff before).2 halign.utf8Size_eq_one
  have hflat := congrArg List.length (SourceLine.flatten_ended before)
  rw [List.length_append] at hflat
  obtain ⟨line, more, hends, -, hstart, htext⟩ := h.ends?_report halign file
  have hreportStart : (e.report source file).start =
      line.start + (SourceLine.ended before).2.length := by
    change e.span.start = _
    rw [h.span_eq, hstart, hlength, hflat]
  have hreportStop : (e.report source file).stop =
      (e.report source file).start + stretch.length := by
    change e.span.stop = e.span.start + _
    rw [h.span_eq, h.byteLength_stretch]
  have hnarrow : ∀ c ∈ stretch, Report.IsNarrow c := fun c hc =>
    isNarrow_of_isVisible (h.isVisible c hc)
  obtain ⟨rest, hshown⟩ := SourceLine.shown_append h.ne_nil (fun c hc => (hnarrow c hc).1) htext
  obtain ⟨hmarked, hmarks⟩ :=
    Report.marked_marks hreportStart hreportStop hshown h.ne_nil hnarrow
  have hstop : (e.report source file).stop ≤ line.stop := by
    rw [hreportStop, hreportStart, SourceLine.stop, htext, List.length_append, List.length_append]
    omega
  have hunderlined :=
    Report.underlined?_layout (e.report source file) h.newline_notMem hends hstop hmarks
  rw [hmarked] at hunderlined
  exact hunderlined

end StandsOn

/-- Where a report points. It states the position of its error, and underlines the token as well,
exactly when every character before the error takes one byte and every line before it ends with a
newline. A position in the message of an error is right in any case. -/
theorem report_points_iff {source : Text} {table : Table} {e : TemplateError}
    (he : e ∈ Template.problems ⟨source⟩ table) (file : Text) :
    (statedPosition? file (e.format source file false) =
        Position.ofOffset? source e.span.start ↔
      ∃ before after, cutAt? source e.span.start = some (before, after) ∧ Aligned before) ∧
    (statedPosition? file (e.format source file false) =
          Position.ofOffset? source e.span.start ∧
        underlined? file (e.format source file false) = slice? source e.span ↔
      ∃ before after, cutAt? source e.span.start = some (before, after) ∧ Aligned before) ∧
    ∀ span p, e = .invalid span p → Position.ofOffset? source span.start = some p := by
  obtain ⟨before, stretch, after, h, hposition⟩ := exists_standsOn he
  have hright : (∃ before after, cutAt? source e.span.start = some (before, after) ∧
      Aligned before) ↔ Aligned before := by
    rw [h.cutAt?_start]
    constructor
    · intro hplace
      obtain ⟨_, _, hcut, halign⟩ := hplace
      cases hcut
      exact halign
    · intro halign
      exact ⟨before, stretch ++ after, rfl, halign⟩
  rw [hright, h.ofOffset?_start, h.slice?_span]
  refine ⟨⟨h.aligned_of_statedPosition? file, fun halign => h.statedPosition?_format halign file⟩,
    ⟨fun hboth => h.aligned_of_statedPosition? file hboth.1, fun halign =>
      ⟨h.statedPosition?_format halign file, h.underlined?_format halign file⟩⟩, ?_⟩
  intro span p hinvalid
  have hspan : e.span = span := by rw [hinvalid]; rfl
  rw [hposition span p hinvalid, ← hspan]
  exact h.ofOffset?_start

/-- Behind a character of two bytes a report states the wrong column. -/
theorem report_misses_behind_two_bytes :
    invalid ⟨3, 5⟩ ⟨1, 3⟩ ∈ Template.problems ⟨['é', ' ', '@', '@']⟩ Table.empty ∧
      statedPosition? ['f'] ((invalid ⟨3, 5⟩ ⟨1, 3⟩).format ['é', ' ', '@', '@'] ['f'] false) ≠
        Position.ofOffset? ['é', ' ', '@', '@'] 3 := by
  have he : invalid ⟨3, 5⟩ ⟨1, 3⟩ ∈ Template.problems ⟨['é', ' ', '@', '@']⟩ Table.empty := by
    decide +kernel
  refine ⟨he, ?_⟩
  intro hstated
  obtain ⟨before, after, hcut, halign⟩ := (report_points_iff he ['f']).1.1 hstated
  have hbefore : cutAt? ['é', ' ', '@', '@'] 3 = some (['é', ' '], ['@', '@']) := by decide
  rw [show (invalid ⟨3, 5⟩ ⟨1, 3⟩).span.start = 3 from rfl, hbefore] at hcut
  cases hcut
  exact absurd (halign.utf8Size_eq_one 'é' List.mem_cons_self) (by decide)

end TemplateError

end Stencil
