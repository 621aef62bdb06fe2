import Stencil.Proofs.ReportReading

/-!
# Lines and the marks below them

A line of the source is drawn character by character, and the row of marks below it cell by cell, where
a cell is as wide as its character. So a line that is cut into a front, a stretch and a rest has a row
of marks that is cut at the same columns: blanks below the front, marks below the stretch, blanks below
the rest. Of the rest this holds whatever its widths are.
-/

namespace Stencil

namespace SourceLine

/-- A line is shown up to the end of a stretch without blanks at least. -/
theorem shown_append {l : SourceLine} {left stretch more : Text} (hne : stretch ≠ [])
    (hstretch : ∀ c ∈ stretch, ¬ isBlank c) (htext : l.text = left ++ stretch ++ more) :
    ∃ rest, l.shown = left ++ stretch ++ rest := by
  obtain ⟨init, c, rfl⟩ := (List.eq_nil_or_concat' stretch).resolve_left hne
  have hc : isBlank c = false := by simpa using hstretch c (by simp)
  have hreverse : l.text.reverse = more.reverse ++ c :: (left ++ init).reverse := by simp [htext]
  have hdrop : (c :: (left ++ init).reverse).dropWhile isBlank = c :: (left ++ init).reverse :=
    List.dropWhile_cons_of_neg (by simp [hc])
  rw [shown, hreverse, List.dropWhile_append, hdrop]
  split
  · exact ⟨[], by simp⟩
  · exact ⟨(more.reverse.dropWhile isBlank).reverse, by simp⟩

theorem zipIdx_map_zipIdx (s : Text) (f : Char × Nat → Nat) (i : Nat) :
    ((s.zipIdx i).map f).zipIdx i = (s.zipIdx i).map fun p => (f p, p.2) := by
  induction s generalizing i with
  | nil => rfl
  | cons c s ih => simp only [List.zipIdx_cons, List.map_cons, ih]

/-- The widths of a line begin with those of the characters at its front. -/
theorem zipIdx_widths {l : SourceLine} {s rest : Text} (hshown : l.shown = s ++ rest) {n : Nat}
    (hn : s.length ≤ n) :
    ∃ ws : List Nat, (l.widths n).zipIdx =
      (s.zipIdx.map fun p => (columns p.1 p.2, p.2)) ++ ws.zipIdx s.length := by
  have hlength : (s.zipIdx.map fun p => columns p.1 p.2).length = s.length := by simp
  have hknown : ((l.shown.zipIdx.map fun p => columns p.1 p.2).take n) =
      (s.zipIdx.map fun p => columns p.1 p.2) ++
        ((rest.zipIdx s.length).map fun p => columns p.1 p.2).take (n - s.length) := by
    rw [hshown, List.zipIdx_append, List.map_append, List.take_append, hlength, Nat.zero_add,
      List.take_of_length_le (by rw [hlength]; exact hn)]
  refine ⟨((rest.zipIdx s.length).map fun p => columns p.1 p.2).take (n - s.length) ++
    List.replicate (n - ((l.shown.zipIdx.map fun p => columns p.1 p.2).take n).length) 1, ?_⟩
  change (((l.shown.zipIdx.map fun p : Char × Nat => columns p.1 p.2).take n) ++
    List.replicate _ 1).zipIdx = _
  rw [hknown, List.append_assoc, List.zipIdx_append, zipIdx_map_zipIdx, hlength, Nat.zero_add]

end SourceLine

namespace Report

open Piece (renderAll cell)

/-- What is drawn for a character of a line. -/
def drawn (c : Char) (i : Nat) : Text :=
  if isBlank c then List.replicate (SourceLine.columns c i) ' ' else [c]

theorem renderAll_sourceText (r : Report) (line : SourceLine) :
    renderAll false (r.sourceText line) = line.shown.zipIdx.flatMap fun p => drawn p.1 p.2 := by
  rw [sourceText, Piece.renderAll_flatMap]
  congr 1
  funext p
  simp only [drawn]
  split
  · rw [Piece.renderAll_false_replicate, List.flatten_replicate_singleton]
  · rw [Piece.renderAll_false_cons]
    rfl

theorem newline_notMem_drawn (s : Text) (i : Nat) :
    '\n' ∉ (s.zipIdx i).flatMap fun p => drawn p.1 p.2 := by
  intro h
  obtain ⟨⟨c, j⟩, -, hc⟩ := List.mem_flatMap.1 h
  simp only [drawn] at hc
  split at hc
  · exact absurd (List.eq_of_mem_replicate hc) (by decide)
  · next hblank =>
    rw [← List.mem_singleton.1 hc] at hblank
    exact hblank (by decide)

/-- The row of marks below a line. -/
def marks (r : Report) (line : SourceLine) : Text :=
  renderAll false (cells line (r.stop - line.start + 2) (r.drawnMark line))

theorem renderAll_cell_blank (ink : Ink) (n : Nat) :
    renderAll false (cell ink ' ' ' ' n) = List.replicate n ' ' := by
  rw [Piece.renderAll_false_cell]
  cases n with
  | zero => rfl
  | succ n => rfl

theorem drawnMark_of_not_covers {r : Report} {line : SourceLine} {i : Nat}
    (hcovers : r.covers (line.start + i) = false) (hmiddle : i ≠ r.middle line) (n : Nat) :
    renderAll false (r.drawnMark line i n) = List.replicate n ' ' := by
  simp only [drawnMark, hcovers, hmiddle, Bool.false_eq_true, if_false]
  exact renderAll_cell_blank .plain n

theorem drawnMark_of_covers {r : Report} {line : SourceLine} {i : Nat}
    (hcovers : r.covers (line.start + i) = true) :
    ∃ mark, isMark mark ∧ renderAll false (r.drawnMark line i 1) = [mark] := by
  simp only [drawnMark, hcovers, if_true]
  split
  · exact ⟨'┬', by decide, rfl⟩
  · exact ⟨'─', by decide, rfl⟩

/-- Whether a character is drawn as it is, in one column. -/
def IsNarrow (c : Char) : Prop := ¬ isBlank c ∧ charWidth c = 1

theorem columns_of_isNarrow {c : Char} (hc : IsNarrow c) (i : Nat) : SourceLine.columns c i = 1 := by
  have htab : c ≠ '\t' := by
    rintro rfl
    exact hc.1 (by decide)
  rw [SourceLine.columns, if_neg htab, if_neg hc.1, hc.2]

theorem flatMap_drawn_of_isNarrow {s : Text} (hs : ∀ c ∈ s, IsNarrow c) (i : Nat) :
    ((s.zipIdx i).flatMap fun p => drawn p.1 p.2) = s := by
  induction s generalizing i with
  | nil => rfl
  | cons c s ih =>
    obtain ⟨hc, hs⟩ := List.forall_mem_cons.1 hs
    rw [List.zipIdx_cons, List.flatMap_cons, ih hs, drawn, if_neg hc.1]
    rfl

/-- Reading goes on behind a part of a line that has blanks below it. -/
theorem marked_drawn_append (s : Text) (i : Nat) (row marks : Text) :
    marked (((s.zipIdx i).flatMap fun p => drawn p.1 p.2) ++ row)
      (((s.zipIdx i).flatMap fun p => List.replicate (SourceLine.columns p.1 p.2) ' ') ++ marks) =
      marked row marks := by
  induction s generalizing i with
  | nil => rfl
  | cons c s ih =>
    rw [List.zipIdx_cons, List.flatMap_cons, List.flatMap_cons, List.append_assoc,
      List.append_assoc, ← ih (i + 1)]
    simp only [drawn]
    split
    · exact marked_replicate_append _ _ _
    · next hblank =>
      have htab : c ≠ '\t' := by
        rintro rfl
        exact hblank (by decide)
      rw [SourceLine.columns, if_neg htab, if_neg hblank]
      exact marked_cons_of_blank _ _

/-- The cells of a line, cut where a stretch at its front ends. -/
theorem renderAll_cells {line : SourceLine} {s rest : Text} (hshown : line.shown = s ++ rest) {n : Nat}
    (hn : s.length ≤ n) (draw : Nat → Nat → List Piece) :
    ∃ ws : List Nat, renderAll false (cells line n draw) =
      (s.zipIdx.flatMap fun p => renderAll false (draw p.2 (SourceLine.columns p.1 p.2))) ++
        (ws.zipIdx s.length).flatMap fun p => renderAll false (draw p.2 p.1) := by
  obtain ⟨ws, hws⟩ := SourceLine.zipIdx_widths hshown hn
  refine ⟨ws, ?_⟩
  rw [cells, Piece.renderAll_flatMap, hws, List.flatMap_append, List.flatMap_map]

/-- Below a stretch of narrow characters that is covered there is one mark for each of them. -/
theorem exists_marks_of_covers {r : Report} {line : SourceLine} {token : Text}
    (htoken : ∀ c ∈ token, IsNarrow c) {i : Nat}
    (hcovers : ∀ j, i ≤ j → j < i + token.length → r.covers (line.start + j) = true) :
    ∃ under : Text, ((token.zipIdx i).flatMap fun p =>
        renderAll false (r.drawnMark line p.2 (SourceLine.columns p.1 p.2))) = under ∧
      (∀ c ∈ under, isMark c) ∧ under.length = token.length := by
  induction token generalizing i with
  | nil => exact ⟨[], rfl, by simp, rfl⟩
  | cons c token ih =>
    obtain ⟨hc, htoken⟩ := List.forall_mem_cons.1 htoken
    rw [List.length_cons] at hcovers
    obtain ⟨mark, hmark, hfirst⟩ := drawnMark_of_covers (hcovers i (by omega) (by omega))
    obtain ⟨under, hrest, hunder, hlength⟩ := ih htoken (i := i + 1) (by
      intro j hle hlt
      exact hcovers j (by omega) (by omega))
    refine ⟨mark :: under, ?_, ?_, ?_⟩
    · rw [List.zipIdx_cons, List.flatMap_cons, hrest, columns_of_isNarrow hc, hfirst]
      rfl
    · exact List.forall_mem_cons.2 ⟨hmark, hunder⟩
    · rw [List.length_cons, List.length_cons, hlength]

section

variable {r : Report} {line : SourceLine} {left token : Text}
  (hstart : r.start = line.start + left.length) (hstop : r.stop = r.start + token.length)

include hstart hstop

theorem covers_add_iff (j : Nat) :
    r.covers (line.start + j) = true ↔ left.length ≤ j ∧ j < left.length + token.length := by
  simp only [covers, Bool.and_eq_true, decide_eq_true_eq]
  omega

/-- Outside of the stretch there are blanks, as the label hangs below the stretch. -/
theorem drawnMark_outside (hne : token ≠ []) {j : Nat}
    (hj : j < left.length ∨ left.length + token.length ≤ j) (n : Nat) :
    renderAll false (r.drawnMark line j n) = List.replicate n ' ' := by
  have hpos : 0 < token.length := List.length_pos_iff.2 hne
  apply drawnMark_of_not_covers
  · rw [Bool.eq_false_iff, Ne, covers_add_iff hstart hstop]
    omega
  · rw [middle]
    omega

/-- The marks below a stretch of narrow characters: one below each character of it, and blanks below
the rest of the line. -/
theorem marks_append {rest : Text} (hshown : line.shown = left ++ token ++ rest) (hne : token ≠ [])
    (htoken : ∀ c ∈ token, IsNarrow c) :
    ∃ under below, r.marks line =
        (left.zipIdx.flatMap fun p => List.replicate (SourceLine.columns p.1 p.2) ' ') ++
          (under ++ below) ∧
      (∀ c ∈ under, isMark c) ∧ under.length = token.length ∧ ∀ c ∈ below, c = ' ' := by
  have hlength : (left ++ token).length ≤ r.stop - line.start + 2 := by
    rw [List.length_append]
    omega
  have hleft : (left.zipIdx.flatMap fun p =>
      renderAll false (r.drawnMark line p.2 (SourceLine.columns p.1 p.2))) =
        left.zipIdx.flatMap fun p => List.replicate (SourceLine.columns p.1 p.2) ' ' := by
    apply List.flatMap_congr
    intro p hp
    have hlt := List.snd_lt_of_mem_zipIdx hp
    exact drawnMark_outside hstart hstop hne (Or.inl (by omega)) _
  obtain ⟨under, hunder, hmarks, hunderLength⟩ :=
    exists_marks_of_covers htoken fun j hle hlt => (covers_add_iff hstart hstop j).2 ⟨hle, hlt⟩
  obtain ⟨ws, hws⟩ := renderAll_cells hshown hlength (r.drawnMark line)
  have hbelow : ∀ c ∈ (ws.zipIdx (left ++ token).length).flatMap fun p =>
      renderAll false (r.drawnMark line p.2 p.1), c = ' ' := by
    intro c hc
    obtain ⟨p, hp, hc⟩ := List.mem_flatMap.1 hc
    have hle := List.le_snd_of_mem_zipIdx hp
    rw [List.length_append] at hle
    rw [drawnMark_outside hstart hstop hne (Or.inr hle)] at hc
    exact List.eq_of_mem_replicate hc
  refine ⟨under, _, ?_, hmarks, hunderLength, hbelow⟩
  rw [marks, hws, List.zipIdx_append, List.flatMap_append, hleft, Nat.zero_add, hunder,
    List.append_assoc]

/-- The characters of a narrow stretch are those that the row of marks underlines. -/
theorem marked_marks {rest : Text} (hshown : line.shown = left ++ token ++ rest) (hne : token ≠ [])
    (htoken : ∀ c ∈ token, IsNarrow c) :
    marked (renderAll false (r.sourceText line)) (r.marks line) = token ∧
      ∀ c ∈ r.marks line, c = ' ' ∨ isMark c := by
  obtain ⟨under, below, hmarks, hunder, hlength, hbelow⟩ :=
    marks_append hstart hstop hshown hne htoken
  constructor
  · rw [renderAll_sourceText, hshown, hmarks, List.zipIdx_append, List.zipIdx_append,
      List.flatMap_append, List.flatMap_append, List.append_assoc, marked_drawn_append,
      flatMap_drawn_of_isNarrow htoken,
      marked_append_of_isMark (fun c hc => (htoken c hc).2) hunder hlength,
      marked_of_blank hbelow, List.append_nil]
  · intro c hc
    rw [hmarks] at hc
    rcases List.mem_append.1 hc with hc | hc
    · obtain ⟨p, -, hc⟩ := List.mem_flatMap.1 hc
      exact Or.inl (List.eq_of_mem_replicate hc)
    · rcases List.mem_append.1 hc with hc | hc
      · exact Or.inr (hunder c hc)
      · exact Or.inl (hbelow c hc)

end

/-- A line and the marks below it are read from the rows that show them. -/
theorem row?_inlineMark (r : Report) (width : Nat) {line : SourceLine}
    (hmarks : ∀ c ∈ r.marks line, c = ' ' ∨ isMark c) (below : Text) :
    ∃ rest rest', row? (renderAll false (r.inlineMark width line) ++ below) =
        some (renderAll false (r.sourceText line), rest) ∧
      row? rest = some (r.marks line, rest') := by
  let labelRow := margin width '│' ++ cells line (r.stop - line.start + 2) (r.drawnStem line) ++
    [Piece.plain (' ' :: r.label), Piece.newline]
  let rest' := renderAll false labelRow ++ below
  let rest := renderAll false (margin width '│') ++ (r.marks line ++ '\n' :: rest')
  have hlayout : r.inlineMark width line = numberedMargin width line ++ r.sourceText line ++
      [Piece.newline] ++ margin width '│' ++
      cells line (r.stop - line.start + 2) (r.drawnMark line) ++ [Piece.newline] ++ labelRow := by
    simp only [inlineMark, labelRow, List.append_assoc]
  have htext : renderAll false (r.inlineMark width line) ++ below =
      renderAll false (numberedMargin width line) ++
        (renderAll false (r.sourceText line) ++ '\n' :: rest) := by
    rw [hlayout]
    simp [Piece.plain, Piece.newline, rest, rest', marks]
  have hsource : '\n' ∉ renderAll false (r.sourceText line) := by
    rw [renderAll_sourceText]
    exact newline_notMem_drawn _ _
  have hnewline : '\n' ∉ r.marks line := by
    intro h
    rcases hmarks _ h with h | h
    · exact absurd h (by decide)
    · exact absurd h (by decide)
  refine ⟨rest, rest', ?_, row?_margin width hnewline rest'⟩
  rw [htext]
  exact row?_numberedMargin width line hsource rest

/-- A stretch within a line is shown by that line and the marks below it. -/
theorem underlined?_layout (r : Report) (hmessage : '\n' ∉ r.message) {line : SourceLine}
    (hends : r.ends? = some (line, line)) (hstop : r.stop ≤ line.stop)
    (hmarks : ∀ c ∈ r.marks line, c = ' ' ∨ isMark c) :
    underlined? r.file (renderAll false r.layout) =
      some (marked (renderAll false (r.sourceText line)) (r.marks line)) := by
  let width := (decimal (line.index + 1)).length
  let below := r.helpLines width false ++
    [⟨.frame, List.replicate (width + 2) '─' ++ ['╯']⟩, Piece.newline]
  have hlayout : r.layout =
      r.headline ++ r.location width line ++ (r.inlineMark width line ++ below) := by
    simp only [layout, hends, ne_eq, not_true_eq_false, decide_false, if_false,
      Nat.not_lt.2 hstop, List.append_assoc, width, below]
  have hframe : '\n' ∉ spaces (width + 2) ++ ['│'] := by
    intro h
    rcases List.mem_append.1 h with h | h
    · exact absurd (mem_spaces h) (by decide)
    · exact absurd h (by decide)
  have hbelow : belowRow (spaces (width + 2) ++
      '│' :: '\n' :: renderAll false (r.inlineMark width line ++ below)) =
      renderAll false (r.inlineMark width line) ++ renderAll false below := by
    rw [← Piece.renderAll_append]
    simpa using belowRow_append hframe (renderAll false (r.inlineMark width line ++ below))
  have hall : ((r.marks line).all fun c => c = ' ' || isMark c) = true := by
    simpa [List.all_eq_true] using hmarks
  obtain ⟨rest, rest', hrow, hmarksRow⟩ :=
    row?_inlineMark r width hmarks (renderAll false below)
  rw [hlayout, underlined?, heading?_append r hmessage]
  simp only [Option.bind_eq_bind, Option.bind_some, hbelow, hrow, hmarksRow, hall, if_true]
  rfl

end Report

end Stencil
