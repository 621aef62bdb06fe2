import Mathlib.Data.List.Basic
import Stencil.Proofs.TokenStep
import Stencil.Report.Reading

/-!
# What a report shows

Reading undoes laying out, piece by piece: a number is read back from its digits, the place from the
heading, and a row from behind its margin. A row of marks is read together with the row above it. Where
a stretch of the upper row takes up as many columns as it has marks, reading goes on behind both, so
the two rows may be read one stretch at a time.
-/

namespace Stencil

namespace Piece

theorem render_false (p : Piece) : p.render false = p.text := by
  obtain ⟨ink, text⟩ := p
  cases ink <;> rfl

@[simp] theorem renderAll_nil (colour : Bool) : renderAll colour [] = [] := rfl

@[simp] theorem renderAll_false_cons (p : Piece) (ps : List Piece) :
    renderAll false (p :: ps) = p.text ++ renderAll false ps := by
  rw [← render_false p]
  rfl

@[simp] theorem renderAll_append (colour : Bool) (ps qs : List Piece) :
    renderAll colour (ps ++ qs) = renderAll colour ps ++ renderAll colour qs := List.flatMap_append

@[simp] theorem renderAll_false_single (ink : Ink) (s : Text) :
    renderAll false (single ink s) = s := by
  induction s with
  | nil => rfl
  | cons c s ih =>
    rw [single, List.map_cons, renderAll_false_cons]
    exact congrArg (c :: ·) ih

theorem renderAll_false_replicate (n : Nat) (ink : Ink) (s : Text) :
    renderAll false (List.replicate n ⟨ink, s⟩) = (List.replicate n s).flatten := by
  induction n with
  | zero => rfl
  | succ n ih => rw [List.replicate_succ, renderAll_false_cons, ih, List.replicate_succ,
      List.flatten_cons]

/-- A cell is drawn by its head and copies of its fill. -/
theorem renderAll_false_cell (ink : Ink) (head fill : Char) (n : Nat) :
    renderAll false (cell ink head fill n) =
      (List.replicate n head).take 1 ++ List.replicate (n - 1) fill := by
  cases n with
  | zero => rfl
  | succ n =>
    rw [cell, renderAll_false_cons, renderAll_false_replicate, List.flatten_replicate_singleton]
    simp [List.replicate_succ]

theorem renderAll_flatMap {α : Type} (colour : Bool) (xs : List α) (f : α → List Piece) :
    renderAll colour (xs.flatMap f) = xs.flatMap fun x => renderAll colour (f x) :=
  List.flatMap_assoc

end Piece

namespace Report

open Piece

theorem belowRow_append {row : Text} (hrow : '\n' ∉ row) (below : Text) :
    belowRow (row ++ '\n' :: below) = below := by
  have hne : ∀ c ∈ row, decide (c ≠ '\n') = true := by
    intro c hc
    exact decide_eq_true fun h => hrow (h ▸ hc)
  rw [belowRow, List.dropWhile_append_of_pos hne]
  rfl

theorem readNumber?_decimal_append (n : Nat) {rest : Text} (hrest : ∀ c ∈ rest.head?, ¬ c.isDigit) :
    readNumber? (decimal n ++ rest) = some (n, rest) := by
  have hdigit : ∀ c ∈ decimal n, c.isDigit := fun c hc =>
    Nat.isDigit_of_mem_toDigits (by decide) (by decide) hc
  obtain ⟨htake, hdrop⟩ := Token.takeWhile_dropWhile_eq_iff.2 ⟨rfl, hdigit, hrest⟩
  rw [readNumber?, htake, hdrop]
  split
  · next hnil => exact absurd hnil Nat.toDigits_ne_nil
  · rw [decimal, Nat.ofDigitChars_ten_toDigits]

theorem mem_spaces {n : Nat} {c : Char} (h : c ∈ spaces n) : c = ' ' := List.eq_of_mem_replicate h

/-- A heading names the index of its line and the place in that line, both counted from one. -/
theorem heading?_append (r : Report) (hmessage : '\n' ∉ r.message) (width : Nat) (line : SourceLine)
    (below : List Piece) :
    heading? r.file (renderAll false (r.headline ++ r.location width line ++ below)) =
      some (⟨line.index + 1, r.start - line.start + 1⟩,
        spaces (width + 2) ++ '│' :: '\n' :: renderAll false below) := by
  let frame := spaces (width + 2) ++ '│' :: '\n' :: renderAll false below
  let column := decimal (r.start - line.start + 1) ++ ']' :: '\n' :: frame
  let place := decimal (line.index + 1) ++ ':' :: column
  have hrow : '\n' ∉ "Error:".toList ++ ' ' :: r.message := by simp [hmessage]
  have htext : renderAll false (r.headline ++ r.location width line ++ below) =
      ("Error:".toList ++ ' ' :: r.message) ++
        '\n' :: (spaces (width + 2) ++ (['╭', '─', '['] ++ r.file ++ [':'] ++ place)) := by
    simp [headline, location, plain, newline, place, column, frame]
  have hblank : ∀ c ∈ spaces (width + 2), decide (c = ' ') = true := by
    intro c hc
    exact decide_eq_true (mem_spaces hc)
  have hdrop : (spaces (width + 2) ++ (['╭', '─', '['] ++ r.file ++ [':'] ++ place)).dropWhile
      (· = ' ') = ['╭', '─', '['] ++ r.file ++ [':'] ++ place := by
    rw [List.dropWhile_append_of_pos hblank]
    rfl
  have hplace : (['╭', '─', '['] ++ r.file ++ [':']).isPrefixOf?
      (['╭', '─', '['] ++ r.file ++ [':'] ++ place) = some place :=
    List.isPrefixOf?_eq_some_iff_append_eq.2 rfl
  have hline : readNumber? place = some (line.index + 1, ':' :: column) :=
    readNumber?_decimal_append _ (by simp)
  have hcolumn : readNumber? column = some (r.start - line.start + 1, ']' :: '\n' :: frame) :=
    readNumber?_decimal_append _ (by simp)
  rw [heading?, htext, belowRow_append hrow, hdrop, hplace]
  simp only [Option.bind_eq_bind, Option.bind_some, hline]
  change ((readNumber? column).bind _) = _
  rw [hcolumn]
  rfl

theorem ends?_eq_some_iff {r : Report} {first last : SourceLine} :
    r.ends? = some (first, last) ↔ SourceLine.at? r.source r.start = some first ∧
      SourceLine.at? r.source (max (r.stop - 1) r.start) = some last := by
  rw [ends?]
  cases SourceLine.at? r.source r.start with
  | none => simp
  | some line => cases SourceLine.at? r.source (max (r.stop - 1) r.start) <;> simp

/-- A report states the index of the line that its stretch starts in, and the place in that line. -/
theorem statedPosition?_layout (r : Report) (hmessage : '\n' ∉ r.message) :
    statedPosition? r.file (renderAll false r.layout) =
      r.ends?.map fun ends => ⟨ends.1.index + 1, r.start - ends.1.start + 1⟩ := by
  rw [layout]
  cases r.ends? with
  | none =>
    have hrow : '\n' ∉ "Error:".toList ++ ' ' :: r.message := by simp [hmessage]
    have htext : renderAll false r.headline =
        ("Error:".toList ++ ' ' :: r.message) ++ '\n' :: [] := by
      simp [headline, plain, newline]
    simp only [statedPosition?, heading?, htext, belowRow_append hrow]
    rfl
  | some ends =>
    obtain ⟨first, last⟩ := ends
    simp only [Option.map_some, List.append_assoc]
    rw [← List.append_assoc r.headline, statedPosition?, heading?_append r hmessage]
    rfl

/-- A row is read from behind its margin. -/
theorem row?_append {lead row : Text} (hlead : ∀ c ∈ lead, c = ' ' ∨ c.isDigit) (hrow : '\n' ∉ row)
    (below : Text) : row? (lead ++ '│' :: ' ' :: (row ++ '\n' :: below)) = some (row, below) := by
  have hpass : ∀ c ∈ lead, (decide (c = ' ') || c.isDigit) = true := by
    intro c hc
    simpa using hlead c hc
  have hdrop : (lead ++ '│' :: ' ' :: (row ++ '\n' :: below)).dropWhile
      (fun c => c = ' ' || c.isDigit) = ['│', ' '] ++ (row ++ '\n' :: below) := by
    rw [List.dropWhile_append_of_pos hpass]
    rfl
  have hmargin : ['│', ' '].isPrefixOf? (['│', ' '] ++ (row ++ '\n' :: below)) =
      some (row ++ '\n' :: below) := List.isPrefixOf?_eq_some_iff_append_eq.2 rfl
  have hne : ∀ c ∈ row, decide (c ≠ '\n') = true := by
    intro c hc
    exact decide_eq_true fun h => hrow (h ▸ hc)
  obtain ⟨htake, -⟩ := Token.takeWhile_dropWhile_eq_iff.2
    ⟨rfl, hne, (by simp : ∀ c ∈ ('\n' :: below).head?, ¬ decide (c ≠ '\n') = true)⟩
  rw [row?, hdrop, hmargin]
  simp only [Option.bind_eq_bind, Option.bind_some, htake, belowRow_append hrow]
  rfl

theorem row?_numberedMargin (width : Nat) (line : SourceLine) {row : Text} (hrow : '\n' ∉ row)
    (below : Text) :
    row? (renderAll false (numberedMargin width line) ++ (row ++ '\n' :: below)) =
      some (row, below) := by
  let number := decimal (line.index + 1)
  have htext : renderAll false (numberedMargin width line) ++ (row ++ '\n' :: below) =
      ' ' :: (spaces (width - number.length) ++ number ++ [' ']) ++
        '│' :: ' ' :: (row ++ '\n' :: below) := by
    simp [numberedMargin, plain, number]
  rw [htext]
  refine row?_append ?_ hrow below
  intro c hc
  simp only [List.mem_cons, List.mem_append, List.not_mem_nil, or_false] at hc
  rcases hc with hc | (hc | hc) | hc
  · exact Or.inl hc
  · exact Or.inl (mem_spaces hc)
  · exact Or.inr (Nat.isDigit_of_mem_toDigits (by decide) (by decide) hc)
  · exact Or.inl hc

theorem row?_margin (width : Nat) {row : Text} (hrow : '\n' ∉ row) (below : Text) :
    row? (renderAll false (margin width '│') ++ (row ++ '\n' :: below)) = some (row, below) := by
  have htext : renderAll false (margin width '│') ++ (row ++ '\n' :: below) =
      ' ' :: spaces (width + 1) ++ '│' :: ' ' :: (row ++ '\n' :: below) := by
    simp [margin, plain]
  rw [htext]
  refine row?_append ?_ hrow below
  intro c hc
  rcases List.mem_cons.1 hc with hc | hc
  · exact Or.inl hc
  · exact Or.inl (mem_spaces hc)

/-- Reading goes on behind a stretch of the row that takes up as many columns as it has marks. -/
theorem marked_replicate_append (n : Nat) (row marks : Text) :
    marked (List.replicate n ' ' ++ row) (List.replicate n ' ' ++ marks) = marked row marks := by
  induction n with
  | zero => rfl
  | succ n ih =>
    rw [List.replicate_succ, List.cons_append, List.cons_append, marked]
    exact ih

theorem marked_cons_of_blank {c : Char} (row marks : Text) :
    marked (c :: row) (List.replicate (charWidth c) ' ' ++ marks) = marked row marks := by
  have htake : (List.replicate (charWidth c) ' ' ++ marks).take (charWidth c) =
      List.replicate (charWidth c) ' ' := List.take_left' List.length_replicate
  have hdrop : (List.replicate (charWidth c) ' ' ++ marks).drop (charWidth c) = marks :=
    List.drop_left' List.length_replicate
  have hnone : (List.replicate (charWidth c) ' ').any isMark = false := by
    rw [List.any_eq_false]
    intro d hd
    rw [List.eq_of_mem_replicate hd]
    decide
  rw [marked, htake, hdrop, hnone]
  rfl

/-- Characters of one column each, with a mark below each of them, are underlined. -/
theorem marked_append_of_isMark {s marks : Text} (hs : ∀ c ∈ s, charWidth c = 1)
    (hmarks : ∀ c ∈ marks, isMark c) (hlength : marks.length = s.length) (row below : Text) :
    marked (s ++ row) (marks ++ below) = s ++ marked row below := by
  induction s generalizing marks with
  | nil =>
    rw [List.length_eq_zero_iff.1 hlength]
    rfl
  | cons c s ih =>
    obtain ⟨hc, hs⟩ := List.forall_mem_cons.1 hs
    cases marks with
    | nil => cases hlength
    | cons mark marks =>
      obtain ⟨hmark, hmarks⟩ := List.forall_mem_cons.1 hmarks
      have htail := ih hs hmarks (Nat.succ.inj hlength)
      rw [List.cons_append, List.cons_append, marked, hc]
      simp only [List.take_succ_cons, List.take_zero, List.any_cons, List.any_nil, hmark,
        Bool.true_or, if_true, List.drop_succ_cons, List.drop_zero, htail, List.cons_append]

/-- Nothing is underlined by blanks. -/
theorem marked_of_blank {marks : Text} (hmarks : ∀ c ∈ marks, c = ' ') (row : Text) :
    marked row marks = [] := by
  induction row generalizing marks with
  | nil => rfl
  | cons c row ih =>
    have hnone : (marks.take (charWidth c)).any isMark = false := by
      rw [List.any_eq_false]
      intro d hd
      rw [hmarks d (List.mem_of_mem_take hd)]
      decide
    rw [marked, hnone]
    exact ih fun d hd => hmarks d (List.mem_of_mem_drop hd)

end Report

end Stencil
