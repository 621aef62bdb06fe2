import Stencil.Report.Ink
import Stencil.Report.SourceLine
import Stencil.Template

/-!
# Reports

A report shows a template error in its source: the message, the place, the line with the stretch of
the error underlined, what is wrong with it, and what may have been meant. A stretch over several
lines is shown by its first and last line, with a bracket in the margin.

The stretch of an error is given in bytes, and the report takes the numbers for characters: what it
marks is the stretch itself as long as only ASCII characters stand before its end.
-/

namespace Stencil

/-- What a report is about. The stretch goes from `start` to before `stop`, in characters. -/
structure Report where
  source : Text
  file : Text
  message : Text
  label : Text
  help : Option Text
  start : Nat
  stop : Nat

namespace Report

open Piece (plain newline single cell)

/-- Whether a character belongs to the stretch. -/
def covers (r : Report) (place : Nat) : Bool := r.start ≤ place && place < r.stop

def headline (r : Report) : List Piece :=
  [⟨.alert, "Error:".toList⟩, plain (' ' :: r.message), newline]

def spaces (n : Nat) : Text := List.replicate n ' '

/-- The place of the report, in a frame; `width` is the number of digits of the line numbers. -/
def location (r : Report) (width : Nat) (line : SourceLine) : List Piece :=
  plain (spaces (width + 2)) :: single .frame ['╭', '─', '['] ++
    [plain (r.file ++ ':' :: decimal (line.index + 1) ++
      ':' :: decimal (r.start - line.start + 1)),
     ⟨.frame, [']']⟩, newline,
     plain (spaces (width + 2)), ⟨.frame, ['│']⟩, newline]

/-- The margin beside a line of the source. -/
def numberedMargin (width : Nat) (line : SourceLine) : List Piece :=
  let number := decimal (line.index + 1)
  [plain [' '], ⟨.frame, spaces (width - number.length) ++ number ++ [' ', '│']⟩, plain [' ']]

/-- The margin beside anything else. -/
def margin (width : Nat) (rule : Char) : List Piece :=
  [plain [' '], ⟨.aside, spaces (width + 1) ++ [rule]⟩, plain [' ']]

/-- A line of the source, its stretch in another colour. -/
def sourceText (r : Report) (line : SourceLine) : List Piece :=
  line.shown.zipIdx.flatMap fun (c, i) =>
    let ink := if r.covers (line.start + i) then Ink.alert else Ink.quiet
    if isBlank c then List.replicate (SourceLine.columns c i) ⟨ink, [' ']⟩ else [⟨ink, [c]⟩]

/-- Cells for the characters of a line up to one past the stretch, drawn by `draw` from the index of
the character and its width. -/
def cells (line : SourceLine) (n : Nat) (draw : Nat → Nat → List Piece) : List Piece :=
  (line.widths n).zipIdx.flatMap fun (width, i) => draw i width

/-- The character of the line that the label is attached to. -/
def middle (r : Report) (line : SourceLine) : Nat := (r.start + r.stop) / 2 - line.start

/-- What is drawn in the row of marks for the character with the index `i`. -/
def drawnMark (r : Report) (line : SourceLine) (i columns : Nat) : List Piece :=
  let m := r.middle line
  if r.covers (line.start + i) then cell .alert (if i = m then '┬' else '─') '─' columns
  else if i = m then cell .alert '│' ' ' columns
  else cell .plain ' ' ' ' columns

/-- What is drawn in the row of the label for the character with the index `i`. -/
def drawnStem (r : Report) (line : SourceLine) (i columns : Nat) : List Piece :=
  let m := r.middle line
  if i < m then cell .plain ' ' ' ' columns
  else cell .alert (if i = m then '╰' else '─') '─' columns

/-- A line with the stretch underlined, and the label below it. -/
def inlineMark (r : Report) (width : Nat) (line : SourceLine) : List Piece :=
  let n := r.stop - line.start + 2
  numberedMargin width line ++ r.sourceText line ++ [newline] ++
  margin width '│' ++ cells line n (r.drawnMark line) ++ [newline] ++
  margin width '│' ++ cells line n (r.drawnStem line) ++ [plain (' ' :: r.label), newline]

/-- The row of a bracket for lines that are left out. -/
def omission (width : Nat) : List Piece :=
  margin width '┆' ++ [⟨.alert, ['┆']⟩, plain (spaces 3), newline]

/-- The last line of a stretch in a bracket, and the label below it. -/
def bracketEnd (r : Report) (width : Nat) (last : SourceLine) : List Piece :=
  let n := last.text.length + 2
  numberedMargin width last ++ single .alert ['├', '─', '▶', ' '] ++ r.sourceText last ++
    [newline] ++
  margin width '│' ++ [⟨.alert, ['│']⟩, plain (spaces 3)] ++
  cells last n (fun _ columns => cell .plain ' ' ' ' columns) ++ [newline] ++
  margin width '│' ++ single .alert ['╰', '─', '─', '─'] ++
  cells last n (fun _ columns => cell .alert '─' '─' columns) ++
  [plain (' ' :: r.label), newline]

/-- The first and the last line of a stretch in a bracket, and the label below it. A stretch that goes
on behind the last line leaves the bracket open. -/
def bracketMark (r : Report) (width : Nat) (first last : SourceLine) : List Piece :=
  numberedMargin width first ++ single .alert ['╭', '─', '▶', ' '] ++ r.sourceText first ++
    [newline] ++
  if last.stop < r.stop then omission width
  else
    (if first.index + 1 < last.index then omission width else []) ++ r.bracketEnd width last

/-- The margin that a bracket leaves beside the help. A bracket that begins right behind the first
line of the source seems to run through it. -/
def bracketGap (r : Report) : List Piece :=
  match SourceLine.all r.source with
  | line :: _ =>
    if r.start = line.stop then [⟨.alert, ['│']⟩, plain (spaces 3)] else [plain (spaces 4)]
  | [] => [plain (spaces 4)]

def helpLines (r : Report) (width : Nat) (bracket : Bool) : List Piece :=
  match r.help with
  | none => []
  | some help =>
    let gap := if bracket then r.bracketGap else []
    margin width '│' ++ gap ++ [newline] ++
    margin width '│' ++ gap ++ [⟨.help, "Help".toList⟩, plain (": ".toList ++ help), newline]

/-- The lines that the stretch starts and ends in, when both its ends are in the source. -/
def ends? (r : Report) : Option (SourceLine × SourceLine) :=
  match SourceLine.at? r.source r.start with
  | none => none
  | some first => (SourceLine.at? r.source (max (r.stop - 1) r.start)).map (first, ·)

def layout (r : Report) : List Piece :=
  match r.ends? with
  | none => r.headline
  | some (first, last) =>
    let width := (decimal (last.index + 1)).length
    let bracket := first.index ≠ last.index
    r.headline ++ r.location width first ++
    (if bracket then r.bracketMark width first last
    else if first.stop < r.stop then margin width '│' ++ [newline]
    else r.inlineMark width first) ++
    r.helpLines width bracket ++
    [⟨.frame, List.replicate (width + 2) '─' ++ ['╯']⟩, newline]

end Report

namespace TemplateError

/-- What is wrong with the stretch of an error. -/
def label : TemplateError → Text
  | undefined name _ _ => '\'' :: name ++ "' is not in the substitution table".toList
  | invalid _ _ => "expected '@@@@', '@@NAME' or '@@\x7bNAME\x7d'".toList

/-- What may have been meant. -/
def help? : TemplateError → Option Text
  | undefined _ _ [] => none
  | undefined _ _ suggestions =>
    some ("did you mean ".toList ++ joinWith ", ".toList suggestions ++ ['?'])
  | invalid _ _ => none

def report (e : TemplateError) (source file : Text) : Report :=
  ⟨source, file, e.message, e.label, e.help?, e.span.start, e.span.stop⟩

/-- The report of an error as text. -/
def format (e : TemplateError) (source file : Text) (colour : Bool) : Text :=
  Piece.renderAll colour (e.report source file).layout

/-- The report of an error that need not come from its source. There is none for a span whose ends are
crossed. -/
def format? (e : TemplateError) (source file : Text) (colour : Bool) : Option Text :=
  if e.span.start ≤ e.span.stop then some (e.format source file colour) else none

end TemplateError

/-- The reports of all problems that keep a template from being filled. -/
def Template.reports (t : Template) (table : Lookup) (file : Text) (colour : Bool) : List Text :=
  (t.problems table).map (·.format t.source file colour)

end Stencil
