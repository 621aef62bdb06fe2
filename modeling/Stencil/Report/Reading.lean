import Stencil.Report

/-!
# Reading reports

A report in plain text is read back by looking at it. The heading names a place in the file. Below it
stands a line of the source, and in the row under that line are marks: a character of the line is
underlined when a mark stands in one of the columns that the character takes up. None of this knows how
a report is laid out from its error.
-/

namespace Stencil.Report

/-- What is left of a text behind its first row. -/
def belowRow (s : Text) : Text := (s.dropWhile (· ≠ '\n')).drop 1

/-- The number at the front of a text, and what follows it. -/
def readNumber? (s : Text) : Option (Nat × Text) :=
  match s.takeWhile Char.isDigit with
  | [] => none
  | digits => some (Nat.ofDigitChars 10 digits 0, s.dropWhile Char.isDigit)

/-- The place in the heading of a report about a file, and what stands below the heading. -/
def heading? (file report : Text) : Option (Position × Text) := do
  let place ← (['╭', '─', '['] ++ file ++ [':']).isPrefixOf?
    ((belowRow report).dropWhile (· = ' '))
  let (line, rest) ← readNumber? place
  let rest ← [':'].isPrefixOf? rest
  let (column, rest) ← readNumber? rest
  let rest ← [']', '\n'].isPrefixOf? rest
  return (⟨line, column⟩, rest)

/-- What stands in a row to the right of its margin, and the rows below. -/
def row? (s : Text) : Option (Text × Text) := do
  let rest ← ['│', ' '].isPrefixOf? (s.dropWhile fun c => c = ' ' || c.isDigit)
  return (rest.takeWhile (· ≠ '\n'), belowRow rest)

/-- Whether a character underlines what stands above it. -/
def isMark (c : Char) : Bool := c = '─' || c = '┬'

/-- The characters of a row that are underlined by the row of marks below it. -/
def marked : Text → Text → Text
  | [], _ => []
  | c :: row, marks =>
    if (marks.take (charWidth c)).any isMark then c :: marked row (marks.drop (charWidth c))
    else marked row (marks.drop (charWidth c))

/-- The position that a report names in its heading. -/
def statedPosition? (file report : Text) : Option Position := (heading? file report).map Prod.fst

/-- The characters that a report underlines in the line of the source that it shows. -/
def underlined? (file report : Text) : Option Text := do
  let (_, rest) ← heading? file report
  let (row, rest) ← row? (belowRow rest)
  let (marks, _) ← row? rest
  if marks.all fun c => c = ' ' || isMark c then return marked row marks else none

end Stencil.Report
