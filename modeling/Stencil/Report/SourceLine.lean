import Stencil.Text
import Stencil.Text.Ranges
import Stencil.Text.Width

/-!
# Lines of a source

For reports a line ends after any of the characters that Unicode takes for a line end, and a carriage
return and a newline end one line together. Places in lines are counted in characters.
-/

namespace Stencil

def isLineEnd (c : Char) : Bool :=
  c = '\n' || c = '\r' || c = '\x0b' || c = '\x0c' || c = '\u0085' || c = '\u2028' || c = '\u2029'

/-- A line with its end, the number of lines and the number of characters before it. -/
structure SourceLine where
  index : Nat
  start : Nat
  text : Text
  deriving DecidableEq, Repr

namespace SourceLine

/-- The lines of a text, with their ends. There is no empty line behind the last end. -/
def split : Text → List Text
  | [] => []
  | '\r' :: '\n' :: s => ['\r', '\n'] :: split s
  | c :: s =>
    if isLineEnd c then [c] :: split s
    else
      match split s with
      | [] => [[c]]
      | line :: lines => (c :: line) :: lines

def number (index start : Nat) : List Text → List SourceLine
  | [] => []
  | line :: lines => ⟨index, start, line⟩ :: number (index + 1) (start + line.length) lines

def all (source : Text) : List SourceLine := number 0 0 (split source)

def stop (l : SourceLine) : Nat := l.start + l.text.length

/-- The last line that starts at or before a place in the source, the end included. -/
def at? (source : Text) (place : Nat) : Option SourceLine :=
  if place ≤ source.length then ((all source).takeWhile (·.start ≤ place)).getLast? else none

/-- What is shown of a line: everything but the blanks at its end. -/
def shown (l : SourceLine) : Text := (l.text.reverse.dropWhile isBlank).reverse

/-- Tabs end at multiples of this many characters. -/
def tabWidth : Nat := 4

/-- The number of columns that a character takes up in a line, where `index` characters are before
it. -/
def columns (c : Char) (index : Nat) : Nat :=
  if c = '\t' then tabWidth - index % tabWidth else if isBlank c then 1 else charWidth c

/-- The widths of the first `n` characters of a line; one past its end. -/
def widths (l : SourceLine) (n : Nat) : List Nat :=
  let known := (l.shown.zipIdx.map fun (c, i) => columns c i).take n
  known ++ List.replicate (n - known.length) 1

end SourceLine

end Stencil
