import Stencil.Toml.Parser

/-!
# Blanks, line ends and comments

Within a line only spaces and tabs are blank. A line ends with a newline or with a carriage return
and a newline; a carriage return alone is never allowed.
-/

namespace Stencil.Toml.Parser

def isGap (c : Char) : Bool := c = ' ' || c = '\t'

def gap : Parser Unit := do
  let _ ← takeWhile isGap

def newline : Parser Unit := do
  match ← next? with
  | some '\n' => char '\n'
  | some '\r' => do char '\r'; char '\n'
  | _ => failAfterOne

def isCommentChar (c : Char) : Bool := c = '\t' || 0x20 ≤ c.toNat && c.toNat ≠ 0x7F

def comment : Parser Unit := do
  char '#'
  let _ ← takeWhile isCommentChar

def lineEnd : Parser Unit := either newline atEnd

/-- What may follow a statement on its line. -/
def restOfLine : Parser Unit := do
  gap
  let _ ← optional comment
  lineEnd

/-- Blanks, line ends and comments, over at most `n` lines. -/
def blankLines : Nat → Parser Unit
  | 0 => pure ()
  | n + 1 => do
    gap
    match ← next? with
    | some '#' => do comment; newline; blankLines n
    | some '\n' | some '\r' => do newline; blankLines n
    | _ => pure ()

/-- The blanks between the items of an array, over any number of lines. -/
def blanks : Parser Unit := fun c => blankLines c.rest.length c

end Stencil.Toml.Parser
