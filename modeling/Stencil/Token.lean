import Stencil.Identifier

/-!
# Template tokens

A template is text with placeholders `@@NAME` and `@@{NAME}`, and `@@@@` for a literal `@@`. Two
delimiters in a row are an escape, a delimiter before a name is a placeholder, and a delimiter before
anything else dangles. Every text has tokens, and they spell it out again.
-/

namespace Stencil

inductive Token where
  | escaped
  | named (name : Text)
  | braced (name : Text)
  | dangling
  | atSign
  | run (text : Text)
  deriving DecidableEq, Repr

namespace Token

/-- How a token is written in a template. -/
def spelling : Token → Text
  | escaped => ['@', '@', '@', '@']
  | named name => '@' :: '@' :: name
  | braced name => '@' :: '@' :: '{' :: name ++ ['}']
  | dangling => ['@', '@']
  | atSign => ['@']
  | run text => text

/-- Number of bytes that a token takes up. -/
def width : Token → Nat
  | escaped => 4
  | named name => byteLength name + 2
  | braced name => byteLength name + 4
  | dangling => 2
  | atSign => 1
  | run text => byteLength text

theorem byteLength_spelling (t : Token) : byteLength t.spelling = t.width := by
  have h1 : '@'.utf8Size = 1 := rfl
  have h2 : '{'.utf8Size = 1 := rfl
  have h3 : '}'.utf8Size = 1 := rfl
  cases t <;> simp [spelling, width, h1, h2, h3] <;> omega

/-- The name of a placeholder token. -/
def placeholder? : Token → Option Text
  | named name | braced name => some name
  | _ => none

/-- A name at the front of a text, as long as possible, and what follows it. -/
def bareName? (s : Text) : Option (Text × Text) :=
  let name := s.takeWhile isNamePart
  if isIdentifier name then some (name, s.dropWhile isNamePart) else none

/-- What may follow a delimiter to make a placeholder, and what is left then. -/
def placeholderBody? : Text → Option (Token × Text)
  | '{' :: s =>
    match bareName? s with
    | some (name, '}' :: rest) => some (braced name, rest)
    | _ => none
  | s =>
    match bareName? s with
    | some (name, rest) => some (named name, rest)
    | none => none

/-- A token and the bytes that it takes up. -/
structure Placed where
  token : Token
  span : Span
  deriving DecidableEq, Repr

/-- The text that a list of tokens spells. -/
def spellAll (ts : List Token) : Text := ts.flatMap spelling

end Token

end Stencil
