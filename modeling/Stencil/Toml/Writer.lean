import Stencil.Text

/-!
# Writing table documents

A string is written between double quotes, with escapes for what cannot stand there, or verbatim
between three single quotes on either side. A section is a title in brackets and a line for each pair;
empty lines and comments may stand in between. A table document has a section of metadata, when there
are any, and one of substitutions.
-/

namespace Stencil.Toml.Writer

/-- The letter that stands for a character after a backslash. -/
def letterOf? : Char → Option Char
  | '\x08' => some 'b'
  | '\t' => some 't'
  | '\n' => some 'n'
  | '\x0c' => some 'f'
  | '\r' => some 'r'
  | '"' => some '"'
  | '\\' => some '\\'
  | _ => none

/-- A number in hexadecimal digits, at least four of them. -/
def fourDigits (n : Nat) : Text :=
  let digits := (Nat.toDigits 16 n).map Char.toUpper
  List.replicate (4 - digits.length) '0' ++ digits

/-- A character between double quotes. -/
def escaped (c : Char) : Text :=
  match letterOf? c with
  | some letter => ['\\', letter]
  | none =>
    if c.toNat < 0x20 || c.toNat = 0x7F then '\\' :: 'u' :: fourDigits c.toNat
    else [c]

/-- A string between double quotes. -/
def basicString (s : Text) : Text := '"' :: s.flatMap escaped ++ ['"']

/-- A string between three single quotes, behind a line end that does not count. -/
def verbatimString (s : Text) : Text := ['\'', '\'', '\'', '\n'] ++ s ++ ['\'', '\'', '\'']

/-- Whether a string can be written verbatim: it holds no control characters but tabs and newlines,
nowhere three single quotes in a row, and does not end with one. -/
def canBeVerbatim (s : Text) : Bool :=
  (s.all fun c => c = '\t' || c = '\n' || 0x20 ≤ c.toNat && c.toNat ≠ 0x7F) &&
    !occursIn ['\'', '\'', '\''] s && s.getLast? ≠ some '\''

/-- A string with the form it is written in. -/
structure Written where
  text : Text
  verbatim : Bool
  deriving DecidableEq, Repr

/-- Only a string that can be written verbatim is. -/
def Written.render (w : Written) : Text :=
  if w.verbatim && canBeVerbatim w.text then verbatimString w.text else basicString w.text

def pairLine (key : Text) (value : Written) : Text := key ++ " = ".toList ++ value.render ++ ['\n']

/-- A line of a document. A pair takes more than one when its string does. -/
inductive Line where
  | empty
  | comment (text : Text)
  | title (name : Text)
  | pair (key : Text) (value : Written)
  deriving DecidableEq, Repr

namespace Line

def render : Line → Text
  | empty => ['\n']
  | comment text => '#' :: text ++ ['\n']
  | title name => '[' :: name ++ "]\n".toList
  | pair key value => pairLine key value

def renderAll (lines : List Line) : Text := lines.flatMap render

/-- The pairs up to the first title. -/
def leadingPairs : List Line → List (Text × Text)
  | pair key value :: lines => (key, value.text) :: leadingPairs lines
  | empty :: lines | comment _ :: lines => leadingPairs lines
  | title _ :: _ | [] => []

/-- The titles, each with the pairs below it. -/
def sections : List Line → List (Text × List (Text × Text))
  | title name :: lines => (name, leadingPairs lines) :: sections lines
  | empty :: lines | comment _ :: lines | pair _ _ :: lines => sections lines
  | [] => []

/-- The lines of a section: its title, and a line for each of its pairs. -/
def ofSection (name : Text) (pairs : List (Text × Written)) : List Line :=
  title name :: pairs.map fun (key, value) => pair key value

end Line

/-- What a document says about its table. -/
structure Metadata where
  name : Option Written
  description : Option Written

def Metadata.pairs (m : Metadata) : List (Text × Written) :=
  m.name.toList.map (("name".toList, ·)) ++ m.description.toList.map (("description".toList, ·))

/-- The lines of the document of a table. -/
def documentLines (metadata : Option Metadata) (pairs : List (Text × Written)) : List Line :=
  (metadata.toList.flatMap fun m => Line.ofSection "metadata".toList m.pairs) ++
    Line.ofSection "substitutions".toList pairs

/-- The document of a table. -/
def document (metadata : Option Metadata) (pairs : List (Text × Written)) : Text :=
  Line.renderAll (documentLines metadata pairs)

end Stencil.Toml.Writer
