import Stencil.Number.Shortest
import Stencil.Text.Quoted

/-!
# Errors in table documents

An error names a stretch of the document and a problem. Its message shows the line of the document
with the stretch marked below it, then the problem.
-/

namespace Stencil.Toml

/-- The parts of a document that a syntax error can be inside of. -/
inductive Construct where
  | key
  | tableHeader
  | string
  | basicString
  | literalString
  | multilineBasicString
  | multilineLiteralString
  | escapeSequence
  | shortUnicodeEscape
  | longUnicodeEscape
  | integer
  | hexadecimalInteger
  | octalInteger
  | binaryInteger
  | floatingPoint
  | dateTime
  | time
  | timeOffset
  | array
  | inlineTable
  deriving DecidableEq, Repr

def Construct.name : Construct → String
  | key => "key"
  | tableHeader => "table header"
  | string => "string"
  | basicString => "basic string"
  | literalString => "literal string"
  | multilineBasicString => "multiline basic string"
  | multilineLiteralString => "multiline literal string"
  | escapeSequence => "escape sequence"
  | shortUnicodeEscape => "unicode 4-digit hex code"
  | longUnicodeEscape => "unicode 8-digit hex code"
  | integer => "integer"
  | hexadecimalInteger => "hexadecimal integer"
  | octalInteger => "octal integer"
  | binaryInteger => "binary integer"
  | floatingPoint => "floating-point number"
  | dateTime => "date-time"
  | time => "time"
  | timeOffset => "time offset"
  | array => "array"
  | inlineTable => "inline table"

/-- What could have stood at the place of a syntax error. -/
inductive Expectation where
  | symbol (text : String)
  | newline
  | digit
  | leadingDigit
  deriving DecidableEq, Repr

def Expectation.name : Expectation → Text
  | symbol text => '`' :: text.toList ++ ['`']
  | newline => "newline".toList
  | digit => "digit".toList
  | leadingDigit => "leading digit".toList

/-- Why a part of a document that is formed well is refused all the same. -/
inductive Fault where
  | tooDeep
  | outOfRange
  | tooLarge
  | tooSmall
  | duplicateKey (key : Text) (table : Option (List Text))
  | extendsValue (path : List Text) (kind : String)
  deriving DecidableEq, Repr

def Fault.message : Fault → Text
  | tooDeep => "recursion limit exceeded".toList
  | outOfRange => "value is out of range".toList
  | tooLarge => "number too large to fit in target type".toList
  | tooSmall => "number too small to fit in target type".toList
  | duplicateKey key none => "duplicate key `".toList ++ key ++ ['`']
  | duplicateKey key (some []) => "duplicate key `".toList ++ key ++ "` in document root".toList
  | duplicateKey key (some table) =>
    "duplicate key `".toList ++ key ++ "` in table `".toList ++ joinWith ['.'] table ++ ['`']
  | extendsValue path kind =>
    "dotted key `".toList ++ joinWith ['.'] path ++ "` attempted to extend non-table type (".toList ++
      kind.toList ++ [')']

/-- The value that was found where another kind of value is wanted. -/
inductive Found where
  | integer (value : Int)
  | float (value : Binary64)
  | boolean (value : Bool)
  | string (text : Text)
  | sequence
  | map
  deriving DecidableEq, Repr

def Found.describe : Found → Text
  | integer value => "integer `".toList ++ (toString value).toList ++ ['`']
  | float value => "floating point `".toList ++ value.text ++ ['`']
  | boolean value => "boolean `".toList ++ (if value then "true`" else "false`").toList
  | string text => "string ".toList ++ quoted text
  | sequence => "sequence".toList
  | map => "map".toList

inductive Problem where
  | malformed (inside : Option Construct) (expected : List Expectation) (fault : Option Fault)
  | wrongType (found : Found) (wanted : String)
  | tooShort (length : Nat) (wanted : String)
  | missingField (name : String)
  deriving DecidableEq, Repr

def Problem.message : Problem → Text
  | malformed inside expected fault =>
    let first := inside.map fun c => "invalid ".toList ++ c.name.toList
    let second :=
      if expected.isEmpty then none
      else some ("expected ".toList ++ joinWith ", ".toList (expected.map (·.name)))
    joinWith ['\n'] ([first, second, fault.map (·.message)].filterMap id)
  | wrongType found wanted =>
    "invalid type: ".toList ++ found.describe ++ ", expected ".toList ++ wanted.toList
  | tooShort length wanted =>
    "invalid length ".toList ++ decimal length ++ ", expected ".toList ++ wanted.toList
  | missingField name => "missing field `".toList ++ name.toList ++ ['`']

structure Error where
  source : Text
  span : Span
  problem : Problem
  deriving DecidableEq, Repr

namespace Error

/-- The lines of a text; only a newline ends a line. -/
def lines (s : Text) : List Text := s.splitOn '\n'

/-- The line and the column, both from zero, of the byte at an offset. The column counts characters;
at the first byte of a character of several bytes it counts the bytes before it. Past the last byte
the columns go on. -/
def locate (s : Text) (offset : Nat) : Nat × Nat :=
  match s with
  | [] => (0, offset)
  | _ :: _ => go 0 0 0 s (min offset (byteLength s - 1)) (offset - (byteLength s - 1))
where
  /-- Counts `line`, `chars` and `bytes` up to the byte that is `left` bytes ahead; `beyond` is how far
  the offset lies past the last byte. -/
  go (line chars bytes : Nat) : Text → (left beyond : Nat) → Nat × Nat
    | [], left, beyond => (line, chars + left + beyond)
    | c :: s, left, beyond =>
      if left < c.utf8Size then
        if left + 1 = c.utf8Size then (line, chars + beyond) else (line, bytes + left + beyond)
      else if c = '\n' then go (line + 1) 0 0 s (left - 1) beyond
      else go line (chars + 1) (bytes + c.utf8Size) s (left - c.utf8Size) beyond

def message (e : Error) : Text :=
  let (line, column) := locate e.source e.span.start
  let content := ((lines e.source)[line]?).getD []
  let number := decimal (line + 1)
  let gutter := List.replicate (number.length + 1) ' '
  let marked := min (e.span.stop - e.span.start) (byteLength content - column)
  "TOML parse error at line ".toList ++ number ++ ", column ".toList ++ decimal (column + 1) ++
    ['\n'] ++
  gutter ++ ['|', '\n'] ++
  number ++ [' ', '|', ' '] ++ content ++ ['\n'] ++
  gutter ++ ['|'] ++ List.replicate (column + 1) ' ' ++ List.replicate (max marked 1) '^' ++ ['\n'] ++
  e.problem.message ++ ['\n']

end Error

end Stencil.Toml
