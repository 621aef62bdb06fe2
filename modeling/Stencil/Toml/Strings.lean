import Stencil.Toml.Blank

/-!
# Strings

A string stands in double quotes, with escapes, or in single quotes, without any; in three quotes of
either kind it may run over lines, and then a line end right after the opening quotes does not count.
-/

namespace Stencil.Toml.Parser

/-- The characters that stand for themselves between double quotes. -/
def isBasicChar (c : Char) : Bool :=
  c = '\t' || 0x20 ≤ c.toNat && c ≠ '"' && c ≠ '\\' && c.toNat ≠ 0x7F

/-- The characters that stand for themselves between single quotes. -/
def isLiteralChar (c : Char) : Bool :=
  c = '\t' || 0x20 ≤ c.toNat && c ≠ '\'' && c.toNat ≠ 0x7F

def isHexDigit (c : Char) : Bool := c.isDigit || 'a' ≤ c && c ≤ 'f' || 'A' ≤ c && c ≤ 'F'

def digitValue (c : Char) : Nat :=
  if c.isDigit then c.toNat - '0'.toNat
  else if 'a' ≤ c then c.toNat - 'a'.toNat + 10
  else c.toNat - 'A'.toNat + 10

/-- The number that digits of the given base spell, the first digit counting most. -/
def digitsValue (base : Nat) (s : Text) : Nat := s.foldl (fun n c => n * base + digitValue c) 0

/-- The character of a code point that belongs to one. -/
def charOfCode? (n : Nat) : Option Char :=
  if h : n.isValidChar then some (Char.ofNatAux n h) else none

def unicodeEscape (size : Nat) : Parser Char :=
  checked (takeExactly size isHexDigit) fun s =>
    match charOfCode? (digitsValue 16 s) with
    | some c => .ok c
    | none => .error .outOfRange

/-- The meaning of a letter after a backslash. -/
def escapeLetter? : Char → Option Char
  | 'b' => some '\x08'
  | 'f' => some '\x0c'
  | 'n' => some '\n'
  | 'r' => some '\r'
  | 't' => some '\t'
  | '\\' => some '\\'
  | '"' => some '"'
  | _ => none

def escapeSymbols : List Expectation :=
  ["b", "f", "n", "r", "t", "u", "U", "\\", "\""].map .symbol

def escape : Parser Char := do
  char '\\'
  match ← next? with
  | none => fail
  | some 'u' => do char 'u'; inside .shortUnicodeEscape (commit (unicodeEscape 4))
  | some 'U' => do char 'U'; inside .longUnicodeEscape (commit (unicodeEscape 8))
  | some c =>
    match escapeLetter? c with
    | some meaning => do char c; return meaning
    | none => expecting escapeSymbols (inside .escapeSequence (commit failAfterOne))

def basicPart : Parser Text := either (takeWhile1 isBasicChar) (do return [← escape])

def basicString : Parser Text := do
  char '"'
  let parts ← many basicPart
  inside .basicString (commit (char '"'))
  return parts.flatten

def literalString : Parser Text := inside .literalString do
  char '\''
  let text ← takeWhile isLiteralChar
  commit (char '\'')
  return text

/-- One or two quotes that belong to the string, because what follows them is no third one. -/
def innerQuotes (quote : Char) (follows : Parser Unit) : Parser Text :=
  either
    (do literal [quote, quote]; peek follows; return [quote, quote])
    (do char quote; peek follows; return [quote])

def otherThan (c : Char) : Parser Unit := do
  let _ ← satisfy (· != c)

/-- A backslash at the end of a line: it takes away the line end and all blanks after it. -/
def lineContinuation : Parser Unit := do
  let _ ← many1 (do
    char '\\'
    gap
    newline
    let _ ← many (either newline (do let _ ← takeWhile1 isGap)))

def multilineBasicPart : Parser Text :=
  either (takeWhile1 isBasicChar)
    (either (do lineContinuation; return [])
      (either (do return [← escape])
        (do newline; return ['\n'])))

def multilineLiteralPart : Parser Text :=
  either (takeWhile1 isLiteralChar) (do newline; return ['\n'])

/-- Quotes and the text behind them. -/
def multilineLiteralGroup : Parser Text := do
  let quotes ← innerQuotes '\'' (otherThan '\'')
  let parts ← many1 multilineLiteralPart
  return quotes ++ parts.flatten

/-- All that stands between three single quotes and three more. -/
def multilineLiteralBody : Parser Text := do
  let first ← many multilineLiteralPart
  let more ← many multilineLiteralGroup
  let last ← optional (innerQuotes '\'' (literal ['\'', '\'', '\'']))
  return first.flatten ++ more.flatten ++ last.getD []

def multilineBasicString : Parser Text := inside .multilineBasicString do
  literal ['"', '"', '"']
  let _ ← optional newline
  let text ← commit do
    let first ← many multilineBasicPart
    let more ← many (do
      let quotes ← innerQuotes '"' (otherThan '"')
      let parts ← many multilineBasicPart
      return quotes ++ parts.flatten)
    let last ← optional (innerQuotes '"' (literal ['"', '"', '"']))
    return first.flatten ++ more.flatten ++ last.getD []
  commit (literal ['"', '"', '"'])
  return text

def multilineLiteralString : Parser Text := inside .multilineLiteralString do
  literal ['\'', '\'', '\'']
  let _ ← optional newline
  let text ← commit multilineLiteralBody
  commit (literal ['\'', '\'', '\''])
  return text

def string : Parser Text :=
  either multilineBasicString (either basicString (either multilineLiteralString literalString))

end Stencil.Toml.Parser
