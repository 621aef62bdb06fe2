import Stencil.Toml.Strings

/-!
# Numbers

Integers have 64 bits with a sign. Digits may be set apart by single underscores. A floating-point
number is taken to the nearest binary number; one that would become infinite is refused.
-/

namespace Stencil.Toml.Parser

def isSign (c : Char) : Bool := c = '+' || c = '-'

/-- Digits with single underscores between them. -/
def digitRun (isDigit : Char → Bool) : Parser Unit := do
  let _ ← satisfy isDigit
  let _ ← many (either
    (do let _ ← satisfy isDigit)
    (do char '_'; let _ ← expecting [.digit] (commit (satisfy isDigit))))

/-- A decimal integer: no zero before other digits. -/
def decimalInteger : Parser Text := inside .integer (taken do
  let _ ← optional (satisfy isSign)
  either
    (do let _ ← peek (satisfy fun c => c.isDigit && c != '0'); digitRun Char.isDigit)
    (do let _ ← satisfy Char.isDigit))

/-- Digits without the underscores. -/
def withoutUnderscores (s : Text) : Text := s.filter (· != '_')

/-- Keeps a number within 64 bits. -/
def asInteger (n : Int) : Except (Option Fault) Int :=
  if 0x7FFFFFFFFFFFFFFF < n then .error (some .tooLarge)
  else if n < -0x8000000000000000 then .error (some .tooSmall)
  else .ok n

/-- The sign and the rest of a number's text. -/
def splitSign : Text → Bool × Text
  | '-' :: s => (true, s)
  | '+' :: s => (false, s)
  | s => (false, s)

def decimalValue (s : Text) : Int :=
  let (negative, digits) := splitSign (withoutUnderscores s)
  let n : Int := digitsValue 10 digits
  if negative then -n else n

/-- An integer in another base, after its two-character mark. -/
def basedInteger (k : Construct) (mark : Text) (base : Nat) (isDigit : Char → Bool) : Parser Int :=
  commit <| checkedWith true
    (inside k do
      literal mark
      commit (taken (digitRun isDigit)))
    fun s => asInteger (digitsValue base (withoutUnderscores s))

def integer : Parser Int := do
  match ← next?, ← second? with
  | some '0', some 'x' => basedInteger .hexadecimalInteger ['0', 'x'] 16 isHexDigit
  | some '0', some 'o' =>
    basedInteger .octalInteger ['0', 'o'] 8 fun c => '0' ≤ c && c ≤ '7'
  | some '0', some 'b' =>
    basedInteger .binaryInteger ['0', 'b'] 2 fun c => c = '0' || c = '1'
  | _, _ => checkedWith true decimalInteger fun s => asInteger (decimalValue s)

def fraction : Parser Unit := do
  char '.'
  expecting [.digit] (commit (digitRun Char.isDigit))

def exponent : Parser Unit := do
  let _ ← satisfy fun c => c = 'e' || c = 'E'
  let _ ← optional (satisfy isSign)
  commit (digitRun Char.isDigit)

/-- The number that a decimal text with a fraction or an exponent stands for. -/
def binaryValue (s : Text) : Binary64 :=
  let (negative, s) := splitSign (withoutUnderscores s)
  let wholePart := s.takeWhile Char.isDigit
  let s := s.dropWhile Char.isDigit
  let (places, s) := match s with
    | '.' :: s => (s.takeWhile Char.isDigit, s.dropWhile Char.isDigit)
    | s => ([], s)
  let power : Int := match s with
    | _ :: s => decimalValue s
    | [] => 0
  .ofDecimal negative (digitsValue 10 (wholePart ++ places)) (power - places.length)

def finiteFloat : Parser Binary64 :=
  checkedWith true
    (taken do
      let _ ← decimalInteger
      either exponent (do fraction; let _ ← optional exponent))
    fun s =>
      match binaryValue s with
      | .infinite false => .error none
      | x => .ok x

def specialFloat : Parser Binary64 := do
  let sign ← optional (satisfy isSign)
  either
    (do literal "inf".toList; return .infinite (sign == some '-'))
    (do literal "nan".toList; return .nan)

def float : Parser Binary64 := inside .floatingPoint (either finiteFloat specialFloat)

end Stencil.Toml.Parser
