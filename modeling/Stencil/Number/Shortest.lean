import Stencil.Number.Binary64
import Stencil.Text

/-!
# Shortest decimal text of a binary number

A finite number is written with the fewest digits that read back to it, and among those with the
digits nearest to it; of two equally near ones the larger is taken. The digits are written out in
full, without a power of ten, and always with a decimal point.
-/

namespace Stencil.Binary64

/-- A number between two neighbours that round to it, all over one denominator. -/
structure Interval where
  low : Nat
  value : Nat
  high : Nat
  denominator : Nat
  closed : Bool

/-- The numbers that round to `mantissa · 2 ^ exponent`; the ends belong to it when the mantissa is
even. Below a power of two the neighbour is at half the distance. -/
def interval (mantissa : Nat) (exponent : Int) : Interval :=
  let below := if mantissa = Nat.pow 2 52 ∧ minExponent < exponent then 1 else 2
  let up := Nat.pow 2 (exponent - 2).toNat
  { low := (4 * mantissa - below) * up
    value := 4 * mantissa * up
    high := (4 * mantissa + 2) * up
    denominator := Nat.pow 2 (2 - exponent).toNat
    closed := mantissa % 2 = 0 }

/-- The least `k` with `value < 10 ^ k`, for a positive value. -/
def Interval.decimalSize (i : Interval) : Int :=
  if i.denominator ≤ i.value then (Nat.toDigits 10 (i.value / i.denominator)).length
  else 1 - ((Nat.toDigits 10 ((i.denominator - 1) / i.value)).length : Int)

/-- The multiple of `10 ^ exponent` in the interval that is nearest to the value. -/
def Interval.pick? (i : Interval) (exponent : Int) : Option Nat :=
  let up := Nat.pow 10 (-exponent).toNat
  let unit := i.denominator * Nat.pow 10 exponent.toNat
  let value := i.value * up
  let down := value / unit
  let below (a b : Nat) : Bool := if i.closed then a ≤ b else a < b
  let lower := below (i.low * up) (down * unit)
  let upper := below ((down + 1) * unit) (i.high * up)
  match lower, upper with
  | true, true => some (if value - down * unit < (down + 1) * unit - value then down else down + 1)
  | true, false => some down
  | false, true => some (down + 1)
  | false, false => none

/-- The digits and the power of ten of the shortest decimal form of a positive number. -/
def shortest (mantissa : Nat) (exponent : Int) : Nat × Int :=
  let i := interval mantissa exponent
  let size := i.decimalSize
  let found := (List.range 17).findSome? fun n =>
    let e := size - (n + 1 : Nat)
    (i.pick? e).map (·, e)
  found.getD (i.value / i.denominator, 0)

/-- Digits with a decimal point, written out in full. -/
def positional (digits : Nat) (exponent : Int) : Text :=
  let all := decimal digits
  let kept := (all.reverse.dropWhile (· == '0')).reverse
  let exponent := exponent + (all.length - kept.length : Nat)
  let point : Int := kept.length + exponent
  if 0 ≤ exponent then kept ++ List.replicate exponent.toNat '0' ++ ['.', '0']
  else if 0 < point then kept.take point.toNat ++ '.' :: kept.drop point.toNat
  else '0' :: '.' :: List.replicate (-point).toNat '0' ++ kept

def text : Binary64 → Text
  | nan => ['N', 'a', 'N']
  | infinite negative => (if negative then ['-'] else []) ++ ['i', 'n', 'f']
  | finite negative mantissa exponent =>
    (if negative then ['-'] else []) ++
      if mantissa = 0 then ['0', '.', '0']
      else
        let (digits, e) := shortest mantissa exponent
        positional digits e

end Stencil.Binary64
