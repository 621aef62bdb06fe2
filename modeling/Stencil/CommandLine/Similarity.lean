import Stencil.Text

/-!
# Similar words

Two words are similar when many characters of the one occur in the other at nearly the same place, and
few of these are out of order. The similarity lies between 0 and 1: it is the mean of the shares that
the common characters have in either word and of the share of them that is in order. Only three times
that mean is needed, and it is kept exact, as a quotient.
-/

namespace Stencil.CommandLine.Similarity

/-- The first place from `low` up to and without `high` that holds `c` and is free. -/
def findPlace (c : Char) (low high : Nat) (free : List Bool) (b : Text) : Option Nat :=
  ((b.zip free).zipIdx.find? fun ((d, isFree), j) => low ≤ j && j < high && isFree && d = c).map (·.2)

/-- The characters of `a` that find a place in `b`, and which places stay free. Character number `i`
may take a place at most `reach` away from its own. -/
def allot (reach : Nat) (b : Text) : Nat → List Bool → Text → Text × List Bool
  | _, free, [] => ([], free)
  | i, free, c :: a =>
    match findPlace c (i - reach) (i + reach + 1) free b with
    | some j =>
      let (taken, free) := allot reach b (i + 1) (free.set j false) a
      (c :: taken, free)
    | none => allot reach b (i + 1) free a

/-- The numbers of common characters and of pairs of them that are out of order. -/
def common (a b : Text) : Nat × Nat :=
  let reach := max a.length b.length / 2 - 1
  let (taken, free) := allot reach b 0 (b.map fun _ => true) a
  let placed := ((b.zip free).filter fun (_, isFree) => !isFree).map (·.1)
  let disorder := (taken.zip placed).countP fun (c, d) => c ≠ d
  (taken.length, disorder / 2)

/-- A quotient of natural numbers. -/
structure Ratio where
  num : Nat
  den : Nat
  deriving DecidableEq, Repr

def Ratio.le (p q : Ratio) : Bool := p.num * q.den ≤ q.num * p.den

/-- Three times the similarity of two words. -/
def tripled (a b : Text) : Ratio :=
  let (m, t) := common a b
  if m = 0 then ⟨0, 1⟩
  else
    ⟨m * b.length * m + m * a.length * m + (m - t) * (a.length * b.length), a.length * b.length * m⟩

end Stencil.CommandLine.Similarity
