import Stencil.Text

/-!
# Lines and columns

Lines and columns count from one. A column counts characters, and only a newline ends a line, so the
position of a byte offset is the position reached by walking over the characters before it.
-/

namespace Stencil

structure Position where
  line : Nat
  column : Nat
  deriving DecidableEq, Repr

namespace Position

def first : Position := ⟨1, 1⟩

def step (p : Position) (c : Char) : Position :=
  if c = '\n' then ⟨p.line + 1, 1⟩ else ⟨p.line, p.column + 1⟩

/-- The position reached from `p` by walking over a text. -/
def advance (p : Position) (s : Text) : Position := s.foldl step p

@[simp] theorem advance_nil (p : Position) : p.advance [] = p := rfl

@[simp] theorem advance_cons (p : Position) (c : Char) (s : Text) :
    p.advance (c :: s) = (p.step c).advance s := rfl

@[simp] theorem advance_append (p : Position) (s t : Text) :
    p.advance (s ++ t) = (p.advance s).advance t := List.foldl_append

/-- The position of a byte offset. An offset past the end counts as the end; an offset inside a
character has no position. -/
def ofOffset? (s : Text) (offset : Nat) : Option Position :=
  match cutAt? s (min offset (byteLength s)) with
  | some (before, _) => some (first.advance before)
  | none => none

/-- The first `n` lines of a text, each with its newline. -/
def firstLines : Nat → Text → Text
  | 0, _ => []
  | n + 1, s =>
    s.takeWhile (· ≠ '\n') ++ (s.dropWhile (· ≠ '\n')).take 1 ++
      firstLines n (s.dropWhile (· ≠ '\n')).tail

/-- The byte offset of a position: the lines above it, and the characters before it in its line. -/
def offset (s : Text) (p : Position) : Nat :=
  let above := firstLines (p.line - 1) s
  byteLength above + byteLength ((s.drop above.length).take (p.column - 1))

theorem ofOffset?_append (s t : Text) :
    ofOffset? (s ++ t) (byteLength s) = some (first.advance s) := by
  have : min (byteLength s) (byteLength (s ++ t)) = byteLength s := by
    rw [byteLength_append]; omega
  simp only [ofOffset?, this, cutAt?_append]

end Position

end Stencil
