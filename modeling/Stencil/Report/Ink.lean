import Stencil.Text

/-!
# Coloured pieces of text

A report is laid out once, as pieces of text with an ink each. With colour, a piece in any ink but the
plain one stands between an escape sequence that sets its colour and one that takes it back; without
colour only the texts are left.
-/

namespace Stencil

inductive Ink where
  | plain
  | alert
  | frame
  | aside
  | quiet
  | help
  deriving DecidableEq, Repr

/-- The colour code of an ink. -/
def Ink.code? : Ink → Option Text
  | plain => none
  | alert => some "31".toList
  | frame => some "38;5;246".toList
  | aside => some "38;5;240".toList
  | quiet => some "38;5;249".toList
  | help => some "38;5;115".toList

structure Piece where
  ink : Ink
  text : Text
  deriving DecidableEq, Repr

namespace Piece

def render (colour : Bool) (p : Piece) : Text :=
  match colour, p.ink.code? with
  | true, some code => '\x1b' :: '[' :: code ++ 'm' :: p.text ++ ['\x1b', '[', '0', 'm']
  | _, _ => p.text

def renderAll (colour : Bool) (ps : List Piece) : Text := ps.flatMap (render colour)

/-- Whether a character may stand in a colour code. -/
def isCodeChar (c : Char) : Bool := c.isDigit || c = ';'

/-- What follows an escape sequence at the front of a text. -/
def afterSequence? : Text → Option Text
  | '\x1b' :: '[' :: s =>
    match s.dropWhile isCodeChar with
    | 'm' :: rest => some rest
    | _ => none
  | _ => none

theorem length_afterSequence? {s rest : Text} (h : afterSequence? s = some rest) :
    rest.length < s.length := by
  unfold afterSequence? at h
  split at h
  · next s =>
    split at h
    · next tail heq =>
      cases h
      have := (List.dropWhile_suffix isCodeChar (l := s)).length_le
      rw [heq] at this
      simp only [List.length_cons] at this ⊢
      omega
    · cases h
  · cases h

/-- The text without its escape sequences. -/
def withoutColour : Text → Text
  | [] => []
  | c :: s =>
    match _h : afterSequence? (c :: s) with
    | some rest => withoutColour rest
    | none => c :: withoutColour s
termination_by s => s.length
decreasing_by
  · exact length_afterSequence? _h
  · simp

def plain (s : Text) : Piece := ⟨.plain, s⟩

def newline : Piece := plain ['\n']

/-- A piece for each character. -/
def single (ink : Ink) (s : Text) : List Piece := s.map fun c => ⟨ink, [c]⟩

/-- A cell of the given width: its first column, then copies of `fill`. -/
def cell (ink : Ink) (head fill : Char) : Nat → List Piece
  | 0 => []
  | n + 1 => ⟨ink, [head]⟩ :: List.replicate n ⟨ink, [fill]⟩

end Piece

end Stencil
