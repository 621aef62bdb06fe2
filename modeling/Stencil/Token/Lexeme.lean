import Stencil.Token

/-!
# Lexing

A template is cut in two steps. The first knows nothing but `@`: two of them make a delimiter as soon as
they stand side by side, one that is left over stands alone, and a stretch without any stays whole. The
second goes through these lexemes and looks one of them ahead: a delimiter takes in a delimiter right
behind it, or the placeholder body at the front of the stretch behind it, and what is left of that
stretch becomes a token of its own.
-/

namespace Stencil

inductive Lexeme where
  | delimiter
  | atSign
  | run (text : Text)
  deriving DecidableEq, Repr

namespace Lexeme

/-- Number of bytes that a lexeme takes up. -/
def width : Lexeme → Nat
  | delimiter => 2
  | atSign => 1
  | run text => byteLength text

/-- The lexemes of a text. -/
def split : Text → List Lexeme
  | [] => []
  | '@' :: '@' :: s => delimiter :: split s
  | '@' :: s => atSign :: split s
  | c :: s =>
    match split s with
    | run text :: ls => run (c :: text) :: ls
    | ls => run [c] :: ls

/-- A lexeme and the bytes that it takes up. -/
structure Placed where
  lexeme : Lexeme
  span : Span
  deriving DecidableEq, Repr

/-- The lexemes one after the other from byte `start` on. -/
def placeAll (start : Nat) : List Lexeme → List Placed
  | [] => []
  | l :: ls => ⟨l, start, start + l.width⟩ :: placeAll (start + l.width) ls

end Lexeme

namespace Token

/-- The tokens that lexemes are joined into. -/
def fuse : List Lexeme.Placed → List Placed
  | [] => []
  | ⟨.run text, span⟩ :: ls => ⟨run text, span⟩ :: fuse ls
  | ⟨.atSign, span⟩ :: ls => ⟨atSign, span⟩ :: fuse ls
  | ⟨.delimiter, span⟩ :: ⟨.delimiter, next⟩ :: ls => ⟨escaped, span.start, next.stop⟩ :: fuse ls
  | ⟨.delimiter, span⟩ :: ⟨.run text, next⟩ :: ls =>
    match placeholderBody? text with
    | some (token, rest) =>
      let stop := next.start + (byteLength text - byteLength rest)
      ⟨token, span.start, stop⟩ ::
        if stop < next.stop then ⟨run rest, stop, next.stop⟩ :: fuse ls else fuse ls
    | none => ⟨dangling, span⟩ :: fuse (⟨.run text, next⟩ :: ls)
  | ⟨.delimiter, span⟩ :: ls => ⟨dangling, span⟩ :: fuse ls

/-- The tokens of a text. -/
def lex (s : Text) : List Placed := fuse (Lexeme.placeAll 0 (Lexeme.split s))

end Token

end Stencil
