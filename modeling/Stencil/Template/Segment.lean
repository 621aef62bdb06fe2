import Stencil.Template

/-!
# Segments

A template without dangling delimiters stands for a list of segments: literal text and placeholders.
In the other direction every list of segments can be written as a template. Literal text is escaped
for that, every delimiter in it doubled from left to right, and placeholders take braces.
-/

namespace Stencil

inductive Segment where
  | literal (text : Text)
  | placeholder (name : Text)
  deriving DecidableEq, Repr

namespace Segment

/-- Doubles every delimiter of a text. -/
def escape : Text → Text
  | '@' :: '@' :: s => '@' :: '@' :: '@' :: '@' :: escape s
  | c :: s => c :: escape s
  | [] => []

/-- How a segment is written in a template. -/
def written : Segment → Text
  | literal text => escape text
  | placeholder name => (Token.braced name).spelling

/-- The name of a placeholder. -/
def name? : Segment → Option Text
  | literal _ => none
  | placeholder name => some name

/-- What a segment becomes when `value?` gives the texts of placeholders. -/
def filled? (value? : Text → Option Text) : Segment → Option Text
  | literal text => some text
  | placeholder name => value? name

/-- What a token stands for. A dangling delimiter stands for nothing. -/
def ofToken? : Token → Option Segment
  | .escaped => some (literal ['@', '@'])
  | .atSign => some (literal ['@'])
  | .run text => some (literal text)
  | .named name | .braced name => some (placeholder name)
  | .dangling => none

end Segment

namespace Template

def ofSegments (segments : List Segment) : Template := ⟨segments.flatMap Segment.written⟩

/-- The segments of a template; none when a delimiter dangles. -/
def segments? (t : Template) : Option (List Segment) :=
  t.tokens.mapM fun placed => Segment.ofToken? placed.token

end Template

end Stencil
