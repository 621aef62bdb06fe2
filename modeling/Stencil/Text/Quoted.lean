import Stencil.Text
import Stencil.Text.Printable

/-!
# Texts in quotes

A text inside a message or a log line stands in double quotes. Quotes, backslashes, line breaks, tabs
and NUL are written with a backslash; a character that would not show, or would join the character
before it, is written with its number.
-/

namespace Stencil

/-- Fillers for parts of a Hangul syllable: letters that show nothing. -/
def isHangulFiller (c : Char) : Bool :=
  c = '\u115f' || c = '\u1160' || c = '\u3164' || c = '\uffa0'

/-- Voicing marks of halfwidth Katakana: they belong to the character before them but stand beside it. -/
def isHalfwidthMark (c : Char) : Bool := c = '\uff9e' || c = '\uff9f'

/-- Whether a character shows, on its own. -/
def showsAlone (c : Char) : Bool :=
  isPrintable c && !isHangulFiller c && (!isExtending c || isHalfwidthMark c)

def quotedChar (c : Char) : Text :=
  if c = '\x00' then ['\\', '0']
  else if c = '\t' then ['\\', 't']
  else if c = '\n' then ['\\', 'n']
  else if c = '\r' then ['\\', 'r']
  else if c = '"' then ['\\', '"']
  else if c = '\\' then ['\\', '\\']
  else if showsAlone c then [c]
  else '\\' :: 'u' :: '{' :: Nat.toDigits 16 c.toNat ++ ['}']

def quoted (s : Text) : Text := '"' :: s.flatMap quotedChar ++ ['"']

end Stencil
