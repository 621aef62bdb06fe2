import Stencil.Text

/-!
# Escape sequences

A terminal takes some characters of a text as commands: control characters, and sequences that start
with the escape character. `withoutEscapes` is what is left of a text for the reader. A spacing
character inside a short sequence shows together with the characters behind it, and the sequence goes on
at the next control character.
-/

namespace Stencil

/-- Control characters that only move what follows. -/
def isSpacing (c : Char) : Bool := c = '\t' || c = '\n' || c = '\x0c' || c = '\r'

/-- Whether a character outside of escape sequences is there for the reader. -/
def isSeen (c : Char) : Bool := isSpacing c || (' ' ≤ c && c ≠ '\x7f')

/-- How far a text is into an escape sequence. -/
inductive EscapePhase where
  /-- Outside of any sequence. -/
  | outside
  /-- Behind the escape character. -/
  | opened
  /-- Behind the escape character and characters that say how to read the last one. -/
  | qualified
  /-- In a control sequence, which its first letter ends. -/
  | control
  /-- In a command for the operating system, which a bell ends. -/
  | command
  /-- At the start of a device control string. -/
  | device
  /-- In the parameters of a device control string. -/
  | deviceParameters
  /-- Behind the parameters of a device control string. -/
  | deviceQualified
  /-- In a string that goes on to its terminator. -/
  | string
  deriving DecidableEq, Repr

namespace EscapePhase

/-- Whether the UTF-8 form of a character has the byte that terminates a string. -/
def terminates (c : Char) : Bool := (String.utf8EncodeChar c).contains 0x9C

/-- Whether a character shows where the text is not showing yet. A spacing character shows inside short
sequences, too. -/
def keeps : EscapePhase → Char → Bool
  | outside, c => isSeen c
  | opened, c | qualified, c | control, c => isSpacing c
  | _, _ => false

/-- The phase behind a character that is none of those that work in every phase. -/
def next : EscapePhase → Char → EscapePhase
  | outside, _ => outside
  | opened, c =>
    if c = '[' then control
    else if c = ']' then command
    else if c = 'P' then device
    else if c = 'X' || c = '^' || c = '_' then string
    else if ' ' ≤ c && c ≤ '/' then qualified
    else if '0' ≤ c && c ≤ '~' then outside
    else opened
  | qualified, c => if '0' ≤ c && c ≤ '~' then outside else qualified
  | control, c => if '@' ≤ c && c ≤ '~' then outside else control
  | command, c => if c = '\x07' then outside else command
  | device, c =>
    if ' ' ≤ c && c ≤ '/' then deviceQualified
    else if '0' ≤ c && c ≤ '?' then deviceParameters
    else if '@' ≤ c && c ≤ '~' then string
    else device
  | deviceParameters, c =>
    if ' ' ≤ c && c ≤ '/' then deviceQualified
    else if '<' ≤ c && c ≤ '~' then string
    else deviceParameters
  | deviceQualified, c => if '0' ≤ c && c ≤ '~' then string else deviceQualified
  | string, c => if terminates c then outside else string

/-- The phase behind a character that does not show. The escape character starts a sequence anywhere;
two control characters end one. -/
def step (p : EscapePhase) (c : Char) : EscapePhase :=
  if c = '\x1b' then opened
  else if c = '\x18' || c = '\x1a' then outside
  else p.next c

/-- The phase behind a character that shows. A character beyond ASCII ends a sequence, the others leave
it to go on where they end. -/
def wait (p : EscapePhase) (c : Char) : EscapePhase := if c.toNat < 0x80 then p else outside

/-- What a text keeps from a phase on; `showing` once the character before shows. From one character
that shows on, all show up to the next control character that is no spacing. -/
def kept (p : EscapePhase) (showing : Bool) : Text → Text
  | [] => []
  | c :: s =>
    if p.keeps c || (showing && isSeen c) then c :: (p.wait c).kept true s
    else (p.step c).kept false s

end EscapePhase

/-- A text without its escape sequences and control characters other than spacing ones. -/
def withoutEscapes (s : Text) : Text := EscapePhase.outside.kept false s

end Stencil
