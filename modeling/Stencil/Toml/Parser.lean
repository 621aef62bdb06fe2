import Stencil.Toml.Error

/-!
# Reading from the front of a document

A parser takes what it needs from the front of the text that is left. When it fails, the failure
keeps the place that reading had come to, and the parts of the document around it add what they
know, innermost first. A choice gives way to its next branch unless the failure is committed: from
then on the text can be nothing else.
-/

namespace Stencil.Toml

/-- The text that is left and the number of bytes before it. -/
structure Cursor where
  offset : Nat
  rest : Text
  deriving DecidableEq, Repr

structure Failure where
  offset : Nat
  committed : Bool
  inside : List Construct
  expected : List Expectation
  fault : Option Fault
  deriving DecidableEq, Repr

abbrev Parser (α : Type) := StateT Cursor (Except Failure) α

namespace Parser

variable {α β : Type}

def failAt (offset : Nat) (committed : Bool) (fault : Option Fault) : Except Failure α :=
  .error ⟨offset, committed, [], [], fault⟩

def fail : Parser α := fun c => failAt c.offset false none

/-- Fails for a stated reason, and beyond recovery. -/
def refuse (fault : Fault) : Parser α := fun c => failAt c.offset true (some fault)

def next? : Parser (Option Char) := fun c => .ok (c.rest.head?, c)

/-- The character after the next one. -/
def second? : Parser (Option Char) := fun c => .ok (c.rest.tail.head?, c)

def satisfy (p : Char → Bool) : Parser Char
  | ⟨offset, c :: rest⟩ =>
    if p c then .ok (c, ⟨offset + c.utf8Size, rest⟩) else failAt offset false none
  | ⟨offset, []⟩ => failAt offset false none

def char (c : Char) : Parser Unit := do
  let _ ← satisfy (· == c)

/-- Takes one character, whatever it is, and fails. Of a character of several bytes only the first
byte is taken, so the failure is placed at the character. -/
def failAfterOne : Parser α
  | ⟨offset, c :: _⟩ => failAt (if c.utf8Size = 1 then offset + 1 else offset) false none
  | ⟨offset, []⟩ => failAt offset false none

def literal (s : Text) : Parser Unit := fun c =>
  if s.isPrefixOf c.rest then .ok ((), ⟨c.offset + byteLength s, c.rest.drop s.length⟩)
  else failAt c.offset false none

def takeWhile (p : Char → Bool) : Parser Text := fun c =>
  let taken := c.rest.takeWhile p
  .ok (taken, ⟨c.offset + byteLength taken, c.rest.dropWhile p⟩)

/-- A run of at least one character. -/
def takeWhile1 (p : Char → Bool) : Parser Text := do
  match ← next? with
  | some c => if p c then takeWhile p else fail
  | none => fail

/-- Exactly `n` characters that satisfy `p`. -/
def takeExactly (n : Nat) (p : Char → Bool) : Parser Text := fun c =>
  let taken := (c.rest.take n).takeWhile p
  if taken.length = n then .ok (taken, ⟨c.offset + byteLength taken, c.rest.drop n⟩)
  else failAt c.offset false none

def atEnd : Parser Unit := fun c =>
  match c.rest with
  | [] => .ok ((), c)
  | _ :: _ => failAt c.offset false none

def mapFailure (f : Failure → Failure) (p : Parser α) : Parser α := fun c =>
  match p c with
  | .ok r => .ok r
  | .error e => .error (f e)

def commit (p : Parser α) : Parser α := p.mapFailure fun e => { e with committed := true }

def inside (k : Construct) (p : Parser α) : Parser α :=
  p.mapFailure fun e => { e with inside := e.inside ++ [k] }

def expecting (ws : List Expectation) (p : Parser α) : Parser α :=
  p.mapFailure fun e => { e with expected := e.expected ++ ws }

/-- Fails at the beginning of `p` when `check` finds fault with what `p` gives. -/
def checkedWith (committed : Bool) (p : Parser α) (check : α → Except (Option Fault) β) :
    Parser β := fun c =>
  match p c with
  | .error e => .error e
  | .ok (a, c') =>
    match check a with
    | .ok b => .ok (b, c')
    | .error fault => failAt c.offset committed fault

def checked (p : Parser α) (check : α → Except Fault β) : Parser β :=
  checkedWith false p fun a => (check a).mapError some

def either (p q : Parser α) : Parser α := fun c =>
  match p c with
  | .ok r => .ok r
  | .error e => if e.committed then .error e else q c

def optional (p : Parser α) : Parser (Option α) := fun c =>
  match p c with
  | .ok (a, c') => .ok (some a, c')
  | .error e => if e.committed then .error e else .ok (none, c)

/-- Looks ahead without taking anything. -/
def peek (p : Parser α) : Parser α := fun c =>
  match p c with
  | .ok (a, _) => .ok (a, c)
  | .error e => .error e

/-- At most `n` times `p`, as often as it succeeds. -/
def upTo : Nat → Parser α → Parser (List α)
  | 0, _ => pure []
  | n + 1, p => do
    match ← optional p with
    | some a => return a :: (← upTo n p)
    | none => return []

/-- As often as `p` succeeds. Every `p` that is repeated takes at least one character, so the text
that is left bounds the number of times. -/
def many (p : Parser α) : Parser (List α) := fun c => upTo c.rest.length p c

/-- At least once. -/
def many1 (p : Parser α) : Parser (List α) := do return (← p) :: (← many p)

/-- One `p`, then as many as follow a `separator` each. A separator without a `p` after it is left. -/
def separated1 (separator : Parser Unit) (p : Parser α) : Parser (List α) := do
  let first ← p
  return first :: (← many (do separator; p))

def separated (separator : Parser Unit) (p : Parser α) : Parser (List α) := do
  match ← optional (separated1 separator p) with
  | some all => return all
  | none => return []

/-- The stretch of the document that `p` takes. -/
def withSpan (p : Parser α) : Parser (α × Span) := fun c =>
  match p c with
  | .ok (a, c') => .ok ((a, ⟨c.offset, c'.offset⟩), c')
  | .error e => .error e

/-- The text that `p` takes. -/
def taken (p : Parser α) : Parser Text := fun c =>
  match p c with
  | .ok (_, c') => .ok (c.rest.take (c.rest.length - c'.rest.length), c')
  | .error e => .error e

end Parser

end Stencil.Toml
