import Stencil.Report

/-!
# Filling by cutting

The same work can be done with nothing but the source and byte offsets. Lexemes are spans, and wherever
characters have to be looked at they are cut out of the source by the ends of a span. A cut fails when
its ends are crossed, when one of them is past the end of the text, and when one falls inside a
character, and with a cut the whole work fails.
-/

namespace Stencil

namespace Lexeme

inductive Kind where
  | delimiter
  | atSign
  | run
  deriving DecidableEq, Repr

/-- What a kind of lexeme takes off the front of a text; nothing where it does not match. -/
def Kind.taken : Kind → Text → Text
  | delimiter, s => if ['@', '@'].isPrefixOf s then ['@', '@'] else []
  | atSign, s => if ['@'].isPrefixOf s then ['@'] else []
  | run, s => s.takeWhile (· != '@')

/-- The kind that takes the most off the front of a text; none when no kind takes anything. -/
def Kind.longest? (s : Text) : Option Kind :=
  [delimiter, atSign, run].foldl (fun best? kind =>
    if (best?.elim [] (·.taken s)).length < (kind.taken s).length then some kind else best?) none

/-- The lexemes of a text that begins at byte `start`. Where no kind matches, one character is passed
over. -/
def scan (start : Nat) : Text → List (Option Kind × Span)
  | [] => []
  | c :: s =>
    let kind? := Kind.longest? (c :: s)
    let taken := kind?.elim [c] (·.taken (c :: s))
    let stop := start + byteLength taken
    (kind?, ⟨start, stop⟩) :: scan stop (s.drop (taken.length - 1))
termination_by s => s.length
decreasing_by
  rw [List.length_drop, List.length_cons]
  omega

end Lexeme

namespace Cutting

open Token (Placed)

/-- The number of bytes of a name at the front of a text, zero without one. -/
def nameLength? (s : Text) : Option Nat := do
  let stop := byteLength (s.takeWhile isNamePart)
  let name ← slice? s ⟨0, stop⟩
  return if isIdentifier name then stop else 0

/-- The placeholder whose body stands at the front of a text, and the number of bytes of the body. -/
def body? : Text → Option (Option (Token × Nat))
  | '{' :: s => do
    let length ← nameLength? s
    if 0 < length then
      let rest ← slice? s ⟨length, byteLength s⟩
      if rest.head? = some '}' then
        let name ← slice? s ⟨0, length⟩
        return some (.braced name, length + 2)
      else return none
    else return none
  | s => do
    let length ← nameLength? s
    if 0 < length then
      let name ← slice? s ⟨0, length⟩
      return some (.named name, length)
    else return none

/-- The tokens that the lexemes of a source are joined into. -/
def join? (source : Text) : List (Lexeme.Kind × Span) → Option (List Placed)
  | [] => return []
  | (.run, span) :: ls => do
    let text ← slice? source span
    return ⟨.run text, span⟩ :: (← join? source ls)
  | (.atSign, span) :: ls => return ⟨.atSign, span⟩ :: (← join? source ls)
  | (.delimiter, span) :: (.delimiter, next) :: ls =>
    return ⟨.escaped, span.start, next.stop⟩ :: (← join? source ls)
  | (.delimiter, span) :: (.run, next) :: ls => do
    let text ← slice? source next
    match ← body? text with
    | some (token, length) =>
      let stop := next.start + length
      if stop < next.stop then
        let rest ← slice? source ⟨stop, next.stop⟩
        return ⟨token, span.start, stop⟩ :: ⟨.run rest, stop, next.stop⟩ :: (← join? source ls)
      else return ⟨token, span.start, stop⟩ :: (← join? source ls)
    | none => return ⟨.dangling, span⟩ :: (← join? source ((.run, next) :: ls))
  | (.delimiter, span) :: ls => return ⟨.dangling, span⟩ :: (← join? source ls)

/-- The tokens of a source. What no kind of lexeme matches would count as text. -/
def lex? (source : Text) : Option (List Placed) :=
  join? source ((Lexeme.scan 0 source).map fun (kind?, span) => (kind?.getD .run, span))

def identifiers? (source : Text) : Option (List Text) := do
  let tokens ← lex? source
  return (tokens.filterMap (·.token.placeholder?)).eraseDups

/-- The offset of the last newline of a text. -/
def lastNewline? (s : Text) : Option Nat :=
  match s.reverse.dropWhile (· ≠ '\n') with
  | [] => none
  | _ :: before => some (byteLength before.reverse)

/-- The position of a byte offset, an offset past the end counting as the end. -/
def position? (source : Text) (offset : Nat) : Option Position := do
  let before ← slice? source ⟨0, min offset (byteLength source)⟩
  let lineStart := ((lastNewline? before).map (· + 1)).getD 0
  let line ← slice? before ⟨lineStart, byteLength before⟩
  return ⟨before.count '\n' + 1, line.length + 1⟩

/-- What a token of a source contributes to the filled text. -/
def contribution? (source : Text) (table : Table) (t : Placed) :
    Option (Except TemplateError Text) :=
  match t.token with
  | .run _ | .atSign => return .ok (← slice? source t.span)
  | .escaped => return .ok ['@', '@']
  | .named name | .braced name =>
    match table.get? name with
    | some value => return .ok value
    | none => return .error (.undefined name t.span (table.suggestions name))
  | .dangling => return .error (.invalid t.span (← position? source t.span.start))

def fill? (source : Text) (table : Table) : Option (Except (List TemplateError) Text) := do
  let parts ← (← lex? source).mapM (contribution? source table)
  return Placed.assemble parts

/-- The filled text, or the report of each error. -/
def reports? (source : Text) (table : Table) (file : Text) (colour : Bool) :
    Option (Except (List Text) Text) := do
  match ← fill? source table with
  | .ok text => return .ok text
  | .error problems => return .error (← problems.mapM (·.format? source file colour))

end Cutting

end Stencil
