import Stencil.Toml.DateTime
import Stencil.Toml.Node

/-!
# Keys and values

A key is a name, bare or in quotes, or several of them with dots between. Arrays and inline tables
nest up to a fixed depth, and dotted keys are no longer than that.
-/

namespace Stencil.Toml

/-- Nesting that reaches this depth is refused. -/
def depthLimit : Nat := 80

namespace Parser

def isBareKeyChar (c : Char) : Bool := c.isAlphanum || c = '-' || c = '_'

def keyName : Parser Text := do
  match ← next? with
  | some '"' => basicString
  | some '\'' => literalString
  | _ => takeWhile1 isBareKeyChar

def simpleKey : Parser Key := do
  let (name, span) ← withSpan keyName
  return ⟨name, span⟩

/-- A name of a dotted key, with the blanks around it. -/
def keyPart : Parser Key := do
  gap
  let key ← simpleKey
  gap
  return key

/-- The names of a dotted key; there is at least one. -/
def dottedKey : Parser (List Key) :=
  checked (inside .key (separated1 (char '.') keyPart))
    fun keys => if depthLimit ≤ keys.length then .error .tooDeep else .ok keys

/-- The keys before the last one, and the last one. -/
def splitLast : List Key → Option (List Key × Key)
  | [] => none
  | [k] => some ([], k)
  | k :: l :: ks => (splitLast (l :: ks)).map fun (path, last) => (k :: path, last)

/-- A key, an equals sign and a value, with `after` behind the value. -/
def keyValue (value : Parser Node) (after : Parser Unit) : Parser (List Key × Node) := do
  let keys ← dottedKey
  let n ← commit do
    expecting [.symbol ".", .symbol "="] (char '=')
    gap
    let n ← value
    after
    return n
  return (keys, n)

def arrayItems (value : Parser Node) : Parser (List Node) := do
  match ← next? with
  | some ']' => return []
  | _ =>
    let items ← separated (char ',') do
      blanks
      let item ← value
      blanks
      return item
    unless items.isEmpty do
      let _ ← optional (char ',')
    blanks
    return items

def array (value : Parser Node) : Parser (List Node) := do
  char '['
  let items ← commit (arrayItems value)
  expecting [.symbol "]"] (inside .array (commit (char ']')))
  return items

/-- The entries of an inline table, from its pairs in order. -/
def inlineEntries (pairs : List (List Key × Node)) : Except Fault Entries :=
  pairs.foldlM
    (fun es (keys, n) =>
      match splitLast keys with
      | some (path, key) =>
        Entries.addDotted .inlineDotted (fun name => .duplicateKey name none) [] .inline path key n es
      | none => .ok es)
    []

def inlineTable (value : Parser Node) : Parser Entries := do
  char '{'
  let entries ← commit <| checked
    (do
      let pairs ← separated (char ',') (keyValue value gap)
      gap
      return pairs)
    inlineEntries
  expecting [.symbol "\x7d"] (inside .inlineTable (commit (char '}')))
  return entries

/-- Words are read as if they were strings without quotes when they are none of the known ones. -/
def word (text : Text) (n : Span → Node) : Parser (Span → Node) :=
  expecting [.symbol "\"", .symbol "'"] <| inside .string do
    literal text
    return n

/-- A value; `nested` reads the values inside of it, unless the nesting is too deep for any. -/
def valueWith (nested : Option (Parser Node)) : Parser Node := do
  let (n, span) ← withSpan do
    match ← next? with
    | none => fail
    | some '"' | some '\'' => return Node.string (← string)
    | some '[' =>
      match nested with
      | none => refuse .tooDeep
      | some value => return Node.array (← array value)
    | some '{' =>
      match nested with
      | none => refuse .tooDeep
      | some value =>
        let entries ← inlineTable value
        return fun span => Node.table .inline entries (some span)
    | some '_' => return Node.integer (← expecting [.leadingDigit] integer)
    | some '.' => return Node.float (← expecting [.leadingDigit] float)
    | some 't' => commit (word "true".toList (Node.boolean true))
    | some 'f' => commit (word "false".toList (Node.boolean false))
    | some 'i' => word "inf".toList (Node.float (.infinite false))
    | some 'n' => word "nan".toList (Node.float .nan)
    | some c =>
      if isSign c || c.isDigit then
        either (do return Node.dateTime (← dateTime))
          (either (do return Node.float (← float)) (do return Node.integer (← integer)))
      else expecting [.symbol "\"", .symbol "'"] (inside .string fail)
  return n span

/-- A value that may nest `depth` levels deep. -/
def value : Nat → Parser Node
  | 0 => valueWith none
  | depth + 1 => valueWith (some (value depth))

end Parser

end Stencil.Toml
