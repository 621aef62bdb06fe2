import Stencil.Toml.Value
import Stencil.Toml.Writer

/-!
# Documents

A document is a sequence of lines: headers, which open a table or the next table of an array of
tables, and pairs of a key and a value, which go into the table that is open. The open table is
joined to the document when the next header or the end is reached.
-/

namespace Stencil.Toml

/-- How a key is written in a message: bare where that is possible, else in quotes. -/
def Key.written (k : Key) : Text :=
  let plain (c : Char) : Bool := c = '\t' || 0x20 ≤ c.toNat && c.toNat ≠ 0x7F
  if !k.name.isEmpty && k.name.all Parser.isBareKeyChar then k.name
  else if k.name.all fun c => plain c && c ≠ '"' && c ≠ '\\' then '"' :: k.name ++ ['"']
  else if k.name.all fun c => plain c && c ≠ '\'' then '\'' :: k.name ++ ['\'']
  else Writer.basicString k.name

/-- The table that pairs go into. `path` is empty for the root. -/
structure OpenTable where
  path : List Key
  inArray : Bool
  entries : Entries
  span : Span

/-- The entries of a document. The span reaches from its beginning over the pairs of its root. -/
structure Document where
  entries : Entries
  span : Span

structure Draft where
  root : Entries
  rootSpan : Span
  opened : OpenTable

namespace Draft

def empty : Draft := ⟨[], ⟨0, 0⟩, ⟨[], false, [], ⟨0, 0⟩⟩⟩

/-- Visits the table above the one that a header names, with the last key of the header. -/
def visitParent {β : Type} [Inhabited β] (path : List Key)
    (f : Key → Entries → Except Fault (β × Entries)) (es : Entries) : Except Fault (β × Entries) :=
  match Parser.splitLast path with
  | some (above, key) => Entries.visit (f key) [] above es
  | none => .ok (default, es)

def duplicateHeader (path : List Key) : Fault :=
  match Parser.splitLast path with
  | some (above, key) => .duplicateKey key.written (some (Entries.names above))
  | none => .duplicateKey [] none

/-- Adds a pair to the open table. -/
def addPair (d : Draft) (keys : List Key) (n : Node) : Except Fault Draft :=
  match Parser.splitLast keys with
  | none => .ok d
  | some (path, key) => do
    let table := d.opened
    let duplicate (name : Text) : Fault := .duplicateKey name (some (Entries.names table.path))
    let entries ← Entries.addDotted .dotted duplicate [] .header path key n table.entries
    let stop := match n.span? with
      | some span => span.stop
      | none => table.span.stop
    return { d with opened := { table with entries, span := ⟨table.span.start, stop⟩ } }

/-- Joins the open table to the document. -/
def close (d : Draft) : Except Fault Draft := do
  let table := d.opened
  let n := Node.table .header table.entries (some table.span)
  if table.path.isEmpty then
    return { d with root := table.entries, rootSpan := table.span }
  else
    let ((), root) ← d.root |> visitParent table.path fun key es =>
      match Entries.get? key.name es with
      | none => .ok ((), es ++ [(key, n)])
      | some (.sections items span) =>
        let start := (span.getD table.span).start
        let all := Node.sections (items ++ [n]) (some ⟨start, table.span.stop⟩)
        if table.inArray then .ok ((), Entries.replace key.name all es)
        else .error (duplicateHeader table.path)
      | some _ => .error (duplicateHeader table.path)
    return { d with root }

/-- Opens the table of a header `[path]`. A table that was only implied so far keeps what it holds,
and moves to the end of the table above it. -/
def openTable (d : Draft) (path : List Key) (span : Span) : Except Fault Draft := do
  let d ← d.close
  let (entries, root) ← d.root |> visitParent path fun key es =>
    match Entries.get? key.name es with
    | none => .ok ([], es)
    | some (.table .implied inner _) => .ok (inner, Entries.erase key.name es)
    | some _ => .error (duplicateHeader path)
  return { d with root, opened := ⟨path, false, entries, span⟩ }

/-- Opens the next table of the array of tables of a header `[[path]]`. -/
def openElement (d : Draft) (path : List Key) (span : Span) : Except Fault Draft := do
  let d ← d.close
  let ((), root) ← d.root |> visitParent path fun key es =>
    match Entries.get? key.name es with
    | none => .ok ((), es ++ [(key, .sections [] none)])
    | some (.sections _ _) => .ok ((), es)
    | some _ => .error (duplicateHeader path)
  return { d with root, opened := ⟨path, true, [], span⟩ }

end Draft

namespace Parser

/-- A pair on a line of its own. -/
def pairLine (d : Draft) : Parser Draft :=
  checked
    (keyValue (value (depthLimit - 1)) (expecting [.newline, .symbol "#"] restOfLine))
    fun (keys, n) => d.addPair keys n

/-- The keys of a header between its brackets, with the rest of its line. -/
def header (left right : Text) (closing : String) : Parser (List Key × Span) := do
  let keys ← withSpan do
    literal left
    let keys ← commit dottedKey
    expecting [.symbol ".", .symbol closing] (commit (literal right))
    return keys
  expecting [.newline, .symbol "#"] (commit restOfLine)
  return keys

def tableLine (d : Draft) : Parser Draft :=
  checked (header ['['] [']'] "]") fun (keys, span) => d.openTable keys span

def elementLine (d : Draft) : Parser Draft :=
  checked (header ['[', '['] [']', ']'] "]]") fun (keys, span) => d.openElement keys span

def headerLine (d : Draft) : Parser Draft := inside .tableHeader do
  match ← next?, ← second? with
  | some '[', some '[' => elementLine d
  | some '[', some _ => tableLine d
  | _, _ => fail

/-- At most `n` lines. -/
def lines : Nat → Draft → Parser Draft
  | 0, d => return d
  | n + 1, d => do
    match ← next? with
    | none => return d
    | some '#' => do
      commit (do comment; lineEnd)
      gap
      lines n d
    | some '[' => do
      let d ← commit (headerLine d)
      gap
      lines n d
    | some '\n' | some '\r' => do
      match ← optional newline with
      | some () => do
        gap
        lines n d
      | none => return d
    | some _ => do
      let d ← commit (pairLine d)
      gap
      lines n d

/-- A document, from an optional byte order mark to the end. -/
def document : Parser Draft := do
  let _ ← optional (char '\uFEFF')
  gap
  let c ← get
  let d ← lines c.rest.length .empty
  atEnd
  return d

end Parser

def parse (source : Text) : Except Error Document :=
  match Parser.document ⟨0, source⟩ with
  | .error e => .error ⟨source, charSpan e.offset, .malformed e.inside.head? e.expected e.fault⟩
  | .ok (d, _) =>
    match d.close with
    | .error fault => .error ⟨source, charSpan 0, .malformed none [] (some fault)⟩
    | .ok d => .ok ⟨d.root, d.rootSpan⟩
where
  /-- The character at an offset, or the empty stretch at the end. -/
  charSpan (offset : Nat) : Span :=
    match cutAt? source offset with
    | some (_, c :: _) => ⟨offset, offset + c.utf8Size⟩
    | _ => ⟨offset, offset⟩

end Stencil.Toml
