import Stencil.Toml.Error

/-!
# Documents as trees

A document is a tree of tables. How a table came to be decides what may still be added to it: a table
that was written out in full takes nothing more, one that only stands on the way to another table may
still be opened, and one made by a dotted key grows with further dotted keys.
-/

namespace Stencil.Toml

structure Key where
  name : Text
  span : Span
  deriving DecidableEq, Repr

/-- How a table came to be. -/
inductive Form where
  | inline
  | inlineDotted
  | header
  | implied
  | dotted
  deriving DecidableEq, Repr

/-- Inline tables are values: nothing outside of their braces adds to them. -/
def Form.isInline : Form → Bool
  | inline | inlineDotted => true
  | _ => false

/-- Dotted keys may not lead into a table that was written out. -/
def Form.isWrittenOut : Form → Bool
  | inline | header => true
  | _ => false

def Form.isDotted : Form → Bool
  | inlineDotted | dotted => true
  | _ => false

/-- A value or a table. A table that only dotted keys or longer headers imply has no span. -/
inductive Node where
  | string (text : Text) (span : Span)
  | integer (value : Int) (span : Span)
  | float (value : Binary64) (span : Span)
  | boolean (value : Bool) (span : Span)
  | dateTime (text : Text) (span : Span)
  | array (items : List Node) (span : Span)
  | table (form : Form) (entries : List (Key × Node)) (span : Option Span)
  | sections (items : List Node) (span : Option Span)
  deriving Repr

abbrev Entries := List (Key × Node)

namespace Node

def span? : Node → Option Span
  | string _ s | integer _ s | float _ s | boolean _ s | dateTime _ s | array _ s => some s
  | table _ _ s | sections _ s => s

/-- The kind of a value, for messages. -/
def kind : Node → String
  | string .. => "string"
  | integer .. => "integer"
  | float .. => "float"
  | boolean .. => "boolean"
  | dateTime .. => "datetime"
  | array .. => "array"
  | table form .. => if form.isInline then "inline table" else "table"
  | sections .. => "array of tables"

end Node

namespace Entries

def get? (name : Text) (es : Entries) : Option Node :=
  (es.find? fun e => e.1.name == name).map Prod.snd

/-- Puts `n` in the place of the entry of that name. -/
def replace (name : Text) (n : Node) (es : Entries) : Entries :=
  es.map fun e => if e.1.name == name then (e.1, n) else e

def erase (name : Text) (es : Entries) : Entries := es.filter fun e => e.1.name != name

def names (ks : List Key) : List Text := ks.map Key.name

/-- Adds an entry below the tables that a dotted key names, in a table of form `own`. The tables on
the way are made when they are missing; `made` is their form. A table that is already there must not
have been written out. -/
def addDotted (made : Form) (duplicate : Text → Fault) (before : List Key) (own : Form) :
    List Key → Key → Node → Entries → Except Fault Entries
  | [], key, n, es =>
    if !before.isEmpty && !own.isDotted then .error (.duplicateKey key.name none)
    else if (get? key.name es).isSome then .error (duplicate key.name)
    else .ok (es ++ [(key, n)])
  | k :: path, key, n, es =>
    let before := before ++ [k]
    match get? k.name es with
    | none => do
      let inner ← addDotted made duplicate before made path key n []
      return es ++ [(k, .table made inner none)]
    | some (.table form inner span) =>
      if form.isInline && !made.isInline then .error (.extendsValue (names before) "inline table")
      else if form.isWrittenOut then .error (.duplicateKey k.name none)
      else do
        let inner ← addDotted made duplicate before form path key n inner
        return replace k.name (.table form inner span) es
    | some (.sections items span) =>
      match items.getLast? with
      | some (.table form inner innerSpan) => do
        let inner ← addDotted made duplicate before form path key n inner
        return replace k.name (.sections (items.dropLast ++ [.table form inner innerSpan]) span) es
      | _ => .error (.duplicateKey k.name none)
    | some other => .error (.extendsValue (names before) other.kind)

/-- Goes where the keys of a header lead, changes the entries there and takes something from them.
Tables on the way are implied when they are missing; an array of tables leads into its last one. -/
def visit {β : Type} (f : Entries → Except Fault (β × Entries)) (before : List Key) :
    List Key → Entries → Except Fault (β × Entries)
  | [], es => f es
  | k :: path, es =>
    let before := before ++ [k]
    match get? k.name es with
    | none => do
      let (b, inner) ← visit f before path []
      return (b, es ++ [(k, .table .implied inner none)])
    | some (.table form inner span) =>
      if form.isInline then .error (.extendsValue (names before) "inline table")
      else do
        let (b, inner) ← visit f before path inner
        return (b, replace k.name (.table form inner span) es)
    | some (.sections items span) =>
      match items.getLast? with
      | some (.table form inner innerSpan) => do
        let (b, inner) ← visit f before path inner
        let items := items.dropLast ++ [.table form inner innerSpan]
        return (b, replace k.name (.sections items span) es)
      | _ => .error (.duplicateKey k.name none)
    | some other => .error (.extendsValue (names before) other.kind)

end Entries

end Stencil.Toml
