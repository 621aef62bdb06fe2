import Stencil.Table
import Stencil.Toml.Document

/-!
# Tables from documents

A table document has a table `substitutions` of strings, and may have a table `metadata` with a name
and a description. The metadata may also be an array that begins with the two, and a date stands for
a table with a single entry. Everything else in the document is left alone. Of several faults the
first one in the document counts; missing substitutions are noticed at the end.
-/

namespace Stencil.Table

open Toml (Node Entries Found Problem)

/-- A problem and where it is. -/
abbrev Mismatch := Span × Problem

/-- The entry name of a date when it is taken for a table. -/
def dateTimeName : Text := "$__toml_private_datetime".toList

def found : Node → Found
  | .string text _ => .string text
  | .integer value _ => .integer value
  | .float value _ => .float value
  | .boolean value _ => .boolean value
  | .array .. | .sections .. => .sequence
  | .dateTime .. | .table .. => .map

/-- The stretch of a node; a table that has none is placed at its key. -/
def placeOf (key : Span) (n : Node) : Span := n.span?.getD key

def mismatch (key : Span) (wanted : String) (n : Node) : Mismatch :=
  (placeOf key n, .wrongType (found n) wanted)

def textOf (key : Span) : Node → Except Mismatch Text
  | .string text _ => .ok text
  | n => .error (mismatch key "a string" n)

def substitutionsOf (key : Span) : Node → Except Mismatch (List (Text × Text))
  | .table _ entries _ => entries.mapM fun (k, n) => do return (k.name, ← textOf k.span n)
  | .dateTime text _ => .ok [(dateTimeName, text)]
  | n => .error (mismatch key "a map" n)

structure Metadata where
  name : Option Text
  description : Option Text

def Metadata.wanted : String := "struct TomlMetadata"

/-- The metadata with what one entry says. -/
def Metadata.add (m : Metadata) : Toml.Key × Node → Except Mismatch Metadata
  | (k, n) =>
    if k.name = "name".toList then do return { m with name := some (← textOf k.span n) }
    else if k.name = "description".toList then
      do return { m with description := some (← textOf k.span n) }
    else .ok m

/-- Name and description in the order of the entries. -/
def Metadata.ofEntries (entries : Entries) : Except Mismatch Metadata :=
  entries.foldlM add ⟨none, none⟩

/-- Name and description at the front of an array. -/
def Metadata.ofItems (place : Span) : List Node → Except Mismatch Metadata
  | [] => .error (place, .tooShort 0 (wanted ++ " with 2 elements"))
  | [n] => do
    let _ ← textOf place n
    .error (place, .tooShort 1 (wanted ++ " with 2 elements"))
  | n :: d :: _ => do return ⟨some (← textOf place n), some (← textOf place d)⟩

def metadataOf (key : Span) : Node → Except Mismatch Metadata
  | .table _ entries _ => Metadata.ofEntries entries
  | .dateTime .. => .ok ⟨none, none⟩
  | n@(.array items _) | n@(.sections items _) => Metadata.ofItems (placeOf key n) items
  | n => .error (mismatch key Metadata.wanted n)

/-- What a document says about a table. -/
structure Contents where
  metadata : Metadata
  substitutions : Option (List (Text × Text))

/-- The contents with what one entry of the root says. -/
def Contents.add (c : Contents) : Toml.Key × Node → Except Mismatch Contents
  | (k, n) =>
    if k.name = "metadata".toList then do return { c with metadata := ← metadataOf k.span n }
    else if k.name = "substitutions".toList then
      do return { c with substitutions := some (← substitutionsOf k.span n) }
    else .ok c

def contentsOf (entries : Entries) : Except Mismatch Contents :=
  entries.foldlM Contents.add ⟨⟨none, none⟩, none⟩

/-- The metadata and the substitutions of a document. -/
def decode (d : Toml.Document) : Except Mismatch (Metadata × List (Text × Text)) := do
  let c ← contentsOf d.entries
  match c.substitutions with
  | some pairs => return (c.metadata, pairs)
  | none => .error (d.span, .missingField "substitutions")

/-- The table of a document. -/
def ofDocument (source : Text) : Except TableError Table :=
  match Toml.parse source with
  | .error e => .error (.malformed e)
  | .ok document =>
    match decode document with
    | .error (place, problem) => .error (.malformed ⟨source, place, problem⟩)
    | .ok (metadata, pairs) =>
      ofMap metadata.name metadata.description (Std.ExtTreeMap.ofList pairs)

end Stencil.Table
