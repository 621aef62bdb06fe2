import Std.Data.ExtTreeMap
import Stencil.FileError
import Stencil.Identifier
import Stencil.Toml.Error

/-!
# Substitution tables

A table gives placeholder names their replacement texts. It is a finite map: the order in which its
entries were given leaves no trace, and names are always listed in the order of their characters.
Every name of a table is an identifier, so every name of a table can be written in a template.
-/

namespace Stencil

structure Table where
  name : Option Text
  description : Option Text
  entries : Std.ExtTreeMap Text Text
  isIdentifier_of_mem : ∀ k ∈ entries, isIdentifier k = true

inductive TableError where
  | unreadable (cause : FileError)
  | malformed (error : Toml.Error)
  | invalidName (name : Text)
  deriving DecidableEq, Repr

namespace TableError

def message : TableError → Text
  | unreadable cause => "Failed to read substitution table file: ".toList ++ cause.message
  | malformed error => "Failed to parse substitution table TOML: ".toList ++ error.message
  | invalidName name =>
    "Invalid placeholder name '".toList ++ name ++
      "' (expected letters, digits and underscores, not starting with a digit)".toList

end TableError

namespace Table

/-- A table is refused for a name of it that is no identifier. Where there are several, which of them is
named is for the order that a table of hashed names has of its own (`Listing.refused?`); the least name
stands here for any of them. -/
def ofMap (name description : Option Text) (entries : Std.ExtTreeMap Text Text) :
    Except TableError Table :=
  match h : entries.keys.find? (fun k => !isIdentifier k) with
  | some bad => .error (.invalidName bad)
  | none =>
    .ok ⟨name, description, entries, fun k hk => by
      simpa using List.find?_eq_none.mp h k (Std.ExtTreeMap.mem_keys.mpr hk)⟩

/-- For a name that is given twice the later text counts. -/
def ofEntries (pairs : List (Text × Text)) : Except TableError Table :=
  ofMap none none (Std.ExtTreeMap.ofList pairs)

def empty : Table := ⟨none, none, ∅, by simp⟩

def get? (t : Table) (name : Text) : Option Text := t.entries[name]?

def contains (t : Table) (name : Text) : Bool := t.entries.contains name

/-- The names in increasing order. -/
def names (t : Table) : List Text := t.entries.keys

def size (t : Table) : Nat := t.entries.size

def isEmpty (t : Table) : Bool := t.entries.isEmpty

/-- Two names look alike when one stands within the other, capitals or not. -/
def lookAlike (a b : Text) : Bool :=
  let a := a.map Char.toUpper
  let b := b.map Char.toUpper
  occursIn a b || occursIn b a

/-- The names of the table that `name` may be a misspelling of. -/
def suggestions (t : Table) (name : Text) : List Text := t.names.filter (lookAlike name)

end Table

/-- What a template asks a table for: the text of a name, and the names like it. -/
structure Lookup where
  get? : Text → Option Text
  suggestions : Text → List Text

@[coe]
def Table.toLookup (t : Table) : Lookup := ⟨t.get?, t.suggestions⟩

instance : Coe Table Lookup := ⟨Table.toLookup⟩

@[simp] theorem Table.get?_toLookup (t : Table) (name : Text) :
    (t : Lookup).get? name = t.get? name := rfl

@[simp] theorem Table.suggestions_toLookup (t : Table) (name : Text) :
    (t : Lookup).suggestions name = t.suggestions name := rfl

end Stencil
