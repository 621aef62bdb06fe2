import Stencil.Table
import Stencil.Text.Bytes

/-!
# Tables in an order of their own

A table that finds its names by hashing has its entries in an order that nobody chose and that may be
another one in the next run. A `Listing` is such a table with its order. All that it is asked for is
computed by going over the entries in that order, so the order might show in what it is refused for, in
its names, in what it suggests, and in what becomes of a template.
-/

namespace Stencil

/-- Entries with each name once, in the order in which they happen to be listed. -/
structure Listing where
  entries : List (Text × Text)
  nodup_names : (entries.map Prod.fst).Nodup

namespace Listing

/-- Names in the order of their bytes. -/
def sorted (names : List Text) : List Text := names.mergeSort fun s t => decide (bytes s ≤ bytes t)

variable (l : Listing)

/-- A table is refused for the first name in its own order that is no identifier. -/
def refused? : Option TableError :=
  ((l.entries.map Prod.fst).find? fun k => !isIdentifier k).map .invalidName

def get? (name : Text) : Option Text := l.entries.lookup name

def contains (name : Text) : Bool := l.entries.any fun e => e.1 == name

def names : List Text := sorted (l.entries.map Prod.fst)

def size : Nat := l.entries.length

def isEmpty : Bool := l.entries.isEmpty

def suggestions (name : Text) : List Text :=
  sorted ((l.entries.map Prod.fst).filter (Table.lookAlike name))

/-- What a template asks the listing for. -/
@[coe]
def toLookup : Lookup := ⟨l.get?, l.suggestions⟩

instance : Coe Listing Lookup := ⟨toLookup⟩

end Listing

end Stencil
