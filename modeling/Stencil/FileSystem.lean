import Std.Data.ExtTreeMap
import Stencil.FileError
import Stencil.Path

/-!
# File systems

A file system is a tree without links: it tells what is at a location, a file with its bytes or a
directory. A path leads to a location piece by piece, starting at the root, and it fails at the first
piece that cannot be followed. That it leads to a location does not mean that something is there: the
last piece may be the name of a file that is still to be written.

There are no permissions: every file that is there can be read and written, and every directory can be
gone through. A file that exists and cannot be opened has no place in such a tree.
-/

namespace Stencil

/-- The names from the root down to a place, the innermost first. -/
abbrev Location := List Text

inductive FileSystem.Node where
  | directory
  | file (bytes : ByteArray)

/-- What is at the locations other than the root, which is always a directory. -/
structure FileSystem where
  nodes : Std.ExtTreeMap Location FileSystem.Node

namespace FileSystem

def empty : FileSystem := ⟨∅⟩

def find? (fs : FileSystem) : Location → Option Node
  | [] => some .directory
  | l@(_ :: _) => fs.nodes[l]?

/-- Puts a node at a location. At the root nothing is ever put. -/
def put (fs : FileSystem) (l : Location) (n : Node) : FileSystem :=
  if l = [] then fs else ⟨fs.nodes.insert l n⟩

def remove (fs : FileSystem) (l : Location) : FileSystem := ⟨fs.nodes.erase l⟩

@[simp] theorem find?_nil (fs : FileSystem) : fs.find? [] = some .directory := rfl

@[simp] theorem find?_cons (fs : FileSystem) (name : Text) (l : Location) :
    fs.find? (name :: l) = fs.nodes[name :: l]? := rfl

theorem find?_put (fs : FileSystem) {l k : Location} (n : Node) (h : l ≠ []) :
    (fs.put l n).find? k = if k = l then some n else fs.find? k := by
  cases k with
  | nil => simp [Ne.symm h]
  | cons name k => 
    simp only [put, h, if_false, find?_cons, Std.ExtTreeMap.getElem?_insert,
      Std.compare_eq_iff_eq, @eq_comm _ l]

theorem find?_put_self (fs : FileSystem) {l : Location} (n : Node) (h : l ≠ []) :
    (fs.put l n).find? l = some n := by simp [find?_put fs n h]

theorem find?_put_of_ne (fs : FileSystem) {l k : Location} (n : Node) (h : k ≠ l) :
    (fs.put l n).find? k = fs.find? k := by
  by_cases hl : l = []
  · simp [put, hl]
  · simp [find?_put fs n hl, h]

/-- The greatest number of bytes in a name. -/
def nameLimit : Nat := 255

/-- The number of bytes from which on a path is too long. -/
def pathLimit : Nat := 4096

/-- Follows one piece of a path. -/
def step (fs : FileSystem) (here : Location) (piece : Text) : Except FileError Location :=
  match fs.find? here with
  | none => .error .notFound
  | some (.file _) => .error .notDirectory
  | some .directory =>
    if Path.isFiller piece then .ok here
    else if piece = ['.', '.'] then .ok here.tail
    else if nameLimit < byteLength piece then .error .nameTooLong
    else .ok (piece :: here)

def walk (fs : FileSystem) (here : Location) (pieces : List Text) : Except FileError Location :=
  pieces.foldlM fs.step here

/-- Where a path leads to, for someone in `directory`; none is the directory of someone whose directory
is gone. For them every relative path is refused, `.` and `..` included, which a system may still
follow. -/
def locate (fs : FileSystem) (directory : Option Path) (p : Path) : Except FileError Location :=
  if p.text.contains '\x00' then .error .nulInName
  else if p.text = [] then .error .notFound
  else if pathLimit ≤ byteLength p.text then .error .nameTooLong
  else if p.isAbsolute then fs.walk [] (Path.pieces p.text)
  else
    match directory with
    | some d => fs.walk [] (Path.pieces (d.join p).text)
    | none => .error .notFound

/-- The bytes of the file at a location. -/
def read (fs : FileSystem) (l : Location) : Except FileError ByteArray :=
  match fs.find? l with
  | some (.file bytes) => .ok bytes
  | some .directory => .error .isDirectory
  | none => .error .notFound

/-- A new file at a location, or new bytes for the file that is there. -/
def write (fs : FileSystem) (l : Location) (bytes : ByteArray) : Except FileError FileSystem :=
  match fs.find? l with
  | some .directory => .error .isDirectory
  | _ => .ok (fs.put l (.file bytes))

/-- Makes a location and everything above it a directory. -/
def makeDirectories (fs : FileSystem) : Location → FileSystem
  | [] => fs
  | name :: l => (fs.makeDirectories l).put (name :: l) .directory

end FileSystem

end Stencil
