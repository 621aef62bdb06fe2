import Stencil.Text

/-!
# Paths

A path is a text in which slashes separate the names of directories. Slashes in a row and the piece
`.` add nothing, so a path has fewer components than pieces; only a `.` in front of a relative path is
a component of its own. `..` is never taken back, because what lies above a directory is for the file
system to say.

The operations work on the text and keep what they do not have to change: the parent of a path and
the join of two paths are written the way their parts were.
-/

namespace Stencil

structure Path where
  text : Text
  deriving DecidableEq, Repr

inductive Path.Component where
  | root
  | current
  | parent
  | name (text : Text)
  deriving DecidableEq, Repr

namespace Path

/-- The texts between the slashes of a path. -/
def pieces (s : Text) : List Text := s.splitOn '/'

/-- Whether a piece adds nothing to a path. -/
def isFiller (piece : Text) : Bool := piece = [] || piece = ['.']

/-- The pieces up to the last one that is no filler. -/
def trimEnd (l : List Text) : List Text := (l.reverse.dropWhile isFiller).reverse

def isAbsolute (p : Path) : Bool := p.text.head? = some '/'

/-- What a path starts from (a root, a `.` that counts, or nothing) and the text behind it. -/
def split (p : Path) : Text × Text :=
  match p.text with
  | '/' :: s => (['/'], s)
  | ['.'] => (['.'], [])
  | '.' :: '/' :: s => (['.'], '/' :: s)
  | s => ([], s)

theorem split_eq_append (p : Path) : p.text = p.split.1 ++ p.split.2 := by
  unfold split
  split <;> simp_all

/-- The component that a piece other than a filler stands for. -/
def component (piece : Text) : Component :=
  if piece = ['.', '.'] then .parent else .name piece

def components (p : Path) : List Component :=
  let (start, body) := p.split
  let first :=
    if start = ['/'] then [Component.root]
    else if start = ['.'] then [Component.current]
    else []
  first ++ ((pieces body).filter fun piece => !isFiller piece).map component

/-- The path without its last component. A root has no parent, and neither has the empty path. -/
def parent? (p : Path) : Option Path :=
  let (start, body) := p.split
  match trimEnd (pieces body) with
  | [] => if start = ['.'] then some ⟨[]⟩ else none
  | kept@(_ :: _) => some ⟨start ++ joinWith ['/'] (trimEnd kept.dropLast)⟩

/-- A path as seen from a directory. -/
def join (directory p : Path) : Path :=
  if p.isAbsolute then p
  else if directory.text = [] || directory.text.getLast? = some '/' then
    ⟨directory.text ++ p.text⟩
  else ⟨directory.text ++ '/' :: p.text⟩

/-- The path behind a leading `~`, when that is the whole first component. -/
def belowHome? (p : Path) : Option Path :=
  match p.text with
  | '~' :: s =>
    match s with
    | [] => some ⟨[]⟩
    | '/' :: s => some ⟨joinWith ['/'] (trimEnd ((pieces s).dropWhile isFiller))⟩
    | _ => none
  | _ => none

end Path

end Stencil
