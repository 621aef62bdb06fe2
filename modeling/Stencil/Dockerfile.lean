import Stencil.Table.Document
import Stencil.Template
import Stencil.World

/-!
# Dockerfiles from template files

A filled template becomes the file `Dockerfile` in the directory of the template. Reading comes first,
then filling, and writing last, so a template that cannot be read or filled leaves the old file as it
was.
-/

namespace Stencil

inductive FillError where
  | unreadable (path : Path) (cause : FileError)
  | unfillable (problems : List TemplateError)
  | unwritable (path : Path) (cause : FileError)
  | badTable (error : TableError)
  | noHome
  | noCurrentDirectory (cause : FileError)
  deriving DecidableEq, Repr

namespace FillError

def message : FillError → Text
  | unreadable path cause =>
    "failed to read template '".toList ++ path.text ++ "': ".toList ++ cause.message
  | unfillable problems =>
    "template errors: ".toList ++ joinWith "; ".toList (problems.map (·.message))
  | unwritable path cause =>
    "failed to write '".toList ++ path.text ++ "': ".toList ++ cause.message
  | badTable error => "substitution table error: ".toList ++ error.message
  | noHome => "cannot expand '~': home directory is unknown".toList
  | noCurrentDirectory cause => "cannot resolve relative path: ".toList ++ cause.message

end FillError

/-- The text that bytes are the UTF-8 form of. -/
def decodeText (bytes : ByteArray) : Except FileError Text :=
  match bytes.utf8Decode? with
  | some chars => .ok chars.toList
  | none => .error .notUtf8

def encodeText (s : Text) : ByteArray := (String.ofList s).toUTF8

theorem decodeText_encodeText (s : Text) : decodeText (encodeText s) = .ok s := by
  simp [decodeText, encodeText, String.toUTF8]

namespace Path

def dockerfileName : Path := ⟨"Dockerfile".toList⟩

/-- The file that the template at a path is written to. -/
def output (p : Path) : Path :=
  match p.parent? with
  | some directory => directory.join dockerfileName
  | none => dockerfileName

end Path

section
variable {m : Type → Type} [Monad m] [System m]

/-- The text of a file. -/
def readText (p : Path) : ExceptT FileError m Text := do
  decodeText (← ExceptT.mk (System.read p))

def Table.ofFile (p : Path) : ExceptT TableError m Table := do
  Table.ofDocument (← (readText p).adapt .unreadable)

namespace Template

def ofFile (p : Path) : ExceptT FillError m Template := do
  return ⟨← (readText p).adapt (.unreadable p)⟩

def writeOutput (p : Path) (contents : Text) : ExceptT FillError m Path := do
  ExceptT.adapt (.unwritable p.output) (ExceptT.mk (System.write p.output (encodeText contents)))
  return p.output

/-- Fills the template at a path and writes its Dockerfile. -/
def fillFile (p : Path) (table : Table) : ExceptT FillError m Path := do
  let template ← ofFile p
  let contents ← liftExcept ((template.fill table).mapError FillError.unfillable)
  writeOutput p contents

/-- The placeholder names of the template at a path, if it can be filled. Nothing is written. -/
def checkFile (p : Path) (table : Table) : ExceptT FillError m (List Text) := do
  let template ← ofFile p
  liftExcept ((template.check table).mapError FillError.unfillable)

end Template

namespace Path

/-- The path with the home directory in the place of a leading `~`. -/
def expandHome (p : Path) : ExceptT FillError m Path := do
  match p.belowHome? with
  | none => return p
  | some rest =>
    match ← System.home with
    | some home => return home.join rest
    | none => throw .noHome

/-- The absolute path that a path stands for. -/
def resolve (p : Path) : ExceptT FillError m Path := do
  let p ← p.expandHome
  if p.isAbsolute then return p
  else
    let directory ← ExceptT.adapt .noCurrentDirectory (ExceptT.mk System.currentDirectory)
    return directory.join p

end Path

end

end Stencil
