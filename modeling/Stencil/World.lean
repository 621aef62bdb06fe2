import Stencil.FileSystem

/-!
# The surroundings of a run

A run reads and writes files, prints, and asks for its directory, for the home of its user and for the
time. `System` names these services, so that the same program runs on a machine and in a `World`, a
value that holds all of them and can be reasoned about.
-/

namespace Stencil

class System (m : Type → Type) where
  read : Path → m (Except FileError ByteArray)
  write : Path → ByteArray → m (Except FileError Unit)
  currentDirectory : m (Except FileError Path)
  home : m (Option Path)
  time : m Text
  print : Text → m Unit
  printError : Text → m Unit

namespace System

/-- A computation that may fail has the services of the one it runs in. -/
instance {m : Type → Type} {ε : Type} [Monad m] [System m] : System (ExceptT ε m) where
  read p := ExceptT.lift (read p)
  write p bytes := ExceptT.lift (write p bytes)
  currentDirectory := ExceptT.lift currentDirectory
  home := ExceptT.lift home
  time := ExceptT.lift time
  print s := ExceptT.lift (print s)
  printError s := ExceptT.lift (printError s)

end System

structure World where
  files : FileSystem
  directory : Option Path
  home : Option Path
  time : Text
  output : Text
  errors : Text

namespace World

def locate (w : World) (p : Path) : Except FileError Location := w.files.locate w.directory p

def read (w : World) (p : Path) : Except FileError ByteArray := do
  w.files.read (← w.locate p)

def write (w : World) (p : Path) (bytes : ByteArray) : Except FileError World := do
  let files ← w.files.write (← w.locate p) bytes
  return { w with files }

def currentDirectory (w : World) : Except FileError Path :=
  match w.directory with
  | some d => .ok d
  | none => .error .notFound

/-- A write that fails leaves the world as it is. -/
instance : System (StateM World) where
  read p := fun w => (w.read p, w)
  write p bytes := fun w =>
    match w.write p bytes with
    | .ok w' => (.ok (), w')
    | .error e => (.error e, w)
  currentDirectory := fun w => (w.currentDirectory, w)
  home := fun w => (w.home, w)
  time := fun w => (w.time, w)
  print s := fun w => ((), { w with output := w.output ++ s })
  printError s := fun w => ((), { w with errors := w.errors ++ s })

end World

end Stencil
