import Stencil.CommandLine.Arguments
import Stencil.Dockerfile
import Stencil.Report
import Stencil.Table.Chapel
import Stencil.Text.Quoted

/-!
# Runs

A run loads the table, finds the template and reads it; then it lists the placeholders, or it fills the
template and writes the Dockerfile. The first of these steps that fails ends the run, and its failure
is reported. A verbose run logs the steps that succeed.
-/

namespace Stencil.CommandLine

/-- What a verbose run logs. -/
inductive Event where
  | tableLoaded (name : Option Text) (entries : Nat)
  | templateRead (path : Path) (bytes : Nat)
  | templateChecked (placeholders : Nat) (wellFormed : Bool)
  | dockerfileWritten (path : Path) (bytes : Nat)
  deriving DecidableEq, Repr

namespace Event

def message : Event → Text
  | tableLoaded .. => "loaded substitution table".toList
  | templateRead .. => "read template".toList
  | templateChecked .. => "checked template".toList
  | dockerfileWritten .. => "wrote dockerfile".toList

/-- The name of a table that has none. -/
def unnamed : Text := "<unnamed>".toList

def details : Event → List (String × Text)
  | tableLoaded name entries =>
    [("table", quoted (name.getD unnamed)), ("entries", decimal entries)]
  | templateRead path bytes => [("path", path.text), ("bytes", decimal bytes)]
  | templateChecked placeholders wellFormed =>
    [("placeholders", decimal placeholders),
     ("well_formed", (if wellFormed then "true" else "false").toList)]
  | dockerfileWritten path bytes => [("path", path.text), ("bytes", decimal bytes)]

/-- The line of the log for an event at a time. -/
def line (e : Event) (time : Text) : Text :=
  time ++ " DEBUG ".toList ++ e.message ++
    (e.details.flatMap fun (key, value) => ' ' :: key.toList ++ '=' :: value) ++ ['\n']

end Event

/-- Why a run fails. -/
inductive Failure where
  | table (file : Path) (error : TableError)
  | step (error : FillError)
  | template (path : Path) (template : Template) (problems : List TemplateError)

def Failure.report : Failure → Text
  | table file error =>
    "Error loading substitution table '".toList ++ file.text ++ "': ".toList ++ error.message ++ ['\n']
  | step error => "Error: ".toList ++ error.message ++ ['\n']
  | template path t problems => problems.flatMap fun e => e.format t.source path.text false

section
variable {m : Type → Type} [Monad m] [System m]

/-- The table of a run. -/
def loadTable (o : Options) : ExceptT Failure m Table :=
  match o.table with
  | some file => (Table.ofFile file).adapt (.table file)
  | none => return Table.chapel

/-- Logs an event of a verbose run. -/
def note (o : Options) (e : Event) : m Unit := do
  if o.verbose then System.printError (e.line (← System.time))

def work (o : Options) : ExceptT Failure m Unit := do
  let table ← loadTable o
  note o (.tableLoaded table.name table.size)
  let path ← o.template.resolve.adapt .step
  let template ← (Template.ofFile path).adapt .step
  note o (.templateRead path (byteLength template.source))
  if o.check then
    note o (.templateChecked template.identifiers.length template.isWellFormed)
    let names ← liftExcept ((template.check table).mapError (Failure.template path template))
    System.print (names.flatMap (· ++ ['\n']))
  else
    let contents ← liftExcept ((template.fill table).mapError (Failure.template path template))
    let output ← (Template.writeOutput path contents).adapt .step
    note o (.dockerfileWritten output (byteLength contents))

/-- Does what the options ask for, and gives the exit code. -/
def run (o : Options) : m Nat := do
  match ← (work o).run with
  | .ok () => return 0
  | .error failure => do
    System.printError failure.report
    return 1

/-- The program: its arguments are the texts after its name, its value is the exit code. -/
def program (arguments : List Text) : m Nat := do
  match parse arguments with
  | .ok .help => do
    System.print help
    return 0
  | .ok (.run options) => run options
  | .error e => do
    System.printError e.report
    return 2

end

end Stencil.CommandLine
