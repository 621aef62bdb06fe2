import Stencil.CommandLine.Similarity
import Stencil.CommandLine.UsageError

/-!
# Reading the command line

Options and the template may come in any order. Whether an option that takes a value has got one shows
only at the next argument, so the last option or template stays open until then, and what is wrong
with it is reported then.
-/

namespace Stencil.CommandLine

/-- What the arguments ask for. -/
inductive Request where
  | help
  | run (options : Options)
  deriving DecidableEq, Repr

/-- Why reading stops before the last argument. -/
inductive Stop where
  | help
  | mistake (error : UsageError)
  deriving DecidableEq, Repr

/-- An argument that is not settled yet. -/
inductive Open where
  | table (value : Option Text)
  | template (value : Text)
  deriving DecidableEq, Repr

/-- What the arguments so far have said; `literal` once no more options can follow. A template that was
refused has been given all the same. -/
structure Draft where
  given : List Flag
  templateGiven : Bool
  table : Option Text
  template : Option Text
  pending : Option Open
  literal : Bool
  deriving DecidableEq, Repr

namespace Draft

def empty : Draft := ⟨[], false, none, none, none, false⟩

/-- Whether an option or the template has been given. What is pending has not been given yet. -/
def anyGiven (d : Draft) : Bool := !d.given.isEmpty || d.templateGiven

/-- Takes an option as given. An option can be given once. -/
def give (d : Draft) (f : Flag) : Except UsageError Draft :=
  if f ∈ d.given then .error (.repeated f) else .ok { d with given := d.given ++ [f] }

/-- Gives the table option a value. An empty value is none, but the option has been given then; a
second value takes back the first. -/
def giveTable (d : Draft) (value : Text) : Draft × Option UsageError :=
  match d.give .table with
  | .error e => ({ d with given := d.given.erase .table }, some e)
  | .ok d =>
    if value = [] then (d, some (.missingValue Flag.table.shown))
    else ({ d with table := some value }, none)

/-- Settles the pending argument: the draft that results, and what is wrong with the argument. -/
def settle (d : Draft) : Draft × Option UsageError :=
  let rest := { d with pending := none }
  match d.pending with
  | none => (rest, none)
  | some (.table none) => (rest, some (.missingValue Flag.table.shown))
  | some (.table (some value)) => rest.giveTable value
  | some (.template value) =>
    let rest := { rest with templateGiven := true }
    if value = [] then (rest, some (.missingValue templateShown))
    else ({ rest with template := some value }, none)

/-- Fails when something is wrong. -/
def accept : Draft × Option UsageError → Except Stop Draft
  | (d, none) => .ok d
  | (_, some e) => .error (.mistake e)

/-- An option without a value. -/
def flag (d : Draft) (f : Flag) : Except Stop Draft := do
  let d ← accept d.settle
  match d.give f with
  | .error e => .error (.mistake e)
  | .ok d => if f = .help then .error .help else .ok d

/-- The table option with its value, or with a value to come. -/
def tableOption (d : Draft) (value : Option Text) : Except Stop Draft := do
  let d ← accept d.settle
  match value with
  | some value => accept (d.giveTable value)
  | none => return { d with pending := some (.table none) }

/-- The options that an unknown name may be a misspelling of: those whose similarity is 0.7 or more. -/
def isSimilar (name : Text) (f : Flag) : Bool :=
  (Similarity.Ratio.mk 21 10).le (Similarity.tripled name f.long)

/-- The option most like a name, the later one of two that are equally so. -/
def mostSimilar? (name : Text) : Option Flag :=
  (Flag.all.filter (isSimilar name)).foldl
    (fun best f =>
      match best with
      | none => some f
      | some b =>
        if (Similarity.tripled name b.long).le (Similarity.tripled name f.long) then some f
        else some b)
    none

/-- The text before the first equals sign and the text after it. -/
def splitValue (s : Text) : Text × Option Text :=
  (s.takeWhile (· ≠ '='), (s.dropWhile (· ≠ '=')).tail?)

/-- An argument that begins with two dashes. -/
def longOption (d : Draft) (s : Text) : Except Stop Draft :=
  let (name, value) := splitValue s
  match Flag.ofLong? name, value with
  | none, _ =>
    let settled := d.settle.1
    .error (.mistake
      (.unknownOption name (mostSimilar? name) settled.given settled.templateGiven))
  | some .table, _ => d.tableOption value
  | some f, none => d.flag f
  | some f, some value => .error (.mistake (.unexpectedValue value f d.anyGiven))

/-- The letters of an argument that begins with one dash. What follows the letter of the table option
is its value, with or without an equals sign in front. -/
def letters (d : Draft) : Text → Except Stop Draft
  | [] => .ok d
  | c :: s =>
    match Flag.ofLetter? c with
    | none => .error (.mistake (.unknownLetter c))
    | some .table =>
      match s with
      | [] => d.tableOption none
      | '=' :: value | value => d.tableOption (some value)
    | some f => do (← d.flag f).letters s

/-- An argument that is no option. -/
def plain (d : Draft) (s : Text) : Except Stop Draft :=
  match d.template, d.pending with
  | some _, _ | _, some (.template _) => .error (.mistake (.unexpectedArgument s))
  | none, _ => do
    let d ← accept d.settle
    return { d with pending := some (.template s) }

def argument (d : Draft) (s : Text) : Except Stop Draft :=
  if d.literal then d.plain s
  else
    match s with
    | ['-', '-'] => .ok { d with literal := true }
    | '-' :: '-' :: s => d.longOption s
    | '-' :: c :: s => d.letters (c :: s)
    | s =>
      match d.pending with
      | some (.table none) => .ok { d with pending := some (.table (some s)) }
      | _ => d.plain s

/-- The request of a draft after the last argument. -/
def finish (d : Draft) : Except Stop Options := do
  let d ← accept d.settle
  match d.template with
  | none => .error (.mistake (.missingTemplate d.given))
  | some template =>
    return ⟨⟨template⟩, d.table.map Path.mk, decide (.check ∈ d.given), decide (.verbose ∈ d.given)⟩

end Draft

/-- Reads the arguments of a run. -/
def parse (arguments : List Text) : Except UsageError Request :=
  match arguments.foldlM Draft.argument .empty >>= Draft.finish with
  | .ok options => .ok (.run options)
  | .error .help => .ok .help
  | .error (.mistake e) => .error e

end Stencil.CommandLine
