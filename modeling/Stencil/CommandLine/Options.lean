import Stencil.Path

/-!
# Options of the command line
-/

namespace Stencil.CommandLine

def programName : Text := "fill-docker-template".toList

/-- The options that an argument can name. -/
inductive Flag where
  | table
  | check
  | verbose
  | help
  deriving DecidableEq, Repr

namespace Flag

/-- In the order in which the help lists them. -/
def all : List Flag := [table, check, verbose, help]

/-- The name after two dashes. -/
def long : Flag → Text
  | table => "table".toList
  | check => "check".toList
  | verbose => "verbose".toList
  | help => "help".toList

/-- The letter after one dash. -/
def letter : Flag → Char
  | table => 't'
  | check => 'c'
  | verbose => 'v'
  | help => 'h'

/-- How the option is written, without a value. -/
def name (f : Flag) : Text := '-' :: '-' :: f.long

/-- How the option is written in messages. -/
def shown : Flag → Text
  | table => table.name ++ " <TABLE>".toList
  | f => f.name

def about : Flag → Text
  | table => "Substitution table file (TOML format); defaults to the Chapel apt blocks".toList
  | check => "Validate the template and list its placeholders without writing Dockerfile".toList
  | verbose => "Log file operations to stderr".toList
  | help => "Print help".toList

def ofLong? (s : Text) : Option Flag := all.find? (·.long = s)

def ofLetter? (c : Char) : Option Flag := all.find? (·.letter = c)

end Flag

def templateName : Text := "TEMPLATE".toList

/-- How the template is written in messages. -/
def templateShown : Text := '<' :: templateName ++ ['>']

/-- What a run is asked to do. -/
structure Options where
  template : Path
  table : Option Path
  check : Bool
  verbose : Bool
  deriving DecidableEq, Repr

/-- The arguments that can follow the name of the program. -/
def generalUsage : Text := "[OPTIONS] ".toList ++ templateShown

def usageLine (arguments : Text) : Text :=
  "Usage: ".toList ++ programName ++ ' ' :: arguments ++ ['\n']

/-- A line of the help: what is written, filled up to `width`, and what it is for. -/
def helpLine (width : Nat) (written about : Text) : Text :=
  [' ', ' '] ++ written ++ List.replicate (width - written.length) ' ' ++ [' ', ' '] ++ about ++ ['\n']

def help : Text :=
  let written (f : Flag) : Text := '-' :: f.letter :: ',' :: ' ' :: f.shown
  let width := (Flag.all.map fun f => (written f).length).foldl max 0
  "Fill @@ placeholders in a Dockerfile template and write Dockerfile next to it\n\n".toList ++
    usageLine generalUsage ++
    "\nArguments:\n".toList ++
    helpLine templateShown.length templateShown "Template file to fill".toList ++
    "\nOptions:\n".toList ++
    Flag.all.flatMap fun f => helpLine width (written f) f.about

end Stencil.CommandLine
