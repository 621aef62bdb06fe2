import Stencil.CommandLine.Options
import Stencil.Text.Escapes

/-!
# Mistakes on the command line

A mistake is reported with a tip, where there is one, and with the usage of the program: either in
general or narrowed to the options that were given. What the report repeats of the arguments it repeats
without escape sequences, so that an argument does not command the terminal.
-/

namespace Stencil.CommandLine

/-- The options in `given` are those up to the mistake, in the order of the arguments; `templateGiven`
says whether the template has been given by then, and `anyGiven` whether it or an option has. -/
inductive UsageError where
  | missingValue (argument : Text)
  | repeated (flag : Flag)
  | unexpectedValue (value : Text) (flag : Flag) (anyGiven : Bool)
  | unknownOption (name : Text) (similar : Option Flag) (given : List Flag) (templateGiven : Bool)
  | unknownLetter (letter : Char)
  | unexpectedArgument (argument : Text)
  | missingTemplate (given : List Flag)
  deriving DecidableEq, Repr

namespace UsageError

/-- The usage with the given options and the template. -/
def narrowUsage (given : List Flag) : Text :=
  joinWith [' '] (given.eraseDups.map (·.shown) ++ [templateShown])

/-- The arguments that make up a run, as alternatives. Help is none of them. -/
def alternatives : Text :=
  '<' :: joinWith ['|'] (templateName :: (Flag.all.filter (· ≠ .help)).map (·.shown)) ++ ['>']

/-- The usage with an option that goes with any of the alternatives. -/
def alternativeUsage (flag : Flag) : Text :=
  if flag = .help then flag.shown ++ ' ' :: alternatives else alternatives

/-- An argument inside a message. -/
def quote (argument : Text) : Text := '\'' :: withoutEscapes argument ++ ['\'']

def unexpected (argument : Text) : Text :=
  "unexpected argument ".toList ++ quote argument ++ " found".toList

def message : UsageError → Text
  | missingValue argument =>
    "a value is required for ".toList ++ quote argument ++ " but none was supplied".toList
  | repeated flag =>
    "the argument ".toList ++ quote flag.shown ++ " cannot be used multiple times".toList
  | unexpectedValue value flag _ =>
    "unexpected value ".toList ++ quote value ++ " for ".toList ++ quote flag.shown ++
      " found; no more were expected".toList
  | unknownOption name _ _ _ => unexpected ('-' :: '-' :: name)
  | unknownLetter letter => unexpected ['-', letter]
  | unexpectedArgument argument => unexpected argument
  | missingTemplate _ =>
    "the following required arguments were not provided:\n  ".toList ++ templateShown

/-- How to pass an argument as the template although it looks like an option. -/
def literally (argument : Text) : Text :=
  "to pass ".toList ++ quote argument ++ " as a value, use ".toList ++
    quote ("-- ".toList ++ argument)

def tip? : UsageError → Option Text
  | unknownOption _ (some flag) _ _ =>
    some ("a similar argument exists: ".toList ++ quote flag.name)
  | unknownOption name none _ _ => some (literally ('-' :: '-' :: name))
  | unknownLetter letter => some (literally ['-', letter])
  | _ => none

def usage? : UsageError → Option Text
  | missingValue _ => none
  | repeated _ | unknownLetter _ | unexpectedArgument _ => some generalUsage
  | unexpectedValue _ flag true => some (alternativeUsage flag)
  | unexpectedValue _ flag false => some (narrowUsage [flag])
  | unknownOption _ none [] false => some generalUsage
  | unknownOption _ similar given _ => some (narrowUsage (given ++ similar.toList))
  | missingTemplate given => some (narrowUsage given)

def report (e : UsageError) : Text :=
  let tip := match e.tip? with
    | some tip => "  tip: ".toList ++ tip ++ ['\n', '\n']
    | none => []
  let usage := match e.usage? with
    | some usage => usageLine usage ++ ['\n']
    | none => []
  "error: ".toList ++ e.message ++ ['\n', '\n'] ++ tip ++ usage ++
    "For more information, try '--help'.\n".toList

end UsageError

end Stencil.CommandLine
