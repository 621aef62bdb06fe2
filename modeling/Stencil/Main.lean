import Std.Time
import Stencil.CommandLine.Run

/-!
# The program on a machine

The services of a run are those of the machine: its files, its clock, its streams and the environment.
-/

namespace Stencil.Machine

/-- The cause behind a failure of the machine. -/
def cause : IO.Error → FileError
  | .noFileOrDirectory _ code reason | .alreadyExists _ code reason | .otherError code reason
  | .resourceBusy code reason | .resourceVanished code reason | .unsupportedOperation code reason
  | .hardwareFault code reason | .unsatisfiedConstraints code reason | .illegalOperation code reason
  | .protocolError code reason | .timeExpired code reason | .interrupted _ code reason
  | .invalidArgument _ code reason | .permissionDenied _ code reason
  | .resourceExhausted _ code reason | .inappropriateType _ code reason
  | .noSuchThing _ code reason => .ofCode code.toNat reason.toList
  | .unexpectedEof | .userError _ => .other 5 "Input/output error".toList

def attempt (action : IO α) : IO (Except FileError α) := do
  try
    return .ok (← action)
  catch e =>
    return .error (cause e)

/-- Opens the file at a path for an action. -/
def withFile (p : Path) (mode : IO.FS.Mode) (action : IO.FS.Handle → IO α) :
    IO (Except FileError α) :=
  if p.text.contains '\x00' then return .error .nulInName
  else attempt do
    action (← IO.FS.Handle.mk (String.ofList p.text) mode)

instance : System IO where
  read p := withFile p .read fun file => file.readBinToEnd
  write p bytes := withFile p .write fun file => do
    file.write bytes
    file.flush
  currentDirectory := attempt do
    return ⟨(← IO.currentDir).toString.toList⟩
  home := do
    match ← IO.getEnv "HOME" with
    | none | some "" => return none
    | some home => return some ⟨home.toList⟩
  time := do
    let now := Std.Time.DateTime.ofTimestamp (← Std.Time.Timestamp.now) .UTC
    return (now.format "uuuu-MM-dd'T'HH:mm:ss.SSSSSS'Z'").toList
  print s := do
    let stream ← IO.getStdout
    stream.putStr (String.ofList s)
    stream.flush
  printError s := do
    let stream ← IO.getStderr
    stream.putStr (String.ofList s)
    stream.flush

end Stencil.Machine

def main (arguments : List String) : IO UInt32 := do
  return UInt32.ofNat (← Stencil.CommandLine.program (arguments.map String.toList))
