import Stencil.Text

/-!
# Causes of failed file access
-/

namespace Stencil

inductive FileError where
  | notFound
  | notDirectory
  | isDirectory
  | nameTooLong
  | nulInName
  | notUtf8
  | other (code : Nat) (reason : Text)
  deriving DecidableEq, Repr

namespace FileError

/-- The failure that the system knows by a number. -/
def ofCode (code : Nat) (reason : Text) : FileError :=
  match code with
  | 2 => notFound
  | 20 => notDirectory
  | 21 => isDirectory
  | 36 => nameTooLong
  | _ => other code reason

/-- The wording of a failure that the system knows by a number. -/
def numbered (code : Nat) (reason : Text) : Text :=
  reason ++ " (os error ".toList ++ decimal code ++ [')']

def message : FileError → Text
  | notFound => numbered 2 "No such file or directory".toList
  | notDirectory => numbered 20 "Not a directory".toList
  | isDirectory => numbered 21 "Is a directory".toList
  | nameTooLong => numbered 36 "File name too long".toList
  | nulInName => "file name contained an unexpected NUL byte".toList
  | notUtf8 => "stream did not contain valid UTF-8".toList
  | other code reason => numbered code reason

end FileError

end Stencil
