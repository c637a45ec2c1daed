/-!
# What a file system refuses

The reasons for which a file operation fails, with the words and numbers an operating system
gives them.

## Main definitions

* `Files.Fault`: the reasons.
* `Files.Fault.reason`, `Files.Fault.message`: their wording without and with the number.
-/

namespace FolderTasks.Files

/-- Why a file operation failed. -/
inductive Fault where
  | notFound
  | busy
  | alreadyExists
  | notDirectory
  | isDirectory
  | nameTooLong
  | notEmpty
  /-- The operation is not permitted on that file. -/
  | denied
  /-- Links lead to links again and again. -/
  | tooManyLinks
  /-- A file is to be executed that is no program. -/
  | notExecutable
  /-- The arguments of a program are too long. -/
  | tooManyArguments
  /-- A channel is used that is not open for that. -/
  | badChannel
  /-- Nobody reads any more what is written. -/
  | brokenPipe
  | noSpace
  | invalid
  /-- The content is not UTF-8. -/
  | notText
  /-- A path holds the character NUL. -/
  | nulInPath
  /-- Any other reason, in its own words. -/
  | other (reason : String)
deriving DecidableEq, Repr

namespace Fault

/-- The wording of a fault, and its number where it has one. -/
def wording : Fault → String × Option Nat
  | .notFound => ("No such file or directory", some 2)
  | .tooManyArguments => ("Argument list too long", some 7)
  | .notExecutable => ("Exec format error", some 8)
  | .badChannel => ("Bad file descriptor", some 9)
  | .denied => ("Permission denied", some 13)
  | .busy => ("Device or resource busy", some 16)
  | .alreadyExists => ("File exists", some 17)
  | .notDirectory => ("Not a directory", some 20)
  | .isDirectory => ("Is a directory", some 21)
  | .invalid => ("Invalid argument", some 22)
  | .noSpace => ("No space left on device", some 28)
  | .brokenPipe => ("Broken pipe", some 32)
  | .nameTooLong => ("File name too long", some 36)
  | .notEmpty => ("Directory not empty", some 39)
  | .tooManyLinks => ("Too many levels of symbolic links", some 40)
  | .notText => ("stream did not contain valid UTF-8", none)
  | .nulInPath => ("file name contained an unexpected NUL byte", none)
  | .other reason => (reason, none)

/-- The wording of a fault without its number. -/
def reason (f : Fault) : String := f.wording.1

/-- The wording of a fault with its number. -/
def message (f : Fault) : String :=
  match f.wording with
  | (reason, some number) => reason ++ " (os error " ++ toString number ++ ")"
  | (reason, none) => reason

end Fault

end FolderTasks.Files
