import FolderTasks.Files.Fault
import FolderTasks.Json.Decoder
import FolderTasks.Path
/-!
# Failures

What can go wrong while tasks are coordinated.

## Main definitions

* `Failure`: the causes.
* `Failure.kind`, `Failure.message`: their names and wording.
-/

namespace FolderTasks

/-- Why the settings could not be loaded or saved. -/
inductive SettingsTrouble where
  /-- The file cannot be read. -/
  | unreadable (file : Path) (fault : Files.Fault)
  /-- The file holds something else. -/
  | undecodable (file : Path) (flaw : Json.Flaw)
  /-- The folder of the file cannot be made. -/
  | noFolder (folder : Path) (fault : Files.Fault)
  /-- The finished file cannot be put in place. -/
  | notInPlace (draft file : Path) (fault : Files.Fault)
  /-- Any other reason, in its own words. -/
  | other (reason : String)
deriving DecidableEq, Repr

/-- The wording of a flaw inside a message: faults of the text are only named. -/
def Json.Flaw.summary : Json.Flaw → String
  | .fault .malformed => "<syntax>"
  | .fault .truncated => "<eof>"
  | .data c => c.message

/-- The wording of a trouble with the settings. -/
def SettingsTrouble.message : SettingsTrouble → String
  | .unreadable file fault => "Failed to read config file " ++ file.text ++ ": " ++ fault.message
  | .undecodable file flaw => "Failed to parse config file " ++ file.text ++ ": " ++ flaw.summary
  | .noFolder folder fault =>
    "Failed to create config directory " ++ folder.text ++ ": " ++ fault.message
  | .notInPlace draft file fault =>
    "Failed to rename config file " ++ draft.text ++ " to " ++ file.text ++ ": " ++ fault.message
  | .other reason => reason

/-- What can go wrong while tasks are coordinated. -/
inductive Failure where
  /-- The command was not started. -/
  | launch (program reason : String)
  /-- The task manager has been disposed of. -/
  | disposed
  /-- The settings could not be loaded or saved. -/
  | settings (trouble : SettingsTrouble)
  /-- No queue belongs to the folder. -/
  | folderNotFound (folder : Path)
  /-- A JSON text could not be decoded. -/
  | undecodable (flaw : Json.Flaw)
  /-- A file operation failed. -/
  | files (fault : Files.Fault)
deriving DecidableEq, Repr

namespace Failure

/-- The name of a failure's kind. -/
def kind : Failure → String
  | .launch _ _ => "Launch"
  | .disposed => "Disposed"
  | .settings _ => "Config"
  | .folderNotFound _ => "FolderNotFound"
  | .undecodable _ => "Serialization"
  | .files _ => "Io"

/-- The wording of a failure. -/
def message : Failure → String
  | .launch program reason => "Failed to launch '" ++ program ++ "': " ++ reason
  | .disposed => "Task manager has been disposed"
  | .settings trouble => "Configuration error: " ++ trouble.message
  | .folderNotFound folder => "No task queue registered for folder: " ++ folder.text
  | .undecodable flaw => "Serialization error: " ++ flaw.summary
  | .files fault => "I/O error: " ++ fault.message

end Failure

end FolderTasks
