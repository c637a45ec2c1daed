/-!
# The log

Lines that the library writes about its work, for diagnosis.

## Main definitions

* `LogLine`: a line with its level, the part that wrote it, its message and its fields.
-/

namespace FolderTasks

/-- How important a log line is. -/
inductive LogLevel where
  | debug
  | info
  | warn
deriving DecidableEq, Repr, Inhabited

/-- The name of a level. -/
def LogLevel.name : LogLevel → String
  | .debug => "DEBUG"
  | .info => "INFO"
  | .warn => "WARN"

/-- The part of the library that writes a line. -/
inductive LogSource where
  | queue
  | manager
  | workspace
  | status
  | config
deriving DecidableEq, Repr, Inhabited

/-- The target under which a part's lines are filed. -/
def LogSource.target : LogSource → String
  | .queue => "swift_task_queue::queue"
  | .manager => "swift_task_queue::manager"
  | .workspace => "swift_task_queue::workspace"
  | .status => "swift_task_queue::status"
  | .config => "swift_task_queue::config"

/-- A line of the log. -/
structure LogLine where
  level : LogLevel
  source : LogSource
  message : String
  fields : List (String × String) := []
deriving DecidableEq, Repr, Inhabited

end FolderTasks
