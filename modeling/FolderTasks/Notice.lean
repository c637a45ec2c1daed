import FolderTasks.Command
import FolderTasks.Timestamp
/-!
# Notices

What observers are told when an execution starts and when it ends.

## Main definitions

* `TaskId`: the number of an execution request.
* `StartNotice`, `EndNotice`: the two notices.
-/

namespace FolderTasks

/-- The number of an execution request, counted from one. -/
structure TaskId where
  number : Nat
deriving DecidableEq, Repr, Inhabited

/-- The name of an execution request. -/
def TaskId.name (id : TaskId) : String := "task-" ++ toString id.number

/-- An execution has started. -/
structure StartNotice where
  id : TaskId
  command : Command
  timestamp : Timestamp

/-- An execution has ended. -/
structure EndNotice where
  id : TaskId
  command : Command
  /-- Absent when the execution was cancelled or ended without a code. -/
  exitCode : Option Int32
  timestamp : Timestamp

end FolderTasks
