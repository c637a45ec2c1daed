import FolderTasks.Command
import FolderTasks.Outcome
/-!
# Operations

An operation is a command together with how it is presented while it runs: a name in the status
display and a heading in the log.

## Main definitions

* `Operation`: the unit of work that a queue takes.
* `Operation.label`: its name for people.
* `Operation.startMessage`, `Operation.endMessage`: its log lines.
-/

namespace FolderTasks

/-- One unit of work for a queue. -/
structure Operation where
  command : Command
  /-- The name in the status display. -/
  displayName : Option String := none
  /-- The heading of the log lines. -/
  logHeading : Option String := none
  /-- Is the operation shown in the status display? -/
  showStatus : Bool := false
  /-- Are start and end written to the log? -/
  logLifecycle : Bool := false
deriving DecidableEq, Inhabited

namespace Operation

/-- Name the operation and show it in the status display. -/
def withDisplayName (op : Operation) (name : String) : Operation :=
  { op with displayName := some name, showStatus := true }

/-- Head the log lines and write them. -/
def withLogHeading (op : Operation) (heading : String) : Operation :=
  { op with logHeading := some heading, logLifecycle := true }

/-- Show the operation in the status display or not. -/
def showingStatus (op : Operation) (b : Bool) : Operation := { op with showStatus := b }

/-- Write log lines or not. -/
def loggingLifecycle (op : Operation) (b : Bool) : Operation := { op with logLifecycle := b }

/-- The key by which equivalent requests are recognised: the argument list. -/
def key (op : Operation) : List String := op.command.args

/-- The display name, or else the command line. -/
def label (op : Operation) : String := op.displayName.getD op.command.line

/-- The heading of the log lines, or else the label. -/
def heading (op : Operation) : String := op.logHeading.getD op.label

/-- The log line at the start. -/
def startMessage (op : Operation) : String := op.heading ++ "..."

/-- The log line at the end. -/
def endMessage (op : Operation) (outcome : Outcome) : String :=
  op.heading ++ "... " ++ outcome.verdict ++ "."

end Operation

end FolderTasks
