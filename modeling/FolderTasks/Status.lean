import FolderTasks.Log
import FolderTasks.Operation
/-!
# Status reports

A queue reports the progress of its operations to a status reporter.  Reporting is for people
only: nothing that a reporter does changes what the queue does.

## Main definitions

* `StatusCall`: what a reporter is told.
* `StatusCall.logLine`: the line that the default reporter writes for it.
-/

namespace FolderTasks

/-- What a status reporter is told. -/
inductive StatusCall where
  /-- An operation that is shown became active. -/
  | start (label : String)
  /-- An operation that is shown finished. -/
  | finish (label : String)
  /-- The log line at the start of an operation, with the name of its queue. -/
  | logStart (message scope : String)
  /-- The log line at the end of an operation. -/
  | logEnd (message : String)
deriving DecidableEq, Repr

/-- The kinds of calls. -/
inductive StatusKind where
  | start
  | finish
  | logStart
  | logEnd
deriving DecidableEq, Repr, Inhabited

/-- The kind of a call. -/
def StatusCall.kind : StatusCall → StatusKind
  | .start _ => .start
  | .finish _ => .finish
  | .logStart _ _ => .logStart
  | .logEnd _ => .logEnd

/-- The line that the default reporter writes. -/
def StatusCall.logLine : StatusCall → LogLine
  | .start label => ⟨.info, .status, "Operation running", [("operation", label)]⟩
  | .finish label => ⟨.debug, .status, "Operation status cleared", [("operation", label)]⟩
  | .logStart message scope => ⟨.info, .status, message, [("scope", scope)]⟩
  | .logEnd message => ⟨.info, .status, message, []⟩

namespace Operation

/-- The calls made for an operation when it becomes active on the queue of a name. -/
def startCalls (op : Operation) (queueName : String) : List StatusCall :=
  (if op.showStatus then [.start op.label] else []) ++
    (if op.logLifecycle then [.logStart op.startMessage queueName] else [])

/-- The calls made for an operation when it has finished. -/
def endCalls (op : Operation) (outcome : Outcome) : List StatusCall :=
  (if op.logLifecycle then [.logEnd (op.endMessage outcome)] else []) ++
    (if op.showStatus then [.finish op.label] else [])

end Operation

end FolderTasks
