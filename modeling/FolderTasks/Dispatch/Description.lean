import FolderTasks.Operation
import FolderTasks.Text.Quoted
/-!
# Describing handles

The text by which a handle is shown to people who look for a mistake: what kind of thing it is,
and its parts by name.

## Main definitions

* `Outcome.describe`: an outcome in such a text.
* `Operation.describeHandle`: the handle of an operation.
* `describeListener`: the handle of a listener.
-/

namespace FolderTasks

/-- A thing with named parts. -/
def describeParts (kind : String) (parts : List (String × String)) : String :=
  kind ++ " \x7b " ++ String.intercalate ", " (parts.map fun p => p.1 ++ ": " ++ p.2) ++ " \x7d"

/-- An outcome with its parts. -/
def Outcome.describe : Outcome → String
  | .exited code => describeParts "Exited" [("code", toString code.toInt)]
  | .terminated => "Terminated"
  | .cancelled => "Cancelled"
  | .launchFailed reason => describeParts "LaunchFailed" [("reason", Text.quote reason)]

/-- An outcome that may not be there. -/
def describeOutcome? : Option Outcome → String
  | none => "None"
  | some o => "Some(" ++ o.describe ++ ")"

/-- The handle of an operation, with its outcome where that is available. -/
def Operation.describeHandle (op : Operation) (outcome : Option Outcome) : String :=
  describeParts "OperationHandle"
    [("operation", Text.quote op.label), ("outcome", describeOutcome? outcome)]

/-- The handle of a listener. -/
def describeListener (isActive : Bool) : String :=
  describeParts "ListenerHandle" [("active", if isActive then "true" else "false")]

end FolderTasks
