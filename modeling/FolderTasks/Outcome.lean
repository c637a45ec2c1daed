/-!
# Outcomes

How an operation finished.

## Main definitions

* `Outcome`: the four ways to finish.
* `Outcome.ofCode`: the outcome of an execution that ran to its end.
* `Outcome.verdict`: the word for it in log lines.
-/

namespace FolderTasks

/-- How an operation finished. -/
inductive Outcome where
  /-- The program exited and reported a code. -/
  | exited (code : Int32)
  /-- The program ended without an exit code, by a signal or a crash. -/
  | terminated
  /-- Somebody cancelled it. -/
  | cancelled
  /-- It could not be launched. -/
  | launchFailed (reason : String)
deriving DecidableEq, Repr, Inhabited

namespace Outcome

/-- The exit code, if one was reported. -/
def code? : Outcome → Option Int32
  | .exited code => some code
  | _ => none

/-- Did the program report success? -/
def isSuccess (o : Outcome) : Bool := o.code? == some 0

/-- The outcome of an execution that ran to its end. -/
def ofCode : Option Int32 → Outcome
  | some code => .exited code
  | none => .terminated

@[simp] theorem code?_ofCode (code : Option Int32) : (ofCode code).code? = code := by
  cases code <;> rfl

/-- The word for an outcome in log lines. -/
def verdict : Outcome → String
  | .exited code => if code = 0 then "done" else "failed"
  | .terminated | .cancelled => "cancelled"
  | .launchFailed _ => "failed"

end Outcome

end FolderTasks
