import FolderTasks.Failure
import FolderTasks.Package.Action
import FolderTasks.Scripted.Backend
import FolderTasks.Status
/-!
# Actions on a set of queues

What a user of the queues can do at one moment, without letting any job run.  The same actions
can be done from inside a callback: a callback is a list of hooks, each of which says at which
call it acts, what it does, and whether it panics afterwards.

Queues, handles, jobs, observers and cancellation tokens are named by the user.

## Main definitions

* `Action`: the actions.
* `Hook`: what a callback does.
* `Reply`: what an action answers.
-/

namespace FolderTasks.Dispatch

/-- What an observer is told of. -/
inductive NoticeKind where
  | start
  | finish
deriving DecidableEq, Repr, Inhabited

mutual
/-- Something done at one moment. -/
inductive Action where
  /-- Script an argument list, and say how long its start takes. -/
  | script (args : List String) (script : Script) (startDelay : Option Nat)
  /-- Make a queue and keep it under a key. -/
  | makeQueue (key name : String)
  /-- Queue an operation and keep its handle. -/
  | request (queue : String) (operation : Operation) (token : Option String) (handle : String)
  /-- Cancel a token. -/
  | cancel (token : String)
  /-- Withhold a queue, or stop withholding it. -/
  | withhold (queue : String) (value : Bool)
  /-- Look at the outcome of a handle, if it is available. -/
  | peek (handle : String)
  /-- Describe the operation of a handle. -/
  | describe (handle : String)
  /-- Do two handles share one result? -/
  | compare (a b : String)
  /-- Let a job wait for a handle. -/
  | watch (handle : String)
  /-- Subscribe an observer. -/
  | observe (name : String) (kind : NoticeKind) (hooks : List Hook)
  /-- Release an observer. -/
  | unobserve (name : String)
  /-- Count the observers. -/
  | countObservers
  /-- Dispose of the task manager. -/
  | disposeManager
  /-- Describe the task manager. -/
  | inspectManager
  /-- List the executions. -/
  | listRecords
  /-- Let a job execute a command past all queues. -/
  | execute (name : String) (command : Command) (token : Option String)
  /-- Let a job reset the package in a folder. -/
  | reset (name : String) (folder : Path) (token : Option String)
  /-- Give up a job. -/
  | abandon (name : String)
  /-- An action whose description could not be decoded. -/
  | undecodable (flaw : Json.Flaw)
  /-- An action that does not exist. -/
  | unknown (name : String)

/-- What a callback does when it is called: actions, and perhaps a panic after them.  A hook with
a status kind acts at calls of that kind only, a hook with a number at the call of that number
only, counted from one. -/
inductive Hook where
  | mk (on : Option StatusKind) (nth : Option Nat) (actions : List Action) (panics : Bool)
end

instance : Inhabited Action := ⟨.countObservers⟩

instance : Inhabited Hook := ⟨.mk none none [] false⟩

namespace Hook

/-- The kind of status calls at which a hook acts. -/
def on : Hook → Option StatusKind
  | .mk on _ _ _ => on

/-- The number of the call at which a hook acts. -/
def nth : Hook → Option Nat
  | .mk _ nth _ _ => nth

/-- The actions of a hook. -/
def actions : Hook → List Action
  | .mk _ _ actions _ => actions

/-- Does the hook end in a panic? -/
def panics : Hook → Bool
  | .mk _ _ _ panics => panics

/-- Does a hook act at the call numbered `count`? -/
def actsAt (h : Hook) (count : Nat) : Bool := h.nth.isNone || h.nth == some count

/-- Does a hook act at a status call? -/
def actsOn (h : Hook) (kind : StatusKind) (count : Nat) : Bool :=
  (h.on.isNone || h.on == some kind) && h.actsAt count

end Hook

/-- What can be seen of a queue. -/
structure QueueView where
  /-- The number of waiting entries. -/
  pending : Nat
  /-- The label of the active operation. -/
  active : Option String
  isIdle : Bool
  isWithheld : Bool
deriving DecidableEq, Repr, Inhabited

/-- What an action answers. -/
inductive Reply where
  | done
  /-- A name. -/
  | named (name : String)
  /-- A name, if there is one. -/
  | maybeNamed (name : Option String)
  /-- The label of the operation behind a new handle, and the earlier handles of its entry. -/
  | queued (label : String) (shares : List String)
  /-- An outcome, if it is available. -/
  | outcome (outcome : Option Outcome)
  /-- The operation of a handle and its outcome, if available. -/
  | described (operation : Operation) (outcome : Option Outcome)
  /-- Do handles share a result, asked both ways? -/
  | compared (ab ba : Bool)
  /-- A number of observers. -/
  | counted (observers : Nat)
  /-- Was there an observer, and how many are left? -/
  | released (wasThere : Bool) (observers : Nat)
  /-- Is the manager disposed of, and how many observers has it? -/
  | disposed (isDisposed : Bool) (observers : Nat)
  | manager (isDisposed : Bool) (observers : Nat)
  | records (backend : Scripted)
  /-- What became of a job that was given up. -/
  | noJob
  | alreadyFinished
  | aborted
  /-- Folders. -/
  | folders (folders : List Path)
  /-- A queue's name and what can be seen of it. -/
  | found (name : String) (view : QueueView)
  | toolchain (toolchain : Toolchain)
  | tasks (tasks : List TaskDefinition)
  /-- The outcome did not come in time. -/
  | never
  | failed (failure : Failure)
  | noHandle (name : String)
  | noQueue (name : String)
  | unknown (name : String)
deriving DecidableEq

end FolderTasks.Dispatch
