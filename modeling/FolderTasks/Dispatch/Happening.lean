import FolderTasks.Dispatch.Action
import FolderTasks.Dispatch.WaitingRoom
import FolderTasks.Log
import FolderTasks.Text.Quoted
/-!
# What happens

Everything that happens in a set of queues is written down as it happens.  What a user sees, the
events delivered to reporters, observers and waiting jobs, and what the log says are two views of
this one history.

## Main definitions

* `Happening`: the facts.
* `Happening.logLine?`: the line that the log has of a fact.
* `Happening.isVisible`: the facts that a user sees as events.
-/

namespace FolderTasks.Dispatch

/-- The number of a queue. -/
abbrev QueueId := Nat

/-- The number of an entry: the order in which entries were created. -/
abbrev EntryId := Nat

/-- Where a callback's action was done. -/
inductive CallbackSite where
  | status (kind : StatusKind)
  | observer
deriving DecidableEq, Repr

/-- How a job ends that executes a command or resets a package. -/
inductive JobResult where
  | outcome (o : Outcome)
  | failure (f : Failure)
  | panicked
deriving DecidableEq, Repr

/-- The jobs that a user starts by name. -/
inductive JobKind where
  | execution
  | reset
deriving DecidableEq, Repr

/-- A fact. -/
inductive Happening where
  /-- A request was absorbed by a waiting entry. -/
  | absorbed (entry : EntryId) (queueName : String) (args : List String)
  /-- A request became an entry; `pending` entries wait now. -/
  | queued (entry : EntryId) (queueName label : String) (pending : Nat)
  /-- An entry became active. -/
  | dispatched (entry : EntryId)
  /-- An entry left the active slot. -/
  | vacated (entry : EntryId)
  /-- A job got a task number. -/
  | numbered (id : TaskId) (job : JobId)
  /-- A start request has to wait for another one. -/
  | waitsToStart (id : TaskId)
  /-- A start request was cancelled before it was made. -/
  | cancelledBeforeStart (id : TaskId)
  /-- The backend was asked to start a command. -/
  | startAsked (id : TaskId) (command : Command)
  /-- The backend started it. -/
  | started (id : TaskId) (command : Command)
  /-- The backend refused. -/
  | startFailed (id : TaskId) (command : Command) (failure : Failure)
  /-- Observers are told of a start. -/
  | startAnnounced (id : TaskId) (command : Command)
  /-- One observer is told of a start. -/
  | startNoticed (observer : String) (id : TaskId) (command : Command)
  /-- An observer panicked when it was told of a start or an end. -/
  | observerPanicked (kind : NoticeKind) (id : TaskId)
  /-- An execution is ended because its token was cancelled. -/
  | terminating (id : TaskId)
  /-- An execution ended. -/
  | ended (id : TaskId) (command : Command) (code : Option Int32)
  /-- Observers are told of an end. -/
  | endAnnounced (id : TaskId) (command : Command) (code : Option Int32)
  /-- One observer is told of an end. -/
  | endNoticed (observer : String) (id : TaskId) (command : Command) (code : Option Int32)
  /-- The command of an entry could not be executed. -/
  | notExecuted (entry : EntryId) (queueName label : String) (failure : Failure)
  /-- The operation of an entry finished. -/
  | finished (entry : EntryId) (queueName label : String) (outcome : Outcome)
  /-- The status reporter is called for an entry; `isRecorded` if the user sees it. -/
  | reported (entry : EntryId) (call : StatusCall) (isRecorded : Bool)
  /-- The status reporter panicked at a call. -/
  | reporterPanicked (entry : EntryId) (call : StatusCall)
  /-- A callback's action was done. -/
  | hookAnswered (site : CallbackSite) (reply : Reply)
  /-- The handles of an entry have their outcome. -/
  | resolved (entry : EntryId) (outcome : Outcome)
  /-- A waiting job got the outcome of a handle. -/
  | watched (handle : String) (outcome : Outcome) (view : QueueView)
  /-- A named job ended. -/
  | jobEnded (kind : JobKind) (name : String) (result : JobResult)
  /-- A queue was withheld, or no longer, because the user said so. -/
  | withholdingSet (queue : QueueId) (value : Bool)
  /-- A queue is withheld for a reset that an entry serves. -/
  | resetAsked (queue : QueueId) (entry : EntryId)
  /-- A queue is no longer withheld, because the reset that an entry serves is over. -/
  | resetOver (queue : QueueId) (entry : EntryId)
  /-- The reset of a package finished. -/
  | packageReset (folder : Path) (outcome : Outcome)
  | managerDisposed
  | folderAdded (folder : Path)
  | folderRemoved (folder : Path)
deriving DecidableEq

/-- An exit code in a log field. -/
def codeText : Option Int32 → String
  | none => "None"
  | some code => "Some(" ++ toString code.toInt ++ ")"

namespace Happening

/-- The line that the log has of a fact. -/
def logLine? : Happening → Option LogLine
  | .absorbed _ queueName args => some ⟨.debug, .queue,
      "Equivalent operation already queued, sharing its result",
      [("queue", queueName), ("args", Text.quoteList args)]⟩
  | .queued _ queueName label pending => some ⟨.debug, .queue, "Operation queued",
      [("queue", queueName), ("operation", label), ("pending", toString pending)]⟩
  | .waitsToStart id => some ⟨.debug, .manager, "Another task is starting, waiting",
      [("task_id", id.name)]⟩
  | .cancelledBeforeStart id => some ⟨.debug, .manager, "Cancelled before start",
      [("task_id", id.name)]⟩
  | .started id command => some ⟨.debug, .manager, "Task started",
      [("task_id", id.name), ("backend", Scripted.name), ("command", command.line)]⟩
  | .startFailed id command failure => some ⟨.warn, .manager, "Task failed to start",
      [("task_id", id.name), ("program", command.program), ("error", failure.message)]⟩
  | .terminating id => some ⟨.debug, .manager, "Cancellation requested, terminating",
      [("task_id", id.name)]⟩
  | .ended id command code => some ⟨.debug, .manager, "Task ended",
      [("task_id", id.name), ("program", command.program), ("exit_code", codeText code)]⟩
  | .notExecuted _ queueName label failure => some ⟨.warn, .queue,
      "Operation could not be executed",
      [("queue", queueName), ("operation", label), ("error", failure.message)]⟩
  | .finished _ queueName label outcome => some ⟨.info, .queue, "Operation " ++ outcome.verdict,
      [("queue", queueName), ("operation", label), ("exit_code", codeText outcome.code?)]⟩
  | .reported _ call _ => some call.logLine
  | .packageReset folder outcome => some ⟨.info, .workspace,
      "Package reset " ++ outcome.verdict,
      [("folder", folder.text), ("exit_code", codeText outcome.code?)]⟩
  | .managerDisposed => some ⟨.debug, .manager, "Task manager disposed",
      [("backend", Scripted.name)]⟩
  | .folderAdded folder => some ⟨.info, .workspace, "Folder added", [("folder", folder.text)]⟩
  | .folderRemoved folder => some ⟨.info, .workspace, "Folder removed", [("folder", folder.text)]⟩
  | _ => none

/-- Does a user see an event of the fact? -/
def isVisible : Happening → Bool
  | .startNoticed .. | .endNoticed .. | .hookAnswered .. | .watched .. | .jobEnded .. => true
  | .reported _ _ isRecorded => isRecorded
  | _ => false

end Happening

end FolderTasks.Dispatch
