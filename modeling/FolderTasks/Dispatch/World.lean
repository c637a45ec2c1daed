import FolderTasks.Dispatch.Happening
import FolderTasks.Dispatch.WaitingRoom
import FolderTasks.Listeners.Registry
/-!
# The state of a set of queues

All queues of a workspace share one task manager, which starts commands on one backend, one start
at a time.  What goes on at the same time is a set of jobs that take turns: a job runs until it
has to wait, and a job that need not wait any longer stands in a line of its own until its turn
comes.

## Main definitions

* `Entry`, `Queue`: a queued operation, and a queue of them.
* `StartGuard`: who may start a command, and who waits for it.
* `Token`: a cancellation token and the jobs it wakes.
* `Job`: something that goes on, with the place where it waits.
* `World`: all of it together, with the history.

## Design notes

Queues, entries and jobs are numbered in the order of their creation and never removed, so a
number keeps its meaning.  The pieces that the user names are found through lists of names.
-/

namespace FolderTasks.Dispatch

/-- A queued operation. -/
structure Entry where
  queue : QueueId
  operation : Operation
  token : Option String
  /-- The outcome, once it is known to those who wait. -/
  outcome : Option Outcome := none
  /-- Has somebody received the outcome? -/
  isReceived : Bool := false
  room : WaitingRoom := {}
deriving Inhabited

/-- A queue of operations for one folder. -/
structure Queue where
  name : String
  /-- Does the user's reporter see the operations, or are they only logged? -/
  isRecorded : Bool := true
  /-- The entries that wait, in order. -/
  pending : List EntryId := []
  /-- The entry whose operation is executing. -/
  active : Option EntryId := none
  /-- Is the folder withheld for an exclusive operation? -/
  isWithheld : Bool := false
deriving DecidableEq, Repr, Inhabited

/-- The right to start a command: one job at a time holds it, and it passes on in the order in
which the others came. -/
structure StartGuard where
  holder : Option JobId := none
  line : List JobId := []
deriving DecidableEq, Repr, Inhabited

/-- A cancellation token. -/
structure Token where
  isCancelled : Bool := false
  /-- The jobs to be woken, in the order in which they began to wait. -/
  waiters : List JobId := []
deriving DecidableEq, Repr, Inhabited

/-- What a job does. -/
inductive Errand where
  /-- Execute the operation of an active entry. -/
  | operation (entry : EntryId)
  /-- Execute a command past all queues. -/
  | execution (name : String) (command : Command) (token : Option String)
  /-- Reset the package in a folder. -/
  | reset (name : String) (folder : Path) (token : Option String)
  /-- Wait for a handle. -/
  | watch (handle : String) (entry : EntryId)
  /-- Wait for a reset and stop withholding its queue. -/
  | reopen (queue : QueueId) (entry : EntryId)
deriving DecidableEq

/-- How far a job has come. -/
inductive Position where
  /-- It has not begun. -/
  | fresh
  /-- It has asked for the right to start a command. -/
  | inLine (id : TaskId)
  /-- It has that right, and the start is going on. -/
  | starting (id : TaskId)
  /-- It waits for an execution to end. -/
  | running (id : TaskId) (execution : Execution)
  /-- What it had to execute is over, and that is being told. -/
  | telling
  /-- It waits for the outcome of an entry. -/
  | awaiting (entry : EntryId) (seat : Nat)
  /-- It is over. -/
  | done
deriving DecidableEq, Repr

/-- Something that goes on. -/
structure Job where
  errand : Errand
  position : Position := .fresh
  /-- Has it been given up? -/
  isAbandoned : Bool := false
deriving DecidableEq

/-- An observer: what its callback does, and the name it is known by. -/
structure Observer where
  name : String
  hooks : List Hook

/-- The task manager. -/
structure Manager where
  /-- The last task number that was given out. -/
  lastId : Nat := 0
  guard : StartGuard := {}
  startObservers : Registry Observer := {}
  endObservers : Registry Observer := {}
  isDisposed : Bool := false

/-- The number of observers. -/
def Manager.observerCount (m : Manager) : Nat := m.startObservers.size + m.endObservers.size

/-- A moment at which a job is to be woken. -/
structure Timer where
  deadline : Nat
  job : JobId
deriving DecidableEq, Repr, Inhabited

/-- The user's status reporter: its hooks, and the kinds of the calls made to it. -/
structure Reporter where
  hooks : List Hook := []
  calls : List StatusKind := []

/-- The names that the user gave. -/
structure Directory where
  queues : List (String × QueueId) := []
  /-- Handles in the order in which they were made. -/
  handles : List (String × EntryId) := []
  jobs : List (String × JobId) := []
  observers : List (String × NoticeKind × Nat) := []

/-- A set of queues with everything that goes on in it. -/
structure World where
  /-- Milliseconds since the beginning. -/
  clock : Nat := 0
  backend : Scripted := {}
  /-- How long starts take: for an argument list, and for all others. -/
  startDelays : List (List String × Nat) := []
  startDelay : Nat := 0
  /-- What is noticed of a task when its execution is over and its token is cancelled at once: is
  it the cancellation?  Nothing but the choice itself decides that. -/
  prefersCancellation : TaskId → Bool := fun _ => false
  toolchain : Toolchain := .standard
  manager : Manager := {}
  entries : List Entry := []
  queues : List Queue := []
  jobs : List Job := []
  /-- The jobs whose turn comes, in order. -/
  ready : List JobId := []
  /-- The job whose turn it is. -/
  current : Option JobId := none
  /-- The timers in the order in which they fire. -/
  timers : List Timer := []
  tokens : List (String × Token) := []
  /-- The folders of the workspace with their queues, each spelled as when it was added. -/
  folders : List (Path × QueueId) := []
  reporter : Reporter := {}
  /-- Do the queues of folders report to the user's reporter? -/
  recordsFolders : Bool := true
  /-- How often each observer was called. -/
  observerCalls : List (NoticeKind × Nat) := []
  names : Directory := {}
  /-- What happened, the latest first, each fact with its moment. -/
  history : List (Nat × Happening) := []

namespace World

/-- Write a fact down. -/
def note (w : World) (h : Happening) : World := { w with history := (w.clock, h) :: w.history }

/-! ## Access by number and name -/

/-- An entry by its number. -/
def entryOf? (w : World) (e : EntryId) : Option Entry := w.entries[e]?

/-- Change an entry. -/
def modifyEntry (w : World) (e : EntryId) (f : Entry → Entry) : World :=
  { w with entries := w.entries.modify e f }

/-- Change a queue. -/
def modifyQueue (w : World) (q : QueueId) (f : Queue → Queue) : World :=
  { w with queues := w.queues.modify q f }

/-- Change a job. -/
def modifyJob (w : World) (j : JobId) (f : Job → Job) : World :=
  { w with jobs := w.jobs.modify j f }

/-- Put a job at a position. -/
def setPosition (w : World) (j : JobId) (p : Position) : World :=
  w.modifyJob j fun job => { job with position := p }

/-- The position of a job. -/
def position (w : World) (j : JobId) : Position :=
  match w.jobs[j]? with
  | some job => job.position
  | none => .done

/-- The token of a name; it exists as soon as it is mentioned. -/
def token (w : World) (name : String) : Token := (w.tokens.lookup name).getD {}

/-- Put a token back. -/
def setToken (w : World) (name : String) (t : Token) : World :=
  { w with tokens := (name, t) :: w.tokens.filter fun e => e.1 != name }

/-- Is there a token, and is it cancelled? -/
def isCancelled (w : World) : Option String → Bool
  | none => false
  | some name => (w.token name).isCancelled

/-- The queue kept under a key. -/
def queueNamed? (w : World) (key : String) : Option QueueId := w.names.queues.lookup key

/-- The entry of the latest handle of a name. -/
def handleNamed? (w : World) (name : String) : Option EntryId :=
  w.names.handles.reverse.lookup name

/-- The queue of a folder, whatever its spelling. -/
def folderQueue? (w : World) (folder : Path) : Option QueueId :=
  (w.folders.find? fun f => decide (f.1.Same folder)).map (·.2)

/-- The name of the queue of an entry. -/
def queueName (w : World) (q : QueueId) : String :=
  match w.queues[q]? with
  | some queue => queue.name
  | none => ""

/-- The outcome of an entry as far as a handle shows it: somebody must have received it. -/
def peek (w : World) (e : EntryId) : Option Outcome :=
  match w.entryOf? e with
  | some entry => if entry.isReceived then entry.outcome else none
  | none => none

/-- What can be seen of a queue. -/
def view (w : World) (q : QueueId) : QueueView :=
  match w.queues[q]? with
  | some queue =>
    { pending := queue.pending.length
      active := (queue.active.bind w.entryOf?).map fun e => e.operation.label
      isIdle := queue.active.isNone && queue.pending.isEmpty
      isWithheld := queue.isWithheld }
  | none => default

/-! ## Jobs -/

/-- Give a job its turn, after all that have one coming. -/
def wake (w : World) (j : JobId) : World :=
  if j ∈ w.ready then w else { w with ready := w.ready ++ [j] }

/-- Wake several jobs in order. -/
def wakeAll (w : World) (js : List JobId) : World := js.foldl wake w

/-- Begin a job; the answer holds its number. -/
def spawn (w : World) (errand : Errand) : World × JobId :=
  ({ w with jobs := w.jobs ++ [{ errand }], ready := w.ready ++ [w.jobs.length] }, w.jobs.length)

/-- Put a timer behind all that fire no later. -/
def insertTimer (t : Timer) : List Timer → List Timer
  | [] => [t]
  | u :: rest => if u.deadline ≤ t.deadline then u :: insertTimer t rest else t :: u :: rest

/-- Have a job woken at a moment. -/
def setTimer (w : World) (deadline : Nat) (j : JobId) : World :=
  { w with timers := insertTimer ⟨deadline, j⟩ w.timers }

/-- Do not have a job woken by a timer. -/
def clearTimer (w : World) (j : JobId) : World :=
  { w with timers := w.timers.filter fun t => t.job != j }

/-- Have a job woken when a token is cancelled. -/
def listen (w : World) (token : Option String) (j : JobId) : World :=
  match token with
  | none => w
  | some name =>
    let t := w.token name
    w.setToken name { t with waiters := t.waiters ++ [j] }

/-- Do not have a job woken by a token. -/
def unlisten (w : World) (token : Option String) (j : JobId) : World :=
  match token with
  | none => w
  | some name =>
    let t := w.token name
    w.setToken name { t with waiters := t.waiters.filter (· != j) }

/-- Cancel a token and wake those who listen. -/
def cancel (w : World) (name : String) : World :=
  let t := w.token name
  if t.isCancelled then w
  else (w.setToken name { isCancelled := true }).wakeAll t.waiters

/-- Put the backend back. -/
def setBackend (w : World) (backend : Scripted) : World := { w with backend }

/-! ## The right to start -/

/-- Change the right to start. -/
def setGuard (w : World) (g : StartGuard) : World :=
  { w with manager := { w.manager with guard := g } }

/-- Give a job the right to start, which nobody has. -/
def takeGuard (w : World) (j : JobId) : World :=
  w.setGuard { w.manager.guard with holder := some j }

/-- Have a job wait for the right to start, behind all others. -/
def joinLine (w : World) (j : JobId) : World :=
  w.setGuard { w.manager.guard with line := w.manager.guard.line ++ [j] }

/-- Pass the right to start on to the first in line, or leave it free. -/
def releaseGuard (w : World) : World :=
  match w.manager.guard.line with
  | [] => w.setGuard { holder := none, line := [] }
  | next :: line => (w.setGuard { holder := some next, line }).wake next

/-- Take a job out of the line for the right to start. -/
def leaveLine (w : World) (j : JobId) : World :=
  w.setGuard { w.manager.guard with line := w.manager.guard.line.filter (· != j) }

/-- How long the start of a command takes. -/
def startDelayOf (w : World) (c : Command) : Nat := (w.startDelays.lookup c.args).getD w.startDelay

end World

end FolderTasks.Dispatch
