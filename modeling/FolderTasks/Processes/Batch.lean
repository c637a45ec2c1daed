import FolderTasks.Notice
import FolderTasks.Processes.Launch
/-!
# A batch of commands

Several commands are handed in at one moment to one queue of a machine, which executes them one
after the other.  Then somebody waits for their outcomes in order, and may cancel a command after
having waited for it for a while.

The first command is executed at once.  The others wait behind it, and one that asks for the same
as a waiting one is not executed itself but shares its outcome.

What a command leaves running goes on beside the commands after it.

## Main definitions

* `Processes.Request`: a command that is handed in.
* `Processes.Served`: an execution and those who share it.
* `Processes.Batch`: the machine between two executions.
* `Processes.Batch.ofRequests`: a whole batch.
-/

namespace FolderTasks.Processes

open Machine

/-- A command that is handed in. -/
structure Request where
  command : Command
  /-- Was it cancelled before it was handed in? -/
  isWithdrawn : Bool := false
  /-- How long it is waited for, in milliseconds, before it is cancelled. -/
  patience : Option Nat := none

/-- An execution. -/
structure Served where
  id : TaskId
  command : Command
  outcome : Outcome
  /-- Those who read its output, if it was launched and somebody does. -/
  readers : Option Readers := none

/-- The machine between two executions. -/
structure Batch where
  host : Host
  /-- Does somebody read along what the commands write? -/
  isRead : Bool
  /-- The moment up to which outcomes have been waited for, in microseconds. -/
  clock : Nat := 0
  served : List Served := []
  /-- For every request the number of the execution that serves it. -/
  assigned : List Nat := []

namespace Batch

/-- The number of the next task. -/
def nextId (b : Batch) : TaskId := ⟨b.served.length + 1⟩

/-- The execution that waited when a request was handed in and asks for the same. -/
def absorber? (b : Batch) (c : Command) : Option Nat :=
  (b.served.drop 1).findIdx? (fun s => s.command.sameRequest c) |>.map (· + 1)

/-- The moment at which a request is cancelled, if it is not at its end by then. -/
def deadline? (b : Batch) (r : Request) : Option Nat :=
  r.patience.map fun ms => b.clock + 1000 * ms

/-- Let a process go on to its end or to a moment at which it is killed; the outcome says which
came first. -/
def await (h : Host) (number : Nat) (deadline : Option Nat) : Host × Outcome :=
  let h := h.runUntil (fun h => (h.ending? number).isSome) deadline
  match h.ending? number with
  | some e => (h, .ofCode e.code?)
  | none => (h.deliver number 9, if deadline.isSome then .cancelled else .terminated)

/-- Execute a command. -/
def execute (b : Batch) (r : Request) : Host × Served :=
  let s : Served := { id := b.nextId, command := r.command, outcome := .cancelled }
  if r.isWithdrawn then (b.host, s)
  else match launch b.host b.isRead r.command with
    | .error f => (b.host, { s with outcome := .launchFailed f.message })
    | .ok l =>
      let (host, outcome) := await l.host l.number (b.deadline? r)
      (host, { s with outcome, readers := l.readers })

/-- Serve a request and wait for its outcome. -/
def serve (b : Batch) (r : Request) : Batch :=
  let clock := (b.deadline? r).getD b.clock
  match b.absorber? r.command with
  | some n => { b with clock, assigned := b.assigned ++ [n] }
  | none =>
    let (host, s) := b.execute r
    { b with
      host
      clock := max clock host.clock
      served := b.served ++ [s]
      assigned := b.assigned ++ [b.served.length] }

/-- A whole batch; at its end nothing is left running. -/
def ofRequests (h : Host) (isRead : Bool) (rs : List Request) : Batch :=
  let b := rs.foldl serve { host := h, isRead }
  { b with host := b.host.runUntil (fun _ => false) none }

/-- The earlier requests that were served by the same execution as a request. -/
def sharers (b : Batch) (request : Nat) : List Nat :=
  (List.range request).filter fun n => b.assigned[n]? == b.assigned[request]?

/-- The outcomes of the requests in order, each with the earlier requests that share it. -/
def outcomes (b : Batch) : List (Outcome × List Nat) :=
  b.assigned.zipIdx.filterMap fun (n, request) =>
    b.served[n]?.map fun s => (s.outcome, b.sharers request)

/-- Has every request been served, so that nothing waits any more? -/
def isIdle (b : Batch) (rs : List Request) : Bool := b.assigned.length == rs.length

/-- The lines that a reader has read. -/
def linesOf (b : Batch) (reader : Nat) : List String :=
  (b.host.store.listeners[reader]?).elim [] Listener.lines

/-- The lines that were read from the executions, by task and output, where there are any. -/
def linesRead (b : Batch) : List (TaskId × String × List String) :=
  (b.served.flatMap fun s => match s.readers with
    | some r => [(s.id, "stdout", b.linesOf r.output), (s.id, "stderr", b.linesOf r.errors)]
    | none => []).filter fun l => !l.2.2.isEmpty

end Batch

end FolderTasks.Processes
