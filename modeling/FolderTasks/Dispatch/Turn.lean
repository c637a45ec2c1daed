import FolderTasks.Dispatch.Executing
/-!
# Turns

A job that gets its turn goes on until it has to wait or is over.  A job that was given up gets
one more turn, in which it is dropped.

## Main definitions

* `World.turn`: the turn of a job.
* `World.discard`: drop a job where it stands.
-/

namespace FolderTasks.Dispatch.World

/-- A job is over. -/
def endJob (w : World) (j : JobId) : World := w.setPosition j .done

/-- The operation of an entry is over: report it, free the queue, and let the outcome be known.
A reporter that panics takes the outcome with it. -/
def concludeOperation (w : World) (j : JobId) (e : EntryId) (entry : Entry)
    (result : Except Failure Outcome) : World :=
  let label := entry.operation.label
  let queueName := w.queueName entry.queue
  let (w, outcome) := match result with
    | .ok outcome => (w, outcome)
    | .error f => (w.note (.notExecuted e queueName label f), .launchFailed f.message)
  let w := w.note (.finished e queueName label outcome)
  let (w, panicked) := reportAll e (entry.operation.endCalls outcome) w
  (w.resolve e (if panicked then .terminated else outcome)).endJob j

/-- The turn of a job that executes the operation of an entry. -/
def turnOperation (w : World) (j : JobId) (e : EntryId) : World :=
  match w.entryOf? e with
  | none => w.endJob j
  | some entry =>
    let call : Call := ⟨j, entry.operation.command, entry.token⟩
    let (w, panicked) := if w.position j = .fresh then
        reportAll e (entry.operation.startCalls (w.queueName entry.queue)) w
      else (w, false)
    if panicked then (w.resolve e .terminated).endJob j
    else match w.proceed call with
      | (w, .paused) => w
      | (w, .panicked) => (w.resolve e .terminated).endJob j
      | (w, .finished result) => w.concludeOperation j e entry result

/-- The turn of a job that executes a command past all queues. -/
def turnExecution (w : World) (j : JobId) (name : String) (command : Command)
    (token : Option String) : World :=
  match w.proceed ⟨j, command, token⟩ with
  | (w, .paused) => w
  | (w, .panicked) => (w.note (.jobEnded .execution name .panicked)).endJob j
  | (w, .finished (.ok o)) => (w.note (.jobEnded .execution name (.outcome o))).endJob j
  | (w, .finished (.error f)) => (w.note (.jobEnded .execution name (.failure f))).endJob j

/-- Wait for the outcome of an entry, or go on with it. -/
def turnAwait (w : World) (j : JobId) (e : EntryId) (goOn : World → Outcome → World) : World :=
  match w.receive? e with
  | some (w, outcome) => (goOn w outcome).endJob j
  | none => match w.position j with
    | .awaiting _ _ => w
    | _ =>
      let (w, seat) := w.takeSeat e (.job j)
      w.setPosition j (.awaiting e seat)

/-- Request the reset of the package in a folder for a job, which then waits for the outcome.  The
queue is withheld as soon as the reset is requested. -/
def askReset (w : World) (j : JobId) (q : QueueId) (folder : Path) (token : Option String) : World :=
  let op := PackageAction.reset.operation w.toolchain folder
  let (w, e) := (w.withhold q true).request q op token
  let (w, seat) := (w.note (.resetAsked q e)).takeSeat e (.job j)
  w.setPosition j (.awaiting e seat)

/-- Do not withhold a queue any longer, because the reset that an entry serves is over. -/
def reopen (w : World) (q : QueueId) (e : EntryId) : World :=
  (w.withhold q false).note (.resetOver q e)

/-- The reset of a package has its outcome: its queue is no longer withheld. -/
def concludeReset (w : World) (name : String) (folder : Path) (q : QueueId) (e : EntryId)
    (outcome : Outcome) : World :=
  let w := w.note (.packageReset folder outcome)
  (w.reopen q e).note (.jobEnded .reset name (.outcome outcome))

/-- The turn of a job that resets the package in a folder. -/
def turnReset (w : World) (j : JobId) (name : String) (folder : Path) (token : Option String) :
    World :=
  match w.position j with
  | .awaiting e _ => match w.entryOf? e with
    | none => w.endJob j
    | some entry => w.turnAwait j e fun w o => w.concludeReset name folder entry.queue e o
  | .fresh => match w.folderQueue? folder with
    | none =>
      (w.note (.jobEnded .reset name (.failure (.folderNotFound folder)))).endJob j
    | some q => w.askReset j q folder token
  | _ => w

/-- The turn of a job that waits for a handle. -/
def turnWatch (w : World) (j : JobId) (handle : String) (e : EntryId) : World :=
  w.turnAwait j e fun w o => match w.entryOf? e with
    | some entry => w.note (.watched handle o (w.view entry.queue))
    | none => w

/-- The turn of a job that has not been given up. -/
def turnJob (w : World) (j : JobId) (errand : Errand) : World :=
  match errand with
  | .operation e => w.turnOperation j e
  | .execution name command token => w.turnExecution j name command token
  | .reset name folder token => w.turnReset j name folder token
  | .watch handle e => w.turnWatch j handle e
  | .reopen q e => w.turnAwait j e fun w _ => w.reopen q e

/-- A reset that is given up while its outcome is awaited: the queue stays withheld until the
outcome is there, and a job of its own sees to that. -/
def discardReset (w : World) (e : EntryId) (seat : Nat) : World :=
  match w.entryOf? e with
  | none => w
  | some entry =>
    let w := w.leaveSeat e seat
    if (w.peek e).isSome then w.reopen entry.queue e
    else (w.spawn (.reopen entry.queue e)).1

/-- Drop a job where it stands. -/
def discard (w : World) (j : JobId) (job : Job) : World :=
  let w := match job.errand, job.position with
    | .execution _ command token, _ => w.dropExecution ⟨j, command, token⟩
    | .reset _ _ _, .awaiting e seat => w.discardReset e seat
    | _, _ => w
  w.endJob j

/-- Drop a job that was given up during its own turn. -/
def discardIfAbandoned (w : World) (j : JobId) : World :=
  match w.jobs[j]? with
  | some job => if job.isAbandoned && job.position != .done then w.discard j job else w
  | none => w

/-- The turn of a job. -/
def turn (w : World) (j : JobId) : World :=
  match w.jobs[j]? with
  | none => w
  | some job =>
    if job.position = .done then w
    else if job.isAbandoned then w.discard j job
    else
      let w := { w with current := some j }
      let w := (w.turnJob j job.errand).discardIfAbandoned j
      { w with current := none }

end FolderTasks.Dispatch.World
