import FolderTasks.Dispatch.Callback
/-!
# Executing a command

A job that executes a command asks for a task number, gets the right to start, has the backend
start the command, and waits for the execution to end.  It can be cancelled at any of these
points: before the start nothing is launched, afterwards the execution is terminated.

The way of one execution is cut at the places where the job has to wait, and each piece is a
function that either comes to the next such place or to the end.

## Main definitions

* `Progress`: what came of a piece.
* `World.enter`, `World.proceedInLine`, `World.launch`, `World.proceedRunning`: the pieces.
-/

namespace FolderTasks.Dispatch

/-- What came of a piece of an execution. -/
inductive Progress where
  /-- The job has to wait. -/
  | paused
  /-- The execution is over. -/
  | finished (result : Except Failure Outcome)
  /-- An observer panicked. -/
  | panicked

/-- A command to be executed by a job. -/
structure Call where
  job : JobId
  command : Command
  token : Option String

namespace World

/-- Bring an execution to its end: tell the backend and the observers. -/
def conclude (w : World) (call : Call) (id : TaskId) (code : Option Int32) (outcome : Outcome) :
    World × Progress :=
  let w := (w.note (.ended id call.command code)).setPosition call.job .telling
  let (w, panicked) := w.announceEnd id call.command code
  (w, if panicked then .panicked else .finished (.ok outcome))

/-- The execution has come to its end by itself. -/
def complete (w : World) (call : Call) (id : TaskId) (e : Execution) : World × Progress :=
  let w := w.setBackend (w.backend.finish w.clock id false)
  w.conclude call id e.exitCode (.ofCode e.exitCode)

/-- The execution is terminated because it was cancelled. -/
def terminate (w : World) (call : Call) (id : TaskId) : World × Progress :=
  let w := w.note (.terminating id)
  let w := w.setBackend (w.backend.finish w.clock id true)
  w.conclude call id none .cancelled

/-- Does a job notice that the execution it waits for is over?  It waits for its token as well, and
of two things that are there at once it may notice either. -/
def seesEnd (w : World) (call : Call) (id : TaskId) (e : Execution) : Bool :=
  decide (e.deadline ≤ w.clock) && !(w.isCancelled call.token && w.prefersCancellation id)

theorem seesEnd_iff {w : World} {call : Call} {id : TaskId} {e : Execution} :
    w.seesEnd call id e ↔ e.deadline ≤ w.clock ∧
      (w.isCancelled call.token → w.prefersCancellation id = false) := by
  cases hc : w.isCancelled call.token <;> simp [seesEnd, hc]

/-- An end that is not noticed has not come, or the cancellation is noticed in its place. -/
theorem lt_deadline_of_not_seesEnd {w : World} {call : Call} {id : TaskId} {e : Execution}
    (h : ¬ w.seesEnd call id e) :
    w.clock < e.deadline ∨ w.isCancelled call.token ∧ w.prefersCancellation id := by
  rw [seesEnd_iff, not_and, Classical.not_imp, Bool.not_eq_false] at h
  rcases Nat.lt_or_ge w.clock e.deadline with hlt | hge
  · exact .inl hlt
  · exact .inr (h hge)

/-- Whoever goes on waiting, though nobody cancelled, waits for an end that is still to come. -/
theorem lt_deadline_of_calm {w : World} {call : Call} {id : TaskId} {e : Execution}
    (h : ¬ w.seesEnd call id e) (hcalm : ¬ w.isCancelled call.token) : w.clock < e.deadline :=
  (lt_deadline_of_not_seesEnd h).resolve_right fun hc => hcalm hc.1

/-- Wait for a started execution.  An execution that is already at its end is not waited for. -/
def follow (w : World) (call : Call) (id : TaskId) (e : Execution) : World × Progress :=
  if w.seesEnd call id e then w.complete call id e
  else if w.isCancelled call.token then w.terminate call id
  else ((w.setTimer e.deadline call.job).listen call.token call.job, .paused)

/-- Have the backend start the command, and pass on the right to start. -/
def launch (w : World) (call : Call) (id : TaskId) : World × Progress :=
  match w.backend.start w.clock id call.command with
  | .error f =>
    let w := (w.note (.startFailed id call.command f)).setPosition call.job .telling
    (w.releaseGuard, .finished (.error f))
  | .ok (backend, e) =>
    let w := ((w.setBackend backend).note (.started id call.command)).setPosition call.job (.running id e)
    let (w, panicked) := w.releaseGuard.announceStart id call.command
    if panicked then (w.setPosition call.job .telling, .panicked) else w.follow call id e

/-- Nothing is started because the token was cancelled. -/
def cancelBeforeStart (w : World) (call : Call) (id : TaskId) : World × Progress :=
  ((w.note (.cancelledBeforeStart id)).setPosition call.job .telling, .finished (.ok .cancelled))

/-- The job has the right to start. -/
def begin (w : World) (call : Call) (id : TaskId) : World × Progress :=
  if w.isCancelled call.token then w.releaseGuard.cancelBeforeStart call id
  else
    let w := (w.note (.startAsked id call.command)).setPosition call.job (.starting id)
    let delay := w.startDelayOf call.command
    if delay = 0 then w.launch call id
    else (w.setTimer (w.clock + delay) call.job, .paused)

/-- The number of the next task. -/
def nextId (w : World) : TaskId := ⟨w.manager.lastId + 1⟩

/-- Give a job the next task number. -/
def takeNumber (w : World) (j : JobId) : World :=
  { w with manager := { w.manager with lastId := w.nextId.number } }.note (.numbered w.nextId j)

/-- Ask for a task number and for the right to start. -/
def enter (w : World) (call : Call) : World × Progress :=
  if w.manager.isDisposed then (w.setPosition call.job .telling, .finished (.error .disposed))
  else
    let id := w.nextId
    let w := w.takeNumber call.job
    match w.manager.guard.holder with
    | none => ((w.takeGuard call.job).setPosition call.job (.inLine id)).begin call id
    | some _ =>
      let w := w.note (.waitsToStart id)
      if w.isCancelled call.token then w.cancelBeforeStart call id
      else
        (((w.joinLine call.job).setPosition call.job (.inLine id)).listen call.token call.job,
          .paused)

/-- Go on in the line for the right to start. -/
def proceedInLine (w : World) (call : Call) (id : TaskId) : World × Progress :=
  if w.manager.guard.holder = some call.job then (w.unlisten call.token call.job).begin call id
  else if w.isCancelled call.token then
    ((w.unlisten call.token call.job).leaveLine call.job).cancelBeforeStart call id
  else (w, .paused)

/-- Go on while the start takes its time. -/
def proceedStarting (w : World) (call : Call) (id : TaskId) : World × Progress :=
  if w.timers.any fun t => t.job == call.job then (w, .paused) else w.launch call id

/-- Go on while the execution runs. -/
def proceedRunning (w : World) (call : Call) (id : TaskId) (e : Execution) : World × Progress :=
  if w.seesEnd call id e then (w.unlisten call.token call.job).complete call id e
  else if w.isCancelled call.token then
    ((w.unlisten call.token call.job).clearTimer call.job).terminate call id
  else (w, .paused)

/-- Go on with an execution, wherever it stands. -/
def proceed (w : World) (call : Call) : World × Progress :=
  match w.position call.job with
  | .fresh => w.enter call
  | .inLine id => w.proceedInLine call id
  | .starting id => w.proceedStarting call id
  | .running id e => w.proceedRunning call id e
  | .telling | .awaiting _ _ | .done => (w, .paused)

/-- Drop an execution where it stands.  A right to start that was held is passed on; a started
execution is left to itself. -/
def dropExecution (w : World) (call : Call) : World :=
  let w := (w.unlisten call.token call.job).clearTimer call.job
  match w.position call.job with
  | .inLine _ =>
    if w.manager.guard.holder = some call.job then w.releaseGuard else w.leaveLine call.job
  | .starting _ => w.releaseGuard
  | _ => w

end World

end FolderTasks.Dispatch
