import FolderTasks.Dispatch.Turn
/-!
# Running the jobs

Jobs take their turns in order.  When no job has a turn coming, the clock moves to the next
timer and wakes the jobs whose time has come, in the order in which their timers were set.

Callbacks can keep jobs coming for ever, so a run is bounded by a number of moves.

## Main definitions

* `World.move?`: one turn, or one move of the clock.
* `World.runUntil`: all moves up to a moment.
* `World.awaitOutcome`: all moves until an entry has its outcome.
* `Step`, `World.step`: what a user does, running included.
-/

namespace FolderTasks.Dispatch

namespace World

/-- Wake the jobs whose timers fire first, and move the clock there. -/
def fire (w : World) (t : Timer) : World :=
  let due := w.timers.takeWhile fun u => u.deadline ≤ t.deadline
  let w := { w with
    clock := max w.clock t.deadline
    timers := w.timers.dropWhile fun u => u.deadline ≤ t.deadline }
  w.wakeAll (due.map Timer.job)

/-- One turn of a job, or, when none has a turn coming, a move of the clock, at most to
`limit`. -/
def move? (w : World) (limit : Nat) : Option World :=
  match w.ready with
  | j :: ready => some (({ w with ready } : World).turn j)
  | [] => match w.timers with
    | t :: _ => if t.deadline ≤ limit then some (w.fire t) else none
    | [] => none

/-- All moves up to a moment, but not more than `fuel`. -/
def runUntil (limit : Nat) : Nat → World → World
  | 0, w => w
  | fuel + 1, w => match w.move? limit with
    | some w => runUntil limit fuel w
    | none => w

theorem runUntil_of_none {limit : Nat} {w : World} (h : w.move? limit = none) (fuel : Nat) :
    runUntil limit fuel w = w := by
  cases fuel with
  | zero => rfl
  | succ fuel => rw [runUntil, h]

theorem runUntil_add {limit : Nat} (fuel more : Nat) (w : World) :
    runUntil limit (fuel + more) w = runUntil limit more (runUntil limit fuel w) := by
  induction fuel generalizing w with
  | zero => rw [Nat.zero_add, runUntil]
  | succ fuel ih =>
    rw [Nat.succ_add, runUntil, runUntil]
    cases h : w.move? limit with
    | none => exact (runUntil_of_none h more).symm
    | some w₁ => exact ih w₁

/-- The number of moves that one step may take. -/
def moves : Nat := 1000000

/-- Let the jobs run without moving the clock. -/
def settle (w : World) : World := runUntil w.clock moves w

/-- Let the jobs run for a while. -/
def advance (w : World) (milliseconds : Nat) : World :=
  let limit := w.clock + milliseconds
  { runUntil limit moves w with clock := limit }

/-- All moves until an entry has its outcome and no job has a turn coming. -/
def runUntilResolved (limit : Nat) (e : EntryId) : Nat → World → World
  | 0, w => w
  | fuel + 1, w =>
    if w.ready.isEmpty && ((w.entryOf? e).bind Entry.outcome).isSome then w
    else match w.move? limit with
      | some w => runUntilResolved limit e fuel w
      | none => w

/-- How long an outcome is waited for, in milliseconds. -/
def patience : Nat := 1000000000

/-- Wait for the outcome of an entry from outside all jobs, then let the jobs run. -/
def awaitOutcome (w : World) (e : EntryId) : World × Reply :=
  match w.receive? e with
  | some (w, o) => (w.settle, .outcome (some o))
  | none =>
    let limit := w.clock + patience
    let (w, seat) := w.takeSeat e .outside
    let w := runUntilResolved limit e moves w
    match w.receive? e with
    | some (w, o) => (w.settle, .outcome (some o))
    | none => (({ w with clock := limit } : World).leaveSeat e seat |>.settle, .never)

/-! ## The workspace -/

/-- Add a folder to the workspace, unless it is there; the answer holds its queue. -/
def addFolder (w : World) (folder : Path) : World × QueueId :=
  match w.folderQueue? folder with
  | some q => (w, q)
  | none =>
    let (w, q) := (w.note (.folderAdded folder)).makeQueue folder.displayName w.recordsFolders
    ({ w with folders := w.folders ++ [(folder, q)] }, q)

/-- Remove a folder from the workspace.  What is queued on it still runs. -/
def removeFolder (w : World) (folder : Path) : World × Option QueueId :=
  match w.folderQueue? folder with
  | none => (w, none)
  | some q =>
    let w := { w with folders := w.folders.filter fun f => !decide (f.1.Same folder) }
    (w.note (.folderRemoved folder), some q)

/-- The folders of the workspace, in the order of paths. -/
def sortedFolders (w : World) : List Path := (w.folders.map (·.1)).mergeSort Path.le

/-- The tasks offered for a folder with these products; placeholders while it is withheld. -/
def provideTasks (w : World) (folder : Path) (products : List String) :
    Except Failure (List TaskDefinition) :=
  match w.folderQueue? folder with
  | none => .error (.folderNotFound folder)
  | some q =>
    let disabled := (w.view q).isWithheld
    .ok ((offeredActions products).map fun a => a.definition folder disabled)

/-- Dispose of the workspace. -/
def dispose (w : World) : World := { w.disposeManager with folders := [] }

end World

/-- What a user does. -/
inductive Step where
  /-- An action that lets no job run. -/
  | act (action : Action)
  /-- Let the jobs run without moving the clock. -/
  | settle
  /-- Let the jobs run for a while. -/
  | advance (milliseconds : Nat)
  /-- Wait for the outcome of a handle. -/
  | await (handle : String)
  /-- Add a folder. -/
  | addFolder (folder : Path)
  /-- Remove a folder. -/
  | removeFolder (folder : Path)
  /-- List the folders. -/
  | folders
  /-- Find the queue of a folder. -/
  | find (folder : Path)
  /-- Show the settings. -/
  | toolchain
  /-- Queue an action on a folder. -/
  | run (folder : Path) (action : PackageAction) (token : Option String) (handle : String)
  /-- List the tasks offered for a folder. -/
  | tasks (folder : Path) (products : List String)
  /-- Dispose of the workspace. -/
  | dispose

namespace World

/-- Do a step. -/
def step (w : World) : Step → World × Reply
  | .act a => w.perform a
  | .settle => (w.settle, .done)
  | .advance ms => (w.advance ms, .done)
  | .await handle => w.withHandle handle fun e => w.awaitOutcome e
  | .addFolder folder =>
    let (w, q) := w.addFolder folder
    (w.nameQueue folder.text q, .named (w.queueName q))
  | .removeFolder folder =>
    let (w, q) := w.removeFolder folder
    (w, .maybeNamed (q.map w.queueName))
  | .folders => (w, .folders w.sortedFolders)
  | .find folder => match w.folderQueue? folder with
    | some q => (w, .found (w.queueName q) (w.view q))
    | none => (w, .failed (.folderNotFound folder))
  | .toolchain => (w, .toolchain w.toolchain)
  | .run folder action token handle => match w.folderQueue? folder with
    | some q => w.requestNamed q (action.operation w.toolchain folder) token handle
    | none => (w, .failed (.folderNotFound folder))
  | .tasks folder products => match w.provideTasks folder products with
    | .ok tasks => (w, .tasks tasks)
    | .error f => (w, .failed f)
  | .dispose =>
    let w := w.dispose
    (w, .disposed w.manager.isDisposed w.manager.observerCount)

end World

end FolderTasks.Dispatch
