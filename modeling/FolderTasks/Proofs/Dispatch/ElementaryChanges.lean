import FolderTasks.Proofs.Dispatch.ReachableWorlds
/-!
# Elementary changes

A transition of a world is made of elementary changes, and between two of them a callback may do
whatever an action can do.  This module lists the changes once and for all, each with what is known
of the world when it happens; an invariant is proved change by change, and never again by looking
into a turn.

## Main definitions

* `World.At`, `World.CallAt`: a job, and a job that executes a command, at a position.
* `World.Deed`: the changes that actions make.
* `World.Drift`, `World.Telling`, `World.Stride`, `World.Closing`: the changes around and within
  the turns.
* `World.Change`, `World.Changes`: all of them, one and any number.

## Design notes

A change is as large as the piece of work that no callback can interrupt: a job frees the active
slot and ends in one change, and in one change it starts a command, passes the right to start on
and is at its next position.  Where callbacks can interrupt a turn, the position of the job says
how far it has come, and that is all that the next change needs to know.
-/

namespace FolderTasks.Dispatch

/-- Is an errand one that the user gives a name, and may give up? -/
def Errand.isNamed : Errand → Bool
  | .execution _ _ _ | .reset _ _ _ => true
  | .operation _ | .watch _ _ | .reopen _ _ => false

namespace World

/-- A job with its errand is at a position. -/
def At (w : World) (j : JobId) (errand : Errand) (p : Position) : Prop :=
  ∃ given, w.jobs[j]? = some ⟨errand, p, given⟩

/-- What a job with an errand executes, if it executes anything. -/
def callOf? (w : World) (j : JobId) : Errand → Option Call
  | .operation e => (w.entryOf? e).map fun entry => ⟨j, entry.operation.command, entry.token⟩
  | .execution _ command token => some ⟨j, command, token⟩
  | .reset _ _ _ | .watch _ _ | .reopen _ _ => none

/-- A job serves a call, which is its errand, and is at a position. -/
def ServesAt (w : World) (call : Call) (errand : Errand) (p : Position) : Prop :=
  w.At call.job errand p ∧ w.callOf? call.job errand = some call

/-- The job of an entry serves the command of its operation. -/
theorem At.servesAt {w : World} {j : JobId} {e : EntryId} {p : Position} {entry : Entry}
    (hat : w.At j (.operation e) p) (he : w.entryOf? e = some entry) :
    w.ServesAt ⟨j, entry.operation.command, entry.token⟩ (.operation e) p :=
  ⟨hat, by rw [callOf?, he, Option.map_some]⟩

/-- The job of a call is at a position. -/
def CallAt (w : World) (call : Call) (p : Position) : Prop := ∃ errand, w.ServesAt call errand p

/-! ## What actions do -/

/-- **The changes that actions make**, whether the user does them between turns or a callback in
the middle of one. -/
inductive Deed : World → World → Prop where
  /-- Scripts and start delays are set. -/
  | scripted {w : World} (scripts : List (List String × Script))
      (delays : List (List String × Nat)) :
      Deed w { w with backend := { w.backend with scripts }, startDelays := delays }
  /-- Something gets a name, or a name is forgotten; no job gets a name this way. -/
  | named {w : World} (names : Directory) (h : ∀ p ∈ names.jobs, p ∈ w.names.jobs) :
      Deed w { w with names }
  /-- A queue is made. -/
  | queueMade {w : World} (name : String) (isRecorded : Bool) :
      Deed w (w.makeQueue name isRecorded).1
  /-- An operation is requested. -/
  | requested {w : World} (q : QueueId) (op : Operation) (token : Option String) :
      Deed w (w.request q op token).1
  /-- A token is cancelled. -/
  | cancelled {w : World} (name : String) : Deed w (w.cancel name)
  /-- The user withholds a queue, or no longer. -/
  | withheld {w : World} (q : QueueId) (value : Bool) :
      Deed w ((w.withhold q value).note (.withholdingSet q value))
  /-- A job is to wait for a handle. -/
  | watched {w : World} (handle : String) (e : EntryId) : Deed w (w.spawn (.watch handle e)).1
  /-- A job with a name begins. -/
  | begun {w : World} (name : String) (errand : Errand) (h : errand.isNamed) :
      Deed w ((w.spawn errand).1.nameJob name (w.spawn errand).2)
  /-- Observers are subscribed or released. -/
  | observed {w : World} (starts ends : Registry Observer) :
      Deed w { w with manager :=
        { w.manager with startObservers := starts, endObservers := ends } }
  /-- The task manager is disposed of. -/
  | disposed {w : World} : Deed w w.disposeManager
  /-- A job with a name is given up. -/
  | abandoned {w : World} (name : String) (j : JobId) (h : (name, j) ∈ w.names.jobs) :
      Deed w (w.abandonJob j).1
  /-- The reply to a callback's action is written down. -/
  | answered {w : World} (site : CallbackSite) (reply : Reply) :
      Deed w (w.note (.hookAnswered site reply))

/-- Any number of changes that actions make. -/
abbrev Deeds : World → World → Prop := Relation.ReflTransGen Deed

/-! ## What goes on around the turns -/

/-- **What goes on around the turns**: turns are taken, time passes, folders come and go, and the
user waits for outcomes outside all jobs. -/
inductive Drift : World → World → Prop where
  /-- A job takes its turn. -/
  | turnTaken {w : World} (j : JobId) (h : j ∈ w.ready) :
      Drift w { w with ready := w.ready.erase j }
  /-- It is a job's turn, or nobody's. -/
  | turnSet {w : World} (current : Option JobId) : Drift w { w with current }
  | fired {w : World} (t : Timer) (h : t ∈ w.timers) : Drift w (w.fire t)
  | passed {w : World} (moment : Nat) (h : w.clock ≤ moment) :
      Drift w { w with clock := moment }
  | folderListed {w : World} (folder : Path) (q : QueueId) (h : q < w.queues.length) :
      Drift w { w with folders := w.folders ++ [(folder, q)] }
  | foldersUnlisted {w : World} (folders : List (Path × QueueId))
      (h : ∀ f ∈ folders, f ∈ w.folders) : Drift w { w with folders }
  | folderTold {w : World} (h : Happening)
      (hh : (∃ f, h = .folderAdded f) ∨ ∃ f, h = .folderRemoved f) : Drift w (w.note h)
  | sat {w : World} (e : EntryId) : Drift w (w.takeSeat e .outside).1
  | seatLeft {w : World} (e : EntryId) (entry : Entry) (seat : Nat) (he : w.entryOf? e = some entry)
      (h : entry.room.seats[seat]? = some (some .outside)) : Drift w (w.leaveSeat e seat)
  | received {w w' : World} (e : EntryId) (o : Outcome) (h : w.receive? e = some (w', o)) :
      Drift w w'

/-! ## What is told -/

/-- **What is told in the turn of a job**: to the reporter, to observers, and to the log. -/
inductive Telling : World → World → Prop where
  | reported {w : World} {j : JobId} {p : Position} (e : EntryId) (call : StatusCall)
      (isRecorded : Bool) (calls : List StatusKind) (h : w.At j (.operation e) p)
      (hp : p = .fresh ∨ p = .telling) :
      Telling w ((w.note (.reported e call isRecorded)).keepCalls calls)
  | reporterPanicked {w : World} {j : JobId} {p : Position} (e : EntryId) (call : StatusCall)
      (h : w.At j (.operation e) p) (hp : p = .fresh ∨ p = .telling) :
      Telling w (w.note (.reporterPanicked e call))
  | startNoticed {w : World} {call : Call} {id : TaskId} {execution : Execution}
      (name : String) (calls : List (NoticeKind × Nat))
      (h : w.CallAt call (.running id execution)) :
      Telling w ((w.note (.startNoticed name id call.command)).keepNotices calls)
  | startPanicked {w : World} {call : Call} {id : TaskId} {execution : Execution}
      (h : w.CallAt call (.running id execution)) :
      Telling w (w.note (.observerPanicked .start id))
  | endNoticed {w : World} {call : Call} (name : String) (id : TaskId) (code : Option Int32)
      (calls : List (NoticeKind × Nat)) (h : w.CallAt call .telling) :
      Telling w ((w.note (.endNoticed name id call.command code)).keepNotices calls)
  | endPanicked {w : World} {call : Call} (id : TaskId) (h : w.CallAt call .telling) :
      Telling w (w.note (.observerPanicked .finish id))
  | failureTold {w : World} {j : JobId} {e : EntryId} (queueName label : String) (f : Failure)
      (h : w.At j (.operation e) .telling) : Telling w (w.note (.notExecuted e queueName label f))
  | finishTold {w : World} {j : JobId} {e : EntryId} (queueName label : String) (o : Outcome)
      (h : w.At j (.operation e) .telling) : Telling w (w.note (.finished e queueName label o))

/-! ## Executing a command -/

/-- **The stages of executing a command**, for the job of an operation and for a job that executes
a command past all queues alike. -/
inductive Stride : World → World → Prop where
  /-- A disposed manager takes no command. -/
  | rejected {w : World} {call : Call} (h : w.CallAt call .fresh) (hd : w.manager.isDisposed) :
      Stride w (w.setPosition call.job .telling)
  /-- The right to start is free, and a job takes it. -/
  | guardTaken {w : World} {call : Call} (h : w.CallAt call .fresh)
      (hd : w.manager.isDisposed = false) (hg : w.manager.guard.holder = none) :
      Stride w (((w.takeNumber call.job).takeGuard call.job).setPosition call.job
        (.inLine w.nextId))
  /-- The right to start is taken, and a job waits for it. -/
  | lineJoined {w : World} {call : Call} {holder : JobId} (h : w.CallAt call .fresh)
      (hd : w.manager.isDisposed = false) (hg : w.manager.guard.holder = some holder)
      (hc : w.isCancelled call.token = false) :
      Stride w (((((w.takeNumber call.job).note (.waitsToStart w.nextId)).joinLine
        call.job).setPosition call.job (.inLine w.nextId)).listen call.token call.job)
  /-- The right to start is taken, and a cancelled job does not wait for it. -/
  | turnedAway {w : World} {call : Call} {holder : JobId} (h : w.CallAt call .fresh)
      (hd : w.manager.isDisposed = false) (hg : w.manager.guard.holder = some holder)
      (hc : w.isCancelled call.token) :
      Stride w ((((w.takeNumber call.job).note (.waitsToStart w.nextId)).note
        (.cancelledBeforeStart w.nextId)).setPosition call.job .telling)
  | unlistened {w : World} (j : JobId) (token : Option String) : Stride w (w.unlisten token j)
  | timerCleared {w : World} (j : JobId) : Stride w (w.clearTimer j)
  /-- A cancelled job leaves the line. -/
  | lineLeft {w : World} {call : Call} {id : TaskId} (h : w.CallAt call (.inLine id))
      (hg : w.manager.guard.holder ≠ some call.job) (hc : w.isCancelled call.token) :
      Stride w (((w.leaveLine call.job).note (.cancelledBeforeStart id)).setPosition
        call.job .telling)
  /-- A cancelled job gives the right to start back. -/
  | guardReturned {w : World} {call : Call} {id : TaskId} (h : w.CallAt call (.inLine id))
      (hg : w.manager.guard.holder = some call.job) (hc : w.isCancelled call.token) :
      Stride w ((w.releaseGuard.note (.cancelledBeforeStart id)).setPosition call.job .telling)
  /-- The backend is asked to start a command. -/
  | startAsked {w : World} {call : Call} {id : TaskId} (h : w.CallAt call (.inLine id))
      (hg : w.manager.guard.holder = some call.job) (hc : w.isCancelled call.token = false) :
      Stride w ((w.note (.startAsked id call.command)).setPosition call.job (.starting id))
  | startDelayed {w : World} {call : Call} {id : TaskId} (h : w.CallAt call (.starting id))
      (delay : Nat) : Stride w (w.setTimer (w.clock + delay) call.job)
  /-- The backend refuses to start a command. -/
  | refused {w : World} {call : Call} {id : TaskId} {f : Failure}
      (h : w.CallAt call (.starting id))
      (hb : w.backend.start w.clock id call.command = .error f) :
      Stride w (((w.note (.startFailed id call.command f)).setPosition call.job
        .telling).releaseGuard)
  /-- The backend starts a command. -/
  | started {w : World} {call : Call} {id : TaskId} {b : Scripted} {execution : Execution}
      (h : w.CallAt call (.starting id))
      (hb : w.backend.start w.clock id call.command = .ok (b, execution)) :
      Stride w (((((w.setBackend b).note (.started id call.command)).setPosition call.job
        (.running id execution)).releaseGuard).note (.startAnnounced id call.command))
  /-- An execution is dropped because an observer panicked when it was told of the start. -/
  | forsaken {w : World} {call : Call} {id : TaskId} {execution : Execution}
      (h : w.CallAt call (.running id execution))
      (hp : ∃ t, (t, .observerPanicked .start id) ∈ w.history) :
      Stride w (w.setPosition call.job .telling)
  /-- A job waits for its execution to end. -/
  | endAwaited {w : World} {call : Call} {id : TaskId} {execution : Execution}
      (h : w.CallAt call (.running id execution)) :
      Stride w ((w.setTimer execution.deadline call.job).listen call.token call.job)
  /-- An execution comes to its end. -/
  | completed {w : World} {call : Call} {id : TaskId} {execution : Execution}
      (h : w.CallAt call (.running id execution)) (hd : w.seesEnd call id execution) :
      Stride w ((((w.setBackend (w.backend.finish w.clock id false)).note
        (.ended id call.command execution.exitCode)).setPosition call.job .telling).note
        (.endAnnounced id call.command execution.exitCode))
  /-- An execution is terminated because it was cancelled. -/
  | terminated {w : World} {call : Call} {id : TaskId} {execution : Execution}
      (h : w.CallAt call (.running id execution)) (hd : ¬ w.seesEnd call id execution)
      (hc : w.isCancelled call.token) :
      Stride w (((((w.note (.terminating id)).setBackend (w.backend.finish w.clock id true)).note
        (.ended id call.command none)).setPosition call.job .telling).note
        (.endAnnounced id call.command none))

/-! ## Requesting resets, waiting, and ending -/

/-- **How jobs wait for outcomes and how they end.** -/
inductive Closing : World → World → Prop where
  /-- An entry leaves the active slot, the next one is dispatched, and the outcome is known. -/
  | closed {w : World} {j : JobId} {e : EntryId} {p : Position} (o : Outcome)
      (h : w.At j (.operation e) p) (hp : p ≠ .done)
      (ho : p = .telling ∨ p = .fresh ∧ o = .terminated ∨ w.entryOf? e = none) :
      Closing w ((w.resolve e o).endJob j)
  | executionEnded {w : World} {j : JobId} {name : String} {command : Command}
      {token : Option String} (result : JobResult)
      (h : w.At j (.execution name command token) .telling) :
      Closing w ((w.note (.jobEnded .execution name result)).endJob j)
  /-- A reset is requested, and its queue withheld. -/
  | resetAsked {w : World} {j : JobId} {name : String} {folder : Path} {token : Option String}
      (q : QueueId) (h : w.At j (.reset name folder token) .fresh)
      (hq : w.folderQueue? folder = some q) : Closing w (w.askReset j q folder token)
  | resetRefused {w : World} {j : JobId} {name : String} {folder : Path} {token : Option String}
      (h : w.At j (.reset name folder token) .fresh) (hq : w.folderQueue? folder = none) :
      Closing w ((w.note (.jobEnded .reset name (.failure (.folderNotFound folder)))).endJob j)
  /-- A job begins to wait for the outcome of an entry. -/
  | seatTaken {w : World} {j : JobId} {errand : Errand} {p : Position} (e : EntryId)
      (h : w.At j errand p) (hp : p ≠ .done)
      (he : (∃ handle, errand = .watch handle e) ∨ ∃ q, errand = .reopen q e)
      (hr : w.receive? e = none) :
      Closing w ((w.takeSeat e (.job j)).1.setPosition j (.awaiting e (w.takeSeat e (.job j)).2))
  /-- A reset is over, and its queue is no longer withheld. -/
  | resetConcluded {w w' : World} {j : JobId} {name : String} {folder : Path}
      {token : Option String} {e : EntryId} {seat : Nat} {entry : Entry} (o : Outcome)
      (h : w.At j (.reset name folder token) (.awaiting e seat)) (he : w.entryOf? e = some entry)
      (hr : w.receive? e = some (w', o)) :
      Closing w ((w'.concludeReset name folder entry.queue e o).endJob j)
  | resetForgotten {w : World} {j : JobId} {name : String} {folder : Path}
      {token : Option String} {e : EntryId} {seat : Nat}
      (h : w.At j (.reset name folder token) (.awaiting e seat)) (he : w.entryOf? e = none) :
      Closing w (w.endJob j)
  | watchEnded {w w' : World} {j : JobId} {handle : String} {e : EntryId} {p : Position}
      (o : Outcome) (h : w.At j (.watch handle e) p) (hp : p ≠ .done)
      (hr : w.receive? e = some (w', o)) :
      Closing w ((match w'.entryOf? e with
        | some entry => w'.note (.watched handle o (w'.view entry.queue))
        | none => w').endJob j)
  | reopened {w w' : World} {j : JobId} {q : QueueId} {e : EntryId} {p : Position} (o : Outcome)
      (h : w.At j (.reopen q e) p) (hp : p ≠ .done) (hr : w.receive? e = some (w', o)) :
      Closing w ((w'.reopen q e).endJob j)
  /-- A job that was given up is dropped where it stands. -/
  | discarded {w : World} {j : JobId} {job : Job} (h : w.jobs[j]? = some job)
      (ha : job.isAbandoned) (hp : job.position ≠ .done) : Closing w (w.discard j job)


/-! ## All changes -/

/-- **The elementary changes.** -/
inductive Change : World → World → Prop where
  | deed {w w' : World} (h : Deed w w') : Change w w'
  | drift {w w' : World} (h : Drift w w') : Change w w'
  | telling {w w' : World} (h : Telling w w') : Change w w'
  | stride {w w' : World} (h : Stride w w') : Change w w'
  | closing {w w' : World} (h : Closing w w') : Change w w'

/-- Any number of elementary changes. -/
abbrev Changes : World → World → Prop := Relation.ReflTransGen Change

end World

end FolderTasks.Dispatch
