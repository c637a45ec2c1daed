import FolderTasks.Dispatch.Queueing
/-!
# Performing actions

Every action is done at once and lets no job run; what it sets going is a job whose turn comes
later.

## Main definitions

* `World.perform`: do an action.
-/

namespace FolderTasks.Dispatch.World

/-- The earlier handles of an entry, in the order in which they were made. -/
def sharers (w : World) (e : EntryId) : List String :=
  (w.names.handles.filter fun h => h.2 == e).map (·.1)

/-- Request an operation and keep the handle under a name. -/
def requestNamed (w : World) (q : QueueId) (op : Operation) (token : Option String)
    (name : String) : World × Reply :=
  let (w, e) := w.request q op token
  let label := match w.entryOf? e with
    | some entry => entry.operation.label
    | none => op.label
  let shares := w.sharers e
  ({ w with names := { w.names with handles := w.names.handles ++ [(name, e)] } },
    .queued label shares)

/-- Keep a queue under a key. -/
def nameQueue (w : World) (key : String) (q : QueueId) : World :=
  { w with names := { w.names with
      queues := (key, q) :: w.names.queues.filter fun e => e.1 != key } }

/-- Make a queue; the answer holds its number. -/
def makeQueue (w : World) (name : String) (isRecorded : Bool) : World × QueueId :=
  ({ w with queues := w.queues ++ [{ name, isRecorded }] }, w.queues.length)

/-- Keep a job under a name. -/
def nameJob (w : World) (name : String) (j : JobId) : World :=
  { w with names := { w.names with jobs := (name, j) :: w.names.jobs.filter fun e => e.1 != name } }

/-- Release an observer. -/
def releaseObserver (w : World) (kind : NoticeKind) (number : Nat) : World :=
  let m := w.manager
  { w with manager := match kind with
    | .start => { m with startObservers := m.startObservers.release number }
    | .finish => { m with endObservers := m.endObservers.release number } }

/-- Subscribe an observer; the answer holds its number. -/
def subscribe (w : World) (kind : NoticeKind) (o : Observer) : World × Nat :=
  let m := w.manager
  match kind with
  | .start =>
    let (r, number) := m.startObservers.subscribe o
    ({ w with manager := { m with startObservers := r } }, number)
  | .finish =>
    let (r, number) := m.endObservers.subscribe o
    ({ w with manager := { m with endObservers := r } }, number)

/-- Forget the name of an observer. -/
def forgetObserver (w : World) (name : String) : World :=
  { w with names := { w.names with
      observers := w.names.observers.filter fun e => e.1 != name } }

/-- Subscribe an observer under a name.  The one that the name kept before is released
afterwards. -/
def observe (w : World) (name : String) (kind : NoticeKind) (hooks : List Hook) : World :=
  let kept := w.names.observers.lookup name
  let (w, number) := w.subscribe kind ⟨name, hooks⟩
  let w := w.forgetObserver name
  let w := { w with names := { w.names with
      observers := (name, kind, number) :: w.names.observers } }
  match kept with
  | none => w
  | some (kind, number) => w.releaseObserver kind number

/-- Dispose of the task manager: no more executions, no more observers. -/
def disposeManager (w : World) : World :=
  let w := if w.manager.isDisposed then w else w.note .managerDisposed
  { w with manager := { w.manager with
      isDisposed := true
      startObservers := w.manager.startObservers.clear
      endObservers := w.manager.endObservers.clear } }

/-- Give up a job.  It gets a turn to clean up, unless its turn is now. -/
def abandonJob (w : World) (j : JobId) : World × Reply :=
  if w.position j = .done then (w, .alreadyFinished)
  else
    let w := w.modifyJob j fun job => { job with isAbandoned := true }
    (if w.current = some j then w else w.wake j, .aborted)

/-- Do something with the queue under a key. -/
def withQueue (w : World) (key : String) (f : QueueId → World × Reply) : World × Reply :=
  match w.queueNamed? key with
  | some q => f q
  | none => (w, .noQueue key)

/-- Do something with the entry of a handle. -/
def withHandle (w : World) (name : String) (f : EntryId → World × Reply) : World × Reply :=
  match w.handleNamed? name with
  | some e => f e
  | none => (w, .noHandle name)

/-- Do an action. -/
def perform (w : World) : Action → World × Reply
  | .script args s startDelay =>
    let w := { w with backend := w.backend.script args s }
    match startDelay with
    | none => (w, .done)
    | some d => ({ w with startDelays :=
        (args, d) :: w.startDelays.filter fun e => e.1 != args }, .done)
  | .makeQueue key name =>
    let (w, q) := w.makeQueue name true
    (w.nameQueue key q, .named name)
  | .request queue op token handle => w.withQueue queue fun q => w.requestNamed q op token handle
  | .cancel token => (w.cancel token, .done)
  | .withhold queue value => w.withQueue queue fun q =>
    ((w.withhold q value).note (.withholdingSet q value), .done)
  | .peek handle => w.withHandle handle fun e => (w, .outcome (w.peek e))
  | .describe handle => w.withHandle handle fun e =>
    match w.entryOf? e with
    | some entry => (w, .described entry.operation (w.peek e))
    | none => (w, .noHandle handle)
  | .compare a b => w.withHandle a fun e => w.withHandle b fun e' =>
    (w, .compared (e == e') (e' == e))
  | .watch handle => w.withHandle handle fun e => ((w.spawn (.watch handle e)).1, .done)
  | .observe name kind hooks =>
    let w := w.observe name kind hooks
    (w, .counted w.manager.observerCount)
  | .unobserve name => match w.names.observers.lookup name with
    | none => (w, .released false w.manager.observerCount)
    | some (kind, number) =>
      let w := (w.forgetObserver name).releaseObserver kind number
      (w, .released true w.manager.observerCount)
  | .countObservers => (w, .counted w.manager.observerCount)
  | .disposeManager =>
    let w := w.disposeManager
    (w, .disposed w.manager.isDisposed w.manager.observerCount)
  | .inspectManager => (w, .manager w.manager.isDisposed w.manager.observerCount)
  | .listRecords => (w, .records w.backend)
  | .execute name command token =>
    let (w, j) := w.spawn (.execution name command token)
    (w.nameJob name j, .done)
  | .reset name folder token =>
    let (w, j) := w.spawn (.reset name folder token)
    (w.nameJob name j, .done)
  | .abandon name => match w.names.jobs.lookup name with
    | none => (w, .noJob)
    | some j =>
      let w := { w with names := { w.names with
          jobs := w.names.jobs.filter fun e => e.1 != name } }
      w.abandonJob j
  | .undecodable flaw => (w, .failed (.undecodable flaw))
  | .unknown name => (w, .unknown name)

end FolderTasks.Dispatch.World
