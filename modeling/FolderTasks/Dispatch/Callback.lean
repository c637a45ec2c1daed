import FolderTasks.Dispatch.Performing
/-!
# Calling back

The status reporter and the observers are called while a job has its turn.  A call is written
down first; then the hooks that act at it do their actions, up to the first hook that panics.

## Main definitions

* `World.report`: call the status reporter.
* `World.announceStart`, `World.announceEnd`: call the observers.
-/

namespace FolderTasks.Dispatch.World

/-- Do the actions of a hook, each written down with its reply. -/
def runActions (w : World) (site : CallbackSite) (actions : List Action) : World :=
  actions.foldl (fun w a =>
    let (w, reply) := w.perform a
    w.note (.hookAnswered site reply)) w

/-- Run hooks up to the first that panics; the answer tells whether one did. -/
def runHooks (site : CallbackSite) : List Hook → World → World × Bool
  | [], w => (w, false)
  | h :: rest, w =>
    let w := w.runActions site h.actions
    if h.panics then (w, true) else runHooks site rest w

/-- Do the operations of an entry's queue show in the user's reporter? -/
def isRecorded (w : World) (e : EntryId) : Bool :=
  ((w.entryOf? e).bind fun entry => w.queues[entry.queue]?).any Queue.isRecorded

/-- Keep the kinds of the calls made to the status reporter. -/
def keepCalls (w : World) (calls : List StatusKind) : World :=
  { w with reporter := { w.reporter with calls } }

/-- Keep the calls made to the observers. -/
def keepNotices (w : World) (calls : List (NoticeKind × Nat)) : World :=
  { w with observerCalls := calls }

/-- Call the status reporter for an entry; the answer tells whether it panicked.  The reporter
that only logs does not panic. -/
def report (w : World) (e : EntryId) (call : StatusCall) : World × Bool :=
  let kind := call.kind
  let isRecorded := w.isRecorded e
  let w := w.note (.reported e call isRecorded)
  if isRecorded then
    let calls := kind :: w.reporter.calls
    let w := w.keepCalls calls
    let hooks := w.reporter.hooks.filter fun h => h.actsOn kind (calls.count kind)
    let (w, panicked) := runHooks (.status kind) hooks w
    if panicked then (w.note (.reporterPanicked e call), true) else (w, false)
  else (w, false)

/-- Make several calls to the status reporter, up to the first at which it panics. -/
def reportAll (e : EntryId) : List StatusCall → World → World × Bool
  | [], w => (w, false)
  | call :: rest, w =>
    let (w, panicked) := w.report e call
    if panicked then (w, true) else reportAll e rest w

/-- Call the observers of a snapshot in order, up to the first that panics. -/
def callObservers (kind : NoticeKind) (id : TaskId) (fact : String → Happening) :
    List (Nat × Observer) → World → World × Bool
  | [], w => (w, false)
  | (number, o) :: rest, w =>
    let w := w.note (fact o.name)
    let calls := (kind, number) :: w.observerCalls
    let w := w.keepNotices calls
    let hooks := o.hooks.filter fun h => h.actsAt (calls.count (kind, number))
    let (w, panicked) := runHooks .observer hooks w
    if panicked then (w.note (.observerPanicked kind id), true)
    else callObservers kind id fact rest w

/-- Tell the observers of a start; the answer tells whether one panicked. -/
def announceStart (w : World) (id : TaskId) (c : Command) : World × Bool :=
  let w := w.note (.startAnnounced id c)
  callObservers .start id (fun name => .startNoticed name id c)
    w.manager.startObservers.callbacks w

/-- Tell the observers of an end; the answer tells whether one panicked. -/
def announceEnd (w : World) (id : TaskId) (c : Command) (code : Option Int32) : World × Bool :=
  let w := w.note (.endAnnounced id c code)
  callObservers .finish id (fun name => .endNoticed name id c code)
    w.manager.endObservers.callbacks w

end FolderTasks.Dispatch.World
