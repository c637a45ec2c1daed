import FolderTasks.Dispatch.World
/-!
# Queueing operations

A request is absorbed by a waiting entry with the same argument list; otherwise it becomes a new
entry at the end of its queue.  An entry becomes active when nothing else of its queue is, and
leaves its queue before those who wait for it hear of its outcome.

## Main definitions

* `World.request`: a request.
* `World.dispatch`: make the first waiting entry active, if none is.
* `World.resolve`: take an entry out of the active slot and let its outcome be known.
* `World.receive?`, `World.takeSeat`: ask for the outcome of an entry, and wait for it.
-/

namespace FolderTasks.Dispatch.World

/-- Make the first waiting entry of a queue active, unless one is. -/
def dispatch (w : World) (q : QueueId) : World :=
  match w.queues[q]? with
  | some { active := none, pending := e :: rest, .. } =>
    let w := w.modifyQueue q fun queue => { queue with active := some e, pending := rest }
    ((w.note (.dispatched e)).spawn (.operation e)).1
  | _ => w

/-- The waiting entry that absorbs a request. -/
def absorber? (w : World) (queue : Queue) (op : Operation) : Option EntryId :=
  queue.pending.find? fun e => match w.entryOf? e with
    | some entry => entry.operation.key == op.key
    | none => false

/-- Put a new entry at the end of its queue. -/
def append (w : World) (q : QueueId) (queue : Queue) (op : Operation) (token : Option String) :
    World × EntryId :=
  let e := w.entries.length
  let entry : Entry := { queue := q, operation := op, token }
  let w := { w with entries := w.entries ++ [entry] }
  let w := w.modifyQueue q fun queue => { queue with pending := queue.pending ++ [e] }
  (w.note (.queued e queue.name op.label (queue.pending.length + 1)), e)

/-- Request an operation on a queue; the answer holds the entry that serves the request. -/
def request (w : World) (q : QueueId) (op : Operation) (token : Option String) :
    World × EntryId :=
  match w.queues[q]? with
  | none => (w, 0)
  | some queue => match w.absorber? queue op with
    | some e => (w.note (.absorbed e queue.name op.key), e)
    | none =>
      let (w, e) := w.append q queue op token
      (w.dispatch q, e)

/-- Withhold a queue or not. -/
def withhold (w : World) (q : QueueId) (value : Bool) : World :=
  w.modifyQueue q fun queue => { queue with isWithheld := value }

/-- The jobs among those who wait. -/
def waitingJobs (room : WaitingRoom) : List JobId :=
  room.waiting.filterMap fun
    | .job j => some j
    | .outside => none

/-- Let the outcome of an entry be known, and wake those who wait for it. -/
def deliver (w : World) (e : EntryId) (outcome : Outcome) : World :=
  match w.entryOf? e with
  | none => w
  | some entry =>
    let w := w.modifyEntry e fun entry => { entry with outcome := some outcome }
    (w.note (.resolved e outcome)).wakeAll (waitingJobs entry.room)

/-- Take an entry out of the active slot, make the next one active, and only then let the
outcome be known. -/
def resolve (w : World) (e : EntryId) (outcome : Outcome) : World :=
  match w.entryOf? e with
  | none => w
  | some entry =>
    let w := w.modifyQueue entry.queue fun queue => { queue with active := none }
    ((w.note (.vacated e)).dispatch entry.queue).deliver e outcome

/-- Receive the outcome of an entry, if it is known. -/
def receive? (w : World) (e : EntryId) : Option (World × Outcome) :=
  match w.entryOf? e with
  | some { outcome := some o, .. } =>
    some (w.modifyEntry e fun entry => { entry with isReceived := true }, o)
  | _ => none

/-- Wait for the outcome of an entry; the answer holds the seat. -/
def takeSeat (w : World) (e : EntryId) (who : Waiter) : World × Nat :=
  match w.entryOf? e with
  | none => (w, 0)
  | some entry =>
    let (room, seat) := entry.room.enter who
    (w.modifyEntry e fun entry => { entry with room }, seat)

/-- Stop waiting for the outcome of an entry. -/
def leaveSeat (w : World) (e : EntryId) (seat : Nat) : World :=
  w.modifyEntry e fun entry => { entry with room := entry.room.leave seat }

end FolderTasks.Dispatch.World
