/-!
# Waiting for an outcome

Those who wait for the outcome of one entry sit in its waiting room and are called in the order
of the seats.  Who comes takes the seat that was given up last, or a new seat at the end when
none is free, so as long as nobody leaves early the order of the seats is the order of arrival.

## Main definitions

* `WaitingRoom`: the seats.
* `WaitingRoom.enter`, `WaitingRoom.leave`: taking a seat and giving it up.
* `WaitingRoom.waiting`: those who sit there, in order.
-/

namespace FolderTasks.Dispatch

/-- The number of a job. -/
abbrev JobId := Nat

/-- Who waits: a job, or the caller outside all jobs. -/
inductive Waiter where
  | job (id : JobId)
  | outside
deriving DecidableEq, Repr, Inhabited

/-- The seats of those who wait. -/
structure WaitingRoom where
  seats : List (Option Waiter) := []
  /-- The free seats, the one given up last first. -/
  free : List Nat := []
deriving DecidableEq, Repr, Inhabited

namespace WaitingRoom

/-- Take a seat; the answer holds its number. -/
def enter (r : WaitingRoom) (w : Waiter) : WaitingRoom × Nat :=
  match r.free with
  | [] => ({ r with seats := r.seats ++ [some w] }, r.seats.length)
  | seat :: free => ({ seats := r.seats.set seat (some w), free }, seat)

/-- Give a seat up. -/
def leave (r : WaitingRoom) (seat : Nat) : WaitingRoom :=
  { seats := r.seats.set seat none, free := seat :: r.free }

/-- Those who wait, in the order of their seats. -/
def waiting (r : WaitingRoom) : List Waiter := r.seats.filterMap id

end WaitingRoom

end FolderTasks.Dispatch
