import FolderTasks.Scripted.Backend
/-!
# A scripted backend with a clock

Sequences of calls to a scripted backend whose clock moves only when somebody waits.

A wait for an execution sleeps until the execution's deadline, and only then ends it.  It goes on
when it is polled, so it has to be polled once more after it has slept.  Who waits with a limit may be
woken by the limit first, and then drops the wait.

## Main definitions

* `Scripted.Step`: the calls.
* `Scripted.Bench`: the backend, its clock and the executions started so far.
* `Scripted.Bench.poll`: a wait goes on, as far as it can at the moment.
* `Scripted.Bench.await`: a wait that nothing else comes in between.
* `Scripted.Bench.perform`: one call.
-/

namespace FolderTasks.Scripted

/-- A call to the backend or to one of its executions, these numbered from zero. -/
inductive Step where
  | script (args : List String) (script : Script)
  | start (id : TaskId) (command : Command)
  /-- Wait for an execution, at most for `limit` milliseconds. -/
  | wait (execution : Nat) (limit : Option Nat)
  | terminate (execution : Nat)
  /-- Ask for the process number. -/
  | processNumber (execution : Nat)
  | name
  /-- Let time go by. -/
  | advance (milliseconds : Nat)

/-- What a call answers. -/
inductive Answer where
  | done
  | started (execution : Nat)
  | refused (failure : Failure)
  /-- The wait was given up. -/
  | givenUp
  /-- The execution ended with this code. -/
  | ended (code : Option Int32)
  /-- A scripted execution has no process number. -/
  | noProcess
  | named (name : String)
  | noExecution
deriving DecidableEq, Repr

/-- What comes of polling a wait. -/
inductive Poll where
  /-- It sleeps. -/
  | pending
  /-- It is complete: the execution ended with this code. -/
  | ready (code : Option Int32)
deriving DecidableEq, Repr

/-- A backend in use. -/
structure Bench where
  backend : Scripted
  clock : Nat := 0
  executions : List Execution := []
deriving Repr

namespace Bench

/-- Poll a wait for an execution.  Before the deadline it sleeps on; from then on the execution ends
and the wait is complete. -/
def poll (b : Bench) (e : Execution) : Bench × Poll :=
  if b.clock < e.deadline then (b, .pending)
  else ({ b with backend := b.backend.finish b.clock e.id false }, .ready e.exitCode)

/-- When one who waits is woken: at the deadline, or by his limit if this comes first. -/
def wakesAt (b : Bench) (e : Execution) (limit : Option Nat) : Nat :=
  match limit with
  | none => e.deadline
  | some limit => min (b.clock + limit) e.deadline

/-- Wait for an execution, but not longer than `limit`.  The wait is polled at once and again when
the one who waits is woken; if it is still pending then, it is dropped.  When the limit and the
deadline come at the same time the wait is complete. -/
def await (b : Bench) (e : Execution) (limit : Option Nat) : Bench × Answer :=
  match b.poll e with
  | (b, .ready code) => (b, .ended code)
  | (b, .pending) =>
    match { b with clock := b.wakesAt e limit }.poll e with
    | (b, .ready code) => (b, .ended code)
    | (b, .pending) => (b, .givenUp)

/-- Do something with a numbered execution. -/
def withExecution (b : Bench) (n : Nat) (f : Execution → Bench × Answer) : Bench × Answer :=
  match b.executions[n]? with
  | some e => f e
  | none => (b, .noExecution)

/-- One call. -/
def perform (b : Bench) : Step → Bench × Answer
  | .script args s => ({ b with backend := b.backend.script args s }, .done)
  | .start id c => match b.backend.start b.clock id c with
    | .ok (backend, e) =>
      ({ b with backend, executions := b.executions ++ [e] }, .started b.executions.length)
    | .error f => (b, .refused f)
  | .wait n limit => b.withExecution n fun e => b.await e limit
  | .terminate n => b.withExecution n fun e =>
    ({ b with backend := b.backend.finish b.clock e.id true }, .done)
  | .processNumber n => b.withExecution n fun _ => (b, .noProcess)
  | .name => (b, .named Scripted.name)
  | .advance ms => ({ b with clock := b.clock + ms }, .done)

/-! ## What waiting comes to -/

variable {b : Bench} {e : Execution}

theorem poll_of_lt (h : b.clock < e.deadline) : b.poll e = (b, .pending) := if_pos h

theorem poll_of_le (h : e.deadline ≤ b.clock) :
    b.poll e = ({ b with backend := b.backend.finish b.clock e.id false }, .ready e.exitCode) :=
  if_neg (Nat.not_lt.2 h)

/-- A wait that is not limited lasts until the deadline, if this has not passed already. -/
theorem await_none (b : Bench) (e : Execution) :
    b.await e none =
      ({ b with
        clock := max b.clock e.deadline
        backend := b.backend.finish (max b.clock e.deadline) e.id false }, .ended e.exitCode) := by
  rcases Nat.lt_or_ge b.clock e.deadline with hlt | hge
  · rw [await, poll_of_lt hlt, Nat.max_eq_right (Nat.le_of_lt hlt)]
    dsimp only
    rw [poll_of_le (Nat.le_of_eq rfl)]
    rfl
  · rw [await, poll_of_le hge, Nat.max_eq_left hge]

/-- A limit that comes before the deadline is all that a wait lasts; any other limit makes no
difference. -/
theorem await_some (b : Bench) (e : Execution) (limit : Nat) :
    b.await e (some limit) =
      if b.clock + limit < e.deadline then ({ b with clock := b.clock + limit }, .givenUp)
      else b.await e none := by
  split
  · next hlt =>
    have hnow : b.clock < e.deadline := by omega
    have hwakes : b.wakesAt e (some limit) = b.clock + limit := Nat.min_eq_left (Nat.le_of_lt hlt)
    rw [await, poll_of_lt hnow]
    dsimp only
    rw [hwakes, poll_of_lt hlt]
  · next hge =>
    have hwakes : b.wakesAt e (some limit) = b.wakesAt e none :=
      Nat.min_eq_right (Nat.not_lt.1 hge)
    rw [await, await]
    rcases Nat.lt_or_ge b.clock e.deadline with hlt | hge'
    · rw [poll_of_lt hlt]
      dsimp only
      rw [hwakes]
    · rw [poll_of_le hge']

end Bench

end FolderTasks.Scripted
