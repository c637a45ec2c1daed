import FolderTasks.Scripted.Program
import Mathlib.Logic.Function.Basic
/-!
# Clients of a scripted backend

To wait for an execution is to hold a future.  It does nothing by itself: whoever holds it polls it
when he likes, makes other calls meanwhile, and may drop it at any moment before it is complete, be
it before the deadline or past it, polled often or never.

## Main definitions

* `Scripted.Move`: what a client does.
* `Scripted.Client`: a backend in use, with the waits that are under way.
* `Scripted.Client.perform`: one move.

## Design notes

There is one wait for an execution at a time, since a wait borrows its execution.  Other calls on the
execution are not forbidden meanwhile; whatever is proved of clients holds all the more for those who
make none.
-/

namespace FolderTasks.Scripted

/-- What a client does. -/
inductive Move where
  /-- A call to the backend or to one of its executions. -/
  | call (s : Step)
  /-- Begin to wait for an execution.  A wait for it that is under way is dropped. -/
  | beginWait (execution : Nat)
  /-- Poll the wait for an execution. -/
  | pollWait (execution : Nat)
  /-- Drop the wait for an execution. -/
  | dropWait (execution : Nat)

/-- What comes of a move. -/
inductive Reply where
  | answered (a : Answer)
  | begun
  /-- The wait sleeps on. -/
  | pending
  /-- The wait is complete: the execution ended with this code. -/
  | complete (code : Option Int32)
  | dropped
  /-- There is no such execution, or nobody waits for it. -/
  | nothing
deriving DecidableEq, Repr

/-- A backend in use, with the waits that are under way. -/
@[ext]
structure Client where
  bench : Bench
  /-- The execution that is waited for, under its number. -/
  waits : Nat → Option Execution := fun _ => none

namespace Client

/-- Forget the wait for an execution. -/
def forget (c : Client) (n : Nat) : Client := { c with waits := Function.update c.waits n none }

/-- One move. -/
def perform (c : Client) : Move → Client × Reply
  | .call s =>
    let (bench, a) := c.bench.perform s
    ({ c with bench }, .answered a)
  | .beginWait n => match c.bench.executions[n]? with
    | none => (c, .nothing)
    | some e => ({ c with waits := Function.update c.waits n (some e) }, .begun)
  | .pollWait n => match c.waits n with
    | none => (c, .nothing)
    | some e => match c.bench.poll e with
      | (bench, .pending) => ({ c with bench }, .pending)
      | (bench, .ready code) => ({ c.forget n with bench }, .complete code)
  | .dropWait n => match c.waits n with
    | none => (c, .nothing)
    | some _ => (c.forget n, .dropped)

end Client

end FolderTasks.Scripted
