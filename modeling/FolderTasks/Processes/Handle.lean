import FolderTasks.Processes.Launch
/-!
# Started processes

The one who started a process can wait for its end, terminate it, and ask for its number.

## Main definitions

* `Processes.Handle`: a started process.
* `Processes.Asked`, `Processes.Handle.perform`: what can be done with it.
-/

namespace FolderTasks.Processes

open Machine

/-- A started process. -/
structure Handle where
  host : Host
  number : Nat
  /-- The exit code that was collected at its end, once somebody has seen the end. -/
  collected : Option (Option Int32) := none

/-- What can be done with a started process. -/
inductive Asked where
  | wait
  | terminate
  | number

/-- What is answered. -/
inductive Reply where
  /-- The process is at its end, with this code. -/
  | ended (code : Option Int32)
  | done
  /-- The process has a number, which it keeps after its end. -/
  | numbered

namespace Handle

/-- The handle of a launched process. -/
def ofLaunched (l : Launched) : Handle := { host := l.host, number := l.number }

/-- The process at its end. -/
def finish (h : Handle) : Handle :=
  match h.collected with
  | some _ => h
  | none =>
    let host := h.host.runUntil (fun host => (host.ending? h.number).isSome) none
    { h with host, collected := some ((host.ending? h.number).bind Ending.code?) }

/-- Do something with a started process.  One that is terminated before somebody saw its end has
no exit code. -/
def perform (h : Handle) : Asked → Handle × Reply
  | .wait => (h.finish, .ended (h.finish.collected.getD none))
  | .terminate => ({ h with collected := some (h.collected.getD none) }, .done)
  | .number => (h, .numbered)

end Handle

end FolderTasks.Processes
