import FolderTasks.Dispatch.Run
import Mathlib.Logic.Relation
/-!
# Reachable worlds

What a set of queues can do between two looks at it is one of a few things: the user does
something that lets no job run, a job has its turn, a timer fires, or time passes.  A world is
*reachable* when any number of these, in any order, lead to it from a world in which nothing has
happened yet.

The order of the turns is left open here.  `World.move?` takes the first job in line, so what a
user can bring about with `World.step` is a part of what is reachable; a statement about all
reachable worlds holds for every order in which a scheduler may let the jobs run.

## Main definitions

* `Happening.queued?`, `Happening.dispatched?`, …: the facts of one kind.
* `Setting`: what is given before anything happens.
* `World.Transition`, `World.Reachable`: what can happen next, and where it leads.
* `World.seen`: the facts of one kind in the order in which they happened.

## Design notes

The history is the only witness of the past.  Which entries were made, dispatched and finished,
and which task numbers belong to which jobs, is read off it with `World.seen`, so every statement
about the past is one about the facts that were written down.
-/

namespace FolderTasks.Dispatch

namespace Happening

/-- The entry that was created. -/
def queued? : Happening → Option EntryId
  | .queued e _ _ _ => some e
  | _ => none

/-- The entry that became active. -/
def dispatched? : Happening → Option EntryId
  | .dispatched e => some e
  | _ => none

/-- The entry that left the active slot. -/
def vacated? : Happening → Option EntryId
  | .vacated e => some e
  | _ => none

/-- The entry whose outcome became known, and the outcome. -/
def resolved? : Happening → Option (EntryId × Outcome)
  | .resolved e o => some (e, o)
  | _ => none

/-- A fact about an entry that leaves the active slot or has its outcome. -/
def departure? : Happening → Option Happening
  | .vacated e => some (.vacated e)
  | .resolved e o => some (.resolved e o)
  | _ => none

/-- The task number that was given out, and the job that got it. -/
def numbered? : Happening → Option (TaskId × JobId)
  | .numbered id j => some (id, j)
  | _ => none

/-- The task that the backend was asked to start. -/
def startAsked? : Happening → Option TaskId
  | .startAsked id _ => some id
  | _ => none

end Happening

/-- What is given before anything happens: the scripts, how long starts take, what is noticed when
two things are there at once, the settings, and the hooks of the user's reporter. -/
structure Setting where
  fallback : Script := {}
  scripts : List (List String × Script) := []
  startDelays : List (List String × Nat) := []
  startDelay : Nat := 0
  prefersCancellation : TaskId → Bool := fun _ => false
  toolchain : Toolchain := .standard
  hooks : List Hook := []
  recordsFolders : Bool := true

/-- The world in which nothing has happened yet. -/
def Setting.world (s : Setting) : World where
  backend := { fallback := s.fallback, scripts := s.scripts }
  startDelays := s.startDelays
  startDelay := s.startDelay
  prefersCancellation := s.prefersCancellation
  toolchain := s.toolchain
  reporter := { hooks := s.hooks }
  recordsFolders := s.recordsFolders

/-- Does a step let no job run? -/
def Step.isInstant : Step → Bool
  | .settle | .advance _ | .await _ => false
  | _ => true

namespace World

/-- Let a job that has a turn coming take it. -/
def takeTurn (w : World) (j : JobId) : World :=
  ({ w with ready := w.ready.erase j } : World).turn j

/-- **What can happen next.**  Any job that has a turn coming may take it, and any timer may fire,
whatever else is due; time may pass without anything being done.  The last three are the parts of
waiting for an outcome outside all jobs. -/
inductive Transition : World → World → Prop where
  /-- The user does something that lets no job run. -/
  | act {w : World} (s : Step) (h : s.isInstant) : Transition w (w.step s).1
  /-- A job takes its turn. -/
  | turn {w : World} (j : JobId) (h : j ∈ w.ready) : Transition w (w.takeTurn j)
  /-- A timer fires. -/
  | fire {w : World} (t : Timer) (h : t ∈ w.timers) : Transition w (w.fire t)
  /-- Time passes. -/
  | pass {w : World} (moment : Nat) (h : w.clock ≤ moment) :
      Transition w { w with clock := moment }
  /-- The user begins to wait for an outcome. -/
  | sit {w : World} (e : EntryId) : Transition w (w.takeSeat e .outside).1
  /-- The user stops waiting for it. -/
  | leave {w : World} (e : EntryId) (entry : Entry) (seat : Nat) (he : w.entryOf? e = some entry)
      (h : entry.room.seats[seat]? = some (some .outside)) : Transition w (w.leaveSeat e seat)
  /-- The user receives it. -/
  | receive {w w' : World} (e : EntryId) (o : Outcome) (h : w.receive? e = some (w', o)) :
      Transition w w'

/-- **The reachable worlds**: where any number of transitions lead from any setting. -/
inductive Reachable : World → Prop where
  | new (s : Setting) : Reachable s.world
  | next {w w' : World} (h : Reachable w) (t : Transition w w') : Reachable w'

/-! ## What the history tells -/

/-- The facts of one kind, each as far as it matters, in the order in which they happened. -/
def seen {α : Type} (w : World) (f : Happening → Option α) : List α :=
  (w.history.filterMap fun p => f p.2).reverse

@[simp] theorem seen_note {α : Type} (w : World) (h : Happening) (f : Happening → Option α) :
    (w.note h).seen f = w.seen f ++ (f h).toList := by
  cases hf : f h <;> simp [seen, note, hf]

/-- Facts that are not of a kind leave its list alone. -/
theorem seen_note_of_none {α : Type} (w : World) {h : Happening} {f : Happening → Option α}
    (hf : f h = none) : (w.note h).seen f = w.seen f := by
  rw [seen_note, hf, Option.toList_none, List.append_nil]

theorem mem_seen {α : Type} {w : World} {f : Happening → Option α} {a : α} :
    a ∈ w.seen f ↔ ∃ p ∈ w.history, f p.2 = some a := by
  simp [seen]

end World

end FolderTasks.Dispatch
