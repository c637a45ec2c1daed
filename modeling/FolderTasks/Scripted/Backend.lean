import FolderTasks.Failure
import FolderTasks.Notice
/-!
# A scripted backend

A backend that runs nothing: for every argument list a script says how long the execution takes,
with which code it exits and whether it starts at all.  Every execution is recorded, so one can
see afterwards what ran when.

Time is a number of milliseconds that the caller supplies.

## Main definitions

* `Script`, `Record`: the behaviour of a command, and one execution as it was seen.
* `Scripted`: scripts, records, and how many executions are and were running at once.
* `Scripted.start`, `Scripted.finish`: an execution begins, an execution ends.
* `Scripted.IsCounted`: what counts as running is what has no end.
-/

namespace FolderTasks

/-- The behaviour of a command. -/
structure Script where
  /-- How long the execution runs, in milliseconds. -/
  delay : Nat := 0
  /-- The exit code; absent when the execution ends without one. -/
  exitCode : Option Int32 := some 0
  /-- Does the command refuse to start? -/
  refuses : Bool := false
deriving DecidableEq, Repr, Inhabited

namespace Script

/-- Exit with a code. -/
def exit (code : Int32) (delay : Nat) : Script := ⟨delay, some code, false⟩

/-- End without a code. -/
def crash (delay : Nat) : Script := ⟨delay, none, false⟩

/-- Refuse to start. -/
def unlaunchable : Script := ⟨0, none, true⟩

end Script

/-- One execution as it was seen. -/
structure Record where
  id : TaskId
  args : List String
  startedAt : Nat
  /-- Absent while the execution runs. -/
  endedAt : Option Nat := none
  /-- Was the execution ended from outside? -/
  terminated : Bool := false
deriving DecidableEq, Repr, Inhabited

/-- A started execution, as the one who started it holds it. -/
structure Execution where
  id : TaskId
  /-- When it comes to its end. -/
  deadline : Nat
  exitCode : Option Int32
deriving DecidableEq, Repr, Inhabited

/-- Scripts, records and counts of running executions. -/
structure Scripted where
  /-- The script of commands that have none of their own. -/
  fallback : Script := {}
  scripts : List (List String × Script) := []
  /-- The executions in the order of their start. -/
  records : List Record := []
  running : Nat := 0
  /-- The greatest number of executions that ran at once. -/
  maxRunning : Nat := 0
deriving DecidableEq, Repr, Inhabited

namespace Scripted

/-- The name of the backend. -/
def name : String := "scripted"

/-- Why a command that refuses to start did not. -/
def refusal : String := "scripted launch failure"

/-- Script an argument list; its earlier script is forgotten. -/
def script (b : Scripted) (args : List String) (s : Script) : Scripted :=
  { b with scripts := (args, s) :: b.scripts.filter fun e => e.1 != args }

/-- The script of an argument list. -/
def scriptFor (b : Scripted) (args : List String) : Script :=
  (b.scripts.lookup args).getD b.fallback

/-- Start a command. -/
def start (b : Scripted) (now : Nat) (id : TaskId) (c : Command) :
    Except Failure (Scripted × Execution) :=
  let s := b.scriptFor c.args
  if s.refuses then .error (.launch c.program refusal)
  else .ok
    ({ b with
        records := b.records ++ [{ id, args := c.args, startedAt := now }]
        running := b.running + 1
        maxRunning := max b.maxRunning (b.running + 1) },
      ⟨id, now + s.delay, s.exitCode⟩)

/-- End the first record of a task that has no end; `none` when there is none. -/
def finishRecord (now : Nat) (id : TaskId) (terminated : Bool) : List Record → Option (List Record)
  | [] => none
  | r :: rest =>
    if r.id = id ∧ r.endedAt = none then
      some ({ r with endedAt := some now, terminated } :: rest)
    else (finishRecord now id terminated rest).map (r :: ·)

/-- End an execution of a task, if one runs. -/
def finish (b : Scripted) (now : Nat) (id : TaskId) (terminated : Bool) : Scripted :=
  match finishRecord now id terminated b.records with
  | none => b
  | some records => { b with records, running := b.running - 1 }

/-- The records without an end. -/
def unended (b : Scripted) : List Record := b.records.filter fun r => r.endedAt.isNone

/-! ## What starting and ending leave behind -/

/-- A command that does not refuse to start adds one record. -/
theorem start_eq_ok {b b' : Scripted} {now : Nat} {id : TaskId} {c : Command} {e : Execution}
    (h : b.start now id c = .ok (b', e)) :
    b'.records = b.records ++ [{ id, args := c.args, startedAt := now }] ∧
      b'.running = b.running + 1 ∧ e = ⟨id, now + (b.scriptFor c.args).delay,
        (b.scriptFor c.args).exitCode⟩ := by
  unfold start at h
  dsimp only at h
  split at h
  · exact absurd h (by simp)
  · obtain ⟨rfl, rfl⟩ := Prod.mk.inj (Except.ok.inj h)
    exact ⟨rfl, rfl, rfl⟩

/-- A record after the execution of a task ended. -/
def afterEnd (now : Nat) (id : TaskId) (terminated : Bool) (r : Record) : Record :=
  if r.id = id then { r with endedAt := some now, terminated } else r

@[simp] theorem id_afterEnd (now : Nat) (id : TaskId) (terminated : Bool) (r : Record) :
    (afterEnd now id terminated r).id = r.id := by
  unfold afterEnd
  split <;> rfl

@[simp] theorem startedAt_afterEnd (now : Nat) (id : TaskId) (terminated : Bool) (r : Record) :
    (afterEnd now id terminated r).startedAt = r.startedAt := by
  unfold afterEnd
  split <;> rfl

theorem id_comp_afterEnd (now : Nat) (id : TaskId) (terminated : Bool) :
    Record.id ∘ afterEnd now id terminated = Record.id :=
  funext fun r => id_afterEnd now id terminated r

theorem afterEnd_of_ne {now : Nat} {id : TaskId} {terminated : Bool} {r : Record}
    (h : r.id ≠ id) : afterEnd now id terminated r = r := if_neg h

/-- A task that has one record is not in the others. -/
theorem map_afterEnd_of_not_mem (now : Nat) {id : TaskId} (terminated : Bool)
    {records : List Record} (h : id ∉ records.map Record.id) :
    records.map (afterEnd now id terminated) = records := by
  refine (List.map_congr_left fun r hr => afterEnd_of_ne fun hid => h ?_).trans (List.map_id _)
  rw [← hid]
  exact List.mem_map_of_mem hr

/-- Among records of different tasks just the one of the task gets an end. -/
theorem finishRecord_eq_some {now : Nat} {id : TaskId} {terminated : Bool} {records : List Record}
    (hids : (records.map Record.id).Nodup) {r : Record} (hr : r ∈ records) (hid : r.id = id)
    (hend : r.endedAt = none) :
    finishRecord now id terminated records = some (records.map (afterEnd now id terminated)) := by
  induction records with
  | nil => exact absurd hr List.not_mem_nil
  | cons r' records ih =>
    rw [List.map_cons, List.nodup_cons] at hids
    by_cases hid' : r'.id = id
    · have hrest := map_afterEnd_of_not_mem now terminated (hid' ▸ hids.1)
      have heq : r = r' := by
        rcases List.mem_cons.1 hr with heq | hmem
        · exact heq
        · refine absurd ?_ hids.1
          rw [hid', ← hid]
          exact List.mem_map_of_mem hmem
      rw [finishRecord, if_pos ⟨hid', heq ▸ hend⟩, List.map_cons, hrest, afterEnd, if_pos hid']
    · have hmem : r ∈ records := by
        rcases List.mem_cons.1 hr with rfl | hmem
        · exact absurd hid hid'
        · exact hmem
      rw [finishRecord, if_neg fun h => hid' h.1, ih hids.2 hmem, List.map_cons,
        afterEnd_of_ne hid']
      rfl

theorem finish_eq {b : Scripted} {now : Nat} {id : TaskId} {terminated : Bool}
    (hids : (b.records.map Record.id).Nodup) {r : Record} (hr : r ∈ b.records) (hid : r.id = id)
    (hend : r.endedAt = none) :
    b.finish now id terminated =
      { b with records := b.records.map (afterEnd now id terminated), running := b.running - 1 } := by
  rw [finish, finishRecord_eq_some hids hr hid hend]

/-- What counts as running is what has no end. -/
def IsCounted (b : Scripted) : Prop := b.running = b.unended.length

theorem IsCounted.start {b b' : Scripted} {now : Nat} {id : TaskId} {c : Command} {e : Execution}
    (h : b.IsCounted) (hb : b.start now id c = .ok (b', e)) : b'.IsCounted := by
  obtain ⟨hrecords, hrunning, -⟩ := start_eq_ok hb
  rw [IsCounted, hrunning, h, unended, unended, hrecords, List.filter_append, List.length_append]
  rfl

/-- Just one of the executions without an end gets one. -/
theorem length_unended_finishRecord {now : Nat} {id : TaskId} {terminated : Bool}
    {records records' : List Record} (h : finishRecord now id terminated records = some records') :
    (records'.filter fun r => r.endedAt.isNone).length + 1 =
      (records.filter fun r => r.endedAt.isNone).length := by
  induction records generalizing records' with
  | nil => exact absurd h (by simp [finishRecord])
  | cons r records ih =>
    rw [finishRecord] at h
    split at h
    · next hr =>
      obtain rfl := Option.some.inj h
      rw [List.filter_cons_of_neg (by simp), List.filter_cons_of_pos (by simp [hr.2]),
        List.length_cons]
    · obtain ⟨rest, hrest, rfl⟩ := Option.map_eq_some_iff.1 h
      rw [List.filter_cons, List.filter_cons]
      split
      · rw [List.length_cons, List.length_cons, ih hrest]
      · exact ih hrest

theorem IsCounted.finish {b : Scripted} (h : b.IsCounted) (now : Nat) (id : TaskId)
    (terminated : Bool) : (b.finish now id terminated).IsCounted := by
  unfold Scripted.finish
  split
  · exact h
  · next records hrecords =>
    have hlength := length_unended_finishRecord hrecords
    change b.running - 1 = (records.filter fun r => r.endedAt.isNone).length
    rw [h, unended, ← hlength, Nat.add_sub_cancel]

end Scripted

end FolderTasks
