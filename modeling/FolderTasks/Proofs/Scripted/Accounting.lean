import FolderTasks.Scripted.Program
import Mathlib.Data.List.Induction
import Mathlib.Data.List.Nodup
import Mathlib.Order.Bounds.Defs
/-!
# The books of a scripted backend

A scripted backend counts what runs, remembers the greatest count, and records every execution.
Whoever holds an execution may wait for it or end it as often as he likes, and tasks may have the
same identity, so an end is looked for among the records and may not be found.  Whatever the calls
are, the count is that of the records without an end, so it is never taken below zero, and records
are only added to and only ended once.  When the tasks differ, a record belongs to one execution,
and tells how the first call ended it that did.

## Main definitions

* `Scripted.Bench.performAll`, `Scripted.Bench.session`: calls to a backend, one after another.
* `Scripted.Exchange.closing?`: when and how a call ends an execution.
* `Scripted.Bench.HasRightRecords`: what the books come to.

## Main statements

* `Scripted.Bench.makes_exchange`: what a call does.
* `Scripted.Bench.fresh_hasRightRecords`: the books are right after any calls to a fresh backend.
-/

namespace FolderTasks

/-- **A record lasts**: what it tells of the start stays, and so does all of it once it has an
end. -/
structure Record.Lasts (r r' : Record) : Prop where
  id : r'.id = r.id
  args : r'.args = r.args
  startedAt : r'.startedAt = r.startedAt
  ended : r.endedAt.isSome → r' = r

theorem Record.Lasts.refl (r : Record) : r.Lasts r := ⟨rfl, rfl, rfl, fun _ => rfl⟩

theorem Record.Lasts.trans {r r' r'' : Record} (h : r.Lasts r') (h' : r'.Lasts r'') :
    r.Lasts r'' where
  id := h'.id.trans h.id
  args := h'.args.trans h.args
  startedAt := h'.startedAt.trans h.startedAt
  ended := by
    intro hended
    have hr' : r' = r := h.ended hended
    subst hr'
    exact h'.ended hended

/-- When a record was ended, and whether from outside. -/
def Record.ending? (r : Record) : Option (Nat × Bool) := r.endedAt.map fun t => (t, r.terminated)

namespace Scripted

/-- The task that is to be started. -/
def Step.starts? : Step → Option TaskId
  | .start id _ => some id
  | _ => none

/-- A call, its answer, and the backend after it. -/
structure Exchange where
  step : Step
  answer : Answer
  after : Bench

/-- **When a call ends an execution, and whether from outside.** -/
def Exchange.closing? (n : Nat) (x : Exchange) : Option (Nat × Bool) :=
  match x.step, x.answer with
  | .wait m _, .ended _ => if m = n then some (x.after.clock, false) else none
  | .terminate m, .done => if m = n then some (x.after.clock, true) else none
  | _, _ => none

namespace Bench

/-- A backend that nobody has called yet. -/
def fresh (fallback : Script) (clock : Nat) : Bench := { backend := { fallback }, clock }

/-- One call, with what comes of it. -/
def exchange (b : Bench) (s : Step) : Exchange := ⟨s, (b.perform s).2, (b.perform s).1⟩

/-- What the backend is after some calls. -/
def performAll (b : Bench) (steps : List Step) : Bench :=
  steps.foldl (fun b s => (b.perform s).1) b

/-- Some calls, with what comes of each of them. -/
def session (b : Bench) : List Step → List Exchange
  | [] => []
  | s :: steps => b.exchange s :: (b.perform s).1.session steps

/-- **What the books come to** after some calls. -/
structure HasRightRecords (b : Bench) (steps : List Step) : Prop where
  running : (b.performAll steps).backend.running = (b.performAll steps).backend.unended.length
  /-- Whenever an execution ends, the count is positive. -/
  unsaturated : ∀ {now : Nat} {id : TaskId} {terminated : Bool} {records : List Record},
    finishRecord now id terminated (b.performAll steps).backend.records = some records →
    0 < (b.performAll steps).backend.running
  maxRunning : IsGreatest
    {n | ∃ earlier, earlier <+: steps ∧ n = (b.performAll earlier).backend.running}
    (b.performAll steps).backend.maxRunning
  lasting : ∀ {later : List Step} {n : Nat} {r : Record},
    (b.performAll steps).backend.records[n]? = some r →
    ∃ r', (b.performAll (steps ++ later)).backend.records[n]? = some r' ∧ r.Lasts r'
  ordered : ∀ r ∈ (b.performAll steps).backend.records, ∀ t, r.endedAt = some t → r.startedAt ≤ t
  /-- When the tasks differ, each record belongs to one execution, and has the end that was first
  brought about by a call on that execution. -/
  settled : (steps.filterMap Step.starts?).Nodup → ∀ {n : Nat} {r : Record},
    (b.performAll steps).backend.records[n]? = some r →
    (∃ e, (b.performAll steps).executions[n]? = some e ∧ e.id = r.id) ∧
      r.endedAt = ((b.session steps).findSome? (Exchange.closing? n)).map Prod.fst ∧
      r.terminated = (((b.session steps).findSome? (Exchange.closing? n)).map Prod.snd).getD false

/-! ## Ends -/

end Bench

section Ends

variable {now : Nat} {id : TaskId} {terminated : Bool} {records records' : List Record} {n : Nat}

/-- Just one record is ended: it is one of the task, and has no end yet. -/
theorem finishRecord_eq_set (h : finishRecord now id terminated records = some records') :
    ∃ i r, records[i]? = some r ∧ r.id = id ∧ r.endedAt = none ∧
      records' = records.set i { r with endedAt := some now, terminated } := by
  induction records generalizing records' with
  | nil => exact absurd h (by simp [finishRecord])
  | cons r records ih =>
    rw [finishRecord] at h
    split at h
    · next hr =>
      obtain rfl := Option.some.inj h
      exact ⟨0, r, rfl, hr.1, hr.2, rfl⟩
    · obtain ⟨rest, hrest, rfl⟩ := Option.map_eq_some_iff.1 h
      obtain ⟨i, r', hr', hid, hend, rfl⟩ := ih hrest
      exact ⟨i + 1, r', hr', hid, hend, rfl⟩

/-- No record is ended if all of the task have their ends. -/
theorem finishRecord_eq_none_iff :
    finishRecord now id terminated records = none ↔
      ∀ r ∈ records, r.id = id → r.endedAt ≠ none := by
  induction records with
  | nil => simp [finishRecord]
  | cons r records ih =>
    rw [finishRecord, List.forall_mem_cons]
    split
    · next hr => exact iff_of_false (by simp) fun h => h.1 hr.1 hr.2
    · next hr =>
      rw [Option.map_eq_none_iff, ih]
      exact ⟨fun h => ⟨fun hid hend => hr ⟨hid, hend⟩, h⟩, And.right⟩

/-- A record that is there lasts when another one, or it itself, is ended. -/
theorem exists_lasts_set {i : Nat} {r r' : Record} (hr : records[i]? = some r)
    (hend : r.endedAt = none) (hn : records[n]? = some r') :
    ∃ r'', (records.set i { r with endedAt := some now, terminated })[n]? = some r'' ∧
      r'.Lasts r'' := by
  rw [List.getElem?_set]
  split
  · next hin =>
    subst hin
    obtain rfl : r = r' := Option.some.inj (hr.symm.trans hn)
    rw [if_pos (List.getElem?_eq_some_iff.1 hr).1]
    exact ⟨_, rfl, rfl, rfl, rfl, fun hended => absurd hended (by simp [hend])⟩
  · exact ⟨r', hn, .refl r'⟩

/-- **How an execution ends**: all records of the task have their ends, and nothing happens, or one
of them is ended. -/
theorem finish_cases (b : Scripted) (now : Nat) (id : TaskId) (terminated : Bool) :
    (b.finish now id terminated = b ∧ ∀ r ∈ b.records, r.id = id → r.endedAt ≠ none) ∨
      ∃ i r, b.records[i]? = some r ∧ r.id = id ∧ r.endedAt = none ∧
        b.finish now id terminated = { b with
          records := b.records.set i { r with endedAt := some now, terminated }
          running := b.running - 1 } := by
  unfold Scripted.finish
  cases h : finishRecord now id terminated b.records with
  | none => exact .inl ⟨rfl, finishRecord_eq_none_iff.1 h⟩
  | some records =>
    obtain ⟨i, r, hr, hid, hend, rfl⟩ := finishRecord_eq_set h
    exact .inr ⟨i, r, hr, hid, hend, rfl⟩

/-- What is true of the records, and of each of them when it is ended, stays true. -/
theorem forall_mem_finish {b : Scripted} {P : Record → Prop} (h : ∀ r ∈ b.records, P r)
    (hended : ∀ r ∈ b.records, P { r with endedAt := some now, terminated }) :
    ∀ r ∈ (b.finish now id terminated).records, P r := by
  rcases finish_cases b now id terminated with ⟨heq, -⟩ | ⟨i, r₀, hr₀, -, -, heq⟩
  · rw [heq]
    exact h
  · rw [heq]
    intro r hr
    rcases List.mem_or_eq_of_mem_set hr with hr | rfl
    · exact h r hr
    · exact hended r₀ (List.mem_of_getElem? hr₀)

end Ends

namespace Bench

/-! ## What a call does -/

/-- **What a call does**: at most time goes by and a script changes, or an execution begins, or a
call on an execution ends it. -/
inductive Makes (b : Bench) : Exchange → Prop where
  | idle {s : Step} {a : Answer} {clock : Nat} {scripts : List (List String × Script)}
      (hclock : b.clock ≤ clock) (hclosing : ∀ n, Exchange.closing? n
        ⟨s, a, { b with clock, backend := { b.backend with scripts } }⟩ = none) :
      Makes b ⟨s, a, { b with clock, backend := { b.backend with scripts } }⟩
  | started {c : Command} {a : Answer} {id : TaskId} {e : Execution} (hid : e.id = id) :
      Makes b ⟨.start id c, a, { b with
        backend := { b.backend with
          records := b.backend.records ++ [{ id, args := c.args, startedAt := b.clock }]
          running := b.backend.running + 1
          maxRunning := max b.backend.maxRunning (b.backend.running + 1) }
        executions := b.executions ++ [e] }⟩
  | ended {s : Step} {a : Answer} {m clock : Nat} {e : Execution} {terminated : Bool}
      (he : b.executions[m]? = some e) (hclock : b.clock ≤ clock)
      (hclosing : ∀ n, Exchange.closing? n
        ⟨s, a, { b with clock, backend := b.backend.finish clock e.id terminated }⟩ =
          if m = n then some (clock, terminated) else none) :
      Makes b ⟨s, a, { b with clock, backend := b.backend.finish clock e.id terminated }⟩

section Calls

variable {b : Bench} {x : Exchange} {n : Nat}

/-- A call that nothing comes of. -/
theorem makes_nothing {s : Step} {a : Answer}
    (hclosing : ∀ n, Exchange.closing? n ⟨s, a, b⟩ = none) : b.Makes ⟨s, a, b⟩ :=
  .idle (Nat.le_refl _) hclosing

theorem makes_start (b : Bench) (id : TaskId) (c : Command) :
    b.Makes (b.exchange (.start id c)) := by
  simp only [exchange, perform, Scripted.start]
  cases (b.backend.scriptFor c.args).refuses with
  | true => exact makes_nothing fun _ => rfl
  | false => exact .started rfl

/-- Nothing comes of a call on an execution that is not there. -/
theorem makes_withExecution {s : Step} {m : Nat} {f : Execution → Bench × Answer}
    (hs : b.perform s = b.withExecution m f)
    (hclosing : ∀ n, Exchange.closing? n ⟨s, .noExecution, b⟩ = none)
    (hf : ∀ e, b.executions[m]? = some e → b.Makes ⟨s, (f e).2, (f e).1⟩) :
    b.Makes (b.exchange s) := by
  rw [exchange, hs, withExecution]
  cases he : b.executions[m]? with
  | none => exact makes_nothing hclosing
  | some e => exact hf e he

/-- A wait that comes to its end ends the execution. -/
theorem makes_await {m : Nat} {e : Execution} (he : b.executions[m]? = some e)
    (limit : Option Nat) : b.Makes ⟨.wait m limit, (b.await e none).2, (b.await e none).1⟩ := by
  rw [await_none]
  exact .ended he (Nat.le_max_left _ _) fun _ => rfl

theorem makes_wait (b : Bench) (m : Nat) (limit : Option Nat) :
    b.Makes (b.exchange (.wait m limit)) := by
  refine makes_withExecution rfl (fun _ => rfl) fun e he => ?_
  cases limit with
  | none => exact makes_await he none
  | some limit =>
    rw [await_some]
    split
    · exact .idle (Nat.le_add_right _ _) fun _ => rfl
    · exact makes_await he (some limit)

/-- **Every call does one of these things.** -/
theorem makes_exchange (b : Bench) (s : Step) : b.Makes (b.exchange s) := by
  cases s with
  | script args s => exact .idle (Nat.le_refl _) fun _ => rfl
  | start id c => exact makes_start b id c
  | wait m limit => exact makes_wait b m limit
  | terminate m =>
    refine makes_withExecution rfl (fun _ => rfl) fun e he => ?_
    exact .ended he (Nat.le_refl _) fun _ => rfl
  | processNumber m =>
    exact makes_withExecution rfl (fun _ => rfl) fun e he => makes_nothing fun _ => rfl
  | name => exact makes_nothing fun _ => rfl
  | advance ms => exact .idle (Nat.le_add_right _ _) fun _ => rfl

/-! ## What a call preserves -/

/-- **The books are in order.** -/
structure IsBooked (b : Bench) : Prop where
  counted : b.backend.IsCounted
  within : b.backend.running ≤ b.backend.maxRunning
  ids : b.backend.records.map Record.id = b.executions.map Execution.id
  ordered : ∀ r ∈ b.backend.records, r.startedAt ≤ b.clock ∧ ∀ t ∈ r.endedAt, r.startedAt ≤ t
  marked : ∀ r ∈ b.backend.records, r.endedAt = none → r.terminated = false

theorem isBooked_fresh (fallback : Script) (clock : Nat) : (fresh fallback clock).IsBooked where
  counted := rfl
  within := Nat.le_refl _
  ids := rfl
  ordered := by simp [fresh]
  marked := by simp [fresh]

theorem Makes.counted (hx : b.Makes x) (h : b.backend.IsCounted) : x.after.backend.IsCounted := by
  cases hx with
  | idle => exact h
  | started =>
    change b.backend.running + 1 = (List.filter _ (_ ++ [_])).length
    rw [List.filter_append, List.length_append, h]
    rfl
  | ended => exact h.finish _ _ _

/-- The greatest count is kept up with. -/
theorem Makes.maxRunning (hx : b.Makes x) (h : b.backend.running ≤ b.backend.maxRunning) :
    x.after.backend.maxRunning = max b.backend.maxRunning x.after.backend.running := by
  cases hx with
  | idle => exact (Nat.max_eq_left h).symm
  | started => rfl
  | @ended _ _ _ clock e terminated =>
    have hmax : (b.backend.finish clock e.id terminated).maxRunning = b.backend.maxRunning ∧
        (b.backend.finish clock e.id terminated).running ≤ b.backend.running := by
      rcases finish_cases b.backend clock e.id terminated with
        ⟨heq, -⟩ | ⟨i, r, -, -, -, heq⟩
      · rw [heq]
        exact ⟨rfl, Nat.le_refl _⟩
      · rw [heq]
        exact ⟨rfl, Nat.sub_le _ _⟩
    dsimp only
    rw [hmax.1, Nat.max_eq_left (Nat.le_trans hmax.2 h)]

/-- Records last. -/
theorem Makes.lasts (hx : b.Makes x) {r : Record} (hr : b.backend.records[n]? = some r) :
    ∃ r', x.after.backend.records[n]? = some r' ∧ r.Lasts r' := by
  cases hx with
  | idle => exact ⟨r, hr, .refl r⟩
  | started =>
    refine ⟨r, ?_, .refl r⟩
    dsimp only
    rw [List.getElem?_append_left (List.getElem?_eq_some_iff.1 hr).1, hr]
  | @ended _ _ _ clock e terminated =>
    dsimp only
    rcases finish_cases b.backend clock e.id terminated with
      ⟨heq, -⟩ | ⟨i, r₀, hr₀, -, hend, heq⟩
    · rw [heq]
      exact ⟨r, hr, .refl r⟩
    · rw [heq]
      exact exists_lasts_set hr₀ hend hr

/-- That an execution ends makes no other records. -/
theorem ids_finish (b : Scripted) (now : Nat) (id : TaskId) (terminated : Bool) :
    (b.finish now id terminated).records.map Record.id = b.records.map Record.id := by
  rcases finish_cases b now id terminated with ⟨heq, -⟩ | ⟨i, r, hr, -, -, heq⟩
  · rw [heq]
  · rw [heq]
    dsimp only
    rw [List.map_set]
    refine List.ext_getElem? fun k => ?_
    rw [List.getElem?_set]
    split
    · next hik =>
      subst hik
      rw [List.getElem?_map, hr, if_pos]
      · rfl
      · rw [List.length_map]
        exact (List.getElem?_eq_some_iff.1 hr).1
    · rfl

theorem Makes.ids (hx : b.Makes x)
    (h : b.backend.records.map Record.id = b.executions.map Execution.id) :
    x.after.backend.records.map Record.id = x.after.executions.map Execution.id := by
  cases hx with
  | idle => exact h
  | started hid =>
    dsimp only
    rw [List.map_append, List.map_append, h, List.map_singleton, List.map_singleton, hid]
  | ended => exact (ids_finish _ _ _ _).trans h

/-- A call records at most the task that it is to start. -/
theorem Makes.exists_starts (hx : b.Makes x) : ∃ ids : List TaskId,
    ids.Sublist ([x.step].filterMap Step.starts?) ∧
      x.after.backend.records.map Record.id = b.backend.records.map Record.id ++ ids := by
  cases hx with
  | idle => exact ⟨[], List.nil_sublist _, (List.append_nil _).symm⟩
  | @started _ _ id => exact ⟨[id], List.Sublist.refl _, List.map_append⟩
  | ended => exact ⟨[], List.nil_sublist _, (ids_finish _ _ _ _).trans (List.append_nil _).symm⟩

theorem Makes.ordered (hx : b.Makes x)
    (h : ∀ r ∈ b.backend.records, r.startedAt ≤ b.clock ∧ ∀ t ∈ r.endedAt, r.startedAt ≤ t) :
    ∀ r ∈ x.after.backend.records,
      r.startedAt ≤ x.after.clock ∧ ∀ t ∈ r.endedAt, r.startedAt ≤ t := by
  cases hx with
  | idle hclock => exact fun r hr => ⟨Nat.le_trans (h r hr).1 hclock, (h r hr).2⟩
  | started =>
    intro r hr
    rcases List.mem_append.1 hr with hr | hr
    · exact h r hr
    · obtain rfl := List.mem_singleton.1 hr
      exact ⟨Nat.le_refl _, fun t ht => absurd ht (by simp)⟩
  | ended he hclock =>
    refine forall_mem_finish (fun r hr => ⟨Nat.le_trans (h r hr).1 hclock, (h r hr).2⟩) ?_
    intro r hr
    have hstarted := Nat.le_trans (h r hr).1 hclock
    refine ⟨hstarted, fun t ht => ?_⟩
    obtain rfl := Option.some.inj ht
    exact hstarted

theorem Makes.marked (hx : b.Makes x)
    (h : ∀ r ∈ b.backend.records, r.endedAt = none → r.terminated = false) :
    ∀ r ∈ x.after.backend.records, r.endedAt = none → r.terminated = false := by
  cases hx with
  | idle => exact h
  | started =>
    intro r hr hend
    rcases List.mem_append.1 hr with hr | hr
    · exact h r hr hend
    · obtain rfl := List.mem_singleton.1 hr
      rfl
  | ended => exact forall_mem_finish h fun r _ hend => absurd hend (by simp)

/-- **A call leaves the books in order.** -/
theorem Makes.isBooked (hx : b.Makes x) (h : b.IsBooked) : x.after.IsBooked where
  counted := hx.counted h.counted
  within := by
    rw [hx.maxRunning h.within]
    exact Nat.le_max_right _ _
  ids := hx.ids h.ids
  ordered := hx.ordered h.ordered
  marked := hx.marked h.marked

/-- While the count is right, it is positive whenever an execution ends. -/
theorem IsBooked.running_pos (h : b.IsBooked) {now : Nat} {id : TaskId} {terminated : Bool}
    {records : List Record}
    (hrecords : finishRecord now id terminated b.backend.records = some records) :
    0 < b.backend.running := by
  have hlength := length_unended_finishRecord hrecords
  have hcounted : b.backend.running = _ := h.counted
  rw [hcounted, unended, ← hlength]
  exact Nat.succ_pos _

/-! ## Whose end it is -/

/-- An execution and its record have one number. -/
theorem IsBooked.exists_record (h : b.IsBooked) {e : Execution} (he : b.executions[n]? = some e) :
    ∃ r, b.backend.records[n]? = some r ∧ r.id = e.id := by
  have hid : (b.backend.records.map Record.id)[n]? = some e.id := by
    rw [h.ids, List.getElem?_map, he]
    rfl
  rw [List.getElem?_map] at hid
  exact Option.map_eq_some_iff.1 hid

theorem IsBooked.exists_execution (h : b.IsBooked) {r : Record}
    (hr : b.backend.records[n]? = some r) : ∃ e, b.executions[n]? = some e ∧ e.id = r.id := by
  have hid : (b.executions.map Execution.id)[n]? = some r.id := by
    rw [← h.ids, List.getElem?_map, hr]
    rfl
  rw [List.getElem?_map] at hid
  exact Option.map_eq_some_iff.1 hid

/-- **A record is ended by a call on its own execution**, and by the first one, as long as the tasks
differ. -/
theorem Makes.ending? (hx : b.Makes x) (h : b.IsBooked)
    (hids : (b.backend.records.map Record.id).Nodup) (n : Nat) :
    (x.after.backend.records[n]?).bind Record.ending? =
      ((b.backend.records[n]?).bind Record.ending?).or (x.closing? n) := by
  cases hx with
  | idle _ hclosing => rw [hclosing, Option.or_none]
  | started =>
    -- The new record has no end, and neither had a missing one.
    have hnew : ∀ {rs : List Record} {r : Record}, r.endedAt = none →
        ((rs ++ [r])[n]?).bind Record.ending? = (rs[n]?).bind Record.ending? := by
      intro rs r hend
      rw [List.getElem?_append]
      split
      · rfl
      · next hle =>
        rw [List.getElem?_eq_none (Nat.le_of_not_lt hle), List.getElem?_singleton]
        split
        · simp [Record.ending?, hend]
        · rfl
    exact (hnew rfl).trans (Option.or_none).symm
  | @ended _ _ m clock e terminated he _ hclosing =>
    obtain ⟨r, hr, hid⟩ := h.exists_record he
    rw [hclosing]
    dsimp only
    rcases finish_cases b.backend clock e.id terminated with
      ⟨heq, hnone⟩ | ⟨i, r₀, hr₀, hid₀, hend, heq⟩
    · rw [heq]
      split
      · next hmn =>
        subst hmn
        obtain ⟨t, ht⟩ := Option.ne_none_iff_exists'.1 (hnone r (List.mem_of_getElem? hr) hid)
        simp [hr, Record.ending?, ht]
      · rw [Option.or_none]
    · have him : i = m := by
        refine (List.getElem?_inj ?_ hids).1 ?_
        · rw [List.length_map]
          exact (List.getElem?_eq_some_iff.1 hr₀).1
        · rw [List.getElem?_map, List.getElem?_map, hr₀, hr, Option.map_some, Option.map_some, hid₀,
            hid]
      subst him
      rw [heq, List.getElem?_set]
      split
      · next hin =>
        subst hin
        rw [if_pos (List.getElem?_eq_some_iff.1 hr₀).1, hr₀]
        simp [Record.ending?, hend]
      · rw [Option.or_none]

end Calls

/-! ## Many calls -/

section Runs

variable {b : Bench} {steps : List Step} {n : Nat}

theorem performAll_concat (b : Bench) (steps : List Step) (s : Step) :
    b.performAll (steps ++ [s]) = ((b.performAll steps).perform s).1 := by
  rw [performAll, List.foldl_append]
  rfl

theorem performAll_append (b : Bench) (steps later : List Step) :
    b.performAll (steps ++ later) = (b.performAll steps).performAll later := by
  rw [performAll, List.foldl_append]
  rfl

theorem session_concat (b : Bench) (steps : List Step) (s : Step) :
    b.session (steps ++ [s]) = b.session steps ++ [(b.performAll steps).exchange s] := by
  induction steps generalizing b with
  | nil => rfl
  | cons s' steps ih => exact congrArg _ (ih (b.perform s').1)

/-- **The books stay in order.** -/
theorem IsBooked.performAll (h : b.IsBooked) (steps : List Step) :
    (b.performAll steps).IsBooked := by
  induction steps generalizing b with
  | nil => exact h
  | cons s steps ih => exact ih ((b.makes_exchange s).isBooked h)

/-- Records last through all calls. -/
theorem exists_lasts_performAll {r : Record} (hr : b.backend.records[n]? = some r)
    (steps : List Step) :
    ∃ r', (b.performAll steps).backend.records[n]? = some r' ∧ r.Lasts r' := by
  induction steps generalizing b r with
  | nil => exact ⟨r, hr, .refl r⟩
  | cons s steps ih =>
    obtain ⟨r', hr', hlasts⟩ := (b.makes_exchange s).lasts hr
    obtain ⟨r'', hr'', hlasts'⟩ := ih hr'
    exact ⟨r'', hr'', hlasts.trans hlasts'⟩

/-- **The greatest count is one that there was**, and there was none greater. -/
theorem IsBooked.isGreatest (h : b.IsBooked) (hmax : b.backend.maxRunning = b.backend.running)
    (steps : List Step) : IsGreatest
      {n | ∃ earlier, earlier <+: steps ∧ n = (b.performAll earlier).backend.running}
      (b.performAll steps).backend.maxRunning := by
  induction steps using List.reverseRecOn with
  | nil =>
    constructor
    · exact ⟨[], List.prefix_rfl, hmax⟩
    · rintro n ⟨earlier, hearlier, rfl⟩
      rw [List.prefix_nil.1 hearlier]
      exact h.within
  | append_singleton steps s ih =>
    have hs := (b.performAll steps).makes_exchange s
    have hmaximum := hs.maxRunning (h.performAll steps).within
    change ((b.performAll steps).perform s).1.backend.maxRunning = _ at hmaximum
    rw [performAll_concat, hmaximum]
    constructor
    · rcases Nat.le_total (b.performAll steps).backend.maxRunning
          ((b.performAll steps).exchange s).after.backend.running with hle | hle
      · refine ⟨steps ++ [s], List.prefix_rfl, ?_⟩
        rw [Nat.max_eq_right hle, performAll_concat]
        rfl
      · obtain ⟨earlier, hearlier, hrunning⟩ := ih.1
        refine ⟨earlier, hearlier.trans (List.prefix_append _ _), ?_⟩
        rw [Nat.max_eq_left hle, hrunning]
    · rintro n ⟨earlier, hearlier, rfl⟩
      rcases List.prefix_concat_iff.1 hearlier with rfl | hearlier
      · rw [performAll_concat]
        exact Nat.le_max_right _ _
      · exact Nat.le_trans (ih.2 ⟨earlier, hearlier, rfl⟩) (Nat.le_max_left _ _)

/-- The records are those of tasks that were to be started, in this order. -/
theorem exists_sublist_starts (b : Bench) (steps : List Step) :
    ∃ ids : List TaskId, ids.Sublist (steps.filterMap Step.starts?) ∧
      (b.performAll steps).backend.records.map Record.id =
        b.backend.records.map Record.id ++ ids := by
  induction steps using List.reverseRecOn with
  | nil => exact ⟨[], List.Sublist.refl _, (List.append_nil _).symm⟩
  | append_singleton steps s ih =>
    obtain ⟨ids, hids, hrecords⟩ := ih
    obtain ⟨ids', hids', hrecords'⟩ := ((b.performAll steps).makes_exchange s).exists_starts
    refine ⟨ids ++ ids', ?_, ?_⟩
    · rw [List.filterMap_append]
      exact hids.append hids'
    · rw [performAll_concat, ← List.append_assoc, ← hrecords]
      exact hrecords'

/-- **A record has the end that was first brought about.** -/
theorem ending?_performAll (fallback : Script) (clock : Nat) {steps : List Step}
    (hids : (steps.filterMap Step.starts?).Nodup) (n : Nat) :
    (((fresh fallback clock).performAll steps).backend.records[n]?).bind Record.ending? =
      ((fresh fallback clock).session steps).findSome? (Exchange.closing? n) := by
  induction steps using List.reverseRecOn with
  | nil => rfl
  | append_singleton steps s ih =>
    rw [List.filterMap_append] at hids
    have hbefore := hids.of_append_left
    obtain ⟨ids, hsub, hrecords⟩ := exists_sublist_starts (fresh fallback clock) steps
    have hnodup : (((fresh fallback clock).performAll steps).backend.records.map
        Record.id).Nodup := by
      rw [hrecords]
      exact hbefore.sublist hsub
    have hbooked := (isBooked_fresh fallback clock).performAll steps
    rw [session_concat, List.findSome?_append, ← ih hbefore, performAll_concat,
      List.findSome?_singleton]
    exact (makes_exchange _ s).ending? hbooked hnodup n

/-- **The books are right** after any calls to a fresh backend. -/
theorem fresh_hasRightRecords (fallback : Script) (clock : Nat) (steps : List Step) :
    (fresh fallback clock).HasRightRecords steps where
  running := ((isBooked_fresh fallback clock).performAll steps).counted
  unsaturated := ((isBooked_fresh fallback clock).performAll steps).running_pos
  maxRunning := (isBooked_fresh fallback clock).isGreatest rfl steps
  lasting := by
    intro later n r hr
    rw [performAll_append]
    exact exists_lasts_performAll hr later
  ordered := fun r hr => (((isBooked_fresh fallback clock).performAll steps).ordered r hr).2
  settled := by
    intro hids n r hr
    have hbooked := (isBooked_fresh fallback clock).performAll steps
    have hending := ending?_performAll fallback clock hids n
    rw [hr, Option.bind_some] at hending
    refine ⟨hbooked.exists_execution hr, ?_⟩
    rw [← hending, Record.ending?]
    cases hend : r.endedAt with
    | none => exact ⟨rfl, hbooked.marked r (List.mem_of_getElem? hr) hend⟩
    | some t => exact ⟨rfl, rfl⟩

/-- An execution is ended from outside and waited for afterwards; another one is waited for and then
ended from outside. -/
def endedTwice : List Step :=
  [.start ⟨7⟩ { program := "p" }, .start ⟨3⟩ { program := "p" }, .terminate 0, .wait 0 none,
    .wait 1 none, .terminate 1]

/-- The first of the two calls counts. -/
theorem fresh_hasRightRecords_endedTwice : (endedTwice.filterMap Step.starts?).Nodup ∧
    ∃ r r', ((fresh (.exit 4 10) 0).performAll endedTwice).backend.records = [r, r'] ∧
      (r.endedAt = some 0 ∧ r.terminated = true) ∧
      r'.endedAt = some 10 ∧ r'.terminated = false := by
  have hids : (endedTwice.filterMap Step.starts?).Nodup := by decide
  have hbooks := fresh_hasRightRecords (.exit 4 10) 0 endedTwice
  obtain ⟨-, hr⟩ := hbooks.settled hids (n := 0) rfl
  obtain ⟨-, hr'⟩ := hbooks.settled hids (n := 1) rfl
  exact ⟨hids, _, _, rfl, hr, hr'⟩

end Runs

end Bench

end Scripted

end FolderTasks
