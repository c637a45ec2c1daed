import FolderTasks.Proofs.Dispatch.OutcomeLaw
import FolderTasks.Proofs.Dispatch.FactTimes
/-!
# Records and the facts about tasks

A record says when an execution started and when it ended.  Both moments are those of the facts that
were written down at the time, so the record of a task can be read off the story of the task once it
is known when its facts happened.

## Main definitions

* `World.IsDated`: the moments of the records are those of facts.
* `World.saga`: the facts about a task with their moments.
* `World.recordsFor`: the records of the executions for an entry.

## Main statements

* `World.Arises.isDated`: the moments of the records are those of facts, whatever happens.
* `World.IsDated.recordsOf_begun`, `World.IsDated.recordsOf_over`: what the backend recorded of a
  task whose story is known.
-/

namespace FolderTasks

/-- What is recorded after the end of an execution was recorded before, but for the end. -/
theorem Scripted.mem_records_finish {b : Scripted} {now : Nat} {id : TaskId} {terminated : Bool}
    {r' : Record} (h : r' ∈ (b.finish now id terminated).records) : r' ∈ b.records ∨
      ∃ r ∈ b.records, r.id = id ∧ r' = { r with endedAt := some now, terminated } := by
  unfold finish at h
  split at h
  · exact .inl h
  · next records hrecords =>
    change r' ∈ records at h
    generalize b.records = older at hrecords ⊢
    induction older generalizing records with
    | nil => exact absurd hrecords (by simp [finishRecord])
    | cons r older ih =>
      rw [finishRecord] at hrecords
      split at hrecords
      · next hr =>
        obtain rfl := Option.some.inj hrecords
        rcases List.mem_cons.1 h with rfl | hmem
        · exact .inr ⟨r, List.mem_cons_self, hr.1, rfl⟩
        · exact .inl (List.mem_cons_of_mem _ hmem)
      · obtain ⟨rest, hrest, rfl⟩ := Option.map_eq_some_iff.1 hrecords
        rcases List.mem_cons.1 h with rfl | hmem
        · exact .inl List.mem_cons_self
        · rcases ih rest hmem hrest with hold | ⟨r₁, hr₁, heq⟩
          · exact .inl (List.mem_cons_of_mem _ hold)
          · exact .inr ⟨r₁, List.mem_cons_of_mem _ hr₁, heq⟩

namespace Dispatch

namespace Happening

/-- Is it a fact about the time before the start of an execution? -/
def isEarly : Happening → Bool
  | .startAsked _ _ => true
  | _ => false

/-- Is it a fact about the end of an execution? -/
def isLate : Happening → Bool
  | .terminating _ | .ended _ _ _ | .endAnnounced _ _ _ => true
  | _ => false

/-- When a fact about a task is written down for which a start is asked at `b`, which is started at
`s` and over at `t`. -/
def momentOf (b s t : Nat) (x : Happening) : Nat :=
  if x.isLate then t else if x.isEarly then b else s

end Happening

namespace World

/-- **The moments of the records are those of facts.** -/
structure IsDated (w : World) : Prop where
  started : ∀ r ∈ w.backend.records,
    ∃ c, (r.startedAt, .started r.id c) ∈ w.history ∧ r.args = c.args
  ended : ∀ r ∈ w.backend.records, ∀ t ∈ r.endedAt,
    ∃ c code, (t, .ended r.id c code) ∈ w.history

/-- The facts about a task, each with its moment. -/
def saga (w : World) (id : TaskId) : List (Nat × Happening) :=
  w.timed fun x => if x.task? = some id then some x else none

/-- The records of the executions for an entry. -/
def recordsFor (w : World) (e : EntryId) : List Record :=
  w.backend.records.filter fun r => w.entryServed? r.id == some e

/-! ## Change by change -/

section Dated

variable {w w' : World}

namespace IsDated

theorem kept (h : w.IsDated) (hrecords : w'.backend.records = w.backend.records)
    (hhistory : w.history <:+ w'.history) : w'.IsDated where
  started r hr := by
    obtain ⟨c, hmem, hargs⟩ := h.started r (hrecords ▸ hr)
    exact ⟨c, hhistory.subset hmem, hargs⟩
  ended r hr t ht := by
    obtain ⟨c, code, hmem⟩ := h.ended r (hrecords ▸ hr) t ht
    exact ⟨c, code, hhistory.subset hmem⟩

/-- The backend starts a command, and that is written down. -/
theorem start (h : w.IsDated) {b : Scripted} {id : TaskId} {c : Command} {e : Execution}
    (hb : w.backend.start w.clock id c = .ok (b, e)) (hrecords : w'.backend.records = b.records)
    (hhistory : (w.clock, .started id c) :: w.history <:+ w'.history) : w'.IsDated := by
  have hold := (List.suffix_cons _ _).trans hhistory
  have hcases {r : Record} (hr : r ∈ w'.backend.records) : r ∈ w.backend.records ∨
      r = { id, args := c.args, startedAt := w.clock } := by
    rw [hrecords, (Scripted.start_eq_ok hb).1, List.mem_append, List.mem_singleton] at hr
    exact hr
  refine ⟨fun r hr => ?_, fun r hr t ht => ?_⟩
  · rcases hcases hr with hr | rfl
    · obtain ⟨c', hmem, hargs⟩ := h.started r hr
      exact ⟨c', hold.subset hmem, hargs⟩
    · exact ⟨c, hhistory.subset List.mem_cons_self, rfl⟩
  · rcases hcases hr with hr | rfl
    · obtain ⟨c', code, hmem⟩ := h.ended r hr t ht
      exact ⟨c', code, hold.subset hmem⟩
    · exact absurd ht (by simp)

/-- An execution ends, and that is written down. -/
theorem finish (h : w.IsDated) {id : TaskId} {terminated : Bool} {c : Command} {code : Option Int32}
    (hbackend : w'.backend = w.backend.finish w.clock id terminated)
    (hhistory : w.history <:+ w'.history) (hmem : (w.clock, .ended id c code) ∈ w'.history) :
    w'.IsDated := by
  refine ⟨fun r hr => ?_, fun r hr t ht => ?_⟩ <;>
    rcases Scripted.mem_records_finish (hbackend ▸ hr) with hr | ⟨r, hold, rfl, rfl⟩
  · obtain ⟨c', hfact, hargs⟩ := h.started r hr
    exact ⟨c', hhistory.subset hfact, hargs⟩
  · obtain ⟨c', hfact, hargs⟩ := h.started r hold
    exact ⟨c', hhistory.subset hfact, hargs⟩
  · obtain ⟨c', code', hfact⟩ := h.ended r hr t ht
    exact ⟨c', code', hhistory.subset hfact⟩
  · obtain rfl := Option.some.inj ht
    exact ⟨c, code, hmem⟩

end IsDated

theorem Stride.isDated (hs : Stride w w') (h : w.IsDated) : w'.IsDated := by
  have hhistory := hs.lasts.history
  cases hs with
  | rejected | guardTaken | turnedAway | lineLeft | startAsked | startDelayed | forsaken
  | timerCleared => exact h.kept rfl hhistory
  | lineJoined | endAwaited =>
    exact h.kept (congrArg Account.records (adds_listen _ _ _).account) hhistory
  | unlistened j token =>
    exact h.kept (congrArg Account.records (adds_unlisten w token j).account) hhistory
  | guardReturned =>
    exact h.kept (congrArg Account.records (adds_releaseGuard w).account) hhistory
  | refused =>
    exact h.kept (congrArg Account.records (adds_releaseGuard _).account) hhistory
  | @started call id b execution hcall hb =>
    refine h.start hb (congrArg Account.records (adds_releaseGuard _).account) ?_
    refine List.IsSuffix.trans ?_ (List.suffix_cons _ _)
    exact (lasts_releaseGuard (O := []) (((w.setBackend b).note
      (.started id call.command)).setPosition call.job (.running id execution))).history
  | completed hcall hd =>
    exact h.finish rfl hhistory (List.mem_cons_of_mem _ List.mem_cons_self)
  | terminated hcall hd hc =>
    exact h.finish rfl hhistory (List.mem_cons_of_mem _ List.mem_cons_self)

/-- **The moments of the records are those of facts**, whatever happens. -/
theorem Arises.isDated (hw : Arises w) : w.IsDated := by
  refine hw.induction (fun s => ?_) fun {w w'} hw h hc => ?_
  · exact ⟨fun r hr => absurd hr List.not_mem_nil, fun r hr => absurd hr List.not_mem_nil⟩
  · have hquiet (hq : Quiet w w') : w'.IsDated :=
      h.kept (congrArg Account.records hq.account) hq.history
    cases hc with
    | deed hd => exact hquiet hd.quiet
    | drift hd => exact hquiet hd.quiet
    | telling ht => exact hquiet ht.quiet
    | stride hs => exact hs.isDated h
    | closing hc => exact hquiet (hc.quiet hw.isOrderly hw.isNumbered.idle)

end Dated

/-! ## What is read off a story -/

section Sagas

variable {w w' : World} {id : TaskId} {e : EntryId}

theorem mem_saga {p : Nat × Happening} : p ∈ w.saga id ↔ p ∈ w.history ∧ p.2.task? = some id := by
  obtain ⟨t, x⟩ := p
  rw [saga, mem_timed]
  constructor
  · rintro ⟨y, hmem, hy⟩
    split at hy
    · next htask =>
      obtain rfl := Option.some.inj hy
      exact ⟨hmem, htask⟩
    · exact absurd hy (by simp)
  · rintro ⟨hmem, htask⟩
    exact ⟨x, hmem, if_pos htask⟩

/-- What is added to the story of a task is added with its moment. -/
theorem Stamps.saga_eq (h : Stamps w w') {more : List Happening}
    (hannals : w'.annals id = w.annals id ++ more) :
    w'.saga id = w.saga id ++ more.map (w.clock, ·) := h.timed_eq hannals

namespace IsDated

variable {c : Command} {ch : Chapter} {b s t : Nat} (hd : w.IsDated) (ht : w.Tells id c ch)
variable (hmoments : ∀ p ∈ w.saga id, p.1 = p.2.momentOf b s t)

include hd ht hmoments

/-- The record of a task says when it was started, and of which arguments. -/
theorem startedAt_eq {r : Record} (hr : w.backend.recordsOf id = [r]) :
    r.id = id ∧ r.args = c.args ∧ r.startedAt = s := by
  have hmem : r ∈ w.backend.recordsOf id := by rw [hr]; exact List.mem_cons_self
  obtain ⟨hrecord, hid⟩ := List.mem_filter.1 hmem
  obtain rfl := of_decide_eq_true hid
  obtain ⟨c', hfact, hargs⟩ := hd.started r hrecord
  have hannals : .started r.id c' ∈ w.annals r.id := (mem_annals rfl).2 ⟨_, hfact⟩
  rw [ht.annals] at hannals
  obtain rfl : c' = c := by cases ch <;> simp [Chapter.facts] at hannals <;> exact hannals
  exact ⟨rfl, hargs, hmoments _ (mem_saga.2 ⟨hfact, rfl⟩)⟩

/-- **The record of a task that runs.** -/
theorem recordsOf_begun (hch : ch = .begun) :
    w.backend.recordsOf id = [{ id, args := c.args, startedAt := s }] := by
  obtain ⟨r, hr, hend, hterminated⟩ := exists_record_of_begun (hch ▸ ht.filed)
  obtain ⟨hid, hargs, hstarted⟩ := hd.startedAt_eq ht hmoments hr
  obtain ⟨id', args, startedAt, endedAt, terminated⟩ := r
  obtain rfl : id' = id := hid
  obtain rfl : args = c.args := hargs
  obtain rfl : startedAt = s := hstarted
  obtain rfl : endedAt = none := hend
  obtain rfl : terminated = false := hterminated
  exact hr

/-- **The record of a task that is over.** -/
theorem recordsOf_over {terminated : Bool} (hfiled : ch.filed = [(true, terminated)]) :
    w.backend.recordsOf id =
      [{ id, args := c.args, startedAt := s, endedAt := some t, terminated }] := by
  obtain ⟨r, hr, hend, hterminated⟩ := exists_record (ht.filed.trans hfiled)
  obtain ⟨hid, hargs, hstarted⟩ := hd.startedAt_eq ht hmoments hr
  have hmem : r ∈ w.backend.recordsOf id := by rw [hr]; exact List.mem_cons_self
  obtain ⟨id', args, startedAt, endedAt, terminated'⟩ := r
  obtain rfl : id' = id := hid
  obtain rfl : args = c.args := hargs
  obtain rfl : startedAt = s := hstarted
  obtain rfl : terminated' = terminated := hterminated
  obtain ⟨t', rfl⟩ := Option.isSome_iff_exists.1 hend
  obtain ⟨c', code, hfact⟩ := hd.ended _ (List.mem_filter.1 hmem).1 t' rfl
  obtain rfl : t' = t := hmoments _ (mem_saga.2 ⟨hfact, rfl⟩)
  exact hr

end IsDated

/-- The records for an entry are those of the task that serves it. -/
theorem Serves.recordsFor (hw : Arises w) (h : w.Serves id e) :
    w.recordsFor e = w.backend.recordsOf id := by
  refine List.filter_congr fun r _ => ?_
  rw [Bool.eq_iff_iff, beq_iff_eq, decide_eq_true_iff]
  constructor
  · exact fun hserved => h.id_unique hw (serves_of_entryServed? hserved)
  · rintro rfl
    exact h.entryServed? hw.isNumbered

/-- There are none for an entry that no task serves. -/
theorem recordsFor_eq_nil (h : ∀ id, ¬ w.Serves id e) : w.recordsFor e = [] := by
  refine List.filter_eq_nil_iff.2 fun r _ hserved => ?_
  exact h r.id (serves_of_entryServed? (beq_iff_eq.1 hserved))

end Sagas

end World

end Dispatch

end FolderTasks
