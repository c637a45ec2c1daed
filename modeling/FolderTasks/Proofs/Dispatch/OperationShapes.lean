import FolderTasks.Proofs.Dispatch.ElementaryChanges
/-!
# What the operations touch

Many operations on a world touch a few parts of it and leave all others alone.  Here each of them
is written as an update of just the parts that it touches, so that every statement about the other
parts is read off.

## Main statements

* `World.wakeAll_eq`, `World.listen_eq`, `World.unlisten_eq`, `World.cancel_eq`: what only touches
  the line of jobs and the tokens.
* `World.releaseGuard_eq`: passing the right to start on.
* `World.request_eq`: a request is absorbed, or appended and perhaps dispatched.
* `World.deliver_eq`: an outcome gets known.
* `World.getElem?_setPosition`: the jobs after one of them was moved.
* `World.getElem?_jobs_spawn`, `World.mem_ready_spawn`: the jobs, and those that are ready, after
  one was begun.
-/

namespace FolderTasks.Dispatch

/-- What stands in two lists together stands in the first, or behind it. -/
theorem getElem?_append_cases {α : Type} {l l' : List α} {i : Nat} {a : α}
    (h : (l ++ l')[i]? = some a) : l[i]? = some a ∨ l.length ≤ i ∧ a ∈ l' := by
  rcases Nat.lt_or_ge i l.length with hlt | hge
  · exact .inl (List.getElem?_append_left hlt ▸ h)
  · exact .inr ⟨hge, List.mem_of_getElem? (List.getElem?_append_right hge ▸ h)⟩

/-- What stands in a list with one more item stood there before, or is the new one. -/
theorem getElem?_concat_cases {α : Type} {l : List α} {i : Nat} {a b : α}
    (h : (l ++ [b])[i]? = some a) : l[i]? = some a ∨ i = l.length ∧ a = b := by
  rcases getElem?_append_cases h with hold | ⟨hge, hnew⟩
  · exact .inl hold
  · have hlt := (List.getElem?_eq_some_iff.1 h).1
    rw [List.length_append, List.length_singleton] at hlt
    exact .inr ⟨Nat.le_antisymm (Nat.le_of_lt_succ hlt) hge, List.mem_singleton.1 hnew⟩

/-- The right to start after it was passed on to the first in line. -/
def StartGuard.passOn (g : StartGuard) : StartGuard := ⟨g.line.head?, g.line.tail⟩

namespace World

/-! ## The line of jobs, tokens and timers -/

theorem wake_eq (w : World) (j : JobId) : ∃ ready, w.wake j = { w with ready } := by
  unfold wake
  split
  · exact ⟨w.ready, rfl⟩
  · exact ⟨_, rfl⟩

theorem wakeAll_eq (js : List JobId) (w : World) : ∃ ready, w.wakeAll js = { w with ready } := by
  induction js generalizing w with
  | nil => exact ⟨w.ready, rfl⟩
  | cons j js ih =>
    obtain ⟨ready, h⟩ := wake_eq w j
    obtain ⟨ready', h'⟩ := ih { w with ready }
    exact ⟨ready', by rw [wakeAll, List.foldl_cons, h]; exact h'⟩

theorem listen_eq (w : World) (token : Option String) (j : JobId) :
    ∃ tokens, w.listen token j = { w with tokens } := by
  cases token with
  | none => exact ⟨w.tokens, rfl⟩
  | some name => exact ⟨_, rfl⟩

theorem unlisten_eq (w : World) (token : Option String) (j : JobId) :
    ∃ tokens, w.unlisten token j = { w with tokens } := by
  cases token with
  | none => exact ⟨w.tokens, rfl⟩
  | some name => exact ⟨_, rfl⟩

/-- What is kept under one name does not depend on another. -/
theorem lookup_forget {α : Type} (entries : List (String × α)) {name other : String}
    (h : other ≠ name) :
    (entries.filter fun e => e.1 != name).lookup other = entries.lookup other := by
  induction entries with
  | nil => rfl
  | cons e entries ih =>
    by_cases he : e.1 = name
    · have hother : (other == e.1) = false := by rw [he]; exact beq_eq_false_iff_ne.2 h
      rw [List.filter_cons_of_neg (by simp [he]), ih, List.lookup_cons, hother]
    · rw [List.filter_cons_of_pos (by simp [he]), List.lookup_cons, List.lookup_cons, ih]

theorem token_setToken (w : World) (name other : String) (t : Token) :
    (w.setToken name t).token other = if other = name then t else w.token other := by
  unfold token setToken
  by_cases h : other = name
  · rw [if_pos h, h, List.lookup_cons_self, Option.getD_some]
  · rw [if_neg h, List.lookup_cons, beq_eq_false_iff_ne.2 h, lookup_forget _ h]

/-- Nobody is cancelled because a job listens. -/
theorem isCancelled_listen (w : World) (token other : Option String) (j : JobId) :
    (w.listen token j).isCancelled other = w.isCancelled other := by
  cases token with
  | none => rfl
  | some name =>
    cases other with
    | none => rfl
    | some other =>
      simp only [listen, isCancelled, token_setToken]
      split
      · next h => rw [h]
      · rfl

/-- Nobody is cancelled because a job stops listening. -/
theorem isCancelled_unlisten (w : World) (token other : Option String) (j : JobId) :
    (w.unlisten token j).isCancelled other = w.isCancelled other := by
  cases token with
  | none => rfl
  | some name =>
    cases other with
    | none => rfl
    | some other =>
      simp only [unlisten, isCancelled, token_setToken]
      split
      · next h => rw [h]
      · rfl

/-- Whoever stops listening notices of an execution what he noticed before. -/
theorem seesEnd_unlisten (w : World) (call : Call) (token : Option String) (id : TaskId)
    (e : Execution) (j : JobId) :
    (w.unlisten token j).seesEnd call id e = w.seesEnd call id e := by
  have hcancelled := isCancelled_unlisten w token call.token j
  obtain ⟨tokens, heq⟩ := unlisten_eq w token j
  rw [heq] at hcancelled ⊢
  rw [seesEnd, seesEnd, hcancelled]

theorem cancel_eq (w : World) (name : String) :
    ∃ tokens ready, w.cancel name = { w with tokens, ready } := by
  unfold cancel
  dsimp only
  split
  · exact ⟨w.tokens, w.ready, rfl⟩
  · obtain ⟨ready, h⟩ := wakeAll_eq (w.token name).waiters (w.setToken name { isCancelled := true })
    exact ⟨_, ready, h⟩

theorem releaseGuard_eq (w : World) :
    ∃ ready, w.releaseGuard =
      { w with manager := { w.manager with guard := w.manager.guard.passOn }, ready } := by
  unfold releaseGuard
  split
  · next h => exact ⟨w.ready, by rw [StartGuard.passOn, h]; rfl⟩
  · next next line h =>
    obtain ⟨ready, hw⟩ := wake_eq (w.setGuard ⟨some next, line⟩) next
    exact ⟨ready, by rw [hw, StartGuard.passOn, h]; rfl⟩

theorem dropExecution_eq (w : World) (call : Call) :
    ∃ tokens timers ready g, w.dropExecution call =
      { w with tokens, timers, manager := { w.manager with guard := g }, ready } := by
  obtain ⟨tokens, hunlisten⟩ := unlisten_eq w call.token call.job
  obtain ⟨ready, hrelease⟩ := releaseGuard_eq ((w.unlisten call.token call.job).clearTimer call.job)
  unfold dropExecution
  dsimp only
  rw [hrelease, hunlisten]
  split
  · split
    · exact ⟨_, _, _, _, rfl⟩
    · exact ⟨_, _, _, _, rfl⟩
  · exact ⟨_, _, _, _, rfl⟩
  · exact ⟨_, _, _, w.manager.guard, rfl⟩

theorem fire_eq (w : World) (t : Timer) :
    ∃ timers ready, w.fire t = { w with clock := max w.clock t.deadline, timers, ready } := by
  obtain ⟨ready, h⟩ := wakeAll_eq
    ((w.timers.takeWhile fun u => u.deadline ≤ t.deadline).map Timer.job)
    { w with clock := max w.clock t.deadline
             timers := w.timers.dropWhile fun u => u.deadline ≤ t.deadline }
  exact ⟨_, ready, h⟩

/-! ## Jobs -/

theorem getElem?_setPosition (w : World) (j k : JobId) (p : Position) :
    (w.setPosition j p).jobs[k]? =
      (w.jobs[k]?).map fun job => if j = k then { job with position := p } else job := by
  rw [setPosition, modifyJob, List.getElem?_modify]
  by_cases h : j = k <;> simp [h]

section Spawned

variable {w : World} {j : JobId}

theorem length_jobs_spawn (w : World) (errand : Errand) :
    (w.spawn errand).1.jobs.length = w.jobs.length + 1 := by simp [World.spawn]

theorem lt_length_jobs_spawn (errand : Errand) (hj : j < w.jobs.length) :
    j < (w.spawn errand).1.jobs.length :=
  length_jobs_spawn w errand ▸ Nat.lt_succ_of_lt hj

/-- A job is one of those that were there, or it is the one that was begun. -/
theorem getElem?_jobs_spawn {errand : Errand} {job : Job}
    (hj : (w.spawn errand).1.jobs[j]? = some job) :
    w.jobs[j]? = some job ∨ j = w.jobs.length ∧ job = { errand } :=
  getElem?_concat_cases hj

/-- A job that is begun is ready, and no other one becomes ready by that. -/
theorem mem_ready_spawn {errand : Errand} :
    j ∈ (w.spawn errand).1.ready ↔ j ∈ w.ready ∨ j = w.jobs.length :=
  List.mem_append.trans (or_congr_right List.mem_singleton)

/-- Among the jobs that were there, a job that is begun makes none ready. -/
theorem mem_ready_spawn_of_lt (errand : Errand) (hj : j < w.jobs.length) :
    j ∈ (w.spawn errand).1.ready ↔ j ∈ w.ready :=
  mem_ready_spawn.trans (or_iff_left (Nat.ne_of_lt hj))

theorem ready_lt_spawn (hbound : ∀ a ∈ w.ready, a < w.jobs.length) (errand : Errand) :
    ∀ a ∈ (w.spawn errand).1.ready, a < (w.spawn errand).1.jobs.length := by
  intro a ha
  rcases mem_ready_spawn.1 ha with ha | rfl
  · exact lt_length_jobs_spawn errand (hbound a ha)
  · exact length_jobs_spawn w errand ▸ Nat.lt_succ_self _

/-- A job that is begun becomes ready once. -/
theorem nodup_ready_spawn (hbound : ∀ a ∈ w.ready, a < w.jobs.length) (hnodup : w.ready.Nodup)
    (errand : Errand) : (w.spawn errand).1.ready.Nodup := by
  refine List.nodup_append.2 ⟨hnodup, List.pairwise_singleton .., ?_⟩
  intro a ha b hb
  rw [List.mem_singleton.1 hb]
  exact Nat.ne_of_lt (hbound a ha)

end Spawned

theorem abandonJob_eq (w : World) (j : JobId) :
    (w.abandonJob j).1 = w ∨
      ∃ ready, (w.abandonJob j).1 = { w with
        jobs := w.jobs.modify j fun job => { job with isAbandoned := true }, ready } := by
  unfold abandonJob
  split
  · exact .inl rfl
  · refine .inr ?_
    dsimp only
    split
    · exact ⟨w.ready, rfl⟩
    · exact wake_eq _ j

/-! ## Requests -/

theorem dispatch_eq (w : World) (q : QueueId) :
    w.dispatch q = w ∨
      ∃ queue e rest, w.queues[q]? = some queue ∧ queue.active = none ∧
        queue.pending = e :: rest ∧
        w.dispatch q = { w with
          queues := w.queues.modify q fun queue =>
            { queue with active := some e, pending := rest }
          history := (w.clock, .dispatched e) :: w.history
          jobs := w.jobs ++ [{ errand := .operation e }]
          ready := w.ready ++ [w.jobs.length] } := by
  unfold dispatch
  split
  · next name isRecorded e rest isWithheld h =>
    exact .inr ⟨_, e, rest, h, rfl, rfl, rfl⟩
  · exact .inl rfl

/-- A request changes nothing if there is no queue; else it is absorbed, or becomes an entry that
is dispatched if it can be. -/
theorem request_eq (w : World) (q : QueueId) (op : Operation) (token : Option String) :
    (w.request q op token).1 = w ∨
      (∃ queue e, w.queues[q]? = some queue ∧ w.absorber? queue op = some e ∧
        w.request q op token = (w.note (.absorbed e queue.name op.key), e)) ∨
      ∃ queue, w.queues[q]? = some queue ∧ w.absorber? queue op = none ∧
        w.request q op token =
          ((w.append q queue op token).1.dispatch q, w.entries.length) := by
  unfold request
  split
  · exact .inl rfl
  · next queue hq =>
    split
    · next e he => exact .inr (.inl ⟨queue, e, hq, he, rfl⟩)
    · next he => exact .inr (.inr ⟨queue, hq, he, rfl⟩)

/-! ## Outcomes -/

/-- When the outcome of an entry gets known, it is written down, and whoever waits for it is
woken. -/
theorem deliver_eq (w : World) (e : EntryId) (o : Outcome) :
    w.deliver e o = w ∨ ∃ ready, w.deliver e o = { (w.modifyEntry e fun entry =>
      { entry with outcome := some o }).note (.resolved e o) with ready } := by
  unfold deliver
  split
  · exact .inl rfl
  · exact .inr (wakeAll_eq _ _)

end World

end FolderTasks.Dispatch
