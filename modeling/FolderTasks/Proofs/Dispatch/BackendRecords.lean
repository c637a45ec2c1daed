import FolderTasks.Proofs.Dispatch.TaskNumbers
/-!
# What the backend records

As long as no observer panics when it is told of a start and nobody gives up a command that is
executed past all queues, a record without an end belongs to a job that waits for the execution to
end.  So the backend runs just what is waited for, and when a job has come further its execution
has ended.

## Main definitions

* `World.IsUndisturbed`: no observer panicked at a start, and no execution past all queues was
  given up.
* `World.IsRecorded`: the records agree with the jobs.

## Main statements

* `World.Arises.isRecorded`: in an undisturbed world they agree.
-/

namespace FolderTasks.Dispatch

/-- Does an errand execute a command past all queues? -/
def Errand.isExecution : Errand → Bool
  | .execution _ _ _ => true
  | .operation _ | .reset _ _ _ | .watch _ _ | .reopen _ _ => false

/-- Is it a fact that an observer panicked when it was told of a start? -/
def Happening.isStartPanic : Happening → Bool
  | .observerPanicked .start _ => true
  | _ => false

/-- Has the backend answered the start request of a job? -/
def Position.isPastAnswer : Position → Bool
  | .fresh | .inLine _ | .starting _ => false
  | .running _ _ | .telling | .awaiting _ _ | .done => true

theorem Position.isPastAnswer_of_isIdle {p : Position} (h : p.isIdle) : p.isPastAnswer := by
  cases p <;> first | rfl | exact Bool.noConfusion h

theorem Errand.isExecution_of_isCall {errand : Errand} (hcall : errand.isCall)
    (hnamed : errand.isNamed) : errand.isExecution := by
  cases errand <;> first | rfl | exact Bool.noConfusion hcall | exact Bool.noConfusion hnamed

namespace World

/-- **Nothing disturbs the executions**: no observer panics when it is told of a start, and no
execution past all queues is given up. -/
structure IsUndisturbed (w : World) : Prop where
  observers : ∀ p ∈ w.history, p.2.isStartPanic = false
  callers : ∀ job ∈ w.jobs, job.errand.isExecution → job.isAbandoned = false

/-- **The records agree with the jobs.** -/
structure IsRecorded (w : World) : Prop where
  ids : (w.account.records.map Record.id).Nodup
  owner : ∀ r ∈ w.account.records, ∃ j errand p,
    (r.id, j) ∈ w.account.numbered ∧ w.At j errand p ∧ p.isPastAnswer
  /-- What runs is waited for. -/
  awaited : ∀ r ∈ w.account.records, r.endedAt = none → ∃ j errand e, w.At j errand (.running r.id e)
  running : ∀ {j : JobId} {errand : Errand} {id : TaskId} {e : Execution},
    w.At j errand (.running id e) → ∃ r ∈ w.account.records, r.id = id ∧ r.endedAt = none
  count : w.account.running = (w.account.records.filter fun r => r.endedAt.isNone).length
  /-- Nothing is started that was not asked for. -/
  starting : ∀ {j : JobId} {errand : Errand} {id : TaskId}, w.At j errand (.starting id) →
    ∃ t c, (t, .startAsked id c) ∈ w.history ∧ t ≤ w.clock
  asked : ∀ r ∈ w.account.records, ∃ t c, (t, .startAsked r.id c) ∈ w.history ∧ t ≤ r.startedAt
  /-- No execution ends before it starts. -/
  ended : ∀ r ∈ w.account.records, r.startedAt ≤ w.clock ∧ ∀ t, r.endedAt = some t →
    r.startedAt ≤ t ∧ t ≤ w.clock ∧ ∃ c code, (t, .ended r.id c code) ∈ w.history

/-! ## What was undisturbed before -/

section Undisturbed

variable {w w' : World}

theorem Moves.exists_job {call : Call} {p p' : Position} (h : Moves w w' call p p') {job : Job}
    (hjob : job ∈ w.jobs) : ∃ job' ∈ w'.jobs, job'.errand = job.errand ∧
      job'.isAbandoned = job.isAbandoned := by
  obtain ⟨j, hj⟩ := List.mem_iff_getElem?.1 hjob
  have hj' : w'.jobs[j]? = some (if call.job = j then { job with position := p' } else job) := by
    rw [h.jobs, getElem?_setPosition, hj, Option.map_some]
  refine ⟨_, List.mem_of_getElem? hj', ?_⟩
  split <;> exact ⟨rfl, rfl⟩

/-- What is undisturbed was so all the time. -/
theorem Stage.isUndisturbed (hs : Stage w w') (h : IsUndisturbed w') : IsUndisturbed w := by
  have hmoves {call : Call} {p p' : Position} (hm : Moves w w' call p p') : IsUndisturbed w := by
    refine ⟨fun p hp => h.observers p (hm.history.subset hp), fun job hjob hexecution => ?_⟩
    obtain ⟨job', hjob', herrand, hgiven⟩ := hm.exists_job hjob
    rw [← hgiven]
    exact h.callers job' hjob' (herrand ▸ hexecution)
  cases hs with
  | quiet hq =>
    refine ⟨fun p hp => h.observers p (hq.history.subset hp), fun job hjob hexecution => ?_⟩
    obtain ⟨j, hj⟩ := List.mem_iff_getElem?.1 hjob
    obtain ⟨job', hj', hsettles⟩ := hq.forth hj
    have hgiven := h.callers job' (List.mem_of_getElem? hj') (hsettles.errand ▸ hexecution)
    cases habandoned : job.isAbandoned with
    | false => rfl
    | true => rw [hsettles.given habandoned] at hgiven; exact hgiven
  | dropped hm => exact hmoves hm
  | numbered hm => exact hmoves hm
  | asked hm => exact hmoves hm
  | started hm => exact hmoves hm
  | ended hm => exact hmoves hm

/-- In an undisturbed world a quiet change leaves a job alone that takes part in an execution. -/
theorem Quiet.at_of_id (hq : Quiet w w') (hn : IsNumbered w) (hu : IsUndisturbed w) {j : JobId}
    {errand : Errand} {p : Position} {id : TaskId} (hat : w.At j errand p)
    (hid : p.id? = some id) : w'.At j errand p := by
  obtain ⟨given, hj⟩ := hat
  obtain ⟨job', hj', hsettles⟩ := hq.forth hj
  obtain ⟨errand', p', hat', hcall, -⟩ := hn.owner (hn.current ⟨given, hj⟩ hid)
  have herrand : errand = errand' := (At.unique ⟨given, hj⟩ hat').1
  refine ⟨job'.isAbandoned, ?_⟩
  rcases hsettles.position with hposition | ⟨-, hnone | ⟨hgiven, hnamed⟩⟩
  · rw [hj', show errand = job'.errand from hsettles.errand.symm,
      show p = job'.position from hposition.symm]
  · exact absurd (hid.symm.trans hnone) (by simp)
  · have hexecution := Errand.isExecution_of_isCall (herrand ▸ hcall) hnamed
    have hkept := hu.callers _ (List.mem_of_getElem? hj) hexecution
    rw [hgiven] at hkept
    exact absurd hkept (by simp)

/-- While a job moves that the backend has not answered, those that it has answered stay. -/
theorem Moves.at_of_isPastAnswer {call : Call} {p p' : Position} (hm : Moves w w' call p p')
    (hp : p.isPastAnswer = false) {j : JobId} {errand : Errand} {p₀ : Position}
    (hat : w.At j errand p₀) (hpast : p₀.isPastAnswer) : w'.At j errand p₀ := by
  refine hm.stays ?_ hat
  rintro rfl
  exact absurd hpast (by simp [hp])

/-- What was asked for by a moment was asked for by every later one. -/
theorem asked_mono (hhistory : w.history <:+ w'.history) {id : TaskId} {now now' : Nat}
    (hnow : now ≤ now') (h : ∃ t c, (t, .startAsked id c) ∈ w.history ∧ t ≤ now) :
    ∃ t c, (t, .startAsked id c) ∈ w'.history ∧ t ≤ now' := by
  obtain ⟨t, c, hmem, ht⟩ := h
  exact ⟨t, c, hhistory.subset hmem, ht.trans hnow⟩

/-- What a record says of the past stays true. -/
theorem ended_mono (hhistory : w.history <:+ w'.history) (hclock : w.clock ≤ w'.clock) {r : Record}
    (h : r.startedAt ≤ w.clock ∧ ∀ t, r.endedAt = some t →
      r.startedAt ≤ t ∧ t ≤ w.clock ∧ ∃ c code, (t, .ended r.id c code) ∈ w.history) :
    r.startedAt ≤ w'.clock ∧ ∀ t, r.endedAt = some t →
      r.startedAt ≤ t ∧ t ≤ w'.clock ∧ ∃ c code, (t, .ended r.id c code) ∈ w'.history := by
  obtain ⟨hstart, hend⟩ := h
  refine ⟨hstart.trans hclock, fun t ht => ?_⟩
  obtain ⟨hle, hnow, c, code, hmem⟩ := hend t ht
  exact ⟨hle, hnow.trans hclock, c, code, hhistory.subset hmem⟩

end Undisturbed

/-! ## Change by change -/

namespace IsRecorded

variable {w w' : World}

/-- A change that leaves the records and everything that runs alone. -/
theorem of_records (h : IsRecorded w) (hrecords : w'.account.records = w.account.records)
    (hrunning : w'.account.running = w.account.running)
    (hnumbered : ∀ p ∈ w.account.numbered, p ∈ w'.account.numbered)
    (hclock : w.clock ≤ w'.clock) (hhistory : w.history <:+ w'.history)
    (howner : ∀ {j : JobId} {errand : Errand} {p : Position}, w.At j errand p → p.isPastAnswer →
      ∃ p', w'.At j errand p' ∧ p'.isPastAnswer)
    (hforth : ∀ {j : JobId} {errand : Errand} {id : TaskId} {e : Execution},
      w.At j errand (.running id e) → w'.At j errand (.running id e))
    (hback : ∀ {j : JobId} {errand : Errand} {id : TaskId} {e : Execution},
      w'.At j errand (.running id e) → w.At j errand (.running id e))
    (hstarting : ∀ {j : JobId} {errand : Errand} {id : TaskId}, w'.At j errand (.starting id) →
      w.At j errand (.starting id) ∨ ∃ t c, (t, .startAsked id c) ∈ w'.history ∧ t ≤ w'.clock) :
    IsRecorded w' where
  ids := by rw [hrecords]; exact h.ids
  owner r hr := by
    rw [hrecords] at hr
    obtain ⟨j, errand, p, hj, hat, hp⟩ := h.owner r hr
    obtain ⟨p', hat', hp'⟩ := howner hat hp
    exact ⟨j, errand, p', hnumbered _ hj, hat', hp'⟩
  awaited r hr hend := by
    rw [hrecords] at hr
    obtain ⟨j, errand, e, hat⟩ := h.awaited r hr hend
    exact ⟨j, errand, e, hforth hat⟩
  running hat := by
    rw [hrecords]
    exact h.running (hback hat)
  count := by rw [hrunning, hrecords, h.count]
  starting hat := by
    rcases hstarting hat with hat | hasked
    · exact asked_mono hhistory hclock (h.starting hat)
    · exact hasked
  asked r hr := by
    rw [hrecords] at hr
    exact asked_mono hhistory (Nat.le_refl _) (h.asked r hr)
  ended r hr := by
    rw [hrecords] at hr
    exact ended_mono hhistory hclock (h.ended r hr)

theorem quiet (h : IsRecorded w) (hn : IsNumbered w) (hu : IsUndisturbed w) (hq : Quiet w w') :
    IsRecorded w' := by
  refine h.of_records (by rw [hq.account]) (by rw [hq.account])
    (fun p hp => by rw [hq.account]; exact hp) hq.clock hq.history ?_
    (fun hat => hq.at_of_id hn hu hat rfl) ?_ ?_
  · intro j errand p hat hp
    obtain ⟨p', hat', rfl | hidle⟩ := hq.at_forth hat
    · exact ⟨p', hat', hp⟩
    · exact ⟨p', hat', Position.isPastAnswer_of_isIdle hidle⟩
  · intro j errand id e hat'
    rcases hq.at_back hat' with hfresh | ⟨p, hat, hp | hidle⟩
    · exact absurd hfresh (by simp)
    · rwa [hp]
    · exact absurd hidle (by simp [Position.isIdle])
  · intro j errand id hat'
    rcases hq.at_back hat' with hfresh | ⟨p, hat, hp | hidle⟩
    · exact absurd hfresh (by simp)
    · exact .inl (hp ▸ hat)
    · exact absurd hidle (by simp [Position.isIdle])

/-- A job that the backend has not answered moves, but not to wait for an execution. -/
theorem moves (h : IsRecorded w) {call : Call} {p p' : Position} (hm : Moves w w' call p p')
    (hrecords : w'.account.records = w.account.records)
    (hrunning : w'.account.running = w.account.running)
    (hnumbered : ∀ p ∈ w.account.numbered, p ∈ w'.account.numbered)
    (hp : p.isPastAnswer = false) (hp' : ∀ id e, p' ≠ .running id e)
    (hstarting : ∀ id, p' = .starting id →
      ∃ t c, (t, .startAsked id c) ∈ w'.history ∧ t ≤ w'.clock) : IsRecorded w' := by
  refine h.of_records hrecords hrunning hnumbered (Nat.le_of_eq hm.clock.symm) hm.history
    (fun hat hpast => ⟨_, hm.at_of_isPastAnswer hp hat hpast, hpast⟩)
    (fun hat => hm.at_of_isPastAnswer hp hat rfl) ?_ ?_
  · intro j errand id e hat'
    rcases hm.back hat' with ⟨-, heq, -⟩ | ⟨-, hat⟩
    · exact absurd heq.symm (hp' id e)
    · exact hat
  · intro j errand id hat'
    rcases hm.back hat' with ⟨-, heq, -⟩ | ⟨-, hat⟩
    · exact .inr (hstarting id heq.symm)
    · exact .inl hat

/-- The backend starts a command that it was asked to start. -/
theorem start (h : IsRecorded w) (hn : IsNumbered w) {call : Call} {id : TaskId} {b : Scripted}
    {e : Execution} (hm : Moves w w' call (.starting id) (.running id e))
    (ha : w'.account = w.account.record b)
    (hb : w.backend.start w.clock id call.command = .ok (b, e)) : IsRecorded w' := by
  obtain ⟨errand₀, hat₀, -⟩ := hm.serves
  obtain ⟨hrecords₀, -⟩ := Scripted.start_eq_ok hb
  have hrecords : w'.account.records =
      w.account.records ++ [{ id, args := call.command.args, startedAt := w.clock }] := by
    rw [ha]
    exact hrecords₀
  have hnumbered : w'.account.numbered = w.account.numbered := by rw [ha]; rfl
  have hjob := hn.current hat₀ rfl
  -- The job that starts has no record yet.
  have hnew : ∀ r ∈ w.account.records, r.id ≠ id := by
    intro r hr hid
    obtain ⟨j, errand, p, hj, hat, hp⟩ := h.owner r hr
    rw [hid] at hj
    obtain rfl := hn.job_unique hjob hj
    rw [← (hat₀.unique hat).2] at hp
    exact absurd hp (by simp [Position.isPastAnswer])
  have hself : w'.At call.job errand₀ (.running id e) := hm.here hat₀
  obtain ⟨t, c, hasked, ht⟩ := h.starting hat₀
  have hmem {r : Record} (hr : r ∈ w'.account.records) : r ∈ w.account.records ∨
      r = { id, args := call.command.args, startedAt := w.clock } := by
    rwa [hrecords, List.mem_append, List.mem_singleton] at hr
  exact {
    ids := by
      rw [hrecords, List.map_append]
      refine List.nodup_append.2 ⟨h.ids, List.nodup_singleton _, ?_⟩
      intro id₁ hid₁ id₂ hid₂ heq
      obtain ⟨r, hr, rfl⟩ := List.mem_map.1 hid₁
      exact hnew r hr (heq.trans (List.mem_singleton.1 hid₂))
    owner := by
      intro r hr
      rw [hnumbered]
      rcases hmem hr with hr | rfl
      · obtain ⟨j, errand, p, hj, hat, hp⟩ := h.owner r hr
        exact ⟨j, errand, p, hj, hm.at_of_isPastAnswer rfl hat hp, hp⟩
      · exact ⟨call.job, errand₀, _, hjob, hself, rfl⟩
    awaited := by
      intro r hr hend
      rcases hmem hr with hr | rfl
      · obtain ⟨j, errand, e', hat⟩ := h.awaited r hr hend
        exact ⟨j, errand, e', hm.at_of_isPastAnswer rfl hat rfl⟩
      · exact ⟨call.job, errand₀, e, hself⟩
    running := by
      intro j errand id' e' hat'
      rw [hrecords]
      rcases hm.back hat' with ⟨-, heq, -⟩ | ⟨-, hat⟩
      · obtain ⟨rfl, -⟩ := Position.running.inj heq
        exact ⟨_, List.mem_append_right _ List.mem_cons_self, rfl, rfl⟩
      · obtain ⟨r, hr, hid, hend⟩ := h.running hat
        exact ⟨r, List.mem_append_left _ hr, hid, hend⟩
    count := by
      have hcounted : w.backend.IsCounted := h.count
      rw [ha]
      exact hcounted.start hb
    starting := by
      intro j errand id' hat'
      rcases hm.back hat' with ⟨-, heq, -⟩ | ⟨-, hat⟩
      · exact absurd heq (by simp)
      · exact asked_mono hm.history hm.clock.ge (h.starting hat)
    asked := by
      intro r hr
      rcases hmem hr with hr | rfl
      · exact asked_mono hm.history (Nat.le_refl _) (h.asked r hr)
      · exact ⟨t, c, hm.history.subset hasked, ht⟩
    ended := by
      intro r hr
      rcases hmem hr with hr | rfl
      · exact ended_mono hm.history hm.clock.ge (h.ended r hr)
      · exact ⟨hm.clock.ge, fun t' ht' => absurd ht' (by simp)⟩ }

/-- An execution that is waited for comes to its end. -/
theorem finish (h : IsRecorded w) (hn : IsNumbered w) {call : Call} {id : TaskId} {e : Execution}
    {terminated : Bool} {code : Option Int32} (hm : Moves w w' call (.running id e) .telling)
    (ha : w'.account = w.account.record (w.backend.finish w.clock id terminated))
    (hw : (w.clock, .ended id call.command code) ∈ w'.history) : IsRecorded w' := by
  obtain ⟨errand₀, hat₀, -⟩ := hm.serves
  obtain ⟨r₀, hr₀, hid₀, hend₀⟩ := h.running hat₀
  have hjob := hn.current hat₀ rfl
  have hnumbered : w'.account.numbered = w.account.numbered := by rw [ha]; rfl
  have hbackend : w.backend.finish w.clock id terminated = _ :=
    Scripted.finish_eq h.ids hr₀ hid₀ hend₀
  have hrecords : w'.account.records =
      w.account.records.map (Scripted.afterEnd w.clock id terminated) := by
    rw [ha, hbackend]
    rfl
  have hmem {r' : Record} (hr' : r' ∈ w'.account.records) :
      ∃ r ∈ w.account.records, Scripted.afterEnd w.clock id terminated r = r' := by
    rwa [hrecords, List.mem_map] at hr'
  exact {
    ids := by
      rw [hrecords, List.map_map, Scripted.id_comp_afterEnd]
      exact h.ids
    owner := by
      intro r' hr'
      obtain ⟨r, hr, rfl⟩ := hmem hr'
      obtain ⟨j, errand, p, hj, hat, hp⟩ := h.owner r hr
      rw [hnumbered, Scripted.id_afterEnd]
      refine ⟨j, errand, _, hj, hm.forth hat, ?_⟩
      split
      · rfl
      · exact hp
    awaited := by
      intro r' hr' hend
      obtain ⟨r, hr, rfl⟩ := hmem hr'
      by_cases hid : r.id = id
      · rw [Scripted.afterEnd, if_pos hid] at hend
        exact absurd hend (by simp)
      · rw [Scripted.afterEnd_of_ne hid] at hend ⊢
        obtain ⟨j, errand, e', hat⟩ := h.awaited r hr hend
        -- Whoever waits for another execution goes on doing so.
        exact ⟨j, errand, e', hm.stays (fun heq => hid (Position.running.inj heq).1) hat⟩
    running := by
      intro j errand id' e' hat'
      rcases hm.back hat' with ⟨-, heq, -⟩ | ⟨hne, hat⟩
      · exact absurd heq (by simp)
      · obtain ⟨r, hr, hid, hend⟩ := h.running hat
        have hid' : r.id ≠ id := by
          intro heq
          obtain rfl : id' = id := hid.symm.trans heq
          exact hne (hn.job_unique hjob (hn.current hat rfl))
        refine ⟨r, ?_, hid, hend⟩
        rw [hrecords]
        exact List.mem_map.2 ⟨r, hr, Scripted.afterEnd_of_ne hid'⟩
    count := by
      have hcounted : w.backend.IsCounted := h.count
      rw [ha]
      exact hcounted.finish w.clock id terminated
    starting := by
      intro j errand id' hat'
      rcases hm.back hat' with ⟨-, heq, -⟩ | ⟨-, hat⟩
      · exact absurd heq (by simp)
      · exact asked_mono hm.history hm.clock.ge (h.starting hat)
    asked := by
      intro r' hr'
      obtain ⟨r, hr, rfl⟩ := hmem hr'
      rw [Scripted.id_afterEnd, Scripted.startedAt_afterEnd]
      exact asked_mono hm.history (Nat.le_refl _) (h.asked r hr)
    ended := by
      intro r' hr'
      obtain ⟨r, hr, rfl⟩ := hmem hr'
      by_cases hid : r.id = id
      · obtain ⟨hstart, -⟩ := h.ended r hr
        rw [Scripted.id_afterEnd, Scripted.startedAt_afterEnd, hm.clock]
        refine ⟨hstart, fun t ht => ?_⟩
        rw [Scripted.afterEnd, if_pos hid] at ht
        obtain rfl := Option.some.inj ht
        rw [hid]
        exact ⟨hstart, Nat.le_refl _, call.command, code, hw⟩
      · rw [Scripted.afterEnd_of_ne hid]
        exact ended_mono hm.history hm.clock.ge (h.ended r hr) }

/-- In an undisturbed world every stage keeps records and jobs together. -/
theorem stage (h : IsRecorded w) (hn : IsNumbered w) (hu : IsUndisturbed w) (hs : Stage w w') :
    IsRecorded w' := by
  cases hs with
  | quiet hq => exact h.quiet hn hu hq
  | @dropped call p hm ha hp =>
    have hpast : p.isPastAnswer = false := by
      rcases hp with rfl | ⟨id, rfl⟩ | ⟨id, rfl⟩ | ⟨id, e, t, rfl, hpanic⟩
      · rfl
      · rfl
      · rfl
      · exact absurd (hu.observers _ hpanic) (by simp [Happening.isStartPanic])
    exact h.moves hm (by rw [ha]) (by rw [ha]) (fun p hp => by rw [ha]; exact hp) hpast (by simp)
      (by simp)
  | numbered hm ha hp' =>
    refine h.moves hm (by rw [ha]; rfl) (by rw [ha]; rfl)
      (fun p hp => by rw [ha]; exact List.mem_append_left _ hp) rfl ?_ ?_
    · rcases hp' with rfl | rfl <;> simp
    · rcases hp' with rfl | rfl <;> simp
  | asked hm ha hw =>
    refine h.moves hm (by rw [ha]; rfl) (by rw [ha]; rfl) (fun p hp => by rw [ha]; exact hp) rfl
      (by simp) fun id' heq => ?_
    obtain rfl := Position.starting.inj heq
    exact ⟨_, _, hw ▸ List.mem_cons_self, Nat.le_of_eq hm.clock.symm⟩
  | started hm ha hb => exact h.start hn hm ha hb
  | ended hm ha hw => exact h.finish hn hm ha hw

end IsRecorded

theorem isRecorded_new (s : Setting) : IsRecorded s.world where
  ids := List.nodup_nil
  owner := by simp [account, Setting.world]
  awaited := by simp [account, Setting.world]
  running := by simp [At, Setting.world]
  count := rfl
  starting := by simp [At, Setting.world]
  asked := by simp [account, Setting.world]
  ended := by simp [account, Setting.world]

/-- **In an undisturbed world the records agree with the jobs.** -/
theorem Arises.isRecorded {w : World} (h : Arises w) (hu : IsUndisturbed w) : IsRecorded w := by
  refine Arises.induction (P := fun w => IsUndisturbed w → IsRecorded w)
    (fun s _ => isRecorded_new s) (fun hw ih hc hu => ?_) h hu
  have hs := hw.stage hc
  have hu' := hs.isUndisturbed hu
  exact (ih hu').stage hw.isNumbered hu' hs

end World

end FolderTasks.Dispatch
