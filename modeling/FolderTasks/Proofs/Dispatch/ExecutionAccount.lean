import FolderTasks.Proofs.Dispatch.LedgerChanges
/-!
# What does not concern executions

Task numbers, start requests and the backend's records change only as commands are executed.
Every other elementary change is *quiet*: it leaves the account of the executions alone, begins jobs
that have not done anything yet, and moves a job only to where it has no part in an execution.

## Main definitions

* `World.account`: task numbers, start requests and records.
* `World.Adds`, `World.Quiet`: changes that do not concern executions.

## Main statements

* `World.Deed.quiet`, `World.Drift.quiet`, `World.Telling.quiet`, `World.Closing.quiet`: all changes
  but the stages of executing a command are quiet.
-/

namespace FolderTasks.Dispatch

/-- The task number of a job that takes part in an execution. -/
def Position.id? : Position → Option TaskId
  | .inLine id | .starting id | .running id _ => some id
  | .fresh | .telling | .awaiting _ _ | .done => none

/-- Has a job that got a task number asked the backend to start its command, or will it never? -/
def Position.isPastStart : Position → Bool
  | .fresh | .inLine _ => false
  | .starting _ | .running _ _ | .telling | .awaiting _ _ | .done => true

/-- Is a position one where a job waits for an outcome or is over? -/
def Position.isIdle : Position → Bool
  | .awaiting _ _ | .done => true
  | .fresh | .inLine _ | .starting _ | .running _ _ | .telling => false

theorem Position.ne_fresh_of_isIdle {p : Position} (h : p.isIdle) : p ≠ .fresh := by
  rintro rfl
  exact Bool.noConfusion h

theorem Position.id?_of_isIdle {p : Position} (h : p.isIdle) : p.id? = none := by
  cases p <;> first | rfl | exact Bool.noConfusion h

theorem Position.isPastStart_of_isIdle {p : Position} (h : p.isIdle) : p.isPastStart := by
  cases p <;> first | rfl | exact Bool.noConfusion h

/-- Does an errand execute a command? -/
def Errand.isCall : Errand → Bool
  | .operation _ | .execution _ _ _ => true
  | .reset _ _ _ | .watch _ _ | .reopen _ _ => false

/-- A job after a change that does not concern executions.  It takes part in an execution as
before, unless it was given up. -/
structure Job.Settles (job job' : Job) : Prop where
  errand : job'.errand = job.errand
  given : job.isAbandoned → job'.isAbandoned
  position : job'.position = job.position ∨ job'.position.isIdle ∧
    (job.position.id? = none ∨ job.isAbandoned ∧ job.errand.isNamed)

theorem Job.Settles.refl (job : Job) : job.Settles job := ⟨rfl, id, .inl rfl⟩

/-- What a world tells of executions. -/
structure Account where
  lastId : Nat
  numbered : List (TaskId × JobId)
  asked : List TaskId
  records : List Record
  running : Nat

namespace World

/-- The account of the executions of a world. -/
def account (w : World) : Account where
  lastId := w.manager.lastId
  numbered := w.seen Happening.numbered?
  asked := w.seen Happening.startAsked?
  records := w.backend.records
  running := w.backend.running

/-- A change that leaves executions and jobs alone, and may begin new jobs. -/
structure Adds (w w' : World) : Prop where
  account : w'.account = w.account
  clock : w.clock ≤ w'.clock
  history : w.history <:+ w'.history
  owners : w.entries.map Entry.queue <+: w'.entries.map Entry.queue
  jobs : ∃ more, w'.jobs = w.jobs ++ more ∧
    ∀ job ∈ more, job.position = .fresh ∧ job.isAbandoned = false

/-- **A change that does not concern executions.** -/
structure Quiet (w w' : World) : Prop where
  account : w'.account = w.account
  clock : w.clock ≤ w'.clock
  history : w.history <:+ w'.history
  owners : w.entries.map Entry.queue <+: w'.entries.map Entry.queue
  forth : ∀ {j : JobId} {job : Job}, w.jobs[j]? = some job →
    ∃ job', w'.jobs[j]? = some job' ∧ job.Settles job'
  back : ∀ {j : JobId} {job' : Job}, w'.jobs[j]? = some job' →
    (∃ job, w.jobs[j]? = some job ∧ job.Settles job') ∨
      w.jobs[j]? = none ∧ job'.position = .fresh ∧ job'.isAbandoned = false

/-! ## Additions -/

section Additions

variable {w w' w'' : World}

theorem Adds.refl (w : World) : Adds w w :=
  ⟨rfl, Nat.le_refl _, List.suffix_rfl, List.prefix_rfl, [], by simp, by simp⟩

theorem Adds.trans (h : Adds w w') (h' : Adds w' w'') : Adds w w'' := by
  obtain ⟨more, hjobs, hmore⟩ := h.jobs
  obtain ⟨more', hjobs', hmore'⟩ := h'.jobs
  refine ⟨h'.account.trans h.account, Nat.le_trans h.clock h'.clock, h.history.trans h'.history,
    h.owners.trans h'.owners, more ++ more', by rw [hjobs', hjobs, List.append_assoc],
    fun job hjob => ?_⟩
  rcases List.mem_append.1 hjob with hjob | hjob
  · exact hmore job hjob
  · exact hmore' job hjob

/-- A change that touches neither executions nor jobs. -/
theorem Adds.of_eq (haccount : w'.account = w.account) (hclock : w'.clock = w.clock)
    (hhistory : w'.history = w.history)
    (howners : w'.entries.map Entry.queue = w.entries.map Entry.queue)
    (hjobs : w'.jobs = w.jobs) : Adds w w' :=
  ⟨haccount, Nat.le_of_eq hclock.symm, hhistory ▸ List.suffix_rfl, howners ▸ List.prefix_rfl, [],
    by simp [hjobs], by simp⟩

/-- A fact that does not concern executions. -/
theorem adds_note (w : World) {h : Happening} (hnumbered : h.numbered? = none)
    (hasked : h.startAsked? = none) : Adds w (w.note h) := by
  refine ⟨?_, Nat.le_refl _, List.suffix_cons _ _, List.prefix_rfl, [], by simp [note], by simp⟩
  rw [account, account, seen_note_of_none w hnumbered, seen_note_of_none w hasked]
  rfl

theorem Adds.note (hw : Adds w w') (h : Happening) (hnumbered : h.numbered? = none)
    (hasked : h.startAsked? = none) : Adds w (w'.note h) :=
  hw.trans (adds_note w' hnumbered hasked)

theorem adds_modifyQueue (w : World) (q : QueueId) (f : Queue → Queue) :
    Adds w (w.modifyQueue q f) := .of_eq rfl rfl rfl rfl rfl

theorem adds_modifyEntry (w : World) (e : EntryId) {f : Entry → Entry}
    (hf : ∀ entry, (f entry).queue = entry.queue) : Adds w (w.modifyEntry e f) := by
  refine .of_eq rfl rfl rfl ?_ rfl
  have howners := map_modify (g := Entry.queue) (k := id) hf w.entries e
  rwa [List.modify_id] at howners

theorem adds_spawn (w : World) (errand : Errand) : Adds w (w.spawn errand).1 :=
  ⟨rfl, Nat.le_refl _, List.suffix_rfl, List.prefix_rfl, [{ errand := errand }], rfl, by simp⟩

theorem adds_wakeAll (w : World) (js : List JobId) : Adds w (w.wakeAll js) := by
  obtain ⟨ready, h⟩ := wakeAll_eq js w
  rw [h]
  exact .of_eq rfl rfl rfl rfl rfl

theorem adds_releaseGuard (w : World) : Adds w w.releaseGuard := by
  obtain ⟨ready, h⟩ := releaseGuard_eq w
  rw [h]
  exact .of_eq rfl rfl rfl rfl rfl

theorem adds_listen (w : World) (token : Option String) (j : JobId) :
    Adds w (w.listen token j) := by
  obtain ⟨tokens, h⟩ := listen_eq w token j
  rw [h]
  exact .of_eq rfl rfl rfl rfl rfl

theorem adds_unlisten (w : World) (token : Option String) (j : JobId) :
    Adds w (w.unlisten token j) := by
  obtain ⟨tokens, h⟩ := unlisten_eq w token j
  rw [h]
  exact .of_eq rfl rfl rfl rfl rfl

theorem adds_withhold (w : World) (q : QueueId) (value : Bool) : Adds w (w.withhold q value) :=
  adds_modifyQueue w q _

theorem adds_takeSeat (w : World) (e : EntryId) (who : Waiter) : Adds w (w.takeSeat e who).1 := by
  unfold takeSeat
  split
  · exact .refl w
  · exact adds_modifyEntry w e fun _ => rfl

theorem adds_leaveSeat (w : World) (e : EntryId) (seat : Nat) : Adds w (w.leaveSeat e seat) :=
  adds_modifyEntry w e fun _ => rfl

theorem adds_receive? {e : EntryId} {o : Outcome} (h : w.receive? e = some (w', o)) :
    Adds w w' := by
  unfold receive? at h
  split at h
  · obtain ⟨rfl, -⟩ := Prod.mk.inj (Option.some.inj h)
    exact adds_modifyEntry w e fun _ => rfl
  · exact absurd h (by simp)

theorem adds_append (w : World) (q : QueueId) (queue : Queue) (op : Operation)
    (token : Option String) : Adds w (w.append q queue op token).1 := by
  have hentry : Adds w { w with
      entries := w.entries ++ [{ queue := q, operation := op, token }] } :=
    ⟨rfl, Nat.le_refl _, List.suffix_rfl, List.map_append ▸ List.prefix_append _ _, [], by simp,
      by simp⟩
  exact (hentry.trans (adds_modifyQueue _ q _)).note (.queued _ _ _ _) rfl rfl

theorem adds_dispatch (w : World) (q : QueueId) : Adds w (w.dispatch q) := by
  unfold dispatch
  split
  · next e rest _ _ =>
    exact ((adds_modifyQueue w q _).note (.dispatched e) rfl rfl).trans (adds_spawn _ _)
  · exact .refl w

theorem adds_request (w : World) (q : QueueId) (op : Operation) (token : Option String) :
    Adds w (w.request q op token).1 := by
  rcases request_eq w q op token with h | ⟨queue, e, -, -, h⟩ | ⟨queue, -, -, h⟩
  · rw [h]
    exact .refl w
  · rw [h]
    exact adds_note w rfl rfl
  · rw [h]
    exact (adds_append w q queue op token).trans (adds_dispatch _ q)

theorem adds_deliver (w : World) (e : EntryId) (o : Outcome) : Adds w (w.deliver e o) := by
  unfold deliver
  split
  · exact .refl w
  · have hknown := adds_modifyEntry w e (f := fun entry => { entry with outcome := some o })
      fun _ => rfl
    exact (hknown.note (.resolved e o) rfl rfl).trans (adds_wakeAll _ _)

theorem adds_resolve (w : World) (e : EntryId) (o : Outcome) : Adds w (w.resolve e o) := by
  unfold resolve
  split
  · exact .refl w
  · next entry he =>
    exact (((adds_modifyQueue w entry.queue _).note (.vacated e) rfl rfl).trans
      (adds_dispatch _ _)).trans (adds_deliver _ e o)

theorem adds_reopen (w : World) (q : QueueId) (e : EntryId) : Adds w (w.reopen q e) :=
  (adds_withhold w q false).trans (adds_note _ rfl rfl)

theorem adds_dropExecution (w : World) (call : Call) : Adds w (w.dropExecution call) := by
  obtain ⟨tokens, timers, ready, g, h⟩ := dropExecution_eq w call
  rw [h]
  exact .of_eq rfl rfl rfl rfl rfl

theorem adds_discardReset (w : World) (e : EntryId) (seat : Nat) :
    Adds w (w.discardReset e seat) := by
  unfold discardReset
  split
  · exact .refl w
  · next entry he =>
    dsimp only
    split
    · exact (adds_leaveSeat w e seat).trans (adds_reopen _ _ _)
    · exact (adds_leaveSeat w e seat).trans (adds_spawn _ _)

end Additions

/-! ## Quiet changes -/

section Quiet

variable {w w' : World}

theorem Adds.quiet (h : Adds w w') : Quiet w w' := by
  obtain ⟨more, hjobs, hmore⟩ := h.jobs
  refine ⟨h.account, h.clock, h.history, h.owners, fun {j job} hj => ?_, fun {j job'} hj => ?_⟩
  · refine ⟨job, ?_, .refl job⟩
    rw [hjobs, List.getElem?_append_left (List.getElem?_eq_some_iff.1 hj).1, hj]
  · rw [hjobs] at hj
    rcases getElem?_append_cases hj with hj | ⟨hge, hnew⟩
    · exact .inl ⟨job', hj, .refl job'⟩
    · exact .inr ⟨List.getElem?_eq_none hge, hmore job' hnew⟩

/-- A job that takes no part in an execution, or was given up, comes to where it waits for an
outcome or is over. -/
theorem Adds.quiet_setPosition (h : Adds w w') {j : JobId} {job : Job} {p : Position}
    (hj : w.jobs[j]? = some job) (hp : p.isIdle)
    (hid : job.position.id? = none ∨ job.isAbandoned ∧ job.errand.isNamed) :
    Quiet w (w'.setPosition j p) := by
  refine ⟨h.account, h.clock, h.history, h.owners, fun {i job₁} hi => ?_, fun {i job'} hi => ?_⟩
  · obtain ⟨job₂, hi', hsettles⟩ := h.quiet.forth hi
    rw [getElem?_setPosition, hi', Option.map_some]
    refine ⟨_, rfl, ?_⟩
    split
    · next hji =>
      subst hji
      obtain rfl : job = job₁ := Option.some.inj (hj.symm.trans hi)
      exact ⟨hsettles.errand, hsettles.given, .inr ⟨hp, hid⟩⟩
    · exact hsettles
  · rw [getElem?_setPosition] at hi
    obtain ⟨job₂, hi', rfl⟩ := Option.map_eq_some_iff.1 hi
    rcases h.quiet.back hi' with ⟨job₁, hi₁, hsettles⟩ | ⟨hnone, hfresh⟩
    · refine .inl ⟨job₁, hi₁, ?_⟩
      split
      · next hji =>
        subst hji
        obtain rfl : job = job₁ := Option.some.inj (hj.symm.trans hi₁)
        exact ⟨hsettles.errand, hsettles.given, .inr ⟨hp, hid⟩⟩
      · exact hsettles
    · refine .inr ⟨hnone, ?_⟩
      have hji : j ≠ i := by
        rintro rfl
        rw [hj] at hnone
        exact absurd hnone (by simp)
      rwa [if_neg hji]

theorem Adds.quiet_at (h : Adds w w') {j : JobId} {errand : Errand} {p p' : Position}
    (hat : w.At j errand p) (hp : p'.isIdle) (hid : p.id? = none) :
    Quiet w (w'.setPosition j p') := by
  obtain ⟨given, hj⟩ := hat
  exact h.quiet_setPosition hj hp (.inl hid)

theorem abandonJob_quiet (w : World) (j : JobId) : Quiet w (w.abandonJob j).1 := by
  rcases abandonJob_eq w j with h | ⟨ready, h⟩
  · rw [h]
    exact (Adds.refl w).quiet
  · rw [h]
    have hjobs (i : JobId) : (w.jobs.modify j fun job => { job with isAbandoned := true })[i]? =
        (w.jobs[i]?).map fun job => if j = i then { job with isAbandoned := true } else job := by
      rw [List.getElem?_modify]
      by_cases hji : j = i <;> simp [hji]
    have hsettles (i : JobId) (job : Job) :
        job.Settles (if j = i then { job with isAbandoned := true } else job) := by
      split
      · exact ⟨rfl, fun _ => rfl, .inl rfl⟩
      · exact .refl job
    refine ⟨rfl, Nat.le_refl _, List.suffix_rfl, List.prefix_rfl, fun {i job} hi => ?_,
      fun {i job'} hi => ?_⟩
    · exact ⟨_, by rw [hjobs, hi, Option.map_some], hsettles i job⟩
    · rw [hjobs] at hi
      obtain ⟨job, hi', rfl⟩ := Option.map_eq_some_iff.1 hi
      exact .inl ⟨job, hi', hsettles i job⟩

theorem Deed.quiet (hd : Deed w w') : Quiet w w' := by
  cases hd with
  | scripted | named | queueMade | observed => exact Adds.quiet (.of_eq rfl rfl rfl rfl rfl)
  | requested q op token => exact (adds_request w q op token).quiet
  | cancelled name =>
    obtain ⟨tokens, ready, heq⟩ := cancel_eq w name
    rw [heq]
    exact Adds.quiet (.of_eq rfl rfl rfl rfl rfl)
  | withheld q value => exact ((adds_withhold w q value).note _ rfl rfl).quiet
  | watched handle e => exact (adds_spawn w _).quiet
  | begun name errand hnamed =>
    exact Adds.quiet ((adds_spawn w errand).trans (.of_eq rfl rfl rfl rfl rfl))
  | disposed =>
    obtain ⟨history, manager, heq, hhistory, hlast, -⟩ := disposeManager_eq w
    rw [heq]
    rcases hhistory with rfl | rfl
    · refine Adds.quiet (.of_eq ?_ rfl rfl rfl rfl)
      simp only [account, hlast]
      rfl
    · have hnoted := adds_note w (h := .managerDisposed) rfl rfl
      refine Adds.quiet (hnoted.trans (.of_eq ?_ rfl rfl rfl rfl))
      simp only [account, hlast]
      rfl
  | abandoned name j hj => exact abandonJob_quiet w j
  | answered => exact (adds_note w rfl rfl).quiet

theorem Drift.quiet (hd : Drift w w') : Quiet w w' := by
  cases hd with
  | turnTaken | turnSet | folderListed | foldersUnlisted =>
    exact Adds.quiet (.of_eq rfl rfl rfl rfl rfl)
  | fired t ht =>
    obtain ⟨timers, ready, heq⟩ := fire_eq w t
    rw [heq]
    exact Adds.quiet ⟨rfl, Nat.le_max_left _ _, List.suffix_rfl, List.prefix_rfl, [], by simp,
      by simp⟩
  | passed moment hm => exact Adds.quiet ⟨rfl, hm, List.suffix_rfl, List.prefix_rfl, [], by simp,
    by simp⟩
  | folderTold fact hfact =>
    rcases hfact with ⟨f, rfl⟩ | ⟨f, rfl⟩ <;> exact (adds_note w rfl rfl).quiet
  | sat e => exact (adds_takeSeat w e .outside).quiet
  | seatLeft e entry seat => exact (adds_leaveSeat w e seat).quiet
  | received e o hr => exact (adds_receive? hr).quiet

theorem Telling.quiet (ht : Telling w w') : Quiet w w' := by
  cases ht with
  | reported | startNoticed | endNoticed =>
    exact Adds.quiet ((adds_note w rfl rfl).trans (.of_eq rfl rfl rfl rfl rfl))
  | reporterPanicked | startPanicked | endPanicked | failureTold | finishTold =>
    exact (adds_note w rfl rfl).quiet

/-- **How jobs wait and end does not concern executions**, as long as only jobs that execute a
command take part in one. -/
theorem Closing.quiet (hc : Closing w w') (ho : w.ledger.IsOrderly)
    (hidle : ∀ {j : JobId} {errand : Errand} {p : Position},
      w.At j errand p → errand.isCall = false → p.id? = none) : Quiet w w' := by
  cases hc with
  | closed o hat hp hover =>
    refine (adds_resolve w _ o).quiet_at hat rfl ?_
    rcases hover with rfl | ⟨rfl, -⟩ | hnone
    · rfl
    · rfl
    · obtain ⟨entry, he⟩ := hat.exists_entry ho
      rw [hnone] at he
      exact absurd he (by simp)
  | executionEnded result hat => exact (adds_note w rfl rfl).quiet_at hat rfl rfl
  | resetAsked q hat hq =>
    exact ((((adds_withhold w q true).trans (adds_request _ q _ _)).note _ rfl rfl).trans
      (adds_takeSeat _ _ _)).quiet_at hat rfl rfl
  | resetRefused hat hq => exact (adds_note w rfl rfl).quiet_at hat rfl rfl
  | seatTaken e hat hp he =>
    refine (adds_takeSeat w e _).quiet_at hat rfl (hidle hat ?_)
    rcases he with ⟨handle, rfl⟩ | ⟨q, rfl⟩ <;> rfl
  | resetConcluded o hat he hr =>
    exact ((((adds_receive? hr).note _ rfl rfl).trans (adds_reopen _ _ _)).note _ rfl rfl).quiet_at
      hat rfl rfl
  | resetForgotten hat he => exact (Adds.refl w).quiet_at hat rfl rfl
  | watchEnded o hat hp hr =>
    refine Adds.quiet_at ?_ hat rfl (hidle hat rfl)
    split
    · exact (adds_receive? hr).note _ rfl rfl
    · exact adds_receive? hr
  | reopened o hat hp hr =>
    exact ((adds_receive? hr).trans (adds_reopen _ _ _)).quiet_at hat rfl (hidle hat rfl)
  | @discarded j job hj ha hp =>
    have hnamed : job.errand.isNamed :=
      ho.abandoned job.runner (List.mem_map_of_mem (List.mem_of_getElem? hj)) ha
    refine Adds.quiet_setPosition ?_ hj rfl (.inr ⟨ha, hnamed⟩)
    split
    · exact adds_dropExecution w _
    · exact adds_discardReset w _ _
    · exact .refl w

end Quiet

end World

end FolderTasks.Dispatch
