import FolderTasks.Proofs.Dispatch.FolderIndependence
import FolderTasks.Proofs.Dispatch.QueueDraining
/-!
# A queue that has the task manager to itself

When one queue is the only user of its task manager, its entries have nobody before them in the line
for the right to start, however long starts take.  So every punctual run in which nothing goes wrong
serves the requests of the queue as a sequential server does, and when it comes to its end it has
done what the plan says, and nothing else.

In a world with a single queue, where no hook is registered and nothing else is executed, that is so,
and whatever the jobs do keeps it so: they make no queue, begin no other work, and have nobody who
could panic.  And no token is cancelled but by the user.

## Main definitions

* `World.IsSoleUser`: whatever executes a command does so for one queue.
* `World.Completes`: a punctual run in which nothing went wrong and nothing is left to be done.
* `World.Performs`, `World.Fulfils`: a service is what became of an entry, and a plan is what became
  of a queue.
* `World.IsServing`: a world with a single queue and nothing else.

## Main statements

* `World.IsSoleUser.isUncontended`: no entry of such a queue has to wait for the right to start.
* `World.Completes.exists_plan`: a run that is complete has fulfilled a plan of its requests.
* `World.IsServing.isSoleUser`: a single queue is the only user of the task manager.
* `World.Move.isServing`, `World.Move.isCancelled`: what a move keeps up.
* `World.IsServing.request`, `World.IsServing.cancel`: what the user may do.
-/

namespace FolderTasks.Dispatch.World

/-- **Whatever executes a command does so for one queue.** -/
def IsSoleUser (w : World) (q : QueueId) : Prop :=
  ∀ ⦃j : JobId⦄ ⦃errand : Errand⦄ ⦃p : Position⦄, w.At j errand p → errand.isCall →
    ∃ e, errand = .operation e ∧ w.belongs q e

/-- **A punctual run that is complete**: one queue is the only user of the task manager, all starts
take the same time, nothing went wrong, and nothing is left to be done. -/
structure Completes (s : Setting) (q : QueueId) (log : List (World × Choice)) (w : World) : Prop where
  uniform : s.IsUniform
  runs : Runs s log w
  untroubled : w.IsUntroubled
  alone : w.IsSoleUser q
  ready : w.ready = []
  timers : w.timers = []

/-- **A service is what became of an entry** of a queue: when it became active, when it left its slot,
and all that was seen of it. -/
structure Performs (w : World) (q : QueueId) (S : Service) (e : EntryId) : Prop where
  order : w.orders[e]? = some (S.request.operation, S.request.tokenName)
  dispatched : ∀ t, (t, e) ∈ w.timed Happening.dispatched? ↔ t = S.beginsAt
  vacated : ∀ t, (t, e) ∈ w.timed Happening.vacated? ↔ t = S.endsAt
  /-- Its outcome with its moment, its records, and what was reported of it. -/
  fate : w.fateOf e = S.fate (S.request.operation.startCalls (w.queueName q))

/-- **A plan is what became of a queue**: its services are what became of the entries, in the order in
which these were created, the requests got the entries that the plan says, and the backend recorded
nothing else. -/
structure Fulfils (w : World) (q : QueueId) (log : List (World × Choice)) (P : Plan) : Prop where
  length : P.services.length = (w.createdOn q).length
  performs : ∀ {k : Nat} {S : Service} {e : EntryId}, P.services[k]? = some S →
    (w.createdOn q)[k]? = some e → w.Performs q S e
  answers : (answersOn q log).map (w.createdOn q).idxOf = P.answers
  recorded : ∀ r ∈ w.backend.records, ∃ e ∈ w.createdOn q, r ∈ w.recordsFor e

section SoleUser

variable {s : Setting} {log : List (World × Choice)} {w u : World} {q : QueueId} {e : EntryId}

/-! ## Nobody has to wait for the right to start -/

/-- **No entry has to wait for the right to start**, for whoever has it holds the slot of the queue. -/
theorem IsSoleUser.isUncontended (h : w.IsSoleUser q) (hw : Arises w) : w.IsUncontended := by
  have ho := hw.isOrderly
  -- Whoever executes a command and is not at its end holds the slot.
  have hactive {i : JobId} {errand : Errand} {p : Position} (hat : w.At i errand p)
      (hcall : errand.isCall) (hp : p ≠ .done) :
      ∃ e pending, errand = .operation e ∧ w.ledger.slots[q]? = some (some e, pending) := by
    obtain ⟨e, rfl, hon⟩ := h hat hcall
    rw [← isOn_eq_belongs] at hon
    obtain ⟨given, hrunner⟩ := hat.runner
    obtain ⟨active, pending, hslot⟩ := ho.exists_slot hon
    rw [beq_false_of_ne hp] at hrunner
    obtain rfl := ho.active_of_live hrunner hon hslot
    exact ⟨e, pending, rfl, hslot⟩
  intro j e hat
  refine Option.eq_none_iff_forall_not_mem.2 fun i hholder => ?_
  obtain ⟨pending, hslot⟩ : ∃ pending, w.ledger.slots[q]? = some (some e, pending) := by
    obtain ⟨e', pending, heq, hslot⟩ := hactive hat rfl (by simp)
    exact ⟨pending, Errand.operation.inj heq ▸ hslot⟩
  obtain ⟨errand, p, id, hat', hid, hp, hfresh⟩ : ∃ errand p id, w.At i errand p ∧
      p.id? = some id ∧ p ≠ .done ∧ p ≠ .fresh := by
    obtain ⟨errand, id, hline | hstarting⟩ := hw.isLined.holding hholder
    · exact ⟨errand, _, id, hline, rfl, by simp, by simp⟩
    · exact ⟨errand, _, id, hstarting, rfl, by simp, by simp⟩
  obtain ⟨errand', p', hown, hcall, -⟩ := hw.isNumbered.owner (hw.isNumbered.current hat' hid)
  obtain ⟨rfl, rfl⟩ := hat'.unique hown
  obtain ⟨e', pending', rfl, hslot'⟩ := hactive hat' hcall hp
  obtain ⟨heq, -⟩ := Prod.mk.inj (Option.some.inj (hslot.symm.trans hslot'))
  obtain rfl := Option.some.inj heq
  obtain rfl := hat.operation_unique ho hat'
  exact hfresh (hat'.unique hat).2

theorem isSoleUser_of_all (h : w.jobs.all fun job =>
    !job.errand.isCall || job.errand.entry?.any (w.belongs q)) : w.IsSoleUser q := by
  rintro j errand p ⟨given, hj⟩ hcall
  have hjob := List.all_eq_true.1 h _ (List.mem_of_getElem? hj)
  dsimp only at hjob
  rw [hcall, Bool.not_true, Bool.false_or, Option.any_eq_true] at hjob
  obtain ⟨e, he, hon⟩ := hjob
  cases errand <;> simp_all [Errand.entry?, Errand.isCall]

/-- Who is the only user in the end was so all the time. -/
theorem IsSoleUser.before (h : w.IsSoleUser q) (hu : Arises u) (hc : Changes u w) :
    u.IsSoleUser q := by
  intro j errand p hat hcall
  obtain ⟨p', hat'⟩ := hu.at_forth hc hat
  obtain ⟨e, rfl, hon⟩ := h hat' hcall
  refine ⟨e, rfl, ?_⟩
  rw [← isOn_eq_belongs] at hon ⊢
  exact (hu.isOn_iff hc (hu.isOrderly.known e (hat.mem_dispatched hu.isOrderly)) q).1 hon

/-- Every world of a run leads to the last one. -/
theorem Runs.leads (h : Runs s log w) (hu : u ∈ log.map Prod.fst ++ [w]) :
    Arises u ∧ Changes u w := by
  induction h with
  | new =>
    obtain rfl := List.mem_singleton.1 hu
    exact ⟨Reachable.arises (.new s), .refl⟩
  | @next log w w' c h hc hr hp ih =>
    rw [List.map_append, List.map_singleton] at hu
    rcases List.mem_append.1 hu with hu | hu
    · obtain ⟨harises, hleads⟩ := ih hu
      exact ⟨harises, hleads.trans hc.transition.changes⟩
    · obtain rfl := List.mem_singleton.1 hu
      exact ⟨(h.next hc hr hp).reachable.arises, .refl⟩

/-! ## Complete runs -/

namespace Completes

theorem halts (h : Completes s q log w) : Halts s log w where
  uniform := h.uniform
  runs := h.runs
  untroubled := h.untroubled
  still := ⟨h.ready, by simp [h.timers]⟩
  free u hu := by
    obtain ⟨harises, hleads⟩ := h.runs.leads hu
    exact (h.alone.before harises hleads).isUncontended harises

/-- The backend records what is executed for the queue. -/
theorem recorded (h : Completes s q log w) {r : Record} (hr : r ∈ w.backend.records) :
    ∃ e ∈ w.createdOn q, r ∈ w.recordsFor e := by
  have hw := h.runs.reachable.arises
  have hn := hw.isNumbered
  obtain ⟨j, hj⟩ : ∃ j, (r.id, j) ∈ w.account.numbered := by
    refine by_contra fun hnone => ?_
    have hfiled := (hw.isChronicled.blank fun j hj => hnone ⟨j, hj⟩).2
    have hmem : r ∈ w.backend.recordsOf r.id := List.mem_filter.2 ⟨hr, by simp⟩
    rw [List.map_eq_nil_iff.1 hfiled] at hmem
    exact absurd hmem List.not_mem_nil
  obtain ⟨errand, p, hat, hcall, -⟩ := hn.owner hj
  obtain ⟨e, rfl, hon⟩ := h.alone hat hcall
  have hserves : w.Serves r.id e := ⟨j, p, hj, hat⟩
  refine ⟨e, (mem_createdOn hw.isOrderly).2 hon, List.mem_filter.2 ⟨hr, ?_⟩⟩
  rw [hserves.entryServed? hn, beq_self_eq_true]

/-- **A run that is complete has fulfilled a plan of its requests**, and the one of the recurrence if
nothing falls together in that one. -/
theorem exists_plan (h : Completes s q log w) :
    ∃ P, s.server.Plans (askedOn (cancelledAt? log w) q log) P ∧ w.Fulfils q log P ∧
      ((s.server.plan (askedOn (cancelledAt? log w) q log)).IsUntied s.server
          (askedOn (cancelledAt? log w) q log) →
        P = s.server.plan (askedOn (cancelledAt? log w) q log)) := by
  obtain ⟨P, hplans, hP, hanswers⟩ := h.halts.exists_plan q
  have hends := hP.endsAt_le h.halts h.timers
  refine ⟨P, hplans, ⟨hP.length, fun {k S e} hS he => ?_, hanswers.symm, fun r => h.recorded⟩,
    fun hu => hplans.eq_plan (.inr hu) (h.runs.pairwise_askedOn _ q)⟩
  have hmem := List.mem_of_getElem? hS
  have hbegins := hplans.isOrdered.begins_le_ends hmem
  have hshows := hP.shows hS he
  refine ⟨hshows.meets.order, fun t => ?_, fun t => ?_, ?_⟩
  · rw [hshows.dispatched, and_iff_left (Nat.le_trans hbegins (hends S hmem))]
  · rw [hshows.vacated, and_iff_left (hends S hmem)]
  · rw [hshows.fate, Service.fateAt_eq hbegins (hends S hmem)]

end Completes

end SoleUser

/-! ## A single queue -/

/-- **A single queue is served**: no hook is registered, nothing went wrong, and all jobs execute the
operations of the queue. -/
structure IsServing (w : World) : Prop where
  hooks : w.hooks = []
  untroubled : w.IsUntroubled
  named : w.queueNamed? "" = some 0
  queues : w.queues.length = 1
  operations : ∀ ⦃j : JobId⦄ ⦃errand : Errand⦄ ⦃p : Position⦄, w.At j errand p →
    ∃ e, errand = .operation e
  /-- The timers stand in the order in which they fire. -/
  timers : w.timers.Pairwise fun t t' => t.deadline ≤ t'.deadline

/-- No hook is registered, so none is called. -/
abbrev NoHook : Hook → Prop := fun _ => False

section Serving

variable {w w' : World} {j : JobId} {e : EntryId}

theorem IsUntroubled.of_eq (h : w.IsUntroubled) (hverdicts : w'.verdicts = w.verdicts)
    (hdisposed : w'.manager.isDisposed = w.manager.isDisposed) : w'.IsUntroubled :=
  ⟨hverdicts ▸ h.outcomes, hdisposed.trans h.opened⟩

namespace IsServing

/-- **The queue is the only user of the task manager.** -/
theorem isSoleUser (h : w.IsServing) (hw : Arises w) : w.IsSoleUser 0 := by
  intro j errand p hat hcall
  obtain ⟨e, rfl⟩ := h.operations hat
  obtain ⟨entry, he⟩ := hat.exists_entry hw.isOrderly
  have hon := isOn_ledger he
  have hqueue : entry.queue < w.queues.length := by
    have hhoused := hw.isOrderly.housed entry.queue (List.mem_map_of_mem (List.mem_of_getElem? he))
    rwa [ledger, List.length_map] at hhoused
  rw [h.queues, Nat.lt_one_iff] at hqueue
  rw [isOn_eq_belongs, hqueue] at hon
  exact ⟨e, rfl, hon⟩

theorem calledBy (h : w.IsServing) (K : Hook → Prop) : w.CalledBy K := by
  intro hook hmem
  rw [h.hooks] at hmem
  exact absurd hmem List.not_mem_nil

/-! ## The pieces of a turn -/

theorem note (h : w.IsServing) {x : Happening} (hx : x.isVerdict = false) :
    (w.note x).IsServing where
  hooks := h.hooks
  untroubled := h.untroubled.of_eq (verdicts_note_of_not w hx) rfl
  named := h.named
  queues := h.queues
  operations := h.operations
  timers := h.timers

theorem modifyQueue (h : w.IsServing) (q : QueueId) (f : Queue → Queue) :
    (w.modifyQueue q f).IsServing where
  hooks := h.hooks
  untroubled := h.untroubled.of_eq rfl rfl
  named := h.named
  queues := (List.length_modify f w.queues q).trans h.queues
  operations := h.operations
  timers := h.timers

theorem setPosition (h : w.IsServing) (j : JobId) (p : Position) :
    (w.setPosition j p).IsServing where
  hooks := h.hooks
  untroubled := h.untroubled.of_eq rfl rfl
  named := h.named
  queues := h.queues
  operations i errand p' hat := by
    rcases at_setPosition_cases hat with ⟨-, -, p₀, hat⟩ | ⟨-, hat⟩
    · exact h.operations hat
    · exact h.operations hat
  timers := h.timers

/-- The next entry of the queue becomes active. -/
theorem dispatch (h : w.IsServing) (q : QueueId) : (w.dispatch q).IsServing := by
  have hhooks := hooks_dispatch w q
  rcases dispatch_eq w q with heq | ⟨queue, e, rest, -, -, -, heq⟩
  · rw [heq]
    exact h
  · rw [heq] at hhooks ⊢
    exact {
      hooks := hhooks.trans h.hooks
      untroubled := h.untroubled.of_eq (verdicts_note_of_not w (x := .dispatched e) rfl) rfl
      named := h.named
      queues := (List.length_modify _ w.queues q).trans h.queues
      operations := by
        rintro j errand p ⟨given, hj⟩
        rcases getElem?_concat_cases hj with hj | ⟨-, hnew⟩
        · exact h.operations ⟨given, hj⟩
        · obtain ⟨rfl, -, -⟩ := Job.mk.inj hnew
          exact ⟨e, rfl⟩
      timers := h.timers }

/-- The outcome of an entry gets known. -/
theorem deliver (h : w.IsServing) (e : EntryId) (o : Outcome) : (w.deliver e o).IsServing := by
  rcases deliver_eq w e o with heq | ⟨ready, heq⟩
  · rw [heq]
    exact h
  · have hverdicts : (w.deliver e o).verdicts = w.verdicts ++ [.resolved e o] := by
      rw [heq]
      exact verdicts_note w (.resolved e o)
    refine ⟨(hooks_deliver w e o).trans h.hooks, ⟨fun x hx => ?_, ?_⟩, ?_, ?_, ?_, ?_⟩
    · rw [hverdicts, List.mem_append, List.mem_singleton] at hx
      rcases hx with hx | rfl
      · exact h.untroubled.outcomes x hx
      · exact ⟨e, o, rfl⟩
    all_goals rw [heq]
    · exact h.untroubled.opened
    · exact h.named
    · exact h.queues
    · exact h.operations
    · exact h.timers

/-- The entry that a job executes leaves its slot. -/
theorem resolve (h : w.IsServing) (e : EntryId) (o : Outcome) : (w.resolve e o).IsServing := by
  unfold World.resolve
  split
  · exact h
  · exact (((h.modifyQueue _ _).note rfl).dispatch _).deliver e o

end IsServing

theorem pairwise_insertTimer {t : Timer} {timers : List Timer}
    (h : timers.Pairwise fun u u' => u.deadline ≤ u'.deadline) :
    (insertTimer t timers).Pairwise fun u u' => u.deadline ≤ u'.deadline := by
  induction timers with
  | nil => exact List.pairwise_singleton _ _
  | cons u timers ih =>
    obtain ⟨hu, htimers⟩ := List.pairwise_cons.1 h
    unfold insertTimer
    split
    · next hle =>
      refine List.pairwise_cons.2 ⟨fun u' hu' => ?_, ih htimers⟩
      rcases mem_insertTimer.1 hu' with rfl | hu'
      · exact hle
      · exact hu u' hu'
    · next hlt =>
      refine List.pairwise_cons.2 ⟨fun u' hu' => ?_, h⟩
      have hle := Nat.le_of_lt (Nat.not_le.1 hlt)
      rcases List.mem_cons.1 hu' with rfl | hu'
      · exact hle
      · exact Nat.le_trans hle (hu u' hu')

/-- What is told in the turn of a job is no verdict when no hook is there to panic. -/
theorem isVerdict_of_told {x : Happening}
    (hx : ∀ e, x.entry? = some e → x.origin = .telling ∧ ∃ p, w.At j (.operation e) p)
    (hpanic : x.isPanic → ∃ h : Hook, h.Within NoHook ∧ h.panics) : x.isVerdict = false := by
  cases x with
  | reporterPanicked e call =>
    obtain ⟨h, hh, -⟩ := hpanic rfl
    exact hh.holds.elim
  | observerPanicked kind id =>
    obtain ⟨h, hh, -⟩ := hpanic rfl
    exact hh.holds.elim
  | resolved e o => exact absurd (hx e rfl).1 (by simp [Happening.origin])
  | _ => rfl

/-- **What a job may touch in its turn keeps it so**, piece by piece. -/
theorem Touch.isServing (ht : Touch NoHook j w w') (h : w.IsServing) : w'.IsServing := by
  cases ht with
  | noted x hx hpanic => exact h.note (isVerdict_of_told hx hpanic)
  | moved hp => exact h.setPosition j _
  | numbered =>
    have hraised : ({ w with manager := { w.manager with lastId := w.nextId.number } } :
        World).IsServing :=
      ⟨h.hooks, h.untroubled.of_eq rfl rfl, h.named, h.queues, h.operations, h.timers⟩
    exact hraised.note (x := .numbered w.nextId j) rfl
  | guardTaken | lineJoined | lineLeft | begun | ended | called | noticed | turnSet | unseated =>
    exact ⟨h.hooks, h.untroubled.of_eq rfl rfl, h.named, h.queues, h.operations, h.timers⟩
  | withheld q value => exact h.modifyQueue q _
  | guardReleased =>
    obtain ⟨ready, heq⟩ := releaseGuard_eq w
    rw [heq]
    exact ⟨h.hooks, h.untroubled.of_eq rfl rfl, h.named, h.queues, h.operations, h.timers⟩
  | listened token =>
    obtain ⟨tokens, heq⟩ := listen_eq w token j
    rw [heq]
    exact ⟨h.hooks, h.untroubled.of_eq rfl rfl, h.named, h.queues, h.operations, h.timers⟩
  | unlistened token =>
    obtain ⟨tokens, heq⟩ := unlisten_eq w token j
    rw [heq]
    exact ⟨h.hooks, h.untroubled.of_eq rfl rfl, h.named, h.queues, h.operations, h.timers⟩
  | timerSet deadline =>
    exact ⟨h.hooks, h.untroubled.of_eq rfl rfl, h.named, h.queues, h.operations,
      pairwise_insertTimer h.timers⟩
  | timerCleared =>
    exact ⟨h.hooks, h.untroubled.of_eq rfl rfl, h.named, h.queues, h.operations,
      h.timers.filter _⟩
  | acted site hh ha => exact hh.holds.elim
  | resolved o hat => exact h.resolve _ o
  | received hr =>
    unfold receive? at hr
    split at hr
    · obtain ⟨rfl, -⟩ := Prod.mk.inj (Option.some.inj hr)
      exact ⟨h.hooks, h.untroubled.of_eq rfl rfl, h.named, h.queues, h.operations, h.timers⟩
    · exact absurd hr (by simp)
  | seated e =>
    unfold takeSeat
    split
    · exact h
    · exact ⟨h.hooks, h.untroubled.of_eq rfl rfl, h.named, h.queues, h.operations, h.timers⟩
  | asked q hat | leftOpen q hat =>
    obtain ⟨e, heq⟩ := h.operations hat
    exact absurd heq (by simp)

theorem Touches.isServing (ht : Touches NoHook j w w') (h : w.IsServing) : w'.IsServing := by
  induction ht with
  | refl => exact h
  | tail _ ht ih => exact ht.isServing ih

/-! ## Tokens -/

/-- No token is cancelled in a turn when no hook does that. -/
theorem Touch.isCancelled (ht : Touch NoHook j w w') (token : Option String) :
    w'.isCancelled token = w.isCancelled token := by
  cases ht with
  | noted | moved | numbered | guardTaken | lineJoined | lineLeft | timerSet | timerCleared | begun
  | ended | called | noticed | unseated | withheld | leftOpen | turnSet =>
    exact isCancelled_of_tokens rfl token
  | guardReleased =>
    obtain ⟨ready, heq⟩ := releaseGuard_eq w
    exact isCancelled_of_tokens (by rw [heq]) token
  | listened other => exact isCancelled_listen w other token j
  | unlistened other => exact isCancelled_unlisten w other token j
  | acted site hh ha => exact hh.holds.elim
  | resolved o => exact isCancelled_of_tokens (tokens_resolve w _ o) token
  | received hr => exact isCancelled_of_tokens (tokens_receive? hr) token
  | seated e => exact isCancelled_of_tokens (takeSeat_tokens w e _) token
  | asked q hat =>
    refine isCancelled_of_tokens ?_ token
    exact (takeSeat_tokens _ _ _).trans (tokens_request (w.withhold q true) q _ _)

theorem Touches.isCancelled (ht : Touches NoHook j w w') (token : Option String) :
    w'.isCancelled token = w.isCancelled token := by
  induction ht with
  | refl => rfl
  | tail _ ht ih => exact (ht.isCancelled token).trans ih

/-! ## Moves -/

theorem IsServing.fire (h : w.IsServing) (t : Timer) : (w.fire t).IsServing := by
  unfold World.fire
  dsimp only
  obtain ⟨ready, heq⟩ := wakeAll_eq
    ((w.timers.takeWhile fun u => u.deadline ≤ t.deadline).map Timer.job)
    { w with clock := max w.clock t.deadline
             timers := w.timers.dropWhile fun u => u.deadline ≤ t.deadline }
  rw [heq]
  exact ⟨h.hooks, h.untroubled.of_eq rfl rfl, h.named, h.queues, h.operations,
    h.timers.sublist (List.dropWhile_sublist _)⟩

theorem IsServing.pass (h : w.IsServing) (moment : Nat) :
    ({ w with clock := moment } : World).IsServing :=
  ⟨h.hooks, h.untroubled.of_eq rfl rfl, h.named, h.queues, h.operations, h.timers⟩

/-- **A move keeps it so.** -/
theorem Move.isServing (hm : Move w w') (h : w.IsServing) : w'.IsServing := by
  cases hm with
  | turn j hj =>
    have htaken : ({ w with ready := w.ready.erase j } : World).IsServing :=
      ⟨h.hooks, h.untroubled.of_eq rfl rfl, h.named, h.queues, h.operations, h.timers⟩
    exact (turn_touches (htaken.calledBy NoHook)).isServing htaken
  | fire t rest => exact h.fire t

/-- **No token is cancelled by a move.** -/
theorem Move.isCancelled (hm : Move w w') (h : w.IsServing) (token : Option String) :
    w'.isCancelled token = w.isCancelled token := by
  cases hm with
  | turn j hj =>
    have htaken : ({ w with ready := w.ready.erase j } : World).CalledBy NoHook := h.calledBy NoHook
    exact (turn_touches htaken).isCancelled token
  | fire t rest =>
    obtain ⟨timers, ready, heq⟩ := fire_eq w t
    exact isCancelled_of_tokens (by rw [heq]) token

/-- All moves come to an end. -/
theorem IsServing.acc (h : w.IsServing) (hw : Reachable w) : Acc (flip Move) w :=
  hw.acc (h.calledBy Hook.AsksNothing).asksNoMore

/-! ## What the user does -/

/-- The user requests an operation. -/
theorem IsServing.request (h : w.IsServing) (op : Operation) (token : Option String)
    (handle : String) : (w.perform (.request "" op token handle)).1.IsServing := by
  have hrequested : (w.request 0 op token).1.IsServing := by
    rcases request_eq w 0 op token with heq | ⟨queue, e, -, -, heq⟩ | ⟨queue, -, -, heq⟩ <;> rw [heq]
    · exact h
    · exact h.note rfl
    · refine IsServing.dispatch ?_ 0
      have happended : ({ w with entries := w.entries ++
          [{ queue := 0, operation := op, token }] } : World).IsServing :=
        ⟨h.hooks, h.untroubled.of_eq rfl rfl, h.named, h.queues, h.operations, h.timers⟩
      exact (happended.modifyQueue 0 _).note rfl
  rw [perform, withQueue, h.named]
  exact ⟨hrequested.hooks, hrequested.untroubled.of_eq rfl rfl, hrequested.named, hrequested.queues,
    hrequested.operations, hrequested.timers⟩

theorem tokens_perform_request (w : World) (op : Operation) (token : Option String)
    (handle : String) : (w.perform (.request "" op token handle)).1.tokens = w.tokens := by
  simp only [perform, withQueue]
  split
  · exact tokens_request w _ op token
  · rfl

/-- The user cancels a token. -/
theorem IsServing.cancel (h : w.IsServing) (x : String) : (w.cancel x).IsServing := by
  obtain ⟨tokens, ready, heq⟩ := cancel_eq w x
  rw [heq]
  exact ⟨h.hooks, h.untroubled.of_eq rfl rfl, h.named, h.queues, h.operations, h.timers⟩

theorem isCancelled_cancel (w : World) (x y : String) :
    (w.cancel x).isCancelled (some y) = (w.isCancelled (some y) || x == y) := by
  unfold cancel
  dsimp only
  by_cases hxy : x = y
  · subst hxy
    rw [beq_self_eq_true, Bool.or_true]
    split
    · next hcancelled => exact hcancelled
    · rw [isCancelled_of_tokens (tokens_wakeAll _ _), isCancelled, token_setToken, if_pos rfl]
  · rw [beq_eq_false_iff_ne.2 hxy, Bool.or_false]
    split
    · rfl
    · rw [isCancelled_of_tokens (tokens_wakeAll _ _), isCancelled, token_setToken,
        if_neg (Ne.symm hxy)]
      rfl

end Serving

end FolderTasks.Dispatch.World
