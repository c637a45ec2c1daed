import FolderTasks.Proofs.Dispatch.TurnChanges
/-!
# Facts carry their moment

While jobs take their turns and the user does things at one moment, the clock stands still, and
whatever is written down meanwhile carries this moment.  So when something is known to be added to
what was seen of a kind, its moment is known as well.

## Main definitions

* `World.timed`: the facts of one kind with their moments.
* `World.Stamps`: a change during which the clock stands still.

## Main statements

* `World.Change.stamps`: an elementary change stamps what it writes down, or nothing is written down
  and only the clock goes on.
* `World.Transition.sorts_stamps`: so does a transition.
* `World.Stamps.timed_eq`: what is added to the facts of one kind is added with its moment.
* `World.Arises.le_clock`: no fact lies in the future.
-/

namespace FolderTasks.Dispatch.World

/-- The facts of one kind, each with its moment, in the order in which they happened. -/
def timed {α : Type} (w : World) (f : Happening → Option α) : List (Nat × α) :=
  (w.history.filterMap fun p => (f p.2).map fun a => (p.1, a)).reverse

/-- **The clock stands still**, and what is written down carries the moment. -/
structure Stamps (w w' : World) : Prop where
  clock : w'.clock = w.clock
  facts : ∃ facts : List Happening, w'.history = facts.map (w.clock, ·) ++ w.history

/-- Only the clock goes on. -/
structure Elapses (w w' : World) : Prop where
  clock : w.clock ≤ w'.clock
  history : w'.history = w.history

section Stamping

variable {w w' w'' : World} {j : JobId}

namespace Stamps

theorem refl (w : World) : Stamps w w := ⟨rfl, [], rfl⟩

theorem trans (h : Stamps w w') (h' : Stamps w' w'') : Stamps w w'' := by
  obtain ⟨facts, hfacts⟩ := h.facts
  obtain ⟨facts', hfacts'⟩ := h'.facts
  refine ⟨h'.clock.trans h.clock, facts' ++ facts, ?_⟩
  rw [hfacts', hfacts, h.clock, List.map_append, List.append_assoc]

/-- Nothing is written down. -/
theorem of_eq (hclock : w'.clock = w.clock) (hhistory : w'.history = w.history) : Stamps w w' :=
  ⟨hclock, [], hhistory⟩

/-- A fact is new, and then it carries the moment, or it was there before. -/
theorem mem_history (h : Stamps w w') {p : Nat × Happening} (hp : p ∈ w'.history) :
    p.1 = w.clock ∨ p ∈ w.history := by
  obtain ⟨facts, hfacts⟩ := h.facts
  rw [hfacts, List.mem_append] at hp
  refine hp.imp_left ?_
  intro hp
  obtain ⟨x, -, rfl⟩ := List.mem_map.1 hp
  rfl

end Stamps

theorem stamps_note (w : World) (x : Happening) : Stamps w (w.note x) := ⟨rfl, [x], rfl⟩

theorem Stamps.note (h : Stamps w w') (x : Happening) : Stamps w (w'.note x) :=
  h.trans (stamps_note w' x)

theorem stamps_wakeAll (js : List JobId) (w : World) : Stamps w (w.wakeAll js) := by
  obtain ⟨ready, heq⟩ := wakeAll_eq js w
  rw [heq]
  exact .of_eq rfl rfl

theorem stamps_listen (w : World) (token : Option String) (j : JobId) :
    Stamps w (w.listen token j) := by
  obtain ⟨tokens, heq⟩ := listen_eq w token j
  rw [heq]
  exact .of_eq rfl rfl

theorem stamps_unlisten (w : World) (token : Option String) (j : JobId) :
    Stamps w (w.unlisten token j) := by
  obtain ⟨tokens, heq⟩ := unlisten_eq w token j
  rw [heq]
  exact .of_eq rfl rfl

theorem stamps_releaseGuard (w : World) : Stamps w w.releaseGuard := by
  obtain ⟨ready, heq⟩ := releaseGuard_eq w
  rw [heq]
  exact .of_eq rfl rfl

theorem stamps_dropExecution (w : World) (call : Call) : Stamps w (w.dropExecution call) := by
  obtain ⟨tokens, timers, ready, g, heq⟩ := dropExecution_eq w call
  rw [heq]
  exact .of_eq rfl rfl

theorem stamps_takeSeat (w : World) (e : EntryId) (who : Waiter) :
    Stamps w (w.takeSeat e who).1 := by
  unfold takeSeat
  split
  · exact .refl w
  · exact .of_eq rfl rfl

theorem stamps_receive? {e : EntryId} {o : Outcome} (hr : w.receive? e = some (w', o)) :
    Stamps w w' := by
  unfold receive? at hr
  split at hr
  · obtain ⟨rfl, -⟩ := Prod.mk.inj (Option.some.inj hr)
    exact .of_eq rfl rfl
  · exact absurd hr (by simp)

theorem stamps_dispatch (w : World) (q : QueueId) : Stamps w (w.dispatch q) := by
  rcases dispatch_eq w q with heq | ⟨queue, e, rest, -, -, -, heq⟩ <;> rw [heq]
  · exact .refl w
  · exact ⟨rfl, [.dispatched e], rfl⟩

theorem stamps_append (w : World) (q : QueueId) (queue : Queue) (op : Operation)
    (token : Option String) : Stamps w (w.append q queue op token).1 :=
  ⟨rfl, [.queued w.entries.length queue.name op.label (queue.pending.length + 1)], rfl⟩

theorem stamps_request (w : World) (q : QueueId) (op : Operation) (token : Option String) :
    Stamps w (w.request q op token).1 := by
  rcases request_eq w q op token with heq | ⟨queue, e, -, -, heq⟩ | ⟨queue, -, -, heq⟩ <;> rw [heq]
  · exact .refl w
  · exact stamps_note w _
  · exact (stamps_append w q queue op token).trans (stamps_dispatch _ q)

theorem stamps_deliver (w : World) (e : EntryId) (o : Outcome) : Stamps w (w.deliver e o) := by
  unfold deliver
  split
  · exact .refl w
  · refine Stamps.trans ?_ (stamps_wakeAll _ _)
    exact ⟨rfl, [.resolved e o], rfl⟩

theorem stamps_resolve (w : World) (e : EntryId) (o : Outcome) : Stamps w (w.resolve e o) := by
  unfold resolve
  split
  · exact .refl w
  · refine Stamps.trans ?_ ((stamps_dispatch _ _).trans (stamps_deliver _ e o))
    exact ⟨rfl, [.vacated e], rfl⟩

theorem stamps_discard (w : World) (j : JobId) (job : Job) : Stamps w (w.discard j job) := by
  have hreset (e : EntryId) (seat : Nat) : Stamps w (w.discardReset e seat) := by
    unfold discardReset
    split
    · exact .refl w
    · next entry _ =>
      dsimp only
      split
      · exact ⟨rfl, [.resetOver entry.queue e], rfl⟩
      · exact .of_eq rfl rfl
  unfold discard
  split
  · exact (stamps_dropExecution w _).trans (.of_eq rfl rfl)
  · exact (hreset _ _).trans (.of_eq rfl rfl)
  · exact .of_eq rfl rfl

/-! ## Change by change -/

theorem Deed.stamps (hd : Deed w w') : Stamps w w' := by
  cases hd with
  | scripted | named | queueMade | watched | begun | observed => exact .of_eq rfl rfl
  | requested q op token => exact stamps_request w q op token
  | cancelled name =>
    obtain ⟨tokens, ready, heq⟩ := cancel_eq w name
    rw [heq]
    exact .of_eq rfl rfl
  | withheld q value => exact ⟨rfl, [.withholdingSet q value], rfl⟩
  | disposed =>
    obtain ⟨history, manager, heq, rfl | rfl, -⟩ := disposeManager_eq w <;> rw [heq]
    · exact .of_eq rfl rfl
    · exact ⟨rfl, [.managerDisposed], rfl⟩
  | abandoned name j =>
    rcases abandonJob_eq w j with heq | ⟨ready, heq⟩ <;> rw [heq]
    · exact .refl w
    · exact .of_eq rfl rfl
  | answered site reply => exact stamps_note w _

theorem Deeds.stamps (hd : Deeds w w') : Stamps w w' := by
  induction hd with
  | refl => exact .refl w
  | tail _ hd ih => exact ih.trans hd.stamps

theorem Telling.stamps (ht : Telling w w') : Stamps w w' := by
  cases ht with
  | reported e call isRecorded => exact ⟨rfl, [.reported e call isRecorded], rfl⟩
  | @startNoticed call id execution name => exact ⟨rfl, [.startNoticed name id call.command], rfl⟩
  | @endNoticed call name id code => exact ⟨rfl, [.endNoticed name id call.command code], rfl⟩
  | reporterPanicked | startPanicked | endPanicked | failureTold | finishTold =>
    exact stamps_note w _

theorem Stride.stamps (hs : Stride w w') : Stamps w w' := by
  have hnumbered (j : JobId) : Stamps w (w.takeNumber j) := ⟨rfl, [.numbered w.nextId j], rfl⟩
  cases hs with
  | rejected | timerCleared | startDelayed | forsaken => exact .of_eq rfl rfl
  | @guardTaken call => exact (hnumbered call.job).trans (.of_eq rfl rfl)
  | @lineJoined call =>
    refine Stamps.trans ?_ (stamps_listen _ _ _)
    exact ((hnumbered call.job).note (.waitsToStart w.nextId)).trans (.of_eq rfl rfl)
  | @turnedAway call =>
    exact (((hnumbered call.job).note (.waitsToStart w.nextId)).note
      (.cancelledBeforeStart w.nextId)).trans (.of_eq rfl rfl)
  | unlistened j token => exact stamps_unlisten w token j
  | @lineLeft call id => exact ⟨rfl, [.cancelledBeforeStart id], rfl⟩
  | @guardReturned call id =>
    exact ((stamps_releaseGuard w).note (.cancelledBeforeStart id)).trans (.of_eq rfl rfl)
  | @startAsked call id => exact ⟨rfl, [.startAsked id call.command], rfl⟩
  | @refused call id f =>
    refine Stamps.trans ?_ (stamps_releaseGuard _)
    exact ⟨rfl, [.startFailed id call.command f], rfl⟩
  | @started call id b execution =>
    refine Stamps.note (Stamps.trans ?_ (stamps_releaseGuard _)) _
    exact ⟨rfl, [.started id call.command], rfl⟩
  | @endAwaited call id execution =>
    have hset : Stamps w (w.setTimer execution.deadline call.job) := .of_eq rfl rfl
    exact hset.trans (stamps_listen _ call.token call.job)
  | @completed call id execution =>
    exact ⟨rfl, [.endAnnounced id call.command execution.exitCode,
      .ended id call.command execution.exitCode], rfl⟩
  | @terminated call id =>
    exact ⟨rfl, [.endAnnounced id call.command none, .ended id call.command none,
      .terminating id], rfl⟩

theorem Closing.stamps (hc : Closing w w') : Stamps w w' := by
  cases hc with
  | closed o => exact (stamps_resolve w _ o).trans (.of_eq rfl rfl)
  | @executionEnded j name _ _ result => exact ⟨rfl, [.jobEnded .execution name result], rfl⟩
  | @resetRefused j name folder =>
    exact ⟨rfl, [.jobEnded .reset name (.failure (.folderNotFound folder))], rfl⟩
  | resetForgotten => exact .of_eq rfl rfl
  | @resetAsked j name folder token q =>
    have hwithheld : Stamps w (w.withhold q true) := .of_eq rfl rfl
    have hasked := hwithheld.trans (stamps_request (w.withhold q true) q
      (PackageAction.reset.operation w.toolchain folder) token)
    exact ((hasked.note _).trans (stamps_takeSeat _ _ _)).trans (.of_eq rfl rfl)
  | seatTaken e => exact (stamps_takeSeat w e _).trans (.of_eq rfl rfl)
  | @resetConcluded w₁ j name folder token e seat entry o _ _ hr =>
    refine (stamps_receive? hr).trans ⟨rfl, [.jobEnded .reset name (.outcome o),
      .resetOver entry.queue e, .packageReset folder o], rfl⟩
  | watchEnded o _ _ hr =>
    refine (stamps_receive? hr).trans ?_
    split
    · exact (stamps_note _ _).trans (.of_eq rfl rfl)
    · exact .of_eq rfl rfl
  | @reopened w₁ j q e p o _ _ hr =>
    exact (stamps_receive? hr).trans ⟨rfl, [.resetOver q e], rfl⟩
  | @discarded j job => exact stamps_discard w j job

/-- **An elementary change stamps what it writes down**, or nothing is written down. -/
theorem Change.stamps (hc : Change w w') : Stamps w w' ∨ Elapses w w' := by
  cases hc with
  | deed hd => exact .inl hd.stamps
  | telling ht => exact .inl ht.stamps
  | stride hs => exact .inl hs.stamps
  | closing hc => exact .inl hc.stamps
  | drift hd =>
    cases hd with
    | turnTaken | turnSet | folderListed | foldersUnlisted | seatLeft => exact .inl (.of_eq rfl rfl)
    | fired t =>
      obtain ⟨timers, ready, heq⟩ := fire_eq w t
      rw [heq]
      exact .inr ⟨Nat.le_max_left _ _, rfl⟩
    | passed moment h => exact .inr ⟨h, rfl⟩
    | folderTold => exact .inl (stamps_note w _)
    | sat e => exact .inl (stamps_takeSeat w e _)
    | received e o h => exact .inl (stamps_receive? h)

theorem Work.stamps (hw : Work w w') : Stamps w w' := by
  cases hw with
  | turnTaken | turnSet => exact .of_eq rfl rfl
  | answered site a => exact (Deeds.stamps (perform_deeds w a)).note _
  | telling ht => exact ht.stamps
  | stride hs => exact hs.stamps
  | closing hc => exact hc.stamps

theorem Works.stamps (hw : Works w w') : Stamps w w' := by
  induction hw with
  | refl => exact .refl w
  | tail _ hw ih => exact ih.trans hw.stamps

theorem instant_stamps (w : World) {s : Step} (h : s.isInstant) : Stamps w (w.step s).1 := by
  cases s with
  | act a => exact Deeds.stamps (perform_deeds w a)
  | settle | advance | await => exact Bool.noConfusion h
  | addFolder folder =>
    simp only [step, addFolder]
    split
    · exact .of_eq rfl rfl
    · exact ⟨rfl, [.folderAdded folder], rfl⟩
  | removeFolder folder =>
    simp only [step, removeFolder]
    split
    · exact .refl w
    · exact ⟨rfl, [.folderRemoved folder], rfl⟩
  | folders | toolchain => exact .refl w
  | find folder =>
    simp only [step]
    split <;> exact .refl w
  | run folder action token handle =>
    simp only [step]
    split
    · exact Deeds.stamps (requestNamed_deeds ..)
    · exact .refl w
  | tasks folder products =>
    simp only [step]
    split <;> exact .refl w
  | dispose => exact (Deed.disposed (w := w)).stamps.trans (.of_eq rfl rfl)

/-- **A transition stamps what it writes down**, or only the clock goes on. -/
theorem Transition.sorts_stamps (t : Transition w w') : Stamps w w' ∨ Elapses w w' := by
  cases t with
  | act s h => exact .inl (instant_stamps w h)
  | turn j h => exact .inl (takeTurn_works h).stamps
  | fire t h => exact (Change.drift (.fired t h)).stamps
  | pass moment h => exact .inr ⟨h, rfl⟩
  | sit e => exact .inl (stamps_takeSeat w e _)
  | leave e entry seat he h => exact .inl (.of_eq rfl rfl)
  | receive e o h => exact .inl (stamps_receive? h)

/-! ## Facts with their moments -/

section Dates

variable {α : Type} {f : Happening → Option α}

theorem mem_timed {t : Nat} {a : α} :
    (t, a) ∈ w.timed f ↔ ∃ x, (t, x) ∈ w.history ∧ f x = some a := by
  simp only [timed, List.mem_reverse, List.mem_filterMap, Option.map_eq_some_iff, Prod.exists,
    Prod.mk.injEq]
  constructor
  · rintro ⟨t', x, hmem, a', hx, rfl, rfl⟩
    exact ⟨x, hmem, hx⟩
  · rintro ⟨x, hmem, hx⟩
    exact ⟨t, x, hmem, a, hx, rfl, rfl⟩

/-- Without their moments these are the facts that were seen. -/
theorem map_snd_timed (w : World) (f : Happening → Option α) :
    (w.timed f).map Prod.snd = w.seen f := by
  rw [timed, seen, List.map_reverse, List.map_filterMap]
  congr
  funext p
  cases f p.2 <;> rfl

theorem timed_of_history (h : w'.history = w.history) : w'.timed f = w.timed f := by
  rw [timed, timed, h]

/-- **What is added to the facts of one kind is added with its moment.** -/
theorem Stamps.timed_eq (h : Stamps w w') {more : List α} (hseen : w'.seen f = w.seen f ++ more) :
    w'.timed f = w.timed f ++ more.map (w.clock, ·) := by
  obtain ⟨facts, hfacts⟩ := h.facts
  have hnew : (facts.filterMap f).reverse = more := by
    rw [seen, hfacts, List.filterMap_append, List.reverse_append, List.filterMap_map] at hseen
    exact List.append_cancel_left hseen
  rw [timed, hfacts, List.filterMap_append, List.reverse_append, List.filterMap_map, ← hnew,
    List.map_reverse, List.map_filterMap]
  rfl

end Dates

/-- **No fact lies in the future**, in the middle of a turn either. -/
theorem Arises.le_clock (hw : Arises w) : ∀ p ∈ w.history, p.1 ≤ w.clock := by
  refine hw.induction (P := fun w => ∀ p ∈ w.history, p.1 ≤ w.clock)
    (fun s p hp => absurd hp List.not_mem_nil) fun {w w'} _ ih hc p hp => ?_
  rcases hc.stamps with hs | he
  · rcases hs.mem_history hp with hnew | hold
    · exact Nat.le_of_eq (hnew.trans hs.clock.symm)
    · exact hs.clock.symm ▸ ih p hold
  · exact Nat.le_trans (ih p (he.history ▸ hp)) he.clock

end Stamping

end FolderTasks.Dispatch.World
