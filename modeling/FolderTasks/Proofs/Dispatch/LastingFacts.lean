import FolderTasks.Proofs.Dispatch.TaskNumbers
/-!
# Facts that no change takes back

A cancelled token stays cancelled, a disposed manager stays disposed, and the operation and the
token of an entry are never exchanged.  Each fact has an origin, which is the sort of elementary
change that writes it down; a change that writes no facts of a kind leaves what was seen of that
kind as it is.

## Main definitions

* `Happening.origin`: the sort of change that writes a fact down.
* `World.Lasts`: what no change takes back.
* `World.Mild`: a change that also moves no job and leaves the right to start alone.

## Main statements

* `World.Arises.lasts`: every elementary change.
* `World.Deed.mild`, `World.Telling.mild`, `World.Closing.mild`: the mild ones.
-/

namespace FolderTasks.Dispatch

/-- The sorts of elementary changes that write facts down. -/
inductive Origin where
  | deed
  | drift
  | telling
  | stride
  | closing
  /-- An outcome gets known when a job ends. -/
  | outcome
deriving DecidableEq

/-- The sort of elementary change that writes a fact down. -/
def Happening.origin : Happening → Origin
  | .absorbed .. | .queued .. | .dispatched _ | .withholdingSet .. | .managerDisposed
  | .hookAnswered .. => .deed
  | .folderAdded _ | .folderRemoved _ => .drift
  | .reported .. | .reporterPanicked .. | .startNoticed .. | .observerPanicked .. | .endNoticed ..
  | .notExecuted .. | .finished .. => .telling
  | .numbered .. | .waitsToStart _ | .cancelledBeforeStart _ | .startAsked .. | .started ..
  | .startFailed .. | .startAnnounced .. | .terminating _ | .ended .. | .endAnnounced .. => .stride
  | .vacated _ | .watched .. | .jobEnded .. | .resetAsked .. | .resetOver ..
  | .packageReset .. => .closing
  | .resolved .. => .outcome

/-- What an entry is to have executed, and the token with which that can be cancelled. -/
def Entry.order (entry : Entry) : Operation × Option String := (entry.operation, entry.token)

namespace World

/-- **What no change takes back**, and where the facts come from that it writes down. -/
structure Lasts (O : List Origin) (w w' : World) : Prop where
  facts : ∃ facts, w'.history = facts ++ w.history ∧ ∀ p ∈ facts, p.2.origin ∈ O
  orders : w.entries.map Entry.order <+: w'.entries.map Entry.order
  cancelled : ∀ token, w.isCancelled token → w'.isCancelled token
  disposed : w.manager.isDisposed → w'.manager.isDisposed

/-- **A change that moves no job**, leaves the right to start alone, and takes no job's turn
away. -/
structure Mild (O : List Origin) (w w' : World) : Prop extends Lasts O w w' where
  guard : w'.manager.guard = w.manager.guard
  records : w'.backend.records = w.backend.records
  ready : ∀ j ∈ w.ready, j ∈ w'.ready
  stays : ∀ {j : JobId} {errand : Errand} {p : Position}, w.At j errand p → w'.At j errand p

/-! ## Composition -/

section Composition

variable {O : List Origin} {w w' w'' : World}

theorem Lasts.refl (w : World) : Lasts O w w :=
  ⟨⟨[], rfl, by simp⟩, List.prefix_rfl, fun _ h => h, id⟩

theorem Lasts.trans (h : Lasts O w w') (h' : Lasts O w' w'') :
    Lasts O w w'' := by
  obtain ⟨facts, hw', hfacts⟩ := h.facts
  obtain ⟨facts', hw'', hfacts'⟩ := h'.facts
  refine ⟨⟨facts' ++ facts, ?_, ?_⟩, ?_, ?_, ?_⟩
  · rw [hw'', hw', List.append_assoc]
  · intro p hp
    rcases List.mem_append.1 hp with hp | hp
    · exact hfacts' p hp
    · exact hfacts p hp
  · exact h.orders.trans h'.orders
  · intro token ht
    exact h'.cancelled token (h.cancelled token ht)
  · intro hd
    exact h'.disposed (h.disposed hd)

/-- Facts that come from some changes come from more. -/
theorem Lasts.weaken {O' : List Origin} (h : Lasts O w w')
    (hsub : ∀ o ∈ O, o ∈ O') : Lasts O' w w' := by
  obtain ⟨facts, hw', hfacts⟩ := h.facts
  refine ⟨⟨facts, hw', ?_⟩, h.orders, h.cancelled, h.disposed⟩
  intro p hp
  exact hsub _ (hfacts p hp)

theorem Mild.refl (w : World) : Mild O w w := ⟨.refl w, rfl, rfl, fun _ h => h, fun h => h⟩

theorem Mild.trans (h : Mild O w w') (h' : Mild O w' w'') : Mild O w w'' := by
  refine ⟨h.toLasts.trans h'.toLasts, h'.guard.trans h.guard, h'.records.trans h.records, ?_, ?_⟩
  · intro j hj
    exact h'.ready j (h.ready j hj)
  · intro j errand p hat
    exact h'.stays (h.stays hat)

theorem Mild.weaken {O' : List Origin} (h : Mild O w w')
    (hsub : ∀ o ∈ O, o ∈ O') : Mild O' w w' :=
  ⟨h.toLasts.weaken hsub, h.guard, h.records, h.ready, h.stays⟩

/-- A change of nothing that lasts. -/
theorem Lasts.of_eq (hhistory : w'.history = w.history)
    (horders : w'.entries.map Entry.order = w.entries.map Entry.order)
    (htokens : w'.tokens = w.tokens)
    (hdisposed : w'.manager.isDisposed = w.manager.isDisposed) : Lasts O w w' := by
  refine ⟨⟨[], hhistory, by simp⟩, ?_, ?_, ?_⟩
  · rw [horders]
  · intro token ht
    cases token with
    | none => exact ht
    | some name => rwa [isCancelled, token, htokens]
  · rw [hdisposed]
    exact id

/-- A change of nothing that matters to the turns. -/
theorem Mild.of_eq (hhistory : w'.history = w.history)
    (horders : w'.entries.map Entry.order = w.entries.map Entry.order)
    (htokens : w'.tokens = w.tokens) (hmanager : w'.manager = w.manager)
    (hrecords : w'.backend.records = w.backend.records) (hready : w'.ready = w.ready)
    (hjobs : w'.jobs = w.jobs) : Mild O w w' := by
  refine ⟨.of_eq hhistory horders htokens (by rw [hmanager]), by rw [hmanager], hrecords, ?_, ?_⟩
  · rw [hready]
    exact fun _ h => h
  · intro j errand p hat
    exact hat.of_jobs (hjobs ▸ List.prefix_rfl)

theorem mild_note (w : World) {h : Happening} (ho : h.origin ∈ O) :
    Mild O w (w.note h) := by
  refine ⟨⟨⟨[(w.clock, h)], rfl, ?_⟩, List.prefix_rfl, fun _ h => h, id⟩, rfl, rfl, fun _ h => h,
    fun h => h⟩
  intro p hp
  rw [List.mem_singleton.1 hp]
  exact ho

theorem Mild.note (hw : Mild O w w') {h : Happening} (ho : h.origin ∈ O) :
    Mild O w (w'.note h) := hw.trans (mild_note w' ho)

end Composition

/-! ## What is read off -/

section Reading

variable {O : List Origin} {w w' : World}

theorem Lasts.history (h : Lasts O w w') : w.history <:+ w'.history := by
  obtain ⟨facts, hw', -⟩ := h.facts
  exact ⟨facts, hw'.symm⟩

theorem Lasts.mem_history (h : Lasts O w w') {p : Nat × Happening} (hp : p ∈ w.history) :
    p ∈ w'.history := h.history.subset hp

/-- A change that writes no facts of a kind. -/
theorem Lasts.seen_eq {α : Type} {f : Happening → Option α} (h : Lasts O w w')
    (hf : ∀ x, x.origin ∈ O → f x = none) : w'.seen f = w.seen f := by
  obtain ⟨facts, hw', hfacts⟩ := h.facts
  have hnone : facts.filterMap (fun p => f p.2) = [] := by
    refine List.filterMap_eq_nil_iff.2 ?_
    intro p hp
    exact hf p.2 (hfacts p hp)
  rw [seen, seen, hw', List.filterMap_append, hnone, List.nil_append]

/-- An entry keeps what it is to have executed. -/
theorem Lasts.entryOf? (h : Lasts O w w') {e : EntryId} {entry : Entry}
    (he : w.entryOf? e = some entry) :
    ∃ entry', w'.entryOf? e = some entry' ∧ entry'.order = entry.order := by
  -- Entries may change, and only what they order is known to stay: the list of orders grows.
  have horder : (w'.entries.map Entry.order)[e]? = some entry.order := by
    refine getElem?_of_isPrefix h.orders ?_
    rw [List.getElem?_map]
    exact congrArg (Option.map Entry.order) he
  rw [List.getElem?_map] at horder
  exact Option.map_eq_some_iff.1 horder

/-- A job keeps its call. -/
theorem Lasts.callOf? (h : Lasts O w w') {j : JobId} {errand : Errand} {call : Call}
    (hc : w.callOf? j errand = some call) : w'.callOf? j errand = some call := by
  cases errand with
  | operation e =>
    obtain ⟨entry, he, rfl⟩ := Option.map_eq_some_iff.1 hc
    obtain ⟨entry', he', horder⟩ := h.entryOf? he
    obtain ⟨hoperation, htoken⟩ := Prod.mk.inj horder
    exact Option.map_eq_some_iff.2 ⟨entry', he', by rw [hoperation, htoken]⟩
  | execution | reset | watch | reopen => exact hc

end Reading

/-! ## Small pieces -/

section Pieces

variable {O : List Origin} {w w' : World}

theorem mild_modifyQueue (w : World) (q : QueueId) (f : Queue → Queue) :
    Mild O w (w.modifyQueue q f) := .of_eq rfl rfl rfl rfl rfl rfl rfl

theorem mild_withhold (w : World) (q : QueueId) (value : Bool) :
    Mild O w (w.withhold q value) := mild_modifyQueue w q _

theorem mild_modifyEntry (w : World) (e : EntryId) {f : Entry → Entry}
    (hf : ∀ entry, (f entry).order = entry.order) : Mild O w (w.modifyEntry e f) := by
  refine .of_eq rfl ?_ rfl rfl rfl rfl rfl
  have horders := map_modify (g := Entry.order) (k := id) hf w.entries e
  rwa [List.modify_id] at horders

theorem lasts_setPosition (w : World) (j : JobId) (p : Position) :
    Lasts O w (w.setPosition j p) := .of_eq rfl rfl rfl rfl

theorem mild_spawn (w : World) (errand : Errand) : Mild O w (w.spawn errand).1 := by
  refine ⟨.of_eq rfl rfl rfl rfl, rfl, rfl, ?_, ?_⟩
  · intro j hj
    exact List.mem_append_left _ hj
  · intro j errand p hat
    exact hat.of_jobs (List.prefix_append _ _)

theorem mild_wake (w : World) (j : JobId) : Mild O w (w.wake j) := by
  unfold wake
  split
  · exact .refl w
  · refine ⟨.of_eq rfl rfl rfl rfl, rfl, rfl, ?_, fun h => h⟩
    intro i hi
    exact List.mem_append_left _ hi

theorem mild_wakeAll (js : List JobId) (w : World) : Mild O w (w.wakeAll js) := by
  induction js generalizing w with
  | nil => exact .refl w
  | cons j js ih => exact (mild_wake w j).trans (ih _)

/-- Every job that is woken has its turn coming. -/
theorem mem_ready_wake (w : World) (j : JobId) : j ∈ (w.wake j).ready := by
  unfold wake
  split
  · next hj => exact hj
  · exact List.mem_append_right _ List.mem_cons_self

theorem mild_takeSeat (w : World) (e : EntryId) (who : Waiter) :
    Mild O w (w.takeSeat e who).1 := by
  unfold takeSeat
  split
  · exact .refl w
  · exact mild_modifyEntry w e fun _ => rfl

theorem mild_leaveSeat (w : World) (e : EntryId) (seat : Nat) :
    Mild O w (w.leaveSeat e seat) := mild_modifyEntry w e fun _ => rfl

theorem mild_receive? {e : EntryId} {o : Outcome} (h : w.receive? e = some (w', o)) :
    Mild O w w' := by
  unfold receive? at h
  split at h
  · obtain ⟨rfl, -⟩ := Prod.mk.inj (Option.some.inj h)
    exact mild_modifyEntry w e fun _ => rfl
  · exact absurd h (by simp)

/-- A token that changes what it is for those who wait, but is not reinstated. -/
theorem isCancelled_setToken {name : String} {t : Token}
    (ht : (w.token name).isCancelled → t.isCancelled) (other : Option String)
    (h : w.isCancelled other) : (w.setToken name t).isCancelled other := by
  cases other with
  | none => exact h
  | some other =>
    rw [isCancelled, token_setToken]
    split
    · next heq => exact ht (heq ▸ h)
    · exact h

theorem mild_listen (w : World) (token : Option String) (j : JobId) :
    Mild O w (w.listen token j) := by
  cases token with
  | none => exact .refl w
  | some name =>
    exact ⟨⟨⟨[], rfl, by simp⟩, List.prefix_rfl, isCancelled_setToken id, id⟩, rfl, rfl,
      fun _ h => h, fun h => h⟩

theorem mild_unlisten (w : World) (token : Option String) (j : JobId) :
    Mild O w (w.unlisten token j) := by
  cases token with
  | none => exact .refl w
  | some name =>
    exact ⟨⟨⟨[], rfl, by simp⟩, List.prefix_rfl, isCancelled_setToken id, id⟩, rfl, rfl,
      fun _ h => h, fun h => h⟩

/-- Passing on the right to start takes nothing back. -/
theorem lasts_releaseGuard (w : World) : Lasts O w w.releaseGuard := by
  obtain ⟨ready, heq⟩ := releaseGuard_eq w
  rw [heq]
  exact .of_eq rfl rfl rfl rfl

theorem lasts_dropExecution (w : World) (call : Call) : Lasts O w (w.dropExecution call) := by
  have hcleared : Lasts O w ((w.unlisten call.token call.job).clearTimer call.job) :=
    (mild_unlisten w call.token call.job).toLasts.trans (.of_eq rfl rfl rfl rfl)
  unfold dropExecution
  dsimp only
  split
  · split
    · exact hcleared.trans (lasts_releaseGuard _)
    · exact hcleared.trans (.of_eq rfl rfl rfl rfl)
  · exact hcleared.trans (lasts_releaseGuard _)
  · exact hcleared

theorem mild_cancel (w : World) (name : String) : Mild O w (w.cancel name) := by
  unfold cancel
  dsimp only
  split
  · exact .refl w
  · refine .trans ?_ (mild_wakeAll _ _)
    -- What is cancelled stays so; only those who listened are woken.
    exact ⟨⟨⟨[], rfl, by simp⟩, List.prefix_rfl, isCancelled_setToken fun _ => rfl, id⟩, rfl,
      rfl, fun _ h => h, fun h => h⟩

end Pieces

/-! ## Requests and resolutions -/

section Queueing

variable {O : List Origin} {w : World}

theorem mild_dispatch (w : World) (q : QueueId) (ho : .deed ∈ O) :
    Mild O w (w.dispatch q) := by
  unfold dispatch
  split
  · next e rest _ _ =>
    exact ((mild_modifyQueue w q _).note (h := .dispatched e) ho).trans (mild_spawn _ _)
  · exact .refl w

theorem mild_append (w : World) (q : QueueId) (queue : Queue) (op : Operation)
    (token : Option String) (ho : .deed ∈ O) :
    Mild O w (w.append q queue op token).1 := by
  have hentry : Mild O w { w with
      entries := w.entries ++ [{ queue := q, operation := op, token }] } :=
    ⟨⟨⟨[], rfl, by simp⟩, List.map_append ▸ List.prefix_append _ _, fun _ h => h, id⟩, rfl,
      rfl, fun _ h => h, fun h => h⟩
  exact (hentry.trans (mild_modifyQueue _ q _)).note (h := .queued _ _ _ _) ho

theorem mild_request (w : World) (q : QueueId) (op : Operation) (token : Option String)
    (ho : .deed ∈ O) : Mild O w (w.request q op token).1 := by
  -- A request finds no queue, is absorbed by a pending entry, or makes an entry of its own.
  rcases request_eq w q op token with h | ⟨queue, e, -, -, h⟩ | ⟨queue, -, -, h⟩
  · rw [h]
    exact .refl w
  · rw [h]
    exact mild_note w ho
  · rw [h]
    exact (mild_append w q queue op token ho).trans (mild_dispatch _ q ho)

theorem mild_deliver (w : World) (e : EntryId) (o : Outcome) (ho : .outcome ∈ O) :
    Mild O w (w.deliver e o) := by
  unfold deliver
  split
  · exact .refl w
  · have hknown := mild_modifyEntry (O := O) w e
      (f := fun entry => { entry with outcome := some o }) fun _ => rfl
    exact (hknown.note (h := .resolved e o) ho).trans (mild_wakeAll _ _)

theorem mild_resolve (w : World) (e : EntryId) (o : Outcome) :
    Mild [.deed, .closing, .outcome] w (w.resolve e o) := by
  unfold resolve
  split
  · exact .refl w
  · next entry he =>
    refine .trans ?_ (mild_deliver _ e o (by simp))
    refine .trans ?_ (mild_dispatch _ _ (by simp))
    exact (mild_modifyQueue w entry.queue _).note (h := .vacated e) (by simp [Happening.origin])

theorem mild_reopen (w : World) (q : QueueId) (e : EntryId) (ho : .closing ∈ O) :
    Mild O w (w.reopen q e) := (mild_withhold w q false).note (h := .resetOver q e) ho

theorem mild_discardReset (w : World) (e : EntryId) (seat : Nat) :
    Mild [.deed, .closing] w (w.discardReset e seat) := by
  unfold discardReset
  split
  · exact .refl w
  · next entry he =>
    dsimp only
    split
    · exact (mild_leaveSeat w e seat).trans (mild_reopen _ _ _ (by simp))
    · exact (mild_leaveSeat w e seat).trans (mild_spawn _ _)

end Queueing

/-! ## Change by change -/

section Changes

variable {w w' : World}

theorem Deed.mild (hd : Deed w w') : Mild [.deed] w w' := by
  have hat {j : JobId} {errand : Errand} {p : Position} (h : w.At j errand p) : w'.At j errand p :=
    hd.at h
  cases hd with
  | scripted | named | queueMade => exact .of_eq rfl rfl rfl rfl rfl rfl rfl
  | requested q op token => exact mild_request w q op token (by simp)
  | cancelled name => exact mild_cancel w name
  | withheld q value => exact (mild_withhold w q value).note (by simp [Happening.origin])
  | watched handle e => exact mild_spawn w _
  | begun name errand hnamed =>
    exact (mild_spawn w errand).trans (.of_eq rfl rfl rfl rfl rfl rfl rfl)
  | observed => exact ⟨.of_eq rfl rfl rfl rfl, rfl, rfl, fun _ h => h, hat⟩
  | disposed =>
    obtain ⟨history, manager, heq, hhistory, -, hguard, hdisposed⟩ := disposeManager_eq w
    rw [heq]
    refine ⟨⟨?_, List.prefix_rfl, fun _ h => h, fun _ => hdisposed⟩, hguard, rfl, fun _ h => h,
      fun h => h⟩
    -- Only the first time is it written down that the manager is disposed of.
    rcases hhistory with rfl | rfl
    · exact ⟨[], rfl, by simp⟩
    · exact ⟨[(w.clock, .managerDisposed)], rfl, by simp [Happening.origin]⟩
  | abandoned name j hj =>
    refine ⟨?_, ?_, ?_, ?_, hat⟩
    · rcases abandonJob_eq w j with heq | ⟨ready, heq⟩ <;> rw [heq] <;> exact .of_eq rfl rfl rfl rfl
    · rcases abandonJob_eq w j with heq | ⟨ready, heq⟩ <;> rw [heq]
    · rcases abandonJob_eq w j with heq | ⟨ready, heq⟩ <;> rw [heq]
    · intro i hi
      unfold abandonJob
      split
      · exact hi
      · dsimp only
        split
        · exact hi
        · exact (mild_wake (O := []) _ j).ready i hi
  | answered site reply => exact mild_note w (by simp [Happening.origin])

theorem Deeds.mild (hd : Deeds w w') : Mild [.deed] w w' := by
  induction hd with
  | refl => exact .refl w
  | tail _ hd ih => exact ih.trans hd.mild

theorem Telling.mild (ht : Telling w w') : Mild [.telling] w w' := by
  cases ht with
  | reported | startNoticed | endNoticed =>
    exact Mild.trans (mild_note w (by simp [Happening.origin])) (.of_eq rfl rfl rfl rfl rfl rfl rfl)
  | reporterPanicked | startPanicked | endPanicked | failureTold | finishTold =>
    exact mild_note w (by simp [Happening.origin])

/-- What goes on around the turns is mild, but for the turn that is taken. -/
theorem Drift.mild (hd : Drift w w') :
    (∃ j, w' = { w with ready := w.ready.erase j }) ∨ Mild [.drift] w w' := by
  cases hd with
  | turnTaken j => exact .inl ⟨j, rfl⟩
  | turnSet | passed | folderListed | foldersUnlisted =>
    exact .inr (.of_eq rfl rfl rfl rfl rfl rfl rfl)
  | fired t ht =>
    have hmoved : Mild [.drift] w { w with
        clock := max w.clock t.deadline
        timers := w.timers.dropWhile fun u => u.deadline ≤ t.deadline } :=
      .of_eq rfl rfl rfl rfl rfl rfl rfl
    exact .inr (hmoved.trans (mild_wakeAll _ _))
  | folderTold fact hfact =>
    refine .inr (mild_note w ?_)
    rcases hfact with ⟨f, rfl⟩ | ⟨f, rfl⟩ <;> simp [Happening.origin]
  | sat e => exact .inr (mild_takeSeat w e .outside)
  | seatLeft e entry seat => exact .inr (mild_leaveSeat w e seat)
  | received e o hr => exact .inr (mild_receive? hr)

theorem Drift.lasts (hd : Drift w w') : Lasts [.drift] w w' := by
  rcases hd.mild with ⟨j, rfl⟩ | hm
  · exact ⟨⟨[], rfl, by simp⟩, List.prefix_rfl, fun _ h => h, id⟩
  · exact hm.toLasts

/-- A job is dropped with what it executes, ends with the outcome of its entry, or has no part in an
execution. -/
theorem Closing.sorts (hc : Closing w w') (ho : w.ledger.IsOrderly) (hn : IsNumbered w) :
    (∃ j name command token p, w.At j (.execution name command token) p ∧ p ≠ .done ∧
      w' = (w.dropExecution ⟨j, command, token⟩).endJob j) ∨
    (∃ j e o p, w.At j (.operation e) p ∧ p.id? = none ∧ (p = .fresh → o = .terminated) ∧
      w' = (w.resolve e o).endJob j) ∨
    ∃ w₁ j errand p p', Mild [.deed, .closing] w w₁ ∧ w.At j errand p ∧ p.id? = none ∧
      errand.entry? = none ∧ w' = w₁.setPosition j p' := by
  cases hc with
  | closed o hat hp hover =>
    refine .inr (.inl ⟨_, _, o, _, hat, ?_⟩)
    -- The job is past its call, or the reporter panicked before it began; its entry is there.
    rcases hover with rfl | ⟨rfl, rfl⟩ | hnone
    · exact ⟨rfl, by simp, rfl⟩
    · exact ⟨rfl, fun _ => rfl, rfl⟩
    · obtain ⟨entry, he⟩ := hat.exists_entry ho
      rw [hnone] at he
      exact absurd he (by simp)
  | executionEnded result hat =>
    exact .inr <| .inr ⟨_, _, _, _, _, mild_note w (by simp [Happening.origin]), hat, rfl, rfl, rfl⟩
  | resetAsked q hat hq =>
    refine .inr <| .inr ⟨_, _, _, _, _, ?_, hat, rfl, rfl, rfl⟩
    refine Mild.trans ?_ (mild_takeSeat _ _ _)
    refine Mild.note ?_ (by simp [Happening.origin])
    exact (mild_withhold w q true).trans (mild_request _ q _ _ (by simp))
  | resetRefused hat hq =>
    exact .inr <| .inr ⟨_, _, _, _, _, mild_note w (by simp [Happening.origin]), hat, rfl, rfl, rfl⟩
  | seatTaken e hat hp he =>
    refine .inr <| .inr ⟨_, _, _, _, _, mild_takeSeat w e _, hat, hn.idle hat ?_, ?_, rfl⟩
    · rcases he with ⟨handle, rfl⟩ | ⟨q, rfl⟩ <;> rfl
    · rcases he with ⟨handle, rfl⟩ | ⟨q, rfl⟩ <;> rfl
  | resetConcluded o hat he hr =>
    refine .inr <| .inr
      ⟨_, _, _, _, _, Mild.note ?_ (by simp [Happening.origin]), hat, rfl, rfl, rfl⟩
    refine Mild.trans ?_ (mild_reopen _ _ _ (by simp))
    exact (mild_receive? hr).note (by simp [Happening.origin])
  | resetForgotten hat he => exact .inr <| .inr ⟨_, _, _, _, _, .refl w, hat, rfl, rfl, rfl⟩
  | watchEnded o hat hp hr =>
    refine .inr <| .inr ⟨_, _, _, _, _, ?_, hat, hn.idle hat rfl, rfl, rfl⟩
    split
    · exact (mild_receive? hr).note (by simp [Happening.origin])
    · exact mild_receive? hr
  | reopened o hat hp hr =>
    exact .inr <| .inr ⟨_, _, _, _, _, (mild_receive? hr).trans (mild_reopen _ _ _ (by simp)), hat,
      hn.idle hat rfl, rfl, rfl⟩
  | @discarded j job hj ha hp =>
    have hat : w.At j job.errand job.position := ⟨job.isAbandoned, hj⟩
    have hnamed : job.errand.isNamed :=
      ho.abandoned job.runner (List.mem_map_of_mem (List.mem_of_getElem? hj)) ha
    unfold discard
    dsimp only
    split
    · next name command token herrand =>
      exact .inl ⟨j, name, command, token, job.position, herrand ▸ hat, hp, rfl⟩
    · next name folder token e seat herrand hposition =>
      refine .inr <| .inr ⟨_, _, _, _, _, mild_discardReset w _ _, hat, ?_, ?_, rfl⟩
      · rw [hposition]
        rfl
      · rw [herrand]
        rfl
    -- Whoever is dropped has a name, so it serves no entry.
    · next hexecution hreset =>
      have hidle : job.errand.isCall = false ∧ job.errand.entry? = none := by
        cases herrand : job.errand with
        | execution name command token => exact absurd herrand (hexecution name command token)
        | operation e =>
          rw [herrand] at hnamed
          exact absurd hnamed (by simp [Errand.isNamed])
        | reset | watch | reopen => exact ⟨rfl, rfl⟩
      exact .inr <| .inr ⟨_, _, _, _, _, .refl w, hat, hn.idle hat hidle.1, hidle.2, rfl⟩

/-- A job that is dropped where it stands passes on the right to start, if it has it.  All else that
ends a job or has it wait is mild, but for the job that moves, which has no part in an execution. -/
theorem Closing.mild (hc : Closing w w') (ho : w.ledger.IsOrderly) (hn : IsNumbered w) :
    (∃ j name command token p, w.At j (.execution name command token) p ∧ p ≠ .done ∧
      w' = (w.dropExecution ⟨j, command, token⟩).endJob j) ∨
    ∃ w₁ j errand p p', Mild [.deed, .closing, .outcome] w w₁ ∧ w.At j errand p ∧ p.id? = none ∧
      w' = w₁.setPosition j p' := by
  rcases hc.sorts ho hn with hdropped | ⟨j, e, o, p, hat, hp, -, rfl⟩ |
    ⟨w₁, j, errand, p, p', hm, hat, hp, -, rfl⟩
  · exact .inl hdropped
  · exact .inr ⟨_, j, _, p, .done, mild_resolve w e o, hat, hp, rfl⟩
  · exact .inr ⟨w₁, j, errand, p, p', hm.weaken (by simp), hat, hp, rfl⟩

theorem Closing.lasts (hc : Closing w w') (ho : w.ledger.IsOrderly) (hn : IsNumbered w) :
    Lasts [.deed, .closing, .outcome] w w' := by
  rcases hc.mild ho hn with ⟨j, name, command, token, p, -, -, rfl⟩ |
    ⟨w₁, j, -, -, p, hm, -, -, rfl⟩
  · exact (lasts_dropExecution w _).trans (lasts_setPosition _ j .done)
  · exact hm.toLasts.trans (lasts_setPosition w₁ j p)

/-- The stages of executing a command write down how far they are. -/
theorem Stride.lasts (hs : Stride w w') : Lasts [.stride] w w' := by
  have hnote {w₁ : World} (h : Lasts [.stride] w w₁) {x : Happening} (hx : x.origin = .stride) :
      Lasts [.stride] w (w₁.note x) := h.trans (mild_note w₁ (by simp [hx])).toLasts
  have hset {w₁ : World} (h : Lasts [.stride] w w₁) (j : JobId) (p : Position) :
      Lasts [.stride] w (w₁.setPosition j p) := h.trans (lasts_setPosition w₁ j p)
  have hnumber (j : JobId) : Lasts [.stride] w (w.takeNumber j) := by
    have hgiven : Lasts [.stride] w
        { w with manager := { w.manager with lastId := w.nextId.number } } :=
      .of_eq rfl rfl rfl rfl
    exact hnote hgiven rfl
  have hbackend {w₁ : World} (h : Lasts [.stride] w w₁) (b : Scripted) :
      Lasts [.stride] w (w₁.setBackend b) := h.trans (.of_eq rfl rfl rfl rfl)
  cases hs with
  | rejected => exact hset (.refl w) _ _
  | @guardTaken call =>
    refine hset ((hnumber call.job).trans ?_) _ _
    exact .of_eq rfl rfl rfl rfl
  | @lineJoined call =>
    refine .trans (hset ?_ _ _) (mild_listen _ _ _).toLasts
    exact (hnote (hnumber call.job) rfl).trans (.of_eq rfl rfl rfl rfl)
  | turnedAway => exact hset (hnote (hnote (hnumber _) rfl) rfl) _ _
  | unlistened j token => exact (mild_unlisten w token j).toLasts
  | timerCleared | startDelayed => exact .of_eq rfl rfl rfl rfl
  | @lineLeft call =>
    have hleft : Lasts [.stride] w (w.leaveLine call.job) := .of_eq rfl rfl rfl rfl
    exact hset (hnote hleft rfl) _ _
  | guardReturned => exact hset (hnote (lasts_releaseGuard w) rfl) _ _
  | startAsked => exact hset (hnote (.refl w) rfl) _ _
  | refused => exact (hset (hnote (.refl w) rfl) _ _).trans (lasts_releaseGuard _)
  | started =>
    refine hnote (.trans ?_ (lasts_releaseGuard _)) rfl
    exact hset (hnote (hbackend (.refl w) _) rfl) _ _
  | forsaken => exact hset (.refl w) _ _
  | @endAwaited call id execution =>
    have htimer : Lasts [.stride] w (w.setTimer execution.deadline call.job) :=
      .of_eq rfl rfl rfl rfl
    exact htimer.trans (mild_listen _ _ _).toLasts
  | completed => exact hnote (hset (hnote (hbackend (.refl w) _) rfl) _ _) rfl
  | terminated =>
    exact hnote (hset (hnote (hbackend (hnote (.refl w) rfl) _) rfl) _ _) rfl

/-- **No elementary change takes anything back** that lasts. -/
theorem Arises.lasts (h : Arises w) (hc : Change w w') :
    Lasts [.deed, .drift, .telling, .stride, .closing, .outcome] w w' := by
  cases hc with
  | deed hd => exact hd.mild.toLasts.weaken (by simp)
  | drift hd => exact hd.lasts.weaken (by simp)
  | telling ht => exact ht.mild.toLasts.weaken (by simp)
  | stride hs => exact hs.lasts.weaken (by simp)
  | closing hc => exact (hc.lasts h.isOrderly h.isNumbered).weaken (by simp)

/-- Nothing that lasts is ever taken back. -/
theorem Arises.lasts_changes (hw : Arises w) (hc : Changes w w') :
    Lasts [.deed, .drift, .telling, .stride, .closing, .outcome] w w' := by
  induction hc with
  | refl => exact .refl w
  | tail hc hlast ih => exact ih.trans ((hw.changes hc).lasts hlast)

end Changes

end World

end FolderTasks.Dispatch
