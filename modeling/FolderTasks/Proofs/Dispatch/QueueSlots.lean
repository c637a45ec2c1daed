import FolderTasks.Proofs.Dispatch.LastingFacts
/-!
# What happens to the slots of queues

Most elementary changes leave the active entry and the waiting entries of every queue alone.  Those
that do not make a queue, request an operation, or take an entry out of its active slot; so an
invariant of the slots is proved for three cases.

## Main definitions

* `World.Shift`: what a change does to the slots.
* `World.IsAdvanced`: nothing waits for a slot that is free.

## Main statements

* `World.Change.shift`: what an elementary change does to the slots.
* `World.slots_request`, `World.slots_resolve`: what a request and an outcome do to them.
* `World.Arises.isAdvanced`: nothing ever waits for a slot that is free.
-/

namespace FolderTasks.Dispatch.World

/-- The active entry and the waiting entries of each queue. -/
def slots (w : World) : List (Option EntryId × List EntryId) := w.queues.map Queue.slot

/-- What the entries are to have executed. -/
def orders (w : World) : List (Operation × Option String) := w.entries.map Entry.order

/-- **Nothing waits for a slot that is free.** -/
def IsAdvanced (w : World) : Prop :=
  ∀ (q : QueueId) (pending : List EntryId), w.slots[q]? = some (none, pending) → pending = []

/-- **What a change does to the slots.** -/
inductive Shift (w w' : World) : Prop where
  | kept (h : w'.slots = w.slots)
  /-- A queue is made. -/
  | made (h : w'.slots = w.slots ++ [(none, [])])
  /-- An operation is requested. -/
  | requested {w₀ : World} (q : QueueId) (op : Operation) (token : Option String)
      (h₀ : w₀.slots = w.slots) (hentries : w₀.entries = w.entries)
      (h : w'.slots = (w₀.request q op token).1.slots)
      (horders : w'.orders = (w₀.request q op token).1.orders)
  /-- An entry leaves its slot. -/
  | resolved (e : EntryId) (o : Outcome) (h : w'.slots = (w.resolve e o).slots)

section Slots

variable {w w' : World} {q : QueueId}

theorem slots_modifyQueue (w : World) (q : QueueId) {f : Queue → Queue}
    {k : Option EntryId × List EntryId → Option EntryId × List EntryId}
    (h : ∀ queue, (f queue).slot = k queue.slot) :
    (w.modifyQueue q f).slots = w.slots.modify q k := map_modify h w.queues q

theorem slots_withhold (w : World) (q : QueueId) (value : Bool) :
    (w.withhold q value).slots = w.slots := by
  have hslots := slots_modifyQueue w q (f := fun queue => { queue with isWithheld := value })
    (k := id) fun _ => rfl
  rwa [List.modify_id] at hslots

/-- The first waiting entry takes a slot that is free. -/
theorem slots_dispatch (w : World) (q : QueueId) :
    (∃ e rest, w.slots[q]? = some (none, e :: rest) ∧
      (w.dispatch q).slots = w.slots.modify q fun _ => (some e, rest)) ∨
    (∀ pending, w.slots[q]? = some (none, pending) → pending = []) ∧
      (w.dispatch q).slots = w.slots := by
  unfold dispatch
  split
  · next e rest _ hq =>
    refine .inl ⟨e, rest, by simp [slots, hq, Queue.slot], ?_⟩
    exact slots_modifyQueue w q fun _ => rfl
  · next hidle =>
    refine .inr ⟨fun pending hslot => ?_, rfl⟩
    rw [slots, List.getElem?_map] at hslot
    obtain ⟨⟨name, isRecorded, pending', active, isWithheld⟩, hq, heq⟩ :=
      Option.map_eq_some_iff.1 hslot
    obtain ⟨rfl, rfl⟩ := Prod.mk.inj heq
    cases pending' with
    | nil => rfl
    | cons e rest => exact (hidle _ _ e rest _ hq).elim

/-- A request that is not absorbed becomes an entry at the end of its queue. -/
theorem slots_request (w : World) (q : QueueId) (op : Operation) (token : Option String) :
    (w.request q op token).1.slots = w.slots ∨
      ∃ (queue : Queue) (w₁ : World), w.queues[q]? = some queue ∧ w.absorber? queue op = none ∧
        w₁.slots = w.slots.modify q (fun s => (s.1, s.2 ++ [w.entries.length])) ∧
        w₁.entries = w.entries ++ [{ queue := q, operation := op, token }] ∧
        (w.request q op token).1 = w₁.dispatch q := by
  rcases request_eq w q op token with heq | ⟨queue, e, -, -, heq⟩ | ⟨queue, hq, habsorber, heq⟩
  · exact .inl (by rw [heq])
  · exact .inl (by rw [heq]; rfl)
  · refine .inr ⟨queue, (w.append q queue op token).1, hq, habsorber, ?_, rfl, by rw [heq]⟩
    exact slots_modifyQueue w q fun _ => rfl

theorem slots_deliver (w : World) (e : EntryId) (o : Outcome) :
    (w.deliver e o).slots = w.slots := by
  rcases deliver_eq w e o with heq | ⟨ready, heq⟩
  · rw [heq]
  · rw [heq]
    rfl

/-- An entry that leaves its slot makes room for the next one. -/
theorem slots_resolve (w : World) (e : EntryId) (o : Outcome) :
    (w.resolve e o).slots = w.slots ∨
      ∃ (w₁ : World) (q : QueueId), w₁.slots = w.slots.modify q (fun s => (none, s.2)) ∧
        (w.resolve e o).slots = (w₁.dispatch q).slots := by
  unfold resolve
  split
  · exact .inl rfl
  · next entry he =>
    refine .inr ⟨(w.modifyQueue entry.queue fun queue => { queue with active := none }).note
      (.vacated e), entry.queue, ?_, slots_deliver _ e o⟩
    exact slots_modifyQueue w entry.queue fun _ => rfl

/-! ## Change by change -/

theorem slots_takeSeat (w : World) (e : EntryId) (who : Waiter) :
    (w.takeSeat e who).1.slots = w.slots := by
  unfold takeSeat
  split <;> rfl

theorem orders_takeSeat (w : World) (e : EntryId) (who : Waiter) :
    (w.takeSeat e who).1.orders = w.orders := by
  unfold takeSeat
  split
  · rfl
  · next entry _ =>
    have horders := map_modify (g := Entry.order) (k := id)
      (f := fun e => { e with room := (entry.room.enter who).1 }) (fun _ => rfl) w.entries e
    rwa [List.modify_id] at horders

theorem slots_receive? {e : EntryId} {o : Outcome} (h : w.receive? e = some (w', o)) :
    w'.slots = w.slots := by
  unfold receive? at h
  split at h
  · obtain ⟨rfl, -⟩ := Prod.mk.inj (Option.some.inj h)
    rfl
  · exact absurd h (by simp)

theorem slots_reopen (w : World) (q : QueueId) (e : EntryId) : (w.reopen q e).slots = w.slots :=
  slots_withhold w q false

theorem slots_discard (w : World) (j : JobId) (job : Job) : (w.discard j job).slots = w.slots := by
  unfold discard
  dsimp only
  split
  · next name command token _ =>
    obtain ⟨tokens, timers, ready, g, heq⟩ := dropExecution_eq w ⟨j, command, token⟩
    rw [heq]
    rfl
  · next e seat _ _ =>
    unfold discardReset
    split
    · rfl
    · dsimp only
      split
      · exact slots_reopen (w.leaveSeat e seat) _ e
      · rfl
  · rfl

theorem Deed.shift (hd : Deed w w') : Shift w w' := by
  cases hd with
  | scripted | named | observed | answered | watched | begun => exact .kept rfl
  | queueMade name isRecorded => exact .made List.map_append
  | requested q op token => exact .requested q op token rfl rfl rfl rfl
  | cancelled name =>
    obtain ⟨tokens, ready, heq⟩ := cancel_eq w name
    exact .kept (by rw [heq]; rfl)
  | withheld q value => exact .kept (slots_withhold w q value)
  | disposed =>
    obtain ⟨history, manager, heq, -⟩ := disposeManager_eq w
    exact .kept (by rw [heq]; rfl)
  | abandoned name j =>
    rcases abandonJob_eq w j with heq | ⟨ready, heq⟩
    · exact .kept (by rw [heq])
    · exact .kept (by rw [heq]; rfl)

theorem Closing.shift (hc : Closing w w') : Shift w w' := by
  cases hc with
  | closed o => exact .resolved _ o rfl
  | executionEnded | resetRefused | resetForgotten => exact .kept rfl
  | resetAsked q =>
    exact .requested q _ _ (slots_withhold w q true) rfl (slots_takeSeat _ _ _)
      (orders_takeSeat _ _ _)
  | seatTaken e => exact .kept (slots_takeSeat w e _)
  | @resetConcluded w₁ j name folder token e seat entry o hat he hr =>
    have hreopened := slots_reopen (w₁.note (.packageReset folder o)) entry.queue e
    exact .kept (hreopened.trans (slots_receive? hr : w₁.slots = w.slots))
  | watchEnded o hat hp hr =>
    refine .kept (Eq.trans ?_ (slots_receive? hr))
    split <;> rfl
  | @reopened w₁ j q e p o hat hp hr =>
    exact .kept ((slots_reopen w₁ q e).trans (slots_receive? hr))
  | @discarded j job => exact .kept (slots_discard w j job)

/-- **What an elementary change does to the slots.** -/
theorem Change.shift (hc : Change w w') : Shift w w' := by
  cases hc with
  | deed hd => exact hd.shift
  | drift hd => exact .kept (congrArg Ledger.slots hd.ledger)
  | telling ht => exact .kept (congrArg Ledger.slots ht.ledger)
  | stride hs => exact .kept (congrArg Ledger.slots hs.ledger)
  | closing hc => exact hc.shift

/-! ## Free slots -/

theorem IsAdvanced.of_slots (h : w.IsAdvanced) (heq : w'.slots = w.slots) : w'.IsAdvanced :=
  fun q pending hslot => h q pending (heq ▸ hslot)

/-- A queue on which the first waiting entry is made active is advanced. -/
theorem isAdvanced_dispatch (h : ∀ (q' : QueueId) (pending : List EntryId), q' ≠ q →
    w.slots[q']? = some (none, pending) → pending = []) :
    (w.dispatch q).IsAdvanced := by
  intro q' pending hslot
  rcases slots_dispatch w q with ⟨e, rest, -, heq⟩ | ⟨hfree, heq⟩
  · rw [heq] at hslot
    rcases getElem?_modify_cases hslot with ⟨-, slot, -, hnew⟩ | ⟨hqq, hold⟩
    · exact absurd (Prod.mk.inj hnew).1 (by simp)
    · exact h q' pending hqq.symm hold
  · rw [heq] at hslot
    by_cases hqq : q' = q
    · exact hfree pending (hqq ▸ hslot)
    · exact h q' pending hqq hslot

/-- Only the queue that was changed may need to be advanced. -/
theorem isAdvanced_dispatch_of_modify {w₁ : World} (h : w.IsAdvanced)
    {f : Option EntryId × List EntryId → Option EntryId × List EntryId}
    (heq : w₁.slots = w.slots.modify q f) : (w₁.dispatch q).IsAdvanced := by
  refine isAdvanced_dispatch fun q' pending hqq hslot => ?_
  rw [heq] at hslot
  rcases getElem?_modify_cases hslot with ⟨rfl, -⟩ | ⟨-, hold⟩
  · exact absurd rfl hqq
  · exact h q' pending hold

/-- **No elementary change leaves a free slot with something waiting for it.** -/
theorem Shift.isAdvanced (hs : Shift w w') (h : w.IsAdvanced) : w'.IsAdvanced := by
  cases hs with
  | kept heq => exact h.of_slots heq
  | made heq =>
    intro q pending hslot
    rw [heq] at hslot
    rcases getElem?_concat_cases hslot with hslot | ⟨-, hnew⟩
    · exact h q pending hslot
    · exact (Prod.mk.inj hnew).2
  | @requested w₀ q op token h₀ hentries heq =>
    rcases slots_request w₀ q op token with hkept | ⟨queue, w₁, -, -, hslots, -, hrequest⟩
    · exact h.of_slots (heq.trans (hkept.trans h₀))
    · exact (isAdvanced_dispatch_of_modify (h.of_slots h₀) hslots).of_slots (hrequest ▸ heq)
  | resolved e o heq =>
    rcases slots_resolve w e o with hkept | ⟨w₁, q, hslots, hresolve⟩
    · exact h.of_slots (heq.trans hkept)
    · exact (isAdvanced_dispatch_of_modify h hslots).of_slots (heq.trans hresolve)

/-- **Nothing ever waits for a slot that is free.** -/
theorem Arises.isAdvanced (hw : Arises w) : w.IsAdvanced := by
  refine hw.induction (fun s q pending hslot => ?_) fun _ h hc => hc.shift.isAdvanced h
  simp [slots, Setting.world] at hslot

end Slots

end FolderTasks.Dispatch.World
