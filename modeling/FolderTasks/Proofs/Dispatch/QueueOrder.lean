import FolderTasks.Proofs.Dispatch.TaskNumbers
/-!
# Queues serve in order

Whatever the user, the callbacks and the scheduler do, the entries of a queue are served in the
order of their creation.  None is lost and none is served twice: an entry is dispatched once, the
backend is asked at most once to start its command, and its outcome is known at most once, after
the entry has left the active slot.

## Main definitions

* `World.createdOn`, `World.dispatchedOn`, `World.finishedOn`: the entries of a queue.
* `World.startsOf`, `World.outcomesOf`: what became of an entry.
* `World.ServesInOrder`: a queue serves in order.

## Main statements

* `World.Reachable.servesInOrder`: every queue serves in order.
-/

namespace FolderTasks.Dispatch.World

/-! ## What became of the entries -/

/-- Does an entry belong to a queue? -/
def belongs (w : World) (q : QueueId) (e : EntryId) : Bool :=
  (w.entryOf? e).any fun entry => entry.queue == q

/-- The entries ever created on a queue, in the order of their creation. -/
def createdOn (w : World) (q : QueueId) : List EntryId :=
  (w.seen Happening.queued?).filter (w.belongs q)

/-- The entries of a queue that ever became active, in that order. -/
def dispatchedOn (w : World) (q : QueueId) : List EntryId :=
  (w.seen Happening.dispatched?).filter (w.belongs q)

/-- The entries of a queue that left the active slot, in the order in which they became active. -/
def finishedOn (w : World) (q : QueueId) : List EntryId :=
  (w.dispatchedOn q).filter fun e => (w.seen Happening.vacated?).contains e

/-- The entry that a task serves. -/
def entryServed? (w : World) (id : TaskId) : Option EntryId :=
  ((w.seen Happening.numbered?).lookup id).bind fun j =>
    (w.jobs[j]?).bind fun job => job.errand.entry?

/-- The tasks that the backend was asked to start for an entry. -/
def startsOf (w : World) (e : EntryId) : List TaskId :=
  (w.seen Happening.startAsked?).filter fun id => w.entryServed? id == some e

/-- The outcomes that became known for an entry. -/
def outcomesOf (w : World) (e : EntryId) : List Outcome :=
  (w.seen Happening.resolved?).filterMap fun p => if p.1 = e then some p.2 else none

/-- **A queue serves in order**, without loss and without duplicates. -/
structure ServesInOrder (w : World) (q : QueueId) (queue : Queue) : Prop where
  /-- Every entry is finished, active or waiting, in the order of creation. -/
  created : w.createdOn q = w.finishedOn q ++ queue.active.toList ++ queue.pending
  /-- Entries become active once and in order. -/
  dispatched : w.dispatchedOn q = w.finishedOn q ++ queue.active.toList
  ascending : (w.createdOn q).Pairwise (· < ·)
  /-- The backend is asked at most once, and never for an entry that waits. -/
  started : ∀ e ∈ w.createdOn q, (w.startsOf e).length ≤ 1
  unstarted : ∀ e ∈ queue.pending, w.startsOf e = []
  /-- The outcome becomes known at most once, for an entry that left the active slot before. -/
  resolved : ∀ e ∈ w.createdOn q, (w.outcomesOf e).length ≤ 1
  left : ∀ {older newer : List (Nat × Happening)} {t : Nat} {e : EntryId} {o : Outcome},
    w.history = newer ++ (t, .resolved e o) :: older → w.belongs q e →
    e ∈ w.finishedOn q ∧ ∃ t', (t', .vacated e) ∈ older
  /-- What can be received is what became known. -/
  known : ∀ {e : EntryId} {entry : Entry} {o : Outcome}, w.entryOf? e = some entry →
    entry.queue = q → entry.outcome = some o → w.outcomesOf e = [o]

/-! ## The ledger tells -/

section Ledger

variable {w : World}

theorem isOn_eq_belongs (w : World) (q : QueueId) : w.ledger.isOn q = w.belongs q := by
  funext e
  rw [Ledger.isOn, belongs, ledger, List.getElem?_map, entryOf?]
  cases w.entries[e]? <;> rfl

theorem slot_eq {q : QueueId} {queue : Queue} (hq : w.queues[q]? = some queue) :
    w.ledger.slots[q]? = some (queue.active, queue.pending) := by
  simp [ledger, hq, Queue.slot]

/-- The entries that left the slot of a queue are the first that became active. -/
theorem finishedOn_eq (h : w.ledger.IsOrderly) {q : QueueId} {queue : Queue}
    (hq : w.queues[q]? = some queue) :
    w.finishedOn q = (w.seen Happening.vacated?).filter (w.belongs q) := by
  have hbegun := h.begun (slot_eq hq)
  rw [isOn_eq_belongs] at hbegun
  rw [finishedOn, dispatchedOn]
  change (w.ledger.dispatched.filter _).filter _ = w.ledger.vacated.filter _
  rw [hbegun, List.filter_append]
  have hgone : ∀ e ∈ w.ledger.vacated.filter (w.belongs q),
      (w.seen Happening.vacated?).contains e := fun e he =>
    List.contains_iff_mem.2 (List.mem_filter.1 he).1
  have hactive : queue.active.toList.filter
      (fun e => (w.seen Happening.vacated?).contains e) = [] := by
    refine List.filter_eq_nil_iff.2 fun e he => ?_
    have hslot := slot_eq hq
    rw [Option.mem_toList.1 he] at hslot
    rw [List.contains_iff_mem]
    exact (h.active_spec hslot).2.2
  rw [List.filter_eq_self.2 hgone, hactive, List.append_nil]

/-- A list without repetitions whose items are all alike has at most one. -/
theorem length_le_one_of_nodup {α : Type} {l : List α} (h : l.Nodup)
    (heq : ∀ a ∈ l, ∀ b ∈ l, a = b) : l.length ≤ 1 := by
  match l with
  | [] => exact Nat.zero_le 1
  | [_] => exact Nat.le_refl 1
  | a :: b :: l =>
    have hab : a = b := heq a List.mem_cons_self b (List.mem_cons_of_mem _ List.mem_cons_self)
    exact absurd (hab ▸ List.mem_cons_self) (List.nodup_cons.1 h).1

/-- The job behind the task that serves an entry. -/
theorem exists_job_of_entryServed? {id : TaskId} {e : EntryId} (h : w.entryServed? id = some e) :
    ∃ j p, (id, j) ∈ w.account.numbered ∧ w.At j (.operation e) p := by
  obtain ⟨j, hlookup, hj⟩ := Option.bind_eq_some_iff.1 h
  obtain ⟨job, hjob, herrand⟩ := Option.bind_eq_some_iff.1 hj
  obtain ⟨before, after, hsplit, -⟩ := List.lookup_eq_some_iff.1 hlookup
  have hentry : job.errand = .operation e := by
    revert herrand
    cases job.errand <;> simp [Errand.entry?]
  refine ⟨j, job.position, ?_, job.isAbandoned, ?_⟩
  · change (id, j) ∈ w.seen Happening.numbered?
    rw [hsplit]
    exact List.mem_append_right _ List.mem_cons_self
  · rw [hjob, ← hentry]

theorem At.mem_dispatched (h : w.ledger.IsOrderly) {j : JobId} {e : EntryId} {p : Position}
    (hat : w.At j (.operation e) p) : e ∈ w.ledger.dispatched := by
  obtain ⟨given, hj⟩ := hat.runner
  rw [← h.runners, List.mem_filterMap]
  exact ⟨_, List.mem_of_getElem? hj, rfl⟩

/-- At most one task serves an entry. -/
theorem length_startsOf (h : w.ledger.IsOrderly) (hn : IsNumbered w) (e : EntryId) :
    (w.startsOf e).length ≤ 1 := by
  refine length_le_one_of_nodup (hn.askedOnce.filter _) fun id hid id' hid' => ?_
  obtain ⟨j, p, hj, hat⟩ := exists_job_of_entryServed? (beq_iff_eq.1 (List.mem_filter.1 hid).2)
  obtain ⟨j', p', hj', hat'⟩ := exists_job_of_entryServed? (beq_iff_eq.1 (List.mem_filter.1 hid').2)
  obtain ⟨given, hrunner⟩ := hat.runner
  obtain ⟨given', hrunner'⟩ := hat'.runner
  obtain rfl := h.runner_unique hrunner hrunner' rfl rfl
  exact hn.id_unique hj hj'

theorem length_outcomesOf (h : w.ledger.IsOrderly) (e : EntryId) :
    (w.outcomesOf e).length ≤ 1 := by
  have hresolved := h.resolvedOnce
  change ((w.seen Happening.resolved?).map Prod.fst).Nodup at hresolved
  rw [outcomesOf]
  generalize w.seen Happening.resolved? = resolved at hresolved
  induction resolved with
  | nil => exact Nat.zero_le 1
  | cons p resolved ih =>
    rw [List.map_cons, List.nodup_cons] at hresolved
    by_cases hp : p.1 = e
    · have hrest : resolved.filterMap (fun p => if p.1 = e then some p.2 else none) = [] := by
        refine List.filterMap_eq_nil_iff.2 fun p' hp' => if_neg fun heq => hresolved.1 ?_
        exact List.mem_map.2 ⟨p', hp', heq.trans hp.symm⟩
      simp [hp, hrest]
    · simpa [hp] using ih hresolved.2

theorem mem_outcomesOf {e : EntryId} {o : Outcome} (h : (e, o) ∈ w.ledger.resolved) :
    o ∈ w.outcomesOf e :=
  List.mem_filterMap.2 ⟨(e, o), h, if_pos rfl⟩

/-- An entry leaves the active slot before its outcome is known. -/
theorem vacated_before_resolved (h : w.ledger.IsOrderly) {older newer : List (Nat × Happening)}
    {t : Nat} {e : EntryId} {o : Outcome} (hw : w.history = newer ++ (t, .resolved e o) :: older) :
    (e, o) ∈ w.ledger.resolved ∧ ∃ t', (t', .vacated e) ∈ older := by
  refine ⟨mem_seen.2 ⟨(t, .resolved e o), by simp [hw], rfl⟩, ?_⟩
  have hdepartures : w.ledger.departures =
      (older.filterMap fun p => p.2.departure?).reverse ++
        .resolved e o :: (newer.filterMap fun p => p.2.departure?).reverse := by
    simp [ledger, seen, hw, Happening.departure?]
  have hmem := h.leftFirst hdepartures
  rw [List.mem_reverse, List.mem_filterMap] at hmem
  obtain ⟨⟨t', fact⟩, hfact, hdeparture⟩ := hmem
  refine ⟨t', ?_⟩
  cases fact <;> simp_all [Happening.departure?]

end Ledger

/-! ## Main statement -/

/-- **Every queue serves in order.**  In every reachable world the entries ever created on a queue
are those that left the active slot, the active one and the waiting ones; so none is lost, doubled
or overtaken, the backend is asked at most once for each, and each is resolved at most once and
only after it left the slot. -/
theorem Reachable.servesInOrder {w : World} (hw : Reachable w) {q : QueueId} {queue : Queue}
    (hq : w.queues[q]? = some queue) : w.ServesInOrder q queue := by
  have h := hw.arises.isOrderly
  have hn := hw.arises.isNumbered
  have hslot := slot_eq hq
  have hserved := h.served hslot
  have hbegun := h.begun hslot
  rw [isOn_eq_belongs] at hserved hbegun
  exact {
    created := by
      rw [finishedOn_eq h hq]
      exact hserved
    dispatched := by
      rw [finishedOn_eq h hq]
      exact hbegun
    ascending := by
      have hcreated : w.seen Happening.queued? = _ := h.created
      rw [createdOn, hcreated]
      exact (List.pairwise_lt_range).filter _
    started := fun e _ => length_startsOf h hn e
    unstarted := fun e he => by
      refine List.filter_eq_nil_iff.2 fun id _ hid => ?_
      obtain ⟨j, p, -, hat⟩ := exists_job_of_entryServed? (beq_iff_eq.1 hid)
      exact (h.pending_spec hslot he).2 (hat.mem_dispatched h)
    resolved := fun e _ => length_outcomesOf h e
    left := fun {older newer t e o} hhistory hon => by
      obtain ⟨hresolved, hbefore⟩ := vacated_before_resolved h hhistory
      refine ⟨?_, hbefore⟩
      rw [finishedOn_eq h hq, List.mem_filter]
      exact ⟨h.resolvedGone _ hresolved, hon⟩
    known := fun {e entry o} he _ ho => by
      have hmem : o ∈ w.outcomesOf e := by
        refine mem_outcomesOf (h.outcome.1 ?_)
        rw [entryOf?] at he
        simp [ledger, he, ho]
      have hlength := length_outcomesOf h e
      obtain ⟨o', ho'⟩ := List.length_eq_one_iff.1
        (Nat.le_antisymm hlength (List.length_pos_of_mem hmem))
      rw [ho', List.mem_singleton] at hmem
      rw [ho', hmem] }

/-- A queue on which operations with these arguments were requested one after the other. -/
def requesting (s : Setting) (args : List String) : World :=
  args.foldl (fun w a => (w.step (.act (.request "q" { command := ⟨"p", [a], none, .empty, none⟩ }
    none a))).1) (s.world.step (.act (.makeQueue "q" "Q"))).1

theorem reachable_requesting (s : Setting) (args : List String) :
    Reachable (requesting s args) := by
  have hnew : Reachable (s.world.step (.act (.makeQueue "q" "Q"))).1 :=
    (Reachable.new s).next (.act _ rfl)
  rw [requesting]
  generalize (s.world.step (.act (.makeQueue "q" "Q"))).1 = w at hnew
  induction args generalizing w with
  | nil => exact hnew
  | cons a args ih => exact ih _ (hnew.next (.act _ rfl))

/-- Of three requests the first is over, the second active, and the third waits. -/
theorem servesInOrder_three_requests : ∃ (w : World) (queue : Queue),
    Reachable w ∧ w.queues[0]? = some queue ∧ w.finishedOn 0 = [0] ∧ queue.active = some 1 ∧
      queue.pending = [2] ∧ w.ServesInOrder 0 queue := by
  have hw : Reachable ((requesting {} ["a", "b", "c"]).takeTurn 0) :=
    (reachable_requesting {} ["a", "b", "c"]).next (.turn 0 (by decide))
  exact ⟨_, _, hw, rfl, rfl, rfl, rfl, hw.servesInOrder rfl⟩

end FolderTasks.Dispatch.World
