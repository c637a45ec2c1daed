import FolderTasks.Proofs.Dispatch.QueueLedger
/-!
# Every change keeps the books

The ledger of a world is read off its entries, its queues, its jobs and its history.  Most
elementary changes do not touch it, and those that do enter one thing or a few.

## Main definitions

* `World.ledger`: the ledger of a world.

## Main statements

* `World.Change.isOrderly`: an elementary change keeps the ledger orderly.
* `World.Arises.isOrderly`: the ledger is orderly whenever.
-/

namespace FolderTasks.Dispatch

/-- What the ledger says of a job. -/
def Job.runner (job : Job) : Runner := ⟨job.errand, job.position == .done, job.isAbandoned⟩

/-- What the ledger says of a queue. -/
def Queue.slot (queue : Queue) : Option EntryId × List EntryId := (queue.active, queue.pending)

namespace World

/-- The ledger of a world. -/
def ledger (w : World) : Ledger where
  owners := w.entries.map Entry.queue
  outcomes := w.entries.map Entry.outcome
  slots := w.queues.map Queue.slot
  runners := w.jobs.map Job.runner
  named := w.names.jobs.map Prod.snd
  created := w.seen Happening.queued?
  dispatched := w.seen Happening.dispatched?
  vacated := w.seen Happening.vacated?
  resolved := w.seen Happening.resolved?
  departures := w.seen Happening.departure?

/-- A change of one item seen through a map. -/
theorem map_modify {α β : Type} {f : α → α} {g : α → β} {k : β → β}
    (h : ∀ a, g (f a) = k (g a)) (l : List α) (i : Nat) :
    (l.modify i f).map g = (l.map g).modify i k := by
  refine List.ext_getElem? fun n => ?_
  simp only [List.getElem?_map, List.getElem?_modify]
  cases l[n]? with
  | none => rfl
  | some a => by_cases hin : i = n <;> simp [hin, h]

/-! ## What does not touch the ledger -/

section Untouched

variable (w : World)

theorem ledger_modifyEntry {e : EntryId} {f : Entry → Entry}
    (hqueue : ∀ entry, (f entry).queue = entry.queue)
    (houtcome : ∀ entry, (f entry).outcome = entry.outcome) :
    (w.modifyEntry e f).ledger = w.ledger := by
  have howners := map_modify (g := Entry.queue) (k := id) hqueue w.entries e
  have houtcomes := map_modify (g := Entry.outcome) (k := id) houtcome w.entries e
  rw [List.modify_id] at howners houtcomes
  simp only [ledger, modifyEntry, howners, houtcomes]
  rfl

theorem ledger_withhold (q : QueueId) (value : Bool) : (w.withhold q value).ledger = w.ledger := by
  have hslots := map_modify (g := Queue.slot) (k := id)
    (f := fun queue => { queue with isWithheld := value }) (fun _ => rfl) w.queues q
  rw [List.modify_id] at hslots
  simp only [ledger, withhold, modifyQueue, hslots]
  rfl

theorem ledger_takeSeat (e : EntryId) (who : Waiter) : (w.takeSeat e who).1.ledger = w.ledger := by
  unfold takeSeat
  split
  · rfl
  · exact ledger_modifyEntry w (fun _ => rfl) fun _ => rfl

theorem ledger_wakeAll (js : List JobId) : (w.wakeAll js).ledger = w.ledger := by
  obtain ⟨ready, h⟩ := wakeAll_eq js w
  rw [h]
  rfl

theorem ledger_leaveSeat (e : EntryId) (seat : Nat) : (w.leaveSeat e seat).ledger = w.ledger :=
  ledger_modifyEntry w (fun _ => rfl) fun _ => rfl

theorem ledger_receive? {w w' : World} {e : EntryId} {o : Outcome}
    (h : w.receive? e = some (w', o)) : w'.ledger = w.ledger := by
  unfold receive? at h
  split at h
  · obtain ⟨rfl, -⟩ := Prod.mk.inj (Option.some.inj h)
    exact ledger_modifyEntry w (fun _ => rfl) fun _ => rfl
  · exact absurd h (by simp)

/-- A job that goes on stands in the ledger as before. -/
theorem ledger_setPosition {w : World} {j : JobId} {errand : Errand} {p p' : Position}
    (h : w.At j errand p) (hp : p ≠ .done) (hp' : p' ≠ .done) :
    (w.setPosition j p').ledger = w.ledger := by
  have hrunners : (w.setPosition j p').jobs.map Job.runner = w.jobs.map Job.runner := by
    refine List.ext_getElem? fun k => ?_
    rw [List.getElem?_map, List.getElem?_map, getElem?_setPosition]
    obtain ⟨given, hj⟩ := h
    by_cases hjk : j = k
    · have hdone : (p' == .done) = (p == .done) := by
        rw [beq_eq_false_iff_ne.2 hp, beq_eq_false_iff_ne.2 hp']
      simp [← hjk, hj, Job.runner, hdone]
    · simp [hjk]
  rw [ledger, ledger, hrunners]
  rfl

end Untouched

/-! ## What is entered in the ledger -/

section Entered

variable (w : World)

theorem ledger_spawn (errand : Errand) : (w.spawn errand).1.ledger = w.ledger.spawn errand := by
  simp only [ledger, spawn, Ledger.spawn, List.map_append, List.map_cons, List.map_nil]
  rfl

theorem ledger_makeQueue (name : String) (isRecorded : Bool) :
    (w.makeQueue name isRecorded).1.ledger = w.ledger.makeQueue := by
  simp only [ledger, makeQueue, Ledger.makeQueue, List.map_append, List.map_cons, List.map_nil]
  rfl

theorem ledger_endJob (j : JobId) : (w.endJob j).ledger = w.ledger.finish j := by
  have hrunners := map_modify (g := Job.runner) (k := Runner.finished)
    (f := fun job => { job with position := .done }) (fun _ => rfl) w.jobs j
  simp only [ledger, endJob, setPosition, modifyJob, Ledger.finish, hrunners]
  rfl

/-- A fact is entered where it belongs. -/
theorem ledger_note (h : Happening) : (w.note h).ledger = { w.ledger with
    created := w.ledger.created ++ h.queued?.toList
    dispatched := w.ledger.dispatched ++ h.dispatched?.toList
    vacated := w.ledger.vacated ++ h.vacated?.toList
    resolved := w.ledger.resolved ++ h.resolved?.toList
    departures := w.ledger.departures ++ h.departure?.toList } := by
  simp only [ledger, seen_note]
  rfl

theorem ledger_append (q : QueueId) (queue : Queue) (op : Operation) (token : Option String) :
    (w.append q queue op token).1.ledger = w.ledger.append q := by
  have hslots := map_modify (g := Queue.slot)
    (f := fun queue => { queue with pending := queue.pending ++ [w.entries.length] })
    (k := fun s => (s.1, s.2 ++ [w.entries.length])) (fun _ => rfl) w.queues q
  rw [append]
  dsimp only
  rw [ledger_note]
  simp only [ledger, modifyQueue, Ledger.append, hslots, List.map_append, List.map_cons,
    List.map_nil, List.length_map, Happening.queued?, Happening.dispatched?, Happening.vacated?,
    Happening.resolved?, Happening.departure?, Option.toList_some, Option.toList_none,
    List.append_nil]
  rfl

theorem ledger_dispatch (q : QueueId) : (w.dispatch q).ledger = w.ledger ∨
    ∃ e rest, w.ledger.slots[q]? = some (none, e :: rest) ∧
      (w.dispatch q).ledger = w.ledger.dispatch q e rest := by
  unfold dispatch
  split
  · next name isRecorded e rest isWithheld hq =>
    have hslots := map_modify (g := Queue.slot)
      (f := fun queue => { queue with active := some e, pending := rest })
      (k := fun _ => (some e, rest)) (fun _ => rfl) w.queues q
    refine .inr ⟨e, rest, ?_, ?_⟩
    · simp [ledger, hq, Queue.slot]
    · dsimp only
      rw [ledger_spawn, ledger_note]
      simp only [ledger, modifyQueue, Ledger.dispatch, Ledger.spawn, hslots, Happening.queued?,
        Happening.dispatched?, Happening.vacated?, Happening.resolved?, Happening.departure?,
        Option.toList_some, Option.toList_none, List.append_nil]
      rfl
  · exact .inl rfl

theorem ledger_abandonJob (j : JobId) : (w.abandonJob j).1.ledger = w.ledger ∨
    (w.abandonJob j).1.ledger = w.ledger.abandon j := by
  rcases abandonJob_eq w j with h | ⟨ready, h⟩
  · exact .inl (by rw [h])
  · have hrunners := map_modify (g := Job.runner) (k := Runner.givenUp)
      (f := fun job => { job with isAbandoned := true }) (fun _ => rfl) w.jobs j
    refine .inr ?_
    rw [h]
    simp only [ledger, Ledger.abandon, hrunners]
    rfl

end Entered

/-! ## Requests and resolutions -/

theorem isOrderly_dispatch {w : World} (h : w.ledger.IsOrderly) (q : QueueId) :
    (w.dispatch q).ledger.IsOrderly := by
  rcases ledger_dispatch w q with heq | ⟨e, rest, hslot, heq⟩
  · rwa [heq]
  · rw [heq]
    exact h.dispatch hslot

theorem isOrderly_request {w : World} (h : w.ledger.IsOrderly) (q : QueueId) (op : Operation)
    (token : Option String) : (w.request q op token).1.ledger.IsOrderly := by
  rcases request_eq w q op token with heq | ⟨queue, e, -, -, heq⟩ | ⟨queue, hq, -, heq⟩
  · rwa [heq]
  · rw [heq]
    exact h
  · rw [heq]
    refine isOrderly_dispatch ?_ q
    rw [ledger_append]
    refine h.append ?_
    simpa [ledger] using (List.getElem?_eq_some_iff.1 hq).1

theorem At.runner {w : World} {j : JobId} {errand : Errand} {p : Position}
    (h : w.At j errand p) : ∃ given, w.ledger.runners[j]? = some ⟨errand, p == .done, given⟩ := by
  obtain ⟨given, hj⟩ := h
  exact ⟨given, by simp [ledger, hj, Job.runner]⟩

theorem isOn_ledger {w : World} {e : EntryId} {entry : Entry} (he : w.entryOf? e = some entry) :
    w.ledger.isOn entry.queue e := by
  rw [entryOf?] at he
  simp [Ledger.isOn, ledger, he]

/-- The outcome of an entry is the one with which it was resolved. -/
theorem outcome_iff_resolved {w : World} (h : w.ledger.IsOrderly) {e : EntryId} {entry : Entry}
    {o : Outcome} (he : w.entryOf? e = some entry) :
    entry.outcome = some o ↔ (e, o) ∈ w.ledger.resolved := by
  have houtcome : w.ledger.outcomes[e]? = some entry.outcome := by
    rw [ledger, List.getElem?_map]
    exact congrArg (Option.map Entry.outcome) he
  rw [← h.outcome, houtcome, Option.some.injEq]

/-- A job that executes the operation of an entry has an entry to execute. -/
theorem At.exists_entry {w : World} (h : w.ledger.IsOrderly) {j : JobId} {e : EntryId}
    {p : Position} (hat : w.At j (.operation e) p) : ∃ entry, w.entryOf? e = some entry := by
  obtain ⟨given, hj⟩ := hat.runner
  have hdispatched : e ∈ w.ledger.dispatched := by
    rw [← h.runners, List.mem_filterMap]
    exact ⟨_, List.mem_of_getElem? hj, rfl⟩
  have hlt : e < w.entries.length := by simpa [ledger] using h.known e hdispatched
  exact ⟨w.entries[e], List.getElem?_eq_getElem hlt⟩

theorem ledger_deliver {w : World} {e : EntryId} {entry : Entry} (he : w.entryOf? e = some entry)
    (o : Outcome) : (w.deliver e o).ledger = w.ledger.resolve e o := by
  have howners := map_modify (g := Entry.queue) (k := id)
    (f := fun entry => { entry with outcome := some o }) (fun _ => rfl) w.entries e
  have houtcomes := map_modify (g := Entry.outcome) (k := fun _ => some o)
    (f := fun entry => { entry with outcome := some o }) (fun _ => rfl) w.entries e
  rw [List.modify_id] at howners
  rw [deliver, he]
  dsimp only
  rw [ledger_wakeAll, ledger_note]
  simp only [ledger, modifyEntry, Ledger.resolve, howners, houtcomes, Happening.queued?,
    Happening.dispatched?, Happening.vacated?, Happening.resolved?, Happening.departure?,
    Option.toList_some, Option.toList_none, List.append_nil]
  rfl

/-- With its entry out of the active slot a job is over. -/
theorem ledger_vacate (w : World) (j : JobId) (q : QueueId) (e : EntryId) :
    ((w.modifyQueue q fun queue => { queue with active := none }).note
      (.vacated e)).ledger.finish j = w.ledger.vacate j e q := by
  have hslots := map_modify (g := Queue.slot)
    (f := fun queue => { queue with active := none }) (k := fun s => (none, s.2))
    (fun _ => rfl) w.queues q
  rw [ledger_note]
  simp only [ledger, modifyQueue, Ledger.vacate, Ledger.finish, hslots, Happening.queued?,
    Happening.dispatched?, Happening.vacated?, Happening.resolved?, Happening.departure?,
    Option.toList_some, Option.toList_none, List.append_nil]
  rfl

/-- A change of one of the first items leaves the last ones alone. -/
theorem modify_append_left {α : Type} {l : List α} {i : Nat} (h : i < l.length) (f : α → α)
    (more : List α) : (l ++ more).modify i f = l.modify i f ++ more := by
  refine List.ext_getElem? fun k => ?_
  rw [List.getElem?_modify]
  rcases Nat.lt_or_ge k l.length with hlt | hge
  · rw [List.getElem?_append_left hlt, List.getElem?_append_left (by simpa using hlt),
      List.getElem?_modify]
  · have hik : i ≠ k := by omega
    rw [List.getElem?_append_right hge, List.getElem?_append_right (by simpa using hge)]
    simp [hik]

/-- A job can be over before another one begins. -/
theorem finish_dispatch {L : Ledger} {j : JobId} (hj : j < L.runners.length) (q : QueueId)
    (e : EntryId) (rest : List EntryId) :
    (L.dispatch q e rest).finish j = (L.finish j).dispatch q e rest := by
  simp only [Ledger.dispatch, Ledger.finish, modify_append_left hj]

/-- **An entry leaves the active slot**, the next one takes it, and the outcome is known. -/
theorem isOrderly_closed {w : World} (h : w.ledger.IsOrderly) {j : JobId} {e : EntryId}
    {p : Position} (hat : w.At j (.operation e) p) (hp : p ≠ .done) (o : Outcome) :
    ((w.resolve e o).endJob j).ledger.IsOrderly := by
  obtain ⟨entry, he⟩ := hat.exists_entry h
  obtain ⟨given, hj⟩ := hat.runner
  rw [beq_eq_false_iff_ne.2 hp] at hj
  have hon := isOn_ledger he
  have hnew : ∀ r ∈ w.ledger.resolved, r.1 ≠ e := by
    intro r hr hre
    have hgone := (h.live hj).2 (hre ▸ h.resolvedGone r hr)
    exact Bool.noConfusion hgone
  generalize hw₁ : (w.modifyQueue entry.queue fun queue => { queue with active := none }).note
    (.vacated e) = w₁
  have hvacate : w₁.ledger.finish j = w.ledger.vacate j e entry.queue := by
    rw [← hw₁, ledger_vacate]
  have hfree : (w₁.ledger.finish j).IsOrderly := by
    rw [hvacate]
    exact h.vacate hj hon
  have hgone : e ∈ w₁.ledger.vacated := by
    change e ∈ (w₁.ledger.finish j).vacated
    rw [hvacate]
    exact List.mem_append_right _ List.mem_cons_self
  have hold : w₁.ledger.resolved = w.ledger.resolved := by
    change (w₁.ledger.finish j).resolved = _
    rw [hvacate]
    rfl
  have hnext : ((w₁.dispatch entry.queue).ledger.finish j).IsOrderly ∧
      (w₁.dispatch entry.queue).ledger.vacated = w₁.ledger.vacated ∧
      (w₁.dispatch entry.queue).ledger.resolved = w₁.ledger.resolved := by
    rcases ledger_dispatch w₁ entry.queue with heq | ⟨e', rest, hslot, heq⟩
    · rw [heq]
      exact ⟨hfree, rfl, rfl⟩
    · have hlt : j < w₁.ledger.runners.length := by
        rw [← hw₁]
        exact (List.getElem?_eq_some_iff.1 hj).1
      rw [heq, finish_dispatch hlt]
      exact ⟨hfree.dispatch hslot, rfl, rfl⟩
  have he₂ : (w₁.dispatch entry.queue).entryOf? e = some entry := by
    rw [entryOf?, dispatch_entries, ← hw₁]
    exact he
  rw [resolve, he]
  dsimp only
  rw [hw₁, ledger_endJob, ledger_deliver he₂]
  refine hnext.1.resolve o ?_ ?_
  · exact hnext.2.1 ▸ hgone
  · change ∀ r ∈ (w₁.dispatch entry.queue).ledger.resolved, r.1 ≠ e
    rw [hnext.2.2, hold]
    exact hnew

/-! ## Change by change -/

theorem ledger_releaseGuard (w : World) : w.releaseGuard.ledger = w.ledger := by
  obtain ⟨ready, h⟩ := releaseGuard_eq w
  rw [h]
  rfl

theorem ledger_listen (w : World) (token : Option String) (j : JobId) :
    (w.listen token j).ledger = w.ledger := by
  obtain ⟨tokens, h⟩ := listen_eq w token j
  rw [h]
  rfl

theorem ledger_unlisten (w : World) (token : Option String) (j : JobId) :
    (w.unlisten token j).ledger = w.ledger := by
  obtain ⟨tokens, h⟩ := unlisten_eq w token j
  rw [h]
  rfl

theorem Deed.isOrderly {w w' : World} (hd : Deed w w') (h : w.ledger.IsOrderly) :
    w'.ledger.IsOrderly := by
  cases hd with
  | scripted | observed | answered => exact h
  | named names hnames =>
    refine h.rename fun j hj => .inl ?_
    obtain ⟨p, hp, rfl⟩ := List.mem_map.1 hj
    exact List.mem_map_of_mem (hnames p hp)
  | queueMade name isRecorded =>
    rw [ledger_makeQueue]
    exact h.makeQueue
  | requested q op token => exact isOrderly_request h q op token
  | cancelled name =>
    obtain ⟨tokens, ready, heq⟩ := cancel_eq w name
    rw [heq]
    exact h
  | withheld q value =>
    change (w.withhold q value).ledger.IsOrderly
    rwa [ledger_withhold]
  | watched handle e =>
    rw [ledger_spawn]
    exact h.spawn rfl
  | begun name errand hnamed =>
    have hspawn : (w.ledger.spawn errand).IsOrderly := by
      refine h.spawn ?_
      cases errand <;> first | rfl | exact Bool.noConfusion hnamed
    rw [← ledger_spawn] at hspawn
    refine hspawn.rename fun j hj => ?_
    obtain ⟨p, hp, rfl⟩ := List.mem_map.1 hj
    rcases List.mem_cons.1 hp with rfl | hp
    · refine .inr ⟨⟨errand, false, false⟩, ?_, hnamed⟩
      simp [ledger, spawn, Job.runner]
    · exact .inl (List.mem_map_of_mem (List.mem_filter.1 hp).1)
  | disposed =>
    obtain ⟨history, manager, heq, hhistory, -⟩ := disposeManager_eq w
    rw [heq]
    rcases hhistory with rfl | rfl <;> exact h
  | abandoned name j hj =>
    rcases ledger_abandonJob w j with heq | heq <;> rw [heq]
    · exact h
    · exact h.abandon (List.mem_map_of_mem hj)

theorem Drift.ledger {w w' : World} (hd : Drift w w') : w'.ledger = w.ledger := by
  cases hd with
  | turnTaken | turnSet | passed | folderListed | foldersUnlisted => rfl
  | fired t ht =>
    obtain ⟨timers, ready, heq⟩ := fire_eq w t
    rw [heq]
    rfl
  | folderTold fact hfact => rcases hfact with ⟨f, rfl⟩ | ⟨f, rfl⟩ <;> rfl
  | sat e => exact ledger_takeSeat w e .outside
  | seatLeft e entry seat => exact ledger_leaveSeat w e seat
  | received e o hr => exact ledger_receive? hr

theorem Telling.ledger {w w' : World} (ht : Telling w w') : w'.ledger = w.ledger := by
  cases ht <;> rfl

theorem Stride.ledger {w w' : World} (hs : Stride w w') : w'.ledger = w.ledger := by
  -- A job that serves a call moves on, but it is not over.
  have hmove {w w' : World} {call : Call} {p p' : Position} (h : w.CallAt call p)
      (hjobs : w'.jobs = w.jobs) (hledger : w'.ledger = w.ledger) (hp : p ≠ .done)
      (hp' : p' ≠ .done) : (w'.setPosition call.job p').ledger = w.ledger := by
    obtain ⟨errand, ⟨given, hj⟩, -⟩ := h
    rw [ledger_setPosition ⟨given, hjobs ▸ hj⟩ hp hp', hledger]
  cases hs with
  | rejected h => exact hmove h rfl rfl (by simp) (by simp)
  | guardTaken h => exact hmove h rfl rfl (by simp) (by simp)
  | lineJoined h =>
    rw [ledger_listen]
    exact hmove h rfl rfl (by simp) (by simp)
  | turnedAway h => exact hmove h rfl rfl (by simp) (by simp)
  | unlistened j token => exact ledger_unlisten w token j
  | timerCleared | startDelayed => rfl
  | lineLeft h => exact hmove h rfl rfl (by simp) (by simp)
  | guardReturned h =>
    obtain ⟨ready, heq⟩ := releaseGuard_eq w
    rw [heq]
    exact hmove h rfl rfl (by simp) (by simp)
  | startAsked h => exact hmove h rfl rfl (by simp) (by simp)
  | refused h hb =>
    rw [ledger_releaseGuard]
    exact hmove h rfl rfl (by simp) (by simp)
  | started h =>
    change (releaseGuard _).ledger = _
    rw [ledger_releaseGuard]
    exact hmove h rfl rfl (by simp) (by simp)
  | forsaken h => exact hmove h rfl rfl (by simp) (by simp)
  | endAwaited h => exact ledger_listen _ _ _
  | completed h => exact hmove h rfl rfl (by simp) (by simp)
  | terminated h => exact hmove h rfl rfl (by simp) (by simp)

/-- A job that executes no operation of an entry is over. -/
theorem isOrderly_endJob {w : World} (h : w.ledger.IsOrderly) {j : JobId} {errand : Errand}
    {p : Position} (hat : w.At j errand p) (herrand : errand.entry? = none) :
    (w.endJob j).ledger.IsOrderly := by
  obtain ⟨given, hj⟩ := hat.runner
  rw [ledger_endJob]
  exact h.finish hj herrand

theorem At.receive? {w w' : World} {j : JobId} {errand : Errand} {p : Position}
    (hat : w.At j errand p) {e : EntryId} {o : Outcome} (h : w.receive? e = some (w', o)) :
    w'.At j errand p := by
  unfold World.receive? at h
  split at h
  · obtain ⟨rfl, -⟩ := Prod.mk.inj (Option.some.inj h)
    exact hat
  · exact absurd h (by simp)

theorem At.takeSeat {w : World} {j : JobId} {errand : Errand} {p : Position}
    (hat : w.At j errand p) (e : EntryId) (who : Waiter) : (w.takeSeat e who).1.At j errand p := by
  unfold World.takeSeat
  split <;> exact hat

theorem At.dropExecution {w : World} {j : JobId} {errand : Errand} {p : Position}
    (hat : w.At j errand p) (call : Call) : (w.dropExecution call).At j errand p := by
  obtain ⟨tokens, timers, ready, g, h⟩ := dropExecution_eq w call
  rw [h]
  exact hat

theorem ledger_dropExecution (w : World) (call : Call) :
    (w.dropExecution call).ledger = w.ledger := by
  obtain ⟨tokens, timers, ready, g, h⟩ := dropExecution_eq w call
  rw [h]
  rfl

theorem ledger_reopen (w : World) (q : QueueId) (e : EntryId) :
    (w.reopen q e).ledger = w.ledger :=
  ledger_withhold w q false

/-- A reset that is given up goes on without its job. -/
theorem isOrderly_discardReset {w : World} (h : w.ledger.IsOrderly) {j : JobId} {errand : Errand}
    {p : Position} (hat : w.At j errand p) (e : EntryId) (seat : Nat) :
    (w.discardReset e seat).ledger.IsOrderly ∧ (w.discardReset e seat).At j errand p := by
  unfold discardReset
  split
  · exact ⟨h, hat⟩
  · next entry he =>
    dsimp only
    split
    · rw [ledger_reopen, ledger_leaveSeat]
      exact ⟨h, hat⟩
    · rw [ledger_spawn, ledger_leaveSeat]
      exact ⟨h.spawn rfl, hat.of_jobs (List.prefix_append _ _)⟩

theorem isOrderly_discarded {w : World} (h : w.ledger.IsOrderly) {j : JobId} {job : Job}
    (hj : w.jobs[j]? = some job) (ha : job.isAbandoned) : (w.discard j job).ledger.IsOrderly := by
  have hat : w.At j job.errand job.position := ⟨job.isAbandoned, hj⟩
  have hnamed : job.errand.isNamed := by
    refine h.abandoned job.runner ?_ ha
    exact List.mem_map_of_mem (List.mem_of_getElem? hj)
  have herrand : job.errand.entry? = none := by
    generalize job.errand = errand at hnamed ⊢
    cases errand <;> first | rfl | exact Bool.noConfusion hnamed
  unfold discard
  dsimp only
  split
  · refine isOrderly_endJob ?_ (hat.dropExecution _) herrand
    rwa [ledger_dropExecution]
  · next e seat _ _ =>
    obtain ⟨hreset, hat'⟩ := isOrderly_discardReset h hat e seat
    exact isOrderly_endJob hreset hat' herrand
  · exact isOrderly_endJob h hat herrand

/-- A job that begins to wait for an outcome. -/
theorem ledger_awaiting {w : World} {j : JobId} {errand : Errand} {p : Position}
    (hat : w.At j errand p) (hp : p ≠ .done) (e : EntryId) :
    ((w.takeSeat e (.job j)).1.setPosition j (.awaiting e (w.takeSeat e (.job j)).2)).ledger =
      w.ledger := by
  rw [ledger_setPosition (hat.takeSeat e (.job j)) hp (by simp), ledger_takeSeat]

theorem isOrderly_askReset {w : World} (h : w.ledger.IsOrderly) {j : JobId} {errand : Errand}
    (hat : w.At j errand .fresh) (q : QueueId) (folder : Path) (token : Option String) :
    (w.askReset j q folder token).ledger.IsOrderly := by
  have hwithheld : (w.withhold q true).ledger.IsOrderly := by rwa [ledger_withhold]
  have hrequest := isOrderly_request hwithheld q (PackageAction.reset.operation w.toolchain folder)
    token
  have hat' := At.of_jobs (request_jobs (w.withhold q true) q
    (PackageAction.reset.operation w.toolchain folder) token) hat
  unfold askReset
  dsimp only
  rw [ledger_awaiting (w := note _ _) hat' (by simp)]
  exact hrequest

theorem Closing.isOrderly {w w' : World} (hc : Closing w w') (h : w.ledger.IsOrderly) :
    w'.ledger.IsOrderly := by
  cases hc with
  | closed o hat hp => exact isOrderly_closed h hat hp o
  | executionEnded result hat =>
    exact isOrderly_endJob (w := w.note (.jobEnded .execution _ result)) h hat rfl
  | resetAsked q hat hq => exact isOrderly_askReset h hat q _ _
  | resetRefused hat hq =>
    exact isOrderly_endJob (w := w.note (.jobEnded .reset _ _)) h hat rfl
  | seatTaken e hat hp => rwa [ledger_awaiting hat hp]
  | @resetConcluded w₁ j name folder token e seat entry o hat he hr =>
    have hreceived : w₁.ledger.IsOrderly := by rwa [ledger_receive? hr]
    have hat' := hat.receive? hr
    refine isOrderly_endJob ?_ hat' rfl
    change ((w₁.note (.packageReset folder o)).reopen entry.queue e).ledger.IsOrderly
    rwa [ledger_reopen]
  | resetForgotten hat he => exact isOrderly_endJob h hat rfl
  | @watchEnded w₁ j handle e p o hat hp hr =>
    have hreceived : w₁.ledger.IsOrderly := by rwa [ledger_receive? hr]
    have hat' := hat.receive? hr
    split
    · next entry he =>
      exact isOrderly_endJob (w := w₁.note (.watched handle o (w₁.view entry.queue))) hreceived
        hat' rfl
    · exact isOrderly_endJob hreceived hat' rfl
  | reopened o hat hp hr =>
    have hat' := hat.receive? hr
    refine isOrderly_endJob ?_ hat' rfl
    rwa [ledger_reopen, ledger_receive? hr]
  | discarded hj ha hp => exact isOrderly_discarded h hj ha

/-- **An elementary change keeps the ledger orderly.** -/
theorem Change.isOrderly {w w' : World} (hc : Change w w') (h : w.ledger.IsOrderly) :
    w'.ledger.IsOrderly := by
  cases hc with
  | deed hd => exact hd.isOrderly h
  | drift hd => rwa [hd.ledger]
  | telling ht => rwa [ht.ledger]
  | stride hs => rwa [hs.ledger]
  | closing hc => exact hc.isOrderly h

theorem isOrderly_new (s : Setting) : s.world.ledger.IsOrderly where
  created := rfl
  outcomes := rfl
  housed := by simp [ledger, Setting.world]
  known := by simp [ledger, Setting.world, seen]
  served := by simp [ledger, Setting.world]
  begun := by simp [ledger, Setting.world]
  gone := by simp [ledger, Setting.world, seen]
  runners := rfl
  live := by simp [ledger, Setting.world]
  named := by simp [ledger, Setting.world]
  abandoned := by simp [ledger, Setting.world]
  resolvedOnce := List.nodup_nil
  resolvedGone := by simp [ledger, Setting.world, seen]
  outcome := by simp [ledger, Setting.world, seen]
  departed := by simp [ledger, Setting.world, seen]
  leftFirst heq := by simp [ledger, Setting.world, seen] at heq

/-- **The ledger is orderly whenever.** -/
theorem Arises.isOrderly {w : World} (h : Arises w) : w.ledger.IsOrderly :=
  h.induction isOrderly_new fun _ hw hc => hc.isOrderly hw

end World

end FolderTasks.Dispatch
