import FolderTasks.Proofs.Dispatch.QueueOrder
import FolderTasks.Proofs.Dispatch.BackendRecords
/-!
# Queues exclude

Two executions that one queue caused never overlap.  The backend is asked to start the command of
an entry only after the executions of all earlier entries of the queue have ended, so what runs at
once belongs to different queues, or to calls that go past all queues.

## Main definitions

* `World.Serves`: a task serves an entry.
* `World.IsExclusive`: a start request comes after the ends of all earlier executions.
* `World.RunsExclusively`: what this means for the records and for what runs at once.

## Main statements

* `World.Reachable.runsExclusively`: in an undisturbed world all queues run exclusively.
-/

namespace FolderTasks.Dispatch.World

/-! ## Tasks and entries -/

/-- A task serves an entry. -/
def Serves (w : World) (id : TaskId) (e : EntryId) : Prop :=
  ∃ j p, (id, j) ∈ w.account.numbered ∧ w.At j (.operation e) p

/-- An execution ended, at the latest at an instant, and this is one of some facts. -/
def HasEnded (r : Record) (t : Nat) (facts : List (Nat × Happening)) : Prop :=
  ∃ t' c code, r.endedAt = some t' ∧ t' ≤ t ∧ (t', .ended r.id c code) ∈ facts

section Serves

variable {w w' : World}

theorem Serves.unique (h : IsNumbered w) {id : TaskId} {e e' : EntryId} (he : w.Serves id e)
    (he' : w.Serves id e') : e = e' := by
  obtain ⟨j, p, hj, hat⟩ := he
  obtain ⟨j', p', hj', hat'⟩ := he'
  obtain rfl := h.job_unique hj hj'
  exact Errand.operation.inj (hat.unique hat').1

/-- What a task serves now, it served when it had its number. -/
theorem Stage.serves_back (hs : Stage w w') (hn : IsNumbered w) (hn' : IsNumbered w') {id : TaskId}
    {j : JobId} {e : EntryId} (hj : (id, j) ∈ w.account.numbered) (he : w'.Serves id e) :
    w.Serves id e := by
  obtain ⟨j', p', hj', hat'⟩ := he
  obtain rfl := hn'.job_unique hj' (hs.numbered_isPrefix.subset hj)
  obtain ⟨errand, p, hat, -, -⟩ := hn.owner hj
  obtain ⟨p₁, hat₁⟩ := hs.at_forth hat
  obtain rfl := (hat'.unique hat₁).1
  exact ⟨j', p, hj, hat⟩

/-- An entry stays with its queue. -/
theorem Stage.isOn_back (hs : Stage w w') (ho : w.ledger.IsOrderly) {id : TaskId} {q : QueueId}
    {e : EntryId} (he : w.Serves id e) (hon : w'.ledger.isOn q e) : w.ledger.isOn q e := by
  obtain ⟨j, p, -, hat⟩ := he
  have hlt := ho.known e (hat.mem_dispatched ho)
  obtain ⟨more, hmore⟩ := hs.owners_isPrefix
  rwa [Ledger.isOn, ← hmore, List.getElem?_append_left hlt] at hon

end Serves

/-! ## Start requests and ends -/

/-- **A start request comes after the ends of all earlier executions** for the same queue. -/
structure IsExclusive (w : World) : Prop where
  ended : ∀ {newer older : List (Nat × Happening)} {t : Nat} {id : TaskId} {c : Command}
    {q : QueueId} {e e' : EntryId} {r : Record}, w.history = newer ++ (t, .startAsked id c) :: older →
    w.Serves id e → w.ledger.isOn q e → r ∈ w.account.records → w.Serves r.id e' →
    w.ledger.isOn q e' → e' < e → HasEnded r t older

section Exclusive

variable {w w' : World}

theorem mem_asked_of_split {newer older : List (Nat × Happening)} {t : Nat} {id : TaskId}
    {c : Command} (h : w.history = newer ++ (t, .startAsked id c) :: older) :
    id ∈ w.account.asked :=
  mem_seen.2 ⟨(t, .startAsked id c), by simp [h], rfl⟩

/-- A fact of a kind of which there is nothing new is an old one. -/
theorem exists_split_of_suffix {α : Type} {f : Happening → Option α}
    (hhistory : w.history <:+ w'.history) (hseen : w'.seen f = w.seen f)
    {newer older : List (Nat × Happening)} {x : Nat × Happening}
    {a : α} (hx : f x.2 = some a) (h : w'.history = newer ++ x :: older) :
    ∃ newer', w.history = newer' ++ x :: older := by
  obtain ⟨more, hmore⟩ := hhistory
  have hnone : more.filterMap (fun p => f p.2) = [] := by
    rw [seen, seen, ← hmore, List.filterMap_append, List.reverse_append] at hseen
    exact List.reverse_eq_nil_iff.1 (List.append_right_eq_self.1 hseen)
  have hnew : x ∉ more := fun hmem => by
    have hfx := List.filterMap_eq_nil_iff.1 hnone x hmem
    rw [hx] at hfx
    exact absurd hfx (by simp)
  rw [h] at hmore
  rcases List.append_eq_append_iff.1 hmore with ⟨between, hnewer, hold⟩ | ⟨between, hold, hrest⟩
  · exact ⟨between, hold⟩
  · cases between with
    | nil => exact ⟨[], hrest.symm⟩
    | cons y between =>
      obtain ⟨rfl, -⟩ := List.cons.inj hrest
      exact absurd (hold ▸ List.mem_append_right _ List.mem_cons_self) hnew

/-- The job of a task that serves an entry and takes part in an execution holds the slot. -/
theorem Serves.active (ho : w.ledger.IsOrderly) (hn : IsNumbered w) {id : TaskId} {e : EntryId}
    {q : QueueId} {j : JobId} {errand : Errand} {p : Position} (he : w.Serves id e)
    (hon : w.ledger.isOn q e) (hat : w.At j errand p) (hid : p.id? = some id) :
    ∃ pending, w.ledger.slots[q]? = some (some e, pending) := by
  obtain ⟨j', p', hj', hat'⟩ := he
  obtain rfl := hn.job_unique hj' (hn.current hat hid)
  obtain ⟨rfl, rfl⟩ := hat'.unique hat
  obtain ⟨given, hrunner⟩ := hat'.runner
  obtain ⟨active, pending, hslot⟩ := ho.exists_slot hon
  have hdone : (p' == Position.done) = false := by
    cases p' <;> first | rfl | exact absurd hid (by simp [Position.id?])
  rw [hdone] at hrunner
  obtain rfl := ho.active_of_live hrunner hon hslot
  exact ⟨pending, hslot⟩

/-- The execution for an entry that has left the slot is over. -/
theorem IsRecorded.hasEnded (h : IsRecorded w) (ho : w.ledger.IsOrderly) (hn : IsNumbered w)
    {r : Record} {e : EntryId} (hr : r ∈ w.account.records) (he : w.Serves r.id e)
    (hgone : e ∈ w.ledger.vacated) : HasEnded r w.clock w.history := by
  obtain ⟨j, p, hj, hat⟩ := he
  cases hend : r.endedAt with
  | none =>
    obtain ⟨j', errand, ex, hat'⟩ := h.awaited r hr hend
    obtain rfl := hn.job_unique hj (hn.current hat' rfl)
    obtain ⟨rfl, rfl⟩ := hat.unique hat'
    obtain ⟨given, hrunner⟩ := hat.runner
    exact absurd ((ho.live hrunner).2 hgone) (by simp)
  | some t =>
    obtain ⟨-, hends⟩ := h.ended r hr
    obtain ⟨-, hle, c, code, hmem⟩ := hends t hend
    exact ⟨t, c, code, hend, hle, hmem⟩

end Exclusive

namespace IsExclusive

variable {w w' : World} (h : IsExclusive w) (hs : Stage w w') (ho : w.ledger.IsOrderly)
  (hn : IsNumbered w) (hn' : IsNumbered w') (hr : IsRecorded w)

include h hs ho hn hn' hr

/-- What held of an old start request and an old record still does. -/
theorem kept {newer older : List (Nat × Happening)} {t : Nat} {id : TaskId} {c : Command}
    {q : QueueId} {e e' : EntryId} {r : Record}
    (hsplit : w.history = newer ++ (t, .startAsked id c) :: older) (he : w'.Serves id e)
    (hon : w'.ledger.isOn q e) (hmem : r ∈ w.account.records) (he' : w'.Serves r.id e')
    (hon' : w'.ledger.isOn q e') (hlt : e' < e) : HasEnded r t older := by
  obtain ⟨j, -, -, hj, -⟩ := hn.asked id (mem_asked_of_split hsplit)
  obtain ⟨j', -, -, hj', -⟩ := hr.owner r hmem
  have hserves := hs.serves_back hn hn' hj he
  have hserves' := hs.serves_back hn hn' hj' he'
  exact h.ended hsplit hserves (hs.isOn_back ho hserves hon) hmem hserves'
    (hs.isOn_back ho hserves' hon') hlt

/-- A change that leaves records and start requests alone. -/
theorem of_records (hasked : w'.account.asked = w.account.asked)
    (hrecords : w'.account.records = w.account.records) : IsExclusive w' := by
  refine ⟨?_⟩
  intro newer older t id c q e e' r hsplit he hon hmem he' hon' hlt
  obtain ⟨newer', hsplit'⟩ := exists_split_of_suffix hs.history hasked rfl hsplit
  rw [hrecords] at hmem
  exact h.kept hs ho hn hn' hr hsplit' he hon hmem he' hon' hlt

/-- The backend is asked to start the command of an active entry, so all that was created earlier
has left the slot. -/
theorem ask {call : Call} {id : TaskId} (hm : Moves w w' call (.inLine id) (.starting id))
    (ha : w'.account = w.account.ask id)
    (hw : w'.history = (w.clock, .startAsked id call.command) :: w.history) : IsExclusive w' := by
  refine ⟨?_⟩
  intro newer older t id' c q e e' r hsplit he hon hmem he' hon' hlt
  have hrecords : w'.account.records = w.account.records := by
    rw [ha]
    rfl
  rw [hrecords] at hmem
  rw [hw] at hsplit
  cases newer with
  | nil =>
    obtain ⟨hfact, rfl⟩ := List.cons.inj hsplit
    obtain ⟨rfl, hasked⟩ := Prod.mk.inj hfact
    obtain ⟨rfl, -⟩ := Happening.startAsked.inj hasked
    obtain ⟨errand, hat, -⟩ := hm.serves
    obtain ⟨j', -, -, hj', -⟩ := hr.owner r hmem
    have hserves := hs.serves_back hn hn' (hn.current hat rfl) he
    have hserves' := hs.serves_back hn hn' hj' he'
    obtain ⟨pending, hslot⟩ := hserves.active ho hn (hs.isOn_back ho hserves hon) hat rfl
    exact hr.hasEnded ho hn hmem hserves'
      (ho.vacated_of_lt hslot (hs.isOn_back ho hserves' hon') hlt)
  | cons fact newer =>
    obtain ⟨-, hsplit'⟩ := List.cons.inj hsplit
    exact h.kept hs ho hn hn' hr hsplit' he hon hmem he' hon' hlt

/-- An execution starts for an active entry, so no start was asked for that was created later. -/
theorem start {call : Call} {id : TaskId} {b : Scripted} {ex : Execution}
    (hm : Moves w w' call (.starting id) (.running id ex)) (ha : w'.account = w.account.record b)
    (hb : w.backend.start w.clock id call.command = .ok (b, ex)) : IsExclusive w' := by
  refine ⟨?_⟩
  intro newer older t id' c q e e' r hsplit he hon hmem he' hon' hlt
  have hasked : w'.account.asked = w.account.asked := by
    rw [ha]
    rfl
  obtain ⟨hrecords₀, -, -⟩ := Scripted.start_eq_ok hb
  have hrecords : w'.account.records =
      w.account.records ++ [{ id, args := call.command.args, startedAt := w.clock }] := by
    rw [ha]
    exact hrecords₀
  obtain ⟨newer', hsplit'⟩ := exists_split_of_suffix hs.history hasked rfl hsplit
  rw [hrecords, List.mem_append, List.mem_singleton] at hmem
  rcases hmem with hmem | rfl
  · exact h.kept hs ho hn hn' hr hsplit' he hon hmem he' hon' hlt
  · obtain ⟨errand, hat, -⟩ := hm.serves
    obtain ⟨j, -, -, hj, -⟩ := hn.asked id' (mem_asked_of_split hsplit')
    have hserves := hs.serves_back hn hn' hj he
    have hserves' := hs.serves_back hn hn' (hn.current hat rfl) he'
    obtain ⟨pending, hslot⟩ := hserves'.active ho hn (hs.isOn_back ho hserves' hon') hat rfl
    have hon₁ := hs.isOn_back ho hserves hon
    obtain ⟨j₁, p₁, -, hat₁⟩ := hserves
    exact absurd hlt (Nat.not_lt.2 (ho.le_of_dispatched hslot hon₁ (hat₁.mem_dispatched ho)))

/-- What ends now is not earlier than anything that was asked for. -/
theorem finish {call : Call} {id : TaskId} {ex : Execution} {terminated : Bool}
    (hm : Moves w w' call (.running id ex) .telling)
    (ha : w'.account = w.account.record (w.backend.finish w.clock id terminated)) :
    IsExclusive w' := by
  refine ⟨?_⟩
  intro newer older t id' c q e e' r' hsplit he hon hmem he' hon' hlt
  have hasked : w'.account.asked = w.account.asked := by
    rw [ha]
    rfl
  obtain ⟨errand, hat, -⟩ := hm.serves
  obtain ⟨r₀, hr₀, hid₀, hend₀⟩ := hr.running hat
  have hrecords : w'.account.records =
      w.account.records.map (Scripted.afterEnd w.clock id terminated) := by
    rw [ha]
    change (w.backend.finish w.clock id terminated).records = _
    rw [Scripted.finish_eq hr.ids hr₀ hid₀ hend₀]
    rfl
  obtain ⟨newer', hsplit'⟩ := exists_split_of_suffix hs.history hasked rfl hsplit
  rw [hrecords] at hmem
  obtain ⟨r, hr', rfl⟩ := List.mem_map.1 hmem
  rw [Scripted.id_afterEnd] at he'
  have hended := h.kept hs ho hn hn' hr hsplit' he hon hr' he' hon' hlt
  have hne : r.id ≠ id := by
    intro hid
    obtain rfl : r₀ = r := List.inj_on_of_nodup_map hr.ids hr₀ hr' (hid₀.trans hid.symm)
    obtain ⟨t', -, -, hend, -⟩ := hended
    rw [hend₀] at hend
    exact absurd hend (by simp)
  rwa [Scripted.afterEnd_of_ne hne]

theorem stage : IsExclusive w' := by
  have hcase := hs
  cases hcase with
  | quiet hq => exact h.of_records hs ho hn hn' hr (by rw [hq.account]) (by rw [hq.account])
  | dropped hm ha => exact h.of_records hs ho hn hn' hr (by rw [ha]) (by rw [ha])
  | numbered hm ha =>
    exact h.of_records hs ho hn hn' hr (by rw [ha]; rfl) (by rw [ha]; rfl)
  | asked hm ha hw => exact h.ask hs ho hn hn' hr hm ha hw
  | started hm ha hb => exact h.start hs ho hn hn' hr hm ha hb
  | ended hm ha => exact h.finish hs ho hn hn' hr hm ha

end IsExclusive

/-- **In an undisturbed world a start request comes after the ends of all earlier executions.** -/
theorem Arises.isExclusive {w : World} (h : Arises w) (hu : IsUndisturbed w) : IsExclusive w := by
  refine Arises.induction (P := fun w => IsUndisturbed w → IsExclusive w) (fun s _ => ?_)
    (fun hw ih hc hu => ?_) h hu
  · exact ⟨fun hsplit => absurd hsplit (by simp [Setting.world])⟩
  · have hs := hw.stage hc
    have hu' := hs.isUndisturbed hu
    exact (ih hu').stage hs hw.isOrderly hw.isNumbered (hw.isNumbered.stage hs) (hw.isRecorded hu')

/-! ## What runs at once -/

/-- Is a job a call past all queues that has begun and is not over? -/
def isCallInProgress (job : Job) : Bool :=
  job.errand.isExecution && job.position != .fresh && job.position != .done

/-- The queues that have an active operation. -/
def activeQueues (w : World) : List QueueId :=
  (List.range w.queues.length).filter fun q =>
    (w.queues[q]?).any fun queue => queue.active.isSome

/-- The calls past all queues that are in progress. -/
def callsInProgress (w : World) : List JobId :=
  (List.range w.jobs.length).filter fun j => (w.jobs[j]?).any isCallInProgress

/-- An execution is over when another one starts. -/
def Precedes (r r' : Record) : Prop :=
  ∃ t, r.endedAt = some t ∧ r.startedAt ≤ t ∧ t ≤ r'.startedAt

/-- **All queues run exclusively.** -/
structure RunsExclusively (w : World) : Prop where
  /-- What the backend records was caused by an entry of a queue or by a call past all queues. -/
  caused : ∀ r ∈ w.backend.records, (∃ e q, w.entryServed? r.id = some e ∧ w.belongs q e) ∨
    ∃ j job, (r.id, j) ∈ w.seen Happening.numbered? ∧ w.jobs[j]? = some job ∧
      job.errand.isExecution
  /-- The backend is asked to start the command of an entry after the executions for all earlier
  entries of the queue have ended. -/
  startsAfter : ∀ {newer older : List (Nat × Happening)} {t : Nat} {id : TaskId} {c : Command}
    {q : QueueId} {e e' : EntryId} {r : Record}, w.history = newer ++ (t, .startAsked id c) :: older →
    w.entryServed? id = some e → w.belongs q e → r ∈ w.backend.records →
    w.entryServed? r.id = some e' → w.belongs q e' → e' < e → HasEnded r t older
  /-- Executions for one queue do not overlap. -/
  disjoint : ∀ {q : QueueId} {e e' : EntryId} {r r' : Record}, r ∈ w.backend.records →
    r' ∈ w.backend.records → w.entryServed? r.id = some e → w.belongs q e →
    w.entryServed? r'.id = some e' → w.belongs q e' → r = r' ∨ Precedes r r' ∨ Precedes r' r
  counted : w.backend.running = w.backend.unended.length
  /-- At most one execution runs for each active queue and for each call past all queues. -/
  bounded : w.backend.running ≤ w.activeQueues.length + w.callsInProgress.length

section Counting

variable {w : World}

/-- A list is no longer than another when each of its items has one there to itself. -/
theorem length_le_of_injOn {α β : Type} {l : List α} {m : List β} {R : α → β → Prop} (hl : l.Nodup)
    (hR : ∀ a ∈ l, ∃ b ∈ m, R a b)
    (hinj : ∀ a ∈ l, ∀ a' ∈ l, ∀ b, R a b → R a' b → a = a') : l.length ≤ m.length := by
  induction l generalizing m with
  | nil => exact Nat.zero_le _
  | cons a l ih =>
    obtain ⟨hnot, hl⟩ := List.nodup_cons.1 hl
    obtain ⟨b, hb, hab⟩ := hR a List.mem_cons_self
    obtain ⟨before, after, rfl⟩ := List.append_of_mem hb
    have hrest : l.length ≤ (before ++ after).length := by
      refine ih hl (fun a' ha' => ?_) fun a₁ h₁ a₂ h₂ =>
        hinj a₁ (List.mem_cons_of_mem _ h₁) a₂ (List.mem_cons_of_mem _ h₂)
      obtain ⟨b', hb', hab'⟩ := hR a' (List.mem_cons_of_mem _ ha')
      refine ⟨b', ?_, hab'⟩
      rcases List.mem_append.1 hb' with hmem | hmem
      · exact List.mem_append_left _ hmem
      · rcases List.mem_cons.1 hmem with rfl | hmem
        · have heq := hinj a List.mem_cons_self a' (List.mem_cons_of_mem _ ha') b' hab hab'
          exact absurd (heq ▸ ha') hnot
        · exact List.mem_append_right _ hmem
    rw [List.length_cons, List.length_append, List.length_cons, ← Nat.add_assoc,
      ← List.length_append]
    exact Nat.succ_le_succ hrest

/-- What holds a place among the active queues and the calls in progress: a queue through the
task of its active entry, a call through its own. -/
inductive Occupies (w : World) (id : TaskId) : QueueId ⊕ JobId → Prop where
  | queue {q : QueueId} {e : EntryId} {pending : List EntryId} (h : w.Serves id e)
      (hslot : w.ledger.slots[q]? = some (some e, pending)) : Occupies w id (.inl q)
  | call {j : JobId} (h : (id, j) ∈ w.account.numbered) : Occupies w id (.inr j)

theorem Occupies.unique (ho : w.ledger.IsOrderly) (hn : IsNumbered w) {id id' : TaskId}
    {place : QueueId ⊕ JobId} (h : Occupies w id place) (h' : Occupies w id' place) : id = id' := by
  cases h with
  | queue he hslot =>
    cases h' with
    | queue he' hslot' =>
      rw [hslot] at hslot'
      obtain ⟨hactive, -⟩ := Prod.mk.inj (Option.some.inj hslot')
      obtain rfl := Option.some.inj hactive
      obtain ⟨j, p, hj, hat⟩ := he
      obtain ⟨j', p', hj', hat'⟩ := he'
      obtain ⟨given, hrunner⟩ := hat.runner
      obtain ⟨given', hrunner'⟩ := hat'.runner
      obtain rfl := ho.runner_unique hrunner hrunner' rfl rfl
      exact hn.id_unique hj hj'
  | call hj =>
    cases h' with
    | call hj' => exact hn.id_unique hj hj'

theorem mem_activeQueues {q : QueueId} {e : EntryId} {pending : List EntryId}
    (h : w.ledger.slots[q]? = some (some e, pending)) : q ∈ w.activeQueues := by
  rw [ledger, List.getElem?_map] at h
  obtain ⟨queue, hq, hslot⟩ := Option.map_eq_some_iff.1 h
  obtain ⟨hactive, -⟩ := Prod.mk.inj hslot
  refine List.mem_filter.2 ⟨List.mem_range.2 (List.getElem?_eq_some_iff.1 hq).1, ?_⟩
  rw [hq, Option.any_some, hactive]
  rfl

theorem At.mem_callsInProgress {j : JobId} {errand : Errand} {p : Position} (hat : w.At j errand p)
    (herrand : errand.isExecution) (hid : p.id? ≠ none) : j ∈ w.callsInProgress := by
  obtain ⟨given, hj⟩ := hat
  refine List.mem_filter.2 ⟨List.mem_range.2 (List.getElem?_eq_some_iff.1 hj).1, ?_⟩
  rw [hj, Option.any_some, isCallInProgress, herrand]
  cases p <;> first | rfl | exact absurd rfl hid

/-- An execution that runs holds a place. -/
theorem IsRecorded.exists_place (h : IsRecorded w) (ho : w.ledger.IsOrderly) (hn : IsNumbered w)
    {r : Record} (hr : r ∈ w.account.records) (hend : r.endedAt = none) :
    ∃ place ∈ w.activeQueues.map Sum.inl ++ w.callsInProgress.map Sum.inr,
      Occupies w r.id place := by
  obtain ⟨j, errand, ex, hat⟩ := h.awaited r hr hend
  have hj := hn.current hat rfl
  obtain ⟨errand', p', hat', hcall, -⟩ := hn.owner hj
  obtain ⟨rfl, rfl⟩ := hat.unique hat'
  cases errand with
  | operation e =>
    obtain ⟨entry, he⟩ := hat.exists_entry ho
    have hserves : w.Serves r.id e := ⟨j, _, hj, hat⟩
    obtain ⟨pending, hslot⟩ := hserves.active ho hn (isOn_ledger he) hat rfl
    exact ⟨.inl entry.queue, List.mem_append_left _ (List.mem_map_of_mem (mem_activeQueues hslot)),
      .queue hserves hslot⟩
  | execution name command token =>
    exact ⟨.inr j, List.mem_append_right _ (List.mem_map_of_mem
      (hat.mem_callsInProgress rfl (by simp [Position.id?]))), .call hj⟩
  | reset | watch | reopen => exact absurd hcall (by simp [Errand.isCall])

end Counting

/-! ## Main statement -/

section Exclusion

variable {w : World}

theorem serves_of_entryServed? {id : TaskId} {e : EntryId} (h : w.entryServed? id = some e) :
    w.Serves id e := exists_job_of_entryServed? h

theorem Serves.entryServed? (hn : IsNumbered w) {id : TaskId} {e : EntryId} (h : w.Serves id e) :
    w.entryServed? id = some e := by
  obtain ⟨j, p, hj, given, hjob⟩ := h
  obtain ⟨before, after, hsplit⟩ := List.append_of_mem hj
  have hlookup : (w.seen Happening.numbered?).lookup id = some j := by
    refine List.lookup_eq_some_iff.2 ⟨before, after, hsplit, fun p hp => ?_⟩
    have hids := hn.nodup_ids
    rw [hsplit, List.map_append, List.nodup_append] at hids
    exact bne_iff_ne.2 (hids.2.2 p.1 (List.mem_map_of_mem hp) id List.mem_cons_self).symm
  rw [World.entryServed?, hlookup, Option.bind_some, hjob]
  rfl

/-- An execution for an entry is over before one for a later entry of the queue starts. -/
theorem IsExclusive.precedes (h : IsExclusive w) (hr : IsRecorded w) {q : QueueId} {e e' : EntryId}
    {r r' : Record} (hmem : r ∈ w.account.records) (hmem' : r' ∈ w.account.records)
    (he : w.Serves r.id e) (hon : w.ledger.isOn q e) (he' : w.Serves r'.id e')
    (hon' : w.ledger.isOn q e') (hlt : e < e') : Precedes r r' := by
  obtain ⟨t, c, hasked, ht⟩ := hr.asked r' hmem'
  obtain ⟨newer, older, hsplit⟩ := List.append_of_mem hasked
  obtain ⟨t', -, -, hend, hle, -⟩ := h.ended hsplit he' hon' hmem he hon hlt
  obtain ⟨-, hends⟩ := hr.ended r hmem
  exact ⟨t', hend, (hends t' hend).1, Nat.le_trans hle ht⟩

theorem IsExclusive.disjoint (h : IsExclusive w) (ho : w.ledger.IsOrderly) (hn : IsNumbered w)
    (hr : IsRecorded w) {q : QueueId} {e e' : EntryId} {r r' : Record}
    (hmem : r ∈ w.account.records) (hmem' : r' ∈ w.account.records) (he : w.Serves r.id e)
    (hon : w.ledger.isOn q e) (he' : w.Serves r'.id e') (hon' : w.ledger.isOn q e') :
    r = r' ∨ Precedes r r' ∨ Precedes r' r := by
  rcases Nat.lt_trichotomy e e' with hlt | rfl | hlt
  · exact .inr (.inl (h.precedes hr hmem hmem' he hon he' hon' hlt))
  · obtain ⟨j, p, hj, hat⟩ := he
    obtain ⟨j', p', hj', hat'⟩ := he'
    obtain ⟨given, hrunner⟩ := hat.runner
    obtain ⟨given', hrunner'⟩ := hat'.runner
    obtain rfl := ho.runner_unique hrunner hrunner' rfl rfl
    exact .inl (List.inj_on_of_nodup_map hr.ids hmem hmem' (hn.id_unique hj hj'))
  · exact .inr (.inr (h.precedes hr hmem' hmem he' hon' he hon hlt))

/-- What runs at once is bounded by the places there are. -/
theorem IsRecorded.running_le (h : IsRecorded w) (ho : w.ledger.IsOrderly) (hn : IsNumbered w) :
    w.backend.running ≤ w.activeQueues.length + w.callsInProgress.length := by
  have hcount : w.backend.running = w.backend.unended.length := h.count
  have hids : w.backend.records.Nodup := List.Nodup.of_map Record.id h.ids
  have hunended : ∀ r ∈ w.backend.unended, r ∈ w.account.records ∧ r.endedAt = none := fun r hr =>
    ⟨(List.mem_filter.1 hr).1, Option.isNone_iff_eq_none.1 (List.mem_filter.1 hr).2⟩
  have hle := length_le_of_injOn (R := fun r place => Occupies w r.id place) (hids.filter _)
    (fun r hr => h.exists_place ho hn (hunended r hr).1 (hunended r hr).2)
    (fun r hr r' hr' place hplace hplace' => List.inj_on_of_nodup_map h.ids (hunended r hr).1
      (hunended r' hr').1 (hplace.unique ho hn hplace'))
  rw [List.length_append, List.length_map, List.length_map] at hle
  rw [hcount]
  exact hle

/-- What the backend records was caused by an entry or by a call. -/
theorem IsRecorded.caused (h : IsRecorded w) (ho : w.ledger.IsOrderly) (hn : IsNumbered w)
    {r : Record} (hr : r ∈ w.account.records) :
    (∃ e q, w.entryServed? r.id = some e ∧ w.belongs q e) ∨
      ∃ j job, (r.id, j) ∈ w.seen Happening.numbered? ∧ w.jobs[j]? = some job ∧
        job.errand.isExecution := by
  obtain ⟨j, errand, p, hj, hat, -⟩ := h.owner r hr
  obtain ⟨errand', p', hat', hcall, -⟩ := hn.owner hj
  obtain ⟨rfl, rfl⟩ := hat.unique hat'
  cases errand with
  | operation e =>
    obtain ⟨entry, he⟩ := hat.exists_entry ho
    have hserves : w.Serves r.id e := ⟨j, p, hj, hat⟩
    exact .inl ⟨e, entry.queue, hserves.entryServed? hn,
      isOn_eq_belongs w entry.queue ▸ isOn_ledger he⟩
  | execution name command token =>
    obtain ⟨given, hjob⟩ := hat
    exact .inr ⟨j, _, hj, hjob, rfl⟩
  | reset | watch | reopen => exact absurd hcall (by simp [Errand.isCall])

end Exclusion

/-- **All queues run exclusively.**  As long as no observer panics when it is told of a start and
no call past all queues is given up, in every world on the way from a reachable one the backend was
asked to start the command of an entry only after all executions for earlier entries of the queue
had ended, and no more executions run than there are active queues and calls past all queues. -/
theorem Reachable.runsExclusively {w w' : World} (hw : Reachable w) (hc : Changes w w')
    (hu : w'.IsUndisturbed) : w'.RunsExclusively := by
  obtain ⟨s, hs⟩ := hw.arises
  have harises : Arises w' := ⟨s, hs.trans hc⟩
  have ho := harises.isOrderly
  have hn := harises.isNumbered
  have hr := harises.isRecorded hu
  have he := harises.isExclusive hu
  have hon (q : QueueId) (e : EntryId) (h : w'.belongs q e) : w'.ledger.isOn q e := by
    rwa [isOn_eq_belongs]
  exact {
    caused := fun r hmem => hr.caused ho hn hmem
    startsAfter := fun {newer older t id c q e e' r} hsplit hid hbelongs hmem hid' hbelongs' hlt =>
      he.ended hsplit (serves_of_entryServed? hid) (hon q e hbelongs) hmem
        (serves_of_entryServed? hid') (hon q e' hbelongs') hlt
    disjoint := fun {q e e' r r'} hmem hmem' hid hbelongs hid' hbelongs' =>
      he.disjoint ho hn hr hmem hmem' (serves_of_entryServed? hid) (hon q e hbelongs)
        (serves_of_entryServed? hid') (hon q e' hbelongs')
    counted := hr.count
    bounded := hr.running_le ho hn }

/-- The first execution is over when the second one runs. -/
theorem runsExclusively_two_requests : ∃ w : World, Reachable w ∧ w.IsUndisturbed ∧
    w.activeQueues = [0] ∧ w.backend.running = 1 ∧ w.backend.records.length = 2 ∧
      w.RunsExclusively := by
  have hw : Reachable (((requesting { scripts := [(["b"], { delay := 5 })] } ["a", "b"]).takeTurn
      0).takeTurn 1) :=
    ((reachable_requesting _ ["a", "b"]).next (.turn 0 (by decide))).next (.turn 1 (by decide))
  have hu : (((requesting { scripts := [(["b"], { delay := 5 })] } ["a", "b"]).takeTurn
      0).takeTurn 1).IsUndisturbed := ⟨by decide, by decide⟩
  exact ⟨_, hw, hu, rfl, rfl, rfl, hw.runsExclusively .refl hu⟩

end FolderTasks.Dispatch.World
