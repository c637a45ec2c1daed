import FolderTasks.Proofs.Dispatch.OutcomeMoments
import FolderTasks.Proofs.Dispatch.QueueSlots
/-!
# Queues keep going

As long as anything waits on a queue, one of its operations is active, and exactly one job is
there to execute it.  An operation makes room for the next one before its outcome is known, so
whoever observes an outcome finds the next operation active already, or the queue idle.

## Main definitions

* `World.unfinishedOn`, `World.underwayOn`: the entries that have not left the active slot, and
  those among them that became active.
* `World.executing?`, `World.runnersOn`: the jobs that execute the entries of a queue.
* `World.KeepsGoing`: a queue keeps going.

## Main statements

* `World.Arises.keepsGoing`: every queue keeps going, whenever.

## Design notes

All is stated of worlds that arise, so of those in the middle of a turn too: what holds there is
what a callback can observe.  A statement about the moment at which an outcome became known is one
about the world with the history as it was then, `World.asOf`.
-/

namespace FolderTasks.Dispatch

/-- What was seen of a queue by somebody who waited for an outcome. -/
def Happening.watched? : Happening → Option QueueView
  | .watched _ _ view => some view
  | _ => none

/-- Something is active, or nothing waits. -/
def QueueView.IsAdvanced (v : QueueView) : Prop := v.active.isSome ∨ v.isIdle ∧ v.pending = 0

namespace World

/-- The world with its history as it was at an earlier moment. -/
def asOf (w : World) (history : List (Nat × Happening)) : World := { w with history }

/-- The entries of a queue that have not left the active slot, in the order of their creation. -/
def unfinishedOn (w : World) (q : QueueId) : List EntryId :=
  (w.createdOn q).filter fun e => !(w.seen Happening.vacated?).contains e

/-- Those among them that became active. -/
def underwayOn (w : World) (q : QueueId) : List EntryId :=
  (w.dispatchedOn q).filter fun e => !(w.seen Happening.vacated?).contains e

/-- The entry that a job executes, until the job is over. -/
def executing? (w : World) (j : JobId) : Option EntryId :=
  (w.jobs[j]?).bind fun job => if job.position = .done then none else job.errand.entry?

/-- The jobs that execute entries of a queue. -/
def runnersOn (w : World) (q : QueueId) : List JobId :=
  (List.range w.jobs.length).filter fun j => (w.executing? j).any (w.belongs q)

/-- **A queue keeps going**, and whoever observes an outcome sees that it went on. -/
structure KeepsGoing (w : World) (q : QueueId) (queue : Queue) : Prop where
  busy : queue.pending ≠ [] → queue.active.isSome
  /-- The active entry is the first one that is not finished. -/
  first : queue.active = (w.unfinishedOn q).head?
  /-- An operation is active when exactly one job of the queue is alive, which executes it. -/
  running : ∀ {e : EntryId},
    queue.active = some e ↔ ∃ j, w.runnersOn q = [j] ∧ w.executing? j = some e
  resting : queue.active = none ↔ w.runnersOn q = []
  /-- What has its outcome neither waits nor is active. -/
  settled : ∀ {e : EntryId} {entry : Entry} {o : Outcome}, w.entryOf? e = some entry →
    entry.outcome = some o → e ∉ queue.pending ∧ queue.active ≠ some e
  /-- When an outcome became known, the first entry that was not finished was active. -/
  handed : ∀ {newer older : List (Nat × Happening)} {t : Nat} {e : EntryId} {o : Outcome},
    w.history = newer ++ (t, .resolved e o) :: older → w.belongs q e →
    (w.asOf older).underwayOn q = ((w.asOf older).unfinishedOn q).head?.toList
  /-- So it was in the eyes of everybody who waited for an outcome. -/
  observed : ∀ {t : Nat} {handle : String} {o : Outcome} {view : QueueView},
    (t, .watched handle o view) ∈ w.history → view.IsAdvanced

/-! ## Entries and runners -/

section Runners

variable {w : World} {q : QueueId} {queue : Queue}

/-- The entries that have not left the slot are the active one and those that wait. -/
theorem unfinishedOn_eq (h : w.ledger.IsOrderly) (hq : w.queues[q]? = some queue) :
    w.unfinishedOn q = queue.active.toList ++ queue.pending ∧
      w.underwayOn q = queue.active.toList := by
  have hslot := slot_eq hq
  have hserved := h.served hslot
  have hbegun := h.begun hslot
  rw [isOn_eq_belongs] at hserved hbegun
  let isOpen (e : EntryId) : Bool := !(w.seen Happening.vacated?).contains e
  have hgone : ((w.seen Happening.vacated?).filter (w.belongs q)).filter isOpen = [] := by
    refine List.filter_eq_nil_iff.2 fun e he => ?_
    simp [isOpen, (List.mem_filter.1 he).1]
  have hactive : queue.active.toList.filter isOpen = queue.active.toList := by
    refine List.filter_eq_self.2 fun e he => ?_
    rw [Option.mem_toList.1 he] at hslot
    have hnew : e ∉ w.seen Happening.vacated? := (h.active_spec hslot).2.2
    simpa [isOpen] using hnew
  have hpending : queue.pending.filter isOpen = queue.pending := by
    refine List.filter_eq_self.2 fun e he => ?_
    have hnew : e ∉ w.seen Happening.vacated? := fun hgone =>
      (h.pending_spec hslot he).2 (h.gone e hgone)
    simpa [isOpen] using hnew
  constructor
  · change (w.ledger.created.filter (w.belongs q)).filter isOpen = _
    rw [hserved, List.filter_append, List.filter_append, hactive, hpending]
    exact congrArg (· ++ _ ++ _) hgone
  · change (w.ledger.dispatched.filter (w.belongs q)).filter isOpen = _
    rw [hbegun, List.filter_append, hactive]
    exact congrArg (· ++ _) hgone

theorem executing?_eq_some {j : JobId} {e : EntryId} :
    w.executing? j = some e ↔ ∃ p, p ≠ .done ∧ w.At j (.operation e) p := by
  constructor
  · intro h
    obtain ⟨job, hjob, hexecuting⟩ := Option.bind_eq_some_iff.1 h
    split at hexecuting
    · exact absurd hexecuting (by simp)
    · next hp =>
      have herrand : job.errand = .operation e := by
        revert hexecuting
        cases job.errand <;> simp [Errand.entry?]
      exact ⟨job.position, hp, job.isAbandoned, herrand ▸ hjob⟩
  · rintro ⟨p, hp, given, hj⟩
    simp [executing?, hj, hp, Errand.entry?]

theorem mem_runnersOn {j : JobId} :
    j ∈ w.runnersOn q ↔ ∃ e, w.executing? j = some e ∧ w.belongs q e := by
  rw [runnersOn, List.mem_filter, List.mem_range, Option.any_eq_true]
  refine ⟨And.right, fun h => ⟨?_, h⟩⟩
  obtain ⟨e, he, -⟩ := h
  obtain ⟨p, -, given, hj⟩ := executing?_eq_some.1 he
  exact (List.getElem?_eq_some_iff.1 hj).1

/-- Whoever executes an entry of a queue executes the active one. -/
theorem active_of_executing (h : w.ledger.IsOrderly) (hq : w.queues[q]? = some queue) {j : JobId}
    {e : EntryId} (he : w.executing? j = some e) (hon : w.belongs q e) :
    queue.active = some e := by
  obtain ⟨p, hp, hat⟩ := executing?_eq_some.1 he
  obtain ⟨given, hrunner⟩ := hat.runner
  rw [beq_eq_false_iff_ne.2 hp] at hrunner
  exact h.active_of_live hrunner (by rwa [isOn_eq_belongs]) (slot_eq hq)

/-- The active entry is executed. -/
theorem exists_executing (h : w.ledger.IsOrderly) (hq : w.queues[q]? = some queue) {e : EntryId}
    (hactive : queue.active = some e) : ∃ j, w.executing? j = some e ∧ w.belongs q e := by
  have hslot := slot_eq hq
  rw [hactive] at hslot
  obtain ⟨hon, hdispatched, hopen⟩ := h.active_spec hslot
  rw [isOn_eq_belongs] at hon
  rw [← h.runners, List.mem_filterMap] at hdispatched
  obtain ⟨⟨errand, isDone, given⟩, hmem, herrand⟩ := hdispatched
  obtain ⟨j, hj⟩ := List.mem_iff_getElem?.1 hmem
  obtain rfl : errand = .operation e := by
    revert herrand
    cases errand <;> simp [Errand.entry?]
  -- The job of an entry that has not left the slot is not over.
  have hlive : isDone = false := Bool.eq_false_iff.2 fun hdone => hopen ((h.live hj).1 hdone)
  rw [ledger, List.getElem?_map] at hj
  obtain ⟨⟨errand', p, given'⟩, hjob, hrunner⟩ := Option.map_eq_some_iff.1 hj
  obtain ⟨rfl, hdone, -⟩ := Runner.mk.inj hrunner
  rw [hlive] at hdone
  exact ⟨j, executing?_eq_some.2 ⟨p, beq_eq_false_iff_ne.1 hdone, given', hjob⟩, hon⟩

/-- A queue has one runner when it has an active entry, and none otherwise. -/
theorem runnersOn_spec (h : w.ledger.IsOrderly) (hq : w.queues[q]? = some queue) :
    (queue.active = none ∧ w.runnersOn q = []) ∨
      ∃ e j, queue.active = some e ∧ w.runnersOn q = [j] ∧ w.executing? j = some e := by
  cases hactive : queue.active with
  | none =>
    refine .inl ⟨rfl, List.eq_nil_iff_forall_not_mem.2 fun j hj => ?_⟩
    obtain ⟨e, he, hon⟩ := mem_runnersOn.1 hj
    rw [active_of_executing h hq he hon] at hactive
    exact absurd hactive (by simp)
  | some e =>
    obtain ⟨j, he, hon⟩ := exists_executing h hq hactive
    have hmem : j ∈ w.runnersOn q := mem_runnersOn.2 ⟨e, he, hon⟩
    have halone : ∀ i ∈ w.runnersOn q, ∀ i' ∈ w.runnersOn q, i = i' := by
      intro i hi i' hi'
      obtain ⟨a, ha, hon⟩ := mem_runnersOn.1 hi
      obtain ⟨a', ha', hon'⟩ := mem_runnersOn.1 hi'
      obtain rfl : a = a' := Option.some.inj
        ((active_of_executing h hq ha hon).symm.trans (active_of_executing h hq ha' hon'))
      obtain ⟨p, -, hat⟩ := executing?_eq_some.1 ha
      obtain ⟨p', -, hat'⟩ := executing?_eq_some.1 ha'
      obtain ⟨given, hrunner⟩ := hat.runner
      obtain ⟨given', hrunner'⟩ := hat'.runner
      exact h.runner_unique hrunner hrunner' rfl rfl
    have hlength : (w.runnersOn q).length ≤ 1 :=
      length_le_one_of_nodup ((List.nodup_range).filter _) halone
    obtain ⟨i, hi⟩ := List.length_eq_one_iff.1
      (Nat.le_antisymm hlength (List.length_pos_of_mem hmem))
    rw [hi, List.mem_singleton] at hmem
    exact .inr ⟨e, j, rfl, by rw [hmem]; exact hi, he⟩

end Runners

/-! ## What was so at an earlier moment -/

section Earlier

variable {w w' : World} {q : QueueId} {older : List (Nat × Happening)}

/-- An entry that is known stays where it belongs. -/
theorem belongs_of_owners (h : w.ledger.owners <+: w'.ledger.owners) {e : EntryId}
    (hlt : e < w.ledger.owners.length) (q : QueueId) : w'.belongs q e = w.belongs q e := by
  obtain ⟨more, hmore⟩ := h
  rw [← isOn_eq_belongs, ← isOn_eq_belongs, Ledger.isOn, Ledger.isOn, ← hmore,
    List.getElem?_append_left hlt]

/-- What was unfinished and under way at a moment does not depend on what happened since. -/
theorem asOf_eq (h : w.ledger.IsOrderly) (howners : w.ledger.owners <+: w'.ledger.owners)
    (holder : older <:+ w.history) (q : QueueId) :
    (w'.asOf older).unfinishedOn q = (w.asOf older).unfinishedOn q ∧
      (w'.asOf older).underwayOn q = (w.asOf older).underwayOn q := by
  have hbelongs {f : Happening → Option EntryId} (hknown : ∀ e ∈ w.seen f, e < w.entries.length) :
      ((w.asOf older).seen f).filter (w'.belongs q) =
        ((w.asOf older).seen f).filter (w.belongs q) := by
    refine List.filter_congr fun e he => belongs_of_owners howners ?_ q
    obtain ⟨p, hp, hf⟩ := mem_seen.1 he
    rw [ledger, List.length_map]
    exact hknown e (mem_seen.2 ⟨p, holder.subset hp, hf⟩)
  have hlength : w.ledger.owners.length = w.entries.length := List.length_map _
  constructor
  · refine congrArg (List.filter _) (hbelongs fun e he => ?_)
    have hcreated : e ∈ w.ledger.created := he
    rw [h.created, List.mem_range] at hcreated
    exact hlength ▸ hcreated
  · exact congrArg (List.filter _) (hbelongs fun e he => hlength ▸ h.known e he)

/-- On an advanced queue the first entry that is not finished is active. -/
theorem underwayOn_eq (h : w.ledger.IsOrderly) (ha : w.IsAdvanced) {queue : Queue}
    (hq : w.queues[q]? = some queue) :
    queue.active = (w.unfinishedOn q).head? ∧
      w.underwayOn q = (w.unfinishedOn q).head?.toList := by
  obtain ⟨hunfinished, hunderway⟩ := unfinishedOn_eq h hq
  have hfirst : queue.active = (w.unfinishedOn q).head? := by
    rw [hunfinished]
    cases hactive : queue.active with
    | some a => rfl
    | none =>
      have hslot := slot_eq hq
      rw [hactive] at hslot
      rw [ha q queue.pending hslot]
      rfl
  exact ⟨hfirst, by rw [hunderway, ← hfirst]⟩

/-- **When an outcome gets known the next entry is active.** -/
theorem Arises.handed (hw : Arises w) {newer : List (Nat × Happening)} {t : Nat} {e : EntryId}
    {o : Outcome} (hsplit : w.history = newer ++ (t, .resolved e o) :: older)
    (hon : w.belongs q e) :
    (w.asOf older).underwayOn q = ((w.asOf older).unfinishedOn q).head?.toList := by
  -- The queue is advanced in the world in which the outcome has just got known.
  obtain ⟨v, hv, hchanges, hhistory⟩ := hw.exists_resolving hsplit
  have hadvanced : (v.asOf older).underwayOn q = ((v.asOf older).unfinishedOn q).head?.toList ∧
      (w.asOf older).unfinishedOn q = (v.asOf older).unfinishedOn q ∧
      (w.asOf older).underwayOn q = (v.asOf older).underwayOn q := by
    have howners := hv.owners_isPrefix hchanges
    have hresolved : (e, o) ∈ v.ledger.resolved :=
      mem_seen.2 ⟨(t, .resolved e o), by simp [hhistory], rfl⟩
    have hlt := hv.isOrderly.known e (hv.isOrderly.gone e (hv.isOrderly.resolvedGone _ hresolved))
    rw [belongs_of_owners howners hlt] at hon
    refine ⟨?_, asOf_eq hv.isOrderly howners (hhistory ▸ List.suffix_cons _ older) q⟩
    obtain ⟨active, pending, hslot⟩ := hv.isOrderly.exists_slot (isOn_eq_belongs _ q ▸ hon)
    rw [ledger, List.getElem?_map] at hslot
    obtain ⟨queue, hq, -⟩ := Option.map_eq_some_iff.1 hslot
    have hseen {f : Happening → Option EntryId} (hf : f (.resolved e o) = none) :
        (v.asOf older).seen f = v.seen f :=
      (seen_of_history (w := asOf _ older) hhistory hf).symm
    have hequation := (underwayOn_eq hv.isOrderly hv.isAdvanced hq).2
    simp only [underwayOn, unfinishedOn, createdOn, dispatchedOn] at hequation ⊢
    rw [hseen rfl, hseen rfl, hseen rfl]
    exact hequation
  obtain ⟨hequation, hunfinished, hunderway⟩ := hadvanced
  rw [hunfinished, hunderway]
  exact hequation

/-- On an advanced queue something is active, or nothing waits. -/
theorem view_isAdvanced (h : w.ledger.IsOrderly) (ha : w.IsAdvanced) {queue : Queue}
    (hq : w.queues[q]? = some queue) : (w.view q).IsAdvanced := by
  have hslot := slot_eq hq
  rw [view, hq]
  cases hactive : queue.active with
  | none =>
    rw [hactive] at hslot
    have hpending := ha q queue.pending hslot
    exact .inr ⟨by simp [hactive, hpending], by simp [hpending]⟩
  | some e =>
    rw [hactive] at hslot
    have hlt : e < w.entries.length := by
      have hknown := h.known e (h.active_spec hslot).2.1
      rwa [ledger, List.length_map] at hknown
    refine .inl ?_
    simp [hactive, entryOf?, hlt]

/-- Whoever was told of an outcome either was told before, or finds the queue advanced now. -/
theorem Closing.watched (hc : Closing w w') (ho : w.ledger.IsOrderly) (ha : w.IsAdvanced)
    {view : QueueView} (h : view ∈ w'.seen Happening.watched?) :
    view ∈ w.seen Happening.watched? ∨ view.IsAdvanced := by
  have hdeed (x : Happening) (hx : x.origin ∈ [Origin.deed]) : x.watched? = none := by
    cases x <;> first | rfl | exact absurd hx (by simp [Happening.origin])
  have hnone (x : Happening) (hx : x.origin ∈ ([] : List Origin)) : x.watched? = none :=
    absurd hx List.not_mem_nil
  have hreceived {w₁ : World} {e : EntryId} {o : Outcome} (hr : w.receive? e = some (w₁, o)) :
      w₁.seen Happening.watched? = w.seen Happening.watched? :=
    (mild_receive? hr).seen_eq hnone
  have hreopened (w₁ : World) (q : QueueId) (e : EntryId) :
      (w₁.reopen q e).seen Happening.watched? = w₁.seen Happening.watched? :=
    seen_note_of_none (w₁.withhold q false) rfl
  have hended (kind : JobKind) (name : String) (result : JobResult) :
      (w.note (.jobEnded kind name result)).seen Happening.watched? =
        w.seen Happening.watched? := seen_note_of_none w rfl
  cases hc with
  | @closed j e p o hat =>
    obtain ⟨entry, he⟩ := hat.exists_entry ho
    obtain ⟨v, t, hmild, hhistory⟩ := resolve_history he o
    have hseen : (w.resolve e o).seen Happening.watched? = w.seen Happening.watched? :=
      (seen_of_history hhistory rfl).trans ((hmild.seen_eq hdeed).trans (seen_note_of_none w rfl))
    exact .inl (hseen ▸ h)
  | executionEnded result => exact .inl (hended .execution _ result ▸ h)
  | resetRefused => exact .inl (hended .reset _ _ ▸ h)
  | @resetAsked j name folder token q =>
    have hasked : (w.askReset j q folder token).seen Happening.watched? =
        w.seen Happening.watched? := by
      refine ((mild_takeSeat _ _ _).seen_eq hnone).trans ?_
      refine (seen_note_of_none _ rfl).trans ?_
      exact (mild_request (w.withhold q true) q _ token (by simp)).seen_eq hdeed
    exact .inl (hasked ▸ h)
  | resetForgotten => exact .inl h
  | seatTaken e => exact .inl (((mild_takeSeat w e _).seen_eq hnone) ▸ h)
  | @resetConcluded w₁ j name folder token e seat entry o hat he hr =>
    have htold : (w₁.concludeReset name folder entry.queue e o).seen Happening.watched? =
        w₁.seen Happening.watched? :=
      (seen_note_of_none _ rfl).trans ((hreopened _ _ _).trans (seen_note_of_none w₁ rfl))
    exact .inl ((htold.trans (hreceived hr)) ▸ h)
  | @watchEnded w₁ j handle e p o hat hp hr =>
    have hreceived := hreceived hr
    split at h
    · next entry he =>
      have hledger := ledger_receive? hr
      have hqueue : entry.queue < w₁.queues.length := by
        have hhoused := ho.housed entry.queue
        rw [← hledger] at hhoused
        simpa [ledger] using hhoused (List.mem_map_of_mem (List.mem_of_getElem? he))
      have hview : (w₁.view entry.queue).IsAdvanced :=
        view_isAdvanced (hledger ▸ ho) (ha.of_slots (slots_receive? hr))
          (List.getElem?_eq_getElem hqueue)
      have htold : (w₁.note (.watched handle o (w₁.view entry.queue))).seen Happening.watched? =
          w₁.seen Happening.watched? ++ [w₁.view entry.queue] := seen_note ..
      rcases List.mem_append.1 (htold ▸ h : view ∈ _) with hold | hnew
      · exact .inl (hreceived ▸ hold)
      · exact .inr (List.mem_singleton.1 hnew ▸ hview)
    · exact .inl (hreceived ▸ h)
  | reopened o hat hp hr => exact .inl (((hreopened _ _ _).trans (hreceived hr)) ▸ h)
  | @discarded j job =>
    have hdropped : (w.discard j job).seen Happening.watched? = w.seen Happening.watched? := by
      unfold discard
      dsimp only
      split
      · exact (lasts_dropExecution (O := []) w _).seen_eq hnone
      · unfold discardReset
        split
        · rfl
        · dsimp only
          split
          · exact hreopened (w.leaveSeat _ _) _ _
          · rfl
      · rfl
    exact .inl (hdropped ▸ h)

/-- **Whoever waits for an outcome finds the queue advanced.** -/
theorem Arises.observed (hw : Arises w) {view : QueueView}
    (h : view ∈ w.seen Happening.watched?) : view.IsAdvanced := by
  revert view
  refine hw.induction (P := fun w => ∀ {view : QueueView}, view ∈ w.seen Happening.watched? →
    view.IsAdvanced) (fun s view h => ?_) fun {w w'} hw ih hc => ?_
  · exact absurd h List.not_mem_nil
  · intro view h
    have hquiet {O : List Origin} (hl : Lasts O w w') (ho : .closing ∉ O) : view.IsAdvanced := by
      refine ih (hl.seen_eq (fun x hx => ?_) ▸ h)
      cases x <;> first | rfl | exact absurd hx ho
    cases hc with
    | deed hd => exact hquiet hd.mild.toLasts (by simp)
    | drift hd => exact hquiet hd.lasts (by simp)
    | telling ht => exact hquiet ht.mild.toLasts (by simp)
    | stride hs => exact hquiet hs.lasts (by simp)
    | closing hc => exact (hc.watched hw.isOrderly hw.isAdvanced h).elim ih id

end Earlier

/-! ## Main statement -/

/-- **Every queue keeps going, whenever.**  While something waits, one operation is active and
exactly one job executes it.  An entry that has its outcome neither waits nor is active, and when
its outcome became known the next entry of its queue was active, if there was one.  So it is
whatever panics, fails, is cancelled or disposed of. -/
theorem Arises.keepsGoing {w : World} (hw : Arises w) {q : QueueId} {queue : Queue}
    (hq : w.queues[q]? = some queue) : w.KeepsGoing q queue := by
  have h := hw.isOrderly
  have ha := hw.isAdvanced
  have hslot := slot_eq hq
  exact {
    busy := fun hpending => by
      cases hactive : queue.active with
      | some a => rfl
      | none => exact absurd (ha q queue.pending (hactive ▸ hslot)) hpending
    first := (underwayOn_eq h ha hq).1
    running := fun {e} => by
      rcases runnersOn_spec h hq with ⟨hactive, hnobody⟩ | ⟨a, j, hactive, halone, ha⟩
      · rw [hactive, hnobody]
        simp
      · rw [hactive, halone]
        constructor
        · intro he
          exact ⟨j, rfl, Option.some.inj he ▸ ha⟩
        · rintro ⟨i, hi, he⟩
          obtain rfl := List.singleton_inj.1 hi
          rw [← ha, he]
    resting := by
      rcases runnersOn_spec h hq with ⟨hactive, hnobody⟩ | ⟨a, j, hactive, halone, -⟩
      · exact iff_of_true hactive hnobody
      · exact iff_of_false (by simp [hactive]) (by simp [halone])
    settled := fun {e entry o} he ho => by
      have hgone := h.resolvedGone _ ((outcome_iff_resolved h he).1 ho)
      constructor
      · intro hpending
        exact (h.pending_spec hslot hpending).2 (h.gone e hgone)
      · intro hactive
        exact (h.active_spec (hactive ▸ hslot)).2.2 hgone
    handed := hw.handed
    observed := fun hmem => hw.observed (mem_seen.2 ⟨_, hmem, rfl⟩) }

/-- Three operations are requested, and the reporter panics at the start of the first, for which
somebody waits. -/
def panickingReporter : World :=
  let shown (a : String) : Operation :=
    { command := ⟨"p", [a], none, .empty, none⟩, showStatus := true }
  let requested := ["a", "b", "c"].foldl
    (fun w a => (w.step (.act (.request "q" (shown a) none a))).1)
    (({ hooks := [.mk (some .start) (some 1) [] true] } : Setting).world.step
      (.act (.makeQueue "q" "Q"))).1
  (((requested.step (.act (.watch "a"))).1.takeTurn 0).takeTurn 1)

theorem reachable_panickingReporter : Reachable panickingReporter := by
  refine (Reachable.next (.next (.next (.next (.next (.next (.new _) (.act _ rfl)) (.act _ rfl))
    (.act _ rfl)) (.act _ rfl)) (.act _ rfl)) (.turn 0 ?_)).next (.turn 1 ?_)
  · decide
  · decide

/-- The second operation is active when the first, whose reporter panicked, has its outcome. -/
theorem keepsGoing_panickingReporter : ∃ (w : World) (queue : Queue),
    Arises w ∧ w.queues[0]? = some queue ∧ w.outcomesOf 0 = [.terminated] ∧
      queue.active = some 1 ∧ queue.pending = [2] ∧ w.runnersOn 0 = [2] ∧
      w.seen Happening.watched? = [⟨1, some "p b", false, false⟩] ∧ w.KeepsGoing 0 queue := by
  have hw : Arises panickingReporter := reachable_panickingReporter.arises
  exact ⟨_, _, hw, rfl, by decide, rfl, rfl, by decide, by decide, hw.keepsGoing rfl⟩

end World

end FolderTasks.Dispatch
