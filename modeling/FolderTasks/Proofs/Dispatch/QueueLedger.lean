import FolderTasks.Proofs.Dispatch.TurnChanges
/-!
# The ledger of the queues

What happens to entries is kept in a ledger: which queue each belongs to, which one is active and
which ones wait, which jobs execute them, and in which order they were created, dispatched, taken
out of the active slot and resolved.  The ledger changes in a few ways only, and each of them keeps
it orderly.

## Main definitions

* `Ledger`: the books, with the entries made in them.
* `Ledger.IsOrderly`: no entry is lost, doubled or out of order.
* `Ledger.append`, `Ledger.dispatch`, `Ledger.vacate`, `Ledger.resolve`: what is entered.

## Main statements

* `Ledger.IsOrderly.append`, `Ledger.IsOrderly.dispatch`, `Ledger.IsOrderly.vacate`,
  `Ledger.IsOrderly.resolve`: everything that is entered keeps the ledger orderly.
* `Ledger.IsOrderly.active_of_live`: the entry of a job that is not over is the active one.
-/

namespace FolderTasks.Dispatch

/-- The entry whose operation an errand is to execute. -/
def Errand.entry? : Errand → Option EntryId
  | .operation e => some e
  | .execution _ _ _ | .reset _ _ _ | .watch _ _ | .reopen _ _ => none

/-- What the ledger says of a job. -/
structure Runner where
  errand : Errand
  isDone : Bool := false
  isAbandoned : Bool := false

/-- A job that is over. -/
def Runner.finished (r : Runner) : Runner := { r with isDone := true }

/-- A job that is given up. -/
def Runner.givenUp (r : Runner) : Runner := { r with isAbandoned := true }

/-- The books of a set of queues. -/
structure Ledger where
  /-- The queue of each entry. -/
  owners : List QueueId
  /-- The outcome of each entry, once it is known. -/
  outcomes : List (Option Outcome)
  /-- The active entry and the waiting entries of each queue. -/
  slots : List (Option EntryId × List EntryId)
  runners : List Runner
  /-- The jobs that have a name. -/
  named : List JobId
  created : List EntryId
  dispatched : List EntryId
  vacated : List EntryId
  resolved : List (EntryId × Outcome)
  /-- In which order entries left their slots and were resolved. -/
  departures : List Happening

/-- What stands in a list after one item was changed. -/
theorem exists_of_getElem?_modify {α : Type} {l : List α} {i j : Nat} {f : α → α} {a : α}
    (h : (l.modify i f)[j]? = some a) : ∃ b, l[j]? = some b ∧ a = if i = j then f b else b := by
  rw [List.getElem?_modify] at h
  obtain ⟨b, hb, rfl⟩ := Option.map_eq_some_iff.1 h
  exact ⟨b, hb, by split <;> rfl⟩

/-- One item of a list was changed, and the others stand where they stood. -/
theorem getElem?_modify_cases {α : Type} {l : List α} {i j : Nat} {f : α → α} {a : α}
    (h : (l.modify i f)[j]? = some a) :
    (i = j ∧ ∃ b, l[j]? = some b ∧ a = f b) ∨ i ≠ j ∧ l[j]? = some a := by
  obtain ⟨b, hb, rfl⟩ := exists_of_getElem?_modify h
  by_cases hij : i = j
  · exact .inl ⟨hij, b, hb, if_pos hij⟩
  · exact .inr ⟨hij, by rw [hb, if_neg hij]⟩

namespace Ledger

/-- Does an entry belong to a queue? -/
def isOn (L : Ledger) (q : QueueId) (e : EntryId) : Bool := L.owners[e]? == some q

/-- **An orderly ledger.**  The entries of a queue, in the order of their creation, are those that
left the active slot, the active one, and the waiting ones. -/
structure IsOrderly (L : Ledger) : Prop where
  created : L.created = List.range L.owners.length
  outcomes : L.outcomes.length = L.owners.length
  housed : ∀ q ∈ L.owners, q < L.slots.length
  known : ∀ e ∈ L.dispatched, e < L.owners.length
  /-- No entry is lost or served out of order. -/
  served : ∀ {q : QueueId} {active : Option EntryId} {pending : List EntryId},
    L.slots[q]? = some (active, pending) →
    L.created.filter (L.isOn q) = L.vacated.filter (L.isOn q) ++ active.toList ++ pending
  begun : ∀ {q : QueueId} {active : Option EntryId} {pending : List EntryId},
    L.slots[q]? = some (active, pending) →
    L.dispatched.filter (L.isOn q) = L.vacated.filter (L.isOn q) ++ active.toList
  gone : ∀ e ∈ L.vacated, e ∈ L.dispatched
  /-- Every dispatched entry has one job. -/
  runners : L.runners.filterMap (fun r => r.errand.entry?) = L.dispatched
  /-- The job of an entry is over when the entry has left the active slot. -/
  live : ∀ {j : JobId} {e : EntryId} {d a : Bool},
    L.runners[j]? = some ⟨.operation e, d, a⟩ → (d = true ↔ e ∈ L.vacated)
  /-- Only jobs with a name are given up. -/
  named : ∀ j ∈ L.named, ∃ r, L.runners[j]? = some r ∧ r.errand.isNamed
  abandoned : ∀ r ∈ L.runners, r.isAbandoned → r.errand.isNamed
  resolvedOnce : (L.resolved.map Prod.fst).Nodup
  resolvedGone : ∀ p ∈ L.resolved, p.1 ∈ L.vacated
  outcome : ∀ {e : EntryId} {o : Outcome}, L.outcomes[e]? = some (some o) ↔ (e, o) ∈ L.resolved
  departed : ∀ e ∈ L.vacated, .vacated e ∈ L.departures
  /-- An entry leaves its slot before it is resolved. -/
  leftFirst : ∀ {older newer : List Happening} {e : EntryId} {o : Outcome},
    L.departures = older ++ .resolved e o :: newer → .vacated e ∈ older

namespace IsOrderly

variable {L : Ledger}

/-! ## What is known of an orderly ledger -/

theorem isOn_lt {q : QueueId} {e : EntryId} (h : L.isOn q e) : e < L.owners.length := by
  rw [isOn, beq_iff_eq] at h
  exact (List.getElem?_eq_some_iff.1 h).1

/-- An entry belongs to one queue. -/
theorem isOn_unique {q q' : QueueId} {e : EntryId} (h : L.isOn q e) (h' : L.isOn q' e) :
    q = q' := by
  rw [isOn, beq_iff_eq] at h h'
  exact Option.some.inj (h.symm.trans h')

theorem isOn_eq {q : QueueId} {e : EntryId} (h : L.isOn q e) (q' : QueueId) :
    L.isOn q' e = (q == q') := by
  rw [isOn, beq_iff_eq.1 h]
  exact Option.some_beq_some

/-- One more entry counts for its own queue only. -/
theorem filter_isOn_concat {q : QueueId} {e : EntryId} (h : L.isOn q e) (q' : QueueId)
    (es : List EntryId) : (es ++ [e]).filter (L.isOn q') =
      es.filter (L.isOn q') ++ if q = q' then [e] else [] := by
  rw [List.filter_append, List.filter_cons, List.filter_nil, isOn_eq h]
  by_cases hqq : q = q' <;> simp [hqq]

theorem exists_isOn {e : EntryId} (h : e < L.owners.length) : ∃ q, L.isOn q e :=
  ⟨L.owners[e], by rw [isOn, List.getElem?_eq_getElem h, beq_self_eq_true]⟩

/-- The queue of an entry has a slot. -/
theorem exists_slot (hL : L.IsOrderly) {q : QueueId} {e : EntryId} (h : L.isOn q e) :
    ∃ active pending, L.slots[q]? = some (active, pending) := by
  rw [isOn, beq_iff_eq] at h
  have hq := hL.housed q (List.mem_of_getElem? h)
  exact ⟨L.slots[q].1, L.slots[q].2, List.getElem?_eq_getElem hq⟩

theorem nodup_createdOn (hL : L.IsOrderly) (q : QueueId) :
    (L.created.filter (L.isOn q)).Nodup := by
  rw [hL.created]
  exact List.nodup_range.filter _

/-- The active entry of a queue belongs to it and has not left the slot. -/
theorem active_spec (hL : L.IsOrderly) {q : QueueId} {e : EntryId} {pending : List EntryId}
    (h : L.slots[q]? = some (some e, pending)) : L.isOn q e ∧ e ∈ L.dispatched ∧ e ∉ L.vacated := by
  have hserved := hL.served h
  have hmem : e ∈ L.created.filter (L.isOn q) := by
    rw [hserved]
    simp
  have hon : L.isOn q e := (List.mem_filter.1 hmem).2
  have hdispatched : e ∈ L.dispatched.filter (L.isOn q) := by
    rw [hL.begun h]
    simp
  refine ⟨hon, (List.mem_filter.1 hdispatched).1, fun hgone => ?_⟩
  have hnodup := hL.nodup_createdOn q
  rw [hserved, List.append_assoc, List.nodup_append] at hnodup
  exact hnodup.2.2 e (List.mem_filter.2 ⟨hgone, hon⟩) e (by simp) rfl

/-- An entry waits where it belongs, and has not been dispatched. -/
theorem pending_spec (hL : L.IsOrderly) {q : QueueId} {e : EntryId} {active : Option EntryId}
    {pending : List EntryId} (h : L.slots[q]? = some (active, pending)) (he : e ∈ pending) :
    L.isOn q e ∧ e ∉ L.dispatched := by
  have hserved := hL.served h
  have hmem : e ∈ L.created.filter (L.isOn q) := by
    rw [hserved]
    exact List.mem_append_right _ he
  have hon : L.isOn q e := (List.mem_filter.1 hmem).2
  refine ⟨hon, fun hdispatched => ?_⟩
  have hnodup := hL.nodup_createdOn q
  rw [hserved, ← hL.begun h, List.nodup_append] at hnodup
  exact hnodup.2.2 e (List.mem_filter.2 ⟨hdispatched, hon⟩) e he rfl

/-- No entry is dispatched twice. -/
theorem nodup_dispatched (hL : L.IsOrderly) : L.dispatched.Nodup := by
  rw [List.nodup_iff_count]
  intro e
  by_cases he : e ∈ L.dispatched
  · obtain ⟨q, hon⟩ := exists_isOn (hL.known e he)
    obtain ⟨active, pending, hslot⟩ := hL.exists_slot hon
    have hnodup := hL.nodup_createdOn q
    rw [hL.served hslot, ← hL.begun hslot, List.nodup_append] at hnodup
    have hcount := List.nodup_iff_count.1 hnodup.1 e
    rwa [List.count_filter hon] at hcount
  · rw [List.count_eq_zero_of_not_mem he]
    exact Nat.zero_le 1

/-- The entry of a job that is not over is the active one of its queue. -/
theorem active_of_live (hL : L.IsOrderly) {j : JobId} {e : EntryId} {a : Bool} {q : QueueId}
    {active : Option EntryId} {pending : List EntryId}
    (h : L.runners[j]? = some ⟨.operation e, false, a⟩) (hon : L.isOn q e)
    (hslot : L.slots[q]? = some (active, pending)) : active = some e := by
  have hdispatched : e ∈ L.dispatched := by
    rw [← hL.runners, List.mem_filterMap]
    exact ⟨_, List.mem_of_getElem? h, rfl⟩
  have hgone : e ∉ L.vacated := fun hgone => Bool.noConfusion ((hL.live h).2 hgone)
  have hmem : e ∈ L.dispatched.filter (L.isOn q) := List.mem_filter.2 ⟨hdispatched, hon⟩
  rw [hL.begun hslot, List.mem_append] at hmem
  have hactive : e ∈ active.toList :=
    hmem.resolve_left fun hmem => hgone (List.mem_filter.1 hmem).1
  exact Option.mem_toList.1 hactive

/-- A queue serves its entries in the order of their numbers. -/
theorem pairwise_served (hL : L.IsOrderly) {q : QueueId} {active : Option EntryId}
    {pending : List EntryId} (hslot : L.slots[q]? = some (active, pending)) :
    (L.vacated.filter (L.isOn q) ++ active.toList ++ pending).Pairwise (· < ·) := by
  rw [← hL.served hslot, hL.created]
  exact List.pairwise_lt_range.filter _

/-- Whatever was created before the active entry has left the slot. -/
theorem vacated_of_lt (hL : L.IsOrderly) {q : QueueId} {e e' : EntryId} {pending : List EntryId}
    (hslot : L.slots[q]? = some (some e, pending)) (hon : L.isOn q e') (hlt : e' < e) :
    e' ∈ L.vacated := by
  have hmem : e' ∈ L.created.filter (L.isOn q) := by
    rw [hL.created]
    exact List.mem_filter.2 ⟨List.mem_range.2 (isOn_lt hon), hon⟩
  rw [hL.served hslot, List.append_assoc, List.mem_append] at hmem
  rcases hmem with hmem | hmem
  · exact (List.mem_filter.1 hmem).1
  · have hpairwise := hL.pairwise_served hslot
    rw [List.append_assoc, List.pairwise_append] at hpairwise
    rcases List.mem_cons.1 hmem with rfl | hmem
    · exact absurd hlt (Nat.lt_irrefl _)
    · exact absurd hlt (Nat.lt_asymm ((List.pairwise_cons.1 hpairwise.2.1).1 e' hmem))

/-- Nothing that was dispatched was created after the active entry. -/
theorem le_of_dispatched (hL : L.IsOrderly) {q : QueueId} {e e' : EntryId}
    {pending : List EntryId} (hslot : L.slots[q]? = some (some e, pending)) (hon : L.isOn q e')
    (hmem : e' ∈ L.dispatched) : e' ≤ e := by
  have hfilter : e' ∈ L.dispatched.filter (L.isOn q) := List.mem_filter.2 ⟨hmem, hon⟩
  rw [hL.begun hslot, List.mem_append] at hfilter
  rcases hfilter with hgone | hactive
  · have hpairwise := (List.pairwise_append.1 (hL.pairwise_served hslot)).1
    exact Nat.le_of_lt ((List.pairwise_append.1 hpairwise).2.2 e' hgone e (by simp))
  · exact Nat.le_of_eq (List.mem_singleton.1 hactive)

/-- An entry has one job. -/
theorem runner_unique (hL : L.IsOrderly) {i j : JobId} {r r' : Runner} {e : EntryId}
    (hi : L.runners[i]? = some r) (hj : L.runners[j]? = some r')
    (hr : r.errand.entry? = some e) (hr' : r'.errand.entry? = some e) : i = j := by
  have hnodup : (L.runners.filterMap fun r => r.errand.entry?).Nodup :=
    hL.runners ▸ hL.nodup_dispatched
  rw [List.Nodup, List.pairwise_filterMap, List.pairwise_iff_getElem] at hnodup
  obtain ⟨hi', rfl⟩ := List.getElem?_eq_some_iff.1 hi
  obtain ⟨hj', rfl⟩ := List.getElem?_eq_some_iff.1 hj
  rcases Nat.lt_trichotomy i j with hlt | heq | hlt
  · exact absurd rfl (hnodup i j hi' hj' hlt e hr e hr')
  · exact heq
  · exact absurd rfl (hnodup j i hj' hi' hlt e hr' e hr)

end IsOrderly

/-! ## What is entered in the ledger -/

/-- A new entry waits at the end of its queue. -/
def append (L : Ledger) (q : QueueId) : Ledger :=
  { L with
    owners := L.owners ++ [q]
    outcomes := L.outcomes ++ [none]
    slots := L.slots.modify q fun s => (s.1, s.2 ++ [L.owners.length])
    created := L.created ++ [L.owners.length] }

/-- The first entry that waits becomes active, and a job begins to execute it. -/
def dispatch (L : Ledger) (q : QueueId) (e : EntryId) (rest : List EntryId) : Ledger :=
  { L with
    slots := L.slots.modify q fun _ => (some e, rest)
    dispatched := L.dispatched ++ [e]
    runners := L.runners ++ [⟨.operation e, false, false⟩] }

/-- The active entry leaves its slot, and its job is over. -/
def vacate (L : Ledger) (j : JobId) (e : EntryId) (q : QueueId) : Ledger :=
  { L with
    slots := L.slots.modify q fun s => (none, s.2)
    vacated := L.vacated ++ [e]
    departures := L.departures ++ [.vacated e]
    runners := L.runners.modify j Runner.finished }

/-- The outcome of an entry is known. -/
def resolve (L : Ledger) (e : EntryId) (o : Outcome) : Ledger :=
  { L with
    outcomes := L.outcomes.modify e fun _ => some o
    resolved := L.resolved ++ [(e, o)]
    departures := L.departures ++ [.resolved e o] }

/-- A job begins. -/
def spawn (L : Ledger) (errand : Errand) : Ledger :=
  { L with runners := L.runners ++ [⟨errand, false, false⟩] }

/-- A job is over. -/
def finish (L : Ledger) (j : JobId) : Ledger :=
  { L with runners := L.runners.modify j Runner.finished }

/-- A job is given up. -/
def abandon (L : Ledger) (j : JobId) : Ledger :=
  { L with runners := L.runners.modify j Runner.givenUp }

/-- A queue is made. -/
def makeQueue (L : Ledger) : Ledger := { L with slots := L.slots ++ [(none, [])] }

/-- Jobs get names, or lose them. -/
def rename (L : Ledger) (named : List JobId) : Ledger := { L with named }

/-! ## Order is kept -/

theorem isOn_append {L : Ledger} {q q' : QueueId} {e : EntryId} (h : e < L.owners.length) :
    (L.append q).isOn q' e = L.isOn q' e := by
  rw [isOn, isOn, append, List.getElem?_append_left h]

theorem isOn_append_self (L : Ledger) (q q' : QueueId) :
    (L.append q).isOn q' L.owners.length = (q == q') := by
  simp [isOn, append]

namespace IsOrderly

variable {L : Ledger}

theorem filter_isOn_append (q q' : QueueId) {es : List EntryId}
    (h : ∀ e ∈ es, e < L.owners.length) :
    es.filter ((L.append q).isOn q') = es.filter (L.isOn q') :=
  List.filter_congr fun e he => isOn_append (h e he)

/-! ### Jobs -/

theorem getElem?_spawned {runners : List Runner} {errand : Errand} {j : JobId} {r : Runner}
    (h : (runners ++ [⟨errand, false, false⟩])[j]? = some r) :
    runners[j]? = some r ∨ r = ⟨errand, false, false⟩ := by
  exact (getElem?_concat_cases h).imp_right And.right

theorem live_spawned (hL : L.IsOrderly) {errand : Errand}
    (hnew : ∀ e, errand = .operation e → e ∉ L.vacated) {j : JobId} {e : EntryId} {d a : Bool}
    (h : (L.runners ++ [⟨errand, false, false⟩])[j]? = some ⟨.operation e, d, a⟩) :
    d = true ↔ e ∈ L.vacated := by
  rcases getElem?_spawned h with h | h
  · exact hL.live h
  · obtain ⟨herrand, rfl, -⟩ := Runner.mk.inj h
    exact ⟨fun hd => Bool.noConfusion hd, fun he => absurd he (hnew e herrand.symm)⟩

theorem named_spawned (hL : L.IsOrderly) (errand : Errand) :
    ∀ j ∈ L.named, ∃ r, (L.runners ++ [⟨errand, false, false⟩])[j]? = some r ∧ r.errand.isNamed := by
  intro j hj
  obtain ⟨r, hr, hnamed⟩ := hL.named j hj
  exact ⟨r, World.getElem?_of_isPrefix (List.prefix_append _ _) hr, hnamed⟩

theorem abandoned_spawned (hL : L.IsOrderly) (errand : Errand) :
    ∀ r ∈ L.runners ++ [⟨errand, false, false⟩], r.isAbandoned → r.errand.isNamed := by
  intro r hr ha
  rcases List.mem_append.1 hr with hr | hr
  · exact hL.abandoned r hr ha
  · rw [List.mem_singleton.1 hr] at ha
    exact Bool.noConfusion ha

/-- Jobs that execute no entry do not matter to the order of the entries. -/
theorem of_runners (hL : L.IsOrderly) {runners : List Runner} {named : List JobId}
    (hrunners : runners.filterMap (fun r => r.errand.entry?) = L.dispatched)
    (hlive : ∀ {j : JobId} {e : EntryId} {d a : Bool},
      runners[j]? = some ⟨.operation e, d, a⟩ → (d = true ↔ e ∈ L.vacated))
    (hnamed : ∀ j ∈ named, ∃ r, runners[j]? = some r ∧ r.errand.isNamed)
    (habandoned : ∀ r ∈ runners, r.isAbandoned → r.errand.isNamed) :
    IsOrderly { L with runners, named } :=
  { hL with runners := hrunners, live := hlive, named := hnamed, abandoned := habandoned }

theorem append (hL : L.IsOrderly) {q : QueueId} (hq : q < L.slots.length) :
    (L.append q).IsOrderly where
  created := by
    simp only [Ledger.append, hL.created, List.length_append, List.length_singleton]
    exact List.range_succ.symm
  outcomes := by simp [Ledger.append, hL.outcomes]
  housed q' hq' := by
    simp only [Ledger.append, List.mem_append, List.mem_singleton, List.length_modify] at hq' ⊢
    rcases hq' with hq' | rfl
    · exact hL.housed q' hq'
    · exact hq
  known e he := by
    simp only [Ledger.append, List.length_append, List.length_singleton]
    exact Nat.lt_succ_of_lt (hL.known e he)
  served := by
    intro q' active pending h
    have hvacated : L.vacated.filter _ = _ :=
      filter_isOn_append (L := L) q q' fun e he => hL.known e (hL.gone e he)
    have hcreated : L.created.filter _ = _ :=
      filter_isOn_append (L := L) q q' fun e he => List.mem_range.1 (hL.created ▸ he)
    have hself : (L.append q).isOn q L.owners.length := by
      rw [isOn_append_self, beq_self_eq_true]
    change (L.created ++ [L.owners.length]).filter _ = L.vacated.filter _ ++ _ ++ _
    rw [filter_isOn_concat hself, hvacated, hcreated]
    rcases getElem?_modify_cases h with ⟨rfl, slot, hslot, heq⟩ | ⟨hqq, hslot⟩
    · obtain ⟨rfl, rfl⟩ := Prod.mk.inj heq
      rw [hL.served hslot, if_pos rfl, List.append_assoc]
    · rw [hL.served hslot, if_neg hqq, List.append_nil]
  begun := by
    intro q' active pending h
    obtain ⟨⟨active', pending'⟩, hslot, heq⟩ := exists_of_getElem?_modify h
    have hactive : active = active' := by
      split at heq <;> exact (Prod.mk.inj heq).1
    change L.dispatched.filter _ = L.vacated.filter _ ++ _
    rw [filter_isOn_append q q' hL.known,
      filter_isOn_append q q' fun e he => hL.known e (hL.gone e he), hL.begun hslot, hactive]
  gone := hL.gone
  runners := hL.runners
  live := hL.live
  named := hL.named
  abandoned := hL.abandoned
  resolvedOnce := hL.resolvedOnce
  resolvedGone := hL.resolvedGone
  outcome := by
    intro e o
    have hlast : (L.outcomes ++ [none])[e]? = some (some o) ↔ L.outcomes[e]? = some (some o) := by
      rw [List.getElem?_append]
      split
      · exact Iff.rfl
      · next hge =>
        rw [List.getElem?_eq_none (Nat.le_of_not_lt hge)]
        rcases Nat.eq_zero_or_pos (e - L.outcomes.length) with hzero | hpos
        · simp [hzero]
        · simp [List.getElem?_eq_none (show [none].length ≤ e - L.outcomes.length from hpos)]
    exact hlast.trans hL.outcome
  departed := hL.departed
  leftFirst := hL.leftFirst

theorem dispatch (hL : L.IsOrderly) {q : QueueId} {e : EntryId} {rest : List EntryId}
    (hslot : L.slots[q]? = some (none, e :: rest)) : (L.dispatch q e rest).IsOrderly := by
  have hpending := hL.pending_spec hslot List.mem_cons_self
  exact {
    created := hL.created
    outcomes := hL.outcomes
    housed := fun q' hq' => by
      simpa only [Ledger.dispatch, List.length_modify] using hL.housed q' hq'
    known := fun e' he' => by
      rcases List.mem_append.1 he' with he' | he'
      · exact hL.known e' he'
      · rw [List.mem_singleton.1 he']
        exact isOn_lt hpending.1
    served := by
      intro q' active pending h
      rcases getElem?_modify_cases h with ⟨rfl, -, -, heq⟩ | ⟨-, hslot'⟩
      · obtain ⟨rfl, rfl⟩ := Prod.mk.inj heq
        change L.created.filter (L.isOn q) = L.vacated.filter (L.isOn q) ++ _ ++ _
        rw [hL.served hslot]
        simp
      · exact hL.served hslot'
    begun := by
      intro q' active pending h
      change (L.dispatched ++ [e]).filter (L.isOn q') = L.vacated.filter (L.isOn q') ++ _
      rw [filter_isOn_concat hpending.1]
      rcases getElem?_modify_cases h with ⟨rfl, -, -, heq⟩ | ⟨hqq, hslot'⟩
      · obtain ⟨rfl, rfl⟩ := Prod.mk.inj heq
        rw [hL.begun hslot]
        simp
      · rw [hL.begun hslot', if_neg hqq, List.append_nil]
    gone := fun e' he' => List.mem_append_left _ (hL.gone e' he')
    runners := by
      rw [Ledger.dispatch, List.filterMap_append, hL.runners]
      rfl
    live := hL.live_spawned fun e' he' hgone => by
      rw [Errand.operation.inj he'] at hpending
      exact hpending.2 (hL.gone e' hgone)
    named := hL.named_spawned (.operation e)
    abandoned := hL.abandoned_spawned (.operation e)
    resolvedOnce := hL.resolvedOnce
    resolvedGone := hL.resolvedGone
    outcome := hL.outcome
    departed := hL.departed
    leftFirst := hL.leftFirst }

/-- The errand of a job does not change when the job is over or given up. -/
theorem filterMap_modify {j : JobId} {f : Runner → Runner} (hf : ∀ r, (f r).errand = r.errand)
    (runners : List Runner) : (runners.modify j f).filterMap (fun r => r.errand.entry?) =
      runners.filterMap (fun r => r.errand.entry?) := by
  induction runners generalizing j with
  | nil => rw [List.modify_nil]
  | cons r runners ih =>
    cases j with
    | zero => rw [List.modify_zero_cons, List.filterMap_cons, hf, List.filterMap_cons]
    | succ j => rw [List.modify_succ_cons, List.filterMap_cons, ih, List.filterMap_cons]

theorem runners_modify (hL : L.IsOrderly) {f : Runner → Runner}
    (hf : ∀ r, (f r).errand = r.errand) (j : JobId) :
    (L.runners.modify j f).filterMap (fun r => r.errand.entry?) = L.dispatched := by
  rw [filterMap_modify hf, hL.runners]

theorem named_modify (hL : L.IsOrderly) {i : JobId} {f : Runner → Runner}
    (hf : ∀ r, (f r).errand = r.errand) :
    ∀ j ∈ L.named, ∃ r, (L.runners.modify i f)[j]? = some r ∧ r.errand.isNamed := by
  intro j hj
  obtain ⟨r, hr, hnamed⟩ := hL.named j hj
  rw [List.getElem?_modify, hr]
  refine ⟨_, rfl, ?_⟩
  split
  · rw [hf, hnamed]
  · exact hnamed

/-- A job that is over is given up or not as before. -/
theorem abandoned_finished (hL : L.IsOrderly) (j : JobId) :
    ∀ r ∈ L.runners.modify j Runner.finished, r.isAbandoned → r.errand.isNamed := by
  intro r hr ha
  obtain ⟨i, hi⟩ := List.mem_iff_getElem?.1 hr
  obtain ⟨r', hr', rfl⟩ := exists_of_getElem?_modify hi
  revert ha
  split <;> exact hL.abandoned r' (List.mem_of_getElem? hr')

/-- What was there before the last item of a list stays before everything. -/
theorem mem_older {older newer all : List Happening} {h last : Happening} {P : List Happening → Prop}
    (heq : all ++ [last] = older ++ h :: newer)
    (hall : ∀ {newer}, all = older ++ h :: newer → P older) (hlast : h = last → P all) : P older := by
  rcases List.eq_nil_or_concat newer with rfl | ⟨newer, last', rfl⟩
  · obtain ⟨rfl, hh⟩ := List.append_inj' heq rfl
    exact hlast (List.cons.inj hh).1.symm
  · rw [List.concat_eq_append, ← List.cons_append, ← List.append_assoc] at heq
    exact hall (List.append_inj' heq rfl).1

theorem vacate (hL : L.IsOrderly) {j : JobId} {e : EntryId} {a : Bool} {q : QueueId}
    (hj : L.runners[j]? = some ⟨.operation e, false, a⟩) (hon : L.isOn q e) :
    (L.vacate j e q).IsOrderly := by
  obtain ⟨active, pending, hslot⟩ := hL.exists_slot hon
  obtain rfl := hL.active_of_live hj hon hslot
  have hslots {q' : QueueId} {active' : Option EntryId} {pending' : List EntryId}
      (h : (L.vacate j e q).slots[q']? = some (active', pending')) :
      (q = q' ∧ active' = none ∧ pending' = pending) ∨
        q ≠ q' ∧ L.slots[q']? = some (active', pending') := by
    rcases getElem?_modify_cases h with ⟨rfl, slot, hslot', heq⟩ | hother
    · obtain rfl := Option.some.inj (hslot'.symm.trans hslot)
      obtain ⟨rfl, rfl⟩ := Prod.mk.inj heq
      exact .inl ⟨rfl, rfl, rfl⟩
    · exact .inr hother
  exact {
    created := hL.created
    outcomes := hL.outcomes
    housed := fun q' hq' => by
      simpa only [Ledger.vacate, List.length_modify] using hL.housed q' hq'
    known := hL.known
    served := by
      intro q' active' pending' h
      change L.created.filter (L.isOn q') = (L.vacated ++ [e]).filter (L.isOn q') ++ _ ++ _
      rw [filter_isOn_concat hon]
      rcases hslots h with ⟨rfl, rfl, rfl⟩ | ⟨hqq, hslot'⟩
      · rw [hL.served hslot]
        simp
      · rw [hL.served hslot', if_neg hqq, List.append_nil]
    begun := by
      intro q' active' pending' h
      change L.dispatched.filter (L.isOn q') = (L.vacated ++ [e]).filter (L.isOn q') ++ _
      rw [filter_isOn_concat hon]
      rcases hslots h with ⟨rfl, rfl, -⟩ | ⟨hqq, hslot'⟩
      · rw [hL.begun hslot]
        simp
      · rw [hL.begun hslot', if_neg hqq, List.append_nil]
    gone := fun e' he' => by
      rcases List.mem_append.1 he' with he' | he'
      · exact hL.gone e' he'
      · rw [List.mem_singleton.1 he']
        exact (hL.active_spec hslot).2.1
    runners := hL.runners_modify (f := Runner.finished) (fun _ => rfl) j
    live := by
      intro i e' d a' h
      change d = true ↔ e' ∈ L.vacated ++ [e]
      rw [List.mem_append, List.mem_singleton]
      rcases getElem?_modify_cases h with ⟨rfl, r, hi, heq⟩ | ⟨hij, hi⟩
      · obtain rfl := Option.some.inj (hi.symm.trans hj)
        obtain ⟨he, rfl, -⟩ := Runner.mk.inj heq
        exact iff_of_true rfl (.inr (Errand.operation.inj he))
      · rw [hL.live hi]
        refine ⟨.inl, fun h => h.resolve_right fun he => hij ?_⟩
        exact hL.runner_unique hj hi rfl (congrArg some he)
    named := hL.named_modify (f := Runner.finished) fun _ => rfl
    abandoned := hL.abandoned_finished j
    resolvedOnce := hL.resolvedOnce
    resolvedGone := fun p hp => List.mem_append_left _ (hL.resolvedGone p hp)
    outcome := hL.outcome
    departed := by
      intro e' he'
      rcases List.mem_append.1 he' with he' | he'
      · exact List.mem_append_left _ (hL.departed e' he')
      · rw [List.mem_singleton.1 he']
        exact List.mem_append_right _ List.mem_cons_self
    leftFirst := fun heq => mem_older heq hL.leftFirst fun h => nomatch h }

theorem resolve (hL : L.IsOrderly) {e : EntryId} (o : Outcome) (hgone : e ∈ L.vacated)
    (hnew : ∀ p ∈ L.resolved, p.1 ≠ e) : (L.resolve e o).IsOrderly where
  created := hL.created
  outcomes := by rw [Ledger.resolve, List.length_modify, hL.outcomes]
  housed := hL.housed
  known := hL.known
  served := hL.served
  begun := hL.begun
  gone := hL.gone
  runners := hL.runners
  live := hL.live
  named := hL.named
  abandoned := hL.abandoned
  resolvedOnce := by
    simp only [Ledger.resolve, List.map_append, List.map_cons, List.map_nil]
    refine List.nodup_append.2 ⟨hL.resolvedOnce, List.pairwise_singleton _ e, ?_⟩
    intro e' he' e'' he'' heq
    obtain ⟨p, hp, rfl⟩ := List.mem_map.1 he'
    exact hnew p hp (heq.trans (List.mem_singleton.1 he''))
  resolvedGone p hp := by
    rcases List.mem_append.1 hp with hp | hp
    · exact hL.resolvedGone p hp
    · rw [List.mem_singleton.1 hp]
      exact hgone
  outcome := by
    intro e' o'
    change (L.outcomes.modify e fun _ => some o)[e']? = _ ↔ (e', o') ∈ L.resolved ++ [(e, o)]
    rw [List.getElem?_modify, List.mem_append, List.mem_singleton]
    by_cases hee : e = e'
    · subst hee
      have hlt : e < L.outcomes.length := hL.outcomes ▸ hL.known e (hL.gone e hgone)
      have hcell : (fun a => if e = e then some o else a) <$> L.outcomes[e]? = some (some o) := by
        simp [List.getElem?_eq_getElem hlt]
      rw [hcell, Option.some.injEq, Option.some.injEq, Prod.mk.injEq, eq_self, true_and]
      refine ⟨fun ho => .inr ho.symm, fun h => ?_⟩
      exact (h.resolve_left fun hmem => hnew _ hmem rfl).symm
    · have hother : (e', o') ≠ (e, o) := fun h => hee (Prod.mk.inj h).1.symm
      simp only [if_neg hee, id_map']
      rw [hL.outcome]
      exact ⟨.inl, fun h => h.resolve_right hother⟩
  departed e' he' := List.mem_append_left _ (hL.departed e' he')
  leftFirst {older newer e' o'} heq := by
    refine mem_older heq hL.leftFirst fun h => ?_
    obtain ⟨rfl, -⟩ := Happening.resolved.inj h
    exact hL.departed _ hgone

theorem spawn (hL : L.IsOrderly) {errand : Errand} (h : errand.entry? = none) :
    (L.spawn errand).IsOrderly := by
  refine hL.of_runners ?_ (hL.live_spawned fun e he => ?_) (hL.named_spawned errand)
    (hL.abandoned_spawned errand)
  · rw [List.filterMap_append, hL.runners]
    simp [h]
  · rw [he] at h
    exact absurd h (by simp [Errand.entry?])

theorem finish (hL : L.IsOrderly) {j : JobId} {r : Runner} (hj : L.runners[j]? = some r)
    (h : r.errand.entry? = none) : (L.finish j).IsOrderly := by
  refine hL.of_runners (hL.runners_modify (f := Runner.finished) (fun _ => rfl) j) ?_
    (hL.named_modify (f := Runner.finished) fun _ => rfl) (hL.abandoned_finished j)
  intro i e d a hi
  rcases getElem?_modify_cases hi with ⟨rfl, r', hr', heq⟩ | ⟨-, hi⟩
  · obtain rfl := Option.some.inj (hj.symm.trans hr')
    rw [← (Runner.mk.inj heq).1] at h
    exact absurd h (by simp [Errand.entry?])
  · exact hL.live hi

theorem abandon (hL : L.IsOrderly) {j : JobId} (hj : j ∈ L.named) : (L.abandon j).IsOrderly := by
  obtain ⟨r, hr, hnamed⟩ := hL.named j hj
  refine hL.of_runners (hL.runners_modify (f := Runner.givenUp) (fun _ => rfl) j) ?_
    (hL.named_modify (f := Runner.givenUp) fun _ => rfl) ?_
  · intro i e d a hi
    rcases getElem?_modify_cases hi with ⟨-, ⟨errand', d', a'⟩, hr', heq⟩ | ⟨-, hi⟩
    · obtain ⟨rfl, rfl, -⟩ := Runner.mk.inj heq
      exact hL.live hr'
    · exact hL.live hi
  · intro r' hr' ha
    obtain ⟨i, hi⟩ := List.mem_iff_getElem?.1 hr'
    rcases getElem?_modify_cases hi with ⟨rfl, r'', hr'', rfl⟩ | ⟨-, hi⟩
    · obtain rfl := Option.some.inj (hr.symm.trans hr'')
      exact hnamed
    · exact hL.abandoned r' (List.mem_of_getElem? hi) ha

theorem rename (hL : L.IsOrderly) {named : List JobId}
    (h : ∀ j ∈ named, j ∈ L.named ∨ ∃ r, L.runners[j]? = some r ∧ r.errand.isNamed) :
    (L.rename named).IsOrderly := by
  refine hL.of_runners hL.runners hL.live (fun j hj => ?_) hL.abandoned
  rcases h j hj with h | h
  · exact hL.named j h
  · exact h

theorem makeQueue (hL : L.IsOrderly) : L.makeQueue.IsOrderly := by
  -- No entry belongs to the new queue yet.
  have hnew (es : List EntryId) : es.filter (L.isOn L.slots.length) = [] := by
    refine List.filter_eq_nil_iff.2 fun e _ hon => ?_
    have howner := List.mem_of_getElem? (beq_iff_eq.1 hon)
    exact Nat.lt_irrefl _ (hL.housed _ howner)
  have hslots {q : QueueId} {active : Option EntryId} {pending : List EntryId}
      (h : L.makeQueue.slots[q]? = some (active, pending)) :
      L.slots[q]? = some (active, pending) ∨
        q = L.slots.length ∧ active = none ∧ pending = [] := by
    exact (getElem?_concat_cases h).imp_right (And.imp_right Prod.mk.inj)
  exact { hL with
    housed := fun q hq => by
      rw [Ledger.makeQueue, List.length_append]
      exact Nat.lt_add_right _ (hL.housed q hq)
    served := by
      intro q active pending h
      rcases hslots h with h | ⟨rfl, rfl, rfl⟩
      · exact hL.served h
      · change L.created.filter (L.isOn _) = L.vacated.filter (L.isOn _) ++ _ ++ _
        rw [hnew, hnew]
        rfl
    begun := by
      intro q active pending h
      rcases hslots h with h | ⟨rfl, rfl, rfl⟩
      · exact hL.begun h
      · change L.dispatched.filter (L.isOn _) = L.vacated.filter (L.isOn _) ++ _
        rw [hnew, hnew]
        rfl }

end IsOrderly

end Ledger

end FolderTasks.Dispatch
