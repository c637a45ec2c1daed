import FolderTasks.Proofs.Dispatch.QueueProgress
import FolderTasks.Proofs.Dispatch.FolderExclusion
import FolderTasks.Proofs.Dispatch.HandleNames
/-!
# Equivalent requests share an entry

A request is absorbed by the entry that waits with the same arguments.  There is at most one such
entry, and if there is none, the request becomes an entry of its own at the end of its queue.
Whatever comes of a request is fresh: nothing of the task that serves its entry has happened when
the request is made.

## Main definitions

* `World.argsOf?`: the arguments of an entry.
* `World.IsDistinct`: waiting entries of a queue differ in their arguments.
* `World.Deduplicates`: what becomes of a request at once.
* `World.IsServed`: what becomes of it later.
* `World.SharesResults`: both, and with whom a request shares.

## Main statements

* `World.Arises.isDistinct`: waiting entries differ in their arguments, whenever.
* `World.Arises.sharesResults`: requests share just when one is absorbed by the entry of the other.
-/

namespace FolderTasks.Dispatch.World

/-- The arguments of an entry. -/
def argsOf? (w : World) (e : EntryId) : Option (List String) :=
  (w.orders[e]?).map fun order => order.1.key

/-- **The waiting entries of a queue differ in their arguments.** -/
def IsDistinct (w : World) : Prop :=
  ∀ (q : QueueId) (active : Option EntryId) (pending : List EntryId),
    w.slots[q]? = some (active, pending) → (pending.map w.argsOf?).Nodup

/-- **A request becomes an entry of its own**, the last one of its queue. -/
structure Appends (w : World) (q : QueueId) (op : Operation) (token : Option String) : Prop where
  number : (w.request q op token).2 = w.entries.length
  entries : (w.request q op token).1.entries =
    w.entries ++ [{ queue := q, operation := op, token }]
  created : (w.request q op token).1.createdOn q = w.createdOn q ++ [w.entries.length]
  last : (w.request q op token).1.unfinishedOn q = w.unfinishedOn q ++ [w.entries.length]

/-- **A request is absorbed just by an entry that waits with its arguments.** -/
structure Deduplicates (w : World) (q : QueueId) (queue : Queue) (op : Operation)
    (token : Option String) : Prop where
  /-- What waits is neither active nor finished. -/
  waiting : ∀ e, e ∈ queue.pending ↔ w.belongs q e ∧ queue.active ≠ some e ∧ e ∉ w.finishedOn q
  distinct : (queue.pending.map w.argsOf?).Nodup
  /-- The answer is an entry that was there if and only if that waits with the same arguments. -/
  exact : ∀ e < w.entries.length,
    (w.request q op token).2 = e ↔ e ∈ queue.pending ∧ w.argsOf? e = some op.key
  absorbed : ∀ e ∈ queue.pending, w.argsOf? e = some op.key →
    w.request q op token = (w.note (.absorbed e queue.name op.key), e)
  appended : (∀ e ∈ queue.pending, w.argsOf? e ≠ some op.key) → w.Appends q op token

/-- The operation of an entry that is there, or else the one that is requested. -/
def creatorOf (w : World) (op : Operation) (e : EntryId) : Operation :=
  ((w.entryOf? e).map Entry.operation).getD op

/-- **What becomes of a request later.** -/
structure IsServed (w : World) (q : QueueId) (op : Operation) (token : Option String)
    (w' : World) : Prop where
  /-- Its entry has the operation of the request that made it, and the arguments of both. -/
  operation : ∃ entry, w'.entryOf? (w.request q op token).2 = some entry ∧
    entry.operation = w.creatorOf op (w.request q op token).2 ∧ entry.operation.key = op.key
  /-- Nothing of the task that serves it had happened when the request was made. -/
  fresh : ∀ {id : TaskId}, w'.Serves id (w.request q op token).2 →
    (w.request q op token).1.annals id = []
  asked : ∀ {id : TaskId} {c : Command}, w'.Serves id (w.request q op token).2 →
    .startAsked id c ∈ w'.annals id → c.args = op.key
  /-- The outcome is what the facts about that task come to, unless a callback panicked or the task
  manager turned the call down. -/
  produced : Reachable w' → ∀ {entry : Entry} {o : Outcome},
    w'.entryOf? (w.request q op token).2 = some entry → entry.outcome = some o →
    (w'.PanickedFor (w.request q op token).2 ∧ o = .terminated) ∨
      ((∀ id, ¬ w'.Serves id (w.request q op token).2) ∧
        o = .launchFailed Failure.disposed.message) ∨
      ∃ id ch result, w'.Serves id (w.request q op token).2 ∧
        w'.Tells id entry.operation.command ch ∧ ch.result? = some result ∧ o = .ofResult result
  /-- Whoever waits for the outcome afterwards gets the same. -/
  lasting : ∀ {w'' w₁ : World} {o : Outcome}, Changes w' w'' →
    w'.receive? (w.request q op token).2 = some (w₁, o) →
    ∃ w₂, w''.receive? (w.request q op token).2 = some (w₂, o)

/-- No handle was kept under a name after the first handles. -/
def IsUnused (w : World) (count : Nat) (name : String) : Prop :=
  ∀ p ∈ w.names.handles.drop count, p.1 ≠ name

/-- **A request shares its result just with the requests that its entry absorbs.** -/
structure SharesResults (w : World) (q : QueueId) (queue : Queue) (op : Operation)
    (token : Option String) (name : String) : Prop where
  deduplicates : w.Deduplicates q queue op token
  served : ∀ {w' : World}, Changes (w.request q op token).1 w' → w.IsServed q op token w'
  /-- The handle is described by the operation of the request that made its entry. -/
  described : ∀ {w' : World}, Events (w.requestNamed q op token name).1 w' →
    w'.IsUnused (w.names.handles.length + 1) name →
    (w'.perform (.describe name)).2 = .described (w.creatorOf op (w.request q op token).2)
      (w'.peek (w.request q op token).2)
  /-- It shares its result with the handle of a later request if and only if both have the same
  entry, that is, if its entry waits at that request, which has the same arguments. -/
  compared : ∀ {w₂ w₃ : World} {q' : QueueId} {queue' : Queue} {op' : Operation}
    {token' : Option String} {name' : String}, Events (w.requestNamed q op token name).1 w₂ →
    w₂.queues[q']? = some queue' → Events (w₂.requestNamed q' op' token' name').1 w₃ →
    w₃.IsUnused (w.names.handles.length + 1) name →
    w₃.IsUnused (w₂.names.handles.length + 1) name' →
    ∃ shared, (w₃.perform (.compare name name')).2 = .compared shared shared ∧
      (shared = true ↔ (w₂.request q' op' token').2 = (w.request q op token).2) ∧
      (shared = true ↔ (w.request q op token).2 ∈ queue'.pending ∧ op'.key = op.key)

/-! ## Waiting entries differ -/

section Distinct

variable {w w' w₁ : World} {q : QueueId} {op : Operation} {token : Option String}

theorem argsOf?_eq (w : World) (e : EntryId) :
    w.argsOf? e = (w.entryOf? e).map fun entry => entry.operation.key := by
  rw [argsOf?, orders, List.getElem?_map, Option.map_map, entryOf?]
  rfl

/-- What is known of an entry stays known. -/
theorem argsOf?_of_orders (h : w.orders <+: w'.orders) {e : EntryId} (hlt : e < w.entries.length) :
    w'.argsOf? e = w.argsOf? e := by
  obtain ⟨more, hmore⟩ := h
  rw [argsOf?, argsOf?, ← hmore, List.getElem?_append_left (by rwa [orders, List.length_map])]

/-- The entry that absorbs a request is the first one that waits with its arguments. -/
theorem absorber?_eq_find? (w : World) (queue : Queue) (op : Operation) :
    w.absorber? queue op = queue.pending.find? fun e => w.argsOf? e == some op.key := by
  rw [absorber?]
  congr 1
  funext e
  rw [argsOf?_eq]
  cases w.entryOf? e <;> rfl

/-- Fewer waiting entries differ as well. -/
theorem IsDistinct.thin (h : w.IsDistinct)
    (hargs : ∀ {q : QueueId} {active : Option EntryId} {pending : List EntryId},
      w.slots[q]? = some (active, pending) → ∀ e ∈ pending, w'.argsOf? e = w.argsOf? e)
    (hslots : ∀ {q : QueueId} {active : Option EntryId} {pending : List EntryId},
      w'.slots[q]? = some (active, pending) → pending = [] ∨ ∃ active' pending',
        w.slots[q]? = some (active', pending') ∧ pending.Sublist pending') : w'.IsDistinct := by
  intro q active pending hslot
  rcases hslots hslot with rfl | ⟨active', pending', hslot', hsub⟩
  · exact List.nodup_nil
  · have hmap : pending.map w'.argsOf? = pending.map w.argsOf? :=
      List.map_congr_left fun e he => hargs hslot' e (hsub.subset he)
    rw [hmap]
    exact (h q active' pending' hslot').sublist (hsub.map _)

/-- A dispatch takes from the waiting entries. -/
theorem exists_slot_of_dispatch {active : Option EntryId} {pending : List EntryId} {q' : QueueId}
    (h : (w.dispatch q).slots[q']? = some (active, pending)) : ∃ active' pending',
      w.slots[q']? = some (active', pending') ∧ pending.Sublist pending' := by
  rcases slots_dispatch w q with ⟨e, rest, hslot, heq⟩ | ⟨-, heq⟩
  · rw [heq] at h
    rcases getElem?_modify_cases h with ⟨rfl, -, -, hnew⟩ | ⟨-, hold⟩
    · obtain ⟨rfl, rfl⟩ := Prod.mk.inj hnew
      exact ⟨none, e :: pending, hslot, List.sublist_cons_self _ _⟩
    · exact ⟨active, pending, hold, List.Sublist.refl _⟩
  · exact ⟨active, pending, heq ▸ h, List.Sublist.refl _⟩

theorem dispatch_orders (w : World) (q : QueueId) : (w.dispatch q).orders = w.orders := by
  rw [orders, dispatch_entries, orders]

/-- A request that nothing absorbs differs from all that waits. -/
theorem IsDistinct.append (h : w.IsDistinct) {queue : Queue} (hq : w.queues[q]? = some queue)
    (hknown : ∀ {q : QueueId} {active : Option EntryId} {pending : List EntryId},
      w.slots[q]? = some (active, pending) → ∀ e ∈ pending, e < w.entries.length)
    (hnone : w.absorber? queue op = none)
    (hslots : w₁.slots = w.slots.modify q fun s => (s.1, s.2 ++ [w.entries.length]))
    (hentries : w₁.entries = w.entries ++ [{ queue := q, operation := op, token }]) :
    w₁.IsDistinct := by
  have horders : w.orders <+: w₁.orders := by
    rw [orders, orders, hentries, List.map_append]
    exact List.prefix_append _ _
  have hnew : w₁.argsOf? w.entries.length = some op.key := by
    rw [argsOf?_eq, entryOf?, hentries]
    simp
  intro q' active pending hslot
  rw [hslots] at hslot
  have hmap {q' : QueueId} {active : Option EntryId} {pending : List EntryId}
      (hold : w.slots[q']? = some (active, pending)) :
      pending.map w₁.argsOf? = pending.map w.argsOf? :=
    List.map_congr_left fun e he => argsOf?_of_orders horders (hknown hold e he)
  rcases getElem?_modify_cases hslot with ⟨rfl, ⟨active', pending'⟩, hold, heq⟩ | ⟨-, hold⟩
  · obtain ⟨rfl, rfl⟩ := Prod.mk.inj heq
    have hpending : pending' = queue.pending := by
      rw [slots, List.getElem?_map, hq] at hold
      exact (Prod.mk.inj (Option.some.inj hold)).2.symm
    rw [List.map_append, hmap hold, List.map_singleton, hnew]
    refine List.nodup_append.2 ⟨h q active pending' hold, List.nodup_singleton _, ?_⟩
    rintro args hargs _ hself rfl
    obtain ⟨e, he, rfl⟩ := List.mem_map.1 hargs
    rw [absorber?_eq_find?, List.find?_eq_none] at hnone
    refine hnone e (hpending ▸ he) ?_
    rw [List.mem_singleton.1 hself, beq_self_eq_true]
  · rw [hmap hold]
    exact h q' active pending hold

/-- **An elementary change keeps waiting entries different.** -/
theorem Shift.isDistinct (hs : Shift w w') (h : w.IsDistinct) (ho : w.ledger.IsOrderly)
    (horders : w.orders <+: w'.orders) : w'.IsDistinct := by
  have hknown {q : QueueId} {active : Option EntryId} {pending : List EntryId}
      (hslot : w.slots[q]? = some (active, pending)) : ∀ e ∈ pending, e < w.entries.length := by
    intro e he
    have hlt := Ledger.IsOrderly.isOn_lt (ho.pending_spec hslot he).1
    rwa [ledger, List.length_map] at hlt
  have hargs {q : QueueId} {active : Option EntryId} {pending : List EntryId}
      (hslot : w.slots[q]? = some (active, pending)) :
      ∀ e ∈ pending, w'.argsOf? e = w.argsOf? e :=
    fun e he => argsOf?_of_orders horders (hknown hslot e he)
  cases hs with
  | kept heq => exact h.thin hargs fun hslot => .inr ⟨_, _, heq ▸ hslot, List.Sublist.refl _⟩
  | made heq =>
    refine h.thin hargs fun {q active pending} hslot => ?_
    rw [heq] at hslot
    rcases getElem?_concat_cases hslot with hslot | ⟨-, hnew⟩
    · exact .inr ⟨active, pending, hslot, List.Sublist.refl _⟩
    · exact .inl (Prod.mk.inj hnew).2
  | @requested w₀ q op token h₀ hentries heq horders' =>
    have hdistinct : w₀.IsDistinct := by
      refine h.thin (fun _ e _ => ?_) fun hslot => .inr ⟨_, _, h₀ ▸ hslot, List.Sublist.refl _⟩
      rw [argsOf?, argsOf?, orders, orders, hentries]
    rcases slots_request w₀ q op token with
      hkept | ⟨queue, w₁, hq, hnone, hslots, happended, hrequest⟩
    · exact h.thin hargs fun hslot =>
        .inr ⟨_, _, h₀ ▸ hkept ▸ heq ▸ hslot, List.Sublist.refl _⟩
    · have hdistinct₁ := hdistinct.append hq (fun hslot => hentries ▸ hknown (h₀ ▸ hslot)) hnone
        hslots happended
      rw [hrequest] at heq horders'
      refine hdistinct₁.thin (fun _ e _ => ?_) fun hslot =>
        .inr (exists_slot_of_dispatch (heq ▸ hslot))
      rw [argsOf?, argsOf?, horders', dispatch_orders]
  | resolved e o heq =>
    refine h.thin hargs fun {q' active pending} hslot => .inr ?_
    rcases slots_resolve w e o with hkept | ⟨w₁, q, hslots, hresolve⟩
    · exact ⟨active, pending, hkept ▸ heq ▸ hslot, List.Sublist.refl _⟩
    · rw [heq, hresolve] at hslot
      obtain ⟨active₁, pending₁, hslot₁, hsub⟩ := exists_slot_of_dispatch hslot
      rw [hslots] at hslot₁
      obtain ⟨⟨active', pending'⟩, hold, hnew⟩ := exists_of_getElem?_modify hslot₁
      have hpending : pending₁ = pending' := by
        split at hnew <;> exact (Prod.mk.inj hnew).2
      exact ⟨active', pending', hold, hpending ▸ hsub⟩

/-- **Waiting entries differ in their arguments, whenever.** -/
theorem Arises.isDistinct (hw : Arises w) : w.IsDistinct := by
  refine hw.induction (fun s q active pending hslot => ?_) fun hw h hc =>
    hc.shift.isDistinct h hw.isOrderly (hw.lasts hc).orders
  simp [slots, Setting.world] at hslot

end Distinct

/-! ## What becomes of a request at once -/

section Requesting

variable {w w' : World} {q : QueueId} {queue : Queue} {op : Operation} {token : Option String}
  {e : EntryId}

theorem absorber?_eq_some (h : w.IsDistinct) (hq : w.queues[q]? = some queue) :
    w.absorber? queue op = some e ↔ e ∈ queue.pending ∧ w.argsOf? e = some op.key := by
  rw [absorber?_eq_find?]
  constructor
  · intro hfind
    have hargs := List.find?_some hfind
    exact ⟨List.mem_of_find?_eq_some hfind, beq_iff_eq.1 hargs⟩
  · rintro ⟨he, hargs⟩
    cases hfind : queue.pending.find? fun e => w.argsOf? e == some op.key with
    | none => exact absurd (beq_iff_eq.2 hargs) (List.find?_eq_none.1 hfind e he)
    | some e' =>
      -- Whichever entry is found has the same arguments, and there is only one.
      have hfound := List.find?_some hfind
      have hargs' := beq_iff_eq.1 hfound
      have hnodup := h q queue.active queue.pending (slot_eq hq)
      rw [List.inj_on_of_nodup_map hnodup (List.mem_of_find?_eq_some hfind) he
        (hargs'.trans hargs.symm)]

theorem request_of_absorber? (hq : w.queues[q]? = some queue)
    (h : w.absorber? queue op = some e) :
    w.request q op token = (w.note (.absorbed e queue.name op.key), e) := by
  rw [request, hq]
  dsimp only
  rw [h]

theorem request_of_absorber?_eq_none (hq : w.queues[q]? = some queue)
    (h : w.absorber? queue op = none) :
    w.request q op token = ((w.append q queue op token).1.dispatch q, w.entries.length) := by
  rw [request, hq]
  dsimp only
  rw [h]
  rfl

theorem appends_of_absorber? (ho : w.ledger.IsOrderly) (hq : w.queues[q]? = some queue)
    (h : w.absorber? queue op = none) : w.Appends q op token := by
  have hrequest : w.request q op token = ((w.append q queue op token).1.dispatch q,
      w.entries.length) := request_of_absorber?_eq_none hq h
  generalize hw₁ : (w.append q queue op token).1 = w₁ at hrequest
  have hledger : w₁.ledger = w.ledger.append q := hw₁ ▸ ledger_append w q queue op token
  -- Whether or not the entry is dispatched at once, these columns stay as they are.
  have hkept : (w₁.dispatch q).ledger.owners = w₁.ledger.owners ∧
      (w₁.dispatch q).ledger.created = w₁.ledger.created ∧
      (w₁.dispatch q).ledger.vacated = w₁.ledger.vacated := by
    rcases ledger_dispatch w₁ q with heq | ⟨e', rest, -, heq⟩ <;> rw [heq] <;> exact ⟨rfl, rfl, rfl⟩
  have hlength : w.ledger.owners.length = w.entries.length := List.length_map _
  have howners : (w₁.dispatch q).ledger.owners = w.ledger.owners ++ [q] := by
    rw [hkept.1, hledger]
    rfl
  have hself : (w₁.dispatch q).belongs q w.entries.length := by
    rw [← isOn_eq_belongs, Ledger.isOn, howners, ← hlength, List.getElem?_concat_length,
      beq_self_eq_true]
  have hcreated : (w₁.dispatch q).createdOn q = w.createdOn q ++ [w.entries.length] := by
    change (w₁.dispatch q).ledger.created.filter _ = w.ledger.created.filter _ ++ _
    rw [hkept.2.1, hledger]
    change (w.ledger.created ++ [w.ledger.owners.length]).filter _ = _
    rw [List.filter_append, hlength, List.filter_cons_of_pos hself, List.filter_nil]
    congr 1
    refine List.filter_congr fun e he => belongs_of_owners (howners ▸ List.prefix_append _ _) ?_ q
    rwa [ho.created, List.mem_range] at he
  refine ⟨by rw [hrequest], ?_, by rw [hrequest]; exact hcreated, ?_⟩
  · rw [hrequest, dispatch_entries, ← hw₁]
    rfl
  · have hvacated : (w₁.dispatch q).seen Happening.vacated? = w.seen Happening.vacated? := by
      change (w₁.dispatch q).ledger.vacated = w.ledger.vacated
      rw [hkept.2.2, hledger]
      rfl
    have hnew : w.entries.length ∉ w.seen Happening.vacated? := fun hgone =>
      Nat.lt_irrefl _ (hlength ▸ ho.known _ (ho.gone _ hgone))
    rw [hrequest, unfinishedOn, hcreated, hvacated, List.filter_append, unfinishedOn]
    simp [hnew]

/-- What waits is what is neither active nor finished. -/
theorem mem_pending_iff (ho : w.ledger.IsOrderly) (hq : w.queues[q]? = some queue) :
    e ∈ queue.pending ↔ w.belongs q e ∧ queue.active ≠ some e ∧ e ∉ w.finishedOn q := by
  have hslot := slot_eq hq
  constructor
  · intro he
    obtain ⟨hon, hnew⟩ := ho.pending_spec hslot he
    rw [isOn_eq_belongs] at hon
    refine ⟨hon, fun hactive => hnew (ho.active_spec (hactive ▸ hslot)).2.1, fun hgone => hnew ?_⟩
    exact (List.mem_filter.1 (List.mem_filter.1 hgone).1).1
  · rintro ⟨hon, hactive, hgone⟩
    have hon' : w.ledger.isOn q e := by rwa [isOn_eq_belongs]
    have hcreated : e ∈ w.ledger.created.filter (w.ledger.isOn q) := by
      rw [ho.created]
      exact List.mem_filter.2 ⟨List.mem_range.2 (Ledger.IsOrderly.isOn_lt hon'), hon'⟩
    rw [ho.served hslot, isOn_eq_belongs, List.append_assoc, List.mem_append, List.mem_append]
      at hcreated
    rcases hcreated with hmem | hmem | hmem
    · exact absurd (finishedOn_eq ho hq ▸ hmem) hgone
    · exact absurd (Option.mem_toList.1 hmem) hactive
    · exact hmem

theorem Arises.deduplicates (hw : Arises w) (hq : w.queues[q]? = some queue) (op : Operation)
    (token : Option String) : w.Deduplicates q queue op token := by
  have ho := hw.isOrderly
  have hd := hw.isDistinct
  exact {
    waiting := fun e => mem_pending_iff ho hq
    distinct := hd q queue.active queue.pending (slot_eq hq)
    exact := fun e hlt => by
      rw [← absorber?_eq_some hd hq]
      cases h : w.absorber? queue op with
      | some e' =>
        rw [request_of_absorber? hq h, Option.some.injEq]
      | none =>
        rw [(appends_of_absorber? ho hq h).number]
        exact iff_of_false (Nat.ne_of_gt hlt) (by simp)
    absorbed := fun e he hargs => request_of_absorber? hq ((absorber?_eq_some hd hq).2 ⟨he, hargs⟩)
    appended := fun hnone => by
      refine appends_of_absorber? ho hq (Option.eq_none_iff_forall_ne_some.2 fun e he => ?_)
      obtain ⟨hmem, hargs⟩ := (absorber?_eq_some hd hq).1 he
      exact hnone e hmem hargs }

end Requesting

/-! ## What becomes of a request later -/

section Serving

variable {w w' : World} {q : QueueId} {queue : Queue} {op : Operation} {token : Option String}
  {e : EntryId} {id : TaskId}

/-- The entry of a request is there, with the operation of the request that made it. -/
theorem Deduplicates.exists_entry (h : w.Deduplicates q queue op token) : ∃ entry,
      (w.request q op token).1.entryOf? (w.request q op token).2 = some entry ∧
      entry.operation = w.creatorOf op (w.request q op token).2 ∧ entry.operation.key = op.key := by
  by_cases hmem : ∃ e ∈ queue.pending, w.argsOf? e = some op.key
  · obtain ⟨e, he, hargs⟩ := hmem
    have hentry := argsOf?_eq w e ▸ hargs
    obtain ⟨entry, hentry, hkey⟩ := Option.map_eq_some_iff.1 hentry
    rw [h.absorbed e he hargs]
    refine ⟨entry, hentry, ?_, hkey⟩
    rw [creatorOf, hentry]
    rfl
  · have happends := h.appended fun e he hargs => hmem ⟨e, he, hargs⟩
    refine ⟨{ queue := q, operation := op, token }, ?_, ?_, rfl⟩
    · rw [happends.number, entryOf?, happends.entries]
      simp
    · rw [happends.number, creatorOf, entryOf?, List.getElem?_eq_none (Nat.le_refl _)]
      rfl

/-- No task serves the entry of a request yet. -/
theorem Arises.not_serves_request (hw : Arises w) (hq : w.queues[q]? = some queue) :
    ¬ (w.request q op token).1.Serves id (w.request q op token).2 := by
  rintro ⟨j, p, hid, hat⟩
  have hc : Change w (w.request q op token).1 := .deed (.requested q op token)
  have hp : p ≠ .fresh := by
    rintro rfl
    exact (hw.change hc).isNumbered.fresh_unnumbered hat id hid
  -- The job had been there before, so that the entry was dispatched.
  obtain ⟨p', hat'⟩ := hw.at_back hc hat hp
  have ho := hw.isOrderly
  have hd := hw.deduplicates hq op token
  have hlt : (w.request q op token).2 < w.entries.length := by
    obtain ⟨entry, he⟩ := hat'.exists_entry ho
    exact entryOf?_lt he
  have hmem := ((hd.exact _ hlt).1 rfl).1
  exact (ho.pending_spec (slot_eq hq) hmem).2 (hat'.mem_dispatched ho)

/-- A task that the backend is asked to start is to run the command of its story. -/
theorem eq_command_of_startAsked {c c' : Command} {ch : Chapter}
    (h : .startAsked id c' ∈ ch.facts id c) : c' = c := by
  cases ch <;> simp [Chapter.facts] at h <;> exact h

/-- What is told of a task that serves an entry is about the command of its operation. -/
theorem Serves.tells (hw : Arises w) {entry : Entry} (h : w.Serves id e)
    (he : w.entryOf? e = some entry) : ∃ ch, w.Tells id entry.operation.command ch := by
  obtain ⟨j, p, hid, hat⟩ := h
  obtain ⟨ch, htells, -⟩ := hw.isChronicled.told hid (hat.servesAt he)
  exact ⟨ch, htells⟩

/-- What is received is the outcome. -/
theorem receive?_of_outcome {entry : Entry} {o : Outcome} (he : w.entryOf? e = some entry)
    (ho : entry.outcome = some o) : ∃ w₁, w.receive? e = some (w₁, o) := by
  obtain ⟨_, _, _, outcome, _, _⟩ := entry
  obtain rfl : outcome = some o := ho
  unfold receive?
  rw [he]
  exact ⟨_, rfl⟩

/-- An outcome that can be received can be received ever after. -/
theorem Arises.receive?_forth (hw : Arises w) (hc : Changes w w') {w₁ : World} {o : Outcome}
    (h : w.receive? e = some (w₁, o)) : ∃ w₂, w'.receive? e = some (w₂, o) := by
  unfold receive? at h
  split at h
  · next he =>
    obtain ⟨-, rfl⟩ := Prod.mk.inj (Option.some.inj h)
    obtain ⟨entry', he', -⟩ := (hw.lasts_changes hc).entryOf? he
    exact receive?_of_outcome he' (hw.outcome_forth hc he rfl he')
  · exact absurd h (by simp)

/-- **What becomes of a request later**, however much happens. -/
theorem Arises.isServed (hw : Arises w) (hq : w.queues[q]? = some queue)
    (hc : Changes (w.request q op token).1 w') : w.IsServed q op token w' := by
  have hchange : Change w (w.request q op token).1 := .deed (.requested q op token)
  have hw₁ := hw.change hchange
  have hw' := hw₁.changes hc
  obtain ⟨entry, hentry, hcreator, hkey⟩ := (hw.deduplicates hq op token).exists_entry
  obtain ⟨entry', hentry', horder⟩ := (hw₁.lasts_changes hc).entryOf? hentry
  have hoperation : entry'.operation = entry.operation := (Prod.mk.inj horder).1
  rw [← hoperation] at hcreator hkey
  exact {
    operation := ⟨entry', hentry', hcreator, hkey⟩
    fresh := fun {id} hserves => by
      -- A task that had its number would have served the entry already.
      refine (hw₁.isChronicled.blank fun j hid => ?_).1
      exact hw.not_serves_request hq (hw₁.serves_back hc hid hserves)
    asked := fun {id c} hserves hasked => by
      obtain ⟨ch, htells⟩ := hserves.tells hw' hentry'
      rw [htells.annals] at hasked
      rw [eq_command_of_startAsked hasked]
      exact hkey
    produced := fun hreachable entry₁ o he ho => by
      obtain rfl := Option.some.inj (hentry'.symm.trans he)
      obtain ⟨w₁, hreceive⟩ := receive?_of_outcome he ho
      have hresolved := hw'.resolved_of_receive? hreceive
      by_cases hpanic : w'.PanickedFor (w.request q op token).2
      · exact .inl ⟨hpanic,
          hw'.outcome_unique hresolved (hreachable.isJudged.terminated hpanic)⟩
      · obtain ⟨call, p, result, hserves, -, htold, rfl⟩ :=
          hreachable.isJudged.judged hresolved hpanic
        refine .inr ?_
        cases htold with
        | rejected hd hn =>
          refine .inl ⟨fun id ⟨j, p', hid, hat⟩ => ?_, rfl⟩
          obtain rfl := hat.operation_unique hw'.isOrderly hserves.1
          exact hn id hid
        | @told id ch result hstands hresult =>
          have hcall := hserves.2
          rw [callOf?, he] at hcall
          have hcommand : entry'.operation.command = call.command :=
            congrArg Call.command (Option.some.inj hcall)
          exact .inr ⟨id, ch, result, ⟨_, p, hstands.numbered, hserves.1⟩,
            hcommand ▸ hstands.tells, hresult, rfl⟩
    lasting := fun hchanges h => hw'.receive?_forth hchanges h }

end Serving

/-! ## With whom a request shares -/

section Sharing

variable {w w' w'' : World} {q : QueueId} {queue : Queue} {op : Operation} {token : Option String}
  {name : String} {e : EntryId}

/-- A handle is found under its name as long as no other is kept under it. -/
theorem handleNamed?_of_prefix (h : w.names.handles ++ [(name, e)] <+: w'.names.handles)
    (hunused : w'.IsUnused (w.names.handles.length + 1) name) : w'.handleNamed? name = some e := by
  obtain ⟨newer, hnewer⟩ := h
  rw [List.append_assoc, List.singleton_append] at hnewer
  refine handleNamed?_of_split hnewer.symm fun p hp => hunused p ?_
  rw [← hnewer, List.drop_length_add_append]
  exact hp

/-- That a request gets a name changes nothing else. -/
theorem changes_of_requestNamed (h : Events (w.requestNamed q op token name).1 w') :
    Changes (w.request q op token).1 w' := by
  have hnamed : Deed (w.request q op token).1 (w.requestNamed q op token name).1 :=
    .named _ fun _ hp => hp
  exact .head (.deed hnamed) h.changes

theorem handles_of_requestNamed (h : Events (w.requestNamed q op token name).1 w') :
    w.names.handles ++ [(name, (w.request q op token).2)] <+: w'.names.handles :=
  handles_requestNamed w q op token name ▸ h.handles

/-- **Requests share a result just when one is absorbed by the entry of the other**, the request
that comes first is described by the one that made its entry, and nothing of what the entry comes to
is older than the request. -/
theorem Arises.sharesResults (hw : Arises w) (hq : w.queues[q]? = some queue) (op : Operation)
    (token : Option String) (name : String) : w.SharesResults q queue op token name where
  deduplicates := hw.deduplicates hq op token
  served hc := hw.isServed hq hc
  described {w'} h hunused := by
    obtain ⟨entry, he, hcreator, -⟩ := (hw.isServed hq (changes_of_requestNamed h)).operation
    rw [perform, withHandle, handleNamed?_of_prefix (handles_of_requestNamed h) hunused]
    dsimp only
    rw [he, ← hcreator]
  compared {w₂ w₃ q' queue' op' token' name'} h hq' h' hunused hunused' := by
    have hchanges := changes_of_requestNamed h
    have hw₂ := (hw.change (.deed (.requested q op token))).changes hchanges
    obtain ⟨entry, he, -, hkey⟩ := (hw.isServed hq hchanges).operation
    have hhandles' := handles_of_requestNamed h'
    have hname := handleNamed?_of_prefix
      (((handles_of_requestNamed h).trans (List.prefix_append _ _)).trans hhandles') hunused
    refine ⟨(w.request q op token).2 == (w₂.request q' op' token').2, ?_,
      beq_iff_eq.trans eq_comm, ?_⟩
    · rw [perform, withHandle, hname]
      dsimp only
      rw [withHandle, handleNamed?_of_prefix hhandles' hunused']
      dsimp only
      rw [BEq.comm (a := (w₂.request q' op' token').2)]
    · -- The later request is given the entry of the earlier one just if that absorbs it.
      have hargs : w₂.argsOf? (w.request q op token).2 = some op.key := by
        rw [argsOf?_eq, he, Option.map_some, hkey]
      have hexact := (hw₂.deduplicates hq' op' token').exact _ (entryOf?_lt he)
      rw [beq_iff_eq, eq_comm, hexact, hargs, Option.some.injEq, eq_comm (a := op.key)]

/-- A request is not absorbed by the entry that is active with its arguments, and once more it is
absorbed by the entry that waits with them. -/
theorem sharesResults_requesting : ∃ (w : World) (queue : Queue) (op : Operation),
    Arises w ∧ w.queues[0]? = some queue ∧ queue.active = some 0 ∧ w.argsOf? 0 = some op.key ∧
      (w.request 0 op none).2 = 1 ∧ ((w.request 0 op none).1.request 0 op none).2 = 1 ∧
      w.SharesResults 0 queue op none "h" := by
  have hw := (reachable_requesting {} ["b"]).arises
  exact ⟨_, _, { command := ⟨"x", ["b"], none, .empty, none⟩ }, hw, rfl, rfl, rfl, rfl, rfl,
    hw.sharesResults rfl _ _ _⟩

end Sharing

end FolderTasks.Dispatch.World
