import FolderTasks.Proofs.Dispatch.Requesters
import FolderTasks.Proofs.Dispatch.EntryObservation
/-!
# Queues keep to a plan

The requests that a run makes on a queue are served by a plan, which knows nothing of other queues.
The run keeps to it: requests are absorbed as in the plan, the entries become active at the moments
at which their services begin, and what is seen of an entry is what is to be seen of its service.

## Main definitions

* `World.Shows`: a service is what becomes of an entry.
* `World.KeepsTo`: the services of a plan are what becomes of the first entries of a queue.
* `World.askedOn`: the requests that a run makes on a queue.

## Main statements

* `World.KeepsTo.exists_service`: the next entry of a queue has a service, which begins when it is
  requested or when the service before it ends.
* `World.Halts.exists_plan`: a run keeps to a plan of its requests.

## Design notes

The services are those of the whole run, known from its end, whatever ties were decided on the way.
An entry that is not over gets the service that it would have if no token were cancelled any more.
So the run is followed request by request, and only the absorption of each has to be looked into.
-/

namespace FolderTasks.Dispatch

/-- The request that somebody makes whose token is cancelled as a calendar says. -/
def Ask.request (σ : Calendar) (a : Ask) : Request where
  instant := a.instant
  operation := a.operation
  token := a.token.map fun x => (x, σ x)

namespace Ask

variable (σ : Calendar) (a : Ask)

theorem tokenName_request : (a.request σ).tokenName = a.token := by
  cases h : a.token <;> simp [Request.tokenName, request, h]

theorem cancelAt_request : (a.request σ).cancelAt = a.token.bind σ := by
  cases h : a.token <;> simp [Request.cancelAt, request, h]

end Ask

namespace World

/-- The requests that a run makes on a queue, if tokens are cancelled as a calendar says. -/
def askedOn (σ : Calendar) (q : QueueId) (log : List (World × Choice)) : List Request :=
  (asksOn q log).map (Ask.request σ)

/-- **An entry meets a request**: it was made for it, and its token is cancelled when the request
says. -/
structure Meets (σ : Calendar) (w : World) (r : Request) (e : EntryId) : Prop where
  order : w.orders[e]? = some (r.operation, r.tokenName)
  queued : (r.instant, e) ∈ w.timed Happening.queued?
  cancelAt : r.cancelAt = r.tokenName.bind σ

/-- **A service is what becomes of an entry** of a queue, as far as it has come. -/
structure Shows (σ : Calendar) (w : World) (q : QueueId) (S : Service) (e : EntryId) : Prop where
  meets : w.Meets σ S.request e
  dispatched : ∀ t, (t, e) ∈ w.timed Happening.dispatched? ↔ t = S.beginsAt ∧ S.beginsAt ≤ w.clock
  vacated : ∀ t, (t, e) ∈ w.timed Happening.vacated? ↔ t = S.endsAt ∧ S.endsAt ≤ w.clock
  fate : w.fateOf e = S.fateAt (S.request.operation.startCalls (w.queueName q)) w.clock

/-- **The services of a plan are what becomes of the first entries of a queue.** -/
structure KeepsTo (σ : Calendar) (w : World) (q : QueueId) (P : Plan) (es : List EntryId) : Prop where
  isPrefix : es <+: w.createdOn q
  length : P.services.length = es.length
  shows : ∀ {k : Nat} {S : Service} {e : EntryId}, P.services[k]? = some S → es[k]? = some e →
    w.Shows σ q S e

section Planning

variable {s : Setting} {σ : Calendar} {log : List (World × Choice)} {w : World} {q : QueueId}
variable {P : Plan} {es : List EntryId} {k : Nat} {S : Service} {r : Request} {e : EntryId}

/-! ## The entries of a queue -/

theorem pairwise_createdOn (ho : w.ledger.IsOrderly) (q : QueueId) :
    (w.createdOn q).Pairwise (· < ·) := by
  have hcreated : w.seen Happening.queued? = _ := ho.created
  rw [createdOn, hcreated]
  exact List.pairwise_lt_range.filter _

theorem mem_createdOn (ho : w.ledger.IsOrderly) : e ∈ w.createdOn q ↔ w.belongs q e := by
  refine ⟨fun h => (List.mem_filter.1 h).2, fun h => List.mem_filter.2 ⟨?_, h⟩⟩
  have hcreated : w.seen Happening.queued? = _ := ho.created
  rw [hcreated, List.mem_range]
  rw [← isOn_eq_belongs] at h
  exact Ledger.IsOrderly.isOn_lt h

/-- No entry of a queue is forgotten. -/
theorem Arises.createdOn_isPrefix (hw : Arises w) {w' : World} (hc : Changes w w') (q : QueueId) :
    w.createdOn q <+: w'.createdOn q := by
  obtain ⟨facts, hfacts⟩ := (hw.lasts_changes hc).history
  have hsame : (w.seen Happening.queued?).filter (w'.belongs q) = w.createdOn q := by
    refine List.filter_congr fun e he => belongs_of_owners (hw.owners_isPrefix hc) ?_ q
    have hmem : e ∈ w.ledger.created := he
    rwa [hw.isOrderly.created, List.mem_range] at hmem
  have hseen : w.seen Happening.queued? <+: w'.seen Happening.queued? := by
    rw [seen, seen, ← hfacts, List.filterMap_append, List.reverse_append]
    exact List.prefix_append _ _
  rw [← hsame]
  exact hseen.filter _

theorem Meets.orders (h : w.Meets σ r e) (hon : w.belongs q e) :
    w.Orders e r (r.operation.startCalls (w.queueName q)) := by
  have horder := h.order
  rw [World.orders, List.getElem?_map] at horder
  obtain ⟨entry, hentry, horder⟩ := Option.map_eq_some_iff.1 horder
  have hentry' : w.entryOf? e = some entry := hentry
  rw [World.belongs, hentry', Option.any_some, beq_iff_eq] at hon
  refine ⟨entry, hentry', horder, ?_⟩
  rw [startOf, hon, show entry.operation = r.operation from (Prod.mk.inj horder).1]

/-! ## What a plan tells of its entries -/

namespace KeepsTo

variable (hP : w.KeepsTo σ q P es)

include hP

theorem getElem?_createdOn (he : es[k]? = some e) : (w.createdOn q)[k]? = some e :=
  getElem?_of_isPrefix hP.isPrefix he

/-- The entries of a plan are entries of the queue. -/
theorem belongs (he : es[k]? = some e) : w.belongs q e :=
  (List.mem_filter.1 (hP.isPrefix.subset (List.mem_of_getElem? he))).2

theorem exists_entry (hS : P.services[k]? = some S) : ∃ e, es[k]? = some e := by
  have hlt := (List.getElem?_eq_some_iff.1 hS).1
  rw [hP.length] at hlt
  exact ⟨_, List.getElem?_eq_getElem hlt⟩

theorem exists_service_of_entry (he : es[k]? = some e) : ∃ S, P.services[k]? = some S := by
  have hlt := (List.getElem?_eq_some_iff.1 he).1
  rw [← hP.length] at hlt
  exact ⟨_, List.getElem?_eq_getElem hlt⟩

/-- Entries that come before one another have their services in the same order. -/
theorem lt_iff (ho : w.ledger.IsOrderly) {i : Nat} {p : EntryId} (hp : es[i]? = some p)
    (he : (w.createdOn q)[k]? = some e) : p < e ↔ i < k := by
  have hsorted := List.pairwise_iff_getElem.1 (pairwise_createdOn ho q)
  obtain ⟨hi, rfl⟩ := List.getElem?_eq_some_iff.1 (hP.getElem?_createdOn hp)
  obtain ⟨hk, rfl⟩ := List.getElem?_eq_some_iff.1 he
  constructor
  · refine fun hlt => Nat.lt_of_not_le fun hle => ?_
    rcases Nat.eq_or_lt_of_le hle with rfl | hki
    · exact Nat.lt_irrefl _ hlt
    · exact Nat.lt_asymm hlt (hsorted k i hk hi hki)
  · exact fun hik => hsorted i k hi hk hik

/-- What comes before an entry of the queue, at most the next one, has an earlier service. -/
theorem exists_earlier (ho : w.ledger.IsOrderly) (he : (w.createdOn q)[k]? = some e)
    (hk : k ≤ es.length) {p : EntryId} (hon : w.belongs q p) (hlt : p < e) :
    ∃ i S', i < k ∧ P.services[i]? = some S' ∧ es[i]? = some p ∧ w.Shows σ q S' p := by
  obtain ⟨i, hi⟩ := List.mem_iff_getElem?.1 ((mem_createdOn ho).2 hon)
  have hsorted := List.pairwise_iff_getElem.1 (pairwise_createdOn ho q)
  have hik : i < k := by
    obtain ⟨hi', rfl⟩ := List.getElem?_eq_some_iff.1 hi
    obtain ⟨hk', rfl⟩ := List.getElem?_eq_some_iff.1 he
    refine Nat.lt_of_not_le fun hle => ?_
    rcases Nat.eq_or_lt_of_le hle with rfl | hki
    · exact Nat.lt_irrefl _ hlt
    · exact Nat.lt_asymm hlt (hsorted k i hk' hi' hki)
  have hp : es[i]? = some p := by
    obtain ⟨more, hmore⟩ := hP.isPrefix
    rwa [← hmore, List.getElem?_append_left (Nat.lt_of_lt_of_le hik hk)] at hi
  obtain ⟨S', hS'⟩ := hP.exists_service_of_entry hp
  exact ⟨i, S', hik, hS', hp, hP.shows hS' hp⟩

/-- A plan tells of one more entry. -/
theorem append (hfirst : es ++ [e] <+: w.createdOn q) (h : w.Shows σ q S e) :
    w.KeepsTo σ q (P.append S) (es ++ [e]) := by
  refine ⟨hfirst, by simp [Plan.append, hP.length], fun {k S' e'} hS he => ?_⟩
  rcases getElem?_concat_cases hS with hS | ⟨rfl, rfl⟩
  · have hlt := hP.length ▸ (List.getElem?_eq_some_iff.1 hS).1
    exact hP.shows hS (List.getElem?_append_left hlt ▸ he)
  · rw [hP.length, List.getElem?_concat_length] at he
    exact Option.some.inj he ▸ h

/-! ## The next entry -/

/-- **When the next entry becomes active**: when it is requested, or when the last one before it
leaves its slot. -/
theorem beginsAt_eq (hw : Reachable w) (hordered : P.IsOrdered s.server)
    (he : (w.createdOn q)[es.length]? = some e) (hmeets : w.Meets σ r e) {b : Nat}
    (hd : (b, e) ∈ w.timed Happening.dispatched?) : b = max r.instant P.lastEnd := by
  have ho := hw.arises.isOrderly
  have hon : w.belongs q e := (mem_createdOn ho).1 (List.mem_of_getElem? he)
  have hsucceeds := hw.arises.succeeds hd
  refine Nat.le_antisymm ?_ (Nat.max_le.2 ⟨?_, ?_⟩)
  · rcases hsucceeds.prompt with hnow | ⟨q', p, hon', hp, hlt, hgone⟩
    · rw [timed_unique ho.nodup_created hnow hmeets.queued]
      exact Nat.le_max_left _ _
    · rw [← isOn_eq_belongs] at hon
      obtain rfl := Ledger.IsOrderly.isOn_unique hon' hon
      rw [isOn_eq_belongs] at hp
      obtain ⟨i, S', -, hS', -, hshows⟩ := hP.exists_earlier ho he (Nat.le_refl _) hp hlt
      rw [((hshows.vacated b).1 hgone).1]
      exact Nat.le_trans (hordered.endsAt_le_lastEnd (List.mem_of_getElem? hS'))
        (Nat.le_max_right _ _)
  · obtain ⟨a, hab, ha⟩ := hsucceeds.requested
    rw [timed_unique ho.nodup_created hmeets.queued ha]
    exact hab
  · cases hlast : P.services.getLast? with
    | none =>
      rw [Plan.lastEnd, hlast]
      exact Nat.zero_le _
    | some S' =>
      have hend : P.lastEnd = S'.endsAt := by rw [Plan.lastEnd, hlast]; rfl
      rw [List.getLast?_eq_getElem?] at hlast
      obtain ⟨p, hp⟩ := hP.exists_entry hlast
      have hlt : p < e := by
        refine (hP.lt_iff ho hp he).2 ?_
        have hpos := (List.getElem?_eq_some_iff.1 hp).1
        exact hpos
      have honp := hP.belongs hp
      rw [← isOn_eq_belongs] at hon honp
      obtain ⟨t, htb, hgone⟩ := hsucceeds.preceded hon honp hlt
      rw [hend, ← (((hP.shows hlast hp).vacated t).1 hgone).1]
      exact htb

/-- An entry that waits does so for one whose service is not over. -/
theorem clock_lt_lastEnd (hw : Reachable w) (hordered : P.IsOrdered s.server)
    (he : (w.createdOn q)[es.length]? = some e) (hd : e ∉ w.ledger.dispatched) :
    w.clock < P.lastEnd := by
  have ho := hw.arises.isOrderly
  have hon : w.belongs q e := (mem_createdOn ho).1 (List.mem_of_getElem? he)
  rw [← isOn_eq_belongs] at hon
  obtain ⟨p, honp, hlt, -, hstays⟩ := hw.arises.exists_active hon hd
  rw [isOn_eq_belongs] at honp
  obtain ⟨i, S', -, hS', -, hshows⟩ := hP.exists_earlier ho he (Nat.le_refl _) honp hlt
  refine Nat.lt_of_lt_of_le (Nat.lt_of_not_le fun hle => ?_)
    (hordered.endsAt_le_lastEnd (List.mem_of_getElem? hS'))
  exact hstays (seen_of_timed ((hshows.vacated _).2 ⟨rfl, hle⟩))

/-- **The next entry of a queue has a service**, which begins when it is requested or when the service
before it ends. -/
theorem exists_service (h : Halts s log w) (hσ : σ = cancelledAt? log w)
    (hordered : P.IsOrdered s.server) (he : (w.createdOn q)[es.length]? = some e)
    (hmeets : w.Meets σ r e) :
    ∃ S, s.server.Serves r (max r.instant P.lastEnd) S ∧ w.Shows σ q S e := by
  have hw := h.runs.reachable
  have ho := hw.arises.isOrderly
  have hon : w.belongs q e := (mem_createdOn ho).1 (List.mem_of_getElem? he)
  by_cases hd : e ∈ w.ledger.dispatched
  · obtain ⟨b, hb⟩ := exists_timed hd
    obtain rfl := hP.beginsAt_eq hw hordered he hmeets hb
    obtain ⟨S, hS, hfate, hover⟩ :=
      h.exists_service (hσ ▸ hmeets.cancelAt) (hmeets.orders hon) hb
    obtain rfl := hS.request_eq
    refine ⟨S, hS, hmeets, fun t => ?_, fun t => ?_, hfate⟩
    · rw [hS.beginsAt_eq]
      refine ⟨fun ht => ?_, fun ⟨ht, _⟩ => ht ▸ hb⟩
      exact ⟨timed_unique ho.nodup_dispatched ht hb, hw.arises.timed_le hb⟩
    · rcases hover with ⟨hle, hgone⟩ | ⟨hlt, hstays⟩
      · exact ⟨fun ht => ⟨timed_unique ho.nodup_vacated ht hgone, hle⟩, fun ⟨ht, _⟩ => ht ▸ hgone⟩
      · exact ⟨fun ht => absurd (seen_of_timed ht) hstays,
          fun ⟨_, hle⟩ => absurd hlt (Nat.not_lt.2 hle)⟩
  · -- The entry waits; so its service is still to come.
    have hlt := Nat.lt_of_lt_of_le (hP.clock_lt_lastEnd hw hordered he hd)
      (Nat.le_max_right r.instant _)
    have hS := s.server.serves_serve r (max r.instant P.lastEnd)
    have hend := Nat.lt_of_lt_of_le hlt hS.le_endsAt
    refine ⟨_, hS, hS.request_eq.symm ▸ hmeets, fun t => ?_, fun t => ?_, ?_⟩
    · rw [hS.beginsAt_eq]
      exact ⟨fun ht => absurd (seen_of_timed ht) hd, fun ⟨_, hle⟩ => absurd hlt (Nat.not_lt.2 hle)⟩
    · exact ⟨fun ht => absurd (ho.gone e (seen_of_timed ht)) hd,
        fun ⟨_, hle⟩ => absurd hend (Nat.not_lt.2 hle)⟩
    · rw [fateOf_waiting hw hd, Service.fateAt, hS.beginsAt_eq, if_pos hlt]

end KeepsTo

/-! ## Requests -/

/-- The entry that absorbs a request becomes active later, or at this moment because another one
leaves its slot. -/
theorem KeepsTo.begins_of_absorbed (hP : w.KeepsTo σ q P es) (hw : Reachable w) {v : World}
    (hv : Arises v) (hc : Changes v w) (hS : P.services[k]? = some S) (he : es[k]? = some e)
    (hon : v.ledger.isOn q e) (hd : e ∉ v.ledger.dispatched) : v.clock < S.beginsAt ∨
      v.clock = S.beginsAt ∧
        ∃ i S', i < k ∧ P.services[i]? = some S' ∧ S'.endsAt = S.beginsAt := by
  have ho := hw.arises.isOrderly
  have hlaw := (hP.shows hS he).dispatched
  rcases Nat.lt_or_ge w.clock S.beginsAt with hlater | hle
  · exact .inl (Nat.lt_of_le_of_lt (Changes.clock_le hc) hlater)
  · have hbegins := (hlaw _).2 ⟨rfl, hle⟩
    refine (Nat.lt_or_eq_of_le (Changes.le_of_unseen hc hd hbegins)).imp_right fun hnow => ⟨hnow, ?_⟩
    -- Whoever was active when the request was made left its slot at that moment.
    obtain ⟨p, honp, hlt, -, hstays⟩ := hv.exists_active hon hd
    have hknown := Ledger.IsOrderly.isOn_lt hon
    have hon' := (hv.isOn_iff hc hknown q).2 hon
    have honp' := (hv.isOn_iff hc (Nat.lt_trans hlt hknown) q).2 honp
    obtain ⟨t, hbefore, hgone⟩ := (hw.arises.succeeds hbegins).preceded hon' honp' hlt
    obtain rfl : t = S.beginsAt :=
      Nat.le_antisymm hbefore (hnow ▸ Changes.le_of_unseen hc hstays hgone)
    rw [isOn_eq_belongs] at honp'
    obtain ⟨i, S', hik, hS', -, hshows⟩ := hP.exists_earlier ho (hP.getElem?_createdOn he)
      (Nat.le_of_lt (List.getElem?_eq_some_iff.1 he).1) honp' hlt
    exact ⟨i, S', hik, hS', (((hshows.vacated _).1 hgone).1).symm⟩

/-- The arguments of an entry are those of its service. -/
theorem KeepsTo.argsOf?_eq (hP : w.KeepsTo σ q P es) {v : World} (hv : Arises v)
    (hc : Changes v w) (hS : P.services[k]? = some S) (he : es[k]? = some e)
    (hon : v.ledger.isOn q e) : v.argsOf? e = some S.request.operation.key := by
  have hlt : e < v.orders.length := by
    have hlt := Ledger.IsOrderly.isOn_lt hon
    rwa [ledger, List.length_map, ← List.length_map (f := Entry.order)] at hlt
  have horder := getElem?_of_isPrefix (hv.lasts_changes hc).orders (List.getElem?_eq_getElem hlt)
  rw [argsOf?, List.getElem?_eq_getElem hlt,
    Option.some.inj (horder.symm.trans (hP.shows hS he).meets.order)]
  rfl

/-- A request that is not absorbed finds all entries of its arguments active or over. -/
theorem KeepsTo.begins_of_created (hP : w.KeepsTo σ q P es) {v : World}
    (hv : Arises v) (hc : Changes v w) (hes : es = v.createdOn q) {queue : Queue}
    (hq : v.queues[q]? = some queue) {op : Operation} (hnone : v.absorber? queue op = none)
    (hS : S ∈ P.services) (hkey : S.request.operation.key = op.key) : S.beginsAt ≤ v.clock := by
  have ho := hv.isOrderly
  obtain ⟨k, hk⟩ := List.mem_iff_getElem?.1 hS
  obtain ⟨e, he⟩ := hP.exists_entry hk
  have hon : v.ledger.isOn q e := by
    rw [isOn_eq_belongs, ← mem_createdOn ho, ← hes]
    exact List.mem_of_getElem? he
  have hlaw := (hP.shows hk he).dispatched
  by_cases hd : e ∈ v.ledger.dispatched
  · obtain ⟨b, hb⟩ := exists_timed hd
    rw [← ((hlaw b).1 (timed_forth (hv.lasts_changes hc).history hb)).1]
    exact hv.timed_le hb
  · have hpending : e ∈ queue.pending := (ho.mem_pending (slot_eq hq)).2 ⟨hon, hd⟩
    have hsome := (absorber?_eq_some hv.isDistinct hq).2
      ⟨hpending, (hP.argsOf?_eq hv hc hk he hon).trans (congrArg some hkey)⟩
    exact absurd (hnone.symm.trans hsome) (by simp)

theorem askedOn_append (σ : Calendar) (q : QueueId) (past : List (World × Choice))
    (p : World × Choice) : askedOn σ q (past ++ [p]) =
      askedOn σ q past ++ ((ask? q p).map fun a => a.1.request σ).toList := by
  rw [askedOn, asksOn_append, List.map_append]
  cases ask? q p <;> rfl

/-- **A run keeps to a plan**, request by request. -/
theorem Halts.keepsTo (h : Halts s log w) (hσ : σ = cancelledAt? log w)
    {past : List (World × Choice)} {v : World} (hv : Runs s past v) (hc : Changes v w) :
    ∃ P, s.server.Plans (askedOn σ q past) P ∧ w.KeepsTo σ q P (v.createdOn q) ∧
      P.answers = (answersOn q past).map (w.createdOn q).idxOf := by
  have hw := h.runs.reachable
  have hplace {e : EntryId} {k : Nat} (he : (w.createdOn q)[k]? = some e) :
      (w.createdOn q).idxOf e = k := by
    obtain ⟨hk, rfl⟩ := List.getElem?_eq_some_iff.1 he
    exact List.Nodup.idxOf_getElem
      ((pairwise_createdOn hw.arises.isOrderly q).imp Nat.ne_of_lt) k hk
  -- By induction on the run; only a request adds something to the plan.
  induction hv with
  | new =>
    refine ⟨{}, .nil, ⟨List.nil_prefix, rfl, fun hS => ?_⟩, rfl⟩
    exact absurd hS (by simp)
  | @next past v v' c hv hdoes hreserved hpunctual ih =>
    have hchanges := hdoes.transition.changes
    obtain ⟨P, hplans, hP, hanswers⟩ := ih (hchanges.trans hc)
    have hv' := (hv.reachable.does hdoes).arises
    have henrolls := hdoes.enrolls hv.reachable (hv.steady h.uniform).called q
    rw [answersOn_append, askedOn_append, List.map_append, ← hanswers]
    generalize ask? q (v, c) = answer at henrolls
    cases henrolls with
    | unasked hkept => exact ⟨P, by simpa using hplans, hkept ▸ hP, by simp⟩
    | @absorbed queue op token e hq habsorber hkept =>
      have ho := hv.reachable.arises.isOrderly
      obtain ⟨hpending, hargs⟩ := (absorber?_eq_some hv.reachable.arises.isDistinct hq).1 habsorber
      obtain ⟨hon, hd⟩ := (ho.mem_pending (slot_eq hq)).1 hpending
      have hmem : e ∈ v.createdOn q := by rwa [mem_createdOn ho, ← isOn_eq_belongs]
      obtain ⟨k, he⟩ := List.mem_iff_getElem?.1 hmem
      obtain ⟨S, hS⟩ := hP.exists_service_of_entry he
      rw [hP.argsOf?_eq hv.reachable.arises (hchanges.trans hc) hS he hon] at hargs
      refine ⟨P.answer k, hplans.absorbed hS (Option.some.inj hargs) ?_,
        ⟨hkept ▸ hP.isPrefix, hkept ▸ hP.length, hkept ▸ hP.shows⟩, ?_⟩
      · exact hP.begins_of_absorbed hw hv.reachable.arises (hchanges.trans hc) hS he hon hd
      · exact congrArg (P.answers ++ [·]) (hplace (hP.getElem?_createdOn he)).symm
    | @created queue op token hq habsorber hcreated horder hqueued =>
      have hfirst := hv'.createdOn_isPrefix hc q
      rw [hcreated] at hfirst ⊢
      have hnext := getElem?_of_isPrefix hfirst List.getElem?_concat_length
      have hlasts := hv'.lasts_changes hc
      have hmeets : w.Meets σ (Ask.request σ ⟨v.clock, op, token⟩) v.entries.length := by
        refine ⟨?_, timed_forth hlasts.history hqueued, ?_⟩
        · rw [Ask.tokenName_request]
          exact getElem?_of_isPrefix hlasts.orders horder
        · rw [Ask.cancelAt_request, Ask.tokenName_request]
      obtain ⟨S, hS, hshows⟩ := hP.exists_service h hσ hplans.isOrdered hnext hmeets
      refine ⟨P.append S, hplans.created (fun S' hS' hkey => ?_) hS, hP.append hfirst hshows, ?_⟩
      · exact hP.begins_of_created hv.reachable.arises (hchanges.trans hc) rfl hq habsorber hS' hkey
      · exact congrArg (P.answers ++ [·]) (hP.length.trans (hplace hnext).symm)

/-- **A run keeps to a plan of its requests.** -/
theorem Halts.exists_plan (h : Halts s log w) (q : QueueId) :
    ∃ P, s.server.Plans (askedOn (cancelledAt? log w) q log) P ∧
      w.KeepsTo (cancelledAt? log w) q P (w.createdOn q) ∧
      P.answers = (answersOn q log).map (w.createdOn q).idxOf :=
  h.keepsTo rfl h.runs .refl

/-- **When no timer is set all services of a queue are over.** -/
theorem KeepsTo.endsAt_le (hP : w.KeepsTo (cancelledAt? log w) q P (w.createdOn q))
    (h : Halts s log w) (htimers : w.timers = []) : ∀ S ∈ P.services, S.endsAt ≤ w.clock := by
  have hw := h.runs.reachable
  have ho := hw.arises.isOrderly
  -- Nobody starts or runs, for that takes a timer.
  have hgone {p : EntryId} (hon : w.belongs q p) (hd : p ∈ w.ledger.dispatched) :
      p ∈ w.ledger.vacated := by
    obtain ⟨i, hi⟩ := List.mem_iff_getElem?.1 ((mem_createdOn ho).2 hon)
    obtain ⟨S', hS'⟩ := hP.exists_service_of_entry hi
    have hmeets := (hP.shows hS' hi).meets
    obtain ⟨b, hb⟩ := exists_timed hd
    rcases h.cases hmeets.cancelAt (hmeets.orders hon) hb with
      ⟨j, id, hstarting⟩ | ⟨j, id, hunderway⟩ | ⟨S, call, id, ch, -, hover⟩
    · have hattends := hw.isAttended hstarting.starting
      rw [Attends, htimers, h.still.ready] at hattends
      exact absurd hattends (by simp)
    · have hattends := hw.isAttended hunderway.running
      rw [Attends, htimers, h.still.ready] at hattends
      exact absurd hattends (by simp)
    · exact seen_of_timed hover.vacated
  intro S hS
  obtain ⟨k, hk⟩ := List.mem_iff_getElem?.1 hS
  obtain ⟨e, he⟩ := hP.exists_entry hk
  have hon := hP.belongs he
  by_cases hd : e ∈ w.ledger.dispatched
  · obtain ⟨t, ht⟩ := exists_timed (hgone hon hd)
    exact ((hP.shows hk he).vacated t).1 ht |>.2
  · -- An entry that waits does so for one that is active.
    rw [← isOn_eq_belongs] at hon
    obtain ⟨p, honp, -, hp, hstays⟩ := hw.arises.exists_active hon hd
    rw [isOn_eq_belongs] at honp
    exact absurd (hgone honp hp) hstays

end Planning

end World

end FolderTasks.Dispatch
