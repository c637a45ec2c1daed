import FolderTasks.Proofs.Dispatch.PunctualRuns
import FolderTasks.Proofs.Dispatch.EntryActivation
/-!
# Who requests what

An operation is requested by the user, or by a job that resets a package.  A run in which callbacks
request nothing makes exactly the requests that can be read off its choices, and every other choice
leaves the entries of all queues as they are.

## Main definitions

* `Ask`: a request on a queue, and when it is made.
* `World.demand?`: what a choice requests, and on which queue.
* `World.asksOn`, `World.answersOn`: the requests that a run makes on a queue, and the entries that
  serve them.

## Main statements

* `World.Does.unasked`: a choice that requests nothing makes no entry.
* `World.Does.asked`: a choice that requests something makes the entries of a request.
-/

namespace FolderTasks.Dispatch

/-- A request on a queue. -/
structure Ask where
  instant : Nat
  operation : Operation
  token : Option String
deriving DecidableEq

namespace World

/-- What a choice requests, and on which queue.  A reset is requested when its job begins. -/
def demand? (w : World) : Choice → Option (QueueId × Operation × Option String)
  | .act (.act (.request key op token _)) => (w.queueNamed? key).map fun q => (q, op, token)
  | .act (.run folder action token _) => (w.folderQueue? folder).map fun q =>
      (q, action.operation w.toolchain folder, token)
  | .turn j => match w.jobs[j]? with
    | some ⟨.reset _ folder token, .fresh, false⟩ => (w.folderQueue? folder).map fun q =>
        (q, PackageAction.reset.operation w.toolchain folder, token)
    | _ => none
  | _ => none

/-- The request that a choice makes on a queue, with the entry that serves it. -/
def ask? (q : QueueId) (p : World × Choice) : Option (Ask × EntryId) :=
  match p.1.demand? p.2 with
  | some (q', op, token) =>
    if q' = q then some (⟨p.1.clock, op, token⟩, (p.1.request q op token).2) else none
  | none => none

/-- The requests that a run makes on a queue. -/
def asksOn (q : QueueId) (log : List (World × Choice)) : List Ask :=
  (log.filterMap (ask? q)).map Prod.fst

/-- The entries that serve them. -/
def answersOn (q : QueueId) (log : List (World × Choice)) : List EntryId :=
  (log.filterMap (ask? q)).map Prod.snd

/-- Where the entries are queued and what they order. -/
def roster (w : World) : List (QueueId × Operation × Option String) :=
  w.entries.map fun entry => (entry.queue, entry.order)

/-! ## What leaves the roster alone -/

section Rosters

variable {w w' : World} {c : Choice} {j : JobId} {errand : Errand} {p : Position} {q : QueueId}
variable {op : Operation} {token : Option String}

theorem roster_modifyEntry (w : World) (e : EntryId) {f : Entry → Entry}
    (hf : ∀ entry, ((f entry).queue, (f entry).order) = (entry.queue, entry.order)) :
    (w.modifyEntry e f).roster = w.roster := by
  have hroster := map_modify (g := fun entry : Entry => (entry.queue, entry.order)) (k := id) hf
    w.entries e
  rwa [List.modify_id] at hroster

theorem roster_takeSeat (w : World) (e : EntryId) (who : Waiter) :
    (w.takeSeat e who).1.roster = w.roster := by
  unfold takeSeat
  split
  · rfl
  · exact roster_modifyEntry w e fun _ => rfl

/-- When there are no more entries than before, they are what they were. -/
theorem Arises.roster_eq (hw : Arises w) (hc : Changes w w')
    (h : w'.entries.length = w.entries.length) : w'.roster = w.roster := by
  have hzip (w : World) : w.roster = w.ledger.owners.zip w.orders := (List.zip_map' ..).symm
  have howners := (hw.owners_isPrefix hc).eq_of_length (by simp [ledger, h])
  have horders := (hw.lasts_changes hc).orders.eq_of_length (by simp [h])
  rw [hzip, hzip, ← howners]
  exact congrArg _ horders.symm

/-- A job that is touched keeps its errand, and does not begin anew. -/
theorem Touch.at_own {K : Hook → Prop} (ht : Touch K j w w') (hat : w.At j errand p) :
    ∃ p', w'.At j errand p' ∧ (p' = .fresh → p = .fresh) := by
  have hstays {O : List Origin} (hm : Mild O w w') :
      ∃ p', w'.At j errand p' ∧ (p' = .fresh → p = .fresh) := ⟨p, hm.stays hat, id⟩
  cases ht with
  | noted | numbered | guardTaken | lineJoined | lineLeft | timerSet | timerCleared | begun | ended
  | called | noticed | unseated | withheld | turnSet => exact ⟨p, hat, id⟩
  | @moved p' hp => exact ⟨p', hat.setPosition p', fun h => absurd h hp⟩
  | guardReleased =>
    obtain ⟨ready, heq⟩ := releaseGuard_eq w
    rw [heq]
    exact ⟨p, hat, id⟩
  | listened token => exact hstays (O := []) (mild_listen w token j)
  | unlistened token => exact hstays (O := []) (mild_unlisten w token j)
  | @acted site h hh a ha => exact ⟨p, (perform_deeds w a).mild.stays hat, id⟩
  | resolved o => exact hstays (mild_resolve w _ o)
  | received hr => exact hstays (O := []) (mild_receive? hr)
  | seated e => exact hstays (O := []) (mild_takeSeat w e _)
  | asked q =>
    obtain ⟨e, seat, hawaiting⟩ := hat.askReset q _ _
    exact ⟨_, hawaiting, fun h => absurd h (by simp)⟩
  | leftOpen q => exact hstays (O := []) (mild_spawn w _)

/-- **A job that is not about to request a reset requests nothing.** -/
theorem Touch.entries_length (ht : Touch Hook.IsReserved j w w') (hat : w.At j errand p)
    (hasks : ∀ name folder token, errand = .reset name folder token → p ≠ .fresh) :
    w'.entries.length = w.entries.length := by
  have hof (h : w'.holdings = w.holdings) : w'.entries.length = w.entries.length :=
    congrArg Prod.fst h
  cases ht with
  | noted | moved | numbered | guardTaken | lineJoined | lineLeft | timerSet | timerCleared | begun
  | ended | called | noticed | withheld | leftOpen | turnSet => rfl
  | guardReleased | listened | unlistened | resolved | seated | unseated => exact hof (by simp)
  | @acted site h hh a ha =>
    refine hof (holdings_perform (w := w) ?_)
    cases a <;> first | rfl | exact absurd (hh.holds _ ha) id
  | received hr => exact hof (holdings_receive? hr)
  | asked q hasking =>
    obtain ⟨rfl, rfl⟩ := hat.unique hasking
    exact absurd rfl (hasks _ _ _ rfl)

theorem Touches.entries_length (ht : Touches Hook.IsReserved j w w') (hat : w.At j errand p)
    (hasks : ∀ name folder token, errand = .reset name folder token → p ≠ .fresh) :
    w'.entries.length = w.entries.length := by
  suffices h : w'.entries.length = w.entries.length ∧ ∃ p', w'.At j errand p' ∧
      (p' = .fresh → p = .fresh) from h.1
  induction ht with
  | refl => exact ⟨rfl, p, hat, id⟩
  | tail _ ht ih =>
    obtain ⟨hlength, p', hat', hfresh⟩ := ih
    refine ⟨(ht.entries_length hat' ?_).trans hlength, ?_⟩
    · intro name folder token herrand hp'
      exact hasks name folder token herrand (hfresh hp')
    · obtain ⟨p'', hat'', hfresh'⟩ := ht.at_own hat'
      exact ⟨p'', hat'', fun h => hfresh (hfresh' h)⟩

theorem turn_of_fresh (hj : w.jobs[j]? = some ⟨errand, .fresh, false⟩) : w.turn j =
    { (({ w with current := some j } : World).turnJob j errand).discardIfAbandoned j with
      current := none } := by
  rw [turn, hj]
  rfl

theorem holdings_discardIfAbandoned (w : World) (j : JobId) :
    (w.discardIfAbandoned j).holdings = w.holdings := by
  unfold discardIfAbandoned
  split
  · split <;> simp
  · rfl

theorem turn_entries_length (hk : w.CalledBy Hook.IsReserved)
    (h : w.demand? (.turn j) = none) : (w.turn j).entries.length = w.entries.length := by
  have hof (h : (w.turn j).holdings = w.holdings) : (w.turn j).entries.length = w.entries.length :=
    congrArg Prod.fst h
  cases hj : w.jobs[j]? with
  | none => rw [turn, hj]
  | some job =>
    obtain ⟨errand, p, given⟩ := job
    by_cases hasks : ∃ name folder token, errand = .reset name folder token ∧ p = .fresh
    · obtain ⟨name, folder, token, rfl, rfl⟩ := hasks
      cases given with
      | true =>
        refine hof ?_
        rw [turn, hj]
        dsimp only
        rw [if_neg (by simp), if_pos rfl]
        exact holdings_discard w j _
      | false =>
        have hq : w.folderQueue? folder = none := by simpa [demand?, hj] using h
        have hat : ({ w with current := some j } : World).At j (.reset name folder token) .fresh :=
          ⟨false, hj⟩
        refine hof ?_
        rw [turn_of_fresh hj]
        refine (holdings_discardIfAbandoned _ j).trans ?_
        unfold turnJob turnReset
        simp only [hat.position_eq]
        rw [show ({ w with current := some j } : World).folderQueue? folder = none from hq]
        rfl
    · refine (turn_touches hk).entries_length ⟨given, hj⟩ fun name folder token herrand hp => ?_
      exact hasks ⟨name, folder, token, herrand, hp⟩

/-- **A choice that requests nothing makes no entry.** -/
theorem Does.unasked (hc : Does w c w') (hk : w.CalledBy Hook.IsReserved)
    (h : w.demand? c = none) : w'.entries.length = w.entries.length := by
  have hof {w' : World} (h : w'.holdings = w.holdings) : w'.entries.length = w.entries.length :=
    congrArg Prod.fst h
  cases hc with
  | act st hst =>
    cases st with
    | act a =>
      by_cases ha : a.isRequest = false
      · exact hof (holdings_perform w ha)
      · cases a with
        | request key op token handle =>
          have hq : w.queueNamed? key = none := Option.map_eq_none_iff.1 h
          simp only [step, perform, withQueue, hq]
        | _ => exact absurd rfl ha
    | settle | advance | await => exact Bool.noConfusion hst
    | addFolder folder =>
      simp only [step, addFolder]
      split <;> rfl
    | removeFolder folder =>
      simp only [step, removeFolder]
      split <;> rfl
    | folders | toolchain => rfl
    | find folder =>
      simp only [step]
      split <;> rfl
    | run folder action token handle =>
      have hq : w.folderQueue? folder = none := Option.map_eq_none_iff.1 h
      simp only [step, hq]
    | tasks folder products =>
      simp only [step]
      split <;> rfl
    | dispose => exact @hof w.disposeManager (holdings_disposeManager w)
  | turn i hi => exact turn_entries_length (w := { w with ready := w.ready.erase i }) hk h
  | fire t ht => exact hof (holdings_fire w t)
  | pass => rfl
  | leave e entry seat he hseat => exact hof (holdings_leaveSeat w e seat)
  | sit e => exact hof (holdings_takeSeat w e _)
  | receive e o hreceive => exact hof (holdings_receive? hreceive)

/-! ## What is added to the roster -/

theorem roster_discard (w : World) (j : JobId) (job : Job) :
    (w.discard j job).roster = w.roster := by
  have hreset (e : EntryId) (seat : Nat) : (w.discardReset e seat).roster = w.roster := by
    unfold discardReset
    split
    · rfl
    · dsimp only
      split <;> exact roster_modifyEntry w e fun _ => rfl
  unfold discard
  split
  · obtain ⟨tokens, timers, ready, g, heq⟩ := dropExecution_eq w _
    rw [heq]
    rfl
  · exact hreset _ _
  · rfl

theorem roster_discardIfAbandoned (w : World) (j : JobId) :
    (w.discardIfAbandoned j).roster = w.roster := by
  unfold discardIfAbandoned
  split
  · split
    · exact roster_discard w j _
    · rfl
  · rfl

/-- A request is absorbed, or it is added to the roster. -/
theorem roster_request {queue : Queue} (hq : w.queues[q]? = some queue) :
    (w.request q op token).1.roster =
      w.roster ++ if w.absorber? queue op = none then [(q, op, token)] else [] := by
  cases habsorber : w.absorber? queue op with
  | some e =>
    rw [request_of_absorber? hq habsorber, if_neg (by simp), List.append_nil]
    rfl
  | none =>
    rw [request_of_absorber?_eq_none hq habsorber, if_pos rfl, roster, dispatch_entries]
    simp [append, roster, Entry.order, note, modifyQueue]

/-- A reset is requested like everything else. -/
theorem roster_askReset {queue : Queue} (hq : w.queues[q]? = some queue) (folder : Path) :
    (w.askReset j q folder token).roster =
      w.roster ++ if w.absorber? queue (PackageAction.reset.operation w.toolchain folder) = none
        then [(q, PackageAction.reset.operation w.toolchain folder, token)] else [] := by
  have hqueue : (w.withhold q true).queues[q]? = some { queue with isWithheld := true } := by
    simp [withhold, modifyQueue, hq]
  let op := PackageAction.reset.operation w.toolchain folder
  calc (w.askReset j q folder token).roster
      = ((w.withhold q true).request q op token).1.roster := roster_takeSeat _ _ _
    _ = _ := roster_request hqueue

/-- **A choice that requests something** has it absorbed, or adds it to the roster. -/
theorem Does.asked (hc : Does w c w') (h : w.demand? c = some (q, op, token)) {queue : Queue}
    (hq : w.queues[q]? = some queue) :
    w'.roster = w.roster ++ if w.absorber? queue op = none then [(q, op, token)] else [] := by
  cases hc with
  | act st hst =>
    cases st with
    | act a =>
      cases a with
      | request key op' token' handle =>
        obtain ⟨q', hq', heq⟩ := Option.map_eq_some_iff.1 h
        obtain ⟨rfl, rfl, rfl⟩ : q' = q ∧ op' = op ∧ token' = token := by simpa using heq
        simp only [step, perform, withQueue, hq']
        exact roster_request hq
      | _ => exact absurd h (by simp [demand?])
    | run folder action token' handle =>
      obtain ⟨q', hq', heq⟩ := Option.map_eq_some_iff.1 h
      obtain ⟨rfl, rfl, rfl⟩ : q' = q ∧ action.operation w.toolchain folder = op ∧
        token' = token := by simpa using heq
      simp only [step, hq']
      exact roster_request hq
    | _ => exact absurd h (by simp [demand?])
  | turn i hi =>
    simp only [demand?] at h
    split at h
    · next name folder token' hj =>
      obtain ⟨q', hq', heq⟩ := Option.map_eq_some_iff.1 h
      obtain ⟨rfl, rfl, rfl⟩ : q' = q ∧ PackageAction.reset.operation w.toolchain folder = op ∧
        token' = token := by simpa using heq
      have hat : ({ w with ready := w.ready.erase i, current := some i } : World).At i
        (.reset name folder token') .fresh := ⟨false, hj⟩
      have hjob : ({ w with ready := w.ready.erase i } : World).jobs[i]? =
        some ⟨.reset name folder token', .fresh, false⟩ := hj
      rw [takeTurn, turn_of_fresh hjob]
      refine (roster_discardIfAbandoned _ i).trans ?_
      unfold turnJob turnReset
      simp only [hat.position_eq]
      have hfolder : ({ w with ready := w.ready.erase i, current := some i } : World).folderQueue?
        folder = some q' := hq'
      rw [hfolder]
      exact roster_askReset (w := { w with ready := w.ready.erase i, current := some i }) hq folder
    · exact absurd h (by simp)
  | fire | pass | leave | sit | receive => exact absurd h (by simp [demand?])

end Rosters

/-! ## What is added to a queue -/

section Enrolling

variable {w w' : World} {c : Choice} {q : QueueId}

/-- The entries of a queue can be read off the roster. -/
theorem createdOn_eq (ho : w.ledger.IsOrderly) (q : QueueId) : w.createdOn q =
    (List.range w.roster.length).filter fun e => w.roster[e]?.any fun r => r.1 == q := by
  have hcreated : w.seen Happening.queued? = List.range w.roster.length := by
    rw [roster, List.length_map, ← List.length_map Entry.queue]
    exact ho.created
  rw [createdOn, hcreated]
  refine List.filter_congr fun e _ => ?_
  rw [belongs, roster, List.getElem?_map, entryOf?]
  cases w.entries[e]? <;> rfl

/-- An entry that is added to the roster is added to its queue. -/
theorem createdOn_of_roster (ho : w.ledger.IsOrderly) (ho' : w'.ledger.IsOrderly) {q' : QueueId}
    {order : Operation × Option String} (h : w'.roster = w.roster ++ [(q', order)]) :
    w'.createdOn q = w.createdOn q ++ if q' = q then [w.entries.length] else [] := by
  have hlength : w.roster.length = w.entries.length := List.length_map _
  rw [createdOn_eq ho', createdOn_eq ho, h, List.length_append, List.length_singleton,
    List.range_succ, List.filter_append]
  congr 1
  · refine List.filter_congr fun e he => ?_
    rw [List.getElem?_append_left (List.mem_range.1 he)]
  · by_cases hqq : q' = q <;> simp [hqq, hlength]

theorem asksOn_append (q : QueueId) (log : List (World × Choice)) (p : World × Choice) :
    asksOn q (log ++ [p]) = asksOn q log ++ ((ask? q p).map Prod.fst).toList := by
  rw [asksOn, List.filterMap_append, List.map_append]
  cases h : ask? q p <;> simp [h, asksOn]

theorem answersOn_append (q : QueueId) (log : List (World × Choice)) (p : World × Choice) :
    answersOn q (log ++ [p]) = answersOn q log ++ ((ask? q p).map Prod.snd).toList := by
  rw [answersOn, List.filterMap_append, List.map_append]
  cases h : ask? q p <;> simp [h, answersOn]

/-- **What a choice adds to a queue**: nothing, unless it makes a request on it that is not
absorbed. -/
inductive Enrolls (q : QueueId) (w w' : World) : Option (Ask × EntryId) → Prop where
  | unasked (h : w'.createdOn q = w.createdOn q) : Enrolls q w w' none
  | absorbed {queue : Queue} {op : Operation} {token : Option String} {e : EntryId}
      (hq : w.queues[q]? = some queue) (ha : w.absorber? queue op = some e)
      (h : w'.createdOn q = w.createdOn q) : Enrolls q w w' (some (⟨w.clock, op, token⟩, e))
  | created {queue : Queue} {op : Operation} {token : Option String}
      (hq : w.queues[q]? = some queue) (ha : w.absorber? queue op = none)
      (h : w'.createdOn q = w.createdOn q ++ [w.entries.length])
      (horder : w'.orders[w.entries.length]? = some (op, token))
      (hqueued : (w.clock, w.entries.length) ∈ w'.timed Happening.queued?) :
      Enrolls q w w' (some (⟨w.clock, op, token⟩, w.entries.length))

/-- Requests are made on queues that are there. -/
theorem lt_of_demand? (hw : Reachable w) {op : Operation} {token : Option String}
    (h : w.demand? c = some (q, op, token)) : q < w.queues.length := by
  have hnamed {key : String} {op' : Operation} {token' : Option String}
      (h : (w.queueNamed? key).map (fun q => (q, op', token')) = some (q, op, token)) :
      q < w.queues.length := by
    obtain ⟨q', hq', heq⟩ := Option.map_eq_some_iff.1 h
    exact (Prod.mk.inj heq).1 ▸ hw.isVouched.queueNamed? hq'
  have hfolder {folder : Path} {op' : Operation} {token' : Option String}
      (h : (w.folderQueue? folder).map (fun q => (q, op', token')) = some (q, op, token)) :
      q < w.queues.length := by
    obtain ⟨q', hq', heq⟩ := Option.map_eq_some_iff.1 h
    exact (Prod.mk.inj heq).1 ▸ hw.isVouched.folderQueue? hq'
  unfold demand? at h
  split at h
  · exact hnamed h
  · exact hfolder h
  · split at h
    · exact hfolder h
    · exact absurd h (by simp)
  · exact absurd h (by simp)

/-- **What a choice adds to a queue.** -/
theorem Does.enrolls (hc : Does w c w') (hw : Reachable w) (hk : w.CalledBy Hook.IsReserved)
    (q : QueueId) : Enrolls q w w' (ask? q (w, c)) := by
  have hchanges := hc.transition.changes
  have ho := hw.arises.isOrderly
  have ho' := (hw.does hc).arises.isOrderly
  have hkept (h : w'.roster = w.roster) : w'.createdOn q = w.createdOn q := by
    rw [createdOn_eq ho', createdOn_eq ho, h]
  simp only [ask?]
  cases hd : w.demand? c with
  | none => exact .unasked (hkept (hw.arises.roster_eq hchanges (hc.unasked hk hd)))
  | some d =>
    obtain ⟨q', op, token⟩ := d
    obtain ⟨queue, hq⟩ : ∃ queue, w.queues[q']? = some queue :=
      ⟨_, List.getElem?_eq_getElem (lt_of_demand? hw hd)⟩
    have hroster := hc.asked hd hq
    dsimp only
    cases ha : w.absorber? queue op with
    | some e =>
      rw [ha, if_neg (by simp), List.append_nil] at hroster
      split
      · next heq =>
        subst heq
        rw [request_of_absorber? hq ha]
        exact .absorbed hq ha (hkept hroster)
      · exact .unasked (hkept hroster)
    | none =>
      rw [ha, if_pos rfl] at hroster
      have hcreated := createdOn_of_roster (q := q) ho ho' hroster
      split
      · next heq =>
        subst heq
        rw [if_pos rfl] at hcreated
        rw [request_of_absorber?_eq_none hq ha]
        have hnew : w.entries.length ∉ w.ledger.created := by
          rw [ho.created, ledger, List.length_map]
          exact List.not_mem_range_self
        have hmem : w.entries.length ∈ w'.seen Happening.queued? := by
          refine (List.mem_filter.1 (?_ : _ ∈ w'.createdOn q')).1
          rw [hcreated]
          exact List.mem_append_right _ (List.mem_singleton_self _)
        refine .created hq ha hcreated ?_ ?_
        · have horders : w'.orders = w.orders ++ [(op, token)] := by
            have hmap := congrArg (List.map Prod.snd) hroster
            rwa [List.map_append, roster, roster, List.map_map, List.map_map] at hmap
          have hlength : w.orders.length = w.entries.length := List.length_map _
          rw [horders, ← hlength, List.getElem?_concat_length]
        · exact (hc.transition.stamps_of_new hnew hmem).timed_of_new hnew hmem
      · next hne =>
        rw [if_neg hne, List.append_nil] at hcreated
        exact .unasked hcreated

end Enrolling

end World

end FolderTasks.Dispatch
