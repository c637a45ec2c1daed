import FolderTasks.Proofs.Dispatch.JobWakeups
/-!
# Running jobs heed their tokens

Whoever waits for an execution to end is to be woken when its token is cancelled: the job is among
those whom the token wakes, and once the token is cancelled the turn of the job is coming.  So a
cancellation is acted upon before time passes.

## Main definitions

* `World.Heeds`: a job is woken by a token, or its turn is coming.
* `World.Alerts`: a change that leaves all jobs but one to their tokens.
* `World.IsHeeded`: all running jobs heed their tokens.

## Main statements

* `World.turn_alerts`: a turn leaves all jobs but its own to their tokens.
* `World.Reachable.isHeeded`: running jobs heed their tokens between turns.
-/

namespace FolderTasks.Dispatch.World

/-- **A job is woken by a token**, or its turn is coming because the token is cancelled. -/
def Heeds (w : World) (i : JobId) (x : String) : Prop :=
  if (w.token x).isCancelled then i ∈ w.ready else i ∈ (w.token x).waiters

/-- A change that leaves all jobs but one to the tokens that they heed. -/
structure Alerts (j : Option JobId) (w w' : World) : Prop where
  heeds : ∀ {i : JobId} {x : String}, some i ≠ j → w.Heeds i x → w'.Heeds i x

/-- **Running jobs heed their tokens.** -/
def IsHeeded (w : World) : Prop :=
  ∀ ⦃call : Call⦄ ⦃errand : Errand⦄ ⦃id : TaskId⦄ ⦃e : Execution⦄ ⦃x : String⦄,
    w.ServesAt call errand (.running id e) → call.token = some x → w.Heeds call.job x

/-! ## Other jobs -/

section Alerts

variable {K : Hook → Prop} {w w' w'' : World} {j : Option JobId} {i : JobId} {x : String}

theorem heeds_of_cancelled (hc : (w.token x).isCancelled) (h : i ∈ w.ready) : w.Heeds i x := by
  rwa [Heeds, if_pos hc]

theorem heeds_of_waiting (hc : (w.token x).isCancelled = false) (h : i ∈ (w.token x).waiters) :
    w.Heeds i x := by
  rwa [Heeds, if_neg (by simp [hc])]

/-- A job goes on heeding a token that stays as it is. -/
theorem Heeds.kept (h : w.Heeds i x) (htoken : w'.token x = w.token x)
    (hready : i ∈ w.ready → i ∈ w'.ready) : w'.Heeds i x := by
  rw [Heeds, htoken]
  rw [Heeds] at h
  split
  · next hc => exact hready (by rwa [if_pos hc] at h)
  · next hc => rwa [if_neg hc] at h

theorem Alerts.refl (w : World) : Alerts j w w := ⟨fun _ h => h⟩

theorem Alerts.trans (h : Alerts j w w') (h' : Alerts j w' w'') : Alerts j w w'' :=
  ⟨fun hi hheeds => h'.heeds hi (h.heeds hi hheeds)⟩

/-- What leaves all jobs to their tokens does so with all jobs but one. -/
theorem Alerts.weaken (h : Alerts none w w') (j : Option JobId) : Alerts j w w' :=
  ⟨fun _ hheeds => h.heeds (by simp) hheeds⟩

theorem Alerts.of_tokens (htokens : w'.tokens = w.tokens)
    (hready : ∀ i ∈ w.ready, i ∈ w'.ready) : Alerts j w w' := by
  refine ⟨fun {i x} _ h => h.kept ?_ (hready i)⟩
  rw [token, token, htokens]

theorem tokens_wakeAll (js : List JobId) (w : World) : (w.wakeAll js).tokens = w.tokens := by
  obtain ⟨ready, heq⟩ := wakeAll_eq js w
  rw [heq]

theorem tokens_dispatch (w : World) (q : QueueId) : (w.dispatch q).tokens = w.tokens := by
  rcases dispatch_eq w q with heq | ⟨queue, e, rest, -, -, -, heq⟩ <;> rw [heq]

theorem tokens_request (w : World) (q : QueueId) (op : Operation) (token : Option String) :
    (w.request q op token).1.tokens = w.tokens := by
  rcases request_eq w q op token with heq | ⟨queue, e, -, -, heq⟩ | ⟨queue, -, -, heq⟩ <;> rw [heq]
  · rfl
  · exact tokens_dispatch _ q

theorem tokens_resolve (w : World) (e : EntryId) (o : Outcome) :
    (w.resolve e o).tokens = w.tokens := by
  unfold resolve deliver
  split
  · rfl
  · dsimp only
    split
    · exact tokens_dispatch _ _
    · rw [tokens_wakeAll]
      exact tokens_dispatch _ _

theorem takeSeat_tokens (w : World) (e : EntryId) (who : Waiter) :
    (w.takeSeat e who).1.tokens = w.tokens := by
  unfold takeSeat
  split <;> rfl

/-- Whoever heeds a token has a turn coming when that is cancelled. -/
theorem alerts_cancel (w : World) (name : String) : Alerts none w (w.cancel name) := by
  refine ⟨fun {i x} _ h => ?_⟩
  have hready := (mild_cancel (O := []) w name).ready i
  unfold cancel at hready ⊢
  dsimp only at hready ⊢
  by_cases hc : (w.token name).isCancelled
  · rwa [if_pos hc]
  · rw [if_neg hc] at hready ⊢
    have htoken : ((w.setToken name { isCancelled := true }).wakeAll
        (w.token name).waiters).token x = if x = name then { isCancelled := true }
          else w.token x := by
      rw [← token_setToken, token, tokens_wakeAll]
      rfl
    by_cases hx : x = name
    · subst hx
      rw [if_pos rfl] at htoken
      rw [Heeds, if_neg hc] at h
      exact heeds_of_cancelled (by rw [htoken]) (mem_ready_wakeAll h _)
    · rw [if_neg hx] at htoken
      exact h.kept htoken hready

theorem alerts_listen (w : World) (token : Option String) (j : JobId) :
    Alerts none w (w.listen token j) := by
  refine ⟨fun {i x} _ h => ?_⟩
  cases token with
  | none => exact h
  | some name =>
    have htoken := token_setToken w name x
      { w.token name with waiters := (w.token name).waiters ++ [j] }
    by_cases hx : x = name
    · subst hx
      rw [if_pos rfl] at htoken
      rw [Heeds] at h
      rw [Heeds, listen, htoken]
      split
      · next hc => exact (if_pos (t := i ∈ w.ready) hc) ▸ h
      · next hc =>
        rw [if_neg hc] at h
        exact List.mem_append_left _ h
    · rw [if_neg hx] at htoken
      exact h.kept htoken fun hready => hready

theorem alerts_unlisten (w : World) (token : Option String) (j : JobId) :
    Alerts (some j) w (w.unlisten token j) := by
  refine ⟨fun {i x} hi h => ?_⟩
  cases token with
  | none => exact h
  | some name =>
    have htoken := token_setToken w name x
      { w.token name with waiters := (w.token name).waiters.filter (· != j) }
    by_cases hx : x = name
    · subst hx
      rw [if_pos rfl] at htoken
      rw [Heeds] at h
      rw [Heeds, unlisten, htoken]
      split
      · next hc => exact (if_pos (t := i ∈ w.ready) hc) ▸ h
      · next hc =>
        rw [if_neg hc] at h
        refine List.mem_filter.2 ⟨h, ?_⟩
        rw [bne_iff_ne]
        exact fun heq => hi (congrArg some heq)
    · rw [if_neg hx] at htoken
      exact h.kept htoken fun hready => hready

theorem Deed.alerts (hd : Deed w w') : Alerts none w w' := by
  have hready := hd.mild.ready
  cases hd with
  | scripted | named | queueMade | withheld | observed | answered | watched | begun =>
    exact .of_tokens rfl hready
  | requested q op token => exact .of_tokens (tokens_request w q op token) hready
  | cancelled name => exact alerts_cancel w name
  | disposed =>
    obtain ⟨history, manager, heq, -⟩ := disposeManager_eq w
    exact .of_tokens (by rw [heq]) hready
  | abandoned name j hj =>
    refine .of_tokens ?_ hready
    rcases abandonJob_eq w j with heq | ⟨ready, heq⟩ <;> rw [heq]

theorem Deeds.alerts (hd : Deeds w w') : Alerts none w w' := by
  induction hd with
  | refl => exact .refl w
  | tail _ hd ih => exact ih.trans hd.alerts

theorem Touch.alerts (ht : Touch K i w w') : Alerts (some i) w w' := by
  have hready := ht.spares.ready
  cases ht with
  | noted | numbered | guardTaken | lineJoined | lineLeft | begun | ended | called | noticed
  | unseated | withheld | turnSet | moved | timerSet | timerCleared | leftOpen =>
    exact .of_tokens rfl hready
  | guardReleased =>
    refine .of_tokens ?_ hready
    obtain ⟨ready, heq⟩ := releaseGuard_eq w
    rw [heq]
  | listened token => exact (alerts_listen w token i).weaken _
  | unlistened token => exact alerts_unlisten w token i
  | @acted site h hh a ha =>
    exact (Deeds.alerts ((perform_deeds w a).tail (.answered site _))).weaken (some i)
  | resolved o => exact .of_tokens (tokens_resolve w _ o) hready
  | received hr =>
    refine .of_tokens ?_ hready
    unfold receive? at hr
    split at hr
    · obtain ⟨rfl, -⟩ := Prod.mk.inj (Option.some.inj hr)
      rfl
    · exact absurd hr (by simp)
  | seated e => exact .of_tokens (takeSeat_tokens w e _) hready
  | @asked name folder token q =>
    refine .of_tokens ?_ hready
    exact (takeSeat_tokens _ _ _).trans (tokens_request (w.withhold q true) q _ _)

theorem Touches.alerts (ht : Touches K i w w') : Alerts (some i) w w' := by
  induction ht with
  | refl => exact .refl w
  | tail _ ht ih => exact ih.trans ht.alerts

/-- **A turn leaves all jobs but its own to their tokens**, whatever the callbacks do. -/
theorem turn_alerts (w : World) (i : JobId) : Alerts (some i) w (w.turn i) :=
  (turn_touches (K := fun _ => True) fun h _ => h.within_of_forall fun _ => trivial).alerts

theorem instant_alerts (w : World) {s : Step} (h : s.isInstant) : Alerts none w (w.step s).1 := by
  have hready := (instant_spares w h).ready
  cases s with
  | act a => exact Deeds.alerts (perform_deeds w a)
  | settle | advance | await => exact Bool.noConfusion h
  | addFolder folder =>
    refine .of_tokens ?_ hready
    simp only [step, addFolder]
    split <;> rfl
  | removeFolder folder =>
    refine .of_tokens ?_ hready
    simp only [step, removeFolder]
    split <;> rfl
  | folders | toolchain => exact .refl w
  | find folder =>
    simp only [step]
    split <;> exact .refl w
  | run folder action token handle =>
    simp only [step]
    split
    · exact Deeds.alerts (requestNamed_deeds ..)
    · exact .refl w
  | tasks folder products =>
    simp only [step]
    split <;> exact .refl w
  | dispose => exact (Deed.disposed (w := w)).alerts.trans (.of_tokens rfl fun _ h => h)

end Alerts

/-! ## The job whose turn it is -/

section Own

variable {w : World} {call : Call} {errand errand' : Errand} {id : TaskId} {p : Position}
  {e : Execution} {j : JobId}

/-- **A piece of an execution that leaves its job waiting for the end** leaves it to its token. -/
def Heedful (call : Call) (r : World × Progress) : Prop :=
  r.2 = .paused → ∀ {errand : Errand} {id : TaskId} {e : Execution},
    r.1.At call.job errand (.running id e) → ∀ x, call.token = some x → r.1.Heeds call.job x

theorem heeding_of_ne {r : World × Progress} (h : r.2 ≠ .paused) : Heedful call r :=
  fun hr => absurd hr h

/-- Whoever does not wait for an execution need not heed anything. -/
theorem heeding_of_at {r : World × Progress} (hat : r.1.At call.job errand p)
    (hp : ∀ id e, p ≠ .running id e) : Heedful call r :=
  fun _ _ id e hrunning => absurd (hat.unique hrunning).2 (hp id e)

theorem heeds_listen {x : String} (hc : w.isCancelled call.token = false)
    (hx : call.token = some x) : (w.listen call.token call.job).Heeds call.job x := by
  rw [hx] at hc ⊢
  have htoken := token_setToken w x x
    { w.token x with waiters := (w.token x).waiters ++ [call.job] }
  rw [if_pos rfl] at htoken
  refine heeds_of_waiting ?_ ?_
  · rw [listen, htoken]
    exact hc
  · rw [listen, htoken]
    exact List.mem_append_right _ (List.mem_singleton.2 rfl)

theorem conclude_heeding (w : World) (call : Call) (id : TaskId) (code : Option Int32)
    (o : Outcome) : Heedful call (w.conclude call id code o) := by
  refine heeding_of_ne ?_
  simp only [conclude]
  split <;> simp

theorem follow_heeding (w : World) (call : Call) (id : TaskId) (e : Execution) :
    Heedful call (w.follow call id e) := by
  unfold follow
  split
  · exact conclude_heeding _ call id _ _
  · split
    · exact conclude_heeding _ call id _ _
    · next hcalm =>
      intro _ _ _ _ _ x hx
      exact heeds_listen (w := w.setTimer e.deadline call.job) (Bool.eq_false_iff.2 hcalm) hx

theorem launch_heeding (w : World) (call : Call) (id : TaskId) :
    Heedful call (w.launch call id) := by
  unfold launch
  split
  · exact heeding_of_ne (by simp)
  · dsimp only
    split
    · exact heeding_of_ne (by simp)
    · exact follow_heeding _ call id _

theorem begin_heeding (h : w.ServesAt call errand (.inLine id)) :
    Heedful call (w.begin call id) := by
  have hserves := h.asksStart
  unfold begin
  split
  · exact heeding_of_ne (by simp [cancelBeforeStart])
  · dsimp only
    split
    · exact launch_heeding _ call id
    · exact heeding_of_at hserves.1 (by simp)

theorem enter_heeding (h : w.ServesAt call errand .fresh) : Heedful call (w.enter call) := by
  unfold enter
  split
  · exact heeding_of_ne (by simp)
  · dsimp only
    split
    · exact begin_heeding h.takesGuard
    · split
      · exact heeding_of_ne (by simp [cancelBeforeStart])
      · next hcalm =>
        intro _ _ _ _ _ x hx
        exact heeds_listen (w := (((w.takeNumber call.job).note (.waitsToStart w.nextId)).joinLine
          call.job).setPosition call.job (.inLine w.nextId)) (Bool.eq_false_iff.2 hcalm) hx

theorem proceedInLine_heeding (h : w.ServesAt call errand (.inLine id)) :
    Heedful call (w.proceedInLine call id) := by
  unfold proceedInLine
  split
  · exact begin_heeding h.unlisten
  · split
    · exact heeding_of_ne (by simp [cancelBeforeStart])
    · exact heeding_of_at h.1 (by simp)

theorem proceedStarting_heeding (h : w.ServesAt call errand (.starting id)) :
    Heedful call (w.proceedStarting call id) := by
  unfold proceedStarting
  split
  · exact heeding_of_at h.1 (by simp)
  · exact launch_heeding w call id

/-- A job that goes on waiting for its execution heeds its token as before. -/
theorem proceedRunning_heeding (hheeds : ∀ x, call.token = some x →
      (w.token x).isCancelled = false → w.Heeds call.job x) :
    Heedful call (w.proceedRunning call id e) := by
  unfold proceedRunning
  split
  · exact conclude_heeding _ call id _ _
  · split
    · exact conclude_heeding _ call id _ _
    · next hcalm =>
      intro _ _ _ _ _ x hx
      refine hheeds x hx ?_
      rw [hx] at hcalm
      exact Bool.eq_false_iff.2 hcalm

theorem proceed_heeding (h : w.ServesAt call errand p) (hheeds : ∀ id e, p = .running id e →
      ∀ x, call.token = some x → (w.token x).isCancelled = false → w.Heeds call.job x) :
    Heedful call (w.proceed call) := by
  unfold proceed
  rw [h.1.position_eq]
  cases p with
  | fresh => exact enter_heeding h
  | inLine id => exact proceedInLine_heeding h
  | starting id => exact proceedStarting_heeding h
  | running id e => exact proceedRunning_heeding (hheeds id e rfl)
  | telling | awaiting | done => exact heeding_of_at h.1 (by simp)

theorem goOn_heeds {entry : Entry} {i : EntryId} (h : w.ServesAt call (.operation i) p)
    (hheeds : ∀ id e, p = .running id e → ∀ x, call.token = some x →
      (w.token x).isCancelled = false → w.Heeds call.job x)
    (hat : (w.goOn call i entry).At call.job errand' (.running id e)) {x : String}
    (hx : call.token = some x) : (w.goOn call i entry).Heeds call.job x := by
  have hheeding := proceed_heeding h hheeds
  unfold goOn at hat ⊢
  rcases hr : w.proceed call with ⟨w₁, _ | result | _⟩ <;> rw [hr] at hat hheeding
  · exact hheeding rfl hat x hx
  · unfold concludeOperation at hat
    exact absurd (at_endJob hat) (by simp)
  · exact absurd (at_endJob hat) (by simp)

/-- **A job that waits for its execution after its turn heeds its token**, if it did so before. -/
theorem turnJob_heeds (hw : Arises w) (hserves : w.ServesAt call errand p)
    (hheeds : ∀ id e, p = .running id e → ∀ x, call.token = some x →
      (w.token x).isCancelled = false → w.Heeds call.job x)
    (hat : (w.turnJob call.job errand).At call.job errand' (.running id e)) {x : String}
    (hx : call.token = some x) : (w.turnJob call.job errand).Heeds call.job x := by
  cases errand with
  | reset | watch | reopen => exact absurd hserves.2 (by simp [callOf?])
  | operation i =>
    change (w.turnOperation call.job i).At _ _ _ at hat
    change (w.turnOperation call.job i).Heeds _ _
    obtain ⟨entry, call', he, hjob, hserves', ⟨-, heq⟩ | ⟨rfl, w₁, panicked, hr, heq⟩⟩ :=
      turnOperation_cases hw.isOrderly hserves.1
    all_goals
      obtain rfl : call = call' := Option.some.inj (hserves.2.symm.trans (hjob ▸ hserves'.2))
      rw [heq] at hat ⊢
    · exact goOn_heeds hserves' hheeds hat hx
    · have hserves₁ := (reportAll_works (.inl rfl)
        (entry.operation.startCalls (w.queueName entry.queue)) hserves').2
      rw [hr] at hserves₁
      cases panicked with
      | true => exact absurd (at_endJob hat) (by simp)
      | false => exact goOn_heeds hserves₁ (fun id e hfresh => absurd hfresh (by simp)) hat hx
  | execution name command token =>
    obtain ⟨j, command', token'⟩ := call
    obtain ⟨-, rfl, rfl⟩ := Call.mk.inj (Option.some.inj hserves.2)
    have hheeding := proceed_heeding hserves hheeds
    simp only [turnJob, turnExecution] at hat ⊢
    rcases hr : w.proceed ⟨j, command, token⟩ with ⟨w₁, _ | (f | o) | _⟩ <;>
      rw [hr] at hat hheeding
    · exact hheeding rfl hat x hx
    all_goals exact absurd (at_endJob hat) (by simp)

end Own

/-! ## Between turns -/

section Between

variable {O : List Origin} {w w' : World} {j : JobId}

/-- A job has had its errand before its turn. -/
theorem Arises.at_back_of_turn (hw : Arises w) (hj : j ∈ w.ready) {errand : Errand} {p : Position}
    (hat : (w.takeTurn j).At j errand p) : ∃ p₀, w.At j errand p₀ := by
  cases hjob : w.jobs[j]? with
  | none =>
    have hgone : ({ w with ready := w.ready.erase j } : World).jobs[j]? = none := hjob
    unfold takeTurn turn at hat
    rw [hgone] at hat
    obtain ⟨given, hat⟩ := hat
    exact absurd (hgone.symm.trans hat) (by simp)
  | some job =>
    have hold : w.At j job.errand job.position := ⟨job.isAbandoned, hjob⟩
    obtain ⟨p', hforth⟩ := hw.at_forth (takeTurn_works hj).changes hold
    exact ⟨job.position, (hat.unique hforth).1 ▸ hold⟩

/-- **How a turn goes**: the job is over afterwards, or it was left to its errand. -/
theorem takeTurn_cases {errand : Errand} {p : Position} (hat : w.At j errand p) :
    (∀ {errand' : Errand} {p' : Position}, (w.takeTurn j).At j errand' p' → p' = .done) ∨
      w.takeTurn j = { ({ w with ready := w.ready.erase j, current := some j } : World).turnJob j
        errand with current := none } := by
  obtain ⟨given, hj⟩ := hat
  have hj' : ({ w with ready := w.ready.erase j } : World).jobs[j]? = some ⟨errand, p, given⟩ := hj
  unfold takeTurn turn
  rw [hj']
  dsimp only
  by_cases hdone : p = .done
  · rw [if_pos hdone]
    exact .inl fun hat' => (At.unique hat' ⟨given, hj'⟩).2.trans hdone
  · rw [if_neg hdone]
    cases given with
    | true => exact .inl fun hat' => at_endJob hat'
    | false =>
      rw [if_neg Bool.false_ne_true]
      rcases discardIfAbandoned_cases (({ w with
          ready := w.ready.erase j, current := some j } : World).turnJob j errand) j with
        hstays | hdropped
      · rw [hstays]
        exact .inr rfl
      · exact .inl fun hat' => hdropped hat'

/-- A running job that is spared was running before, with the same call. -/
theorem Spares.running_back {i : Option JobId} (hs : Spares i w w') (hw : Arises w)
    (hl : Lasts O w w') {call : Call} {errand : Errand} {id : TaskId} {e : Execution}
    (hi : some call.job ≠ i) (h : w'.ServesAt call errand (.running id e)) :
    w.ServesAt call errand (.running id e) := by
  rcases hs.back hi h.1 with hat | ⟨hfresh, -⟩
  · exact ⟨hat, hat.callOf?_back hw.isOrderly hl h.2⟩
  · exact absurd hfresh (by simp)

theorem IsHeeded.spared (h : w.IsHeeded) (hw : Arises w) (hl : Lasts O w w')
    (hs : Spares none w w') (ha : Alerts none w w') : w'.IsHeeded := by
  intro call errand id e x hserves hx
  exact ha.heeds (by simp) (h (hs.running_back hw hl (by simp) hserves) hx)

/-- What the user does between two turns leaves running jobs to their tokens. -/
theorem instant_isHeeded (h : w.IsHeeded) (hw : Arises w) {s : Step} (hs : s.isInstant) :
    (w.step s).1.IsHeeded :=
  h.spared hw (hw.lasts_changes (instant_changes w hs)) (instant_spares w hs) (instant_alerts w hs)

/-- **A turn leaves all running jobs to their tokens.** -/
theorem takeTurn_isHeeded (h : w.IsHeeded) (hw : Arises w) (hj : j ∈ w.ready) :
    (w.takeTurn j).IsHeeded := by
  have hspares := turn_spares { w with ready := w.ready.erase j } j
  have halerts := turn_alerts { w with ready := w.ready.erase j } j
  have hlasts := hw.lasts_changes (takeTurn_works hj).changes
  intro call errand id e x hserves hx
  by_cases hij : call.job = j
  · subst hij
    obtain ⟨p, hold⟩ := hw.at_back_of_turn hj hserves.1
    have hserves₀ : w.ServesAt call errand p :=
      ⟨hold, hold.callOf?_back hw.isOrderly hlasts hserves.2⟩
    rcases takeTurn_cases hold with hover | hturned
    · exact absurd (hover hserves.1) (by simp)
    · have hset : Arises { w with ready := w.ready.erase call.job, current := some call.job } :=
        (hw.change (.drift (.turnTaken call.job hj))).change (.drift (.turnSet _))
      have hat := hserves.1
      rw [hturned] at hat ⊢
      refine turnJob_heeds hset hserves₀ ?_ hat hx
      -- Between turns the job heeded its token, whatever turns were coming.
      intro id' e' hposition x' hx' hcalm
      have hcalm' : (w.token x').isCancelled = false := hcalm
      have hheeds := h (hposition ▸ hserves₀) hx'
      rw [Heeds, if_neg (by simp [hcalm'])] at hheeds
      exact heeds_of_waiting hcalm hheeds
  · have hne : some call.job ≠ some j := fun heq => hij (Option.some.inj heq)
    have htaken : Arises { w with ready := w.ready.erase j } := hw.change (.drift (.turnTaken j hj))
    have hserves₀ := hspares.running_back htaken (htaken.lasts_changes (turn_works _ j).changes) hne
      hserves
    refine halerts.heeds hne ?_
    have hheeds : w.Heeds call.job x := h hserves₀ hx
    exact hheeds.kept rfl fun hready => (List.mem_erase_of_ne hij).2 hready

theorem spares_fire (w : World) (t : Timer) : Spares none { w with
    clock := max w.clock t.deadline
    timers := w.timers.dropWhile fun u => u.deadline ≤ t.deadline } (w.fire t) :=
  spares_wakeAll _ _

/-- A timer leaves all running jobs to their tokens. -/
theorem fire_isHeeded (h : w.IsHeeded) (hw : Arises w) {t : Timer} (ht : t ∈ w.timers) :
    (w.fire t).IsHeeded := by
  have hlasts := hw.lasts_changes (Transition.fire t ht).changes
  have hspares := spares_fire w t
  obtain ⟨timers, ready, heq⟩ := fire_eq w t
  intro call errand id e x hserves hx
  rcases hspares.back (by simp) hserves.1 with hat | ⟨hfresh, -⟩
  · have hserves₀ : w.ServesAt call errand (.running id e) :=
      ⟨hat, At.callOf?_back hw.isOrderly hlasts hat hserves.2⟩
    refine (h hserves₀ hx).kept ?_ (hspares.ready call.job)
    rw [heq]
    rfl
  · exact absurd hfresh (by simp)

theorem tokens_receive? {e : EntryId} {o : Outcome} (hr : w.receive? e = some (w', o)) :
    w'.tokens = w.tokens := by
  unfold receive? at hr
  split at hr
  · obtain ⟨rfl, -⟩ := Prod.mk.inj (Option.some.inj hr)
    rfl
  · exact absurd hr (by simp)

theorem Transition.isHeeded (t : Transition w w') (hw : Reachable w) (h : w.IsHeeded) :
    w'.IsHeeded := by
  have hl := hw.arises.lasts_changes t.changes
  cases t with
  | act s hs => exact instant_isHeeded h hw.arises hs
  | turn j hj => exact takeTurn_isHeeded h hw.arises hj
  | fire t ht => exact fire_isHeeded h hw.arises ht
  | pass => exact h
  | leave => exact h.spared hw.arises hl (.of_eq rfl rfl rfl rfl) (.of_tokens rfl fun _ h => h)
  | sit e =>
    exact h.spared hw.arises hl (spares_takeSeat w e _)
      (.of_tokens (takeSeat_tokens w e _) (spares_takeSeat (j := none) w e _).ready)
  | receive e o hr =>
    exact h.spared hw.arises hl (spares_receive? hr)
      (.of_tokens (tokens_receive? hr) (spares_receive? (j := none) hr).ready)

/-- **Running jobs heed their tokens**, whatever happens. -/
theorem Reachable.isHeeded (hw : Reachable w) : w.IsHeeded := by
  induction hw with
  | new s =>
    rintro call errand id e x ⟨⟨given, hj⟩, -⟩
    exact absurd hj (by simp [Setting.world])
  | next hw t ih => exact t.isHeeded hw ih

end Between

end FolderTasks.Dispatch.World
