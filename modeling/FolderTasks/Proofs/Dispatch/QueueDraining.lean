import FolderTasks.Proofs.Dispatch.QueueProgress
import FolderTasks.Proofs.Dispatch.RemainingStages
import FolderTasks.Proofs.Dispatch.HandleOutcomes
import Mathlib.Data.Prod.Lex
/-!
# Every run drains

When nothing more is asked for, the jobs take their turns, the clock moves on from timer to timer,
and after finitely many moves nothing is left to do.  Every queue is idle then, every handle has its
outcome, and nobody waits for the right to start: queues that have only this right in common never
keep each other waiting for ever.

## Main definitions

* `World.Move`, `World.Advances`: the moves that can be made, in any order of the turns.
* `World.AsksNoMore`: no move ever asks for more.
* `World.IsAtRest`: nothing is left to do, and all that was asked for is over.
* `World.Drains`: all moves come to an end in such a world.

## Main statements

* `World.CalledBy.asksNoMore`: callbacks that ask for nothing are enough for that.
* `World.Reachable.drains`: every run drains when nothing more is asked for.
-/

namespace FolderTasks.Dispatch

/-- Does an action ask for something to be executed? -/
def Action.asks : Action → Bool
  | .request _ _ _ _ | .execute _ _ _ | .reset _ _ _ => true
  | _ => false

/-- A hook asks for nothing. -/
def Hook.AsksNothing (h : Hook) : Prop := ∀ a ∈ h.actions, a.asks = false

namespace World

/-- **One move**: a job that has a turn coming takes it, or, when no job has one, the clock moves to
the first timer. -/
inductive Move : World → World → Prop where
  | turn {w : World} (j : JobId) (h : j ∈ w.ready) : Move w (w.takeTurn j)
  | fire {w : World} (t : Timer) (rest : List Timer) (hready : w.ready = [])
      (h : w.timers = t :: rest) : Move w (w.fire t)

/-- Any number of moves. -/
abbrev Advances : World → World → Prop := Relation.ReflTransGen Move

/-- **Nothing more is asked for**, whatever moves are made: no entry is made and no job is begun
that executes something, but for the operations that resets are going to request which were asked
for before. -/
def AsksNoMore (w : World) : Prop := ∀ {w' : World}, Advances w w' → w'.demands ≤ w.demands

/-- **Nothing is left to do**, and all that was asked for is over. -/
structure IsAtRest (w : World) : Prop where
  ready : w.ready = []
  timers : w.timers = []
  idle : ∀ q < w.queues.length, (w.view q).isIdle
  /-- Whoever awaits an entry gets an outcome. -/
  resolved : ∀ e < w.entries.length, ∃ o, (w.awaitOutcome e).2 = .outcome (some o)
  /-- So does whoever awaits a handle. -/
  handles : ∀ p ∈ w.names.handles, ∃ o, (w.awaitOutcome p.2).2 = .outcome (some o)
  guard : w.manager.guard = {}
  /-- Nobody waits for the right to start. -/
  unwaited : ∀ {j : JobId} {errand : Errand} {id : TaskId}, ¬ w.At j errand (.inLine id)
  /-- Whatever executes a command is over. -/
  calls : ∀ {j : JobId} {errand : Errand} {p : Position}, w.At j errand p → errand.isCall →
    p = .done

/-- **Everything comes to an end**: no moves go on for ever, where no move is left everything is
over, and so it is after a run that is given moves and time enough. -/
structure Drains (w : World) : Prop where
  ends : Acc (flip Move) w
  rests : ∀ {w' : World}, Advances w w' → (∀ {w'' : World}, ¬ Move w' w'') → w'.IsAtRest
  run : ∃ limit fuel, ∀ limit' ≥ limit, ∀ fuel' ≥ fuel, (runUntil limit' fuel' w).IsAtRest

section Draining

variable {w w' : World}

/-! ## What is asked for -/

theorem demands_of_eq (hjobs : w'.jobs = w.jobs) (hholdings : w'.holdings = w.holdings) :
    w'.demands = w.demands := by
  have hentries : w'.entries.length = w.entries.length := congrArg Prod.fst hholdings
  rw [demands, demands, total_of_jobs _ hjobs, hentries]

theorem demands_spawn (w : World) {errand : Errand} (h : errand.demand .fresh = 0) :
    (w.spawn errand).1.demands = w.demands := by
  rw [demands, demands, total_spawn, h]
  rfl

/-- A job that moves on has asked for no more than before. -/
theorem demand_le (errand : Errand) {p' : Position} (hp : p' ≠ .fresh) (p : Position) :
    errand.demand p' ≤ errand.demand p := by
  cases errand with
  | reset name folder token =>
    cases p' with
    | fresh => exact absurd rfl hp
    | _ => cases p <;> simp [Errand.demand]
  | operation | execution | watch | reopen => exact Nat.le_refl _

theorem demands_setPosition (w : World) (j : JobId) {p' : Position} (hp : p' ≠ .fresh) :
    (w.setPosition j p').demands ≤ w.demands := by
  have hentries : (w.setPosition j p').entries.length = w.entries.length := rfl
  cases hj : w.jobs[j]? with
  | none =>
    have hjobs : (w.setPosition j p').jobs = w.jobs :=
      List.modify_eq_self (List.getElem?_eq_none_iff.1 hj)
    exact (demands_of_eq hjobs rfl).le
  | some job =>
    have htotal := total_setPosition Errand.demand (w := w) (p := job.position)
      ⟨job.isAbandoned, hj⟩ p'
    have hle := demand_le job.errand hp job.position
    unfold demands
    omega

theorem demands_dispatch (w : World) (q : QueueId) : (w.dispatch q).demands = w.demands := by
  have hentries : (w.dispatch q).entries.length = w.entries.length := by rw [dispatch_entries]
  have htotal : (w.dispatch q).total Errand.demand = w.total Errand.demand := by
    rcases dispatch_eq w q with heq | ⟨queue, e, rest, -, -, -, heq⟩ <;> rw [heq]
    simp [total, Errand.demand]
  rw [demands, demands, hentries, htotal]

/-- A request asks for one operation at most. -/
theorem demands_request (w : World) (q : QueueId) (op : Operation) (token : Option String) :
    (w.request q op token).1.demands ≤ w.demands + 1 := by
  rcases request_eq w q op token with heq | ⟨queue, e, -, -, heq⟩ | ⟨queue, -, -, heq⟩ <;> rw [heq]
  · exact Nat.le_succ _
  · exact Nat.le_succ _
  · rw [demands_dispatch]
    have hentries : (w.append q queue op token).1.entries.length = w.entries.length + 1 :=
      List.length_append
    have htotal : (w.append q queue op token).1.total Errand.demand = w.total Errand.demand :=
      total_of_jobs _ rfl
    unfold demands
    omega

theorem demands_deliver (w : World) (e : EntryId) (o : Outcome) :
    (w.deliver e o).demands = w.demands := by
  refine demands_of_eq ?_ (by simp)
  rcases deliver_eq w e o with heq | ⟨ready, heq⟩
  · rw [heq]
  · rw [heq]
    rfl

theorem demands_resolve (w : World) (e : EntryId) (o : Outcome) :
    (w.resolve e o).demands = w.demands := by
  unfold resolve
  split
  · rfl
  · exact (demands_deliver _ e o).trans (demands_dispatch _ _)

/-- An action that asks for nothing. -/
theorem demands_perform (w : World) {a : Action} (ha : a.asks = false) :
    (w.perform a).1.demands = w.demands := by
  have hrequest : a.isRequest = false := by
    cases a <;> first | rfl | exact Bool.noConfusion ha
  have hholdings := holdings_perform w hrequest
  have hof (hjobs : (w.perform a).1.jobs = w.jobs) : (w.perform a).1.demands = w.demands :=
    demands_of_eq hjobs hholdings
  cases a with
  | script args s startDelay => cases startDelay <;> exact hof rfl
  | makeQueue | countObservers | inspectManager | listRecords | undecodable | unknown =>
    exact hof rfl
  | request | execute | reset => exact Bool.noConfusion ha
  | cancel token =>
    refine hof ?_
    obtain ⟨tokens, ready, heq⟩ := cancel_eq w token
    change (w.cancel token).jobs = _
    rw [heq]
  | withhold queue value =>
    refine hof ?_
    simp only [perform, withQueue]
    split <;> rfl
  | peek handle =>
    refine hof ?_
    simp only [perform, withHandle]
    split <;> rfl
  | describe | compare =>
    refine hof ?_
    simp only [perform, withHandle]
    split
    · split <;> rfl
    · rfl
  | watch handle =>
    simp only [perform, withHandle]
    split
    · exact demands_spawn w rfl
    · rfl
  | observe name kind hooks =>
    refine hof ?_
    simp only [perform, observe]
    cases kind <;> split <;> rfl
  | unobserve name =>
    refine hof ?_
    simp only [perform]
    split <;> rfl
  | disposeManager =>
    refine hof ?_
    obtain ⟨history, manager, heq, -⟩ := disposeManager_eq w
    change w.disposeManager.jobs = _
    rw [heq]
  | abandon name =>
    simp only [perform]
    split
    · rfl
    · next j _ =>
      have htotal : (w.abandonJob j).1.total Errand.demand = w.total Errand.demand := by
        rcases abandonJob_eq w j with heq | ⟨ready, heq⟩ <;> rw [heq]
        have hsame := map_modify (g := fun job : Job => job.errand.demand job.position) (k := id)
          (f := fun job => { job with isAbandoned := true }) (fun _ => rfl) w.jobs j
        rw [List.modify_id] at hsame
        exact congrArg List.sum hsame
      rw [abandonJob_names]
      exact congrArg₂ (· + ·) (congrArg Prod.fst (holdings_abandonJob w j)) htotal

theorem Touch.demands_le {j : JobId} (ht : Touch Hook.AsksNothing j w w') :
    w'.demands ≤ w.demands := by
  cases ht with
  | noted | numbered | guardTaken | lineJoined | lineLeft | timerSet | timerCleared
  | begun | ended | called | noticed | withheld | turnSet => exact Nat.le_refl _
  | moved hp => exact demands_setPosition w j hp
  | guardReleased =>
    refine (demands_of_eq ?_ (by simp)).le
    obtain ⟨ready, heq⟩ := releaseGuard_eq w
    rw [heq]
  | listened token =>
    refine (demands_of_eq ?_ (by simp)).le
    obtain ⟨tokens, heq⟩ := listen_eq w token j
    rw [heq]
  | unlistened token =>
    refine (demands_of_eq ?_ (by simp)).le
    obtain ⟨tokens, heq⟩ := unlisten_eq w token j
    rw [heq]
  | acted site hh ha => exact (demands_perform w (hh.holds _ ha)).le
  | resolved o => exact (demands_resolve w _ o).le
  | received hr => exact (demands_of_eq (jobs_receive? hr) (holdings_receive? hr)).le
  | seated e => exact (demands_of_eq (jobs_takeSeat w e _) (by simp)).le
  | unseated e seat =>
    have hdemands : (w.leaveSeat e seat).demands = w.demands :=
      demands_of_eq rfl (holdings_leaveSeat w e seat)
    exact hdemands.le
  | @asked name folder token q hat =>
    -- The reset has been charged for its operation when it was asked for.
    let op := PackageAction.reset.operation w.toolchain folder
    have hrequested := demands_request (w.withhold q true) q op token
    have hcharged {v : World} (hv : v.demands ≤ w.demands + 1)
        (hat : v.At j (.reset name folder token) .fresh) (e : EntryId) (seat : Nat) :
        (v.setPosition j (.awaiting e seat)).demands ≤ w.demands := by
      have hentries : (v.setPosition j (.awaiting e seat)).entries.length = v.entries.length := rfl
      have htotal := total_setPosition Errand.demand hat (.awaiting e seat)
      rw [show Errand.demand (.reset name folder token) .fresh = 2 from rfl,
        show Errand.demand (.reset name folder token) (.awaiting e seat) = 1 from rfl] at htotal
      unfold demands at hv ⊢
      omega
    refine hcharged ?_ ?_ _ _
    · exact (demands_of_eq (jobs_takeSeat _ _ _) (holdings_takeSeat _ _ _)).le.trans hrequested
    · have hmild := (mild_withhold (O := [.deed]) w q true).trans
        (mild_request _ q op token (by simp))
      exact (mild_takeSeat (O := [.deed]) _ _ _).stays (hmild.stays hat)
  | leftOpen q => exact (demands_spawn w rfl).le

theorem Touches.demands_le {j : JobId} (ht : Touches Hook.AsksNothing j w w') :
    w'.demands ≤ w.demands := by
  induction ht with
  | refl => exact Nat.le_refl _
  | tail _ ht ih => exact ht.demands_le.trans ih

/-! ## Moves -/

theorem Move.transition (hm : Move w w') : Transition w w' := by
  cases hm with
  | turn j h => exact .turn j h
  | fire t rest hready h => exact .fire t (by rw [h]; exact List.mem_cons_self)

theorem Reachable.advances (hw : Reachable w) (hm : Advances w w') : Reachable w' := by
  induction hm with
  | refl => exact hw
  | tail _ hm ih => exact ih.next hm.transition

theorem Move.calledBy {K : Hook → Prop} (hm : Move w w') (h : w.CalledBy K) : w'.CalledBy K := by
  cases hm with
  | turn j hj =>
    have htaken : ({ w with ready := w.ready.erase j } : World).CalledBy K := h
    exact (turn_touches htaken).calledBy htaken
  | fire t rest hready ht =>
    obtain ⟨timers, ready, heq⟩ := fire_eq w t
    rw [heq]
    exact h

theorem Move.demands_le (hm : Move w w') (h : w.CalledBy Hook.AsksNothing) :
    w'.demands ≤ w.demands := by
  cases hm with
  | turn j hj =>
    have htaken : ({ w with ready := w.ready.erase j } : World).CalledBy Hook.AsksNothing := h
    exact (turn_touches htaken).demands_le
  | fire t rest hready ht =>
    obtain ⟨timers, ready, heq⟩ := fire_eq w t
    rw [heq]
    exact Nat.le_refl _

/-- **Where callbacks ask for nothing, nothing more is asked for.** -/
theorem CalledBy.asksNoMore (h : w.CalledBy Hook.AsksNothing) : w.AsksNoMore := by
  intro w' hm
  suffices w'.CalledBy Hook.AsksNothing ∧ w'.demands ≤ w.demands from this.2
  induction hm with
  | refl => exact ⟨h, Nat.le_refl _⟩
  | tail _ hm ih => exact ⟨hm.calledBy ih.1, (hm.demands_le ih.1).trans ih.2⟩

theorem length_ready_wakeAll (js : List JobId) (w : World) :
    (w.wakeAll js).ready.length ≤ w.ready.length + js.length := by
  induction js generalizing w with
  | nil => exact Nat.le_refl _
  | cons j js ih =>
    have hrest := ih (w.wake j)
    have hwake : (w.wake j).ready.length ≤ w.ready.length + 1 := by
      unfold wake
      split
      · exact Nat.le_succ _
      · rw [List.length_append, List.length_singleton]
    rw [List.length_cons]
    exact hrest.trans (by omega)

/-- When the clock moves, fewer timers are left, and at most their jobs have a turn coming. -/
theorem length_fire {t : Timer} {rest : List Timer} (hready : w.ready = [])
    (ht : w.timers = t :: rest) :
    (w.fire t).ready.length + 2 * (w.fire t).timers.length <
      w.ready.length + 2 * w.timers.length := by
  generalize hdue : (w.timers.takeWhile fun u => u.deadline ≤ t.deadline) = due
  generalize hleft : (w.timers.dropWhile fun u => u.deadline ≤ t.deadline) = left
  have hsplit : due.length + left.length = w.timers.length := by
    rw [← hdue, ← hleft, ← List.length_append, List.takeWhile_append_dropWhile]
  have hpos : 0 < due.length := by
    rw [← hdue, ht, List.takeWhile_cons_of_pos (by simp)]
    exact Nat.succ_pos _
  have htimers : (w.fire t).timers = left := by
    unfold fire
    dsimp only
    obtain ⟨ready, heq⟩ := wakeAll_eq (due.map Timer.job)
      { w with clock := max w.clock t.deadline, timers := left }
    rw [hdue, hleft, heq]
  have hwoken := length_ready_wakeAll (due.map Timer.job)
    { w with clock := max w.clock t.deadline, timers := left }
  rw [List.length_map] at hwoken
  have hfired : (w.fire t).ready.length ≤ w.ready.length + due.length := by
    unfold fire
    dsimp only
    rw [hdue, hleft]
    exact hwoken
  rw [htimers]
  rw [hready, List.length_nil] at hfired ⊢
  omega

theorem suspense_fire (w : World) (t : Timer) : (w.fire t).suspense = w.suspense := by
  obtain ⟨timers, ready, heq⟩ := fire_eq w t
  rw [heq]
  rfl

theorem pays_fire (w : World) (t : Timer) : Pays 0 w (w.fire t) := by
  obtain ⟨timers, ready, heq⟩ := fire_eq w t
  rw [heq]
  exact pays_of_eq rfl rfl rfl

/-- **What a move costs**: labour, or suspense, or a place in the line of jobs or of timers, where
the place of a timer counts more than that of the job which it wakes. -/
theorem Move.pays (hm : Move w w') (hw : Reachable w) :
    Pays 1 w w' ∨ Pays 0 w w' ∧ (w'.suspense < w.suspense ∨ w'.suspense = w.suspense ∧
      w'.ready.length + 2 * w'.timers.length < w.ready.length + 2 * w.timers.length) := by
  cases hm with
  | turn j hj =>
    refine (takeTurn_pays hw.arises hw.isAttended hj).imp_right (And.imp_right (Or.imp_right ?_))
    rintro ⟨hsuspense, htimers, hready⟩
    exact ⟨hsuspense, by rw [htimers]; omega⟩
  | fire t rest hready ht =>
    exact .inr ⟨pays_fire w t, .inr ⟨suspense_fire w t, length_fire hready ht⟩⟩

/-- **No moves go on for ever** when nothing more is asked for. -/
theorem Reachable.acc (hw : Reachable w) (hq : w.AsksNoMore) : Acc (flip Move) w := by
  -- What is asked for stays below what it is now, so what a move costs is well-founded.
  suffices ∀ cost : Nat ×ₗ Nat ×ₗ Nat, ∀ {v : World}, Advances w v →
      toLex (v.labour + 8 * (w.demands - v.demands),
        toLex (v.suspense, v.ready.length + 2 * v.timers.length)) = cost → Acc (flip Move) v from
    this _ .refl rfl
  intro cost
  induction cost using WellFoundedLT.induction with
  | ind cost ih =>
    rintro v hv rfl
    refine ⟨v, fun v' hm => ?_⟩
    have hv' : Advances w v' := hv.tail hm
    refine ih _ ?_ hv' rfl
    have hasked := hq hv
    have hasked' := hq hv'
    rw [Prod.Lex.toLex_lt_toLex]
    rcases Move.pays hm (hw.advances hv) with hpays | ⟨hpays, hrest⟩
    · refine .inl ?_
      unfold Pays at hpays
      dsimp only
      omega
    · unfold Pays at hpays
      rcases Nat.lt_or_ge (v'.labour + 8 * (w.demands - v'.demands))
        (v.labour + 8 * (w.demands - v.demands)) with hlt | hge
      · exact .inl hlt
      · refine .inr ⟨by dsimp only; omega, ?_⟩
        rw [Prod.Lex.toLex_lt_toLex]
        exact hrest

/-! ## Where no move is left -/

/-- Where no move is left nothing has a turn coming, and no timer is set. -/
theorem ready_timers_of_stuck (hstuck : ∀ {w' : World}, ¬ Move w w') :
    w.ready = [] ∧ w.timers = [] := by
  have hready : w.ready = [] := by
    cases hready : w.ready with
    | nil => rfl
    | cons j ready => exact (hstuck (.turn j (by rw [hready]; exact List.mem_cons_self))).elim
  refine ⟨hready, ?_⟩
  cases htimers : w.timers with
  | nil => rfl
  | cons t rest => exact (hstuck (.fire t rest hready htimers)).elim

/-- Whoever executes a command is over, or waits for the right to start, when nothing has a turn
coming and no timer is set. -/
theorem IsAttended.rests (ha : w.IsAttended) (hready : w.ready = []) (htimers : w.timers = [])
    {j : JobId} {errand : Errand} {p : Position} (hat : w.At j errand p) :
    p = .done ∨ (∃ id, p = .inLine id) ∨
      (∃ e seat, p = .awaiting e seat) ∧ errand.isCall = false := by
  have hattends := ha hat
  unfold Attends at hattends
  rw [hready, htimers] at hattends
  cases p with
  | fresh => exact absurd hattends List.not_mem_nil
  | inLine id => exact .inr (.inl ⟨id, rfl⟩)
  | starting id => simp at hattends
  | running id e => simp at hattends
  | telling => exact hattends.elim
  | awaiting e seat => exact .inr (.inr ⟨⟨e, seat, rfl⟩, hattends⟩)
  | done => exact .inl rfl

/-- An outcome that is known is what an await answers. -/
theorem awaitOutcome_of_outcome {e : EntryId} {entry : Entry} {o : Outcome}
    (he : w.entryOf? e = some entry) (ho : entry.outcome = some o) :
    (w.awaitOutcome e).2 = .outcome (some o) := by
  obtain ⟨w', hr⟩ := receive?_of_outcome he ho
  rw [awaitOutcome, hr]

/-- **Where no move is left everything is over.** -/
theorem Reachable.isAtRest (hw : Reachable w) (hstuck : ∀ {w' : World}, ¬ Move w w') :
    w.IsAtRest := by
  have ho := hw.arises.isOrderly
  obtain ⟨hready, htimers⟩ := ready_timers_of_stuck hstuck
  have hrests {j : JobId} {errand : Errand} {p : Position} (hat : w.At j errand p) :=
    IsAttended.rests hw.isAttended hready htimers hat
  obtain ⟨hguard, hunwaited⟩ := hw.nobody_waits hready fun hat => by
    rcases hrests hat with h | ⟨_, h⟩ | ⟨⟨_, _, h⟩, -⟩ <;> exact Position.noConfusion h
  have hover {j : JobId} {errand : Errand} {p : Position} (hat : w.At j errand p)
      (hcall : errand.isCall) : p = .done := by
    rcases hrests hat with h | ⟨id, rfl⟩ | ⟨-, hidle⟩
    · exact h
    · exact absurd hat hunwaited
    · rw [hcall] at hidle
      exact Bool.noConfusion hidle
  have hidle (q : QueueId) (hq : q < w.queues.length) : (w.view q).isIdle := by
    have hqueue := List.getElem?_eq_getElem hq
    generalize w.queues[q] = queue at hqueue
    have hactive : queue.active = none := by
      cases hactive : queue.active with
      | none => rfl
      | some e =>
        obtain ⟨j, he, -⟩ := exists_executing ho hqueue hactive
        obtain ⟨p, hp, hat⟩ := executing?_eq_some.1 he
        exact absurd (hover hat rfl) hp
    have hslot : w.slots[q]? = some (none, queue.pending) := by
      rw [slots, List.getElem?_map, hqueue, Option.map_some, Queue.slot, hactive]
    simp [view, hqueue, hactive, hw.arises.isAdvanced q queue.pending hslot]
  have hresolved (e : EntryId) (he : e < w.entries.length) :
      ∃ o, (w.awaitOutcome e).2 = .outcome (some o) := by
    have hentry : w.entryOf? e = some w.entries[e] := List.getElem?_eq_getElem he
    have hqueue : w.entries[e].queue < w.queues.length := by
      have hhoused := ho.housed w.entries[e].queue (List.mem_map_of_mem (List.getElem_mem he))
      rwa [ledger, List.length_map] at hhoused
    obtain ⟨o, hknown⟩ := hw.exists_outcome hentry (hidle _ hqueue)
    exact ⟨o, awaitOutcome_of_outcome hentry hknown⟩
  exact {
    ready := hready
    timers := htimers
    idle := hidle
    resolved := hresolved
    handles := fun p hp => hresolved p.2 (hw.isVouched.handles p hp)
    guard := hguard
    unwaited := hunwaited
    calls := hover }

/-! ## Runs -/

theorem Move.of_move? {limit : Nat} (h : w.move? limit = some w') : Move w w' := by
  unfold move? at h
  split at h
  · next j ready hready =>
    cases h
    have hturn := Move.turn (w := w) j (by rw [hready]; exact List.mem_cons_self)
    rwa [takeTurn, hready, List.erase_cons_head] at hturn
  · next hready =>
    split at h
    · next t rest ht =>
      split at h
      · cases h
        exact .fire t rest hready ht
      · exact absurd h (by simp)
    · exact absurd h (by simp)

/-- **A run that is given moves and time enough ends where no move is left.** -/
theorem exists_run (ha : Acc (flip Move) w) : ∃ w', Advances w w' ∧
    (∀ {w'' : World}, ¬ Move w' w'') ∧
    ∃ limit fuel, ∀ limit' ≥ limit, ∀ fuel' ≥ fuel, runUntil limit' fuel' w = w' := by
  induction ha with
  | intro w _ ih =>
    by_cases hstuck : ∀ {w' : World}, ¬ Move w w'
    · refine ⟨w, .refl, hstuck, 0, 0, fun limit _ fuel _ => runUntil_of_none ?_ fuel⟩
      cases hmove : w.move? limit with
      | none => rfl
      | some w' => exact (hstuck (.of_move? hmove)).elim
    · -- The clock may go as far as the first timer.
      obtain ⟨w₁, limit₁, hmove⟩ : ∃ w₁ limit₁, ∀ limit ≥ limit₁, w.move? limit = some w₁ := by
        unfold move?
        cases hready : w.ready with
        | cons j ready => exact ⟨_, 0, fun limit _ => rfl⟩
        | nil =>
          cases htimers : w.timers with
          | cons t rest => exact ⟨_, t.deadline, fun limit hlimit => if_pos hlimit⟩
          | nil =>
            refine (hstuck fun hm => ?_).elim
            cases hm with
            | turn j hj =>
              rw [hready] at hj
              exact absurd hj List.not_mem_nil
            | fire t rest _ ht =>
              rw [htimers] at ht
              exact absurd ht (by simp)
      have hm : Move w w₁ := .of_move? (hmove limit₁ le_rfl)
      obtain ⟨w', hadvances, hend, limit, fuel, hrun⟩ := ih w₁ hm
      refine ⟨w', .head hm hadvances, hend, max limit₁ limit, fuel + 1, ?_⟩
      intro limit' hlimit fuel' hfuel
      obtain ⟨fuel'', rfl⟩ : ∃ fuel'', fuel' = fuel'' + 1 := ⟨fuel' - 1, by omega⟩
      rw [runUntil, hmove limit' (le_trans (Nat.le_max_left ..) hlimit)]
      exact hrun limit' (le_trans (Nat.le_max_right ..) hlimit) fuel'' (by omega)

/-- **Every run drains** when nothing more is asked for, whatever was cancelled, disposed, given up
or failed before. -/
theorem Reachable.drains (hw : Reachable w) (hq : w.AsksNoMore) : w.Drains := by
  have hacc := hw.acc hq
  obtain ⟨w', hadvances, hend, limit, fuel, hrun⟩ := exists_run hacc
  refine ⟨hacc, fun hv hstuck => (hw.advances hv).isAtRest hstuck, limit, fuel, ?_⟩
  intro limit' hlimit fuel' hfuel
  rw [hrun limit' hlimit fuel' hfuel]
  exact (hw.advances hadvances).isAtRest hend

/-! ## A run that drains -/

/-- What the user does at one moment. -/
def after (w : World) (steps : List Step) : World := steps.foldl (fun w s => (w.step s).1) w

theorem Reachable.after (hw : Reachable w) {steps : List Step} (hs : ∀ s ∈ steps, s.isInstant) :
    Reachable (w.after steps) := by
  induction steps generalizing w with
  | nil => exact hw
  | cons s steps ih =>
    exact ih (hw.next (.act s (hs s List.mem_cons_self)))
      fun s' hs' => hs s' (List.mem_cons_of_mem _ hs')

/-- Two queues and a caller past them while the start for the first queue is going on.  The entry of
the second queue was cancelled while it waited to start, and the reporter panics at its second
call. -/
def contended : World :=
  let op (a : String) : Operation := { command := ⟨"p", [a], none, .empty, none⟩ }
  let w := Setting.world { startDelay := 10, hooks := [.mk none (some 2) [.countObservers] true] }
  let w := w.after [.act (.makeQueue "a" "A"), .act (.makeQueue "b" "B"),
    .act (.request "a" (op "x") none "first"), .act (.request "a" (op "y") none "second"),
    .act (.request "b" (op "x") (some "t") "third"), .act (.execute "caller" (op "z").command none)]
  (((w.takeTurn 0).takeTurn 1).takeTurn 2).after [.act (.cancel "t")]

theorem reachable_contended : Reachable contended :=
  ((((Reachable.new _).after (by simp [Step.isInstant])).next (.turn 0 (by decide))).next
    (.turn 1 (by decide))).next (.turn 2 (by decide)) |>.after (by simp [Step.isInstant])

/-- Two jobs wait for the right to start, one of them cancelled; the run drains all the same. -/
theorem drains_contended : ∃ w : World, Reachable w ∧ w.manager.guard = ⟨some 0, [1, 2]⟩ ∧
    w.isCancelled (some "t") ∧ w.AsksNoMore ∧ w.Drains := by
  have hhooks : contended.hooks = [.mk none (some 2) [.countObservers] true] := rfl
  have hasks : contended.AsksNoMore := by
    refine CalledBy.asksNoMore fun h hmem => ?_
    rw [hhooks, List.mem_singleton] at hmem
    subst hmem
    refine .mk ?_ ?_ <;> simp [Hook.AsksNothing, Hook.actions, Action.asks]
  exact ⟨contended, reachable_contended, by decide, by decide, hasks,
    reachable_contended.drains hasks⟩

end Draining

end World

end FolderTasks.Dispatch
