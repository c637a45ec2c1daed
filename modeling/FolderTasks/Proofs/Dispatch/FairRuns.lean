import FolderTasks.Proofs.Dispatch.QueueDraining
import Mathlib.Order.Filter.AtTopBot.Basic
import Mathlib.Order.Filter.Finite
/-!
# Fair runs

A run may go on for ever, with new requests all the time. It is fair when every turn that comes is
taken some time, and no timer is set for ever. Then every job that executes a command comes to its
end, and every entry gets an outcome: the jobs with smaller numbers get past the right to start
first, and the entries before it in its queue leave their slot first.

## Main definitions

* `World.IsFair`: a run in which no turn and no timer is passed over for ever.
* `World.IsWithin`: a job has at most so many stages before it.

## Main statements

* `World.IsFair.ends`: every job that executes a command comes to its end.
* `World.IsFair.exists_outcome`: every entry gets an outcome.
* `World.isFair_runUntil`: a run that drains is a fair one.
-/

namespace FolderTasks.Dispatch

open Filter

/-- A position may follow another one: it is the same, or fewer stages are left, or it is one where
a job waits for an outcome or is over. -/
def Position.Follows (p' p : Position) : Prop :=
  p' = p ∨ p'.stagesLeft < p.stagesLeft ∨ p'.isIdle

theorem Position.stagesLeft_pos {p : Position} (h : p ≠ .done) : 0 < p.stagesLeft := by
  cases p <;> first | exact absurd rfl h | exact Nat.succ_pos _

/-- Whoever has a number stands in the line for the right to start, or has that behind it. -/
theorem Position.eq_inLine_or {p : Position} {id : TaskId} (hid : p.id? = some id) :
    p = .inLine id ∨ p.stagesLeft ≤ 3 := by
  cases p with
  | inLine id' => exact .inl (congrArg _ (Option.some.inj hid))
  | starting | running => exact .inr (by simp [stagesLeft])
  | _ => exact absurd hid (by simp [id?])

theorem Position.Follows.trans {p p' p'' : Position} (h : p'.Follows p) (h' : p''.Follows p') :
    p''.Follows p := by
  rcases h' with rfl | hlt' | hidle'
  · exact h
  · rcases h with rfl | hlt | hidle
    · exact .inr (.inl hlt')
    · exact .inr (.inl (hlt'.trans hlt))
    · -- Nothing but the end comes after a position where a job waits for an outcome.
      refine .inr (.inr ?_)
      cases p' <;> first | exact Bool.noConfusion hidle | skip
      · cases p'' <;> first | rfl | simp [stagesLeft] at hlt'
      · exact absurd hlt' (Nat.not_lt_zero _)
  · exact .inr (.inr hidle')

namespace World

/-- **A fair run**: one transition after the other, and whatever turn comes is taken some time, and
whatever timer is set is gone some time. -/
structure IsFair (run : Nat → World) : Prop where
  next : ∀ n, Transition (run n) (run (n + 1))
  turns : ∀ {n : Nat} {j : JobId}, j ∈ (run n).ready →
    ∃ m ≥ n, j ∈ (run m).ready ∧ run (m + 1) = (run m).takeTurn j
  timers : ∀ {n : Nat} {t : Timer}, t ∈ (run n).timers → ∃ m ≥ n, t ∉ (run m).timers

/-- A job has at most so many stages before it. -/
def IsWithin (w : World) (j : JobId) (errand : Errand) (stages : Nat) : Prop :=
  ∃ p, w.At j errand p ∧ p.stagesLeft ≤ stages

/-! ## One transition -/

section Following

variable {w w' : World} {j : JobId} {errand : Errand} {p : Position}

theorem Stage.follows (hs : Stage w w') (hat : w.At j errand p) :
    ∃ p', w'.At j errand p' ∧ p'.Follows p := by
  have hmoves {call : Call} {p₀ p₁ : Position} (hm : Moves w w' call p₀ p₁)
      (hlt : p₁.stagesLeft < p₀.stagesLeft) : ∃ p', w'.At j errand p' ∧ p'.Follows p := by
    refine ⟨_, hm.forth hat, ?_⟩
    split
    · next hj =>
      obtain ⟨errand', hat', -⟩ := hm.serves
      rw [hj] at hat'
      rw [(hat.unique hat').2]
      exact .inr (.inl hlt)
    · exact .inl rfl
  cases hs with
  | quiet hq =>
    obtain ⟨p', hat', heq | hidle⟩ := hq.at_forth hat
    · exact ⟨p', hat', .inl heq⟩
    · exact ⟨p', hat', .inr (.inr hidle)⟩
  | dropped hm ha hp =>
    refine hmoves hm ?_
    rcases hp with rfl | ⟨id, rfl⟩ | ⟨id, rfl⟩ | ⟨id, e, t, rfl, -⟩ <;> simp [Position.stagesLeft]
  | numbered hm ha hp =>
    refine hmoves hm ?_
    rcases hp with rfl | rfl <;> simp [Position.stagesLeft]
  | asked hm | started hm | ended hm => exact hmoves hm (by simp [Position.stagesLeft])

theorem Arises.follows (hw : Arises w) (hc : Changes w w') (hat : w.At j errand p) :
    ∃ p', w'.At j errand p' ∧ p'.Follows p := by
  induction hc with
  | refl => exact ⟨p, hat, .inl rfl⟩
  | tail hc hlast ih =>
    obtain ⟨p', hat', hfollows⟩ := ih
    have hmid := hw.changes hc
    obtain ⟨p'', hat'', hfollows'⟩ := (hlast.stage hmid.isOrderly hmid.isNumbered).follows hat'
    exact ⟨p'', hat'', hfollows.trans hfollows'⟩

/-- Between two turns a job that executes a command waits for no outcome. -/
theorem Reachable.call_cases (hw : Reachable w) (hat : w.At j errand p) (hcall : errand.isCall) :
    p = .done ∨ 2 ≤ p.stagesLeft := by
  have hattends := hw.isAttended hat
  cases p with
  | telling => exact hattends.elim
  | awaiting e seat =>
    rw [Attends, hcall] at hattends
    exact Bool.noConfusion hattends
  | done => exact .inl rfl
  | _ => exact .inr (by simp [Position.stagesLeft])

/-- **A job that executes a command** stays where it is, or comes further. -/
theorem Transition.follows (t : Transition w w') (hw : Reachable w) (hat : w.At j errand p)
    (hcall : errand.isCall) :
    ∃ p', w'.At j errand p' ∧ (p' = p ∨ p'.stagesLeft < p.stagesLeft) := by
  obtain ⟨p', hat', heq | hlt | hidle⟩ := hw.arises.follows t.changes hat
  · exact ⟨p', hat', .inl heq⟩
  · exact ⟨p', hat', .inr hlt⟩
  · refine ⟨p', hat', ?_⟩
    rcases (hw.next t).call_cases hat' hcall with rfl | hle
    · by_cases hp : p = .done
      · exact .inl hp.symm
      · exact .inr (Position.stagesLeft_pos hp)
    · cases p' <;> first | exact Bool.noConfusion hidle | simp [Position.stagesLeft] at hle

/-- The turn of a job that executes a command leaves all as it is, if the job is held up, or brings
it further. -/
theorem Reachable.takeTurn_cases (hw : Reachable w) (hj : j ∈ w.ready) (hat : w.At j errand p)
    (hcall : errand.isCall) (hdone : p ≠ .done) :
    w.HoldsUp j p ∧ (w.takeTurn j).timers = w.timers ∨
      ∃ p', (w.takeTurn j).At j errand p' ∧ p'.stagesLeft < p.stagesLeft := by
  obtain ⟨p', hat', heq | hlt⟩ := (Transition.turn j hj).follows hw hat hcall
  · subst heq
    refine .inl ?_
    obtain ⟨given, hjob⟩ := hat
    have hset : Arises { w with ready := w.ready.erase j, current := some j } :=
      (hw.arises.change (.drift (.turnTaken j hj))).change (.drift (.turnSet (some j)))
    have hbefore : ({ w with ready := j :: w.ready.erase j, current := some j } : World).Attends j
        errand p' := by
      have hattends := hw.isAttended ⟨given, hjob⟩
      cases p' with
      | fresh => exact List.mem_cons_self
      | starting => exact .inl List.mem_cons_self
      | running => exact hattends.imp_right fun h => ⟨h.1, List.mem_cons_self⟩
      | inLine | telling | awaiting | done => exact hattends
    have hmoves := turnJob_moves hset (w := { w with ready := w.ready.erase j, current := some j })
      ⟨given, hjob⟩ hcall hbefore hdone
    unfold takeTurn turn at hat' ⊢
    rw [hjob] at hat' ⊢
    dsimp only at hat' ⊢
    rw [if_neg hdone] at hat' ⊢
    cases given with
    | true =>
      rw [if_pos rfl] at hat'
      exact absurd (at_discard hat') hdone
    | false =>
      rw [if_neg Bool.false_ne_true] at hat' ⊢
      rcases discardIfAbandoned_cases (({ w with ready := w.ready.erase j, current := some j } :
        World).turnJob j errand) j with hstays | hdropped
      · rw [hstays] at hat' ⊢
        rcases hmoves with ⟨hheld, heq⟩ | hmoves
        · rw [heq]
          exact ⟨hheld, rfl⟩
        · exact absurd rfl (hmoves hat')
      · exact absurd (hdropped hat') hdone
  · exact .inr ⟨p', hat', hlt⟩

/-- The clock does not go back. -/
theorem Transition.clock_le (t : Transition w w') : w.clock ≤ w'.clock := by
  cases t with
  | act s hs => exact (instant_spares w hs).clock.ge
  | turn i hi => exact (turn_spares { w with ready := w.ready.erase i } i).clock.ge
  | fire u hu =>
    obtain ⟨timers, ready, heq⟩ := fire_eq w u
    rw [heq]
    exact Nat.le_max_left _ _
  | pass moment hm => exact hm
  | sit e => exact (spares_takeSeat (j := none) w e _).clock.ge
  | leave => exact Nat.le_refl _
  | receive e o hr => exact (spares_receive? (j := none) hr).clock.ge

/-- While a job stays where it is none of its timers is set. -/
theorem Transition.timer_back (tr : Transition w w') (hw : Reachable w) (hat : w.At j errand p)
    (hcall : errand.isCall) (hdone : p ≠ .done) (hat' : w'.At j errand p) {t : Timer}
    (ht : t.job = j) (hmem : t ∈ w'.timers) : t ∈ w.timers := by
  cases tr with
  | act s hs => exact ((instant_spares w hs).timers t (by simp)).1 hmem
  | turn i hi =>
    by_cases hij : i = j
    · subst hij
      rcases hw.takeTurn_cases hi hat hcall hdone with ⟨-, htimers⟩ | ⟨p', hat'', hlt⟩
      · exact htimers ▸ hmem
      · rw [(hat'.unique hat'').2] at hlt
        exact absurd hlt (Nat.lt_irrefl _)
    · have hspares := turn_spares { w with ready := w.ready.erase i } i
      refine (hspares.timers t ?_).1 hmem
      rw [ht]
      exact fun h => hij (Option.some.inj h).symm
  | fire u hu =>
    obtain ⟨ready, heq⟩ := wakeAll_eq
      ((w.timers.takeWhile fun v => v.deadline ≤ u.deadline).map Timer.job)
      { w with clock := max w.clock u.deadline
               timers := w.timers.dropWhile fun v => v.deadline ≤ u.deadline }
    rw [World.fire, heq] at hmem
    exact (List.dropWhile_sublist _).subset hmem
  | pass => exact hmem
  | sit e => exact ((spares_takeSeat (j := none) w e _).timers t (by simp)).1 hmem
  | leave => exact hmem
  | receive e o hr => exact ((spares_receive? (j := none) hr).timers t (by simp)).1 hmem

end Following

/-! ## Runs -/

section Runs

variable {run : Nat → World} {n m : Nat} {j : JobId} {errand : Errand} {p : Position}

namespace IsFair

theorem reachable (hf : IsFair run) (hw : Reachable (run 0)) (n : Nat) : Reachable (run n) := by
  induction n with
  | zero => exact hw
  | succ n ih => exact ih.next (hf.next n)

theorem changes (hf : IsFair run) (h : n ≤ m) : Changes (run n) (run m) := by
  induction h with
  | refl => exact .refl
  | step _ ih => exact ih.trans (hf.next _).changes

/-- **A job that executes a command** stays where it is, or comes further. -/
theorem follows (hf : IsFair run) (hw : Reachable (run 0)) (hat : (run n).At j errand p)
    (hcall : errand.isCall) (h : n ≤ m) :
    ∃ p', (run m).At j errand p' ∧ (p' = p ∨ p'.stagesLeft < p.stagesLeft) := by
  induction h with
  | refl => exact ⟨p, hat, .inl rfl⟩
  | @step m _ ih =>
    obtain ⟨p', hat', hp'⟩ := ih
    obtain ⟨p'', hat'', heq | hlt⟩ := (hf.next m).follows (hf.reachable hw m) hat' hcall
    · exact ⟨p'', hat'', heq ▸ hp'⟩
    · refine ⟨p'', hat'', .inr ?_⟩
      rcases hp' with rfl | hlt'
      · exact hlt
      · exact hlt.trans hlt'

theorem clock_le (hf : IsFair run) (h : n ≤ m) : (run n).clock ≤ (run m).clock := by
  induction h with
  | refl => exact Nat.le_refl _
  | step _ ih => exact ih.trans (hf.next _).clock_le

theorem isWithin_forth (hf : IsFair run) (hw : Reachable (run 0)) (hcall : errand.isCall) {s : Nat}
    (h : (run n).IsWithin j errand s) (hm : n ≤ m) : (run m).IsWithin j errand s := by
  obtain ⟨p, hat, hle⟩ := h
  obtain ⟨p', hat', heq | hlt⟩ := hf.follows hw hat hcall hm
  · exact ⟨p', hat', heq ▸ hle⟩
  · exact ⟨p', hat', hlt.le.trans hle⟩

/-- **A job that has a turn coming and is not held up comes further.** -/
theorem leaves (hf : IsFair run) (hw : Reachable (run 0)) (hat : (run n).At j errand p)
    (hcall : errand.isCall) (hdone : p ≠ .done) (hready : j ∈ (run n).ready)
    (hfree : ∀ m ≥ n, (run m).At j errand p → ¬ (run m).HoldsUp j p) :
    ∃ m ≥ n, ∃ p', (run m).At j errand p' ∧ p'.stagesLeft < p.stagesLeft := by
  obtain ⟨m, hm, hready, hturn⟩ := hf.turns hready
  obtain ⟨p', hat', rfl | hlt⟩ := hf.follows hw hat hcall hm
  · rcases (hf.reachable hw m).takeTurn_cases hready hat' hcall hdone with ⟨hheld, -⟩ | hlater
    · exact absurd hheld (hfree m hm hat')
    · exact ⟨m + 1, Nat.le_succ_of_le hm, hturn ▸ hlater⟩
  · exact ⟨m, hm, p', hat', hlt⟩

/-- The timers of a job that stays where it is are never set again. -/
theorem timer_back (hf : IsFair run) (hw : Reachable (run 0)) (hat : (run n).At j errand p)
    (hcall : errand.isCall) (hdone : p ≠ .done) {t : Timer} (ht : t.job = j)
    (hgone : t ∉ (run n).timers) (hm : n ≤ m) (hat' : (run m).At j errand p) :
    t ∉ (run m).timers := by
  induction hm with
  | refl => exact hgone
  | @step m hm ih =>
    -- The job was there just before, since nothing leads back.
    obtain ⟨p', hatm, hp'⟩ := hf.follows hw hat hcall hm
    obtain ⟨p'', hat'', hp''⟩ := (hf.next m).follows (hf.reachable hw m) hatm hcall
    obtain ⟨-, rfl⟩ := hat''.unique hat'
    obtain rfl : p' = p'' := by
      rcases hp' with rfl | hlt
      · rfl
      · rcases hp'' with rfl | hlt'
        · rfl
        · exact absurd (hlt.trans hlt') (Nat.lt_irrefl _)
    exact fun hmem =>
      ih hatm ((hf.next m).timer_back (hf.reachable hw m) hatm hcall hdone hat' ht hmem)

/-! ### The stages of a call -/

/-- A job begins. -/
theorem begins (hf : IsFair run) (hw : Reachable (run 0)) (hat : (run n).At j errand .fresh)
    (hcall : errand.isCall) : ∃ m ≥ n, (run m).IsWithin j errand 4 := by
  obtain ⟨m, hm, p', hat', hlt⟩ := hf.leaves hw hat hcall (by simp)
    ((hf.reachable hw n).isAttended hat) fun _ _ _ hheld => hheld
  exact ⟨m, hm, p', hat', Nat.le_of_lt_succ hlt⟩

/-- The timers of a job are gone some time, unless it has left its place. -/
theorem timers_gone (hf : IsFair run) (hw : Reachable (run 0)) (hat : (run n).At j errand p)
    (hcall : errand.isCall) (hdone : p ≠ .done) :
    ∀ᶠ m in atTop, (run m).At j errand p → ∀ t ∈ (run m).timers, t.job ≠ j := by
  -- Each of the timers that are set now is gone some time, and no others are set.
  have hgone : ∀ᶠ m in atTop, ∀ t ∈ {t | t ∈ (run n).timers}, t.job = j → (run m).At j errand p →
      t ∉ (run m).timers := by
    refine (eventually_all_finite (List.finite_toSet _)).2 fun t ht => ?_
    obtain ⟨m₁, hm₁, hgone⟩ := hf.timers ht
    filter_upwards [eventually_ge_atTop m₁] with m hm hjob hat'
    obtain ⟨p₁, hat₁, hp₁⟩ := hf.follows hw hat hcall hm₁
    obtain ⟨p₂, hat₂, hp₂⟩ := hf.follows hw hat₁ hcall hm
    obtain ⟨-, rfl⟩ := hat₂.unique hat'
    obtain rfl : p₁ = p₂ := by
      rcases hp₁ with rfl | hlt
      · rfl
      · rcases hp₂ with rfl | hlt'
        · rfl
        · exact absurd (hlt.trans hlt') (Nat.lt_irrefl _)
    exact hf.timer_back hw hat₁ hcall hdone hjob hgone hm hat'
  filter_upwards [hgone, eventually_ge_atTop n] with m hm hn hat' t ht hjob
  by_cases hold : t ∈ (run n).timers
  · exact hm t hold hjob hat' ht
  · exact hf.timer_back hw hat hcall hdone hjob hold hn hat' ht

/-- A start comes to its end. -/
theorem starts (hf : IsFair run) (hw : Reachable (run 0)) {id : TaskId}
    (hat : (run n).At j errand (.starting id)) (hcall : errand.isCall) :
    ∃ m ≥ n, (run m).IsWithin j errand 2 := by
  obtain ⟨m₁, hgone⟩ := eventually_atTop.1 (hf.timers_gone hw hat hcall (by simp))
  have hm₁ : n ≤ max n m₁ := Nat.le_max_left n m₁
  obtain ⟨p', hat', rfl | hlt⟩ := hf.follows hw hat hcall hm₁
  · have hfree (m : Nat) (hm : max n m₁ ≤ m) (hat' : (run m).At j errand (.starting id)) :
        ∀ t ∈ (run m).timers, t.job ≠ j := hgone m (Nat.le_trans (Nat.le_max_right n m₁) hm) hat'
    have hready : j ∈ (run (max n m₁)).ready := by
      rcases (hf.reachable hw _).isAttended hat' with hready | ⟨t, ht, hjob⟩
      · exact hready
      · exact absurd hjob (hfree _ le_rfl hat' t ht)
    obtain ⟨m, hm, p'', hat'', hlt⟩ := hf.leaves hw hat' hcall (by simp) hready
      fun m hm hat' ⟨t, ht, hjob⟩ => hfree m hm hat' t ht hjob
    exact ⟨m, Nat.le_trans hm₁ hm, p'', hat'', Nat.le_of_lt_succ hlt⟩
  · exact ⟨_, hm₁, p', hat', Nat.le_of_lt_succ hlt⟩

/-- An execution comes to its end. -/
theorem finishes (hf : IsFair run) (hw : Reachable (run 0)) {id : TaskId} {e : Execution}
    (hat : (run n).At j errand (.running id e)) (hcall : errand.isCall) :
    ∃ m ≥ n, (run m).IsWithin j errand 1 := by
  -- First the timer is gone, and then the turn comes.
  obtain ⟨m₁, hm₁, hgone⟩ : ∃ m ≥ n, ⟨e.deadline, j⟩ ∉ (run m).timers := by
    by_cases hset : ⟨e.deadline, j⟩ ∈ (run n).timers
    · exact hf.timers hset
    · exact ⟨n, le_rfl, hset⟩
  obtain ⟨p', hat', rfl | hlt⟩ := hf.follows hw hat hcall hm₁
  · rcases (hf.reachable hw _).isAttended hat' with hset | ⟨hdue, hready⟩
    · exact absurd hset hgone
    · obtain ⟨m, hm, p'', hat'', hlt⟩ := hf.leaves hw hat' hcall (by simp) hready
        fun m hm _ hheld => Nat.lt_irrefl _
          (Nat.lt_of_lt_of_le hheld (Nat.le_trans hdue (hf.clock_le hm)))
      exact ⟨m, Nat.le_trans hm₁ hm, p'', hat'', Nat.le_of_lt_succ hlt⟩
  · exact ⟨m₁, hm₁, p', hat', Nat.le_of_lt_succ hlt⟩

/-! ### The right to start -/

/-- Whoever has a number gets past the right to start, if all that have smaller ones get there. -/
theorem passes_of_smaller (hf : IsFair run) (hw : Reachable (run 0)) {id : TaskId}
    (hat : (run n).At j errand (.inLine id))
    (hsmaller : ∀ m ≥ n, ∀ {i : JobId} {errand' : Errand} {p' : Position} {id' : TaskId},
      (run m).At i errand' p' → p'.id? = some id' → id'.number < id.number → p'.stagesLeft ≤ 2) :
    ∃ m ≥ n, (run m).IsWithin j errand 3 := by
  have hcall : errand.isCall := by
    by_contra hidle
    have hnone := (hf.reachable hw n).arises.isNumbered.idle hat (Bool.eq_false_iff.2 hidle)
    exact absurd hnone (by simp [Position.id?])
  -- Whoever has the right to start has no greater number, and no smaller one either.
  have hholds (m : Nat) (hm : n ≤ m) (hat' : (run m).At j errand (.inLine id)) :
      (run m).manager.guard.holder = some j := by
    have hlined := (hf.reachable hw m).arises.isLined
    have hstands := hlined.inLine hat'
    cases hholder : (run m).manager.guard.holder with
    | none =>
      rw [StartGuard.standing, hholder, hlined.free hholder] at hstands
      exact absurd hstands List.not_mem_nil
    | some i =>
      by_contra hne
      have horder := hlined.order
      rw [StartGuard.standing_of_holder hholder] at hstands horder
      have hline : j ∈ (run m).manager.guard.line :=
        (List.mem_cons.1 hstands).resolve_left fun h => hne (congrArg some h.symm)
      obtain ⟨errand', id', hati⟩ := hlined.holding hholder
      have hpart : ∃ p', (run m).At i errand' p' ∧ p'.id? = some id' ∧ 2 < p'.stagesLeft := by
        rcases hati with hati | hati
        · exact ⟨_, hati, rfl, by simp [Position.stagesLeft]⟩
        · exact ⟨_, hati, rfl, by simp [Position.stagesLeft]⟩
      obtain ⟨p', hati, hid, hlt⟩ := hpart
      have hbefore := (List.pairwise_cons.1 horder).1 j hline ⟨errand', p', hati, hid⟩
        ⟨errand, _, hat', rfl⟩
      exact absurd (hsmaller m hm hati hid hbefore) (Nat.not_le.2 hlt)
  have hready := (hf.reachable hw n).isHandedOver (hholds n le_rfl hat) hat
  obtain ⟨m, hm, p', hat', hlt⟩ := hf.leaves hw hat hcall (by simp) hready
    fun m hm hat' hheld => hheld (hholds m hm hat')
  exact ⟨m, hm, p', hat', Nat.le_of_lt_succ hlt⟩

/-- **Whoever has a number gets past the right to start.** -/
theorem passes (hf : IsFair run) (hw : Reachable (run 0)) {id : TaskId}
    (hat : (run n).At j errand p) (hid : p.id? = some id) :
    ∃ m ≥ n, (run m).IsWithin j errand 2 := by
  -- By induction on the number: those with smaller numbers get past it first.
  induction hk : id.number using Nat.strong_induction_on generalizing n j errand p id with
  | _ k ih =>
    subst hk
    have hcall {n : Nat} {j : JobId} {errand : Errand} {p : Position} {id : TaskId}
        (hat : (run n).At j errand p) (hid : p.id? = some id) : errand.isCall := by
      by_contra hidle
      rw [(hf.reachable hw n).arises.isNumbered.idle hat (Bool.eq_false_iff.2 hidle)] at hid
      exact absurd hid (by simp)
    have hpast : ∀ᶠ m in atTop, ∀ k ∈ {k | k < id.number}, ∀ {i : JobId} {errand' : Errand}
        {p' : Position}, (run m).At i errand' p' → p'.id? = some ⟨k⟩ → p'.stagesLeft ≤ 2 := by
      refine (eventually_all_finite (Set.finite_lt_nat _)).2 fun k hk => ?_
      by_cases hlate : ∃ m ≥ n, ∃ i errand' p', (run m).At i errand' p' ∧ p'.id? = some ⟨k⟩
      · obtain ⟨m, hm, i, errand', p', hati, hidi⟩ := hlate
        obtain ⟨m₁, hm₁, hwithin⟩ := ih k hk hati hidi rfl
        filter_upwards [eventually_ge_atTop m₁] with m₂ hm₂ i' errand'' p'' hati' hidi'
        obtain ⟨p₂, hat₂, hle⟩ := hf.isWithin_forth hw (hcall hati hidi) hwithin hm₂
        -- The number belongs to the same job still.
        have hnumbered := (hf.reachable hw m).arises.isNumbered.current hati hidi
        have hnumbered' := (hf.reachable hw m₂).arises.isNumbered.current hati' hidi'
        have hkept := ((hf.reachable hw m).arises.numbered_isPrefix
          (hf.changes (hm₁.le.trans hm₂))).subset hnumbered
        obtain rfl := (hf.reachable hw m₂).arises.isNumbered.job_unique hkept hnumbered'
        rwa [(hati'.unique hat₂).2]
      · filter_upwards [eventually_ge_atTop n] with m hm i errand' p' hati hidi
        exact absurd ⟨m, hm, i, errand', p', hati, hidi⟩ hlate
    obtain ⟨m₁, hm₁⟩ := eventually_atTop.1 hpast
    have hfinal {m : Nat} (hm : n ≤ m) {p' : Position} (hat' : (run m).At j errand p')
        (hle : p'.stagesLeft ≤ 3) : ∃ m ≥ n, (run m).IsWithin j errand 2 := by
      cases p' with
      | starting id' =>
        obtain ⟨m', hm', hwithin⟩ := hf.starts hw hat' (hcall hat hid)
        exact ⟨m', Nat.le_trans hm hm', hwithin⟩
      | fresh | inLine => exact absurd hle (by simp [Position.stagesLeft])
      | running | telling | awaiting | done =>
        exact ⟨m, hm, _, hat', by simp [Position.stagesLeft]⟩
    rcases Position.eq_inLine_or hid with rfl | hle
    · obtain ⟨p', hat', rfl | hlt⟩ := hf.follows hw hat (hcall hat hid) (Nat.le_max_left n m₁)
      · obtain ⟨m, hm, p'', hat'', hle⟩ := hf.passes_of_smaller hw hat' fun m hm {i errand' p' id'}
          hati hidi hlt => hm₁ m (Nat.le_trans (Nat.le_max_right n m₁) hm) id'.number hlt hati hidi
        exact hfinal (Nat.le_trans (Nat.le_max_left n m₁) hm) hat'' hle
      · exact hfinal (Nat.le_max_left n m₁) hat' (Nat.le_of_lt_succ hlt)
    · exact hfinal le_rfl hat hle

/-- **Every job that executes a command comes to its end.** -/
theorem ends (hf : IsFair run) (hw : Reachable (run 0)) (hat : (run n).At j errand p)
    (hcall : errand.isCall) : ∃ m ≥ n, (run m).At j errand .done := by
  have hafter {m : Nat} (hm : n ≤ m) {s : Nat} (h : ∃ m' ≥ m, (run m').IsWithin j errand s) :
      ∃ m' ≥ n, (run m').IsWithin j errand s := by
    obtain ⟨m', hm', hwithin⟩ := h
    exact ⟨m', Nat.le_trans hm hm', hwithin⟩
  obtain ⟨m₁, hm₁, p₁, hat₁, hle₁⟩ : ∃ m ≥ n, (run m).IsWithin j errand 4 := by
    cases p with
    | fresh => exact hf.begins hw hat hcall
    | _ => exact ⟨n, le_rfl, _, hat, by simp [Position.stagesLeft]⟩
  obtain ⟨m₂, hm₂, p₂, hat₂, hle₂⟩ : ∃ m ≥ n, (run m).IsWithin j errand 2 := by
    cases p₁ with
    | fresh => exact absurd hle₁ (by simp [Position.stagesLeft])
    | inLine | starting => exact hafter hm₁ (hf.passes hw hat₁ rfl)
    | running | telling | awaiting | done =>
      exact ⟨m₁, hm₁, _, hat₁, by simp [Position.stagesLeft]⟩
  obtain ⟨m₃, hm₃, p₃, hat₃, hle₃⟩ : ∃ m ≥ n, (run m).IsWithin j errand 1 := by
    cases p₂ with
    | fresh | inLine | starting => exact absurd hle₂ (by simp [Position.stagesLeft])
    | running => exact hafter hm₂ (hf.finishes hw hat₂ hcall)
    | telling | awaiting | done => exact ⟨m₂, hm₂, _, hat₂, by simp [Position.stagesLeft]⟩
  rcases (hf.reachable hw m₃).call_cases hat₃ hcall with rfl | hle
  · exact ⟨m₃, hm₃, hat₃⟩
  · exact absurd (Nat.le_trans hle hle₃) (by simp)

/-! ### Entries -/

variable {e : EntryId}

/-- **Every entry leaves its slot.** -/
theorem vacates (hf : IsFair run) (hw : Reachable (run 0)) (he : e < (run n).entries.length) :
    ∃ m ≥ n, e ∈ (run m).ledger.vacated := by
  -- By induction on the number of the entry: those before it in its queue leave the slot first.
  induction e using Nat.strong_induction_on with
  | _ e ih =>
    have hkept {m m' : Nat} (hm : m ≤ m') {e' : EntryId} (he' : e' ∈ (run m).ledger.vacated) :
        e' ∈ (run m').ledger.vacated := by
      obtain ⟨x, hx, hfact⟩ := mem_seen.1 he'
      have hlasts := (hf.reachable hw m).arises.lasts_changes (hf.changes hm)
      exact mem_seen.2 ⟨x, hlasts.mem_history hx, hfact⟩
    have hearlier : ∀ᶠ m in atTop, ∀ e' ∈ {e' | e' < e}, e' ∈ (run m).ledger.vacated := by
      refine (eventually_all_finite (Set.finite_lt_nat _)).2 fun e' he' => ?_
      obtain ⟨m, -, hvacated⟩ := ih e' he' (Nat.lt_trans he' he)
      filter_upwards [eventually_ge_atTop m] with m' hm'
      exact hkept hm' hvacated
    obtain ⟨m₁, hm₁⟩ := eventually_atTop.1 hearlier
    have hm : n ≤ max n m₁ := Nat.le_max_left n m₁
    have hgone := hm₁ (max n m₁) (Nat.le_max_right n m₁)
    have harises := (hf.reachable hw (max n m₁)).arises
    have hadvanced := harises.isAdvanced
    have ho := harises.isOrderly
    have hlength := ((hf.reachable hw n).arises.length_le (hf.changes hm)).2
    obtain ⟨q, hon⟩ := Ledger.IsOrderly.exists_isOn (L := (run (max n m₁)).ledger) (e := e)
      (by simpa [ledger] using Nat.lt_of_lt_of_le he hlength)
    obtain ⟨active, pending, hslot⟩ := ho.exists_slot hon
    have hmem : e ∈ (run (max n m₁)).ledger.created.filter ((run (max n m₁)).ledger.isOn q) := by
      refine List.mem_filter.2 ⟨?_, hon⟩
      rw [ho.created, List.mem_range]
      exact Ledger.IsOrderly.isOn_lt hon
    have hserved := ho.served hslot
    have hsorted : ((run (max n m₁)).ledger.created.filter
        ((run (max n m₁)).ledger.isOn q)).Pairwise (· < ·) := by
      rw [ho.created]
      exact List.pairwise_lt_range.filter _
    rw [hserved] at hmem hsorted
    rcases List.mem_append.1 hmem with hmem | hpending
    · rcases List.mem_append.1 hmem with hvacated | hactive
      · exact ⟨_, hm, (List.mem_filter.1 hvacated).1⟩
      · -- The entry is active, and its job comes to its end.
        obtain rfl : active = some e := Option.mem_toList.1 hactive
        have hqueue : (run (max n m₁)).slots[q]? = some (some e, pending) := hslot
        rw [slots, List.getElem?_map] at hqueue
        obtain ⟨queue, hq, hqueue⟩ := Option.map_eq_some_iff.1 hqueue
        obtain ⟨j, hexecuting, -⟩ := exists_executing ho hq (congrArg Prod.fst hqueue)
        obtain ⟨p, -, hat⟩ := executing?_eq_some.1 hexecuting
        obtain ⟨m₂, hm₂, hdone⟩ := hf.ends hw hat rfl
        obtain ⟨given, hrunner⟩ := hdone.runner
        exact ⟨m₂, Nat.le_trans hm hm₂,
          ((hf.reachable hw m₂).arises.isOrderly.live hrunner).1 rfl⟩
    · -- The entry waits for one that came before it, but that has left the slot already.
      exfalso
      cases active with
      | none =>
        rw [hadvanced q pending hslot] at hpending
        exact absurd hpending List.not_mem_nil
      | some a =>
        have hlt : a < e := (List.pairwise_append.1 hsorted).2.2 a (by simp) e hpending
        exact (ho.active_spec hslot).2.2 (hgone a hlt)

/-- **Every entry gets an outcome.** -/
theorem exists_outcome (hf : IsFair run) (hw : Reachable (run 0))
    (he : e < (run n).entries.length) :
    ∃ m ≥ n, ∃ entry o, (run m).entryOf? e = some entry ∧ entry.outcome = some o := by
  obtain ⟨m, hm, hvacated⟩ := hf.vacates hw he
  have hreachable := hf.reachable hw m
  have hlength := ((hf.reachable hw n).arises.length_le (hf.changes hm)).2
  have hlt : e < (run m).entries.length := Nat.lt_of_lt_of_le he hlength
  have hentry : (run m).entryOf? e = some (run m).entries[e] := List.getElem?_eq_getElem hlt
  obtain ⟨o, ho⟩ := hreachable.isSettled e hvacated
  exact ⟨m, hm, _, o, hentry, (outcome_iff_resolved hreachable.arises.isOrderly hentry).2 ho⟩

end IsFair

/-! ## Fair runs there are -/

theorem runUntil_succ (limit n : Nat) (w : World) :
    runUntil limit (n + 1) w = ((runUntil limit n w).move? limit).getD (runUntil limit n w) := by
  rw [runUntil_add, runUntil]
  cases (runUntil limit n w).move? limit <;> rfl

/-- **A run that drains is fair**: all moves up to a limit, and then nothing any more. -/
theorem isFair_runUntil {w : World} {limit N : Nat} (hready : (runUntil limit N w).ready = [])
    (htimers : (runUntil limit N w).timers = []) : IsFair fun n => runUntil limit n w := by
  have hend (n : Nat) (hn : N ≤ n) : runUntil limit n w = runUntil limit N w := by
    obtain ⟨more, rfl⟩ := Nat.exists_eq_add_of_le hn
    rw [runUntil_add]
    refine runUntil_of_none ?_ more
    rw [move?, hready, htimers]
  have hnext (n : Nat) : Transition (runUntil limit n w) (runUntil limit (n + 1) w) := by
    rw [runUntil_succ]
    cases hmove : (runUntil limit n w).move? limit with
    | none => exact .pass (w := runUntil limit n w) _ le_rfl
    | some w' => exact (Move.of_move? hmove).transition
  refine ⟨hnext, ?_, ?_⟩
  · intro n j hj
    -- Whoever has a turn coming takes it before the end, where nobody has one.
    induction hk : N - n generalizing n with
    | zero =>
      have hn : N ≤ n := Nat.sub_eq_zero_iff_le.1 hk
      rw [hend n hn, hready] at hj
      exact absurd hj List.not_mem_nil
    | succ k ih =>
      cases hfirst : (runUntil limit n w).ready with
      | nil =>
        rw [hfirst] at hj
        exact absurd hj List.not_mem_nil
      | cons i rest =>
        have hturn : runUntil limit (n + 1) w = (runUntil limit n w).takeTurn i := by
          rw [runUntil_succ, move?, hfirst, Option.getD_some, takeTurn, hfirst,
            List.erase_cons_head]
        by_cases hij : j = i
        · subst hij
          exact ⟨n, le_rfl, hj, hturn⟩
        · have hlater : j ∈ (runUntil limit (n + 1) w).ready := by
            rw [hturn]
            exact (turn_spares { runUntil limit n w with ready := _ } i).ready j
              ((List.mem_erase_of_ne hij).2 hj)
          obtain ⟨m, hm, hrest⟩ := ih hlater (by omega)
          exact ⟨m, Nat.le_of_succ_le hm, hrest⟩
  · intro n t _
    refine ⟨max n N, Nat.le_max_left n N, ?_⟩
    rw [hend _ (Nat.le_max_right n N), htimers]
    exact List.not_mem_nil

end Runs

end World

end FolderTasks.Dispatch
