import FolderTasks.Proofs.Dispatch.StartHandover
import FolderTasks.Proofs.Dispatch.TurnTouches
import Mathlib.Data.List.TakeWhile
/-!
# Every job is attended to

Between two turns a job that is not over waits for something that will come: a job that has not
begun has a turn coming, a job that is starting has a timer, and a job whose execution runs has a
timer at its end.  When the timer fires, the turn of the job comes.  Only jobs that execute nothing
wait for the outcome of an entry.

## Main definitions

* `World.Spares`: a change that leaves all jobs alone but one, and may begin new ones.
* `World.IsAttended`: every job is attended to.

## Main statements

* `World.Touches.spares`: a turn leaves all jobs alone but its own.
* `World.Transition.isAttended`, `World.Reachable.isAttended`: every job is attended to, whatever
  happens.
-/

namespace FolderTasks.Dispatch

/-- How many stages of an execution are before a job. -/
def Position.stagesLeft : Position → Nat
  | .fresh => 5
  | .inLine _ => 4
  | .starting _ => 3
  | .running _ _ => 2
  | .telling | .awaiting _ _ => 1
  | .done => 0

namespace World

/-- **A change that spares all jobs but one**: they stay where they are, their timers stay set and
their turns come; and whatever job begins has a turn coming. -/
structure Spares (j : Option JobId) (w w' : World) : Prop where
  clock : w'.clock = w.clock
  ready : ∀ i ∈ w.ready, i ∈ w'.ready
  timers : ∀ t : Timer, some t.job ≠ j → (t ∈ w'.timers ↔ t ∈ w.timers)
  forth : ∀ {i : JobId} {errand : Errand} {p : Position}, some i ≠ j → w.At i errand p →
    w'.At i errand p
  back : ∀ {i : JobId} {errand : Errand} {p : Position}, some i ≠ j → w'.At i errand p →
    w.At i errand p ∨ p = .fresh ∧ i ∈ w'.ready

/-- What a job at a position is attended by. -/
def Attends (w : World) (j : JobId) (errand : Errand) : Position → Prop
  | .fresh => j ∈ w.ready
  | .telling => False
  | .starting _ => j ∈ w.ready ∨ ∃ t ∈ w.timers, t.job = j
  | .running _ e => ⟨e.deadline, j⟩ ∈ w.timers ∨ e.deadline ≤ w.clock ∧ j ∈ w.ready
  | .awaiting _ _ => errand.isCall = false
  | .inLine _ | .done => True

/-- A job has to go on waiting where it stands, even if it gets its turn. -/
def HoldsUp (w : World) (j : JobId) : Position → Prop
  | .fresh => False
  | .inLine _ => w.manager.guard.holder ≠ some j
  | .starting _ => ∃ t ∈ w.timers, t.job = j
  | .running _ e => w.clock < e.deadline
  | .telling | .awaiting _ _ | .done => True

/-- **Every job is attended to.** -/
def IsAttended (w : World) : Prop :=
  ∀ {j : JobId} {errand : Errand} {p : Position}, w.At j errand p → w.Attends j errand p

/-! ## Other jobs -/

section Spares

variable {K : Hook → Prop} {w w' w'' : World} {j : Option JobId} {i : JobId}

theorem Spares.refl (w : World) : Spares j w w :=
  ⟨rfl, fun _ h => h, fun _ _ => .rfl, fun _ h => h, fun _ h => .inl h⟩

theorem Spares.trans (h : Spares j w w') (h' : Spares j w' w'') : Spares j w w'' where
  clock := h'.clock.trans h.clock
  ready i hi := h'.ready i (h.ready i hi)
  timers t ht := (h'.timers t ht).trans (h.timers t ht)
  forth hi hat := h'.forth hi (h.forth hi hat)
  back hi hat := by
    rcases h'.back hi hat with hat | hfresh
    · rcases h.back hi hat with hat | ⟨hp, hready⟩
      · exact .inl hat
      · exact .inr ⟨hp, h'.ready _ hready⟩
    · exact .inr hfresh

/-- What spares all jobs spares all but one. -/
theorem Spares.weaken (h : Spares none w w') (j : Option JobId) : Spares j w w' where
  clock := h.clock
  ready := h.ready
  timers t _ := h.timers t (by simp)
  forth _ hat := h.forth (by simp) hat
  back _ hat := h.back (by simp) hat

/-- A change of nothing that concerns jobs. -/
theorem Spares.of_eq (hclock : w'.clock = w.clock) (hready : w'.ready = w.ready)
    (htimers : w'.timers = w.timers) (hjobs : w'.jobs = w.jobs) : Spares j w w' where
  clock := hclock
  ready i hi := hready ▸ hi
  timers t _ := by rw [htimers]
  forth _ hat := by
    rwa [At, hjobs]
  back _ hat := by
    rw [At, hjobs] at hat
    exact .inl hat

theorem spares_wake (w : World) (i : JobId) : Spares j w (w.wake i) := by
  obtain ⟨ready, heq⟩ := wake_eq w i
  refine ⟨?_, (mild_wake (O := []) w i).ready, ?_, ?_, ?_⟩
  · rw [heq]
  · intro t _
    rw [heq]
  · intro i' errand p _ hat
    rw [heq]
    exact hat
  · intro i' errand p _ hat
    rw [heq] at hat
    exact .inl hat

theorem spares_wakeAll (js : List JobId) (w : World) : Spares j w (w.wakeAll js) := by
  induction js generalizing w with
  | nil => exact .refl w
  | cons i js ih => exact (spares_wake w i).trans (ih _)

/-- A job that begins has a turn coming. -/
theorem spares_spawn (w : World) (errand : Errand) : Spares j w (w.spawn errand).1 where
  clock := rfl
  ready _ hi := List.mem_append_left _ hi
  timers _ _ := .rfl
  forth _ hat := hat.of_jobs (List.prefix_append _ _)
  back _ := by
    rintro ⟨given, hat⟩
    rcases getElem?_jobs_spawn hat with hat | ⟨rfl, hjob⟩
    · exact .inl ⟨given, hat⟩
    · exact .inr ⟨congrArg Job.position hjob, mem_ready_spawn.2 (.inr rfl)⟩

theorem spares_setPosition (w : World) (i : JobId) (p : Position) :
    Spares (some i) w (w.setPosition i p) where
  clock := rfl
  ready _ hi := hi
  timers _ _ := .rfl
  forth {k _ _} hk hat := hat.setPosition_of_ne (fun h => hk (congrArg some h.symm)) p
  back {k _ _} hk := by
    intro hat
    rcases at_setPosition_cases hat with ⟨rfl, -⟩ | ⟨-, hat⟩
    · exact absurd rfl hk
    · exact .inl hat

theorem spares_dispatch (w : World) (q : QueueId) : Spares j w (w.dispatch q) := by
  unfold dispatch
  split
  · refine Spares.trans ?_ (spares_spawn _ _)
    exact .of_eq rfl rfl rfl rfl
  · exact .refl w

theorem spares_request (w : World) (q : QueueId) (op : Operation) (token : Option String) :
    Spares j w (w.request q op token).1 := by
  rcases request_eq w q op token with heq | ⟨queue, e, -, -, heq⟩ | ⟨queue, -, -, heq⟩ <;> rw [heq]
  · exact .refl w
  · exact .of_eq rfl rfl rfl rfl
  · refine Spares.trans ?_ (spares_dispatch _ q)
    exact .of_eq rfl rfl rfl rfl

theorem spares_deliver (w : World) (e : EntryId) (o : Outcome) : Spares j w (w.deliver e o) := by
  unfold deliver
  split
  · exact .refl w
  · refine Spares.trans ?_ (spares_wakeAll _ _)
    exact .of_eq rfl rfl rfl rfl

theorem spares_resolve (w : World) (e : EntryId) (o : Outcome) : Spares j w (w.resolve e o) := by
  unfold resolve
  split
  · exact .refl w
  · refine Spares.trans ?_ (spares_deliver _ e o)
    refine Spares.trans ?_ (spares_dispatch _ _)
    exact .of_eq rfl rfl rfl rfl

theorem spares_takeSeat (w : World) (e : EntryId) (who : Waiter) :
    Spares j w (w.takeSeat e who).1 := by
  unfold takeSeat
  split
  · exact .refl w
  · exact .of_eq rfl rfl rfl rfl

theorem spares_receive? {e : EntryId} {o : Outcome} (hr : w.receive? e = some (w', o)) :
    Spares j w w' := by
  unfold receive? at hr
  split at hr
  · obtain ⟨rfl, -⟩ := Prod.mk.inj (Option.some.inj hr)
    exact .of_eq rfl rfl rfl rfl
  · exact absurd hr (by simp)

theorem spares_releaseGuard (w : World) : Spares j w w.releaseGuard := by
  unfold releaseGuard
  split
  · exact .of_eq rfl rfl rfl rfl
  · refine Spares.trans ?_ (spares_wake _ _)
    exact .of_eq rfl rfl rfl rfl

theorem mem_insertTimer {t u : Timer} {timers : List Timer} :
    u ∈ insertTimer t timers ↔ u = t ∨ u ∈ timers := by
  induction timers with
  | nil => simp [insertTimer]
  | cons v timers ih =>
    unfold insertTimer
    split
    · rw [List.mem_cons, ih, List.mem_cons]
      exact or_left_comm
    · rw [List.mem_cons]

theorem spares_setTimer (w : World) (deadline : Nat) (i : JobId) :
    Spares (some i) w (w.setTimer deadline i) where
  clock := rfl
  ready _ hi := hi
  timers t ht := by
    refine mem_insertTimer.trans (or_iff_right ?_)
    rintro rfl
    exact ht rfl
  forth _ hat := hat
  back _ hat := .inl hat

theorem spares_clearTimer (w : World) (i : JobId) : Spares (some i) w (w.clearTimer i) where
  clock := rfl
  ready _ hi := hi
  timers t ht := by
    refine List.mem_filter.trans (and_iff_left ?_)
    rw [bne_iff_ne]
    exact fun h => ht (congrArg some h)
  forth _ hat := hat
  back _ hat := .inl hat

theorem mem_ready_wakeAll {i : JobId} {js : List JobId} (hi : i ∈ js) (w : World) :
    i ∈ (w.wakeAll js).ready := by
  induction js generalizing w with
  | nil => exact absurd hi List.not_mem_nil
  | cons k js ih =>
    rcases List.mem_cons.1 hi with rfl | hi
    · exact (mild_wakeAll (O := []) js _).ready i (mem_ready_wake w i)
    · exact ih hi _

/-- Actions leave all jobs where they are. -/
theorem Deed.spares (hd : Deed w w') : Spares none w w' := by
  cases hd with
  | scripted | named | queueMade | withheld | observed | answered => exact .of_eq rfl rfl rfl rfl
  | requested q op token => exact spares_request w q op token
  | cancelled name =>
    unfold cancel
    dsimp only
    split
    · exact .refl w
    · refine Spares.trans ?_ (spares_wakeAll _ _)
      exact .of_eq rfl rfl rfl rfl
  | watched handle e => exact spares_spawn w _
  | begun name errand => exact (spares_spawn w errand).trans (.of_eq rfl rfl rfl rfl)
  | disposed =>
    obtain ⟨history, manager, heq, -⟩ := disposeManager_eq w
    rw [heq]
    exact .of_eq rfl rfl rfl rfl
  | abandoned name j hj =>
    have hready := (Deed.abandoned name j hj).mild.ready
    have hforth {i : JobId} {errand : Errand} {p : Position} (hat : w.At i errand p) :
        (w.abandonJob j).1.At i errand p := (Deed.abandoned name j hj).at hat
    rcases abandonJob_eq w j with heq | ⟨ready, heq⟩
    · rw [heq]
      exact .refl w
    · refine ⟨by rw [heq], hready, fun t _ => by rw [heq], fun _ hat => hforth hat, ?_⟩
      rintro i errand p - ⟨given, hat⟩
      rw [heq] at hat
      obtain ⟨job, hjob, hnew⟩ := exists_of_getElem?_modify hat
      refine .inl ⟨job.isAbandoned, ?_⟩
      rw [hjob]
      split at hnew <;> cases hnew <;> rfl

theorem Deeds.spares (hd : Deeds w w') : Spares none w w' := by
  induction hd with
  | refl => exact .refl w
  | tail _ hd ih => exact ih.trans hd.spares

theorem Touch.spares (ht : Touch K i w w') : Spares (some i) w w' := by
  cases ht with
  | noted | numbered | guardTaken | lineJoined | lineLeft | begun | ended | called | noticed
  | unseated | withheld | turnSet => exact .of_eq rfl rfl rfl rfl
  | moved hp => exact spares_setPosition w i _
  | guardReleased => exact spares_releaseGuard w
  | listened token =>
    obtain ⟨tokens, heq⟩ := listen_eq w token i
    rw [heq]
    exact .of_eq rfl rfl rfl rfl
  | unlistened token =>
    obtain ⟨tokens, heq⟩ := unlisten_eq w token i
    rw [heq]
    exact .of_eq rfl rfl rfl rfl
  | timerSet deadline => exact spares_setTimer w deadline i
  | timerCleared => exact spares_clearTimer w i
  | @acted site h hh a ha =>
    exact (Deeds.spares ((perform_deeds w a).tail (.answered site _))).weaken (some i)
  | resolved o => exact spares_resolve w _ o
  | received hr => exact spares_receive? hr
  | seated e => exact spares_takeSeat w e _
  | @asked name folder token q =>
    refine Spares.trans ?_ (spares_setPosition _ i _)
    refine Spares.trans ?_ (spares_takeSeat _ _ _)
    have hasked := spares_request (j := some i) (w.withhold q true) q
      (PackageAction.reset.operation w.toolchain folder) token
    have hwithheld : Spares (some i) w (w.withhold q true) := .of_eq rfl rfl rfl rfl
    exact hwithheld.trans (hasked.trans (.of_eq rfl rfl rfl rfl))
  | leftOpen q => exact spares_spawn w _

/-- **A turn leaves all jobs alone but its own.** -/
theorem Touches.spares (ht : Touches K i w w') : Spares (some i) w w' := by
  induction ht with
  | refl => exact .refl w
  | tail _ ht ih => exact ih.trans ht.spares

/-- Whatever the callbacks do, a turn leaves all jobs alone but its own. -/
theorem turn_spares (w : World) (i : JobId) : Spares (some i) w (w.turn i) :=
  (turn_touches (K := fun _ => True) fun h _ => h.within_of_forall fun _ => trivial).spares

end Spares

/-! ## The job whose turn it is -/

section Own

variable {w w' : World} {call : Call} {errand errand' : Errand} {id : TaskId} {p p' : Position}
  {n : Nat} {j : JobId}

/-- A job that is known to be attended to at one position is not at another one. -/
theorem Attends.unique (h : w.Attends j errand p) (hat : w.At j errand p)
    (hat' : w.At j errand' p') : w.Attends j errand' p' := by
  obtain ⟨rfl, rfl⟩ := hat.unique hat'
  exact h

/-- **A piece of an execution that leaves its job waiting** leaves it attended to, and with fewer
stages before it than there were. -/
def Poises (n : Nat) (call : Call) (errand : Errand) (r : World × Progress) : Prop :=
  r.2 = .paused → ∃ p, r.1.At call.job errand p ∧ p.stagesLeft < n ∧ r.1.Attends call.job errand p

theorem poises_of_ne {r : World × Progress} (h : r.2 ≠ .paused) : Poises n call errand r :=
  fun hr => absurd hr h

theorem conclude_poises (w : World) (call : Call) (id : TaskId) (code : Option Int32)
    (o : Outcome) : Poises n call errand (w.conclude call id code o) := by
  refine poises_of_ne ?_
  simp only [conclude]
  split <;> simp

theorem follow_poises {e : Execution} (h : w.ServesAt call errand (.running id e)) (hn : 2 < n) :
    Poises n call errand (w.follow call id e) := by
  unfold follow
  split
  · exact conclude_poises _ call id _ _
  · split
    · exact conclude_poises _ call id _ _
    · intro _
      obtain ⟨tokens, heq⟩ := listen_eq (w.setTimer e.deadline call.job) call.token call.job
      rw [heq]
      exact ⟨.running id e, h.1, hn, .inl (mem_insertTimer.2 (.inl rfl))⟩

theorem launch_poises (h : w.ServesAt call errand (.starting id)) (hn : 2 < n) :
    Poises n call errand (w.launch call id) := by
  unfold launch
  split
  · exact poises_of_ne (by simp)
  · next b e hb =>
    dsimp only
    split
    · exact poises_of_ne (by simp)
    · exact follow_poises (announceStart_servesAt (h.started b e)) hn

theorem begin_poises (h : w.ServesAt call errand (.inLine id)) (hn : 3 < n) :
    Poises n call errand (w.begin call id) := by
  have hserves := h.asksStart
  unfold begin
  split
  · exact poises_of_ne (by simp [cancelBeforeStart])
  · dsimp only
    split
    · exact launch_poises hserves (Nat.lt_of_succ_lt hn)
    · intro _
      exact ⟨.starting id, hserves.1, hn, .inr ⟨_, mem_insertTimer.2 (.inl rfl), rfl⟩⟩

theorem enter_poises (h : w.ServesAt call errand .fresh) :
    Poises 5 call errand (w.enter call) := by
  unfold enter
  split
  · exact poises_of_ne (by simp)
  · dsimp only
    split
    · exact begin_poises h.takesGuard (by simp)
    · split
      · exact poises_of_ne (by simp [cancelBeforeStart])
      · intro _
        obtain ⟨tokens, heq⟩ := listen_eq ((((w.takeNumber call.job).note
          (.waitsToStart w.nextId)).joinLine call.job).setPosition call.job (.inLine w.nextId))
          call.token call.job
        rw [heq]
        have hatJoined := At.setPosition (w := ((w.takeNumber call.job).note
          (.waitsToStart w.nextId)).joinLine call.job) h.1 (.inLine w.nextId)
        exact ⟨.inLine w.nextId, hatJoined, by simp [Position.stagesLeft], trivial⟩

/-- **A job that goes on with an execution** and has to wait is attended to. Either nothing has
changed, and then it was attended to before, or it has come further. -/
theorem proceed_poises (h : w.ServesAt call errand p)
    (hbefore : p ≠ .fresh →
      ({ w with ready := call.job :: w.ready } : World).Attends call.job errand p) :
    w.HoldsUp call.job p ∧ w.proceed call = (w, .paused) ∧ w.Attends call.job errand p ∨
      Poises p.stagesLeft call errand (w.proceed call) := by
  unfold proceed
  rw [h.1.position_eq]
  cases p with
  | fresh => exact .inr (enter_poises h)
  | inLine id =>
    simp only [proceedInLine]
    split
    · exact .inr (begin_poises h.unlisten (by simp [Position.stagesLeft]))
    · next hholder =>
      split
      · exact .inr (poises_of_ne (by simp [cancelBeforeStart]))
      · exact .inl ⟨hholder, rfl, trivial⟩
  | starting id =>
    simp only [proceedStarting]
    split
    · next htimer =>
      obtain ⟨t, ht, hjob⟩ := List.any_eq_true.1 htimer
      exact .inl ⟨⟨t, ht, beq_iff_eq.1 hjob⟩, rfl, .inr ⟨t, ht, beq_iff_eq.1 hjob⟩⟩
    · exact .inr (launch_poises h (by simp [Position.stagesLeft]))
  | running id e =>
    simp only [proceedRunning]
    split
    · exact .inr (conclude_poises _ call id _ _)
    · next hd =>
      split
      · exact .inr (conclude_poises _ call id _ _)
      · next hcalm =>
        have hlt := lt_deadline_of_calm hd hcalm
        refine .inl ⟨hlt, rfl, .inl ?_⟩
        rcases hbefore (by simp) with htimer | ⟨hd', -⟩
        · exact htimer
        · exact absurd hd' (Nat.not_le.2 hlt)
  | telling => exact (hbefore (by simp)).elim
  | awaiting e seat => exact .inl ⟨trivial, rfl, hbefore (by simp)⟩
  | done => exact .inl ⟨trivial, rfl, trivial⟩

/-- A job that is over is attended to. -/
theorem attends_endJob (hat : (w.endJob j).At j errand p) : (w.endJob j).Attends j errand p := by
  obtain rfl := at_endJob hat
  trivial

theorem goOn_attends {e : EntryId} (entry : Entry) (h : w.ServesAt call (.operation e) p)
    (hbefore : p ≠ .fresh →
      ({ w with ready := call.job :: w.ready } : World).Attends call.job (.operation e) p)
    (hat : (w.goOn call e entry).At call.job errand' p') :
    (w.goOn call e entry).Attends call.job errand' p' := by
  have hpoises := proceed_poises h hbefore
  unfold goOn at hat ⊢
  rcases hw : w.proceed call with ⟨w', _ | result | _⟩ <;> rw [hw] at hpoises hat
  · rcases hpoises with ⟨-, heq, hp⟩ | hpoises
    · obtain rfl := (Prod.mk.inj heq).1
      exact hp.unique h.1 hat
    · obtain ⟨p, hat', -, hp⟩ := hpoises rfl
      exact hp.unique hat' hat
  · unfold concludeOperation at hat ⊢
    exact attends_endJob hat
  · exact attends_endJob hat

/-- **A job that goes on with an execution** changes nothing if it has to wait, and else it is no
longer where it was. -/
theorem goOn_moves {e : EntryId} (entry : Entry) (h : w.ServesAt call (.operation e) p)
    (hbefore : p ≠ .fresh →
      ({ w with ready := call.job :: w.ready } : World).Attends call.job (.operation e) p)
    (hdone : p ≠ .done) : w.HoldsUp call.job p ∧ w.goOn call e entry = w ∨
      ∀ {errand : Errand} {p' : Position},
        (w.goOn call e entry).At call.job errand p' → p' ≠ p := by
  have hpoises := proceed_poises h hbefore
  unfold goOn
  rcases hw : w.proceed call with ⟨w', _ | result | _⟩ <;> rw [hw] at hpoises
  · rcases hpoises with ⟨hp, heq, -⟩ | hpoises
    · exact .inl ⟨hp, (Prod.mk.inj heq).1⟩
    · refine .inr fun {errand p'} hat' => ?_
      obtain ⟨p₁, hat₁, hlt, -⟩ := hpoises rfl
      obtain ⟨-, rfl⟩ := hat₁.unique hat'
      rintro rfl
      exact Nat.lt_irrefl _ hlt
  · refine .inr fun {errand p'} hat' => ?_
    unfold concludeOperation at hat'
    exact at_endJob hat' ▸ hdone.symm
  · exact .inr fun {errand p'} hat' => at_endJob hat' ▸ hdone.symm

theorem turnAwait_attends {e : EntryId} {goOn : World → Outcome → World} (hat : w.At j errand p)
    (herrand : errand.isCall = false) (hat' : (w.turnAwait j e goOn).At j errand' p') :
    (w.turnAwait j e goOn).Attends j errand' p' := by
  unfold turnAwait at hat' ⊢
  rw [hat.position_eq] at hat' ⊢
  split
  · next w' o hr =>
    rw [hr] at hat'
    exact attends_endJob hat'
  · next hr =>
    rw [hr] at hat'
    have hseated := At.setPosition (hat.takeSeat e (.job j)) (.awaiting e (w.takeSeat e (.job j)).2)
    cases p with
    | awaiting e' seat => exact Attends.unique (p := .awaiting e' seat) herrand hat hat'
    | _ => exact Attends.unique (p := .awaiting e (w.takeSeat e (.job j)).2) herrand hseated hat'

/-- A reset that has asked awaits the outcome of its entry. -/
theorem At.askReset (hat : w.At j errand p) (q : QueueId) (folder : Path)
    (token : Option String) :
    ∃ e seat, (w.askReset j q folder token).At j errand (.awaiting e seat) := by
  unfold World.askReset
  dsimp only
  generalize hw₁ : (w.withhold q true).request q _ token = r
  have hat₁ : r.1.At j errand p := hw₁ ▸ At.of_jobs (request_jobs (w.withhold q true) q _ _) hat
  exact ⟨_, _, At.setPosition (At.takeSeat (w := r.1.note _) hat₁ _ _) _⟩

theorem turnReset_attends {name : String} {folder : Path} {token : Option String}
    (hat : w.At j (.reset name folder token) p) (hidle : p.id? = none) (htelling : p ≠ .telling)
    (hat' : (w.turnReset j name folder token).At j errand' p') :
    (w.turnReset j name folder token).Attends j errand' p' := by
  unfold turnReset at hat' ⊢
  rw [hat.position_eq] at hat' ⊢
  cases p with
  | awaiting e seat =>
    dsimp only at hat' ⊢
    cases he : w.entryOf? e with
    | none =>
      rw [he] at hat'
      exact attends_endJob hat'
    | some entry =>
      rw [he] at hat'
      exact turnAwait_attends hat rfl hat'
  | fresh =>
    dsimp only at hat' ⊢
    cases hq : w.folderQueue? folder with
    | none =>
      rw [hq] at hat'
      exact attends_endJob hat'
    | some q =>
      rw [hq] at hat'
      obtain ⟨e, seat, hawaiting⟩ := hat.askReset (w := w) q folder token
      have hattends : (w.askReset j q folder token).Attends j (.reset name folder token)
        (.awaiting e seat) := rfl
      exact Attends.unique hattends hawaiting hat'
  | telling => exact absurd rfl htelling
  | done => exact Attends.unique (p := .done) trivial hat hat'
  | inLine | starting | running => exact absurd hidle (by simp [Position.id?])

/-- A job that has had its turn is attended to. -/
theorem turnJob_attends (hw : Arises w) (hat : w.At j errand p)
    (hbefore : ({ w with ready := j :: w.ready } : World).Attends j errand p)
    (hat' : (w.turnJob j errand).At j errand' p') :
    (w.turnJob j errand).Attends j errand' p' := by
  have hidle (herrand : errand.isCall = false) : p.id? = none := hw.isNumbered.idle hat herrand
  have htelling : p ≠ .telling := by
    rintro rfl
    exact hbefore
  cases errand with
  | operation e =>
    change (w.turnOperation j e).At _ _ _ at hat'
    change (w.turnOperation j e).Attends _ _ _
    obtain ⟨entry, call, he, rfl, hserves, ⟨-, heq⟩ | ⟨rfl, w₁, panicked, hr, heq⟩⟩ :=
      turnOperation_cases hw.isOrderly hat
    · rw [heq] at hat' ⊢
      exact goOn_attends entry hserves (fun _ => hbefore) hat'
    · rw [heq] at hat' ⊢
      have hserves₁ := (reportAll_works (.inl rfl)
        (entry.operation.startCalls (w.queueName entry.queue)) hserves).2
      rw [hr] at hserves₁
      cases panicked with
      | true => exact attends_endJob hat'
      | false => exact goOn_attends entry hserves₁ (fun h => absurd rfl h) hat'
  | execution name command token =>
    have hserves : w.ServesAt ⟨j, command, token⟩ (.execution name command token) p := ⟨hat, rfl⟩
    have hpoises := proceed_poises hserves fun _ => hbefore
    simp only [turnJob, turnExecution] at hat' ⊢
    rcases hr : w.proceed ⟨j, command, token⟩ with ⟨w', _ | (f | o) | _⟩ <;>
      rw [hr] at hpoises hat'
    · rcases hpoises with ⟨-, heq, hp⟩ | hpoises
      · obtain rfl := (Prod.mk.inj heq).1
        exact hp.unique hat hat'
      · obtain ⟨p, hat₁, -, hp⟩ := hpoises rfl
        exact hp.unique hat₁ hat'
    · exact attends_endJob hat'
    · exact attends_endJob hat'
    · exact attends_endJob hat'
  | reset name folder token => exact turnReset_attends hat (hidle rfl) htelling hat'
  | watch handle e => exact turnAwait_attends hat rfl hat'
  | reopen q e => exact turnAwait_attends hat rfl hat'

/-- **A job with a call that takes its turn** changes nothing if it has to wait, and else it is no
longer where it was. -/
theorem turnJob_moves (hw : Arises w) (hat : w.At j errand p) (hcall : errand.isCall)
    (hbefore : ({ w with ready := j :: w.ready } : World).Attends j errand p) (hdone : p ≠ .done) :
    w.HoldsUp j p ∧ w.turnJob j errand = w ∨
      ∀ {errand' : Errand} {p' : Position}, (w.turnJob j errand).At j errand' p' → p' ≠ p := by
  cases errand with
  | reset | watch | reopen => exact absurd hcall (by simp [Errand.isCall])
  | operation e =>
    change w.HoldsUp j p ∧ w.turnOperation j e = w ∨ ∀ {errand' : Errand} {p' : Position},
      (w.turnOperation j e).At j errand' p' → p' ≠ p
    obtain ⟨entry, call, he, rfl, hserves, ⟨-, heq⟩ | ⟨rfl, w₁, panicked, hr, heq⟩⟩ :=
      turnOperation_cases hw.isOrderly hat
    · rw [heq]
      exact goOn_moves entry hserves (fun _ => hbefore) hdone
    · rw [heq]
      have hserves₁ := (reportAll_works (.inl rfl)
        (entry.operation.startCalls (w.queueName entry.queue)) hserves).2
      rw [hr] at hserves₁
      refine .inr fun {errand' p'} hat' => ?_
      cases panicked with
      | true =>
        rw [at_endJob hat']
        exact hdone.symm
      | false =>
        rcases goOn_moves entry hserves₁ (fun h => absurd rfl h) hdone with ⟨hp, -⟩ | hmoves
        · exact hp.elim
        · exact hmoves hat'
  | execution name command token =>
    have hserves : w.ServesAt ⟨j, command, token⟩ (.execution name command token) p := ⟨hat, rfl⟩
    have hpoises := proceed_poises hserves fun _ => hbefore
    simp only [turnJob, turnExecution]
    rcases hr : w.proceed ⟨j, command, token⟩ with ⟨w', _ | (f | o) | _⟩ <;> rw [hr] at hpoises
    · rcases hpoises with ⟨hp, heq, -⟩ | hpoises
      · exact .inl ⟨hp, (Prod.mk.inj heq).1⟩
      · refine .inr fun {errand' p'} hat' => ?_
        obtain ⟨p₁, hat₁, hlt, -⟩ := hpoises rfl
        obtain ⟨-, rfl⟩ := hat₁.unique hat'
        rintro rfl
        exact Nat.lt_irrefl _ hlt
    · exact .inr fun {errand' p'} hat' => at_endJob hat' ▸ hdone.symm
    · exact .inr fun {errand' p'} hat' => at_endJob hat' ▸ hdone.symm
    · exact .inr fun {errand' p'} hat' => at_endJob hat' ▸ hdone.symm

/-- A job that was given up in its own turn is over, and else nothing happens. -/
theorem discardIfAbandoned_cases (w : World) (j : JobId) : w.discardIfAbandoned j = w ∨
    ∀ {errand : Errand} {p : Position}, (w.discardIfAbandoned j).At j errand p → p = .done := by
  unfold discardIfAbandoned
  split
  · split
    · exact .inr fun hat => at_discard hat
    · exact .inl rfl
  · exact .inl rfl

/-- **A job that has had its turn is attended to.** -/
theorem turn_attends (hw : Arises w)
    (hbefore : ∀ {errand : Errand} {p : Position}, w.At j errand p →
      ({ w with ready := j :: w.ready } : World).Attends j errand p)
    (hat' : (w.turn j).At j errand' p') : (w.turn j).Attends j errand' p' := by
  unfold turn at hat' ⊢
  cases hj : w.jobs[j]? with
  | none =>
    rw [hj] at hat'
    obtain ⟨given, hat'⟩ := hat'
    rw [hj] at hat'
    exact absurd hat' (by simp)
  | some job =>
    rw [hj] at hat'
    have hat : w.At j job.errand job.position := ⟨job.isAbandoned, hj⟩
    dsimp only at hat' ⊢
    by_cases hdone : job.position = .done
    · rw [if_pos hdone] at hat' ⊢
      exact Attends.unique (p := .done) trivial (hdone ▸ hat) hat'
    · rw [if_neg hdone] at hat' ⊢
      by_cases hgiven : job.isAbandoned
      · rw [if_pos hgiven] at hat' ⊢
        exact attends_endJob hat'
      · rw [if_neg hgiven] at hat' ⊢
        have hset : Arises { w with current := some j } := hw.change (.drift (.turnSet (some j)))
        have hturned {errand' : Errand} {p' : Position} :
            (({ w with current := some j } : World).turnJob j job.errand).At j errand' p' →
            (({ w with current := some j } : World).turnJob j job.errand).Attends j errand' p' :=
          turnJob_attends hset hat (hbefore hat)
        generalize ({ w with current := some j } : World).turnJob j job.errand = w₁
          at hat' hturned ⊢
        -- A job that gave itself up in its own turn is dropped.
        rcases discardIfAbandoned_cases w₁ j with hstays | hdropped
        · rw [hstays] at hat' ⊢
          exact hturned hat'
        · exact Attends.unique (p := .done) trivial (hdropped hat' ▸ hat') hat'

end Own

/-! ## Transitions -/

section Transitions

variable {w w' : World} {j : JobId}

/-- Who is attended to and is spared is still attended to. -/
theorem Attends.spared {errand : Errand} {p : Position} (h : w.Attends j errand p)
    {i : Option JobId} (hs : Spares i w w') (hi : some j ≠ i) : w'.Attends j errand p := by
  cases p with
  | fresh => exact hs.ready j h
  | telling => exact h
  | starting id =>
    refine h.imp (hs.ready j) ?_
    rintro ⟨t, ht, rfl⟩
    exact ⟨t, (hs.timers t hi).2 ht, rfl⟩
  | running id e =>
    refine h.imp (hs.timers ⟨e.deadline, j⟩ hi).2 ?_
    rintro ⟨hd, hready⟩
    exact ⟨hs.clock.symm ▸ hd, hs.ready j hready⟩
  | awaiting => exact h
  | inLine | done => trivial

theorem IsAttended.spared (h : w.IsAttended) (hs : Spares none w w') : w'.IsAttended := by
  intro j errand p hat
  rcases hs.back (by simp) hat with hat | ⟨rfl, hready⟩
  · exact (h hat).spared hs (by simp)
  · exact hready

theorem instant_spares (w : World) {s : Step} (h : s.isInstant) : Spares none w (w.step s).1 := by
  cases s with
  | act a => exact Deeds.spares (perform_deeds w a)
  | settle | advance | await => exact Bool.noConfusion h
  | addFolder folder =>
    have hadded : Spares none w (w.addFolder folder).1 := by
      unfold addFolder
      split
      · exact .refl w
      · exact .of_eq rfl rfl rfl rfl
    exact hadded.trans (.of_eq rfl rfl rfl rfl)
  | removeFolder folder =>
    change Spares none w (w.removeFolder folder).1
    unfold removeFolder
    split
    · exact .refl w
    · exact .of_eq rfl rfl rfl rfl
  | folders | toolchain => exact .refl w
  | find folder =>
    simp only [step]
    split <;> exact .refl w
  | run folder action token handle =>
    simp only [step]
    split
    · exact Deeds.spares (requestNamed_deeds ..)
    · exact .refl w
  | tasks folder products =>
    simp only [step]
    split <;> exact .refl w
  | dispose =>
    exact (Deed.disposed (w := w)).spares.trans (.of_eq rfl rfl rfl rfl)

/-- When a timer fires, the jobs whose time has come have a turn coming. -/
theorem IsAttended.fire (h : w.IsAttended) (t : Timer) : (w.fire t).IsAttended := by
  have hmoved : Spares (j := none) { w with
      clock := max w.clock t.deadline
      timers := w.timers.dropWhile fun u => u.deadline ≤ t.deadline } (w.fire t) :=
    spares_wakeAll _ _
  have hclock : (w.fire t).clock = max w.clock t.deadline := hmoved.clock
  -- A timer that is gone has woken its job.
  have hfired {u : Timer} (hu : u ∈ w.timers) :
      u ∈ (w.fire t).timers ∨ u.deadline ≤ t.deadline ∧ u.job ∈ (w.fire t).ready := by
    rw [hmoved.timers u (by simp)]
    rw [← List.takeWhile_append_dropWhile (p := fun u : Timer => decide (u.deadline ≤ t.deadline))
      (l := w.timers), List.mem_append] at hu
    rcases hu with hu | hu
    · have hdue := List.mem_takeWhile_imp (p := fun u : Timer => u.deadline ≤ t.deadline) hu
      refine .inr ⟨of_decide_eq_true hdue, ?_⟩
      exact mem_ready_wakeAll (List.mem_map_of_mem hu) _
    · exact .inl hu
  intro i errand p hat
  rcases hmoved.back (by simp) hat with hat | ⟨rfl, hready⟩
  · have hi := h hat
    cases p with
    | fresh => exact hmoved.ready i hi
    | telling => exact hi
    | starting id =>
      rcases hi with hready | ⟨u, hu, rfl⟩
      · exact .inl (hmoved.ready _ hready)
      · rcases hfired hu with hu | ⟨-, hready⟩
        · exact .inr ⟨u, hu, rfl⟩
        · exact .inl hready
    | running id e =>
      rcases hi with htimer | ⟨hd, hready⟩
      · rcases hfired htimer with htimer | ⟨hd, hready⟩
        · exact .inl htimer
        · exact .inr ⟨hclock ▸ Nat.le_trans hd (Nat.le_max_right _ _), hready⟩
      · exact .inr ⟨hclock ▸ Nat.le_trans hd (Nat.le_max_left _ _), hmoved.ready i hready⟩
    | awaiting => exact hi
    | inLine | done => trivial
  · exact hready

/-- A turn leaves every job attended to. -/
theorem IsAttended.takeTurn (h : w.IsAttended) (hw : Arises w) (hj : j ∈ w.ready) :
    (w.takeTurn j).IsAttended := by
  have htaken : Arises { w with ready := w.ready.erase j } :=
    hw.change (.drift (.turnTaken j hj))
  have hspares := turn_spares { w with ready := w.ready.erase j } j
  intro i errand p hat
  by_cases hij : i = j
  · subst hij
    refine turn_attends htaken ?_ hat
    intro errand p hat
    have hi : w.Attends i errand p := h hat
    -- The turn of the job has come, and it is as well attended to as before.
    cases p with
    | fresh => exact List.mem_cons_self
    | telling => exact hi
    | starting id => exact .inl List.mem_cons_self
    | running id e => exact hi.imp_right fun hi => ⟨hi.1, List.mem_cons_self⟩
    | awaiting => exact hi
    | inLine | done => trivial
  · have hne : some i ≠ some j := fun heq => hij (Option.some.inj heq)
    rcases hspares.back hne hat with hat | ⟨rfl, hready⟩
    · have hi : w.Attends i errand p := h hat
      have herased (hready : i ∈ w.ready) : i ∈ w.ready.erase j :=
        (List.mem_erase_of_ne hij).2 hready
      refine Attends.spared (w := { w with ready := w.ready.erase j }) ?_ hspares hne
      cases p with
      | fresh => exact herased hi
      | telling => exact hi
      | starting id => exact hi.imp_left herased
      | running id e => exact hi.imp_right fun hi => ⟨hi.1, herased hi.2⟩
      | awaiting => exact hi
      | inLine | done => trivial
    · exact hready

/-- **Every job stays attended to**, whatever happens. -/
theorem Transition.isAttended (t : Transition w w') (hw : Arises w) (h : w.IsAttended) :
    w'.IsAttended := by
  cases t with
  | act s hs => exact h.spared (instant_spares w hs)
  | turn j hj => exact h.takeTurn hw hj
  | fire t ht => exact h.fire t
  | pass moment hm =>
    intro j errand p hat
    have hj : w.Attends j errand p := h hat
    cases p with
    | running id e => exact hj.imp_right fun hj => ⟨Nat.le_trans hj.1 hm, hj.2⟩
    | _ => exact hj
  | sit e => exact h.spared (spares_takeSeat w e _)
  | leave e entry seat he hs => exact h.spared (.of_eq rfl rfl rfl rfl)
  | receive e o hr => exact h.spared (spares_receive? hr)

/-- **Every job is attended to**, whatever happens. -/
theorem Reachable.isAttended (hw : Reachable w) : w.IsAttended := by
  induction hw with
  | new s =>
    rintro j errand p ⟨given, hj⟩
    exact absurd hj (by simp [Setting.world])
  | next hw t ih => exact t.isAttended hw.arises ih

end Transitions

end World

end FolderTasks.Dispatch
