import FolderTasks.Proofs.Dispatch.RunningTokens
import FolderTasks.Proofs.Dispatch.FolderEntries
/-!
# Starts that take no time

When starts take no time, the right to start is taken and passed on within one turn.  Then between
two turns nobody has it and nobody waits for it: a job that executes a command has not begun, has an
execution that runs, or is over.  For that the start delays must stay as they are, so callbacks may
not set any; nor may they set scripts.

## Main definitions

* `Hook.IsReserved`: a hook that asks for no operation and sets no script.
* `World.settings`: the scripts and the start delays.
* `World.IsPrompt`: nobody is about to start.
* `World.IsUncontended`: no entry has to wait for the right to start.

## Main statements

* `World.Touches.settings`: in a turn with reserved hooks the settings stay as they are.
* `World.takeTurn_isPrompt`: when starts take no time, a turn leaves nobody about to start.
-/

namespace FolderTasks.Dispatch

/-- An action that asks for no operation and sets no script. -/
def Action.IsReserved : Action → Prop
  | .script .. | .request .. => False
  | _ => True

theorem Action.IsReserved.ne_script {a : Action} (ha : a.IsReserved) (args : List String)
    (s : Script) (delay : Option Nat) : a ≠ .script args s delay := by
  rintro rfl
  exact ha

/-- **A hook that asks for no operation and sets no script.** -/
def Hook.IsReserved (h : Hook) : Prop := ∀ a ∈ h.actions, a.IsReserved

/-- Is a job at a position about to start its command? -/
def Position.isEntering : Position → Bool
  | .inLine _ | .starting _ => true
  | .fresh | .running _ _ | .telling | .awaiting _ _ | .done => false

theorem Position.isEntering_of_stagesLeft {p : Position} (h : p.stagesLeft < 3) :
    p.isEntering = false := by
  cases p <;> first | rfl | exact absurd h (by simp [stagesLeft])

namespace World

/-- The scripts, and how long starts take. -/
def settings (w : World) :
    (Script × List (List String × Script)) × List (List String × Nat) × Nat :=
  ((w.backend.fallback, w.backend.scripts), w.startDelays, w.startDelay)

/-- **Nobody is about to start.** -/
def IsPrompt (w : World) : Prop :=
  ∀ ⦃j : JobId⦄ ⦃errand : Errand⦄ ⦃p : Position⦄, w.At j errand p → p.isEntering = false

/-- **No entry has to wait for the right to start**: it is free as long as the job of an entry has not
begun. -/
def IsUncontended (w : World) : Prop :=
  ∀ ⦃j : JobId⦄ ⦃e : EntryId⦄, w.At j (.operation e) .fresh → w.manager.guard.holder = none

/-! ## The settings -/

section Settings

variable {K : Hook → Prop} {w w' : World} {j : JobId}

theorem settings_wakeAll (w : World) (js : List JobId) : (w.wakeAll js).settings = w.settings := by
  obtain ⟨ready, heq⟩ := wakeAll_eq js w
  rw [heq]
  rfl

theorem settings_dispatch (w : World) (q : QueueId) : (w.dispatch q).settings = w.settings := by
  rcases dispatch_eq w q with heq | ⟨queue, e, rest, -, -, -, heq⟩ <;> rw [heq]
  rfl

theorem settings_request (w : World) (q : QueueId) (op : Operation) (token : Option String) :
    (w.request q op token).1.settings = w.settings := by
  rcases request_eq w q op token with heq | ⟨queue, e, -, -, heq⟩ | ⟨queue, -, -, heq⟩ <;> rw [heq]
  · rfl
  · exact settings_dispatch _ q

theorem settings_deliver (w : World) (e : EntryId) (o : Outcome) :
    (w.deliver e o).settings = w.settings := by
  unfold deliver
  split
  · rfl
  · exact settings_wakeAll _ _

theorem settings_resolve (w : World) (e : EntryId) (o : Outcome) :
    (w.resolve e o).settings = w.settings := by
  unfold resolve
  split
  · rfl
  · exact (settings_deliver _ e o).trans (settings_dispatch _ _)

theorem settings_takeSeat (w : World) (e : EntryId) (who : Waiter) :
    (w.takeSeat e who).1.settings = w.settings := by
  unfold takeSeat
  split <;> rfl

theorem settings_receive? {e : EntryId} {o : Outcome} (hr : w.receive? e = some (w', o)) :
    w'.settings = w.settings := by
  unfold receive? at hr
  split at hr
  · obtain ⟨rfl, -⟩ := Prod.mk.inj (Option.some.inj hr)
    rfl
  · exact absurd hr (by simp)

theorem settings_observe (w : World) (name : String) (kind : NoticeKind) (hooks : List Hook) :
    (w.observe name kind hooks).settings = w.settings := by
  have hkept : (w.subscribe kind ⟨name, hooks⟩).1.settings = w.settings := by cases kind <;> rfl
  unfold observe
  dsimp only
  split
  · exact hkept
  · exact hkept

theorem settings_finish (w : World) (id : TaskId) (terminated : Bool) :
    (w.setBackend (w.backend.finish w.clock id terminated)).settings = w.settings := by
  simp only [settings, setBackend, Scripted.finish]
  split <;> rfl

theorem settings_start {id : TaskId} {c : Command} {b : Scripted} {e : Execution}
    (hb : w.backend.start w.clock id c = .ok (b, e)) : (w.setBackend b).settings = w.settings := by
  unfold Scripted.start at hb
  dsimp only at hb
  split at hb
  · exact absurd hb (by simp)
  · obtain ⟨rfl, -⟩ := Prod.mk.inj (Except.ok.inj hb)
    rfl

/-- **Only scripting changes the settings.** -/
theorem settings_perform {a : Action} (ha : ∀ args s delay, a ≠ .script args s delay) :
    (w.perform a).1.settings = w.settings := by
  cases a with
  | script args s delay => exact absurd rfl (ha args s delay)
  | makeQueue | execute | reset => rfl
  | request queue op token handle =>
    simp only [perform, withQueue]
    split
    · exact settings_request w _ op token
    · rfl
  | cancel token =>
    obtain ⟨tokens, ready, heq⟩ := cancel_eq w token
    change (w.cancel token).settings = w.settings
    rw [heq]
    rfl
  | withhold queue value =>
    simp only [perform, withQueue]
    split <;> rfl
  | peek handle | watch handle =>
    simp only [perform, withHandle]
    split <;> rfl
  | describe handle =>
    simp only [perform, withHandle]
    split
    · split <;> rfl
    · rfl
  | compare a b =>
    simp only [perform, withHandle]
    split
    · split <;> rfl
    · rfl
  | observe name kind hooks => exact settings_observe w name kind hooks
  | unobserve name =>
    simp only [perform]
    split <;> rfl
  | countObservers | inspectManager | listRecords | undecodable | unknown => rfl
  | disposeManager =>
    obtain ⟨history, manager, heq, -⟩ := disposeManager_eq w
    change w.disposeManager.settings = w.settings
    rw [heq]
    rfl
  | abandon name =>
    simp only [perform]
    split
    · rfl
    · next j _ =>
      rw [abandonJob_names]
      rcases abandonJob_eq w j with heq | ⟨ready, heq⟩ <;> rw [heq] <;> rfl

theorem Touch.settings (ht : Touch Hook.IsReserved j w w') : w'.settings = w.settings := by
  cases ht with
  | noted | moved | numbered | guardTaken | lineJoined | lineLeft | timerSet | timerCleared
  | called | noticed | unseated | withheld | leftOpen | turnSet => rfl
  | guardReleased =>
    obtain ⟨ready, heq⟩ := releaseGuard_eq w
    rw [heq]
    rfl
  | listened token =>
    obtain ⟨tokens, heq⟩ := listen_eq w token j
    rw [heq]
    rfl
  | unlistened token =>
    obtain ⟨tokens, heq⟩ := unlisten_eq w token j
    rw [heq]
    rfl
  | begun hp hb => exact settings_start hb
  | ended terminated hp => exact settings_finish w _ terminated
  | acted site hh ha =>
    exact settings_perform (w := w) (Action.IsReserved.ne_script (hh.holds _ ha))
  | resolved o => exact settings_resolve w _ o
  | received hr => exact settings_receive? hr
  | seated e => exact settings_takeSeat w e _
  | asked q =>
    exact (settings_takeSeat _ _ _).trans (settings_request (w.withhold q true) q _ _)

/-- **In a turn with reserved hooks the settings stay as they are.** -/
theorem Touches.settings (ht : Touches Hook.IsReserved j w w') : w'.settings = w.settings := by
  induction ht with
  | refl => rfl
  | tail _ ht ih => exact ht.settings.trans ih

/-- When all starts take the same time, each does. -/
theorem startDelayOf_eq {d : Nat} (hd : w.settings.2 = ([], d)) (c : Command) :
    w.startDelayOf c = d := by
  obtain ⟨hdelays, hdelay⟩ := Prod.mk.inj hd
  change w.startDelays = [] at hdelays
  rw [startDelayOf, hdelays]
  exact hdelay

end Settings

/-! ## The job whose turn it is -/

section Own

variable {w w' : World} {call : Call} {errand errand' : Errand} {id : TaskId} {p p' : Position}
  {j : JobId}

/-- A start that takes no time is over at once. -/
theorem begin_poises_three (h : w.ServesAt call errand (.inLine id))
    (hd : w.startDelayOf call.command = 0) : Poises 3 call errand (w.begin call id) := by
  unfold begin
  split
  · exact poises_of_ne (by simp [cancelBeforeStart])
  · dsimp only
    split
    · exact launch_poises h.asksStart (by simp)
    · next hne => exact absurd hd hne

/-- A call that finds the right to start free does not wait for it. -/
theorem enter_poises_three (h : w.ServesAt call errand .fresh)
    (hfree : w.manager.guard.holder = none) (hd : w.startDelayOf call.command = 0) :
    Poises 3 call errand (w.enter call) := by
  unfold enter
  split
  · exact poises_of_ne (by simp)
  · dsimp only
    split
    · exact begin_poises_three h.takesGuard hd
    · next holder hholder =>
      rw [show (w.takeNumber call.job).manager.guard.holder = w.manager.guard.holder from rfl,
        hfree] at hholder
      exact absurd hholder (by simp)

/-- A piece of an execution leaves its job about to start only if it was so before. -/
theorem proceed_prompt (h : w.ServesAt call errand p) (hp : p.isEntering = false)
    (hfree : w.manager.guard.holder = none) (hd : w.startDelayOf call.command = 0)
    (hpaused : (w.proceed call).2 = .paused) (hat : (w.proceed call).1.At call.job errand' p') :
    p'.isEntering = false := by
  unfold proceed at hpaused hat
  rw [h.1.position_eq] at hpaused hat
  cases p with
  | fresh =>
    obtain ⟨p₁, hat₁, hlt, -⟩ := enter_poises_three h hfree hd hpaused
    rw [← (hat₁.unique hat).2]
    exact Position.isEntering_of_stagesLeft hlt
  | running id e =>
    simp only [proceedRunning] at hpaused hat
    split at hpaused
    · exact absurd hpaused (by simp only [complete, conclude]; split <;> simp)
    · next hdue =>
      rw [if_neg hdue] at hat
      split at hpaused
      · exact absurd hpaused (by simp only [terminate, conclude]; split <;> simp)
      · next hcalm =>
        rw [if_neg hcalm] at hat
        rw [← (h.1.unique hat).2]
        rfl
  | inLine | starting => exact Bool.noConfusion hp
  | telling | awaiting | done =>
    rw [← (h.1.unique hat).2]
    rfl

theorem goOn_prompt {e : EntryId} (entry : Entry) (h : w.ServesAt call (.operation e) p)
    (hp : p.isEntering = false) (hfree : w.manager.guard.holder = none)
    (hd : w.startDelayOf call.command = 0)
    (hat : (w.goOn call e entry).At call.job errand' p') : p'.isEntering = false := by
  have hprompt : _ → (w.proceed call).1.At call.job errand' p' → _ := proceed_prompt h hp hfree hd
  unfold goOn at hat
  rcases hw : w.proceed call with ⟨w₁, _ | result | _⟩ <;> rw [hw] at hprompt hat
  · exact hprompt rfl hat
  · unfold concludeOperation at hat
    rw [at_endJob hat]
    rfl
  · rw [at_endJob hat]
    rfl

/-- **A job that executes a command is not about to start** after its turn. -/
theorem turnJob_prompt (hw : Arises w) (hk : w.CalledBy Hook.IsReserved)
    (hd : w.settings.2 = ([], 0)) (hfree : w.manager.guard.holder = none) (hat : w.At j errand p)
    (hcall : errand.isCall) (hp : p.isEntering = false)
    (hat' : (w.turnJob j errand).At j errand' p') : p'.isEntering = false := by
  cases errand with
  | reset | watch | reopen => exact Bool.noConfusion hcall
  | operation e =>
    change (w.turnOperation j e).At j errand' p' at hat'
    obtain ⟨entry, call, he, rfl, hserves, ⟨-, heq⟩ | ⟨rfl, w₁, panicked, hr, heq⟩⟩ :=
      turnOperation_cases hw.isOrderly hat
    · rw [heq] at hat'
      exact goOn_prompt entry hserves hp hfree (startDelayOf_eq hd _) hat'
    · rw [heq] at hat'
      -- Neither the right to start nor the delays are changed by the calls of the reporter.
      have hcalls := reportAll_calls e (entry.operation.startCalls (w.queueName entry.queue)) w
      have hserves₁ := (reportAll_works (.inl rfl)
        (entry.operation.startCalls (w.queueName entry.queue)) hserves).2
      have hsettings := Touches.settings (reportAll_goes (.inl rfl)
        (entry.operation.startCalls (w.queueName entry.queue)) hserves hk)
      rw [hr] at hcalls hserves₁ hsettings
      cases panicked with
      | true =>
        rw [at_endJob hat']
        rfl
      | false =>
        refine goOn_prompt entry hserves₁ rfl ?_ (startDelayOf_eq ?_ _) hat'
        · rw [hcalls.mild.guard, hfree]
        · rw [hsettings, hd]
  | execution name command token =>
    have hserves : w.ServesAt ⟨j, command, token⟩ (.execution name command token) p := ⟨hat, rfl⟩
    have hprompt : _ → (w.proceed ⟨j, command, token⟩).1.At j errand' p' → _ :=
      proceed_prompt hserves hp hfree (startDelayOf_eq hd _)
    simp only [turnJob, turnExecution] at hat'
    rcases hr : w.proceed ⟨j, command, token⟩ with ⟨w₁, _ | (f | o) | _⟩ <;> rw [hr] at hprompt hat'
    · exact hprompt rfl hat'
    all_goals
      rw [at_endJob hat']
      rfl

end Own

/-! ## Nobody is about to start -/

section Prompt

variable {w w' : World} {j : JobId}

theorem isEntering_of_idle {p : Position} (h : p.id? = none) : p.isEntering = false := by
  cases p <;> first | rfl | exact absurd h (by simp [Position.id?])

/-- When nobody is about to start, the right to start is free. -/
theorem IsPrompt.holder (h : w.IsPrompt) (hw : Arises w) : w.manager.guard.holder = none := by
  cases hholder : w.manager.guard.holder with
  | none => rfl
  | some j =>
    obtain ⟨errand, id, hat | hat⟩ := hw.isLined.holding hholder
    · exact Bool.noConfusion (h hat)
    · exact Bool.noConfusion (h hat)

theorem IsPrompt.isUncontended (h : w.IsPrompt) (hw : Arises w) : w.IsUncontended :=
  fun _ _ _ => h.holder hw

theorem IsPrompt.spared (h : w.IsPrompt) (hs : Spares none w w') : w'.IsPrompt := by
  intro j errand p hat
  rcases hs.back (by simp) hat with hat | ⟨rfl, -⟩
  · exact h hat
  · rfl

/-- **When starts take no time, a turn leaves nobody about to start.** -/
theorem takeTurn_isPrompt (hw : Arises w) (hk : w.CalledBy Hook.IsReserved)
    (hd : w.settings.2 = ([], 0)) (h : w.IsPrompt) (hj : j ∈ w.ready) : (w.takeTurn j).IsPrompt := by
  have hfree := h.holder hw
  have hspares := turn_spares { w with ready := w.ready.erase j } j
  have harises := hw.changes (takeTurn_works hj).changes
  intro i errand p hat
  by_cases hij : i = j
  · subst hij
    -- Only a job that executes a command is ever about to start one.
    cases hcall : errand.isCall with
    | false => exact isEntering_of_idle (harises.isNumbered.idle hat hcall)
    | true =>
      obtain ⟨p₀, hold⟩ := hw.at_back_of_turn hj hat
      rcases takeTurn_cases hold with hover | hturned
      · rw [hover hat]
        rfl
      · have hset : Arises { w with ready := w.ready.erase i, current := some i } :=
          (hw.change (.drift (.turnTaken i hj))).change (.drift (.turnSet (some i)))
        rw [hturned] at hat
        exact turnJob_prompt hset hk hd hfree hold hcall (h hold) hat
  · rcases hspares.back (fun heq => hij (Option.some.inj heq)) hat with hat | ⟨rfl, -⟩
    · exact h hat
    · rfl

end Prompt

end World

end FolderTasks.Dispatch
