import FolderTasks.Proofs.Dispatch.LastingFacts
/-!
# What one job touches in its turn

A turn is made of elementary changes, but these do not say whose turn it is.  Here the turn of one
job is cut into the pieces that this job may touch: its own position, its place in the line, its
timers and its seat, the task that it runs, the entry that it executes, and whatever the callbacks
do that are called meanwhile.  What no such piece touches is left alone by the whole turn, in
particular all that belongs to other jobs.

The callbacks are bounded by a condition on hooks: it holds of the hooks that are registered, and of
those that they would register.

## Main definitions

* `Hook.Within`: a hook meets a condition, and so does every hook that it may subscribe.
* `World.CalledBy`: all registered hooks do.
* `World.Touch`, `World.Touches`: what a job may touch in its turn, while such hooks are called.

## Main statements

* `World.hooks_perform`: which hooks an action registers.
* `World.Touches.calledBy`: a turn registers no hooks but those that its callbacks may subscribe.
* `World.turn_touches`: a turn is made of what its job may touch.
-/

namespace FolderTasks.Dispatch

/-- The entry that a fact is about. -/
def Happening.entry? : Happening → Option EntryId
  | .absorbed e _ _ | .queued e _ _ _ | .dispatched e | .vacated e | .notExecuted e _ _ _
  | .finished e _ _ _ | .reported e _ _ | .reporterPanicked e _ | .resolved e _ => some e
  | _ => none

/-- Is it the panic of a callback? -/
def Happening.isPanic : Happening → Bool
  | .reporterPanicked _ _ | .observerPanicked _ _ => true
  | _ => false

/-- **A hook is within a condition** when it meets it and every hook does that it may subscribe. -/
inductive Hook.Within (K : Hook → Prop) : Hook → Prop where
  | mk {h : Hook} (hk : K h)
      (hsubscribes : ∀ name kind hooks, .observe name kind hooks ∈ h.actions →
        ∀ h' ∈ hooks, Hook.Within K h') : Hook.Within K h

/-- The hooks that an action subscribes meet a condition. -/
def Action.SubscribesWithin (K : Hook → Prop) (a : Action) : Prop :=
  ∀ name kind hooks, a = .observe name kind hooks → ∀ h ∈ hooks, h.Within K

theorem Hook.Within.holds {K : Hook → Prop} {h : Hook} (hh : h.Within K) : K h := by
  cases hh with
  | mk hk _ => exact hk

theorem Hook.Within.subscribesWithin {K : Hook → Prop} {h : Hook} (hh : h.Within K) {a : Action}
    (ha : a ∈ h.actions) : a.SubscribesWithin K := by
  cases hh with
  | mk _ hsubscribes =>
    rintro name kind hooks rfl
    exact hsubscribes name kind hooks ha

/-- What holds of all hooks holds of those that a hook may subscribe. -/
theorem Hook.within_of_forall {K : Hook → Prop} (hk : ∀ h, K h) (h : Hook) : h.Within K := by
  obtain ⟨on, nth, actions, panics⟩ := h
  refine .mk (hk _) ?_
  intro name kind hooks hmem h' hh'
  -- The hooks of an action are smaller than the action, and that is smaller than its hook.
  have haction := List.sizeOf_lt_of_mem hmem
  have hhook := List.sizeOf_lt_of_mem hh'
  exact within_of_forall hk h'
termination_by sizeOf h
decreasing_by
  simp only [Hook.mk.sizeOf_spec, Action.observe.sizeOf_spec, Hook.actions] at *
  omega

namespace World

/-- The hooks that are registered: of the reporter and of all observers. -/
def hooks (w : World) : List Hook :=
  w.reporter.hooks ++ (w.manager.startObservers.callbacks ++
    w.manager.endObservers.callbacks).flatMap fun o => o.2.hooks

/-- **The callbacks are made by hooks within a condition.** -/
def CalledBy (K : Hook → Prop) (w : World) : Prop := ∀ h ∈ w.hooks, h.Within K

/-- **What a job may touch in its turn**, while hooks within a condition are called. -/
inductive Touch (K : Hook → Prop) (j : JobId) : World → World → Prop where
  /-- What is told of an entry is told of the one that the job executes, and a panic is written down
  when a hook has panicked. -/
  | noted {w : World} (x : Happening) (hx : ∀ e, x.entry? = some e →
      x.origin = .telling ∧ ∃ p, w.At j (.operation e) p)
      (hpanic : x.isPanic → ∃ h : Hook, h.Within K ∧ h.panics) : Touch K j w (w.note x)
  | moved {w : World} {p : Position} (hp : p ≠ .fresh) : Touch K j w (w.setPosition j p)
  | numbered {w : World} : Touch K j w (w.takeNumber j)
  | guardTaken {w : World} : Touch K j w (w.takeGuard j)
  | guardReleased {w : World} : Touch K j w w.releaseGuard
  | lineJoined {w : World} : Touch K j w (w.joinLine j)
  | lineLeft {w : World} : Touch K j w (w.leaveLine j)
  | listened {w : World} (token : Option String) : Touch K j w (w.listen token j)
  | unlistened {w : World} (token : Option String) : Touch K j w (w.unlisten token j)
  | timerSet {w : World} (deadline : Nat) : Touch K j w (w.setTimer deadline j)
  | timerCleared {w : World} : Touch K j w (w.clearTimer j)
  /-- The backend starts the command of the job. -/
  | begun {w : World} {id : TaskId} {c : Command} {b : Scripted} {e : Execution}
      (hp : w.position j = .starting id) (hb : w.backend.start w.clock id c = .ok (b, e)) :
      Touch K j w (w.setBackend b)
  /-- The execution of the job ends. -/
  | ended {w : World} {id : TaskId} {e : Execution} (terminated : Bool)
      (hp : w.position j = .running id e) :
      Touch K j w (w.setBackend (w.backend.finish w.clock id terminated))
  | called {w : World} (calls : List StatusKind) : Touch K j w (w.keepCalls calls)
  | noticed {w : World} (calls : List (NoticeKind × Nat)) : Touch K j w (w.keepNotices calls)
  /-- A hook does an action, and the reply is written down. -/
  | acted {w : World} (site : CallbackSite) {h : Hook} (hh : h.Within K) {a : Action}
      (ha : a ∈ h.actions) :
      Touch K j w ((w.perform a).1.note (.hookAnswered site (w.perform a).2))
  /-- The entry that the job executes leaves its slot. -/
  | resolved {w : World} {e : EntryId} {p : Position} (o : Outcome)
      (hat : w.At j (.operation e) p) : Touch K j w (w.resolve e o)
  | received {w w' : World} {e : EntryId} {o : Outcome} (hr : w.receive? e = some (w', o)) :
      Touch K j w w'
  | seated {w : World} (e : EntryId) : Touch K j w (w.takeSeat e (.job j)).1
  | unseated {w : World} (e : EntryId) (seat : Nat) : Touch K j w (w.leaveSeat e seat)
  | withheld {w : World} (q : QueueId) (value : Bool) : Touch K j w (w.withhold q value)
  /-- A reset requests its operation, and waits for it. -/
  | asked {w : World} {name : String} {folder : Path} {token : Option String} (q : QueueId)
      (hat : w.At j (.reset name folder token) .fresh) : Touch K j w (w.askReset j q folder token)
  /-- A reset that is given up leaves it to another job to open its queue again. -/
  | leftOpen {w : World} {name : String} {folder : Path} {token : Option String} {e : EntryId}
      {seat : Nat} (q : QueueId) (hat : w.At j (.reset name folder token) (.awaiting e seat)) :
      Touch K j w (w.spawn (.reopen q e)).1
  | turnSet {w : World} (current : Option JobId) : Touch K j w { w with current }

/-- Any number of such touches. -/
abbrev Touches (K : Hook → Prop) (j : JobId) : World → World → Prop :=
  Relation.ReflTransGen (Touch K j)

/-! ## Which hooks are registered -/

section Hooks

variable {K : Hook → Prop} {w w' : World} {j : JobId}

theorem mem_hooks {h : Hook} : h ∈ w.hooks ↔ h ∈ w.reporter.hooks ∨
    ∃ o ∈ w.manager.startObservers.callbacks ++ w.manager.endObservers.callbacks,
      h ∈ o.2.hooks := by
  rw [hooks, List.mem_append, List.mem_flatMap]

theorem hooks_wakeAll (w : World) (js : List JobId) : (w.wakeAll js).hooks = w.hooks := by
  obtain ⟨ready, heq⟩ := wakeAll_eq js w
  rw [heq]
  rfl

theorem hooks_dispatch (w : World) (q : QueueId) : (w.dispatch q).hooks = w.hooks := by
  rcases dispatch_eq w q with heq | ⟨queue, e, rest, -, -, -, heq⟩ <;> rw [heq]
  rfl

theorem hooks_request (w : World) (q : QueueId) (op : Operation) (token : Option String) :
    (w.request q op token).1.hooks = w.hooks := by
  rcases request_eq w q op token with heq | ⟨queue, e, -, -, heq⟩ | ⟨queue, -, -, heq⟩ <;> rw [heq]
  · rfl
  · exact hooks_dispatch _ q

theorem hooks_deliver (w : World) (e : EntryId) (o : Outcome) :
    (w.deliver e o).hooks = w.hooks := by
  unfold deliver
  split
  · rfl
  · exact hooks_wakeAll _ _

theorem hooks_resolve (w : World) (e : EntryId) (o : Outcome) :
    (w.resolve e o).hooks = w.hooks := by
  unfold resolve
  split
  · rfl
  · exact (hooks_deliver _ e o).trans (hooks_dispatch _ _)

theorem hooks_takeSeat (w : World) (e : EntryId) (who : Waiter) :
    (w.takeSeat e who).1.hooks = w.hooks := by
  unfold takeSeat
  split <;> rfl

theorem hooks_receive? {e : EntryId} {o : Outcome} (hr : w.receive? e = some (w', o)) :
    w'.hooks = w.hooks := by
  unfold receive? at hr
  split at hr
  · obtain ⟨rfl, -⟩ := Prod.mk.inj (Option.some.inj hr)
    rfl
  · exact absurd hr (by simp)

theorem hooks_releaseObserver (kind : NoticeKind) (number : Nat) {h : Hook}
    (hh : h ∈ (w.releaseObserver kind number).hooks) : h ∈ w.hooks := by
  rw [mem_hooks] at hh ⊢
  refine hh.imp_right ?_
  rintro ⟨o, ho, hh⟩
  refine ⟨o, ?_, hh⟩
  rw [List.mem_append] at ho ⊢
  cases kind
  · exact ho.imp_left fun ho => (List.mem_filter.1 ho).1
  · exact ho.imp_right fun ho => (List.mem_filter.1 ho).1

theorem hooks_subscribe (kind : NoticeKind) (o : Observer) {h : Hook}
    (hh : h ∈ (w.subscribe kind o).1.hooks) : h ∈ w.hooks ∨ h ∈ o.hooks := by
  rw [mem_hooks] at hh ⊢
  rcases hh with hh | ⟨o', ho', hh⟩
  · refine .inl (.inl ?_)
    cases kind <;> exact hh
  · have hmem : o' ∈ w.manager.startObservers.callbacks ++ w.manager.endObservers.callbacks ∨
        o'.2 = o := by
      cases kind <;> simp only [subscribe, Registry.subscribe, List.mem_append,
        List.mem_singleton] at ho' ⊢
      · rcases ho' with (ho' | rfl) | ho'
        · exact .inl (.inl ho')
        · exact .inr rfl
        · exact .inl (.inr ho')
      · rcases ho' with ho' | ho' | rfl
        · exact .inl (.inl ho')
        · exact .inl (.inr ho')
        · exact .inr rfl
    rcases hmem with hmem | rfl
    · exact .inl (.inr ⟨o', hmem, hh⟩)
    · exact .inr hh

/-- **An action registers the hooks that it subscribes**, and no others. -/
theorem hooks_perform (a : Action) {h : Hook} (hh : h ∈ (w.perform a).1.hooks) :
    h ∈ w.hooks ∨ ∃ name kind hooks, a = .observe name kind hooks ∧ h ∈ hooks := by
  have hqueue {key : String} {f : QueueId → World × Reply}
      (hf : ∀ q, (f q).1.hooks = w.hooks) : (w.withQueue key f).1.hooks = w.hooks := by
    unfold withQueue
    split
    · exact hf _
    · rfl
  have hhandle {name : String} {f : EntryId → World × Reply}
      (hf : ∀ e, (f e).1.hooks = w.hooks) : (w.withHandle name f).1.hooks = w.hooks := by
    unfold withHandle
    split
    · exact hf _
    · rfl
  have hsame (heq : (w.perform a).1.hooks = w.hooks) :
      h ∈ w.hooks ∨ ∃ name kind hooks, a = .observe name kind hooks ∧ h ∈ hooks :=
    .inl (heq ▸ hh)
  cases a with
  | script args s startDelay => cases startDelay <;> exact hsame rfl
  | makeQueue | countObservers | inspectManager | listRecords | execute | reset | undecodable
  | unknown => exact hsame rfl
  | request queue op token handle => exact hsame (hqueue fun q => hooks_request w q op token)
  | cancel token =>
    obtain ⟨tokens, ready, heq⟩ := cancel_eq w token
    refine hsame ?_
    change (w.cancel token).hooks = _
    rw [heq]
    rfl
  | withhold queue value => exact hsame (hqueue fun q => rfl)
  | peek handle => exact hsame (hhandle fun e => rfl)
  | describe handle =>
    refine hsame (hhandle fun e => ?_)
    split <;> rfl
  | compare a b => exact hsame (hhandle fun e => hhandle fun e' => rfl)
  | watch handle => exact hsame (hhandle fun e => rfl)
  | observe name kind hooks =>
    have hsubscribed {w₁ : World} (hw₁ : w₁.hooks = (w.subscribe kind ⟨name, hooks⟩).1.hooks)
        (hh : h ∈ w₁.hooks) :
        h ∈ w.hooks ∨ ∃ name' kind' hooks', Action.observe name kind hooks =
          .observe name' kind' hooks' ∧ h ∈ hooks' :=
      (hooks_subscribe kind ⟨name, hooks⟩ (hw₁ ▸ hh)).imp_right fun hh =>
        ⟨name, kind, hooks, rfl, hh⟩
    simp only [perform, observe] at hh
    split at hh
    · exact hsubscribed rfl hh
    · refine hsubscribed ?_ (hooks_releaseObserver _ _ hh)
      rfl
  | unobserve name =>
    simp only [perform] at hh
    split at hh
    · exact .inl hh
    · exact .inl (hooks_releaseObserver (w := w.forgetObserver name) _ _ hh)
  | disposeManager =>
    refine .inl ?_
    rw [mem_hooks] at hh ⊢
    rcases hh with hh | ⟨o, ho, -⟩
    · refine .inl ?_
      simp only [perform, disposeManager] at hh
      split at hh <;> exact hh
    · exact absurd ho List.not_mem_nil
  | abandon name =>
    simp only [perform] at hh
    split at hh
    · exact .inl hh
    · next j hj =>
      rw [abandonJob_names] at hh
      rcases abandonJob_eq w j with heq | ⟨ready, heq⟩ <;> rw [heq] at hh <;> exact .inl hh

theorem CalledBy.of_eq (h : w.CalledBy K) (heq : w'.hooks = w.hooks) : w'.CalledBy K := by
  intro hook hmem
  exact h hook (heq ▸ hmem)

theorem CalledBy.perform (h : w.CalledBy K) {a : Action} (ha : a.SubscribesWithin K) :
    (w.perform a).1.CalledBy K := by
  intro hook hmem
  rcases hooks_perform a hmem with hold | ⟨name, kind, hooks, heq, hnew⟩
  · exact h hook hold
  · exact ha name kind hooks heq hook hnew

theorem Touch.calledBy (ht : Touch K j w w') (h : w.CalledBy K) : w'.CalledBy K := by
  cases ht with
  | noted | moved | numbered | guardTaken | lineJoined | lineLeft | timerSet | timerCleared
  | begun | ended | called | noticed | unseated | withheld | leftOpen | turnSet => exact h
  | guardReleased =>
    obtain ⟨ready, heq⟩ := releaseGuard_eq w
    rw [heq]
    exact h
  | listened token =>
    obtain ⟨tokens, heq⟩ := listen_eq w token j
    rw [heq]
    exact h
  | unlistened token =>
    obtain ⟨tokens, heq⟩ := unlisten_eq w token j
    rw [heq]
    exact h
  | acted site hh ha => exact CalledBy.perform (w := w) h (hh.subscribesWithin ha)
  | resolved o => exact h.of_eq (hooks_resolve w _ o)
  | received hr => exact h.of_eq (hooks_receive? hr)
  | seated e => exact h.of_eq (hooks_takeSeat w e _)
  | asked q =>
    refine h.of_eq ?_
    exact (hooks_takeSeat _ _ _).trans (hooks_request (w.withhold q true) q _ _)

/-- **A turn registers no hooks** but those that its callbacks may subscribe. -/
theorem Touches.calledBy (ht : Touches K j w w') (h : w.CalledBy K) : w'.CalledBy K := by
  induction ht with
  | refl => exact h
  | tail _ ht ih => exact ht.calledBy ih

end Hooks

/-! ## The pieces of a turn -/

/-- **A job gets from one world to another** by what it may touch, if the hooks are as they should
be. -/
def Goes (K : Hook → Prop) (j : JobId) (w w' : World) : Prop := w.CalledBy K → Touches K j w w'

section Pieces

variable {K : Hook → Prop} {w w' w'' : World} {j : JobId} {p : Position}

theorem Goes.refl (w : World) : Goes K j w w := fun _ => .refl

theorem Goes.trans (h : Goes K j w w') (h' : Goes K j w' w'') : Goes K j w w'' := by
  intro hk
  have hfirst := h hk
  exact hfirst.trans (h' (hfirst.calledBy hk))

theorem Touch.goes (h : Touch K j w w') : Goes K j w w' := fun _ => .single h

theorem Goes.tail (h : Goes K j w w') (h' : Touch K j w' w'') : Goes K j w w'' := h.trans h'.goes

/-- A fact that is not about an entry, and no panic. -/
theorem goes_note (w : World) (j : JobId) {x : Happening} (hx : x.entry? = none)
    (hcalm : x.isPanic = false) : Goes K j w (w.note x) := by
  refine (Touch.noted x (fun e he => ?_) fun hpanic => ?_).goes
  · rw [hx] at he
    exact absurd he (by simp)
  · exact absurd (hcalm.symm.trans hpanic) (by simp)

/-- A fact that is told of the entry that a job executes, and no panic. -/
theorem At.goes_note {e : EntryId} (hat : w.At j (.operation e) p) {x : Happening}
    (hx : x.entry? = some e) (ho : x.origin = .telling) (hcalm : x.isPanic = false) :
    Goes K j w (w.note x) := by
  refine (Touch.noted x (fun e' he' => ?_) fun hpanic => ?_).goes
  · obtain rfl := Option.some.inj (hx.symm.trans he')
    exact ⟨ho, p, hat⟩
  · exact absurd (hcalm.symm.trans hpanic) (by simp)

/-! ### Callbacks -/

theorem runActions_goes (site : CallbackSite) {h : Hook} (hh : h.Within K) {actions : List Action}
    (hactions : ∀ a ∈ actions, a ∈ h.actions) (w : World) :
    Goes K j w (w.runActions site actions) := by
  induction actions generalizing w with
  | nil => exact .refl w
  | cons a actions ih =>
    have hfirst := (Touch.acted (K := K) (j := j) (w := w) site hh
      (hactions a List.mem_cons_self)).goes
    exact hfirst.trans (ih (fun a ha => hactions a (List.mem_cons_of_mem _ ha)) _)

theorem runHooks_goes (site : CallbackSite) {hooks : List Hook} (hhooks : ∀ h ∈ hooks, h.Within K)
    (w : World) : Goes K j w (runHooks site hooks w).1 := by
  induction hooks generalizing w with
  | nil => exact .refl w
  | cons h hooks ih =>
    have hfirst := runActions_goes (j := j) site (hhooks h List.mem_cons_self)
      (fun _ ha => ha) w
    simp only [runHooks]
    split
    · exact hfirst
    · exact hfirst.trans (ih (fun h hh => hhooks h (List.mem_cons_of_mem _ hh)) _)

/-- Where hooks end in a panic one of them panics. -/
theorem exists_panics {site : CallbackSite} {hooks : List Hook} {w : World}
    (h : (runHooks site hooks w).2 = true) : ∃ hook ∈ hooks, hook.panics := by
  induction hooks generalizing w with
  | nil => exact absurd h Bool.false_ne_true
  | cons hook hooks ih =>
    simp only [runHooks] at h
    split at h
    · next hpanics => exact ⟨hook, List.mem_cons_self, hpanics⟩
    · obtain ⟨hook', hmem, hpanics⟩ := ih h
      exact ⟨hook', List.mem_cons_of_mem _ hmem, hpanics⟩

/-- The hooks of a callback are among those that are registered. -/
theorem runHooks_goes_of_mem (site : CallbackSite) {hooks : List Hook}
    (hhooks : ∀ h ∈ hooks, h ∈ w.hooks) : Goes K j w (runHooks site hooks w).1 :=
  fun hk => runHooks_goes site (fun h hh => hk h (hhooks h hh)) w hk

theorem report_goes {e : EntryId} (hat : w.At j (.operation e) p) (call : StatusCall) :
    Goes K j w (w.report e call).1 := by
  have htold := hat.goes_note (K := K) (x := .reported e call (w.isRecorded e)) rfl rfl rfl
  unfold report
  dsimp only
  split
  · generalize hw₁ : (w.note (.reported e call (w.isRecorded e))).keepCalls _ = w₁
    have hcalled : Goes K j w w₁ := hw₁ ▸ htold.tail (.called _)
    have hat₁ : w₁.At j (.operation e) p := hw₁ ▸ hat
    have hhooks : w₁.hooks = w.hooks := hw₁ ▸ rfl
    have hmem : ∀ h ∈ (w.note (.reported e call (w.isRecorded e))).reporter.hooks.filter
        (fun h => h.actsOn call.kind ((call.kind ::
          (w.note (.reported e call (w.isRecorded e))).reporter.calls).count call.kind)),
        h ∈ w₁.hooks := by
      intro h hh
      rw [hhooks]
      exact List.mem_append_left _ (List.mem_filter.1 hh).1
    have hrun := hcalled.trans (runHooks_goes_of_mem (.status call.kind) hmem)
    have hreporter : w₁.reporter.hooks = w.reporter.hooks := hw₁ ▸ rfl
    rw [hreporter]
    split
    · next hpanicked =>
      obtain ⟨h, hh, hpanics⟩ := exists_panics hpanicked
      refine fun hk => hrun.trans (Touch.noted _ (fun e' he' => ?_) fun _ => ?_).goes hk
      · obtain rfl := Option.some.inj he'
        exact ⟨rfl, p, (runHooks_deeds _ _ w₁).at hat₁⟩
      · exact ⟨h, hk h (hhooks ▸ hmem h hh), hpanics⟩
    · exact hrun
  · exact htold

theorem reportAll_goes {call : Call} {e : EntryId} (hp : p = .fresh ∨ p = .telling)
    (calls : List StatusCall) (h : w.ServesAt call (.operation e) p) :
    Goes K call.job w (reportAll e calls w).1 := by
  induction calls generalizing w with
  | nil => exact .refl w
  | cons status calls ih =>
    have hfirst := report_goes (K := K) h.1 status
    simp only [reportAll]
    split
    · exact hfirst
    · exact hfirst.trans (ih (report_works status h hp).2)

theorem callObservers_goes {kind : NoticeKind} {id : TaskId} (fact : String → Happening)
    (hfact : ∀ name, Happening.entry? (fact name) = none ∧ (fact name).isPanic = false)
    (observers : List (Nat × Observer))
    (hobservers : ∀ o ∈ observers, ∀ h ∈ o.2.hooks, h.Within K) (w : World) :
    Goes K j w (callObservers kind id fact observers w).1 := by
  induction observers generalizing w with
  | nil => exact .refl w
  | cons o observers ih =>
    have hcalled (calls : List (NoticeKind × Nat)) :=
      (goes_note (K := K) w j (hfact o.2.name).1 (hfact o.2.name).2).tail (.noticed calls)
    have hhooks (n : Nat) : ∀ h ∈ o.2.hooks.filter fun h => h.actsAt n, h.Within K :=
      fun h hh => hobservers o List.mem_cons_self h (List.mem_filter.1 hh).1
    have hrun (calls : List (NoticeKind × Nat)) := (hcalled calls).trans
      (runHooks_goes .observer (hhooks (calls.count (kind, o.1))) _)
    simp only [callObservers]
    split
    · next hpanicked =>
      obtain ⟨h, hh, hpanics⟩ := exists_panics hpanicked
      refine (hrun _).trans (Touch.noted _ (fun e he => ?_) fun _ => ⟨h, hhooks _ h hh, hpanics⟩).goes
      exact absurd he (by simp [Happening.entry?])
    · exact (hrun _).trans (ih (fun o ho => hobservers o (List.mem_cons_of_mem _ ho)) _)

theorem announceStart_goes (w : World) (id : TaskId) (c : Command) :
    Goes K j w (w.announceStart id c).1 := by
  intro hk
  have hcalls : Goes K j (w.note (.startAnnounced id c)) (callObservers .start id
      (fun name => .startNoticed name id c) w.manager.startObservers.callbacks
      (w.note (.startAnnounced id c))).1 :=
    callObservers_goes _ (fun _ => ⟨rfl, rfl⟩) _
      (fun o ho h hh => hk h (mem_hooks.2 (.inr ⟨o, List.mem_append_left _ ho, hh⟩))) _
  exact ((goes_note w j rfl rfl).trans hcalls) hk

theorem announceEnd_goes (w : World) (id : TaskId) (c : Command) (code : Option Int32) :
    Goes K j w (w.announceEnd id c code).1 := by
  intro hk
  have hcalls : Goes K j (w.note (.endAnnounced id c code)) (callObservers .finish id
      (fun name => .endNoticed name id c code) w.manager.endObservers.callbacks
      (w.note (.endAnnounced id c code))).1 :=
    callObservers_goes _ (fun _ => ⟨rfl, rfl⟩) _
      (fun o ho h hh => hk h (mem_hooks.2 (.inr ⟨o, List.mem_append_right _ ho, hh⟩))) _
  exact ((goes_note w j rfl rfl).trans hcalls) hk

/-! ### Executing a command -/

variable {call : Call} {errand : Errand} {id : TaskId}

theorem conclude_goes (w : World) (call : Call) (id : TaskId) (code : Option Int32)
    (outcome : Outcome) : Goes K call.job w (w.conclude call id code outcome).1 := by
  have hended := (goes_note (K := K) w call.job (x := .ended id call.command code) rfl rfl).tail
    (.moved (p := .telling) (by simp))
  exact hended.trans (announceEnd_goes _ id call.command code)

theorem complete_goes {e : Execution} (h : w.ServesAt call errand (.running id e)) :
    Goes K call.job w (w.complete call id e).1 :=
  (Touch.ended false h.1.position_eq).goes.trans (conclude_goes _ call id _ _)

theorem terminate_goes {e : Execution} (h : w.ServesAt call errand (.running id e)) :
    Goes K call.job w (w.terminate call id).1 := by
  have htold := goes_note (K := K) w call.job (x := .terminating id) rfl rfl
  refine (htold.tail ?_).trans (conclude_goes _ call id none .cancelled)
  exact .ended (w := w.note (.terminating id)) (e := e) true h.1.position_eq

theorem follow_goes {e : Execution} (h : w.ServesAt call errand (.running id e)) :
    Goes K call.job w (w.follow call id e).1 := by
  unfold follow
  split
  · exact complete_goes h
  · split
    · exact terminate_goes h
    · exact (Touch.timerSet e.deadline).goes.tail (.listened call.token)

theorem announceStart_servesAt {e : Execution} (h : w.ServesAt call errand (.running id e)) :
    (w.announceStart id call.command).1.ServesAt call errand (.running id e) :=
  (callObservers_works (fun name => .startNoticed name id call.command)
    (fun {w} name calls (h : w.CallAt call (.running id e)) => .startNoticed name calls h)
    (fun h => .startPanicked h) w.manager.startObservers.callbacks
    (w := w.note (.startAnnounced id call.command)) h).2.1

theorem launch_goes (h : w.ServesAt call errand (.starting id)) :
    Goes K call.job w (w.launch call id).1 := by
  unfold launch
  split
  · next f hb =>
    exact ((goes_note w call.job rfl rfl).tail (.moved (by simp))).tail .guardReleased
  · next b e hb =>
    have hstarted : Goes K call.job w ((((w.setBackend b).note
        (.started id call.command)).setPosition call.job (.running id e)).releaseGuard) :=
      (((Touch.begun h.1.position_eq hb).goes.trans (goes_note _ call.job rfl rfl)).tail
        (.moved (by simp))).tail .guardReleased
    have hserves := h.started b e
    dsimp only
    generalize ((((w.setBackend b).note (.started id call.command)).setPosition call.job
      (.running id e)).releaseGuard) = w₁ at hstarted hserves ⊢
    have hannounced := hstarted.trans (announceStart_goes (K := K) w₁ id call.command)
    split
    · exact hannounced.tail (.moved (by simp))
    · exact hannounced.trans (follow_goes (announceStart_servesAt hserves))

theorem cancelBeforeStart_goes (w : World) (call : Call) (id : TaskId) :
    Goes K call.job w (w.cancelBeforeStart call id).1 :=
  (goes_note w call.job rfl rfl).tail (.moved (by simp))

theorem begin_goes (h : w.ServesAt call errand (.inLine id)) :
    Goes K call.job w (w.begin call id).1 := by
  unfold begin
  split
  · exact Touch.guardReleased.goes.trans (cancelBeforeStart_goes _ call id)
  · have hasked : Goes K call.job w ((w.note (.startAsked id call.command)).setPosition call.job
        (.starting id)) := (goes_note w call.job rfl rfl).tail (.moved (by simp))
    dsimp only
    split
    · exact hasked.trans (launch_goes h.asksStart)
    · exact hasked.tail (.timerSet _)

theorem enter_goes (h : w.ServesAt call errand .fresh) : Goes K call.job w (w.enter call).1 := by
  unfold enter
  split
  · exact (Touch.moved (by simp)).goes
  · have hnumbered : Goes K call.job w (w.takeNumber call.job) := Touch.numbered.goes
    dsimp only
    split
    · exact ((hnumbered.tail .guardTaken).tail (.moved (by simp))).trans (begin_goes h.takesGuard)
    · have hwaits := hnumbered.trans
        (goes_note (K := K) _ call.job (x := .waitsToStart w.nextId) rfl rfl)
      split
      · exact hwaits.trans (cancelBeforeStart_goes _ call w.nextId)
      · exact ((hwaits.tail .lineJoined).tail (.moved (by simp))).tail (.listened call.token)

/-- The pieces of an execution touch what the job may touch. -/
theorem proceed_goes (h : w.ServesAt call errand p) : Goes K call.job w (w.proceed call).1 := by
  have hunlistened : Goes K call.job w (w.unlisten call.token call.job) :=
    (Touch.unlistened call.token).goes
  unfold proceed
  rw [h.1.position_eq]
  cases p with
  | fresh => exact enter_goes h
  | inLine id =>
    simp only [proceedInLine]
    split
    · exact hunlistened.trans (begin_goes h.unlisten)
    · split
      · exact (hunlistened.tail .lineLeft).trans (cancelBeforeStart_goes _ call id)
      · exact .refl w
  | starting id =>
    simp only [proceedStarting]
    split
    · exact .refl w
    · exact launch_goes h
  | running id e =>
    simp only [proceedRunning]
    split
    · exact hunlistened.trans (complete_goes h.unlisten)
    · split
      · have hcleared : ((w.unlisten call.token call.job).clearTimer call.job).ServesAt call errand
            (.running id e) := h.unlisten
        exact (hunlistened.tail .timerCleared).trans (terminate_goes hcleared)
      · exact .refl w
  | telling | awaiting | done => exact .refl w

theorem dropExecution_goes (w : World) (call : Call) :
    Goes K call.job w (w.dropExecution call) := by
  have hcleared : Goes K call.job w ((w.unlisten call.token call.job).clearTimer call.job) :=
    (Touch.unlistened call.token).goes.tail .timerCleared
  unfold dropExecution
  dsimp only
  split
  · split
    · exact hcleared.tail .guardReleased
    · exact hcleared.tail .lineLeft
  · exact hcleared.tail .guardReleased
  · exact hcleared

/-! ### Turns -/

theorem endJob_goes (w : World) (j : JobId) : Goes K j w (w.endJob j) :=
  (Touch.moved (by simp)).goes

/-- An entry leaves its slot, and its job is over. -/
theorem At.closed_goes {e : EntryId} (hat : w.At j (.operation e) p) (o : Outcome) :
    Goes K j w ((w.resolve e o).endJob j) :=
  (Touch.resolved o hat).goes.trans (endJob_goes _ j)

theorem concludeOperation_goes {e : EntryId} (entry : Entry)
    (h : w.ServesAt call (.operation e) .telling) (result : Except Failure Outcome) :
    Goes K call.job w (w.concludeOperation call.job e entry result) := by
  -- Whatever the outcome, it is told, and then the slot is freed.
  have hrest {w : World} (h : w.ServesAt call (.operation e) .telling) (name : String) (o : Outcome)
      (calls : List StatusCall) :
      let told := reportAll e calls (w.note (.finished e name entry.operation.label o))
      Goes K call.job w
        ((told.1.resolve e (if told.2 then .terminated else o)).endJob call.job) := by
    have hreported := (h.1.goes_note (K := K) (x := .finished e name entry.operation.label o) rfl
      rfl rfl).trans
      (reportAll_goes (.inr rfl) calls (w := w.note (.finished e name entry.operation.label o)) h)
    have hserves := (reportAll_works (.inr rfl) calls
      (w := w.note (.finished e name entry.operation.label o)) h).2
    exact hreported.trans (hserves.1.closed_goes _)
  unfold concludeOperation
  cases result with
  | ok o => exact hrest h _ o _
  | error f =>
    have htold := h.1.goes_note (K := K)
      (x := .notExecuted e (w.queueName entry.queue) entry.operation.label f) rfl rfl rfl
    exact htold.trans (hrest (w := w.note _) h _ _ _)

theorem goOn_goes {e : EntryId} (entry : Entry) (h : w.ServesAt call (.operation e) p) :
    Goes K call.job w (w.goOn call e entry) := by
  unfold goOn
  have hgoes := proceed_goes (K := K) h
  have hleads := proceed_leads h
  rcases hw : w.proceed call with ⟨w', _ | result | _⟩ <;> rw [hw] at hleads hgoes
  · exact hgoes
  · exact hgoes.trans (concludeOperation_goes entry
      (hleads.concluded.resolve_left (by simp)) result)
  · exact hgoes.trans ((hleads.concluded.resolve_left (by simp)).1.closed_goes _)

theorem turnOperation_goes {e : EntryId} (hat : w.At j (.operation e) p) :
    Goes K j w (w.turnOperation j e) := by
  unfold turnOperation
  split
  · exact endJob_goes w j
  · next entry he =>
    dsimp only
    generalize hcall : (⟨j, entry.operation.command, entry.token⟩ : Call) = call
    have hserves : w.ServesAt call (.operation e) p := hcall ▸ hat.servesAt he
    obtain rfl : j = call.job := by rw [← hcall]
    split
    · next hfresh =>
      rw [hserves.1.position_eq] at hfresh
      subst hfresh
      have hreported := reportAll_goes (K := K) (.inl rfl)
        (entry.operation.startCalls (w.queueName entry.queue)) hserves
      have hserves' := (reportAll_works (.inl rfl)
        (entry.operation.startCalls (w.queueName entry.queue)) hserves).2
      split
      · exact hreported.trans (hserves'.1.closed_goes _)
      · exact hreported.trans (goOn_goes entry hserves')
    · exact goOn_goes entry hserves

theorem turnExecution_goes {name : String} {command : Command} {token : Option String}
    (hat : w.At j (.execution name command token) p) :
    Goes K j w (w.turnExecution j name command token) := by
  have hserves : w.ServesAt ⟨j, command, token⟩ (.execution name command token) p := ⟨hat, rfl⟩
  have hgoes := proceed_goes (K := K) hserves
  have hended {w' : World} (result : JobResult) :
      Goes K j w' ((w'.note (.jobEnded .execution name result)).endJob j) :=
    (goes_note w' j rfl rfl).trans (endJob_goes _ j)
  unfold turnExecution
  rcases hw : w.proceed ⟨j, command, token⟩ with ⟨w', _ | (f | o) | _⟩ <;> rw [hw] at hgoes
  · exact hgoes
  · exact hgoes.trans (hended _)
  · exact hgoes.trans (hended _)
  · exact hgoes.trans (hended _)

theorem turnAwait_goes {e : EntryId} {goOn : World → Outcome → World}
    (hgoOn : ∀ {w' : World} {o : Outcome}, w.receive? e = some (w', o) → Goes K j w' (goOn w' o)) :
    Goes K j w (w.turnAwait j e goOn) := by
  unfold turnAwait
  split
  · next w' o hr => exact ((Touch.received hr).goes.trans (hgoOn hr)).trans (endJob_goes _ j)
  · split
    · exact .refl w
    · exact (Touch.seated e).goes.tail (.moved (by simp))

theorem reopen_goes (w : World) (j : JobId) (q : QueueId) (e : EntryId) :
    Goes K j w (w.reopen q e) := (Touch.withheld q false).goes.trans (goes_note _ j rfl rfl)

theorem turnReset_goes {name : String} {folder : Path} {token : Option String}
    (hat : w.At j (.reset name folder token) p) : Goes K j w (w.turnReset j name folder token) := by
  unfold turnReset
  rw [hat.position_eq]
  split
  · next e seat =>
    split
    · exact endJob_goes w j
    · next entry he =>
      refine turnAwait_goes fun {w' o} _ => ?_
      exact ((goes_note w' j rfl rfl).trans (reopen_goes _ j entry.queue e)).trans
        (goes_note _ j rfl rfl)
  · split
    · exact (goes_note w j rfl rfl).trans (endJob_goes _ j)
    · next q hq => exact (Touch.asked q hat).goes
  · exact .refl w

theorem turnJob_goes (hat : w.At j errand p) : Goes K j w (w.turnJob j errand) := by
  cases errand with
  | operation e => exact turnOperation_goes hat
  | execution name command token => exact turnExecution_goes hat
  | reset name folder token => exact turnReset_goes hat
  | watch handle e =>
    refine turnAwait_goes fun {w' o} _ => ?_
    split
    · exact goes_note w' j rfl rfl
    · exact .refl w'
  | reopen q e => exact turnAwait_goes fun {w' o} _ => reopen_goes w' j q e

theorem discard_goes {job : Job} (hj : w.jobs[j]? = some job) : Goes K j w (w.discard j job) := by
  unfold discard
  dsimp only
  refine Goes.trans ?_ (endJob_goes _ j)
  split
  · exact dropExecution_goes w ⟨j, _, _⟩
  · next name folder token e seat herrand hposition =>
    have hat : w.At j (.reset name folder token) (.awaiting e seat) :=
      ⟨job.isAbandoned, by rw [hj, ← herrand, ← hposition]⟩
    unfold discardReset
    split
    · exact .refl w
    · next entry he =>
      have hleft : Goes K j w (w.leaveSeat e seat) := (Touch.unseated e seat).goes
      dsimp only
      split
      · exact hleft.trans (reopen_goes _ j entry.queue e)
      · have hstays : (w.leaveSeat e seat).At j (.reset name folder token) (.awaiting e seat) := hat
        exact hleft.tail (.leftOpen entry.queue hstays)
  · exact .refl w

/-- **A turn is made of what its job may touch.** -/
theorem turn_goes (w : World) (j : JobId) : Goes K j w (w.turn j) := by
  unfold turn
  split
  · exact .refl w
  · next job hj =>
    split
    · exact .refl w
    · split
      · exact discard_goes hj
      · have hat : ({ w with current := some j } : World).At j job.errand job.position :=
          ⟨job.isAbandoned, hj⟩
        have hset : Goes K j w { w with current := some j } := (Touch.turnSet (some j)).goes
        have hturned := hset.trans (turnJob_goes hat)
        refine Goes.tail (hturned.trans ?_) (.turnSet none)
        unfold discardIfAbandoned
        split
        · next job' hj' =>
          split
          · exact discard_goes hj'
          · exact .refl _
        · exact .refl _

/-- A turn that is taken is made of what its job may touch. -/
theorem turn_touches (hk : w.CalledBy K) : Touches K j w (w.turn j) := turn_goes w j hk

end Pieces

end World

end FolderTasks.Dispatch
