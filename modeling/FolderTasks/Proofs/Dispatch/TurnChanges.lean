import FolderTasks.Proofs.Dispatch.ActionChanges
/-!
# Transitions are made of elementary changes

A turn is followed from one elementary change to the next: through the calls of the reporter and
the observers, whose actions are deeds, through the pieces of an execution, and through the end of
a job.

Within a turn the folders stay as they are and time stands still, so the elementary changes of a
turn are fewer than those around it; and what a callback does there is one action after another,
each with its reply written down.

## Main definitions

* `World.Work`, `World.Works`: what turns are made of.
* `World.Leads`: what a piece of an execution amounts to.
* `World.goOn`: the rest of the turn of an entry's job, once the start is reported.

## Main statements

* `World.proceed_leads`: the pieces of an execution.
* `World.turn_works`: a turn is made of these changes.
* `World.Transition.changes`: a transition is made of elementary changes.
-/

namespace FolderTasks.Dispatch.World

/-! ## What turns are made of -/

/-- **What turns are made of**: what callbacks do, what is told, the stages of executing a command,
and what ends a job or has it wait. -/
inductive Work : World → World → Prop where
  /-- A job takes its turn. -/
  | turnTaken {w : World} (j : JobId) (h : j ∈ w.ready) :
      Work w { w with ready := w.ready.erase j }
  /-- A callback does an action, and the reply is written down. -/
  | answered {w : World} (site : CallbackSite) (a : Action) :
      Work w ((w.perform a).1.note (.hookAnswered site (w.perform a).2))
  /-- It is a job's turn, or nobody's. -/
  | turnSet {w : World} (current : Option JobId) : Work w { w with current }
  | telling {w w' : World} (h : Telling w w') : Work w w'
  | stride {w w' : World} (h : Stride w w') : Work w w'
  | closing {w w' : World} (h : Closing w w') : Work w w'

/-- Any number of such changes. -/
abbrev Works : World → World → Prop := Relation.ReflTransGen Work

/-! ## Small pieces -/

theorem Deeds.changes {w w' : World} (h : Deeds w w') : Changes w w' := by
  induction h with
  | refl => exact .refl
  | tail _ hd ih => exact ih.tail (.deed hd)

theorem Drift.changes {w w' : World} (h : Drift w w') : Changes w w' := .single (.drift h)

theorem Telling.works {w w' : World} (h : Telling w w') : Works w w' := .single (.telling h)

theorem Stride.works {w w' : World} (h : Stride w w') : Works w w' := .single (.stride h)

theorem Closing.works {w w' : World} (h : Closing w w') : Works w w' := .single (.closing h)

theorem Work.changes {w w' : World} (h : Work w w') : Changes w w' := by
  cases h with
  | turnTaken j h => exact (Drift.turnTaken j h).changes
  | answered site a => exact (perform_deeds w a).changes.tail (.deed (.answered site _))
  | turnSet current => exact (Drift.turnSet current).changes
  | telling h => exact .single (.telling h)
  | stride h => exact .single (.stride h)
  | closing h => exact .single (.closing h)

theorem Works.changes {w w' : World} (h : Works w w') : Changes w w' := by
  induction h with
  | refl => exact .refl
  | tail _ hw ih => exact ih.trans hw.changes

theorem At.setPosition {w : World} {j : JobId} {errand : Errand} {p : Position}
    (h : w.At j errand p) (p' : Position) : (w.setPosition j p').At j errand p' := by
  obtain ⟨given, hj⟩ := h
  exact ⟨given, by rw [getElem?_setPosition, hj, Option.map_some, if_pos rfl]⟩

/-- While another job moves, a job stays where it is. -/
theorem At.setPosition_of_ne {w : World} {i j : JobId} {errand : Errand} {p : Position}
    (h : w.At i errand p) (hne : j ≠ i) (p' : Position) : (w.setPosition j p').At i errand p := by
  obtain ⟨given, hi⟩ := h
  exact ⟨given, by rw [getElem?_setPosition, hi, Option.map_some, if_neg hne]⟩

theorem ServesAt.setPosition {w : World} {call : Call} {errand : Errand} {p : Position}
    (h : w.ServesAt call errand p) (p' : Position) :
    (w.setPosition call.job p').ServesAt call errand p' :=
  ⟨h.1.setPosition p', h.2⟩

theorem ServesAt.releaseGuard {w : World} {call : Call} {errand : Errand} {p : Position}
    (h : w.ServesAt call errand p) : w.releaseGuard.ServesAt call errand p := by
  obtain ⟨ready, heq⟩ := releaseGuard_eq w
  rw [heq]
  exact h

/-- A job with a new number takes the right to start, and still serves its call. -/
theorem ServesAt.takesGuard {w : World} {call : Call} {errand : Errand}
    (h : w.ServesAt call errand .fresh) :
    (((w.takeNumber call.job).takeGuard call.job).setPosition call.job
      (.inLine w.nextId)).ServesAt call errand (.inLine w.nextId) :=
  ServesAt.setPosition (w := (w.takeNumber call.job).takeGuard call.job) h _

/-- A job asks the backend to start, and still serves its call. -/
theorem ServesAt.asksStart {w : World} {call : Call} {errand : Errand} {id : TaskId}
    (h : w.ServesAt call errand (.inLine id)) :
    ((w.note (.startAsked id call.command)).setPosition call.job (.starting id)).ServesAt call
      errand (.starting id) :=
  ServesAt.setPosition (w := w.note (.startAsked id call.command)) h _

/-- An execution begins, the right to start is passed on, and the job still serves its call. -/
theorem ServesAt.started {w : World} {call : Call} {errand : Errand} {id : TaskId}
    (h : w.ServesAt call errand (.starting id)) (b : Scripted) (e : Execution) :
    ((((w.setBackend b).note (.started id call.command)).setPosition call.job
      (.running id e)).releaseGuard).ServesAt call errand (.running id e) :=
  (ServesAt.setPosition (w := (w.setBackend b).note (.started id call.command)) h _).releaseGuard

theorem ServesAt.unlisten {w : World} {call : Call} {errand : Errand} {p : Position}
    (h : w.ServesAt call errand p) : (w.unlisten call.token call.job).ServesAt call errand p := by
  obtain ⟨tokens, heq⟩ := unlisten_eq w call.token call.job
  rw [heq]
  exact h

theorem ServesAt.callAt {w : World} {call : Call} {errand : Errand} {p : Position}
    (h : w.ServesAt call errand p) : w.CallAt call p := ⟨errand, h⟩

/-! ## Callbacks -/

theorem runActions_deeds (site : CallbackSite) (actions : List Action) (w : World) :
    Deeds w (w.runActions site actions) := by
  induction actions generalizing w with
  | nil => exact .refl
  | cons a actions ih =>
    have hfirst : Deeds w ((w.perform a).1.note (.hookAnswered site (w.perform a).2)) :=
      (perform_deeds w a).tail (.answered site _)
    exact hfirst.trans (ih _)

theorem runHooks_deeds (site : CallbackSite) (hooks : List Hook) (w : World) :
    Deeds w (runHooks site hooks w).1 := by
  induction hooks generalizing w with
  | nil => exact .refl
  | cons h hooks ih =>
    have hfirst := runActions_deeds site h.actions w
    simp only [runHooks]
    split
    · exact hfirst
    · exact hfirst.trans (ih _)

theorem runActions_works (site : CallbackSite) (actions : List Action) (w : World) :
    Works w (w.runActions site actions) := by
  induction actions generalizing w with
  | nil => exact .refl
  | cons a actions ih =>
    have hfirst : Works w ((w.perform a).1.note (.hookAnswered site (w.perform a).2)) :=
      .single (.answered site a)
    exact hfirst.trans (ih _)

theorem runHooks_works (site : CallbackSite) (hooks : List Hook) {w : World} {call : Call}
    {errand : Errand} {p : Position} (h : w.ServesAt call errand p) :
    Works w (runHooks site hooks w).1 ∧ (runHooks site hooks w).1.ServesAt call errand p := by
  refine ⟨?_, (runHooks_deeds site hooks w).servesAt h⟩
  clear h
  induction hooks generalizing w with
  | nil => exact .refl
  | cons h hooks ih =>
    have hfirst := runActions_works site h.actions w
    simp only [runHooks]
    split
    · exact hfirst
    · exact hfirst.trans ih

theorem report_works {w : World} {call : Call} {e : EntryId} {p : Position}
    (status : StatusCall) (h : w.ServesAt call (.operation e) p) (hp : p = .fresh ∨ p = .telling) :
    Works w (w.report e status).1 ∧ (w.report e status).1.ServesAt call (.operation e) p := by
  have htold (calls : List StatusKind) := Telling.reported e status (w.isRecorded e) calls h.1 hp
  unfold report
  dsimp only
  split
  · have hcalled := (htold (status.kind ::
      (w.note (.reported e status (w.isRecorded e))).reporter.calls)).works
    generalize hw' : (w.note (.reported e status (w.isRecorded e))).keepCalls _ = w'
      at hcalled ⊢
    have hserves : w'.ServesAt call (.operation e) p := hw' ▸ h
    generalize List.filter _ _ = hooks
    obtain ⟨hhooks, hserves'⟩ := runHooks_works (.status status.kind) hooks hserves
    split
    · exact ⟨(hcalled.trans hhooks).tail (.telling (.reporterPanicked e status hserves'.1 hp)),
        hserves'⟩
    · exact ⟨hcalled.trans hhooks, hserves'⟩
  · exact ⟨(htold w.reporter.calls).works, h⟩

theorem reportAll_works {call : Call} {e : EntryId} {p : Position} (hp : p = .fresh ∨ p = .telling)
    (calls : List StatusCall) {w : World} (h : w.ServesAt call (.operation e) p) :
    Works w (reportAll e calls w).1 ∧ (reportAll e calls w).1.ServesAt call (.operation e) p := by
  induction calls generalizing w with
  | nil => exact ⟨.refl, h⟩
  | cons status calls ih =>
    obtain ⟨hworks, hserves⟩ := report_works status h hp
    simp only [reportAll]
    split
    · exact ⟨hworks, hserves⟩
    · exact ⟨hworks.trans (ih hserves).1, (ih hserves).2⟩

/-- Observers are called one by one, and a panic is written down. -/
theorem callObservers_works {call : Call} {errand : Errand} {p : Position} {kind : NoticeKind}
    {id : TaskId} (fact : String → Happening)
    (hnotice : ∀ {w : World} (name : String) (calls : List (NoticeKind × Nat)),
      w.CallAt call p → Telling w ((w.note (fact name)).keepNotices calls))
    (hpanic : ∀ {w : World}, w.CallAt call p → Telling w (w.note (.observerPanicked kind id)))
    (observers : List (Nat × Observer)) {w : World} (h : w.ServesAt call errand p) :
    Works w (callObservers kind id fact observers w).1 ∧
      (callObservers kind id fact observers w).1.ServesAt call errand p ∧
      ((callObservers kind id fact observers w).2 →
        ∃ t, (t, .observerPanicked kind id) ∈
          (callObservers kind id fact observers w).1.history) := by
  induction observers generalizing w with
  | nil => exact ⟨.refl, h, fun hpanicked => Bool.noConfusion hpanicked⟩
  | cons o observers ih =>
    have hcalled := (hnotice o.2.name ((kind, o.1) :: (w.note (fact o.2.name)).observerCalls)
      h.callAt).works
    simp only [callObservers]
    generalize hw' : (w.note (fact o.2.name)).keepNotices _ = w' at hcalled ⊢
    have hserves : w'.ServesAt call errand p := hw' ▸ h
    generalize List.filter _ _ = hooks
    obtain ⟨hhooks, hserves'⟩ := runHooks_works .observer hooks hserves
    split
    · exact ⟨(hcalled.trans hhooks).tail (.telling (hpanic hserves'.callAt)), hserves',
        fun _ => ⟨_, List.mem_cons_self⟩⟩
    · obtain ⟨hrest, hserves'', hpanicked⟩ := ih hserves'
      exact ⟨(hcalled.trans hhooks).trans hrest, hserves'', hpanicked⟩

/-! ## Executing a command -/

/-- What a piece of an execution amounts to: changes as in any turn, after which the job has to wait
or its execution is over. -/
structure Leads (w : World) (call : Call) (errand : Errand) (r : World × Progress) : Prop where
  works : Works w r.1
  concluded : r.2 = .paused ∨ r.1.ServesAt call errand .telling

theorem Leads.of_works {w w' : World} {call : Call} {errand : Errand} {r : World × Progress}
    (h : Works w w') (hr : Leads w' call errand r) : Leads w call errand r :=
  ⟨h.trans hr.works, hr.concluded⟩

theorem Leads.changes {w : World} {call : Call} {errand : Errand} {r : World × Progress}
    (h : Leads w call errand r) : Changes w r.1 := h.works.changes

section Pieces

variable {w : World} {call : Call} {errand : Errand} {id : TaskId}

/-- The observers are told of the end, which the job has reached. -/
theorem announceEnd_works (id : TaskId) (code : Option Int32)
    (h : w.ServesAt call errand .telling) :
    Works (w.note (.endAnnounced id call.command code)) (w.announceEnd id call.command code).1 ∧
      (w.announceEnd id call.command code).1.ServesAt call errand .telling := by
  obtain ⟨hworks, hserves, -⟩ := callObservers_works
    (fun name => .endNoticed name id call.command code)
    (fun name calls h => .endNoticed name id code calls h) (fun h => .endPanicked id h)
    w.manager.endObservers.callbacks (w := w.note (.endAnnounced id call.command code)) h
  exact ⟨hworks, hserves⟩

theorem complete_leads {e : Execution} (h : w.ServesAt call errand (.running id e))
    (hd : w.seesEnd call id e) : Leads w call errand (w.complete call id e) := by
  have hended := (Stride.completed h.callAt hd).works
  obtain ⟨htold, hserves⟩ := announceEnd_works id e.exitCode
    (ServesAt.setPosition (w := (w.setBackend (w.backend.finish w.clock id false)).note
      (.ended id call.command e.exitCode)) h .telling)
  exact ⟨hended.trans htold, .inr hserves⟩

theorem terminate_leads {e : Execution} (h : w.ServesAt call errand (.running id e))
    (hd : ¬ w.seesEnd call id e) (hc : w.isCancelled call.token) :
    Leads w call errand (w.terminate call id) := by
  have hended := (Stride.terminated h.callAt hd hc).works
  obtain ⟨htold, hserves⟩ := announceEnd_works id none
    (ServesAt.setPosition (w := ((w.note (.terminating id)).setBackend
      (w.backend.finish w.clock id true)).note (.ended id call.command none)) h .telling)
  exact ⟨hended.trans htold, .inr hserves⟩

theorem follow_leads {e : Execution} (h : w.ServesAt call errand (.running id e)) :
    Leads w call errand (w.follow call id e) := by
  unfold follow
  split
  · next hd => exact complete_leads h hd
  · next hd =>
    split
    · next hc => exact terminate_leads h hd hc
    · exact ⟨(Stride.endAwaited h.callAt).works, .inl rfl⟩

/-- The observers are told of a start, and the execution goes on unless one of them panics. -/
theorem started_leads {e : Execution} (h : w.ServesAt call errand (.running id e)) :
    Leads (w.note (.startAnnounced id call.command)) call errand
      (match w.announceStart id call.command with
        | (w', panicked) =>
          if panicked then (w'.setPosition call.job .telling, .panicked)
          else w'.follow call id e) := by
  obtain ⟨htold, hserves, hpanicked⟩ := callObservers_works
    (fun name => .startNoticed name id call.command)
    (fun {w} name calls (h : w.CallAt call (.running id e)) => .startNoticed name calls h)
    (fun h => .startPanicked h)
    w.manager.startObservers.callbacks (w := w.note (.startAnnounced id call.command)) h
  unfold announceStart
  dsimp only
  split
  · next hp =>
    exact ⟨htold.tail (.stride (.forsaken hserves.callAt (hpanicked hp))),
      .inr (hserves.setPosition .telling)⟩
  · exact (follow_leads hserves).of_works htold

theorem launch_leads (h : w.ServesAt call errand (.starting id)) :
    Leads w call errand (w.launch call id) := by
  unfold launch
  split
  · next f hb => exact ⟨(Stride.refused h.callAt hb).works,
      .inr (ServesAt.releaseGuard (ServesAt.setPosition (w := w.note _) h .telling))⟩
  · next b e hb =>
    refine .of_works (Stride.started h.callAt hb).works (started_leads ?_)
    exact h.started b e

theorem begin_leads (h : w.ServesAt call errand (.inLine id))
    (hg : w.manager.guard.holder = some call.job) :
    Leads w call errand (w.begin call id) := by
  unfold begin
  split
  · next hc =>
    exact ⟨(Stride.guardReturned h.callAt hg hc).works,
      .inr (ServesAt.setPosition (w := w.releaseGuard.note _) h.releaseGuard .telling)⟩
  · next hc =>
    have hasked := (Stride.startAsked h.callAt hg (Bool.not_eq_true _ ▸ hc)).works
    have hserves := h.asksStart
    dsimp only
    split
    · exact (launch_leads hserves).of_works hasked
    · exact ⟨hasked.tail (.stride (.startDelayed hserves.callAt _)), .inl rfl⟩

theorem proceedInLine_leads (h : w.ServesAt call errand (.inLine id)) :
    Leads w call errand (w.proceedInLine call id) := by
  have hunlisten := (Stride.unlistened (w := w) call.job call.token).works
  unfold proceedInLine
  split
  · next hg =>
    refine (begin_leads h.unlisten ?_).of_works hunlisten
    obtain ⟨tokens, heq⟩ := unlisten_eq w call.token call.job
    rw [heq, hg]
  · next hg =>
    split
    · next hc =>
      have hleft : Stride (w.unlisten call.token call.job) _ :=
        .lineLeft h.unlisten.callAt ?_ ((isCancelled_unlisten ..).trans hc)
      · exact ⟨hunlisten.tail (.stride hleft),
          .inr (ServesAt.setPosition (w := (leaveLine _ call.job).note _) h.unlisten .telling)⟩
      · obtain ⟨tokens, heq⟩ := unlisten_eq w call.token call.job
        rw [heq]
        exact hg
    · exact ⟨.refl, .inl rfl⟩

theorem proceedStarting_leads (h : w.ServesAt call errand (.starting id)) :
    Leads w call errand (w.proceedStarting call id) := by
  unfold proceedStarting
  split
  · exact ⟨.refl, .inl rfl⟩
  · exact launch_leads h

theorem proceedRunning_leads {e : Execution} (h : w.ServesAt call errand (.running id e)) :
    Leads w call errand (w.proceedRunning call id e) := by
  have hunlisten := (Stride.unlistened (w := w) call.job call.token).works
  have hsees : (w.unlisten call.token call.job).seesEnd call id e = w.seesEnd call id e :=
    seesEnd_unlisten w call call.token id e call.job
  unfold proceedRunning
  split
  · next hd => exact (complete_leads h.unlisten (hsees.trans hd)).of_works hunlisten
  · next hd =>
    split
    · next hc =>
      have hcleared := hunlisten.tail (.stride (.timerCleared call.job))
      refine .of_works hcleared (terminate_leads (e := e) (w := clearTimer _ call.job)
        h.unlisten ?_ ?_)
      · rw [← hsees] at hd
        exact hd
      · exact (isCancelled_unlisten ..).trans hc
    · exact ⟨.refl, .inl rfl⟩

theorem enter_leads (h : w.ServesAt call errand .fresh) :
    Leads w call errand (w.enter call) := by
  unfold enter
  split
  · next hd => exact ⟨(Stride.rejected h.callAt hd).works, .inr (h.setPosition .telling)⟩
  · next hd =>
    rw [Bool.not_eq_true] at hd
    dsimp only
    split
    · next hg =>
      exact (begin_leads h.takesGuard rfl).of_works (Stride.guardTaken h.callAt hd hg).works
    · next holder hg =>
      split
      · next hc =>
        exact ⟨(Stride.turnedAway h.callAt hd hg hc).works, .inr (ServesAt.setPosition
          (w := ((w.takeNumber call.job).note _).note _) h .telling)⟩
      · next hc => exact ⟨(Stride.lineJoined h.callAt hd hg (Bool.not_eq_true _ ▸ hc)).works,
          .inl rfl⟩

/-- **The pieces of an execution are made of these changes**, and leave the job waiting or
with its execution over. -/
theorem proceed_leads {p : Position} (h : w.ServesAt call errand p) :
    Leads w call errand (w.proceed call) := by
  unfold proceed
  rw [h.1.position_eq]
  cases p with
  | fresh => exact enter_leads h
  | inLine id => exact proceedInLine_leads h
  | starting id => exact proceedStarting_leads h
  | running id e => exact proceedRunning_leads h
  | telling | awaiting | done => exact ⟨.refl, .inl rfl⟩

end Pieces

/-! ## Turns -/

section Turns

variable {w : World} {j : JobId} {p : Position}

theorem resolve_of_none {e : EntryId} (he : w.entryOf? e = none) (o : Outcome) :
    w.resolve e o = w := by
  rw [resolve, he]

/-- The end of an operation is told, and its entry leaves the active slot. -/
theorem concludeOperation_works {call : Call} {e : EntryId} (entry : Entry)
    (h : w.ServesAt call (.operation e) .telling) (result : Except Failure Outcome) :
    Works w (w.concludeOperation call.job e entry result) := by
  -- Whatever the outcome, it is told, and then the slot is freed.
  have hrest {w : World} (h : w.ServesAt call (.operation e) .telling) (name : String) (o : Outcome)
      (calls : List StatusCall) : Works w
        (match reportAll e calls (w.note (.finished e name entry.operation.label o)) with
          | (w, panicked) =>
            (w.resolve e (if panicked then .terminated else o)).endJob call.job) := by
    have hfinished := (Telling.finishTold name entry.operation.label o h.1).works
    obtain ⟨hreported, hserves⟩ := reportAll_works (.inr rfl) calls
      (w := w.note (.finished e name entry.operation.label o)) h
    refine (hfinished.trans hreported).tail (.closing ?_)
    exact .closed _ hserves.1 (by simp) (.inl rfl)
  unfold concludeOperation
  cases result with
  | ok o => exact hrest h _ o _
  | error f =>
    have htold := Telling.failureTold (w.queueName entry.queue) entry.operation.label f h.1
    exact htold.works.trans (hrest (w := w.note _) h _ _ _)

/-- The rest of the turn of an entry's job, once the start is reported. -/
def goOn (w : World) (call : Call) (e : EntryId) (entry : Entry) : World :=
  match w.proceed call with
  | (w, .paused) => w
  | (w, .panicked) => (w.resolve e .terminated).endJob call.job
  | (w, .finished result) => w.concludeOperation call.job e entry result

theorem goOn_works {call : Call} {e : EntryId} (entry : Entry)
    (h : w.ServesAt call (.operation e) p) : Works w (w.goOn call e entry) := by
  unfold goOn
  have hleads := proceed_leads h
  rcases hw : w.proceed call with ⟨w', _ | result | _⟩ <;> rw [hw] at hleads
  · exact hleads.works
  · exact hleads.works.trans (concludeOperation_works entry
      (hleads.concluded.resolve_left (by simp)) result)
  · exact hleads.works.tail (.closing (.closed _
      (hleads.concluded.resolve_left (by simp)).1 (by simp) (.inl rfl)))

theorem turnOperation_works {e : EntryId} (h : w.At j (.operation e) p) (hp : p ≠ .done) :
    Works w (w.turnOperation j e) := by
  unfold turnOperation
  split
  · next he =>
    have hclosed := Closing.closed .terminated h hp (.inr (.inr he))
    rw [resolve_of_none he] at hclosed
    exact hclosed.works
  · next entry he =>
    dsimp only
    generalize hcall : (⟨j, entry.operation.command, entry.token⟩ : Call) = call
    have hserves : w.ServesAt call (.operation e) p := hcall ▸ h.servesAt he
    obtain rfl : j = call.job := by rw [← hcall]
    split
    · next hfresh =>
      rw [hserves.1.position_eq] at hfresh
      subst hfresh
      obtain ⟨hreported, hserves'⟩ := reportAll_works (.inl rfl)
        (entry.operation.startCalls (w.queueName entry.queue)) hserves
      split
      · exact hreported.tail (.closing (.closed _ hserves'.1 hp (.inr (.inl ⟨rfl, rfl⟩))))
      · exact hreported.trans (goOn_works entry hserves')
    · exact goOn_works entry hserves

theorem turnExecution_works {name : String} {command : Command} {token : Option String}
    (h : w.At j (.execution name command token) p) :
    Works w (w.turnExecution j name command token) := by
  have hserves : w.ServesAt ⟨j, command, token⟩ (.execution name command token) p := ⟨h, rfl⟩
  have hleads := proceed_leads hserves
  have hended {w' : World} (result : JobResult)
      (h : w'.ServesAt ⟨j, command, token⟩ (.execution name command token) .telling) :
      Work w' ((w'.note (.jobEnded .execution name result)).endJob j) :=
    .closing (.executionEnded result h.1)
  unfold turnExecution
  rcases hw : w.proceed ⟨j, command, token⟩ with ⟨w', _ | (f | o) | _⟩ <;> rw [hw] at hleads
  · exact hleads.works
  · exact hleads.works.tail (hended _ (hleads.concluded.resolve_left (by simp)))
  · exact hleads.works.tail (hended _ (hleads.concluded.resolve_left (by simp)))
  · exact hleads.works.tail (hended _ (hleads.concluded.resolve_left (by simp)))

theorem turnReset_works {name : String} {folder : Path} {token : Option String}
    (h : w.At j (.reset name folder token) p) : Works w (w.turnReset j name folder token) := by
  unfold turnReset
  rw [h.position_eq]
  split
  · next e seat =>
    split
    · next he => exact (Closing.resetForgotten h he).works
    · next entry he =>
      unfold turnAwait
      split
      · next w' o hr => exact (Closing.resetConcluded o h he hr).works
      · rw [h.position_eq]
  · split
    · next hq => exact (Closing.resetRefused h hq).works
    · next q hq => exact (Closing.resetAsked q h hq).works
  · exact .refl

/-- A job that only waits for an outcome takes a seat at first. -/
theorem turnAwait_works {errand : Errand} {e : EntryId} {goOn : World → Outcome → World}
    (h : w.At j errand p) (hp : p ≠ .done)
    (he : (∃ handle, errand = .watch handle e) ∨ ∃ q, errand = .reopen q e)
    (hgoOn : ∀ {w' : World} {o : Outcome}, w.receive? e = some (w', o) →
      Closing w ((goOn w' o).endJob j)) : Works w (w.turnAwait j e goOn) := by
  unfold turnAwait
  split
  · next w' o hr => exact (hgoOn hr).works
  · next hr =>
    split
    · exact .refl
    · exact (Closing.seatTaken e h hp he hr).works

theorem turnJob_works {errand : Errand} (h : w.At j errand p) (hp : p ≠ .done) :
    Works w (w.turnJob j errand) := by
  cases errand with
  | operation e => exact turnOperation_works h hp
  | execution name command token => exact turnExecution_works h
  | reset name folder token => exact turnReset_works h
  | watch handle e =>
    exact turnAwait_works h hp (.inl ⟨handle, rfl⟩) fun hr => .watchEnded _ h hp hr
  | reopen q e =>
    exact turnAwait_works h hp (.inr ⟨q, rfl⟩) fun hr => .reopened _ h hp hr

theorem discardIfAbandoned_works (w : World) (j : JobId) :
    Works w (w.discardIfAbandoned j) := by
  unfold discardIfAbandoned
  split
  · next job hj =>
    split
    · next hjob =>
      rw [Bool.and_eq_true, bne_iff_ne] at hjob
      exact (Closing.discarded hj hjob.1 hjob.2).works
    · exact .refl
  · exact .refl

/-- **A turn is made of these changes.** -/
theorem turn_works (w : World) (j : JobId) : Works w (w.turn j) := by
  unfold turn
  split
  · exact .refl
  · next job hj =>
    split
    · exact .refl
    · next hp =>
      split
      · next ha => exact (Closing.discarded hj ha hp).works
      · have hat : ({ w with current := some j } : World).At j job.errand job.position :=
          ⟨job.isAbandoned, hj⟩
        have hset : Works w { w with current := some j } := .single (.turnSet (some j))
        exact ((hset.trans (turnJob_works hat hp)).trans
          (discardIfAbandoned_works _ j)).tail (.turnSet none)

/-- Taking a turn is part of it. -/
theorem takeTurn_works (h : j ∈ w.ready) : Works w (w.takeTurn j) := by
  have htaken : Works w { w with ready := w.ready.erase j } := .single (.turnTaken j h)
  exact htaken.trans (turn_works _ j)

end Turns

/-! ## Transitions -/

theorem requestNamed_changes (w : World) (q : QueueId) (op : Operation) (token : Option String)
    (name : String) : Changes w (w.requestNamed q op token name).1 :=
  (requestNamed_deeds w q op token name).changes

theorem addFolder_changes (w : World) (folder : Path) : Changes w (w.addFolder folder).1 := by
  unfold addFolder
  split
  · exact .refl
  · have htold := (Drift.folderTold (w := w) (.folderAdded folder) (.inl ⟨folder, rfl⟩)).changes
    refine (htold.tail (.deed (.queueMade folder.displayName w.recordsFolders))).tail (.drift ?_)
    exact .folderListed folder _ (by simp [makeQueue, note])

theorem removeFolder_changes (w : World) (folder : Path) : Changes w (w.removeFolder folder).1 := by
  unfold removeFolder
  split
  · exact .refl
  · have hunlisted := Drift.foldersUnlisted (w := w)
      (w.folders.filter fun f => !decide (f.1.Same folder)) fun f hf => (List.mem_filter.1 hf).1
    exact hunlisted.changes.tail (.drift (.folderTold _ (.inr ⟨folder, rfl⟩)))

/-- What lets no job run is made of elementary changes. -/
theorem instant_changes (w : World) {s : Step} (h : s.isInstant) : Changes w (w.step s).1 := by
  cases s with
  | act a => exact (perform_deeds w a).changes
  | settle | advance | await => exact Bool.noConfusion h
  | addFolder folder =>
    exact (addFolder_changes w folder).tail (.deed (.named _ fun _ h => h))
  | removeFolder folder => exact removeFolder_changes w folder
  | folders | toolchain => exact .refl
  | find folder =>
    simp only [step]
    split <;> exact .refl
  | run folder action token handle =>
    simp only [step]
    split
    · exact requestNamed_changes ..
    · exact .refl
  | tasks folder products =>
    simp only [step]
    split <;> exact .refl
  | dispose =>
    exact (Deed.disposed (w := w) |> Change.deed |> Relation.ReflTransGen.single).tail
      (.drift (.foldersUnlisted [] fun _ h => absurd h List.not_mem_nil))

/-- **A transition is made of elementary changes.** -/
theorem Transition.changes {w w' : World} (t : Transition w w') : Changes w w' := by
  cases t with
  | act s h => exact instant_changes w h
  | turn j h => exact (takeTurn_works h).changes
  | fire t h => exact (Drift.fired t h).changes
  | pass moment h => exact (Drift.passed moment h).changes
  | sit e => exact (Drift.sat e).changes
  | leave e entry seat he h => exact (Drift.seatLeft e entry seat he h).changes
  | receive e o h => exact (Drift.received e o h).changes

/-! ## Worlds that arise -/

/-- A world arises when any number of elementary changes lead to it.  Reachable worlds arise, and so
do those in the middle of a turn. -/
def Arises (w : World) : Prop := ∃ s : Setting, Changes s.world w

theorem Reachable.arises {w : World} (h : Reachable w) : Arises w := by
  induction h with
  | new s => exact ⟨s, .refl⟩
  | next _ t ih =>
    obtain ⟨s, hs⟩ := ih
    exact ⟨s, hs.trans t.changes⟩

theorem Arises.change {w w' : World} (h : Arises w) (hc : Change w w') : Arises w' := by
  obtain ⟨s, hs⟩ := h
  exact ⟨s, hs.tail hc⟩

theorem Arises.changes {w w' : World} (h : Arises w) (hc : Changes w w') : Arises w' := by
  obtain ⟨s, hs⟩ := h
  exact ⟨s, hs.trans hc⟩

/-- **What holds at first and survives every elementary change holds whenever.** -/
theorem Arises.induction {P : World → Prop} (hnew : ∀ s : Setting, P s.world)
    (hchange : ∀ {w w' : World}, Arises w → P w → Change w w' → P w') {w : World}
    (h : Arises w) : P w := by
  obtain ⟨s, hs⟩ := h
  induction hs with
  | refl => exact hnew s
  | tail hs hc ih => exact hchange ⟨s, hs⟩ ih hc

end FolderTasks.Dispatch.World
