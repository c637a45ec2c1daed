import FolderTasks.Proofs.Dispatch.PromptStarts
import FolderTasks.Proofs.Dispatch.ReporterCalls
import FolderTasks.Proofs.Dispatch.FactTimes
/-!
# What a call comes to by its script

When nobody else is about to start, the turns of a call show what the script of its command says.  A
call that begins is cancelled, or asks for a start, which takes its time.  A call whose start is over
is cancelled, is refused, comes to its end at once, or has an execution that ends when the script
says; and an execution that runs is cancelled, comes to its end, or goes on as it is.  The same holds
of the outcome that an entry gets in such a turn.

## Main definitions

* `Script.Yields`, `Execution.Yields`: what a call comes to in a turn in which its start is over, or in
  which its execution runs.
* `World.IsUntroubled`: no callback has panicked, and the task manager is not disposed of.
* `World.Concludes`: an operation is over, its end is reported, and its outcome gets known.
* `World.SetsOut`: what becomes of the job of an entry whose start is over.

## Main statements

* `World.takeTurn_begins`, `World.takeTurn_launches`, `World.takeTurn_resumes`: the turns of the job of
  an entry.
-/

namespace FolderTasks

/-- **What a call comes to in the turn in which its start is over**, if it comes to anything there. -/
inductive Script.Yields (s : Script) (program : String) : Except Failure Outcome → Prop where
  | cancelled : Yields s program (.ok .cancelled)
  | refused (h : s.refuses) : Yields s program (.error (.launch program Scripted.refusal))
  | completed (h : s.refuses = false) (hd : s.delay = 0) :
      Yields s program (.ok (.ofCode s.exitCode))

/-- **What an execution comes to at a moment**, if it comes to anything then. -/
inductive Execution.Yields (e : Execution) (now : Nat) : Except Failure Outcome → Prop where
  | cancelled : Yields e now (.ok .cancelled)
  | completed (h : e.deadline ≤ now) : Yields e now (.ok (.ofCode e.exitCode))

/-- The execution of a script that is started at a moment. -/
def Script.execution (s : Script) (id : TaskId) (now : Nat) : Execution :=
  ⟨id, now + s.delay, s.exitCode⟩

theorem Script.Yields.of_execution {s : Script} {id : TaskId} {now : Nat}
    {result : Except Failure Outcome} (h : (s.execution id now).Yields now result)
    (hs : s.refuses = false) (program : String) : s.Yields program result := by
  cases h with
  | cancelled => exact .cancelled
  | completed hd =>
    have hle : now + s.delay ≤ now := hd
    exact .completed hs (by omega)

namespace Dispatch.World

/-! ## The pieces of an execution -/

section Pieces

variable {w : World} {call : Call} {errand : Errand} {id : TaskId} {e : Execution}
  {result : Except Failure Outcome}

theorem conclude_result {code : Option Int32} {o : Outcome}
    (h : (w.conclude call id code o).2 = .finished result) : result = .ok o := by
  simp only [conclude] at h
  split at h
  · exact absurd h (by simp)
  · exact (Progress.finished.inj h).symm

theorem conclude_ne_paused (w : World) (call : Call) (id : TaskId) (code : Option Int32)
    (o : Outcome) : (w.conclude call id code o).2 ≠ .paused := by
  simp only [conclude]
  split <;> simp

theorem follow_result (h : (w.follow call id e).2 = .finished result) : e.Yields w.clock result := by
  unfold follow at h
  split at h
  · next hd =>
    rw [conclude_result h]
    exact .completed (seesEnd_iff.1 hd).1
  · split at h
    · rw [conclude_result h]
      exact .cancelled
    · exact absurd h (by simp)

theorem follow_paused (hat : w.At call.job errand (.running id e))
    (h : (w.follow call id e).2 = .paused) :
    (w.follow call id e).1.At call.job errand (.running id e) ∧
      (w.follow call id e).1.isCancelled call.token = false := by
  unfold follow at h ⊢
  split at h
  · exact (conclude_ne_paused _ _ _ _ _ h).elim
  · next hd =>
    rw [if_neg hd]
    split at h
    · exact (conclude_ne_paused _ _ _ _ _ h).elim
    · next hc =>
      rw [if_neg hc]
      refine ⟨?_, (isCancelled_listen _ _ _ _).trans (Bool.eq_false_iff.2 hc)⟩
      obtain ⟨tokens, heq⟩ := listen_eq (w.setTimer e.deadline call.job) call.token call.job
      rw [heq]
      exact hat

theorem proceedRunning_result (h : (w.proceedRunning call id e).2 = .finished result) :
    e.Yields w.clock result := by
  unfold proceedRunning at h
  split at h
  · next hd =>
    rw [conclude_result h]
    exact .completed (seesEnd_iff.1 hd).1
  · split at h
    · rw [conclude_result h]
      exact .cancelled
    · exact absurd h (by simp)

theorem proceedRunning_paused (h : (w.proceedRunning call id e).2 = .paused) :
    (w.proceedRunning call id e).1 = w := by
  unfold proceedRunning at h ⊢
  split at h
  · exact (conclude_ne_paused _ _ _ _ _ h).elim
  · next hd =>
    rw [if_neg hd]
    split at h
    · exact (conclude_ne_paused _ _ _ _ _ h).elim
    · next hc => rw [if_neg hc]

/-- **What a piece comes to in which the start of a call is over**: a result that the script yields, or
an execution of the script that nobody has cancelled.  Of a call whose script refuses to start nothing
is recorded. -/
structure Begins (s : Script) (now : Nat) (records : List Record) (call : Call) (errand : Errand)
    (r : World × Progress) : Prop where
  result : ∀ {result : Except Failure Outcome}, r.2 = .finished result →
    s.Yields call.command.program result
  unrecorded : s.refuses → r.1.backend.records = records
  paused : r.2 = .paused → s.refuses = false ∧ r.1.isCancelled call.token = false ∧
    ∃ id, r.1.At call.job errand (.running id (s.execution id now))

/-- **What a piece comes to in which a call asks for a start** that takes a while: it is cancelled, or
a timer is set for the end of the start.  Nothing is recorded before. -/
structure Asks (w : World) (d : Nat) (call : Call) (errand : Errand) (r : World × Progress) :
    Prop where
  result : ∀ {result : Except Failure Outcome}, r.2 = .finished result → result = .ok .cancelled
  unrecorded : r.1.backend.records = w.backend.records
  paused : r.2 = .paused → (∃ id, r.1.At call.job errand (.starting id)) ∧
    r.1.timers = insertTimer ⟨w.clock + d, call.job⟩ w.timers

/-- The observers are told of a start at one moment. -/
theorem announceStart_clock (h : w.ServesAt call errand (.running id e)) :
    (w.announceStart id call.command).1.clock = w.clock :=
  (callObservers_works (fun name => .startNoticed name id call.command)
    (fun {w} name calls (h : w.CallAt call (.running id e)) => .startNoticed name calls h)
    (fun h => .startPanicked h) w.manager.startObservers.callbacks
    (w := w.note (.startAnnounced id call.command)) h).1.stamps.clock

/-- An execution of a script has been started, and the observers are told. -/
theorem started_begins {s : Script} {now : Nat} (hs : s.refuses = false) (hnow : w.clock = now)
    (records : List Record) (h : w.ServesAt call errand (.running id (s.execution id now))) :
    Begins s now records call errand (match w.announceStart id call.command with
      | (w', panicked) => if panicked then (w'.setPosition call.job .telling, .panicked)
        else w'.follow call id (s.execution id now)) := by
  have hserves := announceStart_servesAt h
  have hclock := (announceStart_clock h).trans hnow
  have haccepts (hrefuses : s.refuses) : False := Bool.noConfusion (hs.symm.trans hrefuses)
  dsimp only
  split
  · exact ⟨fun hr => absurd hr (by simp), fun hr => (haccepts hr).elim,
      fun hr => absurd hr (by simp)⟩
  · refine ⟨fun hr => ?_, fun hr => (haccepts hr).elim, fun hr => ?_⟩
    · have hyields := follow_result hr
      rw [hclock] at hyields
      exact Script.Yields.of_execution hyields hs _
    · obtain ⟨hat, hcalm⟩ := follow_paused hserves.1 hr
      exact ⟨hs, hcalm, id, hat⟩

theorem launch_begins (h : w.ServesAt call errand (.starting id)) :
    Begins (w.backend.scriptFor call.command.args) w.clock w.backend.records call errand
      (w.launch call id) := by
  generalize hs : w.backend.scriptFor call.command.args = s
  unfold launch Scripted.start
  rw [hs]
  dsimp only
  split
  · next f hb =>
    refine ⟨fun hr => ?_, fun _ => congrArg Account.records (adds_releaseGuard _).account,
      fun hr => absurd hr (by simp)⟩
    obtain rfl := Progress.finished.inj hr
    split at hb
    · next hrefuses =>
      obtain rfl := Except.error.inj hb
      exact .refused hrefuses
    · exact absurd hb (by simp)
  · next b e hb =>
    split at hb
    · exact absurd hb (by simp)
    · next hrefuses =>
      obtain ⟨-, rfl⟩ := Prod.mk.inj (Except.ok.inj hb)
      have hclock := (stamps_releaseGuard (((w.setBackend b).note
        (.started id call.command)).setPosition call.job
        (.running id (s.execution id w.clock)))).clock
      exact started_begins (Bool.eq_false_iff.2 hrefuses) hclock _ (h.started b _)

theorem begin_begins (h : w.ServesAt call errand (.inLine id))
    (hd : w.startDelayOf call.command = 0) :
    Begins (w.backend.scriptFor call.command.args) w.clock w.backend.records call errand
      (w.begin call id) := by
  unfold begin
  split
  · refine ⟨fun hr => ?_, fun _ => congrArg Account.records (adds_releaseGuard w).account,
      fun hr => absurd hr (by simp [cancelBeforeStart])⟩
    obtain rfl := Progress.finished.inj hr
    exact .cancelled
  · dsimp only
    split
    · exact launch_begins h.asksStart
    · next hne => exact absurd hd hne

theorem begin_asks (h : w.ServesAt call errand (.inLine id))
    (hd : w.startDelayOf call.command ≠ 0) :
    Asks w (w.startDelayOf call.command) call errand (w.begin call id) := by
  unfold begin
  split
  · refine ⟨fun hr => ?_, congrArg Account.records (adds_releaseGuard w).account,
      fun hr => absurd hr (by simp [cancelBeforeStart])⟩
    exact (Progress.finished.inj hr).symm
  · dsimp only
    split
    · next heq => exact absurd heq hd
    · exact ⟨fun hr => absurd hr (by simp), rfl, fun _ => ⟨⟨id, h.asksStart.1⟩, rfl⟩⟩

/-- **A call that finds the right to start free** takes it. -/
theorem enter_eq (call : Call) (hopen : w.manager.isDisposed = false)
    (hfree : w.manager.guard.holder = none) :
    w.enter call = (((w.takeNumber call.job).takeGuard call.job).setPosition call.job
      (.inLine w.nextId)).begin call w.nextId := by
  have hfree' : (w.takeNumber call.job).manager.guard.holder = none := hfree
  unfold enter
  rw [hopen, if_neg Bool.false_ne_true]
  dsimp only
  rw [hfree']

/-- When starts take no time, it comes to what its script says. -/
theorem enter_begins (h : w.ServesAt call errand .fresh) (hopen : w.manager.isDisposed = false)
    (hfree : w.manager.guard.holder = none) (hd : w.startDelayOf call.command = 0) :
    Begins (w.backend.scriptFor call.command.args) w.clock w.backend.records call errand
      (w.enter call) := by
  have hbegins := begin_begins h.takesGuard hd
  rw [enter_eq call hopen hfree]
  exact hbegins

/-- When they take a while, it asks for its start. -/
theorem enter_asks (h : w.ServesAt call errand .fresh) (hopen : w.manager.isDisposed = false)
    (hfree : w.manager.guard.holder = none) (hd : w.startDelayOf call.command ≠ 0) :
    Asks w (w.startDelayOf call.command) call errand (w.enter call) := by
  have hasks := begin_asks h.takesGuard hd
  rw [enter_eq call hopen hfree]
  exact ⟨hasks.result, hasks.unrecorded, hasks.paused⟩

/-- **A call whose start is going on** waits for its timer, or the start is over. -/
theorem proceedStarting_begins (h : w.ServesAt call errand (.starting id)) :
    w.proceedStarting call id = (w, .paused) ∨ (∀ t ∈ w.timers, t.job ≠ call.job) ∧
      Begins (w.backend.scriptFor call.command.args) w.clock w.backend.records call errand
        (w.proceedStarting call id) := by
  unfold proceedStarting
  split
  · exact .inl rfl
  · next hnone =>
    refine .inr ⟨fun t ht hjob => hnone ?_, launch_begins h⟩
    exact List.any_eq_true.2 ⟨t, ht, beq_iff_eq.2 hjob⟩

end Pieces

/-! ## The turn of the job of an entry -/

/-- **Nothing troubles the world**: no callback has panicked, and the task manager is not disposed
of. -/
structure IsUntroubled (w : World) : Prop where
  outcomes : ∀ x ∈ w.verdicts, ∃ e o, x = .resolved e o
  opened : w.manager.isDisposed = false

/-- **An operation is over with a result**: its end is reported, after some other calls of the
reporter, and its outcome gets known. -/
structure Concludes (w w' : World) (e : EntryId) (op : Operation) (opening : List StatusCall)
    (result : Except Failure Outcome) : Prop where
  reported : w'.reported =
    w.reported ++ (opening ++ op.endCalls (.ofResult result)).map (e, ·)
  resolved : .resolved e (.ofResult result) ∈ w'.verdicts

section Turns

variable {w w' : World} {j : JobId} {e : EntryId} {entry : Entry} {p : Position} {call : Call}
  {execution : Execution} {id : TaskId}

theorem IsUntroubled.back (h : w'.IsUntroubled) (hw : Arises w) (hc : Changes w w') :
    w.IsUntroubled where
  outcomes x hx := h.outcomes x ((hw.lasts_changes hc).mem_verdicts hx)
  opened := by
    rw [← Bool.not_eq_true]
    intro hd
    exact absurd ((hw.lasts_changes hc).disposed hd) (by simp [h.opened])

/-- The job of an entry is never given up. -/
theorem Arises.kept (hw : Arises w) (hat : w.At j (.operation e) p) :
    w.jobs[j]? = some ⟨.operation e, p, false⟩ := by
  obtain ⟨given, hj⟩ := hat
  cases given with
  | false => exact hj
  | true =>
    have hnamed := hw.isOrderly.abandoned (Job.runner ⟨.operation e, p, true⟩)
      (List.mem_map_of_mem (List.mem_of_getElem? hj)) rfl
    exact Bool.noConfusion hnamed

/-- **The turn of the job of an entry** goes on with its operation. -/
theorem takeTurn_operation (hw : Arises w) (hj : j ∈ w.ready) (hat : w.At j (.operation e) p)
    (hp : p ≠ .done) : w.takeTurn j = { ({ w with
      ready := w.ready.erase j, current := some j } : World).turnOperation j e with
        current := none } := by
  have hset : Arises { w with ready := w.ready.erase j, current := some j } :=
    (hw.change (.drift (.turnTaken j hj))).change (.drift (.turnSet (some j)))
  have hat₀ : ({ w with ready := w.ready.erase j, current := some j } : World).At j
    (.operation e) p := hat
  have hchanges := (turnJob_works hat₀ hp).changes
  obtain ⟨p', hat'⟩ := hset.at_forth hchanges hat₀
  have hkept := (hset.changes hchanges).kept hat'
  change (turnOperation _ j e).jobs[j]? = _ at hkept
  have hjob : ({ w with ready := w.ready.erase j } : World).jobs[j]? =
    some ⟨.operation e, p, false⟩ := hw.kept hat
  unfold takeTurn turn
  rw [hjob]
  dsimp only
  rw [if_neg hp, if_neg Bool.false_ne_true]
  unfold discardIfAbandoned turnJob
  dsimp only
  rw [hkept]
  rfl

/-- The end of an operation is reported, and unless the reporter panics its outcome gets known. -/
theorem report_concludes (he : w.entryOf? e = some entry) (o : Outcome) (calls : List StatusCall)
    (hu : ((reportAll e calls w).1.resolve e (if (reportAll e calls w).2 then .terminated
      else o)).IsUntroubled) :
    ((reportAll e calls w).1.resolve e (if (reportAll e calls w).2 then .terminated
      else o)).reported = w.reported ++ calls.map (e, ·) ∧
    .resolved e o ∈ ((reportAll e calls w).1.resolve e (if (reportAll e calls w).2 then .terminated
      else o)).verdicts ∧
    ((reportAll e calls w).1.resolve e (if (reportAll e calls w).2 then .terminated
      else o)).backend.records = w.backend.records := by
  have hcalls := reportAll_calls e calls w
  obtain ⟨made, -, hall, hreported⟩ := reportAll_reported e calls w
  obtain ⟨entry', he', -⟩ := hcalls.mild.toLasts.entryOf? he
  generalize reportAll e calls w = r at *
  obtain ⟨w₁, panicked⟩ := r
  have hverdicts := verdicts_resolve he' (if panicked then .terminated else o)
  cases panicked with
  | true =>
    obtain ⟨x, ⟨status, rfl⟩, hx⟩ := hcalls.panicked rfl
    obtain ⟨e', o', heq⟩ := hu.outcomes (.reporterPanicked e status) (by
      rw [hverdicts, hx]
      simp)
    exact absurd heq (by simp)
  | false =>
    refine ⟨?_, ?_, (mild_resolve w₁ e o).records.trans hcalls.mild.records⟩
    · rw [← hall rfl, ← hreported]
      exact (mild_resolve w₁ e o).reported_eq (by simp)
    · rw [hverdicts]
      exact List.mem_append_right _ List.mem_cons_self

theorem concludeOperation_concludes (he : w.entryOf? e = some entry)
    (result : Except Failure Outcome) {named : Entry}
    (hu : (w.concludeOperation j e named result).IsUntroubled) :
    Concludes w (w.concludeOperation j e named result) e named.operation [] result ∧
      (w.concludeOperation j e named result).backend.records = w.backend.records := by
  unfold concludeOperation at hu ⊢
  cases result with
  | ok o =>
    obtain ⟨hreported, hresolved, hrecords⟩ := report_concludes (w := w.note _) he o _
      ⟨hu.outcomes, hu.opened⟩
    rw [reported_note w rfl] at hreported
    exact ⟨⟨hreported, hresolved⟩, hrecords⟩
  | error f =>
    obtain ⟨hreported, hresolved, hrecords⟩ := report_concludes (w := (w.note _).note _) he
      (.launchFailed f.message) _ ⟨hu.outcomes, hu.opened⟩
    rw [reported_note (w.note _) rfl, reported_note w rfl] at hreported
    exact ⟨⟨hreported, hresolved⟩, hrecords⟩

/-- **The execution of an operation goes on as far as it can**, or the operation is over. -/
theorem goOn_cases (hw : Arises w) (h : w.ServesAt call (.operation e) p)
    (he : w.entryOf? e = some entry) {named : Entry} (hu : (w.goOn call e named).IsUntroubled) :
    (w.proceed call).2 = .paused ∧ w.goOn call e named = (w.proceed call).1 ∨
      ∃ result, (w.proceed call).2 = .finished result ∧
        Concludes w (w.goOn call e named) e named.operation [] result ∧
        (w.goOn call e named).backend.records = (w.proceed call).1.backend.records := by
  have hleads := proceed_leads h
  have hpiece := hw.piece h
  have hreported := proceed_reported w call
  have hlasts := hw.lasts_changes hleads.changes
  unfold goOn at hu ⊢
  obtain ⟨entry', he', -⟩ := hlasts.entryOf? he
  rcases hr : w.proceed call with ⟨w₁, _ | result | _⟩ <;> rw [hr] at hu hpiece he' hreported
  · exact .inl ⟨rfl, rfl⟩
  · obtain ⟨hconcludes, hrecords⟩ := concludeOperation_concludes he' result hu
    exact .inr ⟨result, rfl, ⟨hreported ▸ hconcludes.reported, hconcludes.resolved⟩, hrecords⟩
  · obtain ⟨kind, id, -, hx⟩ := hpiece.panicked rfl
    obtain ⟨e', o', heq⟩ := hu.outcomes (.observerPanicked kind id) (by
      change _ ∈ (w₁.resolve e .terminated).verdicts
      rw [verdicts_resolve he', hx]
      simp)
    exact absurd heq (by simp)

theorem scriptFor_of_settings (h : w'.settings = w.settings) (args : List String) :
    w'.backend.scriptFor args = w.backend.scriptFor args := by
  obtain ⟨hbackend, -⟩ := Prod.mk.inj h
  obtain ⟨hfallback, hscripts⟩ := Prod.mk.inj hbackend
  rw [Scripted.scriptFor, Scripted.scriptFor, hfallback, hscripts]

/-- **What becomes of the job of an entry whose start is over**: it has an execution of the script that
nobody has cancelled, or the operation is over with a result that the script yields, and without a
record if the script refuses to start. -/
def SetsOut (s : Script) (w w' : World) (j : JobId) (e : EntryId) (entry : Entry)
    (opening : List StatusCall) : Prop :=
  (s.refuses = false ∧ w'.reported = w.reported ++ opening.map (e, ·) ∧
    w'.isCancelled entry.token = false ∧
    ∃ id, w'.At j (.operation e) (.running id (s.execution id w.clock))) ∨
  ∃ result, s.Yields entry.operation.command.program result ∧
    Concludes w w' e entry.operation opening result ∧
    (s.refuses → w'.backend.records = w.backend.records)

/-- **What becomes of the job of an entry that asks for a start** which takes a while: it has a timer
for the end of the start, or the operation is cancelled without a record. -/
def Prepares (d : Nat) (w w' : World) (j : JobId) (e : EntryId) (op : Operation)
    (opening : List StatusCall) : Prop :=
  (w'.reported = w.reported ++ opening.map (e, ·) ∧
    (∃ id, w'.At j (.operation e) (.starting id)) ∧
    ∀ t : Timer, t.job = j → (t ∈ w'.timers ↔ t = ⟨w.clock + d, j⟩ ∨ t ∈ w.timers)) ∨
  Concludes w w' e op opening (.ok .cancelled) ∧ w'.backend.records = w.backend.records

/-! ### The turn in which a job begins -/

theorem spares_report (w : World) (e : EntryId) (call : StatusCall) :
    Spares none w (w.report e call).1 := by
  have hkept (calls : List StatusKind) : Spares none w
      ((w.note (.reported e call (w.isRecorded e))).keepCalls calls) := .of_eq rfl rfl rfl rfl
  have hran (hooks : List Hook) (calls : List StatusKind) :=
    (hkept calls).trans (runHooks_deeds (.status call.kind) hooks _).spares
  unfold report
  dsimp only
  split
  · split
    · exact (hran _ _).trans (.of_eq rfl rfl rfl rfl)
    · exact hran _ _
  · exact .of_eq rfl rfl rfl rfl

/-- Reports leave all jobs and their timers alone. -/
theorem spares_reportAll (w : World) (e : EntryId) (calls : List StatusCall) :
    Spares none w (reportAll e calls w).1 := by
  induction calls generalizing w with
  | nil => exact .refl w
  | cons call calls ih =>
    have hfirst := spares_report w e call
    simp only [reportAll]
    split
    · exact hfirst
    · exact hfirst.trans (ih _)

/-- **The start of the operation of an entry has been reported**, and its job is about to enter. -/
structure IsOpened (w w₁ : World) (call : Call) (e : EntryId) (entry : Entry) : Prop where
  arises : Arises w₁
  serves : w₁.ServesAt call (.operation e) .fresh
  known : ∃ entry₁, w₁.entryOf? e = some entry₁
  reported : w₁.reported =
    w.reported ++ (entry.operation.startCalls (w.queueName entry.queue)).map (e, ·)
  spares : Spares none w w₁
  guard : w₁.manager.guard = w.manager.guard
  records : w₁.backend.records = w.backend.records
  settings : w₁.settings = w.settings
  opened : w₁.manager.isDisposed = false

theorem turnOperation_opens (hw : Arises w) (hk : w.CalledBy Hook.IsReserved)
    (hat : w.At j (.operation e) .fresh) (he : w.entryOf? e = some entry)
    (hu : (w.turnOperation j e).IsUntroubled) : ∃ w₁,
      w.IsOpened w₁ ⟨j, entry.operation.command, entry.token⟩ e entry ∧
        w.turnOperation j e = w₁.goOn ⟨j, entry.operation.command, entry.token⟩ e entry := by
  obtain ⟨entry', call, he', rfl, hserves, ⟨hne, -⟩ | ⟨-, w₁, panicked, hr, heq⟩⟩ :=
    turnOperation_cases hw.isOrderly hat
  · exact absurd rfl hne
  obtain rfl := Option.some.inj (he'.symm.trans he)
  have hcall := Option.some.inj (hserves.2.symm.trans (hat.servesAt he).2)
  have hspares := spares_reportAll w e (entry'.operation.startCalls (w.queueName entry'.queue))
  have hcalls := reportAll_calls e (entry'.operation.startCalls (w.queueName entry'.queue)) w
  obtain ⟨made, -, hall, hreported⟩ :=
    reportAll_reported e (entry'.operation.startCalls (w.queueName entry'.queue)) w
  obtain ⟨hworks, hserves₁⟩ := reportAll_works (.inl rfl)
    (entry'.operation.startCalls (w.queueName entry'.queue)) hserves
  have hsettings := Touches.settings (reportAll_goes (.inl rfl)
    (entry'.operation.startCalls (w.queueName entry'.queue)) hserves hk)
  rw [hr] at hspares hcalls hall hreported hworks hserves₁ hsettings
  obtain ⟨entry₁, he₁, -⟩ := hcalls.mild.toLasts.entryOf? he
  have harises := hw.changes hworks.changes
  rw [heq] at hu ⊢
  cases panicked with
  | true =>
    obtain ⟨x, ⟨status, rfl⟩, hx⟩ := hcalls.panicked rfl
    obtain ⟨e', o', hresolved⟩ := hu.outcomes (.reporterPanicked e status) (by
      change _ ∈ (w₁.resolve e .terminated).verdicts
      rw [verdicts_resolve he₁, hx]
      simp)
    exact absurd hresolved (by simp)
  | false =>
    obtain rfl := hall rfl
    rw [if_neg Bool.false_ne_true] at hu ⊢
    rw [← hcall]
    exact ⟨w₁, ⟨harises, hserves₁, ⟨entry₁, he₁⟩, hreported, hspares, hcalls.mild.guard,
      hcalls.mild.records, hsettings, (hu.back harises (goOn_works entry' hserves₁).changes).opened⟩, rfl⟩

/-- What is concluded after the start was reported is concluded with the whole report. -/
theorem IsOpened.concludes {w₁ : World} (h : w.IsOpened w₁ call e entry)
    {result : Except Failure Outcome} (hends : Concludes w₁ w' e entry.operation [] result) :
    Concludes w w' e entry.operation (entry.operation.startCalls (w.queueName entry.queue))
      result := by
  refine ⟨?_, hends.resolved⟩
  rw [hends.reported, h.reported, List.append_assoc, ← List.map_append, List.nil_append]

theorem turnOperation_begins (hw : Arises w) (hk : w.CalledBy Hook.IsReserved)
    (hd : w.settings.2 = ([], 0)) (hfree : w.manager.guard.holder = none)
    (hat : w.At j (.operation e) .fresh) (he : w.entryOf? e = some entry)
    (hu : (w.turnOperation j e).IsUntroubled) {s : Script}
    (hs : w.backend.scriptFor entry.operation.command.args = s) :
    SetsOut s w (w.turnOperation j e) j e entry
      (entry.operation.startCalls (w.queueName entry.queue)) := by
  obtain ⟨w₁, hopened, heq⟩ := turnOperation_opens hw hk hat he hu
  have hbegins := enter_begins hopened.serves hopened.opened (hopened.guard ▸ hfree)
    (startDelayOf_eq (hopened.settings ▸ hd) _)
  have hproceed : w₁.proceed ⟨j, entry.operation.command, entry.token⟩ =
      w₁.enter ⟨j, entry.operation.command, entry.token⟩ := by
    unfold proceed
    rw [hopened.serves.1.position_eq]
  rw [scriptFor_of_settings hopened.settings, hs, hopened.spares.clock, hopened.records,
    ← hproceed] at hbegins
  obtain ⟨entry₁, he₁⟩ := hopened.known
  rw [heq] at hu ⊢
  rcases goOn_cases hopened.arises hopened.serves he₁ hu with
    ⟨hpaused, hstays⟩ | ⟨result, hresult, hends, hrecords⟩
  · obtain ⟨hrefuses, hcalm, hruns⟩ := hbegins.paused hpaused
    rw [hstays]
    exact .inl ⟨hrefuses, (proceed_reported w₁ _).trans hopened.reported, hcalm, hruns⟩
  · exact .inr ⟨result, hbegins.result hresult, hopened.concludes hends,
      fun hrefuses => hrecords.trans (hbegins.unrecorded hrefuses)⟩

theorem turnOperation_prepares (hw : Arises w) (hk : w.CalledBy Hook.IsReserved) {d : Nat}
    (hd : w.settings.2 = ([], d)) (hpos : d ≠ 0) (hfree : w.manager.guard.holder = none)
    (hat : w.At j (.operation e) .fresh) (he : w.entryOf? e = some entry)
    (hu : (w.turnOperation j e).IsUntroubled) :
    Prepares d w (w.turnOperation j e) j e entry.operation
      (entry.operation.startCalls (w.queueName entry.queue)) := by
  obtain ⟨w₁, hopened, heq⟩ := turnOperation_opens hw hk hat he hu
  have hdelay := startDelayOf_eq (hopened.settings ▸ hd) entry.operation.command
  have hasks := enter_asks hopened.serves hopened.opened (hopened.guard ▸ hfree)
    (by rw [hdelay]; exact hpos)
  have hproceed : w₁.proceed ⟨j, entry.operation.command, entry.token⟩ =
      w₁.enter ⟨j, entry.operation.command, entry.token⟩ := by
    unfold proceed
    rw [hopened.serves.1.position_eq]
  rw [hdelay, ← hproceed] at hasks
  obtain ⟨entry₁, he₁⟩ := hopened.known
  rw [heq] at hu ⊢
  rcases goOn_cases hopened.arises hopened.serves he₁ hu with
    ⟨hpaused, hstays⟩ | ⟨result, hresult, hends, hrecords⟩
  · obtain ⟨hstarting, htimers⟩ := hasks.paused hpaused
    rw [hstays]
    refine .inl ⟨(proceed_reported w₁ _).trans hopened.reported, hstarting, fun t _ => ?_⟩
    rw [htimers, mem_insertTimer, hopened.spares.clock]
    exact or_congr_right (hopened.spares.timers t (by simp))
  · obtain rfl := hasks.result hresult
    exact .inr ⟨hopened.concludes hends, hrecords.trans (hasks.unrecorded.trans hopened.records)⟩

/-- The turn of a job begins by taking it. -/
theorem arises_turnTaken (hw : Arises w) (hj : j ∈ w.ready) :
    Arises { w with ready := w.ready.erase j, current := some j } :=
  (hw.change (.drift (.turnTaken j hj))).change (.drift (.turnSet _))

/-- **The turn in which the job of an entry begins**, when starts take no time. -/
theorem takeTurn_begins (hw : Arises w) (hk : w.CalledBy Hook.IsReserved)
    (hd : w.settings.2 = ([], 0)) (hfree : w.manager.guard.holder = none) (hj : j ∈ w.ready)
    (hat : w.At j (.operation e) .fresh) (he : w.entryOf? e = some entry)
    (hu : (w.takeTurn j).IsUntroubled) {s : Script}
    (hs : w.backend.scriptFor entry.operation.command.args = s) :
    SetsOut s w (w.takeTurn j) j e entry
      (entry.operation.startCalls (w.queueName entry.queue)) := by
  rw [takeTurn_operation hw hj hat (by simp)] at hu ⊢
  rcases turnOperation_begins (arises_turnTaken hw hj) hk hd hfree hat he
    ⟨hu.outcomes, hu.opened⟩ hs with hruns | ⟨result, hyields, hends, hrecords⟩
  · exact .inl hruns
  · exact .inr ⟨result, hyields, ⟨hends.reported, hends.resolved⟩, hrecords⟩

/-- **The turn in which the job of an entry begins**, when starts take a while. -/
theorem takeTurn_prepares (hw : Arises w) (hk : w.CalledBy Hook.IsReserved) {d : Nat}
    (hd : w.settings.2 = ([], d)) (hpos : d ≠ 0) (hfree : w.manager.guard.holder = none)
    (hj : j ∈ w.ready) (hat : w.At j (.operation e) .fresh) (he : w.entryOf? e = some entry)
    (hu : (w.takeTurn j).IsUntroubled) : Prepares d w (w.takeTurn j) j e entry.operation
      (entry.operation.startCalls (w.queueName entry.queue)) := by
  rw [takeTurn_operation hw hj hat (by simp)] at hu ⊢
  rcases turnOperation_prepares (arises_turnTaken hw hj) hk hd hpos hfree hat he
    ⟨hu.outcomes, hu.opened⟩ with hstarts | ⟨hends, hrecords⟩
  · exact .inl hstarts
  · exact .inr ⟨⟨hends.reported, hends.resolved⟩, hrecords⟩

/-! ### Later turns -/

theorem turnOperation_launches (hw : Arises w) (hat : w.At j (.operation e) (.starting id))
    (he : w.entryOf? e = some entry) (hu : (w.turnOperation j e).IsUntroubled) {s : Script}
    (hs : w.backend.scriptFor entry.operation.command.args = s) :
    w.turnOperation j e = w ∨ (∀ t ∈ w.timers, t.job ≠ j) ∧
      SetsOut s w (w.turnOperation j e) j e entry [] := by
  obtain ⟨entry', call, he', rfl, hserves, ⟨-, heq⟩ | ⟨hfresh, -⟩⟩ :=
    turnOperation_cases hw.isOrderly hat
  · obtain rfl := Option.some.inj (he'.symm.trans he)
    have hcall := Option.some.inj (hserves.2.symm.trans (hat.servesAt he).2)
    have hcommand : call.command = entry'.operation.command := congrArg Call.command hcall
    have htoken : call.token = entry'.token := congrArg Call.token hcall
    have hproceed : w.proceed call = w.proceedStarting call id := by
      unfold proceed
      rw [hat.position_eq]
    have hbegins := proceedStarting_begins hserves
    rw [← hproceed, hcommand, hs] at hbegins
    rw [heq] at hu ⊢
    rcases goOn_cases hw hserves he hu with ⟨hpaused, hstays⟩ | ⟨result, hresult, hends, hrecords⟩
    · rw [hstays]
      rcases hbegins with hwaits | ⟨hnone, hbegins⟩
      · exact .inl (congrArg Prod.fst hwaits)
      · obtain ⟨hrefuses, hcalm, hruns⟩ := hbegins.paused hpaused
        refine .inr ⟨hnone, .inl ⟨hrefuses, ?_, htoken ▸ hcalm, hruns⟩⟩
        rw [proceed_reported, List.map_nil, List.append_nil]
    · rcases hbegins with hwaits | ⟨hnone, hbegins⟩
      · rw [hwaits] at hresult
        exact absurd hresult (by simp)
      · have hyields := hbegins.result hresult
        rw [hcommand] at hyields
        exact .inr ⟨hnone, .inr ⟨result, hyields, hends,
          fun hrefuses => hrecords.trans (hbegins.unrecorded hrefuses)⟩⟩
  · exact absurd hfresh (by simp)

/-- **The turn of the job of an entry whose start is going on**: it goes on waiting for its timer, or
the start is over. -/
theorem takeTurn_launches (hw : Arises w) (hj : j ∈ w.ready)
    (hat : w.At j (.operation e) (.starting id)) (he : w.entryOf? e = some entry)
    (hu : (w.takeTurn j).IsUntroubled) {s : Script}
    (hs : w.backend.scriptFor entry.operation.command.args = s) :
    (w.takeTurn j).At j (.operation e) (.starting id) ∧ (w.takeTurn j).timers = w.timers ∨
      (∀ t ∈ w.timers, t.job ≠ j) ∧ SetsOut s w (w.takeTurn j) j e entry [] := by
  rw [takeTurn_operation hw hj hat (by simp)] at hu ⊢
  rcases turnOperation_launches (arises_turnTaken hw hj) hat he ⟨hu.outcomes, hu.opened⟩ hs with
    hwaits | ⟨hnone, hruns | ⟨result, hyields, hends, hrecords⟩⟩
  · rw [hwaits]
    exact .inl ⟨hat, rfl⟩
  · exact .inr ⟨hnone, .inl hruns⟩
  · exact .inr ⟨hnone, .inr ⟨result, hyields, ⟨hends.reported, hends.resolved⟩, hrecords⟩⟩

theorem turnOperation_resumes (hw : Arises w) (hat : w.At j (.operation e) (.running id execution))
    (he : w.entryOf? e = some entry) (hu : (w.turnOperation j e).IsUntroubled) :
    (w.turnOperation j e).At j (.operation e) (.running id execution) ∧
      (w.turnOperation j e).reported = w.reported ∨
    ∃ result, execution.Yields w.clock result ∧
      Concludes w (w.turnOperation j e) e entry.operation [] result := by
  obtain ⟨entry', call, he', rfl, hserves, ⟨-, heq⟩ | ⟨hfresh, -⟩⟩ :=
    turnOperation_cases hw.isOrderly hat
  · obtain rfl := Option.some.inj (he'.symm.trans he)
    rw [heq] at hu ⊢
    have hproceed : w.proceed call = w.proceedRunning call id execution := by
      unfold proceed
      rw [hat.position_eq]
    rcases goOn_cases hw hserves he hu with ⟨hpaused, hstays⟩ | ⟨result, hresult, hends, -⟩
    · rw [hproceed] at hpaused hstays
      rw [hstays, proceedRunning_paused hpaused]
      exact .inl ⟨hat, rfl⟩
    · rw [hproceed] at hresult
      exact .inr ⟨result, proceedRunning_result hresult, hends⟩
  · exact absurd hfresh (by simp)

/-- **The turn of the job of an entry whose execution runs**: it goes on as it is, or the operation
is over with a result that the execution yields. -/
theorem takeTurn_resumes (hw : Arises w) (hj : j ∈ w.ready)
    (hat : w.At j (.operation e) (.running id execution)) (he : w.entryOf? e = some entry)
    (hu : (w.takeTurn j).IsUntroubled) :
    (w.takeTurn j).At j (.operation e) (.running id execution) ∧
      (w.takeTurn j).reported = w.reported ∨
    ∃ result, execution.Yields w.clock result ∧
      Concludes w (w.takeTurn j) e entry.operation [] result := by
  rw [takeTurn_operation hw hj hat (by simp)] at hu ⊢
  rcases turnOperation_resumes (arises_turnTaken hw hj) hat he ⟨hu.outcomes, hu.opened⟩ with
    hruns | ⟨result, hyields, hends⟩
  · exact .inl hruns
  · exact .inr ⟨result, hyields, hends.reported, hends.resolved⟩

end Turns

end Dispatch.World

end FolderTasks
