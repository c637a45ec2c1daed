import FolderTasks.Proofs.Dispatch.EntryOutcomes
import FolderTasks.Proofs.Dispatch.OutcomeMoments
/-!
# What is reported

The status reporter is called in the turns of the jobs that execute the operations of entries, and
nowhere else: when such a job begins, and when its operation is over.  A panic breaks the calls off,
and then the outcome gets known; otherwise it gets known after the last of them.

## Main definitions

* `World.reported`: the calls of the reporter.
* `World.opening`: the calls with which the turn of an entry's job opens.
* `World.BrokenOff`: where a panic breaks the calls off.
* `World.Reports`: what a turn reports.

## Main statements

* `World.proceed_reported`: an execution reports nothing.
* `World.Arises.reports`: what every turn reports.
-/

namespace FolderTasks.Dispatch

/-- Is it the fact of a call of the reporter, and if so, for which entry? -/
def Happening.report? : Happening → Option (EntryId × StatusCall)
  | .reported e call _ => some (e, call)
  | _ => none

namespace World

/-- The calls of the reporter, in the order in which they were made. -/
def reported (w : World) : List (EntryId × StatusCall) := w.seen Happening.report?

/-- The calls with which the turn of an entry's job opens: those that report the start, if the job
begins. -/
def opening (w : World) (p : Position) (entry : Entry) : List StatusCall :=
  if p = .fresh then entry.operation.startCalls (w.queueName entry.queue) else []

/-- **Nothing is reported**, and no outcome gets known. -/
structure Silent (w w' : World) : Prop where
  reported : w'.reported = w.reported
  resolved : w'.seen Happening.resolved? = w.seen Happening.resolved?

/-- **What a turn has voiced** before the outcome of an entry gets known: the calls that were made
of the reporter, and the panic that broke them off. -/
structure Voices (w : World) (e : EntryId) (made : List StatusCall) (panics : List Happening)
    (w₁ : World) : Prop where
  history : w.history <:+ w₁.history
  reported : w₁.reported = w.reported ++ made.map (e, ·)
  verdicts : w₁.verdicts = w.verdicts ++ panics

/-- **Where a panic breaks the calls off** that are made for an operation.  The reporter panics at
the last call that is made of it.  An observer is told after the calls that report the start, and
before those that report the end. -/
inductive BrokenOff (w : World) (e : EntryId) (op : Operation) (start : List StatusCall) :
    Happening → List StatusCall → Prop where
  | atStart {before : List StatusCall} {status : StatusCall}
      (hbegins : before ++ [status] <+: start) :
      BrokenOff w e op start (.reporterPanicked e status) (before ++ [status])
  | between (kind : NoticeKind) (id : TaskId) :
      BrokenOff w e op start (.observerPanicked kind id) start
  /-- What is reported then is the outcome that the call of the entry came to. -/
  | atEnd {before : List StatusCall} {status : StatusCall} {call : Call} {p : Position}
      {result : Except Failure Outcome} (hserves : w.ServesAt call (.operation e) p)
      (hp : p ≠ .fresh) (htold : w.Told call result)
      (hbegins : before ++ [status] <+: op.endCalls (.ofResult result)) :
      BrokenOff w e op start (.reporterPanicked e status) (start ++ (before ++ [status]))

/-- **What the turn of a job reports.** -/
inductive Reports (w : World) (j : JobId) (w' : World) : Prop
  /-- The job serves no entry, or has nothing to do. -/
  | nothing (hidle : ∀ {e : EntryId} {p : Position}, w.At j (.operation e) p → p = .done)
      (h : Silent w w')
  /-- The operation of an entry goes on. -/
  | opened {e : EntryId} {entry : Entry} {p : Position} (hat : w.At j (.operation e) p)
      (he : w.entryOf? e = some entry)
      (h : w'.reported = w.reported ++ (w.opening p entry).map (e, ·))
      (ho : w'.seen Happening.resolved? = w.seen Happening.resolved?)
  /-- A callback panics, and nothing more is reported. -/
  | panicked {e : EntryId} {entry : Entry} {p : Position} {x : Happening} {made : List StatusCall}
      (hat : w.At j (.operation e) p) (he : w.entryOf? e = some entry)
      (hmade : w'.BrokenOff e entry.operation (w.opening p entry) x made)
      (h : w'.reported = w.reported ++ made.map (e, ·)) (hpanic : w'.IsPanicFor e x)
      (hv : w'.verdicts = w.verdicts ++ [x, .resolved e .terminated])
      (ho : w.Resolves w' e .terminated)
  /-- The operation is over. -/
  | concluded {e : EntryId} {entry : Entry} {p : Position} {o : Outcome}
      (hat : w.At j (.operation e) p) (he : w.entryOf? e = some entry)
      (h : w'.reported =
        w.reported ++ (w.opening p entry ++ entry.operation.endCalls o).map (e, ·))
      (hv : w'.verdicts = w.verdicts ++ [.resolved e o]) (ho : w.Resolves w' e o)

/-! ## What reports nothing -/

section Silence

variable {O : List Origin} {w w' : World} {call : Call} {id : TaskId}

theorem Lasts.reported_eq (h : Lasts O w w') (ho : .telling ∉ O) : w'.reported = w.reported := by
  refine h.seen_eq fun x hx => ?_
  cases x <;> first | rfl | exact absurd hx ho

theorem reported_note (w : World) {x : Happening} (hx : x.report? = none) :
    (w.note x).reported = w.reported := seen_note_of_none w hx

theorem reported_releaseGuard (w : World) : w.releaseGuard.reported = w.reported :=
  (lasts_releaseGuard (O := []) w).reported_eq (by simp)

theorem reported_listen (w : World) (token : Option String) (j : JobId) :
    (w.listen token j).reported = w.reported :=
  (mild_listen (O := []) w token j).reported_eq (by simp)

theorem reported_unlisten (w : World) (token : Option String) (j : JobId) :
    (w.unlisten token j).reported = w.reported :=
  (mild_unlisten (O := []) w token j).reported_eq (by simp)

theorem runHooks_reported (site : CallbackSite) (hooks : List Hook) (w : World) :
    (runHooks site hooks w).1.reported = w.reported :=
  (runHooks_deeds site hooks w).mild.reported_eq (by simp)

theorem callObservers_reported (kind : NoticeKind) (id : TaskId) {fact : String → Happening}
    (hfact : ∀ name, (fact name).report? = none) (observers : List (Nat × Observer)) (w : World) :
    (callObservers kind id fact observers w).1.reported = w.reported := by
  induction observers generalizing w with
  | nil => rfl
  | cons o observers ih =>
    have hcalled (calls : List (NoticeKind × Nat)) :
        ((w.note (fact o.2.name)).keepNotices calls).reported = w.reported :=
      reported_note w (hfact o.2.name)
    simp only [callObservers]
    split
    · exact (reported_note _ rfl).trans ((runHooks_reported _ _ _).trans (hcalled _))
    · exact (ih _).trans ((runHooks_reported _ _ _).trans (hcalled _))

theorem announceStart_reported (w : World) (id : TaskId) (c : Command) :
    (w.announceStart id c).1.reported = w.reported :=
  (callObservers_reported .start id (fun _ => rfl) _ _).trans (reported_note w rfl)

theorem announceEnd_reported (w : World) (id : TaskId) (c : Command) (code : Option Int32) :
    (w.announceEnd id c code).1.reported = w.reported :=
  (callObservers_reported .finish id (fun _ => rfl) _ _).trans (reported_note w rfl)

theorem conclude_reported (w : World) (call : Call) (id : TaskId) (code : Option Int32)
    (o : Outcome) : (w.conclude call id code o).1.reported = w.reported :=
  (announceEnd_reported _ id call.command code).trans (reported_note w rfl)

theorem complete_reported (w : World) (call : Call) (id : TaskId) (e : Execution) :
    (w.complete call id e).1.reported = w.reported := conclude_reported _ call id _ _

theorem terminate_reported (w : World) (call : Call) (id : TaskId) :
    (w.terminate call id).1.reported = w.reported :=
  (conclude_reported _ call id _ _).trans (reported_note w rfl)

theorem follow_reported (w : World) (call : Call) (id : TaskId) (e : Execution) :
    (w.follow call id e).1.reported = w.reported := by
  unfold follow
  split
  · exact complete_reported w call id e
  · split
    · exact terminate_reported w call id
    · exact reported_listen _ call.token call.job

theorem launch_reported (w : World) (call : Call) (id : TaskId) :
    (w.launch call id).1.reported = w.reported := by
  unfold launch
  split
  · exact (reported_releaseGuard _).trans (reported_note w rfl)
  · next b e hb =>
    have hstarted : ((((w.setBackend b).note (.started id call.command)).setPosition call.job
        (.running id e)).releaseGuard.announceStart id call.command).1.reported = w.reported :=
      (announceStart_reported _ id call.command).trans
        ((reported_releaseGuard _).trans (reported_note _ rfl))
    dsimp only
    split
    · exact hstarted
    · exact (follow_reported _ call id e).trans hstarted

theorem cancelBeforeStart_reported (w : World) (call : Call) (id : TaskId) :
    (w.cancelBeforeStart call id).1.reported = w.reported := reported_note w rfl

theorem begin_reported (w : World) (call : Call) (id : TaskId) :
    (w.begin call id).1.reported = w.reported := by
  unfold begin
  split
  · exact (cancelBeforeStart_reported _ call id).trans (reported_releaseGuard w)
  · dsimp only
    split
    · exact (launch_reported _ call id).trans (reported_note w rfl)
    · exact reported_note w rfl

theorem enter_reported (w : World) (call : Call) : (w.enter call).1.reported = w.reported := by
  have hnumbered : (w.takeNumber call.job).reported = w.reported := reported_note _ rfl
  unfold enter
  split
  · rfl
  · dsimp only
    split
    · exact (begin_reported _ call _).trans hnumbered
    · have hwaits := (reported_note (w.takeNumber call.job) (x := .waitsToStart w.nextId) rfl).trans
        hnumbered
      split
      · exact (cancelBeforeStart_reported _ call _).trans hwaits
      · exact (reported_listen _ call.token call.job).trans hwaits

theorem proceedInLine_reported (w : World) (call : Call) (id : TaskId) :
    (w.proceedInLine call id).1.reported = w.reported := by
  have hunlisten := reported_unlisten w call.token call.job
  unfold proceedInLine
  split
  · exact (begin_reported _ call id).trans hunlisten
  · split
    · exact (cancelBeforeStart_reported _ call id).trans hunlisten
    · rfl

theorem proceedStarting_reported (w : World) (call : Call) (id : TaskId) :
    (w.proceedStarting call id).1.reported = w.reported := by
  unfold proceedStarting
  split
  · rfl
  · exact launch_reported w call id

theorem proceedRunning_reported (w : World) (call : Call) (id : TaskId) (e : Execution) :
    (w.proceedRunning call id e).1.reported = w.reported := by
  have hunlisten := reported_unlisten w call.token call.job
  unfold proceedRunning
  split
  · exact (complete_reported _ call id e).trans hunlisten
  · split
    · exact (terminate_reported _ call id).trans hunlisten
    · rfl

/-- **An execution reports nothing**, wherever it stands. -/
theorem proceed_reported (w : World) (call : Call) : (w.proceed call).1.reported = w.reported := by
  unfold proceed
  split
  · exact enter_reported w call
  · exact proceedInLine_reported w call _
  · exact proceedStarting_reported w call _
  · exact proceedRunning_reported w call _ _
  · rfl
  · rfl
  · rfl

end Silence

/-! ## Calls of the reporter -/

section Calls

variable {w : World}

theorem report_reported (w : World) (e : EntryId) (status : StatusCall) :
    (w.report e status).1.reported = w.reported ++ [(e, status)] := by
  have hnoted (calls : List StatusKind) :
      ((w.note (.reported e status (w.isRecorded e))).keepCalls calls).reported =
        w.reported ++ [(e, status)] := seen_note w _ _
  unfold report
  dsimp only
  split
  · split
    · exact (reported_note _ rfl).trans ((runHooks_reported _ _ _).trans (hnoted _))
    · exact (runHooks_reported _ _ _).trans (hnoted _)
  · exact hnoted w.reporter.calls

/-- Calls of the reporter are made one by one, all of them unless one panics. -/
theorem reportAll_reported (e : EntryId) (calls : List StatusCall) (w : World) :
    ∃ made, made <+: calls ∧ ((reportAll e calls w).2 = false → made = calls) ∧
      (reportAll e calls w).1.reported = w.reported ++ made.map (e, ·) := by
  induction calls generalizing w with
  | nil => exact ⟨[], List.prefix_rfl, fun _ => rfl, (List.append_nil _).symm⟩
  | cons status calls ih =>
    have hfirst := report_reported w e status
    simp only [reportAll]
    split
    · exact ⟨[status], List.prefix_append [status] calls, fun h => Bool.noConfusion h, hfirst⟩
    · obtain ⟨made, hbegins, hall, hrest⟩ := ih (w.report e status).1
      refine ⟨status :: made, List.cons_prefix_cons.2 ⟨rfl, hbegins⟩, ?_, ?_⟩
      · intro hpassed
        rw [hall hpassed]
      · rw [hrest, hfirst, List.append_assoc]
        rfl

/-- The reporter panics at the last call that is made of it. -/
theorem reportAll_panicked (e : EntryId) (calls : List StatusCall) (w : World)
    (hpanicked : (reportAll e calls w).2 = true) :
    ∃ before status, before ++ [status] <+: calls ∧
      (reportAll e calls w).1.reported = w.reported ++ (before ++ [status]).map (e, ·) ∧
      (reportAll e calls w).1.verdicts = w.verdicts ++ [.reporterPanicked e status] := by
  induction calls generalizing w with
  | nil => exact Bool.noConfusion hpanicked
  | cons status calls ih =>
    have hfirst := report_reported w e status
    have hcall := report_calls w e status
    simp only [reportAll] at hpanicked ⊢
    split at hpanicked
    · next hnow =>
      obtain ⟨x, rfl, hx⟩ := hcall.panicked hnow
      rw [if_pos hnow]
      exact ⟨[], status, List.prefix_append [status] calls, hfirst, hx⟩
    · next hnow =>
      rw [if_neg hnow]
      obtain ⟨before, status', hbegins, hreported, hverdicts⟩ := ih _ hpanicked
      refine ⟨status :: before, status', List.cons_prefix_cons.2 ⟨rfl, hbegins⟩, ?_, ?_⟩
      · rw [hreported, hfirst, List.append_assoc]
        rfl
      · rw [hverdicts, hcall.passed (Bool.not_eq_true _ ▸ hnow)]

end Calls

/-! ## Where calls are broken off -/

section BrokenOff

variable {w w' : World} {e : EntryId} {op : Operation} {start more made : List StatusCall}
variable {x : Happening}

namespace BrokenOff

/-- The calls that were made are the first of those for some outcome. -/
theorem isPrefix (h : w.BrokenOff e op start x made) : ∃ o, made <+: start ++ op.endCalls o := by
  cases h with
  | atStart hbegins => exact ⟨.terminated, hbegins.trans (List.prefix_append _ _)⟩
  | between kind id => exact ⟨.terminated, List.prefix_append _ _⟩
  | atEnd hserves hp htold hbegins => exact ⟨_, (List.prefix_append_right_inj start).2 hbegins⟩

/-- Calls that were made in earlier turns come before. -/
theorem prepend (h : w.BrokenOff e op start x made) :
    w.BrokenOff e op (more ++ start) x (more ++ made) := by
  cases h with
  | atStart hbegins =>
    rw [← List.append_assoc]
    refine .atStart ?_
    rw [List.append_assoc]
    exact (List.prefix_append_right_inj more).2 hbegins
  | between kind id => exact .between kind id
  | atEnd hserves hp htold hbegins =>
    rw [← List.append_assoc]
    exact .atEnd hserves hp htold hbegins

theorem forth (h : w.BrokenOff e op start x made) (hw : Arises w) (hc : Changes w w') :
    w'.BrokenOff e op start x made := by
  cases h with
  | atStart hbegins => exact .atStart hbegins
  | between kind id => exact .between kind id
  | atEnd hserves hp htold hbegins =>
    obtain ⟨p', hserves', hp'⟩ := hw.servesAt_forth hc hserves hp
    exact .atEnd hserves' hp' (htold.changes hw hc ⟨_, _, hserves.1, hp⟩) hbegins

end BrokenOff

end BrokenOff

/-! ## Turns -/

section Turns

variable {w w' w'' w₁ : World} {j : JobId} {e : EntryId} {entry entry₁ : Entry} {p p₁ : Position}
variable {made : List StatusCall} {panics : List Happening} {x : Happening}

/-- What is decided says which outcomes get known. -/
theorem resolved_eq_verdicts (w : World) :
    w.seen Happening.resolved? = w.verdicts.filterMap Happening.resolved? := by
  rw [verdicts, seen, seen, List.filterMap_reverse, List.filterMap_filterMap]
  congr
  funext x
  cases x.2 <;> rfl

theorem resolved_eq_of_verdicts (h : w'.verdicts = w.verdicts ++ panics)
    (hpanics : panics.filterMap Happening.resolved? = []) :
    w'.seen Happening.resolved? = w.seen Happening.resolved? := by
  rw [resolved_eq_verdicts, resolved_eq_verdicts, h, List.filterMap_append, hpanics,
    List.append_nil]

theorem Blames.resolved?_eq_none (hx : w.Blames j e x) : x.resolved? = none := by
  cases hx with
  | reporter | observer => rfl

namespace Silent

theorem refl (w : World) : Silent w w := ⟨rfl, rfl⟩

theorem trans (h : Silent w w') (h' : Silent w' w'') : Silent w w'' :=
  ⟨h'.reported.trans h.reported, h'.resolved.trans h.resolved⟩

theorem of_idles (h : Idles j w w') : Silent w w' :=
  ⟨h.lasts.reported_eq (by simp), h.lasts.seen_eq fun _ hx => resolved?_eq_none hx (by simp)⟩

end Silent

namespace Voices

/-- The outcome of an entry gets known when all else was reported. -/
theorem resolves (h : Voices w e made panics w₁)
    (hpanics : panics.filterMap Happening.resolved? = []) (he₁ : w₁.entryOf? e = some entry₁)
    (o : Outcome) : w.Resolves ((w₁.resolve e o).endJob j) e o :=
  resolves_endJob h.history (resolved_eq_of_verdicts h.verdicts hpanics) he₁ o j

theorem reported_resolve (h : Voices w e made panics w₁) (o : Outcome) :
    ((w₁.resolve e o).endJob j).reported = w.reported ++ made.map (e, ·) :=
  ((mild_resolve w₁ e o).reported_eq (by simp)).trans h.reported

/-- The outcome of an entry is decided last. -/
theorem verdicts_resolve (h : Voices w e made panics w₁) (he₁ : w₁.entryOf? e = some entry₁)
    (o : Outcome) : ((w₁.resolve e o).endJob j).verdicts =
      w.verdicts ++ (panics ++ [.resolved e o]) := by
  change (w₁.resolve e o).verdicts = _
  rw [World.verdicts_resolve he₁, h.verdicts, List.append_assoc]

/-- A callback panics, and nothing more is reported. -/
theorem panicked (h : Voices w e made [x] w₁) (hat : w.At j (.operation e) p)
    (he : w.entryOf? e = some entry) (hat₁ : w₁.At j (.operation e) p₁)
    (he₁ : w₁.entryOf? e = some entry₁) (hx : w₁.Blames j e x)
    (hmade : ((w₁.resolve e .terminated).endJob j).BrokenOff e entry.operation
      (w.opening p entry) x made) :
    Reports w j ((w₁.resolve e .terminated).endJob j) := by
  have hends : ((w₁.resolve e .terminated).endJob j).At j (.operation e) .done :=
    ((mild_resolve w₁ e .terminated).stays hat₁).setPosition .done
  exact .panicked hat he hmade (h.reported_resolve _) ((hx.resolve .terminated).isPanicFor hends)
    (h.verdicts_resolve he₁ _) (h.resolves (by simp [hx.resolved?_eq_none]) he₁ _)

/-- The end of an operation is reported, and its outcome gets known. -/
theorem report {call : Call} {result : Except Failure Outcome}
    (h : Voices w e (w.opening p entry) [] w₁) (hat : w.At call.job (.operation e) p)
    (he : w.entryOf? e = some entry) (hserves₁ : w₁.ServesAt call (.operation e) p₁)
    (he₁ : w₁.entryOf? e = some entry₁) (htold : w₁.Told call result) :
    Reports w call.job
      (((reportAll e (entry.operation.endCalls (.ofResult result)) w₁).1.resolve e
        (if (reportAll e (entry.operation.endCalls (.ofResult result)) w₁).2 then .terminated
          else .ofResult result)).endJob call.job) := by
  have hcalls := reportAll_calls e (entry.operation.endCalls (.ofResult result)) w₁
  obtain ⟨made, -, hall, hreported⟩ :=
    reportAll_reported e (entry.operation.endCalls (.ofResult result)) w₁
  have hbroken := reportAll_panicked e (entry.operation.endCalls (.ofResult result)) w₁
  obtain ⟨entry₂, he₂, -⟩ := hcalls.mild.toLasts.entryOf? he₁
  have hhistory := h.history.trans hcalls.mild.history
  have hat₂ := hcalls.mild.stays hserves₁.1
  have hcall₂ := hcalls.mild.toLasts.callOf? hserves₁.2
  have htold₂ := htold.mild hcalls.mild (by simp)
  generalize reportAll e (entry.operation.endCalls (.ofResult result)) w₁ = r at *
  obtain ⟨w₂, panicked⟩ := r
  cases panicked with
  | true =>
    obtain ⟨before, status, hbegins, hreported, hverdicts⟩ := hbroken rfl
    rw [h.reported, List.append_assoc, ← List.map_append] at hreported
    have hvoices : Voices w e (w.opening p entry ++ (before ++ [status]))
        [.reporterPanicked e status] w₂ :=
      ⟨hhistory, hreported, hverdicts.trans (by rw [h.verdicts, List.append_nil])⟩
    have hmild := mild_resolve w₂ e .terminated
    have hends : ((w₂.resolve e .terminated).endJob call.job).ServesAt call (.operation e) .done :=
      ⟨(hmild.stays hat₂).setPosition .done, hmild.toLasts.callOf? hcall₂⟩
    exact hvoices.panicked hat he hat₂ he₂ (.reporter status)
      (.atEnd hends (by simp) ((htold₂.mild hmild (by simp)).endJob _) hbegins)
  | false =>
    rw [h.reported, List.append_assoc, ← List.map_append] at hreported
    have hvoices : Voices w e (w.opening p entry ++ made) [] w₂ :=
      ⟨hhistory, hreported, (hcalls.passed rfl).trans h.verdicts⟩
    obtain rfl := hall rfl
    exact .concluded hat he (hvoices.reported_resolve _) (hvoices.verdicts_resolve he₂ _)
      (hvoices.resolves rfl he₂ _)

/-- Facts that are no calls of the reporter. -/
theorem note (h : Voices w e made panics w₁) (hx : x.report? = none) (hv : x.isVerdict = false) :
    Voices w e made panics (w₁.note x) :=
  ⟨h.history.trans (List.suffix_cons _ _), (reported_note w₁ hx).trans h.reported,
    (verdicts_note_of_not w₁ hv).trans h.verdicts⟩

theorem conclude {call : Call} {result : Except Failure Outcome}
    (h : Voices w e (w.opening p entry) [] w₁) (hat : w.At call.job (.operation e) p)
    (he : w.entryOf? e = some entry) (hserves₁ : w₁.ServesAt call (.operation e) p₁)
    (he₁ : w₁.entryOf? e = some entry₁) (htold : w₁.Told call result) :
    Reports w call.job (w₁.concludeOperation call.job e entry result) := by
  -- What is written down of the result comes before the calls of the reporter.
  have hnoted (v : World) (x : Happening) (ho : x.origin = .telling) :
      Mild [.telling] v (v.note x) := mild_note v (by simp [ho])
  unfold concludeOperation
  cases result with
  | ok o =>
    have hm := hnoted w₁ (.finished e (w₁.queueName entry.queue) entry.operation.label o) rfl
    have hreport := (h.note rfl rfl).report hat he
      ⟨hm.stays hserves₁.1, hm.toLasts.callOf? hserves₁.2⟩ he₁ (htold.mild hm (by simp))
    exact hreport
  | error f =>
    have hm := (hnoted w₁ (.notExecuted e (w₁.queueName entry.queue) entry.operation.label f)
      rfl).trans (hnoted _ (.finished e (w₁.queueName entry.queue) entry.operation.label
        (.launchFailed f.message)) rfl)
    have hreport := ((h.note rfl rfl).note rfl rfl).report hat he
      ⟨hm.stays hserves₁.1, hm.toLasts.callOf? hserves₁.2⟩ he₁ (htold.mild hm (by simp))
    exact hreport

/-- Once the start is reported, the execution of an operation goes on as far as it can. -/
theorem goOn {call : Call} (h : Voices w e (w.opening p entry) [] w₁)
    (hat : w.At call.job (.operation e) p) (he : w.entryOf? e = some entry) (hw₁ : Arises w₁)
    (hserves₁ : w₁.ServesAt call (.operation e) p) :
    Reports w call.job (w₁.goOn call e entry) := by
  unfold World.goOn
  have hleads := proceed_leads hserves₁
  have hpiece := hw₁.piece hserves₁
  have harises := hw₁.changes hleads.changes
  have hreported := (proceed_reported w₁ call).trans h.reported
  have hhistory := h.history.trans (hw₁.lasts_changes hleads.changes).history
  rcases hr : w₁.proceed call with ⟨w₂, _ | result | _⟩ <;>
    rw [hr] at hleads hpiece harises hreported hhistory
  · have hverdicts := (hpiece.passed (by simp)).trans h.verdicts
    exact .opened hat he hreported (resolved_eq_of_verdicts hverdicts rfl)
  · have hserves₂ := hleads.concluded.resolve_left (by simp)
    obtain ⟨entry₂, he₂⟩ := hserves₂.1.exists_entry harises.isOrderly
    have hvoices : Voices w e (w.opening p entry) [] w₂ :=
      ⟨hhistory, hreported, (hpiece.passed (by simp)).trans h.verdicts⟩
    exact hvoices.conclude hat he hserves₂ he₂ (hpiece.told rfl)
  · have hserves₂ := hleads.concluded.resolve_left (by simp)
    obtain ⟨entry₂, he₂⟩ := hserves₂.1.exists_entry harises.isOrderly
    obtain ⟨kind, id, hid, hx⟩ := hpiece.panicked rfl
    have hvoices : Voices w e (w.opening p entry) [.observerPanicked kind id] w₂ :=
      ⟨hhistory, hreported, hx.trans (by rw [h.verdicts, List.append_nil])⟩
    exact hvoices.panicked hat he hserves₂.1 he₂ (.observer kind hid) (.between kind id)

end Voices

/-- The turn of a job that executes the operation of an entry. -/
theorem turnOperation_reports (hw : Arises w) (hat : w.At j (.operation e) p) :
    Reports w j (w.turnOperation j e) := by
  obtain ⟨entry, call, he, rfl, hserves, ⟨hbegun, heq⟩ | ⟨rfl, w₁, panicked, hr, heq⟩⟩ :=
    turnOperation_cases hw.isOrderly hat
  · rw [heq]
    have hvoices : Voices w e (w.opening p entry) [] w := by
      refine ⟨List.suffix_rfl, ?_, (List.append_nil _).symm⟩
      rw [opening, if_neg hbegun]
      exact (List.append_nil _).symm
    exact hvoices.goOn hat he hw hserves
  · rw [heq]
    have hcalls := reportAll_calls e (entry.operation.startCalls (w.queueName entry.queue)) w
    obtain ⟨made, -, hall, hreported⟩ :=
      reportAll_reported e (entry.operation.startCalls (w.queueName entry.queue)) w
    obtain ⟨hworks, hserves₁⟩ := reportAll_works (.inl rfl)
      (entry.operation.startCalls (w.queueName entry.queue)) hserves
    have hbroken :=
      reportAll_panicked e (entry.operation.startCalls (w.queueName entry.queue)) w
    rw [hr] at hcalls hall hreported hworks hserves₁ hbroken
    obtain ⟨entry₁, he₁, -⟩ := hcalls.mild.toLasts.entryOf? he
    cases panicked with
    | true =>
      obtain ⟨before, status, hbegins, hreported, hverdicts⟩ := hbroken rfl
      have hvoices : Voices w e (before ++ [status]) [.reporterPanicked e status] w₁ :=
        ⟨hcalls.mild.history, hreported, hverdicts⟩
      exact hvoices.panicked hat he hserves₁.1 he₁ (.reporter status) (.atStart hbegins)
    | false =>
      obtain rfl := hall rfl
      have hvoices : Voices w e (w.opening .fresh entry) [] w₁ :=
        ⟨hcalls.mild.history, hreported, (hcalls.passed rfl).trans (List.append_nil _).symm⟩
      exact hvoices.goOn hat he (hw.changes hworks.changes) hserves₁

/-- The turn of a job that executes a command past all queues. -/
theorem turnExecution_silent {name : String} {command : Command} {token : Option String}
    (hw : Arises w) (hat : w.At j (.execution name command token) p) :
    Silent w (w.turnExecution j name command token) := by
  have hserves : w.ServesAt ⟨j, command, token⟩ (.execution name command token) p := ⟨hat, rfl⟩
  have hpiece := hw.piece hserves
  have hreported := proceed_reported w ⟨j, command, token⟩
  have hended {w₁ : World} {panics : List Happening} (result : JobResult)
      (hr : w₁.reported = w.reported) (hv : w₁.verdicts = w.verdicts ++ panics)
      (hpanics : panics.filterMap Happening.resolved? = []) :
      Silent w ((w₁.note (.jobEnded .execution name result)).endJob j) :=
    ⟨(reported_note w₁ rfl).trans hr,
      (seen_note_of_none w₁ rfl).trans (resolved_eq_of_verdicts hv hpanics)⟩
  have hpassed {w₁ : World} (hv : w₁.verdicts = w.verdicts) : w₁.verdicts = w.verdicts ++ [] :=
    hv.trans (List.append_nil _).symm
  unfold turnExecution
  rcases hr : w.proceed ⟨j, command, token⟩ with ⟨w₁, _ | (f | o) | _⟩ <;>
    rw [hr] at hpiece hreported
  · exact ⟨hreported, resolved_eq_of_verdicts (hpassed (hpiece.passed (by simp))) rfl⟩
  · exact hended _ hreported (hpassed (hpiece.passed (by simp))) rfl
  · exact hended _ hreported (hpassed (hpiece.passed (by simp))) rfl
  · obtain ⟨kind, id, -, hx⟩ := hpiece.panicked rfl
    exact hended _ hreported hx rfl

theorem turnJob_reports {errand : Errand} (hw : Arises w) (hat : w.At j errand p) :
    (∃ e, errand = .operation e) ∧ Reports w j (w.turnJob j errand) ∨
      (∀ e, errand ≠ .operation e) ∧ Silent w (w.turnJob j errand) := by
  cases errand with
  | operation e => exact .inl ⟨⟨e, rfl⟩, turnOperation_reports hw hat⟩
  | execution name command token => exact .inr ⟨by simp, turnExecution_silent hw hat⟩
  | reset name folder token =>
    exact .inr ⟨by simp, .of_idles (turnReset_idles (j := j) name folder token)⟩
  | watch handle e => exact .inr ⟨by simp, .of_idles (turnWatch_idles (j := j) handle)⟩
  | reopen q e =>
    refine .inr ⟨by simp, .of_idles (j := j) (turnAwait_idles fun hr => ?_)⟩
    exact (mild_receive? hr).trans (mild_reopen _ _ _ (by simp))

/-- What writes nothing down leaves what a turn reports as it is. -/
theorem Reports.forth (h : Reports w j w') (hw' : Arises w') (hc : Changes w' w'')
    (hhistory : w''.history = w'.history) : Reports w j w'' := by
  have hseen {α : Type} (f : Happening → Option α) : w''.seen f = w'.seen f := by
    rw [seen, seen, hhistory]
  have hresolves {e : EntryId} {o : Outcome} (ho : w.Resolves w' e o) : w.Resolves w'' e o := by
    obtain ⟨v, t, hv, hvseen, heq⟩ := ho
    exact ⟨v, t, hv, hvseen, hhistory.trans heq⟩
  cases h with
  | nothing hidle h =>
    exact .nothing hidle ⟨(hseen _).trans h.reported, (hseen _).trans h.resolved⟩
  | opened hat he h ho => exact .opened hat he ((hseen _).trans h) ((hseen _).trans ho)
  | panicked hat he hmade h hpanic hv ho =>
    exact .panicked hat he (hmade.forth hw' hc) ((hseen _).trans h) (hpanic.forth hw' hc)
      ((hseen _).trans hv) (hresolves ho)
  | concluded hat he h hv ho =>
    exact .concluded hat he ((hseen _).trans h) ((hseen _).trans hv) (hresolves ho)

/-- Whose turn it is says nothing. -/
theorem Reports.setCurrent {current current' : Option JobId}
    (h : Reports { w with current } j w') (hw' : Arises w') :
    Reports w j { w' with current := current' } := by
  cases h.forth hw' (Drift.turnSet current').changes rfl with
  | nothing hidle h => exact .nothing hidle ⟨h.reported, h.resolved⟩
  | opened hat he h ho => exact .opened hat he h ho
  | panicked hat he hmade h hpanic hv ho => exact .panicked hat he hmade h hpanic hv ho
  | concluded hat he h hv ho => exact .concluded hat he h hv ho

/-- Nothing is written down when a job is dropped that executes the operation of an entry. -/
theorem discardIfAbandoned_history {given : Bool} {p : Position}
    (hj : w.jobs[j]? = some ⟨.operation e, p, given⟩) :
    (w.discardIfAbandoned j).history = w.history := by
  unfold discardIfAbandoned
  rw [hj]
  dsimp only
  split <;> rfl

theorem discardIfAbandoned_silent (w : World) (j : JobId) : Silent w (w.discardIfAbandoned j) := by
  unfold discardIfAbandoned
  split
  · split
    · exact .of_idles (discard_idles (j := j) w j _)
    · exact .refl w
  · exact .refl w

/-- **What every turn reports.** -/
theorem Arises.reports (hw : Arises w) (j : JobId) : Reports w j (w.turn j) := by
  unfold turn
  split
  · next hj =>
    refine .nothing ?_ (.refl w)
    rintro e p ⟨given, hat⟩
    rw [hj] at hat
    exact absurd hat (by simp)
  · next job hj =>
    have hat : w.At j job.errand job.position := ⟨job.isAbandoned, hj⟩
    split
    · next hdone => exact .nothing (fun hat' => (hat'.unique hat).2.trans hdone) (.refl w)
    · next hp =>
      split
      -- The job of an entry is never given up.
      · next hgiven =>
        have hnamed : job.errand.isNamed :=
          hw.isOrderly.abandoned job.runner (List.mem_map_of_mem (List.mem_of_getElem? hj)) hgiven
        refine .nothing (fun {e p} hat' => ?_) (.of_idles (discard_idles (j := j) w j job))
        rw [← (hat'.unique hat).1] at hnamed
        exact Bool.noConfusion hnamed
      · have hset : Arises { w with current := some j } := hw.change (.drift (.turnSet (some j)))
        have hchanges := (turnJob_works (w := { w with current := some j }) hat hp).changes
        have harises := hset.changes hchanges
        have hdiscard :=
          discardIfAbandoned_works (turnJob { w with current := some j } j job.errand) j
        have hdropped := harises.changes hdiscard.changes
        rcases turnJob_reports hset hat with ⟨⟨e, herrand⟩, hreports⟩ | ⟨hother, hsilent⟩
        · obtain ⟨p', given, hj'⟩ := hset.at_forth hchanges (herrand ▸ hat)
          exact (hreports.forth harises hdiscard.changes
            (discardIfAbandoned_history hj')).setCurrent hdropped
        · refine Reports.setCurrent (.nothing (fun {e p} hat' => ?_)
            (hsilent.trans (discardIfAbandoned_silent _ j))) hdropped
          exact absurd (hat.unique hat').1 (hother e)

end Turns

end World

end FolderTasks.Dispatch
