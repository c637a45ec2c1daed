import FolderTasks.Proofs.Dispatch.MirroredActions
/-!
# Executions and turns in two worlds

A job that executes a command and its twin, which executes the same command in a world that mirrors
the other, come to the same places: they get the same task number, wait for the same starts, and
end with the same outcome.  So a turn of a job is echoed by the turn of its twin.

## Main statements

* `World.Mirrors.proceed`: a job and its twin go on with an execution.
* `World.Mirrors.turn`: a job and its twin have their turns.
* `World.Mirrors.turn_left`: a job that is left out has its turn in one world only.
-/

namespace FolderTasks.Dispatch.World

section Executing

variable {D Z : List String} {T T' : JobId → JobId → Prop} {w w' : World} {j k : JobId}
  {call : Call} {id : TaskId}

theorem Echoes.map {α β : Type} {r r' : World × α} (h : Echoes D Z T r r') (f : α → β) :
    Echoes D Z T (r.1, f r.2) (r'.1, f r'.2) := ⟨h.1, congrArg f h.2⟩

theorem Mirrors.conclude (h : Mirrors D Z T w w') (hT : T call.job k) (id : TaskId)
    (code : Option Int32) (o : Outcome) :
    Echoes D Z T (w.conclude call id code o) (w'.conclude { call with job := k } id code o) :=
  (((h.note (.ended id call.command code)).setPosition hT rfl).announceEnd id call.command
    code).map fun panicked => if panicked then Progress.panicked else Progress.finished (.ok o)

theorem Mirrors.complete (h : Mirrors D Z T w w') (hT : T call.job k) (id : TaskId)
    (e : Execution) :
    Echoes D Z T (w.complete call id e) (w'.complete { call with job := k } id e) := by
  unfold World.complete
  dsimp only
  rw [h.resembles.backend, h.resembles.clock]
  exact (h.setBackend _).conclude hT id _ _

theorem Mirrors.terminate (h : Mirrors D Z T w w') (hT : T call.job k) (id : TaskId) :
    Echoes D Z T (w.terminate call id) (w'.terminate { call with job := k } id) := by
  have hnoted := h.note (.terminating id)
  unfold World.terminate
  dsimp only
  rw [hnoted.resembles.backend, hnoted.resembles.clock]
  exact (hnoted.setBackend _).conclude hT id _ _

/-- A job and its twin notice the same of an execution. -/
theorem Mirrors.seesEnd (h : Mirrors D Z T w w') (k : JobId) (hkept : IsKept D call.token)
    (id : TaskId) (e : Execution) :
    w'.seesEnd { call with job := k } id e = w.seesEnd call id e := by
  rw [World.seesEnd, World.seesEnd, h.resembles.clock, h.twins.isCancelled hkept,
    h.resembles.prefersCancellation]

theorem Mirrors.follow (h : Mirrors D Z T w w') (hT : T call.job k) (hkept : IsKept D call.token)
    (id : TaskId) (e : Execution) :
    Echoes D Z T (w.follow call id e) (w'.follow { call with job := k } id e) := by
  unfold World.follow
  rw [h.seesEnd k hkept id e]
  dsimp only
  rw [h.twins.isCancelled hkept]
  split
  · exact h.complete hT id e
  · split
    · exact h.terminate hT id
    · exact ((h.setTimer hT _).listen hT hkept).echoes _

theorem Mirrors.launch (h : Mirrors D Z T w w') (hT : T call.job k) (hkept : IsKept D call.token)
    (id : TaskId) : Echoes D Z T (w.launch call id) (w'.launch { call with job := k } id) := by
  unfold World.launch
  dsimp only
  rw [h.resembles.backend, h.resembles.clock]
  split
  · exact (((h.note _).setPosition hT rfl).releaseGuard).echoes _
  · next backend e hstart =>
    exact ((((h.setBackend backend).note (.started id call.command)).setPosition hT
      rfl).releaseGuard.announceStart id call.command).ite
      (f := fun v => (v.setPosition call.job .telling, .panicked))
      (u := fun v => (v.setPosition k .telling, .panicked)) (g := fun v => v.follow call id e)
      (v := fun v => v.follow { call with job := k } id e)
      (fun hle hmirrors => (hmirrors.setPosition (hle _ _ hT) rfl).echoes _)
      fun hle hmirrors => hmirrors.follow (hle _ _ hT) hkept id e

theorem Mirrors.cancelBeforeStart (h : Mirrors D Z T w w') (hT : T call.job k) (id : TaskId) :
    Echoes D Z T (w.cancelBeforeStart call id)
      (w'.cancelBeforeStart { call with job := k } id) :=
  ((h.note (.cancelledBeforeStart id)).setPosition hT rfl).echoes _

theorem Mirrors.begin (h : Mirrors D Z T w w') (hT : T call.job k) (hkept : IsKept D call.token)
    (id : TaskId) : Echoes D Z T (w.begin call id) (w'.begin { call with job := k } id) := by
  unfold World.begin
  dsimp only
  rw [h.twins.isCancelled hkept]
  split
  · exact h.releaseGuard.cancelBeforeStart hT id
  · have hasked : Mirrors D Z T
        ((w.note (.startAsked id call.command)).setPosition call.job (.starting id))
        ((w'.note (.startAsked id call.command)).setPosition k (.starting id)) :=
      (h.note _).setPosition hT rfl
    rw [hasked.resembles.startDelayOf, hasked.resembles.clock]
    split
    · exact hasked.launch hT hkept id
    · exact (hasked.setTimer hT _).echoes _

theorem Mirrors.enter (h : Mirrors D Z T w w') (hT : T call.job k) (hkept : IsKept D call.token) :
    Echoes D Z T (w.enter call) (w'.enter { call with job := k }) := by
  have hnumbered := h.takeNumber call.job k
  have hholder : Option.Rel T (w.takeNumber call.job).manager.guard.holder
      (w'.takeNumber k).manager.guard.holder := h.twins.holder
  unfold World.enter
  dsimp only
  rw [h.resembles.isDisposed, h.resembles.nextId]
  split
  · exact (h.setPosition hT rfl).echoes _
  · revert hholder
    generalize (w.takeNumber call.job).manager.guard.holder = holder
    generalize (w'.takeNumber k).manager.guard.holder = holder'
    intro hholder
    cases hholder with
    | none => exact ((hnumbered.takeGuard hT).setPosition hT rfl).begin hT hkept _
    | some _ =>
      have hwaits := hnumbered.note (.waitsToStart w.nextId)
      dsimp only
      rw [hwaits.twins.isCancelled hkept]
      split
      · exact hwaits.cancelBeforeStart hT _
      · exact (((hwaits.joinLine hT).setPosition hT rfl).listen hT hkept).echoes _

theorem Mirrors.proceedInLine (h : Mirrors D Z T w w') (hT : T call.job k)
    (hkept : IsKept D call.token) (id : TaskId) :
    Echoes D Z T (w.proceedInLine call id) (w'.proceedInLine { call with job := k } id) := by
  have hunheard := h.unlisten hT hkept
  unfold World.proceedInLine
  dsimp only
  rw [h.twins.isCancelled hkept]
  by_cases hholds : w.manager.guard.holder = some call.job
  · rw [if_pos hholds, if_pos ((h.twins.holds_iff hT).1 hholds)]
    exact hunheard.begin hT hkept id
  · rw [if_neg hholds, if_neg fun hk => hholds ((h.twins.holds_iff hT).2 hk)]
    split
    · exact (hunheard.leaveLine hT).cancelBeforeStart hT id
    · exact h.echoes _

theorem Mirrors.proceedStarting (h : Mirrors D Z T w w') (hT : T call.job k)
    (hkept : IsKept D call.token) (id : TaskId) :
    Echoes D Z T (w.proceedStarting call id) (w'.proceedStarting { call with job := k } id) := by
  unfold World.proceedStarting
  dsimp only
  rw [h.twins.any_timer hT]
  split
  · exact h.echoes _
  · exact h.launch hT hkept id

theorem Mirrors.proceedRunning (h : Mirrors D Z T w w') (hT : T call.job k)
    (hkept : IsKept D call.token) (id : TaskId) (e : Execution) :
    Echoes D Z T (w.proceedRunning call id e) (w'.proceedRunning { call with job := k } id e) := by
  have hunheard := h.unlisten hT hkept
  unfold World.proceedRunning
  rw [h.seesEnd k hkept id e]
  dsimp only
  rw [h.twins.isCancelled hkept]
  split
  · exact hunheard.complete hT id e
  · split
    · exact (hunheard.clearTimer hT).terminate hT id
    · exact h.echoes _

/-- **A job and its twin go on with an execution.** -/
theorem Mirrors.proceed (h : Mirrors D Z T w w') (hT : T call.job k) (hkept : IsKept D call.token) :
    Echoes D Z T (w.proceed call) (w'.proceed { call with job := k }) := by
  have hposition : w'.position k = w.position call.job ∨ ∃ e s s',
      w.position call.job = .awaiting e s ∧ w'.position k = .awaiting e s' :=
    Position.plain_eq (h.twins.position hT)
  unfold World.proceed
  dsimp only
  rcases hposition with heq | ⟨e, s, s', heq, heq'⟩
  · rw [heq]
    split
    · exact h.enter hT hkept
    · exact h.proceedInLine hT hkept _
    · exact h.proceedStarting hT hkept _
    · exact h.proceedRunning hT hkept _ _
    · exact h.echoes _
    · exact h.echoes _
    · exact h.echoes _
  · rw [heq, heq']
    exact h.echoes _

/-- **A job and its twin drop an execution.** -/
theorem Mirrors.dropExecution (h : Mirrors D Z T w w') (hT : T call.job k)
    (hkept : IsKept D call.token) :
    Mirrors D Z T (w.dropExecution call) (w'.dropExecution { call with job := k }) := by
  have hdropped := (h.unlisten hT hkept).clearTimer hT
  have hposition := Position.plain_eq (hdropped.twins.position hT)
  unfold World.dropExecution
  dsimp only
  rcases hposition with heq | ⟨e, s, s', heq, heq'⟩
  · rw [heq]
    split
    · have hiff := hdropped.twins.holds_iff hT
      by_cases hholds : ((w.unlisten call.token call.job).clearTimer
          call.job).manager.guard.holder = some call.job
      · rw [if_pos hholds, if_pos (hiff.1 hholds)]
        exact hdropped.releaseGuard
      · rw [if_neg hholds, if_neg fun hk => hholds (hiff.2 hk)]
        exact hdropped.leaveLine hT
    · exact hdropped.releaseGuard
    · exact hdropped
  · rw [heq, heq']
    exact hdropped

end Executing

section Turns

variable {D Z : List String} {T T' : JobId → JobId → Prop} {w w' : World} {j k : JobId}
  {e : EntryId}

/-! ## Turns of jobs that execute commands -/

theorem Mirrors.endJob (h : Mirrors D Z T w w') (hT : T j k) :
    Mirrors D Z T (w.endJob j) (w'.endJob k) := h.setPosition hT rfl

/-- An entry leaves its slot, and the job that executed its operation is over. -/
theorem Mirrors.close (h : Mirrors D Z T w w') (hT : T j k) (e : EntryId) (o : Outcome) :
    Mirrored D Z T ((w.resolve e o).endJob j) ((w'.resolve e o).endJob k) := by
  obtain ⟨T', hle, hresolved⟩ := h.resolve e o
  exact ⟨T', hle, hresolved.endJob (hle _ _ hT)⟩

theorem Mirrors.concludeOperation (h : Mirrors D Z T w w') (hT : T j k) {entry entry' : Entry}
    (hlike : entry.Resembles entry') (result : Except Failure Outcome) :
    Mirrored D Z T (w.concludeOperation j e entry result)
      (w'.concludeOperation k e entry' result) := by
  obtain ⟨hqueue, hop, -, -⟩ := hlike.eq
  have hfinish {v v' : World} (hv : Mirrors D Z T v v') (queueName : String) (o : Outcome) :
      Mirrored D Z T
        (((World.reportAll e (entry.operation.endCalls o)
          (v.note (.finished e queueName entry.operation.label o))).1.resolve e
          (if (World.reportAll e (entry.operation.endCalls o)
            (v.note (.finished e queueName entry.operation.label o))).2 then .terminated
              else o)).endJob j)
        (((World.reportAll e (entry.operation.endCalls o)
          (v'.note (.finished e queueName entry.operation.label o))).1.resolve e
          (if (World.reportAll e (entry.operation.endCalls o)
            (v'.note (.finished e queueName entry.operation.label o))).2 then .terminated
              else o)).endJob k) := by
    obtain ⟨⟨T', hle, hreported⟩, heq⟩ :=
      (hv.note (.finished e queueName entry.operation.label o)).reportAll e
        (entry.operation.endCalls o)
    rw [heq]
    exact (hreported.close (hle _ _ hT) e _).grow hle
  unfold World.concludeOperation
  dsimp only
  rw [hqueue, hop, h.resembles.queueName]
  cases result with
  | ok o => exact hfinish h _ o
  | error f => exact hfinish (h.note _) _ _

theorem Mirrors.goOn {call : Call} (h : Mirrors D Z T w w') (hT : T call.job k)
    (hkept : IsKept D call.token) {entry entry' : Entry} (hlike : entry.Resembles entry') :
    Mirrored D Z T (w.goOn call e entry) (w'.goOn { call with job := k } e entry') := by
  obtain ⟨⟨T', hle, hproceeded⟩, heq⟩ := h.proceed hT hkept
  unfold World.goOn
  revert hproceeded heq
  generalize w.proceed call = r
  generalize w'.proceed { call with job := k } = r'
  obtain ⟨v, progress⟩ := r
  obtain ⟨v', progress'⟩ := r'
  rintro (rfl : progress' = progress) hproceeded
  refine Mirrored.grow hle ?_
  cases progress' with
  | paused => exact hproceeded.mirrored
  | panicked => exact hproceeded.close (hle _ _ hT) e _
  | finished result => exact hproceeded.concludeOperation (hle _ _ hT) hlike result

theorem Mirrors.turnOperation (h : Mirrors D Z T w w') (hT : T j k) (e : EntryId) :
    Mirrored D Z T (w.turnOperation j e) (w'.turnOperation k e) := by
  unfold World.turnOperation
  rcases h.resembles.entry_cases e with ⟨he, he'⟩ | ⟨entry, entry', he, he', hlike⟩
  · rw [he, he']
    exact (h.endJob hT).mirrored
  · obtain ⟨hqueue, hop, htoken, -⟩ := hlike.eq
    have hkept : IsKept D entry.token := h.twins.orders entry (List.mem_of_getElem? he)
    have hreported : Echoes D Z T
        (if w.position j = .fresh then
          World.reportAll e (entry.operation.startCalls (w.queueName entry.queue)) w
            else (w, false))
        (if w'.position k = .fresh then
          World.reportAll e (entry.operation.startCalls (w.queueName entry.queue)) w'
            else (w', false)) := by
      by_cases hfresh : w.position j = .fresh
      · rw [if_pos hfresh, if_pos ((h.twins.fresh_iff hT).2 hfresh)]
        exact h.reportAll e _
      · rw [if_neg hfresh, if_neg fun hk => hfresh ((h.twins.fresh_iff hT).1 hk)]
        exact h.echoes false
    rw [he, he']
    dsimp only
    rw [hqueue, hop, htoken, h.resembles.queueName]
    exact hreported.iteMirrored (f := fun v => (v.resolve e .terminated).endJob j)
      (u := fun v => (v.resolve e .terminated).endJob k)
      (g := fun v => v.goOn ⟨j, entry.operation.command, entry.token⟩ e entry)
      (v := fun v => v.goOn ⟨k, entry.operation.command, entry.token⟩ e entry')
      (fun hle hv => hv.close (hle _ _ hT) e _) fun hle hv => hv.goOn (hle _ _ hT) hkept hlike

theorem Mirrors.turnExecution (h : Mirrors D Z T w w') (hT : T j k) (name : String)
    (command : Command) {token : Option String} (hkept : IsKept D token) :
    Mirrored D Z T (w.turnExecution j name command token)
      (w'.turnExecution k name command token) := by
  have hechoes : Echoes D Z T (w.proceed ⟨j, command, token⟩) (w'.proceed ⟨k, command, token⟩) :=
    Mirrors.proceed h hT hkept
  obtain ⟨⟨T', hle, hproceeded⟩, heq⟩ := hechoes
  unfold World.turnExecution
  revert hproceeded heq
  generalize w.proceed ⟨j, command, token⟩ = r
  generalize w'.proceed ⟨k, command, token⟩ = r'
  obtain ⟨v, progress⟩ := r
  obtain ⟨v', progress'⟩ := r'
  rintro (rfl : progress' = progress) hproceeded
  refine Mirrored.grow hle ?_
  rcases progress' with _ | (f | o) | _
  · exact hproceeded.mirrored
  · exact ((hproceeded.note _).endJob (hle _ _ hT)).mirrored
  · exact ((hproceeded.note _).endJob (hle _ _ hT)).mirrored
  · exact ((hproceeded.note _).endJob (hle _ _ hT)).mirrored

/-! ## Turns of jobs that wait for outcomes -/

/-- Waiting for an outcome, when what is done with it is done in both worlds. -/
theorem Mirrors.turnAwait (h : Mirrors D Z T w w') (hT : T j k) (e : EntryId)
    (hsound : (w.roomOf e).IsSound) (hsound' : (w'.roomOf e).IsSound)
    {f u : World → Outcome → World}
    (hf : ∀ {v v' : World} (o : Outcome), Mirrors D Z T v v' → Mirrors D Z T (f v o) (u v' o)) :
    Mirrors D Z T (w.turnAwait j e f) (w'.turnAwait k e u) := by
  unfold World.turnAwait
  rcases h.receive? e with ⟨hr, hr'⟩ | ⟨v, v', o, hr, hr', hv⟩
  · have hsit : Mirrors D Z T
        ((w.takeSeat e (.job j)).1.setPosition j (.awaiting e (w.takeSeat e (.job j)).2))
        ((w'.takeSeat e (.job k)).1.setPosition k (.awaiting e (w'.takeSeat e (.job k)).2)) :=
      (h.takeSeat hT hsound hsound').setPosition hT rfl
    rw [hr, hr']
    dsimp only
    rcases Position.plain_eq (h.twins.position hT) with heq | ⟨e', s, s', heq, heq'⟩
    · rw [heq]
      split
      · exact h
      · exact hsit
    · rw [heq, heq']
      exact h
  · rw [hr, hr']
    exact (hf o hv).endJob hT

theorem Mirrors.reopen (h : Mirrors D Z T w w') (q : QueueId) (e : EntryId) :
    Mirrors D Z T (w.reopen q e) (w'.reopen q e) := (h.modifyQueue q _).note _

theorem Mirrors.concludeReset (h : Mirrors D Z T w w') (name : String) (folder : Path)
    (q : QueueId) (e : EntryId) (o : Outcome) :
    Mirrors D Z T (w.concludeReset name folder q e o) (w'.concludeReset name folder q e o) := by
  unfold World.concludeReset
  exact ((h.note _).reopen q e).note _

theorem Mirrors.askReset (h : Mirrors D Z T w w') (hT : T j k) (q : QueueId) (folder : Path)
    {token : Option String} (hkept : IsKept D token) (hsound : ∀ e, (w.roomOf e).IsSound)
    (hsound' : ∀ e, (w'.roomOf e).IsSound) :
    Mirrored D Z T (w.askReset j q folder token) (w'.askReset k q folder token) := by
  have hwithheld : Mirrors D Z T (w.withhold q true) (w'.withhold q true) := h.modifyQueue q _
  unfold World.askReset
  dsimp only
  rw [h.resembles.toolchain]
  obtain ⟨⟨T', hle, hrequested⟩, heq⟩ :=
    hwithheld.request q (PackageAction.reset.operation w.toolchain folder) hkept
  refine ⟨T', hle, ?_⟩
  have hrooms {w : World} (e : EntryId) (hw : ∀ e, (w.roomOf e).IsSound) :
      (((w.withhold q true).request q (PackageAction.reset.operation w.toolchain folder)
        token).1.roomOf e).IsSound := by
    rw [roomOf_request]
    exact hw e
  have hsound₁ := hrooms
    ((w.withhold q true).request q (PackageAction.reset.operation w.toolchain folder) token).2
    hsound
  have hsound₁' := hrooms
    ((w.withhold q true).request q (PackageAction.reset.operation w.toolchain folder) token).2
    hsound'
  rw [h.resembles.toolchain] at hsound₁'
  rw [heq]
  exact ((hrequested.note _).takeSeat (hle _ _ hT) hsound₁ hsound₁').setPosition (hle _ _ hT) rfl

theorem Mirrors.turnReset (h : Mirrors D Z T w w') (hT : T j k) (name : String) (folder : Path)
    {token : Option String} (hkept : IsKept D token) (hsound : ∀ e, (w.roomOf e).IsSound)
    (hsound' : ∀ e, (w'.roomOf e).IsSound) :
    Mirrored D Z T (w.turnReset j name folder token) (w'.turnReset k name folder token) := by
  have hawait {e : EntryId} {s s' : Nat} (hp : w.position j = .awaiting e s)
      (hp' : w'.position k = .awaiting e s') :
      Mirrored D Z T (w.turnReset j name folder token) (w'.turnReset k name folder token) := by
    unfold World.turnReset
    rw [hp, hp']
    dsimp only
    rcases h.resembles.entry_cases e with ⟨he, he'⟩ | ⟨entry, entry', he, he', hlike⟩
    · rw [he, he']
      exact (h.endJob hT).mirrored
    · rw [he, he']
      dsimp only
      rw [hlike.eq.1]
      exact (h.turnAwait hT e (hsound e) (hsound' e) fun o hv =>
        hv.concludeReset name folder entry.queue e o).mirrored
  rcases Position.plain_eq (h.twins.position hT) with heq | ⟨e', s, s', heq, heq'⟩
  · cases hp : w.position j with
    | awaiting e s => exact hawait hp (heq.trans hp)
    | fresh =>
      unfold World.turnReset
      rw [heq, hp]
      dsimp only
      rw [h.resembles.folderQueue?]
      split
      · exact ((h.note _).endJob hT).mirrored
      · exact h.askReset hT _ folder hkept hsound hsound'
    | _ =>
      unfold World.turnReset
      rw [heq, hp]
      exact h.mirrored
  · exact hawait heq heq'

theorem Mirrors.turnWatch (h : Mirrors D Z T w w') (hT : T j k) (handle : String) (e : EntryId)
    (hsound : (w.roomOf e).IsSound) (hsound' : (w'.roomOf e).IsSound) :
    Mirrors D Z T (w.turnWatch j handle e) (w'.turnWatch k handle e) := by
  refine h.turnAwait hT e hsound hsound' fun {v v'} o hv => ?_
  rcases hv.resembles.entry_cases e with ⟨he, he'⟩ | ⟨entry, entry', he, he', hlike⟩
  · rwa [he, he']
  · rw [he, he']
    dsimp only
    rw [hlike.eq.1, hv.resembles.view]
    exact hv.note _

/-- **A job and its twin do their work.** -/
theorem Mirrors.turnJob (h : Mirrors D Z T w w') (hT : T j k) {errand : Errand}
    (hfree : errand.Spares D Z) (hsound : ∀ e, (w.roomOf e).IsSound)
    (hsound' : ∀ e, (w'.roomOf e).IsSound) :
    Mirrored D Z T (w.turnJob j errand) (w'.turnJob k errand) := by
  cases errand with
  | operation e => exact h.turnOperation hT e
  | execution name command token => exact h.turnExecution hT name command hfree.1
  | reset name folder token => exact h.turnReset hT name folder hfree.1 hsound hsound'
  | watch handle e => exact (h.turnWatch hT handle e (hsound e) (hsound' e)).mirrored
  | reopen q e =>
    exact (h.turnAwait hT e (hsound e) (hsound' e) fun o hv => hv.reopen q e).mirrored

/-! ## Dropping jobs -/

/-- **The second world owes the turn of a job** that opens a queue again, as the first world has
done at once.  This is how it is when a reset is given up whose outcome nobody has received in the
second world. -/
def Owes (D Z : List String) (T : JobId → JobId → Prop) (v v' : World) : Prop :=
  ∃ u q e r, v = World.reopen u q e ∧ Mirrors D Z T u v' ∧ (∀ j, ¬T j r) ∧ r ∈ v'.ready ∧
    v'.jobs[r]? = some { errand := .reopen q e } ∧ (u.peek e).isSome

/-- The second world is as far as the first one, or owes it a turn. -/
def Keeps (D Z : List String) (T : JobId → JobId → Prop) (w w' : World) : Prop :=
  ∃ T', T ≤ T' ∧ (Mirrors D Z T' w w' ∨ Owes D Z T' w w')

theorem Mirrored.keeps (h : Mirrored D Z T w w') : Keeps D Z T w w' := by
  obtain ⟨T', hle, h⟩ := h
  exact ⟨T', hle, .inl h⟩

theorem Owes.keeps (h : Owes D Z T w w') : Keeps D Z T w w' := ⟨T, le_rfl, .inr h⟩

theorem Keeps.grow (hle : T ≤ T') (h : Keeps D Z T' w w') : Keeps D Z T w w' := by
  obtain ⟨T'', hle', h⟩ := h
  exact ⟨T'', hle.trans hle', h⟩

theorem Owes.endJob {v v' : World} (h : Owes D Z T v v') (hT : T j k) :
    Owes D Z T (v.endJob j) (v'.endJob k) := by
  obtain ⟨u, q, e, r, rfl, hu, hr, hready, hjob, hpeek⟩ := h
  refine ⟨u.endJob j, q, e, r, rfl, hu.endJob hT, hr, hready, ?_, hpeek⟩
  have hne : k ≠ r := fun heq => hr j (heq ▸ hT)
  rw [World.endJob, getElem?_setPosition, hjob, Option.map_some, if_neg hne]

theorem Keeps.endJob {v v' : World} (h : Keeps D Z T v v') (hT : T j k) :
    Keeps D Z T (v.endJob j) (v'.endJob k) := by
  obtain ⟨T', hle, h⟩ := h
  exact ⟨T', hle, h.imp (fun h => h.endJob (hle _ _ hT)) fun h => h.endJob (hle _ _ hT)⟩

/-- A reset and its twin are given up while they wait. -/
theorem Mirrors.discardReset (h : Mirrors D Z T w w') (hT : T j k) (hw : w.IsSeated)
    (hw' : w'.IsSeated) {name : String} {folder : Path} {token : Option String} {seat seat' : Nat}
    (hat : w.At j (.reset name folder token) (.awaiting e seat))
    (hat' : w'.At k (.reset name folder token) (.awaiting e seat')) :
    Keeps D Z T (w.discardReset e seat) (w'.discardReset e seat') := by
  unfold World.discardReset
  rcases h.resembles.entry_cases e with ⟨he, he'⟩ | ⟨entry, entry', he, he', hlike⟩
  · rw [he, he']
    exact h.mirrored.keeps
  · have hleft : Mirrors D Z T (w.leaveSeat e seat) (w'.leaveSeat e seat') :=
      h.leaveSeat hT (by simp [he]) (by simp [he']) (fun s a hs => hw.only hat rfl hs)
        fun s a hs => hw'.only hat' rfl hs
    rw [he, he']
    dsimp only
    rw [hlike.eq.1]
    rcases hleft.resembles.peek e with heq | ⟨hnone, hsome⟩
    · rw [heq]
      split
      · exact (hleft.reopen _ e).mirrored.keeps
      · exact ⟨_, le_also _ _ _, .inl (hleft.spawn (spares_reopen D Z _ e))⟩
    · rw [if_pos hsome, if_neg (by rw [hnone]; simp)]
      refine Owes.keeps
        ⟨w.leaveSeat e seat, entry.queue, e, w'.jobs.length, rfl, ?_, ?_, ?_, ?_, hsome⟩
      · exact ⟨{ hleft.resembles with }, hleft.twins.spawn_right _, hleft.hooks⟩
      · exact fun a ha => Nat.lt_irrefl _ (h.twins.lt ha).2
      · exact List.mem_append_right _ List.mem_cons_self
      · exact List.getElem?_concat_length

/-- **A job and its twin are dropped where they stand.** -/
theorem Mirrors.discard (h : Mirrors D Z T w w') (hT : T j k) (hw : w.IsSeated)
    (hw' : w'.IsSeated) {job job' : Job} (hj : w.jobs[j]? = some job)
    (hk : w'.jobs[k]? = some job') : Keeps D Z T (w.discard j job) (w'.discard k job') := by
  obtain ⟨job₁, job₁', hj₁, hk₁, hplain, hfree⟩ := h.twins.jobs hT
  obtain rfl : job₁ = job := Option.some.inj (hj₁.symm.trans hj)
  obtain rfl : job₁' = job' := Option.some.inj (hk₁.symm.trans hk)
  obtain ⟨herrand, hposition, -⟩ := Job.plain_eq hplain
  unfold World.discard
  refine Keeps.endJob ?_ hT
  rw [herrand]
  have hsame : Keeps D Z T w w' := h.mirrored.keeps
  cases hcase : job₁.errand with
  | operation e => exact hsame
  | watch handle e => exact hsame
  | reopen q e => exact hsame
  | execution name command token =>
    rw [hcase] at hfree
    have hdropped : Mirrors D Z T (w.dropExecution ⟨j, command, token⟩)
        (w'.dropExecution ⟨k, command, token⟩) := Mirrors.dropExecution h hT hfree.1
    exact hdropped.mirrored.keeps
  | reset name folder token =>
    rcases Position.plain_eq hposition with heq | ⟨e, s, s', heq, heq'⟩
    · rw [heq]
      cases hp : job₁.position with
      | awaiting e s =>
        have hat : w.At j (.reset name folder token) (.awaiting e s) :=
          ⟨job₁.isAbandoned, by rw [hj, ← hcase, ← hp]⟩
        have hat' : w'.At k (.reset name folder token) (.awaiting e s) :=
          ⟨job₁'.isAbandoned, by rw [hk, ← hcase, ← herrand, ← hp, ← heq]⟩
        exact h.discardReset hT hw hw' hat hat'
      | fresh | inLine | starting | running | telling | done => exact hsame
    · rw [heq, heq']
      have hat : w.At j (.reset name folder token) (.awaiting e s) :=
        ⟨job₁.isAbandoned, by rw [hj, ← hcase, ← heq]⟩
      have hat' : w'.At k (.reset name folder token) (.awaiting e s') :=
        ⟨job₁'.isAbandoned, by rw [hk, ← hcase, ← herrand, ← heq']⟩
      exact h.discardReset hT hw hw' hat hat'

theorem Mirrors.discardIfAbandoned (h : Mirrors D Z T w w') (hT : T j k) (hw : w.IsSeated)
    (hw' : w'.IsSeated) : Keeps D Z T (w.discardIfAbandoned j) (w'.discardIfAbandoned k) := by
  obtain ⟨job, job', hj, hk, hplain, -⟩ := h.twins.jobs hT
  obtain ⟨-, hposition, hgiven⟩ := Job.plain_eq hplain
  have hdone : (job'.position != .done) = (job.position != .done) := by
    rw [Bool.eq_iff_iff, bne_iff_ne, bne_iff_ne]
    refine not_congr ?_
    rw [← Position.plain_eq_done, hposition, Position.plain_eq_done]
  unfold World.discardIfAbandoned
  rw [hj, hk]
  dsimp only
  rw [hgiven, hdone]
  split
  · exact h.discard hT hw hw' hj hk
  · exact h.mirrored.keeps

/-! ## Turns -/

/-- It is nobody's turn any longer. -/
theorem Keeps.setIdle (h : Keeps D Z T w w') :
    Keeps D Z T { w with current := none } { w' with current := none } := by
  have hidle {T : JobId → JobId → Prop} {v v' : World} (hv : Mirrors D Z T v v') :
      Mirrors D Z T { v with current := none } { v' with current := none } :=
    hv.setCurrent none none (by simp) (by simp) (by simp)
  obtain ⟨T', hle, h | ⟨u, q, e, r, rfl, hu, hr, hready, hjob, hpeek⟩⟩ := h
  · exact ⟨T', hle, .inl (hidle h)⟩
  · exact ⟨T', hle, .inr ⟨{ u with current := none }, q, e, r, rfl, hidle hu, hr, hready, hjob,
      hpeek⟩⟩

/-- **A job and its twin have their turns.** -/
theorem Mirrors.turn (h : Mirrors D Z T w w') (hT : T j k) (hw : Arises w) (hw' : Arises w') :
    Keeps D Z T (w.turn j) (w'.turn k) := by
  obtain ⟨job, job', hj, hk, hplain, hfree⟩ := h.twins.jobs hT
  obtain ⟨herrand, hposition, hgiven⟩ := Job.plain_eq hplain
  have hdone : job'.position = .done ↔ job.position = .done := by
    rw [← Position.plain_eq_done, hposition, Position.plain_eq_done]
  unfold World.turn
  rw [hj, hk]
  dsimp only
  rw [hgiven, herrand]
  by_cases hp : job.position = .done
  · rw [if_pos hp, if_pos (hdone.2 hp)]
    exact h.mirrored.keeps
  · rw [if_neg hp, if_neg fun hp' => hp (hdone.1 hp')]
    split
    · exact h.discard hT hw.isSeated hw'.isSeated hj hk
    · have hset : Mirrors D Z T { w with current := some j } { w' with current := some k } := by
        refine h.setCurrent _ _ (fun hab => ?_) ?_ ?_
        · rw [Option.some.injEq, Option.some.injEq, h.twins.eq_iff hT hab]
        · rintro i hi
          exact Option.some.inj hi ▸ (h.twins.lt hT).1
        · rintro i hi
          exact Option.some.inj hi ▸ (h.twins.lt hT).2
      have harises : Arises { w with current := some j } := hw.change (.drift (.turnSet _))
      have harises' : Arises { w' with current := some k } := hw'.change (.drift (.turnSet _))
      have hworks := turnJob_works (w := { w with current := some j }) (p := job.position)
        ⟨job.isAbandoned, hj⟩ hp
      have hworks' := turnJob_works (w := { w' with current := some k }) (p := job'.position)
        ⟨job'.isAbandoned, hk⟩ fun hp' => hp (hdone.1 hp')
      rw [herrand] at hworks'
      obtain ⟨T', hle, hturned⟩ := hset.turnJob hT hfree harises.isSeated.sound
        harises'.isSeated.sound
      exact ((hturned.discardIfAbandoned (hle _ _ hT) (harises.changes hworks.changes).isSeated
        (harises'.changes hworks'.changes).isSeated).setIdle).grow hle

/-- A turn is taken by a job and by its twin. -/
theorem Mirrors.takeTurn (h : Mirrors D Z T w w') (hT : T j k) (hw : Arises w) (hw' : Arises w')
    (hj : j ∈ w.ready) : Keeps D Z T (w.takeTurn j) (w'.takeTurn k) := by
  have hk : k ∈ w'.ready := (h.twins.ready hT).1 hj
  have htaken : Mirrors D Z T { w with ready := w.ready.erase j }
      { w' with ready := w'.ready.erase k } := by
    refine h.setReady _ _ List.erase_sublist List.erase_sublist fun {a b} hab => ?_
    rw [h.twins.nodup.mem_erase_iff, h.twins.nodup'.mem_erase_iff, h.twins.ready hab, ne_eq, ne_eq,
      h.twins.eq_iff hab hT]
  exact htaken.turn hT (hw.change (.drift (.turnTaken j hj)))
    (hw'.change (.drift (.turnTaken k hk)))

/-- The turn of a fresh job that opens a queue again after an outcome that is known. -/
theorem takeTurn_reopen {r : JobId} {q : QueueId} {entry : Entry} {o : Outcome}
    (hjob : w.jobs[r]? = some { errand := .reopen q e }) (he : w.entryOf? e = some entry)
    (ho : entry.outcome = some o) :
    w.takeTurn r = { (((w.modifyEntry e fun entry => { entry with isReceived := true }).reopen
      q e).endJob r) with ready := w.ready.erase r, current := none } := by
  obtain ⟨queue, op, token, outcome, isReceived, room⟩ := entry
  obtain rfl : outcome = some o := ho
  have hreceive (v : World) (hv : v.entries = w.entries) : v.receive? e =
      some (v.modifyEntry e fun entry => { entry with isReceived := true }, o) := by
    rw [World.receive?, World.entryOf?, hv]
    rw [World.entryOf?] at he
    rw [he]
  have hended (v : World) (hv : v.jobs = w.jobs) :
      (v.endJob r).discardIfAbandoned r = v.endJob r := by
    rw [World.discardIfAbandoned, World.endJob, getElem?_setPosition, hv, hjob, Option.map_some,
      if_pos rfl]
    rfl
  have hturned : World.turnJob { w with ready := w.ready.erase r, current := some r } r
      (.reopen q e) = World.endJob (World.reopen (World.modifyEntry
        { w with ready := w.ready.erase r, current := some r } e
        fun entry => { entry with isReceived := true }) q e) r := by
    rw [World.turnJob, World.turnAwait,
      hreceive { w with ready := w.ready.erase r, current := some r } rfl]
  rw [World.takeTurn, World.turn, hjob]
  dsimp only
  rw [hturned, hended (World.reopen (World.modifyEntry
    { w with ready := w.ready.erase r, current := some r } e
    fun entry => { entry with isReceived := true }) q e) rfl]
  rfl

/-- **What is owed is paid**: the job has its turn. -/
theorem Owes.pay (h : Owes D Z T w w') (hc : w.current = none) :
    ∃ r ∈ w'.ready, ∃ q e, w'.jobs[r]? = some { errand := .reopen q e } ∧
      Mirrors D Z T w (w'.takeTurn r) := by
  obtain ⟨u, q, e, r, rfl, hu, hr, hready, hjob, hpeek⟩ := h
  refine ⟨r, hready, q, e, hjob, ?_⟩
  obtain ⟨entry', o, he', ho⟩ : ∃ entry' o, w'.entryOf? e = some entry' ∧
      entry'.outcome = some o := by
    rcases hu.resembles.entry_cases e with ⟨he, he'⟩ | ⟨entry, entry', he, he', hlike⟩
    · simp [World.peek, he] at hpeek
    · obtain ⟨o, ho⟩ := Option.isSome_iff_exists.1 hpeek
      simp only [World.peek, he] at ho
      split at ho
      · exact ⟨entry', o, he', hlike.eq.2.2.2.trans ho⟩
      · exact absurd ho (by simp)
  have hreceived : Mirrors D Z T u
      (w'.modifyEntry e fun entry => { entry with isReceived := true }) :=
    ⟨hu.resembles.receive_right hpeek, hu.twins.modifyEntry_right e fun _ => rfl, hu.hooks⟩
  have hreopened := hreceived.reopen q e
  have hended : Mirrors D Z T (u.reopen q e)
      (((w'.modifyEntry e fun entry => { entry with isReceived := true }).reopen q e).endJob r) :=
    ⟨{ hreopened.resembles with }, hreopened.twins.setPosition_right hr .done, hreopened.hooks⟩
  have htaken := hended.setReady u.ready (w'.ready.erase r) (.refl _) List.erase_sublist
    fun {a b} hab => by
      have hne : b ≠ r := fun heq => hr a (heq ▸ hab)
      rw [List.mem_erase_of_ne hne]
      exact hended.twins.ready hab
  rw [takeTurn_reopen hjob he' ho]
  refine htaken.setCurrent u.current none (fun {a b} _ => ?_) (fun ha => ?_) (by simp)
  · rw [show u.current = none from hc]
    simp
  · exact absurd ((show u.current = none from hc).symm.trans ha) (by simp)

/-! ## Turns of jobs that are left out -/

/-- A job that is left out waits for its outcome. -/
theorem Mirrors.turnWatch_left (h : Mirrors D Z T w w') (hj : ∀ k, ¬T j k)
    (hlt : j < w.jobs.length)
    {handle : String} (hhandle : handle ∈ Z) (hsound : (w.roomOf e).IsSound) :
    Mirrors D Z T (w.turnWatch j handle e) w' := by
  have hmoved {v : World} (hv : Mirrors D Z T v w') (p : Position) :
      Mirrors D Z T (v.setPosition j p) w' :=
    ⟨{ hv.resembles with }, hv.twins.setPosition_left hj p, hv.hooks⟩
  unfold World.turnWatch World.turnAwait
  split
  · next v o hr =>
    refine hmoved ?_ .done
    have hreceived : Mirrors D Z T v w' := h.receive_left hr
    dsimp only
    split
    · exact hreceived.note_left (by simpa [Happening.isShown] using hhandle)
    · exact hreceived
  · split
    · exact h
    · exact hmoved (h.sit_left (fun hab heq => hj _ (Waiter.job.inj heq ▸ hab))
        (fun a heq => Waiter.job.inj heq ▸ hlt) hsound) _

/-- A job that waits for a handle goes on to be that job. -/
theorem turnWatch_job {job : Job} (hj : w.jobs[j]? = some job) (handle : String) (e : EntryId) :
    ∃ p, (w.turnWatch j handle e).jobs[j]? = some { job with position := p } := by
  have hmoved {v : World} (hv : v.jobs = w.jobs) (p : Position) :
      (v.setPosition j p).jobs[j]? = some { job with position := p } := by
    rw [getElem?_setPosition, hv, hj, Option.map_some, if_pos rfl]
  unfold World.turnWatch World.turnAwait
  split
  · next v o hr =>
    refine ⟨.done, hmoved ?_ _⟩
    have hv : v.jobs = w.jobs := by
      unfold World.receive? at hr
      split at hr
      · obtain ⟨rfl, -⟩ := Prod.mk.inj (Option.some.inj hr)
        rfl
      · exact absurd hr (by simp)
    dsimp only
    split <;> exact hv
  · split
    · exact ⟨job.position, hj⟩
    · obtain ⟨entries, heq⟩ := takeSeat_eq w e (.job j)
      have hjobs : (w.takeSeat e (.job j)).1.jobs = w.jobs := by rw [heq]
      exact ⟨_, hmoved hjobs _⟩

/-- **A job that is left out has its turn** in one world only. -/
theorem Mirrors.takeTurn_left (h : Mirrors D Z T w w') (hw : Arises w) (hc' : w'.current = none)
    {job : Job} (hj : w.jobs[j]? = some job) (hawaits : job.errand.awaits Z = true) :
    Mirrors D Z T (w.takeTurn j) w' := by
  have hnot := h.twins.not_of_awaits hj hawaits
  have hlt : j < w.jobs.length := (List.getElem?_eq_some_iff.1 hj).1
  have htaken : Mirrors D Z T { w with ready := w.ready.erase j } w' := by
    refine h.setReady _ w'.ready List.erase_sublist (.refl _) fun {a b} hab => ?_
    have hne : a ≠ j := fun heq => hnot b (heq ▸ hab)
    rw [List.mem_erase_of_ne hne]
    exact h.twins.ready hab
  have hmoved {v : World} (hv : Mirrors D Z T v w') : Mirrors D Z T (v.endJob j) w' :=
    ⟨{ hv.resembles with }, hv.twins.setPosition_left hnot _, hv.hooks⟩
  obtain ⟨errand, p, given⟩ := job
  cases errand with
  | operation | execution | reset | reopen => exact absurd hawaits (by simp [Errand.awaits])
  | watch handle e =>
    have hhandle : handle ∈ Z := of_decide_eq_true hawaits
    unfold World.takeTurn World.turn
    rw [hj]
    dsimp only
    split
    · exact htaken
    · split
      · exact hmoved htaken
      · have hset : Mirrors D Z T { w with ready := w.ready.erase j, current := some j } w' := by
          refine htaken.setCurrent _ w'.current (fun {a b} hab => ?_) (fun ha => ?_)
            htaken.twins.idle'
          · refine iff_of_false (fun heq => ?_) (by simp [hc'])
            exact hnot b (Option.some.inj heq ▸ hab)
          · exact Option.some.inj ha ▸ hlt
        have hturned := hset.turnWatch_left hnot hlt hhandle (hw.isSeated.sound e)
        have hdropped : Mirrors D Z T ((World.turnWatch { w with
            ready := w.ready.erase j, current := some j } j handle e).discardIfAbandoned j) w' := by
          obtain ⟨p', hp'⟩ := turnWatch_job (w := { w with
            ready := w.ready.erase j, current := some j }) hj handle e
          rw [World.discardIfAbandoned, hp']
          dsimp only
          split
          · exact hmoved hturned
          · exact hturned
        exact hdropped.setCurrent none w'.current (fun _ => by simp [hc']) (by simp)
          hdropped.twins.idle'

end Turns

end FolderTasks.Dispatch.World
