import FolderTasks.Proofs.Dispatch.ExecutionPieces
/-!
# What a turn amounts to

A turn decides nothing, or it ends the job of an entry with the outcome of the entry, whatever else
the callbacks of that turn do.  And a job that has had its turn does not wait for the right to start
when it has that right.

## Main definitions

* `Outcome.ofResult`: what becomes of an entry whose operation has come to a result.
* `World.Blames`: a callback panicked that was made for an entry.
* `World.Decides`: what is decided in a turn.
* `World.Idles`: nothing is decided and nothing is told.
* `World.Turned`: what a turn amounts to.

## Main statements

* `World.turnOperation_cases`: how the turn of an entry's job goes.
* `World.Arises.turned`: every turn.
-/

namespace FolderTasks

/-- What becomes of an entry whose operation has come to a result. -/
def Outcome.ofResult : Except Failure Outcome → Outcome
  | .ok o => o
  | .error f => .launchFailed f.message

namespace Dispatch.World

/-- **A callback panicked** that was made for the entry of a job: the reporter for the entry, or an
observer for the task of the job. -/
inductive Blames (w : World) (j : JobId) (e : EntryId) : Happening → Prop
  | reporter (status : StatusCall) : Blames w j e (.reporterPanicked e status)
  | observer (kind : NoticeKind) {id : TaskId} (hid : (id, j) ∈ w.account.numbered) :
      Blames w j e (.observerPanicked kind id)

/-- **What is decided in the turn of a job.** -/
inductive Decides (w w' : World) (j : JobId) : Prop where
  | nothing (h : w'.verdicts = w.verdicts)
  /-- An execution past all queues panics. -/
  | brokenOff {name : String} {command : Command} {token : Option String} {p : Position}
      {kind : NoticeKind} {id : TaskId} (hat : w.At j (.execution name command token) p)
      (hid : (id, j) ∈ w'.account.numbered)
      (h : w'.verdicts = w.verdicts ++ [.observerPanicked kind id])
  /-- A callback panics that is made for an entry. -/
  | panicked {e : EntryId} {p : Position} {x : Happening} (hat : w.At j (.operation e) p)
      (hp : p ≠ .done) (hx : w'.Blames j e x)
      (h : w'.verdicts = w.verdicts ++ [x, .resolved e .terminated])
  /-- The call of an entry has come to a result. -/
  | concluded {call : Call} {e : EntryId} {p : Position} {result : Except Failure Outcome}
      (hserves : w.ServesAt call (.operation e) p) (hjob : call.job = j) (hp : p ≠ .done)
      (hend : w'.At j (.operation e) .done) (ht : w'.Told call result)
      (h : w'.verdicts = w.verdicts ++ [.resolved e (.ofResult result)])

/-- **Nothing is decided and nothing is told**, as when a job waits or ends that has no part in an
execution. -/
structure Idles (j : JobId) (w w' : World) : Prop extends Calm j w w' where
  lasts : Lasts [.deed, .closing] w w'

/-- **What the turn of a job amounts to.** -/
structure Turned (w : World) (j : JobId) (w' : World) : Prop extends Wakes j w w' where
  decides : Decides w w' j
  /-- The job does not wait for a right that it has. -/
  waits : ∀ {errand : Errand} {id : TaskId}, w'.At j errand (.inLine id) →
    w'.manager.guard.holder ≠ some j

section Turning

variable {O : List Origin} {w w' : World} {j : JobId} {e : EntryId} {p : Position}

/-! ## How a job ends -/

theorem at_endJob {errand : Errand} (h : (w.endJob j).At j errand p) : p = .done := by
  rcases at_setPosition_cases h with ⟨-, hp, -⟩ | ⟨hne, -⟩
  · exact hp
  · exact absurd rfl hne

/-- A job that has ended does not wait for the right to start. -/
theorem Turned.ended {w₁ : World} (hw : Wakes j w w₁) (hd : Decides w (w₁.endJob j) j) :
    Turned w j (w₁.endJob j) where
  toWakes := hw.trans (.of_eq rfl rfl)
  decides := hd
  waits hat := absurd (at_endJob hat) (by simp)

/-- A turn in which nothing is decided and the job does not come to wait for the right to start. -/
theorem Turned.of_calm (hc : Calm j w w') (hw : ∀ {errand : Errand} {id : TaskId},
    w'.At j errand (.inLine id) → w'.manager.guard.holder ≠ some j) : Turned w j w' :=
  ⟨hc.toWakes, .nothing hc.verdicts, hw⟩

/-- The outcome of an entry gets known when all else is done. -/
theorem resolve_history {e : EntryId} {entry : Entry} (he : w.entryOf? e = some entry)
    (o : Outcome) : ∃ v t, Mild [.deed] (w.note (.vacated e)) v ∧
      (w.resolve e o).history = (t, .resolved e o) :: v.history := by
  generalize hw₁ : (w.modifyQueue entry.queue fun queue => { queue with active := none }).note
    (.vacated e) = w₁
  have hmild : Mild [.deed] (w.note (.vacated e)) (w₁.dispatch entry.queue) := by
    rw [← hw₁]
    exact (mild_modifyQueue (w.note (.vacated e)) entry.queue _).trans (mild_dispatch _ _ (by simp))
  have he₁ : (w₁.dispatch entry.queue).entryOf? e = some entry := by
    rw [entryOf?, dispatch_entries, ← hw₁]
    exact he
  refine ⟨w₁.dispatch entry.queue, (w₁.dispatch entry.queue).clock, hmild, ?_⟩
  rw [resolve, he]
  dsimp only
  rw [hw₁, deliver, he₁]
  dsimp only
  obtain ⟨ready, heq⟩ := wakeAll_eq (waitingJobs entry.room)
    (((w₁.dispatch entry.queue).modifyEntry e fun entry =>
      { entry with outcome := some o }).note (.resolved e o))
  rw [heq]
  rfl

/-- Facts of other kinds leave what was seen of a kind alone. -/
theorem seen_of_history {α : Type} {f : Happening → Option α} {p : Nat × Happening}
    (h : w'.history = p :: w.history) (hf : f p.2 = none) : w'.seen f = w.seen f := by
  rw [seen, seen, h, List.filterMap_cons, hf]

/-- What is no outcome that gets known is not written down as one. -/
theorem resolved?_eq_none {O : List Origin} {x : Happening} (hx : x.origin ∈ O)
    (ho : .outcome ∉ O) : x.resolved? = none := by
  cases x <;> first | rfl | exact absurd hx ho

/-- The outcome of an entry is the last thing that is decided in its turn. -/
theorem verdicts_resolve {entry : Entry} (he : w.entryOf? e = some entry) (o : Outcome) :
    (w.resolve e o).verdicts = w.verdicts ++ [.resolved e o] := by
  obtain ⟨v, t, hmild, hhistory⟩ := resolve_history he o
  have hbefore : v.verdicts = w.verdicts :=
    (hmild.verdicts_eq (by simp) (by simp)).trans (verdicts_note_of_not w rfl)
  rw [verdicts, seen, hhistory, ← hbefore]
  exact List.reverse_cons

/-- Who was to blame before the outcome of an entry got known is to blame still. -/
theorem Blames.resolve {x : Happening} (hx : w.Blames j e x) (o : Outcome) :
    ((w.resolve e o).endJob j).Blames j e x := by
  cases hx with
  | reporter status => exact .reporter status
  | observer kind hid =>
    refine .observer kind ?_
    change _ ∈ (w.resolve e o).account.numbered
    rwa [(mild_resolve w e o).numbered_eq (by simp)]

/-- A callback panicked that was made for an entry. -/
theorem Turned.panicked {w₁ : World} {x : Happening} {entry : Entry} (hat : w.At j (.operation e) p)
    (hp : p ≠ .done) (hw : Wakes j w w₁) (hv : w₁.verdicts = w.verdicts ++ [x])
    (hx : w₁.Blames j e x) (he : w₁.entryOf? e = some entry) :
    Turned w j ((w₁.resolve e .terminated).endJob j) := by
  refine .ended (hw.trans (mild_resolve w₁ e .terminated).wakes)
    (.panicked hat hp (hx.resolve .terminated) ?_)
  change (w₁.resolve e .terminated).verdicts = _
  rw [verdicts_resolve he, hv, List.append_assoc]
  rfl

/-! ## The turn of an operation -/

theorem Told.endJob {call : Call} {result : Except Failure Outcome} (h : w.Told call result)
    (j : JobId) : (w.endJob j).Told call result := by
  cases h with
  | rejected hd hn => exact .rejected hd hn
  | told h hr => exact .told (h.of_eq rfl rfl) hr

/-- The end of an operation is reported, and its outcome gets known. -/
theorem report_turned {w₁ : World} {call : Call} {p₁ : Position} {entry : Entry}
    {result : Except Failure Outcome} (hserves : w.ServesAt call (.operation e) p) (hp : p ≠ .done)
    (hw : Wakes call.job w w₁) (hv : w₁.verdicts = w.verdicts)
    (hat₁ : w₁.At call.job (.operation e) p₁) (he : w₁.entryOf? e = some entry)
    (ht : w₁.Told call result) (calls : List StatusCall) :
    Turned w call.job (((reportAll e calls w₁).1.resolve e
      (if (reportAll e calls w₁).2 then .terminated else .ofResult result)).endJob call.job) := by
  have hcalls := reportAll_calls e calls w₁
  obtain ⟨entry', he', -⟩ := hcalls.mild.toLasts.entryOf? he
  have hwakes := hw.trans hcalls.mild.wakes
  have hat₂ := hcalls.mild.stays hat₁
  have htold := ht.mild hcalls.mild (by simp)
  -- What the calls of the reporter were is of no importance from here on.
  generalize reportAll e calls w₁ = r at *
  obtain ⟨w₂, panicked⟩ := r
  cases panicked with
  | true =>
    obtain ⟨x, ⟨status, rfl⟩, hx⟩ := hcalls.panicked rfl
    exact .panicked hserves.1 hp hwakes (hx.trans (by rw [hv])) (.reporter status) he'
  | false =>
    have hmild := mild_resolve w₂ e (.ofResult result)
    refine .ended (hwakes.trans hmild.wakes) ?_
    refine .concluded hserves rfl hp ((hmild.stays hat₂).setPosition .done)
      ((htold.mild hmild (by simp)).endJob _) ?_
    change (w₂.resolve e (.ofResult result)).verdicts = _
    rw [verdicts_resolve he', hcalls.passed rfl, hv]

/-- The end of an operation is told, and its outcome gets known. -/
theorem concludeOperation_turned {w₁ : World} {call : Call} {entry : Entry}
    {result : Except Failure Outcome} (hserves : w.ServesAt call (.operation e) p) (hp : p ≠ .done)
    (hw : Wakes call.job w w₁) (hv : w₁.verdicts = w.verdicts) {p₁ : Position}
    (hat₁ : w₁.At call.job (.operation e) p₁) (he : w₁.entryOf? e = some entry)
    (ht : w₁.Told call result) (name : Entry) :
    Turned w call.job (w₁.concludeOperation call.job e name result) := by
  -- What is written down of the result comes before the calls of the reporter.
  have hnoted (x : Happening) (ho : x.origin = .telling) : Mild [.telling] w₁ (w₁.note x) :=
    mild_note w₁ (by simp [ho])
  unfold concludeOperation
  cases result with
  | ok o =>
    have hm := hnoted
      (.finished e (w₁.queueName name.queue) name.operation.label o) rfl
    exact report_turned hserves hp (hw.trans hm.wakes) ((verdicts_note_of_not _ rfl).trans hv)
      (hm.stays hat₁) he (ht.mild hm (by simp)) _
  | error f =>
    have hm := (hnoted
      (.notExecuted e (w₁.queueName name.queue) name.operation.label f) rfl).note
      (h := .finished e (w₁.queueName name.queue) name.operation.label (.launchFailed f.message))
      (by simp [Happening.origin])
    have hv' := (verdicts_note_of_not (w₁.note
      (.notExecuted e (w₁.queueName name.queue) name.operation.label f))
      (x := .finished e (w₁.queueName name.queue) name.operation.label (.launchFailed f.message))
      rfl).trans ((verdicts_note_of_not _ rfl).trans hv)
    exact report_turned hserves hp (hw.trans hm.wakes) hv' (hm.stays hat₁) he
      (ht.mild hm (by simp)) _

/-- Once the start is reported, the execution of an operation goes on as far as it can. -/
theorem goOn_turned {w₁ : World} {call : Call} (hw₁ : Arises w₁)
    (hserves : w.ServesAt call (.operation e) p) (hp : p ≠ .done) (hw : Wakes call.job w w₁)
    (hv : w₁.verdicts = w.verdicts) (hserves₁ : w₁.ServesAt call (.operation e) p) (entry : Entry) :
    Turned w call.job (w₁.goOn call e entry) := by
  unfold goOn
  have hleads := proceed_leads hserves₁
  have hpiece := hw₁.piece hserves₁
  have hwakes := hw.trans hpiece.toWakes
  have harises := hw₁.changes hleads.changes
  rcases hr : w₁.proceed call with ⟨w₂, _ | result | _⟩ <;> rw [hr] at hleads hpiece hwakes harises
  · exact .of_calm ⟨hwakes, (hpiece.passed (by simp)).trans hv⟩ (hpiece.waits rfl)
  · have hserves₂ := hleads.concluded.resolve_left (by simp)
    obtain ⟨entry', he'⟩ := hserves₂.1.exists_entry harises.isOrderly
    exact concludeOperation_turned hserves hp hwakes ((hpiece.passed (by simp)).trans hv)
      hserves₂.1 he' (hpiece.told rfl) entry
  · have hserves₂ := hleads.concluded.resolve_left (by simp)
    obtain ⟨entry', he'⟩ := hserves₂.1.exists_entry harises.isOrderly
    obtain ⟨kind, id, hid, hx⟩ := hpiece.panicked rfl
    exact .panicked hserves.1 hp hwakes (hx.trans (by rw [hv])) (.observer kind hid) he'

/-- A job that executes the operation of an entry goes on with it; but a job that begins reports the
start first, and may not come any further. -/
theorem turnOperation_cases (ho : w.ledger.IsOrderly) (hat : w.At j (.operation e) p) :
    ∃ entry call, w.entryOf? e = some entry ∧ call.job = j ∧ w.ServesAt call (.operation e) p ∧
      (p ≠ .fresh ∧ w.turnOperation j e = w.goOn call e entry ∨
        p = .fresh ∧ ∃ w₁ panicked,
          reportAll e (entry.operation.startCalls (w.queueName entry.queue)) w = (w₁, panicked) ∧
          w.turnOperation j e = if panicked then (w₁.resolve e .terminated).endJob j
            else w₁.goOn call e entry) := by
  obtain ⟨entry, he⟩ := hat.exists_entry ho
  refine ⟨entry, ⟨j, entry.operation.command, entry.token⟩, he, rfl, hat.servesAt he, ?_⟩
  unfold turnOperation
  rw [he]
  dsimp only
  rw [hat.position_eq]
  by_cases hp : p = .fresh
  · exact .inr ⟨hp, _, _, rfl, by rw [if_pos hp]; rfl⟩
  · exact .inl ⟨hp, by rw [if_neg hp]; rfl⟩

/-- The turn of a job that executes the operation of an entry. -/
theorem turnOperation_turned (hw : Arises w) (hat : w.At j (.operation e) p) (hp : p ≠ .done) :
    Turned w j (w.turnOperation j e) := by
  obtain ⟨entry, call, he, rfl, hserves, ⟨-, heq⟩ | ⟨rfl, w₁, panicked, hr, heq⟩⟩ :=
    turnOperation_cases hw.isOrderly hat
  · rw [heq]
    exact goOn_turned hw hserves hp (.refl w) rfl hserves entry
  · rw [heq]
    have hcalls := reportAll_calls e (entry.operation.startCalls (w.queueName entry.queue)) w
    obtain ⟨hworks, hserves₁⟩ := reportAll_works (.inl rfl)
      (entry.operation.startCalls (w.queueName entry.queue)) hserves
    rw [hr] at hcalls hworks hserves₁
    obtain ⟨entry', he', -⟩ := hcalls.mild.toLasts.entryOf? he
    cases panicked with
    | true =>
      obtain ⟨x, ⟨status, rfl⟩, hx⟩ := hcalls.panicked rfl
      exact .panicked hat hp hcalls.mild.wakes hx (.reporter status) he'
    | false =>
      exact goOn_turned (hw.changes hworks.changes) hserves hp hcalls.mild.wakes
        (hcalls.passed rfl) hserves₁ entry

/-! ## The turns of other jobs -/

/-- The turn of a job that executes a command past all queues. -/
theorem turnExecution_turned {name : String} {command : Command} {token : Option String}
    (hw : Arises w) (hat : w.At j (.execution name command token) p) :
    Turned w j (w.turnExecution j name command token) := by
  have hserves : w.ServesAt ⟨j, command, token⟩ (.execution name command token) p := ⟨hat, rfl⟩
  have hpiece := hw.piece hserves
  have hended {w₁ : World} (result : JobResult) (hw : Wakes j w w₁)
      (hv : w₁.verdicts = w.verdicts) :
      Turned w j ((w₁.note (.jobEnded .execution name result)).endJob j) := by
    refine .ended (hw.trans (.of_eq rfl rfl)) (.nothing ?_)
    exact (verdicts_note_of_not w₁ (x := .jobEnded .execution name result) rfl).trans hv
  unfold turnExecution
  rcases hr : w.proceed ⟨j, command, token⟩ with ⟨w₁, _ | (f | o) | _⟩ <;> rw [hr] at hpiece
  · exact ⟨hpiece.toWakes, .nothing (hpiece.passed (by simp)), hpiece.waits rfl⟩
  · exact hended _ hpiece.toWakes (hpiece.passed (by simp))
  · exact hended _ hpiece.toWakes (hpiece.passed (by simp))
  · obtain ⟨kind, id, hid, hx⟩ := hpiece.panicked rfl
    have hpanicked :=
      (verdicts_note_of_not w₁ (x := .jobEnded .execution name .panicked) rfl).trans hx
    refine .ended (hpiece.toWakes.trans (.of_eq rfl rfl)) (.brokenOff hat ?_ hpanicked)
    change _ ∈ (w₁.note (.jobEnded .execution name .panicked)).account.numbered
    rwa [(mild_note (O := [.closing]) w₁ (by simp [Happening.origin])).numbered_eq (by simp)]

theorem Idles.refl (w : World) : Idles j w w := ⟨.refl w, .refl w⟩

/-- A job waits or ends that has no part in an execution. -/
theorem Mild.idles_setPosition {w₁ : World} (h : Mild [.deed, .closing] w w₁) (i : JobId)
    (p' : Position) : Idles j w (w₁.setPosition i p') where
  toCalm := (h.calm (h.verdicts_eq (by simp) (by simp))).trans (.of_eq rfl rfl rfl)
  lasts := h.toLasts.trans (lasts_setPosition w₁ i p')

theorem turnAwait_idles {goOn : World → Outcome → World}
    (hgoOn : ∀ {w' : World} {o : Outcome}, w.receive? e = some (w', o) →
      Mild [.deed, .closing] w (goOn w' o)) : Idles j w (w.turnAwait j e goOn) := by
  unfold turnAwait
  split
  · next w' o hr => exact (hgoOn hr).idles_setPosition j .done
  · split
    · exact .refl w
    · exact (mild_takeSeat w e (.job j)).idles_setPosition j _

theorem mild_concludeReset {o : Outcome} (hr : w.receive? e = some (w', o)) (name : String)
    (folder : Path) (q : QueueId) :
    Mild [.deed, .closing] w (w'.concludeReset name folder q e o) := by
  refine Mild.note ?_ (by simp [Happening.origin])
  refine Mild.trans ?_ (mild_reopen _ _ _ (by simp))
  exact (mild_receive? hr).note (by simp [Happening.origin])

theorem askReset_idles (w : World) (j : JobId) (q : QueueId) (folder : Path)
    (token : Option String) : Idles j w (w.askReset j q folder token) := by
  refine Mild.idles_setPosition ?_ j _
  refine Mild.trans ?_ (mild_takeSeat _ _ _)
  refine Mild.note ?_ (by simp [Happening.origin])
  exact (mild_withhold w q true).trans (mild_request _ q _ _ (by simp))

theorem turnReset_idles (name : String) (folder : Path) (token : Option String) :
    Idles j w (w.turnReset j name folder token) := by
  unfold turnReset
  split
  · split
    · exact (Mild.refl w).idles_setPosition j .done
    · next entry he => exact turnAwait_idles fun hr => mild_concludeReset hr name folder entry.queue
  · split
    · exact (mild_note w (by simp [Happening.origin])).idles_setPosition j .done
    · exact askReset_idles w j _ folder token
  · exact .refl w

theorem turnWatch_idles (handle : String) : Idles j w (w.turnWatch j handle e) := by
  refine turnAwait_idles ?_
  intro w' o hr
  split
  · exact (mild_receive? hr).note (by simp [Happening.origin])
  · exact mild_receive? hr

/-- A job that has no part in an execution decides nothing. -/
theorem Turned.of_idle {errand : Errand} (hw : Arises w) (hat : w.At j errand p)
    (herrand : errand.isCall = false) (hchanges : Changes w w') (hc : Calm j w w') :
    Turned w j w' := by
  refine .of_calm hc ?_
  intro errand' id hat'
  -- Only a job with a call can come to wait for the right to start.
  obtain ⟨p', hat''⟩ := hw.at_forth hchanges hat
  rw [(hat''.unique hat').1] at herrand
  exact absurd ((hw.changes hchanges).isNumbered.idle hat' herrand) (by simp [Position.id?])

theorem turnJob_turned {errand : Errand} (hw : Arises w) (hat : w.At j errand p) (hp : p ≠ .done) :
    Turned w j (w.turnJob j errand) := by
  have hchanges := (turnJob_works hat hp).changes
  cases errand with
  | operation e => exact turnOperation_turned hw hat hp
  | execution name command token => exact turnExecution_turned hw hat
  | reset name folder token =>
    exact .of_idle hw hat rfl hchanges (turnReset_idles name folder token).toCalm
  | watch handle e => exact .of_idle hw hat rfl hchanges (turnWatch_idles handle).toCalm
  | reopen q e =>
    refine .of_idle hw hat rfl hchanges (turnAwait_idles fun hr => ?_).toCalm
    exact (mild_receive? hr).trans (mild_reopen _ _ _ (by simp))

/-! ## Turns -/

theorem calm_dropExecution (w : World) (call : Call) : Calm j w (w.dropExecution call) := by
  have hcleared : Calm j w ((w.unlisten call.token call.job).clearTimer call.job) :=
    (calm_unlisten w call.token call.job).trans (.of_eq rfl rfl rfl)
  unfold dropExecution
  dsimp only
  split
  · split
    · exact hcleared.trans (calm_releaseGuard _)
    · exact hcleared.trans (calm_leaveLine _ _)
  · exact hcleared.trans (calm_releaseGuard _)
  · exact hcleared

/-- A job that is dropped decides and tells nothing. -/
theorem discard_idles (w : World) (i : JobId) (job : Job) : Idles j w (w.discard i job) := by
  unfold discard
  dsimp only
  split
  · exact ⟨(calm_dropExecution w _).trans (.of_eq rfl rfl rfl),
      (lasts_dropExecution w _).trans (lasts_setPosition _ i .done)⟩
  · next e seat herrand hposition => exact (mild_discardReset w e seat).idles_setPosition i .done
  · exact (Mild.refl w).idles_setPosition i .done

theorem at_discard {job : Job} {errand : Errand} (h : (w.discard j job).At j errand p) :
    p = .done := by
  unfold discard at h
  exact at_endJob h

/-- What follows in a turn decides nothing. -/
theorem Decides.before (h : Decides w w' j) {w'' : World} (hw' : Arises w') (hc : Changes w' w'')
    (hat : ∀ {errand : Errand}, w'.At j errand .done → w''.At j errand .done)
    (hv : w''.verdicts = w'.verdicts) : Decides w w'' j := by
  have hids := hw'.numbered_isPrefix hc
  cases h with
  | nothing h => exact .nothing (hv.trans h)
  | brokenOff hat hid h => exact .brokenOff hat (hids.subset hid) (hv.trans h)
  | panicked hat hp hx h =>
    refine .panicked hat hp ?_ (hv.trans h)
    cases hx with
    | reporter status => exact .reporter status
    | observer kind hid => exact .observer kind (hids.subset hid)
  | concluded hserves hjob hp hend ht h =>
    have htold := ht.changes hw' hc ⟨_, _, hjob ▸ hend, by simp⟩
    exact .concluded hserves hjob hp (hat hend) htold (hv.trans h)

/-- A job that gave itself up in its own turn is dropped. -/
theorem Turned.discardIfAbandoned (h : Turned w j w') (hw' : Arises w') :
    Turned w j (w'.discardIfAbandoned j) := by
  have hchanges := (discardIfAbandoned_works w' j).changes
  unfold World.discardIfAbandoned at hchanges ⊢
  split
  · next job hj =>
    rw [hj] at hchanges
    dsimp only at hchanges
    split
    · next hjob =>
      rw [if_pos hjob] at hchanges
      have hcalm := (discard_idles (j := j) w' j job).toCalm
      refine ⟨h.toWakes.trans hcalm.toWakes, h.decides.before hw' hchanges ?_ hcalm.verdicts, ?_⟩
      · rintro errand ⟨given, hdone⟩
        rw [hj] at hdone
        obtain rfl := Option.some.inj hdone
        exact absurd hjob (by simp)
      · intro errand id hat
        exact absurd (at_discard hat) (by simp)
    · exact h
  · exact h

/-- Whose turn it is decides nothing. -/
theorem Turned.setCurrent {current current' : Option JobId} (h : Turned { w with current } j w')
    (hw' : Arises w') : Turned w j { w' with current := current' } where
  ready := h.ready
  handed := h.handed
  waits hat := h.waits hat
  decides := by
    have hset : Changes w' { w' with current := current' } := (Drift.turnSet current').changes
    cases h.decides.before hw' hset id rfl with
    | nothing h => exact .nothing h
    | brokenOff hat hid h => exact .brokenOff hat hid h
    | panicked hat hp hx h => exact .panicked hat hp hx h
    | concluded hserves hjob hp hend ht h => exact .concluded hserves hjob hp hend ht h

/-- **Every turn** decides nothing, or it ends the job of an entry with its outcome; and it leaves
no job waiting for a right that it has. -/
theorem Arises.turned (hw : Arises w) (j : JobId) : Turned w j (w.turn j) := by
  have hidle {p : Position} {errand : Errand} (hat : w.At j errand p) (hp : ∀ id, p ≠ .inLine id) :
      Turned w j w := .of_calm (.refl w) (hat.not_inLine hp)
  unfold turn
  split
  · next hj =>
    refine .of_calm (.refl w) ?_
    rintro errand id ⟨given, hat⟩
    rw [hj] at hat
    exact absurd hat (by simp)
  -- There is nothing to do for a job that is done, and a job that was given up is dropped.
  · next job hj =>
    have hat : w.At j job.errand job.position := ⟨job.isAbandoned, hj⟩
    split
    · next hdone => exact hidle hat (by simp [hdone])
    · next hp =>
      split
      · have hcalm := (discard_idles (j := j) w j job).toCalm
        refine .of_calm hcalm ?_
        intro errand id hat
        exact absurd (at_discard hat) (by simp)
      · have hset : Arises { w with current := some j } := hw.change (.drift (.turnSet (some j)))
        have hturned := turnJob_turned hset hat hp
        have hchanges := (turnJob_works (w := { w with current := some j }) hat hp).changes
        have harises := hset.changes hchanges
        exact (hturned.discardIfAbandoned harises).setCurrent
          (harises.changes (discardIfAbandoned_works _ j).changes)

end Turning

end Dispatch.World

end FolderTasks
