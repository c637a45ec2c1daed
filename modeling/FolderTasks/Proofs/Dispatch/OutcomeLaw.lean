import FolderTasks.Proofs.Dispatch.Announcements
import FolderTasks.Proofs.Dispatch.EntryCourse
import FolderTasks.Proofs.Dispatch.EntryOutcomes
import FolderTasks.Proofs.Dispatch.QueueWithholding
/-!
# The law of outcomes

The outcome of an entry is decided by the first of six circumstances that is there: a callback that
panics, a disposed task manager, a token that is cancelled before the start, a backend that refuses,
a token that is cancelled before the end, and the exit of the command.

## Main definitions

* `World.EntersDisposed`, `World.IsCancelledUnasked`, `World.RefusedWith`,
  `World.IsCancelledUnended`: the circumstances.
* `World.IsContested`: a cancelled execution is at its end.
* `World.OutcomeLaw`: the law, as a chain of circumstances.

## Main statements

* `World.Reachable.outcomeLaw`: how the outcome of an entry is decided.

## Design notes

When a token is cancelled is not a fact of the history, so the circumstances that depend on it are
looked for in the course of the world.  The law holds of every course, in particular of the one that
the transitions of a run are made of.  An execution that is cancelled when it is already at its end
may come out either way, and the law does not say which.
-/

namespace FolderTasks.Dispatch.World

/-! ## Circumstances -/

/-- The task manager is disposed of when the call of an entry is entered, that is, when the job of the
entry sets to work. -/
def EntersDisposed (w : World) (ws : List World) (e : EntryId) : Prop :=
  ∃ w₁ w₂ j, Course.Step w ws w₁ w₂ ∧ w₁.manager.isDisposed ∧
    w₁.At j (.operation e) .fresh ∧ ¬ w₂.At j (.operation e) .fresh

/-- A token is cancelled when the backend has not yet been asked to start the task of an entry. -/
def IsCancelledUnasked (w : World) (ws : List World) (e : EntryId) (token : Option String) : Prop :=
  ∃ w₁ ∈ w :: ws, w₁.isCancelled token ∧
    ∀ id, w₁.Serves id e → id ∉ w₁.seen Happening.startAsked?

/-- The backend refused to start the task of an entry. -/
def RefusedWith (w : World) (e : EntryId) (f : Failure) : Prop :=
  ∃ id c, w.Serves id e ∧ .startFailed id c f ∈ w.annals id

/-- A token is cancelled when the execution for an entry has not yet ended. -/
def IsCancelledUnended (w : World) (ws : List World) (e : EntryId) (token : Option String) : Prop :=
  ∃ w₁ ∈ w :: ws, w₁.isCancelled token ∧
    ∀ id c code, w₁.Serves id e → .ended id c code ∉ w₁.annals id

/-- **An execution is contested** when it is at its end and its token is cancelled, so that both are
found at once. -/
def IsContested (w : World) (ws : List World) (e : EntryId) (token : Option String) : Prop :=
  ∃ w₁ ∈ w :: ws, ∃ j id execution, w₁.At j (.operation e) (.running id execution) ∧
    execution.deadline ≤ w₁.clock ∧ w₁.isCancelled token

/-- Nothing was done for an entry: its task was not started, and nothing of it was announced or
recorded. -/
def IsUntried (w : World) (e : EntryId) : Prop :=
  ∀ id, w.Serves id e → id ∉ w.seen Happening.startAsked? ∧ w.emissions id = [] ∧
    w.backend.recordsOf id = []

/-- The execution for an entry has a record that is ended. -/
def HasRecord (w : World) (e : EntryId) (terminated : Bool) : Prop :=
  ∃ id r, w.Serves id e ∧ w.backend.recordsOf id = [r] ∧ r.endedAt.isSome ∧
    r.terminated = terminated

/-- An exit code is the one that the script gave when the backend started the command of an
entry. -/
def IsScripted (w : World) (ws : List World) (e : EntryId) (c : Command) (code : Option Int32) :
    Prop :=
  ∃ w₁ w₂ j id execution, Course.Step w ws w₁ w₂ ∧ w₁.At j (.operation e) (.starting id) ∧
    w₂.At j (.operation e) (.running id execution) ∧
    code = (w₁.backend.scriptFor c.args).exitCode

open Classical in
/-- **The law of outcomes**: the first circumstance that is there decides. -/
def OutcomeLaw (w : World) (ws : List World) (e : EntryId) (entry : Entry) (o : Outcome) : Prop :=
  if w.PanickedFor e then o = .terminated
  else if w.EntersDisposed ws e then o = .launchFailed Failure.disposed.message
  else if w.IsCancelledUnasked ws e entry.token then o = .cancelled ∧ w.IsUntried e
  else if ∃ f, w.RefusedWith e f then ∀ f, w.RefusedWith e f → o = .launchFailed f.message
  else if w.IsCancelledUnended ws e entry.token then
    w.IsContested ws e entry.token ∨ o = .cancelled ∧ w.HasRecord e true
  else ∃ code, o = .ofCode code ∧ w.IsScripted ws e entry.operation.command code ∧
    w.HasRecord e false

section Law

variable {w w₁ w₂ : World} {ws : List World} {call : Call} {e : EntryId} {p : Position}
  {id : TaskId} {ch : Chapter}

/-! ## The task of an entry -/

/-- The operation of an entry has one job. -/
theorem At.operation_unique (ho : w.ledger.IsOrderly) {i j : JobId} {p p' : Position}
    (hi : w.At i (.operation e) p) (hj : w.At j (.operation e) p') : i = j := by
  obtain ⟨given, hi⟩ := hi.runner
  obtain ⟨given', hj⟩ := hj.runner
  exact ho.runner_unique hi hj rfl rfl

/-- An entry is served by one task. -/
theorem Serves.id_unique (hw : Arises w) {id' : TaskId} (h : w.Serves id e)
    (h' : w.Serves id' e) : id' = id := by
  obtain ⟨j, p, hid, hat⟩ := h
  obtain ⟨j', p', hid', hat'⟩ := h'
  obtain rfl := hat.operation_unique hw.isOrderly hat'
  exact hw.isNumbered.id_unique hid' hid

/-- A job that executes a call now executes the same call ever after. -/
theorem CallAt.servesAt {call' : Call} {p' : Position} (h : w₁.CallAt call' p') (hw : Arises w₁)
    (hc : Changes w₁ w) (hserves : w.ServesAt call (.operation e) p) (hjob : call'.job = call.job) :
    call' = call ∧ w₁.ServesAt call (.operation e) p' := by
  obtain ⟨errand, hat, hcall⟩ := h
  obtain ⟨p'', hat''⟩ := hw.at_forth hc hat
  obtain rfl := (hat''.unique (hjob ▸ hserves.1)).1
  have hforth := (hw.lasts_changes hc).callOf? hcall
  rw [hjob, hserves.2] at hforth
  obtain rfl := Option.some.inj hforth
  exact ⟨rfl, hat, hcall⟩

/-- What is told of the task of a call somewhere on the way is told at the end. -/
theorem Stands.mem_annals_of_mem (h : w.Stands call id ch) (hc : Course w ws)
    (hmem : w₁ ∈ w :: ws) {x : Happening} (hx : x ∈ w₁.annals id) :
    x ∈ ch.facts id call.command := by
  obtain ⟨harises, hchanges⟩ := hc.leads hmem
  rw [← h.tells.annals]
  exact ((harises.lasts_changes hchanges).annals_isPrefix id).subset hx

/-- A token that is cancelled stays so. -/
theorem Arises.isCancelled_forth {token : Option String} (hw : Arises w) (hc : Change w w₁)
    (h : w.isCancelled token) : w₁.isCancelled token := (hw.lasts hc).cancelled token h

theorem exists_asked (h : id ∈ w.seen Happening.startAsked?) :
    ∃ c, .startAsked id c ∈ w.annals id := by
  obtain ⟨⟨t, x⟩, hx, htask⟩ := mem_seen.1 h
  cases x with
  | startAsked id' c =>
    obtain rfl := Option.some.inj htask
    exact ⟨c, (mem_annals rfl).2 ⟨t, hx⟩⟩
  | _ => exact absurd htask (by simp [Happening.startAsked?])

/-- Where something is told of the task of an entry, the task serves the entry. -/
theorem Stands.serves_of_annals (h : w.Stands call id ch)
    (hserves : w.ServesAt call (.operation e) p) (hc : Course w ws) (hmem : w₁ ∈ w :: ws)
    {x : Happening} (hx : x ∈ w₁.annals id) : w₁.Serves id e := by
  obtain ⟨harises, hchanges⟩ := hc.leads hmem
  by_cases hid : ∃ j, (id, j) ∈ w₁.account.numbered
  · obtain ⟨j, hid⟩ := hid
    exact harises.serves_back hchanges hid ⟨call.job, p, h.numbered, hserves.1⟩
  · rw [(harises.isChronicled.blank fun j hj => hid ⟨j, hj⟩).1] at hx
    exact absurd hx List.not_mem_nil

/-! ## The disposed manager -/

/-- A disposed task manager gives no numbers, however much happens. -/
theorem Arises.numbered_of_disposed (hw : Arises w) (hc : Changes w w₁)
    (hd : w.manager.isDisposed) : w₁.account.numbered = w.account.numbered := by
  induction hc with
  | refl => rfl
  | tail hc hlast ih =>
    rw [← ih]
    have hd' := (hw.lasts_changes hc).disposed hd
    cases (hw.changes hc).stage hlast with
    | quiet hq => rw [hq.account]
    | numbered hm ha hp' hopen =>
      rw [hd'] at hopen
      exact absurd hopen (by simp)
    | dropped hm ha => rw [ha]
    | asked hm ha | started hm ha | ended hm ha =>
      rw [ha]
      rfl

/-- A call that is entered when the task manager is disposed of gets no number. -/
theorem EntersDisposed.unnumbered (h : w.EntersDisposed ws e) (hc : Course w ws)
    (hserves : w.ServesAt call (.operation e) p) (id : TaskId) :
    (id, call.job) ∉ w.account.numbered := by
  obtain ⟨w₁, w₂, j, hstep, hd, hat₁, -⟩ := h
  obtain ⟨hw₁, hchanges⟩ := hc.leads (Course.mem_of_step hstep).1
  obtain ⟨p', hat⟩ := hw₁.at_forth hchanges hat₁
  obtain rfl := hat.operation_unique hc.arises.isOrderly hserves.1
  -- From the entrance on no numbers are given, and the job had none before.
  rw [hw₁.numbered_of_disposed hchanges hd]
  exact hw₁.isNumbered.fresh_unnumbered hat₁ id

/-- A job that has begun was there before it began. -/
theorem Arises.at_back (hw : Arises w) (hc : Change w w₁) {j : JobId} {errand : Errand}
    (hat : w₁.At j errand p) (hp : p ≠ .fresh) : ∃ p', w.At j errand p' := by
  have hmoves {call : Call} {p₀ p₁ : Position} (hm : Moves w w₁ call p₀ p₁) :
      ∃ p', w.At j errand p' := by
    rcases hm.back hat with ⟨-, -, hat'⟩ | ⟨-, hat'⟩
    · exact ⟨_, hat'⟩
    · exact ⟨_, hat'⟩
  cases hw.stage hc with
  | quiet hq =>
    rcases hq.at_back hat with hfresh | ⟨p', hat', -⟩
    · exact absurd hfresh hp
    · exact ⟨p', hat'⟩
  | dropped hm | numbered hm | asked hm | started hm | ended hm => exact hmoves hm

/-- A call that was turned down was entered when the task manager was disposed of. -/
theorem entersDisposed_of_unnumbered (hc : Course w ws) (hserves : w.ServesAt call (.operation e) p)
    (hp : p ≠ .fresh) (hn : ∀ id, (id, call.job) ∉ w.account.numbered)
    (hr : .resolved e .terminated ∉ w.verdicts) : w.EntersDisposed ws e := by
  -- At some change the job begins.
  obtain ⟨w₁, w₂, hstep, hbefore, p₂, hat₂, hp₂⟩ := hc.exists_first
    (P := fun w => ∃ p, w.At call.job (.operation e) p ∧ p ≠ .fresh)
    (by simp [At, Setting.world]) ⟨p, hserves.1, hp⟩
  have hchange := hc.change hstep
  obtain ⟨hw₁, -⟩ := hc.leads (Course.mem_of_step hstep).1
  obtain ⟨hw₂, hchanges⟩ := hc.leads (Course.mem_of_step hstep).2
  have hat₁ : w₁.At call.job (.operation e) .fresh := by
    obtain ⟨p₁, hat₁⟩ := hw₁.at_back hchange hat₂ hp₂
    by_cases hp₁ : p₁ = .fresh
    · exact hp₁ ▸ hat₁
    · exact absurd ⟨p₁, hat₁, hp₁⟩ hbefore
  rcases hw₁.leaves_fresh hchange hat₁ hat₂ hp₂ with ⟨hd, rfl⟩ | ⟨id, hid⟩ | hresolved
  · exact ⟨w₁, w₂, call.job, hstep, hd, hat₁, fun hfresh => hp₂ (hat₂.unique hfresh).2⟩
  · exact absurd ((hw₂.numbered_isPrefix hchanges).subset hid) (hn id)
  · exact absurd ((hw₂.lasts_changes hchanges).mem_verdicts hresolved) hr

/-! ## Cancelled tokens -/

/-- What is told at the end has a cause somewhere on the way. -/
theorem Course.exists_cause (hc : Course w ws) {x : Happening} (hx : x.isCaused)
    (hmem : x ∈ w.annals id) :
    ∃ w₁ w₂, Course.Step w ws w₁ w₂ ∧ Cause w₁ w₂ x := by
  obtain ⟨w₁, w₂, hstep, hbefore, hthen⟩ := hc.exists_first (P := fun w => x ∈ w.annals id)
    (fun s => List.not_mem_nil) hmem
  obtain ⟨hw₁, -⟩ := hc.leads (Course.mem_of_step hstep).1
  exact ⟨w₁, w₂, hstep, hw₁.cause (hc.change hstep) hx hbefore hthen⟩

/-- What is told at the end and was not when a token was cancelled has a cause after that. -/
theorem Course.exists_later_cause (hc : Course w ws) {x : Happening} {token : Option String}
    (hx : x.isCaused) (hmem₁ : w₁ ∈ w :: ws) (hcancelled : w₁.isCancelled token)
    (hbefore : x ∉ w₁.annals id) (hmem : x ∈ w.annals id) :
    ∃ w₂ w₃, Course.Step w ws w₂ w₃ ∧ w₂.isCancelled token ∧ Cause w₂ w₃ x := by
  -- The token is still cancelled when the fact comes to be, since tokens stay cancelled.
  obtain ⟨w₂, w₃, hstep, hkept, hnot, hthen⟩ := hc.exists_step (P := fun w => x ∈ w.annals id)
    (Q := fun w => w.isCancelled token) (fun hw hc h => hw.isCancelled_forth hc h)
    hmem₁ hcancelled hbefore hmem
  obtain ⟨hw₂, -⟩ := hc.leads (Course.mem_of_step hstep).1
  exact ⟨w₂, w₃, hstep, hkept, hw₂.cause (hc.change hstep) hx hnot hthen⟩

section Cancelled

variable (hc : Course w ws) (hs : w.Stands call id ch) (hserves : w.ServesAt call (.operation e) p)

include hc hs hserves

/-- What executes a task anywhere on the way is the call that has its number. -/
theorem Stands.call_of_id (hmem : w₁ ∈ w :: ws) {call' : Call} {p' : Position}
    (h : w₁.CallAt call' p') (hid : p'.id? = some id) :
    call' = call ∧ w₁.ServesAt call (.operation e) p' := by
  obtain ⟨hw₁, hchanges⟩ := hc.leads hmem
  -- A number is given once, and it stays with the job that got it.
  have hnumbered := (hw₁.numbered_isPrefix hchanges).subset (hw₁.isNumbered.current_of_callAt h hid)
  exact h.servesAt hw₁ hchanges hserves
    (hc.arises.isNumbered.job_unique hnumbered hs.numbered)

/-- When a token is cancelled before the backend is asked, nothing is asked. -/
theorem Stands.unasked (h : w.IsCancelledUnasked ws e call.token) :
    .startAsked id call.command ∉ w.annals id := by
  obtain ⟨w₁, hmem, hcancelled, hunasked⟩ := h
  intro hasked
  have hbefore : .startAsked id call.command ∉ w₁.annals id := by
    intro hx
    refine hunasked id (hs.serves_of_annals hserves hc hmem hx) ?_
    obtain ⟨t, ht⟩ := (mem_annals rfl).1 hx
    exact mem_seen.2 ⟨_, ht, rfl⟩
  -- The backend would have been asked with the token cancelled, which never happens.
  obtain ⟨w₂, w₃, hstep, hkept, hcause⟩ :=
    hc.exists_later_cause rfl hmem hcancelled hbefore hasked
  generalize hx : Happening.startAsked id call.command = x at hcause
  cases hcause with
  | @asked call' id' hcall hopen =>
    obtain ⟨rfl, -⟩ := Happening.startAsked.inj hx
    obtain ⟨rfl, -⟩ := hs.call_of_id hc hserves (Course.mem_of_step hstep).1 hcall rfl
    rw [hkept] at hopen
    exact absurd hopen (by simp)
  | skipped | terminating | completed | terminated => exact absurd hx (by simp)

/-- A story in which nothing is asked of the backend is that of a task that is skipped. -/
theorem Stands.eq_skipped (hover : ch.isOver) (h : w.IsCancelledUnasked ws e call.token) :
    ch = .skipped := by
  have hunasked := hs.unasked hc hserves h
  rw [hs.tells.annals] at hunasked
  cases ch <;> simp_all [Chapter.facts, Chapter.isOver, Chapter.result?]

/-- When nothing is asked of the backend, the token was cancelled before. -/
theorem Stands.isCancelledUnasked (hch : ch = .skipped) :
    w.IsCancelledUnasked ws e call.token := by
  have hmem : .cancelledBeforeStart id ∈ w.annals id := by
    rw [hs.tells.annals, hch]
    exact List.mem_cons_self
  obtain ⟨w₁, w₂, hstep, hcause⟩ := hc.exists_cause rfl hmem
  obtain ⟨hmem₁, hmem₂⟩ := Course.mem_of_step hstep
  obtain ⟨hw₁, hchanges₁⟩ := hc.leads hmem₁
  obtain ⟨hw₂, hchanges₂⟩ := hc.leads hmem₂
  cases hcause with
  | @skipped call' _ p' hcall hid hcancelled =>
    have hjob := hc.arises.isNumbered.job_unique ((hw₂.numbered_isPrefix hchanges₂).subset hid)
      hs.numbered
    obtain ⟨rfl, -⟩ := hcall.servesAt hw₁ hchanges₁ hserves hjob
    refine ⟨w₁, hmem₁, hcancelled, ?_⟩
    intro id' hserves' hasked
    obtain rfl : id' = id := Serves.id_unique hc.arises ⟨call'.job, p, hs.numbered, hserves.1⟩
      (hw₁.serves_forth hchanges₁ hserves')
    obtain ⟨c, hx⟩ := exists_asked hasked
    have hfacts := hs.mem_annals_of_mem hc hmem₁ hx
    rw [hch] at hfacts
    exact absurd hfacts (by simp [Chapter.facts])

/-- When an execution is terminated, its token was cancelled before its end. -/
theorem Stands.isCancelledUnended (hch : ch = .terminated) :
    w.IsCancelledUnended ws e call.token := by
  have hmem : .terminating id ∈ w.annals id := by
    rw [hs.tells.annals, hch]
    simp [Chapter.facts]
  obtain ⟨w₁, w₂, hstep, hcause⟩ := hc.exists_cause rfl hmem
  have hmem₁ := (Course.mem_of_step hstep).1
  obtain ⟨hw₁, hchanges₁⟩ := hc.leads hmem₁
  cases hcause with
  | @terminating call' _ execution hcall hcancelled =>
    obtain ⟨rfl, hserves₁⟩ := hs.call_of_id hc hserves hmem₁ hcall rfl
    refine ⟨w₁, hmem₁, hcancelled, ?_⟩
    intro id' c code hserves' hended
    obtain rfl : id' = id := Serves.id_unique hc.arises ⟨call'.job, p, hs.numbered, hserves.1⟩
      (hw₁.serves_forth hchanges₁ hserves')
    -- When the execution is terminated it is running, and nothing is told of its end.
    have htells := hw₁.isChronicled.tells hw₁.isNumbered hserves₁ rfl rfl
    rw [htells.annals] at hended
    exact absurd hended (by simp [Chapter.facts])

/-- The end of an execution that is not terminated is its own. -/
theorem Stands.completed_of_ended {code : Option Int32} (hch : ch = .completed code)
    (hstep : Course.Step w ws w₁ w₂) (hcause : Cause w₁ w₂ (.ended id call.command code)) :
    ∃ execution, w₁.ServesAt call (.operation e) (.running id execution) ∧
      execution.deadline ≤ w₁.clock ∧ execution.exitCode = code := by
  obtain ⟨hmem₁, hmem₂⟩ := Course.mem_of_step hstep
  generalize hx : Happening.ended id call.command code = x at hcause
  cases hcause with
  | @completed call' id' execution hcall hd =>
    obtain ⟨rfl, -, rfl⟩ := Happening.ended.inj hx
    obtain ⟨rfl, hserves₁⟩ := hs.call_of_id hc hserves hmem₁ hcall rfl
    exact ⟨execution, hserves₁, hd, rfl⟩
  | @terminated call' id' hterminating =>
    obtain ⟨rfl, -, rfl⟩ := Happening.ended.inj hx
    -- A task that was terminated has another story.
    have hfacts := hs.mem_annals_of_mem hc hmem₂ hterminating
    rw [hch] at hfacts
    exact absurd hfacts (by simp [Chapter.facts])
  | skipped | asked | terminating => exact absurd hx (by simp)

/-- An execution that comes to its own end though its token was cancelled before is contested. -/
theorem Stands.isContested {code : Option Int32} (hch : ch = .completed code)
    (h : w.IsCancelledUnended ws e call.token) : w.IsContested ws e call.token := by
  obtain ⟨w₁, hmem, hcancelled, hunended⟩ := h
  have hended : .ended id call.command code ∈ w.annals id := by
    rw [hs.tells.annals, hch]
    simp [Chapter.facts]
  have hbefore : .ended id call.command code ∉ w₁.annals id := by
    intro hx
    exact hunended id _ _ (hs.serves_of_annals hserves hc hmem hx) hx
  obtain ⟨w₂, w₃, hstep, hkept, hcause⟩ :=
    hc.exists_later_cause rfl hmem hcancelled hbefore hended
  obtain ⟨execution, hserves₂, hd, -⟩ := hs.completed_of_ended hc hserves hch hstep hcause
  exact ⟨w₂, (Course.mem_of_step hstep).1, call.job, id, execution, hserves₂.1, hd, hkept⟩

/-- An execution that comes to its own end exits as the script says with which the backend started
it. -/
theorem Stands.exists_launch {code : Option Int32} (hch : ch = .completed code) :
    ∃ w₁ w₂ execution, Course.Step w ws w₁ w₂ ∧ w₁.At call.job (.operation e) (.starting id) ∧
      w₂.At call.job (.operation e) (.running id execution) ∧
      code = (w₁.backend.scriptFor call.command.args).exitCode := by
  have hended : .ended id call.command code ∈ w.annals id := by
    rw [hs.tells.annals, hch]
    simp [Chapter.facts]
  obtain ⟨w₃, w₄, hstep, hcause⟩ := hc.exists_cause rfl hended
  obtain ⟨execution, hserves₃, -, rfl⟩ := hs.completed_of_ended hc hserves hch hstep hcause
  -- The execution began at some change before that.
  obtain ⟨ws₃, hc₃, hsuffix⟩ := hc.before (Course.mem_of_step hstep).1
  obtain ⟨w₁, w₂, hstep₁, hbefore, hthen⟩ := hc₃.exists_first
    (P := fun w => w.At call.job (.operation e) (.running id execution))
    (by simp [At, Setting.world]) hserves₃.1
  have hstep' : Course.Step w ws w₁ w₂ := hstep₁.trans hsuffix.isInfix
  have hmem₁ := (Course.mem_of_step hstep').1
  obtain ⟨hw₁, -⟩ := hc.leads hmem₁
  obtain ⟨call', b, hjob, hcall, hstart⟩ := hw₁.launched (hc.change hstep') hbefore hthen
  obtain ⟨rfl, hserves₁⟩ := hs.call_of_id hc hserves hmem₁ hcall rfl
  obtain ⟨-, -, rfl⟩ := Scripted.start_eq_ok hstart
  exact ⟨w₁, w₂, _, hstep', hserves₁.1, hthen, rfl⟩

end Cancelled

/-! ## The law -/

/-- An entry has one outcome. -/
theorem Arises.outcome_unique (hw : Arises w) {o o' : Outcome} (h : .resolved e o ∈ w.verdicts)
    (h' : .resolved e o' ∈ w.verdicts) : o = o' := by
  exact (Prod.mk.inj (List.inj_on_of_nodup_map hw.isOrderly.resolvedOnce
    (resolved_mem_verdicts.1 h) (resolved_mem_verdicts.1 h') rfl)).2

/-- What is received of an entry is the outcome that was written down. -/
theorem Arises.resolved_of_receive? (hw : Arises w) {o : Outcome}
    (h : w.receive? e = some (w₁, o)) : .resolved e o ∈ w.verdicts :=
  resolved_mem_verdicts.2 (World.resolved_of_receive? hw.isOrderly h)

/-- A story with a refusal is that of the refusal. -/
theorem eq_refused_of_mem {c c' : Command} {f : Failure}
    (h : .startFailed id c' f ∈ ch.facts id c) : ch = .refused f := by
  cases ch with
  | refused f' =>
    obtain ⟨-, -, rfl⟩ : id = id ∧ c' = c ∧ f = f' := by simpa [Chapter.facts] using h
    rfl
  | _ => exact absurd h (by simp [Chapter.facts])

/-- The law for an entry whose call came to a result that the story of its task tells. -/
theorem Stands.obeysLaw {entry : Entry} {result : Except Failure Outcome} (hc : Course w ws)
    (hs : w.Stands call id ch) (hserves : w.ServesAt call (.operation e) p)
    (hcall : call = ⟨call.job, entry.operation.command, entry.token⟩)
    (hr : ch.result? = some result) (hpanic : ¬ w.PanickedFor e)
    (hdisposed : ¬ w.EntersDisposed ws e) : w.OutcomeLaw ws e entry (.ofResult result) := by
  have hover : ch.isOver := by rw [Chapter.isOver, hr]; rfl
  have htoken : entry.token = call.token := by rw [hcall]
  have hcommand : entry.operation.command = call.command := by rw [hcall]
  have hid : w.Serves id e := ⟨call.job, p, hs.numbered, hserves.1⟩
  have hown {id' : TaskId} (h : w.Serves id' e) : id' = id := Serves.id_unique hc.arises hid h
  have hrecord {terminated : Bool} (h : w.filed id = [(true, terminated)]) :
      w.HasRecord e terminated := by
    obtain ⟨r, hrecords, hend, hterminated⟩ := exists_record h
    exact ⟨id, r, hid, hrecords, hend, hterminated⟩
  have hrefused {f : Failure} (h : w.RefusedWith e f) : ch = .refused f := by
    obtain ⟨id', c, hserves', hmem⟩ := h
    obtain rfl := hown hserves'
    rw [hs.tells.annals] at hmem
    exact eq_refused_of_mem hmem
  unfold OutcomeLaw
  rw [if_neg hpanic, if_neg hdisposed, htoken, hcommand]
  -- The chapter decides which line of the law applies; each line before it is shown not to.
  split_ifs with hunasked hfailed hunended
  · obtain rfl := hs.eq_skipped hc hserves hover hunasked
    obtain rfl := Option.some.inj hr
    refine ⟨rfl, ?_⟩
    intro id' hserves'
    obtain rfl := hown hserves'
    refine ⟨?_, hs.tells.emissions, List.map_eq_nil_iff.1 hs.tells.filed⟩
    intro hasked
    obtain ⟨c, hmem⟩ := exists_asked hasked
    rw [hs.tells.annals] at hmem
    exact absurd hmem (by simp [Chapter.facts])
  · intro f hf
    obtain rfl := hrefused hf
    obtain rfl := Option.some.inj hr
    rfl
  all_goals
    have hskipped : ch ≠ .skipped := fun hch =>
      hunasked (hs.isCancelledUnasked hc hserves hch)
    have hnot {f : Failure} : ch ≠ .refused f := by
      rintro rfl
      refine hfailed ⟨f, id, call.command, hid, ?_⟩
      rw [hs.tells.annals]
      exact List.mem_cons_of_mem _ List.mem_cons_self
  · cases ch with
    | lined | asked | begun => exact absurd hover (by simp [Chapter.isOver, Chapter.result?])
    | skipped => exact absurd rfl hskipped
    | refused f => exact absurd rfl hnot
    | completed code => exact .inl (hs.isContested hc hserves rfl hunended)
    | terminated =>
      obtain rfl := Option.some.inj hr
      exact .inr ⟨rfl, hrecord hs.tells.filed⟩
  · cases ch with
    | lined | asked | begun => exact absurd hover (by simp [Chapter.isOver, Chapter.result?])
    | skipped => exact absurd rfl hskipped
    | refused f => exact absurd rfl hnot
    | completed code =>
      obtain rfl := Option.some.inj hr
      obtain ⟨w₁, w₂, execution, hlaunch⟩ := hs.exists_launch hc hserves rfl
      exact ⟨code, rfl, ⟨w₁, w₂, call.job, id, execution, hlaunch⟩, hrecord hs.tells.filed⟩
    | terminated => exact absurd (hs.isCancelledUnended hc hserves rfl) hunended

/-- **The law of outcomes** holds of whatever is received of an entry, whatever course led there. -/
theorem Reachable.outcomeLaw {entry : Entry} {o : Outcome} (hw : Reachable w) (hc : Course w ws)
    (he : w.entryOf? e = some entry) (hr : w.receive? e = some (w₁, o)) :
    w.OutcomeLaw ws e entry o := by
  have hresolved := hw.arises.resolved_of_receive? hr
  have hjudged := hw.isJudged
  by_cases hpanic : w.PanickedFor e
  · unfold OutcomeLaw
    rw [if_pos hpanic]
    exact hw.arises.outcome_unique hresolved (hjudged.terminated hpanic)
  · obtain ⟨call, p, result, hserves, hp, htold, rfl⟩ := hjudged.judged hresolved hpanic
    have hcall : call = ⟨call.job, entry.operation.command, entry.token⟩ := by
      have hcallOf := hserves.2
      rw [callOf?, he] at hcallOf
      exact (Option.some.inj hcallOf).symm
    have hrejected (h : result = .error .disposed) :
        .resolved e .terminated ∉ w.verdicts := by
      intro hterminated
      have heq := hw.arises.outcome_unique hresolved hterminated
      rw [h] at heq
      exact absurd heq (by simp [Outcome.ofResult])
    by_cases hdisposed : w.EntersDisposed ws e
    · unfold OutcomeLaw
      rw [if_neg hpanic, if_pos hdisposed]
      cases htold with
      | rejected hd hn => rfl
      | told hs hr => exact absurd hs.numbered (hdisposed.unnumbered hc hserves _)
    · cases htold with
      | rejected hd hn =>
        exact absurd (entersDisposed_of_unnumbered hc hserves hp hn (hrejected rfl)) hdisposed
      | told hs hr => exact hs.obeysLaw hc hserves hcall hr hpanic hdisposed

/-- A command that takes its time to start and to run is cancelled while it starts. -/
def cancelledStarting : World :=
  let op : Operation := { command := ⟨"p", ["a"], none, .empty, none⟩ }
  let w := (({ startDelay := 10, fallback := { delay := 1000 } } : Setting).world.step
    (.act (.makeQueue "k" "q"))).1
  let w := (w.step (.act (.request "k" op (some "t") "h"))).1.takeTurn 0
  ((w.step (.act (.cancel "t"))).1.fire ⟨10, 0⟩).takeTurn 0

theorem reachable_cancelledStarting : Reachable cancelledStarting := by
  have hqueue := (Reachable.new { startDelay := 10, fallback := { delay := 1000 } }).next
    (.act (.act (.makeQueue "k" "q")) rfl)
  have hrequested := hqueue.next
    (.act (.act (.request "k" { command := ⟨"p", ["a"], none, .empty, none⟩ } (some "t") "h")) rfl)
  have hstarting := hrequested.next (.turn 0 (by decide))
  have hcancelled := hstarting.next (.act (.act (.cancel "t")) rfl)
  exact (hcancelled.next (.fire ⟨10, 0⟩ (by decide))).next (.turn 0 (by decide))

/-- The command was started nevertheless, and then terminated. -/
theorem outcomeLaw_cancelledStarting : ∃ ws entry,
    cancelledStarting.Course ws ∧ cancelledStarting.entryOf? 0 = some entry ∧
      cancelledStarting.OutcomeLaw ws 0 entry .cancelled ∧
      cancelledStarting.backend.records.map Record.terminated = [true] := by
  obtain ⟨ws, hc⟩ := reachable_cancelledStarting.arises.exists_course
  exact ⟨ws, _, hc, rfl, reachable_cancelledStarting.outcomeLaw hc rfl rfl, by decide⟩

end Law

end FolderTasks.Dispatch.World
