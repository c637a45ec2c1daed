import FolderTasks.Proofs.Dispatch.TaskHistory
import FolderTasks.Proofs.Dispatch.StartOrder
/-!
# What a piece of an execution amounts to

A piece of an execution leaves the job waiting, ends with a result, or ends with the panic of an
observer.  A result is the one that the story of the task tells; a panic is written down once, with
the number of the job; and whoever is given the right to start meanwhile has a turn coming.

## Main definitions

* `World.verdicts`: the panics and the outcomes.
* `World.Calm`: nothing is decided, and whoever gets the right to start is woken.
* `World.Told`: a result is what the story of the task tells.
* `World.Piece`: what a piece of an execution amounts to.

## Main statements

* `World.Arises.piece`: every piece of an execution.
-/

namespace FolderTasks.Dispatch

/-- Does a fact decide what becomes of an entry? -/
def Happening.isVerdict : Happening → Bool
  | .observerPanicked _ _ | .reporterPanicked _ _ | .resolved _ _ => true
  | _ => false

namespace World

/-- The panics and the outcomes, in the order in which they happened. -/
def verdicts (w : World) : List Happening := w.seen fun x => if x.isVerdict then some x else none

/-- **Whoever gets the right to start is woken**, but for one job, and no job's turn is taken
away. -/
structure Wakes (j : JobId) (w w' : World) : Prop where
  ready : ∀ i ∈ w.ready, i ∈ w'.ready
  handed : ∀ {i : JobId}, i ≠ j → w'.manager.guard.holder = some i →
    w.manager.guard.holder = some i ∨ i ∈ w'.ready

/-- **Nothing is decided** for any entry. -/
structure Calm (j : JobId) (w w' : World) : Prop extends Wakes j w w' where
  verdicts : w'.verdicts = w.verdicts

/-- What callbacks do is mild, and only that they panic is decisive. -/
structure Calls (w : World) (panic : Happening → Prop) (r : World × Bool) : Prop where
  mild : Mild [.deed, .telling] w r.1
  passed : r.2 = false → r.1.verdicts = w.verdicts
  panicked : r.2 = true → ∃ x, panic x ∧ r.1.verdicts = w.verdicts ++ [x]

/-- The job of a call has a number, and the story of its task has come to a chapter. -/
structure Stands (w : World) (call : Call) (id : TaskId) (ch : Chapter) : Prop where
  numbered : (id, call.job) ∈ w.account.numbered
  tells : w.Tells id call.command ch

/-- **The result of a call** is what the story of its task tells, or the call was turned down. -/
inductive Told (w : World) (call : Call) : Except Failure Outcome → Prop where
  | rejected (hd : w.manager.isDisposed) (hn : ∀ id, (id, call.job) ∉ w.account.numbered) :
      Told w call (.error .disposed)
  | told {id : TaskId} {ch : Chapter} {result : Except Failure Outcome}
      (h : w.Stands call id ch) (hr : ch.result? = some result) : Told w call result

/-- **What a piece of an execution amounts to.** -/
structure Piece (w : World) (call : Call) (r : World × Progress) : Prop
    extends Wakes call.job w r.1 where
  passed : r.2 ≠ .panicked → r.1.verdicts = w.verdicts
  panicked : r.2 = .panicked → ∃ kind id, (id, call.job) ∈ r.1.account.numbered ∧
    r.1.verdicts = w.verdicts ++ [.observerPanicked kind id]
  told : ∀ {result : Except Failure Outcome}, r.2 = .finished result → r.1.Told call result
  /-- A job that has the right to start does not wait for it. -/
  waits : r.2 = .paused → ∀ {errand : Errand} {id : TaskId}, r.1.At call.job errand (.inLine id) →
    r.1.manager.guard.holder ≠ some call.job

/-! ## Verdicts -/

section Verdicts

variable {O : List Origin} {w w' w'' : World} {j : JobId}

theorem verdicts_note (w : World) (x : Happening) :
    (w.note x).verdicts = w.verdicts ++ if x.isVerdict then [x] else [] := by
  rw [verdicts, seen_note]
  split <;> rfl

theorem verdicts_note_of_not (w : World) {x : Happening} (hx : x.isVerdict = false) :
    (w.note x).verdicts = w.verdicts := by
  rw [verdicts_note, hx]
  exact List.append_nil _

theorem mem_verdicts {x : Happening} :
    x ∈ w.verdicts ↔ x.isVerdict ∧ ∃ t, (t, x) ∈ w.history := by
  rw [verdicts, mem_seen]
  constructor
  · rintro ⟨⟨t, y⟩, hmem, hy⟩
    split at hy
    · next hverdict =>
      obtain rfl := Option.some.inj hy
      exact ⟨hverdict, t, hmem⟩
    · exact absurd hy (by simp)
  · rintro ⟨hverdict, t, hmem⟩
    exact ⟨(t, x), hmem, if_pos hverdict⟩

/-- The outcomes that got known are decisive. -/
theorem resolved_mem_verdicts {e : EntryId} {o : Outcome} :
    .resolved e o ∈ w.verdicts ↔ (e, o) ∈ w.seen Happening.resolved? := by
  rw [mem_verdicts, mem_seen]
  constructor
  · rintro ⟨-, t, hmem⟩
    exact ⟨(t, .resolved e o), hmem, rfl⟩
  · rintro ⟨⟨t, x⟩, hmem, hx⟩
    cases x with
    | resolved e' o' =>
      obtain ⟨rfl, rfl⟩ := Prod.mk.inj (Option.some.inj hx)
      exact ⟨rfl, t, hmem⟩
    | _ => exact absurd hx (by simp [Happening.resolved?])

/-- What was decided stays so. -/
theorem Lasts.mem_verdicts (h : Lasts O w w') {x : Happening} (hx : x ∈ w.verdicts) :
    x ∈ w'.verdicts := by
  obtain ⟨hverdict, t, hmem⟩ := World.mem_verdicts.1 hx
  exact World.mem_verdicts.2 ⟨hverdict, t, h.mem_history hmem⟩

/-- Only what is told and how jobs end is decisive. -/
theorem Lasts.verdicts_eq (h : Lasts O w w') (ht : .telling ∉ O)
    (hc : .outcome ∉ O) : w'.verdicts = w.verdicts := by
  refine h.seen_eq ?_
  intro x hx
  refine if_neg ?_
  intro hverdict
  cases x <;> first | exact ht hx | exact hc hx | exact Bool.noConfusion hverdict

theorem Wakes.refl (w : World) : Wakes j w w := ⟨fun _ h => h, fun _ h => .inl h⟩

theorem Wakes.trans (h : Wakes j w w') (h' : Wakes j w' w'') : Wakes j w w'' := by
  constructor
  · intro i hi
    exact h'.ready i (h.ready i hi)
  · intro i hne hi
    rcases h'.handed hne hi with hi | hi
    · rcases h.handed hne hi with hi | hi
      · exact .inl hi
      · exact .inr (h'.ready i hi)
    · exact .inr hi

theorem Wakes.of_eq (hguard : w'.manager.guard = w.manager.guard) (hready : w'.ready = w.ready) :
    Wakes j w w' := by
  constructor
  · rw [hready]
    exact fun _ h => h
  · rw [hguard]
    exact fun _ h => .inl h

theorem Mild.wakes (h : Mild O w w') : Wakes j w w' := by
  refine ⟨h.ready, ?_⟩
  rw [h.guard]
  exact fun _ h => .inl h

theorem Calm.refl (w : World) : Calm j w w := ⟨.refl w, rfl⟩

theorem Calm.trans (h : Calm j w w') (h' : Calm j w' w'') : Calm j w w'' :=
  ⟨h.toWakes.trans h'.toWakes, h'.verdicts.trans h.verdicts⟩

theorem Calm.of_eq (hverdicts : w'.verdicts = w.verdicts)
    (hguard : w'.manager.guard = w.manager.guard) (hready : w'.ready = w.ready) : Calm j w w' :=
  ⟨.of_eq hguard hready, hverdicts⟩

theorem Mild.calm (h : Mild O w w') (hverdicts : w'.verdicts = w.verdicts) : Calm j w w' :=
  ⟨h.wakes, hverdicts⟩

theorem Deeds.calm (h : Deeds w w') : Calm j w w' :=
  h.mild.calm (h.mild.verdicts_eq (by simp) (by simp))

theorem calm_note (w : World) {x : Happening} (hx : x.isVerdict = false) : Calm j w (w.note x) :=
  .of_eq (verdicts_note_of_not w hx) rfl rfl

/-- Whoever is passed the right to start is woken. -/
theorem calm_releaseGuard (w : World) : Calm j w w.releaseGuard := by
  unfold releaseGuard
  split
  · exact ⟨⟨fun _ h => h, fun _ h => absurd h (by simp [setGuard])⟩, rfl⟩
  · next next line hline =>
    have hwoken := mild_wake (O := []) (w.setGuard { holder := some next, line }) next
    refine ⟨⟨hwoken.ready, ?_⟩, hwoken.verdicts_eq (by simp) (by simp)⟩
    intro i hne hi
    rw [hwoken.guard] at hi
    obtain rfl := Option.some.inj hi
    exact .inr (mem_ready_wake _ _)

theorem calm_takeGuard (w : World) (j : JobId) : Calm j w (w.takeGuard j) := by
  refine ⟨⟨fun _ h => h, ?_⟩, rfl⟩
  intro i hne hi
  exact absurd (Option.some.inj hi).symm hne

theorem calm_takeNumber (w : World) (i : JobId) : Calm j w (w.takeNumber i) :=
  .of_eq (verdicts_note_of_not _ rfl) rfl rfl

theorem calm_leaveLine (w : World) (i : JobId) : Calm j w (w.leaveLine i) :=
  ⟨⟨fun _ h => h, fun _ h => .inl h⟩, rfl⟩

theorem calm_joinLine (w : World) (i : JobId) : Calm j w (w.joinLine i) :=
  ⟨⟨fun _ h => h, fun _ h => .inl h⟩, rfl⟩

theorem calm_unlisten (w : World) (token : Option String) (i : JobId) :
    Calm j w (w.unlisten token i) :=
  (mild_unlisten (O := []) w token i).calm
    ((mild_unlisten (O := []) w token i).verdicts_eq (by simp) (by simp))

theorem calm_listen (w : World) (token : Option String) (i : JobId) :
    Calm j w (w.listen token i) :=
  (mild_listen (O := []) w token i).calm
    ((mild_listen (O := []) w token i).verdicts_eq (by simp) (by simp))

end Verdicts

/-! ## Stories -/

section Stories

variable {O : List Origin} {w w' : World} {call : Call} {id : TaskId} {ch : Chapter}

theorem Lasts.numbered_eq (h : Lasts O w w') (ho : .stride ∉ O) :
    w'.account.numbered = w.account.numbered := by
  refine h.seen_eq ?_
  intro x hx
  cases x <;> first | rfl | exact absurd hx ho

theorem Mild.filed (h : Mild O w w') (id : TaskId) : w'.filed id = w.filed id := by
  rw [World.filed, World.filed, Scripted.recordsOf, Scripted.recordsOf, h.records]

/-- What is no stage of an execution leaves all stories where they are. -/
theorem Stands.mild (h : w.Stands call id ch) (hm : Mild O w w') (ho : .stride ∉ O) :
    w'.Stands call id ch := by
  refine ⟨?_, h.tells.of_eq (hm.annals_eq ho id) (hm.filed id)⟩
  rw [hm.numbered_eq ho]
  exact h.numbered

theorem Told.mild {result : Except Failure Outcome} (h : w.Told call result)
    (hm : Mild O w w') (ho : .stride ∉ O) : w'.Told call result := by
  cases h with
  | rejected hd hn =>
    refine .rejected (hm.disposed hd) ?_
    rw [hm.numbered_eq ho]
    exact hn
  | told h hr => exact .told (h.mild hm ho) hr

/-- What a world tells that differs only where the stories do not look. -/
theorem Stands.of_eq (h : w.Stands call id ch)
    (hhistory : w'.history = w.history) (hbackend : w'.backend = w.backend) :
    w'.Stands call id ch := by
  refine ⟨?_, h.tells.of_eq ?_ ?_⟩
  · change (id, call.job) ∈ w'.seen Happening.numbered?
    rw [seen, hhistory]
    exact h.numbered
  · rw [annals, annals, seen, seen, hhistory]
  · rw [World.filed, World.filed, hbackend]

end Stories

/-! ## Callbacks -/

section Callbacks

variable {O : List Origin} {w w' : World} {call : Call} {id : TaskId} {ch : Chapter}

theorem Calls.of_mild {panic : Happening → Prop} {r : World × Bool}
    (hm : Mild [.deed, .telling] w w') (hv : w'.verdicts = w.verdicts) (h : Calls w' panic r) :
    Calls w panic r := by
  refine ⟨hm.trans h.mild, ?_, ?_⟩
  · intro hr
    rw [h.passed hr, hv]
  · intro hr
    obtain ⟨x, hx, hpanicked⟩ := h.panicked hr
    exact ⟨x, hx, by rw [hpanicked, hv]⟩

/-- The hooks of a callback are run, and a panic is written down. -/
theorem runHooks_calls {site : CallbackSite} {hooks : List Hook} {x : Happening}
    {panic : Happening → Prop} {rest : World → World × Bool} (w : World) (hpanic : panic x)
    (hx : x.isVerdict = true) (ho : x.origin = .telling) (hrest : ∀ w, Calls w panic (rest w)) :
    Calls w panic (if (runHooks site hooks w).2 then ((runHooks site hooks w).1.note x, true)
      else rest (runHooks site hooks w).1) := by
  have hdeeds := runHooks_deeds site hooks w
  have hmild : Mild [.deed, .telling] w (runHooks site hooks w).1 := hdeeds.mild.weaken (by simp)
  have hverdicts : (runHooks site hooks w).1.verdicts = w.verdicts :=
    (hdeeds.calm (j := 0)).verdicts
  split
  · refine ⟨hmild.note (by simp [ho]), fun h => Bool.noConfusion h, ?_⟩
    intro _
    exact ⟨x, hpanic, by rw [verdicts_note, hx, if_pos rfl, hverdicts]⟩
  · exact .of_mild hmild hverdicts (hrest _)

theorem callObservers_calls (kind : NoticeKind) (id : TaskId) (fact : String → Happening)
    (hfact : ∀ name, (fact name).origin = .telling ∧ (fact name).isVerdict = false)
    (observers : List (Nat × Observer)) (w : World) :
    Calls w (· = .observerPanicked kind id) (callObservers kind id fact observers w) := by
  -- By induction on the observers that are still to be called; the first that panics is the last.
  induction observers generalizing w with
  | nil => exact ⟨.refl w, fun _ => rfl, fun h => Bool.noConfusion h⟩
  | cons o observers ih =>
    refine .of_mild ?_ ?_ (runHooks_calls _ rfl rfl rfl ih)
    · exact (mild_note w (by simp [(hfact o.2.name).1])).trans (.of_eq rfl rfl rfl rfl rfl rfl rfl)
    · exact verdicts_note_of_not w (hfact o.2.name).2

theorem report_calls (w : World) (e : EntryId) (status : StatusCall) :
    Calls w (· = .reporterPanicked e status) (w.report e status) := by
  have hnoted : Mild [.deed, .telling] w (w.note (.reported e status (w.isRecorded e))) :=
    mild_note w (by simp [Happening.origin])
  have hverdicts := verdicts_note_of_not w (x := .reported e status (w.isRecorded e)) rfl
  unfold report
  dsimp only
  split
  · have hpassed (w : World) : Calls w (· = .reporterPanicked e status) (w, false) :=
      ⟨.refl w, fun _ => rfl, fun h => Bool.noConfusion h⟩
    have hkept (calls : List StatusKind) : Mild [.deed, .telling] w
        ((w.note (.reported e status (w.isRecorded e))).keepCalls calls) :=
      hnoted.trans (.of_eq rfl rfl rfl rfl rfl rfl rfl)
    refine .of_mild (hkept (status.kind :: w.reporter.calls)) hverdicts
      (runHooks_calls _ ?_ rfl rfl hpassed)
    rfl
  · exact ⟨hnoted, fun _ => hverdicts, fun h => Bool.noConfusion h⟩

theorem reportAll_calls (e : EntryId) (calls : List StatusCall) (w : World) :
    Calls w (fun x => ∃ status, x = .reporterPanicked e status) (reportAll e calls w) := by
  induction calls generalizing w with
  | nil => exact ⟨.refl w, fun _ => rfl, fun h => Bool.noConfusion h⟩
  | cons status calls ih =>
    have hfirst := report_calls w e status
    simp only [reportAll]
    split
    · next hpanicked =>
      obtain ⟨x, rfl, hx⟩ := hfirst.panicked hpanicked
      exact ⟨hfirst.mild, fun h => Bool.noConfusion h, fun _ => ⟨_, ⟨status, rfl⟩, hx⟩⟩
    · next hpanicked =>
      exact .of_mild hfirst.mild (hfirst.passed (Bool.not_eq_true _ ▸ hpanicked)) (ih _)

end Callbacks

/-! ## Piece by piece -/

section Pieces

variable {w w' : World} {call : Call} {errand : Errand} {id : TaskId}

theorem Piece.of_calm {r : World × Progress} (hc : Calm call.job w w') (h : Piece w' call r) :
    Piece w call r where
  toWakes := hc.toWakes.trans h.toWakes
  passed hr := (h.passed hr).trans hc.verdicts
  panicked hr := by
    obtain ⟨kind, id, hid, hpanicked⟩ := h.panicked hr
    exact ⟨kind, id, hid, by rw [hpanicked, hc.verdicts]⟩
  told hr := h.told hr
  waits hr := h.waits hr

/-- An execution that is over with a result. -/
theorem Piece.finished {result : Except Failure Outcome} (hc : Calm call.job w w')
    (ht : w'.Told call result) : Piece w call (w', .finished result) where
  toWakes := hc.toWakes
  passed _ := hc.verdicts
  panicked h := absurd h (by simp)
  told h := by
    obtain rfl := Progress.finished.inj h
    exact ht
  waits h := absurd h (by simp)

/-- An execution that is over because an observer panicked. -/
theorem Piece.panic {kind : NoticeKind} (hw : Wakes call.job w w')
    (hid : (id, call.job) ∈ w'.account.numbered)
    (hv : w'.verdicts = w.verdicts ++ [.observerPanicked kind id]) :
    Piece w call (w', .panicked) where
  toWakes := hw
  passed h := absurd rfl h
  panicked _ := ⟨kind, id, hid, hv⟩
  told h := absurd h (by simp)
  waits h := absurd h (by simp)

/-- A job that waits, but not for a right that it has. -/
theorem Piece.paused (hc : Calm call.job w w')
    (hw : ∀ {errand : Errand} {id : TaskId}, w'.At call.job errand (.inLine id) →
      w'.manager.guard.holder ≠ some call.job) : Piece w call (w', .paused) where
  toWakes := hc.toWakes
  passed _ := hc.verdicts
  panicked h := absurd h (by simp)
  told h := absurd h (by simp)
  waits _ := hw

/-- A job that is elsewhere does not wait for the right to start. -/
theorem At.not_inLine {j : JobId} {p : Position} (hat : w.At j errand p)
    (hp : ∀ id, p ≠ .inLine id) {errand' : Errand} {id : TaskId}
    (h : w.At j errand' (.inLine id)) : w.manager.guard.holder ≠ some j :=
  absurd (hat.unique h).2 (hp id)

/-- The end of an execution is announced. -/
theorem announceEnd_piece (ch : Chapter) {code : Option Int32} {outcome : Outcome}
    (h : Stands (w.note (.endAnnounced id call.command code)) call id ch)
    (hr : ch.result? = some (.ok outcome)) :
    Piece w call ((w.announceEnd id call.command code).1,
      if (w.announceEnd id call.command code).2 then .panicked else .finished (.ok outcome)) := by
  refine .of_calm (calm_note w (x := .endAnnounced id call.command code) rfl) ?_
  have hcalls := callObservers_calls .finish id
    (fun name => .endNoticed name id call.command code) (fun _ => ⟨rfl, rfl⟩)
    w.manager.endObservers.callbacks (w.note (.endAnnounced id call.command code))
  unfold announceEnd
  dsimp only
  split
  · next hpanicked =>
    obtain ⟨x, rfl, hverdicts⟩ := hcalls.panicked hpanicked
    have hid := (h.mild hcalls.mild (by simp)).numbered
    exact .panic hcalls.mild.wakes hid hverdicts
  · next hpanicked =>
    have hpassed := hcalls.passed (Bool.not_eq_true _ ▸ hpanicked)
    exact .finished (hcalls.mild.calm hpassed) (.told (h.mild hcalls.mild (by simp)) hr)

theorem complete_piece {e : Execution} (h : w.Stands call id .begun) :
    Piece w call (w.complete call id e) := by
  refine .of_calm ?_ (announceEnd_piece (.completed e.exitCode) ⟨?_, ?_⟩ rfl)
  · exact .of_eq (verdicts_note_of_not _ rfl) rfl rfl
  · exact h.numbered
  · exact (Continues.complete w id call.command call.job .telling e.exitCode).own h.tells

theorem terminate_piece (h : w.Stands call id .begun) : Piece w call (w.terminate call id) := by
  refine .of_calm ?_ (announceEnd_piece .terminated ⟨?_, ?_⟩ rfl)
  · refine .of_eq ((verdicts_note_of_not _ rfl).trans ?_) rfl rfl
    exact verdicts_note_of_not w rfl
  · exact h.numbered
  · exact (Continues.terminate w id call.command call.job .telling).own h.tells

theorem follow_piece {e : Execution} (hs : w.ServesAt call errand (.running id e))
    (h : w.Stands call id .begun) : Piece w call (w.follow call id e) := by
  unfold follow
  split
  · exact complete_piece h
  · split
    · exact terminate_piece h
    · have htimer : Calm call.job w (w.setTimer e.deadline call.job) := .of_eq rfl rfl rfl
      refine .paused (htimer.trans (calm_listen _ _ _)) ?_
      obtain ⟨tokens, heq⟩ := listen_eq (w.setTimer e.deadline call.job) call.token call.job
      rw [heq]
      exact At.not_inLine (w := { w.setTimer e.deadline call.job with tokens }) hs.1 (by simp)

theorem launch_piece (hs : w.ServesAt call errand (.starting id)) (h : w.Stands call id .asked) :
    Piece w call (w.launch call id) := by
  unfold launch
  split
  · next f hb =>
    refine .finished ?_ (.told ⟨?_, (Continues.refuse w id call.command _ _ f).own h.tells⟩ rfl)
    · refine Calm.trans ?_ (calm_releaseGuard _)
      exact .of_eq (verdicts_note_of_not w rfl) rfl rfl
    · rw [(adds_releaseGuard _).account]
      exact h.numbered
  · next b e hb =>
    have hbegun : Stands (((((w.setBackend b).note (.started id call.command)).setPosition call.job
        (.running id e)).releaseGuard).note (.startAnnounced id call.command)) call id .begun := by
      refine ⟨?_, (Continues.start w id call.command _ _ hb).own h.tells⟩
      change (id, call.job) ∈ (releaseGuard _).account.numbered
      rw [(adds_releaseGuard _).account]
      exact h.numbered
    -- The observers are called in a world in which the right to start is already passed on.
    have hserves := hs.started b e
    have hcalm : Calm call.job w (((w.setBackend b).note (.started id call.command)).setPosition
        call.job (.running id e)).releaseGuard := by
      refine Calm.trans ?_ (calm_releaseGuard _)
      exact .of_eq (verdicts_note_of_not _ rfl) rfl rfl
    -- How the execution began no longer matters from here on.
    dsimp only
    generalize (((w.setBackend b).note (.started id call.command)).setPosition call.job
      (.running id e)).releaseGuard = w₁ at hbegun hserves hcalm ⊢
    refine .of_calm (hcalm.trans (calm_note w₁ (x := .startAnnounced id call.command) rfl)) ?_
    have hcalls := callObservers_calls .start id
      (fun name => .startNoticed name id call.command) (fun _ => ⟨rfl, rfl⟩)
      w₁.manager.startObservers.callbacks (w₁.note (.startAnnounced id call.command))
    have hbegun' := hbegun.mild hcalls.mild (by simp)
    unfold announceStart
    dsimp only
    split
    · next hpanicked =>
      obtain ⟨x, rfl, hverdicts⟩ := hcalls.panicked hpanicked
      exact .panic (hcalls.mild.wakes.trans (.of_eq rfl rfl)) hbegun'.numbered hverdicts
    · next hpanicked =>
      have hpassed := hcalls.passed (Bool.not_eq_true _ ▸ hpanicked)
      have hserves' : ServesAt _ call errand (.running id e) :=
        ⟨hcalls.mild.stays hserves.1, hcalls.mild.callOf? hserves.2⟩
      exact .of_calm (hcalls.mild.calm hpassed) (follow_piece hserves' hbegun')

theorem cancelBeforeStart_piece (h : w.Stands call id .lined) :
    Piece w call (w.cancelBeforeStart call id) := by
  refine .finished ?_ (.told ⟨h.numbered, (Continues.skip w id call.command _ _).own h.tells⟩ rfl)
  exact .of_eq (verdicts_note_of_not w rfl) rfl rfl

theorem begin_piece (hs : w.ServesAt call errand (.inLine id)) (h : w.Stands call id .lined) :
    Piece w call (w.begin call id) := by
  unfold begin
  split
  · refine .of_calm (calm_releaseGuard w) (cancelBeforeStart_piece ⟨?_, ?_⟩)
    · rw [(adds_releaseGuard w).account]
      exact h.numbered
    · exact h.tells.of_eq (annals_releaseGuard w id) (filed_releaseGuard w id)
  · have hasked : Calm call.job w ((w.note (.startAsked id call.command)).setPosition call.job
        (.starting id)) := .of_eq (verdicts_note_of_not w rfl) rfl rfl
    dsimp only
    split
    · refine .of_calm hasked (launch_piece hs.asksStart ⟨h.numbered, ?_⟩)
      exact (Continues.ask w id call.command _ _).own h.tells
    · refine .paused (hasked.trans (.of_eq rfl rfl rfl)) ?_
      intro errand' id' h
      exact hs.asksStart.1.not_inLine (by simp) h

theorem proceedInLine_piece (hs : w.ServesAt call errand (.inLine id))
    (h : w.Stands call id .lined) : Piece w call (w.proceedInLine call id) := by
  have hunlisten := calm_unlisten (j := call.job) w call.token call.job
  have hstands : (w.unlisten call.token call.job).Stands call id .lined :=
    h.mild (mild_unlisten (O := []) w _ _) (by simp)
  unfold proceedInLine
  split
  · exact .of_calm hunlisten (begin_piece hs.unlisten hstands)
  · next hg =>
    split
    · refine .of_calm (hunlisten.trans (calm_leaveLine _ call.job)) (cancelBeforeStart_piece ?_)
      exact hstands.of_eq rfl rfl
    · exact .paused (.refl w) fun _ => hg

theorem proceedStarting_piece (hs : w.ServesAt call errand (.starting id))
    (h : w.Stands call id .asked) : Piece w call (w.proceedStarting call id) := by
  unfold proceedStarting
  split
  · exact .paused (.refl w) (hs.1.not_inLine (by simp))
  · exact launch_piece hs h

theorem proceedRunning_piece {e : Execution} (hs : w.ServesAt call errand (.running id e))
    (h : w.Stands call id .begun) : Piece w call (w.proceedRunning call id e) := by
  have hunlisten := calm_unlisten (j := call.job) w call.token call.job
  have hstands : (w.unlisten call.token call.job).Stands call id .begun :=
    h.mild (mild_unlisten (O := []) w _ _) (by simp)
  unfold proceedRunning
  split
  · exact .of_calm hunlisten (complete_piece hstands)
  · split
    · refine .of_calm (hunlisten.trans ?_) (terminate_piece (w := clearTimer _ call.job) ?_)
      · exact .of_eq rfl rfl rfl
      · exact hstands.of_eq rfl rfl
    · exact .paused (.refl w) (hs.1.not_inLine (by simp))

theorem enter_piece (hs : w.ServesAt call errand .fresh)
    (hn : ∀ id, (id, call.job) ∉ w.account.numbered)
    (hholder : w.manager.guard.holder ≠ some call.job)
    (h : w.Tells w.nextId call.command .lined) : Piece w call (w.enter call) := by
  unfold enter
  split
  · next hd => exact .finished (.of_eq rfl rfl rfl) (.rejected hd hn)
  -- Whether the right to start is free or not, the call has its number now.
  · have hnumbered : (w.takeNumber call.job).Stands call w.nextId .lined := by
      refine ⟨?_, h.of_eq (annals_takeNumber w call.job _) rfl⟩
      rw [account_takeNumber]
      exact List.mem_append_right _ List.mem_cons_self
    have hcalm := calm_takeNumber (j := call.job) w call.job
    dsimp only
    split
    · have htaken : Calm call.job w (((w.takeNumber call.job).takeGuard call.job).setPosition
          call.job (.inLine w.nextId)) :=
        (hcalm.trans (calm_takeGuard _ call.job)).trans (.of_eq rfl rfl rfl)
      exact .of_calm htaken (begin_piece hs.takesGuard (hnumbered.of_eq rfl rfl))
    · next holder hg =>
      have hwaits := hcalm.trans (calm_note _ (x := .waitsToStart w.nextId) rfl)
      split
      · refine .of_calm hwaits (cancelBeforeStart_piece ⟨hnumbered.numbered, ?_⟩)
        refine hnumbered.tells.of_eq ?_ rfl
        rw [annals_note]
        exact List.append_nil _
      · have hjoined : Calm call.job w ((((w.takeNumber call.job).note
            (.waitsToStart w.nextId)).joinLine call.job).setPosition call.job (.inLine w.nextId)) :=
          (hwaits.trans (calm_joinLine _ call.job)).trans (.of_eq rfl rfl rfl)
        refine .paused (hjoined.trans (calm_listen _ _ _)) ?_
        intro _ _ _
        -- The right to start is with another job, and that did not change.
        rw [(mild_listen (O := []) _ _ _).guard]
        exact hholder

/-- **Every piece of an execution** leaves the job waiting, or ends with what the story of its task
tells, or with a panic that is written down. -/
theorem Arises.piece {p : Position} (hw : Arises w) (hs : w.ServesAt call errand p) :
    Piece w call (w.proceed call) := by
  have hn := hw.isNumbered
  have hc := hw.isChronicled
  have hstands {id : TaskId} {ch : Chapter} (hid : p.id? = some id) (hp : p.chapter? = some ch) :
      w.Stands call id ch := ⟨hn.current hs.1 hid, hc.tells hn hs hid hp⟩
  have hidle (hp : ∀ id, p ≠ .inLine id) : Piece w call (w, .paused) :=
    .paused (.refl w) (hs.1.not_inLine hp)
  unfold proceed
  rw [hs.1.position_eq]
  cases p with
  | fresh =>
    refine enter_piece hs (hn.fresh_unnumbered hs.1) ?_ ?_
    -- A job that has not begun cannot have the right to start: whoever has it is in the line or is
    -- starting.
    · intro hholder
      obtain ⟨errand', id, hat | hat⟩ := hw.isLined.holding hholder
      · exact absurd (hs.1.unique hat).2 (by simp)
      · exact absurd (hs.1.unique hat).2 (by simp)
    · obtain ⟨hannals, hfiled⟩ := hc.blank hn.nextId_unnumbered
      exact ⟨hannals, hfiled⟩
  | inLine id => exact proceedInLine_piece hs (hstands rfl rfl)
  | starting id => exact proceedStarting_piece hs (hstands rfl rfl)
  | running id e => exact proceedRunning_piece hs (hstands rfl rfl)
  | telling | awaiting | done => exact hidle (by simp)

end Pieces

/-! ## What has been told stays told -/

section Lasting

variable {O : List Origin} {w w' : World} {call : Call} {result : Except Failure Outcome}

theorem Lasts.annals_isPrefix (h : Lasts O w w') (id : TaskId) :
    w.annals id <+: w'.annals id := by
  obtain ⟨facts, hw', -⟩ := h.facts
  rw [annals, annals, seen, seen, hw', List.filterMap_append, List.reverse_append]
  exact List.prefix_append _ _

/-- A story that is over is not told any further. -/
theorem Stands.forth {id : TaskId} {ch : Chapter} (h : w.Stands call id ch) (hover : ch.isOver)
    (hw : Arises w) (hc : Change w w') : w'.Stands call id ch := by
  have hw' := hw.change hc
  have hid := (hw.stage hc).numbered_isPrefix.subset h.numbered
  obtain ⟨call', errand, p, hjob, hserves⟩ := hw'.isNumbered.exists_servesAt hw'.isOrderly hid
  obtain ⟨ch', htells, -⟩ := hw'.isChronicled.told (hjob ▸ hid) hserves
  -- The facts only get more, and no story that is over is a proper part of another one.
  have hprefix := (hw.lasts hc).annals_isPrefix id
  rw [h.tells.annals, htells.annals] at hprefix
  obtain ⟨rfl, hfacts⟩ := Chapter.eq_of_prefix hover hprefix
  exact ⟨hid, htells.annals.trans hfacts.symm, htells.filed⟩

theorem Told.forth (h : w.Told call result) (hw : Arises w) (hc : Change w w')
    (hf : ∃ errand p, w.At call.job errand p ∧ p ≠ .fresh) : w'.Told call result := by
  cases h with
  | rejected hd hn =>
    -- A job that has begun gets no number any more.
    obtain ⟨errand, p, hat, hp⟩ := hf
    refine .rejected ((hw.lasts hc).disposed hd) ?_
    intro id hid
    exact hn id ((hw.stage hc).unnumbered_forth hat hp hid)
  | told h hr =>
    refine .told (h.forth ?_ hw hc) hr
    rw [Chapter.isOver, hr]
    rfl

/-- What a call came to stays so. -/
theorem Told.changes (h : w.Told call result) (hw : Arises w) (hc : Changes w w')
    (hf : ∃ errand p, w.At call.job errand p ∧ p ≠ .fresh) : w'.Told call result := by
  obtain ⟨errand, p, hat, hp⟩ := hf
  induction hc with
  | refl => exact h
  | tail hc hlast ih =>
    obtain ⟨p₁, hat₁, hp₁⟩ := hw.begun_forth hc hat hp
    exact ih.forth (hw.changes hc) hlast ⟨errand, p₁, hat₁, hp₁⟩

end Lasting

end World

end FolderTasks.Dispatch
