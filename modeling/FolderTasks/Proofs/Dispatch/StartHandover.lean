import FolderTasks.Proofs.Dispatch.TurnResults
/-!
# The right to start is handed over

The right to start never lies with a job that waits for it and has no turn coming.  So when no job
has a turn coming and none is starting, nobody waits: a start that went well, one that failed, and
a job that was cancelled or dropped in the middle of the line have all passed the right on.

## Main definitions

* `World.IsHandedOver`: whoever has the right to start and waits for it has a turn coming.
* `World.StartsInTurn`: one start at a time, in the order of the task numbers.

## Main statements

* `World.Transition.sorts`: a transition is mild, or a turn.
* `World.Reachable.isHandedOver`: the right to start is handed over, whatever happens.
* `World.Reachable.startsInTurn`: starts come one at a time and in order, and nobody is left
  waiting.
-/

namespace FolderTasks.Dispatch.World

/-- **The right to start has been handed over**: whoever has it and waits for it has a turn
coming. -/
def IsHandedOver (w : World) : Prop :=
  ∀ {j : JobId} {errand : Errand} {id : TaskId}, w.manager.guard.holder = some j →
    w.At j errand (.inLine id) → j ∈ w.ready

/-- **Starts come one at a time**, in the order of the task numbers, which are given in the order in
which calls are entered. -/
structure StartsInTurn (w : World) : Prop where
  /-- One start at most is in progress. -/
  alone : ∀ {i j : JobId} {errand errand' : Errand} {id id' : TaskId},
    w.At i errand (.starting id) → w.At j errand' (.starting id') → i = j
  consecutive : (w.seen Happening.numbered?).map Prod.fst =
    (List.range w.manager.lastId).map fun n => ⟨n + 1⟩
  /-- A call that is entered gets the next number. -/
  entered : ∀ {call : Call} {errand : Errand}, w.ServesAt call errand .fresh →
    w.manager.isDisposed = false → (w.enter call).1.seen Happening.numbered? =
      w.seen Happening.numbered? ++ [(⟨w.manager.lastId + 1⟩, call.job)]
  /-- A call that is turned down gets none. -/
  rejected : ∀ {call : Call} {errand : Errand}, w.ServesAt call errand .fresh →
    w.manager.isDisposed → (w.enter call).2 = .finished (.error .disposed) ∧
      (w.enter call).1.seen Happening.numbered? = w.seen Happening.numbered?
  asked : (w.seen Happening.startAsked?).Pairwise fun id id' => id.number < id'.number
  recorded : (w.backend.records.map Record.id).Pairwise fun id id' => id.number < id'.number
  announced : (w.seen Happening.startAnnounced?).Pairwise fun id id' => id.number < id'.number

section Handover

variable {O : List Origin} {w w' : World}

/-! ## Transitions are mild, or turns -/

theorem mild_nameQueue (w : World) (key : String) (q : QueueId) :
    Mild O w (w.nameQueue key q) := .of_eq rfl rfl rfl rfl rfl rfl rfl

theorem addFolder_mild (w : World) (folder : Path) :
    Mild [.deed, .drift] w (w.addFolder folder).1 := by
  unfold addFolder
  split
  · exact .refl w
  · have htold : Mild [.deed, .drift] w (w.note (.folderAdded folder)) :=
      mild_note w (by simp [Happening.origin])
    have hmade := (Deed.queueMade (w := w.note (.folderAdded folder)) folder.displayName
      w.recordsFolders).mild
    exact (htold.trans (hmade.weaken (by simp))).trans (.of_eq rfl rfl rfl rfl rfl rfl rfl)

theorem removeFolder_mild (w : World) (folder : Path) :
    Mild [.deed, .drift] w (w.removeFolder folder).1 := by
  unfold removeFolder
  split
  · exact .refl w
  · refine Mild.note (h := .folderRemoved folder) ?_ (by simp [Happening.origin])
    exact .of_eq rfl rfl rfl rfl rfl rfl rfl

/-- What the user does between two turns is mild. -/
theorem instant_mild (w : World) {s : Step} (h : s.isInstant) :
    Mild [.deed, .drift] w (w.step s).1 := by
  have hdeeds {w' : World} (hd : Deeds w w') : Mild [.deed, .drift] w w' :=
    hd.mild.weaken (by simp)
  cases s with
  | act a => exact hdeeds (perform_deeds w a)
  | settle | advance | await => exact Bool.noConfusion h
  | addFolder folder => exact (addFolder_mild w folder).trans (mild_nameQueue _ _ _)
  | removeFolder folder => exact removeFolder_mild w folder
  | folders | toolchain => exact .refl w
  | find folder =>
    simp only [step]
    split <;> exact .refl w
  | run folder action token handle =>
    simp only [step]
    split
    · exact hdeeds (requestNamed_deeds ..)
    · exact .refl w
  | tasks folder products =>
    simp only [step]
    split <;> exact .refl w
  | dispose => exact (hdeeds (.single .disposed)).trans (.of_eq rfl rfl rfl rfl rfl rfl rfl)

/-- **A transition is mild, or the turn of a job.** -/
theorem Transition.sorts (t : Transition w w') :
    Mild [.deed, .drift] w w' ∨ ∃ j ∈ w.ready, w' = w.takeTurn j := by
  cases t with
  | act s h => exact .inl (instant_mild w h)
  | turn j h => exact .inr ⟨j, h, rfl⟩
  | fire t h =>
    have hmoved : Mild [.deed, .drift] w { w with
        clock := max w.clock t.deadline
        timers := w.timers.dropWhile fun u => u.deadline ≤ t.deadline } :=
      .of_eq rfl rfl rfl rfl rfl rfl rfl
    exact .inl (hmoved.trans (mild_wakeAll _ _))
  | pass moment h => exact .inl (.of_eq rfl rfl rfl rfl rfl rfl rfl)
  | sit e => exact .inl (mild_takeSeat w e _)
  | leave e entry seat he h => exact .inl (mild_leaveSeat w e seat)
  | receive e o h => exact .inl (mild_receive? h)

/-! ## Whoever has the right to start has a turn coming -/

/-- A job that is starting does not go back to wait for the right to start. -/
theorem Arises.not_back (hw : Arises w) (hc : Changes w w') {j : JobId} {errand errand' : Errand}
    {id id' : TaskId} (hat : w.At j errand (.starting id)) : ¬ w'.At j errand' (.inLine id') := by
  intro hat'
  have hw' := hw.changes hc
  -- A job that is starting has asked, and whoever is in the line has not asked yet.
  have hasked : id ∈ w.account.asked :=
    (hw.isLined.unrecorded hat).subset (List.mem_append_right _ List.mem_cons_self)
  have hasked' : id ∈ w'.account.asked := by
    obtain ⟨fact, hmem, hfact⟩ := mem_seen.1 hasked
    exact mem_seen.2 ⟨fact, (hw.lasts_changes hc).mem_history hmem, hfact⟩
  have hid := (hw.numbered_isPrefix hc).subset (hw.isNumbered.current hat rfl)
  have hid' := hw'.isNumbered.current hat' rfl
  obtain rfl := hw'.isNumbered.id_unique hid hid'
  exact Nat.lt_irrefl _ (hw'.isLined.askedFirst hasked' hat')

theorem IsHandedOver.mild (h : w.IsHandedOver) (hw : Arises w) (hm : Mild O w w') :
    w'.IsHandedOver := by
  intro j errand id hholder hat
  rw [hm.guard] at hholder
  obtain ⟨errand', id', hline | hstarting⟩ := hw.isLined.holding hholder
  · exact hm.ready j (h hholder hline)
  · exact absurd (hat.unique (hm.stays hstarting)).2 (by simp)

/-- After its turn a job does not wait for a right that it has, and whoever got the right to start
in that turn was woken. -/
theorem IsHandedOver.turn (h : w.IsHandedOver) (hw : Arises w) {j : JobId} (hj : j ∈ w.ready) :
    (w.takeTurn j).IsHandedOver := by
  have htaken : Change w { w with ready := w.ready.erase j } := .drift (.turnTaken j hj)
  have hturned := (hw.change htaken).turned j
  have hchanges := (takeTurn_works hj).changes
  intro i errand id hholder hat
  -- The right is with the job itself, or it was handed to another one, or it was with that one
  -- before.
  by_cases hij : i = j
  · subst hij
    exact absurd hholder (hturned.waits hat)
  · rcases hturned.handed hij hholder with hbefore | hready
    · obtain ⟨errand', id', hline | hstarting⟩ := hw.isLined.holding hbefore
      · exact hturned.ready i ((List.mem_erase_of_ne hij).2 (h hbefore hline))
      · exact absurd hat (hw.not_back hchanges hstarting)
    · exact hready

/-- **The right to start is handed over**, whatever happens. -/
theorem Reachable.isHandedOver (hw : Reachable w) : w.IsHandedOver := by
  induction hw with
  | new s =>
    intro j errand id hholder
    exact absurd hholder (by simp [Setting.world])
  | next hw t ih =>
    rcases t.sorts with hm | ⟨j, hj, rfl⟩
    · exact ih.mild hw.arises hm
    · exact ih.turn hw.arises hj

/-- Nobody waits for the right to start when no job has a turn coming and none is starting. -/
theorem Reachable.nobody_waits (hw : Reachable w) (hready : w.ready = [])
    (hnone : ∀ {j : JobId} {errand : Errand} {id : TaskId}, ¬ w.At j errand (.starting id)) :
    w.manager.guard = {} ∧
      ∀ {j : JobId} {errand : Errand} {id : TaskId}, ¬ w.At j errand (.inLine id) := by
  have hlined := hw.arises.isLined
  -- Whoever had the right would be starting, or would have a turn coming.
  have hfree : w.manager.guard.holder = none := by
    cases hholder : w.manager.guard.holder with
    | none => rfl
    | some j =>
      obtain ⟨errand, id, hline | hstarting⟩ := hlined.holding hholder
      · have hturn := hw.isHandedOver hholder hline
        rw [hready] at hturn
        exact absurd hturn List.not_mem_nil
      · exact absurd hstarting hnone
  have hguard : w.manager.guard = {} := by
    have hline := hlined.free hfree
    generalize w.manager.guard = g at *
    obtain ⟨holder, line⟩ := g
    obtain rfl : holder = none := hfree
    obtain rfl : line = [] := hline
    rfl
  refine ⟨hguard, ?_⟩
  intro j errand id hat
  have hstands := hlined.inLine hat
  rw [hguard] at hstands
  exact absurd hstands List.not_mem_nil

/-! ## Which numbers are given -/

theorem numbered_callObservers (kind : NoticeKind) (id : TaskId) (fact : String → Happening)
    (hfact : ∀ name, (fact name).origin = .telling ∧ (fact name).isVerdict = false)
    (observers : List (Nat × Observer)) (w : World) :
    (callObservers kind id fact observers w).1.seen Happening.numbered? =
      w.seen Happening.numbered? :=
  (callObservers_calls kind id fact hfact observers w).mild.numbered_eq (by simp)

/-- The end of an execution gives no number. -/
theorem numbered_conclude (w : World) (call : Call) (id : TaskId) (code : Option Int32)
    (outcome : Outcome) :
    (w.conclude call id code outcome).1.seen Happening.numbered? =
      w.seen Happening.numbered? := by
  refine (numbered_callObservers .finish id (fun name => .endNoticed name id call.command code)
    (fun _ => ⟨rfl, rfl⟩) _ _).trans ?_
  refine (seen_note_of_none _ rfl).trans ?_
  exact seen_note_of_none w (h := .ended id call.command code) rfl

theorem numbered_follow (w : World) (call : Call) (id : TaskId) (e : Execution) :
    (w.follow call id e).1.seen Happening.numbered? = w.seen Happening.numbered? := by
  unfold follow
  split
  · exact numbered_conclude (w.setBackend _) call id _ _
  · split
    · refine (numbered_conclude ((w.note (.terminating id)).setBackend _) call id _ _).trans ?_
      exact seen_note_of_none w (h := .terminating id) rfl
    · exact (mild_listen (O := []) (w.setTimer e.deadline call.job) _ _).numbered_eq (by simp)

theorem numbered_releaseGuard (w : World) :
    w.releaseGuard.seen Happening.numbered? = w.seen Happening.numbered? :=
  (lasts_releaseGuard (O := []) w).numbered_eq (by simp)

theorem numbered_launch (w : World) (call : Call) (id : TaskId) :
    (w.launch call id).1.seen Happening.numbered? = w.seen Happening.numbered? := by
  unfold launch
  split
  · next f hb =>
    refine (numbered_releaseGuard _).trans ?_
    exact seen_note_of_none w (h := .startFailed id call.command f) rfl
  · next b e hb =>
    -- Whatever the observers do, the start itself gave no number.
    have hstarted : (((w.setBackend b).note (.started id call.command)).setPosition call.job
        (.running id e)).releaseGuard.seen Happening.numbered? = w.seen Happening.numbered? := by
      refine (numbered_releaseGuard _).trans ?_
      exact seen_note_of_none (w.setBackend b) (h := .started id call.command) rfl
    have hannounced (w₁ : World) : (w₁.announceStart id call.command).1.seen Happening.numbered? =
        w₁.seen Happening.numbered? :=
      (numbered_callObservers .start id (fun name => .startNoticed name id call.command)
        (fun _ => ⟨rfl, rfl⟩) _ _).trans (seen_note_of_none w₁ rfl)
    dsimp only
    split
    · exact (hannounced _).trans hstarted
    · exact (numbered_follow _ _ _ _).trans ((hannounced _).trans hstarted)

theorem numbered_cancelBeforeStart (w : World) (call : Call) (id : TaskId) :
    (w.cancelBeforeStart call id).1.seen Happening.numbered? = w.seen Happening.numbered? :=
  seen_note_of_none w (h := .cancelledBeforeStart id) rfl

theorem numbered_begin (w : World) (call : Call) (id : TaskId) :
    (w.begin call id).1.seen Happening.numbered? = w.seen Happening.numbered? := by
  have hasked := seen_note_of_none w (f := Happening.numbered?)
    (h := .startAsked id call.command) rfl
  unfold begin
  split
  · exact (numbered_cancelBeforeStart _ _ _).trans (numbered_releaseGuard w)
  · dsimp only
    split
    · exact (numbered_launch _ _ _).trans hasked
    · exact hasked

/-- A call that is entered gets the next number, and nobody else gets one meanwhile. -/
theorem numbered_enter (w : World) (call : Call) (hd : w.manager.isDisposed = false) :
    (w.enter call).1.seen Happening.numbered? =
      w.seen Happening.numbered? ++ [(w.nextId, call.job)] := by
  have htaken : (w.takeNumber call.job).seen Happening.numbered? =
      w.seen Happening.numbered? ++ [(w.nextId, call.job)] := by
    rw [takeNumber, seen_note]
    rfl
  unfold enter
  rw [hd, if_neg Bool.false_ne_true]
  dsimp only
  split
  · exact (numbered_begin _ _ _).trans htaken
  · have hwaits := (seen_note_of_none (w.takeNumber call.job) (f := Happening.numbered?)
      (h := .waitsToStart w.nextId) rfl).trans htaken
    split
    · exact (numbered_cancelBeforeStart _ _ _).trans hwaits
    · exact ((mild_listen (O := []) _ _ _).numbered_eq (by simp)).trans hwaits

/-- What is asked, recorded and announced comes in the order of the task numbers. -/
theorem Arises.startsOneByOne (hw : Arises w) : w.StartsInTurn where
  alone hi hj := hw.isLined.starting_unique hi hj
  consecutive := hw.isNumbered.ids
  entered _ hd := numbered_enter w _ hd
  rejected _ hd := by
    unfold enter
    rw [if_pos hd]
    exact ⟨rfl, rfl⟩
  asked := hw.isLined.asked
  recorded := hw.isLined.asked.sublist hw.isLined.recorded
  announced := by
    rw [hw.isLined.announced]
    exact hw.isLined.asked.sublist hw.isLined.recorded

/-- **Starts come one at a time and in order**, in the middle of a turn as well as between two, and
nobody is left waiting for the right to start. -/
theorem Reachable.startsInTurn (hw : Reachable w) :
    (∀ w', Changes w w' → w'.StartsInTurn) ∧
    (w.ready = [] →
      (∀ {j : JobId} {errand : Errand} {id : TaskId}, ¬ w.At j errand (.starting id)) →
      w.manager.guard = {} ∧
        ∀ {j : JobId} {errand : Errand} {id : TaskId}, ¬ w.At j errand (.inLine id)) :=
  ⟨fun _ hc => (hw.arises.changes hc).startsOneByOne, hw.nobody_waits⟩

/-- Two commands are executed past all queues.  The second one waits for the right to start while
the first one is starting, and takes its time to start itself. -/
def startedInTurn : World :=
  let command : Command := ⟨"p", ["a"], none, .empty, none⟩
  let w := (({ startDelay := 10 } : Setting).world.step (.act (.execute "x" command none))).1
  let w := (w.step (.act (.execute "y" command none))).1
  let w := ((w.takeTurn 0).takeTurn 1).fire ⟨10, 0⟩
  (((w.takeTurn 0).takeTurn 1).fire ⟨20, 1⟩).takeTurn 1

theorem reachable_startedInTurn : Reachable startedInTurn := by
  have hfirst := (Reachable.new { startDelay := 10 }).next
    (.act (.act (.execute "x" ⟨"p", ["a"], none, .empty, none⟩ none)) rfl)
  have hsecond := hfirst.next (.act (.act (.execute "y" ⟨"p", ["a"], none, .empty, none⟩ none)) rfl)
  have hwaits := (hsecond.next (.turn 0 (by decide))).next (.turn 1 (by decide))
  have hfired := hwaits.next (.fire ⟨10, 0⟩ (by decide))
  have hstarting := (hfired.next (.turn 0 (by decide))).next (.turn 1 (by decide))
  exact (hstarting.next (.fire ⟨20, 1⟩ (by decide))).next (.turn 1 (by decide))

/-- When both commands have come to their end, the right to start is free. -/
theorem startsInTurn_two_commands : startedInTurn.StartsInTurn ∧
    startedInTurn.seen Happening.startAsked? = [⟨1⟩, ⟨2⟩] ∧ startedInTurn.manager.guard = {} := by
  have hdone : ∀ job ∈ startedInTurn.jobs, job.position = .done := by decide
  have hnone {j : JobId} {errand : Errand} {id : TaskId} :
      ¬ startedInTurn.At j errand (.starting id) := by
    rintro ⟨given, hj⟩
    exact absurd (hdone _ (List.mem_of_getElem? hj)) (by simp)
  obtain ⟨hturns, hfree⟩ := reachable_startedInTurn.startsInTurn
  exact ⟨hturns _ .refl, by decide, (hfree (by decide) hnone).1⟩

end Handover

end FolderTasks.Dispatch.World
