import FolderTasks.Proofs.Dispatch.OutcomeLaw
/-!
# After the task manager is disposed of

A task manager that is disposed of turns every new call down.  The calls that were let in before are
not touched: one that waits for the right to start gets it in its turn, and has the backend start
its command, although the task manager is disposed of by then.

## Main definitions

* `World.MayStart`: a call waits for the right to start a task, and is not cancelled.
* `World.AdmitsNobody`: nothing but such calls has led to a start since a moment.

## Main statements

* `World.Arises.admitsNobody`: nothing else leads to a start once the task manager is disposed of.
* `World.not_idle_of_disposing`: but such calls do.

## Design notes

A call passes the gate when it is entered, and the gate is not looked at again when the right to
start is passed on to it, as its token is.  So the starts that are still to come are bounded by the
calls that wait when the gate closes.
-/

namespace FolderTasks.Dispatch.World

/-- A call waits for the right to start a task, or has just been given it, and is not cancelled. -/
def MayStart (w : World) (id : TaskId) : Prop :=
  ∃ call, w.CallAt call (.inLine id) ∧ w.isCancelled call.token = false

/-- **Nobody is admitted since a moment**: whatever is started since then was waiting for the right
to start. -/
structure AdmitsNobody (w w' : World) : Prop where
  /-- No call got a number. -/
  numbered : w'.account.numbered = w.account.numbered
  /-- Starts begin for calls that were waiting and not cancelled, once for each. -/
  asked : ∃ ids, w'.account.asked = w.account.asked ++ ids ∧ ids.Nodup ∧ ∀ id ∈ ids, w.MayStart id
  /-- When no such call was waiting, no start begins. -/
  idle : (∀ id, ¬ w.MayStart id) → w'.account.asked = w.account.asked

section Disposed

variable {w w' : World} {id : TaskId}

/-- Where the gate is closed, nobody comes to wait for the right to start. -/
theorem Arises.mayStart_back (hw : Arises w) (hd : w.manager.isDisposed) (hc : Change w w')
    (h : w'.MayStart id) : w.MayStart id := by
  obtain ⟨call, ⟨errand, hat, hcall⟩, hopen⟩ := h
  have hlasts := hw.lasts hc
  have hat₀ : w.At call.job errand (.inLine id) := by
    have hmoves {call' : Call} {p p' : Position} (hm : Moves w w' call' p p')
        (hp' : p' ≠ .inLine id) : w.At call.job errand (.inLine id) := by
      rcases hm.back hat with ⟨-, heq, -⟩ | ⟨-, hat₀⟩
      · exact absurd heq.symm hp'
      · exact hat₀
    cases hw.stage hc with
    | quiet hq =>
      rcases hq.at_back hat with hfresh | ⟨p, hat₀, rfl | hidle⟩
      · exact absurd hfresh (by simp)
      · exact hat₀
      · exact absurd hidle (by simp [Position.isIdle])
    | numbered hm ha hp' hgate =>
      rw [hd] at hgate
      exact absurd hgate (by simp)
    | dropped hm | asked hm | started hm | ended hm => exact hmoves hm (by simp)
  refine ⟨call, ⟨errand, hat₀, hat₀.callOf?_back hw.isOrderly hlasts hcall⟩, ?_⟩
  -- A token that is not cancelled now was not cancelled before.
  exact Bool.eq_false_iff.2 fun hcancelled => by
    rw [hlasts.cancelled call.token hcancelled] at hopen
    exact absurd hopen (by simp)

/-- A start begins for a call that may start. -/
theorem Arises.asked_of_change (hw : Arises w) (hc : Change w w') :
    w'.account.asked = w.account.asked ∨
      ∃ id, w'.account.asked = w.account.asked ++ [id] ∧ w.MayStart id := by
  cases hw.stage hc with
  | quiet hq => exact .inl (by rw [hq.account])
  | dropped hm ha => exact .inl (by rw [ha])
  | numbered hm ha | started hm ha | ended hm ha => exact .inl (by rw [ha]; rfl)
  | @asked call id hm ha hhistory =>
    refine .inr ⟨id, by rw [ha]; rfl, ?_⟩
    have hnew : .startAsked id call.command ∉ w.annals id := by
      intro hx
      obtain ⟨t, ht⟩ := (mem_annals rfl).1 hx
      have hasked : id ∈ w.account.asked := mem_seen.2 ⟨_, ht, rfl⟩
      have hnodup := (hw.change hc).isNumbered.askedOnce
      rw [ha] at hnodup
      exact (List.nodup_append.1 hnodup).2.2 id hasked id List.mem_cons_self rfl
    have hmem : .startAsked id call.command ∈ w'.annals id :=
      (mem_annals rfl).2 ⟨w.clock, hhistory ▸ List.mem_cons_self⟩
    generalize hx : Happening.startAsked id call.command = x at hnew hmem
    cases hw.cause hc (by rw [← hx]; rfl) hnew hmem with
    | asked hcall hopen =>
      obtain ⟨rfl, -⟩ := Happening.startAsked.inj hx
      exact ⟨_, hcall, hopen⟩
    | skipped | terminating | completed | terminated => exact absurd hx (by simp)

/-- Where the gate is closed, starts begin for those that were waiting already. -/
theorem Arises.asked_of_disposed (hw : Arises w) (hd : w.manager.isDisposed) (hc : Changes w w') :
    (∃ ids, w'.account.asked = w.account.asked ++ ids ∧ ∀ id ∈ ids, w.MayStart id) ∧
      ∀ id, w'.MayStart id → w.MayStart id := by
  induction hc with
  | refl => exact ⟨⟨[], (List.append_nil _).symm, by simp⟩, fun _ h => h⟩
  | @tail w₁ w₂ hc hlast ih =>
    obtain ⟨⟨ids, hids, hwaited⟩, hback⟩ := ih
    have hw₁ := hw.changes hc
    have hd₁ := (hw.lasts_changes hc).disposed hd
    refine ⟨?_, fun id h => hback id (hw₁.mayStart_back hd₁ hlast h)⟩
    rcases hw₁.asked_of_change hlast with hkept | ⟨id, hasked, hmay⟩
    · exact ⟨ids, hkept.trans hids, hwaited⟩
    · refine ⟨ids ++ [id], by rw [hasked, hids, List.append_assoc], ?_⟩
      intro id' hid'
      rcases List.mem_append.1 hid' with hold | hnew
      · exact hwaited id' hold
      · exact hback id' (List.mem_singleton.1 hnew ▸ hmay)

/-- That the task manager is disposed of gets nothing started. -/
theorem account_disposeManager (w : World) : w.disposeManager.account = w.account := by
  obtain ⟨history, manager, heq, hhistory, hlast, -, -⟩ := disposeManager_eq w
  rw [heq]
  rcases hhistory with rfl | rfl
  · rw [account, hlast]
    rfl
  · rw [account, hlast]
    rfl

/-- **Once the task manager is disposed of, nothing is started but for calls that waited for the
right to start**, whenever that was and whatever happens then. -/
theorem Arises.admitsNobody (hw : Arises w) (hc : Changes w.disposeManager w') :
    w.AdmitsNobody w' := by
  have hchange : Change w w.disposeManager := .deed .disposed
  have hw₁ := hw.change hchange
  obtain ⟨history, manager, heq, -, -, -, hd⟩ := disposeManager_eq w
  have hdisposed : w.disposeManager.manager.isDisposed := by rw [heq]; exact hd
  have hmay {id : TaskId} (h : w.disposeManager.MayStart id) : w.MayStart id := by
    rw [heq] at h
    exact h
  obtain ⟨⟨ids, hids, hwaited⟩, -⟩ := hw₁.asked_of_disposed hdisposed hc
  rw [account_disposeManager] at hids
  refine ⟨?_, ⟨ids, hids, ?_, fun id hid => hmay (hwaited id hid)⟩, fun hnone => ?_⟩
  · rw [hw₁.numbered_of_disposed hc hdisposed, account_disposeManager]
  · have hnodup := (hw₁.changes hc).isNumbered.askedOnce
    rw [hids] at hnodup
    exact (List.nodup_append.1 hnodup).2.1
  · cases ids with
    | nil => exact hids.trans (List.append_nil _)
    | cons id rest => exact absurd (hmay (hwaited id List.mem_cons_self)) (hnone id)

end Disposed

/-! ## A start that comes late -/

/-- Two commands that take their time to start: one is starting, and the other waits. -/
def startingTwice : World :=
  let w := (({ startDelay := 10 } : Setting).world.step
    (.act (.execute "a" ⟨"p", ["a"], none, .empty, none⟩ none))).1
  let w := (w.step (.act (.execute "b" ⟨"p", ["b"], none, .empty, none⟩ none))).1
  (w.takeTurn 0).takeTurn 1

theorem reachable_startingTwice : Reachable startingTwice := by
  refine Reachable.next (.next (.next (.next (.new _) (.act _ rfl)) (.act _ rfl))
    (.turn 0 ?_)) (.turn 1 ?_)
  · decide
  · decide

/-- Both are started after the task manager was disposed of while the second was waiting. -/
def startedLate : World :=
  let w := ((fire { startingTwice.disposeManager with clock := 10 } ⟨10, 0⟩).takeTurn 0).takeTurn 1
  (fire { w with clock := 20 } ⟨20, 1⟩).takeTurn 1

theorem transitions_startedLate :
    Relation.ReflTransGen Transition startingTwice.disposeManager startedLate := by
  have hfirst := ((Relation.ReflTransGen.single
    (Transition.pass (w := startingTwice.disposeManager) 10 (by decide))).tail
    (.fire ⟨10, 0⟩ (by decide))).tail (.turn 0 (by decide))
  have hsecond := (hfirst.tail (.turn 1 (by decide))).tail (.pass 20 (by decide))
  exact (hsecond.tail (.fire ⟨20, 1⟩ (by decide))).tail (.turn 1 (by decide))

theorem changes_startedLate : Changes startingTwice.disposeManager startedLate := by
  have h := transitions_startedLate
  generalize startedLate = w at h
  induction h with
  | refl => exact .refl
  | tail _ t ih => exact ih.trans t.changes

/-- Nothing but the command that was waiting is started. -/
theorem admitsNobody_startedLate :
    Arises startingTwice ∧ Changes startingTwice.disposeManager startedLate ∧
      startingTwice.account.asked = [⟨1⟩] ∧ startedLate.account.asked = [⟨1⟩, ⟨2⟩] ∧
      startingTwice.AdmitsNobody startedLate :=
  ⟨reachable_startingTwice.arises, changes_startedLate, by decide, by decide,
    reachable_startingTwice.arises.admitsNobody changes_startedLate⟩

/-- **It is started although the task manager is disposed of.** -/
theorem not_idle_of_disposing : ∃ w w' : World,
    Reachable w ∧ Relation.ReflTransGen Transition w.disposeManager w' ∧
      w'.account.asked ≠ w.account.asked ∧
      w'.backend.records.map Record.args = [["a"], ["b"]] := by
  refine ⟨startingTwice, startedLate, reachable_startingTwice, transitions_startedLate, ?_, ?_⟩
  · decide
  · decide

end FolderTasks.Dispatch.World
