import FolderTasks.Proofs.Dispatch.LastingFacts
/-!
# Queues keep their names

A queue is made with a name, and nothing changes the name afterwards; so what is reported with the
name of a queue can be told by the queue at any later time.

## Main definitions

* `World.titles`: the names of the queues.

## Main statements

* `World.Change.titles`: an elementary change keeps the names, and may add one at the end.
* `World.queueName_of_changes`: queues keep their names.
-/

namespace FolderTasks.Dispatch.World

/-- The names of the queues. -/
def titles (w : World) : List String := w.queues.map Queue.name

section Titles

variable {w w' : World} {q : QueueId}

theorem titles_modifyQueue (w : World) (q : QueueId) {f : Queue → Queue}
    (hf : ∀ queue, (f queue).name = queue.name) : (w.modifyQueue q f).titles = w.titles := by
  have htitles := map_modify (g := Queue.name) (k := id) hf w.queues q
  rwa [List.modify_id] at htitles

theorem titles_withhold (w : World) (q : QueueId) (value : Bool) :
    (w.withhold q value).titles = w.titles := titles_modifyQueue w q fun _ => rfl

theorem titles_dispatch (w : World) (q : QueueId) : (w.dispatch q).titles = w.titles := by
  rcases dispatch_eq w q with heq | ⟨queue, e, rest, -, -, -, heq⟩ <;> rw [heq]
  exact titles_modifyQueue w q fun _ => rfl

theorem titles_request (w : World) (q : QueueId) (op : Operation) (token : Option String) :
    (w.request q op token).1.titles = w.titles := by
  rcases request_eq w q op token with heq | ⟨queue, e, -, -, heq⟩ | ⟨queue, -, -, heq⟩ <;> rw [heq]
  · rfl
  · exact (titles_dispatch _ q).trans (titles_modifyQueue w q fun _ => rfl)

theorem titles_deliver (w : World) (e : EntryId) (o : Outcome) :
    (w.deliver e o).titles = w.titles := by
  rcases deliver_eq w e o with heq | ⟨ready, heq⟩
  · rw [heq]
  · rw [heq]
    rfl

theorem titles_resolve (w : World) (e : EntryId) (o : Outcome) :
    (w.resolve e o).titles = w.titles := by
  unfold resolve
  split
  · rfl
  · refine (titles_deliver _ e o).trans ((titles_dispatch _ _).trans ?_)
    exact titles_modifyQueue w _ fun _ => rfl

theorem titles_takeSeat (w : World) (e : EntryId) (who : Waiter) :
    (w.takeSeat e who).1.titles = w.titles := by
  unfold takeSeat
  split <;> rfl

theorem titles_receive? {e : EntryId} {o : Outcome} (hr : w.receive? e = some (w', o)) :
    w'.titles = w.titles := by
  unfold receive? at hr
  split at hr
  · obtain ⟨rfl, -⟩ := Prod.mk.inj (Option.some.inj hr)
    rfl
  · exact absurd hr (by simp)

theorem titles_discard (w : World) (j : JobId) (job : Job) :
    (w.discard j job).titles = w.titles := by
  unfold discard
  dsimp only
  split
  · next name command token _ =>
    obtain ⟨tokens, timers, ready, g, heq⟩ := dropExecution_eq w ⟨j, command, token⟩
    rw [heq]
    rfl
  · next e seat _ _ =>
    unfold discardReset
    split
    · rfl
    · dsimp only
      split
      · exact titles_withhold (w.leaveSeat e seat) _ false
      · rfl
  · rfl

theorem Deed.titles (hd : Deed w w') : w.titles <+: w'.titles := by
  cases hd with
  | scripted | named | observed | answered | watched | begun => exact List.prefix_rfl
  | queueMade name isRecorded =>
    change _ <+: (w.queues ++ [_]).map Queue.name
    rw [List.map_append]
    exact List.prefix_append _ _
  | requested q op token => rw [titles_request]
  | cancelled name =>
    obtain ⟨tokens, ready, heq⟩ := cancel_eq w name
    rw [heq]
    exact List.prefix_rfl
  | withheld q value =>
    change _ <+: (w.withhold q value).titles
    rw [titles_withhold]
  | disposed =>
    obtain ⟨history, manager, heq, -⟩ := disposeManager_eq w
    rw [heq]
    exact List.prefix_rfl
  | abandoned name j =>
    rcases abandonJob_eq w j with heq | ⟨ready, heq⟩ <;> rw [heq]
    exact List.prefix_rfl

theorem Drift.titles (hd : Drift w w') : w'.titles = w.titles := by
  cases hd with
  | turnTaken | turnSet | passed | folderListed | foldersUnlisted | folderTold | seatLeft => rfl
  | fired t =>
    obtain ⟨timers, ready, heq⟩ := fire_eq w t
    rw [heq]
    rfl
  | sat e => exact titles_takeSeat w e _
  | received e o hr => exact titles_receive? hr

theorem titles_releaseGuard (w : World) : w.releaseGuard.titles = w.titles := by
  obtain ⟨ready, heq⟩ := releaseGuard_eq w
  rw [heq]
  rfl

theorem titles_listen (w : World) (token : Option String) (j : JobId) :
    (w.listen token j).titles = w.titles := by
  obtain ⟨tokens, heq⟩ := listen_eq w token j
  rw [heq]
  rfl

theorem titles_unlisten (w : World) (token : Option String) (j : JobId) :
    (w.unlisten token j).titles = w.titles := by
  obtain ⟨tokens, heq⟩ := unlisten_eq w token j
  rw [heq]
  rfl

theorem Stride.titles (hs : Stride w w') : w'.titles = w.titles := by
  cases hs with
  | rejected | guardTaken | turnedAway | timerCleared | lineLeft | startAsked | startDelayed
  | forsaken | completed | terminated => rfl
  | lineJoined | endAwaited => exact titles_listen _ _ _
  | unlistened j token => exact titles_unlisten w token j
  | guardReturned => exact titles_releaseGuard w
  | refused | started => exact titles_releaseGuard _

theorem Closing.titles (hc : Closing w w') : w'.titles = w.titles := by
  cases hc with
  | closed o => exact titles_resolve w _ o
  | executionEnded | resetRefused | resetForgotten => rfl
  | resetAsked q =>
    refine (titles_takeSeat _ _ _).trans ?_
    exact (titles_request (w.withhold q true) q _ _).trans (titles_withhold w q true)
  | seatTaken e => exact titles_takeSeat w e _
  | @resetConcluded w₁ j name folder token e seat entry o hat he hr =>
    exact (titles_withhold (w₁.note (.packageReset folder o)) entry.queue false).trans
      (titles_receive? hr : w₁.titles = w.titles)
  | watchEnded o hat hp hr =>
    refine Eq.trans ?_ (titles_receive? hr)
    split <;> rfl
  | @reopened w₁ j q e p o hat hp hr =>
    exact (titles_withhold w₁ q false).trans (titles_receive? hr)
  | @discarded j job => exact titles_discard w j job

/-- Queues keep their names. -/
theorem Change.titles (hc : Change w w') : w.titles <+: w'.titles := by
  cases hc with
  | deed hd => exact hd.titles
  | drift hd => rw [hd.titles]
  | telling ht => cases ht <;> exact List.prefix_rfl
  | stride hs => rw [hs.titles]
  | closing hc => rw [hc.titles]

/-- **Queues keep their names.** -/
theorem queueName_of_changes (hc : Changes w w') (hq : q < w.queues.length) :
    w'.queueName q = w.queueName q := by
  have htitle (v : World) : v.queueName q = (v.titles[q]?).getD "" := by
    rw [queueName, titles, List.getElem?_map]
    cases v.queues[q]? <;> rfl
  have hprefix : w.titles <+: w'.titles := by
    induction hc with
    | refl => exact List.prefix_rfl
    | tail _ hlast ih => exact ih.trans hlast.titles
  obtain ⟨more, hmore⟩ := hprefix
  have hlt : q < w.titles.length := by rwa [titles, List.length_map]
  rw [htitle w', htitle w, ← hmore, List.getElem?_append_left hlt]

end Titles

end FolderTasks.Dispatch.World
