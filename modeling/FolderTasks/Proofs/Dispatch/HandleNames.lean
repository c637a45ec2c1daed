import FolderTasks.Proofs.Dispatch.TurnChanges
/-!
# Handles last

A handle is kept under the name that was given with its request, and whatever else happens it stays
the handle of the same entry.  A name stands for the latest handle that was kept under it.

## Main definitions

* `World.Event`: what goes on, one thing after another.

## Main statements

* `World.Event.handles`: handles are only ever added.
* `World.Transition.events`: a transition is made of events.
* `World.handleNamed?_of_split`: the latest handle of a name is found.

## Design notes

The elementary changes leave open what the names stand for, so here a run is followed by the actions
that callbacks do, and not by the deeds that these are made of.
-/

namespace FolderTasks.Dispatch.World

/-- **What goes on, one thing after another**: what the user does, what callbacks do, and what
turns and waiting are made of. -/
inductive Event : World → World → Prop where
  | work {w w' : World} (h : Work w w') : Event w w'
  | drift {w w' : World} (h : Drift w w') : Event w w'
  | stepped {w : World} (s : Step) (h : s.isInstant) : Event w (w.step s).1
  /-- A callback does an action. -/
  | performed {w : World} (a : Action) : Event w (w.perform a).1
  /-- The reply to it is written down. -/
  | answered {w : World} (site : CallbackSite) (reply : Reply) :
      Event w (w.note (.hookAnswered site reply))

/-- Any number of events. -/
abbrev Events : World → World → Prop := Relation.ReflTransGen Event

theorem Event.changes {w w' : World} (h : Event w w') : Changes w w' := by
  cases h with
  | work h => exact h.changes
  | drift h => exact h.changes
  | stepped s h => exact instant_changes w h
  | performed a => exact (perform_deeds w a).changes
  | answered site reply => exact .single (.deed (.answered site reply))

theorem Events.changes {w w' : World} (h : Events w w') : Changes w w' := by
  induction h with
  | refl => exact .refl
  | tail _ he ih => exact ih.trans he.changes

/-- **A transition is made of events.** -/
theorem Transition.events {w w' : World} (t : Transition w w') : Events w w' := by
  cases t with
  | act s h => exact .single (.stepped s h)
  | turn j h =>
    have hworks := takeTurn_works h
    generalize w.takeTurn j = w' at hworks
    induction hworks with
    | refl => exact .refl
    | tail _ hw ih => exact ih.tail (.work hw)
  | fire t h => exact .single (.drift (.fired t h))
  | pass moment h => exact .single (.drift (.passed moment h))
  | sit e => exact .single (.drift (.sat e))
  | leave e entry seat he h => exact .single (.drift (.seatLeft e entry seat he h))
  | receive e o h => exact .single (.drift (.received e o h))

/-! ## What leaves names alone -/

section Names

variable (w : World)

theorem names_wakeAll (js : List JobId) : (w.wakeAll js).names = w.names := by
  obtain ⟨ready, h⟩ := wakeAll_eq js w
  rw [h]

theorem names_releaseGuard : w.releaseGuard.names = w.names := by
  obtain ⟨ready, h⟩ := releaseGuard_eq w
  rw [h]

theorem names_listen (token : Option String) (j : JobId) :
    (w.listen token j).names = w.names := by
  obtain ⟨tokens, h⟩ := listen_eq w token j
  rw [h]

theorem names_unlisten (token : Option String) (j : JobId) :
    (w.unlisten token j).names = w.names := by
  obtain ⟨tokens, h⟩ := unlisten_eq w token j
  rw [h]

theorem names_cancel (name : String) : (w.cancel name).names = w.names := by
  obtain ⟨tokens, ready, h⟩ := cancel_eq w name
  rw [h]

theorem names_dropExecution (call : Call) : (w.dropExecution call).names = w.names := by
  obtain ⟨tokens, timers, ready, g, h⟩ := dropExecution_eq w call
  rw [h]

theorem names_disposeManager : w.disposeManager.names = w.names := by
  obtain ⟨history, manager, h, -⟩ := disposeManager_eq w
  rw [h]

theorem names_dispatch (q : QueueId) : (w.dispatch q).names = w.names := by
  rcases dispatch_eq w q with h | ⟨queue, e, rest, -, -, -, h⟩ <;> rw [h]

theorem names_request (q : QueueId) (op : Operation) (token : Option String) :
    (w.request q op token).1.names = w.names := by
  rcases request_eq w q op token with h | ⟨queue, e, -, -, h⟩ | ⟨queue, -, -, h⟩
  · rw [h]
  · rw [h]
    rfl
  · rw [h, names_dispatch]
    rfl

theorem names_takeSeat (e : EntryId) (who : Waiter) :
    (w.takeSeat e who).1.names = w.names := by
  unfold takeSeat
  split <;> rfl

theorem names_deliver (e : EntryId) (o : Outcome) : (w.deliver e o).names = w.names := by
  unfold deliver
  split
  · rfl
  · exact names_wakeAll _ _

theorem names_resolve (e : EntryId) (o : Outcome) : (w.resolve e o).names = w.names := by
  unfold resolve
  split
  · rfl
  · exact (names_deliver _ e o).trans (names_dispatch _ _)

theorem names_receive? {w w' : World} {e : EntryId} {o : Outcome}
    (h : w.receive? e = some (w', o)) : w'.names = w.names := by
  unfold receive? at h
  split at h
  · obtain ⟨rfl, -⟩ := Prod.mk.inj (Option.some.inj h)
    rfl
  · exact absurd h (by simp)

theorem names_discard (j : JobId) (job : Job) : (w.discard j job).names = w.names := by
  unfold discard
  dsimp only
  split
  · exact names_dropExecution w _
  · unfold discardReset
    split
    · rfl
    · dsimp only
      split <;> rfl
  · rfl

end Names

section Lasting

variable {w w' : World}

theorem Telling.names (h : Telling w w') : w'.names = w.names := by
  cases h <;> rfl

theorem Stride.names (h : Stride w w') : w'.names = w.names := by
  cases h with
  | lineJoined | endAwaited => exact names_listen _ _ _
  | unlistened j token => exact names_unlisten w token j
  | guardReturned | refused | started => exact names_releaseGuard _
  | _ => rfl

theorem Closing.names (h : Closing w w') : w'.names = w.names := by
  cases h with
  | closed o => exact names_resolve w _ o
  | executionEnded | resetRefused | resetForgotten => rfl
  | seatTaken e => exact names_takeSeat w e _
  | discarded => exact names_discard w _ _
  | resetAsked q => exact (names_takeSeat _ _ _).trans (names_request (w.withhold q true) q _ _)
  | @resetConcluded w₁ j name folder token e seat entry o hat he hr =>
    exact (names_receive? hr : w₁.names = w.names)
  | watchEnded o hat hp hr =>
    refine Eq.trans ?_ (names_receive? hr)
    split <;> rfl
  | @reopened w₁ j q e p o hat hp hr => exact (names_receive? hr : w₁.names = w.names)

theorem Drift.names (h : Drift w w') : w'.names = w.names := by
  cases h with
  | turnTaken | turnSet | passed | folderListed | foldersUnlisted | folderTold | seatLeft => rfl
  | fired t ht =>
    obtain ⟨timers, ready, heq⟩ := fire_eq w t
    rw [heq]
  | sat e => exact names_takeSeat w e .outside
  | received e o hr => exact names_receive? hr

/-! ## Handles -/

theorem handles_requestNamed (w : World) (q : QueueId) (op : Operation) (token : Option String)
    (name : String) : (w.requestNamed q op token name).1.names.handles =
      w.names.handles ++ [(name, (w.request q op token).2)] := by
  rw [requestNamed, ← names_request w q op token]

/-- An action keeps at most one handle more. -/
theorem handles_perform (w : World) (a : Action) :
    w.names.handles <+: (w.perform a).1.names.handles := by
  have hof {w' : World} (h : w'.names = w.names) : w.names.handles <+: w'.names.handles := by
    rw [h]
  cases a with
  | script args s startDelay => cases startDelay <;> exact List.prefix_rfl
  | makeQueue | execute | reset => exact List.prefix_rfl
  | request queue op token handle =>
    simp only [perform, withQueue]
    split
    · rw [handles_requestNamed]
      exact List.prefix_append _ _
    · exact List.prefix_rfl
  | cancel token => exact hof (names_cancel w token)
  | withhold queue value =>
    simp only [perform, withQueue]
    split <;> exact List.prefix_rfl
  | peek handle | watch handle =>
    simp only [perform, withHandle]
    split <;> exact List.prefix_rfl
  | describe | compare =>
    simp only [perform, withHandle]
    split
    · split <;> exact List.prefix_rfl
    · exact List.prefix_rfl
  | observe name kind hooks =>
    simp only [perform, observe]
    cases kind <;> split <;> exact List.prefix_rfl
  | unobserve name =>
    simp only [perform]
    split <;> exact List.prefix_rfl
  | countObservers | inspectManager | listRecords | undecodable | unknown => exact List.prefix_rfl
  | disposeManager => exact hof (names_disposeManager w)
  | abandon name =>
    simp only [perform]
    split
    · exact List.prefix_rfl
    · rw [abandonJob_names]

theorem handles_step (w : World) {s : Step} (h : s.isInstant) :
    w.names.handles <+: (w.step s).1.names.handles := by
  cases s with
  | act a => exact handles_perform w a
  | settle | advance | await => exact Bool.noConfusion h
  | addFolder folder =>
    simp only [step, addFolder]
    split <;> exact List.prefix_rfl
  | removeFolder folder =>
    simp only [step, removeFolder]
    split <;> exact List.prefix_rfl
  | folders | toolchain => exact List.prefix_rfl
  | find folder =>
    simp only [step]
    split <;> exact List.prefix_rfl
  | run folder action token handle =>
    simp only [step]
    split
    · rw [handles_requestNamed]
      exact List.prefix_append _ _
    · exact List.prefix_rfl
  | tasks folder products =>
    simp only [step]
    split <;> exact List.prefix_rfl
  | dispose =>
    simp only [step, dispose]
    rw [names_disposeManager]

/-- **Handles are only ever added.** -/
theorem Event.handles (h : Event w w') : w.names.handles <+: w'.names.handles := by
  have hof {w' : World} (h : w'.names = w.names) : w.names.handles <+: w'.names.handles := by
    rw [h]
  cases h with
  | work h =>
    cases h with
    | turnTaken | turnSet => exact List.prefix_rfl
    | answered site a => exact handles_perform w a
    | telling h => exact hof h.names
    | stride h => exact hof h.names
    | closing h => exact hof h.names
  | drift h => exact hof h.names
  | stepped s h => exact handles_step w h
  | performed a => exact handles_perform w a
  | answered => exact List.prefix_rfl

theorem Events.handles (h : Events w w') : w.names.handles <+: w'.names.handles := by
  induction h with
  | refl => exact List.prefix_rfl
  | tail _ he ih => exact ih.trans he.handles

/-- **The latest handle of a name is found**, whatever other names were given since. -/
theorem handleNamed?_of_split {older newer : List (String × EntryId)} {name : String} {e : EntryId}
    (h : w.names.handles = older ++ (name, e) :: newer) (hnew : ∀ p ∈ newer, p.1 ≠ name) :
    w.handleNamed? name = some e := by
  rw [handleNamed?, h, List.lookup_eq_some_iff]
  refine ⟨newer.reverse, older.reverse, by simp, fun p hp => ?_⟩
  rw [List.mem_reverse] at hp
  exact bne_iff_ne.2 (Ne.symm (hnew p hp))

end Lasting

end FolderTasks.Dispatch.World
