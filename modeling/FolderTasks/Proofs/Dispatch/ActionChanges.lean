import FolderTasks.Proofs.Dispatch.OperationShapes
import Mathlib.Data.List.Infix
/-!
# Actions are made of deeds

An action makes only the changes of `World.Deed`, whatever it is and whoever does it.  These leave
every job at its position and every entry's command as it was, so a turn goes on after a callback
where it was interrupted.

## Main statements

* `World.perform_deeds`: an action is made of deeds.
* `World.Deeds.at`, `World.Deeds.servesAt`: deeds leave a job where it is.
-/

namespace FolderTasks.Dispatch.World

/-! ## Actions -/

theorem requestNamed_deeds (w : World) (q : QueueId) (op : Operation) (token : Option String)
    (name : String) : Deeds w (w.requestNamed q op token name).1 :=
  .trans (.single (.requested q op token)) (.single (.named _ fun _ h => h))

theorem withQueue_deeds {w : World} {f : QueueId → World × Reply} (key : String)
    (h : ∀ q, Deeds w (f q).1) : Deeds w (w.withQueue key f).1 := by
  unfold withQueue
  split
  · exact h _
  · exact .refl

theorem withHandle_deeds {w : World} {f : EntryId → World × Reply} (name : String)
    (h : ∀ e, Deeds w (f e).1) : Deeds w (w.withHandle name f).1 := by
  unfold withHandle
  split
  · exact h _
  · exact .refl

theorem releaseObserver_deeds (w : World) (kind : NoticeKind) (number : Nat) :
    Deeds w (w.releaseObserver kind number) := by
  cases kind <;> exact .single (.observed _ _)

theorem subscribe_deeds (w : World) (kind : NoticeKind) (o : Observer) :
    Deeds w (w.subscribe kind o).1 := by
  cases kind <;> exact .single (.observed _ _)

theorem forgetObserver_deeds (w : World) (name : String) : Deeds w (w.forgetObserver name) :=
  .single (.named _ fun _ h => h)

theorem observe_deeds (w : World) (name : String) (kind : NoticeKind) (hooks : List Hook) :
    Deeds w (w.observe name kind hooks) := by
  have hkept : Deeds w (((w.subscribe kind ⟨name, hooks⟩).1).forgetObserver name) :=
    (subscribe_deeds w kind _).trans (forgetObserver_deeds _ name)
  unfold observe
  dsimp only
  split
  · exact hkept.tail (.named _ fun _ h => h)
  · refine .trans ?_ (releaseObserver_deeds _ _ _)
    exact hkept.tail (.named _ fun _ h => h)

/-- Giving up a job and forgetting its name can be done in either order. -/
theorem abandonJob_names (w : World) (names : Directory) (j : JobId) :
    (({ w with names } : World).abandonJob j).1 = { (w.abandonJob j).1 with names } := by
  have hposition : ({ w with names } : World).position j = w.position j := rfl
  unfold abandonJob
  rw [hposition]
  by_cases hdone : w.position j = .done
  · rw [if_pos hdone, if_pos hdone]
  · rw [if_neg hdone, if_neg hdone]
    by_cases hcurrent : w.current = some j
    · simp [modifyJob, hcurrent]
    · by_cases hready : j ∈ w.ready <;> simp [modifyJob, wake, hcurrent, hready]

/-- **An action is made of deeds.** -/
theorem perform_deeds (w : World) (a : Action) : Deeds w (w.perform a).1 := by
  cases a with
  | script args s startDelay =>
    cases startDelay with
    | none => exact .single (.scripted _ w.startDelays)
    | some d => exact .single (.scripted _ _)
  | makeQueue key name =>
    exact .trans (.single (.queueMade name true)) (.single (.named _ fun _ h => h))
  | request queue op token handle =>
    exact withQueue_deeds queue fun q => requestNamed_deeds w q op token handle
  | cancel token => exact .single (.cancelled token)
  | withhold queue value => exact withQueue_deeds queue fun q => .single (.withheld q value)
  | peek handle => exact withHandle_deeds handle fun _ => .refl
  | describe handle =>
    refine withHandle_deeds handle fun e => ?_
    split <;> exact .refl
  | compare a b => exact withHandle_deeds a fun e => withHandle_deeds b fun e' => .refl
  | watch handle => exact withHandle_deeds handle fun e => .single (.watched handle e)
  | observe name kind hooks => exact observe_deeds w name kind hooks
  | unobserve name =>
    simp only [perform]
    split
    · exact .refl
    · exact (forgetObserver_deeds w name).trans (releaseObserver_deeds _ _ _)
  | countObservers => exact .refl
  | disposeManager => exact .single .disposed
  | inspectManager => exact .refl
  | listRecords => exact .refl
  | execute name command token => exact .single (.begun name (.execution name command token) rfl)
  | reset name folder token => exact .single (.begun name (.reset name folder token) rfl)
  | abandon name =>
    simp only [perform]
    split
    · exact .refl
    · next j hj =>
      rw [abandonJob_names]
      refine .tail (.single (.abandoned name j ?_)) (.named _ fun p hp => ?_)
      · exact List.lookup_eq_some_iff.1 hj |>.elim fun l₁ h => by
          obtain ⟨l₂, hl, -⟩ := h
          simp [hl]
      · rcases abandonJob_eq w j with h | ⟨ready, h⟩ <;> rw [h] <;> exact (List.mem_filter.1 hp).1
  | undecodable flaw => exact .refl
  | unknown name => exact .refl

/-! ## What no action can take away -/

/-- A job has one position. -/
theorem At.position_eq {w : World} {j : JobId} {errand : Errand} {p : Position}
    (h : w.At j errand p) : w.position j = p := by
  obtain ⟨given, hj⟩ := h
  rw [position, hj]

/-- After a job was moved, who stands somewhere is that job, or stood there before. -/
theorem at_setPosition_cases {w : World} {i j : JobId} {errand : Errand} {p p' : Position}
    (h : (w.setPosition j p').At i errand p) :
    (i = j ∧ p = p' ∧ ∃ p₀, w.At i errand p₀) ∨ i ≠ j ∧ w.At i errand p := by
  obtain ⟨given, hi⟩ := h
  rw [getElem?_setPosition] at hi
  obtain ⟨job, hjob, heq⟩ := Option.map_eq_some_iff.1 hi
  by_cases hji : j = i
  · rw [if_pos hji] at heq
    obtain ⟨rfl, rfl, rfl⟩ := Job.mk.inj heq
    exact .inl ⟨hji.symm, rfl, job.position, job.isAbandoned, hjob⟩
  · rw [if_neg hji] at heq
    exact .inr ⟨Ne.symm hji, given, heq ▸ hjob⟩

/-- What stands in a list stands in every longer one. -/
theorem getElem?_of_isPrefix {α : Type} {l l' : List α} (h : l <+: l') {k : Nat} {a : α}
    (ha : l[k]? = some a) : l'[k]? = some a := by
  obtain ⟨more, rfl⟩ := h
  rw [List.getElem?_append_left (List.getElem?_eq_some_iff.1 ha).1, ha]

/-- More jobs do not matter to those that are there. -/
theorem At.of_jobs {w w' : World} (hjobs : w.jobs <+: w'.jobs) {j : JobId} {errand : Errand}
    {p : Position} (h : w.At j errand p) : w'.At j errand p := by
  obtain ⟨given, hj⟩ := h
  exact ⟨given, getElem?_of_isPrefix hjobs hj⟩

theorem dispatch_jobs (w : World) (q : QueueId) : w.jobs <+: (w.dispatch q).jobs := by
  rcases dispatch_eq w q with h | ⟨queue, e, rest, -, -, -, h⟩
  · rw [h]
  · rw [h]
    exact List.prefix_append _ _

theorem dispatch_entries (w : World) (q : QueueId) : (w.dispatch q).entries = w.entries := by
  rcases dispatch_eq w q with h | ⟨queue, e, rest, -, -, -, h⟩ <;> rw [h]

theorem request_jobs (w : World) (q : QueueId) (op : Operation) (token : Option String) :
    w.jobs <+: (w.request q op token).1.jobs := by
  rcases request_eq w q op token with h | ⟨queue, e, -, -, h⟩ | ⟨queue, -, -, h⟩
  · rw [h]
  · rw [h]
    exact List.prefix_rfl
  · rw [h]
    exact dispatch_jobs (w.append q queue op token).1 q

theorem request_entries (w : World) (q : QueueId) (op : Operation) (token : Option String) :
    w.entries <+: (w.request q op token).1.entries := by
  rcases request_eq w q op token with h | ⟨queue, e, -, -, h⟩ | ⟨queue, -, -, h⟩
  · rw [h]
  · rw [h]
    exact List.prefix_rfl
  · rw [h, dispatch_entries]
    exact List.prefix_append _ _

theorem disposeManager_eq (w : World) :
    ∃ history manager, w.disposeManager = { w with history, manager } ∧
      (history = w.history ∨ history = (w.clock, .managerDisposed) :: w.history) ∧
      manager.lastId = w.manager.lastId ∧ manager.guard = w.manager.guard ∧
      manager.isDisposed := by
  unfold disposeManager
  dsimp only
  split
  · exact ⟨w.history, _, rfl, .inl rfl, rfl, rfl, rfl⟩
  · exact ⟨_, _, rfl, .inr rfl, rfl, rfl, rfl⟩

theorem Deed.at {w w' : World} (hd : Deed w w') {j : JobId} {errand : Errand} {p : Position}
    (h : w.At j errand p) : w'.At j errand p := by
  cases hd with
  | scripted | named | queueMade | withheld | observed | answered => exact h
  | requested q op token => exact h.of_jobs (request_jobs w q op token)
  | cancelled name =>
    obtain ⟨tokens, ready, heq⟩ := cancel_eq w name
    rw [heq]
    exact h
  | watched handle e => exact h.of_jobs (List.prefix_append _ _)
  | begun name errand' hnamed => exact h.of_jobs (List.prefix_append _ _)
  | disposed =>
    obtain ⟨history, manager, heq, -⟩ := disposeManager_eq w
    rw [heq]
    exact h
  | abandoned name k hk =>
    rcases abandonJob_eq w k with heq | ⟨ready, heq⟩
    · rw [heq]
      exact h
    · obtain ⟨given, hj⟩ := h
      refine ⟨if k = j then true else given, ?_⟩
      rw [heq]
      change (w.jobs.modify k _)[j]? = _
      rw [List.getElem?_modify, hj]
      by_cases hkj : k = j <;> simp [hkj]

theorem Deed.entries {w w' : World} (hd : Deed w w') : w.entries <+: w'.entries := by
  cases hd with
  | scripted | named | queueMade | withheld | observed | answered | watched | begun =>
    exact List.prefix_rfl
  | requested q op token => exact request_entries w q op token
  | cancelled name =>
    obtain ⟨tokens, ready, heq⟩ := cancel_eq w name
    rw [heq]
  | disposed =>
    obtain ⟨history, manager, heq, -⟩ := disposeManager_eq w
    rw [heq]
  | abandoned name k hk =>
    rcases abandonJob_eq w k with heq | ⟨ready, heq⟩ <;> rw [heq]

theorem entryOf?_of_prefix {w w' : World} (h : w.entries <+: w'.entries) {e : EntryId}
    {entry : Entry} (he : w.entryOf? e = some entry) : w'.entryOf? e = some entry :=
  getElem?_of_isPrefix h he

theorem callOf?_of_prefix {w w' : World} (h : w.entries <+: w'.entries) {j : JobId}
    {errand : Errand} {call : Call} (hc : w.callOf? j errand = some call) :
    w'.callOf? j errand = some call := by
  cases errand with
  | operation e =>
    obtain ⟨entry, he, hcall⟩ := Option.map_eq_some_iff.1 hc
    exact Option.map_eq_some_iff.2 ⟨entry, entryOf?_of_prefix h he, hcall⟩
  | execution | reset | watch | reopen => exact hc

/-- Deeds leave the job of a call where it is. -/
theorem Deeds.servesAt {w w' : World} (hd : Deeds w w') {call : Call} {errand : Errand}
    {p : Position} (h : w.ServesAt call errand p) : w'.ServesAt call errand p := by
  induction hd with
  | refl => exact h
  | tail _ hd ih => exact ⟨hd.at ih.1, callOf?_of_prefix hd.entries ih.2⟩

/-- **Deeds leave every job where it is.** -/
theorem Deeds.at {w w' : World} (hd : Deeds w w') {j : JobId} {errand : Errand} {p : Position}
    (h : w.At j errand p) : w'.At j errand p := by
  induction hd with
  | refl => exact h
  | tail _ hd ih => exact hd.at ih

end FolderTasks.Dispatch.World
