import FolderTasks.Proofs.Dispatch.QueueOrder
import FolderTasks.Proofs.Dispatch.ResetBook
/-!
# When a folder is withheld

A reset withholds its queue when it is asked for, and the end of any reset opens the queue again.
So while a reset is outstanding, its queue is withheld just until a reset that was asked for
earlier is over: resets that overlap do not count each other.

## Main definitions

* `World.resetBook`: the book of resets of a world.
* `World.IsOutstanding`: a reset that was asked for waits in its queue or is active.
* `World.IsReopened`: a reset is over, and none was asked for since.

## Main statements

* `World.Reachable.isWithheld_iff`: when the queue of an outstanding reset is withheld.
* `World.not_isWithheld_of_overlap`: a folder that is not withheld while a reset is active.
-/

namespace FolderTasks.Dispatch

/-- Is it a fact that the user withheld a queue, or no longer? -/
def Happening.isWithholdingSet : Happening → Bool
  | .withholdingSet _ _ => true
  | _ => false

namespace World

open ResetBook (Steady)

/-- The book of resets of a world. -/
def resetBook (w : World) : ResetBook where
  flags := w.queues.map Queue.isWithheld
  folders := w.folders
  owners := w.entries.map Entry.queue
  resolved := w.seen Happening.resolved?
  signs := w.history.filterMap fun p => p.2.resetSign?
  wards := w.jobs.map Job.ward?

/-! ## What makes no sign -/

section Unsigned

variable (w : World)

/-- A fact that is neither a sign nor an outcome. -/
theorem resetBook_note {h : Happening} (hsign : h.resetSign? = none)
    (hresolved : h.resolved? = none) :
    (w.note h).resetBook = w.resetBook := by
  rw [resetBook, resetBook, seen_note_of_none w hresolved]
  simp [note, hsign]

theorem resetBook_sign {h : Happening} {s : ResetSign} (hsign : h.resetSign? = some s)
    (hresolved : h.resolved? = none) : (w.note h).resetBook = w.resetBook.sign s := by
  rw [resetBook, resetBook, seen_note_of_none w hresolved]
  simp [note, hsign, ResetBook.sign]

theorem resetBook_modifyEntry (e : EntryId) {f : Entry → Entry}
    (hf : ∀ entry, (f entry).queue = entry.queue) : (w.modifyEntry e f).resetBook = w.resetBook := by
  have howners := map_modify (g := Entry.queue) (k := id) hf w.entries e
  rw [List.modify_id] at howners
  rw [resetBook, resetBook, ← howners]
  rfl

theorem resetBook_modifyQueue (q : QueueId) {f : Queue → Queue}
    (hf : ∀ queue, (f queue).isWithheld = queue.isWithheld) :
    (w.modifyQueue q f).resetBook = w.resetBook := by
  have hflags := map_modify (g := Queue.isWithheld) (k := id) hf w.queues q
  rw [List.modify_id] at hflags
  rw [resetBook, resetBook, ← hflags]
  rfl

theorem resetBook_withhold (q : QueueId) (value : Bool) :
    (w.withhold q value).resetBook = w.resetBook.withhold q value := by
  have hflags := map_modify (g := Queue.isWithheld) (k := fun _ => value)
    (f := fun queue => { queue with isWithheld := value }) (fun _ => rfl) w.queues q
  rw [resetBook, resetBook, ResetBook.withhold, ← hflags]
  rfl

theorem resetBook_wakeAll (js : List JobId) : (w.wakeAll js).resetBook = w.resetBook := by
  obtain ⟨ready, h⟩ := wakeAll_eq js w
  rw [h]
  rfl

theorem resetBook_releaseGuard : w.releaseGuard.resetBook = w.resetBook := by
  obtain ⟨ready, h⟩ := releaseGuard_eq w
  rw [h]
  rfl

theorem resetBook_listen (token : Option String) (j : JobId) :
    (w.listen token j).resetBook = w.resetBook := by
  obtain ⟨tokens, h⟩ := listen_eq w token j
  rw [h]
  rfl

theorem resetBook_unlisten (token : Option String) (j : JobId) :
    (w.unlisten token j).resetBook = w.resetBook := by
  obtain ⟨tokens, h⟩ := unlisten_eq w token j
  rw [h]
  rfl

theorem resetBook_dropExecution (call : Call) : (w.dropExecution call).resetBook = w.resetBook := by
  obtain ⟨tokens, timers, ready, g, h⟩ := dropExecution_eq w call
  rw [h]
  rfl

theorem resetBook_takeSeat (e : EntryId) (who : Waiter) :
    (w.takeSeat e who).1.resetBook = w.resetBook := by
  unfold takeSeat
  split
  · rfl
  · exact resetBook_modifyEntry w e fun _ => rfl

theorem resetBook_leaveSeat (e : EntryId) (seat : Nat) :
    (w.leaveSeat e seat).resetBook = w.resetBook := resetBook_modifyEntry w e fun _ => rfl

theorem resetBook_receive? {w w' : World} {e : EntryId} {o : Outcome}
    (h : w.receive? e = some (w', o)) : w'.resetBook = w.resetBook := by
  unfold receive? at h
  split at h
  · obtain ⟨rfl, -⟩ := Prod.mk.inj (Option.some.inj h)
    exact resetBook_modifyEntry w e fun _ => rfl
  · exact absurd h (by simp)

/-- A job moves that looks after nothing, or after the same reset wherever it is. -/
theorem resetBook_setPosition {w : World} {j : JobId} {errand : Errand} {p p' : Position}
    (hat : w.At j errand p) (hward : errand.ward? p' = errand.ward? p) :
    (w.setPosition j p').resetBook = w.resetBook := by
  have hwards : (w.setPosition j p').jobs.map Job.ward? = w.jobs.map Job.ward? := by
    refine List.ext_getElem? fun k => ?_
    rw [List.getElem?_map, List.getElem?_map, getElem?_setPosition]
    obtain ⟨given, hj⟩ := hat
    by_cases hjk : j = k
    · simp [← hjk, hj, Job.ward?, hward]
    · simp [hjk]
  rw [resetBook, resetBook, hwards]
  rfl

theorem steady_spawn {errand : Errand} (herrand : errand.ward? .fresh = none) :
    Steady w.resetBook (w.spawn errand).1.resetBook where
  flags := ⟨0, by simp [resetBook, spawn]⟩
  folders _ hf := .inl hf
  owners := List.prefix_rfl
  resolved := List.prefix_rfl
  signs := rfl
  wards ward hward := by
    change some ward ∈ (w.jobs ++ [({ errand } : Job)]).map Job.ward? at hward
    rw [List.map_append, List.mem_append, List.map_singleton, List.mem_singleton, Job.ward?,
      herrand] at hward
    exact hward.resolve_right (by simp)

theorem steady_dispatch (q : QueueId) : Steady w.resetBook (w.dispatch q).resetBook := by
  unfold dispatch
  split
  · next e rest _ _ =>
    dsimp only
    have hqueue := resetBook_modifyQueue w q (f := fun queue =>
      { queue with active := some e, pending := rest }) fun _ => rfl
    have hspawn := steady_spawn ((w.modifyQueue q fun queue =>
      { queue with active := some e, pending := rest }).note (.dispatched e))
      (show (Errand.operation e).ward? .fresh = none from rfl)
    rw [resetBook_note _ rfl rfl, hqueue] at hspawn
    exact hspawn
  · exact .refl _

theorem steady_append (q : QueueId) (queue : Queue) (op : Operation) (token : Option String) :
    Steady w.resetBook (w.append q queue op token).1.resetBook := by
  unfold append
  dsimp only
  rw [resetBook_note _ rfl rfl, resetBook_modifyQueue]
  · exact ⟨⟨0, by simp [resetBook]⟩, fun _ hf => .inl hf, by simp [resetBook], List.prefix_rfl, rfl,
      fun _ hward => hward⟩
  · exact fun _ => rfl

theorem steady_request (q : QueueId) (op : Operation) (token : Option String) :
    Steady w.resetBook (w.request q op token).1.resetBook := by
  rcases request_eq w q op token with h | ⟨queue, e, -, -, h⟩ | ⟨queue, -, -, h⟩
  · rw [h]
    exact .refl _
  · rw [h]
    exact .of_eq (resetBook_note w rfl rfl)
  · rw [h]
    exact (steady_append w q queue op token).trans (steady_dispatch _ q)

theorem steady_deliver (e : EntryId) (o : Outcome) :
    Steady w.resetBook (w.deliver e o).resetBook := by
  unfold deliver
  split
  · exact .refl _
  · dsimp only
    rw [resetBook_wakeAll]
    have hentry := resetBook_modifyEntry w e (f := fun entry => { entry with outcome := some o })
      fun _ => rfl
    refine (Steady.of_eq hentry).trans ?_
    refine ⟨⟨0, by simp [resetBook, note]⟩, fun _ hf => .inl hf, List.prefix_rfl, ?_, rfl,
      fun _ hward => hward⟩
    change _ <+: (note _ _).seen _
    rw [seen_note]
    exact List.prefix_append _ _

theorem steady_resolve (e : EntryId) (o : Outcome) :
    Steady w.resetBook (w.resolve e o).resetBook := by
  unfold resolve
  split
  · exact .refl _
  · next entry _ =>
    dsimp only
    have hqueue := resetBook_modifyQueue w entry.queue (f := fun queue =>
      { queue with active := none }) fun _ => rfl
    have hdispatch := (steady_dispatch ((w.modifyQueue entry.queue fun queue =>
      { queue with active := none }).note (.vacated e)) entry.queue).trans (steady_deliver _ e o)
    rw [resetBook_note _ rfl rfl, hqueue] at hdispatch
    exact hdispatch

end Unsigned

/-! ## Changes that make no sign -/

/-- Nobody but resets withholds queues. -/
def IsUntouched (w : World) : Prop := ∀ p ∈ w.history, p.2.isWithholdingSet = false

instance (w : World) : Decidable w.IsUntouched :=
  inferInstanceAs (Decidable (∀ p ∈ w.history, p.2.isWithholdingSet = false))

section Changes

variable {w w' : World}

theorem Deed.steady (hd : Deed w w') (hu : w'.IsUntouched) : Steady w.resetBook w'.resetBook := by
  cases hd with
  | scripted | named | observed => exact .refl _
  | queueMade name isRecorded =>
    refine ⟨⟨1, ?_⟩, fun _ hf => .inl hf, List.prefix_rfl, List.prefix_rfl, rfl, fun _ hw => hw⟩
    change (w.queues ++ [_]).map Queue.isWithheld = _
    rw [List.map_append]
    rfl
  | requested q op token => exact steady_request w q op token
  | cancelled name =>
    obtain ⟨tokens, ready, heq⟩ := cancel_eq w name
    rw [heq]
    exact .refl _
  | withheld q value => exact absurd (hu _ List.mem_cons_self) (by simp [Happening.isWithholdingSet])
  | watched handle e => exact steady_spawn w rfl
  | begun name errand hnamed =>
    refine steady_spawn w ?_
    cases errand with
    | execution | reset => rfl
    | operation | watch | reopen => exact absurd hnamed (by simp [Errand.isNamed])
  | disposed =>
    obtain ⟨history, manager, heq, rfl | rfl, -⟩ := disposeManager_eq w
    · rw [heq]
      exact .refl _
    · rw [heq]
      exact .of_eq (resetBook_note w (h := .managerDisposed) rfl rfl)
  | abandoned name j hj =>
    rcases abandonJob_eq w j with heq | ⟨ready, heq⟩
    · rw [heq]
      exact .refl _
    · have hwards := map_modify (g := Job.ward?) (k := id)
        (f := fun job => { job with isAbandoned := true }) (fun _ => rfl) w.jobs j
      rw [List.modify_id] at hwards
      rw [heq, resetBook, resetBook, hwards]
      exact .refl _
  | answered site reply => exact .of_eq (resetBook_note w rfl rfl)

theorem Drift.steady (hd : Drift w w') : Steady w.resetBook w'.resetBook := by
  cases hd with
  | turnTaken | turnSet | passed => exact .refl _
  | fired t ht =>
    obtain ⟨timers, ready, heq⟩ := fire_eq w t
    rw [heq]
    exact .refl _
  | folderListed folder q hq =>
    refine ⟨⟨0, by simp [resetBook]⟩, fun f hf => ?_, List.prefix_rfl, List.prefix_rfl, rfl,
      fun _ hw => hw⟩
    rcases List.mem_append.1 hf with hf | hf
    · exact .inl hf
    · refine .inr ?_
      rw [List.mem_singleton.1 hf]
      simpa [resetBook] using hq
  | foldersUnlisted folders hfolders =>
    exact ⟨⟨0, by simp [resetBook]⟩, fun f hf => .inl (hfolders f hf), List.prefix_rfl,
      List.prefix_rfl, rfl, fun _ hw => hw⟩
  | folderTold fact hfact =>
    rcases hfact with ⟨f, rfl⟩ | ⟨f, rfl⟩ <;> exact .of_eq (resetBook_note w rfl rfl)
  | sat e => exact .of_eq (resetBook_takeSeat w e .outside)
  | seatLeft e entry seat => exact .of_eq (resetBook_leaveSeat w e seat)
  | received e o hr => exact .of_eq (resetBook_receive? hr)

theorem Telling.steady (ht : Telling w w') : Steady w.resetBook w'.resetBook := by
  cases ht <;> exact .refl _

/-- A job that executes a command looks after nothing. -/
theorem resetBook_call {call : Call} {p p' : Position} (h : w.CallAt call p)
    (hjobs : w'.jobs = w.jobs) : (w'.setPosition call.job p').resetBook = w'.resetBook := by
  obtain ⟨errand, ⟨given, hj⟩, hcall⟩ := h
  have hat : w'.At call.job errand p := ⟨given, hjobs ▸ hj⟩
  refine resetBook_setPosition hat ?_
  cases errand with
  | operation | execution => rfl
  | reset | watch | reopen => exact absurd hcall (by simp [callOf?])

theorem Stride.steady (hs : Stride w w') : Steady w.resetBook w'.resetBook := by
  refine .of_eq ?_
  cases hs with
  | rejected h => exact resetBook_call h rfl
  | guardTaken h => exact resetBook_call h rfl
  | lineJoined h =>
    rw [resetBook_listen]
    exact resetBook_call h rfl
  | turnedAway h => exact resetBook_call h rfl
  | unlistened j token => exact resetBook_unlisten w token j
  | timerCleared | startDelayed => rfl
  | lineLeft h => exact resetBook_call h rfl
  | guardReturned h =>
    obtain ⟨ready, heq⟩ := releaseGuard_eq w
    rw [heq]
    exact resetBook_call h rfl
  | startAsked h => exact resetBook_call h rfl
  | refused h hb =>
    rw [resetBook_releaseGuard]
    exact resetBook_call h rfl
  | started h =>
    rw [resetBook_note _ rfl rfl, resetBook_releaseGuard]
    exact resetBook_call h rfl
  | forsaken h => exact resetBook_call h rfl
  | endAwaited h => exact resetBook_listen _ _ _
  | completed h =>
    rw [resetBook_note _ rfl rfl]
    exact resetBook_call h rfl
  | terminated h =>
    rw [resetBook_note _ rfl rfl]
    exact resetBook_call h rfl

end Changes

/-! ## Changes that make a sign -/

section Signs

variable {w w' : World}

theorem At.ward_mem {j : JobId} {errand : Errand} {p : Position} {ward : Ward}
    (hat : w.At j errand p) (hward : errand.ward? p = some ward) :
    some ward ∈ w.resetBook.wards := by
  obtain ⟨given, hj⟩ := hat
  exact List.mem_map.2 ⟨_, List.mem_of_getElem? hj, hward⟩

/-- What is looked after when a job has moved. -/
theorem mem_wards_setPosition {j : JobId} {p : Position} {ward : Ward}
    (h : some ward ∈ (w.setPosition j p).resetBook.wards) : some ward ∈ w.resetBook.wards ∨
      ∃ job, w.jobs[j]? = some job ∧ job.errand.ward? p = some ward := by
  obtain ⟨job', hjob', hward⟩ := List.mem_map.1 h
  obtain ⟨k, hk⟩ := List.mem_iff_getElem?.1 hjob'
  rw [getElem?_setPosition] at hk
  obtain ⟨job, hj, rfl⟩ := Option.map_eq_some_iff.1 hk
  by_cases hjk : j = k
  · rw [if_pos hjk] at hward
    exact .inr ⟨job, hjk ▸ hj, hward⟩
  · rw [if_neg hjk] at hward
    exact .inl (List.mem_map.2 ⟨job, List.mem_of_getElem? hj, hward⟩)

/-- A job that is over looks after nothing that it did not look after before. -/
theorem steady_endJob (w : World) (j : JobId) : Steady w.resetBook (w.endJob j).resetBook where
  flags := ⟨0, by simp [resetBook, endJob, setPosition, modifyJob]⟩
  folders _ hf := .inl hf
  owners := List.prefix_rfl
  resolved := List.prefix_rfl
  signs := rfl
  wards ward hward := by
    rcases mem_wards_setPosition hward with hward | ⟨job, hj, hward⟩
    · exact hward
    · refine List.mem_map.2 ⟨job, List.mem_of_getElem? hj, ?_⟩
      rw [Job.ward?]
      generalize job.errand = errand at hward
      cases errand with
      | reopen q e => exact hward
      | operation | execution | reset | watch => exact absurd hward (by simp [Errand.ward?])

theorem isFaithful_reopen (h : w.resetBook.IsFaithful) {q : QueueId} {e : EntryId}
    (hasked : ⟨q, e, true⟩ ∈ w.resetBook.signs) (hresolved : ∃ o, (e, o) ∈ w.resetBook.resolved) :
    (w.reopen q e).resetBook.IsFaithful := by
  have hsign := resetBook_sign (w.withhold q false) (h := .resetOver q e) rfl rfl
  rw [reopen, hsign, resetBook_withhold]
  exact h.conclude hasked hresolved

/-- An outcome that is there is in the book. -/
theorem resolved_of_receive? (ho : w.ledger.IsOrderly) {e : EntryId} {o : Outcome}
    (h : w.receive? e = some (w', o)) : (e, o) ∈ w.resetBook.resolved := by
  unfold receive? at h
  split at h
  · next he =>
    obtain ⟨-, rfl⟩ := Prod.mk.inj (Option.some.inj h)
    exact (outcome_iff_resolved ho he).1 rfl
  · exact absurd h (by simp)

theorem resolved_of_peek (ho : w.ledger.IsOrderly) {e : EntryId} (h : (w.peek e).isSome) :
    ∃ o, (e, o) ∈ w.resetBook.resolved := by
  unfold peek at h
  split at h
  · next entry he =>
    split at h
    · obtain ⟨o, hoc⟩ := Option.isSome_iff_exists.1 h
      exact ⟨o, (outcome_iff_resolved ho he).1 hoc⟩
    · exact absurd h (by simp)
  · exact absurd h (by simp)

/-- A job that waits for a reset was told the entry that serves it. -/
theorem asked_of_reset (h : w.resetBook.IsFaithful) {j : JobId} {name : String} {folder : Path}
    {token : Option String} {e : EntryId} {seat : Nat} {entry : Entry}
    (hat : w.At j (.reset name folder token) (.awaiting e seat)) (he : w.entryOf? e = some entry) :
    ⟨entry.queue, e, true⟩ ∈ w.resetBook.signs := by
  obtain ⟨q, hasked, -⟩ := h.minded (hat.ward_mem rfl)
  have howner := (h.asked _ hasked).2
  rw [entryOf?] at he
  rw [resetBook, List.getElem?_map, he] at howner
  obtain rfl : entry.queue = q := Option.some.inj howner
  exact hasked

theorem isFaithful_discardReset (h : w.resetBook.IsFaithful) (ho : w.ledger.IsOrderly) {j : JobId}
    {name : String} {folder : Path} {token : Option String} {e : EntryId} {seat : Nat}
    (hat : w.At j (.reset name folder token) (.awaiting e seat)) :
    (w.discardReset e seat).resetBook.IsFaithful := by
  unfold discardReset
  split
  · exact h
  · next entry he =>
    have hasked := asked_of_reset h hat he
    have hleft : (w.leaveSeat e seat).resetBook = w.resetBook := resetBook_leaveSeat w e seat
    dsimp only
    split
    · next hpeek =>
      have hresolved := resolved_of_peek (w := w.leaveSeat e seat) (by rwa [ledger_leaveSeat]) hpeek
      refine isFaithful_reopen (hleft ▸ h) ?_ hresolved
      rwa [hleft]
    · rw [← hleft] at h hasked
      refine h.mind hasked (some entry.queue) (fun q' hq' => (Option.some.inj hq').symm) ?_
      intro ward hward
      change some ward ∈ ((w.leaveSeat e seat).jobs ++ [_]).map Job.ward? at hward
      rw [List.map_append, List.mem_append, List.map_singleton, List.mem_singleton] at hward
      exact hward.imp_right Option.some.inj

/-- The entry that serves a request is one of the queue. -/
theorem owner_request (ho : w.ledger.IsOrderly) {q : QueueId} (hq : q < w.queues.length)
    (op : Operation) (token : Option String) :
    (w.request q op token).1.resetBook.owners[(w.request q op token).2]? = some q := by
  have hqueue := List.getElem?_eq_getElem hq
  unfold request
  rw [hqueue]
  dsimp only
  split
  · next e he =>
    have hpending : e ∈ w.queues[q].pending := List.mem_of_find?_eq_some he
    have hon := (ho.pending_spec (slot_eq hqueue) hpending).1
    exact beq_iff_eq.1 hon
  · change (((w.append q _ op token).1.dispatch q).entries.map Entry.queue)[w.entries.length]? = _
    rw [dispatch_entries]
    simp [append, note, modifyQueue]

theorem isFaithful_askReset (h : w.resetBook.IsFaithful) (ho : w.ledger.IsOrderly) {j : JobId}
    {name : String} {folder' : Path} {token' : Option String}
    (hat : w.At j (.reset name folder' token') .fresh) {q : QueueId} (hq : q < w.queues.length)
    (folder : Path) (token : Option String) : (w.askReset j q folder token).resetBook.IsFaithful := by
  have hwithheld : (w.withhold q true).ledger.IsOrderly := by rwa [ledger_withhold]
  have hlength : q < (w.withhold q true).queues.length := by
    rwa [withhold, modifyQueue, List.length_modify]
  have howner := owner_request hwithheld hlength
    (PackageAction.reset.operation w.toolchain folder) token
  have hsteady := steady_request (w.withhold q true) q
    (PackageAction.reset.operation w.toolchain folder) token
  have hjobs := request_jobs (w.withhold q true) q
    (PackageAction.reset.operation w.toolchain folder) token
  rw [resetBook_withhold] at hsteady
  unfold askReset
  dsimp only
  generalize (w.withhold q true).request q (PackageAction.reset.operation w.toolchain folder)
    token = r at howner hsteady hjobs ⊢
  have hasked := h.ask hsteady (by simpa [resetBook] using hq) howner
  have hbook : ((r.1.note (.resetAsked q r.2)).takeSeat r.2 (.job j)).1.resetBook =
      r.1.resetBook.sign ⟨q, r.2, true⟩ := by
    rw [resetBook_takeSeat]
    exact resetBook_sign r.1 rfl rfl
  rw [← hbook] at hasked
  have hmem : ⟨q, r.2, true⟩ ∈
      ((r.1.note (.resetAsked q r.2)).takeSeat r.2 (.job j)).1.resetBook.signs := by
    rw [hbook]
    exact List.mem_cons_self
  refine hasked.mind hmem none (fun _ hnone => absurd hnone (by simp)) fun ward hward => ?_
  refine (mem_wards_setPosition hward).imp_right ?_
  rintro ⟨job, hj, hmoved⟩
  have hnoted : (r.1.note (.resetAsked q r.2)).At j (.reset name folder' token') .fresh :=
    At.of_jobs hjobs hat
  obtain ⟨herrand, -⟩ := (hnoted.takeSeat r.2 (.job j)).unique ⟨job.isAbandoned, hj⟩
  rw [← herrand] at hmoved
  exact (Option.some.inj hmoved).symm

theorem isFaithful_endJob (h : w.resetBook.IsFaithful) (j : JobId) :
    (w.endJob j).resetBook.IsFaithful := h.steady (steady_endJob w j)

theorem Closing.isFaithful (hc : Closing w w') (h : w.resetBook.IsFaithful)
    (ho : w.ledger.IsOrderly) : w'.resetBook.IsFaithful := by
  cases hc with
  | closed o hat hp => exact isFaithful_endJob (h.steady (steady_resolve w _ o)) _
  | executionEnded result hat =>
    exact isFaithful_endJob (h.steady (.of_eq (resetBook_note w rfl rfl))) _
  | resetAsked q hat hq =>
    obtain ⟨f, hf, rfl⟩ := Option.map_eq_some_iff.1 hq
    have hlt := h.folders f (List.mem_of_find?_eq_some hf)
    exact isFaithful_askReset h ho hat (by simpa [resetBook] using hlt) _ _
  | resetRefused hat hq =>
    exact isFaithful_endJob (h.steady (.of_eq (resetBook_note w rfl rfl))) _
  | @seatTaken j errand p e hat hp he =>
    refine h.steady (.of_eq ?_)
    rw [resetBook_setPosition (hat.takeSeat e (.job j)), resetBook_takeSeat]
    rcases he with ⟨handle, rfl⟩ | ⟨q, rfl⟩ <;> rfl
  | @resetConcluded w₁ j name folder token e seat entry o hat he hr =>
    have hasked := asked_of_reset h hat he
    have hresolved : ∃ o, (e, o) ∈ w.resetBook.resolved := ⟨o, resolved_of_receive? ho hr⟩
    have hbook : (w₁.note (.packageReset folder o)).resetBook = w.resetBook := by
      rw [resetBook_note _ rfl rfl, resetBook_receive? hr]
    rw [← hbook] at h hasked hresolved
    refine isFaithful_endJob ?_ j
    rw [concludeReset, resetBook_note _ rfl rfl]
    exact isFaithful_reopen h hasked hresolved
  | resetForgotten hat he => exact isFaithful_endJob h _
  | watchEnded o hat hp hr =>
    rw [← resetBook_receive? hr] at h
    refine isFaithful_endJob ?_ _
    split
    · exact h.steady (.of_eq (resetBook_note _ rfl rfl))
    · exact h
  | @reopened w₁ j q e p o hat hp hr =>
    obtain ⟨q', hasked, hq⟩ := h.minded (hat.ward_mem rfl)
    obtain rfl := hq q rfl
    have hresolved : ∃ o, (e, o) ∈ w.resetBook.resolved := ⟨o, resolved_of_receive? ho hr⟩
    rw [← resetBook_receive? hr] at h hasked hresolved
    exact isFaithful_endJob (isFaithful_reopen h hasked hresolved) j
  | @discarded j job hj ha hp =>
    have hat : w.At j job.errand job.position := ⟨job.isAbandoned, hj⟩
    refine isFaithful_endJob ?_ j
    split
    · exact h.steady (.of_eq (resetBook_dropExecution w _))
    · next heq hposition =>
      rw [heq, hposition] at hat
      exact isFaithful_discardReset h ho hat
    · exact h

/-- **An elementary change keeps the book faithful**, unless the user withholds a queue. -/
theorem Change.isFaithful (hc : Change w w') (hu : w'.IsUntouched) (h : w.resetBook.IsFaithful)
    (ho : w.ledger.IsOrderly) : w'.resetBook.IsFaithful := by
  cases hc with
  | deed hd => exact h.steady (hd.steady hu)
  | drift hd => exact h.steady hd.steady
  | telling ht => exact h.steady ht.steady
  | stride hs => exact h.steady hs.steady
  | closing hc => exact hc.isFaithful h ho

end Signs

theorem isFaithful_new (s : Setting) : s.world.resetBook.IsFaithful where
  folders := by simp [resetBook, Setting.world]
  asked := by simp [resetBook, Setting.world]
  concluded := by simp [resetBook, Setting.world]
  minded := by simp [resetBook, Setting.world]
  flags := by simp [resetBook, Setting.world]

/-- **The book of resets is faithful whenever**, as long as nobody but resets withholds queues. -/
theorem Arises.isFaithful {w : World} (h : Arises w) (hu : w.IsUntouched) :
    w.resetBook.IsFaithful := by
  refine Arises.induction (P := fun w => w.IsUntouched → w.resetBook.IsFaithful)
    (fun s _ => isFaithful_new s) (fun hw ih hc hu => ?_) h hu
  have hhistory := (hw.stage hc).history
  exact hc.isFaithful hu (ih fun p hp => hu p (hhistory.subset hp)) hw.isOrderly

/-! ## Outstanding resets -/

/-- **An outstanding reset**: it was asked for, and waits in its queue or is active. -/
def IsOutstanding (w : World) (q : QueueId) (e : EntryId) : Prop :=
  (∃ t, (t, .resetAsked q e) ∈ w.history) ∧
    ∃ queue, w.queues[q]? = some queue ∧ (e ∈ queue.pending ∨ queue.active = some e)

/-- A reset is over, and none was asked for on its queue since. -/
def IsReopened (w : World) (q : QueueId) (e : EntryId) : Prop :=
  ∃ newer older t, w.history = newer ++ (t, .resetOver q e) :: older ∧
    ∀ p ∈ newer, ∀ e', p.2 ≠ .resetAsked q e'

section Outstanding

variable {w : World}

/-- The sign that a fact is for a queue. -/
def signOf? (q : QueueId) (p : Nat × Happening) : Option Bool :=
  p.2.resetSign?.bind fun s => if s.queue = q then some s.isAsked else none

theorem lastSign?_resetBook (w : World) (q : QueueId) :
    w.resetBook.lastSign? q = w.history.findSome? (signOf? q) := by
  rw [ResetBook.lastSign?, resetBook]
  generalize w.history = history
  induction history with
  | nil => rfl
  | cons p history ih =>
    rw [List.filterMap_cons, List.findSome?_cons, signOf?]
    cases p.2.resetSign? with
    | none => exact ih
    | some s =>
      rw [List.findSome?_cons, ih]
      rfl

theorem signOf?_eq_true {q : QueueId} {p : Nat × Happening} :
    signOf? q p = some true ↔ ∃ e, p.2 = .resetAsked q e := by
  obtain ⟨t, fact⟩ := p
  cases fact <;> simp [signOf?, Happening.resetSign?, and_comm]

theorem signOf?_eq_false {q : QueueId} {p : Nat × Happening} :
    signOf? q p = some false ↔ ∃ e, p.2 = .resetOver q e := by
  obtain ⟨t, fact⟩ := p
  cases fact <;> simp [signOf?, Happening.resetSign?, and_comm]

/-- The last sign of a queue is that of a reset that is over when it was reopened. -/
theorem lastSign?_eq_false {q : QueueId} :
    w.resetBook.lastSign? q = some false ↔ ∃ e, w.IsReopened q e := by
  rw [lastSign?_resetBook]
  constructor
  · intro h
    obtain ⟨newer, ⟨t, fact⟩, older, hsplit, hfact, hnewer⟩ := List.findSome?_eq_some_iff.1 h
    obtain ⟨e, rfl⟩ := signOf?_eq_false.1 hfact
    refine ⟨e, newer, older, t, hsplit, fun p hp e' hasked => ?_⟩
    have hnone := hnewer p hp
    rw [signOf?_eq_true.2 ⟨e', hasked⟩] at hnone
    exact absurd hnone (by simp)
  · rintro ⟨e, newer, older, t, hsplit, hnewer⟩
    rw [hsplit, List.findSome?_append]
    cases hlast : newer.findSome? (signOf? q) with
    | none =>
      rw [Option.none_or, List.findSome?_cons, signOf?_eq_false.2 ⟨e, rfl⟩]
    | some asked =>
      cases asked with
      | false => rfl
      | true =>
        obtain ⟨p, hp, hasked⟩ := List.exists_of_findSome?_eq_some hlast
        obtain ⟨e', he'⟩ := signOf?_eq_true.1 hasked
        exact absurd he' (hnewer p hp e')

theorem asked_of_mem_signs {q : QueueId} {e : EntryId}
    (h : ⟨q, e, true⟩ ∈ w.resetBook.signs) : ∃ t, (t, .resetAsked q e) ∈ w.history := by
  obtain ⟨⟨t, fact⟩, hmem, hsign⟩ := List.mem_filterMap.1 h
  refine ⟨t, ?_⟩
  cases fact with
  | resetAsked q' e' =>
    obtain ⟨rfl, rfl, -⟩ := ResetSign.mk.inj (Option.some.inj hsign)
    exact hmem
  | _ => exact absurd hsign (by simp [Happening.resetSign?])

/-- The queue of an outstanding reset is withheld until it is reopened. -/
theorem IsOutstanding.withheld_iff {q : QueueId} {e : EntryId} (he : w.IsOutstanding q e)
    (h : w.resetBook.IsFaithful) : (w.view q).isWithheld = true ↔ ∀ e', ¬ w.IsReopened q e' := by
  obtain ⟨⟨t, hasked⟩, queue, hq, -⟩ := he
  have hflag : w.resetBook.flags[q]? = some queue.isWithheld := by
    rw [resetBook, List.getElem?_map, hq]
    rfl
  have hview : (w.view q).isWithheld = queue.isWithheld := by
    rw [view, hq]
  have hsome : w.resetBook.lastSign? q ≠ none := by
    rw [lastSign?_resetBook]
    intro hnone
    have hsign := List.findSome?_eq_none_iff.1 hnone _ hasked
    rw [signOf?_eq_true.2 ⟨e, rfl⟩] at hsign
    exact absurd hsign (by simp)
  rw [hview, h.flags hflag, ← not_exists, ← lastSign?_eq_false]
  cases hlast : w.resetBook.lastSign? q with
  | none => exact absurd hlast hsome
  | some asked => cases asked <;> simp

/-- A queue is reopened by resets that were asked for, have their outcome, and came before those
that are outstanding. -/
theorem IsOutstanding.lt_of_isReopened {q : QueueId} {e e' : EntryId} (he : w.IsOutstanding q e)
    (h : w.resetBook.IsFaithful) (ho : w.ledger.IsOrderly) (he' : w.IsReopened q e') :
    e' < e ∧ (∃ t, (t, .resetAsked q e') ∈ w.history) ∧ e' ∈ w.finishedOn q := by
  obtain ⟨newer, older, t, hsplit, -⟩ := he'
  have hover : (t, .resetOver q e') ∈ w.history := by
    rw [hsplit]
    exact List.mem_append_right _ List.mem_cons_self
  obtain ⟨hasked, o, hresolved⟩ :=
    h.concluded ⟨q, e', false⟩ (List.mem_filterMap.2 ⟨_, hover, rfl⟩) rfl
  have hgone : e' ∈ w.ledger.vacated := ho.resolvedGone _ hresolved
  have hon : w.ledger.isOn q e' := beq_iff_eq.2 (h.asked _ hasked).2
  obtain ⟨-, queue, hq, hplace⟩ := he
  have hfinished : e' ∈ w.finishedOn q := by
    rw [finishedOn_eq ho hq, ← isOn_eq_belongs]
    exact List.mem_filter.2 ⟨hgone, hon⟩
  have hpairwise := ho.pairwise_served (slot_eq hq)
  rw [List.append_assoc, List.pairwise_append] at hpairwise
  refine ⟨hpairwise.2.2 e' (List.mem_filter.2 ⟨hgone, hon⟩) e (List.mem_append.2 ?_),
    asked_of_mem_signs hasked, hfinished⟩
  exact hplace.symm.imp_left Option.mem_toList.2

/-- Every task offered for a folder says whether its queue is withheld. -/
theorem provideTasks_eq {folder : Path} {q : QueueId} (h : w.folderQueue? folder = some q)
    (products : List String) : w.provideTasks folder products =
      .ok ((offeredActions products).map fun a => a.definition folder (w.view q).isWithheld) := by
  rw [provideTasks, h]

end Outstanding

/-! ## Main statement -/

/-- **The queue of an outstanding reset is withheld just until an earlier reset is over.**  As long
as nobody but resets withholds queues, the queue of an outstanding reset is withheld, and all tasks
offered for its folder are placeholders, unless another reset, asked for earlier on the queue, is
over and no reset was asked for since. -/
theorem Reachable.isWithheld_iff {w : World} (hw : Reachable w) (hu : w.IsUntouched) {q : QueueId}
    {e : EntryId} (he : w.IsOutstanding q e) :
    ((w.view q).isWithheld = true ↔ ∀ e', ¬ w.IsReopened q e') ∧
      (∀ e', w.IsReopened q e' →
        e' < e ∧ (∃ t, (t, .resetAsked q e') ∈ w.history) ∧ e' ∈ w.finishedOn q) ∧
      ∀ folder products, w.folderQueue? folder = some q →
        ∃ tasks, w.provideTasks folder products = .ok tasks ∧ tasks ≠ [] ∧
          ∀ task ∈ tasks, (task.disabled = true ↔ ∀ e', ¬ w.IsReopened q e') := by
  have hfaithful := hw.arises.isFaithful hu
  have hwithheld := he.withheld_iff hfaithful
  refine ⟨hwithheld, fun e' he' => he.lt_of_isReopened hfaithful hw.arises.isOrderly he', ?_⟩
  intro folder products hfolder
  refine ⟨_, provideTasks_eq hfolder products, by simp [offeredActions], fun task htask => ?_⟩
  obtain ⟨a, -, rfl⟩ := List.mem_map.1 htask
  exact hwithheld

/-- A folder whose package is reset twice: the first reset is running when the second one is asked
for. -/
def resettingTwice : World :=
  let w := (({ scripts := [(["package", "reset"], { delay := 1000 })] } : Setting).world.step
    (.addFolder ⟨"/w/p"⟩)).1
  let w := ((w.step (.act (.reset "a" ⟨"/w/p"⟩ none))).1.takeTurn 0).takeTurn 1
  (w.step (.act (.reset "b" ⟨"/w/p"⟩ none))).1.takeTurn 2

theorem reachable_resettingTwice : Reachable resettingTwice := by
  have hfolder := (Reachable.new { scripts := [(["package", "reset"], { delay := 1000 })] }).next
    (.act (.addFolder ⟨"/w/p"⟩) rfl)
  have hfirst := hfolder.next (.act (.act (.reset "a" ⟨"/w/p"⟩ none)) rfl)
  have hrunning := (hfirst.next (.turn 0 (by decide))).next (.turn 1 (by decide))
  have hsecond := hrunning.next (.act (.act (.reset "b" ⟨"/w/p"⟩ none)) rfl)
  exact hsecond.next (.turn 2 (by decide))

theorem isOutstanding_resettingTwice : resettingTwice.IsOutstanding 0 1 :=
  ⟨⟨0, by decide⟩, _, rfl, .inl (by decide)⟩

/-- Nothing is over yet, so the folder is withheld. -/
theorem isWithheld_resettingTwice : resettingTwice.IsUntouched ∧
    resettingTwice.IsOutstanding 0 1 ∧ (resettingTwice.view 0).isWithheld = true ∧
      ∀ e, ¬ resettingTwice.IsReopened 0 e := by
  have hu : resettingTwice.IsUntouched := by decide
  have hiff := (reachable_resettingTwice.isWithheld_iff hu isOutstanding_resettingTwice).1
  exact ⟨hu, isOutstanding_resettingTwice, rfl, hiff.1 rfl⟩

/-- **Resets that overlap do not count each other.**  When the first of two resets is over, the
folder is no longer withheld, though the second one is active. -/
theorem not_isWithheld_of_overlap : ∃ w : World, Reachable w ∧ w.IsUntouched ∧
    w.folderQueue? ⟨"/w/p"⟩ = some 0 ∧ w.IsOutstanding 0 1 ∧ (w.view 0).isWithheld = false ∧
      w.provideTasks ⟨"/w/p"⟩ [] = .ok [⟨"Build All", .buildAll, ⟨"/w/p"⟩, false⟩] := by
  have hfired := reachable_resettingTwice.next (.fire ⟨1000, 1⟩ (by decide))
  have hdispatched := hfired.next (.turn 1 (by decide))
  have hstarted := hdispatched.next (.turn 3 (by decide))
  have hover := hstarted.next (.turn 0 (by decide))
  exact ⟨_, hover, by decide, by decide, ⟨⟨0, by decide⟩, _, rfl, .inr rfl⟩, by decide, by decide⟩

end World

end FolderTasks.Dispatch
