import FolderTasks.Proofs.Dispatch.ExecutionAccount
import Mathlib.Data.List.Nodup
/-!
# Task numbers

A job that executes a command gets a task number of its own before anything else is done, and it
asks the backend at most once to start the command.  So what the backend is asked, and what it
records, belongs to one job and, when the job executes the operation of an entry, to one entry.

## Main definitions

* `World.Stage`: the stages of executing a command as far as the account of the executions goes.
* `World.IsNumbered`: every job that takes part in an execution has a number of its own.

## Main statements

* `World.Stride.stage`: the stages of executing a command.
* `World.Arises.isNumbered`: jobs are numbered whenever.
-/

namespace FolderTasks.Dispatch

namespace Account

/-- A job got a task number. -/
def number (a : Account) (id : TaskId) (j : JobId) : Account :=
  { a with lastId := id.number, numbered := a.numbered ++ [(id, j)] }

/-- The backend was asked to start a task. -/
def ask (a : Account) (id : TaskId) : Account := { a with asked := a.asked ++ [id] }

/-- The backend keeps other records. -/
def record (a : Account) (b : Scripted) : Account :=
  { a with records := b.records, running := b.running }

end Account

namespace World

/-! ## Stages -/

/-- The job of a call moves from one position to another. -/
structure Moves (w w' : World) (call : Call) (p p' : Position) : Prop where
  serves : w.CallAt call p
  jobs : w'.jobs = (w.setPosition call.job p').jobs
  entries : w'.entries = w.entries
  clock : w'.clock = w.clock
  history : w.history <:+ w'.history

section Moving

variable {w : World} {call : Call} {id : TaskId}

/-- A job waits in the line for the right to start. -/
theorem CallAt.joins (h : w.CallAt call .fresh) : Moves w (((((w.takeNumber call.job).note
    (.waitsToStart w.nextId)).joinLine call.job).setPosition call.job (.inLine w.nextId)).listen
      call.token call.job) call .fresh (.inLine w.nextId) := by
  obtain ⟨tokens, heq⟩ := listen_eq ((((w.takeNumber call.job).note
    (.waitsToStart w.nextId)).joinLine call.job).setPosition call.job (.inLine w.nextId))
    call.token call.job
  rw [heq]
  exact ⟨h, rfl, rfl, rfl, (List.suffix_cons _ _).trans (List.suffix_cons _ _)⟩

/-- A job gives the right to start back. -/
theorem CallAt.returns (h : w.CallAt call (.inLine id)) : Moves w ((w.releaseGuard.note
    (.cancelledBeforeStart id)).setPosition call.job .telling) call (.inLine id) .telling := by
  obtain ⟨ready, heq⟩ := releaseGuard_eq w
  rw [heq]
  exact ⟨h, rfl, rfl, rfl, List.suffix_cons _ _⟩

/-- The backend refuses to start a command, and the right to start is passed on. -/
theorem CallAt.refused (h : w.CallAt call (.starting id)) (f : Failure) :
    Moves w (((w.note (.startFailed id call.command f)).setPosition call.job .telling).releaseGuard)
      call (.starting id) .telling := by
  obtain ⟨ready, heq⟩ := releaseGuard_eq ((w.note (.startFailed id call.command f)).setPosition
    call.job .telling)
  rw [heq]
  exact ⟨h, rfl, rfl, rfl, List.suffix_cons _ _⟩

/-- The backend starts a command, and the right to start is passed on. -/
theorem CallAt.starts (h : w.CallAt call (.starting id)) (b : Scripted) (e : Execution) :
    Moves w (((((w.setBackend b).note (.started id call.command)).setPosition call.job
      (.running id e)).releaseGuard).note (.startAnnounced id call.command)) call (.starting id)
      (.running id e) := by
  obtain ⟨ready, heq⟩ := releaseGuard_eq (((w.setBackend b).note
    (.started id call.command)).setPosition call.job (.running id e))
  rw [heq]
  exact ⟨h, rfl, rfl, rfl, (List.suffix_cons _ _).trans (List.suffix_cons _ _)⟩

end Moving

/-- **The stages of executing a command**, as far as the account of the executions goes. -/
inductive Stage (w w' : World) : Prop where
  | quiet (h : Quiet w w')
  /-- Nothing more is done for a command. -/
  | dropped {call : Call} {p : Position} (h : Moves w w' call p .telling)
      (ha : w'.account = w.account)
      (hp : p = .fresh ∨ (∃ id, p = .inLine id) ∨ (∃ id, p = .starting id) ∨
        ∃ id e t, p = .running id e ∧ (t, .observerPanicked .start id) ∈ w.history)
  /-- A job gets its number. -/
  | numbered {call : Call} {p' : Position} (h : Moves w w' call .fresh p')
      (ha : w'.account = w.account.number w.nextId call.job)
      (hp' : p' = .inLine w.nextId ∨ p' = .telling) (hd : w.manager.isDisposed = false)
  /-- The backend is asked to start a command. -/
  | asked {call : Call} {id : TaskId} (h : Moves w w' call (.inLine id) (.starting id))
      (ha : w'.account = w.account.ask id)
      (hw : w'.history = (w.clock, .startAsked id call.command) :: w.history)
  /-- The backend starts a command. -/
  | started {call : Call} {id : TaskId} {b : Scripted} {e : Execution}
      (h : Moves w w' call (.starting id) (.running id e))
      (ha : w'.account = w.account.record b)
      (hb : w.backend.start w.clock id call.command = .ok (b, e))
  /-- An execution ends. -/
  | ended {call : Call} {id : TaskId} {e : Execution} {terminated : Bool} {code : Option Int32}
      (h : Moves w w' call (.running id e) .telling)
      (ha : w'.account = w.account.record (w.backend.finish w.clock id terminated))
      (hw : (w.clock, .ended id call.command code) ∈ w'.history)

theorem account_takeNumber (w : World) (j : JobId) :
    (w.takeNumber j).account = w.account.number w.nextId j := by
  rw [takeNumber, account, seen_note, seen_note]
  simp only [Happening.numbered?, Happening.startAsked?, Option.toList_some, Option.toList_none,
    List.append_nil]
  rfl

theorem Stride.stage {w w' : World} (hs : Stride w w') : Stage w w' := by
  cases hs with
  | rejected h hd => exact .dropped ⟨h, rfl, rfl, rfl, List.suffix_rfl⟩ rfl (.inl rfl)
  | guardTaken h hd hg =>
    exact .numbered ⟨h, rfl, rfl, rfl, List.suffix_cons _ _⟩ (account_takeNumber w _) (.inl rfl) hd
  | lineJoined h hd hg hc =>
    refine .numbered h.joins ?_ (.inl rfl) hd
    exact (adds_listen _ _ _).account.trans (account_takeNumber w _)
  | turnedAway h hd hg hc =>
    refine .numbered ⟨h, rfl, rfl, rfl, ?_⟩ ?_ (.inr rfl) hd
    · exact ((List.suffix_cons _ _).trans (List.suffix_cons _ _)).trans (List.suffix_cons _ _)
    · exact account_takeNumber w _
  | unlistened j token => exact .quiet (adds_unlisten w token j).quiet
  | timerCleared | startDelayed => exact .quiet (Adds.quiet (.of_eq rfl rfl rfl rfl rfl))
  | lineLeft h hg hc =>
    exact .dropped ⟨h, rfl, rfl, rfl, List.suffix_cons _ _⟩ rfl (.inr (.inl ⟨_, rfl⟩))
  | guardReturned h hg hc =>
    exact .dropped h.returns (adds_releaseGuard w).account (.inr (.inl ⟨_, rfl⟩))
  | @startAsked call id h hg hc =>
    refine .asked ⟨h, rfl, rfl, rfl, List.suffix_cons _ _⟩ ?_ rfl
    change (w.note (.startAsked id call.command)).account = _
    rw [account, seen_note, seen_note]
    simp only [Happening.numbered?, Happening.startAsked?, Option.toList_some, Option.toList_none,
      List.append_nil]
    rfl
  | refused h hb =>
    exact .dropped (h.refused _) (adds_releaseGuard _).account (.inr (.inr (.inl ⟨_, rfl⟩)))
  | started h hb => exact .started (h.starts _ _) (adds_releaseGuard _).account hb
  | forsaken h hp =>
    obtain ⟨t, ht⟩ := hp
    exact .dropped ⟨h, rfl, rfl, rfl, List.suffix_rfl⟩ rfl (.inr (.inr (.inr ⟨_, _, t, rfl, ht⟩)))
  | @endAwaited call id execution h =>
    have htimer : Adds w (w.setTimer execution.deadline call.job) := .of_eq rfl rfl rfl rfl rfl
    exact .quiet (htimer.trans (adds_listen _ _ _)).quiet
  | @completed call id execution h hd =>
    refine .ended ⟨h, rfl, rfl, rfl, ?_⟩ rfl (List.mem_cons_of_mem _ List.mem_cons_self)
    exact (List.suffix_cons _ _).trans (List.suffix_cons _ _)
  | @terminated call id execution h hd hc =>
    refine .ended ⟨h, rfl, rfl, rfl, ?_⟩ rfl (List.mem_cons_of_mem _ List.mem_cons_self)
    exact ((List.suffix_cons _ _).trans (List.suffix_cons _ _)).trans (List.suffix_cons _ _)

/-! ## Where jobs are after a change -/

section Positions

variable {w w' : World} {call : Call} {p p' : Position}

/-- A job has one errand and one position. -/
theorem At.unique {j : JobId} {errand errand' : Errand} (h : w.At j errand p)
    (h' : w.At j errand' p') : errand = errand' ∧ p = p' := by
  obtain ⟨given, hj⟩ := h
  obtain ⟨given', hj'⟩ := h'
  obtain ⟨rfl, rfl, -⟩ := Job.mk.inj (Option.some.inj (hj.symm.trans hj'))
  exact ⟨rfl, rfl⟩

/-- A job that moves does so alone. -/
theorem Moves.forth (h : Moves w w' call p p') {j : JobId} {errand : Errand} {p₀ : Position}
    (hat : w.At j errand p₀) : w'.At j errand (if call.job = j then p' else p₀) := by
  obtain ⟨given, hj⟩ := hat
  refine ⟨given, ?_⟩
  rw [h.jobs, getElem?_setPosition, hj, Option.map_some]
  split <;> rfl

/-- The job that moves stands at its new position. -/
theorem Moves.here (h : Moves w w' call p p') {errand : Errand} {p₀ : Position}
    (hat : w.At call.job errand p₀) : w'.At call.job errand p' := by
  have hforth := h.forth hat
  rwa [if_pos rfl] at hforth

/-- All other jobs stay where they are. -/
theorem Moves.elsewhere (h : Moves w w' call p p') {j : JobId} {errand : Errand} {p₀ : Position}
    (hne : call.job ≠ j) (hat : w.At j errand p₀) : w'.At j errand p₀ := by
  have hforth := h.forth hat
  rwa [if_neg hne] at hforth

/-- A job at another position is another job, and stays where it is. -/
theorem Moves.stays (h : Moves w w' call p p') {j : JobId} {errand : Errand} {p₀ : Position}
    (hne : p₀ ≠ p) (hat : w.At j errand p₀) : w'.At j errand p₀ := by
  refine h.elsewhere ?_ hat
  rintro rfl
  obtain ⟨errand', hat', -⟩ := h.serves
  exact hne (hat.unique hat').2

theorem Moves.back (h : Moves w w' call p p') {j : JobId} {errand : Errand} {p₁ : Position}
    (hat : w'.At j errand p₁) :
    (call.job = j ∧ p₁ = p' ∧ w.At j errand p) ∨ (call.job ≠ j ∧ w.At j errand p₁) := by
  have hmoved : (w.setPosition call.job p').At j errand p₁ := by
    rwa [At, ← h.jobs]
  rcases at_setPosition_cases hmoved with ⟨rfl, rfl, p₀, hat₀⟩ | ⟨hne, hat₁⟩
  · obtain ⟨errand', hat', -⟩ := h.serves
    exact .inl ⟨rfl, rfl, (hat'.unique hat₀).1 ▸ hat'⟩
  · exact .inr ⟨hne.symm, hat₁⟩

theorem Quiet.at_forth (h : Quiet w w') {j : JobId} {errand : Errand} (hat : w.At j errand p) :
    ∃ p', w'.At j errand p' ∧ (p' = p ∨ p'.isIdle) := by
  obtain ⟨given, hj⟩ := hat
  obtain ⟨job', hj', hsettles⟩ := h.forth hj
  refine ⟨job'.position, ⟨job'.isAbandoned, ?_⟩, hsettles.position.imp_right And.left⟩
  rw [hj', show errand = job'.errand from hsettles.errand.symm]

theorem Quiet.at_back (h : Quiet w w') {j : JobId} {errand : Errand} (hat : w'.At j errand p') :
    p' = .fresh ∨ ∃ p, w.At j errand p ∧ (p' = p ∨ p'.isIdle) := by
  obtain ⟨given, hj⟩ := hat
  rcases h.back hj with ⟨job, hj', hsettles⟩ | ⟨-, hfresh, -⟩
  · refine .inr ⟨job.position, ⟨job.isAbandoned, ?_⟩, hsettles.position.imp_right And.left⟩
    rw [hj', show errand = job.errand from hsettles.errand]
  · exact .inl hfresh

end Positions

/-! ## What every stage keeps -/

section Kept

variable {w w' : World}

/-- A job keeps its errand. -/
theorem Stage.at_forth (hs : Stage w w') {j : JobId} {errand : Errand} {p : Position}
    (hat : w.At j errand p) : ∃ p', w'.At j errand p' := by
  cases hs with
  | quiet hq =>
    obtain ⟨p', hat', -⟩ := hq.at_forth hat
    exact ⟨p', hat'⟩
  | dropped hm | numbered hm | asked hm | started hm | ended hm => exact ⟨_, hm.forth hat⟩

/-- A job that has begun goes on. -/
theorem Stage.begun_forth (hs : Stage w w') {j : JobId} {errand : Errand} {p : Position}
    (hat : w.At j errand p) (hp : p ≠ .fresh) : ∃ p', w'.At j errand p' ∧ p' ≠ .fresh := by
  have hmoves {call : Call} {p₀ p₁ : Position} (hm : Moves w w' call p₀ p₁) (hp₁ : p₁ ≠ .fresh) :
      ∃ p', w'.At j errand p' ∧ p' ≠ .fresh := by
    refine ⟨_, hm.forth hat, ?_⟩
    split
    · exact hp₁
    · exact hp
  -- No stage leads back to the beginning.
  cases hs with
  | quiet hq =>
    obtain ⟨p', hat', rfl | hidle⟩ := hq.at_forth hat
    · exact ⟨p', hat', hp⟩
    · exact ⟨p', hat', Position.ne_fresh_of_isIdle hidle⟩
  | dropped hm => exact hmoves hm (by simp)
  | numbered hm ha hp' => exact hmoves hm (by rcases hp' with rfl | rfl <;> simp)
  | asked hm => exact hmoves hm (by simp)
  | started hm => exact hmoves hm (by simp)
  | ended hm => exact hmoves hm (by simp)

/-- A job gets a number when it begins, or never. -/
theorem Stage.unnumbered_forth (hs : Stage w w') {j : JobId} {errand : Errand} {p : Position}
    (hat : w.At j errand p) (hp : p ≠ .fresh) {id : TaskId} (hid : (id, j) ∈ w'.account.numbered) :
    (id, j) ∈ w.account.numbered := by
  cases hs with
  | quiet hq => rwa [hq.account] at hid
  | dropped hm ha => rwa [ha] at hid
  | numbered hm ha =>
    rw [ha] at hid
    rcases List.mem_append.1 hid with hid | hid
    · exact hid
    · obtain ⟨-, rfl⟩ := Prod.mk.inj (List.mem_singleton.1 hid)
      obtain ⟨errand', hat', -⟩ := hm.serves
      exact absurd (hat.unique hat').2 hp
  | asked hm ha | started hm ha | ended hm ha => rwa [ha] at hid

theorem Stage.numbered_isPrefix (hs : Stage w w') :
    w.account.numbered <+: w'.account.numbered := by
  cases hs with
  | quiet hq =>
    rw [hq.account]
  | numbered hm ha =>
    rw [ha]
    exact List.prefix_append _ _
  | dropped hm ha => rw [ha]
  | asked hm ha | started hm ha | ended hm ha =>
    rw [ha]
    exact List.prefix_rfl

theorem Stage.owners_isPrefix (hs : Stage w w') :
    w.ledger.owners <+: w'.ledger.owners := by
  cases hs with
  | quiet hq => exact hq.owners
  | dropped hm | numbered hm | asked hm | started hm | ended hm =>
    change w.entries.map Entry.queue <+: w'.entries.map Entry.queue
    rw [hm.entries]

theorem Stage.history (hs : Stage w w') : w.history <:+ w'.history := by
  cases hs with
  | quiet hq => exact hq.history
  | dropped hm | numbered hm | asked hm | started hm | ended hm => exact hm.history

end Kept

/-! ## Numbers -/

/-- **Every job that takes part in an execution has a number of its own**, and asks the backend at
most once. -/
structure IsNumbered (w : World) : Prop where
  ids : w.account.numbered.map Prod.fst = (List.range w.account.lastId).map fun n => ⟨n + 1⟩
  jobs : (w.account.numbered.map Prod.snd).Nodup
  owner : ∀ {id : TaskId} {j : JobId}, (id, j) ∈ w.account.numbered →
    ∃ errand p, w.At j errand p ∧ errand.isCall ∧ p ≠ .fresh
  current : ∀ {j : JobId} {errand : Errand} {p : Position} {id : TaskId},
    w.At j errand p → p.id? = some id → (id, j) ∈ w.account.numbered
  askedOnce : w.account.asked.Nodup
  asked : ∀ id ∈ w.account.asked, ∃ j errand p,
    (id, j) ∈ w.account.numbered ∧ w.At j errand p ∧ p.isPastStart

namespace IsNumbered

variable {w w' : World}

theorem nodup_ids (h : IsNumbered w) : (w.account.numbered.map Prod.fst).Nodup := by
  rw [h.ids]
  refine List.Nodup.map (fun m n hmn => ?_) List.nodup_range
  exact Nat.succ.inj (TaskId.mk.inj hmn)

/-- A number belongs to one job. -/
theorem job_unique (h : IsNumbered w) {id : TaskId} {i j : JobId}
    (hi : (id, i) ∈ w.account.numbered) (hj : (id, j) ∈ w.account.numbered) : i = j :=
  (Prod.mk.inj (List.inj_on_of_nodup_map h.nodup_ids hi hj rfl)).2

/-- A job has one number. -/
theorem id_unique (h : IsNumbered w) {id id' : TaskId} {j : JobId}
    (hi : (id, j) ∈ w.account.numbered) (hj : (id', j) ∈ w.account.numbered) : id = id' :=
  (Prod.mk.inj (List.inj_on_of_nodup_map h.jobs hi hj rfl)).1

/-- Only jobs that execute a command take part in an execution. -/
theorem idle (h : IsNumbered w) {j : JobId} {errand : Errand} {p : Position}
    (hat : w.At j errand p) (herrand : errand.isCall = false) : p.id? = none := by
  cases hid : p.id? with
  | none => rfl
  | some id =>
    obtain ⟨errand', p', hat', hcall, -⟩ := h.owner (h.current hat hid)
    rw [← (hat.unique hat').1, herrand] at hcall
    exact absurd hcall (by simp)

theorem quiet (h : IsNumbered w) (hq : Quiet w w') : IsNumbered w' where
  ids := by rw [hq.account, h.ids]
  jobs := by rw [hq.account]; exact h.jobs
  owner hmem := by
    rw [hq.account] at hmem
    obtain ⟨errand, p, hat, hcall, hp⟩ := h.owner hmem
    obtain ⟨p', hat', rfl | hidle⟩ := hq.at_forth hat
    · exact ⟨errand, p', hat', hcall, hp⟩
    · exact ⟨errand, p', hat', hcall, Position.ne_fresh_of_isIdle hidle⟩
  current hat' hid := by
    rw [hq.account]
    rcases hq.at_back hat' with rfl | ⟨p, hat, rfl | hidle⟩
    · exact absurd hid (by simp [Position.id?])
    · exact h.current hat hid
    · rw [Position.id?_of_isIdle hidle] at hid
      exact absurd hid (by simp)
  askedOnce := by rw [hq.account]; exact h.askedOnce
  asked id hid := by
    rw [hq.account] at hid ⊢
    obtain ⟨j, errand, p, hmem, hat, hp⟩ := h.asked id hid
    obtain ⟨p', hat', rfl | hidle⟩ := hq.at_forth hat
    · exact ⟨j, errand, p', hmem, hat', hp⟩
    · exact ⟨j, errand, p', hmem, hat', Position.isPastStart_of_isIdle hidle⟩

/-- A job that moves keeps its number, if it had one, and goes on past its start request. -/
theorem moves (h : IsNumbered w) {call : Call} {p p' : Position} (hm : Moves w w' call p p')
    (hnumbered : w'.account.numbered = w.account.numbered)
    (hlast : w'.account.lastId = w.account.lastId) (hasked : w'.account.asked = w.account.asked)
    (hid : p'.id? = none ∨ p'.id? = p.id?) (hp' : p' ≠ .fresh)
    (hpast : p.isPastStart → p'.isPastStart) : IsNumbered w' where
  ids := by rw [hnumbered, hlast, h.ids]
  jobs := by rw [hnumbered]; exact h.jobs
  owner hmem := by
    rw [hnumbered] at hmem
    obtain ⟨errand, p₀, hat, hcall, hp⟩ := h.owner hmem
    refine ⟨errand, _, hm.forth hat, hcall, ?_⟩
    split
    · exact hp'
    · exact hp
  current {j errand p₁ id} hat hid₁ := by
    rw [hnumbered]
    rcases hm.back hat with ⟨-, rfl, hat₀⟩ | ⟨-, hat₀⟩
    · rcases hid with hid | hid
      · rw [hid] at hid₁
        exact absurd hid₁ (by simp)
      · exact h.current hat₀ (hid ▸ hid₁)
    · exact h.current hat₀ hid₁
  askedOnce := by rw [hasked]; exact h.askedOnce
  asked id hmem := by
    rw [hasked] at hmem
    rw [hnumbered]
    obtain ⟨j, errand, p₀, hj, hat, hp⟩ := h.asked id hmem
    refine ⟨j, errand, _, hj, hm.forth hat, ?_⟩
    split
    · next hcall =>
      obtain ⟨errand', hat', -⟩ := hm.serves
      exact hpast ((hat.unique (hcall ▸ hat')).2 ▸ hp)
    · exact hp

/-- A job that has not begun has no number. -/
theorem fresh_unnumbered (h : IsNumbered w) {j : JobId} {errand : Errand}
    (hat : w.At j errand .fresh) (id : TaskId) : (id, j) ∉ w.account.numbered := by
  intro hmem
  obtain ⟨errand', p', hat', -, hp'⟩ := h.owner hmem
  exact hp' (hat.unique hat').2.symm

theorem isCall_of_callAt {call : Call} {p : Position} (h : w.CallAt call p) :
    ∃ errand, w.At call.job errand p ∧ errand.isCall := by
  obtain ⟨errand, hat, hcall⟩ := h
  refine ⟨errand, hat, ?_⟩
  cases errand with
  | operation | execution => rfl
  | reset | watch | reopen => exact absurd hcall (by simp [callOf?])

/-- A job gets the next number. -/
theorem number (h : IsNumbered w) {call : Call} {p' : Position} (hm : Moves w w' call .fresh p')
    (ha : w'.account = w.account.number w.nextId call.job)
    (hp' : p' = .inLine w.nextId ∨ p' = .telling) : IsNumbered w' := by
  obtain ⟨errand, hat, hcall⟩ := isCall_of_callAt hm.serves
  have hnew := h.fresh_unnumbered hat
  have hnumbered : w'.account.numbered = w.account.numbered ++ [(w.nextId, call.job)] := by
    rw [ha]
    rfl
  have hfresh : p' ≠ .fresh := by rcases hp' with rfl | rfl <;> simp
  exact {
    ids := by
      have hlast : w'.account.lastId = w.account.lastId + 1 := by rw [ha]; rfl
      rw [hnumbered, hlast, List.map_append, h.ids, List.range_succ, List.map_append]
      rfl
    jobs := by
      rw [hnumbered, List.map_append]
      refine List.nodup_append.2 ⟨h.jobs, List.nodup_singleton _, ?_⟩
      intro i hi j hj hij
      obtain ⟨⟨id, i'⟩, hmem, rfl⟩ := List.mem_map.1 hi
      obtain rfl : j = call.job := List.mem_singleton.1 hj
      obtain rfl : i' = call.job := hij
      exact hnew id hmem
    owner := by
      intro id j hmem
      rw [hnumbered, List.mem_append, List.mem_singleton] at hmem
      rcases hmem with hmem | heq
      · obtain ⟨errand₀, p₀, hat₀, hcall₀, hp₀⟩ := h.owner hmem
        refine ⟨errand₀, _, hm.forth hat₀, hcall₀, ?_⟩
        split
        · exact hfresh
        · exact hp₀
      · obtain ⟨rfl, rfl⟩ := Prod.mk.inj heq
        exact ⟨errand, _, hm.forth hat, hcall, by rwa [if_pos rfl]⟩
    current := by
      intro j errand₁ p₁ id hat₁ hid
      rw [hnumbered, List.mem_append, List.mem_singleton]
      rcases hm.back hat₁ with ⟨hjob, rfl, -⟩ | ⟨-, hat₀⟩
      · rcases hp' with rfl | rfl
        · exact .inr (Prod.ext (Option.some.inj hid).symm hjob.symm)
        · exact absurd hid (by simp [Position.id?])
      · exact .inl (h.current hat₀ hid)
    askedOnce := by rw [ha]; exact h.askedOnce
    asked := by
      intro id hmem
      rw [ha] at hmem
      obtain ⟨j, errand₀, p₀, hj, hat₀, hp₀⟩ := h.asked id hmem
      rw [hnumbered]
      refine ⟨j, errand₀, _, List.mem_append_left _ hj, hm.forth hat₀, ?_⟩
      split
      · next hjob =>
        subst hjob
        rw [← (hat.unique hat₀).2] at hp₀
        exact absurd hp₀ (by simp [Position.isPastStart])
      · exact hp₀ }

/-- A job that has the right to start asks for the first time. -/
theorem ask (h : IsNumbered w) {call : Call} {id : TaskId}
    (hm : Moves w w' call (.inLine id) (.starting id)) (ha : w'.account = w.account.ask id) :
    IsNumbered w' := by
  obtain ⟨errand, hat, -⟩ := isCall_of_callAt hm.serves
  have hmem := h.current hat rfl
  have hnumbered : w'.account.numbered = w.account.numbered := by rw [ha]; rfl
  have hasked : w'.account.asked = w.account.asked ++ [id] := by rw [ha]; rfl
  have hnew : id ∉ w.account.asked := by
    intro hid
    obtain ⟨j, errand₀, p₀, hj, hat₀, hp₀⟩ := h.asked id hid
    obtain rfl := h.job_unique hmem hj
    rw [← (hat.unique hat₀).2] at hp₀
    exact absurd hp₀ (by simp [Position.isPastStart])
  exact {
    ids := by rw [hnumbered, ha]; exact h.ids
    jobs := by rw [hnumbered]; exact h.jobs
    owner := by
      intro id₀ j hj
      rw [hnumbered] at hj
      obtain ⟨errand₀, p₀, hat₀, hcall₀, hp₀⟩ := h.owner hj
      refine ⟨errand₀, _, hm.forth hat₀, hcall₀, ?_⟩
      split
      · simp
      · exact hp₀
    current := by
      intro j errand₁ p₁ id₁ hat₁ hid₁
      rw [hnumbered]
      rcases hm.back hat₁ with ⟨hjob, rfl, -⟩ | ⟨-, hat₀⟩
      · rw [← Option.some.inj hid₁, ← hjob]
        exact hmem
      · exact h.current hat₀ hid₁
    askedOnce := by
      rw [hasked]
      refine List.nodup_append.2 ⟨h.askedOnce, List.nodup_singleton _, ?_⟩
      intro id₁ hid₁ id₂ hid₂ heq
      rw [heq, List.mem_singleton.1 hid₂] at hid₁
      exact hnew hid₁
    asked := by
      intro id₁ hid₁
      rw [hasked, List.mem_append, List.mem_singleton] at hid₁
      rw [hnumbered]
      rcases hid₁ with hid₁ | rfl
      · obtain ⟨j, errand₀, p₀, hj, hat₀, hp₀⟩ := h.asked id₁ hid₁
        refine ⟨j, errand₀, _, hj, hm.forth hat₀, ?_⟩
        split
        · rfl
        · exact hp₀
      · exact ⟨call.job, errand, _, hmem, hm.forth hat, by rw [if_pos rfl]; rfl⟩ }

theorem stage (h : IsNumbered w) (hs : Stage w w') : IsNumbered w' := by
  cases hs with
  | quiet hq => exact h.quiet hq
  | dropped hm ha hp =>
    refine h.moves hm ?_ ?_ ?_ (.inl rfl) (by simp) (fun _ => rfl) <;> rw [ha]
  | numbered hm ha hp' => exact h.number hm ha hp'
  | asked hm ha hw => exact h.ask hm ha
  | started hm ha hb =>
    refine h.moves hm ?_ ?_ ?_ (.inr rfl) (by simp) (fun _ => rfl) <;> rw [ha] <;> rfl
  | ended hm ha hw =>
    refine h.moves hm ?_ ?_ ?_ (.inl rfl) (by simp) (fun _ => rfl) <;> rw [ha] <;> rfl

/-- The next task number belongs to nobody. -/
theorem nextId_unnumbered (h : IsNumbered w) (j : JobId) :
    (w.nextId, j) ∉ w.account.numbered := by
  intro hj
  have hmem : w.nextId ∈ w.account.numbered.map Prod.fst := List.mem_map_of_mem hj
  rw [h.ids, List.mem_map] at hmem
  obtain ⟨n, hn, heq⟩ := hmem
  -- The numbers given so far are those below the next one.
  have hlast : n + 1 = w.account.lastId + 1 := TaskId.mk.inj heq
  rw [List.mem_range] at hn
  omega

/-- A job with a number has it after the notes of its turn. -/
theorem current_of_callAt (hn : IsNumbered w) {call : Call} {p : Position} {id : TaskId}
    (h : w.CallAt call p) (hid : p.id? = some id) : (id, call.job) ∈ w.account.numbered := by
  obtain ⟨errand, hat, -⟩ := h
  exact hn.current hat hid

/-- A job with a number executes a call. -/
theorem exists_servesAt (hn : IsNumbered w) (ho : w.ledger.IsOrderly) {id : TaskId}
    {j : JobId} (hid : (id, j) ∈ w.account.numbered) :
    ∃ call errand p, call.job = j ∧ w.ServesAt call errand p := by
  obtain ⟨errand, p, hat, hcall, -⟩ := hn.owner hid
  cases errand with
  | operation e =>
    obtain ⟨entry, he⟩ := hat.exists_entry ho
    exact ⟨_, _, p, rfl, hat.servesAt he⟩
  | execution name command token => exact ⟨⟨j, command, token⟩, _, p, rfl, hat, rfl⟩
  | reset | watch | reopen => exact absurd hcall (by simp [Errand.isCall])

end IsNumbered

/-! ## Change by change -/

/-- **An elementary change is a stage of executing a command**, at least a quiet one. -/
theorem Change.stage {w w' : World} (hc : Change w w') (ho : w.ledger.IsOrderly)
    (hn : IsNumbered w) : Stage w w' := by
  cases hc with
  | deed hd => exact .quiet hd.quiet
  | drift hd => exact .quiet hd.quiet
  | telling ht => exact .quiet ht.quiet
  | stride hs => exact hs.stage
  | closing hc => exact .quiet (hc.quiet ho hn.idle)

theorem isNumbered_new (s : Setting) : IsNumbered s.world where
  ids := rfl
  jobs := List.nodup_nil
  owner := by simp [account, Setting.world, seen]
  current := by simp [At, Setting.world]
  askedOnce := List.nodup_nil
  asked := by simp [account, Setting.world, seen]

/-- **Jobs are numbered whenever.** -/
theorem Arises.isNumbered {w : World} (h : Arises w) : IsNumbered w :=
  h.induction isNumbered_new fun hw hn hc => hn.stage (hc.stage hw.isOrderly hn)

/-- What a change amounts to in a world that arises. -/
theorem Arises.stage {w w' : World} (h : Arises w) (hc : Change w w') : Stage w w' :=
  hc.stage h.isOrderly h.isNumbered

/-! ## In the long run -/

section Running

variable {w w' : World}

/-- A number that was given stays given. -/
theorem Arises.numbered_isPrefix (hw : Arises w) (hc : Changes w w') :
    w.account.numbered <+: w'.account.numbered := by
  induction hc with
  | refl => exact List.prefix_rfl
  | tail hc hlast ih => exact ih.trans ((hw.changes hc).stage hlast).numbered_isPrefix

/-- An entry stays on its queue. -/
theorem Arises.owners_isPrefix (hw : Arises w) (hc : Changes w w') :
    w.ledger.owners <+: w'.ledger.owners := by
  induction hc with
  | refl => exact List.prefix_rfl
  | tail hc hlast ih => exact ih.trans ((hw.changes hc).stage hlast).owners_isPrefix

/-- A job keeps its errand. -/
theorem Arises.at_forth (hw : Arises w) (hc : Changes w w') {j : JobId} {errand : Errand}
    {p : Position} (hat : w.At j errand p) : ∃ p', w'.At j errand p' := by
  induction hc with
  | refl => exact ⟨p, hat⟩
  | tail hc hlast ih =>
    obtain ⟨p₁, hat₁⟩ := ih
    exact ((hw.changes hc).stage hlast).at_forth hat₁

/-- A job that has begun does not begin anew. -/
theorem Arises.begun_forth (hw : Arises w) (hc : Changes w w') {j : JobId} {errand : Errand}
    {p : Position} (hat : w.At j errand p) (hp : p ≠ .fresh) :
    ∃ p', w'.At j errand p' ∧ p' ≠ .fresh := by
  induction hc with
  | refl => exact ⟨p, hat, hp⟩
  | tail hc hlast ih =>
    obtain ⟨p₁, hat₁, hp₁⟩ := ih
    exact ((hw.changes hc).stage hlast).begun_forth hat₁ hp₁

end Running

end World

end FolderTasks.Dispatch
