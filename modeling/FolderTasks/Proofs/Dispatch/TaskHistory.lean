import FolderTasks.Proofs.Dispatch.LastingFacts
/-!
# The history of a task

The facts about one task tell a short story.  A task that got its number is skipped, refused, or
started; a started one comes to its end by itself or is terminated, and the observers are told of
its start and of its end.  The position of its job says how far the story has come, and the record
that the backend keeps agrees with it.

## Main definitions

* `World.annals`, `World.filed`: the facts about a task, and what the backend keeps of it.
* `Chapter`: how far the story of a task has come.
* `World.IsChronicled`: the facts about every task tell a story that fits its job.

## Main statements

* `World.Arises.isChronicled`: they do so whenever.

## Design notes

What observers do when they are told, and that somebody waits for the right to start, is not part
of the story.  A job whose start observers panicked and a job that was given up leave the story
where it was; no other job does.
-/

namespace FolderTasks

/-- Has an execution ended, and was it ended from outside? -/
def Record.state (r : Record) : Bool × Bool := (r.endedAt.isSome, r.terminated)

namespace Scripted

/-- The records of a task. -/
def recordsOf (b : Scripted) (id : TaskId) : List Record := b.records.filter fun r => r.id = id

theorem recordsOf_start {b b' : Scripted} {now : Nat} {id : TaskId} {c : Command} {e : Execution}
    (h : b.start now id c = .ok (b', e)) (id' : TaskId) : b'.recordsOf id' =
      b.recordsOf id' ++ if id = id' then [{ id, args := c.args, startedAt := now }] else [] := by
  rw [recordsOf, recordsOf, (start_eq_ok h).1, List.filter_append, List.filter_cons]
  simp

theorem filter_finishRecord_of_ne {now : Nat} {id id' : TaskId} {terminated : Bool} (hne : id' ≠ id)
    {records records' : List Record} (h : finishRecord now id terminated records = some records') :
    (records'.filter fun r => r.id = id') = records.filter fun r => r.id = id' := by
  induction records generalizing records' with
  | nil => exact absurd h (by simp [finishRecord])
  | cons r records ih =>
    rw [finishRecord] at h
    split at h
    · next hr =>
      obtain rfl := Option.some.inj h
      rw [List.filter_cons_of_neg (by simp [hr.1, hne.symm]),
        List.filter_cons_of_neg (by simp [hr.1, hne.symm])]
    · obtain ⟨rest, hrest, rfl⟩ := Option.map_eq_some_iff.1 h
      rw [List.filter_cons, List.filter_cons, ih hrest]

/-- Another task's execution ends. -/
theorem recordsOf_finish_of_ne (b : Scripted) (now : Nat) {id id' : TaskId} (terminated : Bool)
    (hne : id' ≠ id) : (b.finish now id terminated).recordsOf id' = b.recordsOf id' := by
  unfold finish
  split
  · rfl
  · next records h => exact filter_finishRecord_of_ne hne h

theorem exists_finishRecord (now : Nat) {id : TaskId} (terminated : Bool) {records : List Record}
    {r : Record} (h : (records.filter fun r => r.id = id) = [r]) (hend : r.endedAt = none) :
    ∃ records', finishRecord now id terminated records = some records' ∧
      (records'.filter fun r => r.id = id) = [{ r with endedAt := some now, terminated }] := by
  induction records with
  | nil => exact absurd h (by simp)
  | cons r' records ih =>
    rw [finishRecord]
    by_cases hid : r'.id = id
    · rw [List.filter_cons_of_pos (by simp [hid])] at h
      obtain ⟨rfl, hnone⟩ := List.cons.inj h
      rw [if_pos ⟨hid, hend⟩]
      refine ⟨_, rfl, ?_⟩
      rw [List.filter_cons_of_pos (by simp [hid]), hnone]
    · rw [List.filter_cons_of_neg (by simp [hid])] at h
      obtain ⟨records', hfinish, hrecords'⟩ := ih h
      rw [if_neg fun hr => hid hr.1, hfinish]
      refine ⟨_, rfl, ?_⟩
      rw [List.filter_cons_of_neg (by simp [hid]), hrecords']

/-- The only execution of a task ends. -/
theorem recordsOf_finish {b : Scripted} {id : TaskId} {r : Record} (h : b.recordsOf id = [r])
    (hend : r.endedAt = none) (now : Nat) (terminated : Bool) :
    (b.finish now id terminated).recordsOf id = [{ r with endedAt := some now, terminated }] := by
  obtain ⟨records', hfinish, hrecords'⟩ := exists_finishRecord now terminated h hend
  rw [finish, hfinish]
  exact hrecords'

end Scripted

namespace Dispatch

/-- The task whose story a fact belongs to. -/
def Happening.task? : Happening → Option TaskId
  | .cancelledBeforeStart id | .startAsked id _ | .started id _ | .startFailed id _ _
  | .startAnnounced id _ | .terminating id | .ended id _ _ | .endAnnounced id _ _ => some id
  | _ => none

theorem Happening.origin_of_task? {x : Happening} (h : x.task? ≠ none) : x.origin = .stride := by
  cases x <;> first | rfl | exact absurd rfl h

/-- How far the story of a task has come. -/
inductive Chapter where
  /-- The task has its number. -/
  | lined
  /-- The backend was asked to start it. -/
  | asked
  /-- It was started. -/
  | begun
  /-- It was cancelled before the backend was asked. -/
  | skipped
  /-- The backend refused to start it. -/
  | refused (failure : Failure)
  /-- It came to its end by itself. -/
  | completed (code : Option Int32)
  /-- It was ended because it was cancelled. -/
  | terminated
deriving DecidableEq

namespace Chapter

/-- The facts that tell the story of a task so far. -/
def facts (id : TaskId) (c : Command) : Chapter → List Happening
  | .lined => []
  | .asked => [.startAsked id c]
  | .begun => [.startAsked id c, .started id c, .startAnnounced id c]
  | .skipped => [.cancelledBeforeStart id]
  | .refused f => [.startAsked id c, .startFailed id c f]
  | .completed code => [.startAsked id c, .started id c, .startAnnounced id c, .ended id c code,
      .endAnnounced id c code]
  | .terminated => [.startAsked id c, .started id c, .startAnnounced id c, .terminating id,
      .ended id c none, .endAnnounced id c none]

/-- What the backend keeps of the task. -/
def filed : Chapter → List (Bool × Bool)
  | .begun => [(false, false)]
  | .completed _ => [(true, false)]
  | .terminated => [(true, true)]
  | .lined | .asked | .skipped | .refused _ => []

/-- What the execution of the command comes to. -/
def result? : Chapter → Option (Except Failure Outcome)
  | .lined | .asked | .begun => none
  | .skipped | .terminated => some (.ok .cancelled)
  | .refused f => some (.error f)
  | .completed code => some (.ok (.ofCode code))

/-- Is the story told to its end? -/
def isOver (ch : Chapter) : Bool := ch.result?.isSome

/-- A story that is over does not go on. -/
theorem eq_of_prefix {id : TaskId} {c c' : Command} {ch ch' : Chapter} (hover : ch.isOver)
    (h : ch.facts id c <+: ch'.facts id c') : ch = ch' ∧ ch.facts id c = ch'.facts id c' := by
  cases ch <;> first | exact Bool.noConfusion hover | cases ch' <;> simp_all [facts]

end Chapter

/-- How far the story has come that a job is part of. -/
def Position.chapter? : Position → Option Chapter
  | .inLine _ => some .lined
  | .starting _ => some .asked
  | .running _ _ => some .begun
  | .fresh | .telling | .awaiting _ _ | .done => none

theorem Position.chapter?_eq_none {p : Position} (h : p.id? = none) : p.chapter? = none := by
  cases p <;> first | rfl | exact absurd h (by simp [Position.id?])

namespace World

/-- The facts about a task, in the order in which they happened. -/
def annals (w : World) (id : TaskId) : List Happening :=
  w.seen fun x => if x.task? = some id then some x else none

/-- What the backend keeps of a task. -/
def filed (w : World) (id : TaskId) : List (Bool × Bool) :=
  (w.backend.recordsOf id).map Record.state

/-- The story of a task has come to a chapter. -/
structure Tells (w : World) (id : TaskId) (c : Command) (ch : Chapter) : Prop where
  annals : w.annals id = ch.facts id c
  filed : w.filed id = ch.filed

/-- The story of a task is left where it was, because an observer of the start panicked or the job
was given up. -/
def IsCutOff (w : World) (id : TaskId) (j : JobId) : Prop :=
  (∃ t, (t, .observerPanicked .start id) ∈ w.history) ∨
    ∃ job, w.jobs[j]? = some job ∧ job.isAbandoned

/-- A chapter fits the position of a job. -/
structure Fits (w : World) (call : Call) (id : TaskId) (p : Position) (ch : Chapter) : Prop where
  position : p.chapter? = some ch ∨ p.chapter? = none ∧ (ch.isOver ∨ w.IsCutOff id call.job)
  skipped : ch = .skipped → w.isCancelled call.token

/-- **The facts about every task tell a story** that fits its job. -/
structure IsChronicled (w : World) : Prop where
  /-- Nothing is told of a task that has no number yet. -/
  blank : ∀ {id : TaskId}, (∀ j, (id, j) ∉ w.account.numbered) →
    w.annals id = [] ∧ w.filed id = []
  told : ∀ {id : TaskId} {call : Call} {errand : Errand} {p : Position},
    (id, call.job) ∈ w.account.numbered → w.ServesAt call errand p →
    ∃ ch, w.Tells id call.command ch ∧ w.Fits call id p ch

/-! ## The facts of one task -/

section Annals

variable {w w' : World} {id : TaskId}

theorem annals_note (w : World) (x : Happening) (id : TaskId) :
    (w.note x).annals id = w.annals id ++ if x.task? = some id then [x] else [] := by
  rw [annals, seen_note]
  split <;> rfl

/-- A fact about a task is added to its annals, and to no others. -/
theorem annals_note_of_task (w : World) {x : Happening} (hx : x.task? = some id) (id' : TaskId) :
    (w.note x).annals id' = w.annals id' ++ if id = id' then [x] else [] := by
  rw [annals_note, hx]
  simp

/-- A fact about a task is one of its annals. -/
theorem mem_annals {w : World} {id : TaskId} {x : Happening} (hx : x.task? = some id) :
    x ∈ w.annals id ↔ ∃ t, (t, x) ∈ w.history := by
  rw [annals, mem_seen]
  constructor
  · rintro ⟨⟨t, y⟩, hmem, hy⟩
    split at hy
    · obtain rfl := Option.some.inj hy
      exact ⟨t, hmem⟩
    · exact absurd hy (by simp)
  · rintro ⟨t, hmem⟩
    exact ⟨(t, x), hmem, if_pos hx⟩

/-- Only the stages of executing a command tell more of a story. -/
theorem Lasts.annals_eq {O : List Origin} (h : Lasts O w w')
    (ho : .stride ∉ O) (id : TaskId) : w'.annals id = w.annals id := by
  refine h.seen_eq ?_
  intro x hx
  refine if_neg ?_
  intro htask
  rw [Happening.origin_of_task? (by simp [htask])] at hx
  exact ho hx

@[simp] theorem annals_setPosition (w : World) (j : JobId) (p : Position) (id : TaskId) :
    (w.setPosition j p).annals id = w.annals id := rfl

theorem annals_setBackend (w : World) (b : Scripted) (id : TaskId) :
    (w.setBackend b).annals id = w.annals id := rfl

@[simp] theorem annals_takeNumber (w : World) (j : JobId) (id : TaskId) :
    (w.takeNumber j).annals id = w.annals id := by
  rw [takeNumber, annals_note, if_neg (by simp [Happening.task?]), List.append_nil]
  rfl

@[simp] theorem annals_waitsToStart (w : World) (j : JobId) (id : TaskId) :
    ((w.takeNumber j).note (.waitsToStart w.nextId)).annals id = w.annals id := by
  rw [annals_note, if_neg (by simp [Happening.task?]), List.append_nil, annals_takeNumber]

@[simp] theorem annals_releaseGuard (w : World) (id : TaskId) :
    w.releaseGuard.annals id = w.annals id := by
  obtain ⟨ready, heq⟩ := releaseGuard_eq w
  rw [heq]
  rfl

@[simp] theorem annals_listen (w : World) (token : Option String) (j : JobId) (id : TaskId) :
    (w.listen token j).annals id = w.annals id := by
  obtain ⟨tokens, heq⟩ := listen_eq w token j
  rw [heq]
  rfl

@[simp] theorem filed_releaseGuard (w : World) (id : TaskId) :
    w.releaseGuard.filed id = w.filed id := by
  obtain ⟨ready, heq⟩ := releaseGuard_eq w
  rw [heq]
  rfl

@[simp] theorem filed_note (w : World) (x : Happening) (id : TaskId) :
    (w.note x).filed id = w.filed id := rfl

@[simp] theorem filed_listen (w : World) (token : Option String) (j : JobId) (id : TaskId) :
    (w.listen token j).filed id = w.filed id := by
  obtain ⟨tokens, heq⟩ := listen_eq w token j
  rw [heq]
  rfl

/-- The record of a task while its execution runs. -/
theorem exists_record_of_begun (h : w.filed id = Chapter.begun.filed) :
    ∃ r, w.backend.recordsOf id = [r] ∧ r.endedAt = none ∧ r.terminated = false := by
  obtain ⟨r, hr, hstate⟩ := List.map_eq_singleton_iff.1 h
  obtain ⟨hend, hterminated⟩ := Prod.mk.inj hstate
  exact ⟨r, hr, by simpa using hend, hterminated⟩

end Annals

/-! ## How a story goes on -/

/-- **The story of a task goes on** from one chapter to another, and no other story does. -/
structure Continues (w w' : World) (id : TaskId) (c : Command) (ch ch' : Chapter) : Prop where
  own : w.Tells id c ch → w'.Tells id c ch'
  others : ∀ id', id' ≠ id → w'.annals id' = w.annals id' ∧ w'.filed id' = w.filed id'

namespace Continues

section Facts

variable {w w' w'' : World} {id : TaskId} {c : Command} {ch ch' ch'' : Chapter}
  {more : List Happening}

theorem trans (h : Continues w w' id c ch ch') (h' : Continues w' w'' id c ch' ch'') :
    Continues w w'' id c ch ch'' := by
  refine ⟨fun htells => h'.own (h.own htells), ?_⟩
  intro id' hne
  obtain ⟨hannals, hfiled⟩ := h.others id' hne
  obtain ⟨hannals', hfiled'⟩ := h'.others id' hne
  exact ⟨hannals'.trans hannals, hfiled'.trans hfiled⟩

/-- More facts are told of a task, and what the backend keeps of it changes with them. -/
theorem of_facts (hfacts : ch'.facts id c = ch.facts id c ++ more)
    (hannals : ∀ id', w'.annals id' = w.annals id' ++ if id = id' then more else [])
    (hown : w.filed id = ch.filed → w'.filed id = ch'.filed)
    (hother : ∀ id', id' ≠ id → w'.filed id' = w.filed id') : Continues w w' id c ch ch' := by
  refine ⟨?_, ?_⟩
  · intro htells
    refine ⟨?_, hown htells.filed⟩
    rw [hannals, if_pos rfl, htells.annals, hfacts]
  · intro id' hne
    refine ⟨?_, hother id' hne⟩
    rw [hannals, if_neg hne.symm, List.append_nil]

/-- The story stays where it is. -/
theorem of_eq (hannals : ∀ id', w'.annals id' = w.annals id')
    (hfiled : ∀ id', w'.filed id' = w.filed id') : Continues w w' id c ch ch := by
  refine of_facts (List.append_nil _).symm ?_ ?_ fun id' _ => hfiled id'
  · intro id'
    rw [hannals, ite_self, List.append_nil]
  · exact fun h => (hfiled id).trans h

/-- The execution of the task ends. -/
theorem of_finish {terminated : Bool} (hfacts : ch'.facts id c = Chapter.begun.facts id c ++ more)
    (hends : ch'.filed = [(true, terminated)])
    (hbackend : w'.backend = w.backend.finish w.clock id terminated)
    (hannals : ∀ id', w'.annals id' = w.annals id' ++ if id = id' then more else []) :
    Continues w w' id c .begun ch' := by
  refine of_facts hfacts hannals ?_ ?_
  · intro hbegun
    obtain ⟨r, hr, hend, -⟩ := exists_record_of_begun hbegun
    rw [hends, filed, hbackend, Scripted.recordsOf_finish hr hend]
    rfl
  · intro id' hne
    rw [filed, hbackend, Scripted.recordsOf_finish_of_ne w.backend w.clock terminated hne]
    rfl

end Facts

variable (w : World) (id : TaskId) (c : Command) (j : JobId) (p : Position)

theorem ask : Continues w ((w.note (.startAsked id c)).setPosition j p) id c .lined .asked :=
  of_facts rfl (annals_note_of_task w rfl) (fun h => h) fun _ _ => rfl

theorem skip :
    Continues w ((w.note (.cancelledBeforeStart id)).setPosition j p) id c .lined .skipped :=
  of_facts rfl (annals_note_of_task w rfl) (fun h => h) fun _ _ => rfl

theorem refuse (f : Failure) :
    Continues w (((w.note (.startFailed id c f)).setPosition j p).releaseGuard) id c .asked
      (.refused f) := by
  refine of_facts rfl ?_ ?_ ?_
  · intro id'
    rw [annals_releaseGuard]
    exact annals_note_of_task w rfl id'
  · exact fun h => (filed_releaseGuard _ id).trans h
  · exact fun id' _ => filed_releaseGuard _ id'

theorem start {b : Scripted} {e : Execution} (hb : w.backend.start w.clock id c = .ok (b, e)) :
    Continues w (((((w.setBackend b).note (.started id c)).setPosition j p).releaseGuard).note
      (.startAnnounced id c)) id c .asked .begun := by
  have hfiled (id' : TaskId) : filed (((((w.setBackend b).note (.started id c)).setPosition j
      p).releaseGuard).note (.startAnnounced id c)) id' =
        w.filed id' ++ if id = id' then [(false, false)] else [] := by
    rw [filed_note, filed_releaseGuard]
    change (b.recordsOf id').map Record.state = _
    rw [Scripted.recordsOf_start hb, List.map_append]
    split <;> rfl
  refine of_facts rfl ?_ ?_ ?_
  · intro id'
    by_cases hid : id = id' <;> simp [annals_note, annals_setBackend, Happening.task?, hid]
  · intro h
    rw [hfiled, h, if_pos rfl]
    rfl
  · intro id' hne
    rw [hfiled, if_neg hne.symm, List.append_nil]

theorem complete (code : Option Int32) :
    Continues w ((((w.setBackend (w.backend.finish w.clock id false)).note
      (.ended id c code)).setPosition j p).note (.endAnnounced id c code)) id c .begun
      (.completed code) := by
  refine of_finish rfl rfl rfl ?_
  intro id'
  by_cases hid : id = id' <;> simp [annals_note, annals_setBackend, Happening.task?, hid]

theorem terminate :
    Continues w (((((w.note (.terminating id)).setBackend (w.backend.finish w.clock id true)).note
      (.ended id c none)).setPosition j p).note (.endAnnounced id c none)) id c .begun
      .terminated := by
  refine of_finish rfl rfl rfl ?_
  intro id'
  by_cases hid : id = id' <;> simp [annals_note, annals_setBackend, Happening.task?, hid]

end Continues

/-- What tells nothing of a task leaves its story. -/
theorem Tells.of_eq {w w' : World} {id : TaskId} {c : Command} {ch : Chapter}
    (h : w.Tells id c ch) (hannals : w'.annals id = w.annals id)
    (hfiled : w'.filed id = w.filed id) : w'.Tells id c ch :=
  ⟨hannals.trans h.annals, hfiled.trans h.filed⟩

/-! ## From one world to the next -/

section Forth

variable {O : List Origin} {w w' : World}

/-- A job that was given up stays given up. -/
theorem Stage.abandoned_forth (hs : Stage w w') {j : JobId}
    (h : ∃ job, w.jobs[j]? = some job ∧ job.isAbandoned) :
    ∃ job, w'.jobs[j]? = some job ∧ job.isAbandoned := by
  obtain ⟨job, hj, ha⟩ := h
  have hmoves {call : Call} {p p' : Position} (hm : Moves w w' call p p') :
      ∃ job, w'.jobs[j]? = some job ∧ job.isAbandoned := by
    refine ⟨if call.job = j then { job with position := p' } else job, ?_, ?_⟩
    · rw [hm.jobs, getElem?_setPosition, hj, Option.map_some]
    · split <;> exact ha
  cases hs with
  | quiet hq =>
    obtain ⟨job', hj', hsettles⟩ := hq.forth hj
    exact ⟨job', hj', hsettles.given ha⟩
  | dropped hm | numbered hm | asked hm | started hm | ended hm => exact hmoves hm

theorem Stage.isCutOff (hs : Stage w w') {id : TaskId} {j : JobId} (h : w.IsCutOff id j) :
    w'.IsCutOff id j := by
  rcases h with ⟨t, ht⟩ | habandoned
  · exact .inl ⟨t, hs.history.subset ht⟩
  · exact .inr (hs.abandoned_forth habandoned)

/-- A job has the call that it had. -/
theorem At.callOf?_back (ho : w.ledger.IsOrderly) (hl : Lasts O w w') {j : JobId}
    {errand : Errand} {p : Position} {call : Call} (hat : w.At j errand p)
    (hc : w'.callOf? j errand = some call) : w.callOf? j errand = some call := by
  cases errand with
  -- The entry is there already, and what lasts cannot have replaced its order.
  | operation e =>
    obtain ⟨entry, he⟩ := hat.exists_entry ho
    have hcall := (hat.servesAt he).2
    rw [hcall, ← hl.callOf? hcall, hc]
  | execution | reset | watch | reopen => exact hc

theorem Fits.forth (hs : Stage w w') (hl : Lasts O w w') {call : Call} {id : TaskId}
    {p : Position} {ch : Chapter} (h : w.Fits call id p ch) : w'.Fits call id p ch := by
  refine ⟨?_, ?_⟩
  · rcases h.position with hp | ⟨hp, hover | hcut⟩
    · exact .inl hp
    · exact .inr ⟨hp, .inl hover⟩
    · exact .inr ⟨hp, .inr (hs.isCutOff hcut)⟩
  · intro hch
    exact hl.cancelled _ (h.skipped hch)

end Forth

namespace IsChronicled

variable {O : List Origin} {w w' : World} {call : Call} {errand : Errand} {p p' : Position}
  {id : TaskId}

/-- The position of a job says how far the story of its task has come. -/
theorem tells (h : IsChronicled w) (hn : IsNumbered w) (hserves : w.ServesAt call errand p)
    (hid : p.id? = some id) {ch : Chapter} (hp : p.chapter? = some ch) :
    w.Tells id call.command ch := by
  obtain ⟨ch', htells, hfits⟩ := h.told (hn.current hserves.1 hid) hserves
  rcases hfits.position with hch | ⟨hnone, -⟩
  · obtain rfl := Option.some.inj (hp.symm.trans hch)
    exact htells
  · rw [hp] at hnone
    exact absurd hnone (by simp)

variable (h : IsChronicled w) (ho : w.ledger.IsOrderly) (hl : Lasts O w w')

include h ho hl

/-- A change that tells nothing. -/
theorem quiet (hn : IsNumbered w) (hq : Quiet w w') (hannals : ∀ id, w'.annals id = w.annals id) :
    IsChronicled w' := by
  have hfiled (id : TaskId) : w'.filed id = w.filed id := by
    have hrecords : w'.backend.records = w.backend.records := congrArg Account.records hq.account
    rw [filed, filed, Scripted.recordsOf, Scripted.recordsOf, hrecords]
  refine ⟨?_, ?_⟩
  · intro id hid
    rw [hq.account] at hid
    rw [hannals, hfiled]
    exact h.blank hid
  · intro id call errand p hid hserves
    rw [hq.account] at hid
    obtain ⟨given, hj⟩ := hserves.1
    rcases hq.back hj with ⟨job, hjob, hsettles⟩ | ⟨hnone, -⟩
    · -- The job was there, and if it moved, it had no part in an execution or was given up.
      have hat : w.At call.job errand job.position :=
        ⟨job.isAbandoned, by rw [hjob, show errand = job.errand from hsettles.errand]⟩
      obtain ⟨ch, htells, hfits⟩ := h.told hid ⟨hat, hat.callOf?_back ho hl hserves.2⟩
      have hforth := hfits.forth (.quiet hq) hl
      refine ⟨ch, htells.of_eq (hannals id) (hfiled id), ?_, hforth.skipped⟩
      rcases hsettles.position with hp | ⟨hidle, hid | ⟨ha, -⟩⟩
      · rw [show p = job.position from hp]
        exact hforth.position
      · refine .inr ⟨Position.chapter?_eq_none (Position.id?_of_isIdle hidle), ?_⟩
        rcases hforth.position with hp | ⟨-, hover⟩
        · rw [Position.chapter?_eq_none hid] at hp
          exact absurd hp (by simp)
        · exact hover
      · refine .inr ⟨Position.chapter?_eq_none (Position.id?_of_isIdle hidle), .inr (.inr ?_)⟩
        exact ⟨_, hj, hsettles.given ha⟩
    · obtain ⟨errand', p', ⟨given', hat'⟩, -⟩ := hn.owner hid
      rw [hnone] at hat'
      exact absurd hat' (by simp)

/-- A job moves, and the story of its task may go on. -/
theorem moves (hs : Stage w w') (hn' : IsNumbered w') (hm : Moves w w' call p p')
    (hback : ∀ {id : TaskId} {j : JobId}, call.job ≠ j → (id, j) ∈ w'.account.numbered →
      (id, j) ∈ w.account.numbered)
    (hother : ∀ id, (id, call.job) ∉ w'.account.numbered →
      w'.annals id = w.annals id ∧ w'.filed id = w.filed id)
    (hown : ∀ id, (id, call.job) ∈ w'.account.numbered →
      ∃ ch, w'.Tells id call.command ch ∧ w'.Fits call id p' ch) : IsChronicled w' := by
  refine ⟨?_, ?_⟩
  · intro id hid
    obtain ⟨hannals, hfiled⟩ := hother id (hid _)
    rw [hannals, hfiled]
    refine h.blank ?_
    intro j hj
    exact hid j (hs.numbered_isPrefix.subset hj)
  · intro id call' errand p₁ hid hserves
    -- The job that moved has what is assumed of it; every other job is where it was.
    rcases hm.back hserves.1 with ⟨hjob, rfl, hat⟩ | ⟨hne, hat⟩
    · obtain ⟨errand₀, hat₀, hcall₀⟩ := hm.serves
      rw [← hjob] at hid hat
      obtain ⟨rfl, -⟩ := hat₀.unique hat
      have hcall := hl.callOf? hcall₀
      rw [hjob] at hcall
      obtain rfl : call = call' := Option.some.inj (hcall.symm.trans hserves.2)
      exact hown id hid
    · obtain ⟨hannals, hfiled⟩ := hother id fun hid' => hne (hn'.job_unique hid' hid)
      obtain ⟨ch, htells, hfits⟩ := h.told (hback hne hid) ⟨hat, hat.callOf?_back ho hl hserves.2⟩
      exact ⟨ch, htells.of_eq hannals hfiled, hfits.forth hs hl⟩

/-- The story of the task goes on that a job has. -/
theorem goesOn {ch ch' : Chapter} (hs : Stage w w') (hn : IsNumbered w)
    (hm : Moves w w' call p p') (hid : p.id? = some id) (hp : p.chapter? = some ch)
    (hnumbered : w'.account.numbered = w.account.numbered)
    (hc : Continues w w' id call.command ch ch') (hfits : w'.Fits call id p' ch') :
    IsChronicled w' := by
  obtain ⟨errand, hserves⟩ := hm.serves
  have hmem : (id, call.job) ∈ w'.account.numbered := hnumbered ▸ hn.current hserves.1 hid
  refine h.moves ho hl hs (hn.stage hs) hm ?_ ?_ ?_
  · intro id' j hne hj
    rwa [hnumbered] at hj
  · intro id' hid'
    refine hc.others id' ?_
    rintro rfl
    exact hid' hmem
  · intro id' hid'
    obtain rfl := (hn.stage hs).id_unique hmem hid'
    exact ⟨ch', hc.own (h.tells hn hserves hid hp), hfits⟩

/-- The story of a task begins as a job gets its number. -/
theorem begins {ch : Chapter} (hs : Stage w w') (hn : IsNumbered w)
    (hm : Moves w w' call .fresh p')
    (hnumbered : w'.account.numbered = w.account.numbered ++ [(w.nextId, call.job)])
    (hc : Continues w w' w.nextId call.command .lined ch) (hfits : w'.Fits call w.nextId p' ch) :
    IsChronicled w' := by
  have hmem : (w.nextId, call.job) ∈ w'.account.numbered := by simp [hnumbered]
  refine h.moves ho hl hs (hn.stage hs) hm ?_ ?_ ?_
  · intro id' j hne hj
    rw [hnumbered, List.mem_append, List.mem_singleton] at hj
    rcases hj with hj | hj
    · exact hj
    · exact absurd (Prod.mk.inj hj).2.symm hne
  · intro id' hid'
    refine hc.others id' ?_
    rintro rfl
    exact hid' hmem
  · intro id' hid'
    obtain rfl := (hn.stage hs).id_unique hmem hid'
    obtain ⟨hannals, hfiled⟩ := h.blank hn.nextId_unnumbered
    exact ⟨ch, hc.own ⟨hannals, hfiled⟩, hfits⟩

end IsChronicled

/-! ## Change by change -/

section Changes

variable {w w' : World}

/-- **A stage of executing a command** goes on with the story of one task. -/
theorem Stride.isChronicled (hs : Stride w w') (h : IsChronicled w) (ho : w.ledger.IsOrderly)
    (hn : IsNumbered w) : IsChronicled w' := by
  have hstage := hs.stage
  have hl := hs.lasts
  cases hs with
  | @rejected call hcall hd =>
    refine h.moves ho hl hstage (hn.stage hstage) ⟨hcall, rfl, rfl, rfl, hl.history⟩
      (fun _ hj => hj) (fun _ _ => ⟨rfl, rfl⟩) ?_
    intro id hid
    obtain ⟨errand, hat, -⟩ := hcall
    exact absurd hid (hn.fresh_unnumbered hat id)
  | guardTaken hcall hd hg =>
    refine h.begins ho hl hstage hn ⟨hcall, rfl, rfl, rfl, hl.history⟩ ?_
      (.of_eq (annals_takeNumber w _) fun _ => rfl) ⟨.inl rfl, by simp⟩
    exact congrArg Account.numbered (account_takeNumber w _)
  | lineJoined hcall hd hg hc =>
    refine h.begins ho hl hstage hn hcall.joins ?_ (.of_eq ?_ ?_) ⟨.inl rfl, by simp⟩
    · refine (congrArg Account.numbered (adds_listen _ _ _).account).trans ?_
      exact congrArg Account.numbered (account_takeNumber w _)
    · exact fun id => (annals_listen _ _ _ id).trans (annals_waitsToStart w _ id)
    · exact fun id => filed_listen _ _ _ id
  | turnedAway hcall hd hg hc =>
    refine h.begins ho hl hstage hn ⟨hcall, rfl, rfl, rfl, hl.history⟩ ?_
      (.trans (.of_eq (annals_waitsToStart w _) fun _ => rfl) (.skip ..))
      ⟨.inr ⟨rfl, .inl rfl⟩, fun _ => hc⟩
    exact congrArg Account.numbered (account_takeNumber w _)
  | unlistened j token =>
    refine h.quiet ho hl hn (adds_unlisten w token j).quiet ?_
    intro id
    obtain ⟨tokens, heq⟩ := unlisten_eq w token j
    rw [heq]
    rfl
  | timerCleared | startDelayed =>
    exact h.quiet ho hl hn (Adds.quiet (.of_eq rfl rfl rfl rfl rfl)) fun _ => rfl
  | @lineLeft call id hcall hg hc =>
    have hleft : Continues w (w.leaveLine call.job) id call.command .lined .lined :=
      .of_eq (fun _ => rfl) fun _ => rfl
    exact h.goesOn ho hl hstage hn ⟨hcall, rfl, rfl, rfl, hl.history⟩ rfl rfl rfl
      (hleft.trans (.skip ..)) ⟨.inr ⟨rfl, .inl rfl⟩, fun _ => hc⟩
  | guardReturned hcall hg hc =>
    exact h.goesOn ho hl hstage hn hcall.returns rfl rfl
      (congrArg Account.numbered (adds_releaseGuard w).account)
      (.trans (.of_eq (annals_releaseGuard w) (filed_releaseGuard w)) (.skip w.releaseGuard ..))
      ⟨.inr ⟨rfl, .inl rfl⟩, fun _ => hl.cancelled _ hc⟩
  | startAsked hcall hg hc =>
    exact h.goesOn ho hl hstage hn ⟨hcall, rfl, rfl, rfl, hl.history⟩ rfl rfl rfl (.ask ..)
      ⟨.inl rfl, by simp⟩
  | refused hcall hb =>
    exact h.goesOn ho hl hstage hn (hcall.refused _) rfl rfl
      (congrArg Account.numbered (adds_releaseGuard _).account) (.refuse ..)
      ⟨.inr ⟨rfl, .inl rfl⟩, by simp⟩
  | @started call id b execution hcall hb =>
    have hnumbered := congrArg Account.numbered (adds_releaseGuard (((w.setBackend b).note
      (.started id call.command)).setPosition call.job (.running id execution))).account
    exact h.goesOn ho hl hstage hn (hcall.starts b execution) rfl rfl hnumbered
      (.start w _ _ _ _ hb) ⟨.inl rfl, by simp⟩
  | forsaken hcall hp =>
    exact h.goesOn ho hl hstage hn ⟨hcall, rfl, rfl, rfl, hl.history⟩ rfl rfl rfl
      (.of_eq (fun _ => rfl) fun _ => rfl) ⟨.inr ⟨rfl, .inr (.inl hp)⟩, by simp⟩
  | @endAwaited call id execution hcall =>
    obtain ⟨tokens, heq⟩ := listen_eq (w.setTimer execution.deadline call.job) call.token call.job
    rw [heq] at hl ⊢
    exact h.quiet ho hl hn (Adds.quiet (.of_eq rfl rfl rfl rfl rfl)) fun _ => rfl
  | completed hcall hd =>
    exact h.goesOn ho hl hstage hn ⟨hcall, rfl, rfl, rfl, hl.history⟩ rfl rfl rfl (.complete ..)
      ⟨.inr ⟨rfl, .inl rfl⟩, by simp⟩
  | terminated hcall hd hc =>
    exact h.goesOn ho hl hstage hn ⟨hcall, rfl, rfl, rfl, hl.history⟩ rfl rfl rfl (.terminate ..)
      ⟨.inr ⟨rfl, .inl rfl⟩, by simp⟩

/-- **The facts about every task tell a story**, whatever happens. -/
theorem Arises.isChronicled (h : Arises w) : IsChronicled w := by
  refine h.induction ?_ ?_
  · intro s
    refine ⟨fun _ => ⟨rfl, rfl⟩, ?_⟩
    intro id call errand p hid
    exact absurd hid (by simp [account, Setting.world, seen])
  · intro w w' hw h hc
    have ho := hw.isOrderly
    have hn := hw.isNumbered
    cases hc with
    | deed hd => exact h.quiet ho hd.mild.toLasts hn hd.quiet (hd.mild.annals_eq (by simp))
    | drift hd => exact h.quiet ho hd.lasts hn hd.quiet (hd.lasts.annals_eq (by simp))
    | telling ht => exact h.quiet ho ht.mild.toLasts hn ht.quiet (ht.mild.annals_eq (by simp))
    | stride hs => exact hs.isChronicled h ho hn
    | closing hc =>
      have hl := hc.lasts ho hn
      exact h.quiet ho hl hn (hc.quiet ho hn.idle) (hl.annals_eq (by simp))

end Changes

end World

end Dispatch

end FolderTasks
