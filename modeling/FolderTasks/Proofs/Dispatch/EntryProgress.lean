import FolderTasks.Proofs.Dispatch.ReportBlocks
import FolderTasks.Proofs.Dispatch.HonouredRequests
import FolderTasks.Proofs.Dispatch.PunctualRuns
import FolderTasks.Proofs.Dispatch.SequentialServer
import FolderTasks.Proofs.Dispatch.EntryActivation
/-!
# How the entries of a queue get on

A request that becomes an entry of its own is served: its job comes when the entry becomes active,
asks for its start, waits for its execution, and in the end all is over.  In a punctual run in which
nothing goes wrong and the right to start is free, every entry gets on as its server says, whatever
happens on other queues: the moments of its start and of its end, its outcome, and what was recorded
and reported are those of a service that may become of the request.

## Main definitions

* `World.Orders`: what an entry orders.
* `World.Follows`: a step of a punctual run in which nothing goes wrong.
* `World.IsStarting`, `World.IsUnderway`, `World.IsFulfilled`: a service is about to start, runs, or is
  over.
* `World.GetsOn`: an entry gets on as a server says.

## Main statements

* `World.Follows.begins`, `World.Follows.launches`, `World.Follows.resumes`: the turns of the job of an
  entry.
* `World.Follows.getsOn`: an entry goes on getting on as the server says.
* `World.Runs.getsOn`: every entry that became active does.

## Design notes

Everything is said of the request of an entry and of the moment at which the entry becomes active.
Which service becomes of the request is left open until it is over, because ties are decided as they
come up.
-/

namespace FolderTasks.Dispatch

/-- The server that works by the scripts and the start delay of a setting. -/
def Setting.server (s : Setting) : Server where
  startDelay := s.startDelay
  fallback := s.fallback
  scripts := s.scripts

/-- The chapters that come to an outcome. -/
def Chapter.Explains (ch : Chapter) : Outcome → Prop
  | .cancelled => ch = .skipped ∨ ch = .terminated
  | .launchFailed _ => ∃ f, ch = .refused f
  | .exited _ | .terminated => ∃ code, ch = .completed code

theorem Chapter.explains {ch : Chapter} {result : Except Failure Outcome}
    (h : ch.result? = some result) : ch.Explains (.ofResult result) := by
  cases ch with
  | lined | asked | begun => exact absurd h (by simp [result?])
  | skipped =>
    obtain rfl := Option.some.inj h
    exact .inl rfl
  | terminated =>
    obtain rfl := Option.some.inj h
    exact .inr rfl
  | refused f =>
    obtain rfl := Option.some.inj h
    exact ⟨f, rfl⟩
  | completed code =>
    obtain rfl := Option.some.inj h
    cases code <;> exact ⟨_, rfl⟩

theorem Chapter.Explains.eq_completed {ch : Chapter} {code : Option Int32}
    (h : ch.Explains (.ofCode code)) : ∃ code', ch = .completed code' := by
  cases code <;> exact h

namespace Chapter

variable {ch : Chapter} {id : TaskId} {c : Command}

/-- What is told of a task after its start was asked is not about the time before. -/
theorem exists_later (h : asked.facts id c <+: ch.facts id c) :
    ∃ more, ch.facts id c = asked.facts id c ++ more ∧ ∀ x ∈ more, x.isEarly = false := by
  cases ch with
  | lined | skipped => simp [facts] at h
  | asked => exact ⟨[], rfl, by simp⟩
  | begun | refused | completed | terminated => exact ⟨_, rfl, by simp [Happening.isEarly]⟩

/-- What is told of a started task after its start is about its end. -/
theorem exists_late (hover : ch.isOver) (h : begun.facts id c <+: ch.facts id c) :
    ∃ more, ch.facts id c = begun.facts id c ++ more ∧ ∀ x ∈ more, x.isLate := by
  cases ch with
  | lined | asked | begun => exact Bool.noConfusion hover
  | skipped | refused => simp [facts] at h
  | completed | terminated => exact ⟨_, rfl, by simp [Happening.isLate]⟩

/-- What is told of a task whose start was asked is about the time before. -/
theorem isEarly_of_asked : ∀ x ∈ asked.facts id c, x.isEarly ∧ x.isLate = false := by
  simp [facts, Happening.isEarly, Happening.isLate]

/-- What is told of a task up to its start is not about its end. -/
theorem isLate_of_begun : ∀ x ∈ begun.facts id c, x.isLate = false := by
  simp [facts, Happening.isLate]

/-- A task that is over was skipped, or its start was asked. -/
theorem asked_of_isOver (hover : ch.isOver) (hch : ch ≠ .skipped) :
    .startAsked id c ∈ ch.facts id c := by
  cases ch with
  | lined | asked | begun => exact Bool.noConfusion hover
  | skipped => exact absurd rfl hch
  | refused | completed | terminated => exact List.mem_cons_self

end Chapter


/-! ## The services of tasks that are ended -/

namespace Server

variable {v : Server} {r : Request} {b now : Nat} {id : TaskId} {ch : Chapter}
variable {result : Except Failure Outcome}

/-- **What service it is** that ends with the start: whether it was skipped, refused, interrupted or
completed can be told from the chapter. -/
theorem serves_of_start (hyields : (v.scriptOf r).Yields r.operation.command.program result)
    (hexplains : ch.Explains (.ofResult result)) (hskipped : ch = .skipped → v.startsAt b = b)
    (hcalm : ch ≠ .skipped → ∀ t ∈ r.cancelAt, b ≤ t)
    (hcancelled : ch = .skipped ∨ ch = .terminated → ∃ t ∈ r.cancelAt, t ≤ v.startsAt b)
    (haccepts : ch = .terminated → (v.scriptOf r).refuses = false) :
    ∃ S, v.Serves r b S ∧ S.endsAt = v.startsAt b ∧ S.outcome = .ofResult result ∧
      ch.filed = (S.span.map fun q => (true, q.isTerminated)).toList := by
  cases hyields with
  | cancelled =>
    rcases hexplains with rfl | rfl
    · obtain ⟨t, ht, hle⟩ := hcancelled (.inl rfl)
      rw [hskipped rfl] at hle ⊢
      exact ⟨_, .skipped ht hle, rfl, rfl, rfl⟩
    · obtain ⟨t, ht, hle⟩ := hcancelled (.inr rfl)
      have hmax : max t (v.startsAt b) = v.startsAt b := Nat.max_eq_right hle
      refine ⟨_, .interrupted ht (hcalm (by simp) t ht) (haccepts rfl) ?_, hmax, rfl, rfl⟩
      rw [hmax]
      exact v.startsAt_le_dueAt r b
  | refused hrefuses =>
    obtain ⟨f, rfl⟩ := hexplains
    exact ⟨_, .refused (hcalm (by simp)) hrefuses, rfl, rfl, rfl⟩
  | completed haccepted hdelay =>
    obtain ⟨code, rfl⟩ := hexplains.eq_completed
    have hdue : v.dueAt r b = v.startsAt b := by rw [dueAt, hdelay, Nat.add_zero]
    refine ⟨_, .completed (fun t ht => ⟨hcalm (by simp) t ht, ?_⟩) haccepted, hdue, rfl, rfl⟩
    rw [hdue]
    exact Nat.le_max_right _ _

/-- **What service it is** that ends while its execution runs. -/
theorem serves_of_running (haccepts : (v.scriptOf r).refuses = false) (hstarted : v.startsAt b ≤ now)
    (hdue : now ≤ v.dueAt r b) (huncancelled : ∀ t ∈ r.cancelAt, now ≤ t)
    (hyields : ((v.scriptOf r).execution id (v.startsAt b)).Yields now result)
    (hexplains : ch.Explains (.ofResult result)) (hskipped : ch ≠ .skipped)
    (hcancelled : ch = .terminated → ∃ t ∈ r.cancelAt, t ≤ now) :
    ∃ S, v.Serves r b S ∧ S.endsAt = now ∧ S.outcome = .ofResult result ∧
      ch.filed = (S.span.map fun q => (true, q.isTerminated)).toList := by
  have hcalm (t : Nat) (ht : t ∈ r.cancelAt) : b ≤ t :=
    Nat.le_trans (v.le_startsAt b) (Nat.le_trans hstarted (huncancelled t ht))
  cases hyields with
  | cancelled =>
    obtain rfl := hexplains.resolve_left hskipped
    obtain ⟨t, ht, hle⟩ := hcancelled rfl
    obtain rfl : t = now := Nat.le_antisymm hle (huncancelled t ht)
    have hmax : max t (v.startsAt b) = t := Nat.max_eq_left hstarted
    refine ⟨_, .interrupted ht (hcalm t ht) haccepts ?_, hmax, rfl, rfl⟩
    rw [hmax]
    exact hdue
  | completed hover =>
    obtain ⟨code, rfl⟩ := hexplains.eq_completed
    obtain rfl : now = v.dueAt r b := Nat.le_antisymm hdue hover
    refine ⟨_, .completed (fun t ht => ⟨hcalm t ht, ?_⟩) haccepts, rfl, rfl, rfl⟩
    exact Nat.le_trans (huncancelled t ht) (Nat.le_max_left _ _)

end Server

namespace World

/-- The facts of one kind about an entry, each with its moment. -/
def timedFor {α : Type} (w : World) (f : Happening → Option (EntryId × α)) (e : EntryId) :
    List (Nat × α) :=
  w.timed fun x => (f x).bind fun p => if p.1 = e then some p.2 else none

/-- The calls of the reporter for an entry. -/
def reportsOf (w : World) (e : EntryId) : List (Nat × StatusCall) := w.timedFor Happening.report? e

/-- **An entry orders what is requested**, and its start is reported by given calls. -/
def Orders (w : World) (e : EntryId) (r : Request) (opening : List StatusCall) : Prop :=
  ∃ entry, w.entryOf? e = some entry ∧ entry.order = (r.operation, r.tokenName) ∧
    w.startOf entry = opening

/-- **One step of a punctual run** that obeys a calendar, in which nothing goes wrong, and in which
no entry has to wait for the right to start. -/
structure Follows (s : Setting) (σ : Calendar) (w : World) (c : Choice) (w' : World) : Prop where
  uniform : s.IsUniform
  steady : Steady s w
  does : Does w c w'
  reserved : c.IsReserved
  punctual : w.IsPunctual w'
  before : w.Obeys σ
  after : w'.Obeys σ
  free : w.IsUncontended
  untroubled : w'.IsUntroubled

/-- **A job waits for a moment**: all its timers are for that moment, and it has one until then. -/
structure AwaitsMoment (w : World) (j : JobId) (t : Nat) : Prop where
  own : ∀ u ∈ w.timers, u.job = j → u.deadline = t
  due : w.clock ≤ t
  elapsed : (∀ u ∈ w.timers, u.job ≠ j) → w.clock = t

/-- **The start of a request is going on** whose turn came at `b`. -/
structure IsStarting (w : World) (v : Server) (r : Request) (b : Nat) (opening : List StatusCall)
    (e : EntryId) (j : JobId) (id : TaskId) : Prop where
  starting : w.At j (.operation e) (.starting id)
  awaits : w.AwaitsMoment j (v.startsAt b)
  calm : ∀ c ∈ r.cancelAt, b ≤ c
  saga : ∀ p ∈ w.saga id, p.1 = b
  reported : w.reportsOf e = opening.map (b, ·)

/-- **The execution of a request runs** whose turn came at `b`. -/
structure IsUnderway (w : World) (v : Server) (r : Request) (b : Nat) (opening : List StatusCall)
    (e : EntryId) (j : JobId) (id : TaskId) : Prop where
  running : w.At j (.operation e) (.running id ((v.scriptOf r).execution id (v.startsAt b)))
  accepted : (v.scriptOf r).refuses = false
  started : v.startsAt b ≤ w.clock
  due : w.clock ≤ v.dueAt r b
  uncancelled : ∀ c ∈ r.cancelAt, w.clock ≤ c
  saga : ∀ t, ∀ p ∈ w.saga id, p.1 = p.2.momentOf b (v.startsAt b) t
  reported : w.reportsOf e = opening.map (b, ·)

/-- **A service is over**, and what was written down of it has the moments of the service. -/
structure IsFulfilled (w : World) (S : Service) (opening : List StatusCall) (e : EntryId)
    (call : Call) (id : TaskId) (ch : Chapter) : Prop where
  serves : ∃ p, w.ServesAt call (.operation e) p
  stands : w.Stands call id ch
  closed : ch.isOver
  filed : ch.filed = (S.span.map fun q => (true, q.isTerminated)).toList
  saga : ∀ q ∈ S.span, ∀ p ∈ w.saga id, p.1 = p.2.momentOf S.beginsAt q.startedAt S.endsAt
  vacated : (S.endsAt, e) ∈ w.timed Happening.vacated?
  resolved : (S.endsAt, (e, S.outcome)) ∈ w.timed Happening.resolved?
  reported : w.reportsOf e = opening.map (S.beginsAt, ·) ++
    (S.request.operation.endCalls S.outcome).map (S.endsAt, ·)

/-- **An entry gets on as a server says** that serves its request from `b` on. -/
inductive GetsOn (w : World) (v : Server) (r : Request) (b : Nat) (opening : List StatusCall)
    (e : EntryId) : Prop where
  | comes {j : JobId} (hat : w.At j (.operation e) .fresh) (hnow : w.clock = b)
      (hidle : ∀ u ∈ w.timers, u.job ≠ j)
  | starts {j : JobId} {id : TaskId} (h : w.IsStarting v r b opening e j id)
  | runs {j : JobId} {id : TaskId} (h : w.IsUnderway v r b opening e j id)
  | ended {S : Service} {call : Call} {id : TaskId} {ch : Chapter} (hS : v.Serves r b S)
      (h : w.IsFulfilled S opening e call id ch)

/-- **A task is ended** with an outcome in a turn of the job of its entry. -/
structure IsEndedBy (w w' : World) (r : Request) (e : EntryId) (o : Outcome) (call : Call)
    (id : TaskId) (ch : Chapter) : Prop where
  serves : ∃ p, w'.ServesAt call (.operation e) p
  stands : w'.Stands call id ch
  closed : ch.isOver
  explains : ch.Explains o
  cancelled : ch = .skipped ∨ ch = .terminated → ∃ t ∈ r.cancelAt, t ≤ w.clock

section Progress

variable {s : Setting} {σ : Calendar} {v : Server} {S : Service} {r : Request} {b : Nat}
variable {opening : List StatusCall} {w w' : World} {c : Choice} {e : EntryId} {j : JobId}
variable {p : Position} {o : Outcome} {call : Call} {id : TaskId} {ch : Chapter}

/-! ## Facts and moments -/

theorem Transition.timed_eq {α : Type} {f : Happening → Option α} (t : Transition w w')
    (h : w'.seen f = w.seen f) : w'.timed f = w.timed f := by
  rcases t.sorts_stamps with hs | he
  · have hsame : w'.timed f = w.timed f ++ [] := hs.timed_eq (h.trans (List.append_nil _).symm)
    exact hsame.trans (List.append_nil _)
  · exact timed_of_history he.history

/-- A token that is cancelled has a moment in the calendar, and it has come. -/
theorem Obeys.exists_moment (h : w.Obeys σ) {token : Option String} (hc : w.isCancelled token) :
    ∃ t ∈ token.bind σ, t ≤ w.clock := by
  cases token with
  | none => exact absurd hc (by simp [isCancelled])
  | some x => exact h.due hc

/-- A token is cancelled when its moment is past. -/
theorem Obeys.isCancelled (h : w.Obeys σ) {token : Option String} {t : Nat}
    (ht : t ∈ token.bind σ) (hlt : t < w.clock) : w.isCancelled token := by
  cases token with
  | none => exact absurd ht (by simp)
  | some x => exact h.cancelled ht hlt

theorem Arises.not_vacated (hw : Arises w) (hat : w.At j (.operation e) p) (hp : p ≠ .done) :
    e ∉ w.ledger.vacated := by
  obtain ⟨given, hrunner⟩ := hat.runner
  exact fun hgone => hp (beq_iff_eq.1 ((hw.isOrderly.live hrunner).2 hgone))

theorem map_snd_timedFor {α : Type} (w : World) (f : Happening → Option (EntryId × α))
    (e : EntryId) : (w.timedFor f e).map Prod.snd =
      (w.seen f).filterMap fun p => if p.1 = e then some p.2 else none := by
  rw [timedFor, map_snd_timed, seen, seen, List.filterMap_reverse, List.filterMap_filterMap]

theorem map_snd_reportsOf (w : World) (e : EntryId) :
    (w.reportsOf e).map Prod.snd = w.blockOf e := by
  rw [reportsOf, map_snd_timedFor, blockOf, ← List.filterMap_eq_filter, ← List.filterMap_eq_map,
    List.filterMap_filterMap]
  refine List.filterMap_congr fun r _ => ?_
  by_cases hr : r.1 = e <;> simp [hr, Option.guard]

/-- What is added to the block of an entry is added with its moment. -/
theorem Stamps.reportsOf_eq (h : Stamps w w') {more : List StatusCall}
    (hblock : w'.blockOf e = w.blockOf e ++ more) :
    w'.reportsOf e = w.reportsOf e ++ more.map (w.clock, ·) := by
  rw [← map_snd_reportsOf, ← map_snd_reportsOf] at hblock
  unfold reportsOf timedFor at hblock ⊢
  rw [map_snd_timed, map_snd_timed] at hblock
  exact h.timed_eq hblock

theorem Stands.changes (h : w.Stands call id ch) (hover : ch.isOver) (hw : Arises w)
    (hc : Changes w w') : w'.Stands call id ch := by
  induction hc with
  | refl => exact h
  | tail hc hlast ih => exact ih.forth hover (hw.changes hc) hlast

theorem Changes.exists_course {ws : List World} (hc : Changes w w') (h : Course w ws) :
    ∃ ws', Course w' ws' ∧ w ∈ w' :: ws' := by
  induction hc with
  | refl => exact ⟨ws, h, List.mem_cons_self⟩
  | tail _ hlast ih =>
    obtain ⟨ws', h', hmem⟩ := ih
    exact ⟨_, h'.next hlast, List.mem_cons_of_mem _ hmem⟩

/-! ## What is known of an entry -/

theorem Orders.forth (h : w.Orders e r opening) (hw : Arises w) (hc : Changes w w') :
    w'.Orders e r opening := by
  obtain ⟨entry, he, horder, hopening⟩ := h
  obtain ⟨entry', he', horder'⟩ := (hw.lasts_changes hc).entryOf? he
  exact ⟨entry', he', horder'.trans horder, (hw.startOf_forth hc he he').2.trans hopening⟩

theorem Orders.back (h : w'.Orders e r opening) (hw : Arises w) (hc : Changes w w')
    (hlt : e < w.ledger.owners.length) : w.Orders e r opening := by
  obtain ⟨entry', he', horder, hopening⟩ := h
  rw [ledger, List.length_map] at hlt
  have he : w.entryOf? e = some w.entries[e] := List.getElem?_eq_getElem hlt
  obtain ⟨entry₁, he₁, horder₁⟩ := (hw.lasts_changes hc).entryOf? he
  obtain rfl := Option.some.inj (he₁.symm.trans he')
  exact ⟨_, he, horder₁.symm.trans horder, (hw.startOf_forth hc he he').2.symm.trans hopening⟩

/-- An entry that became active has a job. -/
theorem Arises.exists_job (hw : Arises w) (h : e ∈ w.ledger.dispatched) :
    ∃ j p, w.At j (.operation e) p := by
  rw [← hw.isOrderly.runners] at h
  obtain ⟨runner, hmem, hentry⟩ := List.mem_filterMap.1 h
  obtain ⟨j, hj⟩ := List.mem_iff_getElem?.1 hmem
  rw [ledger, List.getElem?_map] at hj
  obtain ⟨⟨errand, p, given⟩, hjob, rfl⟩ := Option.map_eq_some_iff.1 hj
  cases errand with
  | operation e' =>
    obtain rfl := Option.some.inj hentry
    exact ⟨j, p, given, hjob⟩
  | _ => exact absurd hentry (by simp [Errand.entry?, Job.runner])

theorem IsUntroubled.told (hu : w.IsUntroubled) (hw : Reachable w)
    (h : .resolved e o ∈ w.verdicts) : ∃ call p id ch, w.ServesAt call (.operation e) p ∧
      w.Stands call id ch ∧ ch.isOver ∧ ch.Explains o := by
  obtain ⟨call, p, result, hserves, -, htold, rfl⟩ :=
    hw.isJudged.judged h (not_panickedFor hu.outcomes)
  cases htold with
  | rejected hd => exact absurd hd (by simp [hu.opened])
  | told hs hr =>
    exact ⟨call, p, _, _, hserves, hs, by simp [Chapter.isOver, hr], Chapter.explains hr⟩

/-- A call whose token is cancelled before its job begins asks nothing of the backend. -/
theorem isCancelledUnasked_of_fresh (hw : Arises w) (hat : w.At j (.operation e) .fresh)
    {token : Option String} (hc : w.isCancelled token) {ws : List World} (hmem : w ∈ w' :: ws) :
    w'.IsCancelledUnasked ws e token := by
  refine ⟨w, hmem, hc, ?_⟩
  rintro id ⟨i, p, hid, hat'⟩
  obtain rfl := hat.job_eq hw hat'
  exact absurd hid (hw.isNumbered.fresh_unnumbered hat id)

/-- What is told of a task that gets its number meanwhile is told at this moment. -/
theorem saga_of_unnumbered (hw : Arises w) (hid : ∀ j, (id, j) ∉ w.account.numbered)
    (hs : Stamps w w') : ∀ p ∈ w'.saga id, p.1 = w.clock := by
  intro p hp
  obtain ⟨hmem, htask⟩ := mem_saga.1 hp
  refine (hs.mem_history hmem).resolve_right fun hold => ?_
  have hannals : p.2 ∈ w.annals id := (mem_annals htask).2 ⟨p.1, hold⟩
  rw [(hw.isChronicled.blank hid).1] at hannals
  exact List.not_mem_nil hannals

/-- All is reported of an entry that has its outcome. -/
theorem IsUntroubled.blockOf_resolved (hu : w.IsUntroubled) (hw : Reachable w)
    (ho : w.Orders e r opening) (h : .resolved e o ∈ w.verdicts) :
    w.blockOf e = opening ++ r.operation.endCalls o := by
  obtain ⟨entry, he, horder, rfl⟩ := ho
  have hoperation : entry.operation = r.operation := (Prod.mk.inj horder).1
  have hcloses := (hw.isVoiced e).closed h he
  generalize w.blockOf e = block at hcloses
  cases hcloses with
  | complete => rw [hoperation]
  | broken _ hx hpanic => exact absurd ⟨_, hx, hpanic⟩ (not_panickedFor hu.outcomes)

/-- Nothing is reported of an entry whose job has not begun. -/
theorem reportsOf_of_fresh (hw : Reachable w) (hat : w.At j (.operation e) .fresh) :
    w.blockOf e = [] ∧ w.reportsOf e = [] := by
  have hblock : w.blockOf e = [] := (hw.isVoiced e).silent fun hat' => by
    obtain rfl := hat.job_eq hw.arises hat'
    exact (hat'.unique hat).2
  exact ⟨hblock, List.map_eq_nil_iff.1 ((map_snd_reportsOf w e).trans hblock)⟩

/-- The start is reported of an entry whose job has begun and is not over. -/
theorem blockOf_begun (hw : Reachable w) (ho : w.Orders e r opening)
    (hat : w.At j (.operation e) p) (hfresh : p ≠ .fresh) (hp : p ≠ .done) :
    w.blockOf e = opening := by
  obtain ⟨entry, he, -, rfl⟩ := ho
  exact (hw.isVoiced e).begun hat hfresh he fun o h => hp (hw.arises.done_of_resolved h hat)

/-! ## Timers -/

/-- The timers of a job are set in its own turns, and fire when their moment has come. -/
theorem Does.timers (hc : Does w c w') (hj : c ≠ .turn j) {u : Timer} (hu : u.job = j) :
    (u ∈ w'.timers → u ∈ w.timers) ∧ (u ∈ w.timers → u ∈ w'.timers ∨ u.deadline ≤ w'.clock) := by
  have hspared {i : Option JobId} {w w' : World} (hs : Spares i w w') (hi : some j ≠ i) :
      (u ∈ w'.timers → u ∈ w.timers) ∧
        (u ∈ w.timers → u ∈ w'.timers ∨ u.deadline ≤ w'.clock) := by
    have hiff := hs.timers u (hu.symm ▸ hi)
    exact ⟨hiff.1, fun h => .inl (hiff.2 h)⟩
  cases hc with
  | act st hst => exact hspared (instant_spares w hst) (by simp)
  | turn i hi =>
    have hne : some j ≠ some i := fun heq => hj (congrArg Choice.turn (Option.some.inj heq).symm)
    have hboth := hspared (turn_spares { w with ready := w.ready.erase i } i) hne
    exact hboth
  | fire t ht =>
    have hspares := spares_fire w t
    rw [hspares.timers u (by simp), hspares.clock]
    refine ⟨fun h => (List.dropWhile_sublist _).subset h, fun h => ?_⟩
    rw [← List.takeWhile_append_dropWhile (p := fun u : Timer => decide (u.deadline ≤ t.deadline))
      (l := w.timers), List.mem_append] at h
    refine h.symm.imp_right fun h => ?_
    have hdue := List.mem_takeWhile_imp h
    exact Nat.le_trans (of_decide_eq_true hdue) (Nat.le_max_right _ _)
  | pass | leave => exact ⟨id, .inl⟩
  | sit e => exact hspared (spares_takeSeat (j := none) w e _) (by simp)
  | receive e o hr => exact hspared (spares_receive? (j := none) hr) (by simp)

/-- Timers are set for jobs that there are. -/
theorem Runs.timer_known {log : List (World × Choice)} (h : Runs s log w) {u : Timer}
    (hu : u ∈ w.timers) : ∃ errand p, w.At u.job errand p := by
  induction h with
  | new => exact absurd hu List.not_mem_nil
  | @next log w w' c h hc _ _ ih =>
    have hforth {i : JobId} (hold : ∃ errand p, w.At i errand p) : ∃ errand p, w'.At i errand p := by
      obtain ⟨errand, p, hat⟩ := hold
      obtain ⟨p', hat'⟩ := h.reachable.arises.at_forth hc.transition.changes hat
      exact ⟨errand, p', hat'⟩
    by_cases hturn : c = .turn u.job
    · subst hturn
      cases hc with
      | turn _ hj =>
        cases hjob : w.jobs[u.job]? with
        | none =>
          have hsame : w.takeTurn u.job = { w with ready := w.ready.erase u.job } := by
            have hnone : ({ w with ready := w.ready.erase u.job } : World).jobs[u.job]? = none := hjob
            rw [takeTurn, turn, hnone]
          rw [hsame] at hu
          exact hforth (ih hu)
        | some job => exact hforth ⟨job.errand, job.position, job.isAbandoned, hjob⟩
    · exact hforth (ih ((hc.timers hturn rfl).1 hu))


/-- A task of which nothing was recorded in the turn in which it ended was not terminated. -/
theorem IsEndedBy.ne_terminated (h : IsEndedBy w w' r e o call id ch) (hfiled : w.filed id = [])
    (hsame : w'.backend.records = w.backend.records) : ch ≠ .terminated := by
  rintro rfl
  have hterminated := h.stands.tells.filed
  rw [filed, Scripted.recordsOf, hsame] at hterminated
  exact absurd (hfiled.symm.trans hterminated) (by simp [Chapter.filed])

/-! ## Steps of others -/

namespace Follows

section Steps

variable (hf : Follows s σ w c w')

include hf

theorem arises : Arises w := hf.steady.reachable.arises

theorem changes : Changes w w' := hf.does.transition.changes

theorem reachable : Reachable w' := hf.steady.reachable.does hf.does

/-- Nothing went wrong before. -/
theorem untroubled_before : w.IsUntroubled := hf.untroubled.back hf.arises hf.changes

theorem reportsOf_eq (h : w'.blockOf e = w.blockOf e) : w'.reportsOf e = w.reportsOf e := by
  rcases hf.does.transition.sorts_stamps with hs | he
  · have hsame : w'.reportsOf e = w.reportsOf e ++ [] :=
      hs.reportsOf_eq (by rw [h, List.append_nil])
    exact hsame.trans (List.append_nil _)
  · unfold reportsOf timedFor
    exact timed_of_history he.history

theorem saga_eq (h : w'.annals id = w.annals id) : w'.saga id = w.saga id :=
  hf.does.transition.timed_eq h

/-- While somebody has a turn coming the clock stands still. -/
theorem clock_eq (hj : j ∈ w.ready) : w'.clock = w.clock := by
  rcases Nat.eq_or_lt_of_le hf.does.transition.clock_le with heq | hlt
  · exact heq.symm
  · rw [(hf.punctual hlt).1] at hj
    exact absurd hj List.not_mem_nil

/-- While a job stays where it is nothing is told of its task, and nothing reported of its entry. -/
theorem untold (ho : w.Orders e r opening) (hat : w.At j (.operation e) p)
    (hat' : w'.At j (.operation e) p) (hid : p.id? = some id) (hch : p.chapter? = some ch)
    (hfresh : p ≠ .fresh) (hp : p ≠ .done) :
    w'.saga id = w.saga id ∧ w'.reportsOf e = w.reportsOf e := by
  have hblock := blockOf_begun hf.steady.reachable ho hat hfresh hp
  have hblock' := blockOf_begun hf.reachable (ho.forth hf.arises hf.changes) hat' hfresh hp
  obtain ⟨entry, he, -⟩ := ho
  have hserves := hat.servesAt he
  have hserves' : w'.ServesAt ⟨j, entry.operation.command, entry.token⟩ _ _ :=
    ⟨hat', (hf.arises.lasts_changes hf.changes).callOf? hserves.2⟩
  have htells := hf.arises.isChronicled.tells hf.arises.isNumbered hserves hid hch
  have htells' :=
    hf.reachable.arises.isChronicled.tells hf.reachable.arises.isNumbered hserves' hid hch
  exact ⟨hf.saga_eq (htells'.annals.trans htells.annals.symm),
    hf.reportsOf_eq (hblock'.trans hblock.symm)⟩

/-- A service that is over stays so. -/
theorem fulfilled (h : w.IsFulfilled S opening e call id ch) (ho : w.Orders e S.request opening) :
    w'.IsFulfilled S opening e call id ch := by
  have hlasts := hf.arises.lasts_changes hf.changes
  have hstands := h.stands.changes h.closed hf.arises hf.changes
  have hresolved : .resolved e S.outcome ∈ w.verdicts :=
    resolved_mem_verdicts.2 (seen_of_timed h.resolved)
  have hblock := hf.untroubled_before.blockOf_resolved hf.steady.reachable ho hresolved
  have hblock' := hf.untroubled.blockOf_resolved hf.reachable (ho.forth hf.arises hf.changes)
    (hlasts.mem_verdicts hresolved)
  obtain ⟨p, hserves⟩ := h.serves
  obtain ⟨p', hat'⟩ := hf.arises.at_forth hf.changes hserves.1
  exact {
    serves := ⟨p', hat', hlasts.callOf? hserves.2⟩
    stands := hstands
    closed := h.closed
    filed := h.filed
    saga := by
      rw [hf.saga_eq (hstands.tells.annals.trans h.stands.tells.annals.symm)]
      exact h.saga
    vacated := timed_forth hlasts.history h.vacated
    resolved := timed_forth hlasts.history h.resolved
    reported := by rw [hf.reportsOf_eq (hblock'.trans hblock.symm), h.reported] }

/-- A job whose start is going on goes on waiting for its moment. -/
theorem awaits {t : Nat} (h : w.AwaitsMoment j t) (hat : w.At j (.operation e) (.starting id))
    (hc : c ≠ .turn j) : w'.AwaitsMoment j t where
  own u hu huj := h.own u ((hf.does.timers hc huj).1 hu) huj
  due := by
    rcases Nat.eq_or_lt_of_le hf.does.transition.clock_le with heq | hlt
    · exact heq ▸ h.due
    · obtain ⟨hready, htimers⟩ := hf.punctual hlt
      rcases hf.steady.reachable.isAttended hat with hj | ⟨u, hu, huj⟩
      · rw [hready] at hj
        exact absurd hj List.not_mem_nil
      · exact h.own u hu huj ▸ htimers u hu
  elapsed hnone := by
    by_cases hidle : ∀ u ∈ w.timers, u.job ≠ j
    · have hj : j ∈ w.ready := (hf.steady.reachable.isAttended hat).resolve_right
        fun ⟨u, hu, huj⟩ => hidle u hu huj
      rw [hf.clock_eq hj, h.elapsed hidle]
    · -- The timer of the job has fired in this step.
      obtain ⟨u, hu, huj⟩ : ∃ u ∈ w.timers, u.job = j := by simpa using hidle
      have hfired := ((hf.does.timers hc huj).2 hu).resolve_left fun hu' => hnone u hu' huj
      rw [h.own u hu huj] at hfired
      refine Nat.le_antisymm ?_ hfired
      rcases Nat.eq_or_lt_of_le hf.does.transition.clock_le with heq | hlt
      · exact heq ▸ h.due
      · exact h.own u hu huj ▸ (hf.punctual hlt).2 u hu

/-- A start goes on while others have their turns and time passes. -/
theorem starting (h : w.IsStarting v r b opening e j id) (ho : w.Orders e r opening)
    (hc : c ≠ .turn j) : w'.IsStarting v r b opening e j id := by
  have hat' := hf.does.stays hc h.starting
  obtain ⟨hsaga, hreports⟩ := hf.untold ho h.starting hat' rfl rfl (by simp) (by simp)
  exact {
    starting := hat'
    awaits := hf.awaits h.awaits h.starting hc
    calm := h.calm
    saga := hsaga ▸ h.saga
    reported := hreports.trans h.reported }

/-- An execution goes on running while others have their turns and time passes. -/
theorem underway (h : w.IsUnderway v r b opening e j id) (ho : w.Orders e r opening)
    (hr : r.cancelAt = r.tokenName.bind σ)
    (hat' : w'.At j (.operation e) (.running id ((v.scriptOf r).execution id (v.startsAt b)))) :
    w'.IsUnderway v r b opening e j id := by
  obtain ⟨hsaga, hreports⟩ := hf.untold ho h.running hat' rfl rfl (by simp) (by simp)
  obtain ⟨entry, he, horder, -⟩ := ho
  have htoken : entry.token = r.tokenName := (Prod.mk.inj horder).2
  exact {
    running := hat'
    accepted := h.accepted
    started := Nat.le_trans h.started hf.does.transition.clock_le
    due := by
      rcases Nat.eq_or_lt_of_le hf.does.transition.clock_le with heq | hlt
      · exact heq ▸ h.due
      · obtain ⟨hready, htimers⟩ := hf.punctual hlt
        rcases hf.steady.reachable.isAttended h.running with htimer | ⟨-, hj⟩
        · exact htimers _ htimer
        · rw [hready] at hj
          exact absurd hj List.not_mem_nil
    uncancelled := fun t ht => by
      rcases Nat.eq_or_lt_of_le hf.does.transition.clock_le with heq | hlt
      · exact heq ▸ h.uncancelled t ht
      · -- The token is not cancelled, or the job would have a turn coming: its moment is not past.
        rw [hr, ← htoken] at ht
        refine Nat.le_of_not_lt fun hpast => ?_
        have hcancelled := hf.after.isCancelled ht hpast
        cases hx : entry.token with
        | none => simp [hx] at ht
        | some x =>
          have hheeds := hf.steady.reachable.isHeeded (h.running.servesAt he) hx
          have hcancelled₀ : (w.token x).isCancelled := by
            rw [hx, World.isCancelled, token, (hf.does.elapses hlt).2.1] at hcancelled
            exact hcancelled
          rw [Heeds, if_pos hcancelled₀, (hf.punctual hlt).1] at hheeds
          exact absurd hheeds List.not_mem_nil
    saga := hsaga ▸ h.saga
    reported := hreports.trans h.reported }

/-! ## Cancellations -/

/-- The call of an entry has the token of its request. -/
theorem token_eq (ho : w.Orders e r opening) (hserves : w'.ServesAt call (.operation e) p) :
    call.token = r.tokenName := by
  obtain ⟨entry, he, horder, -⟩ := ho.forth hf.arises hf.changes
  have hcall := hserves.2
  rw [callOf?, he] at hcall
  rw [← Option.some.inj hcall]
  exact (Prod.mk.inj horder).2

/-- A token that is not cancelled is cancelled at this moment at the earliest. -/
theorem le_cancelAt (hr : r.cancelAt = r.tokenName.bind σ)
    (hcalm : w'.isCancelled r.tokenName = false) : ∀ t ∈ r.cancelAt, w'.clock ≤ t := by
  intro t ht
  rw [hr] at ht
  refine Nat.le_of_not_lt fun hlt => ?_
  rw [hf.after.isCancelled ht hlt] at hcalm
  exact Bool.noConfusion hcalm

/-- **A task that is cancelled**, whether before its start or after it, has a token that is cancelled
by now. -/
theorem exists_cancellation (hr : r.cancelAt = r.tokenName.bind σ) (ho : w.Orders e r opening)
    (hserves : w'.ServesAt call (.operation e) p) (hstands : w'.Stands call id ch)
    (hch : ch = .skipped ∨ ch = .terminated) : ∃ t ∈ r.cancelAt, t ≤ w'.clock := by
  obtain ⟨ws, hcourse⟩ := hf.reachable.arises.exists_course
  have hsomewhere : ∃ w₁ ∈ w' :: ws, w₁.isCancelled call.token := by
    rcases hch with hch | hch
    · obtain ⟨w₁, hmem, hcancelled, -⟩ := hstands.isCancelledUnasked hcourse hserves hch
      exact ⟨w₁, hmem, hcancelled⟩
    · obtain ⟨w₁, hmem, hcancelled, -⟩ := hstands.isCancelledUnended hcourse hserves hch
      exact ⟨w₁, hmem, hcancelled⟩
  obtain ⟨w₁, hmem, hcancelled⟩ := hsomewhere
  obtain ⟨hw₁, hchanges⟩ := hcourse.leads hmem
  rw [hr, ← hf.token_eq ho hserves]
  exact hf.after.exists_moment ((hw₁.lasts_changes hchanges).cancelled _ hcancelled)

/-- **A task whose start is asked** was not cancelled before its job began. -/
theorem calm (hr : r.cancelAt = r.tokenName.bind σ) (ho : w.Orders e r opening)
    (hat : w.At j (.operation e) .fresh) (hnow : w.clock = b)
    (hserves : w'.ServesAt call (.operation e) p) (hstands : w'.Stands call id ch)
    (hasked : .startAsked id call.command ∈ ch.facts id call.command) :
    ∀ t ∈ r.cancelAt, b ≤ t := by
  intro t ht
  refine Nat.le_of_not_lt fun hlt => ?_
  obtain ⟨ws, hws⟩ := hf.arises.exists_course
  obtain ⟨ws', hcourse, hmem⟩ := hf.changes.exists_course hws
  rw [hr, ← hf.token_eq ho hserves] at ht
  have hearly := hf.before.isCancelled ht (hnow ▸ hlt)
  refine Stands.unasked hcourse hstands hserves
    (isCancelledUnasked_of_fresh hf.arises hat hearly hmem) ?_
  rw [hstands.tells.annals]
  exact hasked

end Steps

/-! ## The turn of the job of an entry -/

section Turns

variable (hf : Follows s σ w (.turn j) w')

include hf

theorem of_turn : j ∈ w.ready ∧ w' = w.takeTurn j := by
  cases hf.does with
  | turn j hj => exact ⟨hj, rfl⟩

theorem stamps : Stamps w w' := by
  obtain ⟨hj, rfl⟩ := hf.of_turn
  exact (takeTurn_works hj).stamps

/-- The scripts are those of the setting. -/
theorem scriptFor_eq (args : List String) :
    w.backend.scriptFor args = s.server.scriptFor args :=
  scriptFor_of_settings (w := s.world) hf.steady.settings args

/-- The job of an entry gets its number in the turn in which it begins. -/
theorem unnumbered (hat : w.At j (.operation e) .fresh)
    (hserves : w'.ServesAt call (.operation e) p) (hid : (id, call.job) ∈ w'.account.numbered)
    (i : JobId) : (id, i) ∉ w.account.numbered := by
  intro hold
  obtain ⟨p', hat'⟩ := hf.arises.at_forth hf.changes hat
  obtain rfl := hat'.job_eq hf.reachable.arises hserves.1
  obtain rfl := hf.reachable.arises.isNumbered.job_unique hid
    ((hf.arises.numbered_isPrefix hf.changes).subset hold)
  exact hf.arises.isNumbered.fresh_unnumbered hat id hold

/-- **What is told in the turn in which the job of an entry begins** is told at that moment. -/
theorem saga_of_fresh (hat : w.At j (.operation e) .fresh) (hnow : w.clock = b)
    (hserves : w'.ServesAt call (.operation e) p) (hid : (id, call.job) ∈ w'.account.numbered) :
    ∀ x ∈ w'.saga id, x.1 = b :=
  hnow ▸ saga_of_unnumbered hf.arises (hf.unnumbered hat hserves hid) hf.stamps

/-- What is reported in the turn in which the job of an entry begins. -/
theorem reportsOf_of_begun (hat : w.At j (.operation e) .fresh) (hnow : w.clock = b)
    (hreported : w'.reported = w.reported ++ opening.map (e, ·)) :
    w'.reportsOf e = opening.map (b, ·) := by
  rw [hf.stamps.reportsOf_eq (blockOf_append_self hreported),
    (reportsOf_of_fresh hf.steady.reachable hat).2, hnow]
  rfl

/-- **The operation of an entry is over** after a turn of its job: whatever is new carries the
moment at which the service ends. -/
theorem concluded {made : List StatusCall} (ho : w.Orders e S.request opening)
    (hat : w.At j (.operation e) p) (hp : p ≠ .done) (hnow : w.clock = S.endsAt)
    (hresolved : .resolved e S.outcome ∈ w'.verdicts)
    (hmade : w.blockOf e = made ∧ w.reportsOf e = made.map (S.beginsAt, ·))
    (hopening : made = opening ∨ made = [] ∧ S.beginsAt = S.endsAt)
    (hserves : ∃ p, w'.ServesAt call (.operation e) p) (hstands : w'.Stands call id ch)
    (hover : ch.isOver) (hfiled : ch.filed = (S.span.map fun q => (true, q.isTerminated)).toList)
    (hsaga : ∀ q ∈ S.span, ∀ p ∈ w'.saga id,
      p.1 = p.2.momentOf S.beginsAt q.startedAt S.endsAt) :
    w'.IsFulfilled S opening e call id ch := by
  have hs := hf.stamps
  have hblock := hf.untroubled.blockOf_resolved hf.reachable (ho.forth hf.arises hf.changes)
    hresolved
  have hgone := hf.reachable.arises.isOrderly.resolvedGone _ (resolved_mem_verdicts.1 hresolved)
  exact {
    serves := hserves
    stands := hstands
    closed := hover
    filed := hfiled
    saga := hsaga
    vacated := hnow ▸ hs.timed_of_new (hf.arises.not_vacated hat hp) hgone
    resolved := hnow ▸ hs.timed_of_new
      (fun h => hp (hf.arises.done_of_resolved (resolved_mem_verdicts.2 h) hat))
      (resolved_mem_verdicts.1 hresolved)
    reported := by
      have hadded {more : List StatusCall} (h : w'.blockOf e = w.blockOf e ++ more) :
          w'.reportsOf e = made.map (S.beginsAt, ·) ++ more.map (S.endsAt, ·) := by
        rw [← hmade.2, ← hnow]
        exact hs.reportsOf_eq h
      rcases hopening with rfl | ⟨rfl, hsame⟩
      · exact hadded (by rw [hblock, hmade.1])
      · rw [hadded (hblock.trans (by rw [hmade.1, List.nil_append])), hsame, List.map_append]
        rfl }

/-- The task of an entry that gets its outcome in a turn of its job is ended. -/
theorem exists_ended (hr : r.cancelAt = r.tokenName.bind σ) (ho : w.Orders e r opening)
    (hresolved : .resolved e o ∈ w'.verdicts) : ∃ call id ch, IsEndedBy w w' r e o call id ch := by
  obtain ⟨call, p, id, ch, hserves, hstands, hover, hexplains⟩ :=
    hf.untroubled.told hf.reachable hresolved
  refine ⟨call, id, ch, ⟨p, hserves⟩, hstands, hover, hexplains, fun hch => ?_⟩
  rw [← hf.clock_eq hf.of_turn.1]
  exact hf.exists_cancellation hr ho hserves hstands hch

/-- A task that had begun before the turn keeps its number, and its story goes on. -/
theorem ended_of_numbered {p : Position} {ch₀ : Chapter} (hat : w.At j (.operation e) p)
    (hid : p.id? = some id) (hch : p.chapter? = some ch₀) {id' : TaskId}
    (h : IsEndedBy w w' r e o call id' ch) : id' = id ∧ w.Tells id call.command ch₀ ∧
      ch₀.facts id call.command <+: ch.facts id call.command := by
  obtain ⟨p', hserves⟩ := h.serves
  have hw' := hf.reachable.arises
  have hlasts := hf.arises.lasts_changes hf.changes
  obtain ⟨p'', hat'⟩ := hf.arises.at_forth hf.changes hat
  obtain rfl : j = call.job := hserves.1.job_eq hw' hat'
  obtain rfl : id' = id := hw'.isNumbered.id_unique h.stands.numbered
    ((hf.arises.numbered_isPrefix hf.changes).subset (hf.arises.isNumbered.current hat hid))
  have hserves₀ : w.ServesAt call (.operation e) p :=
    ⟨hat, hat.callOf?_back hf.arises.isOrderly hlasts hserves.2⟩
  have htells := hf.arises.isChronicled.tells hf.arises.isNumbered hserves₀ hid hch
  refine ⟨rfl, htells, ?_⟩
  have hannals := hlasts.annals_isPrefix id'
  rwa [htells.annals, h.stands.tells.annals] at hannals

/-- **An entry gets on when its task is ended** in a turn of its job. -/
theorem getsOn_of_ended {made : List StatusCall} (ho : w.Orders e r opening)
    (hat : w.At j (.operation e) p) (hp : p ≠ .done) (h : IsEndedBy w w' r e o call id ch)
    (hresolved : .resolved e o ∈ w'.verdicts)
    (hS : ∃ S, v.Serves r b S ∧ S.endsAt = w.clock ∧ S.outcome = o ∧
      ch.filed = (S.span.map fun q => (true, q.isTerminated)).toList)
    (hmade : w.blockOf e = made ∧ w.reportsOf e = made.map (b, ·))
    (hopening : made = opening ∨ made = [] ∧ b = w.clock)
    (hsaga : ch ≠ .skipped → ∀ x ∈ w'.saga id, x.1 = x.2.momentOf b (v.startsAt b) w.clock) :
    w'.GetsOn v r b opening e := by
  obtain ⟨S, hS, hend, rfl, hfiled⟩ := hS
  obtain rfl := hS.request_eq
  obtain rfl := hS.beginsAt_eq
  rw [← hend] at hopening hsaga
  refine .ended hS (hf.concluded ho hat hp hend.symm hresolved hmade hopening h.serves h.stands
    h.closed hfiled fun q hq x hx => ?_)
  have hch : ch ≠ .skipped := by
    rintro rfl
    rw [Option.mem_def.1 hq] at hfiled
    exact absurd hfiled (by simp [Chapter.filed])
  rw [hS.startedAt_eq hq]
  exact hsaga hch x hx

/-- **The execution of a request runs** after a turn in which its start is over. -/
theorem underway_of_start (hr : r.cancelAt = r.tokenName.bind σ)
    (hnow : w.clock = v.startsAt b) (haccepts : (v.scriptOf r).refuses = false)
    (hrunning : w'.At j (.operation e) (.running id ((v.scriptOf r).execution id w.clock)))
    (hcalm : w'.isCancelled r.tokenName = false)
    (hsaga : ∀ t, ∀ x ∈ w'.saga id, x.1 = x.2.momentOf b (v.startsAt b) t)
    (hreported : w'.reportsOf e = opening.map (b, ·)) :
    w'.IsUnderway v r b opening e j id := by
  have hnow' : w'.clock = v.startsAt b := (hf.clock_eq hf.of_turn.1).trans hnow
  exact {
    running := hnow ▸ hrunning
    accepted := haccepts
    started := Nat.le_of_eq hnow'.symm
    due := hnow' ▸ v.startsAt_le_dueAt r b
    uncancelled := hf.le_cancelAt hr hcalm
    saga := hsaga
    reported := hreported }

/-! ### The turn in which the job begins -/

/-- **A task that began and is ended in one turn** got its number there. -/
theorem ended_of_fresh (hr : r.cancelAt = r.tokenName.bind σ) (ho : w.Orders e r opening)
    (hat : w.At j (.operation e) .fresh) (hnow : w.clock = b)
    (h : IsEndedBy w w' r e o call id ch) : (ch ≠ .skipped → ∀ t ∈ r.cancelAt, b ≤ t) ∧
      w.filed id = [] ∧ ∀ x ∈ w'.saga id, x.1 = b := by
  obtain ⟨p, hserves⟩ := h.serves
  refine ⟨fun hch => ?_, ?_, hf.saga_of_fresh hat hnow hserves h.stands.numbered⟩
  · exact hf.calm hr ho hat hnow hserves h.stands (Chapter.asked_of_isOver h.closed hch)
  · exact (hf.arises.isChronicled.blank (hf.unnumbered hat hserves h.stands.numbered)).2

/-- **A request is served at once** when starts take no time. -/
theorem begins (hd : s.startDelay = 0) (hr : r.cancelAt = r.tokenName.bind σ)
    (ho : w.Orders e r opening) (hat : w.At j (.operation e) .fresh) (hnow : w.clock = b) :
    w'.GetsOn s.server r b opening e := by
  subst hnow
  obtain ⟨hj, hturn⟩ := hf.of_turn
  have ⟨entry, he, horder, hopening⟩ := ho
  obtain ⟨hoperation, htoken⟩ := Prod.mk.inj horder
  have hscript : w.backend.scriptFor entry.operation.command.args = s.server.scriptOf r := by
    rw [hf.scriptFor_eq, hoperation]
    rfl
  have hdelays := hf.steady.delays_eq hf.uniform
  rw [hd] at hdelays
  have hstarts : s.server.startsAt w.clock = w.clock := congrArg (w.clock + ·) hd
  have hsetsOut := takeTurn_begins hf.arises hf.steady.called hdelays (hf.free hat) hj hat he
    (hturn ▸ hf.untroubled) hscript
  rw [← hturn] at hsetsOut
  rcases hsetsOut with ⟨haccepts, hreported, hcalm, id, hrunning⟩ |
    ⟨result, hyields, hends, hunrecorded⟩
  · have hw' := hf.reachable.arises
    obtain ⟨entry', he', -⟩ := ho.forth hf.arises hf.changes
    have hserves := hrunning.servesAt he'
    have htells := hw'.isChronicled.tells hw'.isNumbered hserves rfl rfl
    have hsaga := hf.saga_of_fresh hat rfl hserves (hw'.isNumbered.current hrunning rfl)
    refine .runs (hf.underway_of_start hr hstarts.symm haccepts hrunning
      (htoken ▸ hcalm) (fun t x hx => ?_)
      (hf.reportsOf_of_begun hat rfl (hopening ▸ hreported)))
    have hmem : x.2 ∈ w'.annals id := by
      obtain ⟨hmem, htask⟩ := mem_saga.1 hx
      exact (mem_annals htask).2 ⟨_, hmem⟩
    rw [htells.annals] at hmem
    rw [hsaga x hx, Happening.momentOf, Chapter.isLate_of_begun _ hmem, hstarts, ite_self,
      if_neg Bool.false_ne_true]
  · obtain ⟨call, id, ch, hended⟩ := hf.exists_ended hr ho hends.resolved
    obtain ⟨hcalm, hfiled, hsaga⟩ := hf.ended_of_fresh hr ho hat rfl hended
    have haccepts (hch : ch = .terminated) : (s.server.scriptOf r).refuses = false :=
      Bool.eq_false_iff.2 fun hrefuses =>
        hended.ne_terminated hfiled (hunrecorded hrefuses) hch
    have hS := Server.serves_of_start (hoperation ▸ hyields) hended.explains (fun _ => hstarts)
      hcalm (by rw [hstarts]; exact hended.cancelled) haccepts
    rw [hstarts] at hS
    refine hf.getsOn_of_ended ho hat (by simp) hended hends.resolved hS
      (reportsOf_of_fresh hf.steady.reachable hat) (.inr ⟨rfl, rfl⟩) fun _ x hx => ?_
    rw [hsaga x hx, Happening.momentOf, hstarts, ite_self, ite_self]

/-- **A request has its start going on** when starts take a while. -/
theorem prepares (hd : s.startDelay ≠ 0) (hr : r.cancelAt = r.tokenName.bind σ)
    (ho : w.Orders e r opening) (hat : w.At j (.operation e) .fresh)
    (hidle : ∀ u ∈ w.timers, u.job ≠ j) : w'.GetsOn s.server r w.clock opening e := by
  obtain ⟨hj, hturn⟩ := hf.of_turn
  have ⟨entry, he, horder, hopening⟩ := ho
  obtain ⟨hoperation, htoken⟩ := Prod.mk.inj horder
  have hprepares := takeTurn_prepares hf.arises hf.steady.called (hf.steady.delays_eq hf.uniform) hd
    (hf.free hat) hj hat he (hturn ▸ hf.untroubled)
  rw [← hturn] at hprepares
  rcases hprepares with ⟨hreported, ⟨id, hstarting⟩, htimers⟩ | ⟨hends, hunrecorded⟩
  · have hw' := hf.reachable.arises
    have hnow' : w'.clock = w.clock := hf.clock_eq hj
    obtain ⟨entry', he', -⟩ := ho.forth hf.arises hf.changes
    have hserves := hstarting.servesAt he'
    have hnumbered := hw'.isNumbered.current hstarting rfl
    have htells := hw'.isChronicled.tells hw'.isNumbered hserves rfl rfl
    have hset : (⟨w.clock + s.startDelay, j⟩ : Timer) ∈ w'.timers := (htimers _ rfl).2 (.inl rfl)
    exact .starts {
      starting := hstarting
      awaits := {
        own := fun u hu huj => by
          rcases (htimers u huj).1 hu with rfl | hold
          · rfl
          · exact absurd huj (hidle u hold)
        due := hnow' ▸ s.server.le_startsAt w.clock
        elapsed := fun hnone => absurd rfl (hnone _ hset) }
      calm := hf.calm hr ho hat rfl hserves ⟨hnumbered, htells⟩ List.mem_cons_self
      saga := hf.saga_of_fresh hat rfl hserves hnumbered
      reported := hf.reportsOf_of_begun hat rfl (hopening ▸ hreported) }
  · obtain ⟨call, id, ch, hended⟩ := hf.exists_ended hr ho hends.resolved
    obtain ⟨-, hfiled, -⟩ := hf.ended_of_fresh hr ho hat rfl hended
    obtain rfl : ch = .skipped :=
      hended.explains.resolve_right (hended.ne_terminated hfiled hunrecorded)
    obtain ⟨t, ht, hle⟩ := hended.cancelled (.inl rfl)
    exact hf.getsOn_of_ended ho hat (by simp) hended hends.resolved
      ⟨_, .skipped ht hle, rfl, rfl, rfl⟩ (reportsOf_of_fresh hf.steady.reachable hat)
      (.inr ⟨rfl, rfl⟩) fun hch => absurd rfl hch

/-! ### Later turns -/

/-- What is told of a task in a later turn is told at that moment. -/
theorem saga_of_later {c : Command} {ch₀ : Chapter} {more : List Happening}
    (htells : w.Tells id c ch₀) (htells' : w'.Tells id c ch)
    (hfacts : ch.facts id c = ch₀.facts id c ++ more) {x : Nat × Happening} (hx : x ∈ w'.saga id) :
    x ∈ w.saga id ∧ x.2 ∈ ch₀.facts id c ∨ x.1 = w.clock ∧ x.2 ∈ more := by
  have hsaga : w'.saga id = w.saga id ++ more.map (w.clock, ·) :=
    hf.stamps.saga_eq (by rw [htells'.annals, htells.annals, hfacts])
  rw [hsaga, List.mem_append] at hx
  refine hx.imp (fun hx => ⟨hx, ?_⟩) fun hx => ?_
  · obtain ⟨hmem, htask⟩ := mem_saga.1 hx
    rw [← htells.annals]
    exact (mem_annals htask).2 ⟨_, hmem⟩
  · obtain ⟨y, hy, rfl⟩ := List.mem_map.1 hx
    exact ⟨rfl, hy⟩

/-- What is told of a task until its start is over is told when it was asked, or at this moment. -/
theorem saga_of_launched {c : Command} (htells : w.Tells id c .asked) (htells' : w'.Tells id c ch)
    (hfacts : Chapter.asked.facts id c <+: ch.facts id c) (hsaga : ∀ x ∈ w.saga id, x.1 = b)
    {x : Nat × Happening} (hx : x ∈ w'.saga id) :
    x.1 = b ∧ x.2.isEarly ∧ x.2.isLate = false ∨ x.1 = w.clock ∧ x.2.isEarly = false := by
  obtain ⟨more, hmore, hlater⟩ := Chapter.exists_later hfacts
  rcases hf.saga_of_later htells htells' hmore hx with ⟨hold, hearly⟩ | ⟨hnow, hnew⟩
  · exact .inl ⟨hsaga x hold, Chapter.isEarly_of_asked _ hearly⟩
  · exact .inr ⟨hnow, hlater _ hnew⟩

/-- **The start of a request is over, and its execution runs.** -/
theorem runs_of_starting {id' : TaskId} (hr : r.cancelAt = r.tokenName.bind σ)
    (ho : w.Orders e r opening) (h : w.IsStarting v r b opening e j id)
    (hnow : w.clock = v.startsAt b) (haccepts : (v.scriptOf r).refuses = false)
    (hrunning : w'.At j (.operation e) (.running id' ((v.scriptOf r).execution id' w.clock)))
    (hcalm : w'.isCancelled r.tokenName = false) : w'.GetsOn v r b opening e := by
  have hw := hf.arises
  have hw' := hf.reachable.arises
  obtain ⟨entry', he', -⟩ := ho.forth hw hf.changes
  -- It is the task whose start was asked for.
  obtain rfl : id' = id := hw'.isNumbered.id_unique (hw'.isNumbered.current hrunning rfl)
    ((hw.numbered_isPrefix hf.changes).subset (hw.isNumbered.current h.starting rfl))
  have hserves' := hrunning.servesAt he'
  have hserves : w.ServesAt ⟨j, entry'.operation.command, entry'.token⟩ (.operation e) _ :=
    ⟨h.starting, h.starting.callOf?_back hw.isOrderly (hw.lasts_changes hf.changes) hserves'.2⟩
  have htells := hw.isChronicled.tells hw.isNumbered hserves rfl rfl
  have htells' := hw'.isChronicled.tells hw'.isNumbered hserves' rfl rfl
  have hsame : w'.reportsOf e = w.reportsOf e := hf.reportsOf_eq (by
    rw [blockOf_begun hf.steady.reachable ho h.starting (by simp) (by simp),
      blockOf_begun hf.reachable (ho.forth hw hf.changes) hrunning (by simp) (by simp)])
  refine .runs (hf.underway_of_start hr hnow haccepts hrunning hcalm (fun t x hx => ?_)
    (hsame.trans h.reported))
  have hlate : x.2.isLate = false := by
    obtain ⟨hmem, htask⟩ := mem_saga.1 hx
    have hannals := (mem_annals htask).2 ⟨_, hmem⟩
    rw [htells'.annals] at hannals
    exact Chapter.isLate_of_begun _ hannals
  rw [Happening.momentOf, hlate, if_neg Bool.false_ne_true]
  rcases hf.saga_of_launched htells htells' (by simp [Chapter.facts]) h.saga hx with
    ⟨hasked, hearly, -⟩ | ⟨hlater, hearly⟩
  · rw [hasked, if_pos hearly]
  · rw [hlater, hnow, hearly, if_neg Bool.false_ne_true]

/-- **The start of a request is over, and so is its service**: it was cancelled, it was refused, or its
execution took no time. -/
theorem ended_of_starting {result : Except Failure Outcome} (hr : r.cancelAt = r.tokenName.bind σ)
    (ho : w.Orders e r opening) (h : w.IsStarting v r b opening e j id)
    (hnow : w.clock = v.startsAt b) (hyields : (v.scriptOf r).Yields r.operation.command.program result)
    (hresolved : .resolved e (.ofResult result) ∈ w'.verdicts)
    (hunrecorded : (v.scriptOf r).refuses → w'.backend.records = w.backend.records) :
    w'.GetsOn v r b opening e := by
  obtain ⟨call, id', ch, hended⟩ := hf.exists_ended hr ho hresolved
  obtain ⟨rfl, htells, hfacts⟩ := hf.ended_of_numbered h.starting rfl rfl hended
  have hskipped : ch ≠ .skipped := by
    rintro rfl
    exact absurd hfacts (by simp [Chapter.facts])
  have haccepts (hch : ch = .terminated) : (v.scriptOf r).refuses = false :=
    Bool.eq_false_iff.2 fun hrefuses =>
      hended.ne_terminated htells.filed (hunrecorded hrefuses) hch
  have hS := Server.serves_of_start hyields hended.explains (fun hch => absurd hch hskipped)
    (fun _ => h.calm) (hnow ▸ hended.cancelled) haccepts
  rw [← hnow] at hS
  have hblock := blockOf_begun hf.steady.reachable ho h.starting (by simp) (by simp)
  refine hf.getsOn_of_ended ho h.starting (by simp) hended hresolved hS ⟨hblock, h.reported⟩
    (.inl rfl) fun _ x hx => ?_
  rw [Happening.momentOf]
  rcases hf.saga_of_launched htells hended.stands.tells hfacts h.saga hx with
    ⟨hasked, hearly, hlate⟩ | ⟨hlater, hearly⟩
  · rw [hasked, hlate, if_neg Bool.false_ne_true, if_pos hearly]
  · rw [hlater, hearly, if_neg Bool.false_ne_true, ← hnow, ite_self]

/-- **The start of a request is over or goes on** in a turn of its job. -/
theorem launches (hr : r.cancelAt = r.tokenName.bind σ) (ho : w.Orders e r opening)
    (h : w.IsStarting s.server r b opening e j id) : w'.GetsOn s.server r b opening e := by
  obtain ⟨hj, hturn⟩ := hf.of_turn
  have ⟨entry, he, horder, _⟩ := ho
  obtain ⟨hoperation, htoken⟩ := Prod.mk.inj horder
  have hscript : w.backend.scriptFor entry.operation.command.args = s.server.scriptOf r := by
    rw [hf.scriptFor_eq, hoperation]
    rfl
  have hlaunches := takeTurn_launches hf.arises hj h.starting he (hturn ▸ hf.untroubled) hscript
  rw [← hturn] at hlaunches
  rcases hlaunches with ⟨hstays, htimers⟩ | ⟨hnone, hsetsOut⟩
  · obtain ⟨hsaga, hreports⟩ := hf.untold ho h.starting hstays rfl rfl (by simp) (by simp)
    have hnow' := hf.clock_eq hj
    exact .starts {
      starting := hstays
      awaits := ⟨htimers ▸ h.awaits.own, hnow' ▸ h.awaits.due, htimers ▸ hnow' ▸ h.awaits.elapsed⟩
      calm := h.calm
      saga := hsaga ▸ h.saga
      reported := hreports.trans h.reported }
  · have hnow : w.clock = s.server.startsAt b := h.awaits.elapsed hnone
    rcases hsetsOut with ⟨haccepts, -, hcalm, id', hrunning⟩ |
      ⟨result, hyields, hends, hunrecorded⟩
    · exact hf.runs_of_starting hr ho h hnow haccepts hrunning (htoken ▸ hcalm)
    · exact hf.ended_of_starting hr ho h hnow (hoperation ▸ hyields) hends.resolved hunrecorded

/-- **An execution runs on or ends** in a turn of its job. -/
theorem resumes (hr : r.cancelAt = r.tokenName.bind σ) (ho : w.Orders e r opening)
    (h : w.IsUnderway s.server r b opening e j id) : w'.GetsOn s.server r b opening e := by
  obtain ⟨hj, hturn⟩ := hf.of_turn
  have ⟨entry, he, _⟩ := ho
  have hresumes := takeTurn_resumes hf.arises hj h.running he (hturn ▸ hf.untroubled)
  rw [← hturn] at hresumes
  rcases hresumes with ⟨hrunning, -⟩ | ⟨result, hyields, hends⟩
  · exact .runs (hf.underway h ho hr hrunning)
  · obtain ⟨call, id', ch, hended⟩ := hf.exists_ended hr ho hends.resolved
    obtain ⟨rfl, htells, hfacts⟩ := hf.ended_of_numbered h.running rfl rfl hended
    have hskipped : ch ≠ .skipped := by
      rintro rfl
      exact absurd hfacts (by simp [Chapter.facts])
    have hS := Server.serves_of_running h.accepted h.started h.due h.uncancelled hyields
      hended.explains hskipped fun hch => hended.cancelled (.inr hch)
    have hblock := blockOf_begun hf.steady.reachable ho h.running (by simp) (by simp)
    refine hf.getsOn_of_ended ho h.running (by simp) hended hends.resolved hS ⟨hblock, h.reported⟩
      (.inl rfl) fun _ x hx => ?_
    obtain ⟨more, hmore, hlate⟩ := Chapter.exists_late hended.closed hfacts
    rcases hf.saga_of_later htells hended.stands.tells hmore hx with ⟨hold, -⟩ | ⟨hnow, hnew⟩
    · exact h.saga w.clock x hold
    · rw [Happening.momentOf, if_pos (hlate _ hnew), hnow]

end Turns

/-! ## Runs -/

/-- **An entry goes on getting on as its server says.** -/
theorem getsOn (hf : Follows s σ w c w') (hr : r.cancelAt = r.tokenName.bind σ)
    (ho : w.Orders e r opening) (h : w.GetsOn s.server r b opening e) :
    w'.GetsOn s.server r b opening e := by
  cases h with
  | @comes j hat hnow hidle =>
    by_cases hc : c = .turn j
    · subst hc
      by_cases hd : s.startDelay = 0
      · exact hf.begins hd hr ho hat hnow
      · exact hnow ▸ hf.prepares hd hr ho hat hidle
    · have hready : j ∈ w.ready := hf.steady.reachable.isAttended hat
      refine .comes (hf.does.stays hc hat) ((hf.clock_eq hready).trans hnow) fun u hu huj => ?_
      exact hidle u ((hf.does.timers hc huj).1 hu) huj
  | @starts j id h =>
    by_cases hc : c = .turn j
    · exact launches (hc ▸ hf) hr ho h
    · exact .starts (hf.starting h ho hc)
  | @runs j id h =>
    by_cases hc : c = .turn j
    · exact resumes (hc ▸ hf) hr ho h
    · exact .runs (hf.underway h ho hr (hf.does.stays hc h.running))
  | ended hS h =>
    obtain rfl := hS.request_eq
    exact .ended hS (hf.fulfilled h ho)

/-- **The job of an entry comes** when the entry becomes active. -/
theorem comes {log : List (World × Choice)} (hf : Follows s σ w c w') (hruns : Runs s log w)
    (h : (b, e) ∈ w'.timed Happening.dispatched?) (hnew : e ∉ w.ledger.dispatched) :
    w'.GetsOn v r b opening e := by
  have hw' := hf.reachable.arises
  have hmem : e ∈ w'.ledger.dispatched := seen_of_timed h
  have hs := hf.does.transition.stamps_of_new hnew hmem
  have hclock : w'.clock = b := hs.clock.trans
    (timed_unique hw'.isOrderly.nodup_dispatched (hs.timed_of_new hnew hmem) h)
  obtain ⟨j, p, hat⟩ := hw'.exists_job hmem
  have hbefore {errand : Errand} {p' : Position} (hat' : w.At j errand p') : False := by
    obtain ⟨p'', hlater⟩ := hf.arises.at_forth hf.changes hat'
    obtain rfl := (hlater.unique hat).1
    exact hnew (hat'.mem_dispatched hf.arises.isOrderly)
  -- The job is not the one whose turn it is, for it was not there before.
  have hturn {i : JobId} (hi : i ∈ w.ready) (heq : w' = w.takeTurn i) : j ≠ i := by
    rintro rfl
    obtain ⟨p₀, hat₀⟩ := hf.arises.at_back_of_turn hi (heq ▸ hat)
    exact hbefore hat₀
  have hfresh : p = .fresh := by
    rcases hf.does.transition.spares with ⟨-, hback⟩ | ⟨i, hi, rfl⟩
    · exact (hback hat).resolve_left hbefore
    · have hne : some j ≠ some i := fun heq => hturn hi rfl (Option.some.inj heq)
      rcases (turn_spares { w with ready := w.ready.erase i } i).back hne hat with
        hat₀ | ⟨hfresh, -⟩
      · exact (hbefore hat₀).elim
      · exact hfresh
  subst hfresh
  have hturn : c ≠ .turn j := by
    rintro rfl
    obtain ⟨hj, heq⟩ := hf.of_turn
    exact hturn hj heq rfl
  refine .comes hat hclock fun u hu huj => ?_
  obtain ⟨errand, p', hat'⟩ := hruns.timer_known ((hf.does.timers hturn huj).1 hu)
  exact hbefore (huj ▸ hat')

end Follows

/-- **Every entry that became active gets on as its server says**, in a punctual run in which nothing
goes wrong and no entry has to wait for the right to start. -/
theorem Runs.getsOn {log : List (World × Choice)} (h : Runs s log w) (hs : s.IsUniform)
    (hu : w.IsUntroubled) (hfree : ∀ u ∈ log.map Prod.fst ++ [w], u.IsUncontended)
    (hσ : ∀ u ∈ log.map Prod.fst ++ [w], u.Obeys σ) (hr : r.cancelAt = r.tokenName.bind σ)
    (ho : w.Orders e r opening) (hd : (b, e) ∈ w.timed Happening.dispatched?) :
    w.GetsOn s.server r b opening e := by
  induction h with
  | new => exact absurd hd List.not_mem_nil
  | @next log w w' c h hc hreserved hp ih =>
    rw [List.map_append, List.map_singleton] at hσ hfree
    have hmem : w ∈ log.map Prod.fst ++ [w] ++ [w'] :=
      List.mem_append_left _ (List.mem_append_right _ List.mem_cons_self)
    have hsteady := h.steady hs
    have hw := hsteady.reachable.arises
    have hchanges := hc.transition.changes
    have hf : Follows s σ w c w' := ⟨hs, hsteady, hc, hreserved, hp, hσ w hmem,
      hσ w' (List.mem_append_right _ List.mem_cons_self), hfree w hmem, hu⟩
    by_cases hold : e ∈ w.ledger.dispatched
    · have ho₀ : w.Orders e r opening := ho.back hw hchanges (hw.isOrderly.known e hold)
      refine hf.getsOn hr ho₀ (ih hf.untroubled_before ?_ ?_ ho₀ ?_)
      · exact fun u hu => hfree u (List.mem_append_left _ hu)
      · exact fun u hu => hσ u (List.mem_append_left _ hu)
      · obtain ⟨t, ht⟩ := exists_timed hold
        obtain rfl := timed_unique hf.reachable.arises.isOrderly.nodup_dispatched hd
          (timed_forth (hw.lasts_changes hchanges).history ht)
        exact ht
    · exact hf.comes h hd hold

end Progress

end World

end FolderTasks.Dispatch
