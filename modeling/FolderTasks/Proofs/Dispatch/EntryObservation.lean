import FolderTasks.Proofs.Dispatch.EntryProgress
/-!
# What is seen of an entry

When a punctual run in which nothing goes wrong has done all that was due, everything that can be
seen of an entry can be told from its service: its outcome and when that became known, what the
backend recorded, and what was reported.  An entry whose service is still to come or goes on shows as
much of it as there is by then.

## Main definitions

* `Fate`: what is seen of an entry.
* `Service.fate`, `Service.fateAt`: what is to be seen of a service, in the end and at a given moment.
* `World.Halts`: a run that has done all that was due.

## Main statements

* `World.Halts.cases`: how far an entry is that became active.
* `World.Halts.exists_service`: it has a service, and its fate is the one of the service.
-/

namespace FolderTasks

/-- A record without its number. -/
structure Trace where
  args : List String
  startedAt : Nat
  endedAt : Option Nat
  terminated : Bool
deriving DecidableEq

/-- What a record says, but for its number. -/
def Record.trace (r : Record) : Trace := ⟨r.args, r.startedAt, r.endedAt, r.terminated⟩

namespace Dispatch

/-- **What is seen of an entry.** -/
structure Fate where
  outcomes : List (Nat × Outcome) := []
  records : List Trace := []
  reports : List (Nat × StatusCall) := []
deriving DecidableEq

/-- **What is to be seen of a service in the end**, if its start is reported by given calls. -/
def Service.fate (S : Service) (opening : List StatusCall) : Fate where
  outcomes := [(S.endsAt, S.outcome)]
  records := (S.span.map fun q =>
    ⟨S.request.operation.key, q.startedAt, some q.endedAt, q.isTerminated⟩).toList
  reports := opening.map (S.beginsAt, ·) ++
    (S.request.operation.endCalls S.outcome).map (S.endsAt, ·)

/-- **What is to be seen of a service at a given moment.** -/
def Service.fateAt (S : Service) (opening : List StatusCall) (t : Nat) : Fate :=
  if t < S.beginsAt then {}
  else if t < S.endsAt then
    { records := ((S.span.filter fun q => decide (q.startedAt ≤ t)).map fun q =>
        ⟨S.request.operation.key, q.startedAt, none, false⟩).toList
      reports := opening.map (S.beginsAt, ·) }
  else S.fate opening

/-- A service that is over shows all that there is to be seen of it. -/
theorem Service.fateAt_eq {S : Service} {t : Nat} (hbegins : S.beginsAt ≤ S.endsAt)
    (hends : S.endsAt ≤ t) (opening : List StatusCall) : S.fateAt opening t = S.fate opening := by
  rw [fateAt, if_neg (Nat.not_lt.2 (Nat.le_trans hbegins hends)), if_neg (Nat.not_lt.2 hends)]

namespace World

/-- What is seen of an entry. -/
def fateOf (w : World) (e : EntryId) : Fate where
  outcomes := w.timedFor Happening.resolved? e
  records := (w.recordsFor e).map Record.trace
  reports := w.reportsOf e

/-- **Nothing is left to be done at this moment.** -/
structure IsStill (w : World) : Prop where
  ready : w.ready = []
  timers : ∀ t ∈ w.timers, w.clock < t.deadline

/-- **A punctual run that has done all that was due**, in which nothing went wrong and no entry had to
wait for the right to start. -/
structure Halts (s : Setting) (log : List (World × Choice)) (w : World) : Prop where
  uniform : s.IsUniform
  runs : Runs s log w
  untroubled : w.IsUntroubled
  still : w.IsStill
  free : ∀ u ∈ log.map Prod.fst ++ [w], u.IsUncontended

section Fates

variable {s : Setting} {v : Server} {log : List (World × Choice)} {w : World} {S : Service}
variable {r : Request} {b : Nat} {opening : List StatusCall} {e : EntryId} {j : JobId} {call : Call}
variable {id : TaskId} {ch : Chapter} {p : Position}

/-! ## Facts about an entry -/

theorem mem_timedFor {α : Type} {f : Happening → Option (EntryId × α)} {t : Nat} {a : α} :
    (t, a) ∈ w.timedFor f e ↔ (t, (e, a)) ∈ w.timed f := by
  rw [timedFor, mem_timed, mem_timed]
  refine exists_congr fun x => and_congr_right fun _ => ?_
  rw [Option.bind_eq_some_iff]
  constructor
  · rintro ⟨⟨e', a'⟩, hx, heq⟩
    split at heq
    · next he =>
      obtain rfl : e' = e := he
      obtain rfl := Option.some.inj heq
      exact hx
    · exact absurd heq (by simp)
  · intro hx
    exact ⟨_, hx, if_pos rfl⟩

/-- An entry has one outcome. -/
theorem outcomes_eq_singleton (ho : w.ledger.IsOrderly) {t : Nat} {o : Outcome}
    (h : (t, (e, o)) ∈ w.timed Happening.resolved?) :
    w.timedFor Happening.resolved? e = [(t, o)] := by
  have hmem := mem_timedFor.2 h
  have hlength : (w.timedFor Happening.resolved? e).length ≤ 1 := by
    rw [← List.length_map (f := Prod.snd), map_snd_timedFor]
    exact length_outcomesOf ho e
  obtain ⟨p, hp⟩ := List.length_eq_one_iff.1
    (Nat.le_antisymm hlength (List.length_pos_of_mem hmem))
  rw [hp, List.mem_singleton] at hmem
  rw [hp, hmem]

theorem outcomes_eq_nil (h : ∀ o, .resolved e o ∉ w.verdicts) :
    w.timedFor Happening.resolved? e = [] := by
  refine List.eq_nil_iff_forall_not_mem.2 fun p hp => h p.2 (resolved_mem_verdicts.2 ?_)
  exact seen_of_timed (mem_timedFor.1 hp)

/-! ## The three states of an entry -/

/-- Nothing is seen of an entry that has not become active. -/
theorem fateOf_waiting (hw : Reachable w) (h : e ∉ w.ledger.dispatched) :
    w.fateOf e = {} := by
  have ho := hw.arises.isOrderly
  have hjob {j : JobId} {p : Position} (hat : w.At j (.operation e) p) : False :=
    h (hat.mem_dispatched ho)
  have hunresolved (o : Outcome) : .resolved e o ∉ w.verdicts := fun hmem =>
    h (ho.gone e (ho.resolvedGone _ (resolved_mem_verdicts.1 hmem)))
  have hreports : w.reportsOf e = [] := List.map_eq_nil_iff.1 ((map_snd_reportsOf w e).trans
    ((hw.isVoiced e).silent fun hat => (hjob hat).elim))
  rw [fateOf, outcomes_eq_nil hunresolved, hreports, recordsFor_eq_nil]
  · rfl
  · rintro id ⟨j, p, -, hat⟩
    exact hjob hat

/-- What is seen of an entry whose start is going on. -/
theorem IsStarting.fateOf_eq (h : w.IsStarting v r b opening e j id) (hw : Reachable w)
    (ho : w.Orders e r opening) : w.fateOf e = { reports := opening.map (b, ·) } := by
  have hunresolved (o : Outcome) : .resolved e o ∉ w.verdicts := fun hmem =>
    absurd (hw.arises.done_of_resolved hmem h.starting) (by simp)
  obtain ⟨entry, he, -⟩ := ho
  have hserves := h.starting.servesAt he
  have hnumbered := hw.arises.isNumbered.current hserves.1 rfl
  have htells := hw.arises.isChronicled.tells hw.arises.isNumbered hserves rfl rfl
  have hfor := Serves.recordsFor hw.arises ⟨j, _, hnumbered, h.starting⟩
  rw [fateOf, outcomes_eq_nil hunresolved, h.reported, hfor, List.map_eq_nil_iff.1 htells.filed]
  rfl

/-- What is seen of an entry whose execution runs. -/
theorem IsUnderway.fateOf_eq (h : w.IsUnderway v r b opening e j id) (hw : Reachable w)
    (ho : w.Orders e r opening) : w.fateOf e =
      { records := [⟨r.operation.key, v.startsAt b, none, false⟩]
        reports := opening.map (b, ·) } := by
  have hunresolved (o : Outcome) : .resolved e o ∉ w.verdicts := fun hmem =>
    absurd (hw.arises.done_of_resolved hmem h.running) (by simp)
  obtain ⟨entry, he, horder, -⟩ := ho
  have hoperation : entry.operation = r.operation := (Prod.mk.inj horder).1
  have hserves := h.running.servesAt he
  have hnumbered := hw.arises.isNumbered.current hserves.1 rfl
  have htells := hw.arises.isChronicled.tells hw.arises.isNumbered hserves rfl rfl
  have hrecords := hw.arises.isDated.recordsOf_begun htells (h.saga 0) rfl
  have hfor := Serves.recordsFor hw.arises ⟨j, _, hnumbered, h.running⟩
  rw [fateOf, outcomes_eq_nil hunresolved, h.reported, hfor, hrecords, hoperation]
  rfl

/-- What is seen of an entry whose service is over. -/
theorem IsFulfilled.fateOf_eq (h : w.IsFulfilled S opening e call id ch) (hw : Reachable w)
    (hS : v.Serves r b S) (ho : w.Orders e r opening) : w.fateOf e = S.fate opening := by
  obtain rfl := hS.request_eq
  obtain ⟨entry, he, horder, -⟩ := ho
  have hoperation : entry.operation = S.request.operation := (Prod.mk.inj horder).1
  obtain ⟨p, hat, hcall⟩ := h.serves
  have hcommand : call.command = S.request.operation.command := by
    rw [callOf?, he] at hcall
    rw [← hoperation, ← Option.some.inj hcall]
  have hfor := Serves.recordsFor hw.arises ⟨call.job, p, h.stands.numbered, hat⟩
  have hrecords : (w.backend.recordsOf id).map Record.trace = (S.span.map fun q =>
      ⟨S.request.operation.key, q.startedAt, some q.endedAt, q.isTerminated⟩).toList := by
    have hfiled := h.filed
    cases hspan : S.span with
    | none =>
      rw [hspan] at hfiled
      have hnone := h.stands.tells.filed.trans hfiled
      rw [List.map_eq_nil_iff.1 hnone]
      rfl
    | some q =>
      rw [hspan] at hfiled
      rw [hw.arises.isDated.recordsOf_over h.stands.tells (h.saga q hspan) hfiled, hcommand,
        ← hS.endedAt_eq hspan]
      rfl
  rw [fateOf, outcomes_eq_singleton hw.arises.isOrderly h.resolved, h.reported, hfor, hrecords]
  rfl

/-! ## Runs that have done all that was due -/

namespace Halts

variable (h : Halts s log w) (hr : r.cancelAt = r.tokenName.bind (cancelledAt? log w))
variable (ho : w.Orders e r opening)

include h

/-- Nobody has a turn coming. -/
theorem idle : j ∉ w.ready := by
  rw [h.still.ready]
  exact List.not_mem_nil

/-- A start that is going on is over later. -/
theorem lt_startsAt (hstarting : w.IsStarting v r b opening e j id) : w.clock < v.startsAt b := by
  refine Nat.lt_of_le_of_ne hstarting.awaits.due fun heq => ?_
  rcases h.runs.reachable.isAttended hstarting.starting with hready | ⟨u, hu, huj⟩
  · exact h.idle hready
  · have hlater := h.still.timers u hu
    rw [hstarting.awaits.own u hu huj, heq] at hlater
    exact Nat.lt_irrefl _ hlater

/-- An execution that runs is over later, if it is left to itself. -/
theorem lt_dueAt (hunderway : w.IsUnderway v r b opening e j id) : w.clock < v.dueAt r b := by
  rcases h.runs.reachable.isAttended hunderway.running with htimer | ⟨-, hready⟩
  · exact h.still.timers _ htimer
  · exact absurd hready h.idle

include hr ho

/-- The token of an execution that runs is not cancelled, or its job would have a turn coming. -/
theorem cancelAt_eq_none (hunderway : w.IsUnderway v r b opening e j id) : r.cancelAt = none := by
  refine Option.eq_none_iff_forall_not_mem.2 fun c hc => ?_
  obtain ⟨entry, he, horder, -⟩ := ho
  have htoken : entry.token = r.tokenName := (Prod.mk.inj horder).2
  rw [hr, ← htoken] at hc
  cases hx : entry.token with
  | none => simp [hx] at hc
  | some x =>
    rw [hx] at hc
    have hheeds := h.runs.reachable.isHeeded (hunderway.running.servesAt he) hx
    rw [Heeds, if_pos (h.runs.cancelled_of_calendar hc)] at hheeds
    exact h.idle hheeds

/-- **An entry that became active** has its start or its execution going on, or is over. -/
theorem cases (hd : (b, e) ∈ w.timed Happening.dispatched?) :
    (∃ j id, w.IsStarting s.server r b opening e j id) ∨
      (∃ j id, w.IsUnderway s.server r b opening e j id) ∨
      ∃ S call id ch, s.server.Serves r b S ∧ w.IsFulfilled S opening e call id ch := by
  have hgetsOn := h.runs.getsOn h.uniform h.untroubled h.free (fun _ hu => h.runs.obeys hu) hr ho hd
  cases hgetsOn with
  | comes hat => exact absurd (h.runs.reachable.isAttended hat) h.idle
  | starts hstarting => exact .inl ⟨_, _, hstarting⟩
  | runs hunderway => exact .inr (.inl ⟨_, _, hunderway⟩)
  | ended hS hover => exact .inr (.inr ⟨_, _, _, _, hS, hover⟩)

/-- **An entry that became active has a service**, which is over or will be over later, and its fate
is the one of the service. -/
theorem exists_service (hd : (b, e) ∈ w.timed Happening.dispatched?) :
    ∃ S, s.server.Serves r b S ∧ w.fateOf e = S.fateAt opening w.clock ∧
      (S.endsAt ≤ w.clock ∧ (S.endsAt, e) ∈ w.timed Happening.vacated? ∨
        w.clock < S.endsAt ∧ e ∉ w.ledger.vacated) := by
  have hw := h.runs.reachable
  have hle : ¬ w.clock < b := Nat.not_lt.2 (hw.arises.timed_le hd)
  rcases h.cases hr ho hd with ⟨j, id, hstarting⟩ | ⟨j, id, hunderway⟩ |
    ⟨S, call, id, ch, hS, hover⟩
  · have hlater := h.lt_startsAt hstarting
    have hS := s.server.serves_serve r b
    have hend := Nat.lt_of_lt_of_le hlater (Server.startsAt_le_endsAt_serve hstarting.calm)
    refine ⟨_, hS, ?_, .inr ⟨hend, hw.arises.not_vacated hstarting.starting (by simp)⟩⟩
    rw [Service.fateAt, hS.beginsAt_eq, if_neg hle, if_pos hend, hstarting.fateOf_eq hw ho]
    cases hspan : (s.server.serve r b).span with
    | none => rfl
    | some q =>
      have hstarted : ¬ q.startedAt ≤ w.clock := by
        rw [hS.startedAt_eq hspan]
        exact Nat.not_le.2 hlater
      rw [Option.filter_some, decide_eq_false hstarted]
      rfl
  · have hnone := h.cancelAt_eq_none hr ho hunderway
    have hend := h.lt_dueAt hunderway
    have hstarted : s.server.startsAt b ≤ w.clock := hunderway.started
    refine ⟨_, .completed (fun c hc => by simp [hnone] at hc) hunderway.accepted, ?_,
      .inr ⟨hend, hw.arises.not_vacated hunderway.running (by simp)⟩⟩
    rw [Service.fateAt, if_neg hle, if_pos hend, hunderway.fateOf_eq hw ho, Option.filter_some,
      decide_eq_true hstarted]
    rfl
  · have hend := hw.arises.timed_le hover.vacated
    refine ⟨S, hS, ?_, .inl ⟨hend, hover.vacated⟩⟩
    rw [Service.fateAt, hS.beginsAt_eq, if_neg hle, if_neg (Nat.not_lt.2 hend),
      hover.fateOf_eq hw hS ho]

end Halts

end Fates

end World

end Dispatch

end FolderTasks
