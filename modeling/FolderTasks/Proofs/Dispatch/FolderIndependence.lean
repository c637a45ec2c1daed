import FolderTasks.Proofs.Dispatch.QueuePlans
/-!
# Folders are independent

What is seen of a queue depends on nothing but its own requests and the cancellations of their
tokens: which requests share an entry, what the backend recorded of the entries, what was reported
of them, and when their outcomes became known.  All queues share the numbers of the tasks, the right
to start, the observers and the backend; nothing of that shows when starts take no time.

## Main definitions

* `Transcript`: what is seen of a queue.
* `Plan.transcript`: what is to be seen of a plan.
* `World.Pauses`: a run that has done all that was due, when starts take no time.
* `World.IsTieFree`: nothing falls together on a queue of which the order would matter.

## Main statements

* `World.KeepsTo.transcript_eq`: what is seen of a queue is what is to be seen of its plan.
* `World.Pauses.isTieFree`: it is enough that no token is cancelled when an entry is completed.
* `World.transcript_eq_of_same_requests`: folders are independent.

## Design notes

Two runs are compared when both have done all that was due: at one moment, or at any moments when
both are over.  Within a moment the order of what happens on different queues is left open, so
nothing would be the same in the middle of it.
-/

namespace FolderTasks.Dispatch

/-- **What is seen of a queue.** -/
structure Transcript where
  /-- For each request the place of its entry among the entries of the queue. -/
  sharing : List Nat
  /-- What is seen of the entries, in the order in which they were created. -/
  fates : List Fate
  /-- What is reported of the entries, in the order in which it is reported. -/
  reports : List (Nat × StatusCall)
deriving DecidableEq

/-- What is to be seen of the services of a plan at a given moment. -/
def Plan.transcript (P : Plan) (name : String) (t : Nat) : Transcript :=
  let fates := P.services.map fun S => S.fateAt (S.request.operation.startCalls name) t
  { sharing := P.answers
    fates
    reports := fates.flatMap Fate.reports }

namespace World

/-- **What is seen of a queue** in a run. -/
def transcript (w : World) (q : QueueId) (log : List (World × Choice)) : Transcript where
  sharing := (answersOn q log).map (w.createdOn q).idxOf
  fates := (w.createdOn q).map w.fateOf
  reports := ((w.timed Happening.report?).filter fun r => w.belongs q r.2.1).map fun r =>
    (r.1, r.2.2)

/-- **A punctual run that has done all that was due**, in which nothing went wrong and starts took no
time. -/
structure Pauses (s : Setting) (log : List (World × Choice)) (w : World) : Prop where
  plain : s.IsPlain
  runs : Runs s log w
  untroubled : w.IsUntroubled
  still : w.IsStill

/-- **Nothing falls together on a queue** of which the order would matter. -/
structure IsTieFree (s : Setting) (log : List (World × Choice)) (w : World) (q : QueueId) : Prop where
  /-- No request is made on the queue when an entry of it is completed. -/
  requests : ∀ a ∈ asksOn q log, ∀ r ∈ w.timed Happening.resolved?, w.belongs q r.2.1 →
    r.1 ≠ a.instant
  /-- No token is cancelled when the entry of its request becomes active, -/
  tokens : ∀ d ∈ w.timed Happening.dispatched?, w.belongs q d.2 → ∀ entry ∈ w.entryOf? d.2,
    d.1 ∉ entry.token.bind (cancelledAt? log w)
  /-- nor when its execution comes to its end by itself.  An execution that is interrupted has its
  outcome when the token is cancelled, and that is no tie. -/
  ends : ∀ d ∈ w.timed Happening.dispatched?, w.belongs q d.2 → ∀ entry ∈ w.entryOf? d.2,
    (s.server.scriptFor entry.operation.key).refuses = false →
    d.1 + (s.server.scriptFor entry.operation.key).delay ∉ entry.token.bind (cancelledAt? log w)

section Independence

variable {s s' : Setting} {log log' : List (World × Choice)} {w w' : World} {q q' : QueueId}
variable {σ : Calendar} {P : Plan} {e : EntryId}

/-! ## The reports of a queue -/

theorem reportsOf_eq_filterMap (w : World) (e : EntryId) : w.reportsOf e =
    (w.timed Happening.report?).filterMap fun r =>
      if r.2.1 = e then some (r.1, r.2.2) else none := by
  rw [reportsOf, timedFor, timed, timed, List.filterMap_reverse, List.filterMap_filterMap]
  congr 1
  refine List.filterMap_congr fun p _ => ?_
  cases p.2.report? with
  | none => rfl
  | some r => by_cases hr : r.1 = e <;> simp [hr]

/-- **The reports of a queue are those of its entries**, one entry after the other. -/
theorem Reachable.reports_eq (hw : Reachable w) (q : QueueId) :
    ((w.timed Happening.report?).filter fun r => w.belongs q r.2.1).map (fun r => (r.1, r.2.2)) =
      (w.createdOn q).flatMap w.reportsOf := by
  have ho := hw.arises.isOrderly
  generalize hl : ((w.timed Happening.report?).filter fun r => w.belongs q r.2.1).map
    (fun r => (r.2.1, r.1, r.2.2)) = l
  have hsorted : l.Pairwise fun r r' => r.1 ≤ r'.1 := by
    have hpairwise := hw.arises.inOrder.2
    rw [reported, ← map_snd_timed, List.pairwise_map] at hpairwise
    rw [← hl, List.pairwise_map]
    refine (hpairwise.filter _).imp_of_mem fun {r r'} hr hr' hle => ?_
    refine hle q ?_ ?_ <;> rw [isOn_eq_belongs]
    · exact (List.mem_filter.1 hr).2
    · exact (List.mem_filter.1 hr').2
  have hmem : ∀ r ∈ l, r.1 ∈ w.createdOn q := by
    intro r hr
    rw [← hl] at hr
    obtain ⟨r', hr', rfl⟩ := List.mem_map.1 hr
    exact (mem_createdOn ho).2 (List.mem_filter.1 hr').2
  have hblocks := eq_flatMap_filter hsorted (pairwise_createdOn ho q) hmem
  have hleft : ((w.timed Happening.report?).filter fun r => w.belongs q r.2.1).map
      (fun r => (r.1, r.2.2)) = l.map Prod.snd := by
    rw [← hl, List.map_map]
    rfl
  rw [hleft, hblocks, List.map_flatMap]
  refine List.flatMap_congr fun e he => ?_
  rw [reportsOf_eq_filterMap, ← hl]
  have hon := (mem_createdOn ho).1 he
  generalize w.timed Happening.report? = reports
  induction reports with
  | nil => rfl
  | cons r reports ih =>
    by_cases hr : r.2.1 = e
    · simpa [hr, hon] using ih
    · by_cases hon' : w.belongs q r.2.1 <;> simpa [hr, hon'] using ih

/-! ## Runs and plans -/

/-- **What is seen of a queue is what is to be seen of its plan.** -/
theorem KeepsTo.transcript_eq (hP : w.KeepsTo σ q P (w.createdOn q)) (hw : Reachable w)
    (hanswers : P.answers = (answersOn q log).map (w.createdOn q).idxOf) :
    w.transcript q log = P.transcript (w.queueName q) w.clock := by
  have hfates : (w.createdOn q).map w.fateOf = P.services.map fun S =>
      S.fateAt (S.request.operation.startCalls (w.queueName q)) w.clock := by
    refine List.ext_getElem? fun k => ?_
    rw [List.getElem?_map, List.getElem?_map]
    cases hS : P.services[k]? with
    | none =>
      rw [List.getElem?_eq_none_iff, hP.length, ← List.getElem?_eq_none_iff] at hS
      rw [hS]
      rfl
    | some S =>
      obtain ⟨e, he⟩ := hP.exists_entry hS
      rw [he, Option.map_some, Option.map_some, (hP.shows hS he).fate]
  rw [transcript, Plan.transcript, hanswers, hw.reports_eq, ← hfates, List.flatMap_map]
  rfl

/-! ## Ties -/

theorem Pauses.halts (h : Pauses s log w) : Halts s log w where
  uniform := h.plain.isUniform
  runs := h.runs
  untroubled := h.untroubled
  still := h.still
  free := h.runs.isUncontended h.plain

theorem clock_of_ask? {p : World × Choice} {a : Ask × EntryId} (ha : ask? q p = some a) :
    a.1.instant = p.1.clock := by
  unfold ask? at ha
  split at ha
  · split at ha
    · rw [← Option.some.inj ha]
    · exact absurd ha (by simp)
  · exact absurd ha (by simp)

theorem Runs.instant_le_clock (h : Runs s log w) {a : Ask} (ha : a ∈ asksOn q log) :
    a.instant ≤ w.clock := by
  obtain ⟨⟨a, e⟩, hmem, rfl⟩ := List.mem_map.1 ha
  obtain ⟨p, hp, hask⟩ := List.mem_filterMap.1 hmem
  rw [clock_of_ask? hask]
  exact ((List.pairwise_append.1 h.inOrder).2.2 p.1 (List.mem_map_of_mem hp) w
    (List.mem_singleton_self w)).clock

/-- Requests are made one after the other. -/
theorem Runs.pairwise_askedOn (h : Runs s log w) (σ : Calendar) (q : QueueId) :
    (askedOn σ q log).Pairwise fun r r' => r.instant ≤ r'.instant := by
  have horder := (List.pairwise_append.1 h.inOrder).1
  rw [List.pairwise_map] at horder
  rw [askedOn, asksOn, List.map_map, List.pairwise_map, List.pairwise_filterMap]
  refine horder.imp fun {p p'} hle a ha a' ha' => ?_
  change a.1.instant ≤ a'.1.instant
  rw [clock_of_ask? ha, clock_of_ask? ha']
  exact hle.clock

/-- An entry gets its outcome when its service ends. -/
theorem Shows.mem_resolved {σ : Calendar} {S : Service} (h : w.Shows σ q S e)
    (hbegins : S.beginsAt ≤ S.endsAt) (hends : S.endsAt ≤ w.clock) :
    (S.endsAt, e, S.outcome) ∈ w.timed Happening.resolved? := by
  have houtcomes := congrArg Fate.outcomes h.fate
  rw [Service.fateAt_eq hbegins hends] at houtcomes
  refine mem_timedFor.1 ?_
  rw [show w.timedFor Happening.resolved? e = [(S.endsAt, S.outcome)] from houtcomes]
  exact List.mem_singleton_self _

/-- **A run is free of ties** if no request is made on the queue when an entry of it is completed, and
no token is cancelled when the entry of its request becomes active or is completed.  For whichever
wins at the end of an execution, the entry is completed at that moment. -/
theorem Pauses.isTieFree (h : Pauses s log w)
    (hrequests : ∀ a ∈ asksOn q log, ∀ r ∈ w.timed Happening.resolved?, w.belongs q r.2.1 →
      r.1 ≠ a.instant)
    (htokens : ∀ d ∈ w.timed Happening.dispatched?, w.belongs q d.2 → ∀ entry ∈ w.entryOf? d.2,
      d.1 ∉ entry.token.bind (cancelledAt? log w))
    (hcompletions : ∀ r ∈ w.timed Happening.resolved?, w.belongs q r.2.1 →
      ∀ entry ∈ w.entryOf? r.2.1, r.1 ∉ entry.token.bind (cancelledAt? log w)) :
    IsTieFree s log w q where
  requests := hrequests
  tokens := htokens
  ends := by
    rintro ⟨t, e⟩ hd hon entry hentry haccepts hc
    dsimp only at haccepts hc
    obtain ⟨P, hplans, hP, -⟩ := h.halts.exists_plan q
    have hw := h.runs.reachable.arises
    obtain ⟨k, he⟩ := List.mem_iff_getElem?.1 ((mem_createdOn hw.isOrderly).2 hon)
    obtain ⟨S, hk⟩ := hP.exists_service_of_entry he
    have hshows := hP.shows hk he
    obtain ⟨rfl, -⟩ := (hshows.dispatched t).1 hd
    obtain ⟨entry', hentry', horder, -⟩ := hshows.meets.orders hon
    obtain rfl := Option.some.inj (hentry'.symm.trans hentry)
    obtain ⟨hoperation, htoken⟩ := Prod.mk.inj horder
    rw [hoperation] at haccepts hc
    have hstarts : s.server.startsAt S.beginsAt = S.beginsAt :=
      congrArg (S.beginsAt + ·) h.plain.startDelay
    have hdue : s.server.dueAt S.request S.beginsAt ∈ S.request.cancelAt := by
      rw [Server.dueAt, hstarts, hshows.meets.cancelAt, ← htoken]
      exact hc
    have hmem := List.mem_of_getElem? hk
    have hends := (hplans.isOrdered.served S hmem).endsAt_of_tie haccepts hdue
    rw [← hends] at hdue
    have hover : S.endsAt ≤ w.clock := by
      rw [hshows.meets.cancelAt] at hdue
      obtain ⟨x, -, hx⟩ := Option.bind_eq_some_iff.1 hdue
      exact h.runs.le_clock_of_calendar hx
    refine hcompletions _ (hshows.mem_resolved (hplans.isOrdered.begins_le_ends hmem) hover) hon entry'
      hentry' ?_
    rw [htoken, ← hshows.meets.cancelAt]
    exact hdue

/-- **When nothing falls together in a run, nothing does in its plan.** -/
theorem IsTieFree.isUntied (ht : IsTieFree s log w q) (h : Pauses s log w)
    (hP : w.KeepsTo (cancelledAt? log w) q P (w.createdOn q)) (hordered : P.IsOrdered s.server) :
    P.IsUntied s.server (askedOn (cancelledAt? log w) q log) := by
  have hle (r : Request) (hr : r.cancelAt = r.tokenName.bind (cancelledAt? log w)) :
      ∀ c ∈ r.cancelAt, c ≤ w.clock := by
    intro c hc
    rw [hr] at hc
    obtain ⟨x, -, hx⟩ := Option.bind_eq_some_iff.1 hc
    exact h.runs.le_clock_of_calendar hx
  refine ⟨fun S hS => ?_, List.pairwise_of_forall_mem_list fun _ _ r hr _ _ _ _ _ S hS hend => ?_⟩
  · obtain ⟨k, hk⟩ := List.mem_iff_getElem?.1 hS
    obtain ⟨e, he⟩ := hP.exists_entry hk
    have hshows := hP.shows hk he
    obtain ⟨entry, hentry, horder, -⟩ := hshows.meets.orders (hP.belongs he)
    obtain ⟨hoperation, htoken⟩ := Prod.mk.inj horder
    have hcancel : S.request.cancelAt = entry.token.bind (cancelledAt? log w) := by
      rw [hshows.meets.cancelAt, ← htoken]
    rcases Nat.lt_or_ge w.clock S.beginsAt with hlater | hnow
    · -- No token is cancelled after the run.
      refine ⟨fun hc => ?_, fun _ c hc hbegins => ?_⟩
      · exact Nat.not_lt.2 (hle _ hshows.meets.cancelAt _ hc) hlater
      · exact absurd (Nat.le_trans hbegins (hle _ hshows.meets.cancelAt _ hc)) (Nat.not_le.2 hlater)
    · have hd := (hshows.dispatched _).2 ⟨rfl, hnow⟩
      have hstarts : s.server.startsAt S.beginsAt = S.beginsAt :=
        congrArg (S.beginsAt + ·) h.plain.startDelay
      refine ⟨hcancel ▸ ht.tokens _ hd (hP.belongs he) entry hentry,
        fun haccepts c hc hbegins hdue => ?_⟩
      have hends := ht.ends _ hd (hP.belongs he) entry hentry
      rw [← hcancel, hoperation] at hends
      rw [hstarts, Nat.max_eq_left hbegins, Server.dueAt, hstarts] at hdue
      exact hends haccepts (hdue ▸ hc)
  · obtain ⟨k, hk⟩ := List.mem_iff_getElem?.1 hS
    obtain ⟨e, he⟩ := hP.exists_entry hk
    obtain ⟨a, ha, rfl⟩ := List.mem_map.1 hr
    have hover : S.endsAt ≤ w.clock := Nat.le_trans (Nat.le_of_eq hend) (h.runs.instant_le_clock ha)
    exact ht.requests a ha _ ((hP.shows hk he).mem_resolved (hordered.begins_le_ends hS) hover)
      (hP.belongs he) hend

/-- **When nothing falls together the plan of a run is the one of the recurrence.** -/
theorem Pauses.keepsTo (h : Pauses s log w) (ht : IsTieFree s log w q) :
    w.KeepsTo (cancelledAt? log w) q (s.server.plan (askedOn (cancelledAt? log w) q log))
        (w.createdOn q) ∧
      w.transcript q log = (s.server.plan (askedOn (cancelledAt? log w) q log)).transcript
        (w.queueName q) w.clock := by
  obtain ⟨P, hplans, hP, hanswers⟩ := h.halts.exists_plan q
  have hordered := hplans.isOrdered
  obtain rfl := hplans.eq_plan (.inl (ht.isUntied h hP hordered)) (h.runs.pairwise_askedOn _ q)
  exact ⟨hP, hP.transcript_eq h.runs.reachable hanswers⟩

/-- When all services are over time does not matter any more. -/
theorem transcript_of_endsAt_le {v : Server} (hP : P.IsOrdered v) {t t' : Nat}
    (h : ∀ S ∈ P.services, S.endsAt ≤ t) (h' : ∀ S ∈ P.services, S.endsAt ≤ t') (name : String) :
    P.transcript name t' = P.transcript name t := by
  have hfates : (P.services.map fun S => S.fateAt (S.request.operation.startCalls name) t') =
      P.services.map fun S => S.fateAt (S.request.operation.startCalls name) t := by
    refine List.map_congr_left fun S hS => ?_
    have hle := hP.begins_le_ends hS
    rw [Service.fateAt_eq hle (h S hS), Service.fateAt_eq hle (h' S hS)]
  rw [Plan.transcript, Plan.transcript, hfates]

/-- A plan depends on the requests and on the cancellations of their tokens. -/
theorem plan_askedOn_congr {σ σ' : Calendar} (hdelay : s'.startDelay = s.startDelay)
    (hfallback : s'.fallback = s.fallback) (hscripts : s'.scripts = s.scripts)
    (hasks : asksOn q' log' = asksOn q log)
    (htokens : ∀ a ∈ asksOn q log, ∀ x ∈ a.token, σ' x = σ x) :
    s'.server.plan (askedOn σ' q' log') = s.server.plan (askedOn σ q log) := by
  have hserver : s'.server = s.server := by
    rw [Setting.server, Setting.server, hdelay, hfallback, hscripts]
  rw [askedOn, askedOn, hserver, hasks]
  congr 1
  refine List.map_congr_left fun a ha => ?_
  rw [Ask.request, Ask.request]
  congr 1
  cases hx : a.token with
  | none => rfl
  | some x => rw [Option.map_some, Option.map_some, htokens a ha x hx]

/-- **Folders are independent.**  Two runs that make the same requests on a queue at the same
moments, and cancel their tokens at the same moments, show the same of it, whatever else they do.
They are compared at one moment, or when both have no timer any more. -/
theorem transcript_eq_of_same_requests (h : Pauses s log w) (h' : Pauses s' log' w')
    (hfallback : s'.fallback = s.fallback) (hscripts : s'.scripts = s.scripts)
    (hname : w'.queueName q' = w.queueName q)
    (hclock : w'.clock = w.clock ∨ w'.timers = [] ∧ w.timers = [])
    (hasks : asksOn q' log' = asksOn q log)
    (htokens : ∀ a ∈ asksOn q log, ∀ x ∈ a.token, cancelledAt? log' w' x = cancelledAt? log w x)
    (ht : IsTieFree s log w q) (ht' : IsTieFree s' log' w' q') :
    w'.transcript q' log' = w.transcript q log := by
  have hdelay : s'.startDelay = s.startDelay := h'.plain.startDelay.trans h.plain.startDelay.symm
  have hplan := plan_askedOn_congr hdelay hfallback hscripts hasks htokens
  obtain ⟨hkeeps, hshown⟩ := h.keepsTo ht
  obtain ⟨hkeeps', hshown'⟩ := h'.keepsTo ht'
  rw [hshown, hshown', hname, hplan]
  rcases hclock with hclock | ⟨hover', hover⟩
  · rw [hclock]
  · have hends' := hkeeps'.endsAt_le h'.halts hover'
    rw [hplan] at hends'
    exact transcript_of_endsAt_le (s.server.plans_plan _).isOrdered (hkeeps.endsAt_le h.halts hover)
      hends' _

theorem isUntroubled_of_all (h : w.verdicts.all fun x => x.resolved?.isSome)
    (hopened : w.manager.isDisposed = false) : w.IsUntroubled := by
  refine ⟨fun x hx => ?_, hopened⟩
  have hsome := List.all_eq_true.1 h x hx
  cases x with
  | resolved e o => exact ⟨e, o, rfl⟩
  | _ => exact absurd hsome (by simp [Happening.resolved?])

theorem isReserved_act {a : Action} (hscript : ∀ args s delay, a ≠ .script args s delay)
    (hobserve : ∀ name kind hooks, a ≠ .observe name kind hooks) :
    (Choice.act (.act a)).IsReserved :=
  ⟨hscript, fun name kind hooks heq => absurd heq (hobserve name kind hooks)⟩

/-- The second entry of `B` waits for the first one, absorbs a request, and is cancelled while it
runs.  Another queue is used before and meanwhile, an execution of it is interrupted, and more time
passes in the end. -/
theorem transcript_eq_of_same_requests_busy : ∃ (s : Setting) (log log' : List (World × Choice)) (w w' : World),
    Pauses s log w ∧ Pauses s log' w' ∧ (asksOn 0 log).length = 3 ∧
    asksOn 1 log' = asksOn 0 log ∧ w.entries.length = 2 ∧ w'.entries.length = 3 ∧
    (w.transcript 0 log).reports.length = 4 ∧ w'.transcript 1 log' = w.transcript 0 log := by
  let op (a : String) : Operation :=
    { command := ⟨"p", [a], none, .empty, none⟩, showStatus := true }
  have h₀ : Runs { fallback := { delay := 5 } } [] _ := .new
  have h₁ := h₀.next (.act (.act (.makeQueue "b" "B")) rfl)
    (isReserved_act (by simp) (by simp)) (by decide +kernel)
  have h₂ := h₁.next (.act (.act (.request "b" (op "c") none "first")) rfl)
    (isReserved_act (by simp) (by simp)) (by decide +kernel)
  have h₃ := h₂.next (.turn 0 (by decide +kernel)) trivial (by decide +kernel)
  have h₄ := h₃.next (.pass 2 (by decide +kernel)) trivial (by decide +kernel)
  have h₅ := h₄.next (.act (.act (.request "b" (op "d") (some "x") "second")) rfl)
    (isReserved_act (by simp) (by simp)) (by decide +kernel)
  have h₆ := h₅.next (.act (.act (.request "b" (op "d") none "third")) rfl)
    (isReserved_act (by simp) (by simp)) (by decide +kernel)
  have h₇ := h₆.next (.fire ⟨5, 0⟩ (by decide +kernel)) trivial (by decide +kernel)
  have h₈ := h₇.next (.turn 0 (by decide +kernel)) trivial (by decide +kernel)
  have h₉ := h₈.next (.turn 1 (by decide +kernel)) trivial (by decide +kernel)
  have h₁₀ := h₉.next (.pass 7 (by decide +kernel)) trivial (by decide +kernel)
  have h₁₁ := h₁₀.next (.act (.act (.cancel "x")) rfl) (isReserved_act (by simp) (by simp))
    (by decide +kernel)
  have h₁₂ := h₁₁.next (.turn 1 (by decide +kernel)) trivial (by decide +kernel)
  have k₁ := h₀.next (.act (.act (.makeQueue "a" "A")) rfl)
    (isReserved_act (by simp) (by simp)) (by decide +kernel)
  have k₂ := k₁.next (.act (.act (.makeQueue "b" "B")) rfl)
    (isReserved_act (by simp) (by simp)) (by decide +kernel)
  have k₃ := k₂.next (.act (.act (.request "a" (op "c") (some "y") "other")) rfl)
    (isReserved_act (by simp) (by simp)) (by decide +kernel)
  have k₄ := k₃.next (.act (.act (.request "b" (op "c") none "first")) rfl)
    (isReserved_act (by simp) (by simp)) (by decide +kernel)
  have k₅ := k₄.next (.turn 0 (by decide +kernel)) trivial (by decide +kernel)
  have k₆ := k₅.next (.turn 1 (by decide +kernel)) trivial (by decide +kernel)
  have k₇ := k₆.next (.pass 2 (by decide +kernel)) trivial (by decide +kernel)
  have k₈ := k₇.next (.act (.act (.request "b" (op "d") (some "x") "second")) rfl)
    (isReserved_act (by simp) (by simp)) (by decide +kernel)
  have k₉ := k₈.next (.act (.act (.cancel "y")) rfl) (isReserved_act (by simp) (by simp))
    (by decide +kernel)
  have k₁₀ := k₉.next (.act (.act (.request "b" (op "d") none "third")) rfl)
    (isReserved_act (by simp) (by simp)) (by decide +kernel)
  have k₁₁ := k₁₀.next (.turn 0 (by decide +kernel)) trivial (by decide +kernel)
  have k₁₂ := k₁₁.next (.fire ⟨5, 1⟩ (by decide +kernel)) trivial (by decide +kernel)
  have k₁₃ := k₁₂.next (.turn 1 (by decide +kernel)) trivial (by decide +kernel)
  have k₁₄ := k₁₃.next (.turn 2 (by decide +kernel)) trivial (by decide +kernel)
  have k₁₅ := k₁₄.next (.pass 7 (by decide +kernel)) trivial (by decide +kernel)
  have k₁₆ := k₁₅.next (.act (.act (.cancel "x")) rfl) (isReserved_act (by simp) (by simp))
    (by decide +kernel)
  have k₁₇ := k₁₆.next (.turn 2 (by decide +kernel)) trivial (by decide +kernel)
  have k₁₈ := k₁₇.next (.pass 9 (by decide +kernel)) trivial (by decide +kernel)
  have h : Pauses _ _ _ := ⟨⟨rfl, rfl, by simp⟩, h₁₂,
    isUntroubled_of_all (by decide +kernel) (by decide +kernel),
    ⟨by decide +kernel, by decide +kernel⟩⟩
  have k : Pauses _ _ _ := ⟨⟨rfl, rfl, by simp⟩, k₁₈,
    isUntroubled_of_all (by decide +kernel) (by decide +kernel),
    ⟨by decide +kernel, by decide +kernel⟩⟩
  refine ⟨_, _, _, _, _, h, k, by decide +kernel, by decide +kernel, by decide +kernel,
    by decide +kernel, by decide +kernel, ?_⟩
  exact transcript_eq_of_same_requests h k rfl rfl (by decide +kernel) (.inr (by decide +kernel))
    (by decide +kernel) (by decide +kernel)
    ⟨by decide +kernel, by decide +kernel, by decide +kernel⟩
    ⟨by decide +kernel, by decide +kernel, by decide +kernel⟩

end Independence

end World

end FolderTasks.Dispatch
