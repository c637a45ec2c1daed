import FolderTasks.Proofs.Dispatch.FairRuns
/-!
# What becomes of a request

A request is honoured when a command with its arguments is started after it was made, and its handle
gets the exit of that execution.  In a fair run every request is honoured that nothing hinders, but
for one case: a request that is absorbed shares the token of the entry that absorbs it, and if that
was cancelled before, nothing is started for either.

## Main definitions

* `World.news`: what has happened since.
* `World.IsUnhindered`: nothing that happened since stands in the way of a request.
* `World.Honours`: a request has been honoured.

## Main statements

* `World.IsFair.honours`: every request is honoured whose entry is not cancelled when it is made.
* `World.not_honours_of_cancelled`: a request that a cancelled entry absorbs is not.
-/

namespace FolderTasks.Dispatch

/-- The backend refuses to start a command with these arguments. -/
def Happening.refuses (args : List String) : Happening → Bool
  | .startFailed _ c _ => c.args == args
  | _ => false

namespace World

/-- What has happened in a world since it was another one. -/
def news (v w : World) : List (Nat × Happening) :=
  w.history.take (w.history.length - v.history.length)

/-- **Nothing stands in the way of a request** that an entry serves and after which the world was
`v`: no token was cancelled since, the task manager is not disposed of, no callback panicked that
was made for the entry, and the backend has refused no command with these arguments since. -/
structure IsUnhindered (v : World) (e : EntryId) (args : List String) (w : World) : Prop where
  cancelled : ∀ token, w.isCancelled token → v.isCancelled token
  disposed : w.manager.isDisposed = false
  panicked : ¬ w.PanickedFor e
  launches : ∀ x ∈ news v w, x.2.refuses args = false

/-- **A request has been honoured** that an entry serves and after which the world was `v`: since
then the backend started a command with its arguments for the entry, the execution came to its end
by itself, and the outcome is its exit. -/
def Honours (v : World) (e : EntryId) (args : List String) (w : World) : Prop :=
  ∃ (id : TaskId) (c : Command) (code : Option Int32) (r : Record) (t t' : Nat),
    w.Serves id e ∧ c.args = args ∧ (t, .started id c) ∈ news v w ∧
      (t', .ended id c code) ∈ news v w ∧ w.backend.recordsOf id = [r] ∧ r.endedAt.isSome ∧
      r.terminated = false ∧ (w.entryOf? e).bind Entry.outcome = some (.ofCode code)

section Honouring

variable {v w w' : World} {e : EntryId} {args : List String}

theorem news_of_append {newer : List (Nat × Happening)} (h : w.history = newer ++ v.history) :
    news v w = newer := by
  rw [news, h, List.length_append, Nat.add_sub_cancel, List.take_left]

/-- What happened is new, or had happened before. -/
theorem Arises.mem_news (hv : Arises v) (hc : Changes v w) {x : Nat × Happening} :
    x ∈ w.history ↔ x ∈ news v w ∨ x ∈ v.history := by
  obtain ⟨newer, hnewer, -⟩ := (hv.lasts_changes hc).facts
  rw [news_of_append hnewer, hnewer, List.mem_append]

/-- What stood in the way at no later moment did not do so before. -/
theorem IsUnhindered.back (h : IsUnhindered v e args w') (hv : Arises v) (hc : Changes v w)
    (hc' : Changes w w') : IsUnhindered v e args w where
  cancelled token ht := h.cancelled token (((hv.changes hc).lasts_changes hc').cancelled token ht)
  disposed := by
    by_contra hdisposed
    have hlater := ((hv.changes hc).lasts_changes hc').disposed (Bool.not_eq_false _ ▸ hdisposed)
    rw [h.disposed] at hlater
    exact Bool.noConfusion hlater
  panicked hpanic := by
    obtain ⟨x, hx, hfor⟩ := hpanic
    exact h.panicked ⟨x, ((hv.changes hc).lasts_changes hc').mem_verdicts hx,
      hfor.forth (hv.changes hc) hc'⟩
  launches x hx := by
    refine h.launches x ?_
    obtain ⟨newer, hnewer, -⟩ := (hv.lasts_changes hc).facts
    obtain ⟨later, hlater, -⟩ := ((hv.changes hc).lasts_changes hc').facts
    rw [news_of_append hnewer] at hx
    have hboth : w'.history = (later ++ newer) ++ v.history := by
      rw [hlater, hnewer, List.append_assoc]
    rw [news_of_append hboth]
    exact List.mem_append_right _ hx

variable {q : QueueId} {queue : Queue} {op : Operation} {token : Option String}

/-- **A request is honoured once its outcome is there**, if nothing hinders it and the entry that
serves it is not cancelled. -/
theorem Reachable.honoured (hw : Reachable w') (hv : Arises w) (hq : w.queues[q]? = some queue)
    (hc : Changes (w.request q op token).1 w')
    (hserving : ∀ entry, (w.request q op token).1.entryOf? (w.request q op token).2 = some entry →
      (w.request q op token).1.isCancelled entry.token = false)
    (hu : IsUnhindered (w.request q op token).1 (w.request q op token).2 op.key w')
    {entry : Entry} {o : Outcome} (he : w'.entryOf? (w.request q op token).2 = some entry)
    (ho : entry.outcome = some o) :
    Honours (w.request q op token).1 (w.request q op token).2 op.key w' := by
  have harises : Arises (w.request q op token).1 := hv.change (.deed (.requested q op token))
  have hserved := hv.isServed hq hc
  obtain ⟨entry', he', -, hkey⟩ := hserved.operation
  obtain rfl := Option.some.inj (he'.symm.trans he)
  -- The token of the entry was not cancelled at the request, and has not been cancelled since.
  have hopen : w'.isCancelled entry'.token = false := by
    obtain ⟨first, hfirst, -⟩ := (hv.deduplicates hq op token).exists_entry
    obtain ⟨later, hlater, horder⟩ := (harises.lasts_changes hc).entryOf? hfirst
    obtain rfl := Option.some.inj (hlater.symm.trans he)
    by_contra hcancelled
    have hbefore := hu.cancelled _ (Bool.not_eq_false _ ▸ hcancelled)
    rw [(Prod.mk.inj horder).2, hserving first hfirst] at hbefore
    exact Bool.noConfusion hbefore
  obtain ⟨w₁, hreceive⟩ := receive?_of_outcome he ho
  obtain ⟨call, p, result, hserves, -, htold, rfl⟩ :=
    hw.isJudged.judged (hw.arises.resolved_of_receive? hreceive) hu.panicked
  obtain ⟨htoken, hcommand⟩ : call.token = entry'.token ∧
      call.command = entry'.operation.command := by
    have hcall := hserves.2
    rw [callOf?, he] at hcall
    exact ⟨(congrArg Call.token (Option.some.inj hcall)).symm,
      (congrArg Call.command (Option.some.inj hcall)).symm⟩
  cases htold with
  | rejected hd =>
    rw [hu.disposed] at hd
    exact Bool.noConfusion hd
  | @told id ch _ hstands hresult =>
    have hid : w'.Serves id (w.request q op token).2 := ⟨call.job, p, hstands.numbered, hserves.1⟩
    -- Nothing was told of the task before the request was made.
    have hnew {x : Happening} (hx : x ∈ ch.facts id call.command) (htask : x.task? = some id) :
        ∃ t, (t, x) ∈ news (w.request q op token).1 w' := by
      rw [← hstands.tells.annals, mem_annals htask] at hx
      obtain ⟨t, hmem⟩ := hx
      refine ⟨t, ((harises.mem_news hc).1 hmem).resolve_right fun hold => ?_⟩
      have hblank := (mem_annals htask).2 ⟨t, hold⟩
      rw [hserved.fresh hid] at hblank
      exact absurd hblank List.not_mem_nil
    have huncancelled {w₁ : World} {ws : List World} (hcourse : Course w' ws) (hmem : w₁ ∈ w' :: ws)
        (hcancelled : w₁.isCancelled call.token) : False := by
      obtain ⟨hw₁, hchanges⟩ := hcourse.leads hmem
      have hlater := (hw₁.lasts_changes hchanges).cancelled _ hcancelled
      rw [htoken, hopen] at hlater
      exact Bool.noConfusion hlater
    obtain ⟨ws, hcourse⟩ := hw.arises.exists_course
    cases ch with
    | lined | asked | begun => exact absurd hresult (by simp [Chapter.result?])
    | skipped =>
      obtain ⟨w₁, hmem, hcancelled, -⟩ := hstands.isCancelledUnasked hcourse hserves rfl
      exact (huncancelled hcourse hmem hcancelled).elim
    | terminated =>
      obtain ⟨w₁, hmem, hcancelled, -⟩ := hstands.isCancelledUnended hcourse hserves rfl
      exact (huncancelled hcourse hmem hcancelled).elim
    | refused f =>
      obtain ⟨t, hmem⟩ := hnew (x := .startFailed id call.command f) (by simp [Chapter.facts]) rfl
      have hrefuses := hu.launches _ hmem
      rw [Happening.refuses, hcommand] at hrefuses
      exact absurd hkey (beq_eq_false_iff_ne.1 hrefuses)
    | completed code =>
      obtain rfl := Option.some.inj hresult
      obtain ⟨t, hstarted⟩ := hnew (x := .started id call.command) (by simp [Chapter.facts]) rfl
      obtain ⟨t', hended⟩ := hnew (x := .ended id call.command code) (by simp [Chapter.facts]) rfl
      obtain ⟨r, hrecords, hend, hterminated⟩ := exists_record hstands.tells.filed
      refine ⟨id, call.command, code, r, t, t', hid, ?_, hstarted, hended, hrecords, hend,
        hterminated, ?_⟩
      · rw [hcommand]
        exact hkey
      · rw [he]
        exact ho

/-- **Every request is honoured** in a fair run, if nothing hinders it and the entry that serves it
is not cancelled when it is made. -/
theorem IsFair.honours {run : Nat → World} (hf : IsFair run) (hw : Reachable (run 0))
    (hv : Arises w) (hq : w.queues[q]? = some queue)
    (hc : Changes (w.request q op token).1 (run 0))
    (hserving : ∀ entry, (w.request q op token).1.entryOf? (w.request q op token).2 = some entry →
      (w.request q op token).1.isCancelled entry.token = false)
    (hu : ∀ n, IsUnhindered (w.request q op token).1 (w.request q op token).2 op.key (run n)) :
    ∃ n, Honours (w.request q op token).1 (w.request q op token).2 op.key (run n) := by
  have hlt := hv.request_lt (List.getElem?_eq_some_iff.1 hq).1 op token
  have hlength := ((hv.change (.deed (.requested q op token))).length_le hc).2
  obtain ⟨n, -, entry, o, he, ho⟩ := hf.exists_outcome hw (Nat.lt_of_lt_of_le hlt hlength)
  exact ⟨n, (hf.reachable hw n).honoured hv hq (hc.trans (hf.changes (Nat.zero_le n))) hserving
    (hu n) he ho⟩

/-! ## Two requests that are absorbed -/

/-- What stands in the way nowhere at the end of a run that drains does so nowhere. -/
theorem IsUnhindered.of_last {limit N : Nat} (hready : (runUntil limit N w).ready = [])
    (htimers : (runUntil limit N w).timers = []) (hv : Arises v) (hc : Changes v w)
    (h : IsUnhindered v e args (runUntil limit N w)) (n : Nat) :
    IsUnhindered v e args (runUntil limit n w) := by
  have hf := isFair_runUntil hready htimers
  have hlater : Changes (runUntil limit n w) (runUntil limit N w) := by
    rcases Nat.le_total n N with hn | hn
    · exact hf.changes hn
    · obtain ⟨more, rfl⟩ := Nat.exists_eq_add_of_le hn
      have hstuck : (runUntil limit N w).move? limit = none := by rw [move?, hready, htimers]
      rw [runUntil_add, runUntil_of_none hstuck]
  exact h.back hv (hc.trans (hf.changes (Nat.zero_le n))) hlater

/-- A request, after which its handle has its name. -/
theorem changes_requestNamed (w : World) (q : QueueId) (op : Operation) (token : Option String)
    (name : String) : Changes (w.request q op token).1 (w.requestNamed q op token name).1 :=
  .single (.deed (.named _ fun _ h => h))

theorem not_panickedFor (h : ∀ x ∈ w.verdicts, ∃ e o, x = .resolved e o) : ¬ w.PanickedFor e := by
  rintro ⟨x, hx, hfor⟩
  obtain ⟨e', o, rfl⟩ := h x hx
  rcases hfor with ⟨status, heq⟩ | ⟨kind, id, heq, -⟩ <;> exact absurd heq (by simp)

theorem isCancelled_of_tokens (h : w.tokens = v.tokens) (token : Option String) :
    w.isCancelled token = v.isCancelled token := by
  cases token with
  | none => rfl
  | some name => rw [isCancelled, isCancelled, World.token, World.token, h]

/-- Nothing is cancelled where no token ever was. -/
theorem isCancelled_of_open (h : ∀ t ∈ w.tokens, t.2.isCancelled = false) (token : Option String) :
    w.isCancelled token = false := by
  cases token with
  | none => rfl
  | some name =>
    rw [isCancelled, World.token]
    cases hlookup : w.tokens.lookup name with
    | none => rfl
    | some t =>
      obtain ⟨before, after, heq, -⟩ := List.lookup_eq_some_iff.1 hlookup
      exact h (name, t) (by rw [heq]; simp)

/-- An entry has one outcome in all of a run. -/
theorem IsFair.outcome_unique {run : Nat → World} (hf : IsFair run) (hw : Reachable (run 0))
    {n m : Nat} {o o' : Outcome} (h : ((run n).entryOf? e).bind Entry.outcome = some o)
    (h' : ((run m).entryOf? e).bind Entry.outcome = some o') : o = o' := by
  wlog hnm : n ≤ m generalizing n m o o'
  · exact (this h' h (Nat.le_of_not_le hnm)).symm
  · obtain ⟨entry, he, ho⟩ := Option.bind_eq_some_iff.1 h
    obtain ⟨entry', he', ho'⟩ := Option.bind_eq_some_iff.1 h'
    have hkept := (hf.reachable hw n).arises.outcome_forth (hf.changes hnm) he ho he'
    exact Option.some.inj (hkept.symm.trans ho')

/-- Swift with an argument. -/
def swift (a : String) : Operation := { command := ⟨"swift", [a], none, .empty, none⟩ }

/-- A queue that is busy, where a request with a token waits. -/
def waitingBehind : World :=
  (Setting.world { fallback := { delay := 10 } }).after [.act (.makeQueue "k" "q"),
    .act (.request "k" (swift "a") none "first"),
    .act (.request "k" (swift "b") (some "t") "second")]

theorem reachable_waitingBehind : Reachable waitingBehind :=
  (Reachable.new _).after (by simp [Step.isInstant])

/-- **A request that is absorbed while its entry can be served is honoured.** -/
theorem honours_waitingBehind : ∃ (queue : Queue) (run : Nat → World),
    waitingBehind.queues[0]? = some queue ∧
      run 0 = (waitingBehind.step (.act (.request "k" (swift "b") none "third"))).1 ∧
      IsFair run ∧ (waitingBehind.request 0 (swift "b") none).2 = 1 ∧
      ∃ n, Honours (waitingBehind.request 0 (swift "b") none).1 1 ["b"] (run n) := by
  have hw := reachable_waitingBehind.next
    (.act (.act (.request "k" (swift "b") none "third")) rfl)
  have hv := reachable_waitingBehind.arises
  have hc := changes_requestNamed waitingBehind 0 (swift "b") none "third"
  generalize hu : (waitingBehind.requestNamed 0 (swift "b") none "third").1 = u at hc
  have hready : (runUntil 100 7 u).ready = [] := by rw [← hu]; decide
  have htimers : (runUntil 100 7 u).timers = [] := by rw [← hu]; decide
  have hlast : IsUnhindered (waitingBehind.request 0 (swift "b") none).1 1 ["b"]
      (runUntil 100 7 u) := by
    have hverdicts : (runUntil 100 7 u).verdicts =
        [.resolved 0 (.exited 0), .resolved 1 (.exited 0)] := by rw [← hu]; decide
    refine ⟨fun token h => ?_, by rw [← hu]; decide, not_panickedFor ?_, by rw [← hu]; decide⟩
    · rw [isCancelled_of_open (w := runUntil 100 7 u) (by rw [← hu]; decide)] at h
      exact Bool.noConfusion h
    · simp [hverdicts]
  refine ⟨_, fun n => runUntil 100 n u, rfl, hu.symm, isFair_runUntil hready htimers, by decide, ?_⟩
  refine (isFair_runUntil hready htimers).honours (hu ▸ hw) hv rfl hc (fun entry _ => ?_)
    (hlast.of_last hready htimers (hv.change (.deed (.requested _ _ _))) hc)
  exact isCancelled_of_open (by decide) entry.token

/-- **A request that is absorbed by a cancelled entry is not honoured**, though it has no token
itself and nothing hinders it: nothing is started for it, and its handle gets the outcome of the
cancelled entry. -/
theorem not_honours_of_cancelled : ∃ (w : World) (queue : Queue) (run : Nat → World),
    Reachable w ∧ w.manager.isDisposed = false ∧ w.queues[0]? = some queue ∧
      run 0 = (w.step (.act (.request "k" (swift "b") none "third"))).1 ∧ IsFair run ∧
      (w.request 0 (swift "b") none).2 = 1 ∧
      (∀ n, IsUnhindered (w.request 0 (swift "b") none).1 1 ["b"] (run n)) ∧
      (∃ n, ((run n).entryOf? 1).bind Entry.outcome = some .cancelled ∧
        (run n).backend.records.map Record.args = [["a"]]) ∧
      ∀ n, ¬ Honours (w.request 0 (swift "b") none).1 1 ["b"] (run n) := by
  have hbefore : Reachable (waitingBehind.after [.act (.cancel "t")]) :=
    reachable_waitingBehind.after (by simp [Step.isInstant])
  have hw := hbefore.next (.act (.act (.request "k" (swift "b") none "third")) rfl)
  have hv := hbefore.arises
  have hc := changes_requestNamed (waitingBehind.after [.act (.cancel "t")]) 0 (swift "b") none
    "third"
  generalize hu : ((waitingBehind.after [.act (.cancel "t")]).requestNamed 0 (swift "b") none
    "third").1 = u at hc
  have hready : (runUntil 100 7 u).ready = [] := by rw [← hu]; decide
  have htimers : (runUntil 100 7 u).timers = [] := by rw [← hu]; decide
  have hf := isFair_runUntil hready htimers
  have hlast : IsUnhindered ((waitingBehind.after [.act (.cancel "t")]).request 0 (swift "b")
      none).1 1 ["b"] (runUntil 100 7 u) := by
    have hverdicts : (runUntil 100 7 u).verdicts =
        [.resolved 0 (.exited 0), .resolved 1 .cancelled] := by rw [← hu]; decide
    refine ⟨fun token h => ?_, by rw [← hu]; decide, not_panickedFor ?_, by rw [← hu]; decide⟩
    · rwa [isCancelled_of_tokens (v := ((waitingBehind.after [.act (.cancel "t")]).request 0
        (swift "b") none).1) (by rw [← hu]; decide)] at h
    · simp [hverdicts]
  have hcancelled : ((runUntil 100 7 u).entryOf? 1).bind Entry.outcome = some .cancelled := by
    rw [← hu]
    decide
  refine ⟨_, _, fun n => runUntil 100 n u, hbefore, by decide, rfl, hu.symm, hf, by decide,
    hlast.of_last hready htimers (hv.change (.deed (.requested _ _ _))) hc,
    ⟨7, hcancelled, by rw [← hu]; decide⟩, ?_⟩
  rintro n ⟨id, c, code, r, t, t', -, -, -, -, -, -, -, hexit⟩
  have heq := hf.outcome_unique (hu ▸ hw) hcancelled hexit
  cases code <;> exact absurd heq (by simp [Outcome.ofCode])

end Honouring

end World

end FolderTasks.Dispatch
