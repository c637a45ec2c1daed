import FolderTasks.Proofs.Dispatch.ReporterCalls
/-!
# What is cleaned up when an outcome gets known

By the time the outcome of an entry gets known, the executions that were started for it have ended
and are not counted any more, and the end was reported if the start was: except for what a callback
that panics cuts off.

## Main definitions

* `World.IsEnded`: an execution is over in the books of the backend.
* `World.IsCleanedUp`: nothing is left of what was begun for an entry.

## Main statements

* `World.Reachable.isReported`: what is reported of an entry are the calls for its operation.
* `World.Reachable.cleansUp`: everything is cleaned up when an outcome gets known.

## Design notes

An observer of the start that panics takes the execution with it: the backend is never told to end
it.  An observer of either kind that panics takes the call with it that ends the status.  Both are
conditions of the statement, each of the part that needs it.
-/

namespace FolderTasks.Dispatch.World

/-- **An execution is over in the books of the backend**: it has the one record of its task, which
has an end, and it is none of those that count as running. -/
structure IsEnded (w : World) (id : TaskId) : Prop where
  record : ∃ r, w.backend.recordsOf id = [r] ∧ r.endedAt.isSome
  counted : w.backend.IsCounted
  uncounted : ∀ r ∈ w.backend.unended, r.id ≠ id

/-- **Nothing is left of what was begun for an entry.** -/
structure IsCleanedUp (w : World) (e : EntryId) : Prop where
  /-- What was started for it has ended, unless an observer panicked when it was told of the
  start. -/
  ended : ∀ {id : TaskId} {c : Command}, w.Serves id e → .started id c ∈ w.annals id →
    .observerPanicked .start id ∉ w.verdicts →
      (∃ code, .ended id c code ∈ w.annals id) ∧ w.IsEnded id
  /-- The end was reported if the start was, unless a callback panicked. -/
  reported : ¬ w.PanickedFor e → ∀ label, (e, .start label) ∈ w.reported →
    (e, .finish label) ∈ w.reported

/-- What is reported of an entry are the calls for its operation. -/
def IsReported (w : World) : Prop :=
  ∀ p ∈ w.reported, ∃ entry queueName o, w.entryOf? p.1 = some entry ∧
    p.2 ∈ entry.operation.startCalls queueName ++ entry.operation.endCalls o

section CleaningUp

variable {w w' : World} {j : JobId} {e : EntryId} {id : TaskId} {c : Command} {o : Outcome}
variable {t : Nat} {older : List (Nat × Happening)}

/-! ## Executions -/

/-- **What counts as running is what has no end**, whatever panics. -/
theorem Arises.isCounted (hw : Arises w) : w.backend.IsCounted := by
  refine hw.induction (P := fun w => w.backend.IsCounted) (fun s => rfl) fun {w w'} hw ih hc => ?_
  have hkept {b : Scripted} (hrecords : w'.account.records = b.records)
      (hrunning : w'.account.running = b.running) (hb : b.IsCounted) : w'.backend.IsCounted := by
    change w'.backend.records = b.records at hrecords
    change w'.backend.running = b.running at hrunning
    rw [Scripted.IsCounted, hrunning, hb, Scripted.unended, Scripted.unended, hrecords]
  cases hw.stage hc with
  | quiet h => exact hkept (b := w.backend) (by rw [h.account]; rfl) (by rw [h.account]; rfl) ih
  | dropped h ha | numbered h ha | asked h ha =>
    exact hkept (b := w.backend) (by rw [ha]; rfl) (by rw [ha]; rfl) ih
  | started h ha hb => exact hkept (by rw [ha]; rfl) (by rw [ha]; rfl) (ih.start hb)
  | ended h ha => exact hkept (by rw [ha]; rfl) (by rw [ha]; rfl) (ih.finish _ _ _)

/-- The job of an entry is over when the outcome is known. -/
theorem Arises.done_of_resolved (hw : Arises w) (h : .resolved e o ∈ w.verdicts)
    {p : Position} (hat : w.At j (.operation e) p) : p = .done := by
  obtain ⟨given, hrunner⟩ := hat.runner
  have hdone := (hw.isOrderly.live hrunner).2
    (hw.isOrderly.resolvedGone _ (resolved_mem_verdicts.1 h))
  simpa using hdone

/-- A story that is over and tells of a start tells of an end too. -/
theorem Tells.isEnded {c' : Command} {ch : Chapter} (ht : w.Tells id c' ch) (hover : ch.isOver)
    (hc : w.backend.IsCounted) (hstarted : .started id c ∈ w.annals id) :
    (∃ code, .ended id c code ∈ w.annals id) ∧ w.IsEnded id := by
  have hbooks {terminated : Bool} (hfiled : w.filed id = [(true, terminated)]) : w.IsEnded id := by
    obtain ⟨r, hr, hstate⟩ := List.map_eq_singleton_iff.1 hfiled
    have hend : r.endedAt.isSome := (Prod.mk.inj hstate).1
    refine ⟨⟨r, hr, hend⟩, hc, ?_⟩
    rintro r' hr' rfl
    rw [Scripted.unended, List.mem_filter] at hr'
    have hmem : r' ∈ w.backend.recordsOf r'.id := List.mem_filter.2 ⟨hr'.1, by simp⟩
    rw [hr, List.mem_singleton] at hmem
    rw [hmem, Option.isNone_iff_eq_none] at hr'
    exact Option.isSome_iff_ne_none.1 hend hr'.2
  rw [ht.annals] at hstarted ⊢
  cases ch with
  | lined | asked | begun => exact Bool.noConfusion hover
  | skipped | refused => exact absurd hstarted (by simp [Chapter.facts])
  | completed code =>
    obtain rfl : c = c' := by simpa [Chapter.facts] using hstarted
    exact ⟨⟨code, by simp [Chapter.facts]⟩, hbooks ht.filed⟩
  | terminated =>
    obtain rfl : c = c' := by simpa [Chapter.facts] using hstarted
    exact ⟨⟨none, by simp [Chapter.facts]⟩, hbooks ht.filed⟩

/-- **What was started for an entry has ended when its outcome is known**, unless an observer
panicked when it was told of the start. -/
theorem Arises.isEnded (hw : Arises w) (h : .resolved e o ∈ w.verdicts)
    (hserves : w.Serves id e) (hstarted : .started id c ∈ w.annals id)
    (hcalm : .observerPanicked .start id ∉ w.verdicts) :
    (∃ code, .ended id c code ∈ w.annals id) ∧ w.IsEnded id := by
  obtain ⟨j, p, hid, hat⟩ := hserves
  obtain rfl := hw.done_of_resolved h hat
  obtain ⟨entry, he⟩ := hat.exists_entry hw.isOrderly
  obtain ⟨ch, htells, hfits⟩ := hw.isChronicled.told hid (hat.servesAt he)
  rcases hfits.position with hch | ⟨-, hover | hcut⟩
  · exact absurd hch (by simp [Position.chapter?])
  · exact htells.isEnded hover hw.isCounted hstarted
  -- The job of an entry is never given up, so nothing else can have cut the story off.
  · rcases hcut with ⟨t, hpanic⟩ | ⟨job, hjob, hgiven⟩
    · exact absurd (mem_verdicts.2 ⟨rfl, t, hpanic⟩) hcalm
    · have hnamed : job.errand.isNamed :=
        hw.isOrderly.abandoned job.runner (List.mem_map_of_mem (List.mem_of_getElem? hjob)) hgiven
      obtain ⟨given, hj⟩ := hat
      obtain rfl := Option.some.inj (hj.symm.trans hjob)
      exact absurd hnamed (by simp [Errand.isNamed])

/-! ## Reports -/

theorem IsReported.forth (h : IsReported w) (hw : Arises w) (hc : Changes w w')
    {made : List (EntryId × StatusCall)} (hreported : w'.reported = w.reported ++ made)
    (hmade : ∀ p ∈ made, ∃ entry queueName o, w.entryOf? p.1 = some entry ∧
      p.2 ∈ entry.operation.startCalls queueName ++ entry.operation.endCalls o) :
    IsReported w' := by
  intro p hp
  have hbefore : ∃ entry queueName o, w.entryOf? p.1 = some entry ∧
      p.2 ∈ entry.operation.startCalls queueName ++ entry.operation.endCalls o := by
    rw [hreported, List.mem_append] at hp
    rcases hp with hp | hp
    · exact h p hp
    · exact hmade p hp
  obtain ⟨entry, queueName, o, he, hstatus⟩ := hbefore
  obtain ⟨entry', he', horder⟩ := (hw.lasts_changes hc).entryOf? he
  have hoperation : entry'.operation = entry.operation := (Prod.mk.inj horder).1
  exact ⟨entry', queueName, o, he', hoperation ▸ hstatus⟩

theorem IsReported.silent (h : IsReported w) (hw : Arises w) (hc : Changes w w')
    (hreported : w'.reported = w.reported) : IsReported w' :=
  h.forth hw hc (hreported.trans (List.append_nil _).symm) (by simp)

theorem mem_opening {p : Position} {entry : Entry} {status : StatusCall}
    (h : status ∈ w.opening p entry) :
    status ∈ entry.operation.startCalls (w.queueName entry.queue) := by
  rw [opening] at h
  split at h
  · exact h
  · exact absurd h List.not_mem_nil

theorem IsReported.reports (h : IsReported w) (hw : Arises w) (hc : Changes w w')
    (hr : Reports w j w') : IsReported w' := by
  have hmade {e : EntryId} {entry : Entry} {p : Position} {made : List StatusCall} (o : Outcome)
      (he : w.entryOf? e = some entry)
      (hmade : made ⊆ w.opening p entry ++ entry.operation.endCalls o) :
      ∀ q ∈ made.map (e, ·), ∃ entry queueName o, w.entryOf? q.1 = some entry ∧
        q.2 ∈ entry.operation.startCalls queueName ++ entry.operation.endCalls o := by
    intro q hq
    obtain ⟨status, hstatus, rfl⟩ := List.mem_map.1 hq
    refine ⟨entry, w.queueName entry.queue, o, he, ?_⟩
    exact List.mem_append.2 ((List.mem_append.1 (hmade hstatus)).imp_left mem_opening)
  cases hr with
  | nothing hidle hs => exact h.silent hw hc hs.reported
  | opened hat he hreported =>
    exact h.forth hw hc hreported (hmade .terminated he (List.subset_append_left _ _))
  | panicked hat he hbroken hreported =>
    obtain ⟨o, hbegins⟩ := hbroken.isPrefix
    exact h.forth hw hc hreported (hmade o he hbegins.subset)
  | concluded hat he hreported =>
    exact h.forth hw hc hreported (hmade _ he (List.Subset.refl _))

/-- **What is reported of an entry are the calls for its operation**, between any two turns. -/
theorem Reachable.isReported (hw : Reachable w) : IsReported w := by
  induction hw with
  | new s =>
    intro p hp
    exact absurd hp List.not_mem_nil
  | next hw t ih =>
    rcases t.sorts with hm | ⟨j, hj, rfl⟩
    · exact ih.silent hw.arises t.changes (hm.toLasts.reported_eq (by simp))
    · have htaken := (Drift.turnTaken j hj).changes
      have harises := hw.arises.changes htaken
      exact (ih.silent hw.arises htaken rfl).reports harises (turn_works _ j).changes
        (harises.reports j)

/-- A status that was started is one to end. -/
theorem mem_endCalls {op : Operation} {queueName label : String} {o : Outcome}
    (h : .start label ∈ op.startCalls queueName ++ op.endCalls o) (o' : Outcome) :
    .finish label ∈ op.endCalls o' := by
  unfold Operation.startCalls Operation.endCalls at *
  split_ifs at h ⊢ <;> simp_all

/-- The panics for an entry are those of the time when its outcome got known, if that was the last
thing that happened. -/
theorem PanickedFor.back {v : World} (h : w.PanickedFor e) (hv : Arises v) (hc : Changes v w)
    (hhistory : v.history = w.history) : v.PanickedFor e := by
  obtain ⟨x, hx, hpanic⟩ := h
  refine ⟨x, ?_, ?_⟩
  · rwa [verdicts, seen, hhistory]
  · rcases hpanic with hreporter | ⟨kind, id, rfl, hserves⟩
    · exact .inl hreporter
    · obtain ⟨j, p, hid, hat⟩ := hserves
      have hid' : (id, j) ∈ v.account.numbered := by
        rw [account, seen, hhistory]
        exact hid
      exact .inr ⟨kind, id, rfl, hv.serves_back hc hid' ⟨j, p, hid, hat⟩⟩

/-- A turn makes no outcome known, or the one of an entry for which a callback panicked, or whose
end was reported if the start was. -/
theorem Reports.finish (hr : Reports w j w') (hreported : IsReported w') (hw : Arises w)
    (hc : Changes w w') : w'.seen Happening.resolved? = w.seen Happening.resolved? ∨
      ∃ e o, w.Resolves w' e o ∧ (w'.PanickedFor e ∨
        ∀ label, (e, .start label) ∈ w'.reported → (e, .finish label) ∈ w'.reported) := by
  cases hr with
  | nothing hidle h => exact .inl h.resolved
  | opened hat he h ho => exact .inl ho
  | panicked hat he hmade h hpanic hv ho =>
    exact .inr ⟨_, _, ho, .inl ⟨_, hv ▸ List.mem_append_right _ List.mem_cons_self, hpanic⟩⟩
  | @concluded e entry p o hat he h hv ho =>
    refine .inr ⟨e, o, ho, .inr ?_⟩
    intro label hstart
    -- The calls of the reporter for the entry are those for its one operation.
    obtain ⟨entry', queueName, o', he', hstatus⟩ := hreported _ hstart
    obtain ⟨entry'', he'', horder⟩ := (hw.lasts_changes hc).entryOf? he
    obtain rfl := Option.some.inj (he'.symm.trans he'')
    have hoperation : entry'.operation = entry.operation := (Prod.mk.inj horder).1
    rw [h, List.mem_append]
    refine .inr (List.mem_map_of_mem (List.mem_append_right _ ?_))
    exact mem_endCalls (hoperation ▸ hstatus) o

/-- Everything is cleaned up when an outcome has got known last, if the end was reported in time. -/
theorem Arises.exists_isCleanedUp (hw : Arises w)
    (hlast : w.history = (t, .resolved e o) :: older) (hfinish : w.PanickedFor e ∨
      ∀ label, (e, .start label) ∈ w.reported → (e, .finish label) ∈ w.reported) :
    ∃ v, Arises v ∧ Changes v w ∧ v.history = (t, .resolved e o) :: older ∧ v.IsCleanedUp e := by
  obtain ⟨v, hv, hchanges, hhistory⟩ := hw.exists_resolving (hlast.trans (List.nil_append _).symm)
  have hsame : v.history = w.history := hhistory.trans hlast.symm
  have hreported : v.reported = w.reported := by rw [reported, reported, seen, seen, hsame]
  have hresolved : .resolved e o ∈ v.verdicts := mem_verdicts.2 ⟨rfl, t, by simp [hhistory]⟩
  refine ⟨v, hv, hchanges, hhistory, hv.isEnded hresolved, ?_⟩
  intro hn
  rw [hreported]
  exact hfinish.resolve_left fun hpanic => hn (hpanic.back hv hchanges hsame)

/-- **Everything is cleaned up when an outcome gets known.**  Of every outcome that is known in a
reachable world: in the world in which it had just got known, the executions that were started for
the entry had ended, were not counted any more, and the end was reported if the start was; but for
an execution whose start an observer was told of and panicked, and for the report if any callback
panicked for the entry. -/
theorem Reachable.cleansUp (hw : Reachable w) {newer : List (Nat × Happening)}
    (hsplit : w.history = newer ++ (t, .resolved e o) :: older) :
    ∃ v, Arises v ∧ Changes v w ∧ v.history = (t, .resolved e o) :: older ∧ v.IsCleanedUp e := by
  induction hw generalizing newer with
  | new s => exact absurd hsplit (by simp [Setting.world])
  | @next w w' hw step ih =>
    have hold {newer : List (Nat × Happening)}
        (hsplit : w.history = newer ++ (t, .resolved e o) :: older) : ∃ v, Arises v ∧
          Changes v w' ∧ v.history = (t, .resolved e o) :: older ∧ v.IsCleanedUp e := by
      obtain ⟨v, hv, hchanges, hv'⟩ := ih hsplit
      exact ⟨v, hv, hchanges.trans step.changes, hv'⟩
    have hreported := (hw.next step).isReported
    rcases step.sorts with hm | ⟨j, hj, rfl⟩
    · have hseen := hm.seen_eq fun x hx => resolved?_eq_none hx (by simp)
      obtain ⟨newer', hsplit'⟩ := exists_split_of_suffix hm.history hseen rfl hsplit
      exact hold hsplit'
    · have harises := hw.arises.changes (Drift.turnTaken j hj).changes
      have hchanges := (turn_works { w with ready := w.ready.erase j } j).changes
      rcases (harises.reports j).finish hreported harises hchanges with
        hseen | ⟨e', o', hresolves, hfinish⟩
      · have hsuffix := (harises.lasts_changes hchanges).history
        obtain ⟨newer', hsplit'⟩ := exists_split_of_suffix hsuffix hseen rfl hsplit
        exact hold hsplit'
      · rcases hresolves.split hsplit with ⟨rfl, rfl, rfl⟩ | ⟨newer', hsplit'⟩
        · have harises' := harises.changes hchanges
          exact harises'.exists_isCleanedUp hsplit hfinish
        · exact hold hsplit'

end CleaningUp

/-! ## With and without a panic -/

/-- An operation whose status is shown is requested while some observers are there, and takes its
turn. -/
def shownBefore (hooks : List Hook) : World :=
  let shown : Operation := { command := ⟨"p", ["a"], none, .empty, none⟩, showStatus := true }
  let observed := (({} : Setting).world.step (.act (.observe "o" .start hooks))).1
  let requested := ((observed.step (.act (.makeQueue "q" "Q"))).1.step
    (.act (.request "q" shown none "x"))).1
  requested.takeTurn 0

theorem reachable_shownBefore (hooks : List Hook) : Reachable (shownBefore hooks) :=
  (Reachable.next (.next (.next (.new _) (.act _ rfl)) (.act _ rfl)) (.act _ rfl)).next
    (.turn 0 List.mem_cons_self)

/-- Its execution ends and its end is reported. -/
theorem cleansUp_shown : ∃ (w : World) (older : List (Nat × Happening)), Reachable w ∧
    w.history = (0, .resolved 0 (.exited 0)) :: older ∧ w.Serves ⟨1⟩ 0 ∧
    w.backend.records = [⟨⟨1⟩, ["a"], 0, some 0, false⟩] ∧ w.backend.running = 0 ∧
    w.reported = [(0, .start "p a"), (0, .finish "p a")] ∧
    ∃ v, Arises v ∧ Changes v w ∧ v.history = (0, .resolved 0 (.exited 0)) :: older ∧
      v.IsCleanedUp 0 := by
  have hw := reachable_shownBefore []
  exact ⟨_, _, hw, rfl, ⟨0, .done, by decide, false, rfl⟩, rfl, rfl, by decide,
    hw.cleansUp (List.nil_append _).symm⟩

/-- **If an observer panics when it is told of the start**, the execution goes on when the outcome
is known, and the end is not reported. -/
theorem not_cleansUp_of_panic : ∃ (w : World) (older : List (Nat × Happening)), Reachable w ∧
    w.history = (0, .resolved 0 .terminated) :: older ∧
    (∀ status, .reporterPanicked 0 status ∉ w.verdicts) ∧ w.Serves ⟨1⟩ 0 ∧
    .started ⟨1⟩ ⟨"p", ["a"], none, .empty, none⟩ ∈ w.annals ⟨1⟩ ∧
    w.backend.records = [⟨⟨1⟩, ["a"], 0, none, false⟩] ∧ w.backend.running = 1 ∧
    w.reported = [(0, .start "p a")] := by
  refine ⟨_, _, reachable_shownBefore [.mk none none [] true], rfl, ?_,
    ⟨0, .done, by decide, false, rfl⟩, by decide, rfl, rfl, by decide⟩
  have hverdicts : (shownBefore [.mk none none [] true]).verdicts =
      [.observerPanicked .start ⟨1⟩, .resolved 0 .terminated] := rfl
  intro status hmem
  simp [hverdicts] at hmem

end FolderTasks.Dispatch.World
