import FolderTasks.Proofs.Dispatch.JobWakeups
import FolderTasks.Proofs.Dispatch.ExecutionCleanup
import FolderTasks.Proofs.Dispatch.QueueNames
import FolderTasks.Proofs.Dispatch.HandleOutcomes
/-!
# Reports come in blocks

What the status reporter is told of a queue is a sequence of blocks, one for each entry that became
active, in the order in which they became active.  The block of an entry is complete when the entry
is finished, however its operation ended, unless a callback panicked for it.

## Main definitions

* `World.blockOf`: the calls of the reporter for an entry.
* `World.startOf`: the calls that report the start of an entry.
* `World.Closes`: what was reported of an entry that has an outcome.
* `World.ReportsInBlocks`: what is reported of a queue.

## Main statements

* `World.Arises.inOrder`: nobody is reported of after an entry that became active later.
* `World.Reachable.isVoiced`: what is reported of an entry, from its beginning to its outcome.
* `World.Reachable.reportsInBlocks`: reports come in blocks.

## Design notes

The end of an operation is reported with the outcome that its call came to.  That is also the
outcome that gets known, unless a callback panics: then the entry is terminated, whatever was
reported of it before.
-/

namespace FolderTasks.Dispatch.World

/-- **The block of an entry**: the calls of the reporter that were made for it. -/
def blockOf (w : World) (e : EntryId) : List StatusCall :=
  (w.reported.filter fun r => r.1 == e).map Prod.snd

/-- The calls of the reporter that were made for the entries of a queue. -/
def reportedOn (w : World) (q : QueueId) : List (EntryId × StatusCall) :=
  w.reported.filter fun r => w.belongs q r.1

/-- The calls that report the start of an entry. -/
def startOf (w : World) (entry : Entry) : List StatusCall :=
  entry.operation.startCalls (w.queueName entry.queue)

/-- **What was reported of an entry that has an outcome.** -/
inductive Closes (w : World) (e : EntryId) (entry : Entry) (o : Outcome) :
    List StatusCall → Prop where
  /-- All is reported, and the end with that outcome. -/
  | complete (hcalm : ¬ w.PanickedFor e) :
      Closes w e entry o (w.startOf entry ++ entry.operation.endCalls o)
  /-- A panic breaks the calls off. -/
  | broken {x : Happening} {made : List StatusCall} (ho : o = .terminated) (hx : x ∈ w.verdicts)
      (hpanic : w.IsPanicFor e x)
      (hmade : w.BrokenOff e entry.operation (w.startOf entry) x made) : Closes w e entry o made

/-- **Reports come in blocks**, one for each entry of a queue that became active. -/
structure ReportsInBlocks (w : World) (q : QueueId) (queue : Queue) : Prop where
  /-- The blocks come in the order in which the entries became active, and unmixed. -/
  concatenation : w.reportedOn q = (w.dispatchedOn q).flatMap fun e => (w.blockOf e).map (e, ·)
  /-- Of an entry that left its slot all is reported, unless a callback panicked. -/
  finished : ∀ e ∈ w.finishedOn q, ∃ entry o, w.entryOf? e = some entry ∧
    w.outcomesOf e = [o] ∧ w.Closes e entry o (w.blockOf e)
  /-- Of an active entry nothing is reported, or the start. -/
  active : ∀ e, queue.active = some e → ∃ entry, w.entryOf? e = some entry ∧
    (w.blockOf e = [] ∨ w.blockOf e = w.startOf entry)
  /-- Of an entry that waits nothing is reported. -/
  pending : ∀ e ∈ queue.pending, w.blockOf e = []
  /-- The start is reported with the name of the queue. -/
  named : ∀ {e : EntryId} {entry : Entry}, w.entryOf? e = some entry → entry.queue = q →
    w.startOf entry = entry.operation.startCalls queue.name

section Blocks

variable {w w' : World} {q : QueueId} {j : JobId} {e : EntryId} {entry entry' : Entry}
variable {p : Position} {o : Outcome} {made : List StatusCall}

/-! ## What is constant about an entry -/

/-- An entry keeps its queue and what is reported of its start. -/
theorem Arises.startOf_forth (hw : Arises w) (hc : Changes w w') (he : w.entryOf? e = some entry)
    (he' : w'.entryOf? e = some entry') :
    entry'.operation = entry.operation ∧ w'.startOf entry' = w.startOf entry := by
  obtain ⟨entry₁, he₁, horder⟩ := (hw.lasts_changes hc).entryOf? he
  obtain rfl := Option.some.inj (he₁.symm.trans he')
  have hoperation : entry₁.operation = entry.operation := (Prod.mk.inj horder).1
  have hqueue : entry₁.queue = entry.queue := by
    have hon := isOn_ledger he
    have hon' := isOn_ledger he'
    rw [Ledger.isOn, beq_iff_eq] at hon hon'
    rw [getElem?_of_isPrefix (hw.owners_isPrefix hc) hon] at hon'
    exact (Option.some.inj hon').symm
  have hlt : entry.queue < w.queues.length := by
    have hhoused := hw.isOrderly.housed entry.queue
      (List.mem_map_of_mem (f := Entry.queue) (List.mem_of_getElem? he))
    simpa [ledger] using hhoused
  rw [startOf, startOf, hoperation, hqueue, queueName_of_changes hc hlt]
  exact ⟨rfl, rfl⟩

/-! ## The order of the reports -/

/-- A change reports nothing, or of an entry whose job is not over. -/
theorem Arises.reported_change (hw : Arises w) (hc : Change w w') : w'.reported = w.reported ∨
    ∃ j p e status, w'.At j (.operation e) p ∧ p ≠ .done ∧
      w'.reported = w.reported ++ [(e, status)] := by
  have hnoted (x : Happening) (hx : x.report? = none) : (w.note x).reported = w.reported :=
    reported_note w hx
  cases hc with
  | deed hd => exact .inl (hd.mild.toLasts.reported_eq (by simp))
  | drift hd => exact .inl (hd.lasts.reported_eq (by simp))
  | stride hs => exact .inl (hs.lasts.reported_eq (by simp))
  | closing hc => exact .inl ((hc.lasts hw.isOrderly hw.isNumbered).reported_eq (by simp))
  | telling ht =>
    cases ht with
    | @reported j p e status isRecorded calls hat hp =>
      refine .inr ⟨j, p, e, status, hat, ?_, seen_note w _ _⟩
      rintro rfl
      simp at hp
    | startNoticed | endNoticed => exact .inl (hnoted _ rfl)
    | reporterPanicked | startPanicked | endPanicked | failureTold | finishTold =>
      exact .inl (hnoted _ rfl)

/-- **Nobody is reported of after an entry that became active later**, among the entries of a
queue; and only of entries that became active something is reported. -/
theorem Arises.inOrder (hw : Arises w) :
    (∀ r ∈ w.reported, r.1 ∈ w.ledger.dispatched) ∧
      w.reported.Pairwise fun r r' => ∀ q, w.ledger.isOn q r.1 → w.ledger.isOn q r'.1 →
        r.1 ≤ r'.1 := by
  refine hw.induction (P := fun w => (∀ r ∈ w.reported, r.1 ∈ w.ledger.dispatched) ∧
    w.reported.Pairwise fun r r' => ∀ q, w.ledger.isOn q r.1 → w.ledger.isOn q r'.1 →
      r.1 ≤ r'.1) (fun s => ⟨by simp [reported, seen, Setting.world], .nil⟩) ?_
  rintro w w' hw ⟨hdispatched, hpairwise⟩ hc
  have hw' := hw.change hc
  have hdispatched' : ∀ r ∈ w.reported, r.1 ∈ w'.ledger.dispatched := by
    intro r hr
    obtain ⟨fact, hmem, hfact⟩ := mem_seen.1 (hdispatched r hr)
    exact mem_seen.2 ⟨fact, (hw.lasts hc).mem_history hmem, hfact⟩
  have hpairwise' : w.reported.Pairwise fun r r' => ∀ q, w'.ledger.isOn q r.1 →
      w'.ledger.isOn q r'.1 → r.1 ≤ r'.1 := by
    -- An entry of which something was reported was there, and has kept its queue.
    have hback {r : EntryId × StatusCall} (hr : r ∈ w.reported) {q : QueueId}
        (hon : w'.ledger.isOn q r.1) : w.ledger.isOn q r.1 := by
      obtain ⟨more, hmore⟩ := (hw.stage hc).owners_isPrefix
      have hlt := hw.isOrderly.known r.1 (hdispatched r hr)
      rwa [Ledger.isOn, ← hmore, List.getElem?_append_left hlt] at hon
    refine hpairwise.imp_of_mem fun {r r'} hr hr' hle q hon hon' => ?_
    exact hle q (hback hr hon) (hback hr' hon')
  rcases hw.reported_change hc with hsame | ⟨j, p, e, status, hat, hp, hnew⟩
  · rw [hsame]
    exact ⟨hdispatched', hpairwise'⟩
  · have hmem := hat.mem_dispatched hw'.isOrderly
    obtain ⟨given, hrunner⟩ := hat.runner
    rw [beq_eq_false_iff_ne.2 hp] at hrunner
    rw [hnew]
    refine ⟨fun r hr => ?_, List.pairwise_append.2 ⟨hpairwise', List.pairwise_singleton _ _, ?_⟩⟩
    · rcases List.mem_append.1 hr with hr | hr
      · exact hdispatched' r hr
      · rw [List.mem_singleton.1 hr]
        exact hmem
    · intro r hr r' hr' q hon hon'
      rw [List.mem_singleton.1 hr'] at hon' ⊢
      obtain ⟨active, pending, hslot⟩ := hw'.isOrderly.exists_slot hon'
      obtain rfl := hw'.isOrderly.active_of_live hrunner hon' hslot
      exact hw'.isOrderly.le_of_dispatched hslot hon (hdispatched' r hr)

/-! ## The blocks of other entries -/

theorem blockOf_eq_of_reported (h : w'.reported = w.reported) : w'.blockOf e = w.blockOf e := by
  rw [blockOf, blockOf, h]

theorem blockOf_append_self (h : w'.reported = w.reported ++ made.map (e, ·)) :
    w'.blockOf e = w.blockOf e ++ made := by
  have hmade : ((made.map fun c => (e, c)).filter fun r => r.1 == e) = made.map (e, ·) := by
    simp [List.filter_eq_self]
  rw [blockOf, h, List.filter_append, List.map_append, hmade]
  simp [blockOf, Function.comp_def]

theorem blockOf_append_other {e' : EntryId} (hne : e' ≠ e)
    (h : w'.reported = w.reported ++ made.map (e', ·)) : w'.blockOf e = w.blockOf e := by
  have hmade : ((made.map fun c => (e', c)).filter fun r => r.1 == e) = [] := by
    simp [List.filter_eq_nil_iff, hne]
  rw [blockOf, h, List.filter_append, hmade, List.append_nil, ← blockOf]

/-- **What was reported of an entry**, from its beginning to its outcome. -/
structure IsVoiced (w : World) (e : EntryId) : Prop where
  silent : (∀ {j : JobId} {p : Position}, w.At j (.operation e) p → p = .fresh) → w.blockOf e = []
  begun : ∀ {j : JobId} {p : Position} {entry : Entry}, w.At j (.operation e) p → p ≠ .fresh →
    w.entryOf? e = some entry → (∀ o, .resolved e o ∉ w.verdicts) →
    w.blockOf e = w.startOf entry
  closed : ∀ {o : Outcome} {entry : Entry}, .resolved e o ∈ w.verdicts →
    w.entryOf? e = some entry → w.Closes e entry o (w.blockOf e)

/-- An entry that has an outcome is there. -/
theorem Arises.exists_entry_of_resolved (hw : Arises w) (h : .resolved e o ∈ w.verdicts) :
    ∃ entry, w.entryOf? e = some entry := by
  have hresolved := hw.isOrderly.resolvedGone _ (resolved_mem_verdicts.1 h)
  have hlt := hw.isOrderly.known e (hw.isOrderly.gone e hresolved)
  have hlength : e < w.entries.length := by simpa [ledger] using hlt
  exact ⟨w.entries[e], List.getElem?_eq_getElem hlength⟩

/-- What does not concern an entry leaves what was reported of it alone. -/
theorem IsVoiced.frame (h : w.IsVoiced e) (hw : Arises w) (hc : Changes w w')
    (hblock : w'.blockOf e = w.blockOf e)
    (hresolved : ∀ o, .resolved e o ∈ w'.verdicts → .resolved e o ∈ w.verdicts)
    (hpanic : w'.PanickedFor e → w.PanickedFor e)
    (hforth : ∀ {j : JobId} {p : Position}, w.At j (.operation e) p → w'.At j (.operation e) p)
    (hback : ∀ {j : JobId} {p : Position}, w'.At j (.operation e) p →
      w.At j (.operation e) p ∨ p = .fresh) : w'.IsVoiced e where
  silent hfresh := by
    rw [hblock]
    exact h.silent fun hat => hfresh (hforth hat)
  begun {j p entry'} hat hp he' hunresolved := by
    have hbefore := (hback hat).resolve_right hp
    obtain ⟨entry, he⟩ := hbefore.exists_entry hw.isOrderly
    rw [hblock, (hw.startOf_forth hc he he').2]
    exact h.begun hbefore hp he fun o ho => hunresolved o ((hw.lasts_changes hc).mem_verdicts ho)
  closed {o entry'} ho he' := by
    obtain ⟨entry, he⟩ := hw.exists_entry_of_resolved (hresolved o ho)
    obtain ⟨hoperation, hstart⟩ := hw.startOf_forth hc he he'
    have hover := h.closed (hresolved o ho) he
    rw [hblock]
    generalize w.blockOf e = block at hover
    cases hover with
    | complete hcalm =>
      rw [← hstart, ← hoperation]
      exact .complete fun hpanicked => hcalm (hpanic hpanicked)
    | broken ho hx hpanic hmade =>
      refine .broken ho ((hw.lasts_changes hc).mem_verdicts hx) (hpanic.forth hw hc) ?_
      rw [hstart, hoperation]
      exact hmade.forth hw hc

/-- That an outcome gets known is no panic. -/
theorem not_isPanicFor_resolved {e' : EntryId} : ¬ w.IsPanicFor e (.resolved e' o) := by
  rintro (⟨status, heq⟩ | ⟨kind, id, heq, -⟩)
  · exact absurd heq (by simp)
  · exact absurd heq (by simp)

/-- What is decided in a turn does not concern an entry that the job does not serve. -/
theorem Decides.apart (hd : Decides w w' j) (hw : Arises w) (hc : Changes w w')
    (hj : IsJudged w) (hother : ∀ {p : Position}, ¬ w.At j (.operation e) p) :
    (∀ o, .resolved e o ∈ w'.verdicts → .resolved e o ∈ w.verdicts) ∧
      (w'.PanickedFor e → w.PanickedFor e) := by
  have hn' := (hw.changes hc).isNumbered
  have hold {facts : List Happening} (hv : w'.verdicts = w.verdicts ++ facts)
      (hresolved : ∀ o, .resolved e o ∉ facts) (hpanic : ∀ x ∈ facts, ¬ w'.IsPanicFor e x) :
      (∀ o, .resolved e o ∈ w'.verdicts → .resolved e o ∈ w.verdicts) ∧
        (w'.PanickedFor e → w.PanickedFor e) := by
    rw [PanickedFor, hv]
    refine ⟨fun o ho => (List.mem_append.1 ho).resolve_right (hresolved o), ?_⟩
    rintro ⟨x, hx, hfor⟩
    have hbefore := (List.mem_append.1 hx).resolve_right fun hx => hpanic x hx hfor
    exact ⟨x, hbefore, hfor.back hw hc hj hbefore⟩
  cases hd with
  | nothing hv => exact hold (hv.trans (List.append_nil _).symm) (by simp) (by simp)
  | @brokenOff name command token p kind id hat hid hv =>
    refine hold hv (by simp) fun x hx hfor => ?_
    rw [List.mem_singleton.1 hx] at hfor
    rcases hfor with ⟨status, heq⟩ | ⟨kind', id', heq, j', p', hid', hat'⟩
    · exact absurd heq (by simp)
    · obtain ⟨-, rfl⟩ := Happening.observerPanicked.inj heq
      obtain rfl := hn'.job_unique hid hid'
      obtain ⟨p'', hat''⟩ := hw.at_forth hc hat
      exact absurd (hat''.unique hat').1 (by simp)
  | @panicked e' p x hat hp hx hv =>
    obtain ⟨p', hat'⟩ := hw.at_forth hc hat
    have hpanic := hx.isPanicFor hat'
    have hne : e ≠ e' := by
      rintro rfl
      exact hother hat
    refine hold hv (fun o ho => ?_) fun y hy hfor => ?_
    · have hmem : .resolved e o ∈ [Happening.resolved e' .terminated] := by
        cases hx with
        | reporter | observer => simpa using ho
      exact hne (Happening.resolved.inj (List.mem_singleton.1 hmem)).1
    · rcases List.mem_cons.1 hy with rfl | hy
      · exact hne (hpanic.unique hn' hfor)
      · exact not_isPanicFor_resolved (List.mem_singleton.1 hy ▸ hfor)
  | @concluded call e' p result hserves hjob hp hend ht hv =>
    have hne : e ≠ e' := by
      rintro rfl
      exact hother (hjob ▸ hserves.1)
    refine hold hv (fun o ho => ?_) fun y hy hfor => ?_
    · exact hne (Happening.resolved.inj (List.mem_singleton.1 ho)).1
    · exact not_isPanicFor_resolved (List.mem_singleton.1 hy ▸ hfor)

/-! ## The block of the entry whose job has its turn -/

/-- A job of an entry has begun when it has had a turn. -/
theorem turn_begins (hw : Arises w) (hat : w.At j (.operation e) p) {errand : Errand}
    {p' : Position} (hat' : (w.turn j).At j errand p') : p' ≠ .fresh := by
  by_cases hfresh : p = .fresh
  · subst hfresh
    obtain ⟨given, hj⟩ := hat
    unfold turn at hat'
    simp only [hj, reduceCtorEq, ↓reduceIte] at hat'
    split at hat'
    · rw [at_discard hat']
      simp
    · have hset : Arises { w with current := some j } := hw.change (.drift (.turnSet (some j)))
      have hturned {errand : Errand} {p : Position} :
          (({ w with current := some j } : World).turnJob j (.operation e)).At j errand p →
            p ≠ .fresh := by
        have hmoves := turnJob_moves (p := .fresh) hset ⟨given, hj⟩ rfl List.mem_cons_self (by simp)
        rcases hmoves with ⟨hup, -⟩ | hmoves
        · exact hup.elim
        · exact hmoves
      generalize ({ w with current := some j } : World).turnJob j (.operation e) = w₁
        at hat' hturned
      rcases discardIfAbandoned_cases w₁ j with hstays | hdropped
      · rw [hstays] at hat'
        exact hturned hat'
      · rw [hdropped hat']
        simp
  · obtain ⟨p₁, hat₁, hp₁⟩ := hw.begun_forth (turn_works w j).changes hat hfresh
    rwa [(hat'.unique hat₁).2]

/-- An entry has one job. -/
theorem At.job_eq {j' : JobId} {p' : Position} (hat : w.At j (.operation e) p) (hw : Arises w)
    (hat' : w.At j' (.operation e) p') : j' = j := by
  obtain ⟨given, hrunner⟩ := hat.runner
  obtain ⟨given', hrunner'⟩ := hat'.runner
  exact hw.isOrderly.runner_unique hrunner' hrunner rfl rfl

/-- What was reported before and what the turn opens with is the start. -/
theorem IsVoiced.opening (h : w.IsVoiced e) (hw : Arises w) (hat : w.At j (.operation e) p)
    (he : w.entryOf? e = some entry) (hunresolved : ∀ o, .resolved e o ∉ w.verdicts) :
    w.blockOf e ++ w.opening p entry = w.startOf entry := by
  by_cases hp : p = .fresh
  · rw [World.opening, if_pos hp, h.silent, List.nil_append, startOf]
    intro j' p' hat'
    obtain rfl := hat.job_eq hw hat'
    exact (hat'.unique hat).2.trans hp
  · rw [World.opening, if_neg hp, List.append_nil]
    exact h.begun hat hp he hunresolved

/-- **What a turn reports of its entry**: its start, all that there is to report, or what comes
before a panic. -/
theorem IsVoiced.reports (h : w.IsVoiced e) (hw : Arises w) (hc : Changes w w') (hj : IsJudged w)
    (hat : w.At j (.operation e) p) (hp : p ≠ .done)
    (hbegins : ∀ {errand : Errand} {p : Position}, w'.At j errand p → p ≠ .fresh)
    (hr : Reports w j w') : w'.IsVoiced e := by
  have hunresolved : ∀ o, .resolved e o ∉ w.verdicts := fun o ho =>
    hp (hw.done_of_resolved ho hat)
  have hsilent : ¬ ∀ {j : JobId} {p : Position}, w'.At j (.operation e) p → p = .fresh := by
    intro hfresh
    obtain ⟨p', hat'⟩ := hw.at_forth hc hat
    exact hbegins hat' (hfresh hat')
  -- What is added to what was decided, if anything, has the outcome in it.
  have hresolved {o' : Outcome} (hmem : .resolved e o' ∈ w'.verdicts) {facts : List Happening}
      (hv : w'.verdicts = w.verdicts ++ facts) : .resolved e o' ∈ facts :=
    (List.mem_append.1 (hv ▸ hmem)).resolve_left (hunresolved o')
  cases hr with
  | nothing hidle => exact absurd (hidle hat) hp
  | @opened e₁ entry p₁ hat₁ he hreported ho =>
    obtain ⟨heq, rfl⟩ := hat.unique hat₁
    obtain rfl := Errand.operation.inj heq
    have hblock := (blockOf_append_self hreported).trans (h.opening hw hat he hunresolved)
    have hstill : ∀ o, .resolved e o ∉ w'.verdicts := by
      intro o hmem
      rw [resolved_mem_verdicts, ho] at hmem
      exact hunresolved o (resolved_mem_verdicts.2 hmem)
    refine ⟨fun hfresh => (hsilent hfresh).elim, fun hat' hp' he' _ => ?_, fun hmem => ?_⟩
    · rw [hblock, (hw.startOf_forth hc he he').2]
    · exact absurd hmem (hstill _)
  | @panicked e₁ entry p₁ x made hat₁ he hmade hreported hpanic hv ho =>
    obtain ⟨heq, rfl⟩ := hat.unique hat₁
    obtain rfl := Errand.operation.inj heq
    refine ⟨fun hfresh => (hsilent hfresh).elim, fun hat' hp' he' hnone => ?_, ?_⟩
    · exact absurd (hv ▸ by simp) (hnone .terminated)
    · intro o entry' hmem he'
      obtain ⟨hoperation, hstart⟩ := hw.startOf_forth hc he he'
      have hterminated : o = .terminated := by
        rcases List.mem_cons.1 (hresolved hmem hv) with rfl | hmem
        · exact absurd hpanic not_isPanicFor_resolved
        · exact (Happening.resolved.inj (List.mem_singleton.1 hmem)).2
      refine .broken hterminated (x := x) (hv ▸ by simp) hpanic ?_
      rw [blockOf_append_self hreported, hstart, hoperation, ← h.opening hw hat he hunresolved]
      exact hmade.prepend
  | @concluded e₁ entry p₁ o₁ hat₁ he hreported hv ho =>
    obtain ⟨heq, rfl⟩ := hat.unique hat₁
    obtain rfl := Errand.operation.inj heq
    refine ⟨fun hfresh => (hsilent hfresh).elim, fun hat' hp' he' hnone => ?_, ?_⟩
    · exact absurd (hv ▸ by simp) (hnone o₁)
    · intro o entry' hmem he'
      obtain ⟨hoperation, hstart⟩ := hw.startOf_forth hc he he'
      obtain rfl := (Happening.resolved.inj (List.mem_singleton.1 (hresolved hmem hv))).2
      rw [blockOf_append_self hreported, ← List.append_assoc, h.opening hw hat he hunresolved,
        ← hstart, ← hoperation]
      refine .complete ?_
      rintro ⟨x, hx, hfor⟩
      rcases List.mem_append.1 (hv ▸ hx) with hx | hx
      · exact hunresolved _ (hj.terminated ⟨x, hx, hfor.back hw hc hj hx⟩)
      · exact not_isPanicFor_resolved (List.mem_singleton.1 hx ▸ hfor)

/-! ## Runs -/

/-- What is reported in the turn of another job is not the entry's. -/
theorem Reports.blockOf_eq (hr : Reports w j w')
    (hother : ∀ {p : Position}, ¬ w.At j (.operation e) p) : w'.blockOf e = w.blockOf e := by
  have hne {e' : EntryId} {p : Position} (hat : w.At j (.operation e') p) : e' ≠ e := by
    rintro rfl
    exact hother hat
  cases hr with
  | nothing hidle h => exact blockOf_eq_of_reported h.reported
  | opened hat he h | panicked hat he hmade h | concluded hat he h =>
    exact blockOf_append_other (hne hat) h

/-- Nothing happens in the turn of a job that is over. -/
theorem turn_eq_of_done (h : ∀ {errand : Errand} {p : Position}, w.At j errand p → p = .done) :
    w.turn j = w := by
  unfold turn
  split
  · rfl
  · next job hj => exact if_pos (h ⟨job.isAbandoned, hj⟩)

/-- A transition that is no turn leaves the jobs where they are, and those that it begins have not
had a turn. -/
theorem Transition.spares (t : Transition w w') :
    (Mild [.deed, .drift] w w' ∧ ∀ {i : JobId} {errand : Errand} {p : Position},
      w'.At i errand p → w.At i errand p ∨ p = .fresh) ∨ ∃ j ∈ w.ready, w' = w.takeTurn j := by
  have hspares {v : World} (h : Spares none v w') {i : JobId} {errand : Errand} {p : Position}
      (hat : w'.At i errand p) : v.At i errand p ∨ p = .fresh :=
    (h.back (by simp) hat).imp_right And.left
  rcases t.sorts with hm | hturn
  · cases t with
    | act s hs => exact .inl ⟨hm, hspares (instant_spares w hs)⟩
    | turn j hj => exact .inr ⟨j, hj, rfl⟩
    | fire t ht => exact .inl ⟨hm, hspares (spares_wakeAll _ _)⟩
    | pass moment => exact .inl ⟨hm, fun hat => .inl hat⟩
    | sit e => exact .inl ⟨hm, hspares (spares_takeSeat w e _)⟩
    | leave e entry seat => exact .inl ⟨hm, fun hat => .inl hat⟩
    | receive e o hr => exact .inl ⟨hm, hspares (spares_receive? hr)⟩
  · exact .inr hturn

/-- A turn leaves what was reported of every entry as it should be. -/
theorem IsVoiced.turn (h : w.IsVoiced e) (hw : Arises w) (hj : IsJudged w) (j : JobId) :
    (w.turn j).IsVoiced e := by
  have hchanges := (turn_works w j).changes
  by_cases hdone : ∀ {errand : Errand} {p : Position}, w.At j errand p → p = .done
  · rwa [turn_eq_of_done hdone]
  · simp only [not_forall] at hdone
    obtain ⟨errand, p, hat, hp⟩ := hdone
    by_cases hown : errand = .operation e
    · subst hown
      exact h.reports hw hchanges hj hat hp (turn_begins hw hat) (hw.reports j)
    · have hother {p : Position} : ¬ w.At j (.operation e) p := fun hat' =>
        hown (hat.unique hat').1
      have hother' {p : Position} : ¬ (w.turn j).At j (.operation e) p := by
        intro hat'
        obtain ⟨p', hat''⟩ := hw.at_forth hchanges hat
        exact hown (hat''.unique hat').1
      obtain ⟨hresolved, hpanic⟩ := (hw.turned j).decides.apart hw hchanges hj hother
      refine h.frame hw hchanges ((hw.reports j).blockOf_eq hother) hresolved hpanic ?_ ?_
      · intro i p hat
        refine (turn_spares w j).forth ?_ hat
        rintro heq
        exact hother (Option.some.inj heq ▸ hat)
      · intro i p hat
        refine ((turn_spares w j).back ?_ hat).imp_right And.left
        rintro heq
        exact hother' (Option.some.inj heq ▸ hat)

/-- **What is reported of an entry**, from its beginning to its outcome, whatever happens. -/
theorem Reachable.isVoiced (hw : Reachable w) (e : EntryId) : w.IsVoiced e := by
  induction hw with
  | new s =>
    refine ⟨fun _ => rfl, ?_, fun hmem => absurd hmem List.not_mem_nil⟩
    rintro j p entry ⟨given, hj⟩
    exact absurd hj (by simp [Setting.world])
  | @next w w' hw t ih =>
    rcases t.spares with ⟨hm, hback⟩ | ⟨j, hj, rfl⟩
    · have hverdicts := hm.verdicts_eq (by simp) (by simp)
      refine ih.frame hw.arises t.changes (blockOf_eq_of_reported (hm.reported_eq (by simp)))
        (fun o ho => hverdicts ▸ ho) ?_ hm.stays hback
      rintro ⟨x, hx, hfor⟩
      rw [hverdicts] at hx
      exact ⟨x, hx, hfor.back hw.arises t.changes hw.isJudged hx⟩
    · -- That the turn is taken concerns no entry.
      have htaken := (Drift.turnTaken j hj).changes
      have hvoiced := ih.frame hw.arises htaken rfl (fun _ h => h) (fun h => h) (fun h => h) .inl
      exact hvoiced.turn (hw.arises.changes htaken) (hw.isJudged.quiet hw.arises htaken rfl) j

/-! ## All entries of a queue -/

/-- Items that come in the order of their keys begin with all that have the least key. -/
theorem eq_filter_append_of_pairwise {α : Type} {k : Nat} {l : List (Nat × α)}
    (hl : l.Pairwise fun r r' => r.1 ≤ r'.1) (hk : ∀ r ∈ l, k ≤ r.1) :
    l = l.filter (·.1 == k) ++ l.filter (·.1 != k) := by
  induction l with
  | nil => rfl
  | cons r l ih =>
    have hrest := List.pairwise_cons.1 hl
    by_cases hr : r.1 = k
    · have ih := ih hrest.2 fun r' hr' => hk r' (List.mem_cons_of_mem _ hr')
      simpa [hr] using ih
    · have hlt : k < r.1 := Nat.lt_of_le_of_ne (hk r List.mem_cons_self) (Ne.symm hr)
      have hne : ∀ r' ∈ r :: l, r'.1 ≠ k := by
        intro r' hr'
        rcases List.mem_cons.1 hr' with rfl | hr'
        · exact hr
        · exact (Nat.lt_of_lt_of_le hlt (hrest.1 r' hr')).ne'
      rw [List.filter_eq_nil_iff.2 fun r' hr' => by simp [hne r' hr'],
        List.filter_eq_self.2 fun r' hr' => by simp [hne r' hr'], List.nil_append]

/-- Items that come in the order of their keys come in blocks, one for each key. -/
theorem eq_flatMap_filter {α : Type} {keys : List Nat} {l : List (Nat × α)}
    (hl : l.Pairwise fun r r' => r.1 ≤ r'.1) (hkeys : keys.Pairwise (· < ·))
    (hmem : ∀ r ∈ l, r.1 ∈ keys) : l = keys.flatMap fun k => l.filter (·.1 == k) := by
  -- By induction on the keys; the items of the first one stand at the front.
  induction keys generalizing l with
  | nil => exact List.eq_nil_iff_forall_not_mem.2 fun r hr => absurd (hmem r hr) List.not_mem_nil
  | cons k keys ih =>
    obtain ⟨hfirst, hkeys⟩ := List.pairwise_cons.1 hkeys
    have hleast : ∀ r ∈ l, k ≤ r.1 := by
      intro r hr
      rcases List.mem_cons.1 (hmem r hr) with heq | hr
      · exact heq.ge
      · exact (hfirst _ hr).le
    have hrest := ih (l := l.filter (·.1 != k)) (hl.filter _) hkeys fun r hr => by
      obtain ⟨hr, hne⟩ := List.mem_filter.1 hr
      exact (List.mem_cons.1 (hmem r hr)).resolve_left (bne_iff_ne.1 hne)
    have hsame : (keys.flatMap fun k' => (l.filter (·.1 != k)).filter (·.1 == k')) =
        keys.flatMap fun k' => l.filter (·.1 == k') := by
      refine List.flatMap_congr fun k' hk' => ?_
      rw [List.filter_filter]
      refine List.filter_congr fun r _ => ?_
      have hne := (hfirst k' hk').ne'
      by_cases hr : r.1 = k' <;> simp [hr, hne]
    rw [List.flatMap_cons, ← hsame, ← hrest]
    exact eq_filter_append_of_pairwise hl hleast

/-- The calls of the reporter for an entry are among those for its queue. -/
theorem blockOf_eq_reportedOn (h : w.belongs q e) :
    (w.blockOf e).map (e, ·) = (w.reportedOn q).filter fun r => r.1 == e := by
  have hsame : (w.reportedOn q).filter (fun r => r.1 == e) =
      w.reported.filter fun r => r.1 == e := by
    rw [reportedOn, List.filter_filter]
    refine List.filter_congr fun r _ => ?_
    by_cases hr : r.1 = e <;> simp [hr, h]
  rw [hsame, blockOf, List.map_map]
  refine (List.map_congr_left fun r hr => ?_).trans (List.map_id _)
  exact Prod.ext (beq_iff_eq.1 (List.mem_filter.1 hr).2).symm rfl

/-- What is reported of a queue comes in blocks, one for each entry that became active. -/
theorem Reachable.reportedOn_eq (hw : Reachable w) {queue : Queue}
    (hq : w.queues[q]? = some queue) :
    w.reportedOn q = (w.dispatchedOn q).flatMap fun e => (w.blockOf e).map (e, ·) := by
  obtain ⟨hdispatched, hpairwise⟩ := hw.arises.inOrder
  have hserves := hw.servesInOrder hq
  have hon (e : EntryId) : w.ledger.isOn q e = w.belongs q e := congrFun (isOn_eq_belongs w q) e
  have hsorted : (w.reportedOn q).Pairwise fun r r' => r.1 ≤ r'.1 := by
    refine (hpairwise.filter _).imp_of_mem fun {r r'} hr hr' hle => ?_
    have hbelongs := (List.mem_filter.1 hr).2
    have hbelongs' := (List.mem_filter.1 hr').2
    exact hle q ((hon _).trans hbelongs) ((hon _).trans hbelongs')
  have hascending : (w.dispatchedOn q).Pairwise (· < ·) := by
    refine hserves.ascending.sublist ?_
    rw [hserves.created, ← hserves.dispatched]
    exact List.sublist_append_left _ _
  have hmem : ∀ r ∈ w.reportedOn q, r.1 ∈ w.dispatchedOn q := by
    intro r hr
    obtain ⟨hr, hbelongs⟩ := List.mem_filter.1 hr
    exact List.mem_filter.2 ⟨hdispatched r hr, hbelongs⟩
  refine (eq_flatMap_filter hsorted hascending hmem).trans (List.flatMap_congr fun e he => ?_)
  exact (blockOf_eq_reportedOn (List.mem_filter.1 he).2).symm

/-- An entry that has left its slot has one outcome, and its block is closed with it. -/
theorem Reachable.closes (hw : Reachable w) (he : e ∈ w.seen Happening.vacated?) :
    ∃ entry o, w.entryOf? e = some entry ∧ w.outcomesOf e = [o] ∧
      w.Closes e entry o (w.blockOf e) := by
  obtain ⟨o, hresolved⟩ := hw.isSettled e he
  have hverdict : .resolved e o ∈ w.verdicts := resolved_mem_verdicts.2 hresolved
  obtain ⟨entry, hentry⟩ := hw.arises.exists_entry_of_resolved hverdict
  refine ⟨entry, o, hentry, ?_, (hw.isVoiced e).closed hverdict hentry⟩
  have hmem := mem_outcomesOf hresolved
  obtain ⟨o', ho'⟩ := List.length_eq_one_iff.1 (Nat.le_antisymm
    (length_outcomesOf hw.arises.isOrderly e) (List.length_pos_of_mem hmem))
  rw [ho', List.mem_singleton] at hmem
  rw [ho', hmem]

/-- Nothing is reported of an active entry but the start, if anything. -/
theorem Reachable.blockOf_active (hw : Reachable w) {queue : Queue}
    (hq : w.queues[q]? = some queue) (he : queue.active = some e) :
    ∃ entry, w.entryOf? e = some entry ∧ (w.blockOf e = [] ∨ w.blockOf e = w.startOf entry) := by
  have ho := hw.arises.isOrderly
  have hslot := slot_eq hq
  rw [he] at hslot
  obtain ⟨-, hmem, hgone⟩ := ho.active_spec hslot
  have hunresolved : ∀ o, .resolved e o ∉ w.verdicts := fun o hmem =>
    hgone (ho.resolvedGone _ (resolved_mem_verdicts.1 hmem))
  have hlt := ho.known e hmem
  have hlength : e < w.entries.length := by simpa [ledger] using hlt
  have hentry : w.entryOf? e = some w.entries[e] := List.getElem?_eq_getElem hlength
  refine ⟨w.entries[e], hentry, ?_⟩
  by_cases hfresh : ∀ {j : JobId} {p : Position}, w.At j (.operation e) p → p = .fresh
  · exact .inl ((hw.isVoiced e).silent hfresh)
  · simp only [not_forall] at hfresh
    obtain ⟨j, p, hat, hp⟩ := hfresh
    exact .inr ((hw.isVoiced e).begun hat hp hentry hunresolved)

/-- **Reports come in blocks.**  In every reachable world what the reporter was told of a queue is
a sequence of blocks, one for each entry that became active, in that order. The block of an entry
that left its slot is complete, unless a callback panicked for it: then it ends with the panic, or
before.  The block of the active entry may be incomplete, and the entries that wait have none. -/
theorem Reachable.reportsInBlocks (hw : Reachable w) {queue : Queue}
    (hq : w.queues[q]? = some queue) : w.ReportsInBlocks q queue where
  concatenation := hw.reportedOn_eq hq
  finished e he := hw.closes (List.contains_iff_mem.1 (List.mem_filter.1 he).2)
  active e he := hw.blockOf_active hq he
  pending e he := by
    refine (hw.isVoiced e).silent fun hat => ?_
    have hwaits := (hw.arises.isOrderly.pending_spec (slot_eq hq) he).2
    exact absurd (hat.mem_dispatched hw.arises.isOrderly) hwaits
  named {e entry} he hqueue := by
    rw [startOf, hqueue, queueName, hq]

end Blocks

/-! ## With and without a panic -/

/-- Four operations that are shown and logged are requested, and the reporter panics when it is told
of a second end. -/
def narratedBefore : World :=
  let op (a : String) : Operation :=
    { command := ⟨"p", [a], none, .empty, none⟩, showStatus := true, logLifecycle := true }
  let asked (w : World) (a : String) : World := (w.step (.act (.request "q" (op a) none a))).1
  let s : Setting := { hooks := [.mk (some .logEnd) (some 2) [] true] }
  asked (asked (asked (asked (s.world.step (.act (.makeQueue "q" "Q"))).1 "a") "b") "c") "d"

theorem reachable_narratedBefore : Reachable narratedBefore :=
  .next (.next (.next (.next (.next (.new _) (.act _ rfl)) (.act _ rfl)) (.act _ rfl))
    (.act _ rfl)) (.act _ rfl)

/-- Two of them have had their turns. -/
def narrated : World := (narratedBefore.takeTurn 0).takeTurn 1

/-- The block of the first operation is complete, that of the second ends with the panic, and the
others have none yet. -/
theorem reportsInBlocks_narrated : ∃ queue : Queue, Reachable narrated ∧
    narrated.queues[0]? = some queue ∧ narrated.finishedOn 0 = [0, 1] ∧ queue.active = some 2 ∧
    queue.pending = [3] ∧ narrated.blockOf 0 = [.start "p a", .logStart "p a..." "Q",
      .logEnd "p a... done.", .finish "p a"] ∧
    narrated.blockOf 1 = [.start "p b", .logStart "p b..." "Q", .logEnd "p b... done."] ∧
    narrated.outcomesOf 1 = [.terminated] ∧ narrated.blockOf 2 = [] ∧
    narrated.ReportsInBlocks 0 queue := by
  have hw : Reachable narrated :=
    (reachable_narratedBefore.next (.turn 0 (by decide))).next (.turn 1 (by decide))
  exact ⟨_, hw, rfl, rfl, rfl, rfl, by decide +kernel, by decide +kernel, rfl, rfl,
    hw.reportsInBlocks rfl⟩

end FolderTasks.Dispatch.World
