import FolderTasks.Proofs.Dispatch.ReopenerWakeups
/-!
# No queue stays withheld

A queue that is withheld for a reset is looked after: by the job that asked for the reset, or, when
that one was given up, by a job of its own.  Whoever looks after a queue opens it again before it is
over, so a queue that nobody looks after is not withheld; and when nothing can go on any more, nobody
looks after a reset but those who wait for one that is still outstanding.

Which way the reset ends does not matter, nor whether its outcome was there when the job was given
up, nor whether the folder is still there.

## Main definitions

* `World.Minds`: a job looks after the reset that an entry serves.
* `World.IsMinded`: for every queue that was last asked for, somebody looks after the reset.

## Main statements

* `World.Arises.isMinded`: somebody always does.
* `World.Reachable.not_isWithheld`: in the end no queue is withheld.
-/

namespace FolderTasks.Dispatch

/-- Is an errand the reset of a package? -/
def Errand.isReset : Errand → Bool
  | .reset _ _ _ => true
  | .operation _ | .execution _ _ _ | .watch _ _ | .reopen _ _ => false

namespace World

/-- **A job looks after the reset that an entry serves**, and is not over. -/
def Minds (w : World) (j : JobId) (e : EntryId) : Prop :=
  ∃ errand p q?, w.At j errand p ∧ p ≠ .done ∧ errand.ward? p = some (q?, e)

/-- **What was asked for last is looked after**: when the last sign of a queue is that of a reset
asked for, some job looks after that reset. -/
def IsMinded (w : World) : Prop :=
  ∀ q e, w.resetBook.signs.find? (fun s => s.queue == q) = some ⟨q, e, true⟩ → ∃ j, w.Minds j e

section Minding

variable {w w' : World} {i j : JobId} {e : EntryId} {errand : Errand} {p : Position}

/-! ## Who goes on looking after a reset -/

theorem Minds.of_jobs (h : w.Minds j e) (hjobs : w.jobs <+: w'.jobs) : w'.Minds j e := by
  obtain ⟨errand, p, q?, hat, hp, hward⟩ := h
  exact ⟨errand, p, q?, hat.of_jobs hjobs, hp, hward⟩

theorem Minds.mild {O : List Origin} (h : w.Minds j e) (hm : Mild O w w') : w'.Minds j e := by
  obtain ⟨errand, p, q?, hat, hp, hward⟩ := h
  exact ⟨errand, p, q?, hm.stays hat, hp, hward⟩

/-- Another job moves. -/
theorem Minds.setPosition (h : w.Minds i e) (hij : i ≠ j) (p' : Position) :
    (w.setPosition j p').Minds i e := by
  obtain ⟨errand, p, q?, hat, hp, hward⟩ := h
  exact ⟨errand, p, q?, (spares_setPosition w j p').forth (by simpa using hij) hat, hp, hward⟩

/-- A job that looks after nothing is another one. -/
theorem Minds.ne (h : w.Minds i e) (hat : w.At j errand p) (hward : errand.ward? p = none) :
    i ≠ j := by
  rintro rfl
  obtain ⟨errand', p', q?, hat', -, hward'⟩ := h
  obtain ⟨rfl, rfl⟩ := hat.unique hat'
  rw [hward] at hward'
  exact absurd hward' (by simp)

/-- A job looks after one reset at most. -/
theorem Minds.eq (h : w.Minds j e) (hat : w.At j errand p) {q? : Option QueueId} {e' : EntryId}
    (hward : errand.ward? p = some (q?, e')) : e = e' := by
  obtain ⟨errand', p', q', hat', -, hward'⟩ := h
  obtain ⟨rfl, rfl⟩ := hat.unique hat'
  rw [hward] at hward'
  exact (Prod.mk.inj (Option.some.inj hward')).2.symm

theorem IsMinded.kept (h : w.IsMinded) (hsigns : w'.resetBook.signs = w.resetBook.signs)
    (hforth : ∀ {j e}, w.Minds j e → ∃ j', w'.Minds j' e) : w'.IsMinded := by
  intro q e hlast
  rw [hsigns] at hlast
  obtain ⟨j, hj⟩ := h q e hlast
  exact hforth hj

/-- A job that looks after nothing is over. -/
theorem IsMinded.endJob (h : w.IsMinded) (hat : w.At j errand p)
    (hward : errand.ward? p = none) : (w.endJob j).IsMinded :=
  h.kept (steady_endJob w j).signs fun hm => ⟨_, hm.setPosition (hm.ne hat hward) .done⟩

theorem IsMinded.of_eq (h : w.IsMinded) (hbook : w'.resetBook = w.resetBook)
    (hjobs : w'.jobs = w.jobs) : w'.IsMinded :=
  h.kept (by rw [hbook]) fun hm => ⟨_, hm.of_jobs (hjobs ▸ List.prefix_rfl)⟩

/-! ## Signs -/

/-- **A queue is opened again** by a job that looks after it, and is over then. -/
theorem IsMinded.over (h : w.IsMinded) (hf : w.resetBook.IsFaithful) (hat : w.At j errand p)
    {q? : Option QueueId} (hward : errand.ward? p = some (q?, e)) {entry : Entry}
    (he : w.entryOf? e = some entry)
    (hsigns : w'.resetBook.signs = ⟨entry.queue, e, false⟩ :: w.resetBook.signs)
    (hjobs : w'.jobs = w.jobs) : (w'.endJob j).IsMinded := by
  intro q e' hlast
  rw [(steady_endJob w' j).signs, hsigns, List.find?_cons] at hlast
  split at hlast
  · exact absurd (congrArg ResetSign.isAsked (Option.some.inj hlast)) (by simp)
  · next hq =>
    obtain ⟨i, hi⟩ := h q e' hlast
    have hij : i ≠ j := by
      rintro rfl
      obtain rfl := hi.eq hat hward
      -- The reset that the job looks after is one of the queue that is opened.
      have howner := (hf.asked _ (List.mem_of_find?_eq_some hlast)).2
      rw [entryOf?] at he
      rw [resetBook, List.getElem?_map, he] at howner
      exact absurd (Option.some.inj howner) (by simpa using hq)
    exact ⟨i, (hi.of_jobs (hjobs ▸ List.prefix_rfl)).setPosition hij .done⟩

theorem signs_reopen (w : World) (q : QueueId) (e : EntryId) :
    (w.reopen q e).resetBook.signs = ⟨q, e, false⟩ :: w.resetBook.signs := by
  rw [reopen, resetBook_sign _ (s := ⟨q, e, false⟩) rfl rfl, resetBook_withhold]
  rfl

/-- A job asks for a reset and looks after it. -/
theorem IsMinded.askReset (h : w.IsMinded) {name : String} {folder : Path} {token : Option String}
    (hat : w.At j (.reset name folder token) .fresh) (q : QueueId) (folder' : Path)
    (token' : Option String) : (w.askReset j q folder' token').IsMinded := by
  have hsteady := steady_request (w.withhold q true) q
    (PackageAction.reset.operation w.toolchain folder') token'
  have hjobs := request_jobs (w.withhold q true) q
    (PackageAction.reset.operation w.toolchain folder') token'
  unfold World.askReset
  dsimp only
  generalize (w.withhold q true).request q _ token' = r at hsteady hjobs ⊢
  have hsigns : (r.1.note (.resetAsked q r.2)).resetBook.signs =
      ⟨q, r.2, true⟩ :: w.resetBook.signs := by
    rw [resetBook_sign r.1 (s := ⟨q, r.2, true⟩) rfl rfl, ResetBook.sign, hsteady.signs,
      resetBook_withhold]
    rfl
  have hnoted : (r.1.note (.resetAsked q r.2)).At j (.reset name folder token) .fresh :=
    At.of_jobs hjobs hat
  have hseated := hnoted.takeSeat r.2 (.job j)
  generalize hw₁ : (r.1.note (.resetAsked q r.2)).takeSeat r.2 (.job j) = r₁ at hseated ⊢
  have hsigns₁ : (r₁.1.setPosition j (.awaiting r.2 r₁.2)).resetBook.signs =
      ⟨q, r.2, true⟩ :: w.resetBook.signs := by
    rw [← hsigns, ← resetBook_takeSeat (r.1.note (.resetAsked q r.2)) r.2 (.job j), hw₁]
    rfl
  intro q' e hlast
  rw [hsigns₁, List.find?_cons] at hlast
  split at hlast
  · obtain ⟨-, rfl, -⟩ := ResetSign.mk.inj (Option.some.inj hlast)
    exact ⟨j, _, _, none, hseated.setPosition _, by simp, rfl⟩
  · obtain ⟨i, hi⟩ := h q' e hlast
    have hseats : r₁.1.jobs = r.1.jobs := hw₁ ▸ jobs_takeSeat ..
    refine ⟨i, (hi.of_jobs ?_).setPosition (hi.ne hat rfl) _⟩
    rw [hseats]
    exact hjobs

/-- A job takes a seat, and looks after what it looked after. -/
theorem IsMinded.sit (h : w.IsMinded) (hat : w.At j errand p) {e : EntryId}
    (he : (∃ handle, errand = .watch handle e) ∨ ∃ q, errand = .reopen q e) :
    ((w.takeSeat e (.job j)).1.setPosition j
      (.awaiting e (w.takeSeat e (.job j)).2)).IsMinded := by
  have hseated := hat.takeSeat e (.job j)
  have hbook := resetBook_takeSeat w e (.job j)
  have hjobs := jobs_takeSeat w e (.job j)
  generalize (w.takeSeat e (.job j)) = r at hseated hbook hjobs ⊢
  refine h.kept (by rw [← hbook]; rfl) fun {i e'} hi => ⟨i, ?_⟩
  have hi₁ : r.1.Minds i e' := hi.of_jobs (hjobs ▸ List.prefix_rfl)
  by_cases hij : i = j
  · subst hij
    rcases he with ⟨handle, rfl⟩ | ⟨q, rfl⟩
    · exact absurd rfl (hi.ne hat rfl)
    · obtain rfl := hi.eq hat rfl
      exact ⟨_, _, some q, hseated.setPosition _, by simp, rfl⟩
  · exact hi₁.setPosition hij _

/-- **A reset that is given up** is still looked after, or its queue is opened. -/
theorem IsMinded.discard (h : w.IsMinded) (hf : w.resetBook.IsFaithful) {job : Job}
    (hj : w.jobs[j]? = some job) (hnamed : job.errand.isNamed) : (w.discard j job).IsMinded := by
  have hat : w.At j job.errand job.position := ⟨job.isAbandoned, hj⟩
  unfold World.discard
  split
  · next name command token herrand =>
    refine IsMinded.endJob (p := job.position) (h.of_eq (resetBook_dropExecution w _) ?_)
      (hat.dropExecution _) (by rw [herrand]; rfl)
    obtain ⟨tokens, timers, ready, guard, heq⟩ := dropExecution_eq w ⟨j, command, token⟩
    rw [heq]
  · next name folder token e seat herrand hposition =>
    rw [herrand, hposition] at hat
    obtain ⟨entry, he, -⟩ := hat.exists_ward hf rfl
    simp only [discardReset, he]
    split
    · refine h.over hf hat rfl he ?_ rfl
      rw [signs_reopen, resetBook_leaveSeat]
    · have hspawned : (w.leaveSeat e seat).jobs <+:
          ((w.leaveSeat e seat).spawn (.reopen entry.queue e)).1.jobs := List.prefix_append _ _
      refine h.kept ?_ fun {i e'} hi => ?_
      · rw [(steady_endJob _ j).signs]
        change (w.leaveSeat e seat).resetBook.signs = _
        rw [resetBook_leaveSeat]
      · have hi₁ : (w.leaveSeat e seat).Minds i e' := hi.of_jobs List.prefix_rfl
        by_cases hij : i = j
        · -- A job of its own looks after the reset.
          subst hij
          obtain rfl := hi.eq hat rfl
          have hnew : ((w.leaveSeat e' seat).spawn (.reopen entry.queue e')).1.Minds
              w.jobs.length e' :=
            ⟨.reopen entry.queue e', .fresh, some entry.queue, ⟨false, List.getElem?_concat_length⟩,
              by simp, rfl⟩
          refine ⟨w.jobs.length, hnew.setPosition ?_ .done⟩
          obtain ⟨given, hi⟩ := hat
          exact (Nat.ne_of_lt (List.getElem?_eq_some_iff.1 hi).1).symm
        · exact ⟨i, (hi₁.of_jobs hspawned).setPosition hij .done⟩
  · next hexecution hreset =>
    refine h.endJob hat ?_
    generalize job.errand = errand at hnamed hexecution hreset ⊢
    cases errand with
    | execution name command token => exact absurd rfl (hexecution name command token)
    | reset name folder token =>
      cases hposition : job.position with
      | awaiting e seat => exact absurd hposition (hreset name folder token e seat rfl)
      | _ => rfl
    | operation | watch | reopen => exact absurd hnamed (by simp [Errand.isNamed])

/-! ## Every change -/

theorem IsMinded.closing (h : w.IsMinded) (hw : Arises w) (hf : w.resetBook.IsFaithful)
    (hc : Closing w w') : w'.IsMinded := by
  have hnoted {x : Happening} (hsign : x.resetSign? = none) (hresolved : x.resolved? = none) :
      (w.note x).IsMinded :=
    h.of_eq (resetBook_note w hsign hresolved) rfl
  cases hc with
  | @closed j e p o hat =>
    have hresolved : (w.resolve e o).IsMinded :=
      h.kept (steady_resolve w e o).signs fun hm => ⟨_, hm.mild (mild_resolve w e o)⟩
    exact hresolved.endJob ((mild_resolve w _ o).stays hat) rfl
  | executionEnded result hat => exact IsMinded.endJob (hnoted rfl rfl) hat rfl
  | resetAsked q hat hq => exact h.askReset hat q _ _
  | resetRefused hat hq => exact IsMinded.endJob (hnoted rfl rfl) hat rfl
  | seatTaken e hat hp he hr => exact h.sit hat he
  | @resetConcluded w₁ j name folder token e seat entry o hat he hr =>
    refine h.over hf hat rfl he ?_ (show w₁.jobs = w.jobs from jobs_receive? hr)
    rw [concludeReset, resetBook_note _ rfl rfl, signs_reopen, resetBook_note _ rfl rfl,
      resetBook_receive? hr]
  | resetForgotten hat he =>
    obtain ⟨entry, he', -⟩ := hat.exists_ward hf rfl
    exact absurd (he.symm.trans he') (by simp)
  | @watchEnded w₁ j handle e p o hat hp hr =>
    have hreceived : w₁.IsMinded := h.of_eq (resetBook_receive? hr) (jobs_receive? hr)
    refine IsMinded.endJob (p := p) ?_ (hat.of_jobs ?_) rfl
    · split
      · exact hreceived.of_eq (resetBook_note _ rfl rfl) rfl
      · exact hreceived
    · split <;> simp [note, jobs_receive? hr]
  | @reopened w₁ j q e p o hat hp hr =>
    obtain ⟨entry, he, -, hq⟩ := hat.exists_ward hf rfl
    obtain rfl := hq q rfl
    refine h.over hf hat rfl he ?_ (show w₁.jobs = w.jobs from jobs_receive? hr)
    rw [signs_reopen, resetBook_receive? hr]
  | discarded hj ha hp =>
    exact h.discard hf hj (hw.isOrderly.abandoned _
      (List.mem_map_of_mem (f := Job.runner) (List.mem_of_getElem? hj)) ha)

theorem Change.isMinded (hc : Change w w') (hw : Arises w) (hu : w'.IsUntouched)
    (h : w.IsMinded) : w'.IsMinded := by
  cases hc with
  | deed hd => exact h.kept (hd.steady hu).signs fun hm => ⟨_, hm.mild hd.mild⟩
  | drift hd =>
    refine h.kept hd.steady.signs fun {i e} hm => ⟨i, ?_⟩
    rcases hd.mild with ⟨j, rfl⟩ | hmild
    · exact hm.of_jobs List.prefix_rfl
    · exact hm.mild hmild
  | telling ht => exact h.kept ht.steady.signs fun hm => ⟨_, hm.mild ht.mild⟩
  | stride hs =>
    refine h.kept hs.steady.signs fun {i e} hm => ⟨i, ?_⟩
    rcases hs.jobs_eq with hjobs | ⟨call, p, p', ⟨errand, hat, hcall⟩, hjobs, -⟩
    · exact hm.of_jobs (hjobs ▸ List.prefix_rfl)
    · have hward : errand.ward? p = none := by
        cases errand with
        | operation | execution => rfl
        | reset | watch | reopen => exact absurd hcall (by simp [callOf?])
      exact (hm.setPosition (hm.ne hat hward) p').of_jobs (hjobs ▸ List.prefix_rfl)
  | closing hc => exact h.closing hw (hw.isFaithful ((hw.lasts (.closing hc)).isUntouched hu)) hc

/-- **Somebody looks after every reset that was asked for last**, as long as nobody but resets
withholds queues. -/
theorem Arises.isMinded (hw : Arises w) (hu : w.IsUntouched) : w.IsMinded := by
  refine Arises.induction (P := fun w => w.IsUntouched → w.IsMinded) (fun s _ => ?_)
    (fun {w w'} hw ih hc hu => ?_) hw hu
  · exact fun q e hlast => absurd hlast (by simp [resetBook, Setting.world])
  · exact hc.isMinded hw hu (ih ((hw.lasts hc).isUntouched hu))

end Minding

/-! ## In the end -/

section Ending

variable {w : World}

/-- A queue that is withheld was last asked for. -/
theorem exists_asked_of_isWithheld (hf : w.resetBook.IsFaithful) {q : QueueId}
    (h : (w.view q).isWithheld = true) :
    ∃ e, w.resetBook.signs.find? (fun s => s.queue == q) = some ⟨q, e, true⟩ := by
  cases hq : w.queues[q]? with
  | none =>
    simp only [view, hq] at h
    exact absurd h Bool.false_ne_true
  | some queue =>
    have hflag : w.resetBook.flags[q]? = some queue.isWithheld := by
      rw [resetBook, List.getElem?_map, hq]
      rfl
    have hlast := hf.flags hflag
    simp only [view, hq] at h
    rw [h, ResetBook.lastSign?] at hlast
    -- The first sign of the queue in the list is its last one.
    generalize w.resetBook.signs = signs at hlast ⊢
    induction signs with
    | nil => exact absurd hlast (by simp)
    | cons s signs ih =>
      rw [List.findSome?_cons] at hlast
      rw [List.find?_cons]
      by_cases hs : s.queue = q
      · obtain ⟨queue', e, isAsked⟩ := s
        obtain rfl : queue' = q := hs
        obtain rfl : isAsked = true := by simpa using hlast.symm
        exact ⟨e, by simp⟩
      · rw [if_neg hs] at hlast
        obtain ⟨e, he⟩ := ih hlast
        refine ⟨e, ?_⟩
        rw [beq_eq_false_iff_ne.2 hs]
        exact he

/-- The outcome of an entry that is neither waiting nor active is known. -/
theorem Reachable.isKnown (hw : Reachable w) {e : EntryId} {entry : Entry}
    (he : w.entryOf? e = some entry) (hnot : ∀ queue, w.queues[entry.queue]? = some queue →
      e ∉ queue.pending ∧ queue.active ≠ some e) : w.IsKnown e :=
  hw.isSettled e (hw.arises.mem_vacated he hnot)

/-- **No queue stays withheld.**  When no turn is coming, no job that resets a package is left, and
no reset that one of them asked for is waiting or active any more, no queue is withheld, as long as
nobody but resets withholds queues. -/
theorem Reachable.not_isWithheld (hw : Reachable w) (hu : w.IsUntouched) (hready : w.ready = [])
    (hresets : ∀ job ∈ w.jobs, job.errand.isReset → job.position = .done)
    (hnone : ∀ q e, ¬ w.IsOutstanding q e) (q : QueueId) : (w.view q).isWithheld = false := by
  have hf := hw.arises.isFaithful hu
  refine Bool.eq_false_iff.2 fun hwithheld => ?_
  obtain ⟨e, hlast⟩ := exists_asked_of_isWithheld hf hwithheld
  obtain ⟨j, errand, p, q?, hat, hp, hward⟩ := hw.arises.isMinded hu q e hlast
  have hmem : ⟨errand, p, _⟩ ∈ w.jobs := List.mem_of_getElem? hat.choose_spec
  cases errand with
  | operation | execution | watch => exact absurd hward (by simp [Errand.ward?])
  | reset name folder token => exact hp (hresets _ hmem rfl)
  | reopen q' e' =>
    obtain rfl : e' = e := (Prod.mk.inj (Option.some.inj hward)).2
    obtain ⟨entry, he, hasked, hq⟩ := hat.exists_ward hf rfl
    -- The reset is over, so its outcome is known, and whoever waits for it has a turn coming.
    have hknown : w.IsKnown e' := by
      refine hw.isKnown he fun queue hqueue => ?_
      refine not_or.1 fun hplace => hnone entry.queue e' ⟨asked_of_mem_signs hasked, ?_⟩
      exact ⟨queue, hqueue, hplace⟩
    have hidle := hw.arises.isNumbered.idle hat rfl
    have hattended := hw.isAttended hat
    rw [Attends.eq_def, hready] at hattended
    cases p with
    | fresh => exact absurd hattended List.not_mem_nil
    | awaiting e s => exact absurd (hw.isRoused hu hat hknown) (by simp [hready])
    | telling => exact hattended
    | done => exact hp rfl
    | inLine | starting | running => exact absurd hidle (by simp [Position.id?])

end Ending

/-- Two resets that overlap, after both have come to their ends.  The second one was given up while
its outcome was awaited, and the folder was removed. -/
def afterResets : World :=
  let w := (resettingTwice.step (.act (.abandon "b"))).1.takeTurn 2
  let w := (((w.step (.removeFolder ⟨"/w/p"⟩)).1.takeTurn 3).fire ⟨1000, 1⟩).takeTurn 1
  (((w.takeTurn 0).takeTurn 4).fire ⟨2000, 4⟩ |>.takeTurn 4).takeTurn 3

theorem reachable_afterResets : Reachable afterResets := by
  have hgiven := reachable_resettingTwice.next (.act (.act (.abandon "b")) rfl)
  have hdropped := hgiven.next (.turn 2 (by decide))
  have hremoved := hdropped.next (.act (.removeFolder ⟨"/w/p"⟩) rfl)
  have hseated := hremoved.next (.turn 3 (by decide))
  have hfirst := (hseated.next (.fire ⟨1000, 1⟩ (by decide))).next (.turn 1 (by decide))
  have hopened := (hfirst.next (.turn 0 (by decide))).next (.turn 4 (by decide))
  have hsecond := (hopened.next (.fire ⟨2000, 4⟩ (by decide))).next (.turn 4 (by decide))
  exact hsecond.next (.turn 3 (by decide))

/-- The queue was withheld twice and opened twice, and is not withheld in the end. -/
theorem not_isWithheld_afterResets : afterResets.IsUntouched ∧ afterResets.ready = [] ∧
    (∀ job ∈ afterResets.jobs, job.errand.isReset → job.position = .done) ∧
    (∀ q e, ¬ afterResets.IsOutstanding q e) ∧
    afterResets.resetBook.signs = [⟨0, 1, false⟩, ⟨0, 0, false⟩, ⟨0, 1, true⟩, ⟨0, 0, true⟩] ∧
    (afterResets.view 0).isWithheld = false := by
  have hu : afterResets.IsUntouched := by decide
  have hready : afterResets.ready = [] := by decide
  have hresets : ∀ job ∈ afterResets.jobs, job.errand.isReset → job.position = .done := by decide
  have hidle : ∀ queue ∈ afterResets.queues, queue.pending = [] ∧ queue.active = none := by decide
  have hnone (q : QueueId) (e : EntryId) : ¬ afterResets.IsOutstanding q e := by
    rintro ⟨-, queue, hq, hplace⟩
    obtain ⟨hpending, hactive⟩ := hidle queue (List.mem_of_getElem? hq)
    rw [hpending, hactive] at hplace
    simp at hplace
  exact ⟨hu, hready, hresets, hnone, by decide,
    reachable_afterResets.not_isWithheld hu hready hresets hnone 0⟩

end World

end FolderTasks.Dispatch
