import FolderTasks.Proofs.Dispatch.TurnResults
/-!
# How an entry came to its outcome

What becomes of an entry depends on when its token was cancelled and when the task manager was
disposed of, and the history tells only the latter.  The course of a world has both: the worlds on
the way to it, one elementary change after the other.  Where something is true at the end that was
not true before, there is a change at which it came true; and what is written down at a change is
written down for a reason.

## Main definitions

* `World.Course`: the worlds on the way to a world, the latest first.
* `World.Cause`: why a fact about a task is written down.

## Main statements

* `World.Course.exists_step`: what is true at the end came true at some change.
* `World.Arises.cause`: the facts about tasks have causes.
* `World.Arises.leaves_fresh`: how the job of an entry begins.
-/

namespace FolderTasks.Dispatch

/-- Is it a fact about a task that the token or the clock decides? -/
def Happening.isCaused : Happening → Bool
  | .cancelledBeforeStart _ | .startAsked _ _ | .terminating _ | .ended _ _ _ => true
  | _ => false

namespace World

/-- **The course of a world**: the worlds before it, each made into the next one by an elementary
change, the latest first. -/
inductive Course : World → List World → Prop where
  | new (s : Setting) : Course s.world []
  | next {w w' : World} {ws : List World} (h : Course w ws) (hc : Change w w') :
      Course w' (w :: ws)

/-- **Why a fact about a task is written down.** -/
inductive Cause (w w' : World) : Happening → Prop where
  | skipped {call : Call} {id : TaskId} {p : Position} (h : w.CallAt call p)
      (hid : (id, call.job) ∈ w'.account.numbered) (hc : w.isCancelled call.token) :
      Cause w w' (.cancelledBeforeStart id)
  | asked {call : Call} {id : TaskId} (h : w.CallAt call (.inLine id))
      (hc : w.isCancelled call.token = false) : Cause w w' (.startAsked id call.command)
  | terminating {call : Call} {id : TaskId} {execution : Execution}
      (h : w.CallAt call (.running id execution)) (hc : w.isCancelled call.token) :
      Cause w w' (.terminating id)
  | completed {call : Call} {id : TaskId} {execution : Execution}
      (h : w.CallAt call (.running id execution)) (hd : execution.deadline ≤ w.clock) :
      Cause w w' (.ended id call.command execution.exitCode)
  | terminated {call : Call} {id : TaskId} (h : .terminating id ∈ w'.annals id) :
      Cause w w' (.ended id call.command none)

/-! ## Courses -/

section Courses

variable {w w₁ : World} {ws : List World}

/-- A world that arises has a course. -/
theorem Arises.exists_course (hw : Arises w) : ∃ ws, Course w ws := by
  obtain ⟨s, hs⟩ := hw
  induction hs with
  | refl => exact ⟨[], .new s⟩
  | tail _ hc ih =>
    obtain ⟨ws, h⟩ := ih
    exact ⟨_, h.next hc⟩

theorem Course.arises (h : Course w ws) : Arises w := by
  induction h with
  | new s => exact ⟨s, .refl⟩
  | next _ hc ih => exact ih.change hc

/-- The worlds of a course arise and lead to its last one. -/
theorem Course.leads (h : Course w ws) (hmem : w₁ ∈ w :: ws) : Arises w₁ ∧ Changes w₁ w := by
  induction h with
  | new s =>
    obtain rfl := List.mem_singleton.1 hmem
    exact ⟨⟨s, .refl⟩, .refl⟩
  | next h hc ih =>
    rcases List.mem_cons.1 hmem with rfl | hmem
    · exact ⟨h.arises.change hc, .refl⟩
    · exact ⟨(ih hmem).1, (ih hmem).2.tail hc⟩

/-- What survives every elementary change lasts. -/
theorem Arises.lasting {Q : World → Prop} {w' : World} (hw : Arises w)
    (hlasts : ∀ {w w' : World}, Arises w → Change w w' → Q w → Q w') (hc : Changes w w')
    (hQ : Q w) : Q w' := by
  induction hc with
  | refl => exact hQ
  | tail hc hlast ih => exact hlasts (hw.changes hc) hlast ih

/-- Two worlds that follow each other in a course. -/
def Course.Step (w : World) (ws : List World) (w₁ w₂ : World) : Prop := [w₂, w₁] <:+: w :: ws

theorem Course.step_next {w' w₂ : World} (h : Course.Step w ws w₁ w₂) :
    Course.Step w' (w :: ws) w₁ w₂ := h.trans (List.suffix_cons w' _).isInfix

theorem Course.change {w₂ : World} (h : Course w ws) (hs : Course.Step w ws w₁ w₂) :
    Change w₁ w₂ := by
  induction h with
  | new s => exact absurd hs.length_le (by simp)
  | next h hc ih =>
    rcases List.infix_cons_iff.1 hs with hfirst | hlater
    · obtain ⟨rfl, hrest⟩ := List.cons_prefix_cons.1 hfirst
      obtain ⟨rfl, -⟩ := List.cons_prefix_cons.1 hrest
      exact hc
    · exact ih hlater

theorem Course.mem_of_step {w₂ : World} (hs : Course.Step w ws w₁ w₂) :
    w₁ ∈ w :: ws ∧ w₂ ∈ w :: ws :=
  ⟨hs.subset (by simp), hs.subset (by simp)⟩

/-- **What is true at the end and was not true before came true at some change**, and whatever was
true before and lasts was true then. -/
theorem Course.exists_step {P Q : World → Prop} (h : Course w ws)
    (hlasts : ∀ {w w' : World}, Arises w → Change w w' → Q w → Q w') (hmem : w₁ ∈ w :: ws)
    (hQ : Q w₁) (hbefore : ¬ P w₁) (hafter : P w) :
    ∃ w₂ w₃, Course.Step w ws w₂ w₃ ∧ Q w₂ ∧ ¬ P w₂ ∧ P w₃ := by
  -- By induction on the course: the change is the last one, or it is found before.
  induction h with
  | new s =>
    obtain rfl := List.mem_singleton.1 hmem
    exact absurd hafter hbefore
  | @next w w' ws h hc ih =>
    rcases List.mem_cons.1 hmem with rfl | hmem
    · exact absurd hafter hbefore
    · by_cases hP : P w
      · obtain ⟨w₂, w₃, hs, hrest⟩ := ih hmem hP
        exact ⟨w₂, w₃, Course.step_next hs, hrest⟩
      · obtain ⟨harises, hchanges⟩ := h.leads hmem
        exact ⟨w, w', (List.prefix_append [w', w] ws).isInfix,
          harises.lasting hlasts hchanges hQ, hP, hafter⟩

/-- Every world of a course has a course of its own. -/
theorem Course.before (h : Course w ws) (hmem : w₁ ∈ w :: ws) :
    ∃ ws₁, Course w₁ ws₁ ∧ w₁ :: ws₁ <:+ w :: ws := by
  induction h with
  | new s =>
    obtain rfl := List.mem_singleton.1 hmem
    exact ⟨[], .new s, List.suffix_rfl⟩
  | next h hc ih =>
    rcases List.mem_cons.1 hmem with rfl | hmem
    · exact ⟨_, h.next hc, List.suffix_rfl⟩
    · obtain ⟨ws₁, h₁, hsuffix⟩ := ih hmem
      exact ⟨ws₁, h₁, hsuffix.trans (List.suffix_cons _ _)⟩

/-- What is true at the end and was not true at first came true at some change. -/
theorem Course.exists_first {P : World → Prop} (h : Course w ws) (hnew : ∀ s : Setting, ¬ P s.world)
    (hafter : P w) : ∃ w₁ w₂, Course.Step w ws w₁ w₂ ∧ ¬ P w₁ ∧ P w₂ := by
  -- Every course starts in a new world, in which nothing of the kind is true.
  have hsetting : ∃ s : Setting, s.world ∈ w :: ws := by
    clear hafter
    induction h with
    | new s => exact ⟨s, List.mem_cons_self⟩
    | next _ _ ih =>
      obtain ⟨s, hs⟩ := ih
      exact ⟨s, List.mem_cons_of_mem _ hs⟩
  obtain ⟨s, hs⟩ := hsetting
  obtain ⟨w₁, w₂, hstep, -, hbefore, hthen⟩ :=
    h.exists_step (Q := fun _ => True) (fun _ _ _ => trivial) hs trivial (hnew s) hafter
  exact ⟨w₁, w₂, hstep, hbefore, hthen⟩

end Courses

/-! ## Causes -/

section Causes

variable {w w' : World}

theorem mem_annals_note {id : TaskId} {x y : Happening} (h : x ∈ (w.note y).annals id) :
    x ∈ w.annals id ∨ x = y := by
  rw [annals_note, List.mem_append] at h
  refine h.imp_right ?_
  intro hx
  split at hx
  · exact List.mem_singleton.1 hx
  · exact absurd hx List.not_mem_nil

/-- Facts that neither a token nor the clock decides are no such facts. -/
theorem mem_annals_of_note {id : TaskId} {x y : Happening} (hx : x.isCaused)
    (h : x ∈ (w.note y).annals id) (hy : y.isCaused = false) : x ∈ w.annals id := by
  rcases mem_annals_note h with hold | rfl
  · exact hold
  · rw [hx] at hy
    exact absurd hy (by simp)

theorem Stride.cause (hs : Stride w w') (hn : IsNumbered w)
    (hn' : w.account.numbered <+: w'.account.numbered)
    {id : TaskId} {x : Happening} (hx : x.isCaused) (hold : x ∉ w.annals id)
    (hmem : x ∈ w'.annals id) : Cause w w' x := by
  cases hs with
  | rejected | timerCleared | startDelayed | forsaken => exact absurd hmem hold
  | guardTaken =>
    rw [annals_setPosition] at hmem
    exact absurd ((annals_takeNumber w _ id) ▸ hmem) hold
  | lineJoined =>
    rw [annals_listen, annals_setPosition] at hmem
    exact absurd ((annals_takeNumber w _ id) ▸ mem_annals_of_note hx hmem rfl) hold
  | @turnedAway call holder h hd hg hc =>
    rcases mem_annals_note hmem with hmem | rfl
    · exact absurd ((annals_takeNumber w _ id) ▸ mem_annals_of_note hx hmem rfl) hold
    · refine .skipped h ?_ hc
      change _ ∈ (w.takeNumber call.job).account.numbered
      rw [account_takeNumber]
      exact List.mem_append_right _ List.mem_cons_self
  | unlistened j token =>
    rw [(mild_unlisten (O := []) w token j).annals_eq (by simp)] at hmem
    exact absurd hmem hold
  | lineLeft h hg hc =>
    rcases mem_annals_note hmem with hmem | rfl
    · exact absurd hmem hold
    · exact .skipped h (hn'.subset (hn.current_of_callAt h rfl)) hc
  | guardReturned h hg hc =>
    rcases mem_annals_note hmem with hmem | rfl
    · rw [annals_releaseGuard] at hmem
      exact absurd hmem hold
    · exact .skipped h (hn'.subset (hn.current_of_callAt h rfl)) hc
  | startAsked h hg hc =>
    rcases mem_annals_note hmem with hmem | rfl
    · exact absurd hmem hold
    · exact .asked h hc
  | refused h hb =>
    rw [annals_releaseGuard, annals_setPosition] at hmem
    exact absurd (mem_annals_of_note hx hmem rfl) hold
  | started h hb =>
    have hmem := mem_annals_of_note hx hmem rfl
    rw [annals_releaseGuard, annals_setPosition] at hmem
    exact absurd (mem_annals_of_note hx hmem rfl) hold
  | endAwaited h =>
    rw [annals_listen] at hmem
    exact absurd hmem hold
  | completed h hd =>
    have hmem := mem_annals_of_note hx hmem rfl
    rcases mem_annals_note hmem with hmem | rfl
    · exact absurd hmem hold
    · exact .completed h (seesEnd_iff.1 hd).1
  | @terminated call id' execution h hd hc =>
    have hterminating : .terminating id' ∈ (((((w.note (.terminating id')).setBackend
        (w.backend.finish w.clock id' true)).note (.ended id' call.command none)).setPosition
          call.job .telling).note (.endAnnounced id' call.command none)).annals id' := by
      refine (mem_annals rfl).2 ⟨w.clock, ?_⟩
      exact List.mem_cons_of_mem _ (List.mem_cons_of_mem _ List.mem_cons_self)
    have hmem := mem_annals_of_note hx hmem rfl
    rcases mem_annals_note hmem with hmem | rfl
    · rcases mem_annals_note hmem with hmem | rfl
      · exact absurd hmem hold
      · exact .terminating h hc
    · exact .terminated hterminating

/-- **The facts about tasks have causes.** -/
theorem Arises.cause (hw : Arises w) (hc : Change w w') {id : TaskId} {x : Happening}
    (hx : x.isCaused) (hold : x ∉ w.annals id) (hmem : x ∈ w'.annals id) : Cause w w' x := by
  have hno {O : List Origin} (hl : Lasts O w w') (ho : .stride ∉ O) :
      Cause w w' x := by
    rw [hl.annals_eq ho] at hmem
    exact absurd hmem hold
  cases hc with
  | deed hd => exact hno hd.mild.toLasts (by simp)
  | drift hd => exact hno hd.lasts (by simp)
  | telling ht => exact hno ht.mild.toLasts (by simp)
  | closing hc => exact hno (hc.lasts hw.isOrderly hw.isNumbered) (by simp)
  | stride hs => exact hs.cause hw.isNumbered (hw.stage (.stride hs)).numbered_isPrefix hx hold hmem

end Causes

/-! ## How jobs begin, and how executions do -/

section Beginnings

variable {w w' : World} {j : JobId} {errand : Errand} {p p' : Position}

/-- A job begins with a number, or because its call is turned down. -/
theorem Stride.jobs_eq (hs : Stride w w') : w'.jobs = w.jobs ∨
    ∃ call p p', w.CallAt call p ∧ w'.jobs = (w.setPosition call.job p').jobs ∧
      (p = .fresh → w.manager.isDisposed ∧ p' = .telling ∨
        ∃ id, (id, call.job) ∈ w'.account.numbered) := by
  have hgiven (j : JobId) : (w.nextId, j) ∈ (w.takeNumber j).account.numbered := by
    rw [account_takeNumber]
    exact List.mem_append_right _ List.mem_cons_self
  have hlater {call : Call} {p p' : Position} (h : w.CallAt call p) (hp : p ≠ .fresh)
      (hjobs : w'.jobs = (w.setPosition call.job p').jobs) : w'.jobs = w.jobs ∨
      ∃ call p p', w.CallAt call p ∧ w'.jobs = (w.setPosition call.job p').jobs ∧
        (p = .fresh → w.manager.isDisposed ∧ p' = .telling ∨
          ∃ id, (id, call.job) ∈ w'.account.numbered) :=
    .inr ⟨call, p, p', h, hjobs, fun hfresh => absurd hfresh hp⟩
  cases hs with
  | rejected h hd => exact .inr ⟨_, _, _, h, rfl, fun _ => .inl ⟨hd, rfl⟩⟩
  | guardTaken h => exact .inr ⟨_, _, _, h, rfl, fun _ => .inr ⟨_, hgiven _⟩⟩
  | lineJoined h =>
    refine .inr ⟨_, _, _, h, h.joins.jobs, fun _ => .inr ⟨w.nextId, ?_⟩⟩
    rw [(adds_listen _ _ _).account]
    exact hgiven _
  | turnedAway h => exact .inr ⟨_, _, _, h, rfl, fun _ => .inr ⟨_, hgiven _⟩⟩
  | unlistened j token =>
    obtain ⟨tokens, heq⟩ := unlisten_eq w token j
    exact .inl (by rw [heq])
  | timerCleared | startDelayed => exact .inl rfl
  | @endAwaited call id execution =>
    obtain ⟨tokens, heq⟩ := listen_eq (w.setTimer execution.deadline call.job) call.token call.job
    exact .inl (by rw [heq]; rfl)
  | guardReturned h => exact hlater h (by simp) h.returns.jobs
  | refused h => exact hlater h (by simp) (h.refused _).jobs
  | started h => exact hlater h (by simp) (h.starts _ _).jobs
  | lineLeft h | startAsked h | forsaken h | completed h | terminated h =>
    exact hlater h (by simp) rfl

/-- **How the job of an entry begins**: its call is turned down because the task manager is disposed
of, it gets a number, or the entry is terminated. -/
theorem Arises.leaves_fresh (hw : Arises w) (hc : Change w w') {e : EntryId}
    (hat : w.At j (.operation e) .fresh) (hat' : w'.At j (.operation e) p') (hp' : p' ≠ .fresh) :
    w.manager.isDisposed ∧ p' = .telling ∨ (∃ id, (id, j) ∈ w'.account.numbered) ∨
      .resolved e .terminated ∈ w'.verdicts := by
  have hstays (h : w'.At j (.operation e) .fresh) :
      w.manager.isDisposed ∧ p' = .telling ∨ (∃ id, (id, j) ∈ w'.account.numbered) ∨
        .resolved e .terminated ∈ w'.verdicts := absurd (hat'.unique h).2 hp'
  cases hc with
  | deed hd => exact hstays (hd.mild.stays hat)
  | drift hd =>
    rcases hd.mild with ⟨i, rfl⟩ | hm
    · exact hstays hat
    · exact hstays (hm.stays hat)
  | telling ht => exact hstays (ht.mild.stays hat)
  | stride hs =>
    -- The stage moves this job or another one.
    rcases hs.jobs_eq with hjobs | ⟨call, p, p₁, hcall, hjobs, hfresh⟩
    · obtain ⟨given, hj⟩ := hat
      exact hstays ⟨given, by rw [hjobs, hj]⟩
    · have hmoved : w'.At j (.operation e) (if call.job = j then p₁ else .fresh) := by
        obtain ⟨given, hj⟩ := hat
        refine ⟨given, ?_⟩
        rw [hjobs, getElem?_setPosition, hj, Option.map_some]
        split <;> rfl
      obtain rfl := (hat'.unique hmoved).2
      by_cases hjob : call.job = j
      · subst hjob
        rw [if_pos rfl]
        obtain ⟨errand, hat₁, -⟩ := hcall
        rcases hfresh (hat₁.unique hat).2 with hrejected | hnumbered
        · exact .inl hrejected
        · exact .inr (.inl hnumbered)
      · exact absurd (if_neg hjob) hp'
  | closing hc =>
    -- Of all jobs that end or wait only that of the same entry can be this one.
    rcases hc.sorts hw.isOrderly hw.isNumbered with
      ⟨i, name, command, token, p, hati, hp, rfl⟩ | ⟨i, e', o, p, hati, hp, ho, rfl⟩ |
      ⟨w₁, i, errand, p, p₁, hm, hati, hp, herrand, rfl⟩
    · refine hstays ((hat.dropExecution ⟨i, command, token⟩).setPosition_of_ne ?_ _)
      rintro rfl
      exact absurd (hati.unique hat).1 (by simp)
    · by_cases hi : i = j
      · subst hi
        obtain ⟨herrand, hfresh⟩ := hati.unique hat
        obtain rfl := Errand.operation.inj herrand
        obtain rfl := ho hfresh
        obtain ⟨entry, he⟩ := hat.exists_entry hw.isOrderly
        refine .inr (.inr ?_)
        change _ ∈ (w.resolve e' .terminated).verdicts
        rw [verdicts_resolve he]
        exact List.mem_append_right _ List.mem_cons_self
      · exact hstays (((mild_resolve w e' o).stays hat).setPosition_of_ne hi _)
    · refine hstays ((hm.stays hat).setPosition_of_ne ?_ _)
      rintro rfl
      rw [(hati.unique hat).1] at herrand
      exact absurd herrand (by simp [Errand.entry?])

/-- **An execution begins when the backend starts it.** -/
theorem Arises.launched (hw : Arises w) (hc : Change w w') {id : TaskId} {execution : Execution}
    (hbefore : ¬ w.At j errand (.running id execution))
    (hafter : w'.At j errand (.running id execution)) :
    ∃ call b, call.job = j ∧ w.CallAt call (.starting id) ∧
      w.backend.start w.clock id call.command = .ok (b, execution) := by
  have hmoves {call : Call} {p p' : Position} (hm : Moves w w' call p p') :
      call.job = j ∧ p' = .running id execution := by
    rcases hm.back hafter with ⟨hjob, hp', -⟩ | ⟨-, hat⟩
    · exact ⟨hjob, hp'.symm⟩
    · exact absurd hat hbefore
  -- Only where the backend starts a command a job comes to run.
  cases hw.stage hc with
  | quiet hq =>
    rcases hq.at_back hafter with hfresh | ⟨p, hat, rfl | hidle⟩
    · exact absurd hfresh (by simp)
    · exact absurd hat hbefore
    · exact absurd hidle (by simp [Position.isIdle])
  | started hm ha hb =>
    obtain ⟨hjob, hp⟩ := hmoves hm
    obtain ⟨rfl, rfl⟩ := Position.running.inj hp
    exact ⟨_, _, hjob, hm.serves, hb⟩
  | numbered hm ha hp' =>
    obtain ⟨-, rfl⟩ := hmoves hm
    exact absurd hp' (by simp)
  | dropped hm | asked hm | ended hm => exact absurd (hmoves hm).2 (by simp)

end Beginnings

end World

end FolderTasks.Dispatch
