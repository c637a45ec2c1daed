import FolderTasks.Proofs.Dispatch.ExecutionPieces
/-!
# Starts and ends are announced in pairs

What the observers are told of a task is that it starts and then that it ends, with the command of
the caller, and never more than that.  When the call has returned they were told of both if the
backend started the command, and of nothing otherwise; and what they were told of the end, what the
call returned and what the backend recorded agree.

## Main definitions

* `World.HasReturned`: a call has returned with a result.
* `World.emissions`: what is announced of a task.
* `World.Agrees`: the result of a call agrees with announcements and records.
* `World.AnnouncesInPairs`: starts and ends are announced in pairs.

## Main statements

* `World.HasReturned.told`: the result of a call is what the story of its task tells.
* `World.Arises.announcesInPairs`: starts and ends are announced in pairs, whatever happens.
-/

namespace FolderTasks.Dispatch

/-- Is it a fact that observers are told of a start or an end? -/
def Happening.isAnnouncement : Happening → Bool
  | .startAnnounced _ _ | .endAnnounced _ _ _ => true
  | _ => false

namespace Chapter

/-- The announcements of a task. -/
def announced (id : TaskId) (c : Command) (ch : Chapter) : List Happening :=
  (ch.facts id c).filter Happening.isAnnouncement

/-- What is announced is announced in pairs. -/
theorem announced_isPrefix (id : TaskId) (c : Command) (ch : Chapter) :
    ∃ code, ch.announced id c <+: [.startAnnounced id c, .endAnnounced id c code] := by
  cases ch with
  | completed code => exact ⟨code, List.prefix_rfl⟩
  | lined | asked | skipped | refused => exact ⟨none, List.nil_prefix⟩
  | begun => exact ⟨none, ⟨[_], rfl⟩⟩
  | terminated => exact ⟨none, List.prefix_rfl⟩

end Chapter

namespace World

/-- **A call has returned** with a result: at some point on the way a piece of its execution ended
with it. -/
def HasReturned (w : World) (call : Call) (result : Except Failure Outcome) : Prop :=
  ∃ w₁ w₂ errand p, Arises w₁ ∧ w₁.ServesAt call errand p ∧
    w₁.proceed call = (w₂, .finished result) ∧ Changes w₂ w

/-- What is announced of a task, in the order in which it is announced. -/
def emissions (w : World) (id : TaskId) : List Happening :=
  (w.annals id).filter Happening.isAnnouncement

/-- Did the backend start a task? -/
def WasStarted (w : World) (id : TaskId) : Prop := ∃ t c, (t, .started id c) ∈ w.history

/-- **The result of a call agrees** with what was announced of its task and what was recorded. -/
structure Agrees (w : World) (id : TaskId) (c : Command) (result : Except Failure Outcome) :
    Prop where
  /-- Of a task that was started both its start and its end were announced. -/
  full : w.WasStarted id →
    ∃ code, w.emissions id = [.startAnnounced id c, .endAnnounced id c code]
  /-- Of any other nothing was. -/
  silent : ¬ w.WasStarted id → w.emissions id = []
  /-- A call that returns an exit code, or that its execution was terminated, had it started. -/
  started : (∃ n, result = .ok (.exited n)) ∨ result = .ok .terminated → w.WasStarted id
  /-- The end is announced with an exit code just if the call returns that code, -/
  exited : ∀ n, .endAnnounced id c (some n) ∈ w.emissions id ↔ result = .ok (.exited n)
  /-- and without one just if the execution was terminated, or cancelled after its start. -/
  unknown : .endAnnounced id c none ∈ w.emissions id ↔
    result = .ok .terminated ∨ result = .ok .cancelled ∧ w.WasStarted id
  recorded : w.WasStarted id → ∃ r, w.backend.recordsOf id = [r] ∧ r.endedAt.isSome ∧
    (r.terminated ↔ result = .ok .cancelled)
  /-- A call that fails announces nothing, and neither does one that is cancelled before the
  start. -/
  failed : ∀ f, result = .error f → w.emissions id = []

/-- **Starts and ends are announced in pairs.** -/
structure AnnouncesInPairs (w : World) : Prop where
  /-- First the start is announced and then the end, with the command of the caller. -/
  pairs : ∀ {id : TaskId} {call : Call} {errand : Errand} {p : Position},
    (id, call.job) ∈ w.seen Happening.numbered? → w.ServesAt call errand p →
    ∃ code, w.emissions id <+: [.startAnnounced id call.command, .endAnnounced id call.command code]
  /-- Of a task that has no number nothing is announced. -/
  unnumbered : ∀ {id : TaskId}, (∀ j, (id, j) ∉ w.seen Happening.numbered?) → w.emissions id = []
  /-- When the end is announced the execution has ended. -/
  ended : ∀ {id : TaskId} {c : Command} {code : Option Int32},
    .endAnnounced id c code ∈ w.emissions id →
    ∃ r, w.backend.recordsOf id = [r] ∧ r.endedAt.isSome
  /-- A call that has returned has a number, and all agrees with its result; or it was turned down
  and has none. -/
  returned : ∀ {call : Call} {result : Except Failure Outcome}, w.HasReturned call result →
    (∃ id, (id, call.job) ∈ w.seen Happening.numbered? ∧ w.Agrees id call.command result) ∨
      result = .error .disposed ∧ ∀ id, (id, call.job) ∉ w.seen Happening.numbered?

/-- **The result of a call is what the story of its task tells.** -/
theorem HasReturned.told {w : World} {call : Call} {result : Except Failure Outcome}
    (h : w.HasReturned call result) : w.Told call result := by
  obtain ⟨w₁, w₂, errand, p, hw₁, hserves, hproceed, hc⟩ := h
  have hleads := proceed_leads hserves
  have hpiece := hw₁.piece hserves
  rw [hproceed] at hleads hpiece
  have hat := (hleads.concluded.resolve_left (by simp)).1
  -- The job is past its beginning when it returns, and so what is told of its result stays.
  exact (hpiece.told rfl).changes (hw₁.changes hleads.changes) hc ⟨errand, _, hat, by simp⟩

/-! ## What is announced -/

section Announcements

variable {w : World} {id : TaskId} {c : Command} {ch : Chapter}

theorem Tells.emissions (h : w.Tells id c ch) : w.emissions id = ch.announced id c := by
  rw [World.emissions, h.annals]
  rfl

/-- The stories of tasks that were started. -/
theorem Tells.wasStarted_iff (h : w.Tells id c ch) :
    w.WasStarted id ↔ .started id c ∈ ch.facts id c := by
  rw [← h.annals]
  constructor
  · rintro ⟨t, c', hmem⟩
    -- The history does not say whose command was started, but the story does.
    have hannals : .started id c' ∈ w.annals id := (mem_annals rfl).2 ⟨t, hmem⟩
    have hfacts := hannals
    rw [h.annals] at hfacts
    cases ch <;> simp_all [Chapter.facts]
  · intro hmem
    obtain ⟨t, ht⟩ := (mem_annals rfl).1 hmem
    exact ⟨t, c, ht⟩

/-- What the backend has filed of a task that was started, and that is over. -/
theorem exists_record {terminated : Bool} (h : w.filed id = [(true, terminated)]) :
    ∃ r, w.backend.recordsOf id = [r] ∧ r.endedAt.isSome ∧ r.terminated = terminated := by
  obtain ⟨r, hr, hstate⟩ := List.map_eq_singleton_iff.1 h
  obtain ⟨hend, hterminated⟩ := Prod.mk.inj hstate
  exact ⟨r, hr, hend, hterminated⟩

/-- A result that the story of a task tells agrees with what was announced and recorded. -/
theorem Tells.agrees (h : w.Tells id c ch) {result : Except Failure Outcome}
    (hr : ch.result? = some result) : w.Agrees id c result := by
  have hemissions := h.emissions
  have hstarted := h.wasStarted_iff
  have hfiled := h.filed
  -- The chapter settles everything: what was announced, what was recorded, and the result.
  cases ch with
  | lined | asked | begun => exact absurd hr (by simp [Chapter.result?])
  | skipped | refused f =>
    obtain rfl := Option.some.inj hr
    have hnone : w.emissions id = [] := hemissions
    have hnot : ¬ w.WasStarted id := by simp [hstarted, Chapter.facts]
    exact {
      full := fun hs => absurd hs hnot
      silent := fun _ => hnone
      started := by simp
      exited := by simp [hnone]
      unknown := by simp [hnone, hnot]
      recorded := fun hs => absurd hs hnot
      failed := fun _ _ => hnone }
  | completed code =>
    obtain rfl := Option.some.inj hr
    obtain ⟨r, hrecord, hend, hterminated⟩ := exists_record hfiled
    have hpair : w.emissions id = [.startAnnounced id c, .endAnnounced id c code] := hemissions
    have hyes : w.WasStarted id := by simp [hstarted, Chapter.facts]
    exact {
      full := fun _ => ⟨code, hpair⟩
      silent := fun hs => absurd hyes hs
      started := fun _ => hyes
      exited := fun n => by cases code <;> simp [hpair, Outcome.ofCode, eq_comm]
      unknown := by cases code <;> simp [hpair, Outcome.ofCode]
      recorded := by
        intro _
        refine ⟨r, hrecord, hend, ?_⟩
        cases code <;> simp [Outcome.ofCode, hterminated]
      failed := by simp }
  | terminated =>
    obtain rfl := Option.some.inj hr
    obtain ⟨r, hrecord, hend, hterminated⟩ := exists_record hfiled
    have hpair : w.emissions id = [.startAnnounced id c, .endAnnounced id c none] := hemissions
    have hyes : w.WasStarted id := by simp [hstarted, Chapter.facts]
    exact {
      full := fun _ => ⟨none, hpair⟩
      silent := fun hs => absurd hyes hs
      started := fun _ => hyes
      exited := by simp [hpair]
      unknown := by simp [hpair, hyes]
      recorded := fun _ => ⟨r, hrecord, hend, by simp [hterminated]⟩
      failed := by simp }

/-- **Starts and ends are announced in pairs**, in every world that arises.  So it is between two
turns and in the middle of one, in particular when the observers are told. -/
theorem Arises.announcesInPairs (hw : Arises w) : w.AnnouncesInPairs where
  pairs hid hserves := by
    obtain ⟨ch, htells, -⟩ := hw.isChronicled.told hid hserves
    rw [htells.emissions]
    exact ch.announced_isPrefix _ _
  unnumbered hid := by
    rw [emissions, (hw.isChronicled.blank hid).1]
    rfl
  ended {id c code} hmem := by
    have hannals := (List.mem_filter.1 hmem).1
    -- What is announced of a task with a number belongs to its story, and nothing is announced of
    -- any other.
    by_cases hid : ∃ j, (id, j) ∈ w.account.numbered
    · obtain ⟨j, hj⟩ := hid
      obtain ⟨call, errand, p, hjob, hserves⟩ := hw.isNumbered.exists_servesAt hw.isOrderly hj
      obtain ⟨ch, htells, -⟩ := hw.isChronicled.told (hjob ▸ hj) hserves
      rw [htells.annals] at hannals
      have hfiled := htells.filed
      cases ch with
      | lined | asked | begun | skipped | refused =>
        exact absurd hannals (by simp [Chapter.facts])
      | completed | terminated =>
        obtain ⟨r, hr, hend, -⟩ := exists_record hfiled
        exact ⟨r, hr, hend⟩
    · rw [(hw.isChronicled.blank fun j hj => hid ⟨j, hj⟩).1] at hannals
      exact absurd hannals List.not_mem_nil
  returned hreturned := by
    cases hreturned.told with
    | rejected hd hn => exact .inr ⟨rfl, hn⟩
    | told h hr => exact .inl ⟨_, h.numbered, h.tells.agrees hr⟩

/-- A command that is executed past all queues. -/
def calling : Call := ⟨0, ⟨"p", ["a"], none, .empty, none⟩, none⟩

/-- Its job has been given its turn. -/
def calledPastQueues : World :=
  let w := (({} : Setting).world.step (.act (.execute "x" calling.command none))).1
  { w with ready := w.ready.erase 0 }

theorem arises_calledPastQueues : Arises calledPastQueues := by
  refine ⟨{}, (instant_changes _ (s := .act (.execute "x" calling.command none)) rfl).tail ?_⟩
  exact .drift (.turnTaken 0 (by decide))

theorem hasReturned_calling :
    (calledPastQueues.proceed calling).1.HasReturned calling (.ok (.exited 0)) :=
  ⟨calledPastQueues, _, _, .fresh, arises_calledPastQueues,
    ⟨⟨false, rfl⟩, rfl⟩, rfl, .refl⟩

/-- The command is started and ends by itself, and its start and its end have been announced. -/
theorem announcesInPairs_calling : Arises (calledPastQueues.proceed calling).1 ∧
    ∃ id, (calledPastQueues.proceed calling).1.Agrees id calling.command (.ok (.exited 0)) ∧
      (calledPastQueues.proceed calling).1.WasStarted id ∧
      (calledPastQueues.proceed calling).1.emissions id =
        [.startAnnounced id calling.command, .endAnnounced id calling.command (some 0)] := by
  have hserves : calledPastQueues.ServesAt calling (.execution "x" calling.command none) .fresh :=
    ⟨⟨false, rfl⟩, rfl⟩
  have hproceed := proceed_leads hserves
  have harises := arises_calledPastQueues.changes hproceed.changes
  obtain ⟨id, -, hagrees⟩ | ⟨hdisposed, -⟩ :=
    harises.announcesInPairs.returned hasReturned_calling
  · have hstarted := hagrees.started (.inl ⟨0, rfl⟩)
    obtain ⟨code, hpair⟩ := hagrees.full hstarted
    have hend := (hagrees.exited 0).2 rfl
    obtain rfl : code = some 0 := by rw [hpair] at hend; simpa [eq_comm] using hend
    exact ⟨harises, id, hagrees, hstarted, hpair⟩
  · exact absurd hdisposed (by simp)

end Announcements

end World

end FolderTasks.Dispatch
