import FolderTasks.Proofs.Dispatch.FolderEntries
import FolderTasks.Proofs.Dispatch.OutcomeLaw
/-!
# One operation per folder

A queue runs one operation at a time, so a folder does as long as all that may still run in it is
on one queue.  A folder that is removed and added again gets a new queue, while the operations that
were queued before still run on the old one: one operation at a time is kept only if the folder is
added again after they are over.

## Main definitions

* `World.IsLeftToFolders`: callbacks queue nothing, and nothing is executed past all queues.
* `World.MayRun`: an entry of a queue may still run in a folder.
* `World.IsDrained`: a folder is there, or nothing may still run in it.
* `World.Driven`: the worlds to which the workspace leads when it is used through its folders.
* `World.RunsAlone`: at most one execution runs in a folder.

## Main statements

* `World.Driven.isHoused`: what may run in a folder is on one queue.
* `World.Driven.runsAlone`: if folders are only added when they are drained, one execution at most
  runs in each.
* `World.not_runsAlone_of_readding`: two executions in a folder that was removed and added again.
-/

namespace FolderTasks.Dispatch

namespace World

/-- **The queues are left to the folders**: callbacks queue nothing, and nothing is executed past
all queues. -/
structure IsLeftToFolders (w : World) : Prop where
  hooks : ∀ p ∈ w.history, p.2.isHookRequest = false
  callers : ∀ job ∈ w.jobs, job.errand.isExecution = false

/-- **An entry of a queue may still run in a folder**: it has no outcome, and there is a task for it
or will be one. -/
structure MayRun (w : World) (e : EntryId) (q : QueueId) (folder : Path) : Prop where
  isOpen : ∃ entry cwd, w.entryOf? e = some entry ∧ entry.queue = q ∧ entry.outcome = none ∧
    entry.operation.command.cwd = some cwd ∧ cwd.Same folder
  starts : w.manager.isDisposed = false ∨ ∃ id, w.Serves id e

/-- **A folder is drained**: it is there, or nothing may still run in it. -/
def IsDrained (w : World) (folder : Path) : Prop :=
  (w.folderQueue? folder).isSome ∨ ∀ e q, ¬ w.MayRun e q folder

/-- What goes on while the user does nothing, or waits for outcomes outside all jobs. -/
inductive Passing : World → World → Prop where
  | turn {w : World} (j : JobId) (h : j ∈ w.ready) : Passing w (w.takeTurn j)
  | fire {w : World} (t : Timer) (h : t ∈ w.timers) : Passing w (w.fire t)
  | pass {w : World} (moment : Nat) (h : w.clock ≤ moment) : Passing w { w with clock := moment }
  | sit {w : World} (e : EntryId) : Passing w (w.takeSeat e .outside).1
  | leave {w : World} (e : EntryId) (entry : Entry) (seat : Nat) (he : w.entryOf? e = some entry)
      (h : entry.room.seats[seat]? = some (some .outside)) : Passing w (w.leaveSeat e seat)
  | receive {w w' : World} (e : EntryId) (o : Outcome) (h : w.receive? e = some (w', o)) :
      Passing w w'

/-- **Where the workspace leads when it is used through its folders.**  Folders are added when they
may be, and removed at any time, and whatever is queued is queued for a folder. -/
inductive Driven (may : World → Path → Prop) : World → Prop where
  | new (s : Setting) : Driven may s.world
  | act {w : World} (h : Driven may w) (s : Step) (hs : s.isInstant) (hr : s.isRequest = false)
      (hmay : ∀ folder, s = .addFolder folder → may w folder) : Driven may (w.step s).1
  | passing {w w' : World} (h : Driven may w) (hp : Passing w w') : Driven may w'

/-- The command of a task was started in a folder, however that is spelled. -/
def RunsIn (w : World) (id : TaskId) (folder : Path) : Prop :=
  ∃ t c cwd, (t, .started id c) ∈ w.history ∧ c.cwd = some cwd ∧ cwd.Same folder

/-- **At most one execution runs in a folder.** -/
def RunsAlone (w : World) (folder : Path) : Prop :=
  ∀ r ∈ w.backend.unended, ∀ r' ∈ w.backend.unended,
    w.RunsIn r.id folder → w.RunsIn r'.id folder → r = r'

/-! ## What may still run -/

/-- **What may run in a folder is on one queue**, which is the one that the folder has. -/
structure IsHoused (w : World) : Prop where
  distinct : ∀ f ∈ w.folders, ∀ g ∈ w.folders, f.1.Same g.1 → f = g
  listed : ∀ f ∈ w.folders, ∀ {e : EntryId} {q : QueueId}, w.MayRun e q f.1 → q = f.2
  one : ∀ {e e' : EntryId} {q q' : QueueId} {folder : Path}, w.MayRun e q folder →
    w.MayRun e' q' folder → q = q'

section Housing

variable {w w' : World} {e : EntryId} {q : QueueId} {folder : Path}

theorem MayRun.of_same {folder' : Path} (h : w.MayRun e q folder) (hs : folder.Same folder') :
    w.MayRun e q folder' := by
  obtain ⟨entry, cwd, he, hq, ho, hcwd, hsame⟩ := h.isOpen
  exact ⟨⟨entry, cwd, he, hq, ho, hcwd, hsame.trans hs⟩, h.starts⟩

/-- An entry stays on its queue, however much happens. -/
theorem Arises.queue_forth (hw : Arises w) (hc : Changes w w') {entry entry' : Entry}
    (he : w.entryOf? e = some entry) (he' : w'.entryOf? e = some entry') :
    entry'.queue = entry.queue := by
  -- The owners of entries are only added to, and an entry has its queue for an owner.
  have hon : w'.ledger.isOn entry.queue e := by
    obtain ⟨more, hmore⟩ := hw.owners_isPrefix hc
    have hon := isOn_ledger he
    rwa [Ledger.isOn, ← hmore, List.getElem?_append_left (Ledger.IsOrderly.isOn_lt hon)]
  have hon' := isOn_ledger he'
  rw [Ledger.isOn, beq_iff_eq] at hon hon'
  exact Option.some.inj (hon'.symm.trans hon)

/-- An outcome stays what it is, however much happens. -/
theorem Arises.outcome_forth (hw : Arises w) (hc : Changes w w') {entry entry' : Entry}
    {o : Outcome} (he : w.entryOf? e = some entry) (ho : entry.outcome = some o)
    (he' : w'.entryOf? e = some entry') : entry'.outcome = some o := by
  have hresolved := (outcome_iff_resolved hw.isOrderly he).1 ho
  obtain ⟨p, hp, hfact⟩ := mem_seen.1 hresolved
  have hresolved' := mem_seen.2 ⟨p, (hw.lasts_changes hc).mem_history hp, hfact⟩
  exact (outcome_iff_resolved (hw.changes hc).isOrderly he').2 hresolved'

/-- **What may run, and was there before, might run before.** -/
theorem Arises.mayRun_back (hw : Arises w) (hc : Changes w w') (hlt : e < w.entries.length)
    (h : w'.MayRun e q folder) : w.MayRun e q folder := by
  have hw' := hw.changes hc
  have hlasts := hw.lasts_changes hc
  obtain ⟨entry', cwd, he', rfl, ho', hcwd, hsame⟩ := h.isOpen
  obtain ⟨entry, he⟩ : ∃ entry, w.entryOf? e = some entry := ⟨_, List.getElem?_eq_getElem hlt⟩
  obtain ⟨entry₁, he₁, horder⟩ := hlasts.entryOf? he
  obtain rfl := Option.some.inj (he₁.symm.trans he')
  constructor
  · refine ⟨entry, cwd, he, (hw.queue_forth hc he he').symm, ?_, ?_, hsame⟩
    · cases ho : entry.outcome with
      | none => rfl
      | some o =>
        rw [hw.outcome_forth hc he ho he'] at ho'
        exact absurd ho' (by simp)
    · rw [← (Prod.mk.inj horder).1]
      exact hcwd
  -- If the manager was disposed of before, the task that serves the entry had its number already.
  · rcases Bool.eq_false_or_eq_true w.manager.isDisposed with hd | hd
    · rcases h.starts with hd' | ⟨id, hserves⟩
      · rw [hlasts.disposed hd] at hd'
        exact absurd hd' (by simp)
      · obtain ⟨j, p, hid, hat⟩ := hserves
        have hid₀ := hid
        rw [hw.numbered_of_disposed hc hd] at hid₀
        exact .inr ⟨id, hw.serves_back hc hid₀ ⟨j, p, hid, hat⟩⟩
    · exact .inl hd

/-- Where nothing is queued, nothing may run that might not run before. -/
theorem Arises.mayRun_of_length (hw : Arises w) (hc : Changes w w')
    (hlength : w'.entries.length = w.entries.length) (h : w'.MayRun e q folder) :
    w.MayRun e q folder := by
  obtain ⟨entry, cwd, he, -⟩ := h.isOpen
  exact hw.mayRun_back hc (hlength ▸ entryOf?_lt he) h

namespace IsHoused

/-- Folders are removed, and nothing is queued. -/
theorem unlist (h : IsHoused w) (hw : Arises w) (hc : Changes w w')
    (hlength : w'.entries.length = w.entries.length) (hfolders : ∀ f ∈ w'.folders, f ∈ w.folders) :
    IsHoused w' := by
  constructor
  · intro f hf g hg
    exact h.distinct f (hfolders f hf) g (hfolders g hg)
  · intro f hf e q hm
    exact h.listed f (hfolders f hf) (hw.mayRun_of_length hc hlength hm)
  · intro e e' q q' folder hm hm'
    exact h.one (hw.mayRun_of_length hc hlength hm) (hw.mayRun_of_length hc hlength hm')

/-- What is queued is queued for folders. -/
theorem lodge (h : IsHoused w) (hw : Arises w) (hc : Changes w w') (hl : Lodges w w') :
    IsHoused w' := by
  -- What may run now might run before, or is on the queue of a folder.
  have hsorts {e : EntryId} {q : QueueId} {folder : Path} (hm : w'.MayRun e q folder) :
      w.MayRun e q folder ∨ ∃ f ∈ w.folders, f.1.Same folder ∧ f.2 = q := by
    obtain ⟨entry, cwd, he, rfl, -, hcwd, hsame⟩ := hm.isOpen
    by_cases hlt : e < w.entries.length
    · exact .inl (hw.mayRun_back hc hlt hm)
    · obtain ⟨folder', hcwd', hq⟩ := hl.lodged (Nat.not_lt.1 hlt) he
      obtain rfl := Option.some.inj (hcwd.symm.trans hcwd')
      obtain ⟨f, hf, hqueue⟩ := Option.map_eq_some_iff.1 hq
      have hfound : f.1.Same cwd := by simpa using List.find?_some hf
      exact .inr ⟨f, List.mem_of_find?_eq_some hf, hfound.trans hsame, hqueue⟩
  -- A folder that is there has what may run in it on its queue, old or new.
  have hlisted {f : Path × QueueId} (hf : f ∈ w.folders) {e : EntryId} {q : QueueId}
      (hm : w'.MayRun e q f.1) : q = f.2 := by
    rcases hsorts hm with hm | ⟨g, hg, hsame, rfl⟩
    · exact h.listed f hf hm
    · rw [h.distinct g hg f hf hsame]
  constructor
  · rw [hl.folders]
    exact h.distinct
  · rw [hl.folders]
    intro f hf e q hm
    exact hlisted hf hm
  · intro e e' q q' folder hm hm'
    rcases hsorts hm with hold | ⟨f, hf, hsame, rfl⟩
    · rcases hsorts hm' with hold' | ⟨f, hf, hsame, rfl⟩
      · exact h.one hold hold'
      · exact hlisted hf (hm.of_same hsame.symm)
    · exact (hlisted hf (hm'.of_same hsame.symm)).symm

/-- A folder is added of which nothing may still run. -/
theorem list (h : IsHoused w) (hw : Arises w) (hc : Changes w w') (q : QueueId)
    (hlength : w'.entries.length = w.entries.length)
    (hfolders : w'.folders = w.folders ++ [(folder, q)])
    (hnew : w.folderQueue? folder = none) (hmay : w.IsDrained folder) : IsHoused w' := by
  have hdrained : ∀ e q, ¬ w.MayRun e q folder := by
    rcases hmay with hthere | hdrained
    · rw [hnew] at hthere
      exact absurd hthere (by simp)
    · exact hdrained
  have hdiffers : ∀ f ∈ w.folders, ¬ f.1.Same folder := by
    intro f hf hsame
    have hfind := List.find?_eq_none.1 (Option.map_eq_none_iff.1 hnew) f hf
    exact hfind (decide_eq_true hsame)
  constructor
  · intro f hf g hg hsame
    rw [hfolders, List.mem_append, List.mem_singleton] at hf hg
    rcases hf with hf | rfl <;> rcases hg with hg | rfl
    · exact h.distinct f hf g hg hsame
    · exact absurd hsame (hdiffers f hf)
    · exact absurd hsame.symm (hdiffers g hg)
    · rfl
  · intro f hf e q hm
    rw [hfolders, List.mem_append, List.mem_singleton] at hf
    rcases hf with hf | rfl
    · exact h.listed f hf (hw.mayRun_of_length hc hlength hm)
    · exact absurd (hw.mayRun_of_length hc hlength hm) (hdrained e q)
  · intro e e' q q' folder hm hm'
    exact h.one (hw.mayRun_of_length hc hlength hm) (hw.mayRun_of_length hc hlength hm')

end IsHoused

/-- In a turn, what may run in a folder stays on one queue. -/
theorem IsHoused.works (h : IsHoused w) (hw : Arises w) (hc : Works w w')
    (hhooks : ∀ p ∈ w'.history, p.2.isHookRequest = false) : IsHoused w' := by
  induction hc with
  | refl => exact h
  | tail hc hlast ih =>
    have harises := hw.changes (Works.changes hc)
    have hbefore := (harises.lasts_changes hlast.changes).history
    have hhoused := ih fun p hp => hhooks p (hbefore.subset hp)
    exact hhoused.lodge harises hlast.changes (hlast.lodges hhooks)

/-- Between two turns, what may run in a folder stays on one queue if folders are only added when
they are drained. -/
theorem IsHoused.step (h : IsHoused w) (hw : Arises w) {s : Step} (hs : s.isInstant)
    (hr : s.isRequest = false) (hmay : ∀ folder, s = .addFolder folder → w.IsDrained folder) :
    IsHoused (w.step s).1 := by
  have hc := instant_changes w hs
  cases s with
  | addFolder folder =>
    cases hq : w.folderQueue? folder with
    | some q =>
      refine h.lodge hw hc (.of_holdings ?_)
      simp only [World.step, addFolder, hq]
      rfl
    | none =>
      refine h.list hw hc w.queues.length ?_ ?_ hq (hmay folder rfl)
      · simp only [World.step, addFolder, hq]
        rfl
      · simp only [World.step, addFolder, hq]
        rfl
  | removeFolder folder =>
    refine h.unlist hw hc ?_ ?_
    · simp only [World.step, removeFolder]
      split <;> rfl
    · intro f hf
      simp only [World.step, removeFolder] at hf
      split at hf
      · exact hf
      · exact (List.mem_filter.1 hf).1
  | dispose =>
    refine h.unlist hw hc ?_ fun f hf => absurd hf List.not_mem_nil
    exact congrArg Prod.fst (holdings_disposeManager w)
  | _ => exact h.lodge hw hc (instant_lodges hs hr (by simp) (by simp) (by simp))

/-! ## Along the way -/

theorem Passing.transition (h : Passing w w') : Transition w w' := by
  cases h with
  | turn j h => exact .turn j h
  | fire t h => exact .fire t h
  | pass moment h => exact .pass moment h
  | sit e => exact .sit e
  | leave e entry seat he h => exact .leave e entry seat he h
  | receive e o h => exact .receive e o h

theorem Driven.reachable {may : World → Path → Prop} (h : Driven may w) : Reachable w := by
  induction h with
  | new s => exact .new s
  | act _ s hs _ _ ih => exact ih.next (.act s hs)
  | passing _ hp ih => exact ih.next hp.transition

theorem Passing.isHoused (hp : Passing w w') (h : IsHoused w) (hw : Arises w)
    (hhooks : ∀ p ∈ w'.history, p.2.isHookRequest = false) : IsHoused w' := by
  have hc := hp.transition.changes
  cases hp with
  | turn j hj => exact h.works hw (takeTurn_works hj) hhooks
  | fire t ht => exact h.lodge hw hc (.of_holdings (holdings_fire w t))
  | pass moment hle => exact h.lodge hw hc (.of_holdings rfl)
  | sit e => exact h.lodge hw hc (.of_holdings (holdings_takeSeat w e _))
  | leave e entry seat he hseat => exact h.lodge hw hc (.of_holdings (holdings_leaveSeat w e seat))
  | receive e o hr => exact h.lodge hw hc (.of_holdings (holdings_receive? hr))

theorem isHoused_new (s : Setting) : IsHoused s.world := by
  have hnone {e : EntryId} {q : QueueId} {folder : Path} : ¬ s.world.MayRun e q folder := by
    rintro ⟨⟨entry, cwd, he, -⟩, -⟩
    exact absurd he (by simp [Setting.world, entryOf?])
  constructor
  · exact fun f hf => absurd hf List.not_mem_nil
  · exact fun f hf => absurd hf List.not_mem_nil
  · exact fun hm => absurd hm hnone

/-- **What may run in a folder is on one queue**, if folders are only added when they are
drained. -/
theorem Driven.isHoused (h : Driven IsDrained w)
    (hhooks : ∀ p ∈ w.history, p.2.isHookRequest = false) : IsHoused w := by
  induction h with
  | new s => exact isHoused_new s
  | @act w h s hs hr hmay ih =>
    have hw := h.reachable.arises
    have hbefore := (hw.lasts_changes (instant_changes w hs)).history
    exact (ih fun p hp => hhooks p (hbefore.subset hp)).step hw hs hr hmay
  | passing h hp ih =>
    have hw := h.reachable.arises
    have hbefore := (hw.lasts_changes hp.transition.changes).history
    exact hp.isHoused (ih fun p hp => hhooks p (hbefore.subset hp)) hw hhooks

end Housing

/-! ## What runs -/

section Running

variable {w : World} {folder : Path}

/-- A story in which a task was started is about the command that was started. -/
theorem eq_command_of_started {id : TaskId} {c c' : Command} {ch : Chapter}
    (h : .started id c' ∈ ch.facts id c) : c' = c := by
  cases ch <;> simp [Chapter.facts] at h <;> exact h

/-- **An execution that runs in a folder is that of an active entry**, which may run there. -/
theorem Arises.exists_mayRun (hw : Arises w) (hl : w.IsLeftToFolders) (hu : w.IsUndisturbed)
    {r : Record} (hr : r ∈ w.backend.unended) (hin : w.RunsIn r.id folder) :
    ∃ e q, w.MayRun e q folder ∧ Occupies w r.id (.inl q) := by
  have ho := hw.isOrderly
  have hn := hw.isNumbered
  obtain ⟨hmem, hend⟩ := List.mem_filter.1 hr
  obtain ⟨j, errand, ex, hat⟩ :=
    (hw.isRecorded hu).awaited r hmem (Option.isNone_iff_eq_none.1 hend)
  have hid := hn.current hat rfl
  obtain ⟨errand', p', hat', hcall, -⟩ := hn.owner hid
  obtain ⟨rfl, rfl⟩ := hat.unique hat'
  -- A record that is not ended is awaited by a job, and all jobs with tasks are those of entries.
  cases errand with
  | execution name command token =>
    obtain ⟨given, hj⟩ := hat
    exact absurd (hl.callers _ (List.mem_of_getElem? hj)) (by simp [Errand.isExecution])
  | reset | watch | reopen => exact absurd hcall (by simp [Errand.isCall])
  | operation e =>
    obtain ⟨entry, he⟩ := hat.exists_entry ho
    have hserves : w.Serves r.id e := ⟨j, _, hid, hat⟩
    obtain ⟨pending, hslot⟩ := hserves.active ho hn (isOn_ledger he) hat rfl
    refine ⟨e, entry.queue, ⟨?_, .inr ⟨r.id, hserves⟩⟩, .queue hserves hslot⟩
    obtain ⟨t, c, cwd, hstarted, hcwd, hsame⟩ := hin
    refine ⟨entry, cwd, he, rfl, ?_, ?_, hsame⟩
    · -- The entry is in the active slot, so its outcome is not known yet.
      obtain ⟨-, -, hstays⟩ := ho.active_spec hslot
      cases hoc : entry.outcome with
      | none => rfl
      | some o =>
        have hresolved := (outcome_iff_resolved ho he).1 hoc
        exact absurd (ho.resolvedGone _ hresolved) hstays
    · -- What was started is the command of the entry.
      have htells : w.Tells r.id entry.operation.command .begun :=
        hw.isChronicled.tells hn (hat.servesAt he) rfl rfl
      have hannals : .started r.id c ∈ w.annals r.id := (mem_annals rfl).2 ⟨t, hstarted⟩
      rw [htells.annals] at hannals
      obtain rfl := eq_command_of_started hannals
      exact hcwd

/-- **At most one execution runs in a folder**, in the middle of a turn as well as between two, when
the workspace is used through its folders, nothing disturbs the executions, and a folder is only
added when what was queued for it before is over. -/
theorem Driven.runsAlone {w' : World} (h : Driven IsDrained w) (hc : Works w w')
    (hl : w'.IsLeftToFolders) (hu : w'.IsUndisturbed) (folder : Path) : w'.RunsAlone folder := by
  have hw := h.reachable.arises
  have hw' := hw.changes hc.changes
  have hbefore := (hw.lasts_changes hc.changes).history
  have hhoused := (h.isHoused fun p hp => hl.hooks p (hbefore.subset hp)).works hw hc hl.hooks
  intro r hr r' hr' hin hin'
  obtain ⟨e, q, hmay, hplace⟩ := hw'.exists_mayRun hl hu hr hin
  obtain ⟨e', q', hmay', hplace'⟩ := hw'.exists_mayRun hl hu hr' hin'
  -- Both are active on the one queue that the folder has, so they are the same.
  obtain rfl := hhoused.one hmay hmay'
  have hid := hplace.unique hw'.isOrderly hw'.isNumbered hplace'
  exact List.inj_on_of_nodup_map (hw'.isRecorded hu).ids (List.mem_filter.1 hr).1
    (List.mem_filter.1 hr').1 hid

/-- A folder is drained when all outcomes are known. -/
theorem isDrained_of_outcomes (h : ∀ entry ∈ w.entries, entry.outcome ≠ none) :
    w.IsDrained folder := by
  refine .inr ?_
  rintro e q ⟨⟨entry, cwd, he, -, hnone, -⟩, -⟩
  exact h entry (List.mem_of_getElem? he) hnone

/-- A folder with an operation that takes its time is removed, and added again when the operation is
over, under another spelling. -/
def readdedWhenDrained : World :=
  let w := (({ fallback := { delay := 10 } } : Setting).world.step (.addFolder ⟨"/w/p"⟩)).1
  let w := ((w.step (.run ⟨"/w/p"⟩ .resolve none "a")).1.takeTurn 0).fire ⟨10, 0⟩
  let w := ((w.takeTurn 0).step (.removeFolder ⟨"/w/p"⟩)).1
  let w := (w.step (.addFolder ⟨"/w//p/"⟩)).1
  (w.step (.run ⟨"/w/p"⟩ .update none "b")).1.takeTurn 1

theorem driven_readdedWhenDrained : Driven IsDrained readdedWhenDrained := by
  have hnew : Driven IsDrained ({ fallback := { delay := 10 } } : Setting).world := .new _
  have hadded := hnew.act (.addFolder ⟨"/w/p"⟩) rfl rfl fun _ _ =>
    isDrained_of_outcomes (by simp [Setting.world])
  have hrunning := (hadded.act (.run ⟨"/w/p"⟩ .resolve none "a") rfl rfl (by simp)).passing
    (.turn 0 (by decide))
  have hover := (hrunning.passing (.fire ⟨10, 0⟩ (by decide))).passing (.turn 0 (by decide))
  have hremoved := hover.act (.removeFolder ⟨"/w/p"⟩) rfl rfl (by simp)
  have hreadded := hremoved.act (.addFolder ⟨"/w//p/"⟩) rfl rfl fun _ _ =>
    isDrained_of_outcomes (by decide)
  exact (hreadded.act (.run ⟨"/w/p"⟩ .update none "b") rfl rfl (by simp)).passing
    (.turn 1 (by decide))

/-- The operation that was queued again runs, and it is the only one. -/
theorem runsAlone_readdedWhenDrained : Driven IsDrained readdedWhenDrained ∧
    readdedWhenDrained.IsLeftToFolders ∧ readdedWhenDrained.IsUndisturbed ∧
      readdedWhenDrained.backend.running = 1 ∧ readdedWhenDrained.RunsIn ⟨2⟩ ⟨"/w/p/."⟩ ∧
        readdedWhenDrained.RunsAlone ⟨"/w/p/."⟩ := by
  have hl : readdedWhenDrained.IsLeftToFolders := ⟨by decide, by decide⟩
  have hu : readdedWhenDrained.IsUndisturbed := ⟨by decide, by decide⟩
  have hin : readdedWhenDrained.RunsIn ⟨2⟩ ⟨"/w/p/."⟩ :=
    ⟨10, PackageAction.update.command .standard ⟨"/w/p"⟩, ⟨"/w/p"⟩, by decide, rfl, by decide⟩
  exact ⟨driven_readdedWhenDrained, hl, hu, by decide, hin,
    driven_readdedWhenDrained.runsAlone .refl hl hu _⟩

/-- A folder with an operation that takes its time is removed while the operation is running, and
added again. -/
def readdedWhileRunning : World :=
  let w := (({ fallback := { delay := 1000 } } : Setting).world.step (.addFolder ⟨"/w/p"⟩)).1
  let w := (w.step (.run ⟨"/w/p"⟩ .resolve none "a")).1.takeTurn 0
  let w := ((w.step (.removeFolder ⟨"/w/p"⟩)).1.step (.addFolder ⟨"/w/p"⟩)).1
  (w.step (.run ⟨"/w/p"⟩ .update none "b")).1.takeTurn 1

theorem driven_readdedWhileRunning : Driven (fun _ _ => True) readdedWhileRunning := by
  have hnew : Driven (fun _ _ => True) ({ fallback := { delay := 1000 } } : Setting).world := .new _
  have hadded := hnew.act (.addFolder ⟨"/w/p"⟩) rfl rfl fun _ _ => trivial
  have hrunning := (hadded.act (.run ⟨"/w/p"⟩ .resolve none "a") rfl rfl (by simp)).passing
    (.turn 0 (by decide))
  have hremoved := hrunning.act (.removeFolder ⟨"/w/p"⟩) rfl rfl (by simp)
  have hreadded := hremoved.act (.addFolder ⟨"/w/p"⟩) rfl rfl fun _ _ => trivial
  exact (hreadded.act (.run ⟨"/w/p"⟩ .update none "b") rfl rfl (by simp)).passing
    (.turn 1 (by decide))

/-- **A folder that is added again while it is busy runs two operations at once.** -/
theorem not_runsAlone_of_readding : ∃ w : World, Driven (fun _ _ => True) w ∧
    w.IsLeftToFolders ∧ w.IsUndisturbed ∧ w.backend.running = 2 ∧ ¬ w.RunsAlone ⟨"/w/p"⟩ := by
  refine ⟨_, driven_readdedWhileRunning, ⟨by decide, by decide⟩, ⟨by decide, by decide⟩,
    by decide, ?_⟩
  intro halone
  have hfirst : readdedWhileRunning.RunsIn ⟨1⟩ ⟨"/w/p"⟩ :=
    ⟨0, PackageAction.resolve.command .standard ⟨"/w/p"⟩, ⟨"/w/p"⟩, by decide, rfl, by decide⟩
  have hsecond : readdedWhileRunning.RunsIn ⟨2⟩ ⟨"/w/p"⟩ :=
    ⟨0, PackageAction.update.command .standard ⟨"/w/p"⟩, ⟨"/w/p"⟩, by decide, rfl, by decide⟩
  have hsame := halone ⟨⟨1⟩, ["package", "resolve"], 0, none, false⟩ (by decide)
    ⟨⟨2⟩, ["package", "update"], 0, none, false⟩ (by decide) hfirst hsecond
  exact absurd hsame (by decide)

end Running

end World

end FolderTasks.Dispatch
