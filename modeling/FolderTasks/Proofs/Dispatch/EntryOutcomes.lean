import FolderTasks.Proofs.Dispatch.QueueExclusion
import FolderTasks.Proofs.Dispatch.StartHandover
/-!
# What outcomes are made of

An entry for which a callback panicked is terminated, and that in the same turn; any other entry
that has an outcome has the one that its call came to.

## Main definitions

* `World.PanickedFor`: a callback panicked that was made for an entry.
* `World.IsJudged`: outcomes are those of panics and of calls.

## Main statements

* `World.Reachable.isJudged`: outcomes are those of panics and of calls, between any two turns.
-/

namespace FolderTasks.Dispatch.World

/-- A fact is the panic of a callback that was made for an entry: of the reporter for the entry
itself, or of an observer for a task that serves it. -/
def IsPanicFor (w : World) (e : EntryId) (x : Happening) : Prop :=
  (∃ status, x = .reporterPanicked e status) ∨
    ∃ kind id, x = .observerPanicked kind id ∧ w.Serves id e

/-- **A callback panicked that was made for an entry.** -/
def PanickedFor (w : World) (e : EntryId) : Prop := ∃ x ∈ w.verdicts, w.IsPanicFor e x

/-- **Outcomes are those of panics and of calls.** -/
structure IsJudged (w : World) : Prop where
  known : ∀ {kind : NoticeKind} {id : TaskId}, .observerPanicked kind id ∈ w.verdicts →
    ∃ j, (id, j) ∈ w.account.numbered
  terminated : ∀ {e : EntryId}, w.PanickedFor e → .resolved e .terminated ∈ w.verdicts
  judged : ∀ {e : EntryId} {o : Outcome}, .resolved e o ∈ w.verdicts → ¬ w.PanickedFor e →
    ∃ call p result, w.ServesAt call (.operation e) p ∧ p ≠ .fresh ∧ w.Told call result ∧
      o = .ofResult result

section Judging

variable {O : List Origin} {w w' : World} {j : JobId} {e : EntryId} {id : TaskId}

/-! ## Tasks and the entries that they serve -/

theorem Arises.serves_forth (hw : Arises w) (hc : Changes w w') (h : w.Serves id e) :
    w'.Serves id e := by
  obtain ⟨j, p, hid, hat⟩ := h
  obtain ⟨p', hat'⟩ := hw.at_forth hc hat
  exact ⟨j, p', (hw.numbered_isPrefix hc).subset hid, hat'⟩

/-- A task that has a number serves the entry that it will ever serve. -/
theorem Arises.serves_back (hw : Arises w) (hc : Changes w w') (hid : (id, j) ∈ w.account.numbered)
    (h : w'.Serves id e) : w.Serves id e := by
  obtain ⟨j', p', hid', hat'⟩ := h
  -- The number is with one job, and a job keeps its errand.
  obtain rfl := (hw.changes hc).isNumbered.job_unique ((hw.numbered_isPrefix hc).subset hid) hid'
  obtain ⟨errand, p, hat, -⟩ := hw.isNumbered.owner hid
  obtain ⟨p'', hat''⟩ := hw.at_forth hc hat
  exact ⟨j, p, hid, (hat''.unique hat').1 ▸ hat⟩

/-- A job that has begun to serve a call goes on serving it. -/
theorem Arises.servesAt_forth (hw : Arises w) (hc : Changes w w') {call : Call} {errand : Errand}
    {p : Position} (h : w.ServesAt call errand p) (hp : p ≠ .fresh) :
    ∃ p', w'.ServesAt call errand p' ∧ p' ≠ .fresh := by
  obtain ⟨p', hat', hp'⟩ := hw.begun_forth hc h.1 hp
  exact ⟨p', ⟨hat', (hw.lasts_changes hc).callOf? h.2⟩, hp'⟩

/-! ## Panics -/

theorem IsPanicFor.forth {x : Happening} (h : w.IsPanicFor e x) (hw : Arises w)
    (hc : Changes w w') : w'.IsPanicFor e x := by
  rcases h with hreporter | ⟨kind, id, rfl, hserves⟩
  · exact .inl hreporter
  · exact .inr ⟨kind, id, rfl, hw.serves_forth hc hserves⟩

theorem IsPanicFor.back {x : Happening} (h : w'.IsPanicFor e x) (hw : Arises w)
    (hc : Changes w w') (hj : IsJudged w) (hx : x ∈ w.verdicts) : w.IsPanicFor e x := by
  rcases h with hreporter | ⟨kind, id, rfl, hserves⟩
  · exact .inl hreporter
  · obtain ⟨j, hid⟩ := hj.known hx
    exact .inr ⟨kind, id, rfl, hw.serves_back hc hid hserves⟩

/-- What a job is blamed for is a panic for its entry. -/
theorem Blames.isPanicFor {x : Happening} {p : Position} (hx : w.Blames j e x)
    (hat : w.At j (.operation e) p) : w.IsPanicFor e x := by
  cases hx with
  | reporter status => exact .inl ⟨status, rfl⟩
  | observer kind hid => exact .inr ⟨kind, _, rfl, j, p, hid, hat⟩

/-- A panic is that of one entry. -/
theorem IsPanicFor.unique {x : Happening} {e' : EntryId} (h : w.IsPanicFor e x)
    (hn : IsNumbered w) (h' : w.IsPanicFor e' x) : e' = e := by
  -- The reporter is told of an entry by name, and a task serves one entry only.
  rcases h with ⟨status, rfl⟩ | ⟨kind, id, rfl, hserves⟩
  · rcases h' with ⟨status', heq⟩ | ⟨kind', id', heq, -⟩
    · exact (Happening.reporterPanicked.inj heq).1.symm
    · exact absurd heq (by simp)
  · rcases h' with ⟨status', heq⟩ | ⟨kind', id', heq, hserves'⟩
    · exact absurd heq (by simp)
    · obtain ⟨-, rfl⟩ := Happening.observerPanicked.inj heq
      exact hserves'.unique hn hserves

/-! ## What a change adds -/

/-- Outcomes stay those of panics and of calls if those that are added are. -/
theorem IsJudged.add (h : IsJudged w) (hw : Arises w) (hc : Changes w w') {facts : List Happening}
    (hv : w'.verdicts = w.verdicts ++ facts)
    (hknown : ∀ {kind : NoticeKind} {id : TaskId}, .observerPanicked kind id ∈ facts →
      ∃ j, (id, j) ∈ w'.account.numbered)
    (hterminated : ∀ {e : EntryId} {x : Happening}, x ∈ facts → w'.IsPanicFor e x →
      .resolved e .terminated ∈ facts)
    (hjudged : ∀ {e : EntryId} {o : Outcome}, .resolved e o ∈ facts → ¬ w'.PanickedFor e →
      ∃ call p result, w'.ServesAt call (.operation e) p ∧ p ≠ .fresh ∧ w'.Told call result ∧
        o = .ofResult result) : IsJudged w' where
  known {kind id} hx := by
    rw [hv, List.mem_append] at hx
    rcases hx with hx | hx
    · obtain ⟨j, hid⟩ := h.known hx
      exact ⟨j, (hw.numbered_isPrefix hc).subset hid⟩
    · exact hknown hx
  terminated {e} hpanicked := by
    obtain ⟨x, hx, hpanic⟩ := hpanicked
    rw [hv, List.mem_append] at hx ⊢
    rcases hx with hx | hx
    · exact .inl (h.terminated ⟨x, hx, hpanic.back hw hc h hx⟩)
    · exact .inr (hterminated hx hpanic)
  judged {e o} hresolved hcalm := by
    rw [hv, List.mem_append] at hresolved
    -- An old outcome needs that nobody panicked for its entry before, which is so if nobody ever
    -- did.
    rcases hresolved with hold | hnew
    · have hbefore : ¬ w.PanickedFor e := by
        rintro ⟨x, hx, hpanic⟩
        exact hcalm ⟨x, hv ▸ List.mem_append_left _ hx, hpanic.forth hw hc⟩
      obtain ⟨call, p, result, hserves, hp, htold, rfl⟩ := h.judged hold hbefore
      obtain ⟨p', hserves', hp'⟩ := hw.servesAt_forth hc hserves hp
      exact ⟨call, p', result, hserves', hp', htold.changes hw hc ⟨_, p, hserves.1, hp⟩, rfl⟩
    · exact hjudged hnew hcalm

theorem IsJudged.quiet (h : IsJudged w) (hw : Arises w) (hc : Changes w w')
    (hv : w'.verdicts = w.verdicts) : IsJudged w' :=
  h.add hw hc (hv.trans (List.append_nil _).symm) (fun hx => absurd hx List.not_mem_nil)
    (fun hx => absurd hx List.not_mem_nil) fun hx => absurd hx List.not_mem_nil

/-- What is decided in a turn is a panic, with the outcome that follows from it, or the result of a
call. -/
theorem IsJudged.decides (h : IsJudged w) (hw : Arises w) (hc : Changes w w')
    (hd : Decides w w' j) : IsJudged w' := by
  have hn' := (hw.changes hc).isNumbered
  cases hd with
  | nothing hv => exact h.quiet hw hc hv
  | @brokenOff name command token p kind id hat hid hv =>
    refine h.add hw hc hv ?_ ?_ ?_
    · intro kind' id' hx
      obtain ⟨-, rfl⟩ := Happening.observerPanicked.inj (List.mem_singleton.1 hx)
      exact ⟨j, hid⟩
    · -- The job serves no entry.
      rintro e x hx (⟨status, rfl⟩ | ⟨kind', id', rfl, j', p', hid', hat'⟩)
      · exact absurd hx (by simp)
      · obtain ⟨-, rfl⟩ := Happening.observerPanicked.inj (List.mem_singleton.1 hx)
        obtain rfl := hn'.job_unique hid hid'
        obtain ⟨p'', hat''⟩ := hw.at_forth hc hat
        exact absurd (hat''.unique hat').1 (by simp)
    · intro e o hx
      exact absurd hx (by simp)
  | @panicked e p x hat hp hx hv =>
    obtain ⟨p', hat'⟩ := hw.at_forth hc hat
    have hpanic := hx.isPanicFor hat'
    refine h.add hw hc hv ?_ ?_ ?_
    · intro kind id hmem
      cases hx with
      | reporter status => exact absurd hmem (by simp)
      | observer kind' hid =>
        obtain ⟨-, rfl⟩ := Happening.observerPanicked.inj
          ((List.mem_cons.1 hmem).resolve_right (by simp))
        exact ⟨j, hid⟩
    · intro e' x' hmem hpanic'
      rcases List.mem_cons.1 hmem with rfl | hmem
      · obtain rfl := hpanic.unique hn' hpanic'
        exact List.mem_cons_of_mem _ List.mem_cons_self
      · obtain rfl := List.mem_singleton.1 hmem
        rcases hpanic' with ⟨status, heq⟩ | ⟨kind, id, heq, -⟩
        · exact absurd heq (by simp)
        · exact absurd heq (by simp)
    · intro e' o hmem hcalm
      have hresolved : .resolved e' o = Happening.resolved e .terminated := by
        cases hx with
        | reporter | observer => simpa using hmem
      obtain ⟨rfl, rfl⟩ := Happening.resolved.inj hresolved
      exact absurd ⟨x, hv ▸ List.mem_append_right _ List.mem_cons_self, hpanic⟩ hcalm
  | @concluded call e p result hserves hjob hp hend htold hv =>
    refine h.add hw hc hv ?_ ?_ ?_
    · intro kind id hmem
      exact absurd hmem (by simp)
    · rintro e' x hmem (⟨status, rfl⟩ | ⟨kind, id, rfl, -⟩)
      · exact absurd hmem (by simp)
      · exact absurd hmem (by simp)
    · intro e' o hmem _
      obtain ⟨rfl, rfl⟩ := Happening.resolved.inj (List.mem_singleton.1 hmem)
      have hcall := (hw.lasts_changes hc).callOf? hserves.2
      exact ⟨call, .done, result, ⟨hjob ▸ hend, hcall⟩, by simp, htold, rfl⟩

/-- **Outcomes are those of panics and of calls**, between any two turns. -/
theorem Reachable.isJudged (hw : Reachable w) : IsJudged w := by
  -- Within a turn a panic may be written down whose outcome is not: the induction goes turn by
  -- turn.
  induction hw with
  | new s =>
    have hnone {x : Happening} : x ∉ s.world.verdicts := List.not_mem_nil
    exact ⟨fun hx => absurd hx hnone, fun ⟨_, hx, _⟩ => absurd hx hnone,
      fun hx => absurd hx hnone⟩
  | next hw t ih =>
    rcases t.sorts with hm | ⟨j, hj, rfl⟩
    · exact ih.quiet hw.arises t.changes (hm.verdicts_eq (by simp) (by simp))
    · -- That the turn is taken decides nothing.
      have htaken := (Drift.turnTaken j hj).changes
      have harises := hw.arises.changes htaken
      exact (ih.quiet hw.arises htaken rfl).decides harises (turn_works _ j).changes
        (harises.turned j).decides

end Judging

end FolderTasks.Dispatch.World
