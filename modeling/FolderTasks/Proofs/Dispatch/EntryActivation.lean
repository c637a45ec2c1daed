import FolderTasks.Proofs.Dispatch.QueueProgress
import FolderTasks.Proofs.Dispatch.FactTimes
/-!
# When entries become active

An entry becomes active at the moment at which it is requested, or at a moment at which an entry
before it leaves its slot; and by then all entries before it in its queue have left theirs.

## Main definitions

* `World.Succeeds`: when an entry became active.

## Main statements

* `World.Arises.exists_active`: an entry that waits does so for one that is active.
* `World.Arises.succeeds`: when entries become active.
-/

namespace FolderTasks.Dispatch

/-- Whatever was created before a dispatched entry of its queue has left the slot. -/
theorem Ledger.IsOrderly.vacated_of_lt_dispatched {L : Ledger} (hL : L.IsOrderly) {q : QueueId}
    {e p : EntryId} (he : e ∈ L.dispatched) (hon : L.isOn q e) (hon' : L.isOn q p) (hlt : p < e) :
    p ∈ L.vacated := by
  obtain ⟨active, pending, hslot⟩ := hL.exists_slot hon
  have hp : p ∈ L.created.filter (L.isOn q) := by
    rw [hL.created]
    exact List.mem_filter.2 ⟨List.mem_range.2 (isOn_lt hon'), hon'⟩
  have he : e ∈ L.vacated.filter (L.isOn q) ++ active.toList := by
    rw [← hL.begun hslot]
    exact List.mem_filter.2 ⟨he, hon⟩
  rw [hL.served hslot, List.append_assoc, List.mem_append] at hp
  rcases hp with hp | hp
  · exact (List.mem_filter.1 hp).1
  · -- Nothing that is active or waits comes before an entry that was dispatched.
    have hsorted := hL.pairwise_served hslot
    rcases List.mem_append.1 he with he | he
    · rw [List.append_assoc] at hsorted
      exact absurd hlt (Nat.lt_asymm ((List.pairwise_append.1 hsorted).2.2 e he p hp))
    · obtain rfl := Option.mem_toList.1 he
      rw [List.append_assoc] at hsorted
      rcases List.mem_cons.1 hp with rfl | hp
      · exact absurd hlt (Nat.lt_irrefl _)
      · exact absurd hlt (Nat.lt_asymm
          ((List.pairwise_cons.1 (List.pairwise_append.1 hsorted).2.1).1 p hp))

/-- What waits is what has not been dispatched. -/
theorem Ledger.IsOrderly.mem_pending {L : Ledger} (hL : L.IsOrderly) {q : QueueId} {e : EntryId}
    {active : Option EntryId} {pending : List EntryId}
    (hslot : L.slots[q]? = some (active, pending)) :
    e ∈ pending ↔ L.isOn q e ∧ e ∉ L.dispatched := by
  refine ⟨hL.pending_spec hslot, fun ⟨hon, hwaits⟩ => ?_⟩
  have hmem : e ∈ L.created.filter (L.isOn q) := by
    rw [hL.created]
    exact List.mem_filter.2 ⟨List.mem_range.2 (isOn_lt hon), hon⟩
  rw [hL.served hslot, ← hL.begun hslot, List.mem_append] at hmem
  exact hmem.resolve_left fun hmem => hwaits (List.mem_filter.1 hmem).1

/-- No entry is created twice. -/
theorem Ledger.IsOrderly.nodup_created {L : Ledger} (hL : L.IsOrderly) : L.created.Nodup := by
  rw [hL.created]
  exact List.nodup_range

/-- No entry leaves its slot twice. -/
theorem Ledger.IsOrderly.nodup_vacated {L : Ledger} (hL : L.IsOrderly) : L.vacated.Nodup := by
  rw [List.nodup_iff_count]
  intro e
  by_cases he : e ∈ L.vacated
  · obtain ⟨q, hon⟩ := exists_isOn (hL.known e (hL.gone e he))
    obtain ⟨active, pending, hslot⟩ := hL.exists_slot hon
    have hnodup := hL.nodup_dispatched.filter (L.isOn q)
    rw [hL.begun hslot, List.nodup_append] at hnodup
    have hcount := List.nodup_iff_count.1 hnodup.1 e
    rwa [List.count_filter hon] at hcount
  · rw [List.count_eq_zero_of_not_mem he]
    exact Nat.zero_le 1

namespace World

/-- **When an entry became active.** -/
structure Succeeds (w : World) (e : EntryId) (b : Nat) : Prop where
  requested : ∃ a ≤ b, (a, e) ∈ w.timed Happening.queued?
  /-- All entries before it have left their slots by then. -/
  preceded : ∀ {q : QueueId} {p : EntryId}, w.ledger.isOn q e → w.ledger.isOn q p → p < e →
    ∃ t ≤ b, (t, p) ∈ w.timed Happening.vacated?
  /-- It was requested at that moment, or an entry before it left its slot then. -/
  prompt : (b, e) ∈ w.timed Happening.queued? ∨ ∃ q p, w.ledger.isOn q e ∧ w.ledger.isOn q p ∧
    p < e ∧ (b, p) ∈ w.timed Happening.vacated?

section Succession

variable {w w' : World} {e : EntryId} {b : Nat}

/-! ## Facts and their moments -/

section Moments

variable {α : Type} {f : Happening → Option α} {a : α} {t t' : Nat}

/-- What was seen was seen at some moment. -/
theorem exists_timed (h : a ∈ w.seen f) : ∃ t, (t, a) ∈ w.timed f := by
  rw [← map_snd_timed] at h
  obtain ⟨⟨t, a'⟩, ht, rfl⟩ := List.mem_map.1 h
  exact ⟨t, ht⟩

theorem seen_of_timed (h : (t, a) ∈ w.timed f) : a ∈ w.seen f := by
  rw [← map_snd_timed]
  exact List.mem_map_of_mem h

/-- What is seen once has one moment. -/
theorem timed_unique (hnodup : (w.seen f).Nodup) (h : (t, a) ∈ w.timed f)
    (h' : (t', a) ∈ w.timed f) : t = t' := by
  rw [← map_snd_timed] at hnodup
  exact (Prod.mk.inj (List.inj_on_of_nodup_map hnodup h h' rfl)).1

theorem timed_forth (hs : w.history <:+ w'.history) (h : (t, a) ∈ w.timed f) :
    (t, a) ∈ w'.timed f := by
  obtain ⟨x, hx, hf⟩ := mem_timed.1 h
  exact mem_timed.2 ⟨x, hs.subset hx, hf⟩

/-- What is seen now and was not seen before carries this moment. -/
theorem Stamps.timed_of_new (hs : Stamps w w') (hnew : a ∉ w.seen f) (h : a ∈ w'.seen f) :
    (w.clock, a) ∈ w'.timed f := by
  obtain ⟨t, ht⟩ := exists_timed h
  obtain ⟨x, hx, hf⟩ := mem_timed.1 ht
  rcases hs.mem_history hx with heq | hold
  · exact heq ▸ ht
  · exact absurd (mem_seen.2 ⟨_, hold, hf⟩) hnew

/-- When something new is seen the clock stands still. -/
theorem Transition.stamps_of_new (t : Transition w w') (hnew : a ∉ w.seen f) (h : a ∈ w'.seen f) :
    Stamps w w' := by
  refine t.sorts_stamps.resolve_right fun he => hnew ?_
  rwa [seen, he.history] at h

end Moments

theorem Changes.clock_le (hc : Changes w w') : w.clock ≤ w'.clock := by
  induction hc with
  | refl => exact Nat.le_refl _
  | tail _ hlast ih =>
    rcases hlast.stamps with hs | he
    · exact hs.clock.symm ▸ ih
    · exact Nat.le_trans ih he.clock

/-- What happens later has a later moment. -/
theorem Changes.le_of_new (hc : Changes w w') {p : Nat × Happening} (hnew : p ∉ w.history)
    (hp : p ∈ w'.history) : w.clock ≤ p.1 := by
  induction hc with
  | refl => exact absurd hp hnew
  | @tail w₁ w₂ hc hlast ih =>
    by_cases hold : p ∈ w₁.history
    · exact ih hold
    · rcases hlast.stamps with hs | he
      · rw [(hs.mem_history hp).resolve_right hold]
        exact Changes.clock_le hc
      · exact absurd (he.history ▸ hp) hold

theorem Changes.le_of_unseen (hc : Changes w w') {α : Type} {f : Happening → Option α} {t : Nat}
    {a : α} (hnew : a ∉ w.seen f) (h : (t, a) ∈ w'.timed f) : w.clock ≤ t := by
  obtain ⟨x, hx, hf⟩ := mem_timed.1 h
  exact Changes.le_of_new hc (fun hold => hnew (mem_seen.2 ⟨_, hold, hf⟩)) hx

theorem Arises.timed_le (hw : Arises w) {α : Type} {f : Happening → Option α} {t : Nat} {a : α}
    (h : (t, a) ∈ w.timed f) : t ≤ w.clock := by
  obtain ⟨x, hx, -⟩ := mem_timed.1 h
  exact hw.le_clock _ hx

/-! ## Becoming active -/

/-- A known entry belongs where it belonged. -/
theorem Arises.isOn_iff (hw : Arises w) (hc : Changes w w') (he : e < w.ledger.owners.length)
    (q : QueueId) : w'.ledger.isOn q e ↔ w.ledger.isOn q e := by
  obtain ⟨more, hmore⟩ := hw.owners_isPrefix hc
  rw [Ledger.isOn, Ledger.isOn, ← hmore, List.getElem?_append_left he]

theorem Succeeds.forth (h : w.Succeeds e b) (hw : Arises w) (hc : Changes w w')
    (he : e < w.ledger.owners.length) : w'.Succeeds e b := by
  have hhistory := (hw.lasts_changes hc).history
  refine ⟨?_, fun {q p} hon hon' hlt => ?_, ?_⟩
  · obtain ⟨a, hle, ha⟩ := h.requested
    exact ⟨a, hle, timed_forth hhistory ha⟩
  · obtain ⟨t, hle, ht⟩ := h.preceded ((hw.isOn_iff hc he q).1 hon)
      ((hw.isOn_iff hc (Nat.lt_trans hlt he) q).1 hon') hlt
    exact ⟨t, hle, timed_forth hhistory ht⟩
  · rcases h.prompt with hnow | ⟨q, p, hon, hon', hlt, hp⟩
    · exact .inl (timed_forth hhistory hnow)
    · exact .inr ⟨q, p, (hw.isOn_iff hc he q).2 hon,
        (hw.isOn_iff hc (Nat.lt_trans hlt he) q).2 hon', hlt, timed_forth hhistory hp⟩

/-- **An entry waits for another one** of its queue, which is active. -/
theorem Arises.exists_active (hw : Arises w) {q : QueueId} (hon : w.ledger.isOn q e)
    (hwaits : e ∉ w.ledger.dispatched) :
    ∃ p, w.ledger.isOn q p ∧ p < e ∧ p ∈ w.ledger.dispatched ∧ p ∉ w.ledger.vacated := by
  have ho := hw.isOrderly
  obtain ⟨active, pending, hslot⟩ := ho.exists_slot hon
  have hpending : e ∈ pending := (ho.mem_pending hslot).2 ⟨hon, hwaits⟩
  cases active with
  | none =>
    rw [hw.isAdvanced q pending hslot] at hpending
    exact absurd hpending List.not_mem_nil
  | some p =>
    obtain ⟨honp, hdispatched, hstays⟩ := ho.active_spec hslot
    have hsorted := ho.pairwise_served hslot
    exact ⟨p, honp, (List.pairwise_append.1 hsorted).2.2 p (by simp) e hpending, hdispatched,
      hstays⟩

/-- An entry that becomes active in a change. -/
theorem Arises.succeeds_new (hw : Arises w) (hc : Change w w') (hs : Stamps w w')
    (hnew : e ∉ w.ledger.dispatched) (h : e ∈ w'.ledger.dispatched) : w'.Succeeds e w.clock := by
  have hw' := hw.change hc
  have ho' := hw'.isOrderly
  have hlt := ho'.known e h
  have hpreceded {q : QueueId} {p : EntryId} (hon : w'.ledger.isOn q e)
      (hon' : w'.ledger.isOn q p) (hp : p < e) : p ∈ w'.seen Happening.vacated? :=
    ho'.vacated_of_lt_dispatched h hon hon' hp
  have hcreated : e ∈ w'.seen Happening.queued? := by
    have hmem : e ∈ w'.ledger.created := by
      rw [ho'.created]
      exact List.mem_range.2 hlt
    exact hmem
  refine ⟨?_, fun {q p} hon hon' hp => ?_, ?_⟩
  · obtain ⟨a, ha⟩ := exists_timed hcreated
    exact ⟨a, hs.clock ▸ hw'.timed_le ha, ha⟩
  · obtain ⟨t, ht⟩ := exists_timed (hpreceded hon hon' hp)
    exact ⟨t, hs.clock ▸ hw'.timed_le ht, ht⟩
  · by_cases hknown : e < w.ledger.owners.length
    · -- The entry waited, so another one was active, which has left its slot in this change.
      obtain ⟨q, hon⟩ := Ledger.IsOrderly.exists_isOn hknown
      obtain ⟨p, honp, hplt, -, hstays⟩ := hw.exists_active hon hnew
      have hon' := (hw.isOn_iff (.single hc) hknown q).2 hon
      have honp' := (hw.isOn_iff (.single hc) (Nat.lt_trans hplt hknown) q).2 honp
      exact .inr ⟨q, p, hon', honp', hplt, hs.timed_of_new hstays (hpreceded hon' honp' hplt)⟩
    · refine .inl (hs.timed_of_new (fun hmem => hknown ?_) hcreated)
      have hmem : e ∈ w.ledger.created := hmem
      rw [hw.isOrderly.created] at hmem
      exact List.mem_range.1 hmem

/-- **When entries become active**: as soon as they are requested and all entries before them have
left their slots. -/
theorem Arises.succeeds (hw : Arises w) (h : (b, e) ∈ w.timed Happening.dispatched?) :
    w.Succeeds e b := by
  revert b e
  refine hw.induction (P := fun w => ∀ {e : EntryId} {b : Nat},
    (b, e) ∈ w.timed Happening.dispatched? → w.Succeeds e b) ?_ ?_
  · intro s e b h
    exact absurd h List.not_mem_nil
  · intro w w' hw ih hc e b h
    by_cases hold : e ∈ w.ledger.dispatched
    · obtain ⟨t, ht⟩ := exists_timed hold
      obtain rfl := timed_unique (hw.change hc).isOrderly.nodup_dispatched h
        (timed_forth (hw.lasts hc).history ht)
      exact (ih ht).forth hw (.single hc) (hw.isOrderly.known e hold)
    · have hnew := seen_of_timed h
      rcases hc.stamps with hs | he
      · obtain rfl := timed_unique (hw.change hc).isOrderly.nodup_dispatched h
          (hs.timed_of_new hold hnew)
        exact hw.succeeds_new hc hs hold hnew
      · rw [timed_of_history he.history] at h
        exact absurd (seen_of_timed h) hold

end Succession

end World

end FolderTasks.Dispatch
