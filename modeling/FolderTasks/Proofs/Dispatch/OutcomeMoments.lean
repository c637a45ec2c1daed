import FolderTasks.Proofs.Dispatch.QueueExclusion
import FolderTasks.Proofs.Dispatch.TurnResults
/-!
# When outcomes get known

That an outcome gets known is the last fact of the change in which it does; so the world in which
it has just got known is one that the run goes through.

## Main definitions

* `World.Resolves`: the last thing that happens is that an outcome gets known.

## Main statements

* `World.Arises.exists_resolving`: the world in which an outcome has just got known.
-/

namespace FolderTasks.Dispatch.World

/-- **The last thing that happens is that an outcome gets known**, and no other gets known before.
-/
def Resolves (w w' : World) (e : EntryId) (o : Outcome) : Prop :=
  ∃ (v : World) (t : Nat), w.history <:+ v.history ∧
    v.seen Happening.resolved? = w.seen Happening.resolved? ∧
    w'.history = (t, .resolved e o) :: v.history

section Resolving

variable {w w' w₁ : World} {j : JobId} {e : EntryId} {o : Outcome} {t : Nat}
variable {newer older : List (Nat × Happening)}

theorem resolves_endJob {entry : Entry} (hhistory : w.history <:+ w₁.history)
    (hseen : w₁.seen Happening.resolved? = w.seen Happening.resolved?)
    (he : w₁.entryOf? e = some entry) (o : Outcome) (j : JobId) :
    w.Resolves ((w₁.resolve e o).endJob j) e o := by
  obtain ⟨v, t, hmild, hresolved⟩ := resolve_history he o
  refine ⟨v, t, hhistory.trans ((List.suffix_cons _ _).trans hmild.history), ?_, hresolved⟩
  have hvacated : (w₁.note (.vacated e)).seen Happening.resolved? =
      w₁.seen Happening.resolved? := seen_note_of_none w₁ rfl
  exact (hmild.seen_eq fun x hx => resolved?_eq_none hx (by simp)).trans (hvacated.trans hseen)

/-- An outcome that is known in the end was known before, or it is the one that got known last. -/
theorem Resolves.split {e' : EntryId} {o' : Outcome} (h : w.Resolves w' e o)
    (hsplit : w'.history = newer ++ (t, .resolved e' o') :: older) :
    newer = [] ∧ e' = e ∧ o' = o ∨
      ∃ newer', w.history = newer' ++ (t, .resolved e' o') :: older := by
  obtain ⟨v, t', hsuffix, hseen, hhistory⟩ := h
  rw [hhistory] at hsplit
  rcases newer with _ | ⟨p, newer⟩
  · obtain ⟨rfl, rfl⟩ := Happening.resolved.inj (Prod.mk.inj (List.cons.inj hsplit).1).2
    exact .inl ⟨rfl, rfl, rfl⟩
  · exact .inr (exists_split_of_suffix hsuffix hseen rfl (List.cons.inj hsplit).2)

/-- Only a job that ends makes an outcome known. -/
theorem Arises.resolves_change (hw : Arises w) (hc : Change w w') :
    w'.seen Happening.resolved? = w.seen Happening.resolved? ∨ ∃ e o, w.Resolves w' e o := by
  have hquiet {O : List Origin} (h : Lasts O w w') (ho : .outcome ∉ O) :
      w'.seen Happening.resolved? = w.seen Happening.resolved? :=
    h.seen_eq fun x hx => resolved?_eq_none hx ho
  cases hc with
  | deed hd => exact .inl (hquiet hd.mild.toLasts (by simp))
  | drift hd => exact .inl (hquiet hd.lasts (by simp))
  | telling ht => exact .inl (hquiet ht.mild.toLasts (by simp))
  | stride hs => exact .inl (hquiet hs.lasts (by simp))
  | closing hc =>
    rcases hc.sorts hw.isOrderly hw.isNumbered with ⟨j, name, command, token, p, -, -, rfl⟩ |
      ⟨j, e, o, p, hat, -, -, rfl⟩ | ⟨w₁, j, -, -, p, hm, -, -, -, rfl⟩
    · exact .inl (hquiet ((lasts_dropExecution (O := []) w _).trans (lasts_setPosition _ j .done))
        (by simp))
    · obtain ⟨entry, he⟩ := hat.exists_entry hw.isOrderly
      exact .inr ⟨e, o, resolves_endJob List.suffix_rfl rfl he o j⟩
    · exact .inl (hquiet (hm.toLasts.trans (lasts_setPosition w₁ j p)) (by simp))

/-- **The world in which an outcome has just got known** is one that the run goes through. -/
theorem Arises.exists_resolving (hw : Arises w)
    (hsplit : w.history = newer ++ (t, .resolved e o) :: older) :
    ∃ v, Arises v ∧ Changes v w ∧ v.history = (t, .resolved e o) :: older := by
  revert newer
  refine hw.induction (P := fun w => ∀ {newer : List (Nat × Happening)},
    w.history = newer ++ (t, .resolved e o) :: older →
    ∃ v, Arises v ∧ Changes v w ∧ v.history = (t, .resolved e o) :: older)
    (fun s => ?_) fun {w w'} hw ih hc => ?_
  · intro newer hsplit
    exact absurd hsplit (by simp [Setting.world])
  · intro newer hsplit
    have hold {newer : List (Nat × Happening)}
        (hsplit : w.history = newer ++ (t, .resolved e o) :: older) :
        ∃ v, Arises v ∧ Changes v w' ∧ v.history = (t, .resolved e o) :: older := by
      obtain ⟨v, hv, hchanges, hhistory⟩ := ih hsplit
      exact ⟨v, hv, hchanges.tail hc, hhistory⟩
    rcases hw.resolves_change hc with hseen | ⟨e', o', hresolves⟩
    · obtain ⟨newer', hsplit'⟩ := exists_split_of_suffix (hw.stage hc).history hseen rfl hsplit
      exact hold hsplit'
    · rcases hresolves.split hsplit with ⟨rfl, -, -⟩ | ⟨newer', hsplit'⟩
      · exact ⟨w', hw.change hc, .refl, hsplit⟩
      · exact hold hsplit'

end Resolving

end FolderTasks.Dispatch.World
