import FolderTasks.Proofs.Dispatch.LastingFacts
/-!
# Starts come one at a time and in order

A job that has a task number and has not started its command holds the right to start or stands in
the line for it, and the line is in the order of the numbers.  One job alone is starting, and it is
the one that holds the right.  So the start requests, the records and the announcements of starts
all come in the order of the task numbers.

## Main definitions

* `StartGuard.standing`: the one who has the right to start and those who wait for it.
* `World.IsLined`: who stands there, and in which order.

## Main statements

* `World.Arises.isLined`: whatever happens, the line is in order.
-/

namespace FolderTasks

namespace Scripted

theorem map_id_finishRecord {now : Nat} {id : TaskId} {terminated : Bool}
    {records records' : List Record} (h : finishRecord now id terminated records = some records') :
    records'.map Record.id = records.map Record.id := by
  induction records generalizing records' with
  | nil => exact absurd h (by simp [finishRecord])
  | cons r records ih =>
    rw [finishRecord] at h
    split at h
    · obtain rfl := Option.some.inj h
      rfl
    · obtain ⟨rest, hrest, rfl⟩ := Option.map_eq_some_iff.1 h
      rw [List.map_cons, List.map_cons, ih hrest]

/-- An execution that ends leaves the record where it is. -/
theorem map_id_finish (b : Scripted) (now : Nat) (id : TaskId) (terminated : Bool) :
    (b.finish now id terminated).records.map Record.id = b.records.map Record.id := by
  unfold finish
  split
  · rfl
  · next records h => exact map_id_finishRecord h

end Scripted

namespace Dispatch

/-- The task whose start is announced. -/
def Happening.startAnnounced? : Happening → Option TaskId
  | .startAnnounced id _ => some id
  | _ => none

/-- Does a job with a number stand where it has the right to start or waits for it? -/
def Position.isBeforeStart : Position → Bool
  | .inLine _ | .starting _ => true
  | .fresh | .running _ _ | .telling | .awaiting _ _ | .done => false

namespace StartGuard

/-- The one who has the right to start, and those who wait for it, in order. -/
def standing (g : StartGuard) : List JobId := g.holder.toList ++ g.line

/-- The right to start without a job, which may have it or wait for it. -/
def without (g : StartGuard) (j : JobId) : StartGuard :=
  if g.holder = some j then g.passOn else { g with line := g.line.filter (· != j) }

variable {g : StartGuard} {i j : JobId}

@[simp] theorem standing_passOn (g : StartGuard) : g.passOn.standing = g.line := by
  cases h : g.line with
  | nil => simp [standing, passOn, h]
  | cons k line => simp [standing, passOn, h]

theorem without_of_holder (h : g.holder = some j) : g.without j = g.passOn := if_pos h

theorem without_of_ne (h : g.holder ≠ some j) :
    g.without j = { g with line := g.line.filter (· != j) } := if_neg h

theorem standing_of_holder (h : g.holder = some j) : g.standing = j :: g.line := by
  rw [standing, h]
  rfl

theorem standing_without_sublist (g : StartGuard) (j : JobId) :
    (g.without j).standing.Sublist g.standing := by
  unfold without
  split
  · rw [standing_passOn]
    exact List.sublist_append_right _ _
  · exact List.Sublist.append_left List.filter_sublist _

/-- Whoever else stands there still does. -/
theorem mem_standing_without (h : i ∈ g.standing) (hne : i ≠ j) : i ∈ (g.without j).standing := by
  unfold without
  split
  · next hholder =>
    rw [standing_passOn]
    rw [standing_of_holder hholder] at h
    exact (List.mem_cons.1 h).resolve_left hne
  · rcases List.mem_append.1 h with h | h
    · exact List.mem_append_left _ h
    · exact List.mem_append_right _ (List.mem_filter.2 ⟨h, by simpa using hne⟩)

theorem mem_line_without (h : i ∈ (g.without j).line) : i ∈ g.line := by
  unfold without at h
  split at h
  · exact List.mem_of_mem_tail h
  · exact (List.mem_filter.1 h).1

end StartGuard

namespace World

/-- A job takes part in an execution with a number. -/
def TakesPart (w : World) (j : JobId) (id : TaskId) : Prop :=
  ∃ errand p, w.At j errand p ∧ p.id? = some id

/-- One job has a smaller number than another. -/
def GoesBefore (w : World) (i j : JobId) : Prop :=
  ∀ {id id' : TaskId}, w.TakesPart i id → w.TakesPart j id' → id.number < id'.number

/-- **The line for the right to start is in order**, and so is what comes of it. -/
structure IsLined (w : World) : Prop where
  /-- Nobody waits when nobody has the right to start. -/
  free : w.manager.guard.holder = none → w.manager.guard.line = []
  holding : ∀ {j : JobId}, w.manager.guard.holder = some j →
    ∃ errand id, w.At j errand (.inLine id) ∨ w.At j errand (.starting id)
  waiting : ∀ {j : JobId}, j ∈ w.manager.guard.line → ∃ errand id, w.At j errand (.inLine id)
  starting : ∀ {j : JobId} {errand : Errand} {id : TaskId}, w.At j errand (.starting id) →
    w.manager.guard.holder = some j
  inLine : ∀ {j : JobId} {errand : Errand} {id : TaskId}, w.At j errand (.inLine id) →
    j ∈ w.manager.guard.standing
  order : w.manager.guard.standing.Pairwise w.GoesBefore
  /-- The backend is asked in the order of the numbers. -/
  asked : w.account.asked.Pairwise fun id id' => id.number < id'.number
  askedFirst : ∀ {j : JobId} {errand : Errand} {id id' : TaskId}, id ∈ w.account.asked →
    w.At j errand (.inLine id') → id.number < id'.number
  /-- The backend records what it was asked to start, in the same order. -/
  recorded : (w.account.records.map Record.id).Sublist w.account.asked
  unrecorded : ∀ {j : JobId} {errand : Errand} {id : TaskId}, w.At j errand (.starting id) →
    (w.account.records.map Record.id ++ [id]).Sublist w.account.asked
  announced : w.seen Happening.startAnnounced? = w.account.records.map Record.id

/-! ## Who stands in the line -/

section Standing

variable {w w' : World}

theorem TakesPart.unique {j : JobId} {errand : Errand} {p : Position} {id : TaskId}
    (h : w.TakesPart j id) (hat : w.At j errand p) : p.id? = some id := by
  obtain ⟨errand', p', hat', hid⟩ := h
  rwa [(hat.unique hat').2]

namespace IsLined

theorem takesPart (h : IsLined w) {j : JobId} (hj : j ∈ w.manager.guard.standing) :
    ∃ id, w.TakesPart j id := by
  rcases List.mem_append.1 hj with hj | hj
  · obtain ⟨errand, id, hat | hat⟩ := h.holding (Option.mem_toList.1 hj)
    · exact ⟨id, errand, _, hat, rfl⟩
    · exact ⟨id, errand, _, hat, rfl⟩
  · obtain ⟨errand, id, hat⟩ := h.waiting hj
    exact ⟨id, errand, _, hat, rfl⟩

/-- Nobody stands in the line twice. -/
theorem nodup (h : IsLined w) : w.manager.guard.standing.Nodup := by
  refine List.Pairwise.imp_of_mem ?_ h.order
  rintro i j hi hj hgoes rfl
  obtain ⟨id, hid⟩ := h.takesPart hi
  exact Nat.lt_irrefl _ (hgoes hid hid)

/-- The one who has the right to start does not wait for it. -/
theorem not_mem_line (h : IsLined w) {j : JobId} (hj : w.manager.guard.holder = some j) :
    j ∉ w.manager.guard.line := by
  have hnodup := h.nodup
  rw [StartGuard.standing_of_holder hj] at hnodup
  exact (List.nodup_cons.1 hnodup).1

/-- One job alone is starting. -/
theorem starting_unique (h : IsLined w) {i j : JobId} {errand errand' : Errand} {id id' : TaskId}
    (hi : w.At i errand (.starting id)) (hj : w.At j errand' (.starting id')) : i = j :=
  Option.some.inj ((h.starting hi).symm.trans (h.starting hj))

end IsLined

end Standing

/-! ## How the line changes -/

namespace IsLined

variable {w w' : World} (h : IsLined w)

include h

/-- A change that leaves the right to start alone, and those who have it or want it. -/
theorem kept (hguard : w'.manager.guard = w.manager.guard)
    (hasked : w'.account.asked = w.account.asked)
    (hrecords : w'.account.records.map Record.id = w.account.records.map Record.id)
    (hannounced : w'.seen Happening.startAnnounced? = w.seen Happening.startAnnounced?)
    (hforth : ∀ {j : JobId} {errand : Errand} {p : Position} {id : TaskId}, w.At j errand p →
      p = .inLine id ∨ p = .starting id → w'.At j errand p)
    (hback : ∀ {j : JobId} {errand : Errand} {p : Position} {id : TaskId}, w'.At j errand p →
      p.id? = some id → w.At j errand p) : IsLined w' where
  free := by
    rw [hguard]
    exact h.free
  holding {j} hj := by
    rw [hguard] at hj
    obtain ⟨errand, id, hat | hat⟩ := h.holding hj
    · exact ⟨errand, id, .inl (hforth hat (.inl rfl))⟩
    · exact ⟨errand, id, .inr (hforth hat (.inr rfl))⟩
  waiting {j} hj := by
    rw [hguard] at hj
    obtain ⟨errand, id, hat⟩ := h.waiting hj
    exact ⟨errand, id, hforth hat (.inl rfl)⟩
  starting hat := by
    rw [hguard]
    exact h.starting (hback hat rfl)
  inLine hat := by
    rw [hguard]
    exact h.inLine (hback hat rfl)
  order := by
    rw [hguard]
    refine h.order.imp ?_
    intro i j hgoes id id' hi hj
    obtain ⟨errand, p, hat, hid⟩ := hi
    obtain ⟨errand', p', hat', hid'⟩ := hj
    exact hgoes ⟨errand, p, hback hat hid, hid⟩ ⟨errand', p', hback hat' hid', hid'⟩
  asked := by
    rw [hasked]
    exact h.asked
  askedFirst hid hat := by
    rw [hasked] at hid
    exact h.askedFirst hid (hback hat rfl)
  recorded := by
    rw [hasked, hrecords]
    exact h.recorded
  unrecorded hat := by
    rw [hasked, hrecords]
    exact h.unrecorded (hback hat rfl)
  announced := by rw [hannounced, hrecords, h.announced]

/-- A job leaves the line, or passes on the right to start. -/
theorem leave {j : JobId} (hguard : w'.manager.guard = w.manager.guard.without j)
    (hasked : w'.account.asked = w.account.asked)
    (hrecorded : (w'.account.records.map Record.id).Sublist w.account.asked)
    (hunrecorded : w.manager.guard.holder = some j ∨
      w'.account.records.map Record.id = w.account.records.map Record.id)
    (hannounced : w'.seen Happening.startAnnounced? = w'.account.records.map Record.id)
    (hforth : ∀ {i : JobId} {errand : Errand} {p : Position}, i ≠ j → w.At i errand p →
      w'.At i errand p)
    (hback : ∀ {i : JobId} {errand : Errand} {p : Position} {id : TaskId}, w'.At i errand p →
      p.id? = some id → w.TakesPart i id ∧ (p = .inLine id ∨ p = .starting id →
        i ≠ j ∧ w.At i errand p)) : IsLined w' where
  free := by
    rw [hguard]
    intro hnone
    -- If the job had the right to start, the first in the line has it now.
    by_cases hj : w.manager.guard.holder = some j
    · rw [StartGuard.without_of_holder hj] at hnone ⊢
      rw [StartGuard.passOn, List.head?_eq_none_iff] at hnone
      simp [StartGuard.passOn, hnone]
    · rw [StartGuard.without_of_ne hj] at hnone ⊢
      simp [h.free hnone]
  holding {i} hi := by
    rw [hguard] at hi
    by_cases hj : w.manager.guard.holder = some j
    · rw [StartGuard.without_of_holder hj] at hi
      have hmem : i ∈ w.manager.guard.line := List.mem_of_head? hi
      obtain ⟨errand, id, hat⟩ := h.waiting hmem
      refine ⟨errand, id, .inl (hforth ?_ hat)⟩
      rintro rfl
      exact h.not_mem_line hj hmem
    · rw [StartGuard.without_of_ne hj] at hi
      have hne : i ≠ j := by
        rintro rfl
        exact hj hi
      obtain ⟨errand, id, hat | hat⟩ := h.holding hi
      · exact ⟨errand, id, .inl (hforth hne hat)⟩
      · exact ⟨errand, id, .inr (hforth hne hat)⟩
  waiting {i} hi := by
    rw [hguard] at hi
    have hmem := StartGuard.mem_line_without hi
    obtain ⟨errand, id, hat⟩ := h.waiting hmem
    refine ⟨errand, id, hforth ?_ hat⟩
    rintro rfl
    by_cases hj : w.manager.guard.holder = some i
    · exact h.not_mem_line hj hmem
    · rw [StartGuard.without_of_ne hj] at hi
      exact absurd (List.mem_filter.1 hi).2 (by simp)
  starting hat := by
    obtain ⟨hne, hat'⟩ := (hback hat rfl).2 (.inr rfl)
    have hholder := h.starting hat'
    rw [hguard, StartGuard.without_of_ne]
    · exact hholder
    · intro hj
      exact hne (Option.some.inj (hholder.symm.trans hj))
  inLine hat := by
    obtain ⟨hne, hat'⟩ := (hback hat rfl).2 (.inl rfl)
    rw [hguard]
    exact StartGuard.mem_standing_without (h.inLine hat') hne
  order := by
    rw [hguard]
    refine (h.order.sublist (StartGuard.standing_without_sublist _ j)).imp ?_
    intro i k hgoes id id' hi hk
    obtain ⟨errand, p, hat, hid⟩ := hi
    obtain ⟨errand', p', hat', hid'⟩ := hk
    exact hgoes (hback hat hid).1 (hback hat' hid').1
  asked := by
    rw [hasked]
    exact h.asked
  askedFirst hid hat := by
    rw [hasked] at hid
    exact h.askedFirst hid ((hback hat rfl).2 (.inl rfl)).2
  recorded := by
    rw [hasked]
    exact hrecorded
  unrecorded hat := by
    obtain ⟨hne, hat'⟩ := (hback hat rfl).2 (.inr rfl)
    rcases hunrecorded with hj | hrecords
    · exact absurd (Option.some.inj ((h.starting hat').symm.trans hj)) hne
    · rw [hasked, hrecords]
      exact h.unrecorded hat'
  announced := hannounced

/-- A job with a new number takes the right to start, or waits for it behind all others. -/
theorem join {j : JobId} (id : TaskId)
    (hguard : w'.manager.guard.standing = w.manager.guard.standing ++ [j])
    (hholder : w.manager.guard.holder = none ∧ w'.manager.guard = ⟨some j, []⟩ ∨
      w.manager.guard.holder ≠ none ∧ w'.manager.guard =
        ⟨w.manager.guard.holder, w.manager.guard.line ++ [j]⟩)
    (hasked : w'.account.asked = w.account.asked)
    (hrecords : w'.account.records.map Record.id = w.account.records.map Record.id)
    (hannounced : w'.seen Happening.startAnnounced? = w.seen Happening.startAnnounced?)
    (hnew : ∀ {i : JobId} {id' : TaskId}, w.TakesPart i id' → id'.number < id.number)
    (hlast : ∀ id' ∈ w.account.asked, id'.number < id.number)
    (hself : ∃ errand, w'.At j errand (.inLine id))
    (hforth : ∀ {i : JobId} {errand : Errand} {p : Position} {id' : TaskId}, w.At i errand p →
      p.id? = some id' → w'.At i errand p)
    (hback : ∀ {i : JobId} {errand : Errand} {p : Position} {id' : TaskId}, w'.At i errand p →
      p.id? = some id' → i = j ∧ p = .inLine id ∨ w.At i errand p) : IsLined w' where
  free := by
    rcases hholder with ⟨-, hguard'⟩ | ⟨hsome, hguard'⟩
    · simp [hguard']
    · intro hnone
      rw [hguard'] at hnone
      exact absurd hnone hsome
  holding {i} hi := by
    rcases hholder with ⟨-, hguard'⟩ | ⟨-, hguard'⟩
    · rw [hguard'] at hi
      obtain rfl := Option.some.inj hi
      obtain ⟨errand, hat⟩ := hself
      exact ⟨errand, id, .inl hat⟩
    · rw [hguard'] at hi
      obtain ⟨errand, id', hat | hat⟩ := h.holding hi
      · exact ⟨errand, id', .inl (hforth hat rfl)⟩
      · exact ⟨errand, id', .inr (hforth hat rfl)⟩
  waiting {i} hi := by
    rcases hholder with ⟨-, hguard'⟩ | ⟨-, hguard'⟩
    · rw [hguard'] at hi
      exact absurd hi (by simp)
    · rw [hguard', List.mem_append, List.mem_singleton] at hi
      rcases hi with hi | rfl
      · obtain ⟨errand, id', hat⟩ := h.waiting hi
        exact ⟨errand, id', hforth hat rfl⟩
      · obtain ⟨errand, hat⟩ := hself
        exact ⟨errand, id, hat⟩
  starting {i errand id'} hat := by
    rcases hback hat rfl with ⟨-, hp⟩ | hat'
    · exact absurd hp (by simp)
    · have hi := h.starting hat'
      rcases hholder with ⟨hnone, -⟩ | ⟨-, hguard'⟩
      · rw [hnone] at hi
        exact absurd hi (by simp)
      · rw [hguard']
        exact hi
  inLine {i errand id'} hat := by
    rw [hguard, List.mem_append, List.mem_singleton]
    rcases hback hat rfl with ⟨hi, -⟩ | hat'
    · exact .inr hi
    · exact .inl (h.inLine hat')
  order := by
    -- The numbers of those who stood in the line are what they were, and the new one is greater.
    have hold {i : JobId} {id' : TaskId} (hi : i ∈ w.manager.guard.standing)
        (hpart : w'.TakesPart i id') : w.TakesPart i id' := by
      obtain ⟨id₀, errand₀, p₀, hat₀, hid₀⟩ := h.takesPart hi
      obtain rfl := Option.some.inj ((hpart.unique (hforth hat₀ hid₀)).symm.trans hid₀)
      exact ⟨errand₀, p₀, hat₀, hid₀⟩
    rw [hguard]
    refine List.pairwise_append.2
      ⟨List.Pairwise.imp_of_mem ?_ h.order, List.pairwise_singleton .., ?_⟩
    · intro i k hi hk hgoes id₁ id₂ hid₁ hid₂
      exact hgoes (hold hi hid₁) (hold hk hid₂)
    · intro i hi k hk id₁ id₂ hid₁ hid₂
      obtain rfl := List.mem_singleton.1 hk
      obtain ⟨errand, hat⟩ := hself
      obtain rfl := Option.some.inj (hid₂.unique hat)
      exact hnew (hold hi hid₁)
  asked := by
    rw [hasked]
    exact h.asked
  askedFirst {i errand id₁ id₂} hid hat := by
    rw [hasked] at hid
    rcases hback hat rfl with ⟨-, hp⟩ | hat'
    · obtain rfl := Position.inLine.inj hp
      exact hlast _ hid
    · exact h.askedFirst hid hat'
  recorded := by
    rw [hasked, hrecords]
    exact h.recorded
  unrecorded {i errand id'} hat := by
    rcases hback hat rfl with ⟨-, hp⟩ | hat'
    · exact absurd hp (by simp)
    · rw [hasked, hrecords]
      exact h.unrecorded hat'
  announced := by rw [hannounced, hrecords, h.announced]

/-- The job that has the right to start asks the backend. -/
theorem ask {call : Call} {id : TaskId} (hm : Moves w w' call (.inLine id) (.starting id))
    (hg : w.manager.guard.holder = some call.job)
    (hguard : w'.manager.guard = w.manager.guard)
    (hasked : w'.account.asked = w.account.asked ++ [id])
    (hrecords : w'.account.records = w.account.records)
    (hannounced : w'.seen Happening.startAnnounced? = w.seen Happening.startAnnounced?) :
    IsLined w' := by
  obtain ⟨errand₀, hat₀, -⟩ := hm.serves
  have hpart {i : JobId} {id' : TaskId} (h : w'.TakesPart i id') : w.TakesPart i id' := by
    obtain ⟨errand, p, hat, hid⟩ := h
    rcases hm.back hat with ⟨-, rfl, hat'⟩ | ⟨-, hat'⟩
    · exact ⟨errand, _, hat', hid⟩
    · exact ⟨errand, p, hat', hid⟩
  -- The one who asks has the smallest number of all who stand in the line.
  have hfirst {i : JobId} {errand : Errand} {id' : TaskId} (hne : call.job ≠ i)
      (hat : w.At i errand (.inLine id')) : id.number < id'.number := by
    have horder := h.order
    rw [StartGuard.standing_of_holder hg, List.pairwise_cons] at horder
    have hmem := h.inLine hat
    rw [StartGuard.standing_of_holder hg, List.mem_cons] at hmem
    exact horder.1 i (hmem.resolve_left hne.symm) ⟨errand₀, _, hat₀, rfl⟩ ⟨errand, _, hat, rfl⟩
  exact {
    free := by
      rw [hguard]
      exact h.free
    holding := by
      intro j hj
      rw [hguard, hg] at hj
      obtain rfl := Option.some.inj hj
      exact ⟨errand₀, id, .inr (hm.here hat₀)⟩
    waiting := by
      intro j hj
      rw [hguard] at hj
      obtain ⟨errand, id', hat⟩ := h.waiting hj
      refine ⟨errand, id', hm.elsewhere ?_ hat⟩
      rintro rfl
      exact h.not_mem_line hg hj
    starting := by
      intro j errand id' hat
      rw [hguard]
      rcases hm.back hat with ⟨rfl, -, -⟩ | ⟨-, hat'⟩
      · exact hg
      · exact h.starting hat'
    inLine := by
      intro j errand id' hat
      rw [hguard]
      rcases hm.back hat with ⟨-, hp, -⟩ | ⟨-, hat'⟩
      · exact absurd hp (by simp)
      · exact h.inLine hat'
    order := by
      rw [hguard]
      refine h.order.imp ?_
      intro i j hgoes id₁ id₂ hid₁ hid₂
      exact hgoes (hpart hid₁) (hpart hid₂)
    asked := by
      rw [hasked]
      refine List.pairwise_append.2 ⟨h.asked, List.pairwise_singleton .., ?_⟩
      intro id₁ hid₁ id₂ hid₂
      rw [List.mem_singleton.1 hid₂]
      exact h.askedFirst hid₁ hat₀
    askedFirst := by
      intro j errand id₁ id₂ hid₁ hat
      rw [hasked, List.mem_append, List.mem_singleton] at hid₁
      rcases hm.back hat with ⟨-, hp, -⟩ | ⟨hne, hat'⟩
      · exact absurd hp (by simp)
      · rcases hid₁ with hid₁ | rfl
        · exact h.askedFirst hid₁ hat'
        · exact hfirst hne hat'
    recorded := by
      rw [hasked, hrecords]
      exact h.recorded.trans (List.sublist_append_left _ _)
    unrecorded := by
      intro j errand id' hat
      rw [hasked, hrecords]
      rcases hm.back hat with ⟨-, hp, -⟩ | ⟨hne, hat'⟩
      · obtain rfl := Position.starting.inj hp
        exact h.recorded.append (List.Sublist.refl _)
      · exact absurd (Option.some.inj (hg.symm.trans (h.starting hat'))) hne
    announced := by rw [hannounced, hrecords, h.announced] }

/-- A job that moves leaves the line, or passes on the right to start. -/
theorem leaves {call : Call} {p p' : Position} (hm : Moves w w' call p p')
    (hp : p'.id? = none ∨ ∃ id e, p = .starting id ∧ p' = .running id e)
    (hguard : w'.manager.guard = w.manager.guard.without call.job)
    (hasked : w'.account.asked = w.account.asked)
    (hrecorded : (w'.account.records.map Record.id).Sublist w.account.asked)
    (hunrecorded : w.manager.guard.holder = some call.job ∨
      w'.account.records.map Record.id = w.account.records.map Record.id)
    (hannounced : w'.seen Happening.startAnnounced? = w'.account.records.map Record.id) :
    IsLined w' := by
  refine h.leave hguard hasked hrecorded hunrecorded hannounced ?_ ?_
  · intro i errand p₀ hne hat
    exact hm.elsewhere hne.symm hat
  · intro i errand p₁ id hat hid
    rcases hm.back hat with ⟨rfl, rfl, hat'⟩ | ⟨hne, hat'⟩
    · rcases hp with hnone | ⟨id', e, rfl, rfl⟩
      · rw [hid] at hnone
        exact absurd hnone (by simp)
      · exact ⟨⟨errand, _, hat', hid⟩, by simp⟩
    · exact ⟨⟨errand, _, hat', hid⟩, fun _ => ⟨hne.symm, hat'⟩⟩

/-- A job moves that has no part in the line, before or after. -/
theorem passes {call : Call} {p p' : Position} (hm : Moves w w' call p p')
    (hp : ∀ id, p ≠ .inLine id ∧ p ≠ .starting id) (hp' : p'.id? = none)
    (hguard : w'.manager.guard = w.manager.guard)
    (hasked : w'.account.asked = w.account.asked)
    (hrecords : w'.account.records.map Record.id = w.account.records.map Record.id)
    (hannounced : w'.seen Happening.startAnnounced? = w.seen Happening.startAnnounced?) :
    IsLined w' := by
  refine h.kept hguard hasked hrecords hannounced ?_ ?_
  · intro j errand p₀ id hat hline
    refine hm.stays ?_ hat
    rcases hline with rfl | rfl
    · exact (hp id).1.symm
    · exact (hp id).2.symm
  · intro j errand p₁ id hat hid
    rcases hm.back hat with ⟨-, rfl, -⟩ | ⟨-, hat'⟩
    · rw [hid] at hp'
      exact absurd hp' (by simp)
    · exact hat'

/-- A change that does not concern executions leaves the line alone if it moves nobody who stands
there. -/
theorem quiet (hq : Quiet w w') (hguard : w'.manager.guard = w.manager.guard)
    (hannounced : w'.seen Happening.startAnnounced? = w.seen Happening.startAnnounced?)
    (hforth : ∀ {j : JobId} {errand : Errand} {p : Position} {id : TaskId}, w.At j errand p →
      p.id? = some id → w'.At j errand p) : IsLined w' := by
  refine h.kept hguard (by rw [hq.account]) (by rw [hq.account]) hannounced ?_ ?_
  · intro j errand p id hat hline
    refine hforth hat (show p.id? = some id from ?_)
    rcases hline with rfl | rfl <;> rfl
  · intro j errand p id hat hid
    rcases hq.at_back hat with rfl | ⟨p₀, hat₀, rfl | hidle⟩
    · exact absurd hid (by simp [Position.id?])
    · exact hat₀
    · rw [Position.id?_of_isIdle hidle] at hid
      exact absurd hid (by simp)

end IsLined

/-! ## Change by change -/

section Changes

variable {w w' : World}

/-- The number that is given out next is greater than all others. -/
theorem IsNumbered.lt_nextId (hn : IsNumbered w) {id : TaskId}
    (h : (∃ j, w.TakesPart j id) ∨ id ∈ w.account.asked) : id.number < w.nextId.number := by
  have hmem : id ∈ w.account.numbered.map Prod.fst := by
    rcases h with ⟨j, errand, p, hat, hid⟩ | hasked
    · exact List.mem_map_of_mem (hn.current hat hid)
    · obtain ⟨j, -, -, hj, -⟩ := hn.asked id hasked
      exact List.mem_map_of_mem hj
  rw [hn.ids, List.mem_map] at hmem
  obtain ⟨n, hlt, rfl⟩ := hmem
  exact Nat.succ_lt_succ (List.mem_range.1 hlt)

/-- The first part of an execution, for a job that gets a number and stands in the line. -/
theorem IsLined.enter (h : IsLined w) (hn : IsNumbered w) {call : Call}
    (hm : Moves w w' call .fresh (.inLine w.nextId))
    (hguard : w'.manager.guard.standing = w.manager.guard.standing ++ [call.job])
    (hholder : w.manager.guard.holder = none ∧ w'.manager.guard = ⟨some call.job, []⟩ ∨
      w.manager.guard.holder ≠ none ∧ w'.manager.guard =
        ⟨w.manager.guard.holder, w.manager.guard.line ++ [call.job]⟩)
    (hasked : w'.account.asked = w.account.asked)
    (hrecords : w'.account.records.map Record.id = w.account.records.map Record.id)
    (hannounced : w'.seen Happening.startAnnounced? = w.seen Happening.startAnnounced?) :
    IsLined w' := by
  obtain ⟨errand₀, hat₀, -⟩ := hm.serves
  refine h.join w.nextId hguard hholder hasked hrecords hannounced ?_ ?_ ?_ ?_ ?_
  · intro i id' hpart
    exact hn.lt_nextId (.inl ⟨i, hpart⟩)
  · intro id' hid'
    exact hn.lt_nextId (.inr hid')
  · exact ⟨errand₀, hm.here hat₀⟩
  · intro i errand p id' hat hid
    refine hm.stays ?_ hat
    rintro rfl
    exact absurd hid (by simp [Position.id?])
  · intro i errand p id' hat hid
    rcases hm.back hat with ⟨hjob, rfl, -⟩ | ⟨-, hat'⟩
    · exact .inl ⟨hjob.symm, rfl⟩
    · exact .inr hat'

/-- **A stage of executing a command** keeps the line in order. -/
theorem Stride.isLined (hs : Stride w w') (h : IsLined w) (hn : IsNumbered w) : IsLined w' := by
  have hl := hs.lasts
  cases hs with
  | rejected hcall hd =>
    exact h.passes ⟨hcall, rfl, rfl, rfl, hl.history⟩ (by simp) rfl rfl rfl rfl rfl
  | guardTaken hcall hd hg =>
    have hline := h.free hg
    refine h.enter hn ⟨hcall, rfl, rfl, rfl, hl.history⟩ ?_ ?_ rfl rfl rfl
    · simp [StartGuard.standing, hg, hline, takeNumber, takeGuard, setGuard, note, setPosition,
        modifyJob]
    · simp [hg, hline, takeNumber, takeGuard, setGuard, note, setPosition, modifyJob]
  | @lineJoined call holder hcall hd hg hc =>
    have hm := hcall.joins
    obtain ⟨tokens, heq⟩ := listen_eq ((((w.takeNumber call.job).note
      (.waitsToStart w.nextId)).joinLine call.job).setPosition call.job (.inLine w.nextId))
      call.token call.job
    have haccount := (adds_listen ((((w.takeNumber call.job).note
      (.waitsToStart w.nextId)).joinLine call.job).setPosition call.job (.inLine w.nextId))
      call.token call.job).account.trans (account_takeNumber w call.job)
    rw [heq] at hm haccount ⊢
    refine h.enter hn hm ?_ (.inr ⟨by simp [hg], rfl⟩) (by rw [haccount]; rfl)
      (by rw [haccount]; rfl) rfl
    exact (List.append_assoc _ _ _).symm
  | turnedAway hcall hd hg hc =>
    exact h.passes ⟨hcall, rfl, rfl, rfl, hl.history⟩ (by simp) rfl rfl rfl rfl rfl
  | unlistened j token =>
    obtain ⟨tokens, heq⟩ := unlisten_eq w token j
    rw [heq]
    exact h.quiet (Adds.quiet (.of_eq rfl rfl rfl rfl rfl)) rfl rfl fun hat _ => hat
  | timerCleared =>
    exact h.quiet (Adds.quiet (.of_eq rfl rfl rfl rfl rfl)) rfl rfl fun hat _ => hat
  | lineLeft hcall hg hc =>
    refine h.leaves ⟨hcall, rfl, rfl, rfl, hl.history⟩ (.inl rfl) ?_ rfl h.recorded (.inr rfl)
      h.announced
    rw [StartGuard.without_of_ne hg]
    rfl
  | @guardReturned call id hcall hg hc =>
    have hm := hcall.returns
    obtain ⟨ready, heq⟩ := releaseGuard_eq w
    rw [heq] at hm ⊢
    refine h.leaves hm (.inl rfl) ?_ rfl h.recorded (.inr rfl)
      h.announced
    rw [StartGuard.without_of_holder hg]
    rfl
  | @startAsked call id hcall hg hc =>
    refine h.ask ⟨hcall, rfl, rfl, rfl, hl.history⟩ hg rfl ?_ rfl rfl
    exact seen_note w (.startAsked id call.command) Happening.startAsked?
  | startDelayed =>
    exact h.quiet (Adds.quiet (.of_eq rfl rfl rfl rfl rfl)) rfl rfl fun hat _ => hat
  | @refused call id f hcall hb =>
    have hserves := hcall
    obtain ⟨errand, hat, -⟩ := hserves
    have hholder := h.starting hat
    have hm := hcall.refused f
    obtain ⟨ready, heq⟩ := releaseGuard_eq ((w.note (.startFailed id call.command f)).setPosition
      call.job .telling)
    rw [heq] at hm ⊢
    refine h.leaves hm (.inl rfl) ?_ rfl h.recorded (.inr rfl)
      h.announced
    rw [StartGuard.without_of_holder hholder]
    rfl
  | @started call id b execution hcall hb =>
    have hserves := hcall
    obtain ⟨errand, hat, -⟩ := hserves
    have hholder := h.starting hat
    obtain ⟨hrecords, -, -⟩ := Scripted.start_eq_ok hb
    have hm := hcall.starts b execution
    obtain ⟨ready, heq⟩ := releaseGuard_eq (((w.setBackend b).note
      (.started id call.command)).setPosition call.job (.running id execution))
    rw [heq] at hm ⊢
    -- The record that is added is that of the task that was asked for last.
    have hids : b.records.map Record.id = w.account.records.map Record.id ++ [id] := by
      rw [hrecords, List.map_append]
      rfl
    refine h.leaves hm (.inr ⟨id, execution, rfl, rfl⟩) ?_ rfl ?_
      (.inl hholder) ?_
    · rw [StartGuard.without_of_holder hholder]
      rfl
    · change (b.records.map Record.id).Sublist _
      rw [hids]
      exact h.unrecorded hat
    · change _ = b.records.map Record.id
      rw [hids, ← h.announced]
      exact seen_note w (.startAnnounced id call.command) Happening.startAnnounced?
  | forsaken hcall hp =>
    exact h.passes ⟨hcall, rfl, rfl, rfl, hl.history⟩ (by simp) rfl rfl rfl rfl rfl
  | @endAwaited call id execution hcall =>
    obtain ⟨tokens, heq⟩ := listen_eq (w.setTimer execution.deadline call.job) call.token call.job
    rw [heq]
    exact h.quiet (Adds.quiet (.of_eq rfl rfl rfl rfl rfl)) rfl rfl fun hat _ => hat
  | @completed call id execution hcall hd =>
    exact h.passes ⟨hcall, rfl, rfl, rfl, hl.history⟩ (by simp) rfl rfl rfl
      (Scripted.map_id_finish w.backend w.clock id false) rfl
  | @terminated call id execution hcall hd hc =>
    exact h.passes ⟨hcall, rfl, rfl, rfl, hl.history⟩ (by simp) rfl rfl rfl
      (Scripted.map_id_finish w.backend w.clock id true) rfl

/-- What becomes of the right to start when an execution is dropped where it stands. -/
theorem guard_dropExecution (call : Call) {errand : Errand} {p : Position}
    (hat : w.At call.job errand p)
    (hp : ∀ id, p = .starting id → w.manager.guard.holder = some call.job) :
    (w.dropExecution call).manager.guard =
      if p.isBeforeStart then w.manager.guard.without call.job else w.manager.guard := by
  obtain ⟨tokens, hunlisten⟩ := unlisten_eq w call.token call.job
  obtain ⟨ready, hrelease⟩ := releaseGuard_eq ((w.unlisten call.token call.job).clearTimer call.job)
  have hposition :
      ((w.unlisten call.token call.job).clearTimer call.job).position call.job = p := by
    rw [hunlisten]
    exact hat.position_eq
  have hguard : ((w.unlisten call.token call.job).clearTimer call.job).manager.guard =
      w.manager.guard := by rw [hunlisten]; rfl
  unfold dropExecution
  dsimp only
  rw [hposition]
  cases p with
  | inLine id =>
    rw [if_pos (c := (Position.inLine id).isBeforeStart) rfl, hguard]
    dsimp only
    split
    · next hg => rw [hrelease, hguard, StartGuard.without_of_holder hg]
    · next hg => rw [leaveLine, setGuard, hguard, StartGuard.without_of_ne hg]
  | starting id =>
    rw [if_pos (c := (Position.starting id).isBeforeStart) rfl,
      StartGuard.without_of_holder (hp id rfl)]
    dsimp only
    rw [hrelease, hguard]
  | fresh | running | telling | awaiting | done =>
    exact hguard

/-- A job that waits or ends passes on the right to start, if it has it. -/
theorem Closing.isLined (hc : Closing w w') (h : IsLined w) (ho : w.ledger.IsOrderly)
    (hn : IsNumbered w) : IsLined w' := by
  have hq := hc.quiet ho hn.idle
  have hl := hc.lasts ho hn
  have hannounced : w'.seen Happening.startAnnounced? = w.seen Happening.startAnnounced? := by
    refine hl.seen_eq ?_
    intro x hx
    cases x <;> first | rfl | exact absurd hx (by simp [Happening.origin])
  rcases hc.mild ho hn with ⟨j, name, command, token, p, hat, hp, rfl⟩ |
    ⟨w₁, j, errand, p, p', hm, hat, hid, rfl⟩
  · have hguard := guard_dropExecution ⟨j, command, token⟩ hat fun id hstarting =>
      h.starting (hstarting ▸ hat)
    obtain ⟨tokens, timers, ready, g, heq⟩ := dropExecution_eq w ⟨j, command, token⟩
    rw [heq] at hguard hannounced hl ⊢
    have hm : Moves w (endJob { w with
        tokens, timers, manager := { w.manager with guard := g }, ready } j)
        ⟨j, command, token⟩ p .done :=
      ⟨⟨_, hat, rfl⟩, rfl, rfl, rfl, hl.history⟩
    -- A job that is dropped stood in the line, or had the right to start, or neither.
    by_cases hline : p.isBeforeStart
    · rw [if_pos hline] at hguard
      exact h.leaves hm (.inl rfl) hguard rfl h.recorded (.inr rfl) (hannounced.trans h.announced)
    · rw [if_neg hline] at hguard
      refine h.passes hm ?_ rfl hguard rfl rfl hannounced
      intro id
      refine ⟨?_, ?_⟩ <;> rintro rfl <;> exact hline rfl
  · refine h.quiet hq hm.guard hannounced ?_
    intro i errand' p₀ id hat' hid'
    -- The job that moves has no number, so it is none of those in the line.
    have hne : j ≠ i := by
      rintro rfl
      rw [(hat.unique hat').2, hid'] at hid
      exact absurd hid (by simp)
    exact (hm.stays hat').setPosition_of_ne hne _

theorem isLined_new (s : Setting) : IsLined s.world where
  free := by simp [Setting.world]
  holding := by simp [Setting.world]
  waiting := by simp [Setting.world]
  starting := by simp [At, Setting.world]
  inLine := by simp [At, Setting.world]
  order := List.Pairwise.nil
  asked := List.Pairwise.nil
  askedFirst := by simp [At, Setting.world]
  recorded := List.nil_sublist _
  unrecorded := by simp [At, Setting.world]
  announced := rfl

/-- **The line for the right to start is in order**, whatever happens. -/
theorem Arises.isLined (h : Arises w) : IsLined w := by
  refine h.induction isLined_new ?_
  intro w w' hw h hc
  have hseen {O : List Origin} (hl : Lasts O w w') (ho : .stride ∉ O) :
      w'.seen Happening.startAnnounced? = w.seen Happening.startAnnounced? := by
    refine hl.seen_eq ?_
    intro x hx
    cases x <;> first | rfl | exact absurd hx ho
  cases hc with
  | deed hd =>
    exact h.quiet hd.quiet hd.mild.guard (hseen hd.mild.toLasts (by simp))
      fun hat _ => hd.mild.stays hat
  | drift hd =>
    have hannounced := hseen hd.lasts (by simp)
    rcases hd.mild with ⟨j, rfl⟩ | hm
    · exact h.quiet hd.quiet rfl hannounced fun hat _ => hat
    · exact h.quiet hd.quiet hm.guard hannounced fun hat _ => hm.stays hat
  | telling ht =>
    exact h.quiet ht.quiet ht.mild.guard (hseen ht.mild.toLasts (by simp))
      fun hat _ => ht.mild.stays hat
  | stride hs => exact hs.isLined h hw.isNumbered
  | closing hc => exact hc.isLined h hw.isOrderly hw.isNumbered

end Changes

end World

end Dispatch

end FolderTasks
