import FolderTasks.Proofs.Dispatch.TaskNumbers
/-!
# The book of resets

A queue is withheld when a reset is asked for, and no longer when a reset is over, whichever it
is.  The book of resets says which queues are withheld, which resets were asked for and which are
over, and which jobs look after one.  As long as nobody else withholds a queue, the last sign of a
queue tells whether it is withheld.

## Main definitions

* `ResetBook`: the book, with the entries made in it.
* `ResetBook.IsSound`: what is said of resets goes together.
* `ResetBook.IsFaithful`: the last sign of a queue tells whether it is withheld.
* `ResetBook.Steady`: a change that makes no sign.

## Main statements

* `ResetBook.IsFaithful.ask`, `ResetBook.IsFaithful.conclude`: both signs keep the book faithful.
* `ResetBook.IsFaithful.steady`: and so does what makes no sign.
-/

namespace FolderTasks.Dispatch

/-- A sign that a queue is withheld for the reset that an entry serves, or no longer. -/
structure ResetSign where
  queue : QueueId
  entry : EntryId
  isAsked : Bool
deriving DecidableEq, Repr

/-- The sign that a fact is. -/
def Happening.resetSign? : Happening → Option ResetSign
  | .resetAsked q e => some ⟨q, e, true⟩
  | .resetOver q e => some ⟨q, e, false⟩
  | _ => none

/-- The reset that a job looks after: its entry, and its queue if the job names one. -/
abbrev Ward := Option QueueId × EntryId

/-- What a job with an errand looks after where it is. -/
def Errand.ward? : Errand → Position → Option Ward
  | .reset _ _ _, .awaiting e _ => some (none, e)
  | .reopen q e, _ => some (some q, e)
  | _, _ => none

/-- What a job looks after. -/
def Job.ward? (job : Job) : Option Ward := job.errand.ward? job.position

/-- The book of resets. -/
structure ResetBook where
  /-- Is a queue withheld? -/
  flags : List Bool
  folders : List (Path × QueueId)
  /-- The queue of each entry. -/
  owners : List QueueId
  resolved : List (EntryId × Outcome)
  /-- The signs, the latest first. -/
  signs : List ResetSign
  /-- What each job looks after. -/
  wards : List (Option Ward)

namespace ResetBook

/-- The last sign of a queue. -/
def lastSign? (B : ResetBook) (q : QueueId) : Option Bool :=
  B.signs.findSome? fun s => if s.queue = q then some s.isAsked else none

/-- **A sound book**: what it says of resets goes together. -/
structure IsSound (B : ResetBook) : Prop where
  folders : ∀ f ∈ B.folders, f.2 < B.flags.length
  /-- A reset is served by an entry of the queue that is withheld for it. -/
  asked : ∀ s ∈ B.signs, s.queue < B.flags.length ∧ B.owners[s.entry]? = some s.queue
  /-- Only a reset that was asked for and has its outcome is over. -/
  concluded : ∀ s ∈ B.signs, s.isAsked = false →
    ⟨s.queue, s.entry, true⟩ ∈ B.signs ∧ ∃ o, (s.entry, o) ∈ B.resolved
  minded : ∀ {q? : Option QueueId} {e : EntryId}, some (q?, e) ∈ B.wards →
    ∃ q, ⟨q, e, true⟩ ∈ B.signs ∧ ∀ q', q? = some q' → q' = q

/-- **A faithful book**: a queue is withheld when its last sign is that of a reset asked for. -/
structure IsFaithful (B : ResetBook) : Prop extends IsSound B where
  flags : ∀ {q : QueueId} {flag : Bool}, B.flags[q]? = some flag →
    flag = (B.lastSign? q).getD false

/-- A change that makes no sign. -/
structure Steady (B B' : ResetBook) : Prop where
  flags : ∃ n, B'.flags = B.flags ++ List.replicate n false
  folders : ∀ f ∈ B'.folders, f ∈ B.folders ∨ f.2 < B'.flags.length
  owners : B.owners <+: B'.owners
  resolved : B.resolved <+: B'.resolved
  signs : B'.signs = B.signs
  wards : ∀ ward, some ward ∈ B'.wards → some ward ∈ B.wards

/-! ## What is entered in the book -/

/-- A queue is withheld, or no longer. -/
def withhold (B : ResetBook) (q : QueueId) (value : Bool) : ResetBook :=
  { B with flags := B.flags.modify q fun _ => value }

/-- A sign is made. -/
def sign (B : ResetBook) (s : ResetSign) : ResetBook := { B with signs := s :: B.signs }

/-- Jobs look after other resets. -/
def mind (B : ResetBook) (wards : List (Option Ward)) : ResetBook := { B with wards }

theorem length_withhold (B : ResetBook) (q : QueueId) (value : Bool) :
    (B.withhold q value).flags.length = B.flags.length := List.length_modify ..

theorem lastSign?_sign (B : ResetBook) (s : ResetSign) (q : QueueId) :
    (B.sign s).lastSign? q = if s.queue = q then some s.isAsked else B.lastSign? q := by
  by_cases hq : s.queue = q <;> simp [lastSign?, sign, hq]

namespace Steady

theorem refl (B : ResetBook) : Steady B B :=
  ⟨⟨0, by simp⟩, fun _ hf => .inl hf, List.prefix_rfl, List.prefix_rfl, rfl, fun _ hw => hw⟩

theorem of_eq {B B' : ResetBook} (h : B' = B) : Steady B B' := h ▸ refl B

theorem length_le {B B' : ResetBook} (h : Steady B B') : B.flags.length ≤ B'.flags.length := by
  obtain ⟨n, hn⟩ := h.flags
  rw [hn, List.length_append]
  exact Nat.le_add_right _ _

theorem trans {B B' B'' : ResetBook} (h : Steady B B') (h' : Steady B' B'') : Steady B B'' := by
  obtain ⟨n, hn⟩ := h.flags
  obtain ⟨n', hn'⟩ := h'.flags
  refine ⟨⟨n + n', ?_⟩, fun f hf => ?_, h.owners.trans h'.owners, h.resolved.trans h'.resolved,
    h'.signs.trans h.signs, fun ward hw => h.wards ward (h'.wards ward hw)⟩
  · rw [hn', hn, List.append_assoc, List.replicate_append_replicate]
  · rcases h'.folders f hf with hf | hlt
    · rcases h.folders f hf with hf | hlt
      · exact .inl hf
      · exact .inr (Nat.lt_of_lt_of_le hlt h'.length_le)
    · exact .inr hlt

/-- A flag stood before, or it is that of a new queue. -/
theorem flag {B B' : ResetBook} (h : Steady B B') {q : QueueId} {flag : Bool}
    (hflag : B'.flags[q]? = some flag) :
    B.flags[q]? = some flag ∨ B.flags.length ≤ q ∧ flag = false := by
  obtain ⟨n, hn⟩ := h.flags
  rw [hn] at hflag
  exact (getElem?_append_cases hflag).imp_right (And.imp_right List.eq_of_mem_replicate)

theorem lastSign? {B B' : ResetBook} (h : Steady B B') (q : QueueId) :
    B'.lastSign? q = B.lastSign? q := by
  rw [ResetBook.lastSign?, ResetBook.lastSign?, h.signs]

end Steady

/-! ## The book stays sound -/

namespace IsSound

variable {B B' : ResetBook}

/-- Nothing is said of a queue that is not there. -/
theorem lastSign?_of_le (h : B.IsSound) {q : QueueId} (hq : B.flags.length ≤ q) :
    B.lastSign? q = none := by
  refine List.findSome?_eq_none_iff.2 fun s hs => if_neg ?_
  rintro rfl
  exact Nat.not_lt.2 hq (h.asked s hs).1

theorem withhold (h : B.IsSound) (q : QueueId) (value : Bool) : (B.withhold q value).IsSound :=
  { h with
    folders := fun f hf => by
      rw [length_withhold]
      exact h.folders f hf
    asked := fun s hs => by
      rw [length_withhold]
      exact h.asked s hs }

theorem steady (h : B.IsSound) (hs : Steady B B') : B'.IsSound where
  folders f hf := by
    rcases hs.folders f hf with hf | hlt
    · exact Nat.lt_of_lt_of_le (h.folders f hf) hs.length_le
    · exact hlt
  asked s hsign := by
    rw [hs.signs] at hsign
    obtain ⟨hlt, howner⟩ := h.asked s hsign
    exact ⟨Nat.lt_of_lt_of_le hlt hs.length_le, World.getElem?_of_isPrefix hs.owners howner⟩
  concluded s hsign hover := by
    rw [hs.signs] at hsign ⊢
    obtain ⟨hasked, o, ho⟩ := h.concluded s hsign hover
    exact ⟨hasked, o, hs.resolved.subset ho⟩
  minded hward := by
    rw [hs.signs]
    exact h.minded (hs.wards _ hward)

theorem sign (h : B.IsSound) {s : ResetSign}
    (hasked : s.queue < B.flags.length ∧ B.owners[s.entry]? = some s.queue)
    (hover : s.isAsked = false →
      ⟨s.queue, s.entry, true⟩ ∈ B.signs ∧ ∃ o, (s.entry, o) ∈ B.resolved) :
    (B.sign s).IsSound where
  folders := h.folders
  asked s' hs' := by
    rcases List.mem_cons.1 hs' with rfl | hs'
    · exact hasked
    · exact h.asked s' hs'
  concluded s' hs' hover' := by
    rcases List.mem_cons.1 hs' with rfl | hs'
    · exact (hover hover').imp_left (List.mem_cons_of_mem _)
    · exact (h.concluded s' hs' hover').imp_left (List.mem_cons_of_mem _)
  minded hward := by
    obtain ⟨q, hmem, hq⟩ := h.minded hward
    exact ⟨q, List.mem_cons_of_mem _ hmem, hq⟩

end IsSound

/-! ## The book stays faithful -/

namespace IsFaithful

variable {B B' : ResetBook}

/-- What makes no sign keeps the book faithful. -/
theorem steady (h : B.IsFaithful) (hs : Steady B B') : B'.IsFaithful where
  toIsSound := h.toIsSound.steady hs
  flags {q flag} hflag := by
    rw [hs.lastSign?]
    rcases hs.flag hflag with hflag | ⟨hle, rfl⟩
    · exact h.flags hflag
    · rw [h.lastSign?_of_le hle]
      rfl

/-- A sign is made for a queue, and between its withholding and the sign there may be steady
changes. -/
theorem flags_sign (h : B.IsFaithful) {s : ResetSign}
    (hs : Steady (B.withhold s.queue s.isAsked) B') (hq : s.queue < B.flags.length) {q : QueueId}
    {flag : Bool} (hflag : B'.flags[q]? = some flag) :
    flag = ((B'.sign s).lastSign? q).getD false := by
  rw [lastSign?_sign, hs.lastSign?]
  rcases hs.flag hflag with hflag | ⟨hle, rfl⟩
  · rw [ResetBook.withhold, List.getElem?_modify] at hflag
    obtain ⟨old, hold, rfl⟩ := Option.map_eq_some_iff.1 hflag
    by_cases hsq : s.queue = q
    · rw [if_pos hsq, if_pos hsq]
      rfl
    · rw [if_neg hsq, if_neg hsq]
      exact h.flags hold
  · rw [length_withhold] at hle
    have hne : s.queue ≠ q := by
      rintro rfl
      exact Nat.not_lt.2 hle hq
    have hnone : (B.withhold s.queue s.isAsked).lastSign? q = none := h.lastSign?_of_le hle
    rw [if_neg hne, hnone]
    rfl

/-- **A reset is asked for**: its queue is withheld, and what the request changes makes no sign. -/
theorem ask (h : B.IsFaithful) {q : QueueId} {e : EntryId} (hs : Steady (B.withhold q true) B')
    (hq : q < B.flags.length) (hon : B'.owners[e]? = some q) :
    (B'.sign ⟨q, e, true⟩).IsFaithful where
  toIsSound := by
    refine ((h.toIsSound.withhold q true).steady hs).sign ⟨?_, hon⟩ fun hover => ?_
    · rw [← length_withhold B q true] at hq
      exact Nat.lt_of_lt_of_le hq hs.length_le
    · exact absurd hover (by simp)
  flags hflag := h.flags_sign (s := ⟨q, e, true⟩) hs hq hflag

/-- **A reset is over**: its queue is no longer withheld. -/
theorem conclude (h : B.IsFaithful) {q : QueueId} {e : EntryId} (hasked : ⟨q, e, true⟩ ∈ B.signs)
    (hresolved : ∃ o, (e, o) ∈ B.resolved) :
    ((B.withhold q false).sign ⟨q, e, false⟩).IsFaithful where
  toIsSound := by
    have hsound := h.toIsSound.withhold q false
    exact hsound.sign (hsound.asked ⟨q, e, true⟩ hasked) fun _ => ⟨hasked, hresolved⟩
  flags hflag := h.flags_sign (s := ⟨q, e, false⟩) (.refl _) (h.asked _ hasked).1 hflag

/-- A job looks after a reset that was asked for. -/
theorem mind (h : B.IsFaithful) {q : QueueId} {e : EntryId} (hasked : ⟨q, e, true⟩ ∈ B.signs)
    (q? : Option QueueId) (hq : ∀ q', q? = some q' → q' = q) {wards : List (Option Ward)}
    (hwards : ∀ ward, some ward ∈ wards → some ward ∈ B.wards ∨ ward = (q?, e)) :
    (B.mind wards).IsFaithful :=
  { h with
    minded := fun hward => by
      rcases hwards _ hward with hward | heq
      · exact h.minded hward
      · obtain ⟨rfl, rfl⟩ := Prod.mk.inj heq
        exact ⟨q, hasked, hq⟩ }

end IsFaithful

end ResetBook

end FolderTasks.Dispatch
