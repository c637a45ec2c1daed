import FolderTasks.Proofs.Dispatch.ReopenerWakeups
/-!
# When an outcome can be peeked

The outcome of an entry reaches those who wait for it through a result that they share, and the
shared result is only looked at when one of them has its turn.  A handle therefore does not show
that its entry is over before somebody who waits for it, through that handle or another, has
received the outcome: nobody who only peeks ever sees it.

A run to a world is kept together with the entries whose outcomes were received on the way, and what
can be peeked is read off both.

## Main definitions

* `World.Receives`: a change in which somebody receives the outcome of an entry.
* `World.Hears`: a run to a world, and the entries whose outcomes were received on the way.
* `World.isHeard`: the mark that an entry keeps of that.

## Main statements

* `World.Change.isHeard`, `World.Receives.isHeard`: only who receives an outcome leaves the mark.
* `World.Arises.exists_hears`: every world has such a run.
* `World.Hears.peek_iff`: peeked is an outcome that is known and was received.
* `World.not_peek_of_finished`: an entry that is over, of which nothing can be peeked.
-/

namespace FolderTasks.Dispatch.World

/-- **Somebody receives the outcome of an entry**: the user, waiting outside all jobs, or a job in
its turn, which is over then. -/
inductive Receives (e : EntryId) : World → World → Prop where
  | outside {w w' : World} (o : Outcome) (h : w.receive? e = some (w', o)) : Receives e w w'
  | reset {w w' : World} {j : JobId} {name : String} {folder : Path} {token : Option String}
      {seat : Nat} {entry : Entry} (o : Outcome)
      (hat : w.At j (.reset name folder token) (.awaiting e seat)) (he : w.entryOf? e = some entry)
      (h : w.receive? e = some (w', o)) :
      Receives e w ((w'.concludeReset name folder entry.queue e o).endJob j)
  | watch {w w' : World} {j : JobId} {handle : String} {p : Position} (o : Outcome)
      (hat : w.At j (.watch handle e) p) (hp : p ≠ .done) (h : w.receive? e = some (w', o)) :
      Receives e w ((match w'.entryOf? e with
        | some entry => w'.note (.watched handle o (w'.view entry.queue))
        | none => w').endJob j)
  | reopen {w w' : World} {j : JobId} {q : QueueId} {p : Position} (o : Outcome)
      (hat : w.At j (.reopen q e) p) (hp : p ≠ .done) (h : w.receive? e = some (w', o)) :
      Receives e w ((w'.reopen q e).endJob j)

/-- **A run to a world**, and the entries whose outcomes were received on the way, the latest
first. -/
inductive Hears : World → List EntryId → Prop where
  | new (s : Setting) : Hears s.world []
  | unheard {w w' : World} {heard : List EntryId} (h : Hears w heard) (hc : Change w w')
      (hn : ∀ e, ¬ Receives e w w') : Hears w' heard
  | heard {w w' : World} {heard : List EntryId} {e : EntryId} (h : Hears w heard)
      (hr : Receives e w w') : Hears w' (e :: heard)

/-- Has somebody received the outcome of an entry?  This is the mark that the entry keeps. -/
def isHeard (w : World) (e : EntryId) : Bool := w.aspect Entry.isReceived false e

/-- **The entry of a handle is over**: its outcome was sent to those who wait for it, or its runner
died and they know. -/
def IsOver (w : World) (e : EntryId) (o : Outcome) : Prop := ∃ t, (t, .resolved e o) ∈ w.history

/-! ## The mark of an entry -/

section Marks

variable {w w' : World} {e e' : EntryId} {heard : List EntryId} {o : Outcome}

theorem isHeard_takeSeat (w : World) (e : EntryId) (who : Waiter) (e' : EntryId) :
    (w.takeSeat e who).1.isHeard e' = w.isHeard e' := by
  unfold takeSeat
  split
  · rfl
  · exact aspect_modifyEntry w e e' fun _ => rfl

theorem isHeard_leaveSeat (w : World) (e : EntryId) (seat : Nat) (e' : EntryId) :
    (w.leaveSeat e seat).isHeard e' = w.isHeard e' := aspect_modifyEntry w e e' fun _ => rfl

theorem isHeard_resolve (w : World) (e : EntryId) (o : Outcome) (e' : EntryId) :
    (w.resolve e o).isHeard e' = w.isHeard e' := aspect_resolve (fun _ _ => rfl) w e o e'

theorem isHeard_askReset (w : World) (j : JobId) (q : QueueId) (folder : Path)
    (token : Option String) (e : EntryId) :
    (w.askReset j q folder token).isHeard e = w.isHeard e := by
  have hrequested : ((w.withhold q true).request q
      (PackageAction.reset.operation w.toolchain folder) token).1.isHeard e = w.isHeard e :=
    aspect_request (fun _ _ _ => rfl) _ q _ token e
  unfold askReset
  dsimp only
  generalize (w.withhold q true).request q _ token = r at hrequested ⊢
  exact (isHeard_takeSeat (r.1.note (.resetAsked q r.2)) r.2 (.job j) e).trans hrequested

theorem isHeard_discard (w : World) (j : JobId) (job : Job) (e : EntryId) :
    (w.discard j job).isHeard e = w.isHeard e := by
  unfold discard
  dsimp only
  split
  · obtain ⟨tokens, timers, ready, g, h⟩ := dropExecution_eq w _
    rw [h]
    rfl
  · unfold discardReset
    split
    · rfl
    · dsimp only
      split <;> exact isHeard_leaveSeat w _ _ e
  · rfl

/-- Who receives an outcome marks its entry, and no other. -/
theorem isHeard_receive? (h : w.receive? e = some (w', o)) (e' : EntryId) :
    w'.isHeard e' = (decide (e' = e) || w.isHeard e') := by
  have hthere : (w.entryOf? e).isSome := by
    unfold receive? at h
    split at h
    · next he => rw [he]; rfl
    · exact absurd h (by simp)
  unfold receive? at h
  split at h
  · obtain ⟨rfl, -⟩ := Prod.mk.inj (Option.some.inj h)
    refine (aspect_set w true e' hthere fun _ _ => rfl).trans ?_
    by_cases heq : e' = e <;> simp [heq, isHeard]
  · exact absurd h (by simp)

theorem Receives.isHeard (h : Receives e w w') (e' : EntryId) :
    w'.isHeard e' = (decide (e' = e) || w.isHeard e') := by
  cases h with
  | outside o h | reset o hat he h | reopen o hat hp h => exact isHeard_receive? h e'
  | watch o hat hp h =>
    rw [← isHeard_receive? h e']
    split <;> rfl

theorem Receives.change (h : Receives e w w') : Change w w' := by
  cases h with
  | outside o h => exact .drift (.received e o h)
  | reset o hat he h => exact .closing (.resetConcluded o hat he h)
  | watch o hat hp h => exact .closing (.watchEnded o hat hp h)
  | reopen o hat hp h => exact .closing (.reopened o hat hp h)

/-- **A change in which nobody receives an outcome marks no entry.** -/
theorem Change.isHeard (hc : Change w w') (hn : ∀ e, ¬ Receives e w w') (e : EntryId) :
    w'.isHeard e = w.isHeard e := by
  cases hc with
  | deed hd => exact hd.aspect (fun _ _ _ => rfl) e
  | drift hd =>
    cases hd with
    | fired t ht =>
      obtain ⟨timers, ready, heq⟩ := fire_eq w t
      rw [heq]
      rfl
    | sat e' => exact isHeard_takeSeat w e' .outside e
    | seatLeft e' entry seat he hs => exact isHeard_leaveSeat w e' seat e
    | received e' o hr => exact absurd (.outside o hr) (hn e')
    | turnTaken | turnSet | passed | folderListed | foldersUnlisted | folderTold => rfl
  | telling ht => cases ht <;> rfl
  | stride hs => exact aspect_of_entries hs.entries_eq e
  | closing hc =>
    cases hc with
    | closed o hat hp => exact isHeard_resolve w _ o e
    | executionEnded | resetRefused | resetForgotten => rfl
    | resetAsked q hat hq => exact isHeard_askReset w _ q _ _ e
    | seatTaken e' hat hp he => exact isHeard_takeSeat w e' _ e
    | resetConcluded o hat he hr => exact absurd (.reset o hat he hr) (hn _)
    | watchEnded o hat hp hr => exact absurd (.watch o hat hp hr) (hn _)
    | reopened o hat hp hr => exact absurd (.reopen o hat hp hr) (hn _)
    | discarded hj ha hp => exact isHeard_discard w _ _ e

end Marks

/-! ## Along a run -/

section Runs

variable {w w' : World} {e : EntryId} {heard : List EntryId} {o : Outcome}

theorem Hears.arises (h : Hears w heard) : Arises w := by
  induction h with
  | new s => exact ⟨s, .refl⟩
  | unheard _ hc _ ih => exact ih.change hc
  | heard _ hr ih => exact ih.change hr.change

/-- Every world has a run to it. -/
theorem Arises.exists_hears (hw : Arises w) : ∃ heard, Hears w heard := by
  refine hw.induction (P := fun w => ∃ heard, Hears w heard) (fun s => ⟨[], .new s⟩) ?_
  rintro w w' - ⟨heard, h⟩ hc
  by_cases hr : ∃ e, Receives e w w'
  · obtain ⟨e, hr⟩ := hr
    exact ⟨e :: heard, .heard h hr⟩
  · exact ⟨heard, .unheard h hc (not_exists.1 hr)⟩

/-- **The entries that are marked are those whose outcomes were received on the way.** -/
theorem Hears.isHeard_iff (h : Hears w heard) : w.isHeard e = true ↔ e ∈ heard := by
  induction h with
  | new s => simp [isHeard, aspect, Setting.world, entryOf?]
  | unheard _ hc hn ih => rw [hc.isHeard hn, ih]
  | heard _ hr ih => rw [hr.isHeard, Bool.or_eq_true, decide_eq_true_iff, ih, List.mem_cons]

/-- Peeked is an outcome that is there, of an entry with the mark. -/
theorem peek_eq_some : w.peek e = some o ↔
    ∃ entry, w.entryOf? e = some entry ∧ entry.isReceived = true ∧ entry.outcome = some o := by
  unfold peek
  cases w.entryOf? e with
  | none => simp
  | some entry => cases hreceived : entry.isReceived <;> simp [hreceived]

/-- An outcome that is there is known. -/
theorem Arises.outcome_iff (hw : Arises w) {entry : Entry} (he : w.entryOf? e = some entry) :
    entry.outcome = some o ↔ w.IsOver e o := by
  rw [outcome_iff_resolved hw.isOrderly he]
  constructor
  · intro hresolved
    obtain ⟨⟨t, x⟩, ht, hx⟩ := mem_seen.1 hresolved
    cases x <;> simp [Happening.resolved?] at hx
    obtain ⟨rfl, rfl⟩ := hx
    exact ⟨t, ht⟩
  · rintro ⟨t, ht⟩
    exact mem_seen.2 ⟨_, ht, rfl⟩

/-- What is peeked is an outcome that is known and was received. -/
theorem Hears.peek_eq_some_iff (h : Hears w heard) :
    w.peek e = some o ↔ w.IsOver e o ∧ e ∈ heard := by
  have hw := h.arises
  rw [peek_eq_some, ← h.isHeard_iff]
  constructor
  · rintro ⟨entry, he, hreceived, ho⟩
    exact ⟨(hw.outcome_iff he).1 ho, by rw [isHeard, aspect, he]; exact hreceived⟩
  · rintro ⟨hover, hheard⟩
    rw [isHeard, aspect] at hheard
    cases he : w.entryOf? e with
    | none =>
      rw [he] at hheard
      exact absurd hheard (by simp)
    | some entry =>
      rw [he] at hheard
      exact ⟨entry, rfl, hheard, (hw.outcome_iff he).2 hover⟩

/-- **A handle shows an outcome if and only if its entry is over with that outcome and somebody
has received it**, in the middle of a turn as well as between two. -/
theorem Hears.peek_iff (h : Hears w heard) {handle : String}
    (hname : w.handleNamed? handle = some e) :
    (w.perform (.peek handle)).2 = .outcome (some o) ↔ w.IsOver e o ∧ e ∈ heard := by
  rw [perform, withHandle, hname, ← h.peek_eq_some_iff]
  exact ⟨Reply.outcome.inj, congrArg Reply.outcome⟩

/-- The only operation of a queue is over, and nobody waits for it. -/
def overUnheard : World :=
  (((requesting { fallback := { delay := 1000 } } ["x"]).takeTurn 0).fire ⟨1000, 0⟩).takeTurn 0

theorem reachable_overUnheard : Reachable overUnheard :=
  (((reachable_requesting _ _).next (.turn 0 (by decide))).next
    (.fire ⟨1000, 0⟩ (by decide))).next (.turn 0 (by decide))

/-- The handle shows the outcome when the user has waited for it. -/
theorem peek_iff_awaited : ∃ (w : World) (heard : List EntryId), Hears w heard ∧
    w.handleNamed? "x" = some 0 ∧ 0 ∈ heard ∧ w.IsOver 0 (.exited 0) ∧
      (w.perform (.peek "x")).2 = .outcome (some (.exited 0)) := by
  obtain ⟨heard, h⟩ := reachable_overUnheard.arises.exists_hears
  have hheard := h.heard (.outside (e := 0) (.exited 0) rfl)
  have hover : overUnheard.IsOver 0 (.exited 0) := ⟨1000, by decide⟩
  exact ⟨_, _, hheard, rfl, List.mem_cons_self, hover,
    (hheard.peek_iff rfl).2 ⟨hover, List.mem_cons_self⟩⟩

/-- **An entry that is over shows nothing** as long as nobody has received its outcome. -/
theorem not_peek_of_finished : ∃ (w : World) (e : EntryId) (o : Outcome), Reachable w ∧
    w.handleNamed? "x" = some e ∧ w.IsOver e o ∧ (w.perform (.peek "x")).2 = .outcome none :=
  ⟨_, 0, .exited 0, reachable_overUnheard, rfl, ⟨1000, by decide⟩, rfl⟩

end Runs

end FolderTasks.Dispatch.World
