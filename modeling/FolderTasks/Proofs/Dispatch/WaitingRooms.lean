import FolderTasks.Proofs.Dispatch.RemainingStages
import FolderTasks.Proofs.Dispatch.HandleOutcomes
import FolderTasks.Proofs.Dispatch.QueueWithholding
/-!
# Who waits in the room of an entry

Whoever waits for an outcome has a seat in the waiting room of its entry.  A free seat is empty, a
job that waits sits in the seat that it remembers, and no job sits where it does not wait, unless it
is over already.  So a job that gives up its seat is gone from the room, and nobody else is.

## Main definitions

* `WaitingRoom.IsSound`: free seats are empty.
* `World.Sits`: a job has a seat among those who wait for an entry.
* `World.IsSeated`: seats and jobs agree.

## Main statements

* `WaitingRoom.IsSound.getElem?_enter`, `WaitingRoom.getElem?_leave`: who sits in a room after
  somebody came or left.
* `World.Arises.isSeated`: seats and jobs always agree.
-/

namespace FolderTasks.Dispatch

namespace WaitingRoom

/-- Free seats are empty, and none is free twice. -/
structure IsSound (r : WaitingRoom) : Prop where
  nodup : r.free.Nodup
  empty : ∀ seat ∈ r.free, r.seats[seat]? = some none

variable {r : WaitingRoom} {who other : Waiter} {seat s : Nat}

theorem isSound_empty : ({} : WaitingRoom).IsSound :=
  ⟨List.nodup_nil, fun _ h => absurd h (by simp)⟩

/-- **Who comes sits down**, and nobody else moves. -/
theorem IsSound.getElem?_enter (h : r.IsSound) {x : Waiter} :
    (r.enter who).1.seats[s]? = some (some x) ↔
      s = (r.enter who).2 ∧ x = who ∨ r.seats[s]? = some (some x) := by
  unfold WaitingRoom.enter
  split
  · rw [List.getElem?_append]
    split
    · next hlt => simp [Nat.ne_of_lt hlt]
    · next hlt =>
      rw [List.getElem?_eq_none (l := r.seats) (Nat.le_of_not_lt hlt), List.getElem?_singleton]
      split
      · next hs =>
        have heq : s = r.seats.length := by omega
        simp [heq, eq_comm]
      · next hs =>
        have hne : s ≠ r.seats.length := by omega
        simp [hne]
  · next seat free hfree =>
    have hempty := h.empty seat (by rw [hfree]; exact List.mem_cons_self)
    have hlt := (List.getElem?_eq_some_iff.1 hempty).1
    dsimp only
    by_cases hs : s = seat
    · subst hs
      rw [hempty]
      simp [hlt, eq_comm (a := x)]
    · simp [List.getElem?_set_ne (Ne.symm hs), hs]

theorem IsSound.enter (h : r.IsSound) (who : Waiter) : (r.enter who).1.IsSound := by
  unfold WaitingRoom.enter
  split
  · next hfree => exact ⟨by rw [hfree]; exact List.nodup_nil, by simp [hfree]⟩
  · next seat free hfree =>
    have hnodup := hfree ▸ h.nodup
    rw [List.nodup_cons] at hnodup
    refine ⟨hnodup.2, fun s hs => ?_⟩
    have hne : s ≠ seat := fun heq => hnodup.1 (heq ▸ hs)
    rw [List.getElem?_set_ne (Ne.symm hne)]
    exact h.empty s (by rw [hfree]; exact List.mem_cons_of_mem _ hs)

/-- The seat of somebody who sits there can be given up. -/
theorem IsSound.leave (h : r.IsSound) (hs : r.seats[seat]? = some (some who)) :
    (r.leave seat).IsSound := by
  have hlt := (List.getElem?_eq_some_iff.1 hs).1
  have hnot : seat ∉ r.free := fun hmem => by simp [h.empty seat hmem] at hs
  refine ⟨List.nodup_cons.2 ⟨hnot, h.nodup⟩, fun s hmem => ?_⟩
  change (r.seats.set seat none)[s]? = _
  rcases List.mem_cons.1 hmem with rfl | hmem
  · simp [hlt]
  · have hne : s ≠ seat := fun heq => hnot (heq ▸ hmem)
    rw [List.getElem?_set_ne (Ne.symm hne)]
    exact h.empty s hmem

/-- **Who leaves is gone from the seat**, and nobody else moves. -/
theorem getElem?_leave (r : WaitingRoom) (seat s : Nat) (x : Waiter) :
    (r.leave seat).seats[s]? = some (some x) ↔ s ≠ seat ∧ r.seats[s]? = some (some x) := by
  change (r.seats.set seat none)[s]? = _ ↔ _
  by_cases hs : s = seat
  · subst hs
    simp [List.getElem?_set]
  · rw [List.getElem?_set_ne (Ne.symm hs)]
    exact ⟨fun h => ⟨hs, h⟩, fun h => h.2⟩

end WaitingRoom

/-- The jobs among those who wait are those who sit there. -/
theorem World.mem_waitingJobs {room : WaitingRoom} {j : JobId} :
    j ∈ World.waitingJobs room ↔ ∃ s : Nat, room.seats[s]? = some (some (.job j)) := by
  have hseat : (.job j) ∈ room.waiting ↔ ∃ s : Nat, room.seats[s]? = some (some (.job j)) := by
    rw [WaitingRoom.waiting, List.mem_filterMap]
    constructor
    · rintro ⟨x, hx, heq⟩
      obtain ⟨s, hs⟩ := List.mem_iff_getElem?.1 hx
      exact ⟨s, by rw [hs]; exact congrArg some heq⟩
    · rintro ⟨s, hs⟩
      exact ⟨_, List.mem_of_getElem? hs, rfl⟩
  rw [← hseat, World.waitingJobs, List.mem_filterMap]
  constructor
  · rintro ⟨who, hwho, heq⟩
    cases who with
    | job i => exact Option.some.inj heq ▸ hwho
    | outside => exact absurd heq (by simp)
  · intro h
    exact ⟨_, h, rfl⟩

namespace World

/-- The room of those who wait for an entry. -/
def roomOf (w : World) (e : EntryId) : WaitingRoom := ((w.entryOf? e).map Entry.room).getD {}

/-- A job has a seat among those who wait for an entry. -/
def Sits (w : World) (j : JobId) (e : EntryId) : Prop :=
  ∃ s : Nat, (w.roomOf e).seats[s]? = some (some (.job j))

/-- **Seats and jobs agree**: a job that sits somewhere executes no command, a reset that sits
somewhere waits there or is over, and a reset that waits sits in its seat. -/
structure IsSeated (w : World) : Prop where
  sound : ∀ e, (w.roomOf e).IsSound
  awaits : ∀ {e : EntryId} {s : Nat} {j : JobId}, (w.roomOf e).seats[s]? = some (some (.job j)) →
    ∃ errand p, w.At j errand p ∧ errand.isCall = false ∧
      (errand.isNamed → p = .awaiting e s ∨ p = .done)
  sits : ∀ {j : JobId} {errand : Errand} {e : EntryId} {s : Nat}, w.At j errand (.awaiting e s) →
    errand.isNamed → (w.roomOf e).seats[s]? = some (some (.job j))

/-! ## What is kept with an entry -/

/-- What is kept with an entry, or a default where there is none. -/
def aspect {α : Type} (w : World) (g : Entry → α) (d : α) (e : EntryId) : α :=
  ((w.entryOf? e).map g).getD d

section Aspects

variable {α : Type} {g : Entry → α} {d : α} {w w' : World}

theorem aspect_of_entries (h : w'.entries = w.entries) (e : EntryId) :
    w'.aspect g d e = w.aspect g d e := by
  rw [aspect, entryOf?, h, aspect, entryOf?]

theorem aspect_modifyEntry (w : World) (e e' : EntryId) {f : Entry → Entry}
    (hf : ∀ entry, g (f entry) = g entry) :
    (w.modifyEntry e f).aspect g d e' = w.aspect g d e' := by
  rw [aspect, aspect, entryOf?, entryOf?, modifyEntry, List.getElem?_modify]
  cases w.entries[e']? with
  | none => rfl
  | some entry => by_cases h : e = e' <;> simp [h, hf]

/-- What is kept with the entries after that of one was changed. -/
theorem aspect_set (w : World) {e : EntryId} {f : Entry → Entry} (x : α) (e' : EntryId)
    (h : (w.entryOf? e).isSome) (hf : ∀ entry, w.entryOf? e = some entry → g (f entry) = x) :
    (w.modifyEntry e f).aspect g d e' = if e' = e then x else w.aspect g d e' := by
  obtain ⟨entry, he⟩ := Option.isSome_iff_exists.1 h
  rw [aspect, entryOf?, modifyEntry, List.getElem?_modify]
  by_cases heq : e' = e
  · subst heq
    rw [if_pos rfl, ← hf entry he]
    rw [entryOf?] at he
    simp [he]
  · rw [if_neg heq, aspect, entryOf?]
    cases w.entries[e']? <;> simp [Ne.symm heq]

/-- A new entry is kept with the default. -/
theorem aspect_append (hnew : ∀ q op token, g { queue := q, operation := op, token } = d)
    (w : World) (q : QueueId) (queue : Queue) (op : Operation) (token : Option String)
    (e : EntryId) : (w.append q queue op token).1.aspect g d e = w.aspect g d e := by
  change ((w.entries ++ [{ queue := q, operation := op, token }])[e]?.map g).getD d = _
  rw [aspect, entryOf?, List.getElem?_append]
  by_cases hlt : e < w.entries.length
  · rw [if_pos hlt]
  · rw [if_neg hlt, List.getElem?_eq_none (l := w.entries) (Nat.le_of_not_lt hlt)]
    cases e - w.entries.length with
    | zero => exact hnew q op token
    | succ _ => rfl

theorem aspect_request (hnew : ∀ q op token, g { queue := q, operation := op, token } = d)
    (w : World) (q : QueueId) (op : Operation) (token : Option String) (e : EntryId) :
    (w.request q op token).1.aspect g d e = w.aspect g d e := by
  rcases request_eq w q op token with heq | ⟨queue, e', -, -, heq⟩ | ⟨queue, -, -, heq⟩
  · rw [heq]
  · rw [heq]
    rfl
  · rw [heq, ← aspect_append hnew w q queue op token e]
    exact aspect_of_entries (dispatch_entries _ q) e

theorem aspect_wakeAll (w : World) (js : List JobId) (e : EntryId) :
    (w.wakeAll js).aspect g d e = w.aspect g d e := by
  obtain ⟨ready, heq⟩ := wakeAll_eq js w
  rw [heq]
  rfl

theorem aspect_resolve (hout : ∀ entry o, g { entry with outcome := some o } = g entry) (w : World)
    (e : EntryId) (o : Outcome) (e' : EntryId) :
    (w.resolve e o).aspect g d e' = w.aspect g d e' := by
  unfold resolve
  split
  · rfl
  · next entry he =>
    have hdispatched : ((((w.modifyQueue entry.queue fun queue =>
        { queue with active := none }).note (.vacated e)).dispatch entry.queue).aspect g d e') =
        w.aspect g d e' :=
      aspect_of_entries (dispatch_entries _ _) e'
    rw [← hdispatched, deliver]
    split
    · rfl
    · exact (aspect_wakeAll _ _ e').trans (aspect_modifyEntry _ e e' fun entry => hout entry o)

/-- An action changes nothing that is kept with the entries. -/
theorem Deed.aspect (hnew : ∀ q op token, g { queue := q, operation := op, token } = d)
    (hd : Deed w w') (e : EntryId) : w'.aspect g d e = w.aspect g d e := by
  cases hd with
  | requested q op token => exact aspect_request hnew w q op token e
  | cancelled name =>
    obtain ⟨tokens, ready, heq⟩ := cancel_eq w name
    rw [heq]
    rfl
  | disposed =>
    unfold disposeManager
    split <;> rfl
  | abandoned name j hj =>
    rcases abandonJob_eq w j with heq | ⟨ready, heq⟩ <;> rw [heq]
    rfl
  | scripted | named | queueMade | withheld | watched | begun | observed | answered => rfl

end Aspects

/-! ## Rooms -/

section Rooms

variable {w w' : World} {e e' : EntryId} {j : JobId}

theorem roomOf_of_entries (h : w'.entries = w.entries) (e : EntryId) :
    w'.roomOf e = w.roomOf e := aspect_of_entries h e

theorem roomOf_modifyEntry (w : World) (e e' : EntryId) {f : Entry → Entry}
    (hf : ∀ entry, (f entry).room = entry.room) : (w.modifyEntry e f).roomOf e' = w.roomOf e' :=
  aspect_modifyEntry w e e' hf

/-- The rooms after the room of an entry was changed. -/
theorem roomOf_setRoom (w : World) {e : EntryId} (f : WaitingRoom → WaitingRoom) (e' : EntryId)
    (h : (w.entryOf? e).isSome) :
    (w.modifyEntry e fun entry => { entry with room := f entry.room }).roomOf e' =
      if e' = e then f (w.roomOf e) else w.roomOf e' := by
  refine aspect_set w (f (w.roomOf e)) e' h fun entry he => ?_
  rw [roomOf, he]
  rfl

/-- Nobody waits yet for a new entry. -/
theorem roomOf_append (w : World) (q : QueueId) (queue : Queue) (op : Operation)
    (token : Option String) (e : EntryId) :
    (w.append q queue op token).1.roomOf e = w.roomOf e :=
  aspect_append (fun _ _ _ => rfl) w q queue op token e

theorem roomOf_request (w : World) (q : QueueId) (op : Operation) (token : Option String)
    (e : EntryId) : (w.request q op token).1.roomOf e = w.roomOf e :=
  aspect_request (fun _ _ _ => rfl) w q op token e

theorem roomOf_resolve (w : World) (e : EntryId) (o : Outcome) (e' : EntryId) :
    (w.resolve e o).roomOf e' = w.roomOf e' := aspect_resolve (fun _ _ => rfl) w e o e'

theorem roomOf_receive? {o : Outcome} (hr : w.receive? e = some (w', o)) (e' : EntryId) :
    w'.roomOf e' = w.roomOf e' := by
  unfold receive? at hr
  split at hr
  · obtain ⟨rfl, -⟩ := Prod.mk.inj (Option.some.inj hr)
    exact roomOf_modifyEntry w e e' fun _ => rfl
  · exact absurd hr (by simp)

/-- Somebody comes: the room of the entry changes, if there is an entry. -/
theorem roomOf_takeSeat (w : World) (e : EntryId) (who : Waiter) (e' : EntryId)
    (h : (w.entryOf? e).isSome) : (w.takeSeat e who).2 = ((w.roomOf e).enter who).2 ∧
      (w.takeSeat e who).1.roomOf e' =
        if e' = e then ((w.roomOf e).enter who).1 else w.roomOf e' := by
  obtain ⟨entry, he⟩ := Option.isSome_iff_exists.1 h
  have hroom : w.roomOf e = entry.room := by rw [roomOf, he]; rfl
  have hset := roomOf_setRoom w (fun _ => (entry.room.enter who).1) e' h
  rw [takeSeat, he, hroom]
  exact ⟨rfl, hset⟩

theorem roomOf_leaveSeat (w : World) {e : EntryId} (seat : Nat) (e' : EntryId)
    (h : (w.entryOf? e).isSome) :
    (w.leaveSeat e seat).roomOf e' = if e' = e then (w.roomOf e).leave seat else w.roomOf e' :=
  roomOf_setRoom w (fun room => room.leave seat) e' h

end Rooms

/-! ## Seats and jobs agree -/

section Seated

variable {w w' : World} {j : JobId} {errand : Errand} {p : Position}

/-- A change that leaves the rooms alone, and has nobody begin to wait. -/
theorem IsSeated.kept (h : w.IsSeated) (hrooms : ∀ e, w'.roomOf e = w.roomOf e)
    (hforth : ∀ {j : JobId} {errand : Errand} {p : Position}, errand.isCall = false →
      w.At j errand p → w'.At j errand p ∨ w'.At j errand .done)
    (hback : ∀ {j : JobId} {errand : Errand} {e : EntryId} {s : Nat}, errand.isNamed →
      w'.At j errand (.awaiting e s) → w.At j errand (.awaiting e s)) : w'.IsSeated where
  sound e := hrooms e ▸ h.sound e
  awaits hs := by
    rw [hrooms] at hs
    obtain ⟨errand, p, hat, hcall, hp⟩ := h.awaits hs
    rcases hforth hcall hat with hat | hat
    · exact ⟨errand, p, hat, hcall, hp⟩
    · exact ⟨errand, .done, hat, hcall, fun _ => .inr rfl⟩
  sits hat hnamed := by
    rw [hrooms]
    exact h.sits (hback hnamed hat) hnamed

/-- A change that moves no job and leaves the rooms alone. -/
theorem IsSeated.stays {O : List Origin} (h : w.IsSeated) (hq : Quiet w w') (hm : Mild O w w')
    (hrooms : ∀ e, w'.roomOf e = w.roomOf e) : w'.IsSeated := by
  refine h.kept hrooms (fun _ hat => .inl (hm.stays hat)) fun _ hat => ?_
  rcases hq.at_back hat with hp | ⟨p, hat', -⟩
  · exact absurd hp (by simp)
  · exact (hm.stays hat').unique hat |>.2 ▸ hat'

theorem IsSeated.of_eq (h : w.IsSeated) (hentries : w'.entries = w.entries)
    (hjobs : w'.jobs = w.jobs) : w'.IsSeated :=
  h.kept (roomOf_of_entries hentries) (fun _ hat => .inl (hat.of_jobs (hjobs ▸ List.prefix_rfl)))
    fun _ hat => hat.of_jobs (hjobs ▸ List.prefix_rfl)

/-- A job is at another position; if it is a reset, it is over. -/
theorem IsSeated.setPosition (h : w.IsSeated) (hat : w.At j errand p)
    (hp' : errand.isNamed → ∀ e s, p' ≠ .awaiting e s)
    (hmay : errand.isNamed → errand.isCall ∨ p' = .done) : (w.setPosition j p').IsSeated where
  sound := h.sound
  awaits {e s i} hs := by
    obtain ⟨errand', p₀, hi, hcall, hp₀⟩ := h.awaits hs
    by_cases hij : j = i
    · subst hij
      obtain ⟨rfl, rfl⟩ := hat.unique hi
      refine ⟨errand, p', hat.setPosition p', hcall,
        fun hnamed => .inr ((hmay hnamed).resolve_left ?_)⟩
      rw [hcall]
      exact Bool.false_ne_true
    · exact ⟨errand', p₀, hi.setPosition_of_ne hij p', hcall, hp₀⟩
  sits {i errand' e s} hi hnamed := by
    rcases at_setPosition_cases hi with ⟨rfl, rfl, p₀, hat'⟩ | ⟨-, hi⟩
    · exact absurd rfl (hp' ((hat.unique hat').1 ▸ hnamed) e s)
    · exact h.sits hi hnamed

theorem IsSeated.endJob (h : w.IsSeated) (hat : w.At j errand p) : (w.endJob j).IsSeated :=
  h.setPosition hat (fun _ _ _ => by simp) fun _ => .inr rfl

/-- A job takes a seat, and if it is a reset, it has just begun. -/
theorem IsSeated.takeSeat (h : w.IsSeated) {e : EntryId} (he : (w.entryOf? e).isSome)
    (hat : w.At j errand p) (hcall : errand.isCall = false)
    (hp : errand.isNamed → p = .fresh) :
    ((w.takeSeat e (.job j)).1.setPosition j
      (.awaiting e (w.takeSeat e (.job j)).2)).IsSeated := by
  generalize hw' : (w.takeSeat e (.job j)).1.setPosition j
    (.awaiting e (w.takeSeat e (.job j)).2) = w'
  obtain ⟨hseat, -⟩ := roomOf_takeSeat w e (.job j) e he
  have hrooms (e' : EntryId) : w'.roomOf e' =
      if e' = e then ((w.roomOf e).enter (.job j)).1 else w.roomOf e' :=
    hw' ▸ (roomOf_takeSeat w e (.job j) e' he).2
  have hjobs : (w.takeSeat e (.job j)).1.jobs = w.jobs := by
    unfold World.takeSeat
    split <;> rfl
  have hjob (i : JobId) : w'.jobs[i]? = (w.jobs[i]?).map fun job =>
      if j = i then { job with position := .awaiting e ((w.roomOf e).enter (.job j)).2 }
        else job := by
    rw [← hw', getElem?_setPosition, hjobs, hseat]
  have hseats {e' : EntryId} {s : Nat} {i : JobId} :
      (w'.roomOf e').seats[s]? = some (some (.job i)) ↔
        (e' = e ∧ s = ((w.roomOf e).enter (.job j)).2 ∧ i = j) ∨
          (w.roomOf e').seats[s]? = some (some (.job i)) := by
    rw [hrooms]
    by_cases heq : e' = e
    · rw [if_pos heq, (h.sound e).getElem?_enter, heq]
      simp
    · rw [if_neg heq]
      simp [heq]
  refine ⟨fun e' => ?_, fun {e' s i} hs => ?_, ?_⟩
  · rw [hrooms]
    split
    · exact (h.sound e).enter _
    · exact h.sound e'
  · rcases hseats.1 hs with ⟨rfl, rfl, rfl⟩ | hs
    · obtain ⟨given, hj⟩ := hat
      exact ⟨errand, _, ⟨given, by rw [hjob, hj, Option.map_some, if_pos rfl]⟩, hcall,
        fun _ => .inl rfl⟩
    · obtain ⟨errand', p', hi, hcall', hp'⟩ := h.awaits hs
      by_cases hij : j = i
      · subst hij
        obtain ⟨rfl, rfl⟩ := hat.unique hi
        obtain ⟨given, hi⟩ := hi
        refine ⟨errand, _, ⟨given, by rw [hjob, hi, Option.map_some, if_pos rfl]⟩, hcall', ?_⟩
        -- A reset sits nowhere before it has begun to wait.
        intro hnamed
        rcases hp' hnamed with hp' | hp' <;> exact absurd ((hp hnamed).symm.trans hp') (by simp)
      · obtain ⟨given, hi⟩ := hi
        exact ⟨errand', p', ⟨given, by rw [hjob, hi, Option.map_some, if_neg hij]⟩, hcall', hp'⟩
  · rintro i errand' e' s ⟨given, hi⟩ hnamed
    rw [hjob] at hi
    obtain ⟨job, hi', heq⟩ := Option.map_eq_some_iff.1 hi
    split at heq
    · next hij =>
      obtain ⟨-, hawaits, -⟩ := Job.mk.inj heq
      obtain ⟨rfl, rfl⟩ := Position.awaiting.inj hawaits
      exact hseats.2 (.inl ⟨rfl, rfl, hij.symm⟩)
    · exact hseats.2 (.inr (h.sits ⟨given, heq ▸ hi'⟩ hnamed))

/-- Somebody outside all jobs takes a seat. -/
theorem IsSeated.sit (h : w.IsSeated) (e : EntryId) : (w.takeSeat e .outside).1.IsSeated := by
  cases he : w.entryOf? e with
  | none =>
    rw [World.takeSeat, he]
    exact h
  | some entry =>
    have hisSome : (w.entryOf? e).isSome := by rw [he]; rfl
    have hrooms (e' : EntryId) := (roomOf_takeSeat w e .outside e' hisSome).2
    have hjobs : (w.takeSeat e .outside).1.jobs = w.jobs := by
      unfold World.takeSeat
      split <;> rfl
    have hseats {e' : EntryId} {s : Nat} {i : JobId} :
        ((w.takeSeat e .outside).1.roomOf e').seats[s]? = some (some (.job i)) ↔
          (w.roomOf e').seats[s]? = some (some (.job i)) := by
      rw [hrooms]
      by_cases heq : e' = e
      · rw [if_pos heq, (h.sound e).getElem?_enter, heq]
        simp
      · rw [if_neg heq]
    refine ⟨fun e' => ?_, fun hs => ?_, fun hat hnamed => ?_⟩
    · rw [hrooms]
      split
      · exact (h.sound e).enter _
      · exact h.sound e'
    · obtain ⟨errand, p, hat, hrest⟩ := h.awaits (hseats.1 hs)
      exact ⟨errand, p, hat.of_jobs (hjobs ▸ List.prefix_rfl), hrest⟩
    · exact hseats.2 (h.sits (hat.of_jobs (hjobs ▸ List.prefix_rfl)) hnamed)

/-- Who sits in a seat gives it up; a job that does so is over. -/
theorem IsSeated.leave (h : w.IsSeated) {e : EntryId} {seat : Nat} {who : Waiter}
    (hs : (w.roomOf e).seats[seat]? = some (some who)) (hrooms : ∀ e', w'.roomOf e' =
      if e' = e then (w.roomOf e).leave seat else w.roomOf e')
    (hforth : ∀ {j : JobId} {errand : Errand} {p : Position}, errand.isCall = false →
      w.At j errand p → w'.At j errand p ∨ w'.At j errand .done)
    (hback : ∀ {j : JobId} {errand : Errand} {e : EntryId} {s : Nat},
      w'.At j errand (.awaiting e s) → w.At j errand (.awaiting e s) ∧ who ≠ .job j) :
    w'.IsSeated where
  sound e' := by
    rw [hrooms]
    split
    · exact (h.sound e).leave hs
    · exact h.sound e'
  awaits {e' s j} hs' := by
    have hold : (w.roomOf e').seats[s]? = some (some (.job j)) := by
      rw [hrooms] at hs'
      split at hs'
      · next heq => exact heq ▸ ((WaitingRoom.getElem?_leave ..).1 hs').2
      · exact hs'
    obtain ⟨errand, p, hat, hcall, hp⟩ := h.awaits hold
    rcases hforth hcall hat with hat | hat
    · exact ⟨errand, p, hat, hcall, hp⟩
    · exact ⟨errand, .done, hat, hcall, fun _ => .inr rfl⟩
  sits {j errand e' s} hat hnamed := by
    obtain ⟨hat, hne⟩ := hback hat
    have hold := h.sits hat hnamed
    rw [hrooms]
    split
    · next heq =>
      subst heq
      refine (WaitingRoom.getElem?_leave ..).2 ⟨?_, hold⟩
      rintro rfl
      rw [hs] at hold
      exact hne (Option.some.inj (Option.some.inj hold))
    · exact hold

/-- A reset that waits is the only one in its seat, and sits in no other. -/
theorem IsSeated.only (h : w.IsSeated) {e : EntryId} {seat : Nat}
    (hat : w.At j errand (.awaiting e seat)) (hnamed : errand.isNamed) {s : Nat} {a : JobId}
    (hs : (w.roomOf e).seats[s]? = some (some (.job a))) : s = seat ↔ j = a := by
  have hseat := h.sits hat hnamed
  constructor
  · rintro rfl
    exact Waiter.job.inj (Option.some.inj (Option.some.inj (hseat.symm.trans hs)))
  · rintro rfl
    obtain ⟨errand', p', hat', -, hp'⟩ := h.awaits hs
    obtain ⟨rfl, rfl⟩ := hat.unique hat'
    rcases hp' hnamed with heq | heq
    · exact (Position.awaiting.inj heq).2.symm
    · exact absurd heq (by simp)

/-! ## Folders -/

theorem Change.folders_lt (hc : Change w w') (h : ∀ f ∈ w.folders, f.2 < w.queues.length) :
    ∀ f ∈ w'.folders, f.2 < w'.queues.length := by
  have hlength : w.queues.length ≤ w'.queues.length := by
    have hle := hc.shift.length_le
    rwa [slots, slots, List.length_map, List.length_map] at hle
  have hkept (hfolders : w'.folders = w.folders) : ∀ f ∈ w'.folders, f.2 < w'.queues.length := by
    rw [hfolders]
    exact fun f hf => Nat.lt_of_lt_of_le (h f hf) hlength
  cases hc with
  | deed hd =>
    cases hd with
    | requested q op token => exact hkept (folders_request w q op token)
    | cancelled name => exact hkept (congrArg Prod.snd (holdings_cancel w name))
    | disposed => exact hkept (congrArg Prod.snd (holdings_disposeManager w))
    | abandoned name j => exact hkept (congrArg Prod.snd (holdings_abandonJob w j))
    | scripted | named | queueMade | withheld | watched | begun | observed | answered =>
      exact hkept rfl
  | drift hd =>
    cases hd with
    | folderListed folder q hq =>
      intro f hf
      rcases List.mem_append.1 hf with hf | hf
      · exact h f hf
      · rw [List.mem_singleton.1 hf]
        exact hq
    | foldersUnlisted folders hfolders => exact fun f hf => h f (hfolders f hf)
    | fired t => exact hkept (congrArg Prod.snd (holdings_fire w t))
    | sat e => exact hkept (congrArg Prod.snd (holdings_takeSeat w e .outside))
    | received e o hr => exact hkept (congrArg Prod.snd (holdings_receive? hr))
    | turnTaken | turnSet | passed | folderTold | seatLeft => exact hkept rfl
  | telling ht => exact hkept (congrArg Prod.snd ht.holdings)
  | stride hs => exact hkept (congrArg Prod.snd hs.holdings)
  | closing hc => exact hkept hc.commissions.folders

/-- The queues of the folders are there. -/
theorem Arises.folders_lt (hw : Arises w) : ∀ f ∈ w.folders, f.2 < w.queues.length :=
  hw.induction (P := fun w => ∀ f ∈ w.folders, f.2 < w.queues.length)
    (fun _ _ hf => absurd hf List.not_mem_nil) fun _ h hc => hc.folders_lt h

theorem Arises.folderQueue?_lt (hw : Arises w) {folder : Path} {q : QueueId}
    (hq : w.folderQueue? folder = some q) : q < w.queues.length := by
  obtain ⟨f, hf, rfl⟩ := Option.map_eq_some_iff.1 hq
  exact hw.folders_lt f (List.mem_of_find?_eq_some hf)

/-! ## Every change -/

theorem roomOf_discardReset {e : EntryId} {entry : Entry} (he : w.entryOf? e = some entry)
    (seat : Nat) (e' : EntryId) : (w.discardReset e seat).roomOf e' =
      if e' = e then (w.roomOf e).leave seat else w.roomOf e' := by
  rw [← roomOf_leaveSeat w seat e' (by rw [he]; rfl), discardReset, he]
  dsimp only
  split <;> rfl

/-- A job that was given up is dropped: if it waits, it leaves its seat. -/
theorem IsSeated.discard (h : w.IsSeated) {job : Job} (hj : w.jobs[j]? = some job) :
    (w.discard j job).IsSeated := by
  have hat : w.At j job.errand job.position := ⟨job.isAbandoned, hj⟩
  have hended {w₁ : World} (h₁ : w₁.IsSeated) (hjobs : w₁.jobs = w.jobs) :
      (w₁.endJob j).IsSeated :=
    h₁.endJob (hat.of_jobs (hjobs ▸ List.prefix_rfl))
  unfold World.discard
  split
  · next name command token _ =>
    obtain ⟨tokens, timers, ready, guard, heq⟩ := dropExecution_eq w ⟨j, command, token⟩
    rw [heq]
    exact hended (h.of_eq rfl rfl) rfl
  · next e seat herrand hposition =>
    rw [hposition] at hat
    have hs := h.sits hat (by rw [herrand]; rfl)
    cases he : w.entryOf? e with
    | none =>
      rw [discardReset, he]
      exact hended h rfl
    | some entry =>
      have hjobs : ∃ more, (w.discardReset e seat).jobs = w.jobs ++ more ∧
          ∀ job ∈ more, job.position = .fresh := by
        rw [discardReset, he]
        dsimp only
        split
        · exact ⟨[], (List.append_nil _).symm, by simp⟩
        · exact ⟨[_], rfl, by simp⟩
      obtain ⟨more, hjobs, hmore⟩ := hjobs
      have hlt := (List.getElem?_eq_some_iff.1 hj).1
      refine h.leave hs (roomOf_discardReset he seat) ?_ ?_
      · intro i errand' p' _ hi
        have hi' : (w.discardReset e seat).At i errand' p' :=
          hi.of_jobs (hjobs ▸ List.prefix_append _ _)
        by_cases hij : j = i
        · subst hij
          exact .inr (hi'.setPosition .done)
        · exact .inl (hi'.setPosition_of_ne hij .done)
      · intro i errand' e' s hi
        rcases at_setPosition_cases hi with ⟨-, hp, -⟩ | ⟨hij, given, hi⟩
        · exact absurd hp (by simp)
        · refine ⟨?_, fun heq => hij (Waiter.job.inj heq).symm⟩
          rw [hjobs] at hi
          rcases getElem?_append_cases hi with hi | ⟨-, hnew⟩
          · exact ⟨given, hi⟩
          · exact absurd (hmore _ hnew) (by simp)
  · exact hended h rfl

/-- An action leaves everybody where they sit. -/
theorem Deed.roomOf (hd : Deed w w') (e : EntryId) : w'.roomOf e = w.roomOf e :=
  hd.aspect (fun _ _ _ => rfl) e

theorem IsSeated.deed (h : w.IsSeated) (hd : Deed w w') : w'.IsSeated :=
  h.stays hd.quiet hd.mild hd.roomOf

theorem IsSeated.drift (h : w.IsSeated) (hd : Drift w w') : w'.IsSeated := by
  cases hd with
  | turnTaken | turnSet | passed | folderListed | foldersUnlisted | folderTold =>
    exact h.of_eq rfl rfl
  | fired t ht =>
    obtain ⟨timers, ready, heq⟩ := fire_eq w t
    rw [heq]
    exact h.of_eq rfl rfl
  | sat e => exact h.sit e
  | seatLeft e entry seat he hs =>
    have houtside : (w.roomOf e).seats[seat]? = some (some .outside) := by
      rw [roomOf, he]
      exact hs
    exact h.leave houtside (fun e' => roomOf_leaveSeat w seat e' (by rw [he]; rfl))
      (fun _ hat => .inl hat) fun hat => ⟨hat, by simp⟩
  | received e o hr =>
    exact h.kept (roomOf_receive? hr) (fun _ hat => .inl ((mild_receive? (O := []) hr).stays hat))
      fun _ hat => hat.of_jobs (by rw [jobs_receive? hr])

theorem IsSeated.stride (h : w.IsSeated) (hs : Stride w w') : w'.IsSeated := by
  have hmoved {call : Call} {p p' : Position} (hat : w.CallAt call p)
      (hp' : ∀ e s, p' ≠ .awaiting e s) (hentries : w'.entries = w.entries)
      (hjobs : w'.jobs = (w.setPosition call.job p').jobs) : w'.IsSeated := by
    obtain ⟨errand, hat, hcall⟩ := hat
    have hcall : errand.isCall := by
      cases errand with
      | operation | execution => rfl
      | reset | watch | reopen => exact absurd hcall (by simp [callOf?])
    exact (h.setPosition hat (fun _ => hp') fun _ => .inl hcall).of_eq hentries hjobs
  have hmoves {call : Call} {p p' : Position} (hm : Moves w w' call p p')
      (hp' : ∀ e s, p' ≠ .awaiting e s) : w'.IsSeated := hmoved hm.serves hp' hm.entries hm.jobs
  cases hs with
  | rejected hat | turnedAway hat | lineLeft hat | startAsked hat | forsaken hat | completed hat
  | terminated hat | guardTaken hat => exact hmoved hat (fun _ _ => by simp) rfl rfl
  | lineJoined hat => exact hmoves hat.joins (fun _ _ => by simp)
  | guardReturned hat => exact hmoves hat.returns (fun _ _ => by simp)
  | refused hat => exact hmoves (hat.refused _) (fun _ _ => by simp)
  | started hat => exact hmoves (hat.starts _ _) (fun _ _ => by simp)
  | unlistened j token =>
    obtain ⟨tokens, heq⟩ := unlisten_eq w token j
    exact h.of_eq (by rw [heq]) (by rw [heq])
  | timerCleared | startDelayed => exact h.of_eq rfl rfl
  | endAwaited hat =>
    obtain ⟨tokens, heq⟩ := listen_eq (w.setTimer _ _) _ _
    rw [heq]
    exact h.of_eq rfl rfl

theorem takeSeat_of_none (e : EntryId) (who : Waiter) (he : w.entryOf? e = none) :
    w.takeSeat e who = (w, 0) := by rw [World.takeSeat, he]

/-- A reset is asked for, and nobody sits elsewhere. -/
theorem IsSeated.requestReset (h : w.IsSeated) (q : QueueId) (op : Operation)
    (token : Option String) : ((w.withhold q true).request q op token).1.IsSeated :=
  IsSeated.stays (w := w.withhold q true) (h.of_eq rfl rfl) (adds_request _ q _ token).quiet
    (mild_request (O := [.deed]) _ q _ token (by simp)) (roomOf_request _ q _ token)

theorem IsSeated.closing (h : w.IsSeated) (hw : Arises w) (hc : Closing w w') : w'.IsSeated := by
  have hreceived {w₁ w₂ : World} {j : JobId} {errand : Errand} {p : Position} {e : EntryId}
      {o : Outcome} (hr : w.receive? e = some (w₁, o)) (hat : w.At j errand p)
      (hentries : w₂.entries = w₁.entries) (hjobs : w₂.jobs = w₁.jobs) :
      (w₂.endJob j).IsSeated := by
    have hprefix : w₂.jobs <+: w.jobs := by rw [hjobs, jobs_receive? hr]
    refine IsSeated.endJob
      (h.kept (fun e' => ?_) (fun _ hat => .inl (hat.of_jobs ?_)) fun _ hat => ?_)
      (hat.of_jobs ?_)
    · exact (roomOf_of_entries hentries e').trans (roomOf_receive? hr e')
    · rw [hjobs, jobs_receive? hr]
    · exact hat.of_jobs hprefix
    · rw [hjobs, jobs_receive? hr]
  cases hc with
  | closed o hat =>
    exact (h.stays (adds_resolve w _ o).quiet (mild_resolve w _ o) (roomOf_resolve w _ o)).endJob
      ((mild_resolve w _ o).stays hat)
  | executionEnded result hat => exact IsSeated.endJob (w := w.note _) (h.of_eq rfl rfl) hat
  | @resetAsked j name folder token q hat hq =>
    -- The entry that serves the request is there, and the job takes a seat in its room.
    have hlength : q < (w.withhold q true).queues.length := by
      rw [withhold, modifyQueue, List.length_modify]
      exact hw.folderQueue?_lt hq
    have howner := owner_request (w := w.withhold q true)
      (by rw [ledger_withhold]; exact hw.isOrderly)
      hlength (PackageAction.reset.operation w.toolchain folder) token
    have hasked := h.requestReset q (PackageAction.reset.operation w.toolchain folder) token
    have hat' := At.of_jobs (request_jobs (w.withhold q true) q
      (PackageAction.reset.operation w.toolchain folder) token) hat
    unfold askReset
    dsimp only
    generalize (w.withhold q true).request q _ token = r at hasked hat' howner ⊢
    have hnoted : (r.1.note (.resetAsked q r.2)).IsSeated := hasked.of_eq rfl rfl
    refine hnoted.takeSeat ?_ hat' rfl fun _ => rfl
    obtain ⟨entry, he, -⟩ := List.getElem?_map .. ▸ howner |> Option.map_eq_some_iff.1
    exact Option.isSome_iff_exists.2 ⟨entry, he⟩
  | resetRefused hat => exact IsSeated.endJob (w := w.note _) (h.of_eq rfl rfl) hat
  | @seatTaken j errand p e hat hp he hr =>
    obtain ⟨hunnamed, hcall⟩ : errand.isNamed = false ∧ errand.isCall = false := by
      rcases he with ⟨_, rfl⟩ | ⟨_, rfl⟩ <;> exact ⟨rfl, rfl⟩
    have hnot (hnamed : errand.isNamed) : False := by
      rw [hunnamed] at hnamed
      exact Bool.false_ne_true hnamed
    cases hentry : w.entryOf? e with
    | none =>
      rw [takeSeat_of_none e _ hentry]
      exact h.setPosition hat (fun hnamed => (hnot hnamed).elim) fun hnamed => (hnot hnamed).elim
    | some entry =>
      exact h.takeSeat (by rw [hentry]; rfl) hat hcall fun hnamed => (hnot hnamed).elim
  | resetConcluded o hat he hr => exact hreceived hr hat rfl rfl
  | resetForgotten hat he => exact h.endJob hat
  | watchEnded o hat hp hr =>
    refine hreceived hr hat ?_ ?_ <;> split <;> rfl
  | reopened o hat hp hr => exact hreceived hr hat rfl rfl
  | discarded hj => exact h.discard hj

end Seated

theorem isSeated_new (s : Setting) : s.world.IsSeated :=
  ⟨fun _ => WaitingRoom.isSound_empty,
    fun h => absurd h (by simp [roomOf, entryOf?, Setting.world]),
    fun h => absurd h (by simp [At, Setting.world])⟩

/-- **Seats and jobs always agree.** -/
theorem Arises.isSeated {w : World} (h : Arises w) : w.IsSeated := by
  refine h.induction isSeated_new fun {w w'} hw hseated hc => ?_
  cases hc with
  | deed hd => exact hseated.deed hd
  | drift hd => exact hseated.drift hd
  | telling ht => exact hseated.of_eq (by cases ht <;> rfl) (by cases ht <;> rfl)
  | stride hs => exact hseated.stride hs
  | closing hc => exact hseated.closing hw hc

end World
end FolderTasks.Dispatch
