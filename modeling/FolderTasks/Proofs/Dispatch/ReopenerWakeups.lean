import FolderTasks.Proofs.Dispatch.JobWakeups
import FolderTasks.Proofs.Dispatch.WaitingRooms
/-!
# Jobs that open a queue again are woken by the outcome

A job that waits to open a queue again sits in the waiting room of its entry until its turn comes.
When the outcome gets known, everybody in the room is called; so as soon as the outcome is known,
the turn of the job comes.

Whose turn it is matters: the job that takes its turn leaves the line of those whose turn comes,
and it alone takes a seat or gives one up.

## Main definitions

* `World.IsKnown`: the outcome of an entry is known.
* `World.Rouses`: a change that calls whoever sits where an outcome gets known.
* `World.IsPresent`: whoever waits to open a queue again sits in the room of its entry.
* `World.IsRoused`: if the outcome is known, its turn comes.

## Main statements

* `World.turn_rouses`: a turn calls whoever sits where an outcome gets known.
* `World.Arises.isPresent`, `World.Reachable.isRoused`: both hold whatever happens, as long as nobody
  but resets withholds queues.
-/

namespace FolderTasks.Dispatch

/-- Who comes takes the seat of nobody else. -/
theorem WaitingRoom.getElem?_of_enter {r : WaitingRoom} {who x : Waiter} {s : Nat} (hx : x ≠ who)
    (h : (r.enter who).1.seats[s]? = some (some x)) : r.seats[s]? = some (some x) := by
  unfold WaitingRoom.enter at h
  split at h
  · rcases getElem?_concat_cases h with h | ⟨-, h⟩
    · exact h
    · exact absurd (Option.some.inj h) hx
  · next seat free _ =>
    by_cases hs : seat = s
    · subst hs
      rw [List.getElem?_set] at h
      split at h
      · split at h
        · exact absurd (Option.some.inj (Option.some.inj h)).symm hx
        · exact absurd h (by simp)
      · exact h
    · rwa [List.getElem?_set_ne hs] at h

namespace World

/-- The outcome of an entry is known. -/
def IsKnown (w : World) (e : EntryId) : Prop := ∃ o, (e, o) ∈ w.seen Happening.resolved?

/-- **Whoever sits where an outcome gets known is called**, apart from one job: no turn is lost,
nobody else sits down, and where an outcome gets known whoever sits has a turn coming. -/
structure Rouses (j : JobId) (w w' : World) : Prop where
  ready : ∀ i ∈ w.ready, i ∈ w'.ready
  back : ∀ {i : JobId} {e : EntryId}, i ≠ j → w'.Sits i e → w.Sits i e
  roused : ∀ {i : JobId} {e : EntryId}, i ≠ j → w'.Sits i e → w'.IsKnown e →
    w.IsKnown e ∨ i ∈ w'.ready

/-! ## What turns call -/

section Rouses

variable {K : Hook → Prop} {w w' w'' : World} {i j : JobId} {e e' : EntryId}

theorem IsKnown.of_seen (h : w'.IsKnown e)
    (heq : w'.seen Happening.resolved? = w.seen Happening.resolved?) : w.IsKnown e := by
  rwa [IsKnown, heq] at h

theorem Rouses.refl (w : World) : Rouses j w w := ⟨fun _ h => h, fun _ h => h, fun _ _ h => .inl h⟩

theorem Rouses.trans (h : Rouses j w w') (h' : Rouses j w' w'') : Rouses j w w'' where
  ready i hi := h'.ready i (h.ready i hi)
  back hi hs := h.back hi (h'.back hi hs)
  roused hi hs hknown := by
    rcases h'.roused hi hs hknown with hknown | hready
    · exact (h.roused hi (h'.back hi hs) hknown).imp_right (h'.ready _)
    · exact .inr hready

/-- No outcome gets known. -/
theorem Rouses.of_seen (hready : ∀ i ∈ w.ready, i ∈ w'.ready)
    (hseen : w'.seen Happening.resolved? = w.seen Happening.resolved?)
    (hback : ∀ {i : JobId} {e : EntryId}, i ≠ j → w'.Sits i e → w.Sits i e) : Rouses j w w' :=
  ⟨hready, hback, fun _ _ hknown => .inl (hknown.of_seen hseen)⟩

theorem Sits.of_room (hs : w'.Sits i e) (heq : w'.roomOf e = w.roomOf e) : w.Sits i e := by
  rwa [Sits, heq] at hs

/-- No outcome gets known and nobody moves. -/
theorem Rouses.of_rooms (hready : ∀ i ∈ w.ready, i ∈ w'.ready)
    (hseen : w'.seen Happening.resolved? = w.seen Happening.resolved?)
    (hrooms : ∀ e, w'.roomOf e = w.roomOf e) : Rouses j w w' :=
  .of_seen hready hseen fun _ hs => hs.of_room (hrooms _)

theorem Sits.of_takeSeat {who : Waiter} (hi : who ≠ .job i) (hs : (w.takeSeat e who).1.Sits i e') :
    w.Sits i e' := by
  cases he : w.entryOf? e with
  | none =>
    rw [takeSeat, he] at hs
    exact hs
  | some entry =>
    obtain ⟨s, hs⟩ := hs
    rw [(roomOf_takeSeat w e who e' (by rw [he]; rfl)).2] at hs
    split at hs
    · next heq => exact ⟨s, heq ▸ WaitingRoom.getElem?_of_enter hi.symm hs⟩
    · exact ⟨s, hs⟩

theorem Sits.of_leaveSeat {seat : Nat} (hs : (w.leaveSeat e seat).Sits i e') : w.Sits i e' := by
  cases he : w.entryOf? e with
  | none =>
    refine hs.of_room (roomOf_of_entries ?_ e')
    rw [entryOf?, List.getElem?_eq_none_iff] at he
    exact List.modify_eq_self he
  | some entry =>
    obtain ⟨s, hs⟩ := hs
    rw [roomOf_leaveSeat w seat e' (by rw [he]; rfl)] at hs
    split at hs
    · next heq => exact ⟨s, heq ▸ ((WaitingRoom.getElem?_leave ..).1 hs).2⟩
    · exact ⟨s, hs⟩

/-- **When an outcome gets known**, whoever sits in the room of the entry has a turn coming. -/
theorem mem_ready_resolve (o : Outcome) (hs : w.Sits i e) : i ∈ (w.resolve e o).ready := by
  obtain ⟨s, hs⟩ := hs
  unfold resolve
  split
  · next he =>
    rw [roomOf, he] at hs
    exact absurd hs (by simp)
  · next entry he =>
    dsimp only
    generalize hw₁ : (((w.modifyQueue entry.queue fun queue => { queue with active := none }).note
      (.vacated e)).dispatch entry.queue) = w₁
    have he₁ : w₁.entryOf? e = some entry := by
      rw [← hw₁, entryOf?, dispatch_entries]
      exact he
    rw [deliver, he₁]
    refine mem_ready_wakeAll (mem_waitingJobs.2 ⟨s, ?_⟩) _
    rwa [roomOf, he] at hs

theorem seen_resolve_of_ne {o : Outcome} (h : (w.resolve e o).IsKnown e') (hne : e' ≠ e) :
    w.IsKnown e' := by
  cases he : w.entryOf? e with
  | none =>
    rw [resolve, he] at h
    exact h
  | some entry =>
    obtain ⟨v, t, hmild, hhistory⟩ := resolve_history he o
    have hbefore : v.seen Happening.resolved? = w.seen Happening.resolved? := by
      rw [hmild.seen_eq fun x hx => resolved?_eq_none hx (by simp), seen_note_of_none _ rfl]
    obtain ⟨o', ho'⟩ := h
    obtain ⟨p, hp, heq⟩ := mem_seen.1 ho'
    rw [hhistory] at hp
    rcases List.mem_cons.1 hp with rfl | hp
    · exact absurd (congrArg Prod.fst (Option.some.inj heq)).symm hne
    · exact ⟨o', hbefore ▸ mem_seen.2 ⟨p, hp, heq⟩⟩

theorem rouses_resolve (w : World) (e : EntryId) (o : Outcome) : Rouses j w (w.resolve e o) where
  ready := (mild_resolve w e o).ready
  back _ hs := hs.of_room (roomOf_resolve w e o _)
  roused {i e'} _ hs hknown := by
    have hsits : w.Sits i e' := hs.of_room (roomOf_resolve w e o e')
    by_cases heq : e' = e
    · subst heq
      exact .inr (mem_ready_resolve o hsits)
    · exact .inl (seen_resolve_of_ne hknown heq)

/-- What makes no outcome known leaves what is seen of outcomes alone. -/
theorem Lasts.seen_resolved {O : List Origin} (h : Lasts O w w') (ho : .outcome ∉ O) :
    w'.seen Happening.resolved? = w.seen Happening.resolved? :=
  h.seen_eq fun _ hx => resolved?_eq_none hx ho

theorem Deeds.rouses (hd : Deeds w w') : Rouses j w w' := by
  induction hd with
  | refl => exact .refl w
  | tail _ hd ih =>
    exact ih.trans (.of_rooms hd.mild.ready (hd.mild.seen_resolved (by simp)) hd.roomOf)

/-- **What a job may touch** calls whoever sits where an outcome gets known. -/
theorem Touch.rouses (ht : Touch K j w w') : Rouses j w w' := by
  have hready := ht.spares.ready
  cases ht with
  | noted x hx =>
    refine .of_rooms hready (seen_note_of_none w ?_) fun _ => rfl
    cases x <;> first | rfl | exact absurd (hx _ rfl).1 (by simp [Happening.origin])
  | moved | guardTaken | lineJoined | lineLeft | timerSet | timerCleared | begun | ended | called
  | noticed | withheld | leftOpen | turnSet => exact .of_rooms hready rfl fun _ => rfl
  | unseated e seat => exact .of_seen hready rfl fun _ hs => hs.of_leaveSeat
  | numbered =>
    refine .of_rooms hready ?_ fun _ => rfl
    exact seen_note_of_none _ rfl
  | guardReleased =>
    obtain ⟨ready, heq⟩ := releaseGuard_eq w
    exact .of_rooms hready (by rw [heq]; rfl) fun _ => by rw [heq]; rfl
  | listened token =>
    obtain ⟨tokens, heq⟩ := listen_eq w token j
    exact .of_rooms hready (by rw [heq]; rfl) fun _ => by rw [heq]; rfl
  | unlistened token =>
    obtain ⟨tokens, heq⟩ := unlisten_eq w token j
    exact .of_rooms hready (by rw [heq]; rfl) fun _ => by rw [heq]; rfl
  | acted site _ ha => exact Deeds.rouses ((perform_deeds w _).tail (.answered site _))
  | resolved o => exact rouses_resolve w _ o
  | received hr =>
    exact .of_rooms hready ((mild_receive? (O := []) hr).seen_resolved (by simp)) (roomOf_receive? hr)
  | seated e =>
    refine .of_seen hready ((mild_takeSeat (O := []) w e _).seen_resolved (by simp)) ?_
    exact fun hi hs => hs.of_takeSeat fun heq => hi (Waiter.job.inj heq).symm
  | @asked name folder token q hat =>
    have hrequested := (mild_withhold (O := [.deed]) w q true).trans (mild_request _ q
      (PackageAction.reset.operation w.toolchain folder) token (by simp))
    have hrooms (e : EntryId) := roomOf_request (w.withhold q true) q
      (PackageAction.reset.operation w.toolchain folder) token e
    unfold askReset at hready ⊢
    dsimp only at hready ⊢
    generalize (w.withhold q true).request q _ token = r at hready hrequested hrooms ⊢
    have hseen := (mild_takeSeat (O := []) (r.1.note (.resetAsked q r.2)) r.2
      (.job j)).seen_resolved (by simp)
    refine .of_seen hready ?_ fun {i e} hi hs => ?_
    · exact hseen.trans ((seen_note_of_none r.1 rfl).trans (hrequested.seen_resolved (by simp)))
    · have hsits : (r.1.note (.resetAsked q r.2)).Sits i e :=
        Sits.of_takeSeat (fun heq => hi (Waiter.job.inj heq).symm) hs
      exact Sits.of_room (w := w) hsits (hrooms e)

/-- **A turn calls whoever sits where an outcome gets known**, whatever its callbacks do. -/
theorem turn_rouses (w : World) (j : JobId) : Rouses j w (w.turn j) := by
  have htouches : Touches (fun _ => True) j w (w.turn j) :=
    turn_touches fun h _ => h.within_of_forall fun _ => trivial
  generalize w.turn j = w' at htouches ⊢
  induction htouches with
  | refl => exact .refl w
  | tail _ ht ih => exact ih.trans ht.rouses

end Rouses

/-! ## Who waits to open a queue again -/

/-- **Whoever waits to open a queue again** waits for the reset that it looks after, and sits where
it waits. -/
structure IsPresent (w : World) : Prop where
  same : ∀ {j : JobId} {q : QueueId} {e e' : EntryId} {s : Nat},
    w.At j (.reopen q e) (.awaiting e' s) → e' = e
  sits : ∀ {j : JobId} {q : QueueId} {e : EntryId} {s : Nat}, w.At j (.reopen q e) (.awaiting e s) →
    (w.roomOf e).seats[s]? = some (some (.job j))

section Present

variable {w w' : World} {j : JobId} {errand : Errand} {p : Position}

/-- Nobody begins to wait, and who waits to open a queue again keeps its seat. -/
theorem IsPresent.kept (h : w.IsPresent)
    (hback : ∀ {i : JobId} {q : QueueId} {e e' : EntryId} {s : Nat},
      w'.At i (.reopen q e) (.awaiting e' s) → w.At i (.reopen q e) (.awaiting e' s))
    (hrooms : ∀ {i : JobId} {q : QueueId} {e : EntryId} {s : Nat},
      w.At i (.reopen q e) (.awaiting e s) → (w.roomOf e).seats[s]? = some (some (.job i)) →
        (w'.roomOf e).seats[s]? = some (some (.job i))) : w'.IsPresent :=
  ⟨fun hat => h.same (hback hat), fun hat => hrooms (hback hat) (h.sits (hback hat))⟩

/-- A change that moves no job and leaves the rooms alone. -/
theorem IsPresent.stays {O : List Origin} (h : w.IsPresent) (hq : Quiet w w') (hm : Mild O w w')
    (hrooms : ∀ e, w'.roomOf e = w.roomOf e) : w'.IsPresent := by
  refine h.kept (fun hat => ?_) fun _ hs => by rwa [hrooms]
  rcases hq.at_back hat with hp | ⟨p, hat', -⟩
  · exact absurd hp (by simp)
  · exact (hm.stays hat').unique hat |>.2 ▸ hat'

theorem IsPresent.of_eq (h : w.IsPresent) (hentries : w'.entries = w.entries)
    (hjobs : w'.jobs = w.jobs) : w'.IsPresent :=
  h.kept (fun hat => hat.of_jobs (hjobs ▸ List.prefix_rfl)) fun _ hs => by
    rwa [roomOf_of_entries hentries]

/-- A job moves that does not look after a queue, or it does not begin to wait. -/
theorem IsPresent.setPosition (h : w.IsPresent) (hat : w.At j errand p) {p' : Position}
    (hmay : (∀ q e, errand ≠ .reopen q e) ∨ ∀ e s, p' ≠ .awaiting e s) :
    (w.setPosition j p').IsPresent := by
  refine h.kept (fun {i q e e' s} hi => ?_) fun _ hs => hs
  rcases at_setPosition_cases hi with ⟨rfl, rfl, p₀, hat'⟩ | ⟨-, hi⟩
  · rcases hmay with hmay | hmay
    · exact absurd (hat.unique hat').1 (hmay q e)
    · exact absurd rfl (hmay e' s)
  · exact hi

theorem IsPresent.endJob (h : w.IsPresent) (hat : w.At j errand p) : (w.endJob j).IsPresent :=
  h.setPosition hat (.inr fun _ _ => by simp)

/-- Somebody sits down. -/
theorem IsPresent.takeSeat (h : w.IsPresent) (hseated : w.IsSeated) (e : EntryId) (who : Waiter) :
    (w.takeSeat e who).1.IsPresent := by
  refine h.kept (fun hat => hat.of_jobs (by rw [jobs_takeSeat])) fun {i q e' s} _ hs => ?_
  cases he : w.entryOf? e with
  | none => rwa [takeSeat_of_none e who he]
  | some entry =>
    rw [(roomOf_takeSeat w e who e' (by rw [he]; rfl)).2]
    split
    · next heq => exact (hseated.sound e).getElem?_enter.2 (.inr (heq ▸ hs))
    · exact hs

/-- Who sits in a seat gives it up, and does not wait to open a queue again. -/
theorem IsPresent.leave (h : w.IsPresent) {e : EntryId} {seat : Nat} {who : Waiter}
    (hs : (w.roomOf e).seats[seat]? = some (some who))
    (hwho : ∀ {j : JobId} {q : QueueId} {e : EntryId} {p : Position},
      w.At j (.reopen q e) p → who ≠ .job j) : (w.leaveSeat e seat).IsPresent := by
  refine h.kept (fun hat => hat) fun {i q e' s} hat hs' => ?_
  cases he : w.entryOf? e with
  | none =>
    rw [roomOf, he] at hs
    exact absurd hs (by simp)
  | some entry =>
    rw [roomOf_leaveSeat w seat e' (by rw [he]; rfl)]
    split
    · next heq =>
      subst heq
      refine (WaitingRoom.getElem?_leave ..).2 ⟨?_, hs'⟩
      rintro rfl
      rw [hs] at hs'
      exact hwho hat (Option.some.inj (Option.some.inj hs'))
    · exact hs'

/-! ## Every change -/

theorem IsPresent.drift (h : w.IsPresent) (hseated : w.IsSeated) (hd : Drift w w') :
    w'.IsPresent := by
  cases hd with
  | turnTaken | turnSet | passed | folderListed | foldersUnlisted | folderTold =>
    exact h.of_eq rfl rfl
  | fired t ht =>
    obtain ⟨timers, ready, heq⟩ := fire_eq w t
    rw [heq]
    exact h.of_eq rfl rfl
  | sat e => exact h.takeSeat hseated e .outside
  | seatLeft e entry seat he hs =>
    have hseat : (w.roomOf e).seats[seat]? = some (some .outside) := by
      rw [roomOf, he]
      exact hs
    exact h.leave hseat fun _ => by simp
  | received e o hr =>
    exact h.kept (fun hat => hat.of_jobs (by rw [jobs_receive? hr])) fun _ hs => by
      rwa [roomOf_receive? hr]

theorem Stride.entries_eq (hs : Stride w w') : w'.entries = w.entries := by
  cases hs with
  | lineJoined h => exact h.joins.entries
  | unlistened j token =>
    obtain ⟨tokens, heq⟩ := unlisten_eq w token j
    rw [heq]
  | guardReturned h => exact h.returns.entries
  | refused h => exact (h.refused _).entries
  | started h => exact (h.starts _ _).entries
  | endAwaited h =>
    obtain ⟨tokens, heq⟩ := listen_eq (w.setTimer _ _) _ _
    rw [heq]
    rfl
  | _ => rfl

theorem IsPresent.stride (h : w.IsPresent) (hs : Stride w w') : w'.IsPresent := by
  rcases hs.jobs_eq with hjobs | ⟨call, p, p', ⟨errand, hat, hcall⟩, hjobs, -⟩
  · exact h.of_eq hs.entries_eq hjobs
  · refine (h.setPosition hat (.inl ?_)).of_eq hs.entries_eq hjobs
    rintro q e rfl
    exact absurd hcall (by simp [callOf?])

/-- A job that looks after a queue looks after an entry of it. -/
theorem At.exists_ward (hat : w.At j errand p) (hf : w.resetBook.IsFaithful) {q? : Option QueueId}
    {e : EntryId} (hward : errand.ward? p = some (q?, e)) :
    ∃ entry, w.entryOf? e = some entry ∧ ⟨entry.queue, e, true⟩ ∈ w.resetBook.signs ∧
      ∀ q, q? = some q → q = entry.queue := by
  obtain ⟨q, hasked, hq⟩ := hf.minded (hat.ward_mem hward)
  have howner := (hf.asked _ hasked).2
  rw [resetBook, List.getElem?_map] at howner
  obtain ⟨entry, he, rfl⟩ := Option.map_eq_some_iff.1 howner
  exact ⟨entry, he, hasked, hq⟩

/-- A job takes a seat and begins to wait. -/
theorem IsPresent.sit (h : w.IsPresent) (hseated : w.IsSeated) (hat : w.At j errand p) {e : EntryId}
    (hmay : ∀ q e', errand = .reopen q e' → e' = e ∧ (w.entryOf? e).isSome) :
    ((w.takeSeat e (.job j)).1.setPosition j
      (.awaiting e (w.takeSeat e (.job j)).2)).IsPresent := by
  have htaken := h.takeSeat hseated e (.job j)
  -- What is known of a job at its new position, or of another one where it was.
  have hback {i : JobId} {q : QueueId} {e' e'' : EntryId} {s : Nat}
      (hi : ((w.takeSeat e (.job j)).1.setPosition j
        (.awaiting e (w.takeSeat e (.job j)).2)).At i (.reopen q e') (.awaiting e'' s)) :
      i = j ∧ errand = .reopen q e' ∧ e'' = e ∧ s = (w.takeSeat e (.job j)).2 ∨
        (w.takeSeat e (.job j)).1.At i (.reopen q e') (.awaiting e'' s) := by
    rcases at_setPosition_cases hi with ⟨rfl, hposition, p₀, hat'⟩ | ⟨-, hi⟩
    · obtain ⟨rfl, rfl⟩ := Position.awaiting.inj hposition
      exact .inl ⟨rfl, ((hat.takeSeat _ _).unique hat').1, rfl, rfl⟩
    · exact .inr hi
  constructor
  · intro i q e' e'' s hi
    rcases hback hi with ⟨-, herrand, rfl, -⟩ | hi
    · exact (hmay q e' herrand).1.symm
    · exact htaken.same hi
  · intro i q e' s hi
    rcases hback hi with ⟨rfl, herrand, rfl, rfl⟩ | hi
    · obtain ⟨hseat, hroom⟩ := roomOf_takeSeat w e' (.job i) e' (hmay q e' herrand).2
      change ((w.takeSeat e' (.job i)).1.roomOf e').seats[_]? = _
      rw [hroom, if_pos rfl, hseat]
      exact (hseated.sound e').getElem?_enter.2 (.inl ⟨rfl, rfl⟩)
    · exact htaken.sits hi

theorem IsPresent.discard (h : w.IsPresent) (hseated : w.IsSeated) {job : Job}
    (hj : w.jobs[j]? = some job) : (w.discard j job).IsPresent := by
  have hat : w.At j job.errand job.position := ⟨job.isAbandoned, hj⟩
  unfold World.discard
  split
  · next name command token _ =>
    obtain ⟨tokens, timers, ready, guard, heq⟩ := dropExecution_eq w ⟨j, command, token⟩
    rw [heq]
    exact IsPresent.endJob (h.of_eq rfl rfl) hat
  · next name folder token e seat herrand hposition =>
    rw [herrand, hposition] at hat
    have hleft : (w.leaveSeat e seat).IsPresent := by
      refine h.leave (hseated.sits hat rfl) ?_
      rintro i q e p hi heq
      obtain rfl := Waiter.job.inj heq
      exact absurd (hat.unique hi).1 (by simp)
    unfold discardReset
    split
    · exact h.endJob hat
    · dsimp only
      split
      · exact IsPresent.endJob (hleft.of_eq rfl rfl) hat
      · refine IsPresent.endJob ?_ (hat.of_jobs (List.prefix_append _ _))
        exact hleft.stays (adds_spawn _ _).quiet (mild_spawn (O := []) _ _) fun _ => rfl
  · exact h.endJob hat

theorem IsPresent.closing (h : w.IsPresent) (hw : Arises w) (hf : w.resetBook.IsFaithful)
    (hc : Closing w w') : w'.IsPresent := by
  have hseated := hw.isSeated
  have hreceived {w₁ : World} {e : EntryId} {o : Outcome} (hr : w.receive? e = some (w₁, o)) :
      w₁.IsPresent :=
    h.kept (fun hat => hat.of_jobs (by rw [jobs_receive? hr])) fun _ hs => by
      rwa [roomOf_receive? hr]
  cases hc with
  | closed o hat =>
    exact (h.stays (adds_resolve w _ o).quiet (mild_resolve w _ o) (roomOf_resolve w _ o)).endJob
      ((mild_resolve w _ o).stays hat)
  | executionEnded result hat => exact IsPresent.endJob (w := w.note _) (h.of_eq rfl rfl) hat
  | @resetAsked j name folder token q hat hq =>
    have hasked : ((w.withhold q true).request q (PackageAction.reset.operation w.toolchain folder)
        token).1.IsPresent :=
      IsPresent.stays (w := w.withhold q true) (h.of_eq rfl rfl) (adds_request _ q _ token).quiet
        (mild_request (O := [.deed]) _ q _ token (by simp)) (roomOf_request _ q _ token)
    have hasked' := hseated.requestReset q (PackageAction.reset.operation w.toolchain folder) token
    have hat' := At.of_jobs (request_jobs (w.withhold q true) q
      (PackageAction.reset.operation w.toolchain folder) token) hat
    unfold askReset
    dsimp only
    generalize (w.withhold q true).request q _ token = r at hasked hasked' hat' ⊢
    have hnoted : (r.1.note (.resetAsked q r.2)).IsPresent := hasked.of_eq rfl rfl
    exact hnoted.sit (hasked'.of_eq rfl rfl) hat' fun _ _ herrand => absurd herrand (by simp)
  | resetRefused hat hq => exact IsPresent.endJob (w := w.note _) (h.of_eq rfl rfl) hat
  | @seatTaken j errand p e hat hp he hr =>
    refine h.sit hseated hat ?_
    rintro q e' rfl
    obtain ⟨entry, hentry, -⟩ := hat.exists_ward hf rfl
    rcases he with ⟨_, heq⟩ | ⟨_, heq⟩
    · exact absurd heq (by simp)
    · obtain ⟨-, rfl⟩ := Errand.reopen.inj heq
      exact ⟨rfl, by rw [hentry]; rfl⟩
  | resetConcluded o hat he hr =>
    exact IsPresent.endJob ((hreceived hr).of_eq rfl rfl)
      (hat.of_jobs (by rw [← jobs_receive? hr]; exact List.prefix_rfl))
  | resetForgotten hat he => exact h.endJob hat
  | watchEnded o hat hp hr =>
    have hjobs := jobs_receive? hr
    refine IsPresent.endJob ((hreceived hr).of_eq ?_ ?_) (hat.of_jobs ?_) <;> split <;>
      simp [hjobs, note]
  | reopened o hat hp hr =>
    exact IsPresent.endJob ((hreceived hr).of_eq rfl rfl)
      (hat.of_jobs (by rw [← jobs_receive? hr]; exact List.prefix_rfl))
  | discarded hj => exact h.discard hseated hj

end Present

theorem isPresent_new (s : Setting) : s.world.IsPresent :=
  ⟨fun h => absurd h (by simp [At, Setting.world]), fun h => absurd h (by simp [At, Setting.world])⟩

/-- What nobody but resets withholds now, nobody else withheld before. -/
theorem Lasts.isUntouched {O : List Origin} {w w' : World} (h : Lasts O w w')
    (hu : w'.IsUntouched) : w.IsUntouched := fun p hp => hu p (h.history.subset hp)

/-- **Whoever waits to open a queue again sits where it waits**, as long as nobody but resets
withholds queues. -/
theorem Arises.isPresent {w : World} (hw : Arises w) (hu : w.IsUntouched) : w.IsPresent := by
  refine Arises.induction (P := fun w => w.IsUntouched → w.IsPresent) (fun s _ => isPresent_new s)
    (fun {w w'} hw ih hc hu => ?_) hw hu
  have hu₀ := (hw.lasts hc).isUntouched hu
  have h := ih hu₀
  cases hc with
  | deed hd => exact h.stays hd.quiet hd.mild hd.roomOf
  | drift hd => exact h.drift hw.isSeated hd
  | telling ht => exact h.of_eq (by cases ht <;> rfl) (by cases ht <;> rfl)
  | stride hs => exact h.stride hs
  | closing hc => exact h.closing hw (hw.isFaithful hu₀) hc

/-! ## Whoever waits has a turn coming -/

/-- **Whoever waits to open a queue again has a turn coming** as soon as the outcome is known. -/
def IsRoused (w : World) : Prop :=
  ∀ {j : JobId} {q : QueueId} {e e' : EntryId} {s : Nat}, w.At j (.reopen q e) (.awaiting e' s) →
    w.IsKnown e → j ∈ w.ready

section Roused

variable {w w' : World} {j : JobId} {errand : Errand} {p p' : Position}

/-- Apart from turns nobody begins to wait. -/
theorem Transition.awaits_back (t : Transition w w') : (∃ j ∈ w.ready, w' = w.takeTurn j) ∨
    Mild [.deed, .drift] w w' ∧ ∀ {i : JobId} {errand : Errand} {e : EntryId} {s : Nat},
      w'.At i errand (.awaiting e s) → w.At i errand (.awaiting e s) := by
  have hback : (∃ j ∈ w.ready, w' = w.takeTurn j) ∨
      ∀ {i : JobId} {errand : Errand} {e : EntryId} {s : Nat},
        w'.At i errand (.awaiting e s) → w.At i errand (.awaiting e s) := by
    cases t with
    | act s hs =>
      refine .inr fun hat => ?_
      exact ((instant_spares w hs).back (by simp) hat).resolve_right fun h => absurd h.1 (by simp)
    | turn j hj => exact .inl ⟨j, hj, rfl⟩
    | fire t ht =>
      obtain ⟨timers, ready, heq⟩ := fire_eq w t
      rw [heq]
      exact .inr fun hat => hat
    | pass moment hm => exact .inr fun hat => hat
    | sit e => exact .inr fun hat => hat.of_jobs (by rw [jobs_takeSeat])
    | leave e entry seat he hs => exact .inr fun hat => hat
    | receive e o hr => exact .inr fun hat => hat.of_jobs (by rw [jobs_receive? hr])
  rcases t.sorts with hm | hturn
  · exact hback.imp_right fun hback => ⟨hm, hback⟩
  · exact .inl hturn

/-- An outcome that is known can be received. -/
theorem IsKnown.receive? {e : EntryId} {entry : Entry} (h : w.IsKnown e) (ho : w.ledger.IsOrderly)
    (he : w.entryOf? e = some entry) : ∃ w' o, w.receive? e = some (w', o) := by
  obtain ⟨o, ho'⟩ := h
  have houtcome := (outcome_iff_resolved ho he).2 ho'
  unfold World.receive?
  rw [he]
  cases entry
  obtain rfl := houtcome
  exact ⟨_, _, rfl⟩

/-- A job that waits for an outcome that is known is over when its turn is. -/
theorem at_turn_of_isKnown {q : QueueId} {e : EntryId} {entry : Entry} (hat : w.At j (.reopen q e) p)
    (hknown : w.IsKnown e) (ho : w.ledger.IsOrderly) (he : w.entryOf? e = some entry)
    (hat' : (w.turn j).At j errand p') : p' = .done := by
  obtain ⟨given, hj⟩ := hat
  unfold turn at hat'
  rw [hj] at hat'
  dsimp only at hat'
  split at hat'
  · next hdone =>
    obtain ⟨given', hj'⟩ := hat'
    rw [hj] at hj'
    exact (congrArg Job.position (Option.some.inj hj')).symm.trans hdone
  · split at hat'
    · exact at_discard hat'
    · obtain ⟨w₁, o, hr⟩ := IsKnown.receive? (w := { w with current := some j }) hknown ho he
      have hended : ({ w with current := some j } : World).turnJob j (.reopen q e) =
          (w₁.reopen q e).endJob j := by
        simp only [turnJob, turnAwait, hr]
      rw [hended] at hat'
      rcases discardIfAbandoned_cases ((w₁.reopen q e).endJob j) j with hstays | hdropped
      · rw [hstays] at hat'
        exact at_endJob hat'
      · exact hdropped hat'

/-- The turn of a job that waits makes no outcome known. -/
theorem isKnown_before_turn {q : QueueId} {e e' : EntryId} (hw : Arises w)
    (hat : w.At j (.reopen q e) p) (hknown : (w.turn j).IsKnown e') : w.IsKnown e' := by
  have hverdicts : (w.turn j).verdicts = w.verdicts := by
    cases (hw.turned j).decides with
    | nothing h => exact h
    | brokenOff hat' | panicked hat' => exact absurd (hat.unique hat').1 (by simp)
    | concluded hserves hjob => exact absurd (hat.unique (hjob ▸ hserves.1)).1 (by simp)
  obtain ⟨o, ho⟩ := hknown
  have hverdict : .resolved e' o ∈ (w.turn j).verdicts := resolved_mem_verdicts.2 ho
  exact ⟨o, resolved_mem_verdicts.1 (hverdicts ▸ hverdict)⟩

theorem IsRoused.takeTurn (h : w.IsRoused) (hw : Arises w) (hj : j ∈ w.ready)
    (hu : (w.takeTurn j).IsUntouched) : (w.takeTurn j).IsRoused := by
  have htaken : Arises { w with ready := w.ready.erase j } := hw.change (.drift (.turnTaken j hj))
  have hturned : Arises (w.takeTurn j) := hw.changes (takeTurn_works hj).changes
  have hrouses := turn_rouses { w with ready := w.ready.erase j } j
  have hspares := turn_spares { w with ready := w.ready.erase j } j
  intro i q e e' s hat hknown
  obtain rfl := (hturned.isPresent hu).same hat
  by_cases hij : i = j
  · -- The job would be over if the outcome were known.
    subst hij
    exfalso
    cases hi : w.jobs[i]? with
    | none =>
      have hidle : w.takeTurn i = { w with ready := w.ready.erase i } := by
        simp only [World.takeTurn, turn, hi]
      obtain ⟨given, hat⟩ := hat
      rw [hidle] at hat
      exact absurd (hi.symm.trans hat) (by simp)
    | some job =>
      have hat₀ : ({ w with ready := w.ready.erase i } : World).At i job.errand job.position :=
        ⟨job.isAbandoned, hi⟩
      have hchanges := (turn_works { w with ready := w.ready.erase i } i).changes
      obtain ⟨p', hat'⟩ := htaken.at_forth hchanges hat₀
      rw [(hat.unique hat').1.symm] at hat₀
      have hu₀ := (htaken.lasts_changes hchanges).isUntouched hu
      obtain ⟨entry, he, -⟩ := hat₀.exists_ward (htaken.isFaithful hu₀) rfl
      have hknown₀ := isKnown_before_turn htaken hat₀ hknown
      exact absurd (at_turn_of_isKnown hat₀ hknown₀ htaken.isOrderly he hat) (by simp)
  · have hne : some i ≠ some j := fun heq => hij (Option.some.inj heq)
    have hat₀ : w.At i (.reopen q e') (.awaiting e' s) :=
      (hspares.back hne hat).resolve_right fun h => absurd h.1 (by simp)
    rcases hrouses.roused hij ⟨s, (hturned.isPresent hu).sits hat⟩ hknown with hknown | hready
    · exact hrouses.ready i ((List.mem_erase_of_ne hij).2 (h hat₀ hknown))
    · exact hready

theorem Transition.isRoused (t : Transition w w') (hw : Arises w) (hu : w'.IsUntouched)
    (h : w.IsRoused) : w'.IsRoused := by
  rcases t.awaits_back with ⟨j, hj, rfl⟩ | ⟨hm, hback⟩
  · exact h.takeTurn hw hj hu
  · intro i q e e' s hat hknown
    exact hm.ready i (h (hback hat) (hknown.of_seen (hm.seen_resolved (by simp))))

/-- **Whoever waits to open a queue again has a turn coming** as soon as the outcome is known, as
long as nobody but resets withholds queues. -/
theorem Reachable.isRoused (hw : Reachable w) (hu : w.IsUntouched) : w.IsRoused := by
  induction hw with
  | new s => exact fun h => absurd h (by simp [At, Setting.world])
  | @next w w' hw t ih =>
    refine t.isRoused hw.arises hu (ih ?_)
    exact (hw.arises.lasts_changes t.changes).isUntouched hu

end Roused

end World

end FolderTasks.Dispatch
