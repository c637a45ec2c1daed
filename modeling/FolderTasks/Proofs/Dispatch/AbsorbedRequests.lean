import FolderTasks.Proofs.Dispatch.MirroredExecutions
/-!
# Absorbed requests are no-ops

A request that a waiting entry absorbs leaves no trace but its handle.  So it can be left out of a
run, together with all that is done with this handle, and with the cancellations of tokens that are
passed on by such requests only: what is left is a run, too, and in it the same commands are started
and ended at the same moments, the same calls are made, and the entries have the same outcomes.

A run is cut into choices.  Some of them are kept, and the rest is left out.  The run that is left
makes the choices that are kept, by jobs that have other numbers there.

## Main definitions

* `Choice`, `World.Does`: what can happen next, and what comes of it.
* `Choice.Spares`, `Choice.IsLeftOut`: which choices can be kept, and which ones left out.
* `World.Thins`: a run of which some choices are kept.
* `World.Retells`: a run that makes the choices that are kept.

## Main statements

* `World.Mirrors.keep`, `World.Mirrors.leaveOut`: a choice that is kept is made in both worlds, one
  that is left out in the first world only.
* `World.Thins.retold`: the choices that are kept make a run that resembles the whole one.
-/

namespace FolderTasks.Dispatch

/-- What can happen next. -/
inductive Choice where
  /-- The user does something that lets no job run. -/
  | act (s : Step)
  /-- A job takes its turn. -/
  | turn (j : JobId)
  /-- A timer fires. -/
  | fire (t : Timer)
  /-- Time passes. -/
  | pass (moment : Nat)
  /-- The user begins to wait for an outcome. -/
  | sit (e : EntryId)
  /-- The user stops waiting for it. -/
  | leave (e : EntryId) (seat : Nat)
  /-- The user receives it. -/
  | receive (e : EntryId)

/-- A step that passes on no token and makes no handle that is left out. -/
def Step.Spares (D Z : List String) : Step → Prop
  | .act a => a.Spares D Z ∧ a.SubscribesWithin (Hook.Spares D Z)
  | .run _ _ token handle => IsKept D token ∧ handle ∉ Z
  | _ => True

namespace World

/-- **What comes of a choice**: a transition that makes it. -/
inductive Does : World → Choice → World → Prop where
  | act {w : World} (s : Step) (h : s.isInstant) : Does w (.act s) (w.step s).1
  | turn {w : World} (j : JobId) (h : j ∈ w.ready) : Does w (.turn j) (w.takeTurn j)
  | fire {w : World} (t : Timer) (h : t ∈ w.timers) : Does w (.fire t) (w.fire t)
  | pass {w : World} (moment : Nat) (h : w.clock ≤ moment) :
      Does w (.pass moment) { w with clock := moment }
  | sit {w : World} (e : EntryId) : Does w (.sit e) (w.takeSeat e .outside).1
  | leave {w : World} (e : EntryId) (entry : Entry) (seat : Nat) (he : w.entryOf? e = some entry)
      (h : entry.room.seats[seat]? = some (some .outside)) :
      Does w (.leave e seat) (w.leaveSeat e seat)
  | receive {w w' : World} (e : EntryId) (o : Outcome) (h : w.receive? e = some (w', o)) :
      Does w (.receive e) w'

/-- The transitions are what comes of choices. -/
theorem transition_iff {w w' : World} : Transition w w' ↔ ∃ c, Does w c w' := by
  constructor
  · intro t
    cases t with
    | act s h => exact ⟨_, .act s h⟩
    | turn j h => exact ⟨_, .turn j h⟩
    | fire t h => exact ⟨_, .fire t h⟩
    | pass moment h => exact ⟨_, .pass moment h⟩
    | sit e => exact ⟨_, .sit e⟩
    | leave e entry seat he h => exact ⟨_, .leave e entry seat he h⟩
    | receive e o h => exact ⟨_, .receive e o h⟩
  · rintro ⟨c, hc⟩
    cases hc with
    | act s h => exact .act s h
    | turn j h => exact .turn j h
    | fire t h => exact .fire t h
    | pass moment h => exact .pass moment h
    | sit e => exact .sit e
    | leave e entry seat he h => exact .leave e entry seat he h
    | receive e o h => exact .receive e o h

theorem Reachable.does {w w' : World} {c : Choice} (h : Reachable w) (hc : Does w c w') :
    Reachable w' := h.next (transition_iff.2 ⟨c, hc⟩)

/-- A waiting entry of a queue absorbs a request. -/
def Absorbs (w : World) (q : QueueId) (op : Operation) : Prop :=
  ∃ queue e, w.queues[q]? = some queue ∧ w.absorber? queue op = some e

end World

/-- **A choice that can be kept**: it passes on no token and makes no handle that is left out, and
no job makes it that waits for such a handle.  That the user stops waiting is not kept. -/
def Choice.Spares (D Z : List String) (w : World) : Choice → Prop
  | .act s => s.Spares D Z
  | .turn j => ∀ job, w.jobs[j]? = some job → job.errand.awaits Z = false
  | .fire _ | .pass _ | .sit _ | .receive _ => True
  | .leave _ _ => False

/-- **A choice that can be left out**: a request that is absorbed, with a handle that is left out, a
cancellation of a token that is left out, what is done with handles that are left out, looking at
handles, and waiting outside all jobs. -/
def Choice.IsLeftOut (D Z : List String) (w : World) : Choice → Prop
  | .act (.act (.request queue op _ handle)) =>
    handle ∈ Z ∧ ∃ q, w.queueNamed? queue = some q ∧ w.Absorbs q op
  | .act (.run folder action _ handle) =>
    handle ∈ Z ∧ ∃ q, w.folderQueue? folder = some q ∧
      w.Absorbs q (action.operation w.toolchain folder)
  | .act (.act (.cancel token)) => token ∈ D
  | .act (.act (.watch handle)) => handle ∈ Z
  | .act (.act (.peek _)) | .act (.act (.describe _)) | .act (.act (.compare _ _)) => True
  | .turn j => ∃ job, w.jobs[j]? = some job ∧ job.errand.awaits Z = true
  | .sit _ | .leave _ _ | .receive _ => True
  | _ => False

/-- The same choice in another world, where jobs have other numbers. -/
inductive Choice.Renames (T : JobId → JobId → Prop) : Choice → Choice → Prop where
  | act (s : Step) : Choice.Renames T (.act s) (.act s)
  | turn {j k : JobId} (h : T j k) : Choice.Renames T (.turn j) (.turn k)
  | fire {t t' : Timer} (hd : t.deadline = t'.deadline) (hj : T t.job t'.job) :
      Choice.Renames T (.fire t) (.fire t')
  | pass (moment : Nat) : Choice.Renames T (.pass moment) (.pass moment)
  | sit (e : EntryId) : Choice.Renames T (.sit e) (.sit e)
  | receive (e : EntryId) : Choice.Renames T (.receive e) (.receive e)

theorem Choice.Renames.mono {T T' : JobId → JobId → Prop} (hle : T ≤ T') {c c' : Choice}
    (h : c.Renames T c') : c.Renames T' c' := by
  cases h with
  | act s => exact .act s
  | turn h => exact .turn (hle _ _ h)
  | fire hd hj => exact .fire hd (hle _ _ hj)
  | pass moment => exact .pass moment
  | sit e => exact .sit e
  | receive e => exact .receive e

namespace World

/-- **A run of which some choices are kept**: they are listed, and all others can be left out. -/
inductive Thins (D Z : List String) (w₀ : World) : List Choice → World → Prop where
  | nil : Thins D Z w₀ [] w₀
  | kept {w w' : World} {cs : List Choice} {c : Choice} (h : Thins D Z w₀ cs w)
      (hc : c.Spares D Z w) (hd : Does w c w') : Thins D Z w₀ (cs ++ [c]) w'
  | leftOut {w w' : World} {cs : List Choice} {c : Choice} (h : Thins D Z w₀ cs w)
      (hc : c.IsLeftOut D Z w) (hd : Does w c w') : Thins D Z w₀ cs w'

/-- **A run that makes given choices**, by jobs that have other numbers in it.  In between a fresh
job may have its turn that opens a queue again. -/
inductive Retells (T : JobId → JobId → Prop) (w₀ : World) : List Choice → World → Prop where
  | nil : Retells T w₀ [] w₀
  | told {w w' : World} {cs : List Choice} {c c' : Choice} (h : Retells T w₀ cs w)
      (hc : c.Renames T c') (hd : Does w c' w') : Retells T w₀ (cs ++ [c]) w'
  | reopened {w : World} {cs : List Choice} {r : JobId} {q : QueueId} {e : EntryId}
      (h : Retells T w₀ cs w) (hr : r ∈ w.ready)
      (hjob : w.jobs[r]? = some { errand := .reopen q e }) : Retells T w₀ cs (w.takeTurn r)

theorem Retells.mono {T T' : JobId → JobId → Prop} {w₀ w : World} {cs : List Choice} (hle : T ≤ T')
    (h : Retells T w₀ cs w) : Retells T' w₀ cs w := by
  induction h with
  | nil => exact .nil
  | told _ hc hd ih => exact ih.told (hc.mono hle) hd
  | reopened _ hr hjob ih => exact ih.reopened hr hjob

theorem Thins.reachable {D Z : List String} {w₀ w : World} {cs : List Choice} (h₀ : Reachable w₀)
    (h : Thins D Z w₀ cs w) : Reachable w := by
  induction h with
  | nil => exact h₀
  | kept _ _ hd ih => exact ih.does hd
  | leftOut _ _ hd ih => exact ih.does hd

theorem Retells.reachable {T : JobId → JobId → Prop} {w₀ w : World} {cs : List Choice}
    (h₀ : Reachable w₀) (h : Retells T w₀ cs w) : Reachable w := by
  induction h with
  | nil => exact h₀
  | told _ _ hd ih => exact ih.does hd
  | reopened _ hr _ ih => exact ih.does (.turn _ hr)

/-! ## Between turns it is nobody's turn -/

section Current

variable {w w' : World}

theorem Deed.current (h : Deed w w') : w'.current = w.current := by
  cases h with
  | scripted | named | queueMade | withheld | watched | begun | observed | answered => rfl
  | requested q op token =>
    rcases request_eq w q op token with heq | ⟨queue, e, -, -, heq⟩ | ⟨queue, -, -, heq⟩
    · rw [heq]
    · rw [heq]
      rfl
    · rw [heq]
      rcases dispatch_eq (w.append q queue op token).1 q with heq | ⟨_, _, _, -, -, -, heq⟩ <;>
        rw [heq] <;> rfl
  | cancelled name =>
    obtain ⟨tokens, ready, heq⟩ := cancel_eq w name
    rw [heq]
  | disposed =>
    obtain ⟨history, manager, heq, -⟩ := disposeManager_eq w
    rw [heq]
  | abandoned name j h =>
    rcases abandonJob_eq w j with heq | ⟨ready, heq⟩ <;> rw [heq]

theorem Deeds.current (h : Deeds w w') : w'.current = w.current := by
  induction h with
  | refl => rfl
  | tail _ hd ih => exact hd.current.trans ih

theorem current_discard (j : JobId) (job : Job) : (w.discard j job).current = w.current := by
  have hreset (e : EntryId) (seat : Nat) : (w.discardReset e seat).current = w.current := by
    unfold discardReset
    split
    · rfl
    · dsimp only
      split <;> rfl
  have hended (v : World) : (v.endJob j).current = v.current := rfl
  unfold discard
  dsimp only
  rw [hended]
  split
  · next command token _ =>
    obtain ⟨tokens, timers, ready, g, heq⟩ := dropExecution_eq w ⟨j, command, token⟩
    rw [heq]
  · exact hreset _ _
  · rfl

theorem current_step {s : Step} (h : s.isInstant) : (w.step s).1.current = w.current := by
  cases s with
  | act a => exact (perform_deeds w a).current
  | settle | advance | await => exact Bool.noConfusion h
  | addFolder folder =>
    simp only [step, addFolder]
    split <;> rfl
  | removeFolder folder =>
    simp only [step, removeFolder]
    split <;> rfl
  | folders | toolchain => rfl
  | find folder =>
    simp only [step]
    split <;> rfl
  | run folder action token handle =>
    simp only [step]
    split
    · exact (requestNamed_deeds w _ _ token handle).current
    · rfl
  | tasks folder products =>
    simp only [step]
    split <;> rfl
  | dispose =>
    obtain ⟨history, manager, heq, -⟩ := disposeManager_eq w
    change w.disposeManager.current = w.current
    rw [heq]

/-- **Between turns it is nobody's turn.** -/
theorem Reachable.current (h : Reachable w) : w.current = none := by
  induction h with
  | new s => rfl
  | @next w w' _ t ih =>
    cases t with
    | act s h => exact (current_step h).trans ih
    | turn j h =>
      unfold takeTurn turn
      split
      · exact ih
      · split
        · exact ih
        · split
          · exact (current_discard _ _).trans ih
          · rfl
    | fire t h =>
      obtain ⟨timers, ready, heq⟩ := fire_eq w t
      rw [heq]
      exact ih
    | pass => exact ih
    | sit e =>
      obtain ⟨entries, heq⟩ := takeSeat_eq w e .outside
      rw [heq]
      exact ih
    | leave => exact ih
    | receive e o h =>
      unfold receive? at h
      split at h
      · obtain ⟨rfl, -⟩ := Prod.mk.inj (Option.some.inj h)
        exact ih
      · exact absurd h (by simp)

end Current

/-! ## Choices that are kept -/

section Keeping

variable {D Z : List String} {T T' : JobId → JobId → Prop} {w w' v : World} {j k : JobId}
  {c : Choice}

theorem Mirrors.setFolders (h : Mirrors D Z T w w') (folders : List (Path × QueueId)) :
    Mirrors D Z T { w with folders } { w' with folders } :=
  ⟨{ h.resembles with folders := rfl }, { h.twins with }, h.hooks⟩

theorem Mirrors.addFolder (h : Mirrors D Z T w w') (folder : Path) :
    Mirrors D Z T (w.addFolder folder).1 (w'.addFolder folder).1 ∧
      (w'.addFolder folder).2 = (w.addFolder folder).2 := by
  have hmade := (h.note (.folderAdded folder)).makeQueue folder.displayName w.recordsFolders
  unfold World.addFolder
  rw [h.resembles.folderQueue?, h.resembles.recordsFolders]
  split
  · exact ⟨h, rfl⟩
  · dsimp only
    rw [hmade.2, hmade.1.resembles.folders]
    exact ⟨hmade.1.setFolders _, rfl⟩

/-- **A step that lets no job run** and spares what is left out is done in both worlds. -/
theorem Mirrors.step (h : Mirrors D Z T w w') {s : Step} (hs : s.isInstant)
    (hfree : s.Spares D Z) : Mirrored D Z T (w.step s).1 (w'.step s).1 := by
  cases s with
  | act a => exact h.perform hfree.1 hfree.2
  | settle | advance | await => exact Bool.noConfusion hs
  | addFolder folder =>
    obtain ⟨hadded, heq⟩ := h.addFolder folder
    simp only [World.step]
    rw [heq]
    exact (hadded.nameQueue _ _).mirrored
  | removeFolder folder =>
    simp only [World.step, World.removeFolder]
    rw [h.resembles.folderQueue?, h.resembles.folders]
    split
    · exact h.mirrored
    · exact ((h.setFolders _).note _).mirrored
  | folders | toolchain => exact h.mirrored
  | find folder =>
    simp only [World.step]
    rw [h.resembles.folderQueue?]
    split <;> exact h.mirrored
  | run folder action token handle =>
    simp only [World.step]
    rw [h.resembles.folderQueue?, h.resembles.toolchain]
    split
    · exact h.requestNamed _ _ hfree.1 hfree.2
    · exact h.mirrored
  | tasks folder products =>
    have hsame {w : World} : (w.step (.tasks folder products)).1 = w := by
      simp only [World.step]
      split <;> rfl
    rw [hsame, hsame]
    exact h.mirrored
  | dispose => exact (h.disposeManager.setFolders []).mirrored

/-- Timers that fire together in one world do so in the other. -/
theorem forall₂_span {timers timers' : List Timer} (deadline : Nat)
    (h : List.Forall₂ (fun t t' => t.deadline = t'.deadline ∧ T t.job t'.job) timers timers') :
    List.Forall₂ T ((timers.takeWhile fun t => t.deadline ≤ deadline).map Timer.job)
        ((timers'.takeWhile fun t => t.deadline ≤ deadline).map Timer.job) ∧
      List.Forall₂ (fun t t' => t.deadline = t'.deadline ∧ T t.job t'.job)
        (timers.dropWhile fun t => t.deadline ≤ deadline)
        (timers'.dropWhile fun t => t.deadline ≤ deadline) := by
  induction h with
  | nil => exact ⟨.nil, .nil⟩
  | @cons t t' timers timers' ht h ih =>
    rw [List.takeWhile_cons, List.takeWhile_cons, List.dropWhile_cons, List.dropWhile_cons, ht.1]
    split
    · exact ⟨.cons ht.2 ih.1, ih.2⟩
    · exact ⟨.nil, .cons ht h⟩

/-- A timer fires in both worlds. -/
theorem Mirrors.fire (h : Mirrors D Z T w w') {t t' : Timer} (ht : t.deadline = t'.deadline) :
    Mirrors D Z T (w.fire t) (w'.fire t') := by
  obtain ⟨hdue, hrest⟩ := forall₂_span t'.deadline h.twins.timers
  have hclock : max w'.clock t'.deadline = max w.clock t'.deadline := by rw [h.resembles.clock]
  have hset : Mirrors D Z T
      { w with clock := max w.clock t'.deadline
               timers := w.timers.dropWhile fun u => u.deadline ≤ t'.deadline }
      { w' with clock := max w'.clock t'.deadline
                timers := w'.timers.dropWhile fun u => u.deadline ≤ t'.deadline } :=
    ⟨{ h.resembles with clock := hclock }, { h.twins with timers := hrest }, h.hooks⟩
  have hlt := hset.twins.lt_of_forall₂ hdue
  unfold World.fire
  rw [ht]
  exact hset.wakeAll _ _ (fun hT => hset.twins.mem_iff hdue hT) hlt.1 hlt.2

/-- A timer of one world has its like in the other. -/
theorem Twins.timer (h : Twins D Z T w w') {t : Timer} (ht : t ∈ w.timers) :
    ∃ t' ∈ w'.timers, t.deadline = t'.deadline ∧ T t.job t'.job := by
  have htimers := h.timers
  revert htimers ht
  generalize w.timers = timers
  generalize w'.timers = timers'
  intro ht htimers
  induction htimers with
  | nil => exact absurd ht List.not_mem_nil
  | @cons u u' _ _ hu _ ih =>
    rcases List.mem_cons.1 ht with rfl | ht
    · exact ⟨u', List.mem_cons_self, hu⟩
    · obtain ⟨t', ht', hlike⟩ := ih ht
      exact ⟨t', List.mem_cons_of_mem u' ht', hlike⟩

/-- **A choice that is kept is made in both worlds.** -/
theorem Mirrors.keep (h : Mirrors D Z T w w') (hw : Reachable w) (hw' : Reachable w')
    {w₀ : World} {cs : List Choice} (hr : Retells T w₀ cs w') (hc : c.Spares D Z w)
    (hd : Does w c v) :
    ∃ T' v', T ≤ T' ∧ Retells T' w₀ (cs ++ [c]) v' ∧ Mirrors D Z T' v v' := by
  have hsame {c' : Choice} {v' : World} (hrenames : c.Renames T c') (hd' : Does w' c' v')
      (hv : Mirrored D Z T v v') :
      ∃ T' v', T ≤ T' ∧ Retells T' w₀ (cs ++ [c]) v' ∧ Mirrors D Z T' v v' := by
    obtain ⟨T', hle, hv⟩ := hv
    exact ⟨T', v', hle, (hr.mono hle).told (hrenames.mono hle) hd', hv⟩
  cases hd with
  | act s hs => exact hsame (.act s) (.act s hs) (h.step hs hc)
  | turn j hj =>
    have hlt := h.twins.bound j hj
    have hjob := List.getElem?_eq_getElem hlt
    obtain ⟨k, hT⟩ := h.twins.rest hjob (hc _ hjob)
    have hk : k ∈ w'.ready := (h.twins.ready hT).1 hj
    obtain ⟨T', hle, hv⟩ := h.takeTurn hT hw.arises hw'.arises hj
    have htold := (hr.mono hle).told (.turn (hle _ _ hT)) (.turn k hk)
    rcases hv with hv | howes
    · exact ⟨T', _, hle, htold, hv⟩
    · have hcurrent := (hw.does (.turn j hj)).current
      obtain ⟨r, hready, q, e, hjob, hv⟩ := howes.pay hcurrent
      exact ⟨T', _, hle, htold.reopened hready hjob, hv⟩
  | fire t ht =>
    obtain ⟨t', ht', hdeadline, hT⟩ := h.twins.timer ht
    exact hsame (.fire hdeadline hT) (.fire t' ht') (h.fire hdeadline).mirrored
  | pass moment hm =>
    have hm' : w'.clock ≤ moment := by rwa [h.resembles.clock]
    have hpassed : Mirrors D Z T { w with clock := moment } { w' with clock := moment } :=
      ⟨{ h.resembles with clock := rfl }, { h.twins with }, h.hooks⟩
    exact hsame (.pass moment) (.pass moment hm') hpassed.mirrored
  | sit e =>
    have hsat : Mirrors D Z T (w.takeSeat e .outside).1 (w'.takeSeat e .outside).1 :=
      h.sit (fun _ => by simp) (by simp) (by simp) (hw.arises.isSeated.sound e)
        (hw'.arises.isSeated.sound e)
    exact hsame (.sit e) (.sit e) hsat.mirrored
  | leave => exact absurd hc id
  | receive e o hreceive =>
    rcases h.receive? e with ⟨hnone, -⟩ | ⟨u, u', o', hsome, hsome', hu⟩
    · rw [hreceive] at hnone
      exact absurd hnone (by simp)
    · rw [hreceive] at hsome
      obtain ⟨rfl, rfl⟩ := Prod.mk.inj (Option.some.inj hsome)
      exact hsame (.receive e) (.receive e o hsome') hu.mirrored

/-! ## Choices that are left out -/

/-- **A request that is absorbed** leaves no trace but its handle. -/
theorem Mirrors.absorb_left (h : Mirrors D Z T w w') {q : QueueId} {op : Operation}
    {token : Option String} {name : String} (hname : name ∈ Z) (habsorbs : w.Absorbs q op) :
    Mirrors D Z T (w.requestNamed q op token name).1 w' := by
  obtain ⟨queue, e, hq, he⟩ := habsorbs
  have hrequest : w.request q op token = (w.note (.absorbed e queue.name op.key), e) := by
    rw [World.request, hq]
    dsimp only
    rw [he]
  unfold World.requestNamed
  rw [hrequest]
  exact (h.note_left rfl).nameHandle_left hname e

/-- **A choice that is left out** is made in the first world only. -/
theorem Mirrors.leaveOut (h : Mirrors D Z T w w') (hw : Reachable w) (hw' : Reachable w')
    (hc : c.IsLeftOut D Z w) (hd : Does w c v) : Mirrors D Z T v w' := by
  have hseated := hw.arises.isSeated
  cases hd with
  | act s hs =>
    cases s with
    | act a =>
      cases a with
      | request queue op token handle =>
        obtain ⟨hhandle, q, hq, habsorbs⟩ := hc
        simp only [World.step, World.perform, World.withQueue, hq]
        exact h.absorb_left hhandle habsorbs
      | cancel token => exact h.cancel_left hc
      | watch handle =>
        simp only [World.step, World.perform, World.withHandle]
        split
        · exact h.watch_left hc _
        · exact h
      | peek handle =>
        have hsame : (w.step (.act (.peek handle))).1 = w := withHandle_fst w handle fun _ => rfl
        rwa [hsame]
      | describe handle =>
        have hsame : (w.step (.act (.describe handle))).1 = w :=
          withHandle_fst w handle fun e => by split <;> rfl
        rwa [hsame]
      | compare a b =>
        have hsame : (w.step (.act (.compare a b))).1 = w :=
          withHandle_fst w a fun _ => withHandle_fst w b fun _ => rfl
        rwa [hsame]
      | _ => exact absurd hc id
    | run folder action token handle =>
      obtain ⟨hhandle, q, hq, habsorbs⟩ := hc
      simp only [World.step, hq]
      exact h.absorb_left hhandle habsorbs
    | _ => exact absurd hc id
  | turn j hj =>
    obtain ⟨job, hjob, hawaits⟩ := hc
    exact h.takeTurn_left hw.arises hw'.current hjob hawaits
  | fire | pass => exact absurd hc id
  | sit e => exact h.sit_left (fun _ => by simp) (by simp) (hseated.sound e)
  | leave e entry seat he hs =>
    have hroom : w.roomOf e = entry.room := by
      rw [roomOf, he]
      rfl
    exact ⟨h.resembles.modifyEntry_left e (fun _ => rfl) fun _ hr => hr,
      h.twins.leaveSeat_left (by simp [he]) (by rw [hroom]; exact hs), h.hooks⟩
  | receive e o hreceive => exact h.receive_left hreceive

/-! ## Runs -/

/-- Two worlds in which nothing has happened mirror each other. -/
theorem mirrors_new (D Z : List String) {s : Setting}
    (hs : ∀ h ∈ s.hooks, h.Within (Hook.Spares D Z)) :
    Mirrors D Z (fun _ _ => False) s.world s.world := by
  have hnobody {j : JobId} {e : EntryId} : ¬s.world.Sits j e := by
    rintro ⟨seat, hseat⟩
    exact absurd hseat (by simp [roomOf, entryOf?, Setting.world])
  refine ⟨?_, ?_, fun hook hmem => hs hook ?_⟩
  · exact
      { clock := rfl, backend := rfl, startDelays := rfl, startDelay := rfl
        prefersCancellation := rfl, toolchain := rfl
        lastId := rfl, startObservers := rfl, endObservers := rfl, isDisposed := rfl,
        entries := .nil, queues := rfl, folders := rfl, reporter := rfl, recordsFolders := rfl,
        observerCalls := rfl, queueNames := rfl, observerNames := rfl, handles := rfl,
        history := rfl }
  · exact
      { order := fun h => h.elim, jobs := fun h => h.elim
        rest := fun hj => absurd hj (by simp [Setting.world])
        named := .nil, ready := fun h => h.elim, nodup := .nil, nodup' := .nil
        bound := fun _ hj => absurd hj List.not_mem_nil
        bound' := fun _ hk => absurd hk List.not_mem_nil
        current := fun h => h.elim, idle := fun hj => absurd hj (by simp [Setting.world])
        idle' := fun hk => absurd hk (by simp [Setting.world])
        timers := .nil, flags := fun _ _ => rfl, waiters := fun _ _ => .nil
        unheard := fun _ _ => ⟨rfl, rfl⟩, holder := .none, line := .nil
        seats := fun h => h.elim, sitting := fun hs => absurd hs hnobody
        sitting' := fun hs => absurd hs hnobody
        orders := fun _ he => absurd he List.not_mem_nil }
  · rcases mem_hooks.1 hmem with hmem | ⟨o, ho, -⟩
    · exact hmem
    · exact absurd ho List.not_mem_nil

/-- **The choices that are kept make a run** whose worlds mirror those of the whole run. -/
theorem Thins.retells {s : Setting} (hs : ∀ h ∈ s.hooks, h.Within (Hook.Spares D Z))
    {cs : List Choice} (h : Thins D Z s.world cs w) :
    ∃ T w', Retells T s.world cs w' ∧ Mirrors D Z T w w' := by
  induction h with
  | nil => exact ⟨_, _, .nil, mirrors_new D Z hs⟩
  | kept h hc hd ih =>
    obtain ⟨T, w', hr, hm⟩ := ih
    obtain ⟨T', v', -, hr', hm'⟩ := hm.keep (h.reachable (.new s)) (hr.reachable (.new s)) hr hc hd
    exact ⟨T', v', hr', hm'⟩
  | leftOut h hc hd ih =>
    obtain ⟨T, w', hr, hm⟩ := ih
    exact ⟨T, w', hr, hm.leaveOut (h.reachable (.new s)) (hr.reachable (.new s)) hc hd⟩

/-- **Absorbed requests are no-ops.**  Leave out of a run any requests that waiting entries absorb,
all that is done with their handles, and the cancellations of tokens that are passed on by such
requests only.  What is left is a run that resembles the whole one: it has the same records of the
backend, the same history of starts, ends and calls, and the handles that are left stand for the
same entries, which have the same outcomes since the same moments. -/
theorem Thins.leavesNoTrace {s : Setting} (hs : ∀ h ∈ s.hooks, h.Within (Hook.Spares D Z))
    {cs : List Choice} (h : Thins D Z s.world cs w) :
    ∃ T w', Retells T s.world cs w' ∧ (∀ j k j' k', T j k → T j' k' → (j < j' ↔ k < k')) ∧
      Resembles Z w w' ∧ ∀ name ∉ Z, w'.handleNamed? name = w.handleNamed? name ∧
        ∀ e, w.handleNamed? name = some e →
          (w'.entryOf? e).bind Entry.outcome = (w.entryOf? e).bind Entry.outcome ∧
            ∀ t o, (t, .resolved e o) ∈ w'.history ↔ (t, .resolved e o) ∈ w.history := by
  obtain ⟨T, w', hr, hm⟩ := h.retells hs
  refine ⟨T, w', hr, fun _ _ _ _ => hm.twins.order, hm.resembles, fun name hname => ?_⟩
  refine ⟨hm.resembles.handleNamed? hname, fun e _ => ⟨?_, fun t o => ?_⟩⟩
  · rcases hm.resembles.entry_cases e with ⟨he, he'⟩ | ⟨entry, entry', he, he', hlike⟩
    · rw [he, he']
    · rw [he, he', Option.bind_some, Option.bind_some, hlike.eq.2.2.2]
  · have hshown (w : World) : (t, .resolved e o) ∈ w.history ↔
        (t, Happening.resolved e o) ∈ w.history.filter fun x => x.2.isShown Z := by
      rw [List.mem_filter]
      exact (and_iff_left rfl).symm
    rw [hshown w', hshown w, hm.resembles.history]

theorem spares_turn (h : ((w.jobs[j]?).any fun job => job.errand.awaits Z) = false) :
    (Choice.turn j).Spares D Z w := by
  intro job hj
  rwa [hj] at h

theorem isLeftOut_turn (h : ((w.jobs[j]?).any fun job => job.errand.awaits Z) = true) :
    (Choice.turn j).IsLeftOut D Z w := by
  cases hj : w.jobs[j]? with
  | none => simp [hj] at h
  | some job =>
    rw [hj] at h
    exact ⟨job, hj, h⟩

/-- The second request of `b` is absorbed while the first one waits.  Its token is cancelled and its
handle is watched, and both entries are executed. -/
theorem leavesNoTrace_again : ∃ cs w, Thins ["late"] ["again"] (Setting.world {}) cs w ∧
    w.names.handles = [("first", 0), ("second", 1), ("again", 1)] ∧
    w.backend.records.length = 2 ∧ ∃ T w', Retells T (Setting.world {}) cs w' ∧
      (∀ j k j' k', T j k → T j' k' → (j < j' ↔ k < k')) ∧ Resembles ["again"] w w' ∧
      ∀ name ∉ ["again"], w'.handleNamed? name = w.handleNamed? name ∧
        ∀ e, w.handleNamed? name = some e →
          (w'.entryOf? e).bind Entry.outcome = (w.entryOf? e).bind Entry.outcome ∧
            ∀ t o, (t, .resolved e o) ∈ w'.history ↔ (t, .resolved e o) ∈ w.history := by
  let op (a : String) : Operation := { command := ⟨"p", [a], none, .empty, none⟩ }
  have hnew : Thins ["late"] ["again"] (Setting.world {}) [] (Setting.world {}) := .nil
  have hmade := hnew.kept (c := .act (.act (.makeQueue "q" "app")))
    ⟨trivial, fun _ _ _ h => by simp at h⟩ (.act _ rfl)
  have hfirst := hmade.kept (c := .act (.act (.request "q" (op "a") none "first")))
    ⟨⟨fun _ h => by simp at h, by decide⟩, fun _ _ _ h => by simp at h⟩ (.act _ rfl)
  have hsecond := hfirst.kept (c := .act (.act (.request "q" (op "b") none "second")))
    ⟨⟨fun _ h => by simp at h, by decide⟩, fun _ _ _ h => by simp at h⟩ (.act _ rfl)
  have hagain := hsecond.leftOut (c := .act (.act (.request "q" (op "b") (some "late") "again")))
    ⟨by decide, 0, rfl, _, 1, rfl, rfl⟩ (.act _ rfl)
  have hwatch := hagain.leftOut (c := .act (.act (.watch "again"))) List.mem_cons_self (.act _ rfl)
  have hcancel := hwatch.leftOut (c := .act (.act (.cancel "late"))) List.mem_cons_self
    (.act _ rfl)
  have hwaits := hcancel.leftOut (c := .turn 1) (isLeftOut_turn (by decide +kernel))
    (.turn 1 (by decide +kernel))
  have hran := hwaits.kept (c := .turn 0) (spares_turn (by decide +kernel))
    (.turn 0 (by decide +kernel))
  have hran' := hran.kept (c := .turn 2) (spares_turn (by decide +kernel))
    (.turn 2 (by decide +kernel))
  have hheard := hran'.leftOut (c := .turn 1) (isLeftOut_turn (by decide +kernel))
    (.turn 1 (by decide +kernel))
  exact ⟨_, _, hheard, by decide +kernel, by decide +kernel, hheard.leavesNoTrace (by simp)⟩

end Keeping

end World

end FolderTasks.Dispatch
