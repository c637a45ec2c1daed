import FolderTasks.Proofs.Dispatch.MirroredWorlds
/-!
# Actions and callbacks in two worlds

Two worlds that mirror each other go on doing so when the same is done in both: an action, a
callback, a piece of an execution.  What is done may begin jobs, so the correspondence of the jobs
grows.

## Main definitions

* `World.Mirrored`: two worlds mirror each other, through a correspondence that may have grown.

## Main statements

* `World.Mirrors.request`, `World.Mirrors.resolve`: entries come and go in both worlds.
* `World.Mirrors.perform`: an action is done in both worlds.
* `World.Mirrors.reportAll`, `World.Mirrors.callObservers`: the callbacks are called in both worlds.
-/

namespace FolderTasks.Dispatch.World

/-- **Two worlds mirror each other**, and what corresponded goes on to correspond. -/
def Mirrored (D Z : List String) (T : JobId → JobId → Prop) (w w' : World) : Prop :=
  ∃ T', T ≤ T' ∧ Mirrors D Z T' w w'

/-- Two results mirror each other, with the same answer. -/
def Echoes {α : Type} (D Z : List String) (T : JobId → JobId → Prop) (r r' : World × α) : Prop :=
  Mirrored D Z T r.1 r'.1 ∧ r'.2 = r.2

section Echoing

variable {D Z : List String} {T T' : JobId → JobId → Prop} {w w' : World} {j k : JobId}
  {e : EntryId} {token : Option String}

theorem Mirrors.mirrored (h : Mirrors D Z T w w') : Mirrored D Z T w w' := ⟨T, le_rfl, h⟩

theorem Mirrored.grow (hle : T ≤ T') (h : Mirrored D Z T' w w') : Mirrored D Z T w w' := by
  obtain ⟨T'', hle', h⟩ := h
  exact ⟨T'', hle.trans hle', h⟩

theorem Mirrors.echoes {α : Type} (h : Mirrors D Z T w w') (answer : α) :
    Echoes D Z T (w, answer) (w', answer) := ⟨h.mirrored, rfl⟩

theorem Echoes.grow {α : Type} {r r' : World × α} (hle : T ≤ T') (h : Echoes D Z T' r r') :
    Echoes D Z T r r' := ⟨h.1.grow hle, h.2⟩

/-- What is done next depends on the answer. -/
theorem Echoes.ite {α : Type} {r r' : World × Bool} (h : Echoes D Z T r r')
    {f u g v : World → World × α}
    (hf : ∀ {T'}, T ≤ T' → Mirrors D Z T' r.1 r'.1 → Echoes D Z T' (f r.1) (u r'.1))
    (hg : ∀ {T'}, T ≤ T' → Mirrors D Z T' r.1 r'.1 → Echoes D Z T' (g r.1) (v r'.1)) :
    Echoes D Z T (if r.2 then f r.1 else g r.1) (if r'.2 then u r'.1 else v r'.1) := by
  obtain ⟨⟨T', hle, hmirrors⟩, heq⟩ := h
  rw [heq]
  split
  · exact (hf hle hmirrors).grow hle
  · exact (hg hle hmirrors).grow hle

theorem Echoes.iteMirrored {r r' : World × Bool} (h : Echoes D Z T r r') {f u g v : World → World}
    (hf : ∀ {T'}, T ≤ T' → Mirrors D Z T' r.1 r'.1 → Mirrored D Z T' (f r.1) (u r'.1))
    (hg : ∀ {T'}, T ≤ T' → Mirrors D Z T' r.1 r'.1 → Mirrored D Z T' (g r.1) (v r'.1)) :
    Mirrored D Z T (if r.2 then f r.1 else g r.1) (if r'.2 then u r'.1 else v r'.1) := by
  obtain ⟨⟨T', hle, hmirrors⟩, heq⟩ := h
  rw [heq]
  split
  · exact (hf hle hmirrors).grow hle
  · exact (hg hle hmirrors).grow hle

/-! ## Elementary changes -/

theorem Mirrors.note (h : Mirrors D Z T w w') (x : Happening) :
    Mirrors D Z T (w.note x) (w'.note x) :=
  ⟨h.resembles.note x, { h.twins with }, h.hooks⟩

/-- Facts that a user does not compare. -/
theorem Mirrors.note_hidden (h : Mirrors D Z T w w') (x x' : Happening) (hx : x.isShown Z = false)
    (hx' : x'.isShown Z = false) : Mirrors D Z T (w.note x) (w'.note x') :=
  ⟨(h.resembles.note_left hx).note_right hx', { h.twins with }, h.hooks⟩

theorem Mirrors.note_left (h : Mirrors D Z T w w') {x : Happening} (hx : x.isShown Z = false) :
    Mirrors D Z T (w.note x) w' := ⟨h.resembles.note_left hx, { h.twins with }, h.hooks⟩

theorem Mirrors.setBackend (h : Mirrors D Z T w w') (b : Scripted) :
    Mirrors D Z T (w.setBackend b) (w'.setBackend b) :=
  ⟨{ h.resembles with backend := rfl }, { h.twins with }, h.hooks⟩

theorem Mirrors.modifyQueue (h : Mirrors D Z T w w') (q : QueueId) (f : Queue → Queue) :
    Mirrors D Z T (w.modifyQueue q f) (w'.modifyQueue q f) :=
  ⟨h.resembles.modifyQueue q f, { h.twins with }, h.hooks⟩

theorem Mirrors.keepCalls (h : Mirrors D Z T w w') (calls : List StatusKind) :
    Mirrors D Z T (w.keepCalls calls) (w'.keepCalls calls) := by
  have hreporter : (w'.keepCalls calls).reporter = (w.keepCalls calls).reporter := by
    rw [World.keepCalls, World.keepCalls, h.resembles.reporter]
  exact ⟨{ h.resembles with reporter := hreporter }, { h.twins with }, h.hooks⟩

theorem Mirrors.keepNotices (h : Mirrors D Z T w w') (calls : List (NoticeKind × Nat)) :
    Mirrors D Z T (w.keepNotices calls) (w'.keepNotices calls) :=
  ⟨{ h.resembles with observerCalls := rfl }, { h.twins with }, h.hooks⟩

theorem Mirrors.takeNumber (h : Mirrors D Z T w w') (j k : JobId) :
    Mirrors D Z T (w.takeNumber j) (w'.takeNumber k) := by
  have hid : w'.nextId = w.nextId := h.resembles.nextId
  have hnumber : Mirrors D Z T
      { w with manager := { w.manager with lastId := w.nextId.number } }
      { w' with manager := { w'.manager with lastId := w.nextId.number } } :=
    ⟨{ h.resembles with lastId := rfl }, { h.twins with }, h.hooks⟩
  rw [World.takeNumber, World.takeNumber, hid]
  exact hnumber.note_hidden _ _ rfl rfl

theorem Mirrors.setPosition (h : Mirrors D Z T w w') (hT : T j k) {p p' : Position}
    (hp : p'.plain = p.plain) : Mirrors D Z T (w.setPosition j p) (w'.setPosition k p') :=
  ⟨{ h.resembles with }, h.twins.setPosition hT hp, h.hooks⟩

theorem Mirrors.wakeAll (h : Mirrors D Z T w w') (js js' : List JobId)
    (hiff : ∀ {j k}, T j k → (j ∈ js ↔ k ∈ js')) (hjs : ∀ j ∈ js, j < w.jobs.length)
    (hjs' : ∀ k ∈ js', k < w'.jobs.length) :
    Mirrors D Z T (w.wakeAll js) (w'.wakeAll js') := by
  have htwins := h.twins.wakeAll js js' hiff hjs hjs'
  obtain ⟨ready, heq⟩ := wakeAll_eq js w
  obtain ⟨ready', heq'⟩ := wakeAll_eq js' w'
  rw [heq, heq'] at htwins ⊢
  exact ⟨{ h.resembles with }, htwins, h.hooks⟩

theorem Mirrors.wake (h : Mirrors D Z T w w') (hT : T j k) :
    Mirrors D Z T (w.wake j) (w'.wake k) := by
  have htwins := h.twins.wake hT
  obtain ⟨ready, heq⟩ := wake_eq w j
  obtain ⟨ready', heq'⟩ := wake_eq w' k
  rw [heq, heq'] at htwins ⊢
  exact ⟨{ h.resembles with }, htwins, h.hooks⟩

theorem Mirrors.setTimer (h : Mirrors D Z T w w') (hT : T j k) (deadline : Nat) :
    Mirrors D Z T (w.setTimer deadline j) (w'.setTimer deadline k) :=
  ⟨{ h.resembles with }, h.twins.setTimer hT deadline, h.hooks⟩

theorem Mirrors.clearTimer (h : Mirrors D Z T w w') (hT : T j k) :
    Mirrors D Z T (w.clearTimer j) (w'.clearTimer k) :=
  ⟨{ h.resembles with }, h.twins.clearTimer hT, h.hooks⟩

theorem Mirrors.listen (h : Mirrors D Z T w w') (hT : T j k) (hkept : IsKept D token) :
    Mirrors D Z T (w.listen token j) (w'.listen token k) := by
  have htwins := h.twins.listen hT hkept
  obtain ⟨tokens, heq⟩ := listen_eq w token j
  obtain ⟨tokens', heq'⟩ := listen_eq w' token k
  rw [heq, heq'] at htwins ⊢
  exact ⟨{ h.resembles with }, htwins, h.hooks⟩

theorem Mirrors.unlisten (h : Mirrors D Z T w w') (hT : T j k) (hkept : IsKept D token) :
    Mirrors D Z T (w.unlisten token j) (w'.unlisten token k) := by
  have htwins := h.twins.unlisten hT hkept
  obtain ⟨tokens, heq⟩ := unlisten_eq w token j
  obtain ⟨tokens', heq'⟩ := unlisten_eq w' token k
  rw [heq, heq'] at htwins ⊢
  exact ⟨{ h.resembles with }, htwins, h.hooks⟩

/-- A token is cancelled in both worlds. -/
theorem Mirrors.cancel (h : Mirrors D Z T w w') (x : String) :
    Mirrors D Z T (w.cancel x) (w'.cancel x) := by
  by_cases hx : x ∈ D
  · obtain ⟨tokens, heq, hsame, hnobody⟩ := cancel_of_nobody (h.twins.unheard x hx).1
    obtain ⟨tokens', heq', hsame', hnobody'⟩ := cancel_of_nobody (h.twins.unheard x hx).2
    rw [heq, heq']
    exact ⟨{ h.resembles with }, h.twins.setTokens hx hsame hsame' hnobody hnobody', h.hooks⟩
  · have htwins := h.twins.cancel hx
    obtain ⟨tokens, ready, heq⟩ := cancel_eq w x
    obtain ⟨tokens', ready', heq'⟩ := cancel_eq w' x
    rw [heq, heq'] at htwins ⊢
    exact ⟨{ h.resembles with }, htwins, h.hooks⟩

/-- **A token that is left out** may be cancelled in one world only. -/
theorem Mirrors.cancel_left (h : Mirrors D Z T w w') {x : String} (hx : x ∈ D) :
    Mirrors D Z T (w.cancel x) w' := by
  obtain ⟨tokens, heq, hsame, hnobody⟩ := cancel_of_nobody (h.twins.unheard x hx).1
  rw [heq]
  exact ⟨{ h.resembles with }, h.twins.setTokens hx hsame (fun _ _ => rfl) hnobody
    (h.twins.unheard x hx).2, h.hooks⟩

theorem Mirrors.setGuard (h : Mirrors D Z T w w') {g g' : StartGuard}
    (hholder : Option.Rel T g.holder g'.holder) (hline : List.Forall₂ T g.line g'.line) :
    Mirrors D Z T (w.setGuard g) (w'.setGuard g') :=
  ⟨{ h.resembles with }, h.twins.setGuard hholder hline, h.hooks⟩

theorem Mirrors.takeGuard (h : Mirrors D Z T w w') (hT : T j k) :
    Mirrors D Z T (w.takeGuard j) (w'.takeGuard k) := h.setGuard (.some hT) h.twins.line

theorem Mirrors.joinLine (h : Mirrors D Z T w w') (hT : T j k) :
    Mirrors D Z T (w.joinLine j) (w'.joinLine k) :=
  h.setGuard h.twins.holder (List.rel_append h.twins.line (.cons hT .nil))

theorem Mirrors.leaveLine (h : Mirrors D Z T w w') (hT : T j k) :
    Mirrors D Z T (w.leaveLine j) (w'.leaveLine k) :=
  h.setGuard h.twins.holder (h.twins.filter_ne h.twins.line hT)

theorem Mirrors.releaseGuard (h : Mirrors D Z T w w') :
    Mirrors D Z T w.releaseGuard w'.releaseGuard := by
  have htwins := h.twins.releaseGuard
  obtain ⟨ready, heq⟩ := releaseGuard_eq w
  obtain ⟨ready', heq'⟩ := releaseGuard_eq w'
  rw [heq, heq'] at htwins ⊢
  exact ⟨{ h.resembles with }, htwins, h.hooks⟩

/-- Entries that look alike go on to look alike. -/
theorem Mirrors.modifyEntry (h : Mirrors D Z T w w') (e : EntryId) {f g : Entry → Entry}
    (hfg : ∀ {entry entry' : Entry}, entry.Resembles entry' → (f entry).Resembles (g entry'))
    (hroom : ∀ entry, (f entry).room = entry.room) (hroom' : ∀ entry, (g entry).room = entry.room)
    (htoken : ∀ entry, (f entry).token = entry.token) :
    Mirrors D Z T (w.modifyEntry e f) (w'.modifyEntry e g) :=
  ⟨h.resembles.modifyEntry e hfg, h.twins.modifyEntry e hroom hroom' htoken, h.hooks⟩

/-- The same job is begun in both worlds. -/
theorem Mirrors.spawn (h : Mirrors D Z T w w') {errand : Errand} (hfree : errand.Spares D Z) :
    Mirrors D Z (also T w.jobs.length w'.jobs.length) (w.spawn errand).1 (w'.spawn errand).1 :=
  ⟨{ h.resembles with }, h.twins.spawn hfree, h.hooks⟩

/-- It is the turn of other jobs. -/
theorem Mirrors.setCurrent (h : Mirrors D Z T w w') (c c' : Option JobId)
    (hiff : ∀ {j k}, T j k → (c = some j ↔ c' = some k))
    (hc : ∀ {j}, c = some j → j < w.jobs.length)
    (hc' : ∀ {k}, c' = some k → k < w'.jobs.length) :
    Mirrors D Z T { w with current := c } { w' with current := c' } :=
  ⟨{ h.resembles with }, { h.twins with current := hiff, idle := hc, idle' := hc' }, h.hooks⟩

/-- Jobs have taken their turns. -/
theorem Mirrors.setReady (h : Mirrors D Z T w w') (ready ready' : List JobId)
    (hready : ready.Sublist w.ready) (hready' : ready'.Sublist w'.ready)
    (hiff : ∀ {j k}, T j k → (j ∈ ready ↔ k ∈ ready')) :
    Mirrors D Z T { w with ready } { w' with ready := ready' } :=
  ⟨{ h.resembles with }, { h.twins with
    ready := hiff, nodup := h.twins.nodup.sublist hready, nodup' := h.twins.nodup'.sublist hready'
    bound := fun j hj => h.twins.bound j (hready.subset hj)
    bound' := fun k hk => h.twins.bound' k (hready'.subset hk) }, h.hooks⟩

/-- A job that waits for a handle that is left out is begun in the first world. -/
theorem Mirrors.watch_left (h : Mirrors D Z T w w') {handle : String} (hname : handle ∈ Z)
    (e : EntryId) : Mirrors D Z T (w.spawn (.watch handle e)).1 w' := by
  have hawaits : (Errand.watch handle e).awaits Z = true := decide_eq_true hname
  exact ⟨{ h.resembles with }, h.twins.spawn_left hawaits, h.hooks⟩

theorem spares_operation (D Z : List String) (e : EntryId) : (Errand.operation e).Spares D Z :=
  ⟨fun _ hx => absurd hx (by simp [Errand.token?]), rfl⟩

theorem spares_reopen (D Z : List String) (q : QueueId) (e : EntryId) :
    (Errand.reopen q e).Spares D Z :=
  ⟨fun _ hx => absurd hx (by simp [Errand.token?]), rfl⟩

/-! ## Entries -/

theorem Mirrors.dispatch (h : Mirrors D Z T w w') (q : QueueId) :
    Mirrored D Z T (w.dispatch q) (w'.dispatch q) := by
  unfold World.dispatch
  rw [h.resembles.queues]
  split
  · exact ⟨_, le_also _ _ _, ((h.modifyQueue q _).note _).spawn (spares_operation D Z _)⟩
  · exact h.mirrored

theorem Mirrors.append (h : Mirrors D Z T w w') (q : QueueId) (queue : Queue) (op : Operation)
    (hkept : IsKept D token) :
    Mirrors D Z T (w.append q queue op token).1 (w'.append q queue op token).1 ∧
      (w'.append q queue op token).2 = (w.append q queue op token).2 := by
  have hentries (entry : Entry) :
      List.Forall₂ Entry.Resembles (w.entries ++ [entry]) (w'.entries ++ [entry]) :=
    List.rel_append h.resembles.entries (.cons ⟨rfl, id⟩ .nil)
  have hresembles (entry : Entry) : Resembles Z { w with entries := w.entries ++ [entry] }
      { w' with entries := w'.entries ++ [entry] } :=
    { h.resembles with entries := hentries entry }
  have hlength : w'.entries.length = w.entries.length := h.resembles.length
  refine ⟨⟨?_, h.twins.append q queue op hkept, h.hooks⟩, hlength⟩
  unfold World.append
  rw [hlength]
  exact ((hresembles _).modifyQueue q _).note _

/-- **A request** is served by the same entry in both worlds. -/
theorem Mirrors.request (h : Mirrors D Z T w w') (q : QueueId) (op : Operation)
    (hkept : IsKept D token) :
    Echoes D Z T (w.request q op token) (w'.request q op token) := by
  unfold World.request
  rw [h.resembles.queues]
  split
  · exact ⟨h.mirrored, rfl⟩
  · next queue hq =>
    rw [h.resembles.absorber? queue op]
    split
    · exact ⟨(h.note_hidden _ _ rfl rfl).mirrored, rfl⟩
    · obtain ⟨happend, heq⟩ := h.append q queue op hkept
      exact ⟨happend.dispatch q, heq⟩

/-- Those who wait for an entry sit in its room. -/
theorem mem_waitingJobs_of_entry {entry : Entry} (he : w.entryOf? e = some entry) :
    j ∈ waitingJobs entry.room ↔ w.Sits j e := by
  rw [mem_waitingJobs, Sits, roomOf, he]
  rfl

theorem Mirrors.deliver (h : Mirrors D Z T w w') (e : EntryId) (o : Outcome) :
    Mirrors D Z T (w.deliver e o) (w'.deliver e o) := by
  unfold World.deliver
  rcases h.resembles.entry_cases e with ⟨he, he'⟩ | ⟨entry, entry', he, he', hlike⟩
  · rwa [he, he']
  · rw [he, he']
    have hset := (h.modifyEntry e (f := fun entry => { entry with outcome := some o })
      (g := fun entry => { entry with outcome := some o })
      (fun hlike => hlike.setOutcome o)
      (fun _ => rfl) (fun _ => rfl) fun _ => rfl).note (.resolved e o)
    refine hset.wakeAll _ _ (fun {a b} hab => ?_) (fun a ha => ?_) (fun b hb => ?_)
    · rw [mem_waitingJobs_of_entry he, mem_waitingJobs_of_entry he']
      exact h.twins.seats hab e
    · exact h.twins.sitting ((mem_waitingJobs_of_entry he).1 ha)
    · exact h.twins.sitting' ((mem_waitingJobs_of_entry he').1 hb)

/-- **An entry leaves its slot** in both worlds. -/
theorem Mirrors.resolve (h : Mirrors D Z T w w') (e : EntryId) (o : Outcome) :
    Mirrored D Z T (w.resolve e o) (w'.resolve e o) := by
  unfold World.resolve
  rcases h.resembles.entry_cases e with ⟨he, he'⟩ | ⟨entry, entry', he, he', hlike⟩
  · rw [he, he']
    exact h.mirrored
  · rw [he, he']
    dsimp only
    rw [hlike.eq.1]
    obtain ⟨T', hle, hdispatched⟩ := ((h.modifyQueue entry.queue
      fun queue => { queue with active := none }).note (.vacated e)).dispatch entry.queue
    exact ⟨T', hle, hdispatched.deliver e o⟩

/-- Is an outcome received in one world, so it is in the other. -/
theorem Mirrors.receive? (h : Mirrors D Z T w w') (e : EntryId) :
    (w.receive? e = none ∧ w'.receive? e = none) ∨ ∃ v v' o, w.receive? e = some (v, o) ∧
      w'.receive? e = some (v', o) ∧ Mirrors D Z T v v' := by
  unfold World.receive?
  rcases h.resembles.entry_cases e with ⟨he, he'⟩ | ⟨entry, entry', he, he', hlike⟩
  · rw [he, he']
    exact .inl ⟨rfl, rfl⟩
  · rw [he, he']
    obtain ⟨-, -, -, houtcome⟩ := hlike.eq
    obtain ⟨queue, op, token, outcome, isReceived, room⟩ := entry
    obtain ⟨queue', op', token', outcome', isReceived', room'⟩ := entry'
    obtain rfl : outcome' = outcome := houtcome
    cases outcome' with
    | none => exact .inl ⟨rfl, rfl⟩
    | some o =>
      refine .inr ⟨_, _, o, rfl, rfl, ?_⟩
      exact h.modifyEntry e (fun hlike => ⟨hlike.plain, fun _ => rfl⟩) (fun _ => rfl)
        (fun _ => rfl) fun _ => rfl

/-! ## Seats -/

theorem Resembles.takeSeat (h : Resembles Z w w') (e : EntryId) (who who' : Waiter) :
    Resembles Z (w.takeSeat e who).1 (w'.takeSeat e who').1 := by
  unfold World.takeSeat
  rcases h.entry_cases e with ⟨he, he'⟩ | ⟨entry, entry', he, he', -⟩
  · rwa [he, he']
  · rw [he, he']
    exact h.modifyEntry e fun hlike => ⟨hlike.plain, hlike.received⟩

/-- Somebody takes a seat in each world: twins do, or others than jobs. -/
theorem Mirrors.sit (h : Mirrors D Z T w w') {who who' : Waiter}
    (hwho : ∀ {a b}, T a b → (who = .job a ↔ who' = .job b))
    (hlt : ∀ {a}, who = .job a → a < w.jobs.length)
    (hlt' : ∀ {b}, who' = .job b → b < w'.jobs.length) (hsound : (w.roomOf e).IsSound)
    (hsound' : (w'.roomOf e).IsSound) :
    Mirrors D Z T (w.takeSeat e who).1 (w'.takeSeat e who').1 := by
  have hsame : (w'.entryOf? e).isSome = (w.entryOf? e).isSome := by
    rcases h.resembles.entry_cases e with ⟨he, he'⟩ | ⟨entry, entry', he, he', -⟩ <;>
      simp [he, he']
  refine ⟨h.resembles.takeSeat e _ _, h.twins.takeSeat hwho hlt hlt' hsame hsound hsound', ?_⟩
  exact h.hooks.of_eq (hooks_takeSeat w e _)

/-- A job and its twin take seats. -/
theorem Mirrors.takeSeat (h : Mirrors D Z T w w') (hT : T j k) (hsound : (w.roomOf e).IsSound)
    (hsound' : (w'.roomOf e).IsSound) :
    Mirrors D Z T (w.takeSeat e (.job j)).1 (w'.takeSeat e (.job k)).1 :=
  h.sit (fun hab => by rw [Waiter.job.injEq, Waiter.job.injEq, h.twins.eq_iff hT hab])
    (fun heq => Waiter.job.inj heq ▸ (h.twins.lt hT).1)
    (fun heq => Waiter.job.inj heq ▸ (h.twins.lt hT).2) hsound hsound'

/-- Somebody who has no twin takes a seat in the first world. -/
theorem Mirrors.sit_left (h : Mirrors D Z T w w') {who : Waiter}
    (hwho : ∀ {a b}, T a b → who ≠ .job a) (hlt : ∀ a, who = .job a → a < w.jobs.length)
    (hsound : (w.roomOf e).IsSound) : Mirrors D Z T (w.takeSeat e who).1 w' := by
  refine ⟨?_, h.twins.takeSeat_left hwho hlt hsound, h.hooks.of_eq (hooks_takeSeat w e _)⟩
  unfold World.takeSeat
  split
  · exact h.resembles
  · exact h.resembles.modifyEntry_left e (fun _ => rfl) fun _ hr => hr

/-- Somebody receives an outcome in the first world. -/
theorem Mirrors.receive_left (h : Mirrors D Z T w w') {v : World} {o : Outcome}
    (hr : w.receive? e = some (v, o)) : Mirrors D Z T v w' := by
  unfold World.receive? at hr
  split at hr
  · obtain ⟨rfl, -⟩ := Prod.mk.inj (Option.some.inj hr)
    exact ⟨h.resembles.modifyEntry_left e (fun _ => rfl) fun _ _ => rfl,
      h.twins.modifyEntry_left e (fun _ => rfl) fun _ => rfl, h.hooks⟩
  · exact absurd hr (by simp)

/-- A job and its twin give up their seats. -/
theorem Mirrors.leaveSeat (h : Mirrors D Z T w w') (hT : T j k) {seat seat' : Nat}
    (he : (w.entryOf? e).isSome) (he' : (w'.entryOf? e).isSome)
    (honly : ∀ s a, (w.roomOf e).seats[s]? = some (some (.job a)) → (s = seat ↔ j = a))
    (honly' : ∀ s a, (w'.roomOf e).seats[s]? = some (some (.job a)) → (s = seat' ↔ k = a)) :
    Mirrors D Z T (w.leaveSeat e seat) (w'.leaveSeat e seat') :=
  ⟨h.resembles.modifyEntry e fun hlike => ⟨hlike.plain, hlike.received⟩,
    h.twins.leaveSeat hT he he' honly honly', h.hooks⟩

/-! ## Names -/

/-- A handle is kept under a name that is not left out. -/
theorem Mirrors.nameHandle (h : Mirrors D Z T w w') {name : String} (hname : name ∉ Z)
    (e : EntryId) : Mirrors D Z T
      { w with names := { w.names with handles := w.names.handles ++ [(name, e)] } }
      { w' with names := { w'.names with handles := w'.names.handles ++ [(name, e)] } } := by
  have hhandles : w'.names.handles ++ [(name, e)] =
      (w.names.handles ++ [(name, e)]).filter fun h => decide (h.1 ∉ Z) := by
    rw [List.filter_append, h.resembles.handles, List.filter_cons_of_pos (by simpa using hname)]
    rfl
  exact ⟨{ h.resembles with handles := hhandles }, { h.twins with }, h.hooks⟩

/-- A handle that is left out is kept in one world only. -/
theorem Mirrors.nameHandle_left (h : Mirrors D Z T w w') {name : String} (hname : name ∈ Z)
    (e : EntryId) : Mirrors D Z T
      { w with names := { w.names with handles := w.names.handles ++ [(name, e)] } } w' := by
  have hhandles : w'.names.handles =
      (w.names.handles ++ [(name, e)]).filter fun h => decide (h.1 ∉ Z) := by
    rw [List.filter_append, h.resembles.handles, List.filter_cons_of_neg (by simpa using hname)]
    exact (List.append_nil _).symm
  exact ⟨{ h.resembles with handles := hhandles }, { h.twins with }, h.hooks⟩

theorem Mirrors.requestNamed (h : Mirrors D Z T w w') (q : QueueId) (op : Operation)
    (hkept : IsKept D token) {name : String} (hname : name ∉ Z) :
    Mirrored D Z T (w.requestNamed q op token name).1 (w'.requestNamed q op token name).1 := by
  obtain ⟨⟨T', hle, hrequest⟩, heq⟩ := h.request q op hkept
  refine ⟨T', hle, ?_⟩
  unfold World.requestNamed
  dsimp only
  rw [heq]
  exact hrequest.nameHandle hname _

theorem Mirrors.nameQueue (h : Mirrors D Z T w w') (key : String) (q : QueueId) :
    Mirrors D Z T (w.nameQueue key q) (w'.nameQueue key q) := by
  have hqueues : (w'.nameQueue key q).names.queues = (w.nameQueue key q).names.queues := by
    rw [World.nameQueue, World.nameQueue, h.resembles.queueNames]
  exact ⟨{ h.resembles with queueNames := hqueues }, { h.twins with }, h.hooks⟩

theorem Mirrors.makeQueue (h : Mirrors D Z T w w') (name : String) (isRecorded : Bool) :
    Mirrors D Z T (w.makeQueue name isRecorded).1 (w'.makeQueue name isRecorded).1 ∧
      (w'.makeQueue name isRecorded).2 = (w.makeQueue name isRecorded).2 := by
  have hqueues : (w'.makeQueue name isRecorded).1.queues =
      (w.makeQueue name isRecorded).1.queues := by
    rw [World.makeQueue, World.makeQueue, h.resembles.queues]
  refine ⟨⟨{ h.resembles with queues := hqueues }, { h.twins with }, h.hooks⟩, ?_⟩
  rw [World.makeQueue, World.makeQueue, h.resembles.queues]

/-- A job and its twin are kept under a name. -/
theorem Mirrors.nameJob (h : Mirrors D Z T w w') (hT : T j k) (name : String) :
    Mirrors D Z T (w.nameJob name j) (w'.nameJob name k) := by
  have hnamed : List.Forall₂ (fun p p' : String × JobId => p.1 = p'.1 ∧ T p.2 p'.2)
      (w.nameJob name j).names.jobs (w'.nameJob name k).names.jobs :=
    .cons ⟨rfl, hT⟩ (List.rel_filter (fun p p' hp => by simp [hp.1]) h.twins.named)
  exact ⟨{ h.resembles with }, { h.twins with named := hnamed }, h.hooks⟩

/-- The jobs that are kept under a name correspond. -/
theorem Twins.lookup (h : Twins D Z T w w') (name : String) :
    (w.names.jobs.lookup name = none ∧ w'.names.jobs.lookup name = none) ∨
      ∃ j k, w.names.jobs.lookup name = some j ∧ w'.names.jobs.lookup name = some k ∧ T j k := by
  have hlookup {jobs jobs' : List (String × JobId)}
      (hjobs : List.Forall₂ (fun p p' => p.1 = p'.1 ∧ T p.2 p'.2) jobs jobs') :
      (jobs.lookup name = none ∧ jobs'.lookup name = none) ∨
        ∃ j k, jobs.lookup name = some j ∧ jobs'.lookup name = some k ∧ T j k := by
    induction hjobs with
    | nil => exact .inl ⟨rfl, rfl⟩
    | @cons p p' _ _ hp _ ih =>
      rw [List.lookup_cons, List.lookup_cons, ← hp.1]
      cases name == p.1 with
      | true => exact .inr ⟨_, _, rfl, rfl, hp.2⟩
      | false => exact ih
  exact hlookup h.named

/-- A name of a job is forgotten. -/
theorem Mirrors.forgetJob (h : Mirrors D Z T w w') (name : String) : Mirrors D Z T
    { w with names := { w.names with jobs := w.names.jobs.filter fun e => e.1 != name } }
    { w' with names := { w'.names with jobs := w'.names.jobs.filter fun e => e.1 != name } } := by
  have hnamed : List.Forall₂ (fun p p' : String × JobId => p.1 = p'.1 ∧ T p.2 p'.2)
      (w.names.jobs.filter fun e => e.1 != name) (w'.names.jobs.filter fun e => e.1 != name) :=
    List.rel_filter (fun p p' hp => by simp [hp.1]) h.twins.named
  exact ⟨{ h.resembles with }, { h.twins with named := hnamed }, h.hooks⟩

theorem Twins.done_iff (h : Twins D Z T w w') (hT : T j k) :
    w'.position k = .done ↔ w.position j = .done := by
  rw [← Position.plain_eq_done, h.position hT, Position.plain_eq_done]

theorem Twins.fresh_iff (h : Twins D Z T w w') (hT : T j k) :
    w'.position k = .fresh ↔ w.position j = .fresh := by
  have hfresh {p : Position} : p.plain = .fresh ↔ p = .fresh := by cases p <;> simp [Position.plain]
  rw [← hfresh, h.position hT, hfresh]

/-- A job and its twin are given up. -/
theorem Mirrors.abandonJob (h : Mirrors D Z T w w') (hT : T j k) :
    Mirrors D Z T (w.abandonJob j).1 (w'.abandonJob k).1 := by
  have hgiven : Mirrors D Z T (w.modifyJob j fun job => { job with isAbandoned := true })
      (w'.modifyJob k fun job => { job with isAbandoned := true }) :=
    ⟨{ h.resembles with }, h.twins.giveUp hT, h.hooks⟩
  unfold World.abandonJob
  by_cases hdone : w.position j = .done
  · rwa [if_pos hdone, if_pos ((h.twins.done_iff hT).2 hdone)]
  · rw [if_neg hdone, if_neg fun hk => hdone ((h.twins.done_iff hT).1 hk)]
    dsimp only
    by_cases hcurrent : w.current = some j
    · rw [if_pos (c := (World.modifyJob _ _ _).current = _) hcurrent,
        if_pos (c := (World.modifyJob _ _ _).current = _) ((h.twins.current hT).1 hcurrent)]
      exact hgiven
    · rw [if_neg (c := (World.modifyJob _ _ _).current = _) hcurrent,
        if_neg (c := (World.modifyJob _ _ _).current = _)
          fun hk => hcurrent ((h.twins.current hT).2 hk)]
      exact hgiven.wake hT

/-! ## Observers -/

/-- The observers are changed in both worlds. -/
theorem Resembles.setManager (h : Resembles Z w w') {m m' : Manager}
    (hlastId : m'.lastId = m.lastId) (hstart : m'.startObservers = m.startObservers)
    (hend : m'.endObservers = m.endObservers) (hdisposed : m'.isDisposed = m.isDisposed) :
    Resembles Z { w with manager := m } { w' with manager := m' } :=
  { h with lastId := hlastId, startObservers := hstart, endObservers := hend,
           isDisposed := hdisposed }

theorem Resembles.releaseObserver (h : Resembles Z w w') (kind : NoticeKind) (number : Nat) :
    Resembles Z (w.releaseObserver kind number) (w'.releaseObserver kind number) := by
  cases kind with
  | start =>
    exact h.setManager h.lastId (congrArg (·.release number) h.startObservers) h.endObservers
      h.isDisposed
  | finish =>
    exact h.setManager h.lastId h.startObservers (congrArg (·.release number) h.endObservers)
      h.isDisposed

theorem Twins.releaseObserver (h : Twins D Z T w w') (kind : NoticeKind) (number : Nat) :
    Twins D Z T (w.releaseObserver kind number) (w'.releaseObserver kind number) := by
  cases kind <;> exact { h with }

theorem Resembles.subscribe (h : Resembles Z w w') (kind : NoticeKind) (o : Observer) :
    Resembles Z (w.subscribe kind o).1 (w'.subscribe kind o).1 ∧
      (w'.subscribe kind o).2 = (w.subscribe kind o).2 := by
  cases kind with
  | start =>
    exact ⟨h.setManager h.lastId (congrArg (fun r => (r.subscribe o).1) h.startObservers)
      h.endObservers h.isDisposed, congrArg (fun r => (r.subscribe o).2) h.startObservers⟩
  | finish =>
    exact ⟨h.setManager h.lastId h.startObservers
      (congrArg (fun r => (r.subscribe o).1) h.endObservers) h.isDisposed,
      congrArg (fun r => (r.subscribe o).2) h.endObservers⟩

theorem Twins.subscribe (h : Twins D Z T w w') (kind : NoticeKind) (o : Observer) :
    Twins D Z T (w.subscribe kind o).1 (w'.subscribe kind o).1 := by
  cases kind <;> exact { h with }

theorem Resembles.setObserverNames (h : Resembles Z w w')
    (names : List (String × NoticeKind × Nat)) :
    Resembles Z { w with names := { w.names with observers := names } }
      { w' with names := { w'.names with observers := names } } := { h with observerNames := rfl }

theorem Resembles.forgetObserver (h : Resembles Z w w') (name : String) :
    Resembles Z (w.forgetObserver name) (w'.forgetObserver name) := by
  rw [World.forgetObserver, World.forgetObserver, h.observerNames]
  exact h.setObserverNames _

theorem Resembles.observe (h : Resembles Z w w') (name : String) (kind : NoticeKind)
    (hooks : List Hook) : Resembles Z (w.observe name kind hooks) (w'.observe name kind hooks) := by
  obtain ⟨hsubscribed, hnumber⟩ := h.subscribe kind ⟨name, hooks⟩
  have hforgotten := hsubscribed.forgetObserver name
  unfold World.observe
  dsimp only
  rw [hnumber, h.observerNames, hforgotten.observerNames]
  split
  · exact hforgotten.setObserverNames _
  · exact (hforgotten.setObserverNames _).releaseObserver _ _

theorem Twins.setObserverNames (h : Twins D Z T w w')
    (names names' : List (String × NoticeKind × Nat)) :
    Twins D Z T { w with names := { w.names with observers := names } }
      { w' with names := { w'.names with observers := names' } } := { h with }

theorem Twins.observe (h : Twins D Z T w w') (hnames : w'.names.observers = w.names.observers)
    (name : String) (kind : NoticeKind) (hooks : List Hook) :
    Twins D Z T (w.observe name kind hooks) (w'.observe name kind hooks) := by
  have hnamed := ((h.subscribe kind ⟨name, hooks⟩).setObserverNames
    ((w.subscribe kind ⟨name, hooks⟩).1.names.observers.filter fun e => e.1 != name)
    ((w'.subscribe kind ⟨name, hooks⟩).1.names.observers.filter fun e => e.1 != name))
  unfold World.observe
  dsimp only
  rw [hnames]
  split
  · exact hnamed.setObserverNames _ _
  · exact (hnamed.setObserverNames _ _).releaseObserver _ _

/-! ## Actions -/

theorem Mirrors.withQueue (h : Mirrors D Z T w w') (key : String)
    {f f' : QueueId → World × Reply} (hf : ∀ q, Mirrored D Z T (f q).1 (f' q).1) :
    Mirrored D Z T (w.withQueue key f).1 (w'.withQueue key f').1 := by
  unfold World.withQueue
  rw [h.resembles.queueNamed? key]
  split
  · exact hf _
  · exact h.mirrored

/-- What is done with a handle leaves the world alone. -/
theorem withHandle_fst (w : World) (name : String) {f : EntryId → World × Reply}
    (hf : ∀ e, (f e).1 = w) : (w.withHandle name f).1 = w := by
  unfold World.withHandle
  split
  · exact hf _
  · rfl

theorem Mirrors.disposeManager (h : Mirrors D Z T w w') :
    Mirrors D Z T w.disposeManager w'.disposeManager := by
  have hnoted : Mirrors D Z T (if w.manager.isDisposed then w else w.note .managerDisposed)
      (if w'.manager.isDisposed then w' else w'.note .managerDisposed) := by
    rw [h.resembles.isDisposed]
    split
    · exact h
    · exact h.note _
  unfold World.disposeManager
  dsimp only
  generalize (if w.manager.isDisposed then w else w.note .managerDisposed) = v at hnoted
  generalize (if w'.manager.isDisposed then w' else w'.note .managerDisposed) = v' at hnoted
  refine ⟨hnoted.resembles.setManager hnoted.resembles.lastId
    (congrArg Registry.clear hnoted.resembles.startObservers)
    (congrArg Registry.clear hnoted.resembles.endObservers) rfl, { hnoted.twins with }, ?_⟩
  intro hook hmem
  rw [mem_hooks] at hmem
  rcases hmem with hmem | ⟨o, ho, -⟩
  · exact hnoted.hooks hook (mem_hooks.2 (.inl hmem))
  · exact absurd ho List.not_mem_nil

/-- A script is given in both worlds. -/
theorem Mirrors.script (h : Mirrors D Z T w w') (args : List String) (s : Script)
    (startDelay : Option Nat) : Mirrors D Z T (w.perform (.script args s startDelay)).1
      (w'.perform (.script args s startDelay)).1 := by
  have hbackend : w'.backend.script args s = w.backend.script args s := by rw [h.resembles.backend]
  cases startDelay with
  | none => exact ⟨{ h.resembles with backend := hbackend }, { h.twins with }, h.hooks⟩
  | some d =>
    have hdelays : ((args, d) :: w'.startDelays.filter fun e => e.1 != args) =
        (args, d) :: w.startDelays.filter fun e => e.1 != args := by rw [h.resembles.startDelays]
    exact ⟨{ h.resembles with backend := hbackend, startDelays := hdelays }, { h.twins with },
      h.hooks⟩

/-- A job is begun in both worlds, and kept under a name. -/
theorem Mirrors.spawnNamed (h : Mirrors D Z T w w') {errand : Errand}
    (hfree : errand.Spares D Z) (name : String) :
    Mirrored D Z T ((w.spawn errand).1.nameJob name (w.spawn errand).2)
      ((w'.spawn errand).1.nameJob name (w'.spawn errand).2) :=
  ⟨_, le_also _ _ _, (h.spawn hfree).nameJob (.inr ⟨rfl, rfl⟩) name⟩

/-- **An action that spares what is left out** is done in both worlds. -/
theorem Mirrors.perform (h : Mirrors D Z T w w') {a : Action} (ha : a.Spares D Z)
    (hsubscribes : a.SubscribesWithin (Hook.Spares D Z)) :
    Mirrored D Z T (w.perform a).1 (w'.perform a).1 := by
  have hsame (heq : (w.perform a).1 = w) (heq' : (w'.perform a).1 = w') :
      Mirrored D Z T (w.perform a).1 (w'.perform a).1 := by
    rw [heq, heq']
    exact h.mirrored
  cases a with
  | script args s startDelay => exact (h.script args s startDelay).mirrored
  | makeQueue key name =>
    obtain ⟨hmade, heq⟩ := h.makeQueue name true
    simp only [World.perform]
    rw [heq]
    exact (hmade.nameQueue key _).mirrored
  | request queue op token handle =>
    exact h.withQueue queue fun q => h.requestNamed q op ha.1 ha.2
  | cancel token => exact (h.cancel token).mirrored
  | withhold queue value => exact h.withQueue queue fun q => ((h.modifyQueue q _).note _).mirrored
  | peek handle =>
    exact hsame (withHandle_fst w handle fun _ => rfl) (withHandle_fst w' handle fun _ => rfl)
  | describe handle =>
    refine hsame (withHandle_fst w handle fun e => ?_) (withHandle_fst w' handle fun e => ?_)
    · split <;> rfl
    · split <;> rfl
  | compare a b =>
    exact hsame (withHandle_fst w a fun _ => withHandle_fst w b fun _ => rfl)
      (withHandle_fst w' a fun _ => withHandle_fst w' b fun _ => rfl)
  | watch handle =>
    simp only [World.perform, World.withHandle]
    by_cases hname : handle ∈ Z
    · rw [h.resembles.handleNamed?_eq_none hname]
      split
      · exact (h.watch_left hname _).mirrored
      · exact h.mirrored
    · rw [h.resembles.handleNamed? hname]
      split
      · next e he =>
        refine ⟨_, le_also _ _ _, h.spawn ⟨fun _ hx => absurd hx (by simp [Errand.token?]), ?_⟩⟩
        exact decide_eq_false hname
      · exact h.mirrored
  | observe name kind hooks =>
    exact Mirrors.mirrored ⟨h.resembles.observe name kind hooks,
      h.twins.observe h.resembles.observerNames name kind hooks, h.hooks.perform hsubscribes⟩
  | unobserve name =>
    have hhooks := h.hooks.perform hsubscribes
    simp only [World.perform] at hhooks ⊢
    rw [h.resembles.observerNames]
    split
    · exact h.mirrored
    · next kind number hkept =>
      rw [hkept] at hhooks
      refine Mirrors.mirrored ⟨(h.resembles.forgetObserver name).releaseObserver kind number,
        Twins.releaseObserver ?_ kind number, hhooks⟩
      exact h.twins.setObserverNames _ _
  | disposeManager => exact h.disposeManager.mirrored
  | execute name command token =>
    have hfree : (Errand.execution name command token).Spares D Z := ⟨ha, rfl⟩
    exact h.spawnNamed hfree name
  | reset name folder token =>
    have hfree : (Errand.reset name folder token).Spares D Z := ⟨ha, rfl⟩
    exact h.spawnNamed hfree name
  | abandon name =>
    simp only [World.perform]
    rcases h.twins.lookup name with ⟨hj, hk⟩ | ⟨j, k, hj, hk, hT⟩
    · rw [hj, hk]
      exact h.mirrored
    · rw [hj, hk]
      exact ((h.forgetJob name).abandonJob hT).mirrored
  | countObservers | inspectManager | listRecords | undecodable | unknown => exact hsame rfl rfl

/-! ## Callbacks -/

theorem Mirrors.runActions (h : Mirrors D Z T w w') (site : CallbackSite) (actions : List Action)
    (hactions : ∀ a ∈ actions, a.Spares D Z ∧ a.SubscribesWithin (Hook.Spares D Z)) :
    Mirrored D Z T (w.runActions site actions) (w'.runActions site actions) := by
  induction actions generalizing T w w' with
  | nil => exact h.mirrored
  | cons a actions ih =>
    obtain ⟨ha, hsubscribes⟩ := hactions a List.mem_cons_self
    obtain ⟨T', hle, hdone⟩ := h.perform ha hsubscribes
    have hnoted := hdone.note_hidden (.hookAnswered site (w.perform a).2)
      (.hookAnswered site (w'.perform a).2) rfl rfl
    exact (ih hnoted fun b hb => hactions b (List.mem_cons_of_mem a hb)).grow hle

theorem Mirrors.runHooks (h : Mirrors D Z T w w') (site : CallbackSite) (hooks : List Hook)
    (hhooks : ∀ h ∈ hooks, h.Within (Hook.Spares D Z)) :
    Echoes D Z T (runHooks site hooks w) (runHooks site hooks w') := by
  induction hooks generalizing T w w' with
  | nil => exact ⟨h.mirrored, rfl⟩
  | cons hook hooks ih =>
    have hwithin := hhooks hook List.mem_cons_self
    have hran := h.runActions site hook.actions fun a ha =>
      ⟨hwithin.holds a ha, hwithin.subscribesWithin ha⟩
    unfold World.runHooks
    dsimp only
    split
    · exact ⟨hran, rfl⟩
    · obtain ⟨T', hle, hran⟩ := hran
      obtain ⟨hrest, heq⟩ := ih hran fun h hh => hhooks h (List.mem_cons_of_mem hook hh)
      exact ⟨hrest.grow hle, heq⟩

/-- The user's reporter is called in both worlds. -/
theorem Mirrors.report (h : Mirrors D Z T w w') (e : EntryId) (call : StatusCall) :
    Echoes D Z T (w.report e call) (w'.report e call) := by
  have hnoted := h.note (.reported e call (w.isRecorded e))
  have hkept := hnoted.keepCalls (call.kind :: w.reporter.calls)
  have hran := hkept.runHooks (.status call.kind)
    (w.reporter.hooks.filter fun hook =>
      hook.actsOn call.kind ((call.kind :: w.reporter.calls).count call.kind))
    fun hook hmem => h.hooks hook (mem_hooks.2 (.inl (List.mem_filter.1 hmem).1))
  have hreporter : (w'.note (.reported e call (w.isRecorded e))).reporter = w.reporter :=
    h.resembles.reporter
  have hsame : ((w'.note (.reported e call (w.isRecorded e))).keepCalls
      (call.kind :: w.reporter.calls)).reporter.hooks = w.reporter.hooks := by
    rw [World.keepCalls, hreporter]
  unfold World.report
  dsimp only
  rw [h.resembles.isRecorded e]
  split
  · rw [hreporter, hsame]
    exact hran.ite (f := fun v => (v.note (.reporterPanicked e call), true))
      (u := fun v => (v.note (.reporterPanicked e call), true)) (g := fun v => (v, false))
      (v := fun v => (v, false)) (fun _ hmirrors => (hmirrors.note _).echoes true)
      fun _ hmirrors => hmirrors.echoes false
  · exact hnoted.echoes false

theorem Mirrors.reportAll (h : Mirrors D Z T w w') (e : EntryId) (calls : List StatusCall) :
    Echoes D Z T (reportAll e calls w) (reportAll e calls w') := by
  induction calls generalizing T w w' with
  | nil => exact h.echoes false
  | cons call calls ih =>
    exact (h.report e call).ite (f := fun v => (v, true)) (u := fun v => (v, true))
      (g := World.reportAll e calls) (v := World.reportAll e calls)
      (fun _ hmirrors => hmirrors.echoes true) fun _ hmirrors => ih hmirrors

/-- The observers are called in both worlds. -/
theorem Mirrors.callObservers (h : Mirrors D Z T w w') (kind : NoticeKind) (id : TaskId)
    (fact : String → Happening) {observers : List (Nat × Observer)}
    (hobservers : ∀ o ∈ observers, ∀ hook ∈ o.2.hooks, hook.Within (Hook.Spares D Z)) :
    Echoes D Z T (callObservers kind id fact observers w)
      (callObservers kind id fact observers w') := by
  induction observers generalizing T w w' with
  | nil => exact h.echoes false
  | cons numbered observers ih =>
    obtain ⟨number, o⟩ := numbered
    have hkept := (h.note (fact o.name)).keepNotices ((kind, number) :: w.observerCalls)
    have hran := hkept.runHooks .observer
      (o.hooks.filter fun hook =>
        hook.actsAt (((kind, number) :: w.observerCalls).count (kind, number)))
      fun hook hmem => hobservers _ List.mem_cons_self hook (List.mem_filter.1 hmem).1
    have hcalls : (w'.note (fact o.name)).observerCalls = w.observerCalls :=
      h.resembles.observerCalls
    unfold World.callObservers
    dsimp only
    rw [hcalls]
    exact hran.ite (f := fun v => (v.note (.observerPanicked kind id), true))
      (u := fun v => (v.note (.observerPanicked kind id), true))
      (g := World.callObservers kind id fact observers)
      (v := World.callObservers kind id fact observers)
      (fun _ hmirrors => (hmirrors.note _).echoes true)
      fun _ hmirrors => ih hmirrors fun o ho => hobservers o (List.mem_cons_of_mem _ ho)

theorem Mirrors.announceStart (h : Mirrors D Z T w w') (id : TaskId) (c : Command) :
    Echoes D Z T (w.announceStart id c) (w'.announceStart id c) := by
  have hnoted := h.note (.startAnnounced id c)
  unfold World.announceStart
  dsimp only
  rw [hnoted.resembles.startObservers]
  refine hnoted.callObservers _ _ _ fun o ho hook hmem => h.hooks hook (mem_hooks.2 (.inr ?_))
  exact ⟨o, List.mem_append_left _ ho, hmem⟩

theorem Mirrors.announceEnd (h : Mirrors D Z T w w') (id : TaskId) (c : Command)
    (code : Option Int32) :
    Echoes D Z T (w.announceEnd id c code) (w'.announceEnd id c code) := by
  have hnoted := h.note (.endAnnounced id c code)
  unfold World.announceEnd
  dsimp only
  rw [hnoted.resembles.endObservers]
  refine hnoted.callObservers _ _ _ fun o ho hook hmem => h.hooks hook (mem_hooks.2 (.inr ?_))
  exact ⟨o, List.mem_append_right _ ho, hmem⟩

end Echoing

end FolderTasks.Dispatch.World
