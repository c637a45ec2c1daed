import FolderTasks.Proofs.Dispatch.AbsorbedRequests
import FolderTasks.Proofs.Dispatch.RecordTimes
import FolderTasks.Proofs.Dispatch.FairRuns
import FolderTasks.Proofs.Dispatch.ScriptedCalls
/-!
# Punctual runs

In a punctual run nothing is late: time passes only when no job has a turn coming, and no further
than to the next moment at which a timer fires.  Within one moment everything may happen in any
order.  The runs looked at here start in a setting in which all starts take the same time, the user
does not change the scripts on the way, and callbacks ask for no operation.

## Main definitions

* `World.Runs`: a punctual run, with the choices that were made.
* `World.Steady`: what such a run keeps up.
* `Calendar`, `World.Obeys`: when tokens are cancelled.

## Main statements

* `World.Runs.steady`: what a punctual run keeps up.
* `World.Runs.obeys`: a run has a calendar, which its worlds obey.
-/

namespace FolderTasks.Dispatch

/-- A choice by which the user sets no script, and subscribes no hook that asks for an operation or
sets one. -/
def Choice.IsReserved : Choice → Prop
  | .act (.act a) => (∀ args s delay, a ≠ .script args s delay) ∧
      a.SubscribesWithin Hook.IsReserved
  | _ => True

/-- **A setting in which all starts take the same time**, and whose reporter asks for no operation. -/
structure Setting.IsUniform (s : Setting) : Prop where
  startDelays : s.startDelays = []
  hooks : ∀ h ∈ s.hooks, h.Within Hook.IsReserved

/-- **A setting in which starts take no time**, and whose reporter asks for no operation. -/
structure Setting.IsPlain (s : Setting) : Prop where
  startDelays : s.startDelays = []
  startDelay : s.startDelay = 0
  hooks : ∀ h ∈ s.hooks, h.Within Hook.IsReserved

theorem Setting.IsPlain.isUniform {s : Setting} (h : s.IsPlain) : s.IsUniform :=
  ⟨h.startDelays, h.hooks⟩

/-- When each token is cancelled, if it ever is. -/
abbrev Calendar := String → Option Nat

namespace World

/-- **Nothing is late**: time passes only when no job has a turn coming, and no timer is missed. -/
def IsPunctual (w w' : World) : Prop :=
  w.clock < w'.clock → w.ready = [] ∧ ∀ t ∈ w.timers, w'.clock ≤ t.deadline

instance (w w' : World) : Decidable (w.IsPunctual w') := inferInstanceAs (Decidable (_ → _ ∧ _))

/-- **A punctual run**, with every choice and the world in which it was made. -/
inductive Runs (s : Setting) : List (World × Choice) → World → Prop where
  | new : Runs s [] s.world
  | next {log : List (World × Choice)} {w w' : World} {c : Choice} (h : Runs s log w)
      (hc : Does w c w') (hr : c.IsReserved) (hp : w.IsPunctual w') : Runs s (log ++ [(w, c)]) w'

/-- **What a punctual run keeps up.** -/
structure Steady (s : Setting) (w : World) : Prop where
  reachable : Reachable w
  called : w.CalledBy Hook.IsReserved
  settings : w.settings = s.world.settings

/-- **A world obeys a calendar**: the tokens that are cancelled are those whose moment has come. -/
structure Obeys (σ : Calendar) (w : World) : Prop where
  due : ∀ {x : String}, (w.token x).isCancelled → ∃ c, σ x = some c ∧ c ≤ w.clock
  cancelled : ∀ {x : String} {c : Nat}, σ x = some c → c < w.clock → (w.token x).isCancelled

/-! ## What a punctual run keeps up -/

section Running

variable {s : Setting} {w w' : World} {c : Choice} {log : List (World × Choice)}

theorem Does.transition (hc : Does w c w') : Transition w w' := transition_iff.2 ⟨c, hc⟩

/-- The user does something by which no action is done. -/
theorem instant_settings {st : Step} (hst : st.isInstant) (hact : ∀ a, st ≠ .act a) :
    (w.step st).1.settings = w.settings := by
  cases st with
  | act a => exact absurd rfl (hact a)
  | settle | advance | await => exact Bool.noConfusion hst
  | addFolder folder =>
    simp only [step, addFolder]
    split <;> rfl
  | removeFolder folder =>
    simp only [step, removeFolder]
    split <;> rfl
  | folders | toolchain => rfl
  | find folder =>
    simp only [step]
    split <;> rfl
  | run folder action token handle =>
    simp only [step]
    split
    · exact settings_request w _ _ token
    · rfl
  | tasks folder products =>
    simp only [step]
    split <;> rfl
  | dispose =>
    obtain ⟨history, manager, heq, -⟩ := disposeManager_eq w
    change w.disposeManager.settings = w.settings
    rw [heq]
    rfl

theorem CalledBy.instant {K : Hook → Prop} (h : w.CalledBy K) {st : Step} (hst : st.isInstant)
    (hact : ∀ a, st = .act a → a.SubscribesWithin K) : (w.step st).1.CalledBy K := by
  cases st with
  | act a => exact h.perform (hact a rfl)
  | settle | advance | await => exact Bool.noConfusion hst
  | addFolder folder =>
    refine h.of_eq ?_
    simp only [step, addFolder]
    split <;> rfl
  | removeFolder folder =>
    refine h.of_eq ?_
    simp only [step, removeFolder]
    split <;> rfl
  | folders | toolchain => exact h
  | find folder =>
    simp only [step]
    split <;> exact h
  | run folder action token handle =>
    refine h.of_eq ?_
    simp only [step]
    split
    · exact hooks_request w _ _ token
    · rfl
  | tasks folder products =>
    simp only [step]
    split <;> exact h
  | dispose => exact h.perform (a := .disposeManager) (fun _ _ _ heq => absurd heq (by simp))

theorem Does.calledBy (hc : Does w c w') (hr : c.IsReserved) (h : w.CalledBy Hook.IsReserved) :
    w'.CalledBy Hook.IsReserved := by
  cases hc with
  | act st hst =>
    refine h.instant hst ?_
    rintro a rfl
    exact hr.2
  | turn j hj =>
    have htaken : ({ w with ready := w.ready.erase j } : World).CalledBy Hook.IsReserved := h
    exact (turn_touches htaken).calledBy htaken
  | fire t ht =>
    obtain ⟨timers, ready, heq⟩ := fire_eq w t
    rw [heq]
    exact h
  | pass | leave => exact h
  | sit e => exact h.of_eq (hooks_takeSeat w e _)
  | receive e o hreceive => exact h.of_eq (hooks_receive? hreceive)

theorem Does.settings_eq (hc : Does w c w') (hr : c.IsReserved) (h : w.CalledBy Hook.IsReserved) :
    w'.settings = w.settings := by
  cases hc with
  | act st hst =>
    by_cases hact : ∃ a, st = .act a
    · obtain ⟨a, rfl⟩ := hact
      exact settings_perform hr.1
    · exact instant_settings hst fun a ha => hact ⟨a, ha⟩
  | turn j hj =>
    have htaken : ({ w with ready := w.ready.erase j } : World).CalledBy Hook.IsReserved := h
    exact (turn_touches htaken).settings
  | fire t ht =>
    obtain ⟨timers, ready, heq⟩ := fire_eq w t
    rw [heq]
    rfl
  | pass | leave => rfl
  | sit e => exact settings_takeSeat w e _
  | receive e o hreceive => exact settings_receive? hreceive

/-- **A choice leaves all jobs where they are** but the one whose turn it is. -/
theorem Does.stays (hc : Does w c w') {j : JobId} (hj : c ≠ .turn j) {errand : Errand}
    {p : Position} (hat : w.At j errand p) : w'.At j errand p := by
  cases hc with
  | act st hst => exact (instant_spares w hst).forth (by simp) hat
  | turn i hi =>
    refine (turn_spares { w with ready := w.ready.erase i } i).forth ?_ hat
    intro heq
    exact hj (congrArg Choice.turn (Option.some.inj heq).symm)
  | fire t ht => exact (spares_fire w t).forth (by simp) hat
  | pass | leave => exact hat
  | sit e => exact (spares_takeSeat (j := none) w e _).forth (by simp) hat
  | receive e o hr => exact (spares_receive? (j := none) hr).forth (by simp) hat

/-- The clock is moved only by a timer and by passing time, and then nothing else happens. -/
theorem Does.elapses (hc : Does w c w') (hlt : w.clock < w'.clock) :
    w'.history = w.history ∧ w'.tokens = w.tokens ∧ ∀ j, c ≠ .turn j := by
  cases hc with
  | act st hst => exact absurd (instant_spares w hst).clock (Nat.ne_of_gt hlt)
  | turn i hi =>
    exact absurd (turn_spares { w with ready := w.ready.erase i } i).clock (Nat.ne_of_gt hlt)
  | fire t ht =>
    obtain ⟨timers, ready, heq⟩ := fire_eq w t
    rw [heq]
    exact ⟨rfl, rfl, fun _ => by simp⟩
  | pass => exact ⟨rfl, rfl, fun _ => by simp⟩
  | leave => exact absurd hlt (Nat.lt_irrefl _)
  | sit e =>
    exact absurd (spares_takeSeat (j := none) w e .outside).clock (Nat.ne_of_gt hlt)
  | receive e o hr => exact absurd (spares_receive? (j := none) hr).clock (Nat.ne_of_gt hlt)

theorem Steady.does (h : Steady s w) (hc : Does w c w') (hr : c.IsReserved) : Steady s w' where
  reachable := h.reachable.does hc
  called := hc.calledBy hr h.called
  settings := (hc.settings_eq hr h.called).trans h.settings

/-- All starts take the same time. -/
theorem Steady.delays_eq (h : Steady s w) (hs : s.IsUniform) :
    w.settings.2 = ([], s.startDelay) := by
  rw [h.settings]
  exact Prod.ext hs.startDelays rfl

/-- **What a punctual run keeps up.** -/
theorem Runs.steady (h : Runs s log w) (hs : s.IsUniform) : Steady s w := by
  induction h with
  | new =>
    refine ⟨.new s, fun h hh => hs.hooks h ?_, rfl⟩
    simpa [hooks, Setting.world] using hh
  | next _ hc hr _ ih => exact ih.does hc hr

/-! ## Starts that take no time -/

theorem Does.isPrompt (hc : Does w c w') (h : Steady s w) (hs : s.IsPlain) (hprompt : w.IsPrompt) :
    w'.IsPrompt := by
  cases hc with
  | act st hst => exact hprompt.spared (instant_spares w hst)
  | turn j hj =>
    have hd := h.delays_eq hs.isUniform
    rw [hs.startDelay] at hd
    exact takeTurn_isPrompt h.reachable.arises h.called hd hprompt hj
  | fire t ht =>
    intro j errand p hat
    rcases (spares_fire w t).back (by simp) hat with hat | ⟨rfl, -⟩
    · exact hprompt hat
    · rfl
  | pass | leave => exact hprompt
  | sit e => exact hprompt.spared (spares_takeSeat w e _)
  | receive e o hr => exact hprompt.spared (spares_receive? hr)

/-- When starts take no time, nobody is ever about to start. -/
theorem Runs.isPrompt (h : Runs s log w) (hs : s.IsPlain) : w.IsPrompt := by
  induction h with
  | new =>
    rintro j errand p ⟨given, hj⟩
    exact absurd hj (by simp [Setting.world])
  | next h hc _ _ ih => exact hc.isPrompt (h.steady hs.isUniform) hs ih

/-- So no entry has to wait for the right to start. -/
theorem Runs.isUncontended (h : Runs s log w) (hs : s.IsPlain) :
    ∀ v ∈ log.map Prod.fst ++ [w], v.IsUncontended := by
  have hlast {log : List (World × Choice)} {w : World} (h : Runs s log w) : w.IsUncontended :=
    (h.isPrompt hs).isUncontended (h.steady hs.isUniform).reachable.arises
  induction h with
  | new =>
    rintro v hv
    obtain rfl := List.mem_singleton.1 hv
    exact hlast .new
  | @next log w w' c h hc hr hp ih =>
    intro v hv
    rw [List.map_append, List.map_singleton] at hv
    rcases List.mem_append.1 hv with hv | hv
    · exact ih v hv
    · obtain rfl := List.mem_singleton.1 hv
      exact hlast (h.next hc hr hp)

end Running

/-! ## Calendars -/

section Calendars

variable {s : Setting} {w w' z : World} {c : Choice} {log : List (World × Choice)} {x : String}

/-- The moment at which a token is first found to be cancelled in a run. -/
def cancelledAt? (log : List (World × Choice)) (w : World) (x : String) : Option Nat :=
  ((log.map Prod.fst ++ [w]).find? fun v => (v.token x).isCancelled).map World.clock

theorem Runs.reachable (h : Runs s log w) : Reachable w := by
  induction h with
  | new => exact .new s
  | next _ hc _ _ ih => exact ih.does hc

/-- One world comes no earlier than another one. -/
structure IsBefore (v w : World) : Prop where
  clock : v.clock ≤ w.clock
  cancelled : ∀ {x : String}, (v.token x).isCancelled → (w.token x).isCancelled

theorem Runs.isBefore (h : Runs s log w) (hc : Does w c w') : w.IsBefore w' where
  clock := hc.transition.clock_le
  cancelled {x} hx :=
    (h.reachable.arises.lasts_changes hc.transition.changes).cancelled (some x) hx

/-- **The worlds of a run come one after the other.** -/
theorem Runs.inOrder (h : Runs s log w) : (log.map Prod.fst ++ [w]).Pairwise IsBefore := by
  induction h with
  | new => exact List.pairwise_singleton _ _
  | @next log w w' c h hc hr hp ih =>
    have hnext : w.IsBefore w' := h.isBefore hc
    rw [List.map_append, List.map_singleton]
    refine List.pairwise_append.2 ⟨ih, List.pairwise_singleton _ _, ?_⟩
    rintro v hv _ hw'
    obtain rfl := List.mem_singleton.1 hw'
    rcases List.mem_append.1 hv with hv | hv
    · have hbefore := (List.pairwise_append.1 ih).2.2 v hv w List.mem_cons_self
      exact ⟨hbefore.clock.trans hnext.clock, fun hx => hnext.cancelled (hbefore.cancelled hx)⟩
    · obtain rfl := List.mem_singleton.1 hv
      exact hnext

/-- **The worlds of a run obey its calendar.** -/
theorem Runs.obeys (h : Runs s log w) {v : World} (hv : v ∈ log.map Prod.fst ++ [w]) :
    v.Obeys (cancelledAt? log w) := by
  have horder := h.inOrder
  refine ⟨fun {x} hx => ?_, fun {x c} hc hlt => ?_⟩
  -- Whatever is cancelled is cancelled in a first world, and a run has its worlds in order.
  · obtain ⟨u, hu⟩ := Option.isSome_iff_exists.1
      (List.find?_isSome.2 ⟨v, hv, hx⟩ : ((log.map Prod.fst ++ [w]).find? fun v =>
        (v.token x).isCancelled).isSome)
    refine ⟨u.clock, by rw [cancelledAt?, hu]; rfl, ?_⟩
    obtain ⟨-, before, after, hsplit, hbefore⟩ := List.find?_eq_some_iff_append.1 hu
    rw [hsplit] at hv horder
    rcases List.mem_append.1 hv with hv | hv
    · exact absurd hx (by simpa using hbefore v hv)
    · rcases List.mem_cons.1 hv with rfl | hv
      · exact Nat.le_refl _
      · exact (List.rel_of_pairwise_cons (List.pairwise_append.1 horder).2.1 hv).clock
  · obtain ⟨u, hu, rfl⟩ := Option.map_eq_some_iff.1 hc
    obtain ⟨hcancelled, before, after, hsplit, -⟩ := List.find?_eq_some_iff_append.1 hu
    rw [hsplit] at hv horder
    rcases List.mem_append.1 hv with hv | hv
    · have hle := ((List.pairwise_append.1 horder).2.2 v hv u List.mem_cons_self).clock
      omega
    · rcases List.mem_cons.1 hv with rfl | hv
      · exact hcancelled
      · have hle := List.rel_of_pairwise_cons (List.pairwise_append.1 horder).2.1 hv
        exact hle.cancelled hcancelled

/-- What has a moment in the calendar is cancelled in the end. -/
theorem Runs.cancelled_of_calendar (h : Runs s log w) {c : Nat}
    (hc : cancelledAt? log w x = some c) : (w.token x).isCancelled := by
  obtain ⟨u, hu, -⟩ := Option.map_eq_some_iff.1 hc
  obtain ⟨hcancelled, before, after, hsplit, -⟩ := List.find?_eq_some_iff_append.1 hu
  have hmem : u ∈ log.map Prod.fst ++ [w] := by rw [hsplit]; simp
  rcases List.mem_append.1 hmem with hmem | hmem
  · exact ((List.pairwise_append.1 h.inOrder).2.2 u hmem w List.mem_cons_self).cancelled hcancelled
  · obtain rfl := List.mem_singleton.1 hmem
    exact hcancelled

/-- No moment of the calendar lies in the future. -/
theorem Runs.le_clock_of_calendar (h : Runs s log w) {c : Nat}
    (hc : cancelledAt? log w x = some c) : c ≤ w.clock := by
  have hlast : w ∈ log.map Prod.fst ++ [w] := List.mem_append_right _ (List.mem_singleton_self w)
  obtain ⟨c', hc', hle⟩ := (h.obeys hlast).due (h.cancelled_of_calendar hc)
  rw [hc] at hc'
  rw [Option.some.inj hc']
  exact hle

end Calendars

end World

end FolderTasks.Dispatch
