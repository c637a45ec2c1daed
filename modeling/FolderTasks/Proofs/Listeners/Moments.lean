import FolderTasks.Proofs.Listeners.Subscriptions
/-!
# Live subscriptions at every moment

What befalls subscriptions is decided by the program: by the steps that are done from outside and by
those that callbacks do when they are called, down to the emissions that these make in their turn.
This module lists the moments of a program in the order in which they come, with what has just
befallen subscriptions and the bench on which this leaves the registry.  At each of them, in the
middle of emissions too and after a callback has panicked, the registered callbacks are the live
subscriptions.

## Main definitions

* `Bench.befalls`: what befalls subscriptions in a step itself.
* `Moment`: a bench that comes about, with what has just befallen subscriptions.
* `stepMoments`, `emissionMoments`: the moments of a step and of an emission.
* `programMoments`: the moments of a program.
* `Passes`: moments that come one after the other, a single change apart.
* `HoldsLiveThroughout`: live subscriptions at all moments of a program.

## Main statements

* `programMoments_passes`: the moments of a program lead to the bench that the program leaves, one
  change after the other.
* `program_holdsLive`: the registered callbacks are the live subscriptions at every moment.

## Design notes

The moments are listed by recursion over what is to be done, as the program itself goes through it: a
hook that does not act at a call has no moments, and those of the hooks after a panic are missing.
What a step contributes does not depend on what becomes of the registry in it, so a step that left
out a removal would be found out at the moment after it.
-/

namespace FolderTasks.Listening

/-- **What befalls subscriptions in a step itself**, the callbacks that an emission calls apart.
Once there is no registry, nothing is subscribed or removed; a handle that its name keeps is given up
all the same. -/
def Bench.befalls (b : Bench) : Step → List Event
  | .subscribe name hooks => match b.registry with
    | none => []
    | some r => .subscribed (r.issued + 1) ⟨name, hooks⟩ ::
        (b.handles.lookup name).toList.map .released
  | .release name => (b.handles.lookup name).toList.map .released
  | .clear => if b.registry.isSome then [.cleared] else []
  | .dropRegistry => [.givenUp]
  | .inspect _ | .emit _ | .size => []

/-- **A moment**: a bench that comes about. -/
structure Moment where
  /-- What has just befallen subscriptions. -/
  events : List Event
  bench : Bench

/-- What has befallen subscriptions in moments. -/
def befallen (moments : List Moment) : List Event := moments.flatMap Moment.events

/-! ## Moments -/

section Listing

variable (emission : Int → Bench → Bench × Ending) (inner : Int → Bench → List Moment)

/-- The moments of a step: those of the emission that it makes, and the one when it is done. -/
def stepMoments (s : Step) (b : Bench) : List Moment :=
  let emitted := match s with
    | .emit value => if b.registry.isSome then inner value b else []
    | _ => []
  emitted ++ [⟨b.befalls s, (performWith emission s b).1⟩]

/-- The moments of the steps of a hook.  After each step its answer is noted. -/
def stepsMoments (name : String) : List Step → Bench → List Moment
  | [], _ => []
  | s :: rest, b =>
    let (after, answer) := performWith emission s b
    let noted := after.note (.answered name answer)
    stepMoments emission inner s b ++ ⟨[], noted⟩ :: stepsMoments name rest noted

/-- The moments of the hooks that act at the call numbered `count`, up to the first that panics. -/
def hooksMoments (name : String) (count : Nat) : List Hook → Bench → List Moment
  | [], _ => []
  | h :: rest, b =>
    if h.actsAt count then
      let steps := stepsMoments emission inner name h.steps b
      if h.panics then steps
      else steps ++ hooksMoments name count rest (runSteps emission name h.steps b)
    else hooksMoments name count rest b

/-- The moments of the calls of a snapshot, up to the first that panics.  A call is noted and counted
before the hooks of the callback set to work. -/
def callsMoments (value : Int) : List (Nat × Callback) → Bench → List Moment
  | [], _ => []
  | (number, callback) :: rest, b =>
    let noted := b.note (.called callback.name value)
    let (begun, count) := noted.count number
    let (after, panicked) := runHooks emission callback.name count callback.hooks begun
    ⟨[], noted⟩ :: ⟨[], begun⟩ ::
      (hooksMoments emission inner callback.name count callback.hooks begun ++
        if panicked then [] else callsMoments value rest after)

end Listing

/-- The moments of an emission, with at most `depth` emissions inside one another. -/
def emissionMoments : Nat → Int → Bench → List Moment
  | 0, _, _ => []
  | depth + 1, value, b => callsMoments (emit depth) (emissionMoments depth) value b.snapshot b

/-- **The moments of a program**, with everything that callbacks do in it. -/
def programMoments (depth : Nat) : List Step → Bench → List Moment
  | [], _ => []
  | s :: rest, b =>
    stepMoments (emit depth) (emissionMoments depth) s b ++
      programMoments depth rest (perform depth s b).1

/-- The bench that a program leaves. -/
def benchAfter (depth : Nat) (program : List Step) (b : Bench) : Bench :=
  ((run depth program b).map Prod.snd).getLastD b

/-- **Moments that come one after the other**, each a single change after the bench before it. -/
inductive Passes : Bench → List Moment → Bench → Prop where
  | nil {b : Bench} : Passes b [] b
  | cons {b b' : Bench} {m : Moment} {moments : List Moment} (hc : Change b m.events m.bench)
      (h : Passes m.bench moments b') : Passes b (m :: moments) b'

/-- **The live subscriptions are held throughout a program.** -/
structure HoldsLiveThroughout (depth : Nat) (program : List Step) : Prop where
  /-- They are held in the beginning. -/
  beginning : HoldsLive {} []
  /-- They are held at every moment, be it in the middle of an emission. -/
  always : ∀ before m after, programMoments depth program {} = before ++ m :: after →
    HoldsLive m.bench (befallen (before ++ [m]))
  /-- They are held on the bench that the program leaves. -/
  ending : HoldsLive (benchAfter depth program {}) (befallen (programMoments depth program {}))
  /-- Between two moments there is nothing but a single change. -/
  passes : Passes {} (programMoments depth program {}) (benchAfter depth program {})

/-! ## Moments come one after the other -/

section Passing

variable {b b' b'' : Bench} {moments more : List Moment} {events : List Event}
variable {emission : Int → Bench → Bench × Ending} {inner : Int → Bench → List Moment}

namespace Leads

theorem trans {events more : List Event} (h : Leads b events b') (h' : Leads b' more b'') :
    Leads b (events ++ more) b'' := by
  induction h' with
  | refl => rwa [List.append_nil]
  | tail _ hc ih =>
    rw [← List.append_assoc]
    exact ih.tail hc

theorem of_change (hc : Change b events b') : Leads b events b' := by
  have h := Leads.refl.tail hc
  rwa [List.nil_append] at h

end Leads

namespace Passes

theorem append (h : Passes b moments b') (h' : Passes b' more b'') :
    Passes b (moments ++ more) b'' := by
  induction h with
  | nil => exact h'
  | cons hc _ ih => exact .cons hc (ih h')

theorem one (hc : Change b events b') : Passes b [⟨events, b'⟩] b' := .cons hc .nil

/-- Moments that come one after the other lead from bench to bench. -/
theorem leads (h : Passes b moments b') : Leads b (befallen moments) b' := by
  induction h with
  | nil => exact .refl
  | cons hc _ ih => exact (Leads.of_change hc).trans ih

/-- Every one of the moments is led to. -/
theorem leads_moment {m : Moment} {before after : List Moment}
    (h : Passes b (before ++ m :: after) b') : Leads b (befallen (before ++ [m])) m.bench := by
  induction before generalizing b with
  | nil =>
    cases h with
    | cons hc _ => simpa [befallen] using Leads.of_change hc
  | cons first before ih =>
    cases h with
    | cons hc h => exact (Leads.of_change hc).trans (ih h)

end Passes

/-- What a step itself does is one change, apart from the emission that it makes. -/
theorem change_performWith {s : Step} (hs : ∀ value, s ≠ .emit value) (b : Bench) :
    Change b (b.befalls s) (performWith emission s b).1 := by
  cases s with
  | subscribe name hooks =>
    cases hr : b.registry with
    | none =>
      simp only [Bench.befalls, performWith, Bench.subscribe, hr]
      exact .idle
    | some r =>
      simp only [Bench.befalls, hr]
      exact .subscribed name hooks hr
  | release name =>
    cases hk : b.handles.lookup name with
    | none =>
      simp only [Bench.befalls, performWith, Bench.releaseNamed, hk]
      exact .idle
    | some number =>
      simp only [Bench.befalls, hk]
      exact .released hk
  | clear =>
    cases hr : b.registry with
    | none =>
      simp only [Bench.befalls, performWith, hr]
      exact .idle
    | some r =>
      simp only [Bench.befalls, performWith, hr]
      exact .cleared hr
  | size =>
    cases hr : b.registry <;> simp only [Bench.befalls, performWith, hr] <;> exact .idle
  | inspect name => exact .idle
  | dropRegistry => exact .givenUp
  | emit value => exact absurd rfl (hs value)

theorem stepMoments_of_ne {s : Step} (hs : ∀ value, s ≠ .emit value) (b : Bench) :
    stepMoments emission inner s b = [⟨b.befalls s, (performWith emission s b).1⟩] := by
  cases s with
  | emit value => exact absurd rfl (hs value)
  | _ => rfl

variable (hinner : ∀ value b, Passes b (inner value b) (emission value b).1)

include hinner

/-- The moments of a step lead to the bench that it leaves. -/
theorem stepMoments_passes (s : Step) (b : Bench) :
    Passes b (stepMoments emission inner s b) (performWith emission s b).1 := by
  by_cases hs : ∃ value, s = .emit value
  · obtain ⟨value, rfl⟩ := hs
    cases hr : b.registry.isSome with
    | true =>
      have hemitted := (hinner value b).append (.one .idle)
      simpa [stepMoments, performWith, Bench.befalls, hr] using hemitted
    | false =>
      have hidle : Passes b [⟨[], b⟩] b := .one .idle
      simpa [stepMoments, performWith, Bench.befalls, hr] using hidle
  · have hs : ∀ value, s ≠ .emit value := fun value he => hs ⟨value, he⟩
    rw [stepMoments_of_ne hs]
    exact .one (change_performWith hs b)

theorem stepsMoments_passes (name : String) (steps : List Step) (b : Bench) :
    Passes b (stepsMoments emission inner name steps b) (runSteps emission name steps b) := by
  induction steps generalizing b with
  | nil => exact .nil
  | cons s steps ih => exact (stepMoments_passes hinner s b).append (.cons (.noted _) (ih _))

/-- The moments of hooks lead to the bench that they leave, also when one of them panics. -/
theorem hooksMoments_passes (name : String) (count : Nat) (hooks : List Hook) (b : Bench) :
    Passes b (hooksMoments emission inner name count hooks b)
      (runHooks emission name count hooks b).1 := by
  induction hooks generalizing b with
  | nil => exact .nil
  | cons h hooks ih =>
    have hsteps := stepsMoments_passes hinner name h.steps b
    simp only [hooksMoments, runHooks]
    split
    · split
      · exact hsteps
      · exact hsteps.append (ih _)
    · exact ih b

theorem callsMoments_passes (value : Int) (callbacks : List (Nat × Callback)) (b : Bench) :
    Passes b (callsMoments emission inner value callbacks b)
      (callAll emission value callbacks b).1 := by
  induction callbacks generalizing b with
  | nil => exact .nil
  | cons c callbacks ih =>
    obtain ⟨number, callback⟩ := c
    have hhooks := hooksMoments_passes hinner callback.name
      ((b.note (.called callback.name value)).count number).2 callback.hooks
      ((b.note (.called callback.name value)).count number).1
    simp only [callsMoments, callAll]
    refine .cons (.noted _) (.cons (.counted number) (hhooks.append ?_))
    split
    · exact .nil
    · exact ih _

end Passing

/-- The moments of an emission lead to the bench that it leaves, however deep emissions are
nested. -/
theorem emissionMoments_passes (depth : Nat) (value : Int) (b : Bench) :
    Passes b (emissionMoments depth value b) (emit depth value b).1 := by
  induction depth generalizing value b with
  | zero => exact .nil
  | succ depth ih => exact callsMoments_passes ih value b.snapshot b

/-- **The moments of a program lead to the bench that it leaves**, one change after the other. -/
theorem programMoments_passes (depth : Nat) (program : List Step) (b : Bench) :
    Passes b (programMoments depth program b) (benchAfter depth program b) := by
  induction program generalizing b with
  | nil => exact .nil
  | cons s program ih =>
    have hrest := ih (perform depth s b).1
    have hafter : benchAfter depth (s :: program) b =
        benchAfter depth program (perform depth s b).1 := by
      rw [benchAfter, run, List.map_cons, List.getLastD_cons]
      rfl
    rw [hafter]
    exact (stepMoments_passes (emissionMoments_passes depth) s b).append hrest

/-! ## The registered callbacks -/

/-- **A registry holds exactly the live subscriptions**, at every moment of a program. -/
theorem program_holdsLive (depth : Nat) (program : List Step) :
    HoldsLiveThroughout depth program where
  beginning := Leads.refl.holdsLive
  always before m after h := by
    have hpasses := programMoments_passes depth program {}
    rw [h] at hpasses
    exact hpasses.leads_moment.holdsLive
  ending := (programMoments_passes depth program {}).leads.holdsLive
  passes := programMoments_passes depth program {}

/-- A callback that removes all callbacks, itself included, subscribes another one and panics. -/
example :
    befallen (programMoments 1
      [.subscribe "a" [.mk none [.clear, .subscribe "b" []] true], .emit 7, .size] {}) =
      [.subscribed 1 ⟨"a", [.mk none [.clear, .subscribe "b" []] true]⟩, .cleared,
        .subscribed 2 ⟨"b", []⟩] := by
  rfl

end FolderTasks.Listening
