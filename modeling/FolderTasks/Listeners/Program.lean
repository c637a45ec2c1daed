import FolderTasks.Listeners.Registry
/-!
# Listeners that act

Callbacks may do anything with the registry that calls them: subscribe, release handles, clear,
and emit in turn.  Here a callback is a program in a small language of such steps, so an emission
with everything that happens inside it is an ordinary function.

An emission calls the callbacks that are registered when it begins, in order, each with the
emitted value.  What they change shows at the next emission.  A callback that panics ends the
emission that called it.

## Main definitions

* `Listening.Step`, `Listening.Hook`: what can be done, from outside or by a callback.
* `Listening.Bench`: a registry with the handles kept under names and the calls made so far.
* `Listening.perform`: one step.
* `Listening.emit`: an emission.
-/

namespace FolderTasks.Listening

mutual
/-- One step. -/
inductive Step where
  /-- Subscribe a callback and keep its handle under a name. -/
  | subscribe (name : String) (hooks : List Hook)
  /-- Release the handle under a name. -/
  | release (name : String)
  /-- Describe the handle under a name. -/
  | inspect (name : String)
  /-- Call every callback with a value. -/
  | emit (value : Int)
  /-- Remove every callback. -/
  | clear
  /-- Count the callbacks. -/
  | size
  /-- Give the registry up. -/
  | dropRegistry

/-- What a callback does when it is called: the steps, and perhaps a panic after them.  A hook
with a number acts at the call of that number only, counted from one. -/
inductive Hook where
  | mk (nth : Option Nat) (steps : List Step) (panics : Bool)
end

instance : Inhabited Hook := ⟨.mk none [] false⟩

instance : Inhabited Step := ⟨.clear⟩

/-- The number of the call at which a hook acts. -/
def Hook.nth : Hook → Option Nat
  | .mk nth _ _ => nth

/-- The steps of a hook. -/
def Hook.steps : Hook → List Step
  | .mk _ steps _ => steps

/-- Does the hook end in a panic? -/
def Hook.panics : Hook → Bool
  | .mk _ _ panics => panics

/-- Does a hook act at a call? -/
def Hook.actsAt (h : Hook) (count : Nat) : Bool := h.nth.isNone || h.nth == some count

/-- A registered callback. -/
structure Callback where
  name : String
  hooks : List Hook

/-- What a step answers. -/
inductive Answer where
  | done
  /-- No handle is kept under the name. -/
  | noHandle
  /-- The registry has been given up. -/
  | noRegistry
  /-- A callback panicked. -/
  | panicked
  /-- Emissions are nested too deep. -/
  | tooDeep
  /-- There is a handle under the name, or not. -/
  | inspected (isActive : Bool)
  /-- The number of callbacks. -/
  | counted (size : Nat)
deriving DecidableEq, Repr

/-- What can be seen from outside: a callback was called, or one of its steps was answered. -/
inductive Call where
  | called (name : String) (value : Int)
  | answered (name : String) (answer : Answer)
deriving DecidableEq, Repr

/-- A registry in use. -/
structure Bench where
  /-- The registry, until it is given up. -/
  registry : Option (Registry Callback) := some .empty
  /-- The subscriptions whose handles are kept, under their names. -/
  handles : List (String × Nat) := []
  /-- How often each subscription has been called. -/
  counts : List (Nat × Nat) := []
  /-- The calls made so far, the latest first. -/
  calls : List Call := []

namespace Bench

/-- Note a call. -/
def note (b : Bench) (c : Call) : Bench := { b with calls := c :: b.calls }

/-- The number of callbacks, while there is a registry. -/
def size? (b : Bench) : Option Nat := b.registry.map Registry.size

/-- Release a subscription; nothing happens once the registry is gone. -/
def release (b : Bench) (number : Nat) : Bench :=
  { b with registry := b.registry.map fun r => r.release number }

/-- Forget the handle under a name. -/
def forget (b : Bench) (name : String) : Bench :=
  { b with handles := b.handles.filter fun h => h.1 != name }

/-- Subscribe a callback.  The handle that its name kept before is released afterwards. -/
def subscribe (b : Bench) (name : String) (hooks : List Hook) : Bench × Answer :=
  match b.registry with
  | none => (b, .noRegistry)
  | some r =>
    let (r, number) := r.subscribe ⟨name, hooks⟩
    let kept := b.handles.lookup name
    let b := { b.forget name with
      registry := some r, handles := (name, number) :: (b.forget name).handles }
    match kept with
    | none => (b, .done)
    | some old => (b.release old, .done)

/-- Release the handle under a name. -/
def releaseNamed (b : Bench) (name : String) : Bench × Answer :=
  match b.handles.lookup name with
  | none => (b, .noHandle)
  | some number => ((b.forget name).release number, .done)

/-- Count one more call of a subscription; the answer holds the new count. -/
def count (b : Bench) (number : Nat) : Bench × Nat :=
  let n := (b.counts.lookup number).getD 0 + 1
  ({ b with counts := (number, n) :: b.counts.filter fun c => c.1 != number }, n)

end Bench

/-- How an emission ends. -/
inductive Ending where
  | complete
  | panicked
  | tooDeep
deriving DecidableEq, Repr

/-- The answer of a step that emits. -/
def Ending.answer : Ending → Answer
  | .complete => .done
  | .panicked => .panicked
  | .tooDeep => .tooDeep

/-- One step, emissions being made by `emit`. -/
def performWith (emit : Int → Bench → Bench × Ending) (s : Step) (b : Bench) : Bench × Answer :=
  match s with
  | .subscribe name hooks => b.subscribe name hooks
  | .release name => b.releaseNamed name
  | .inspect name => (b, .inspected (b.handles.lookup name).isSome)
  | .emit value =>
    if b.registry.isSome then
      let (b, ending) := emit value b
      (b, ending.answer)
    else (b, .noRegistry)
  | .clear => match b.registry with
    | none => (b, .noRegistry)
    | some r => ({ b with registry := some r.clear }, .done)
  | .size => match b.registry with
    | none => (b, .noRegistry)
    | some r => (b, .counted r.size)
  | .dropRegistry => ({ b with registry := none }, .done)

/-- The steps of a hook, each noted with its answer when it is done. -/
def runSteps (emit : Int → Bench → Bench × Ending) (name : String) (steps : List Step)
    (b : Bench) : Bench :=
  steps.foldl (fun b s =>
    let (b, answer) := performWith emit s b
    b.note (.answered name answer)) b

/-- The hooks that act at the call numbered `count`, up to the first that panics; the answer
tells whether one did. -/
def runHooks (emit : Int → Bench → Bench × Ending) (name : String) (count : Nat) :
    List Hook → Bench → Bench × Bool
  | [], b => (b, false)
  | h :: rest, b =>
    if h.actsAt count then
      let b := runSteps emit name h.steps b
      if h.panics then (b, true) else runHooks emit name count rest b
    else runHooks emit name count rest b

/-- Call the callbacks of a snapshot in order, up to the first that panics. -/
def callAll (emit : Int → Bench → Bench × Ending) (value : Int) :
    List (Nat × Callback) → Bench → Bench × Ending
  | [], b => (b, .complete)
  | (number, callback) :: rest, b =>
    let (b, count) := (b.note (.called callback.name value)).count number
    let (b, panicked) := runHooks emit callback.name count callback.hooks b
    if panicked then (b, .panicked) else callAll emit value rest b

/-- The callbacks that an emission is going to call. -/
def Bench.snapshot (b : Bench) : List (Nat × Callback) :=
  (b.registry.map Registry.callbacks).getD []

/-- Emit a value, with at most `depth` emissions inside one another. -/
def emit : Nat → Int → Bench → Bench × Ending
  | 0, _, b => (b, .tooDeep)
  | depth + 1, value, b => callAll (emit depth) value b.snapshot b

/-- One step, with at most `depth` emissions inside one another. -/
def perform (depth : Nat) (s : Step) (b : Bench) : Bench × Answer :=
  performWith (emit depth) s b

/-- The steps of a program, each with its answer and the bench after it. -/
def run (depth : Nat) : List Step → Bench → List (Answer × Bench)
  | [], _ => []
  | s :: rest, b =>
    let (b, answer) := perform depth s b
    (answer, b) :: run depth rest b

end FolderTasks.Listening
