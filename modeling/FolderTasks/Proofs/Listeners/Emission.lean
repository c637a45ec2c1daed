import FolderTasks.Proofs.Listeners.Moments
/-!
# What an emission calls

An emission calls the callbacks that are registered when it begins: each of them once, in the order
of subscription, with the emitted value, up to the first that panics.  It makes no difference what
the callbacks do to the registry meanwhile, what they emit in turn and how that ends.

## Main definitions

* `Visit`: one call of a callback, with the bench before and after it.
* `Visit.IsCall`: the callback is called with a value, and its own hooks decide whether it panics.
* `Course`: calls that follow one another.
* `Visits`: the calls that an emission makes itself.

## Main statements

* `runHooks_panics`: nothing but its own hooks makes a callback panic.
* `emit_visits`: an emission calls its snapshot.

## Design notes

In what can be seen from outside, the calls of nested emissions are not told apart from those of the
emission around them.  A visit therefore comes with all that is seen inside of it; the visits of an
emission, laid end to end, are everything that is seen of it.
-/

namespace FolderTasks.Listening

/-- Does a callback panic when it is called for the given time?  This is a matter of its hooks
alone. -/
def Callback.panicsAt (c : Callback) (count : Nat) : Bool :=
  c.hooks.any fun h => h.actsAt count && h.panics

/-- **One call of a callback.** -/
structure Visit where
  /-- The number of the subscription. -/
  number : Nat
  callback : Callback
  /-- The bench on which the callback is called. -/
  before : Bench
  /-- The bench that it leaves. -/
  after : Bench
  panicked : Bool
  /-- What is seen inside of the call, in order. -/
  inside : List Call

namespace Visit

/-- The subscription whose callback is called. -/
def subscription (v : Visit) : Nat × Callback := (v.number, v.callback)

/-- How often the callback has been called, this time included. -/
def count (v : Visit) : Nat := (v.before.counts.lookup v.number).getD 0 + 1

/-- The bench on which the hooks of the callback set to work. -/
def begun (v : Visit) (value : Int) : Bench :=
  ((v.before.note (.called v.callback.name value)).count v.number).1

/-- What is seen of the call. -/
def seen (v : Visit) (value : Int) : List Call := .called v.callback.name value :: v.inside

/-- **A callback is called with a value**, while at most `depth` emissions may be nested in it. -/
structure IsCall (v : Visit) (depth : Nat) (value : Int) : Prop where
  /-- Its hooks run, and may do anything. -/
  runs : runHooks (emit depth) v.callback.name v.count v.callback.hooks (v.begun value) =
    (v.after, v.panicked)
  /-- What is seen of the call follows on what was seen before. -/
  shown : v.after.calls.reverse = v.before.calls.reverse ++ v.seen value
  /-- Its own hooks decide whether it panics: a panic in an emission of its own, which it catches,
  makes no difference. -/
  own : v.panicked = v.callback.panicsAt v.count

end Visit

/-- **Calls that follow one another**, each on the bench that the one before leaves. -/
inductive Course (depth : Nat) (value : Int) : Bench → List Visit → Bench → Prop where
  | nil {b : Bench} : Course depth value b [] b
  | cons {v : Visit} {visits : List Visit} {b : Bench} (hv : v.IsCall depth value)
      (h : Course depth value v.after visits b) : Course depth value v.before (v :: visits) b

/-- **Callbacks are called in turn**, up to the first that panics. -/
structure CallsInTurn (depth : Nat) (value : Int) (callbacks : List (Nat × Callback)) (b : Bench)
    (visits : List Visit) (result : Bench × Ending) : Prop where
  /-- The calls lead from the bench before them to the one that they leave. -/
  course : Course depth value b visits result.1
  /-- They are calls of the callbacks, in order. -/
  inOrder : visits.map Visit.subscription <+: callbacks
  /-- All callbacks are called, if none of them panics. -/
  all : (∀ v ∈ visits, v.panicked = false) → visits.map Visit.subscription = callbacks
  /-- After a callback has panicked, no other one is called. -/
  first : ∀ v ∈ visits.dropLast, v.panicked = false
  /-- They end in a panic if a callback panics, and are complete otherwise. -/
  ending : result.2 = if visits.any Visit.panicked then .panicked else .complete

/-- **The calls that an emission makes itself.** -/
structure Visits (depth : Nat) (value : Int) (b : Bench) (visits : List Visit) : Prop extends
    CallsInTurn depth value b.snapshot b visits (emit (depth + 1) value b) where
  /-- They are all that is seen of the emission. -/
  shown : (emit (depth + 1) value b).1.calls.reverse =
    b.calls.reverse ++ visits.flatMap fun v => v.seen value
  /-- On a bench that arises, they call no callback twice. -/
  once : ∀ events, Arises b events → (visits.map Visit.number).Nodup

/-! ## What is seen -/

section Seeing

variable {b b' : Bench} {events : List Event}

/-- Nothing that was seen is taken back. -/
theorem Change.calls_suffix (hc : Change b events b') : b.calls <:+ b'.calls := by
  cases hc with
  | noted c => exact List.suffix_cons c b.calls
  | subscribed name hooks hr =>
    simp only [subscribe_eq hooks hr, List.suffix_rfl]
  | released hk =>
    simp only [releaseNamed_eq hk, List.suffix_rfl]
  | idle => exact List.suffix_rfl
  | counted _ => exact List.suffix_rfl
  | cleared _ => exact List.suffix_rfl
  | givenUp => exact List.suffix_rfl

theorem Leads.calls_suffix (h : Leads b events b') : b.calls <:+ b'.calls := by
  induction h with
  | refl => exact List.suffix_rfl
  | tail _ hc ih => exact ih.trans hc.calls_suffix

end Seeing

/-! ## Calls -/

section Calling

variable {depth : Nat} {value : Int} {b : Bench}

/-- **Nothing but its own hooks makes a callback panic**, whatever the emissions inside of it do. -/
theorem runHooks_panics (inner : Int → Bench → Bench × Ending) (name : String) (count : Nat)
    (hooks : List Hook) (b : Bench) :
    (runHooks inner name count hooks b).2 = hooks.any fun h => h.actsAt count && h.panics := by
  induction hooks generalizing b with
  | nil => rfl
  | cons h hooks ih =>
    rw [List.any_cons, runHooks]
    cases h.actsAt count with
    | false => simpa using ih b
    | true =>
      cases h.panics with
      | true => rfl
      | false => simpa using ih _

/-- Every callback of a list can be called. -/
theorem exists_isCall (depth : Nat) (value : Int) (c : Nat × Callback) (b : Bench) :
    ∃ v : Visit, v.IsCall depth value ∧ v.subscription = c ∧ v.before = b := by
  obtain ⟨number, callback⟩ := c
  let begun := ((b.note (.called callback.name value)).count number).1
  let count := (b.counts.lookup number).getD 0 + 1
  let result := runHooks (emit depth) callback.name count callback.hooks begun
  have hpasses :=
    hooksMoments_passes (emissionMoments_passes depth) callback.name count callback.hooks begun
  obtain ⟨inside, hinside⟩ := hpasses.leads.calls_suffix
  refine ⟨⟨number, callback, b, result.1, result.2, inside.reverse⟩, ⟨rfl, ?_, ?_⟩, rfl, rfl⟩
  · calc result.1.calls.reverse
      _ = (inside ++ begun.calls).reverse := by rw [hinside]
      _ = begun.calls.reverse ++ inside.reverse := List.reverse_append
      _ = b.calls.reverse ++ .called callback.name value :: inside.reverse := by
        simp [begun, Bench.note, Bench.count]
  · exact runHooks_panics _ _ _ _ _

/-- The calls of a course are all that is seen of it. -/
theorem Course.shown {b' : Bench} {visits : List Visit} (h : Course depth value b visits b') :
    b'.calls.reverse = b.calls.reverse ++ visits.flatMap fun v => v.seen value := by
  induction h with
  | nil => simp
  | cons hv _ ih => rw [ih, hv.shown, List.flatMap_cons, List.append_assoc]

/-- A call that panics is the last one. -/
theorem CallsInTurn.panicked {v : Visit} {callbacks : List (Nat × Callback)}
    (hv : v.IsCall depth value) (hp : v.panicked = true) :
    CallsInTurn depth value (v.subscription :: callbacks) v.before [v] (v.after, .panicked) where
  course := .cons hv .nil
  inOrder := ⟨callbacks, rfl⟩
  all h := absurd (h v List.mem_cons_self) (by simp [hp])
  first := by simp
  ending := by simp [hp]

/-- After a call that does not panic, the rest is called. -/
theorem CallsInTurn.cons {v : Visit} {callbacks : List (Nat × Callback)} {visits : List Visit}
    {result : Bench × Ending} (hv : v.IsCall depth value) (hp : v.panicked = false)
    (h : CallsInTurn depth value callbacks v.after visits result) :
    CallsInTurn depth value (v.subscription :: callbacks) v.before (v :: visits) result where
  course := .cons hv h.course
  inOrder := List.cons_prefix_cons.2 ⟨rfl, h.inOrder⟩
  all hall := by
    rw [List.map_cons, h.all fun u hu => hall u (List.mem_cons_of_mem v hu)]
  first u hu := by
    cases visits with
    | nil => simp at hu
    | cons w visits =>
      rw [List.dropLast_cons_cons, List.mem_cons] at hu
      rcases hu with rfl | hu
      · exact hp
      · exact h.first u hu
  ending := by rw [h.ending, List.any_cons, hp, Bool.false_or]

/-- Callbacks are called in turn, on whatever bench. -/
theorem callAll_inTurn (depth : Nat) (value : Int) (callbacks : List (Nat × Callback)) (b : Bench) :
    ∃ visits,
      CallsInTurn depth value callbacks b visits (callAll (emit depth) value callbacks b) := by
  induction callbacks generalizing b with
  | nil => exact ⟨[], .nil, List.prefix_rfl, fun _ => rfl, by simp, rfl⟩
  | cons c callbacks ih =>
    obtain ⟨v, hv, rfl, rfl⟩ := exists_isCall depth value c b
    have hstep : callAll (emit depth) value (v.subscription :: callbacks) v.before =
        if v.panicked then (v.after, .panicked)
        else callAll (emit depth) value callbacks v.after := by
      exact congrArg
        (fun r : Bench × Bool =>
          if r.2 then (r.1, .panicked) else callAll (emit depth) value callbacks r.1) hv.runs
    rw [hstep]
    cases hp : v.panicked with
    | true => exact ⟨[v], .panicked hv hp⟩
    | false =>
      obtain ⟨visits, hvisits⟩ := ih v.after
      exact ⟨v :: visits, hvisits.cons hv hp⟩

end Calling

/-- No callback is registered twice on a bench that arises. -/
theorem snapshot_nodup {b : Bench} {events : List Event} (h : Arises b events) :
    (b.snapshot.map Prod.fst).Nodup := by
  cases hr : b.registry with
  | none => simp [Bench.snapshot, hr]
  | some r =>
    have hsnapshot : b.snapshot = r.callbacks := by simp [Bench.snapshot, hr]
    rw [hsnapshot]
    exact h.isSound.numbers_nodup hr

/-- **An emission calls its snapshot**: what is registered when it begins, each callback once, in
order, with the emitted value, up to the first that panics. -/
theorem emit_visits (depth : Nat) (value : Int) (b : Bench) :
    ∃ visits, Visits depth value b visits := by
  obtain ⟨visits, hvisits⟩ := callAll_inTurn depth value b.snapshot b
  refine ⟨visits, hvisits, hvisits.course.shown, fun events h => ?_⟩
  have hnumbers : visits.map Visit.number <+: b.snapshot.map Prod.fst := by
    simpa [Function.comp_def, Visit.subscription] using hvisits.inOrder.map Prod.fst
  exact (snapshot_nodup h).sublist hnumbers.sublist

end FolderTasks.Listening
