/-!
# Registries of listeners

A registry holds callbacks in the order of their subscription.  Each subscription has a number
of its own, never used again, and is released by that number.

## Main definitions

* `Registry`: the numbered callbacks.
* `Registry.subscribe`, `Registry.release`, `Registry.clear`: what changes it.

## Main statements

* `Registry.release_of_not_registered`: releasing a number that is not registered changes
  nothing, so a handle that outlives its subscription is harmless.
-/

namespace FolderTasks

/-- Callbacks of type `α` in the order of their subscription. -/
structure Registry (α : Type) where
  /-- How many numbers have been given out. -/
  issued : Nat := 0
  callbacks : List (Nat × α) := []

namespace Registry

variable {α : Type}

/-- The registry without callbacks. -/
def empty : Registry α := {}

/-- Add a callback at the end; the answer holds the number of the subscription. -/
def subscribe (r : Registry α) (callback : α) : Registry α × Nat :=
  let number := r.issued + 1
  ({ issued := number, callbacks := r.callbacks ++ [(number, callback)] }, number)

/-- Remove the callback of a subscription. -/
def release (r : Registry α) (number : Nat) : Registry α :=
  { r with callbacks := r.callbacks.filter fun c => c.1 != number }

/-- Remove every callback. -/
def clear (r : Registry α) : Registry α := { r with callbacks := [] }

/-- The number of callbacks. -/
def size (r : Registry α) : Nat := r.callbacks.length

/-- The numbers of the registered callbacks. -/
def numbers (r : Registry α) : List Nat := r.callbacks.map (·.1)

@[simp] theorem numbers_subscribe (r : Registry α) (callback : α) :
    (r.subscribe callback).1.numbers = r.numbers ++ [r.issued + 1] := by
  simp [numbers, subscribe]

@[simp] theorem numbers_clear (r : Registry α) : r.clear.numbers = [] := rfl

@[simp] theorem numbers_release (r : Registry α) (number : Nat) :
    (r.release number).numbers = r.numbers.filter (· != number) := by
  simp [numbers, release, List.filter_map, Function.comp_def]

theorem release_of_not_registered {r : Registry α} {number : Nat} (h : number ∉ r.numbers) :
    r.release number = r := by
  have hkeep : r.callbacks.filter (fun c => c.1 != number) = r.callbacks := by
    refine List.filter_eq_self.2 fun c hc => ?_
    simp only [bne_iff_ne, ne_eq]
    exact fun he => h (he ▸ List.mem_map_of_mem hc)
  simp [release, hkeep]

end Registry

end FolderTasks
