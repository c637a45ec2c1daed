import Mathlib.Data.List.Basic
/-!
# Computations that may fail

A computation that is made of several steps succeeds when each of its steps does.  A list is
computed item by item, so it fails with the first of its items that does.

## Main statements

* `map_eq_ok_iff`, `bind_eq_ok_iff`: what it takes for two steps to succeed.
* `mapM_eq_error_iff`: the failure of a list is that of the first item that fails.
* `eq_map_of_mapM`: a list that is read back item by item.
-/

namespace FolderTasks

section Failing

variable {ε α β : Type} {b : β}

theorem map_eq_ok_iff {x : Except ε α} {f : α → β} :
    x.map f = .ok b ↔ ∃ a, x = .ok a ∧ f a = b := by
  cases x <;> simp [Except.map]

/-- **Two steps succeed** when the first does, and the second with what the first one makes. -/
theorem bind_eq_ok_iff {x : Except ε α} {f : α → Except ε β} :
    x >>= f = .ok b ↔ ∃ a, x = .ok a ∧ f a = .ok b := by
  cases x <;> simp [bind, Except.bind]

variable {f : α → Except ε β} {l : List α}

/-- **A list fails with the first of its items that does.** -/
theorem mapM_eq_error_iff {wrong? : α → Option ε}
    (h : ∀ a e, f a = .error e ↔ wrong? a = some e) {e : ε} :
    l.mapM f = .error e ↔ l.findSome? wrong? = some e := by
  induction l with
  | nil => simp [pure, Except.pure]
  | cons a l ih =>
    rw [List.mapM_cons, List.findSome?_cons]
    cases hf : f a with
    | error e' =>
      rw [(h a e').1 hf]
      simp [bind, Except.bind]
    | ok b =>
      have hright : wrong? a = none := by
        apply Option.eq_none_iff_forall_ne_some.2
        intro e' he'
        rw [(h a e').2 he'] at hf
        cases hf
      rw [hright, ← ih]
      cases l.mapM f <;> simp [bind, Except.bind, pure, Except.pure]

/-- What is made of a list is what it was made from, if that holds of each item. -/
theorem eq_map_of_mapM {g : β → α} (h : ∀ a b, f a = .ok b → a = g b) {bs : List β}
    (hl : l.mapM f = .ok bs) : l = bs.map g := by
  induction l generalizing bs with
  | nil =>
    obtain rfl : [] = bs := Except.ok.inj hl
    rfl
  | cons a l ih =>
    rw [List.mapM_cons] at hl
    obtain ⟨b, hb, hl⟩ := bind_eq_ok_iff.1 hl
    obtain ⟨bs', hbs', hl⟩ := bind_eq_ok_iff.1 hl
    obtain rfl : b :: bs' = bs := Except.ok.inj hl
    rw [List.map_cons, ← h a b hb, ← ih hbs']

end Failing

end FolderTasks
