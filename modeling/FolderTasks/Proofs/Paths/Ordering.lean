import FolderTasks.Path
import Mathlib.Data.List.Sort
/-!
# The order of paths

Paths are compared component by component, so the order does not see how a path is spelled: two
paths come before each other just when they are the same.  Listed in this order, paths that are not
the same are strictly ascending.

## Main statements

* `Path.le_total`, `Path.le_trans`: the order of paths.
* `Path.same_iff_le`: two paths that come before each other are the same.
* `Path.pairwise_mergeSort`: different paths, once sorted, are strictly ascending.
-/

namespace FolderTasks.Path

/-! ## Components -/

theorem Component.le_total (a b : Component) : a.le b || b.le a := by
  cases a <;> cases b <;> simp [Component.le, String.le_total]

theorem Component.le_trans {a b c : Component} (h : a.le b) (h' : b.le c) : a.le c := by
  cases a <;> cases b <;> cases c <;> simp_all [Component.le]
  exact String.le_trans h h'

theorem Component.le_antisymm {a b : Component} (h : a.le b) (h' : b.le a) : a = b := by
  cases a <;> cases b <;> simp_all [Component.le]
  exact String.le_antisymm h h'

/-! ## Lists of components -/

theorem componentsLe_total (as bs : List Component) :
    componentsLe as bs || componentsLe bs as := by
  induction as generalizing bs with
  | nil => rfl
  | cons a as ih =>
    cases bs with
    | nil => rfl
    | cons b bs =>
      by_cases hab : a = b
      · subst hab
        simpa [componentsLe] using ih bs
      · simpa [componentsLe, hab, Ne.symm hab] using Component.le_total a b

theorem componentsLe_antisymm {as bs : List Component} (h : componentsLe as bs)
    (h' : componentsLe bs as) : as = bs := by
  induction as generalizing bs with
  | nil =>
    cases bs with
    | nil => rfl
    | cons b bs => exact absurd h' (by simp [componentsLe])
  | cons a as ih =>
    cases bs with
    | nil => exact absurd h (by simp [componentsLe])
    | cons b bs =>
      by_cases hab : a = b
      · subst hab
        rw [componentsLe, if_pos rfl] at h h'
        rw [ih h h']
      · rw [componentsLe, if_neg hab] at h
        rw [componentsLe, if_neg (Ne.symm hab)] at h'
        exact absurd (Component.le_antisymm h h') hab

theorem componentsLe_trans {as bs cs : List Component} (h : componentsLe as bs)
    (h' : componentsLe bs cs) : componentsLe as cs := by
  induction as generalizing bs cs with
  | nil => rfl
  | cons a as ih =>
    cases bs with
    | nil => exact absurd h (by simp [componentsLe])
    | cons b bs =>
      cases cs with
      | nil => exact absurd h' (by simp [componentsLe])
      | cons c cs =>
        -- The first difference decides, and it may lie on either side of the middle list.
        rw [componentsLe] at h h' ⊢
        by_cases hab : a = b
        · subst hab
          rw [if_pos rfl] at h
          split at h'
          · next hac => rw [if_pos hac]; exact ih h h'
          · next hac => rw [if_neg hac]; exact h'
        · rw [if_neg hab] at h
          by_cases hbc : b = c
          · subst hbc
            rw [if_neg hab]
            exact h
          · rw [if_neg hbc] at h'
            have hac : a ≠ c := by
              rintro rfl
              exact hab (Component.le_antisymm h h')
            rw [if_neg hac]
            exact Component.le_trans h h'

/-! ## Paths -/

theorem le_total (p q : Path) : p.le q || q.le p := componentsLe_total _ _

theorem le_trans {p q r : Path} (h : p.le q) (h' : q.le r) : p.le r := componentsLe_trans h h'

/-- **Two paths that come before each other are the same**, however they are spelled. -/
theorem same_iff_le {p q : Path} : p.Same q ↔ p.le q ∧ q.le p := by
  constructor
  · intro h
    have hself := le_total p p
    rw [Bool.or_self] at hself
    rw [le, le, ← (h : p.components = q.components)]
    exact ⟨hself, hself⟩
  · rintro ⟨h, h'⟩
    exact componentsLe_antisymm h h'

/-- **Different paths, once sorted, are strictly ascending.** -/
theorem pairwise_mergeSort {paths : List Path} (h : paths.Pairwise fun p q => ¬ p.Same q) :
    (paths.mergeSort le).Pairwise fun p q => p.le q ∧ ¬ q.le p := by
  have htrans : ∀ p q r : Path, p.le q → q.le r → p.le r := fun _ _ _ => le_trans
  have hsorted : (paths.mergeSort le).Pairwise fun p q => p.le q :=
    List.pairwise_mergeSort htrans le_total paths
  have hdistinct : (paths.mergeSort le).Pairwise fun p q => ¬ p.Same q :=
    ((List.mergeSort_perm paths le).pairwise_iff fun hpq hqp => hpq hqp.symm).2 h
  refine (hsorted.and hdistinct).imp fun ⟨hle, hne⟩ => ⟨hle, fun hle' => ?_⟩
  exact hne (same_iff_le.2 ⟨hle, hle'⟩)

end FolderTasks.Path
