import FolderTasks.Shell.Arithmetic
/-!
# Expressions stay within 64 bits

Whatever an expression says, its value fits in 64 bits, and so does whatever a parameter is set to on
the way: sums, products and powers wrap around, and what does not wrap cannot get out.

## Main definitions

* `Arithmetic.Fits`: a number of 64 bits.
* `Arithmetic.Leaves`: what comes of a piece of an evaluation.

## Main statements

* `Arithmetic.fits_apply`: one operator.
* `Arithmetic.leaves_evaluate`: one expression.
* `Arithmetic.leaves_valueOf`: an expression, with those that are the values of its parameters.
-/

namespace FolderTasks.Shell.Arithmetic

/-- **A number of 64 bits.** -/
def Fits (n : Int) : Prop := -9223372036854775808 ≤ n ∧ n ≤ 9223372036854775807

/-- All changes are to numbers of 64 bits. -/
def FitAll (s : List Change) : Prop := ∀ change ∈ s, Fits change.2.2

/-- What comes of something, if no trouble, has a property, with all changes within 64 bits. -/
def Leaves {α : Type} (P : α → Prop) (r : Except Trouble (α × List Change)) : Prop :=
  ∀ a s, r = .ok (a, s) → P a ∧ FitAll s

/-! ## Operators -/

section Operators

variable {d : Dialect} {op written : String} {a b n : Int}

theorem fits_wrap (n : Int) : Fits (wrap n) := by
  have hpow : Nat.pow 2 64 = 18446744073709551616 := by decide
  have hbelow := Int.bmod_lt (x := n) (m := 18446744073709551616) (by decide)
  have habove := Int.le_bmod (x := n) (m := 18446744073709551616) (by decide)
  rw [wrap, hpow]
  constructor <;> omega

theorem fits_truth (p : Bool) : Fits (truth p) := by
  cases p <;> simp [Fits, truth]

/-- The least number by minus one would be too great. -/
theorem fits_divide (ha : Fits a) (b : Int) : Fits (divide d a b) := by
  have hle := Int.natAbs_tdiv_le_natAbs a b
  obtain ⟨hleast, hgreatest⟩ := ha
  rw [divide]
  split
  · constructor <;> omega
  · exact fits_wrap _

theorem fits_tmod (ha : Fits a) (b : Int) : Fits (a.tmod b) := by
  have hle : (a.tmod b).natAbs ≤ a.natAbs := by
    rw [Int.natAbs_tmod]
    exact Nat.mod_le _ _
  obtain ⟨hleast, hgreatest⟩ := ha
  -- The rest has the sign of what is divided.
  rcases Int.le_total 0 a with hsign | hsign
  · have hrest := Int.tmod_nonneg b hsign
    constructor <;> omega
  · have hrest := Int.tmod_nonneg b (Int.neg_nonneg.2 hsign)
    rw [Int.neg_tmod] at hrest
    constructor <;> omega

theorem fits_shiftRight (ha : Fits a) (k : Nat) : Fits (a >>> k) := by
  obtain ⟨hleast, hgreatest⟩ := ha
  rcases Int.le_total 0 a with hsign | hsign
  · have hbelow := Int.shiftRight_le_of_nonneg (s := k) hsign
    have habove := Int.le_shiftRight_of_nonneg (s := k) hsign
    constructor <;> omega
  · have hbelow := Int.shiftRight_le_of_nonpos (s := k) hsign
    have habove := Int.le_shiftRight_of_nonpos (s := k) hsign
    constructor <;> omega

theorem fits_power (a : Int) (k : Nat) :
    Fits ((List.range k).foldl (fun n _ => wrap (n * a)) 1) := by
  cases k with
  | zero => simp [Fits]
  | succ k =>
    rw [List.range_succ, List.foldl_append]
    exact fits_wrap _

/-- **One operator.** -/
theorem fits_apply (ha : Fits a) (hb : Fits b) (h : apply d op written a b = .ok n) : Fits n := by
  unfold apply at h
  split at h
  case h_2 | h_3 | h_4 =>
    split at h
    · exact absurd h (by simp)
    · obtain rfl := Except.ok.inj h
      first | exact fits_divide ha b | exact fits_tmod ha b | exact fits_power a _
  case h_8 =>
    obtain rfl := Except.ok.inj h
    exact fits_shiftRight ha _
  case h_18 =>
    obtain rfl := Except.ok.inj h
    exact hb
  all_goals
    obtain rfl := Except.ok.inj h
    first | exact fits_wrap _ | exact fits_truth _

end Operators

/-! ## Expressions -/

section Expressions

variable {α β : Type} {P : α → Prop} {Q : β → Prop} {s : List Change}

theorem leaves_ok {a : α} (ha : P a) (hs : FitAll s) : Leaves P (.ok (a, s)) := by
  intro a' s' h
  obtain ⟨rfl, rfl⟩ := Prod.mk.inj (Except.ok.inj h)
  exact ⟨ha, hs⟩

theorem leaves_error (trouble : Trouble) : Leaves P (.error trouble) :=
  fun _ _ h => absurd h (by simp)

/-- What comes of something that is done after something else. -/
theorem leaves_bind {γ : Type} {r : Except Trouble γ} {f : γ → Except Trouble (β × List Change)}
    (hf : ∀ c, r = .ok c → Leaves Q (f c)) : Leaves Q (r >>= f) := by
  cases r with
  | error trouble => exact leaves_error trouble
  | ok c => exact hf c rfl

theorem Leaves.bind {r : Except Trouble (α × List Change)}
    {f : α × List Change → Except Trouble (β × List Change)} (hr : Leaves P r)
    (hf : ∀ a s, P a → FitAll s → Leaves Q (f (a, s))) : Leaves Q (r >>= f) :=
  leaves_bind fun (a, s) h => hf a s (hr a s h).1 (hr a s h).2

variable {d : Dialect} {look : Lookup}
  {resolve : String → List Change → Except Trouble (Int × List Change)}

theorem FitAll.cons {change : Change} (hs : FitAll s) (hc : Fits change.2.2) :
    FitAll (change :: s) :=
  List.forall_mem_cons.2 ⟨hc, hs⟩

/-- A parameter that was set on the way has the value that it got. -/
theorem leaves_read (hresolve : ∀ value s, FitAll s → Leaves Fits (resolve value s))
    (name : String) (i : Option Int) (hs : FitAll s) :
    Leaves Fits (Term.evaluate.read look resolve name i s) := by
  rw [Term.evaluate.read]
  split
  · next hfind => exact leaves_ok (hs _ (List.mem_of_find?_eq_some hfind)) hs
  · exact hresolve _ s hs

/-- An index may be any number. -/
theorem leaves_indexOf {index : Term}
    (hindex : ∀ s, FitAll s → Leaves Fits (index.evaluate d look resolve s)) (hs : FitAll s) :
    Leaves (fun _ => True) (Term.evaluate.indexOf d look resolve index s) := by
  unfold Term.evaluate.indexOf
  split
  · exact leaves_ok trivial hs
  · exact (hindex s hs).bind fun i s _ hs => leaves_ok trivial hs

/-- **One expression**, as long as the values of parameters are within 64 bits. -/
theorem leaves_evaluate (hresolve : ∀ value s, FitAll s → Leaves Fits (resolve value s))
    (t : Term) (hs : FitAll s) : Leaves Fits (t.evaluate d look resolve s) := by
  have hread (name : String) (i : Option Int) (s : List Change) (hs : FitAll s) :
      Leaves Fits (Term.evaluate.read look resolve name i s) := leaves_read hresolve name i hs
  induction t generalizing s with
  | number n =>
    rw [Term.evaluate]
    exact leaves_ok (fits_wrap n) hs
  | whole =>
    rw [Term.evaluate]
    exact leaves_ok (fits_truth false) hs
  | parameter name index ih =>
    rw [Term.evaluate]
    exact (leaves_indexOf (fun s hs => ih hs) hs).bind fun i s _ hs => hread name i s hs
  | unary op a ih =>
    rw [Term.evaluate]
    refine (ih hs).bind fun a s ha hs => leaves_ok ?_ hs
    split
    · exact fits_wrap _
    · exact fits_truth _
    · exact fits_wrap _
    · exact ha
  | binary op a b written iha ihb =>
    rw [Term.evaluate]
    refine (iha hs).bind fun a s ha hs => ?_
    dsimp only
    split
    · split
      · exact leaves_ok (fits_truth false) hs
      · exact (ihb hs).bind fun b s _ hs => leaves_ok (fits_truth _) hs
    · split
      · split
        · exact leaves_ok (fits_truth true) hs
        · exact (ihb hs).bind fun b s _ hs => leaves_ok (fits_truth _) hs
      · refine (ihb hs).bind fun b s hb hs => leaves_bind fun n hn => ?_
        exact leaves_ok (fits_apply ha hb hn) hs
  | set name index op a written ihindex iha =>
    rw [Term.evaluate]
    refine (leaves_indexOf (fun s hs => ihindex hs) hs).bind fun i s _ hs => ?_
    refine (iha hs).bind fun a s ha hs => ?_
    dsimp only
    split
    · exact leaves_ok ha (hs.cons ha)
    · refine (hread name i s hs).bind fun old s hold hs => leaves_bind fun n hn => ?_
      have hfits := fits_apply hold ha hn
      exact leaves_ok hfits (hs.cons hfits)
  | step name index change isAfter ih =>
    rw [Term.evaluate]
    refine (leaves_indexOf (fun s hs => ih hs) hs).bind fun i s _ hs => ?_
    refine (hread name i s hs).bind fun old s hold hs => ?_
    have hvalue : Fits (wrap (old + change)) := fits_wrap _
    refine leaves_ok ?_ (hs.cons hvalue)
    split
    · exact hold
    · exact hvalue
  | choice condition yes no ihcondition ihyes ihno =>
    rw [Term.evaluate]
    refine (ihcondition hs).bind fun c s _ hs => ?_
    dsimp only
    split
    · exact ihyes hs
    · exact ihno hs
  | sequence a b iha ihb =>
    rw [Term.evaluate]
    exact (iha hs).bind fun _ s _ hs => ihb hs

theorem fits_numberOf {value : String} {n : Int} (h : numberOf value = .ok n) : Fits n := by
  unfold numberOf at h
  dsimp only at h
  split at h
  · obtain rfl := Except.ok.inj h
    exact fits_truth false
  · -- With either sign, and with none.
    split at h
    all_goals
      split at h
      · exact absurd h (by simp)
      · split at h
        · rw [← Except.ok.inj h]
          exact fits_wrap _
        · exact absurd h (by simp)

/-- The values of parameters, which may be expressions themselves. -/
theorem leaves_resolveGo (fuel : Nat) (value : String) (hs : FitAll s) :
    Leaves Fits (resolveGo d look fuel value s) := by
  induction fuel generalizing value s with
  | zero => exact leaves_error _
  | succ fuel ih =>
    rw [resolveGo]
    split
    · exact leaves_bind fun n hn => leaves_ok (fits_numberOf hn) hs
    · exact leaves_bind fun t _ => leaves_evaluate (fun value s hs => ih value hs) t hs

/-- **An expression stays within 64 bits**, and so does whatever it sets. -/
theorem leaves_valueOf (d : Dialect) (look : Lookup) (expression : String) :
    Leaves Fits (valueOf d look expression) :=
  leaves_bind fun t _ =>
    leaves_evaluate (fun value _ hs => leaves_resolveGo 100 value hs) t (fun _ h => absurd h (by simp))

end Expressions

end FolderTasks.Shell.Arithmetic
