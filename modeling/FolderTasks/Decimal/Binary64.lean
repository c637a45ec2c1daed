/-!
# Double-precision numbers, exactly

The nonnegative finite numbers of the 64-bit binary format, as an integer mantissa times a
power of two, with rounding done in natural-number arithmetic.  Nothing here uses machine
floating point, so every value is computed the same way in a proof and in a run.

## Main definitions

* `Binary64`: a value `mantissa * 2 ^ exponent` on the format's grid.
* `Binary64.ofRatio?`: the value nearest to a quotient, ties to the even mantissa;
  `none` when the quotient is too large for the format.
* `Binary64.mul?`, `Binary64.div?`: the exact result, rounded once.
-/

namespace FolderTasks.Decimal

/-- A nonnegative finite double-precision number, `mantissa * 2 ^ exponent`.  Values made by
`Binary64.ofRatio?` have a mantissa of 53 bits, or a shorter one at the least exponent. -/
structure Binary64 where
  mantissa : Nat
  exponent : Int
deriving DecidableEq, Repr

namespace Binary64

/-- The least exponent of the format: half the spacing of nothing smaller exists. -/
def leastExponent : Int := -1074

/-- The greatest exponent of a full mantissa. -/
def greatestExponent : Int := 971

/-- Zero. -/
def zero : Binary64 := ⟨0, leastExponent⟩

/-- Divide and round to nearest, a tie going to the even quotient. -/
def roundedQuotient (num den : Nat) : Nat :=
  let q := num / den
  let r := num % den
  if 2 * r < den then q
  else if den < 2 * r then q + 1
  else if q % 2 = 0 then q else q + 1

/-- The quotient `num / den` counted in units of `2 ^ e`, rounded to nearest. -/
def roundedAt (num den : Nat) (e : Int) : Nat :=
  if e < 0 then roundedQuotient (num * Nat.pow 2 (-e).toNat) den
  else roundedQuotient num (den * Nat.pow 2 e.toNat)

/-- The quotient `num / den` counted in units of `2 ^ e`, rounded down. -/
def flooredAt (num den : Nat) (e : Int) : Nat :=
  if e < 0 then (num * Nat.pow 2 (-e).toNat) / den
  else num / (den * Nat.pow 2 e.toNat)

/-- The exponent whose unit gives `num / den` a mantissa of 53 bits, or the least exponent
when the quotient is too small for that. -/
def unitExponent (num den : Nat) : Int :=
  let guess : Int := (Nat.log2 num : Int) - (Nat.log2 den : Int) - 52
  let fitted := if flooredAt num den guess < Nat.pow 2 52 then guess - 1 else guess
  max fitted leastExponent

/-- The double nearest to `num / den`, ties to even; `none` beyond the greatest double. -/
def ofRatio? (num den : Nat) : Option Binary64 :=
  if num = 0 then some zero
  else
    let e := unitExponent num den
    let m := roundedAt num den e
    let value : Binary64 := if m = Nat.pow 2 53 then ⟨Nat.pow 2 52, e + 1⟩ else ⟨m, e⟩
    if greatestExponent < value.exponent then none else some value

/-- The value as a quotient of natural numbers. -/
def toRatio (x : Binary64) : Nat × Nat :=
  if x.exponent < 0 then (x.mantissa, Nat.pow 2 (-x.exponent).toNat)
  else (x.mantissa * Nat.pow 2 x.exponent.toNat, 1)

/-- Is the value zero? -/
def isZero (x : Binary64) : Bool := x.mantissa == 0

/-- The double nearest to a natural number. -/
def ofNat? (n : Nat) : Option Binary64 := ofRatio? n 1

/-- The exact product, rounded once. -/
def mul? (x y : Binary64) : Option Binary64 :=
  let (a, b) := x.toRatio
  let (c, d) := y.toRatio
  ofRatio? (a * c) (b * d)

/-- The exact quotient, rounded once.  The divisor is not zero where this is used. -/
def div? (x y : Binary64) : Option Binary64 :=
  let (a, b) := x.toRatio
  let (c, d) := y.toRatio
  ofRatio? (a * d) (b * c)

end Binary64

end FolderTasks.Decimal
