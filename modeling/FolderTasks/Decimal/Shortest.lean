import FolderTasks.Decimal.Binary64
/-!
# The shortest decimal that reads back

A double is written with the fewest significant digits that still round to it, and of the
decimals with that many digits the one nearest to the value.

## Main definitions

* `Digits`: significant digits together with the position of the decimal point.
* `shortest`: the shortest digits of a value.
* `Digits.text`: positional when the point falls within or near the digits, with an
  exponent otherwise.
-/

namespace FolderTasks.Decimal

/-- A decimal `0.d₁d₂…dₙ * 10 ^ point`, given by the digits as one number and their count. -/
structure Digits where
  digits : List Char
  point : Int
deriving DecidableEq, Repr

/-- The number of decimal digits before the point of `num / den`, negative when zeros follow
the point: the least `k` with `num / den < 10 ^ k`. -/
def decimalMagnitude (num den : Nat) : Int :=
  if den ≤ num then ((toString (num / den)).length : Int)
  else go (num * 10) (1074 + 1) 0
where
  /-- Count the zeros after the point. -/
  go (scaled : Nat) : Nat → Int → Int
    | 0, k => k
    | fuel + 1, k => if den ≤ scaled then k else go (scaled * 10) fuel (k - 1)

/-- The decimal `n * 10 ^ scale` as a quotient. -/
def decimalRatio (n : Nat) (scale : Int) : Nat × Nat :=
  if scale < 0 then (n, Nat.pow 10 (-scale).toNat) else (n * Nat.pow 10 scale.toNat, 1)

/-- Does the decimal `n * 10 ^ scale` round to `x`? -/
def readsBack (x : Binary64) (n : Nat) (scale : Int) : Bool :=
  let (a, b) := decimalRatio n scale
  Binary64.ofRatio? a b == some x

/-- The neighbour of `x` on the grid of multiples of `10 ^ scale` that rounds to `x`, if one
does; of two the nearer, and the even one on a tie. -/
def nearestOnGrid (x : Binary64) (scale : Int) : Option Nat :=
  let (num, den) := x.toRatio
  let (a, b) := decimalRatio 1 scale
  -- x / 10 ^ scale = (num * b) / (den * a)
  let below := (num * b) / (den * a)
  let rest := (num * b) % (den * a)
  let nearer :=
    if 2 * rest < den * a then below
    else if den * a < 2 * rest then below + 1
    else if below % 2 = 0 then below else below + 1
  if readsBack x nearer scale then some nearer
  else if readsBack x below scale then some below
  else if readsBack x (below + 1) scale then some (below + 1)
  else none

/-- Try ever finer grids until one holds a decimal that reads back. -/
def shortestFrom (x : Binary64) (magnitude : Int) : Nat → Nat → Digits
  | 0, _ => ⟨['0'], 1⟩
  | fuel + 1, count =>
    match nearestOnGrid x (magnitude - count) with
    | some n =>
      let text := (toString n).toList
      ⟨text, magnitude - count + text.length⟩
    | none => shortestFrom x magnitude fuel (count + 1)

/-- The shortest digits of a double; seventeen always suffice. -/
def shortest (x : Binary64) : Digits :=
  if x.isZero then ⟨['0'], 1⟩
  else
    let (num, den) := x.toRatio
    let found := shortestFrom x (decimalMagnitude num den) 18 1
    let kept := (found.digits.reverse.dropWhile (· == '0')).reverse
    ⟨kept, found.point⟩

/-- Write digits positionally while the point lies at most sixteen places to the right of
the first digit and at most five to its left, with an exponent beyond, which always has a sign.
A whole number keeps `.0`. -/
def Digits.text (d : Digits) : String :=
  let n : Int := d.digits.length
  if 0 ≤ d.point - n && d.point ≤ 16 then
    String.ofList (d.digits ++ List.replicate (d.point - n).toNat '0' ++ ['.', '0'])
  else if 0 < d.point && d.point ≤ 16 then
    String.ofList (d.digits.take d.point.toNat ++ ['.'] ++ d.digits.drop d.point.toNat)
  else if -5 < d.point && d.point ≤ 0 then
    String.ofList (['0', '.'] ++ List.replicate (-d.point).toNat '0' ++ d.digits)
  else
    let tail := "e" ++ (if 0 < d.point then "+" else "") ++ toString (d.point - 1)
    match d.digits with
    | [] => tail
    | [c] => String.ofList [c] ++ tail
    | c :: rest => String.ofList (c :: '.' :: rest) ++ tail

end FolderTasks.Decimal
