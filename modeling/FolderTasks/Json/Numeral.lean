import FolderTasks.Json.Tree
/-!
# Numbers of JSON text

A numeral is split into its parts first and valued second.  A whole number that fits 64 bits
is kept exactly.  Any other becomes a double computed from at most 64 bits of leading digits
and one power of ten: the digits are converted, then multiplied or divided once (or in steps
of `10 ^ 308`), each time rounding to nearest.

## Main definitions

* `Numeral`: sign, whole digits, fraction digits and exponent of a numeral.
* `Numeral.scan`: the longest numeral at the beginning of a text, or the fault in it.
* `Numeral.number`: its value; `none` when it is beyond the greatest double.
-/

namespace FolderTasks.Json

open FolderTasks.Decimal

/-- The parts of a numeral, digits as characters. -/
structure Numeral where
  isNegative : Bool
  whole : List Char
  fraction : Option (List Char)
  exponent : Option (Bool × List Char)
deriving Repr

namespace Numeral

/-- Is this one of the ten digits of JSON? -/
def isDigit (c : Char) : Bool := '0' ≤ c && c ≤ '9'

/-- The value of a digit. -/
def digitValue (c : Char) : Nat := c.toNat - '0'.toNat

/-- The digits at the beginning of a text, and what follows them. -/
def digits (cs : List Char) : List Char × List Char :=
  (cs.takeWhile isDigit, cs.dropWhile isDigit)

/-- The fault where a digit is wanted: a reader takes the end of the text for a text that ends
too early, one who skips does not tell the end from a wrong character. -/
def wantedDigit : List Char → Break
  | [] => { reading := .truncated, skipping := .malformed }
  | _ :: _ => .both .malformed

/-- The exponent after its `e`. -/
def scanExponent (cs : List Char) : Except Break ((Bool × List Char) × List Char) :=
  let (isNegative, rest) := match cs with
    | '+' :: r => (false, r)
    | '-' :: r => (true, r)
    | r => (false, r)
  match digits rest with
  | ([], after) => .error (wantedDigit after)
  | (ds, after) => .ok ((isNegative, ds), after)

/-- The exponent, if there is one. -/
def scanExponent? (cs : List Char) : Except Break (Option (Bool × List Char) × List Char) :=
  match cs with
  | 'e' :: r | 'E' :: r => (scanExponent r).map fun (e, after) => (some e, after)
  | r => .ok (none, r)

/-- The fraction digits, if there is a point. -/
def scanFraction? (cs : List Char) : Except Break (Option (List Char) × List Char) :=
  match cs with
  | '.' :: r => match digits r with
    | ([], after) => .error (wantedDigit after)
    | (ds, after) => .ok (some ds, after)
  | r => .ok (none, r)

/-- The whole digits: no leading zero unless it stands alone. -/
def scanWhole (cs : List Char) : Except Break (List Char × List Char) :=
  match digits cs with
  | ([], after) => .error (wantedDigit after)
  | ('0' :: _ :: _, _) => .error (.both .malformed)
  | (ds, after) => .ok (ds, after)

/-- The longest numeral at the beginning of a text and what follows it. -/
def scan (cs : List Char) : Except Break (Numeral × List Char) := do
  let (isNegative, r) := match cs with
    | '-' :: r => (true, r)
    | r => (false, r)
  let (whole, r) ← scanWhole r
  let (fraction, r) ← scanFraction? r
  let (exponent, r) ← scanExponent? r
  return (⟨isNegative, whole, fraction, exponent⟩, r)

/-- Add digits to a number as long as it stays below `2 ^ 64`; the digits that did not fit are
counted. -/
def accumulate : Nat → List Char → Nat × Nat
  | n, [] => (n, 0)
  | n, c :: rest =>
    let next := n * 10 + digitValue c
    if next < Nat.pow 2 64 then accumulate next rest else (n, rest.length + 1)

/-- All digits as one number. -/
def natural (ds : List Char) : Nat :=
  ds.foldl (fun n c => n * 10 + digitValue c) 0

/-- Scale a double by a power of ten in steps of `10 ^ 308`; `none` when it grows beyond the
greatest double. -/
def scaled (x : Binary64) (power : Int) : Nat → Option Binary64
  | 0 => some .zero
  | fuel + 1 =>
    if power.natAbs ≤ 308 then do
      let unit ← Binary64.ofNat? (Nat.pow 10 power.natAbs)
      if 0 ≤ power then x.mul? unit else x.div? unit
    else if x.isZero then some x
    else if 0 ≤ power then none
    else do
      let unit ← Binary64.ofNat? (Nat.pow 10 308)
      scaled (← x.div? unit) (power + 308) fuel

/-- The double of a numeral; `none` beyond the greatest double.  An exponent that needs more
than 31 bits makes a zero, or is refused when it is positive and the digits are not all zero. -/
def double? (n : Numeral) : Option Binary64 :=
  let (lead, dropped) := accumulate 0 n.whole
  let fraction := n.fraction.getD []
  let (significand, unread) := accumulate lead fraction
  let base : Int := (dropped : Int) - ((fraction.length - unread : Nat) : Int)
  let (isNegative, power) := match n.exponent with
    | none => (false, 0)
    | some (isNegative, ds) => (isNegative, natural ds)
  if Nat.pow 2 31 ≤ power then
    if significand = 0 || isNegative then some .zero else none
  else
    let total := if isNegative then base - power else base + power
    (Binary64.ofNat? significand).bind fun x => scaled x total 8

/-- The value of a numeral; `none` when it is beyond the greatest double.  A whole number is
exact when it fits 64 bits, with sign or without; minus zero is a double. -/
def number (n : Numeral) : Option Number :=
  let whole := natural n.whole
  if n.fraction.isNone && n.exponent.isNone && whole < Nat.pow 2 64 then
    if !n.isNegative then some (.natural whole)
    else if 0 < whole && whole ≤ Nat.pow 2 63 then some (.negative whole)
    else (Binary64.ofNat? whole).map (.real true)
  else n.double?.map (.real n.isNegative)

end Numeral

/-- A number as it is named in a complaint and written in a text. -/
def Number.toText : Number → String
  | .natural n => toString n
  | .negative n => "-" ++ toString n
  | .real isNegative x => (if isNegative then "-" else "") ++ (shortest x).text

end FolderTasks.Json
