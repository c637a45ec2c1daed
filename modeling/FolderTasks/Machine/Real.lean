import FolderTasks.Decimal.Binary64
import FolderTasks.Machine.Escape
/-!
# Real numbers in texts

Programs read decimal fractions, keep them in binary with a certain number of digits, and print
them with a fixed number of places, with an exponent, or in the shorter of the two ways.

## Main definitions

* `Real`: a number, kept as a quotient.
* `Real.ofText`: the number that a text spells.
* `Real.toBinary`: the nearest number with so many binary digits.
* `Real.fixed`, `Real.scientific`, `Real.general`: its text.
-/

namespace FolderTasks.Machine

open Decimal

/-- A number. -/
inductive Real where
  | finite (isNegative : Bool) (num den : Nat)
  | infinite (isNegative : Bool)
  | none
deriving DecidableEq, Repr

namespace Real

/-- A number of digits before an exponent: the digits as one number, and how many of them stand
after the point; how many there are, and the rest. -/
def mantissa (cs : List Char) : Nat × Nat × Nat × List Char :=
  let whole := cs.takeWhile Char.isDigit
  let (fraction, rest) := match cs.drop whole.length with
    | '.' :: rest => (rest.takeWhile Char.isDigit, rest.dropWhile Char.isDigit)
    | rest => ([], rest)
  let digits := whole ++ fraction
  if digits.isEmpty then (0, 0, 0, cs)
  else
    (digits.foldl (fun n c => n * 10 + (c.toNat - 48)) 0, fraction.length, digits.length, rest)

/-- The exponent at the beginning of a text, and the rest. -/
def exponent (cs : List Char) : Int × List Char :=
  match cs with
  | e :: rest =>
    if e = 'e' || e = 'E' then
      let (isNegative, digits) := match rest with
        | '-' :: ds => (true, ds)
        | '+' :: ds => (false, ds)
        | ds => (false, ds)
      match Escape.number 10 digits.length digits with
      | (_, 0, _) => (0, cs)
      | (n, _, rest) => (if isNegative then -(n : Int) else n, rest)
    else (0, cs)
  | [] => (0, [])

/-- A power of ten as a quotient. -/
def powerOfTen (e : Int) : Nat × Nat :=
  if 0 ≤ e then (Nat.pow 10 e.toNat, 1) else (1, Nat.pow 10 (-e).toNat)

/-- The number at the beginning of a text, and the rest; `none` if there is none. -/
def ofText (text : String) : Option (Real × List Char) :=
  let cs := text.toList.dropWhile fun c => c = ' ' || (9 ≤ c.toNat && c.toNat ≤ 13)
  let (isNegative, cs) := match cs with
    | '-' :: rest => (true, rest)
    | '+' :: rest => (false, rest)
    | cs => (false, cs)
  let lower := cs.map Char.toLower
  if "infinity".toList.isPrefixOf lower then some (.infinite isNegative, cs.drop 8)
  else if "inf".toList.isPrefixOf lower then some (.infinite isNegative, cs.drop 3)
  else if "nan".toList.isPrefixOf lower then some (.none, cs.drop 3)
  else match cs with
    | '0' :: x :: rest =>
      if x = 'x' || x = 'X' then match Escape.number 16 rest.length rest with
        | (_, 0, _) => some (.finite isNegative 0 1, x :: rest)
        | (n, _, rest) => some (.finite isNegative n 1, rest)
      else decimal isNegative cs
    | cs => decimal isNegative cs
where
  /-- A number in decimal digits. -/
  decimal (isNegative : Bool) (cs : List Char) : Option (Real × List Char) :=
    match mantissa cs with
    | (_, _, 0, _) => Option.none
    | (n, places, _, rest) =>
      let (e, rest) := exponent rest
      if e < -20000 || 20000 < e then
        some (if e < 0 || n = 0 then .finite isNegative 0 1 else .infinite isNegative, rest)
      else
        let (a, b) := powerOfTen (e - places)
        some (.finite isNegative (n * a) b, rest)

/-- The nearest number with so many binary digits, a tie going to the even one. -/
def toBinary (digits : Nat) : Real → Real
  | .finite isNegative num den =>
    if num = 0 then .finite isNegative 0 1
    else
      let guess : Int := (Nat.log2 num : Int) - (Nat.log2 den : Int) - (digits - 1 : Nat)
      let e := if Binary64.flooredAt num den guess < Nat.pow 2 (digits - 1) then guess - 1
        else guess
      let m := Binary64.roundedAt num den e
      if e < 0 then .finite isNegative m (Nat.pow 2 (-e).toNat)
      else .finite isNegative (m * Nat.pow 2 e.toNat) 1
  | x => x

/-- The digits of a number, at least so many. -/
def digitsOf (least n : Nat) : List Char :=
  let ds := Nat.toDigits 10 n
  List.replicate (least - ds.length) '0' ++ ds

/-- Digits with a point before the last ones. -/
def withPoint (places : Nat) (keepsPoint : Bool) (ds : List Char) : List Char :=
  let whole := ds.take (ds.length - places)
  let fraction := ds.drop (ds.length - places)
  if places = 0 then (if keepsPoint then whole ++ ['.'] else whole)
  else whole ++ '.' :: fraction

/-- A quotient with a fixed number of places. -/
def fixed (places : Nat) (keepsPoint : Bool) (num den : Nat) : List Char :=
  let n := Binary64.roundedQuotient (num * Nat.pow 10 places) den
  withPoint places keepsPoint (digitsOf (places + 1) n)

/-- The decimal exponent of a quotient: it is at least that power of ten and below the next. -/
def magnitude (num den : Nat) : Int :=
  if num = 0 then 0
  else
    let guess : Int := (Nat.toDigits 10 num).length - (Nat.toDigits 10 den).length
    let (a, b) := powerOfTen guess
    if num * b < a * den then guess - 1 else guess

/-- The digits of a quotient rounded to one more than so many places after the first, and the
exponent of the first. -/
def rounded (places : Nat) (num den : Nat) : Nat × Int :=
  let e := magnitude num den
  let (a, b) := powerOfTen (places - e)
  let n := Binary64.roundedQuotient (num * a) (den * b)
  if Nat.pow 10 (places + 1) ≤ n then (n / 10, e + 1) else (n, e)

/-- The text of an exponent. -/
def exponentText (e : Int) : List Char :=
  'e' :: (if e < 0 then '-' else '+') :: digitsOf 2 e.natAbs

/-- A quotient with an exponent. -/
def scientific (places : Nat) (keepsPoint : Bool) (num den : Nat) : List Char :=
  let (n, e) := rounded places num den
  withPoint places keepsPoint (digitsOf (places + 1) n) ++ exponentText e

/-- Digits without the zeros at the end of their fraction. -/
def trimZeros (cs : List Char) : List Char :=
  if cs.contains '.' then
    match cs.reverse.dropWhile (· = '0') with
    | '.' :: rest => rest.reverse
    | rest => rest.reverse
  else cs

/-- A quotient with so many digits, in the shorter of the two ways. -/
def general (digits : Nat) (keepsZeros : Bool) (num den : Nat) : List Char :=
  let digits := max digits 1
  let (n, e) := rounded (digits - 1) num den
  let trim (cs : List Char) : List Char := if keepsZeros then cs else trimZeros cs
  if e < -4 || (digits : Int) ≤ e then
    trim (withPoint (digits - 1) keepsZeros (digitsOf digits n)) ++ exponentText e
  else trim (fixed ((digits : Int) - 1 - e).toNat keepsZeros num den)

end Real

end FolderTasks.Machine
