import FolderTasks.Shell.Word
/-!
# Braces in words

A word with braces stands for several words: one for every alternative between commas, or one for
every value from a first to a last.

## Main definitions

* `Shell.Braces.expand`: the words that a word stands for.
-/

namespace FolderTasks.Shell.Braces

/-- A character outside quotes, or another piece of a word. -/
inductive Bit where
  | char (c : Char)
  | piece (p : Piece)
deriving DecidableEq, Repr

/-- The bits of a word. -/
def bitsOf (w : Word) : List Bit :=
  w.flatMap fun
    | .text s false => s.toList.map .char
    | p => [.piece p]

/-- The word of some bits; `taken` are reversed characters before them. -/
def wordOfGo (taken : List Char) : List Bit → Word
  | [] => if taken.isEmpty then [] else [.text (String.ofList taken.reverse) false]
  | .char c :: rest => wordOfGo (c :: taken) rest
  | .piece p :: rest =>
    (if taken.isEmpty then [] else [.text (String.ofList taken.reverse) false]) ++
      p :: wordOfGo [] rest

/-- The bits between an opening brace and the closing one that fits, split at commas, and the
rest. -/
def alternatives : Nat → Nat → List Bit → List (List Bit) → List Bit →
    Option (List (List Bit) × List Bit)
  | 0, _, _, _, _ | _, _, _, _, [] => none
  | fuel + 1, depth, current, before, b :: rest =>
    match b with
    | .char '\x7b' => alternatives fuel (depth + 1) (b :: current) before rest
    | .char '\x7d' =>
      if depth = 0 then some ((current.reverse :: before).reverse, rest)
      else alternatives fuel (depth - 1) (b :: current) before rest
    | .char ',' =>
      if depth = 0 then alternatives fuel depth [] (current.reverse :: before) rest
      else alternatives fuel depth (b :: current) before rest
    | b => alternatives fuel depth (b :: current) before rest

/-- The whole number that a text spells. -/
def integer? (cs : List Char) : Option Int :=
  let (sign, digits) := match cs with
    | '-' :: rest => (-1, rest)
    | '+' :: rest => (1, rest)
    | cs => (1, cs)
  if digits.isEmpty || !digits.all Char.isDigit then none
  else some (sign * (digits.foldl (fun n c => n * 10 + (c.toNat - 48)) 0 : Nat))

/-- The text of a number, with zeros in front to a certain width. -/
def padded (width : Nat) (n : Int) : List Char :=
  let digits := (toString n.natAbs).toList
  let sign := if n < 0 then ['-'] else []
  sign ++ List.replicate (width - sign.length - digits.length) '0' ++ digits

/-- The parts of a text between double dots. -/
def splitAtDots : List Char → List Char → List (List Char)
  | taken, [] => [taken.reverse]
  | taken, '.' :: '.' :: rest => taken.reverse :: splitAtDots [] rest
  | taken, c :: rest => splitAtDots (c :: taken) rest

/-- Numbers from a first to a last. -/
def numbers (first last step : Int) : List Int :=
  let size : Int := if step = 0 then 1 else step.natAbs
  let count := ((last - first).natAbs / size.natAbs) + 1
  (List.range count).map fun (k : Nat) =>
    if first ≤ last then first + size * k else first - size * k

/-- The values between braces that hold a first and a last, and perhaps a step. -/
def valuesOf? (cs : List Char) : Option (List (List Char)) :=
  let values (a b : List Char) (step : Int) : Option (List (List Char)) :=
    match integer? a, integer? b with
    | some m, some n =>
      let isPadded (cs : List Char) : Bool :=
        let digits := cs.dropWhile fun c => c = '-' || c = '+'
        1 < digits.length && digits.head? == some '0'
      let width := if isPadded a || isPadded b then max a.length b.length else 0
      some ((numbers m n step).map (padded width))
    | _, _ => match a, b with
      | [x], [y] =>
        if x.isAlpha && y.isAlpha then
          some ((numbers x.toNat y.toNat step).map fun n => [Char.ofNat n.toNat])
        else none
      | _, _ => none
  match splitAtDots [] cs with
  | [a, b] => values a b 1
  | [a, b, c] => (integer? c).bind (values a b)
  | _ => none

/-- The characters of bits that hold nothing else. -/
def plain? (bits : List Bit) : Option (List Char) :=
  bits.mapM fun
    | .char c => some c
    | .piece _ => none

/-- The rows of bits that bits stand for. -/
def expandGo : Nat → List Bit → List (List Bit)
  | 0, bits => [bits]
  | _ + 1, [] => [[]]
  | fuel + 1, .char '\x7b' :: rest =>
    let literal : List (List Bit) := (expandGo fuel rest).map (.char '\x7b' :: ·)
    match alternatives (rest.length + 1) 0 [] [] rest with
    | none => literal
    | some (parts, after) =>
      let choices : Option (List (List Bit)) := match parts with
        | [part] => ((plain? part).bind valuesOf?).map fun vs => vs.map (·.map .char)
        | parts => some (parts.flatMap (expandGo fuel))
      match choices with
      | none =>
        let inside := (parts.head?.getD []).length
        (expandGo fuel (rest.take inside)).flatMap fun a =>
          (expandGo fuel (rest.drop inside)).map fun b => .char '\x7b' :: a ++ b
      | some choices =>
        let endings := expandGo fuel after
        choices.flatMap fun c => endings.map fun e => c ++ e
  | fuel + 1, b :: rest => (expandGo fuel rest).map (b :: ·)

/-- The words that a word stands for. -/
def expand (w : Word) : List Word :=
  let bits := bitsOf w
  if bits.contains (.char '\x7b') then
    (expandGo (bits.length + 1) bits).map (wordOfGo [])
  else [w]

end FolderTasks.Shell.Braces
