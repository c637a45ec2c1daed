import FolderTasks.Machine.Format
import FolderTasks.Shell.Word
/-!
# Arithmetic in a shell

Whole numbers of 64 bits, the usual operators, and parameters by name, which may be set.

## Main definitions

* `Shell.Arithmetic.Term`: expressions.
* `Shell.Arithmetic.Term.ofText`: the expression of a text.
* `Shell.Arithmetic.Term.evaluate`: its value, with the parameters that it sets.
* `Shell.Arithmetic.valueOf`: both in one.
-/

namespace FolderTasks.Shell.Arithmetic

/-- Expressions. -/
inductive Term where
  | number (n : Int)
  /-- A parameter, or the element of an array with an index. -/
  | parameter (name : String) (index : Term)
  /-- In the place of an index: none is given. -/
  | whole
  | unary (op : String) (a : Term)
  /-- `written` is how the second operand and all after it is written. -/
  | binary (op : String) (a b : Term) (written : String)
  /-- A parameter is set, to a value that may be computed from its old one. -/
  | set (name : String) (index : Term) (op : String) (a : Term) (written : String)
  /-- A parameter is changed by one; `isAfter` says whether its old value is what counts. -/
  | step (name : String) (index : Term) (change : Int) (isAfter : Bool)
  | choice (condition yes no : Term)
  | sequence (a b : Term)
deriving Inhabited

/-- Why an expression has no value.  The text is what is written where the trouble is. -/
inductive Trouble where
  | primaryExpected (written : String)
  | endExpected (written : String)
  | closingExpected (written : String)
  | colonExpected (written : String)
  | divisionByZero (written : String)
  | negativeExponent (written : String)
  | tooGreat (written : String)
  | notSettable (written : String)
  | noNumber (value : String)
  | tooDeep
deriving DecidableEq, Repr

/-- The wording of a trouble with an expression in the basic language. -/
def Trouble.message (expression : String) : Trouble → String
  | .noNumber value => "Illegal number: " ++ value
  | t => "arithmetic expression: " ++ (match t with
      | .primaryExpected _ | .tooDeep => "expecting primary"
      | .closingExpected _ => "expecting \x27)\x27"
      | .colonExpected _ => "expecting \x27:\x27"
      | .divisionByZero _ => "division by zero"
      | _ => "expecting EOF") ++ ": \x22" ++ expression ++ "\x22"

/-- The wording of a trouble with an expression in the extended language. -/
def Trouble.extendedMessage (expression : String) : Trouble → String
  | .tooDeep => expression ++ ": expression recursion level exceeded (error token is \x22" ++
      expression ++ "\x22)"
  | .noNumber value => value ++ ": syntax error: invalid arithmetic operator (error token is \x22" ++
      value ++ "\x22)"
  | t =>
    let (what, written) := match t with
      | .primaryExpected w => ("syntax error: operand expected", w)
      | .closingExpected w => ("missing \x60)\x27", w)
      | .colonExpected w => ("\x60:\x27 expected for conditional expression", w)
      | .divisionByZero w => ("division by 0", w)
      | .negativeExponent w => ("exponent less than 0", w)
      | .tooGreat w => ("value too great for base", w)
      | .notSettable w => ("attempted assignment to non-variable", w)
      | .endExpected w =>
        (if w.toList.head?.any fun c => c.isAlphanum || c = '_' || "=<>+-*/&|^()".toList.contains c
          then "syntax error in expression" else "syntax error: invalid arithmetic operator", w)
      | _ => ("syntax error in expression", "")
    expression ++ ": " ++ what ++ " (error token is \x22" ++ written ++ "\x22)"

/-- Keep a number within 64 bits. -/
def wrap (n : Int) : Int := n.bmod (Nat.pow 2 64)

/-- The operators between two operands, tight ones first, level by level. -/
def levels : List (List String) :=
  [["**"], ["*", "/", "%"], ["+", "-"], ["<<", ">>"], ["<=", ">=", "<", ">"], ["==", "!="], ["&"],
    ["^"], ["|"], ["&&"], ["||"]]

/-- All operators, the longer ones before their beginnings. -/
def symbols (d : Dialect) : List String :=
  (if d = .extended then ["**", "++", "--", ",", "[", "]"] else []) ++
  ["<<=", ">>=", "<<", ">>", "<=", ">=", "==", "!=", "&&", "||", "+=", "-=", "*=", "/=", "%=", "&=",
    "^=", "|=", "=", "+", "-", "*", "/", "%", "<", ">", "&", "^", "|", "!", "~", "?", ":", "(", ")"]

/-! ## Tokens -/

/-- What a token of an expression is. -/
inductive Kind where
  | number (n : Int)
  | name (s : String)
  | symbol (s : String)
  /-- Nothing that an expression can hold. -/
  | other
deriving DecidableEq, Repr

/-- A token, with what is written from it on. -/
structure Token where
  kind : Kind
  written : String
deriving DecidableEq, Repr

/-- The value of a digit in a base of up to 64. -/
def digit? (base : Nat) (c : Char) : Option Nat :=
  let n :=
    if c.isDigit then c.toNat - 48
    else if c.isLower then c.toNat - 87
    else if c.isUpper then (if base ≤ 36 then c.toNat - 55 else c.toNat - 29)
    else if c = '@' then 62
    else if c = '_' then 63
    else 64
  if n < base then some n else none

/-- The number that digits spell in a base. -/
def inBase (base : Nat) (cs : List Char) : Nat :=
  cs.foldl (fun n c => n * base + (digit? base c).getD 0) 0

/-- A number of the extended language, all of its characters taken. -/
def extendedNumber (cs : List Char) : Option Int :=
  let all (base : Nat) (cs : List Char) : Option Int :=
    if cs.all fun c => (digit? base c).isSome then some (wrap (inBase base cs)) else none
  match cs with
  | '0' :: 'x' :: rest | '0' :: 'X' :: rest => all 16 rest
  | '0' :: rest => all 8 rest
  | cs =>
    let before := cs.takeWhile (· != '#')
    if before.length < cs.length then
      let base := inBase 10 before
      if before.all Char.isDigit && 2 ≤ base && base ≤ 64 then
        all base (cs.drop (before.length + 1))
      else none
    else all 10 cs

/-- A number of the basic language at the beginning of a text, and how long it is. -/
def basicNumber (cs : List Char) : Int × Nat :=
  let limited (n : Nat) : Int := min (n : Int) 9223372036854775807
  match cs with
  | '0' :: x :: rest =>
    let hex := rest.takeWhile fun c => (digit? 16 c).isSome
    if (x = 'x' || x = 'X') && !hex.isEmpty then (limited (inBase 16 hex), hex.length + 2)
    else
      let octal := (x :: rest).takeWhile fun c => '0' ≤ c && c ≤ '7'
      (limited (inBase 8 octal), octal.length + 1)
  | cs =>
    let digits := cs.takeWhile Char.isDigit
    (limited (inBase 10 digits), digits.length)

/-- The tokens of an expression. -/
def tokens (d : Dialect) : Nat → List Char → Except Trouble (List Token)
  | 0, _ | _, [] => .ok []
  | fuel + 1, c :: rest =>
    let cs := c :: rest
    let written := String.ofList cs
    let goOn (kind : Kind) (length : Nat) : Except Trouble (List Token) := do
      .ok (⟨kind, written⟩ :: (← tokens d fuel (cs.drop length)))
    if c = ' ' || c = '\t' || c = '\n' then tokens d fuel rest
    else if c.isDigit then
      if d = .extended then
        let digits := cs.takeWhile fun c => c.isAlphanum || c = '_' || c = '#' || c = '@'
        match extendedNumber digits with
        | some n => goOn (.number n) digits.length
        | none => .error (.tooGreat (String.ofList digits))
      else
        let (n, length) := basicNumber cs
        goOn (.number n) (max 1 length)
    else if isNameStart c then
      let name := cs.takeWhile isNamePart
      goOn (.name (String.ofList name)) name.length
    else match (symbols d).find? fun s => s.toList.isPrefixOf cs with
      | some s => goOn (.symbol s) s.length
      | none => goOn .other cs.length

/-! ## Reading -/

/-- What is written where a token is missing: the last token. -/
def writtenAt (last : String) (ts : List Token) : String := (ts.head?.map (·.written)).getD last

mutual

/-- Terms with commas between them. -/
def readSequence (last : String) : Nat → List Token → Except Trouble (Term × List Token)
  | 0, _ => .error .tooDeep
  | fuel + 1, ts => do
    let (a, ts) ← readTerm last fuel ts
    match ts with
    | ⟨.symbol ",", _⟩ :: rest => do
      let (b, ts) ← readSequence last fuel rest
      .ok (.sequence a b, ts)
    | ts => .ok (a, ts)

/-- The index of an array between brackets, if there is one. -/
def readIndex (last : String) : Nat → List Token → Except Trouble (Term × List Token)
  | 0, _ => .error .tooDeep
  | fuel + 1, ⟨.symbol "[", _⟩ :: rest => do
    let (a, ts) ← readSequence last fuel rest
    match ts with
    | ⟨.symbol "]", _⟩ :: rest => .ok (a, rest)
    | ts => .error (.endExpected (writtenAt last ts))
  | _ + 1, ts => .ok (.whole, ts)

/-- A setting of a parameter, or a choice. -/
def readTerm (last : String) : Nat → List Token → Except Trouble (Term × List Token)
  | 0, _ => .error .tooDeep
  | fuel + 1, ts =>
    match ts with
    | ⟨.name x, _⟩ :: rest => do
      let (index, rest) ← readIndex last fuel rest
      match rest with
      | ⟨.symbol op, _⟩ :: after =>
        if op.endsWith "=" && !(["==", "!=", "<=", ">="].contains op) then do
          let (a, rest) ← readTerm last fuel after
          .ok (.set x index (String.ofList op.toList.dropLast) a (writtenAt last after), rest)
        else readChoice last fuel ts
      | _ => readChoice last fuel ts
    | ts => readChoice last fuel ts

/-- A choice between two terms, or a term without one. -/
def readChoice (last : String) : Nat → List Token → Except Trouble (Term × List Token)
  | 0, _ => .error .tooDeep
  | fuel + 1, ts => do
    let (condition, ts) ← readLevel last fuel levels.reverse ts
    match ts with
    | ⟨.symbol "?", _⟩ :: rest =>
      let (yes, rest) ← readTerm last fuel rest
      match rest with
      | ⟨.symbol ":", _⟩ :: rest => do
        let (no, rest) ← readTerm last fuel rest
        .ok (.choice condition yes no, rest)
      | rest => .error (.colonExpected (writtenAt last rest))
    | ts => .ok (condition, ts)

/-- Terms joined by the operators of a level. -/
def readLevel (last : String) : Nat → List (List String) → List Token →
    Except Trouble (Term × List Token)
  | 0, _, _ => .error .tooDeep
  | fuel + 1, [], ts => readUnary last fuel ts
  | fuel + 1, ops :: tighter, ts => do
    let (a, ts) ← readLevel last fuel tighter ts
    readMore last fuel ops tighter a ts

/-- What else is joined by the operators of a level; powers are joined from the right. -/
def readMore (last : String) : Nat → List String → List (List String) → Term → List Token →
    Except Trouble (Term × List Token)
  | 0, _, _, _, _ => .error .tooDeep
  | fuel + 1, ops, tighter, a, ⟨.symbol op, w⟩ :: rest =>
    if ops.contains op then do
      let (b, after) ← readLevel last fuel (if op = "**" then ops :: tighter else tighter) rest
      readMore last fuel ops tighter (.binary op a b (writtenAt w rest)) after
    else .ok (a, ⟨.symbol op, w⟩ :: rest)
  | _ + 1, _, _, a, ts => .ok (a, ts)

/-- A number, a parameter, a term in parentheses, or one of these after a sign. -/
def readUnary (last : String) : Nat → List Token → Except Trouble (Term × List Token)
  | 0, _ => .error .tooDeep
  | _ + 1, ⟨.number n, _⟩ :: rest => .ok (.number n, rest)
  | fuel + 1, ⟨.name x, _⟩ :: rest => do
    let (index, rest) ← readIndex last fuel rest
    match rest with
    | ⟨.symbol "++", _⟩ :: rest => .ok (.step x index 1 true, rest)
    | ⟨.symbol "--", _⟩ :: rest => .ok (.step x index (-1) true, rest)
    | rest => .ok (.parameter x index, rest)
  | fuel + 1, ⟨.symbol "(", _⟩ :: rest => do
    let (a, rest) ← readSequence last fuel rest
    match rest with
    | ⟨.symbol ")", _⟩ :: rest => .ok (a, rest)
    | rest => .error (.closingExpected (writtenAt last rest))
  | fuel + 1, ⟨.symbol op, w⟩ :: rest =>
    if ["-", "+", "!", "~"].contains op then do
      let (a, rest) ← readUnary last fuel rest
      .ok (.unary op a, rest)
    else if op = "++" || op = "--" then match rest with
      | ⟨.name x, _⟩ :: rest => do
        let (index, rest) ← readIndex last fuel rest
        .ok (.step x index (if op = "++" then 1 else -1) false, rest)
      | rest => do
        let (a, rest) ← readUnary last fuel rest
        .ok (a, rest)
    else .error (.primaryExpected w)
  | _ + 1, ⟨.other, w⟩ :: _ => .error (.primaryExpected w)
  | _ + 1, [] => .error (.primaryExpected last)

end

/-- The expression of a text; in the extended language the empty one is zero. -/
def Term.ofText (d : Dialect) (text : String) : Except Trouble Term := do
  let cs := text.toList
  let ts ← tokens d (cs.length + 1) cs
  if ts.isEmpty && d = .extended then .ok (.number 0)
  else
    let last := (ts.getLast?.map (·.written)).getD ""
    match ← readSequence last (20 * ts.length + 20) ts with
    | (a, []) => .ok a
    | (_, t :: _) =>
      if t.kind = .symbol "=" then .error (if d = .extended then .notSettable t.written
        else .endExpected t.written)
      else .error (.endExpected t.written)

/-! ## Values -/

/-- A parameter, or the element of an array with an index, and the value that it gets. -/
abbrev Change := String × Option Int × Int

/-- How parameters are looked up. -/
abbrev Lookup := String → Option Int → String

/-- The truth of a statement as a number. -/
def truth (b : Bool) : Int := if b then 1 else 0

/-- A number as the bits that hold it. -/
def bits (n : Int) : Nat := (n % (Nat.pow 2 64 : Nat)).toNat

/-- Divide, toward zero; the least number by minus one is too great for the basic language. -/
def divide (d : Dialect) (a b : Int) : Int :=
  let q := a.tdiv b
  if d = .basic then min q 9223372036854775807 else wrap q

/-- The value of an operator between two numbers; with none, it is the second number. -/
def apply (d : Dialect) (op written : String) (a b : Int) : Except Trouble Int :=
  match op with
  | "*" => .ok (wrap (a * b))
  | "/" => if b = 0 then .error (.divisionByZero written) else .ok (divide d a b)
  | "%" => if b = 0 then .error (.divisionByZero written) else .ok (a.tmod b)
  | "**" =>
    if b < 0 then .error (.negativeExponent written)
    else .ok ((List.range (min b.toNat 4096)).foldl (fun n _ => wrap (n * a)) 1)
  | "+" => .ok (wrap (a + b))
  | "-" => .ok (wrap (a - b))
  | "<<" => .ok (wrap (a * (Nat.pow 2 (bits b % 64) : Nat)))
  | ">>" => .ok (a >>> (bits b % 64))
  | "<" => .ok (truth (decide (a < b)))
  | ">" => .ok (truth (decide (b < a)))
  | "<=" => .ok (truth (decide (a ≤ b)))
  | ">=" => .ok (truth (decide (b ≤ a)))
  | "==" => .ok (truth (a == b))
  | "!=" => .ok (truth (a != b))
  | "&" => .ok (wrap (bits a &&& bits b : Nat))
  | "^" => .ok (wrap (bits a ^^^ bits b : Nat))
  | "|" => .ok (wrap (bits a ||| bits b : Nat))
  | _ => .ok b

/-- The number that a value spells in the basic language; an empty one is zero. -/
def numberOf (value : String) : Except Trouble Int :=
  let isBlank (c : Char) : Bool := c = ' ' || c = '\t' || c = '\n'
  let cs := ((value.toList.dropWhile isBlank).reverse.dropWhile isBlank).reverse
  let (sign, digits) := match cs with
    | '-' :: rest => (-1, rest)
    | '+' :: rest => (1, rest)
    | cs => (1, cs)
  if cs.isEmpty then .ok 0
  else if !digits.head?.any Char.isDigit then .error (.noNumber value)
  else
    let (n, length) := basicNumber digits
    if max 1 length = digits.length then .ok (wrap (sign * n)) else .error (.noNumber value)

/-- The value of a term, with the changes that were made, the latest first.  The value of a
parameter may be an expression itself in the extended language. -/
def Term.evaluate (d : Dialect) (look : Lookup) (resolve : String → List Change →
    Except Trouble (Int × List Change)) : Term → List Change → Except Trouble (Int × List Change)
  | .number n, s => .ok (wrap n, s)
  | .whole, s => .ok (0, s)
  | .parameter name index, s => do
    let (i, s) ← indexOf index s
    read name i s
  | .unary op a, s => do
    let (a, s) ← a.evaluate d look resolve s
    .ok (match op with
      | "-" => wrap (-a)
      | "!" => truth (a == 0)
      | "~" => wrap (-a - 1)
      | _ => a, s)
  | .binary op a b written, s => do
    let (a, s) ← a.evaluate d look resolve s
    if op = "&&" then
      if a = 0 then .ok (0, s)
      else
        let (b, s) ← b.evaluate d look resolve s
        .ok (truth (b != 0), s)
    else if op = "||" then
      if a ≠ 0 then .ok (1, s)
      else
        let (b, s) ← b.evaluate d look resolve s
        .ok (truth (b != 0), s)
    else
      let (b, s) ← b.evaluate d look resolve s
      .ok (← apply d op written a b, s)
  | .set name index op a written, s => do
    let (i, s) ← indexOf index s
    let (a, s) ← a.evaluate d look resolve s
    if op = "" then .ok (a, (name, i, a) :: s)
    else
      let (old, s) ← read name i s
      let value ← apply d op written old a
      .ok (value, (name, i, value) :: s)
  | .step name index change isAfter, s => do
    let (i, s) ← indexOf index s
    let (old, s) ← read name i s
    let value := wrap (old + change)
    .ok (if isAfter then old else value, (name, i, value) :: s)
  | .choice condition yes no, s => do
    let (c, s) ← condition.evaluate d look resolve s
    if c ≠ 0 then yes.evaluate d look resolve s else no.evaluate d look resolve s
  | .sequence a b, s => do
    let (_, s) ← a.evaluate d look resolve s
    b.evaluate d look resolve s
where
  /-- The value of an index, if one is given. -/
  indexOf (index : Term) (s : List Change) : Except Trouble (Option Int × List Change) :=
    match index with
    | .whole => .ok (none, s)
    | index => do
      let (i, s) ← index.evaluate d look resolve s
      .ok (some i, s)
  /-- The number of a parameter. -/
  read (name : String) (i : Option Int) (s : List Change) : Except Trouble (Int × List Change) :=
    match s.find? fun e => e.1 == name && e.2.1 == i with
    | some (_, _, n) => .ok (n, s)
    | none => resolve (look name i) s

/-- The number of a value, which may be an expression itself in the extended language. -/
def resolveGo (d : Dialect) (look : Lookup) : Nat → String → List Change →
    Except Trouble (Int × List Change)
  | 0, _, _ => .error .tooDeep
  | fuel + 1, value, s =>
    if d = .basic then do .ok (← numberOf value, s)
    else do (← Term.ofText d value).evaluate d look (resolveGo d look fuel) s

/-- The value of an expression, with the changes that it makes, the latest first. -/
def valueOf (d : Dialect) (look : Lookup) (expression : String) :
    Except Trouble (Int × List Change) := do
  (← Term.ofText d expression).evaluate d look (resolveGo d look 100) []

end FolderTasks.Shell.Arithmetic
