import FolderTasks.Machine.Access
/-!
# Conditions

Tests of texts, numbers and files, written as a list of arguments: comparisons between two
operands, questions about one, and their combinations with `!`, `-a`, `-o` and parentheses.

## Main definitions

* `Condition.Complaint`: what is wrong with a condition.
* `Condition.evaluate`: the truth of a condition, or what is wrong with it.
-/

namespace FolderTasks.Machine.Condition

/-- What is wrong with a condition. -/
inductive Complaint where
  /-- An operand is no number. -/
  | illegalNumber (text : String)
  /-- There is nothing after an operator, if one is named. -/
  | argumentExpected (operator : Option String)
  | closingExpected
  /-- The condition goes on after its end; this stands last before that. -/
  | unexpectedOperator (text : String)
deriving DecidableEq, Repr

/-- The whole number that a text spells, between blanks. -/
def integer? (text : String) : Option Int :=
  let isBlank (c : Char) : Bool := c = ' ' || c = '\t' || c = '\n'
  let cs := ((text.toList.dropWhile isBlank).reverse.dropWhile isBlank).reverse
  let natural (cs : List Char) : Option Nat :=
    if cs.isEmpty || !cs.all Char.isDigit then none
    else some (cs.foldl (fun n c => n * 10 + (c.toNat - 48)) 0)
  match cs with
  | '-' :: rest => (natural rest).map fun n => -(n : Int)
  | '+' :: rest => (natural rest).map Int.ofNat
  | rest => (natural rest).map Int.ofNat

/-- Compare two numbers. -/
def compare (a b : String) (holds : Int → Int → Bool) : Except Complaint Bool :=
  match integer? a, integer? b with
  | none, _ => .error (.illegalNumber a)
  | _, none => .error (.illegalNumber b)
  | some m, some n => .ok (holds m n)

/-- When the thing at a path was changed; what is not there is older than everything. -/
def changedAt (v : View) (path : String) : Int :=
  match v.nodeAt? path with
  | some n => n.changed
  | none => -1

/-- Do two paths lead to one thing? -/
def isSameThing (v : View) (a b : String) : Bool :=
  match v.find a, v.find b with
  | .ok s, .ok t => s.node == t.node
  | _, _ => false

/-- The comparison of an operator between two operands. -/
def binary? (v : View) (op : String) : Option (String → String → Except Complaint Bool) :=
  match op with
  | "=" | "==" => some fun a b => .ok (a == b)
  | "!=" => some fun a b => .ok (a != b)
  | "<" => some fun a b => .ok (decide (a < b))
  | ">" => some fun a b => .ok (decide (b < a))
  | "-eq" => some fun a b => compare a b (· == ·)
  | "-ne" => some fun a b => compare a b (· != ·)
  | "-lt" => some fun a b => compare a b fun m n => decide (m < n)
  | "-le" => some fun a b => compare a b fun m n => decide (m ≤ n)
  | "-gt" => some fun a b => compare a b fun m n => decide (n < m)
  | "-ge" => some fun a b => compare a b fun m n => decide (n ≤ m)
  | "-nt" => some fun a b => .ok (decide (changedAt v b < changedAt v a))
  | "-ot" => some fun a b => .ok (decide (changedAt v a < changedAt v b))
  | "-ef" => some fun a b => .ok (isSameThing v a b)
  | _ => none

/-- May somebody execute the thing? -/
def isExecutable (n : Node) : Bool := n.mode &&& 0o111 != 0

/-- The question of an operator about one operand. -/
def unary? (v : View) (op : String) : Option (String → Bool) :=
  let about (path : String) (holds : Node → Bool) : Bool := (v.nodeAt? path).any holds
  match op with
  | "-n" => some (· != "")
  | "-z" => some (· == "")
  | "-e" | "-r" | "-w" | "-a" | "-O" | "-G" => some fun p => about p fun _ => true
  | "-x" => some fun p => about p isExecutable
  | "-f" => some fun p => about p fun n => match n.body with
    | .file _ | .program _ => true
    | _ => false
  | "-d" => some v.hasFolder
  | "-s" => some fun p => about p fun n => match n.body with
    | .file content => !content.isEmpty
    | .device _ => false
    | _ => true
  | "-h" | "-L" => some fun p => (v.nodeAt? p false).any fun n => match n.body with
    | .link _ => true
    | _ => false
  | "-c" => some fun p => about p fun n => match n.body with
    | .device _ => true
    | _ => false
  | "-p" | "-S" | "-b" | "-u" | "-g" | "-k" | "-t" | "-N" => some fun _ => false
  | _ => none

/-- How much of the arguments a piece of a condition is. -/
inductive Level where
  | alternatives
  | conjunction
  | negation
  | primary

/-- The truth of a condition at the beginning of some arguments, and the arguments after it; one
that is missing may be taken for a false one.  Every step to a lower level and every argument taken
costs one unit of fuel. -/
def evaluateGo (v : View) (isLenient : Bool) :
    Nat → Level → List String → Except Complaint (Bool × List String)
  | 0, _, _ => .error (.argumentExpected none)
  | fuel + 1, .alternatives, args => do
    let (a, rest) ← evaluateGo v isLenient fuel .conjunction args
    match rest with
    | "-o" :: rest =>
      let (b, rest) ← evaluateGo v isLenient fuel .alternatives rest
      .ok (a || b, rest)
    | rest => .ok (a, rest)
  | fuel + 1, .conjunction, args => do
    let (a, rest) ← evaluateGo v isLenient fuel .negation args
    match rest with
    | "-a" :: rest =>
      let (b, rest) ← evaluateGo v isLenient fuel .conjunction rest
      .ok (a && b, rest)
    | rest => .ok (a, rest)
  | fuel + 1, .negation, args =>
    match args with
    | "!" :: next :: rest => do
      let (a, rest) ← evaluateGo v isLenient fuel .negation (next :: rest)
      .ok (!a, rest)
    | args => evaluateGo v isLenient fuel .primary args
  | fuel + 1, .primary, args =>
    match args with
    | [] => if isLenient then .ok (false, []) else .error (.argumentExpected none)
    | [a] => .ok (a != "", [])
    | a :: op :: rest => match binary? v op, rest with
      | some holds, b :: rest => do .ok (← holds a b, rest)
      | some _, [] => .error (.argumentExpected (some op))
      | _, _ =>
        if a = "(" then do
          let (value, rest) ← evaluateGo v isLenient fuel .alternatives (op :: rest)
          match rest with
          | ")" :: rest => .ok (value, rest)
          | _ => .error .closingExpected
        else match unary? v a with
          | some holds => .ok (holds op, rest)
          | none => .ok (a != "", op :: rest)

/-- The truth of a condition; the empty one is false. -/
def evaluate (v : View) (isLenient : Bool) (args : List String) : Except Complaint Bool :=
  if args.isEmpty then .ok false
  else do
    let (value, rest) ← evaluateGo v isLenient (4 * args.length + 4) .alternatives args
    if rest.isEmpty then .ok value
    else .error (.unexpectedOperator ((args.take (args.length - rest.length)).getLastD ""))

end FolderTasks.Machine.Condition
