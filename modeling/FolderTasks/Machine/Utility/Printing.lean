import FolderTasks.Machine.Condition
import FolderTasks.Machine.Format
import FolderTasks.Machine.Options
/-!
# Programs that print

`echo`, `printf` and `test` exist on their own and within shells, and differ in a few words and
escapes; a `Flavour` holds the difference.

## Main definitions

* `Utility.Flavour`: how such a program complains and prints.
* `Utility.echo`, `Utility.printf`, `Utility.test`, `Utility.bracket`: the programs of a flavour.
* `Utility.seq`, `Utility.yes`, `Utility.pwd`, … : others that print what they are told.
-/

namespace FolderTasks.Machine

open Files

namespace Utility

/-- What differs between a program on its own and within a shell. -/
structure Flavour where
  /-- The words with which complaints of a program begin. -/
  caller : String → String
  /-- What a program says that cannot print. -/
  writeFault : String → Fault → String
  /-- The wording of complaints about a format, and the exit code after one that is fatal. -/
  wording : Format.Complaint → String
  fatalCode : Nat
  /-- What is said when there is no format at all, and the exit code. -/
  withoutFormat : String × Nat
  /-- The wording of complaints about a condition with some arguments. -/
  conditionWording : List String → Condition.Complaint → String
  /-- Is a condition that is missing false? -/
  isLenient : Bool := false
  /-- How a missing bracket is called. -/
  closing : String
  format : Format.Style
  /-- Does `echo` take escapes without being asked? -/
  echoesEscapes : Bool

/-- What is said of a condition that goes on after its end, by how many arguments it has. -/
def operatorExpected (args : List String) : String :=
  match args with
  | [a, _] => a ++ ": unary operator expected"
  | [_, b, _] => b ++ ": binary operator expected"
  | _ => "too many arguments"

/-- A program on its own. -/
def standalone : Flavour where
  caller name := name ++ ": "
  writeFault _ fault := "write error: " ++ fault.reason
  wording
    | .notNumeric arg => quoted arg ++ ": expected a numeric value"
    | .notCompletely arg => quoted arg ++ ": value not completely converted"
    | .badDirective text => "%" ++ text ++ ": invalid conversion specification"
    | .noForm => "%: invalid conversion specification"
  fatalCode := 1
  withoutFormat := ("missing operand\n" ++ adviceFor "printf", 1)
  conditionWording args
    | .illegalNumber text => "invalid integer " ++ quoted text
    | .argumentExpected _ => "missing argument after " ++ quoted (args.getLastD "")
    | .closingExpected => "\x27)\x27 expected"
    | .unexpectedOperator _ => match args with
      | [a, _] => quoted a ++ ": unary operator expected"
      | [_, b, _] => quoted b ++ ": binary operator expected"
      | args => "extra argument " ++ quoted (args.getLastD "")
  closing := quoted "]"
  format := ⟨⟨false, true⟩, 64, true⟩
  echoesEscapes := false

/-- Print; the exit code is one after a complaint. -/
def Flavour.emit (f : Flavour) (name : String) (bs : Bytes) : Course Nat := do
  match ← Course.write 1 bs with
  | .ok () => pure 0
  | .error fault =>
    Course.complain (f.caller name ++ f.writeFault name fault)
    pure 1

/-- The options of `echo`: no line feed, and escapes. -/
def echoOptions (byDefault : Bool) : List String → Bool × Bool × List String
  | [] => (false, byDefault, [])
  | a :: rest =>
    match a.toList with
    | '-' :: c :: cs =>
      if (c :: cs).all fun c => c = 'n' || c = 'e' || c = 'E' then
        let (isQuiet, escapes, rest) := echoOptions
          (((c :: cs).reverse.find? (· != 'n')).elim byDefault (· == 'e')) rest
        (isQuiet || (c :: cs).contains 'n', escapes, rest)
      else (false, byDefault, a :: rest)
    | _ => (false, byDefault, a :: rest)

/-- Print the arguments, with blanks between them. -/
def echo (f : Flavour) : Utility := fun args =>
  let (isQuiet, escapes, args) :=
    if f.echoesEscapes then
      if args.head? = some "-n" then (true, true, args.drop 1) else (false, true, args)
    else echoOptions false args
  let text := String.intercalate " " args
  let (bs, stops) := if escapes then Escape.expand ⟨true, !f.echoesEscapes⟩ text
    else (bytesOf text, false)
  f.emit "echo" (if isQuiet || stops then bs else bs ++ [lineFeed])

/-- Print the arguments after the first with the first as their format. -/
def printf (f : Flavour) : Utility
  | [] => do
    Course.complain (f.caller "printf" ++ f.withoutFormat.1)
    pure f.withoutFormat.2
  | "--" :: format :: args | format :: args => do
    let r := Format.run f.format format args
    let code ← f.emit "printf" r.bytes
    r.complaints.forM fun c => Course.complain (f.caller "printf" ++ f.wording c)
    pure (if r.complaints.any Format.Complaint.isFatal then f.fatalCode
      else if r.complaints.isEmpty then code else 1)

/-- Test a condition. -/
def test (f : Flavour) (name : String) : Utility := fun args => do
  match Condition.evaluate (← Course.look) f.isLenient args with
  | .ok holds => pure (if holds then 0 else 1)
  | .error complaint =>
    Course.complain (f.caller name ++ f.conditionWording args complaint)
    pure 2

/-- Test a condition in brackets. -/
def bracket (f : Flavour) : Utility := fun args =>
  if args.getLast? = some "]" then test f "[" args.dropLast
  else do
    Course.complain (f.caller "[" ++ "missing " ++ f.closing)
    pure 2

/-- The path of the working folder. -/
def pwd : Utility := fun _ => do
  say "pwd" ((← Course.look).context.here.path ++ "\n")
  pure 0

/-- Print one text again and again. -/
def yesGo (bs : Bytes) : Nat → Course Nat
  | 0 => Course.spin
  | fuel + 1 => do
    emit "yes" bs
    Course.pause
    yesGo bs fuel

/-- Print the arguments again and again, or `y` if there are none. -/
def yes : Utility := fun args =>
  let line := bytesOf ((if args.isEmpty then "y" else String.intercalate " " args) ++ "\n")
  yesGo (List.replicate (8192 / line.length + 1) line).flatten Course.manyReads

/-! ## Names -/

/-- The last name of a path. -/
def lastName (path : String) : String :=
  let trimmed := path.toList.reverse.dropWhile (· = '/')
  if trimmed.isEmpty then (if path.isEmpty then "" else "/")
  else String.ofList (trimmed.takeWhile (· != '/')).reverse

/-- What stands before the last name of a path. -/
def folderName (path : String) : String :=
  let trimmed := path.toList.reverse.dropWhile (· = '/')
  if trimmed.isEmpty then (if path.isEmpty then "." else "/")
  else match trimmed.dropWhile (· != '/') with
    | [] => "."
    | rest => match rest.dropWhile (· = '/') with
      | [] => "/"
      | rest => String.ofList rest.reverse

/-- A name without an ending, unless the ending is all of it. -/
def withoutEnding (ending name : String) : String :=
  if ending != name && ending.toList.reverse.isPrefixOf name.toList.reverse then
    String.ofList (name.toList.take (name.length - ending.length))
  else name

/-- The options of programs that print names. -/
def nameOptions : Options.Known :=
  { flags := "az", valued := "s", isStrict := true
    words := [("multiple", 'a'), ("suffix", 's'), ("zero", 'z')] }

/-- Print the last names of paths. -/
def basename : Utility := withOptions "basename" nameOptions fun g =>
  let lineEnd := if g.has 'z' then "\x00" else "\n"
  let line (ending path : String) : String := withoutEnding ending (lastName path) ++ lineEnd
  match g.operands with
  | [] => misuse "basename" "missing operand"
  | operands =>
    if g.has 'a' || g.has 's' then do
      say "basename" (String.join (operands.map (line ((g.value? 's').getD ""))))
      pure 0
    else match operands with
      | [path] => do
        say "basename" (line "" path)
        pure 0
      | [path, ending] => do
        say "basename" (line ending path)
        pure 0
      | _ => misuse "basename" ("extra operand " ++ quoted (operands.getD 2 ""))

/-- Print paths without their last names. -/
def dirname : Utility := withOptions "dirname" nameOptions fun g =>
  match g.operands with
  | [] => misuse "dirname" "missing operand"
  | operands => do
    say "dirname" (unlines (operands.map folderName))
    pure 0

/-! ## Numbers -/

/-- The number that a text spells, with how many places it has. -/
def decimal? (text : String) : Option (Int × Nat) :=
  let (isNegative, cs) := match text.toList with
    | '-' :: rest => (true, rest)
    | '+' :: rest => (false, rest)
    | cs => (false, cs)
  match Real.mantissa cs with
  | (_, _, 0, _) => none
  | (n, places, _, []) => some (if isNegative then -(n : Int) else n, places)
  | _ => none

/-- The text of a number with so many places, at least so wide. -/
def decimalText (places width : Nat) (n : Int) : String :=
  let body := Real.withPoint places false (Real.digitsOf (places + 1) n.natAbs)
  let sign := if n < 0 then "-" else ""
  sign ++ String.ofList (List.replicate (width - sign.length - body.length) '0' ++ body)

/-- Print numbers one after the other: up to the last argument, from the first, in steps of the
second. -/
def seq : Utility := fun args =>
  let isNumber (a : String) : Bool := (decimal? a).isSome
  let given := args.takeWhile fun a => a.toList.head? == some '-' && !isNumber a
  match Options.read { flags := "w", valued := "sf", isStrict := true
                       words := [("equal-width", 'w'), ("separator", 's'), ("format", 'f')] }
      (given ++ (if given.getLast? = some "-s" || given.getLast? = some "-f"
        then args.drop given.length |>.take 1 else [])) with
  | .error mistake => misuse "seq" mistake.message
  | .ok g =>
    let taken := if given.getLast? = some "-s" || given.getLast? = some "-f"
      then given.length + 1 else given.length
    let operands := args.drop taken
    let separator := (g.value? 's').getD "\n"
    let print (first step last : Int × Nat) : Course Nat :=
      let places := max (max first.2 step.2) last.2
      let scaled (x : Int × Nat) : Int := x.1 * (Nat.pow 10 (places - x.2) : Nat)
      let shown := max first.2 step.2
      let drop := Nat.pow 10 (places - shown)
      if step.1 = 0 then do
        object "seq" ("invalid Zero increment value: " ++ quoted (operands.getD 1 "") ++ "\n" ++
          adviceFor "seq")
        pure 1
      else
        let count := ((scaled last - scaled first) / scaled step + 1).toNat
        let numbers := (List.range count).map fun (i : Nat) =>
          (scaled first + scaled step * (i : Int)) / (drop : Nat)
        let texts := numbers.map (decimalText shown 0)
        let width := if g.has 'w' then (texts.map (·.length)).foldl max 0 else 0
        let texts := match g.value? 'f' with
          | some format => texts.map fun t => textOf (Format.run standalone.format format [t]).bytes
          | none => numbers.map (decimalText shown width)
        do
          if !texts.isEmpty then say "seq" (String.intercalate separator texts ++ "\n")
          pure 0
    match operands.mapM decimal? with
    | some [last] => print (1, 0) (1, 0) last
    | some [first, last] => print first (1, 0) last
    | some [first, step, last] => print first step last
    | some [] => misuse "seq" "missing operand"
    | some _ => misuse "seq" ("extra operand " ++ quoted (operands.getD 3 ""))
    | none =>
      let wrong := (operands.find? fun a => !isNumber a).getD ""
      misuse "seq" ("invalid floating point argument: " ++ quoted wrong)

/-- The factors of a number in ascending order; every round takes a factor or goes on to the next
candidate. -/
def factors : Nat → Nat → Nat → List Nat
  | 0, _, n => if 1 < n then [n] else []
  | fuel + 1, d, n =>
    if n < 2 then []
    else if n < d * d then [n]
    else if n % d = 0 then d :: factors fuel d (n / d)
    else factors fuel (d + 1) n

/-- Print the factors of numbers. -/
def factor : Utility := fun args =>
  forEach "factor" args fun a => do
    match natural? a with
    | some n =>
      let fs := factors 1000000 2 n
      say "factor" (toString n ++ ":" ++ String.join (fs.map fun f => " " ++ toString f) ++ "\n")
      pure (.ok ())
    | none => pure (.error (quoted a ++ " is not a valid positive integer"))

/-! ## Time -/

/-- The microseconds that a text like `0.5`, `3` or `2m` spells. -/
def duration? (text : String) : Option Nat :=
  if text = "infinity" || text = "inf" then some 1000000000000000
  else
    let cs := text.toList
    let (unit, cs) := match cs.getLast? with
      | some 's' => (1, cs.dropLast)
      | some 'm' => (60, cs.dropLast)
      | some 'h' => (3600, cs.dropLast)
      | some 'd' => (86400, cs.dropLast)
      | _ => (1, cs)
    match decimal? (String.ofList cs) with
    | some (.ofNat n, places) =>
      let scale := Nat.pow 10 places
      some ((n * unit * 1000000 + scale - 1) / scale)
    | _ => none

/-- Let time go by. -/
def sleep : Utility := fun args =>
  match args.mapM duration? with
  | some (d :: ds) => do
    Course.sleep ((d :: ds).foldl (· + ·) 0)
    pure 0
  | some [] => misuse "sleep" "missing operand"
  | none =>
    let wrong := (args.find? fun a => (duration? a).isNone).getD ""
    misuse "sleep" ("invalid time interval " ++ quoted wrong)

end Utility

end FolderTasks.Machine
