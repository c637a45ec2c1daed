import FolderTasks.Machine.Utility.Matching
import FolderTasks.Timestamp
/-!
# Programs that answer questions

They tell who runs them and where, what the date is, what an expression amounts to, and how files
differ.

## Main definitions

* `Utility.Expression.evaluate`: the value of an expression given as arguments.
* `Utility.expr`, `Utility.identify`, `Utility.uname`, `Utility.date`, `Utility.cmp`, … : the programs.
-/

namespace FolderTasks.Machine

open Files

namespace Utility

/-! ## Expressions -/

namespace Expression

/-- What is wrong with an expression. -/
inductive Mistake where
  | missingArgument (before : String)
  | unexpectedArgument (text : String)
  | missingClosing (before : String)
  | unexpectedClosing
  | notInteger
  | divisionByZero
  | badPattern (m : Regex.Mistake)

/-- The wording of a mistake. -/
def Mistake.message : Mistake → String
  | .missingArgument before => "syntax error: missing argument after " ++ quoted before
  | .unexpectedArgument text => "syntax error: unexpected argument " ++ quoted text
  | .missingClosing before => "syntax error: expecting \x27)\x27 after " ++ quoted before
  | .unexpectedClosing => "syntax error: unexpected \x27)\x27"
  | .notInteger => "non-integer argument"
  | .divisionByZero => "division by zero"
  | .badPattern m => m.message

/-- The whole number that a text is. -/
def integer? (text : String) : Option Int :=
  match text.toList with
  | '-' :: rest => (natural? (String.ofList rest)).map fun n => -(n : Int)
  | _ => (natural? text).map Int.ofNat

/-- Does a value count as false? -/
def isFalse (text : String) : Bool :=
  text.isEmpty || (integer? text == some 0)

/-- The operators by how tightly they bind. -/
def levels : List (List String) :=
  [["|"], ["&"], ["<", "<=", "=", "==", "!=", ">=", ">"], ["+", "-"], ["*", "/", "%"], [":"]]

/-- What a pattern fits at the beginning of a text: its group, or its length. -/
def fit (text pattern : String) : Except Mistake String :=
  match Regex.ofText false pattern with
  | .error m => .error (.badPattern m)
  | .ok r =>
    let hasGroup := (pattern.toList.zip (pattern.toList.drop 1)).contains ('\\', '(')
    let found := r.search false (fun p _ => p.position == 0) text.toList 0
    match found with
    | none => .ok (if hasGroup then "" else "0")
    | some f =>
      if hasGroup then match f.groups.lookup 1 with
        | some (start, stop) => .ok (String.ofList ((text.toList.drop start).take (stop - start)))
        | none => .ok ""
      else .ok (toString f.stop)

/-- Calculate with two values. -/
def calculate (op a b : String) : Except Mistake String :=
  let ordered (o : Ordering) : Bool := match op with
    | "<" => o == .lt
    | "<=" => o != .gt
    | ">" => o == .gt
    | ">=" => o != .lt
    | "!=" => o != .eq
    | _ => o == .eq
  match op with
  | "|" => .ok (if !isFalse a then a else if !isFalse b then b else "0")
  | "&" => .ok (if isFalse a || isFalse b then "0" else a)
  | ":" => fit a b
  | "+" | "-" | "*" | "/" | "%" => match integer? a, integer? b with
    | some m, some n => match op with
      | "+" => .ok (toString (m + n))
      | "-" => .ok (toString (m - n))
      | "*" => .ok (toString (m * n))
      | "/" => if n = 0 then .error .divisionByZero else .ok (toString (Int.tdiv m n))
      | _ => if n = 0 then .error .divisionByZero else .ok (toString (Int.tmod m n))
    | _, _ => .error .notInteger
  | _ =>
    let o := match integer? a, integer? b with
      | some m, some n => compare m n
      | _, _ => compare a b
    .ok (if ordered o then "1" else "0")

/-- The value at the beginning of some arguments, and the arguments after it; `before` is the
argument before them.  At level zero there are operators of all kinds, behind the last level only
single values. -/
def evaluateGo : Nat → List (List String) → String → List String →
    Except Mistake (String × String × List String)
  | 0, _, before, _ => .error (.missingArgument before)
  | _ + 1, [], before, [] => .error (.missingArgument before)
  | fuel + 1, [], _, a :: rest =>
    match a, rest with
    | "(", rest => do
      let (value, before, rest) ← evaluateGo fuel levels a rest
      match rest with
      | ")" :: rest => .ok (value, ")", rest)
      | _ => .error (.missingClosing before)
    | ")", _ => .error .unexpectedClosing
    | "+", b :: rest => .ok (b, b, rest)
    | "+", [] => .error (.missingArgument a)
    | "length", rest => do
      let (value, before, rest) ← evaluateGo fuel [] a rest
      .ok (toString value.length, before, rest)
    | "match", rest => do
      let (text, before, rest) ← evaluateGo fuel [] a rest
      let (pattern, before, rest) ← evaluateGo fuel [] before rest
      .ok (← fit text pattern, before, rest)
    | "index", rest => do
      let (text, before, rest) ← evaluateGo fuel [] a rest
      let (set, before, rest) ← evaluateGo fuel [] before rest
      let place := (text.toList.findIdx? fun c => set.toList.contains c).elim 0 (· + 1)
      .ok (toString place, before, rest)
    | "substr", rest => do
      let (text, before, rest) ← evaluateGo fuel [] a rest
      let (start, before, rest) ← evaluateGo fuel [] before rest
      let (count, before, rest) ← evaluateGo fuel [] before rest
      let part := match integer? start, integer? count with
        | some (.ofNat (s + 1)), some (.ofNat n) => (text.toList.drop s).take n
        | _, _ => []
      .ok (String.ofList part, before, rest)
    | a, rest => .ok (a, a, rest)
  | fuel + 1, ops :: tighter, before, args => do
    let (first, before, rest) ← evaluateGo fuel tighter before args
    evaluateMore fuel ops tighter first before rest
where
  /-- Go on with operators of one level. -/
  evaluateMore : Nat → List String → List (List String) → String → String → List String →
      Except Mistake (String × String × List String)
    | 0, _, _, _, before, _ => .error (.missingArgument before)
    | _ + 1, _, _, first, before, [] => .ok (first, before, [])
    | fuel + 1, ops, tighter, first, before, op :: rest =>
      if ops.contains op then do
        let (second, before, rest) ← evaluateGo fuel tighter op rest
        evaluateMore fuel ops tighter (← calculate op first second) before rest
      else .ok (first, before, op :: rest)

/-- The value of an expression. -/
def evaluate (args : List String) : Except Mistake String := do
  let (value, _, rest) ← evaluateGo (20 * args.length + 20) levels "" args
  match rest with
  | [] => .ok value
  | a :: _ => .error (.unexpectedArgument a)

end Expression

/-- Print the value of an expression. -/
def expr : Utility := fun args =>
  let args := if args.head? = some "--" then args.drop 1 else args
  if args.isEmpty then misuse "expr" "missing operand" 2
  else match Expression.evaluate args with
    | .ok value => do
      say "expr" (value ++ "\n")
      pure (if Expression.isFalse value then 1 else 0)
    | .error m => do
      object "expr" m.message
      pure 2

/-! ## Who and where -/

/-- Print nothing, with an exit code. -/
def silent (code : Nat) : Utility := fun _ => pure code

/-- Print one line. -/
def telling (name text : String) : Utility := withOptions name {} fun _ => do
  say name (text ++ "\n")
  pure 0

/-- Print who runs the program. -/
def identify : Utility := withOptions "id"
    { flags := "ugGnrzZ", words := [("user", 'u'), ("group", 'g'), ("groups", 'G'),
        ("name", 'n'), ("real", 'r')] } fun g => do
  say "id" ((if g.has 'u' || g.has 'g' || g.has 'G' then (if g.has 'n' then "root" else "0")
    else "uid=0(root) gid=0(root) groups=0(root)") ++ "\n")
  pure 0

/-- Print what machine it is. -/
def uname : Utility := withOptions "uname"
    { flags := "asnrvmpio", words := [("all", 'a'), ("kernel-name", 's'), ("nodename", 'n'),
        ("kernel-release", 'r'), ("kernel-version", 'v'), ("machine", 'm'),
        ("operating-system", 'o')] } fun g => do
  let parts := [('s', "Linux"), ('n', "localhost"), ('r', "6.0.0"), ('v', "#1 SMP"),
    ('m', "x86_64"), ('p', "x86_64"), ('i', "x86_64"), ('o', "GNU/Linux")]
  let asked := if g.has 'a' then parts
    else if g.options.isEmpty then parts.take 1
    else parts.filter fun e => g.has e.1
  say "uname" (String.intercalate " " (asked.map (·.2)) ++ "\n")
  pure 0

/-- Say that there is no terminal. -/
def tty : Utility := withOptions "tty" { flags := "s", words := [("silent", 's'),
    ("quiet", 's')] } (fun g => do
  if !g.has 's' then say "tty" "not a tty\n"
  pure 1) 2

/-- Print how many processors there are. -/
def nproc : Utility := telling "nproc" "1"

/-! ## The date -/

/-- The names of the months. -/
def monthNames : List String :=
  ["January", "February", "March", "April", "May", "June", "July", "August", "September",
    "October", "November", "December"]

/-- The names of the days of a week. -/
def dayNames : List String :=
  ["Sunday", "Monday", "Tuesday", "Wednesday", "Thursday", "Friday", "Saturday"]

/-- When the machine was started, in seconds. -/
def startSecond : Nat := 1700000000

/-- A date as a format says. -/
def dateText (seconds : Int) (nanoseconds : Nat) : Nat → List Char → String
  | 0, _ | _, [] => ""
  | fuel + 1, '%' :: c :: rest =>
    let days := seconds / 86400
    let (year, month, day) := Timestamp.dateOfDays days
    let second := (seconds % 86400).toNat
    let weekday := ((days + 4) % 7).toNat
    let yearDay := (days - Timestamp.daysOfDate year 1 1 + 1).toNat
    let two (n : Nat) : String := Timestamp.padded 2 n
    let hour := second / 3600
    let more (text : String) : String := text ++ dateText seconds nanoseconds fuel rest
    let again (format : String) : String :=
      dateText seconds nanoseconds fuel (format.toList ++ rest)
    match c with
    | 'Y' => more (toString year)
    | 'C' => more (two (year / 100).toNat)
    | 'y' => more (two (year % 100).toNat)
    | 'm' => more (two month)
    | 'd' => more (two day)
    | 'e' => more (rightColumn (toString day))
    | 'H' => more (two hour)
    | 'I' => more (two ((hour + 11) % 12 + 1))
    | 'M' => more (two (second / 60 % 60))
    | 'S' => more (two (second % 60))
    | 'N' => more (Timestamp.padded 9 nanoseconds)
    | 's' => more (toString seconds)
    | 'j' => more (Timestamp.padded 3 yearDay)
    | 'u' => more (toString (if weekday = 0 then 7 else weekday))
    | 'w' => more (toString weekday)
    | 'a' => more (String.ofList ((dayNames.getD weekday "").toList.take 3))
    | 'A' => more (dayNames.getD weekday "")
    | 'b' | 'h' => more (String.ofList ((monthNames.getD (month - 1) "").toList.take 3))
    | 'B' => more (monthNames.getD (month - 1) "")
    | 'p' => more (if hour < 12 then "AM" else "PM")
    | 'P' => more (if hour < 12 then "am" else "pm")
    | 'z' => more "+0000"
    | 'Z' => more "UTC"
    | 'n' => more "\n"
    | 't' => more "\t"
    | '%' => more "%"
    | 'F' => again "%Y-%m-%d"
    | 'T' => again "%H:%M:%S"
    | 'R' => again "%H:%M"
    | 'D' => again "%m/%d/%y"
    | 'c' => again "%a %b %e %H:%M:%S %Y"
    | 'x' => again "%m/%d/%y"
    | 'X' => again "%H:%M:%S"
    | 'r' => again "%I:%M:%S %p"
    | '-' => match rest with
      | d :: rest =>
        let text := dateText seconds nanoseconds fuel ['%', d]
        let bare := text.toList.dropWhile fun c => c = '0' || c = ' '
        (if bare.isEmpty then "0" else String.ofList bare) ++
          dateText seconds nanoseconds fuel rest
      | [] => "%-"
    | c => more ("%" ++ String.singleton c)
  | fuel + 1, c :: rest => String.singleton c ++ dateText seconds nanoseconds fuel rest
where
  /-- A number of one or two digits in a column of two. -/
  rightColumn (text : String) : String := if text.length < 2 then " " ++ text else text

/-- The instant that a text names. -/
def instant? (now : Int × Nat) (text : String) : Option (Int × Nat) :=
  match text.toList with
  | '@' :: rest => (Expression.integer? (String.ofList rest)).map fun n => (n, 0)
  | _ =>
    if text = "now" || text.isEmpty then some now
    else
      let full := if text.length = 10 then text ++ "T00:00:00Z"
        else if text.endsWith "Z" then text
        else if text.endsWith " UTC" then String.ofList (text.toList.take (text.length - 4)) ++ "Z"
        else text ++ "Z"
      match Timestamp.ofString full with
      | .ok t => some (t.seconds, t.nanoseconds)
      | .error _ => none

/-- Print a date. -/
def date : Utility := withOptions "date"
    { flags := "uR", valued := "dIrs", words := [("date", 'd'), ("utc", 'u'),
        ("universal", 'u'), ("reference", 'r')] } fun g => do
  let clock := (← Course.look).clock
  let now : Int × Nat := ((startSecond + clock / 1000000 : Nat), clock % 1000000 * 1000)
  match (g.value? 'd').elim (some now) (instant? now) with
  | none =>
    object "date" ("invalid date " ++ quoted ((g.value? 'd').getD ""))
    pure 1
  | some (seconds, nanoseconds) => match g.operands with
    | [] =>
      let format := if g.has 'R' then "%a, %d %b %Y %H:%M:%S %z" else "%a %b %e %H:%M:%S %Z %Y"
      say "date" (dateText seconds nanoseconds 1000 format.toList ++ "\n")
      pure 0
    | a :: _ => match a.toList with
      | '+' :: format =>
        say "date" (dateText seconds nanoseconds (20 * format.length + 20) format ++ "\n")
        pure 0
      | _ =>
        object "date" ("invalid date " ++ quoted a)
        pure 1

/-! ## Differences between files -/

/-- Where two texts differ first: the byte and the line, or which one is shorter. -/
def firstDifference : Nat → Nat → List Char → List Char → Option (Nat × Nat × Bool)
  | _, _, [], [] => none
  | byte, line, [], _ => some (byte, line, true)
  | byte, line, _, [] => some (byte, line, true)
  | byte, line, a :: as, b :: bs =>
    if a = b then firstDifference (byte + 1) (if a = '\n' then line + 1 else line) as bs
    else some (byte, line, false)

/-- Say whether two files differ. -/
def cmp : Utility := withOptions "cmp"
    { flags := "bls", valued := "in", words := [("silent", 's'), ("quiet", 's')] } (fun g => do
  match g.operands with
  | [] => misuse "cmp" "missing operand after \x27cmp\x27" 2
  | a :: rest =>
    let b := rest.headD "-"
    match ← Course.readFile a with
    | .error fault =>
      if !g.has 's' then object "cmp" (a ++ ": " ++ fault.reason)
      pure 2
    | .ok as => match ← Course.readFile b with
      | .error fault =>
        if !g.has 's' then object "cmp" (b ++ ": " ++ fault.reason)
        pure 2
      | .ok bs => match firstDifference 1 1 (textOf as).toList (textOf bs).toList with
        | none => pure 0
        | some (byte, line, isEnd) =>
          if !g.has 's' then
            if isEnd then
              let (shorter, n) := if as.length < bs.length then (a, as) else (b, bs)
              object "cmp" ("EOF on " ++ shorter ++ (if n.isEmpty then " which is empty"
                else " after byte " ++ toString n.length ++
                  (if n.getLast? = some lineFeed then ", line " ++ toString (line - 1)
                    else ", in line " ++ toString line)))
            else say "cmp" (a ++ " " ++ b ++ " differ: byte " ++ toString byte ++ ", line " ++
              toString line ++ "\n")
          pure 1) 2

/-- For every beginning of the first lines and all of the second, the length of the longest row
that ends of both have in common; the rows of a table from the last line on. -/
def commonTable (as bs : List String) : List (List Nat) :=
  as.foldr (fun a rows =>
    let below := rows.headD []
    let row := ((bs.zip (below.zip (below.drop 1))).foldr (fun (b, here, right) row =>
      (if a = b then right + 1 else max here (row.headD 0)) :: row) [0])
    row :: rows) [List.replicate (bs.length + 1) 0]

/-- How one list of lines becomes another: what is kept, taken away and put in. -/
inductive Edit where
  | keep
  | takeAway
  | putIn
deriving DecidableEq

/-- The edits that make one list of lines from another with as few lines as possible. -/
def editsOf : Nat → List (List Nat) → List String → List String → List Edit
  | 0, _, _, _ => []
  | _ + 1, _, [], bs => bs.map fun _ => .putIn
  | _ + 1, _, as, [] => as.map fun _ => .takeAway
  | fuel + 1, rows, a :: as, b :: bs =>
    let shifted := rows.map (List.drop 1)
    if a = b then .keep :: editsOf fuel (shifted.drop 1) as bs
    else
      let down := ((rows.getD 1 []).headD 0)
      let right := ((rows.headD []).getD 1 0)
      if right ≤ down then .takeAway :: editsOf fuel (rows.drop 1) as (b :: bs)
      else .putIn :: editsOf fuel shifted (a :: as) bs

/-- Changes between two lists of lines: where each begins in both, and how many lines go and
come. -/
def changesOf (edits : List Edit) : List (Nat × Nat × Nat × Nat) :=
  let step (acc : Nat × Nat × List (Nat × Nat × Nat × Nat) × Bool) (e : Edit) :
      Nat × Nat × List (Nat × Nat × Nat × Nat) × Bool :=
    let (i, j, changes, isOpen) := acc
    match e with
    | .keep => (i + 1, j + 1, changes, false)
    | .takeAway => match isOpen, changes with
      | true, (a, m, b, n) :: more => (i + 1, j, (a, m + 1, b, n) :: more, true)
      | _, changes => (i + 1, j, (i, 1, j, 0) :: changes, true)
    | .putIn => match isOpen, changes with
      | true, (a, m, b, n) :: more => (i, j + 1, (a, m, b, n + 1) :: more, true)
      | _, changes => (i, j + 1, (i, 0, j, 1) :: changes, true)
  (edits.foldl step (0, 0, [], false)).2.2.1.reverse

/-- A range of lines as it is written. -/
def rangeText (start count : Nat) : String :=
  if count = 0 then toString start
  else if count = 1 then toString (start + 1)
  else toString (start + 1) ++ "," ++ toString (start + count)

/-- The changes between two lists of lines in the usual form. -/
def changesText (as bs : List String) (changes : List (Nat × Nat × Nat × Nat)) : String :=
  String.join (changes.map fun (i, m, j, n) =>
    let letter := if m = 0 then "a" else if n = 0 then "d" else "c"
    rangeText i m ++ letter ++ rangeText j n ++ "\n" ++
      String.join (((as.drop i).take m).map fun l => "< " ++ l ++ "\n") ++
      (if m != 0 && n != 0 then "---\n" else "") ++
      String.join (((bs.drop j).take n).map fun l => "> " ++ l ++ "\n"))

/-- Say how two files differ. -/
def diff : Utility := withOptions "diff"
    { flags := "qsbwiBrNau", valued := "U", words := [("brief", 'q'),
        ("report-identical-files", 's')] } (fun g => do
  match g.operands with
  | [a, b] =>
    let v ← Course.look
    let named (x other : String) : String :=
      if v.hasFolder x && !v.hasFolder other then x ++ "/" ++ lastName other else x
    let (a, b) := (named a b, named b a)
    match ← Course.readFile a, ← Course.readFile b with
    | .ok x, .ok y =>
      if x = y then
        if g.has 's' then say "diff" ("Files " ++ a ++ " and " ++ b ++ " are identical\n")
        pure 0
      else
        let as := linesOf (textOf x)
        let bs := linesOf (textOf y)
        if g.has 'q' then say "diff" ("Files " ++ a ++ " and " ++ b ++ " differ\n")
        else say "diff" (changesText as bs (changesOf
          (editsOf (as.length + bs.length + 1) (commonTable as bs) as bs)))
        pure 1
    | x, y =>
      let complain (path : String) (result : Except Fault Bytes) : Course Unit :=
        match result with
        | .ok _ => pure ()
        | .error fault => object "diff" (path ++ ": " ++ fault.reason)
      complain a x
      complain b y
      pure 2
  | [] => misuse "diff" "missing operand after \x27diff\x27" 2
  | [a] => misuse "diff" ("missing operand after " ++ quoted a) 2
  | _ :: _ :: c :: _ => misuse "diff" ("extra operand " ++ quoted c) 2) 2

end Utility

end FolderTasks.Machine
