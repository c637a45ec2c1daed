import FolderTasks.Shell.Builtin
/-!
# Reading lines into parameters

A line is read byte by byte, so that what comes after it is left to others.  Its fields go to
parameters, the last of which gets all that is left.

## Main definitions

* `Shell.splitLine`: the fields of a line.
* `Shell.readInto`, `Shell.readLines`: the commands that read.
-/

namespace FolderTasks.Shell

open Files Machine

/-- Characters of a line, each with whether a backslash stands before it. -/
abbrev Marked := List (Char × Bool)

/-- The characters of a line, in which backslashes keep what follows them from separating
fields. -/
def unescaped : List Char → Marked
  | '\\' :: '\n' :: rest => unescaped rest
  | '\\' :: c :: rest => (c, true) :: unescaped rest
  | ['\\'] => []
  | c :: rest => (c, false) :: unescaped rest
  | [] => []

/-- Does a character separate fields as a blank? -/
def isBlankIn (separators : List Char) (c : Char × Bool) : Bool :=
  !c.2 && separators.contains c.1 && (c.1 = ' ' || c.1 = '\t' || c.1 = '\n')

/-- Does a character separate fields? -/
def separatesIn (separators : List Char) (c : Char × Bool) : Bool :=
  !c.2 && separators.contains c.1

/-- A field and what comes after it and the separator at its end. -/
def splitField (separators : List Char) (cs : Marked) : Marked × Marked :=
  let field := cs.takeWhile (!separatesIn separators ·)
  let after := (cs.drop field.length).dropWhile (isBlankIn separators)
  match after with
  | c :: rest =>
    if separatesIn separators c then (field, rest.dropWhile (isBlankIn separators))
    else (field, after)
  | [] => (field, [])

/-- The fields of a line: as many as are asked for, the last with all that is left. -/
def splitLine (separators : List Char) : Nat → Marked → List String
  | 0, _ => []
  | 1, cs =>
    let cs := cs.dropWhile (isBlankIn separators)
    let cs := (cs.reverse.dropWhile (isBlankIn separators)).reverse
    let (field, rest) := splitField separators cs
    [String.ofList ((if rest.isEmpty then field else cs).map (·.1))]
  | n + 2, cs =>
    let (field, rest) := splitField separators (cs.dropWhile (isBlankIn separators))
    String.ofList (field.map (·.1)) :: splitLine separators (n + 1) rest

/-- How a line is read. -/
structure LineForm where
  channel : Nat := 0
  delimiter : UInt8 := lineFeed
  /-- Do backslashes stand for themselves? -/
  isRaw : Bool := false
  /-- The greatest number of bytes. -/
  limit : Option Nat := none

/-- Read a line; the answer says whether it is complete. -/
def readLineGo (f : LineForm) : Nat → Bool → Bytes → Course (Bytes × Bool)
  | 0, _, before => pure (before.reverse, false)
  | fuel + 1, isEscaped, before => do
    if f.limit.any (· ≤ before.length) then pure (before.reverse, true)
    else match ← Course.read f.channel 1 with
      | .ok [b] =>
        if b = f.delimiter && !isEscaped then pure (before.reverse, true)
        else readLineGo f fuel (b = 92 && !isEscaped && !f.isRaw) (b :: before)
      | _ => pure (before.reverse, false)

/-- Read a line; the answer says whether it is complete. -/
def readLine (f : LineForm) : Course (Bytes × Bool) := readLineGo f Course.manyReads false []

/-- Refuse to set a parameter that has no proper name. -/
def demandName (name : String) : Work Unit := do
  if !isName name then match (← get).dialect with
    | .basic => Work.refuse (name ++ ": bad variable name")
    | .extended => Work.refuse ("\x60" ++ name ++ "\x27: not a valid identifier") 1

/-- Set an array to some elements. -/
def setArray (name : String) (values : List String) : Work Unit := do
  demandChangeable name
  modify fun s => s.change name fun p =>
    { p with value := some (.array (values.zipIdx.map fun (v, i) => (i, v))) }

/-- The letters of options with their values, and the arguments after them. -/
def valuedOptions (flags valued : String) (args : List String) :
    Work (Options.Given × List String) := do
  match Options.read { flags, valued, isStrict := true } args with
  | .ok g => pure (g, g.operands)
  | .error m => do
    match (← get).dialect, m with
    | .basic, .withoutValue c => Work.refuse ("No arg for -" ++ String.singleton c ++ " option")
    | .basic, .unknownLetter c => Work.refuse ("Illegal option -" ++ String.singleton c)
    | .extended, .withoutValue c =>
      Work.refuse ("-" ++ String.singleton c ++ ": option requires an argument")
    | .extended, .unknownLetter c => Work.refuse ("-" ++ String.singleton c ++ ": invalid option")
    | .basic, _ => Work.refuse "Illegal option --"
    | .extended, _ => Work.refuse "--: invalid option"

/-- Read a line into parameters. -/
def readInto : Builtin := fun args => do
  let extended := (← get).dialect = .extended
  let (g, names) ← if extended then valuedOptions "res" "adinNptu" args
    else valuedOptions "r" "p" args
  if names.isEmpty && !extended then Work.refuse "arg count"
  else
    let channel := ((g.value? 'u').bind natural?).getD 0
    if (((← (Course.look : Course View)).context.opened? channel).isNone) && extended then
      Work.refuse (toString channel ++ ": invalid file descriptor: Bad file descriptor") 1
    else
      let isRaw := g.has 'r'
      let delimiter := match (g.value? 'd').map bytesOf with
        | some (b :: _) => b
        | some [] => 0
        | none => lineFeed
      let limit := ((g.value? 'N').or (g.value? 'n')).bind natural?
      let delimited : LineForm := { channel, delimiter, isRaw, limit }
      let (bs, isWhole) ← (readLine delimited : Course (Bytes × Bool))
      let cs := (textOf (bs.filter (· != 0))).toList
      let marked : Marked := if isRaw then cs.map fun c => (c, false) else unescaped cs
      let s ← get
      match g.value? 'a' with
      | some name => do
        demandName name
        let count := marked.length + 1
        let fields := (splitLine s.separators count marked).reverse.dropWhile (· == "")
        setArray name fields.reverse
      | none =>
        if names.isEmpty then assign "REPLY" (String.ofList (marked.map (·.1)))
        else
          (names.zip (splitLine s.separators names.length marked)).forM fun (name, value) => do
            demandName name
            assign name value
      Work.done (if isWhole then 0 else 1)

/-- Read lines into an array. -/
def readLines : Builtin := fun args => do
  let (g, names) ← valuedOptions "t" "dnOsuCc" args
  let channel := ((g.value? 'u').bind natural?).getD 0
  match ← (Course.readAll channel : Course (Except Fault Bytes)) with
  | .error fault => Work.refuse ("read error: " ++ fault.reason) 1
  | .ok bs =>
    let text := textOf bs
    let isOpen := text.toList.getLast?.any (· != '\n')
    let lines := linesOf text
    let ended := lines.zipIdx.map fun (l, i) =>
      if g.has 't' || (isOpen && i + 1 = lines.length) then l else l ++ "\n"
    let kept := ended.drop (((g.value? 's').bind natural?).getD 0)
    let kept := match (g.value? 'n').bind natural? with
      | some (n + 1) => kept.take (n + 1)
      | _ => kept
    setArray (names.headD "MAPFILE") kept
    Work.done 0

/-- The command of a name, if it is one that reads. -/
def readingBuiltin? (d : Dialect) (name : String) : Option Builtin :=
  match name, d with
  | "read", _ => some readInto
  | "mapfile", .extended | "readarray", .extended => some readLines
  | _, _ => none

end FolderTasks.Shell
