import FolderTasks.Machine.Utility.Arranging
import FolderTasks.Machine.Utility.Printing
import FolderTasks.Shell.Redirecting
import FolderTasks.Shell.Usage
/-!
# Commands of the shell itself

The commands that end something, change the working folder, print or test something.

## Main definitions

* `Shell.Builtin`: a command of the shell itself.
* `Shell.isFirm`: the commands after whose misuse the shell gives up.
* `Shell.simpleBuiltin?`: the command of a name, if it is one of those.
-/

namespace FolderTasks.Shell

open Files Machine

/-- A command of the shell itself. -/
abbrev Builtin := List String → Work Unit

/-- Will the shell give up after a misuse of this command? -/
def isFirm (name : String) : Bool := firmNames.contains name

/-- The natural number that an argument spells, or a complaint. -/
def demandNumber (text : String) : Work Nat := do
  match natural? text with
  | some n => pure n
  | none => Work.refuse ("Illegal number: " ++ text)

/-- The letters of options at the beginning of some arguments, and the arguments after them; an
option that is not known is refused. -/
def letterOptions (known : String) : List String → Work (List Char × List String)
  | [] => pure ([], [])
  | a :: rest => match a.toList with
    | ['-', '-'] => pure ([], rest)
    | '-' :: c :: cs => do
      match (c :: cs).find? fun c => !known.toList.contains c with
      | some c =>
        let letter := String.singleton c
        match (← get).dialect with
        | .basic => Work.refuse ("Illegal option -" ++ letter)
        | .extended => do
          let name := (← get).command.getD ""
          Work.complain ("-" ++ letter ++ ": invalid option")
          if let some usage := usageOf? name then
            Course.complain (name ++ ": usage: " ++ usage)
          Work.done 2
          throw .refused
      | none =>
        let (more, rest) ← letterOptions known rest
        pure (c :: cs ++ more, rest)
    | _ => pure ([], a :: rest)

/-- Print a text; if that is not possible, complain and fail. -/
def say (text : String) : Work Unit := do
  match ← (Course.write 1 (bytesOf text) : Course (Except Fault Unit)) with
  | .ok () => Work.done 0
  | .error fault => do
    let s ← get
    Work.complain (match s.dialect with
      | .basic => s.command.getD "" ++ ": I/O error"
      | .extended => "write error: " ++ fault.reason)
    Work.done 1

/-! ## Printing and testing -/

/-- How programs that the shell has within itself complain and print. -/
def withinShell (s : State) : Utility.Flavour :=
  match s.dialect with
  | .basic =>
    { caller := fun _ => s.caller
      writeFault := fun name _ => name ++ ": I/O error"
      wording := fun
        | .notNumeric arg => arg ++ ": expected numeric value"
        | .notCompletely arg => arg ++ ": not completely converted"
        | .badDirective text => "%" ++ text ++ ": invalid directive"
        | .noForm => "missing format character"
      fatalCode := 2
      withoutFormat := ("usage: printf format [arg ...]", 2)
      conditionWording := fun _ c => match c with
        | .illegalNumber text => "Illegal number: " ++ text
        | .argumentExpected none => "argument expected"
        | .argumentExpected (some operator) => operator ++ ": argument expected"
        | .closingExpected => "closing paren expected"
        | .unexpectedOperator text => text ++ ": unexpected operator"
      isLenient := true
      closing := "]"
      format := ⟨⟨false, false⟩, 53, false⟩
      echoesEscapes := true }
  | .extended =>
    { caller := fun _ => s.caller
      writeFault := fun _ fault => "write error: " ++ fault.reason
      wording := fun
        | .notNumeric arg | .notCompletely arg => arg ++ ": invalid number"
        | .badDirective text =>
          "\x60" ++ text.toList.getLast?.elim "" String.singleton ++ "\x27: invalid format character"
        | .noForm => "\x60%\x27: missing format character"
      fatalCode := 1
      withoutFormat := ("usage: printf [-v var] format [arguments]", 2)
      conditionWording := fun args c => match c with
        | .illegalNumber text => text ++ ": integer expression expected"
        | .argumentExpected none =>
          if args.length < 4 then Utility.operatorExpected args else "argument expected"
        | .closingExpected =>
          if args.length < 4 then Utility.operatorExpected args else "\x60)\x27 expected"
        | .argumentExpected (some _) | .unexpectedOperator _ => Utility.operatorExpected args
      closing := "\x60]\x27"
      format := ⟨⟨false, true⟩, 64, true⟩
      echoesEscapes := false }

/-- A program as a command of the shell. -/
def ofUtility (u : Utility.Flavour → Utility) : Builtin := fun args => do
  let s ← get
  Work.done (← (u (withinShell s) args : Course Nat))

/-- Print with a format, or set a parameter to what would be printed. -/
def printf : Builtin := fun args => do
  let s ← get
  let f := withinShell s
  match s.dialect, args with
  | .extended, "-v" :: name :: format :: args => do
    let r := Format.run f.format format args
    r.complaints.forM fun c => Work.complain (f.wording c)
    assign name (textOf r.bytes)
    Work.done (if r.complaints.isEmpty then 0 else 1)
  | .basic, args => do
    match args.head?.map String.toList with
    | some ('-' :: c :: _) =>
      if c = '-' then ofUtility Utility.printf args
      else Work.refuse ("Illegal option -" ++ String.singleton c)
    | _ => ofUtility Utility.printf args
  | .extended, args => ofUtility Utility.printf args

/-! ## Ends -/

/-- Exit with a status, or with that of the last command; in what is done on a signal, of the last
command before it. -/
def exitShell : Builtin := fun args => do
  let s ← get
  match args with
  | [] => Work.exit (s.statusBefore.getD s.status)
  | a :: _ => match s.dialect with
    | .basic => Work.exit ((← demandNumber a) % 256)
    | .extended => match Condition.integer? a with
      | some n => Work.exit (n % 256).toNat
      | none => do
        Work.complain (a ++ ": numeric argument required")
        Work.exit 2

/-- Return from a function or a script that was put in. -/
def returnFrom : Builtin := fun args => do
  let s ← get
  if s.dialect = .extended && s.frames.isEmpty && s.sources = 0 then
    Work.refuse "can only \x60return\x27 from a function or sourced script"
  match args with
  | [] => throw .returning
  | a :: _ => match s.dialect with
    | .basic => do
      Work.done (← demandNumber a)
      throw .returning
    | .extended => match Condition.integer? a with
      | some n => do
        Work.done (n % 256).toNat
        throw .returning
      | none => do
        Work.complain (a ++ ": numeric argument required")
        Work.done 2
        throw .returning

/-- End some loops; outside all loops this does nothing. -/
def leaveLoops (flow : Nat → Flow) : Builtin := fun args => do
  let s ← get
  if s.loops = 0 && s.dialect = .extended then
    Work.complain "only meaningful in a \x60for\x27, \x60while\x27, or \x60until\x27 loop"
    Work.done 0
  else
    let n ← match args with
      | [] => pure 1
      | a :: _ => match natural? a with
        | some (n + 1) => pure (n + 1)
        | _ => match s.dialect with
          | .basic => Work.refuse ("Illegal number: " ++ a)
          | .extended => do
            if (Condition.integer? a).isSome then
              Work.complain (a ++ ": loop count out of range")
              Work.done 1
              throw (.breaking s.loops)
            else
              Work.complain (a ++ ": numeric argument required")
              Work.exit 128
    Work.done 0
    if s.loops ≠ 0 then throw (flow (min n s.loops))

/-- Drop the first arguments. -/
def shift : Builtin := fun args => do
  let s ← get
  let n ← match args with
    | [] => pure 1
    | a :: _ => match s.dialect, natural? a with
      | _, some n => pure n
      | .basic, none => Work.refuse ("Illegal number: " ++ a)
      | .extended, none =>
        if (Condition.integer? a).isSome then Work.refuse (a ++ ": shift count out of range") 1
        else Work.refuse (a ++ ": numeric argument required") 1
  if s.arguments.length < n then match s.dialect with
    | .basic => Work.refuse "can\x27t shift that many"
    | .extended => Work.done 1
  else
    set { s with arguments := s.arguments.drop n, status := 0 }

/-! ## The working folder -/

/-- The path that comes of following another one by its text alone. -/
def logicalPath (here path : String) : String :=
  let start := if isAbsolute path then [] else (pathSegments here).filter (· != "")
  let segments := (pathSegments path).foldl (fun (before : List String) s =>
    if s = "" || s = "." then before
    else if s = ".." then before.tail
    else s :: before) start.reverse
  let beginning := match path.toList with
    | '/' :: '/' :: '/' :: _ => "/"
    | '/' :: '/' :: _ => "//"
    | '/' :: _ => "/"
    | _ => if here.toList.take 2 = ['/', '/'] then "//" else "/"
  beginning ++ String.intercalate "/" segments.reverse

/-- Change the working folder to that of a path, if there is one. -/
def enter (isPhysical : Bool) (path : String) : Work (Except Fault Unit) := do
  let s ← get
  let target := if isPhysical then path else logicalPath s.here path
  let v ← (Course.look : Course View)
  match v.find target with
  | .error fault => pure (.error fault)
  | .ok spot =>
    if v.store.volume.isFolder spot.node then
      (Course.changeContext fun c => { c with here := spot } : Course Unit)
      let here := if isPhysical then spot.path else target
      let exporting (s : State) (name value : String) : State :=
        (s.set name value).change name fun p => { p with isExported := true }
      set (exporting (exporting { s with here } "OLDPWD" s.here) "PWD" here)
      pure (.ok ())
    else pure (.error .notDirectory)

/-- The paths that are tried for a target, each with whether it is shown. -/
def foldersTried (s : State) (target : String) : List (String × Bool) :=
  let isPlain := match target.toList with
    | '/' :: _ | ['.'] | '.' :: '/' :: _ | ['.', '.'] | '.' :: '.' :: '/' :: _ => true
    | _ => false
  match if isPlain then none else s.value? "CDPATH" with
  | none => [(target, false)]
  | some path => ((path.toList.splitOn ':').map fun folder =>
      if folder.isEmpty then (target, false)
      else (String.ofList folder ++ "/" ++ target, true)) ++ [(target, false)]

/-- Change the working folder. -/
def changeFolder : Builtin := fun args => do
  let (options, args) ← if args.head? = some "-" then pure ([], args)
    else letterOptions "LPe@" args
  let s ← get
  let isPhysical := options.getLast? == some 'P'
  let extended := s.dialect = .extended
  if extended && 1 < args.length then
    Work.refuse "too many arguments" 1
  else
    let (target, isShown) ← match args with
      | [] => match s.value? "HOME" with
        | some home => pure (home, false)
        | none => if extended then Work.refuse "HOME not set" 1 else pure ("", false)
      | "-" :: _ => match s.value? "OLDPWD" with
        | some old => pure (old, true)
        | none => if extended then Work.refuse "OLDPWD not set" 1 else pure ("", true)
      | a :: _ => pure (a, false)
    let target := if target.isEmpty then "." else target
    let v ← (Course.look : Course View)
    let tried := (foldersTried s target).find? fun (path, _) =>
      v.hasFolder (if isPhysical then path else logicalPath s.here path)
    let (path, isElsewhere) := tried.getD (target, false)
    match ← enter isPhysical path with
    | .ok () =>
      if isShown || isElsewhere then say ((← get).here ++ "\n") else Work.done 0
    | .error fault =>
      if extended then
        Work.refuse (target ++ ": " ++ fault.reason) 1
      else Work.refuse ("can\x27t cd to " ++ target)

/-- Print the path of the working folder. -/
def printFolder : Builtin := fun args => do
  let (options, _) ← letterOptions "LP" args
  if options.getLast? = some 'P' then
    say ((← (Course.look : Course View)).context.here.path ++ "\n")
  else say ((← get).here ++ "\n")

/-! ## Limits -/

/-- Four octal digits, or three for those that have no more. -/
def maskText (mask : Nat) : String :=
  let digits := Nat.toDigits 8 mask
  String.ofList (List.replicate (4 - digits.length) '0' ++ digits)

/-- A mode in letters for all owners. -/
def maskLetters (mask : Nat) : String :=
  let mode := Utility.Mode.without 0o777 mask
  let row (n : Nat) : String :=
    (if n &&& 4 != 0 then "r" else "") ++ (if n &&& 2 != 0 then "w" else "") ++
      (if n &&& 1 != 0 then "x" else "")
  "u=" ++ row (mode >>> 6 % 8) ++ ",g=" ++ row (mode >>> 3 % 8) ++ ",o=" ++ row (mode % 8)

/-- Print or set what nobody may do with new files. -/
def setMask : Builtin := fun args => do
  let s ← get
  let (options, args) ← letterOptions (if s.dialect = .extended then "Sp" else "S") args
  let context := (← (Course.look : Course View)).context
  match args with
  | [] =>
    let text := if options.contains 'S' then maskLetters context.mask else maskText context.mask
    say ((if options.contains 'p' then "umask " else "") ++ text ++ "\n")
  | a :: _ =>
    if a.toList.head?.any Char.isDigit then
      if a.toList.all fun c => '0' ≤ c && c ≤ '7' then
        let n := a.toList.foldl (fun n c => n * 8 + (c.toNat - 48)) 0
        (Course.changeContext fun c => { c with mask := n % 512 } : Course Unit)
        Work.done 0
      else match s.dialect with
        | .basic => Work.refuse ("Illegal number: " ++ a)
        | .extended => Work.refuse (a ++ ": octal number out of range") 1
    else match Utility.Mode.ofText? a context.mask true (Utility.Mode.without 0o777 context.mask) with
      | some mode => do
        (Course.changeContext fun c =>
          { c with mask := Utility.Mode.without 0o777 mode } : Course Unit)
        Work.done 0
      | none => match s.dialect with
        | .basic => Work.refuse ("Illegal mode: " ++ a)
        | .extended => Work.refuse ("\x60" ++ String.ofList (a.toList.take 1) ++
            "\x27: invalid symbolic mode character") 1

/-- Print or set limits, of which none is ever reached. -/
def setLimit : Builtin := fun args => do
  let (options, args) ← letterOptions "HSatfdscmlpnvwriexbqu" args
  if options.contains 'a' then say ""
  else match args with
    | [] => say (if options.contains 'n' then "1048576\n"
        else if options.contains 's' then "8192\n" else "unlimited\n")
    | a :: _ =>
      if a = "unlimited" || (natural? a).isSome || a = "hard" || a = "soft" then Work.done 0
      else match (← get).dialect with
        | .basic => Work.refuse "bad number"
        | .extended => Work.refuse (a ++ ": invalid number") 1

/-- The command of a name, if it is one that ends something, changes the working folder, prints
or tests. -/
def simpleBuiltin? (name : String) : Option Builtin :=
  match name with
  | ":" | "true" => some fun _ => Work.done 0
  | "false" => some fun _ => Work.done 1
  | "exit" => some exitShell
  | "return" => some returnFrom
  | "break" => some (leaveLoops .breaking)
  | "continue" => some (leaveLoops .continuing)
  | "shift" => some shift
  | "cd" => some changeFolder
  | "pwd" => some printFolder
  | "umask" => some setMask
  | "ulimit" => some setLimit
  | "times" => some fun _ => say "0m0.000000s 0m0.000000s\n0m0.000000s 0m0.000000s\n"
  | "echo" => some (ofUtility Utility.echo)
  | "printf" => some printf
  | "test" => some (ofUtility fun f => Utility.test f "test")
  | "[" => some (ofUtility Utility.bracket)
  | _ => none

end FolderTasks.Shell
