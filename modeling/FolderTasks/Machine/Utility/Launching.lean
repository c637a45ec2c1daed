import FolderTasks.Machine.Executable
import FolderTasks.Machine.Signal
import FolderTasks.Machine.Utility.Listing
/-!
# Programs that run others

They prepare something, the environment, the arguments or a time limit, and have another program
executed.

## Main definitions

* `Utility.runAside`: have a program executed and wait for its end.
* `Utility.env`, `Utility.timeout`, `Utility.xargs`, … : the programs.
-/

namespace FolderTasks.Machine

open Files

namespace Utility

/-- The exit code when a program cannot be executed. -/
def codeOf (fault : Fault) : Nat := if fault = .notFound then 127 else 126

/-- Become another program, or complain. -/
def becomeOr (run : Runner) (caller : String) (name : String) (args : List String) : Course Nat := do
  let fault ← Course.executeNamed run name args
  object caller (quoted name ++ ": " ++ fault.reason)
  pure (codeOf fault)

/-- Have a program executed, its channels and so on changed before, and wait for its end. -/
def runAside (run : Runner) (name : String) (args : List String)
    (describe : Fault → String) (prepare : Context → Context) : Course Ending := do
  let number ← Course.fork do
    Course.changeContext prepare
    let fault ← Course.executeNamed run name args
    Course.complain (describe fault)
    pure (.exited (codeOf fault))
  Course.join number

/-! ## The environment -/

/-- A name and, after an equals sign, a value. -/
def splitSetting (a : String) : String × Option String :=
  let cs := a.toList
  let name := cs.takeWhile (· != '=')
  (String.ofList name,
    if name.length < cs.length then some (String.ofList (cs.drop (name.length + 1))) else none)

/-- The settings at the beginning of some arguments, and the arguments after them. -/
def leadingSettings : List String → List (String × String) × List String
  | [] => ([], [])
  | a :: rest => match splitSetting a with
    | (name, some value) =>
      let (more, rest) := leadingSettings rest
      ((name, value) :: more, rest)
    | _ => ([], a :: rest)

/-- Set a variable in an environment, in its place if it is there. -/
def setVariable (environment : List (String × String)) (name value : String) :
    List (String × String) :=
  if (environment.lookup name).isSome then
    environment.map fun e => if e.1 = name then (name, value) else e
  else environment ++ [(name, value)]

/-- Run a program with a changed environment, or show the environment. -/
def env (run : Runner) : Utility := withOptions "env"
    { flags := "i0v", valued := "uCS", isStrict := true
      words := [("ignore-environment", 'i'), ("unset", 'u'), ("null", '0'), ("chdir", 'C'),
        ("split-string", 'S')] } (fun g => do
  let split := match g.value? 'S' with
    | some text => ((text.toList.splitOn ' ').map String.ofList).filter (!·.isEmpty)
    | none => []
  let operands := split ++ g.operands
  let (isFresh, operands) := if operands.head? = some "-" then (true, operands.drop 1)
    else (g.has 'i', operands)
  let (settings, command) := leadingSettings operands
  let unset := (g.options.filter fun o => o.1 == 'u').map (·.2)
  let change (old : List (String × String)) : List (String × String) :=
    settings.foldl (fun e (name, value) => setVariable e name value)
      ((if isFresh then [] else old).filter fun e => !unset.contains e.1)
  Course.changeContext fun c => { c with environment := change c.environment }
  let moved ← match g.value? 'C' with
    | none => pure none
    | some path => do
      match (← Course.look).find path with
      | .ok s =>
        if (← Course.look).store.volume.isFolder s.node then
          Course.changeContext fun c => { c with here := s }
          pure none
        else pure (some (path, Fault.notDirectory))
      | .error fault => pure (some (path, fault))
  match moved with
  | some (path, fault) =>
    object "env" ("cannot change directory to " ++ quoted path ++ ": " ++ fault.reason)
    pure 125
  | none => match command with
    | name :: args => becomeOr run "env" name args
    | [] =>
      let lineEnd := if g.has '0' then "\x00" else "\n"
      say "env" (String.join ((← Course.look).context.environment.map fun (name, value) =>
        name ++ "=" ++ value ++ lineEnd))
      pure 0) 125

/-- Print the values of variables, or the whole environment. -/
def printenv : Utility := withOptions "printenv"
    { flags := "0", isStrict := true, words := [("null", '0')] } (fun g => do
  let environment := (← Course.look).context.environment
  let lineEnd := if g.has '0' then "\x00" else "\n"
  if g.operands.isEmpty then
    say "printenv" (String.join (environment.map fun (name, value) =>
      name ++ "=" ++ value ++ lineEnd))
    pure 0
  else
    let values := g.operands.filterMap fun name => environment.lookup name
    say "printenv" (String.join (values.map (· ++ lineEnd)))
    pure (if values.length = g.operands.length then 0 else 1)) 2

/-! ## Limits -/

/-- Wait for the end of a process, and send it a signal when the alarm goes off. -/
def waitWithAlarm (child signal : Nat) : Nat → Course (Ending × Bool)
  | 0 => Course.spin
  | fuel + 1 => do
    match ← Course.await (some child) .watchful with
    | .ended _ e => pure (e, false)
    | .nobody => pure (.exited 127, false)
    | .interrupted =>
      let pending := (← Course.look).context.pending
      Course.changeContext fun c => { c with pending := [] }
      if pending.contains 14 then
        let _ ← Course.signal child signal
        let _ ← Course.signal 0 signal
        let (e, _) ← waitWithAlarm child 9 fuel
        pure (e, true)
      else
        pending.forM fun n => do let _ ← Course.signal child n
        waitWithAlarm child signal fuel

/-- Have an alarm go off after a while. -/
def startAlarm (time : Nat) : Course Nat := do
  let own := (← Course.look).context.number
  Course.fork do
    Course.changeContext fun c => { c with channels := [], group := c.number }
    Course.sleep time
    let _ ← Course.signal own 14
    pure (.exited 0)

/-- Run a program, but no longer than for a certain time. -/
def timeout (run : Runner) : Utility := withOptions "timeout"
    { flags := "fpv", valued := "ks", isStrict := true
      words := [("foreground", 'f'), ("preserve-status", 'p'), ("kill-after", 'k'),
        ("signal", 's'), ("verbose", 'v')] } (fun g => do
  let code := if g.has 'p' then none else some 124
  match g.operands with
  | limit :: name :: args =>
    match duration? limit, (g.value? 's').elim (some 15) Signal.ofText? with
    | none, _ => misuse "timeout" ("invalid time interval " ++ quoted limit) 125
    | _, none => misuse "timeout" (quoted ((g.value? 's').getD "") ++ ": invalid signal") 125
    | some time, some signal =>
      if !g.has 'f' then Course.changeContext fun c => { c with group := c.number }
      let child ← Course.fork do
        let fault ← Course.executeNamed run name args
        object "timeout" ("failed to run command " ++ quoted name ++ ": " ++ fault.reason)
        pure (.exited (codeOf fault))
      Course.changeContext fun c => { c with
        caught := [14, 15, 2, 1], ignored := signal :: 21 :: 22 :: c.ignored }
      Course.changeContext fun c => { c with
        caught := c.caught.filter (· != signal) }
      let alarm ← if time = 0 then pure none else do pure (some (← startAlarm time))
      let (e, isLate) ← waitWithAlarm child signal 100
      match alarm with
      | some number => do let _ ← Course.signal number 9
      | none => pure ()
      match e, isLate, code with
      | .killed 9, true, _ => killSelf 9
      | _, true, some code => pure code
      | .exited n, _, _ => pure n
      | .killed n, _, _ => if g.has 'p' || isLate then pure (128 + n) else killSelf n
  | _ => do
    Course.complain (adviceFor "timeout")
    pure 125) 125
where
  /-- End as if killed by a signal. -/
  killSelf (n : Nat) : Course Nat := Course.stop (.killed n)

/-- Run a program that does not mind when its terminal goes away. -/
def nohup (run : Runner) : Utility := fun args =>
  match args with
  | [] => misuse "nohup" "missing operand" 125
  | name :: args => do
    Course.changeContext fun c => { c with ignored := 1 :: c.ignored }
    let fault ← Course.executeNamed run name args
    object "nohup" ("failed to run command " ++ quoted name ++ ": " ++ fault.reason)
    pure (codeOf fault)

/-- Run a program that lets others go first. -/
def nice (run : Runner) : Utility := withOptions "nice"
    { valued := "n", isStrict := true, words := [("adjustment", 'n')] } (fun g =>
  match g.operands with
  | [] => do
    say "nice" "0\n"
    pure 0
  | name :: args => becomeOr run "nice" name args) 125

/-- Run a program in a group of its own. -/
def setsid (run : Runner) : Utility := withOptions "setsid"
    { flags := "cfw", isStrict := true } fun g => do
  Course.changeContext fun c => { c with group := c.number }
  match g.operands with
  | [] => misuse "setsid" "no command specified"
  | name :: args => becomeOr run "setsid" name args

/-- Run a program whose output goes by the line or otherwise. -/
def stdbuf (run : Runner) : Utility := withOptions "stdbuf"
    { valued := "ioe", isStrict := true } (fun g =>
  match g.operands with
  | [] => misuse "stdbuf" "missing operand" 125
  | name :: args => becomeOr run "stdbuf" name args) 125

/-! ## Arguments from the input -/

/-- The arguments in a text: blanks separate them, quotes and backslashes keep them together. -/
def inputArguments (current : Option (List Char)) : List Char → Except String (List String)
  | [] => .ok (current.toList.map fun cs => String.ofList cs.reverse)
  | c :: rest =>
    let begun := current.getD []
    if c = ' ' || c = '\t' || c = '\n' then do
      let more ← inputArguments none rest
      .ok ((current.toList.map fun cs => String.ofList cs.reverse) ++ more)
    else if c = '\\' then inputArguments (some (rest.take 1 ++ begun)) (rest.drop 1)
    else if c = '\x27' || c = '\x22' then
      let inside := rest.takeWhile fun d => d != c && d != '\n'
      if (rest.drop inside.length).head? = some c then
        inputArguments (some (inside.reverse ++ begun)) (rest.drop (inside.length + 1))
      else .error ("unmatched " ++ (if c = '\x27' then "single" else "double") ++
        " quote; by default quotes are special to xargs unless you use the -0 option")
    else inputArguments (some (c :: begun)) rest
termination_by cs => cs.length
decreasing_by all_goals simp only [List.length_drop, List.length_cons]; omega

/-- Rows of so many arguments. -/
def rowsOfSize {α : Type} (size : Nat) : Nat → List α → List (List α)
  | 0, _ | _, [] => []
  | fuel + 1, as => as.take size :: rowsOfSize size fuel (as.drop size)

/-- A text with another in the place of every mark. -/
def replaced (mark value : List Char) : Nat → List Char → List Char
  | 0, cs => cs
  | _, [] => []
  | fuel + 1, c :: cs =>
    if !mark.isEmpty && mark.isPrefixOf (c :: cs) then
      value ++ replaced mark value fuel ((c :: cs).drop mark.length)
    else c :: replaced mark value fuel cs

/-- The exit code of `xargs` after those of what it ran. -/
def combinedCode : List Ending → Nat
  | [] => 0
  | .exited 0 :: rest => combinedCode rest
  | .exited 255 :: _ => 124
  | .exited n :: rest =>
    if n = 126 || n = 127 then n else max 123 (combinedCode rest)
  | .killed _ :: _ => 125

/-- Run commands until one makes it pointless to go on. -/
def runRows (run : Runner) (prepare : Context → Context) (shows : Bool) :
    List (String × List String) → Course (List Ending)
  | [] => pure []
  | (name, args) :: rest => do
    if shows then Course.complain (String.intercalate " " (name :: args))
    let e ← runAside run name args (fun fault => "xargs: " ++ plainly name fault) prepare
    match e with
    | .exited 255 =>
      object "xargs" (name ++ ": exited with status 255; aborting")
      pure [e]
    | .killed n =>
      object "xargs" (name ++ ": terminated by signal " ++ toString n)
      pure [e]
    | .exited n =>
      if n = 126 || n = 127 then pure [e]
      else do pure (e :: (← runRows run prepare shows rest))

/-- Run a program with arguments from the input. -/
def xargs (run : Runner) : Utility := withOptions "xargs"
    { flags := "0rtpxo", valued := "nILPdaEs", isStrict := true
      words := [("null", '0'), ("no-run-if-empty", 'r'), ("verbose", 't'), ("max-args", 'n'),
        ("replace", 'I'), ("max-lines", 'L'), ("max-procs", 'P'), ("delimiter", 'd'),
        ("arg-file", 'a')] } fun g => do
  let command := if g.operands.isEmpty then ["echo"] else g.operands
  let name := command.headD "echo"
  let fixed := command.drop 1
  match ← Course.readFile ((g.value? 'a').getD "-") with
  | .error fault =>
    object "xargs" ("Cannot open input file " ++ quoted ((g.value? 'a').getD "-") ++ ": " ++
      fault.reason)
    pure 1
  | .ok bs =>
    let text := (textOf bs).toList
    let mark := (g.value? 'I').map String.toList
    let separator := if g.has '0' then some '\x00'
      else (g.value? 'd').map fun d => ((Escape.expand ⟨false, true⟩ d).1.head?.map fun b =>
        Char.ofNat b.toNat).getD '\n'
    let pieces : Except String (List String) := match separator, mark with
      | some c, _ =>
        let parts := text.splitOn c
        .ok ((if parts.getLast? = some [] then parts.dropLast else parts).map String.ofList)
      | none, some _ => do
        let ls := (linesOf (String.ofList text)).filter fun l => l.toList.any fun c => !isSpace c
        let args ← ls.mapM fun l => do
          let trimmed := l.toList.dropWhile isSpace
          let quotedBlanks := trimmed.flatMap fun c =>
            if c = ' ' || c = '\t' then ['\\', c] else [c]
          .ok ((← inputArguments none quotedBlanks).headD "")
        .ok args
      | none, none => inputArguments none text
    match pieces with
    | .error complaint =>
      object "xargs" complaint
      pure 1
    | .ok args =>
      let rows : List (String × List String) := match mark with
        | some m => args.map fun a =>
          let fill (t : String) : String :=
            String.ofList (replaced m a.toList (t.length + 1) t.toList)
          (fill name, fixed.map fill)
        | none =>
          let size := ((g.value? 'n').bind natural?).getD ((g.value? 'L').elim 5000
            fun l => (natural? l).getD 1)
          if args.isEmpty then (if g.has 'r' then [] else [(name, fixed)])
          else (rowsOfSize (max 1 size) args.length args).map fun row => (name, fixed ++ row)
      let endings ← runRows run (fun c => if (g.value? 'a').isSome then c
        else c.setChannel 0 none) (g.has 't') rows
      pure (combinedCode endings)

/-! ## Others -/

/-- Print where programs are found. -/
def which : Utility := withOptions "which" { flags := "as" } (fun g => do
  let v ← Course.look
  let places (name : String) : List String :=
    (candidates ((v.valueOf? "PATH").getD standardPath) name).filter fun path =>
      match v.nodeAt? path with
      | some n => Condition.isExecutable n && !v.hasFolder path
      | none => false
  let found := g.operands.map fun name => (places name).take (if g.has 'a' then 100 else 1)
  say "which" (unlines found.flatten)
  pure (if found.any List.isEmpty || found.isEmpty then 1 else 0)) 2

/-- The signal that is named by the first arguments, and the arguments after it. -/
def signalOf : List String → Except String (Nat × List String)
  | "-s" :: name :: rest => match Signal.ofText? name with
    | some n => .ok (n, rest)
    | none => .error ("invalid signal " ++ name)
  | "--" :: rest => .ok (15, rest)
  | a :: rest => match a.toList with
    | '-' :: cs => match Signal.ofText? (String.ofList cs) with
      | some n => .ok (n, rest)
      | none => .error ("unknown signal " ++ String.ofList cs)
    | _ => .ok (15, a :: rest)
  | [] => .ok (15, [])

/-- Send signals. -/
def kill : Utility := fun args =>
  match args with
  | ["-l"] => do
    say "kill" (String.intercalate " " (Signal.table.map (·.1)) ++ "\n")
    pure 0
  | args => match signalOf args with
    | .error complaint => do
      object "kill" complaint
      pure 1
    | .ok (n, targets) => forEach "kill" targets fun target => do
      match Condition.integer? target with
      | none => pure (.error ("failed to parse argument: " ++ quoted target))
      | some number =>
        if ← Course.signal number n then pure (.ok ())
        else pure (.error ("(" ++ target ++ "): No such process"))

end Utility

end FolderTasks.Machine
