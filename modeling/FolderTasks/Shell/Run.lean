import FolderTasks.Shell.Executing
import FolderTasks.Shell.Setting
import FolderTasks.Shell.Testing
/-!
# Running scripts

A shell goes through a script and does what it says.  Parts of it are left to processes of their
own, which begin as copies of the shell.

A script may run for ever.  The depth of a run, with the rounds of its loops, is bounded by fuel,
of which there is more than anybody needs.

## Main definitions

* `Shell.run`: do what a node of a script says.
* `Shell.runText`: do what a text says.
* `Shell.runToEnd`: the same for a whole shell, with what is to be done at its end.
-/

namespace FolderTasks.Shell

open Files Machine

/-- Do something, and something else afterwards, whether the script goes on or not. -/
def andThen {α : Type} (w : Work α) (after : Work Unit) : Work α := do
  let a ← try w
    catch flow =>
      after
      throw flow
  after
  pure a

/-- One round of a loop; the answer says whether it was the last. -/
def asRound (w : Work Bool) : Work Bool :=
  try w
  catch flow => match flow with
    | .breaking n => if n ≤ 1 then pure true else throw (.breaking (n - 1))
    | .continuing n => if n ≤ 1 then pure false else throw (.continuing (n - 1))
    | flow => throw flow

/-- Do something within a loop. -/
def withinLoop (w : Work Unit) : Work Unit := do
  let loops := (← get).loops
  modify fun s => { s with loops := loops + 1 }
  andThen w (modify fun s => { s with loops })

/-- Do what a command of the shell itself does, under its name.  If it refuses something, the
script goes on, unless the command is a firm one and `keepsFirm` is set. -/
def asBuiltin (name : String) (isNamed keepsFirm : Bool) (w : Work Unit) : Work Unit := do
  let s ← get
  if isNamed then set { s with command := some name }
  let body := andThen w (modify fun t => { t with command := s.command })
  try body
  catch flow =>
    if flow = .refused then
      if s.dialect = .basic && isFirm name && keepsFirm then throw .leave
    else throw flow

/-- The line of a text, counted from the number of its first one. -/
def lineIn (text : String) (first line : Nat) : String :=
  String.ofList ((text.toList.splitOn '\n').getD (line - first) [])

/-- Complain about a text that cannot be read, perhaps one of a special kind. -/
def refuseText (kind : Option String) (text : String) (isWithin : Bool) (first line : Nat)
    (m : Misreading) : Work Unit := do
  let s ← get
  match s.dialect with
  | .basic => do
    set { s with line }
    Work.refuse m.message
  | .extended => do
    let (message, isShown) := m.extendedMessage
    let place := match kind with
      | some kind => s.name ++ ": " ++ kind
      | none => s.source.getD (s.name ++ ": -c")
    let caller := place ++ ": line " ++ toString line ++ ": "
    (Course.complain (caller ++ message) : Course Unit)
    if isShown then
      (Course.complain (caller ++ "\x60" ++ lineIn text first line ++ "\x27") : Course Unit)
    Work.done (if isWithin then 127 else 2)
    throw .refused

/-- The parts that are started together for what runs in the background. -/
def partsOf : Node → List Node
  | .pipeline parts => parts
  | node => [node]

/-- The name of the first file that can be read among those that a name without a slash may
mean. -/
def sourcePath (s : State) (v : View) (name : String) : Option String :=
  if name.toList.contains '/' then some name
  else
    let isFile (path : String) : Bool := (v.nodeAt? path).isSome && !v.hasFolder path
    match (candidates (searchPath s) name).find? isFile with
    | some path => some path
    | none => if s.dialect = .extended && isFile name then some name else none

/-- The file that a script only reads, if it does nothing else. -/
def onlyReads? (d : Dialect) (script : String) : Option Word :=
  if d = .basic then none
  else match (Script.ofText d 1 script).next [] with
    | .command (.simple _ [] [] [.to none "<" w]) true _ => some w
    | _ => none

/-- Does a setting set an array to its elements? -/
def Setting.hasElements (st : Setting) : Bool :=
  match st.value with
  | .elements _ => true
  | .text _ => false

/-- Complain about a redirection; after that of a firm command the shell gives up. -/
def failToRedirect (isFirm : Bool) (complaint : String) : Work Unit := do
  Work.complain complaint
  Work.done (if (← get).dialect = .basic then 2 else 1)
  if isFirm then throw .leave

/-- How many calls of functions may stand within each other. -/
def deepestCall : Nat := 1000

mutual

/-- Do what a node says. -/
def run (runner : Runner) : Nat → Manner → Node → Work Unit
  | 0, _, _ => (Course.spin : Course Unit)
  | _ + 1, _, .nothing => pure ()
  | fuel + 1, m, .sequence a .nothing => run runner fuel m a
  | fuel + 1, m, .sequence a b => do
    run runner fuel { m with isLast := false } a
    if !(← get).isOn "noexec" then run runner fuel m b
  | fuel + 1, m, .both a b => do
    run runner fuel { isTested := true } a
    if (← get).status = 0 then run runner fuel m b
  | fuel + 1, m, .either a b => do
    run runner fuel { isTested := true } a
    if (← get).status ≠ 0 then run runner fuel m b
  | fuel + 1, _, .negated a => do
    run runner fuel { isTested := true } a
    modify fun s => { s with status := if s.status = 0 then 1 else 0 }
  | fuel + 1, m, .branch condition yes no => do
    run runner fuel { isTested := true } condition
    if (← get).status = 0 then run runner fuel m yes
    else
      Work.done 0
      run runner fuel m no
  | fuel + 1, m, .loop awaits condition body =>
    withinLoop (runLoop runner fuel m.isTested awaits condition body 0)
  | fuel + 1, m, .each line name words body => do
    modify fun s => { s with line }
    if isName name then
      let values ← match words with
        | none => do pure (← get).arguments
        | some words => expandAll (innerOf runner fuel) words
      Work.done 0
      withinLoop (runEach runner fuel m.isTested name body values)
    else
      Work.complain ("\x60" ++ name ++ "\x27: not a valid identifier")
      Work.done 1
      settle runner fuel m
  | fuel + 1, m, .counted line first condition step body => do
    modify fun s => { s with line }
    let inner := innerOf runner fuel
    let _ ← expandCalculation inner first
    Work.done 0
    withinLoop (runCounted runner fuel m.isTested condition step body)
  | fuel + 1, m, .cases line w arms => do
    modify fun s => { s with line }
    let text ← expandText (innerOf runner fuel) w
    Work.done 0
    runArms runner fuel m text false arms
  | fuel + 1, m, .apart body => do
    let s ← get
    if m.isLast && hasNoTraps s then
      set { s with level := s.level + 1, jobs := [] }
      run runner fuel { m with isLast := true } body
      throw .leave
    else
      let child ← splitOff runner fuel (run runner fuel { m with isLast := true } body)
      let number ← (Course.fork child : Course Nat)
      concludeJob (← awaitJob (← addJob [number]))
      settle runner fuel m
  | fuel + 1, m, .redirected line body redirections => do
    if line ≠ 0 then modify fun s => { s with line }
    redirecting (innerOf runner fuel) redirections
      (fun _ => run runner fuel { isTested := m.isTested } body)
      fun complaint => do
        Work.complain complaint
        Work.done (if (← get).dialect = .basic then 2 else 1)
        settle runner fuel m
  | fuel + 1, m, .define line name body => do
    if name.toList.any "\x27\x22\\$\x60".toList.contains then
      modify fun s => { s with line }
      Work.complain ("\x60" ++ name ++ "\x27: not a valid identifier")
      Work.done 1
      settle runner fuel m
    else
      modify fun s => { s with
        functions := (name, body) :: s.functions.filter fun e => e.1 != name
        status := 0 }
  | fuel + 1, _, .background body => do
    let numbers ← startParts runner fuel {} true none (partsOf body)
    let _ ← addJob numbers
    modify fun s => { s with lastChild := numbers.getLast?, status := 0 }
    settle runner fuel {}
  | fuel + 1, m, .pipeline parts => do
    let numbers ← startParts runner fuel m false none parts
    concludeJob (← awaitJob (← addJob numbers))
    settle runner fuel m
  | fuel + 1, m, .calculation line expression => do
    modify fun s => { s with line }
    let s ← get
    try
      let n ← expandCalculation (innerOf runner fuel) expression
      Work.done (if n = 0 then 1 else 0)
    catch flow =>
      modify fun t => { t with command := s.command }
      if flow = .abandoned then pure () else throw flow
    settle runner fuel m
  | fuel + 1, m, .condition line c => do
    modify fun s => { s with line }
    Work.done 0
    let answer ← holds (innerOf runner fuel) c
    if (← get).status = 0 then Work.done (if answer then 0 else 1)
    settle runner fuel m
  | fuel + 1, m, .simple line settings words redirections => do
    modify fun s => { s with line, outputStatus := none }
    let inner := innerOf runner fuel
    let args ← expandArguments inner words
    match args with
    | [] => do
      let body (errors : Nat) : Work Unit := do
        let texts ← settings.mapM (followSetting inner false)
        trace errors texts []
        Work.done ((← get).outputStatus.getD 0)
      redirecting inner redirections body (failToRedirect false)
    | name :: args => runCommand runner fuel m settings redirections name args
    closeAttached
    settle runner fuel m

/-- Do what a command with its arguments says, with settings and redirections. -/
def runCommand (runner : Runner) :
    Nat → Manner → List Setting → List Redirection → String → List String → Work Unit
  | 0, _, _, _, _, _ => (Course.spin : Course Unit)
  | fuel + 1, m, settings, redirections, name, args => do
    let s ← get
    let inner := innerOf runner fuel
    let isFunction := (s.functions.lookup name).isSome
    let firm := s.dialect = .basic && isFirm name && !isFunction
    if name = "exec" && !isFunction then
      match ← redirectAll inner redirections with
      | some complaint => failToRedirect firm complaint
      | none => do
        let texts ← settings.mapM (followSetting inner true)
        trace 2 texts (name :: args)
        call runner fuel m name args
    else
      -- What a declaration sets to elements is set after it is known what kind it is.
      let (later, sooner) := settings.partition Setting.hasElements
      let before := if firm then [] else sooner.map fun st => (st.name, s.parameter? st.name)
      let body (errors : Nat) : Work Unit := do
        let texts ← sooner.mapM (followSetting inner (!firm))
        trace errors texts (name :: args)
        let calling : Work Unit := do
          call runner fuel m name args
          later.forM fun st => discard (followSetting inner false st)
        andThen calling (modify fun t => t.restore before)
      redirecting inner redirections body (failToRedirect firm)

/-- Rounds of a loop; `last` is the status of the round before. -/
def runLoop (runner : Runner) :
    Nat → (tested awaits : Bool) → (condition body : Node) → (last : Nat) → Work Unit
  | 0, _, _, _, _, _ => (Course.spin : Course Unit)
  | fuel + 1, tested, awaits, condition, body, last => do
    (Course.pause : Course Unit)
    let isLast ← asRound do
      run runner fuel { isTested := true } condition
      if decide ((← get).status = 0) = awaits then
        Work.done last
        pure true
      else
        run runner fuel { isTested := tested } body
        pure false
    handleSignals runner fuel
    if !isLast then runLoop runner fuel tested awaits condition body (← get).status

/-- Rounds of a loop over values. -/
def runEach (runner : Runner) :
    Nat → (tested : Bool) → String → Node → List String → Work Unit
  | 0, _, _, _, _ => (Course.spin : Course Unit)
  | _ + 1, _, _, _, [] => pure ()
  | fuel + 1, tested, name, body, value :: rest => do
    (Course.pause : Course Unit)
    assign name value
    let isLast ← asRound do
      run runner fuel { isTested := tested } body
      pure false
    if !isLast then runEach runner fuel tested name body rest

/-- Rounds of a loop that counts. -/
def runCounted (runner : Runner) : Nat → (tested : Bool) → String → String → Node → Work Unit
  | 0, _, _, _, _ => (Course.spin : Course Unit)
  | fuel + 1, tested, condition, step, body => do
    (Course.pause : Course Unit)
    let inner := innerOf runner fuel
    let n ← if condition.toList.all (· = ' ') then pure 1 else expandCalculation inner condition
    if n ≠ 0 then
      let isLast ← asRound do
        run runner fuel { isTested := tested } body
        pure false
      if !isLast then
        let _ ← expandCalculation inner step
        runCounted runner fuel tested condition step body

/-- Run the arms of a `case` that a text fits, from the first on; `falls` says that the next one is
run whatever its patterns are. -/
def runArms (runner : Runner) :
    Nat → Manner → String → (falls : Bool) → List (List Word × Node × ArmEnd) → Work Unit
  | 0, _, _, _, _ => (Course.spin : Course Unit)
  | _ + 1, _, _, _, [] => pure ()
  | fuel + 1, m, text, falls, (patterns, body, ending) :: rest => do
    let inner := innerOf runner fuel
    let foldsCase := (← get).isOn "nocasematch"
    let cs := if foldsCase then text.toList.map Char.toLower else text.toList
    let fits ← if falls then pure true
      else patterns.anyM fun w => do pure ((← expandPattern inner w).fits cs)
    if !fits then runArms runner fuel m text false rest
    else match ending with
      | .leave => run runner fuel m body
      | .fallThrough => do
        run runner fuel { m with isLast := false } body
        runArms runner fuel m text true rest
      | .goOn => do
        run runner fuel { m with isLast := false } body
        runArms runner fuel m text false rest

/-- Start the parts of a pipeline, each of which reads what the one before it writes; the answers
are their numbers. -/
def startParts (runner : Runner) :
    Nat → Manner → (isAside : Bool) → (input : Option Nat) → List Node → Work (List Nat)
  | 0, _, _, _, _ => (Course.spin : Course (List Nat))
  | _ + 1, _, _, _, [] => pure []
  | fuel + 1, m, isAside, input, part :: rest => do
    let joint ← if rest.isEmpty then pure none
      else do pure (some (← (pipeOnSpares : Course (Nat × Nat))))
    let child ← splitOff runner fuel
      (run runner fuel { isTested := m.isTested && !isAside, isLast := true } part)
    let number ← (Course.fork (do
      if isAside then
        Course.changeContext fun c => { c with ignored := c.ignored ++ [2, 3] }
      match input with
      | some n => moveChannel n 0
      | none =>
        if isAside then
          let _ ← Course.openPathOn 0 "/dev/null" .toRead
      match joint with
      | some (r, w) => do
        leadTo r none
        moveChannel w 1
      | none => pure ()
      child) : Course Nat)
    match input with
    | some n => (leadTo n none : Course Unit)
    | none => pure ()
    match joint with
    | some (_, w) => (leadTo w none : Course Unit)
    | none => pure ()
    pure (number :: (← startParts runner fuel m isAside (joint.map (·.1)) rest))

/-- A process that does something as a copy of the shell. -/
def splitOff (runner : Runner) : Nat → Work Unit → Work (Course Ending)
  | 0, _ => pure Course.spin
  | fuel + 1, body => do
    let s ← get
    let copy : State := { clearTraps s with jobs := [], level := s.level + 1 }
    pure do
      let (_, s) ← (runToEnd runner fuel body).run.run copy
      pure (.exited (s.status % 256))

/-- Do something, and then what is to be done at the end of the shell. -/
def runToEnd (runner : Runner) : Nat → Work Unit → Work Unit
  | 0, _ => (Course.spin : Course Unit)
  | fuel + 1, body => do
    try body
    catch _ => pure ()
    runLastTrap runner fuel

/-- Do what is to be done at the end of the shell. -/
def runLastTrap (runner : Runner) : Nat → Work Unit
  | 0 => (Course.spin : Course Unit)
  | fuel + 1 => do
    let s ← get
    match s.traps.lookup 0 with
    | none => pure ()
    | some action => do
      set { s with
        traps := s.traps.filter fun e => e.1 != 0
        statusBefore := some s.status
        loops := 0 }
      try
        runText runner fuel { kind := some "exit trap" } 1 action
        modify fun t => { t with status := s.status }
      catch _ => pure ()

/-- How scripts within words are run. -/
def innerOf (runner : Runner) : Nat → Inner
  | 0 => ⟨fun _ _ => (Course.spin : Course String), fun _ _ => (Course.spin : Course String)⟩
  | fuel + 1 =>
    { output := fun line script => do
        let (r, w) ← (pipeOnSpares : Course (Nat × Nat))
        let body : Work Unit := match onlyReads? (← get).dialect script with
          | some file => redirecting (innerOf runner fuel) [.to none "<" file]
              (fun _ => do
                match ← (Course.readAll 0 : Course (Except Fault Bytes)) with
                | .ok bs => do
                  let _ ← (Course.write 1 bs : Course (Except Fault Unit))
                  Work.done 0
                | .error _ => Work.done 1)
              fun complaint => do
                Work.complain complaint
                Work.done 1
          | none =>
            runText runner fuel { isLast := true, kind := some "command substitution" } line script
        let child ← splitOff runner fuel body
        let number ← (Course.fork (do
          leadTo r none
          moveChannel w 1
          child) : Course Nat)
        (leadTo w none : Course Unit)
        let bs ← (Course.readAll r : Course (Except Fault Bytes))
        (leadTo r none : Course Unit)
        let endings ← awaitJob (← addJob [number])
        let status := (endings.getLast?.map Ending.status).getD 0
        modify fun s => { s with
          outputStatus := some status
          status := if s.dialect = .extended then status else s.status }
        pure (match bs with
          | .ok bs => textOf (bs.filter (· != 0))
          | .error _ => "")
      path := fun isWritten script => do
        let line := (← get).line
        let (r, w) ← (pipeOnSpares : Course (Nat × Nat))
        let child ← splitOff runner fuel (runText runner fuel { isLast := true } line script)
        let (own, others) := if isWritten then (w, r) else (r, w)
        let _ ← (Course.fork (do
          leadTo own none
          moveChannel others (if isWritten then 0 else 1)
          child) : Course Nat)
        (leadTo others none : Course Unit)
        let taken := (← (Course.look : Course View)).context.channels.map (·.1)
        let n := ((List.range 64).reverse.find? (!taken.contains ·)).getD own
        (moveChannel own n : Course Unit)
        modify fun s => { s with attached := n :: s.attached }
        pure ("/dev/fd/" ++ toString n) }

/-- Do what a text says whose first line has a number. -/
def runText (runner : Runner) : Nat → Manner → Nat → String → Work Unit
  | 0, _, _, _ => (Course.spin : Course Unit)
  | fuel + 1, m, line, text => do
    runScript runner fuel m text line (Script.ofText (← get).dialect line text)

/-- Do what the lines of a script say, which was read from a text. -/
def runScript (runner : Runner) : Nat → Manner → String → Nat → Script → Work Unit
  | 0, _, _, _, _ => (Course.spin : Course Unit)
  | fuel + 1, m, text, first, script => do
    let s ← get
    let aliases := if s.dialect = .basic || s.isOn "expand_aliases" then s.aliases else []
    match script.next aliases with
    | .finished => pure ()
    | .fault line misreading => refuseText m.kind text script.isWithin first line misreading
    | .command node isLast rest => do
      if !s.isOn "noexec" then
        try run runner fuel { m with isLast := m.isLast && isLast } node
        catch flow => if flow = .abandoned then pure () else throw flow
      runScript runner fuel m text first rest

/-- Do what is to be done on the signals that came. -/
def handleSignals (runner : Runner) : Nat → Work Unit
  | 0 => (Course.spin : Course Unit)
  | fuel + 1 => do
    match (← (Course.look : Course View)).context.pending with
    | [] => pure ()
    | n :: rest => do
      (Course.changeContext fun c => { c with pending := rest } : Course Unit)
      let s ← get
      match s.traps.lookup n with
      | none =>
        if s.dialect = .extended then
          runLastTrap runner fuel
          (Course.stop (.killed n) : Course Unit)
      | some action => do
        set { s with statusBefore := some s.status }
        andThen
          (do
            runText runner fuel { kind := some "trap" } 1 action
            modify fun t => { t with status := s.status })
          (modify fun t => { t with statusBefore := s.statusBefore })
      handleSignals runner fuel

/-- Go on after a command: do what is to be done on signals, and stop after a failure if that is
asked for. -/
def settle (runner : Runner) : Nat → Manner → Work Unit
  | 0, _ => (Course.spin : Course Unit)
  | fuel + 1, m => do
    handleSignals runner fuel
    let s ← get
    if s.status ≠ 0 && !m.isTested then
      match s.traps.lookup 100 with
      | some action =>
        if s.frames.isEmpty || s.isOn "errtrace" then
          set { s with traps := s.traps.filter fun e => e.1 != 100 }
          runText runner fuel {} s.line action
          modify fun t => { t with
            status := s.status
            traps := t.traps ++ [(100, action)] }
      | none => pure ()
      if s.isOn "errexit" then throw .leave

/-- Do what a command with its arguments says. -/
def call (runner : Runner) : Nat → Manner → String → List String → Work Unit
  | 0, _, _, _ => (Course.spin : Course Unit)
  | fuel + 1, m, name, args => do
    let s ← get
    match s.functions.lookup name with
    | none => callWithout runner fuel m true name args
    | some body =>
      if s.dialect = .basic && deepestCall ≤ s.frames.length then
        Work.refuse ("Maximum function recursion depth (" ++ toString deepestCall ++ ") reached")
      else
        set { s with
          arguments := args, frames := (name, []) :: s.frames, loops := 0
          optionIndex := 1, optionPlace := 0 }
        let leaving : Work Unit := modify fun t =>
          let before := (t.frames.head?.map (·.2)).getD []
          { t.restore before with
            arguments := s.arguments, frames := s.frames, loops := s.loops
            optionIndex := s.optionIndex, optionPlace := s.optionPlace }
        try andThen (run runner fuel { isTested := m.isTested } body) leaving
        catch flow => if flow = .returning then pure () else throw flow

/-- Do what a command says that is no function. -/
def callWithout (runner : Runner) : Nat → Manner → (keepsFirm : Bool) → String → List String →
    Work Unit
  | 0, _, _, _, _ => (Course.spin : Course Unit)
  | fuel + 1, m, keepsFirm, name, args => do
    let s ← get
    let isNamed := s.dialect == .basic
    if !(builtinNames s.dialect).contains name then callProgram runner m false name args
    else match name with
      | "eval" => asBuiltin name isNamed keepsFirm do
        Work.done 0
        runText runner fuel { isTested := m.isTested, kind := some "eval" }
          (if isNamed then 1 else s.line)
          (String.intercalate " " args)
      | "." | "source" => asBuiltin name true keepsFirm (runFile runner fuel m args)
      | "exec" => asBuiltin name true keepsFirm do
        match args with
        | [] => Work.done 0
        | program :: args => callProgram runner m true program args
      | "builtin" => match args with
        | [] => Work.done 0
        | name :: args =>
          if (builtinNames s.dialect).contains name then callWithout runner fuel m false name args
          else asBuiltin "builtin" true false (Work.refuse (name ++ ": not a shell builtin") 1)
      | "command" => do
        let given ← try
            let s ← get
            set { s with command := some name }
            some <$> andThen (letterOptions "vVp" args)
              (modify fun t => { t with command := s.command })
          catch _ => pure none
        match given with
        | none => pure ()
        | some (options, args) =>
          if options.contains 'v' then describeShortly true args
          else if options.contains 'V' then describeShortly false args
          else match args with
            | [] => Work.done 0
            | name :: args => callWithout runner fuel m false name args
      | "type" => asBuiltin name true keepsFirm (describe args)
      | "hash" => asBuiltin name true keepsFirm (remember args)
      | _ => match builtin? s.dialect name with
        | some b => asBuiltin name true keepsFirm (b args)
        | none => callProgram runner m false name args

/-- Do what a file says. -/
def runFile (runner : Runner) : Nat → Manner → List String → Work Unit
  | 0, _, _ => (Course.spin : Course Unit)
  | fuel + 1, m, args => do
    let s ← get
    let v ← (Course.look : Course View)
    match args with
    | [] => match s.dialect with
      | .basic => Work.done 0
      | .extended => do
        Work.complain "filename argument required"
        Course.complain (s.command.getD "." ++ ": usage: " ++ s.command.getD "." ++
          " filename [arguments]")
        Work.done 2
    | name :: own =>
      let content ← match sourcePath s v name with
        | none => pure (.error Fault.notFound)
        | some path => do
          pure ((← (Course.readFile path : Course (Except Fault Bytes))).map (path, ·))
      match content, s.dialect with
      | .error fault, .basic =>
        if name.toList.contains '/' then
          Work.refuse ("cannot open " ++ name ++ ": " ++ openFault "No such file" fault)
        else Work.refuse (name ++ ": not found")
      | .error fault, .extended => do
        set { s with command := none }
        Work.complain (name ++ ": " ++ fault.reason)
        Work.done 1
      | .ok (path, bs), d => do
        let line := s.line
        Work.done 0
        match d with
        | .basic => modify fun t => { t with command := some path }
        | .extended => modify fun t => { t with
            command := none, source := some path, sources := s.sources + 1
            arguments := if own.isEmpty then t.arguments else own }
        let leaving : Work Unit := modify fun t => { t with
          source := s.source
          sources := s.sources
          line := line
          arguments := if d = .extended && !own.isEmpty then s.arguments else t.arguments }
        try andThen (runText runner fuel { isTested := m.isTested } 1 (textOf bs)) leaving
        catch flow => if flow = .returning then pure () else throw flow

end

/-- How deep a run may go, with the rounds of its loops. -/
def depth : Nat := 1000000000

end FolderTasks.Shell
