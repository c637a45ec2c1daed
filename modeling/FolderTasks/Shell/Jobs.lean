import FolderTasks.Shell.Declaring
/-!
# Jobs and signals

A shell keeps in mind the processes that it started, waits for them, and sends signals to them.
What is to be done on a signal is kept as a trap.

## Main definitions

* `Shell.addJob`, `Shell.awaitJob`: a job is kept in mind, and waited for.
* `Shell.jobsBuiltin?`: the command of a name, if it is one about jobs and signals.
-/

namespace FolderTasks.Shell

open Files Machine

/-! ## Keeping jobs in mind -/

/-- Keep in mind that some processes were started together; the answer is the job's number. -/
def addJob (processes : List Nat) : Work Nat :=
  Work.purely fun s =>
    let jobs := s.jobs.filter fun j => !(j.isWaited && j.ending?.isSome)
    let taken := jobs.map Job.number
    let number := ((List.range (taken.length + 1)).map (· + 1)).find? (!taken.contains ·) |>.getD 1
    (number, { s with jobs := jobs ++ [⟨number, processes.map fun n => { number := n }, false⟩] })

/-- Forget a job. -/
def dropJob (number : Nat) : Work Unit :=
  modify fun s => { s with jobs := s.jobs.filter fun j => j.number != number }

/-- Keep in mind how a process ended. -/
def noteEnding (process : Nat) (e : Ending) : Work Unit :=
  modify fun s => { s with jobs := s.jobs.map fun j => { j with parts := j.parts.map fun c =>
    if c.number = process then { c with ending := some e } else c } }

/-- The job of a number. -/
def job? (s : State) (number : Nat) : Option Job := s.jobs.find? fun j => j.number == number

/-- Has a job come to its end? -/
def isOver (number : Nat) (s : State) : Bool :=
  ((job? s number).bind Job.ending?).isSome

/-- Say that a signal killed somebody, if that is worth saying. -/
def sayObituary (e : Ending) : Work Unit := do
  match e, (← get).dialect with
  | .killed n, .basic =>
    if !(Signal.obituary n).isEmpty then Course.complain (Signal.obituary n)
  | _, _ => pure ()

/-- Wait for ends until something holds.  The answer is false if a signal came first, or nobody is
left to wait for.  Of the processes of one job it is said who was killed. -/
def awaitEndsGo (watched : Option Nat) (isOver : State → Bool) (w : Waiting) : Nat → Work Bool
  | 0 => pure false
  | fuel + 1 => do
    if isOver (← get) then pure true
    else match ← (Course.await none w : Course Awaited) with
      | .ended process e => do
        noteEnding process e
        let job := watched.bind (job? (← get))
        if job.any fun j => j.parts.any fun c => c.number == process then sayObituary e
        awaitEndsGo watched isOver w fuel
      | .nobody | .interrupted => pure false

/-- Wait for ends until something holds. -/
def awaitEnds (isOver : State → Bool) (w : Waiting) : Work Bool :=
  awaitEndsGo none isOver w Course.manyReads

/-- Wait for the end of a job. -/
def awaitEndOf (number : Nat) (w : Waiting) : Work Bool :=
  awaitEndsGo (some number) (isOver number) w Course.manyReads

/-- Wait for a job that is not in the background; the answers are the endings of its parts. -/
def awaitJob (number : Nat) : Work (List Ending) := do
  let _ ← awaitEndOf number .steadfast
  let s ← get
  dropJob number
  pure (((job? s number).elim [] Job.parts).map fun c => c.ending.getD (.exited 127))

/-! ## Waiting -/

/-- The job that an argument means: by its number after a percent sign, or by its process. -/
def jobOf (text : String) : Work (Option Job) := do
  let s ← get
  match text.toList with
  | '%' :: rest =>
    let found := match String.ofList rest with
      | "" | "%" | "+" => s.jobs.getLast?
      | "-" => s.jobs.dropLast.getLast?
      | digits => (natural? digits).bind (job? s)
    match found with
    | some j => pure (some j)
    | none => match s.dialect with
      | .basic => Work.refuse ("No such job: " ++ text)
      | .extended => Work.refuse (text ++ ": no such job") 127
  | _ => match natural? text with
    | some n => pure (s.jobs.find? fun j => j.leader == n)
    | none => match s.dialect with
      | .basic => Work.refuse ("Illegal number: " ++ text)
      | .extended => Work.refuse ("\x60" ++ text ++ "\x27: not a pid or valid job spec") 1

/-- The status after a waiting that a signal ended. -/
def interruptedStatus : Work Nat := do
  let c := (← (Course.look : Course View)).context
  pure (128 + c.pending.headD 0)

/-- Keep in mind that somebody waited for a job. -/
def markWaited (number : Nat) : Work Unit :=
  modify fun s => { s with jobs := s.jobs.map fun j =>
    if j.number = number then { j with isWaited := true } else j }

/-- Wait for jobs, one after the other; the status is that of the last. -/
def waitForAll (status : Nat) : List String → Work Unit
  | [] => Work.done status
  | a :: rest => do
    match ← jobOf a with
    | none => do
      if (← get).dialect = .extended then
        Work.complain ("pid " ++ a ++ " is not a child of this shell")
        waitForAll 127 rest
      else waitForAll status rest
    | some j =>
      if ← awaitEndOf j.number .watchful then
        markWaited j.number
        let ending := (job? (← get) j.number).bind Job.ending?
        waitForAll (ending.elim status Ending.status) rest
      else Work.done (← interruptedStatus)

/-- Wait for the next job that comes to its end. -/
def waitForNext : Work Unit := do
  let ended (s : State) : Option Job := s.jobs.find? fun j => !j.isWaited && j.ending?.isSome
  if (← get).jobs.all (·.isWaited) then Work.done 127
  else if ← awaitEnds (fun s => (ended s).isSome) .watchful then
    match ended (← get) with
    | some j => do
      markWaited j.number
      Work.done ((j.ending?.map Ending.status).getD 127)
    | none => Work.done 127
  else Work.done (← interruptedStatus)

/-- Wait for some jobs, or for all. -/
def waitFor : Builtin := fun args => do
  let (options, names) ← letterOptions (if (← get).dialect = .extended then "fn" else "") args
  if options.contains 'n' then waitForNext
  else if names.isEmpty then
    if ← awaitEnds (fun s => s.jobs.all fun j => j.ending?.isSome) .watchful then
      modify fun s => { s with jobs := s.jobs.map fun j => { j with isWaited := true } }
      Work.done 0
    else
      let c := (← (Course.look : Course View)).context
      Work.done (if c.pending.isEmpty then 0 else 128 + c.pending.headD 0)
  else waitForAll 127 names

/-! ## Showing jobs -/

/-- What is said of a job. -/
def jobState (j : Job) : String :=
  match j.ending? with
  | none => "Running"
  | some (.exited 0) => "Done"
  | some (.exited n) => "Done(" ++ toString n ++ ")"
  | some (.killed n) => Signal.obituary n

/-- Show the jobs, the latest first. -/
def listJobs : Builtin := fun args => do
  let (options, _) ← letterOptions "lpnrs" args
  let _ ← awaitEnds (fun _ => false) .hurried
  let s ← get
  if options.contains 'p' then
    say (unlines (s.jobs.reverse.map fun j => toString ((j.parts.head?.map Child.number).getD 0)))
  else if s.dialect = .basic then
    say (unlines (s.jobs.reverse.zipIdx.map fun (j, i) =>
      let ahead := (s.jobs.reverse.take i).countP fun j => j.ending?.isNone
      let mark := if ahead = 0 then "+" else if ahead = 1 then "-" else " "
      let number := if options.contains 'l' then
        toString ((j.parts.head?.map Child.number).getD 0) ++ " " else ""
      filled 33 ("[" ++ toString j.number ++ "] " ++ mark ++ " " ++ number ++ jobState j) ++
        String.join (j.parts.tail.map fun _ => " | ")))
  else Work.done 0
  modify fun s => { s with jobs := s.jobs.filter fun j => j.ending?.isNone }

/-- Refuse to bring a job to the foreground or to have it go on in the background. -/
def refuseJob : Builtin := fun args => do
  match (← get).dialect with
  | .extended => Work.refuse "no job control" 1
  | .basic => match args with
    | [] => Work.refuse "No current job"
    | a :: _ => do
      let j ← jobOf a
      match j with
      | none => Work.refuse ("No such job: " ++ a)
      | some _ => Work.refuse ("job " ++ a ++ " not created under job control")

/-! ## Signals -/

/-- The number of a signal that a shell knows by a text. -/
def signal? (d : Dialect) (text : String) : Option Nat :=
  match d, text.toList with
  | .extended, 'S' :: 'I' :: 'G' :: rest => Signal.ofText? (String.ofList rest)
  | .extended, _ =>
    if text = "ERR" then some 100 else if text = "DEBUG" then some 101
    else if text = "RETURN" then some 102 else Signal.ofText? text
  | .basic, _ => Signal.ofText? text

/-- How a shell shows a signal. -/
def signalName (d : Dialect) (n : Nat) : String :=
  match d with
  | .basic => if n = 16 then "16" else Signal.name n
  | .extended =>
    if n = 100 then "ERR" else if n = 101 then "DEBUG" else if n = 102 then "RETURN"
    else if n = 0 then "EXIT" else "SIG" ++ Signal.name n

/-- What is said of those who call `kill` in a wrong way. -/
def killUsage : Dialect → String
  | .basic => "Usage: kill [-s sigspec | -signum | -sigspec] [pid | job]... or\n" ++
      "kill -l [exitstatus]"
  | .extended => "kill: usage: kill [-s sigspec | -n signum | -sigspec] pid | jobspec ... or " ++
      "kill -l [sigspec]"

/-- Refuse a call for its form. -/
def refuseUsage (text : String) : Work Unit := do
  match (← get).dialect with
  | .basic => Work.refuse text
  | .extended => do
    Course.complain text
    Work.done 2

/-- The signal that is named by the arguments of a command, and the arguments after it. -/
def signalIn : List String → Work (Nat × List String)
  | "-s" :: name :: rest | "-n" :: name :: rest => do
    let d := (← get).dialect
    if d = .basic && (rest.isEmpty && name = "") then Work.refuse "No arg for -s option"
    else match signal? d name with
      | some n => pure (n, rest)
      | none => match d with
        | .basic => Work.refuse ("invalid signal number or name: " ++ name)
        | .extended => Work.refuse (name ++ ": invalid signal specification") 1
  | ["-s"] => do
    match (← get).dialect with
    | .basic => Work.refuse "No arg for -s option"
    | .extended => Work.refuse "-s: option requires an argument" 1
  | "--" :: rest => pure (15, rest)
  | a :: rest => match a.toList with
    | '-' :: cs => do
      let d := (← get).dialect
      match signal? d (String.ofList cs) with
      | some n => pure (n, if rest.head? = some "--" then rest.drop 1 else rest)
      | none => match d with
        | .basic => Work.refuse ("Illegal option -" ++ String.ofList (cs.take 1))
        | .extended => Work.refuse (String.ofList cs ++ ": invalid signal specification") 1
    | _ => pure (15, a :: rest)
  | [] => pure (15, [])

/-- Send a signal to the process, group or job that an argument means. -/
def signalOne (n : Nat) (target : String) : Work Unit := do
  let d := (← get).dialect
  let cs := target.toList
  let number : Option Int := match cs with
    | '-' :: rest => (natural? (String.ofList rest)).map fun n => -(n : Int)
    | _ => (natural? target).map fun n => (n : Int)
  let missing (shown : String) : Work Unit := do
    match d with
    | .basic => Work.complain "No such process\n"
    | .extended => Work.complain ("(" ++ shown ++ ") - No such process")
    Work.done 1
  match cs with
  | '%' :: _ => match ← jobOf target with
    | some j => match d with
      -- The processes of a job form no group of their own.
      | .basic => missing target
      | .extended => j.parts.forM fun c => do
        let _ ← (Course.signal c.number n : Course Bool)
    | none => missing target
  | _ => match number, d with
    | some k, _ => do
      if !(← (Course.signal k n : Course Bool)) then missing target
    | none, .basic => Work.refuse ("Illegal number: " ++ String.ofList (cs.dropWhile (· = '-')))
    | none, .extended => do
      Work.complain (target ++ ": arguments must be process or job IDs")
      Work.done 1

/-- The names of all signals in columns. -/
def signalTable : String :=
  let cells := (Signal.names.map fun (n, name) =>
    String.ofList (List.replicate (2 - (toString n).length) ' ') ++ toString n ++ ") SIG" ++ name)
  unlines ((cells.zipIdx.filterMap fun (_, i) =>
    if i % 5 = 0 then some (String.intercalate "\t" ((cells.drop i).take 5) ++
      if cells.length - i < 5 then "\t" else "")
    else none))

/-- Show the names or numbers of signals. -/
def listSignals (args : List String) : Work Unit := do
  let d := (← get).dialect
  match d, args with
  | .basic, [] => say ("0\n" ++ unlines ((List.range 64).map fun i => signalName .basic (i + 1)))
  | .extended, [] => say signalTable
  | .basic, a :: _ => do
    let n ← demandNumber a
    let n := if 128 < n then n - 128 else n
    if 0 < n && n ≤ 64 then say (signalName .basic n ++ "\n")
    else Work.refuse ("invalid signal number or exit status: " ++ a)
  | .extended, args => args.forM fun a => do
    match natural? a with
    | some n => do
      let n := if 128 < n then n - 128 else n
      if (Signal.names.lookup n).isSome then say (Signal.name n ++ "\n")
      else Work.refuse (a ++ ": invalid signal specification") 1
    | none => match signal? d a with
      | some n => say (toString n ++ "\n")
      | none => Work.refuse (a ++ ": invalid signal specification") 1

/-- Send signals, or show their names. -/
def sendSignals : Builtin := fun args => do
  let d := (← get).dialect
  match args with
  | [] => refuseUsage (killUsage d)
  | "-l" :: rest | "-L" :: rest => listSignals rest
  | args => do
    let (n, targets) ← signalIn args
    if targets.isEmpty then refuseUsage (killUsage d)
    else
      Work.done 0
      targets.forM (signalOne n)

/-! ## Traps -/

/-- Do something on a signal, nothing if the action is empty, or what is usual. -/
def setTrap (n : Nat) (action : Option String) : Work Unit := do
  modify fun s => { s with traps :=
    (s.traps.filter fun e => e.1 != n) ++ (action.map fun a => (n, a)).toList }
  if !(← get).deaf.contains n && 0 < n && n < 100 then
    (Course.changeContext fun c => { c with
      ignored := c.ignored.filter (· != n) ++ (if action = some "" then [n] else [])
      caught := c.caught.filter (· != n) ++
        (if action.any (· != "") then [n] else []) } : Course Unit)

/-- Forget what is to be done on signals, but for those on which nothing is done. -/
def clearTraps (s : State) : State :=
  { s with traps := s.traps.filter fun e => e.2 == "" }

/-- Show what is done on signals. -/
def listTraps (isMeant : Nat → Bool) : Work Unit := do
  let s ← get
  let sorted := (s.traps.filter fun e => isMeant e.1).mergeSort fun a b => decide (a.1 ≤ b.1)
  say (unlines (sorted.map fun (n, action) =>
    "trap -- " ++ quotedText s.dialect action ++ " " ++ signalName s.dialect n))

/-- Say what is to be done on signals. -/
def setTraps : Builtin := fun args => do
  let d := (← get).dialect
  let (options, args) ← match args with
    | "-" :: _ => pure ([], args)
    | _ => letterOptions (if d = .extended then "lp" else "") args
  if options.contains 'l' then say signalTable
  else if options.contains 'p' then
    listTraps fun n => args.isEmpty || args.any fun a => signal? d a == some n
  else match args with
    | [] => listTraps fun _ => true
    | first :: rest => do
      let (action, names) :=
        if rest.isEmpty || (natural? first).isSome then (none, args)
        else (some first, rest)
      if d = .extended && rest.isEmpty && (signal? d first).isNone then
        refuseUsage "trap: usage: trap [-lp] [[arg] signal_spec ...]"
      else
        let action := if action = some "-" then none else action
        let rec go : List String → Work Unit
          | [] => Work.done 0
          | name :: names => match signal? d name with
            | some n => do
              setTrap n action
              go names
            | none => match d with
              | .basic => do
                Course.complain ("trap: " ++ name ++ ": bad trap")
                Work.done 1
              | .extended => do
                Work.complain (name ++ ": invalid signal specification")
                go names
                Work.done 1
        go names

/-- The command of a name, if it is one about jobs and signals. -/
def jobsBuiltin? (name : String) : Option Builtin :=
  match name with
  | "wait" => some waitFor
  | "jobs" => some listJobs
  | "fg" | "bg" => some refuseJob
  | "kill" => some sendSignals
  | "trap" => some setTraps
  | _ => none

end FolderTasks.Shell
