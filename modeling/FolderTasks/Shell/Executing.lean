import FolderTasks.Shell.Meaning
/-!
# Processes of a shell

A shell has programs executed by processes of their own, or gives its place to them.  Channels
are joined by pipes.

## Main definitions

* `Shell.callOf`: the program that a command names, or why it is not executed.
* `Shell.replaceBy`, `Shell.executeAside`: a program in the place of the shell, and beside it.
* `Shell.pipeOnSpares`: a pipe.
-/

namespace FolderTasks.Shell

open Files Machine

/-- How a node of a script is run. -/
structure Manner where
  /-- Does the script test the status, so that a failure is no reason to stop? -/
  isTested : Bool := false
  /-- Does nothing come afterwards, so that a program may take the place of the shell? -/
  isLast : Bool := false
  /-- What kind of text the script is, if it was not given at the start or in a file. -/
  kind : Option String := none

/-- Is nothing to be done on signals? -/
def hasNoTraps (s : State) : Bool := s.traps.all fun e => e.2 == ""

/-! ## Pipes -/

/-- Have a channel lead to an open file, and answer its number. -/
def leadSpare (o : Nat) : Course Nat := do
  let n := (← Course.look).context.freeChannel firstSpare
  leadTo n (some o)
  pure n

/-- A pipe on two channels that were free, the one to read from first. -/
def pipeOnSpares : Course (Nat × Nat) := do
  let (reading, writing) ← Course.changeStore fun s =>
    let (s, r, w) := s.makePipe []
    (s, (r, w))
  let r ← leadSpare reading
  let w ← leadSpare writing
  pure (r, w)

/-- Lead a channel to where another one leads, which is closed. -/
def moveChannel (source target : Nat) : Course Unit := do
  let o := (← Course.look).context.opened? source
  leadTo target o
  leadTo source none

/-- Close the channels that lead to scripts in the place of paths. -/
def closeAttached : Work Unit := do
  let s ← get
  if !s.attached.isEmpty then
    s.attached.forM fun n => (leadTo n none : Course Unit)
    set { s with attached := [] }

/-! ## Programs -/

/-- Why a program is not executed. -/
structure Hindrance where
  complaint : String
  status : Nat

/-- What is said when a program cannot be executed in the basic language. -/
def hindrance (fault : Fault) : Hindrance :=
  let status := if [.notFound, .notDirectory, .tooManyLinks, .nameTooLong].contains fault
    then 127 else 126
  ⟨if fault = .notFound || fault = .notDirectory then "not found" else fault.reason, status⟩

/-- What is executed at a path; a file that does not say what executes it is a script. -/
def callAt (s : State) (v : View) (name path : String) (args : List String) :
    Except Fault Call :=
  match v.resolve path name args, s.dialect with
  | .error .notExecutable, .basic => v.resolve standardShell standardShell (path :: args)
  | .error .notExecutable, .extended => v.resolve "/bin/bash" name (path :: args)
  | result, _ => result

/-- The program that a command names, or why it is not executed. -/
def callOf (s : State) (v : View) (name : String) (args : List String) :
    Except Hindrance Call :=
  let v : View := { v with context := { v.context with environment := s.environment } }
  if name.toList.contains '/' then match callAt s v name name args, s.dialect with
    | .ok call, _ => .ok call
    | .error fault, .basic => .error (hindrance fault)
    | .error fault, .extended =>
      if v.hasFolder name then .error ⟨"Is a directory", 126⟩
      else if fault = .notFound && (v.nodeAt? name).isSome then
        .error ⟨"cannot execute: required file not found", 127⟩
      else .error ⟨fault.reason, if fault = .notFound || fault = .notDirectory then 127 else 126⟩
  else match programPath? s v name, s.dialect with
    | some path, d => match callAt s v name path args with
      | .ok call => .ok call
      | .error fault =>
        if d = .basic then .error (hindrance fault) else .error ⟨fault.reason, 126⟩
    | none, .extended => .error ⟨"command not found", 127⟩
    | none, .basic =>
      let isThere := (candidates (searchPath s) name).any fun path => (v.nodeAt? path).isSome
      .error ⟨if isThere then Fault.denied.reason else "not found", 127⟩

/-- Give the place of the shell to a program. -/
def replaceBy {α : Type} (run : Runner) (s : State) (call : Call) : Course α := do
  let s := match s.dialect with
    | .basic => s
    | .extended => (s.set "_" call.called).change "_" fun p => { p with isExported := true }
  Course.changeContext fun c => { c with
    environment := s.environment
    channels := c.channels.filter fun e => !s.saved.contains e.1 }
  Course.become run call

/-- The status that comes of the endings of a job's parts, which are kept in mind. -/
def concludeJob (endings : List Ending) : Work Unit := do
  let statuses := endings.map Ending.status
  modify fun s =>
    let last := statuses.getLastD 0
    let failed := (statuses.filter (· ≠ 0)).getLast?
    { s with
      statuses
      status := if s.isOn "pipefail" then failed.getD last else last }

/-- Have a program executed beside the shell, and wait for its end. -/
def executeAside (run : Runner) (call : Call) : Work Unit := do
  let s ← get
  let number ← (Course.fork (replaceBy run s call) : Course Nat)
  concludeJob (← awaitJob (← addJob [number]))

/-- Have the program that a command names executed, in the place of the shell if `replaces` is
set. -/
def callProgram (run : Runner) (m : Manner) (replaces : Bool) (name : String)
    (args : List String) : Work Unit := do
  let s ← get
  let v ← (Course.look : Course View)
  match callOf s v name args with
  | .error h =>
    let text := if replaces && s.dialect = .extended then
        (if h.status = 127 then "not found" else "cannot execute: " ++ h.complaint)
      else h.complaint
    Work.complain (name ++ ": " ++ text)
    Work.done h.status
    if replaces then throw .leave
  | .ok call =>
    if !name.toList.contains '/' && (s.found.lookup name).isNone then
      match programPath? s v name with
      | some path => set { s with found := s.found ++ [(name, path)] }
      | none => pure ()
    if replaces || (m.isLast && hasNoTraps s) then (replaceBy run s call : Course Unit)
    else executeAside run call

/-- The arguments of a command.  Those of one that declares parameters are not split if they are
settings. -/
def expandArguments (inner : Inner) : List Word → Work (List String)
  | [] => pure []
  | w :: rest => do
    let d := (← get).dialect
    let first ← expandFields inner w
    match first with
    | [] => expandArguments inner rest
    | "command" :: _ => pure (first ++ (← expandArguments inner rest))
    | name :: _ =>
      let declares := match d with
        | .basic => ["export", "readonly", "local"]
        | .extended => declarations
      let more ← rest.mapM fun w => do
        match if declares.contains name then setting? d w else none with
        | some ⟨target, none, appends, .text value⟩ => do
          let value ← expandSetting inner value
          pure [target ++ (if appends then "+=" else "=") ++ value]
        | _ => expandFields inner w
      pure (first ++ more.flatten)

/-- The value of an expression in which other things may have to be put. -/
def expandCalculation (inner : Inner) (expression : String) : Work Int := do
  let s ← get
  let w ← readAgain (readQuotable s.dialect .dropped expression)
  let atoms ← w.mapM (expandPiece inner wordDepth)
  set { s with command := some "((" }
  let n ← calculate (plainText atoms.flatten)
  modify fun t => { t with command := s.command }
  pure n

end FolderTasks.Shell
