import FolderTasks.Machine.Executable
import FolderTasks.Machine.Signal
import FolderTasks.Shell.Arithmetic
import FolderTasks.Shell.Script
/-!
# The state of a shell

What a shell keeps between two commands: its parameters and arguments, functions and traps, the
status of the last command, and the processes that it started.

## Main definitions

* `Shell.State`: the state.
* `Shell.State.value?`: the value of a parameter, special ones included.
* `Shell.Flow`: how a script goes on after a command.
* `Shell.Work`: what a shell does, as part of a process.
-/

namespace FolderTasks.Shell

open Machine

/-- What a parameter holds. -/
inductive Value where
  | text (s : String)
  /-- Elements by their numbers, in ascending order. -/
  | array (elements : List (Nat × String))
  /-- Elements by their names, in the order in which they were put in. -/
  | table (elements : List (String × String))
deriving DecidableEq, Repr

/-- A parameter with a name. -/
structure Parameter where
  value : Option Value := none
  /-- Do programs find it in their environment? -/
  isExported : Bool := false
  isReadonly : Bool := false
  /-- Is everything that it is set to an expression, of which the value counts? -/
  isInteger : Bool := false
  /-- Do its letters become large, or small? -/
  folding : Option Bool := none
deriving DecidableEq, Repr

/-- A process that was started and not waited for. -/
structure Child where
  number : Nat
  /-- How it ended, once that is known. -/
  ending : Option Ending := none
deriving DecidableEq, Repr

/-- Processes that were started together as the parts of a pipeline. -/
structure Job where
  /-- The number by which the job goes. -/
  number : Nat
  parts : List Child
  /-- Has somebody waited for it? -/
  isWaited : Bool := false
deriving DecidableEq, Repr

/-- How a job ended, if it did: as its last part. -/
def Job.ending? (j : Job) : Option Ending :=
  if j.parts.all fun c => c.ending.isSome then j.parts.getLast?.bind Child.ending else none

/-- The number of the process by which a job is known: of its last part. -/
def Job.leader (j : Job) : Nat := (j.parts.getLast?.map Child.number).getD 0

/-- What a shell keeps between two commands. -/
structure State where
  dialect : Dialect
  name : String := "sh"
  arguments : List String := []
  /-- In the order in which they were first set. -/
  parameters : List (String × Parameter) := []
  /-- For every function that is called, its name and the parameters that it set for itself, with
  what they were before, the latest first. -/
  frames : List (String × List (String × Option Parameter)) := []
  functions : List (String × Node) := []
  aliases : List (String × String) := []
  /-- The paths of the programs that were found. -/
  found : List (String × String) := []
  /-- The channels that lead to scripts in the place of paths. -/
  attached : List Nat := []
  /-- The options that are switched on. -/
  options : List String := []
  /-- The status of the last command. -/
  status : Nat := 0
  /-- The statuses of the parts of the last pipeline. -/
  statuses : List Nat := [0]
  /-- The status of the last script whose output was put in, if there was one in this command. -/
  outputStatus : Option Nat := none
  /-- The line of the script that is executed. -/
  line : Nat := 1
  /-- The command of the shell itself that is executed, as complaints name it. -/
  command : Option String := none
  /-- What is to be done on a signal; at the end for number zero, after failures for number 100. -/
  traps : List (Nat × String) := []
  /-- The process number by which the shell goes. -/
  number : Nat := 0
  /-- In how many loops the shell is. -/
  loops : Nat := 0
  /-- How many times the shell was split off from another. -/
  level : Nat := 0
  jobs : List Job := []
  /-- The process that was started last and is not waited for. -/
  lastChild : Option Nat := none
  /-- The status before what is done on a signal. -/
  statusBefore : Option Nat := none
  /-- The signals that did nothing when the shell began; nothing can be done on them. -/
  deaf : List Nat := []
  /-- The path of the working folder as it was reached. -/
  here : String := "/"
  /-- Channels that hold on to where others led before. -/
  saved : List Nat := []
  /-- The number of the argument that `getopts` looks at, and where in it. -/
  optionIndex : Nat := 1
  optionPlace : Nat := 0
  /-- The path of the file whose commands are executed, unless they were given at the start. -/
  source : Option String := none
  /-- How many files are put in within each other. -/
  sources : Nat := 0
  /-- The last argument of the last command. -/
  lastArgument : String := ""
  /-- A number from which others are made that are hard to guess. -/
  seed : Nat := 12345

/-- How a script goes on after a command, if not with the next. -/
inductive Flow where
  /-- The shell exits with its status. -/
  | leave
  /-- So many loops end. -/
  | breaking (n : Nat)
  /-- So many loops but one end, and that one goes on with its next round. -/
  | continuing (n : Nat)
  /-- A function returns. -/
  | returning
  /-- A command cannot be executed.  Unless it is one of the shell's own, the shell exits. -/
  | refused
  /-- The rest of the line is left out. -/
  | abandoned
deriving DecidableEq, Repr

/-- What a shell does, as part of a process. -/
abbrev Work := ExceptT Flow (StateT State Course)

namespace State

/-- The words with which complaints begin. -/
def caller (s : State) : String :=
  (match s.dialect with
    | .basic => s.name ++ ": " ++ toString s.line ++ ": "
    | .extended =>
      s.source.getD (if s.frames.isEmpty then s.name else "environment") ++ ": line " ++
        toString s.line ++ ": ") ++
  s.command.elim "" (· ++ ": ")

/-- Is an option switched on? -/
def isOn (s : State) (option : String) : Bool := s.options.contains option

/-- Switch an option. -/
def switch (s : State) (option : String) (value : Bool) : State :=
  let others := s.options.filter (· != option)
  { s with options := if value then others ++ [option] else others }

/-- A parameter with a name. -/
def parameter? (s : State) (name : String) : Option Parameter := s.parameters.lookup name

/-- The letters of options that are switched on. -/
def optionLetters : List (Char × String) :=
  [('e', "errexit"), ('f', "noglob"), ('n', "noexec"), ('x', "xtrace"), ('v', "verbose"),
    ('C', "noclobber"), ('a', "allexport"), ('b', "notify"), ('u', "nounset"), ('m', "monitor"),
    ('h', "hashall"), ('B', "braceexpand"), ('p', "privileged"), ('E', "errtrace")]

/-- The text that a value is without an index: for an array its first element. -/
def textOf? : Value → Option String
  | .text s => some s
  | .array elements => elements.lookup 0
  | .table elements => elements.lookup "0"

/-- The parameters that the extended language computes. -/
def computed? (s : State) (name : String) : Option Value :=
  match name with
  | "FUNCNAME" =>
    if s.frames.isEmpty then none
    else some (.array ((s.frames.map (·.1)).zipIdx.map fun (n, i) => (i, n)))
  | "PIPESTATUS" => some (.array (s.statuses.zipIdx.map fun (n, i) => (i, toString n)))
  | "LINENO" => some (.text (toString s.line))
  | "BASH_SUBSHELL" => some (.text (toString s.level))
  | "RANDOM" => some (.text (toString (s.seed / 65536 % 32768)))
  | "BASH_SOURCE" => if s.frames.isEmpty then none else some (.array [(0, "environment")])
  | _ => none

/-- What a parameter with a name holds. -/
def held? (s : State) (name : String) : Option Value :=
  match if s.dialect = .extended then s.computed? name else none with
  | some v => some v
  | none => (s.parameter? name).bind Parameter.value

/-- The value of a parameter, special ones included. -/
def value? (s : State) (name : String) : Option String :=
  let cs := name.toList
  if name = "#" then some (toString s.arguments.length)
  else if name = "?" then some (toString s.status)
  else if name = "$" then some (toString s.number)
  else if name = "!" then s.lastChild.map toString
  else if name = "-" then
    let on := s.options.filterMap fun o => (optionLetters.find? fun l => l.2 == o).map (·.1)
    some (if s.dialect = .extended then "hB" ++ String.ofList on ++ "c"
      else String.ofList ((optionLetters.map (·.1)).filter on.contains).reverse)
  else if name = "_" && s.dialect = .extended then some s.lastArgument
  else if name = "@" || name = "*" then
    if s.arguments.isEmpty then none else some (String.intercalate " " s.arguments)
  else if !cs.isEmpty && cs.all Char.isDigit then
    match cs.foldl (fun n c => n * 10 + (c.toNat - 48)) 0 with
    | 0 => some s.name
    | n + 1 => s.arguments[n]?
  else (s.held? name).bind textOf?

/-- Put a parameter in its place. -/
def put (s : State) (name : String) (p : Parameter) : State :=
  { s with parameters :=
      if (s.parameter? name).isSome then
        s.parameters.map fun e => if e.1 = name then (name, p) else e
      else s.parameters ++ [(name, p)] }

/-- Change a parameter, which is made if it is not there. -/
def change (s : State) (name : String) (f : Parameter → Parameter) : State :=
  s.put name (f ((s.parameter? name).getD {}))

/-- Put an element among others, in ascending order of numbers. -/
def insertElement (n : Nat) (value : String) : List (Nat × String) → List (Nat × String)
  | [] => [(n, value)]
  | (m, old) :: rest =>
    if n < m then (n, value) :: (m, old) :: rest
    else if n = m then (n, value) :: rest
    else (m, old) :: insertElement n value rest

/-- Set the text of a parameter; of an array its first element.  Nothing else about it changes. -/
def set (s : State) (name text : String) : State :=
  s.change name fun p =>
    let text := match p.folding with
      | some true => String.ofList (text.toList.map Char.toUpper)
      | some false => String.ofList (text.toList.map Char.toLower)
      | none => text
    { p with
      value := some (match p.value with
        | some (.array elements) => .array (insertElement 0 text elements)
        | some (.table elements) =>
          .table ((elements.filter fun e => e.1 != "0") ++ [("0", text)])
        | _ => .text text)
      isExported := p.isExported || s.isOn "allexport" }

/-- Forget a parameter. -/
def unset (s : State) (name : String) : State :=
  { s with parameters := s.parameters.filter fun e => e.1 != name }

/-- Make parameters what they were before, one after the other. -/
def restore (s : State) (before : List (String × Option Parameter)) : State :=
  before.foldl (fun s (name, p) => match p with
    | some p => s.put name p
    | none => s.unset name) s

/-- The place of a name among the 39 places of a shell's table. -/
def placeOf (name : String) : Nat :=
  let cs := name.toList
  ((cs.head?.map fun c => c.toNat * 16).getD 0 + (cs.map Char.toNat).foldl (· + ·) 0) % 39

/-- The place of a name among the 1024 places of a table. -/
def placeInTable (name : String) : Nat :=
  (name.toList.foldl (fun n c => (n * 16777619 % 4294967296) ^^^ c.toNat) 2166136261) % 1024

/-- The environment of programs, in the order of the places that the names have. -/
def environment (s : State) : List (String × String) :=
  let entries := s.parameters.filterMap fun (name, p) =>
    if p.isExported then (p.value.bind textOf?).map fun v => (name, v) else none
  let place : String → Nat := match s.dialect with
    | .basic => placeOf
    | .extended => placeInTable
  entries.mergeSort fun a b => decide (place a.1 ≤ place b.1)

/-- The characters that separate fields. -/
def separators (s : State) : List Char :=
  match s.parameter? "IFS" with
  | some p => ((p.value.bind textOf?).getD "").toList
  | none => [' ', '\t', '\n']

/-- The elements of an array by their indexes. -/
def elementsOf (s : State) (name : String) : List (String × String) :=
  match s.held? name with
  | some (.array elements) => elements.map fun (n, v) => (toString n, v)
  | some (.table elements) =>
    elements.mergeSort fun a b => decide (placeInTable a.1 ≤ placeInTable b.1)
  | some (.text v) => [("0", v)]
  | none => []

end State

/-! ## Work -/

namespace Work

/-- Finish a command with a status. -/
def done (status : Nat) : Work Unit := modify fun s => { s with status }

/-- Complain. -/
def complain (text : String) : Work Unit := do
  Course.complain ((← get).caller ++ text)

/-- Exit with a status. -/
def exit {α : Type} (status : Nat) : Work α := do
  done status
  throw .leave

/-- Refuse a command. -/
def refuse {α : Type} (text : String) (status : Nat := 2) : Work α := do
  complain text
  done status
  throw .refused

/-- Give up because something cannot be expanded. -/
def giveUp {α : Type} (text : String) : Work α := do
  match (← get).dialect with
  | .basic => refuse text
  | .extended => do
    complain text
    done 1
    throw .abandoned

/-- Something that can be done without a machine. -/
def purely {α : Type} (f : State → α × State) : Work α := modifyGet f

end Work

end FolderTasks.Shell
