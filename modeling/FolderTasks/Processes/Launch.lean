import FolderTasks.Command
import FolderTasks.Failure
import FolderTasks.Machine.Host
import FolderTasks.Outcome
import FolderTasks.Processes.Workplace
/-!
# Launching processes

A command is launched on a machine: its working folder is entered, its program is looked for, and
a process begins, which knows the texts of the command by their bytes.  Whoever launches it may read
along what it writes.

## Main definitions

* `Processes.launch`: the machine with a command's process, or why there is none.
-/

namespace FolderTasks.Processes

open Files Machine

/-- Is there the character NUL in a text? -/
def hasNul (s : String) : Bool := s.toList.contains '\x00'

/-- Is there the character NUL anywhere in a command? -/
def mentionsNul (c : Command) : Bool :=
  hasNul c.program || c.args.any hasNul || c.cwd.any (fun p => hasNul p.text) ||
    c.env.entries.any fun (k, v) => hasNul k || hasNul v

/-- What is said of a command with the character NUL in it. -/
def nulReason : String := "nul byte found in provided data"

/-- A machine on which nothing has happened, with some folders in the working folder. -/
def freshHost (folders : List String) : Host := { store := { volume := workplace (folders.map inner) } }

/-- The variables that every process finds, unless its command says otherwise. -/
def usualVariables : List (String × String) := [("HOME", "/root"), ("PATH", standardPath)]

/-- The variables that a process finds. -/
def environmentOf (c : Command) : List (String × String) :=
  ((Environment.ofList usualVariables).insertAll c.env.entries).entries.map fun (name, value) =>
    (inner name, inner value)

/-- The way to the working folder of a command. -/
def folderOf (v : Volume) (c : Command) : Except Fault Spot :=
  let usual := workingSpot v
  match c.cwd with
  | none => .ok usual
  | some p => match v.find usual (inner p.text) with
    | .error fault => .error fault
    | .ok s => if v.isFolder s.node then .ok s else .error .notDirectory

/-- The program of a command and all that belongs to its process.  A file that does not say what
executes it is a script only if the command sets a search path. -/
def prepare (h : Host) (c : Command) : Except Fault (Context × Call) := do
  let here ← folderOf h.store.volume c
  let context : Context := { number := 0, here, environment := environmentOf c }
  let call ← (h.view context).callOf (c.env.get? "PATH").isSome (inner c.program)
    (c.args.map inner)
  .ok (context, call)

/-- Those who read along what a process writes: its output and its errors. -/
structure Readers where
  output : Nat
  errors : Nat

/-- The machine with two new readers, and the open files that lead to them. -/
def addReaders (s : Store) : Store × Readers × Nat × Nat :=
  let n := s.listeners.size
  let (s, output) := s.makeListener
  let (s, errors) := s.makeListener
  (s, ⟨n, n + 1⟩, output, errors)

/-- The store with a device opened, and the number of the open file. -/
def openNull (s : Store) : Store × Nat :=
  match s.volume.find [] "/dev/null" with
  | .ok spot => s.openFile { target := .node spot.node, reads := true, writes := true }
  | .error _ => s.openFile { target := .node 0 }

/-- A launched process. -/
structure Launched where
  host : Host
  number : Nat
  readers : Option Readers

/-- The machine with the process of a command; `isRead` says whether somebody reads along. -/
def begin (h : Host) (isRead : Bool) (context : Context) (call : Call) : Launched :=
  let (store, null) := openNull h.store
  let (store, readers, output, errors) :=
    if isRead then
      let (store, readers, output, errors) := addReaders store
      (store, some readers, output, errors)
    else (store, none, null, null)
  let context := { context with channels := [(0, null), (1, output), (2, errors)] }
  let (host, number) := ({ h with store } : Host).start context (Course.become runProgram call)
  ⟨host, number, readers⟩

/-- The machine with a command's process, or why there is none. -/
def launch (h : Host) (isRead : Bool) (c : Command) : Except Failure Launched :=
  if mentionsNul c then .error (.launch c.program nulReason)
  else match prepare h c with
    | .error fault => .error (.launch c.program fault.message)
    | .ok (context, call) => .ok (begin h isRead context call)

end FolderTasks.Processes
