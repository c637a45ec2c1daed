import FolderTasks.Machine.Store
/-!
# Processes

A process is described by what it asks the machine for next, and by how it goes on with the
answer.  So it can be stopped at every question, and many processes can share a machine.

A `Course` is a part of a process: given how to go on with its result, it is a process.

## Main definitions

* `Ending`: how a process ends.
* `Process`: a process from some moment on.
* `Course`: a part of a process, with a result.

## Main statements

* `Course` is a lawful monad.

## Design notes

A question that can be answered at once does not let other processes in between, so what a process
does from looking at the machine to changing it is done in one piece.
-/

namespace FolderTasks.Machine

open Files

/-- How a process ends. -/
inductive Ending where
  /-- With an exit code. -/
  | exited (code : Nat)
  /-- By a signal. -/
  | killed (signal : Nat)
deriving DecidableEq, Repr

/-- The exit code, if there is one. -/
def Ending.code? : Ending → Option Int32
  | .exited code => some (Int32.ofNat code)
  | .killed _ => none

/-- The number by which a shell knows an ending. -/
def Ending.status : Ending → Nat
  | .exited code => code
  | .killed signal => 128 + signal

/-- What comes of waiting for another process. -/
inductive Awaited where
  | ended (number : Nat) (e : Ending)
  /-- There is nobody to wait for, or nobody at the end for one who does not wait. -/
  | nobody
  /-- A signal came first. -/
  | interrupted

/-- How long somebody waits for others. -/
inductive Waiting where
  /-- Come what may. -/
  | steadfast
  /-- Until a signal comes. -/
  | watchful
  /-- Not at all. -/
  | hurried
deriving DecidableEq, Repr

/-- A process from some moment on. -/
inductive Process where
  | ended (e : Ending)
  /-- It goes on without end, and nothing of it can be seen. -/
  | spinning
  /-- It lets others go first. -/
  | pause (next : Unit → Process)
  | look (next : View → Process)
  | change (v : View) (next : Unit → Process)
  /-- It sleeps for some microseconds. -/
  | sleep (time : Nat) (next : Unit → Process)
  /-- It reads at most so many bytes from a channel; none is the end of what can be read. -/
  | read (channel limit : Nat) (next : Except Fault Bytes → Process)
  | write (channel : Nat) (bs : Bytes) (next : Except Fault Unit → Process)
  /-- It starts another process, which gets a copy of all that belongs to it. -/
  | fork (child : Process) (next : Nat → Process)
  /-- It waits for the end of one of the processes it started, or of any. -/
  | await (number : Option Nat) (w : Waiting) (next : Awaited → Process)
  /-- It sends a signal, zero for none, to a process, or to a group if the number is zero for its
  own or below; the answer says whether anybody is there. -/
  | signal (target : Int) (n : Nat) (next : Bool → Process)

/-- A part of a process, with a result. -/
def Course (α : Type) : Type := (α → Process) → Process

namespace Course

instance : Monad Course where
  pure a := fun next => next a
  bind m f := fun next => m fun a => f a next

instance : LawfulMonad Course where
  map_const := rfl
  id_map _ := rfl
  seqLeft_eq _ _ := rfl
  seqRight_eq _ _ := rfl
  pure_seq _ _ := rfl
  bind_pure_comp _ _ := rfl
  bind_map _ _ := rfl
  pure_bind _ _ := rfl
  bind_assoc _ _ _ := rfl

/-- A process that ends with the result of a course. -/
def toProcess (t : Course Ending) : Process := t .ended

/-- Never go on. -/
def spin {α : Type} : Course α := fun _ => .spinning

/-- End at once. -/
def stop {α : Type} (e : Ending) : Course α := fun _ => .ended e

/-- Let others go first. -/
def pause : Course Unit := Process.pause

/-- Look at the machine. -/
def look : Course View := Process.look

/-- Change the machine. -/
def change (v : View) : Course Unit := Process.change v

/-- Change what belongs to the process. -/
def changeContext (f : Context → Context) : Course Unit := do
  let v ← look
  change { v with context := f v.context }

/-- Change the shared things, with a result. -/
def changeStore {α : Type} (f : Store → Store × α) : Course α := do
  let v ← look
  let (store, a) := f v.store
  change { v with store }
  pure a

/-- Change the volume, if that is possible. -/
def changeVolume (f : View → Except Fault Volume) : Course (Except Fault Unit) := do
  let v ← look
  match f v with
  | .error fault => pure (.error fault)
  | .ok volume =>
    change (v.withVolume volume)
    pure (.ok ())

/-- Sleep for some microseconds. -/
def sleep (time : Nat) : Course Unit := Process.sleep time

/-- Read at most so many bytes from a channel. -/
def read (channel limit : Nat) : Course (Except Fault Bytes) := Process.read channel limit

/-- Write to a channel. -/
def write (channel : Nat) (bs : Bytes) : Course (Except Fault Unit) :=
  if bs.isEmpty then pure (.ok ()) else Process.write channel bs

/-- Start another process. -/
def fork (child : Course Ending) : Course Nat := Process.fork child.toProcess

/-- Wait for the end of a process. -/
def await (number : Option Nat) (w : Waiting) : Course Awaited := Process.await number w

/-- Send a signal to a process, or to a group if the number is zero or below. -/
def signal (target : Int) (n : Nat) : Course Bool := Process.signal target n

/-- Wait for the end of a process, come what may. -/
def join (number : Nat) : Course Ending := do
  match ← await (some number) .steadfast with
  | .ended _ e => pure e
  | _ => pure (.exited 127)

/-! ## Reading and writing -/

/-- Write a text to a channel, whether it arrives or not. -/
def print (channel : Nat) (text : String) : Course Unit := do
  let _ ← write channel (bytesOf text)

/-- Complain on the channel for errors. -/
def complain (text : String) : Course Unit := print 2 (text ++ "\n")

/-- How much is read at once. -/
def chunk : Nat := 65536

/-- As many reads as anybody needs. -/
def manyReads : Nat := 1000000000

/-- Read everything that comes from a channel. -/
def readAllGo (channel : Nat) : Nat → List Bytes → Course (Except Fault Bytes)
  | 0, _ => spin
  | fuel + 1, before => do
    match ← read channel chunk with
    | .error fault => pure (.error fault)
    | .ok [] => pure (.ok before.reverse.flatten)
    | .ok bs => readAllGo channel fuel (bs :: before)

/-- Read everything that comes from a channel. -/
def readAll (channel : Nat) : Course (Except Fault Bytes) := readAllGo channel manyReads []

end Course

end FolderTasks.Machine
