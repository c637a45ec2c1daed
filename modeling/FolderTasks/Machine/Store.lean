import FolderTasks.Machine.Volume
/-!
# What the programs of a machine share

Besides the volume these are the files that are open, pipes, and listeners: those who read along
outside the machine, line by line.

## Main definitions

* `Opened`: an open file.
* `Listener`: one who reads along, until a line comes that is no text.
* `Store`: all of it.
* `Context`: what belongs to one program, such as its working folder and its channels.
-/

namespace FolderTasks.Machine

open Files

/-- Where an open file leads. -/
inductive Opened.Target where
  /-- To a node of the volume. -/
  | node (n : Nat)
  /-- To one end of a pipe. -/
  | pipe (n : Nat) (isWriting : Bool)
  /-- To a listener. -/
  | listener (n : Nat)
deriving DecidableEq, Repr

/-- An open file: where it leads, how far it has been read or written, and what it is open for. -/
structure Opened where
  target : Opened.Target
  position : Nat := 0
  reads : Bool := false
  writes : Bool := false
  /-- Is everything written at the end? -/
  appends : Bool := false
deriving DecidableEq, Repr

/-- One who reads along line by line. -/
structure Listener where
  /-- What was written, the latest first. -/
  heard : List Bytes := []
  /-- The line that is not yet complete, reversed. -/
  current : Bytes := []
  /-- When a line came that is no text, after which nobody listens. -/
  leftAt : Option Nat := none

namespace Listener

/-- Go on with the reversed beginning of a line; the answer says whether a line came that is no
text. -/
def follow (current : Bytes) : Bytes → Bytes × Bool
  | [] => (current, false)
  | b :: rest =>
    if b = lineFeed then
      if (decodeText? (trimReturn current).reverse).isNone then ([], true) else follow [] rest
    else follow (b :: current) rest

/-- Hear what is written at a moment. -/
def hear (l : Listener) (now : Nat) (bs : Bytes) : Listener :=
  match l.leftAt with
  | some _ => { l with heard := bs :: l.heard }
  | none =>
    let (current, isOver) := follow l.current bs
    { heard := bs :: l.heard, current, leftAt := if isOver then some now else none }

/-- Does nobody listen any more?  Whatever is written at the moment itself still arrives. -/
def hasLeft (l : Listener) (now : Nat) : Bool := l.leftAt.any fun t => decide (t < now)

/-- The lines that were read. -/
def lines (l : Listener) : List String := readableLines l.heard.reverse.flatten

end Listener

/-- What the programs of a machine share. -/
structure Store where
  volume : Volume := {}
  opened : Array Opened := #[]
  pipes : Array Bytes := #[]
  listeners : Array Listener := #[]

namespace Store

/-- Open a file; the answer holds its number. -/
def openFile (s : Store) (o : Opened) : Store × Nat :=
  ({ s with opened := s.opened.push o }, s.opened.size)

/-- A new pipe with some bytes in it; the answer holds the numbers of its two ends, the one to
read from first. -/
def makePipe (s : Store) (bs : Bytes) : Store × Nat × Nat :=
  let n := s.pipes.size
  let opened := (s.opened.push { target := .pipe n false, reads := true }).push
    { target := .pipe n true, writes := true }
  ({ s with pipes := s.pipes.push bs, opened }, s.opened.size, s.opened.size + 1)

/-- A new listener; the answer holds the number of an open file that leads to it. -/
def makeListener (s : Store) : Store × Nat :=
  let n := s.listeners.size
  ({ s with listeners := s.listeners.push {} } : Store).openFile
    { target := .listener n, writes := true }

end Store

/-- What belongs to one program. -/
structure Context where
  number : Nat
  /-- The number of the program that started it. -/
  starter : Nat := 0
  /-- The number of its group, all of which can be sent a signal at once. -/
  group : Nat := 0
  /-- The working folder. -/
  here : Spot := []
  /-- What nobody may do with a new file. -/
  mask : Nat := 0o022
  /-- The open files by the numbers of channels. -/
  channels : List (Nat × Nat) := []
  environment : List (String × String) := []
  /-- The signals that do nothing. -/
  ignored : List Nat := []
  /-- The signals that are kept until the program asks for them. -/
  caught : List Nat := []
  /-- Those that were kept, the latest last. -/
  pending : List Nat := []

namespace Context

/-- Have a channel lead to an open file, or close it. -/
def setChannel (c : Context) (channel : Nat) (o : Option Nat) : Context :=
  let others := c.channels.filter fun e => e.1 != channel
  { c with channels := match o with | some o => (channel, o) :: others | none => others }

/-- The open file of a channel. -/
def opened? (c : Context) (channel : Nat) : Option Nat := c.channels.lookup channel

end Context

/-- What a program sees: the shared things, its own, and the clock. -/
structure View where
  store : Store
  context : Context
  /-- Microseconds since the machine was started. -/
  clock : Nat

namespace View

/-- The spot of a path for this program. -/
def find (v : View) (path : String) (follows : Bool := true) : Except Fault Spot :=
  v.store.volume.find v.context.here path follows

/-- The node at a path. -/
def nodeAt? (v : View) (path : String) (follows : Bool := true) : Option Node :=
  v.store.volume.nodeAt? v.context.here path follows

/-- Is there a folder at a path? -/
def hasFolder (v : View) (path : String) : Bool :=
  v.store.volume.hasFolder v.context.here path

/-- Another volume. -/
def withVolume (v : View) (volume : Volume) : View :=
  { v with store := { v.store with volume } }

/-- The open file of a channel. -/
def opened? (v : View) (channel : Nat) : Option Opened :=
  (v.context.opened? channel).bind fun o => v.store.opened[o]?

/-- A variable of the environment. -/
def valueOf? (v : View) (name : String) : Option String := v.context.environment.lookup name

end View

end FolderTasks.Machine
