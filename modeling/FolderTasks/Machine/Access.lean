import FolderTasks.Machine.Process
/-!
# Opening files

A file is opened for a purpose, on a channel that is free.

## Main definitions

* `Purpose`: what a file is opened for.
* `Course.openPath`: open the file of a path.
* `Course.readFile`: everything that is in a file.
-/

namespace FolderTasks.Machine

open Files

/-- What a file is opened for. -/
structure Purpose where
  reads : Bool := false
  writes : Bool := false
  appends : Bool := false
  /-- Is the file made if it is not there? -/
  creates : Bool := false
  /-- Is everything that is in it taken out? -/
  empties : Bool := false
  /-- Must it not be there? -/
  isNew : Bool := false
deriving DecidableEq, Repr

/-- To read what is there. -/
def Purpose.toRead : Purpose := { reads := true }

/-- To write from the beginning. -/
def Purpose.toWrite : Purpose := { writes := true, creates := true, empties := true }

/-- To write at the end. -/
def Purpose.toAppend : Purpose := { writes := true, creates := true, appends := true }

/-- The first channel from a number on that is free. -/
def Context.freeChannel (c : Context) (first : Nat) : Nat :=
  ((List.range (c.channels.length + 1)).map (first + ·)).find?
    (fun n => (c.opened? n).isNone) |>.getD first

namespace Course

/-- The mode of a new file, but for what the program forbids. -/
def newFileMode (c : Context) : Nat := 0o666 - (0o666 &&& c.mask)

/-- Open the file of a path; the answer is the number of the open file. -/
def openPath (path : String) (p : Purpose) : Course (Except Fault Nat) := do
  let v ← look
  let volume := v.store.volume
  let here := v.context.here
  let opening (v : View) (n : Nat) : Course (Except Fault Nat) := do
    let volume := if p.empties then v.store.volume.setContent n [] v.clock else v.store.volume
    let (store, o) := ({ v.store with volume } : Store).openFile
      { target := .node n, reads := p.reads, writes := p.writes, appends := p.appends }
    change { v with store }
    pure (.ok o)
  match volume.find here path with
  | .ok s =>
    if p.isNew then pure (.error .alreadyExists)
    else match volume.node? s.node with
      | some ⟨.folder _, _, _⟩ =>
        if p.writes then pure (.error .isDirectory) else opening v s.node
      | some ⟨.device (.channel n), _, _⟩ => match v.context.opened? n with
        | some o => pure (.ok o)
        | none => pure (.error .notFound)
      | _ => opening v s.node
  | .error .notFound =>
    if p.creates then match volume.create here path (newFileMode v.context) v.clock with
      | .ok (volume, n) => opening (v.withVolume volume) n
      | .error fault => pure (.error fault)
    else pure (.error .notFound)
  | .error fault => pure (.error fault)

/-- Open the file of a path on a channel. -/
def openPathOn (channel : Nat) (path : String) (p : Purpose) : Course (Except Fault Unit) := do
  match ← openPath path p with
  | .error fault => pure (.error fault)
  | .ok o =>
    changeContext fun c => c.setChannel channel (some o)
    pure (.ok ())

/-- Close a channel. -/
def close (channel : Nat) : Course Unit := changeContext fun c => c.setChannel channel none

/-- Use the file of a path on a channel that is free until then. -/
def withFile {α : Type} (path : String) (p : Purpose) (use : Nat → Course (Except Fault α)) :
    Course (Except Fault α) := do
  let channel := (← look).context.freeChannel 3
  match ← openPathOn channel path p with
  | .error fault => pure (.error fault)
  | .ok () =>
    let a ← use channel
    close channel
    pure a

/-- Everything that is in a file; `-` is the channel to read from. -/
def readFile (path : String) : Course (Except Fault Bytes) :=
  if path = "-" then readAll 0 else withFile path .toRead readAll

/-- Put bytes into a file. -/
def writeFile (path : String) (p : Purpose) (bs : Bytes) : Course (Except Fault Unit) :=
  withFile path p fun channel => write channel bs

end Course

end FolderTasks.Machine
