import FolderTasks.Notice
import FolderTasks.Wire.Command
import FolderTasks.Wire.Outcome
/-!
# Notices in JSON

## Main definitions

* `StartNotice.toJson`, `StartNotice.decode`
* `EndNotice.toJson`, `EndNotice.decode`
-/

namespace FolderTasks

open Json

/-- A task number in JSON. -/
def TaskId.toJson (id : TaskId) : Value := .nat id.number

/-- A task number. -/
def TaskId.decode : Decoder TaskId := fun t => (decodeWord t).map TaskId.mk

/-- A timestamp in JSON. -/
def Timestamp.toJson (t : Timestamp) : Value := .text t.toString

/-- A timestamp. -/
def Timestamp.decode : Decoder Timestamp := fun t => do
  let s ← decodeTextAs "an RFC 3339 formatted date and time string" t
  match Timestamp.ofString s with
  | .ok stamp => .ok stamp
  | .error e => complain (.unreadable e.message)

namespace StartNotice

/-- A start notice in JSON. -/
def toJson (n : StartNotice) : Value :=
  .object [("id", n.id.toJson), ("command", n.command.toJson),
    ("timestamp", n.timestamp.toJson)]

/-- The fields of a start notice read so far. -/
structure Part where
  id : Option TaskId := none
  command : Option Command := none
  timestamp : Option Timestamp := none

/-- How a start notice is decoded. -/
def shape : RecordShape Part StartNotice where
  description := "struct TaskStarted"
  fields := [
    { name := "id", isGiven := fun p => p.id.isSome, isOptional := false
      read := fun p t => (TaskId.decode t).map fun a => { p with id := some a } },
    { name := "command", isGiven := fun p => p.command.isSome, isOptional := false
      read := fun p t => (Command.decode t).map fun a => { p with command := some a } },
    { name := "timestamp", isGiven := fun p => p.timestamp.isSome, isOptional := false
      read := fun p t => (Timestamp.decode t).map fun a => { p with timestamp := some a } }]
  blank := {}
  finish := fun
    | ⟨none, _, _⟩ => .error (.missingField "id")
    | ⟨some _, none, _⟩ => .error (.missingField "command")
    | ⟨some _, some _, none⟩ => .error (.missingField "timestamp")
    | ⟨some id, some command, some timestamp⟩ => .ok ⟨id, command, timestamp⟩

/-- The start notice of a tree. -/
def decode : Decoder StartNotice := shape.decode

end StartNotice

namespace EndNotice

/-- An end notice in JSON. -/
def toJson (n : EndNotice) : Value :=
  .object [("id", n.id.toJson), ("command", n.command.toJson),
    ("exitCode", .option exitCodeToJson n.exitCode), ("timestamp", n.timestamp.toJson)]

/-- The fields of an end notice read so far. -/
structure Part where
  id : Option TaskId := none
  command : Option Command := none
  exitCode : Option (Option Int32) := none
  timestamp : Option Timestamp := none

/-- How an end notice is decoded: an object may leave the exit code out, an array may not. -/
def shape : RecordShape Part EndNotice where
  description := "struct TaskEnded"
  fields := [
    { name := "id", isGiven := fun p => p.id.isSome, isOptional := false
      read := fun p t => (TaskId.decode t).map fun a => { p with id := some a } },
    { name := "command", isGiven := fun p => p.command.isSome, isOptional := false
      read := fun p t => (Command.decode t).map fun a => { p with command := some a } },
    { name := "exitCode", isGiven := fun p => p.exitCode.isSome, isOptional := false
      read := fun p t =>
        (decodeOption decodeExitCode t).map fun a => { p with exitCode := some a } },
    { name := "timestamp", isGiven := fun p => p.timestamp.isSome, isOptional := false
      read := fun p t => (Timestamp.decode t).map fun a => { p with timestamp := some a } }]
  blank := {}
  finish := fun
    | ⟨none, _, _, _⟩ => .error (.missingField "id")
    | ⟨some _, none, _, _⟩ => .error (.missingField "command")
    | ⟨some _, some _, _, none⟩ => .error (.missingField "timestamp")
    | ⟨some id, some command, exitCode, some timestamp⟩ =>
      .ok ⟨id, command, exitCode.getD none, timestamp⟩

/-- The end notice of a tree. -/
def decode : Decoder EndNotice := shape.decode

end EndNotice

end FolderTasks
