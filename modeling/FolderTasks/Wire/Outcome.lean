import FolderTasks.Json.Decoder
import FolderTasks.Json.Value
import FolderTasks.Outcome
/-!
# Outcomes in JSON

An outcome is a sum with the tag `type`.

## Main definitions

* `Outcome.toJson`, `Outcome.decode`: the written form and the outcome of a tree.
-/

namespace FolderTasks

open Json

/-- An exit code in JSON. -/
def exitCodeToJson (code : Int32) : Value := .int code.toInt

/-- An exit code. -/
def decodeExitCode : Decoder Int32 := fun t => (decodeInt t).map Int32.ofInt

namespace Outcome

/-- An outcome in JSON. -/
def toJson : Outcome → Value
  | .exited code => .object [("type", .text "exited"), ("code", exitCodeToJson code)]
  | .terminated => .object [("type", .text "terminated")]
  | .cancelled => .object [("type", .text "cancelled")]
  | .launchFailed reason => .object [("type", .text "launchFailed"), ("reason", .text reason)]

/-- How the fields of an exit are decoded. -/
def exitedShape : RecordShape (Option Int32) Outcome where
  description := "struct variant ExitOutcome::Exited"
  fields := [
    { name := "code", isGiven := Option.isSome, isOptional := false
      read := fun _ t => (decodeExitCode t).map some }]
  blank := none
  finish := fun
    | some code => .ok (.exited code)
    | none => .error (.missingField "code")

/-- How the fields of a failed launch are decoded. -/
def launchFailedShape : RecordShape (Option String) Outcome where
  description := "struct variant ExitOutcome::LaunchFailed"
  fields := [
    { name := "reason", isGiven := Option.isSome, isOptional := false
      read := fun _ t => (decodeText t).map some }]
  blank := none
  finish := fun
    | some reason => .ok (.launchFailed reason)
    | none => .error (.missingField "reason")

/-- How an outcome is decoded. -/
def shape : SumShape Outcome where
  name := "ExitOutcome"
  tag := "type"
  variants := [
    ("exited", SumShape.recordVariant exitedShape),
    ("terminated", SumShape.plainVariant .terminated),
    ("cancelled", SumShape.plainVariant .cancelled),
    ("launchFailed", SumShape.recordVariant launchFailedShape)]

/-- The outcome of a tree. -/
def decode : Decoder Outcome := shape.decode 0

end Outcome

end FolderTasks
