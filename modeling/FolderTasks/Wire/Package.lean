import FolderTasks.Package.Action
import FolderTasks.Wire.Command
/-!
# Toolchains, actions and task definitions in JSON

A toolchain and a task definition are records.  An action is a sum with the tag `action`; inside
it the build configuration may also be an object with the configuration's name as its only key.

## Main definitions

* `Toolchain.toJsonIn`, `Toolchain.toJson`, `Toolchain.decode`
* `PackageAction.toJson`, `PackageAction.decode`
* `TaskDefinition.toJson`, `TaskDefinition.decode`
-/

namespace FolderTasks

open Json

namespace Toolchain

/-- A toolchain in JSON, its variables in the order of a list. -/
def toJsonIn (c : Toolchain) (settings : List (String × String)) : Value :=
  .object [("swiftPath", .text c.swiftPath), ("buildArguments", .texts c.buildArguments),
    ("environment", Environment.toJsonIn settings), ("showStatus", .bool c.showStatus),
    ("logOperations", .bool c.logOperations)]

/-- A toolchain in JSON, its variables in the order of their names. -/
def toJson (c : Toolchain) : Value := c.toJsonIn c.environment.entries

/-- The fields of a toolchain read so far. -/
structure Part where
  swiftPath : Option String := none
  buildArguments : Option (List String) := none
  environment : Option Environment := none
  showStatus : Option Bool := none
  logOperations : Option Bool := none

/-- How a toolchain is decoded: every field has a default. -/
def shape : RecordShape Part Toolchain where
  description := "struct ToolchainConfig"
  fields := [
    { name := "swiftPath", isGiven := fun p => p.swiftPath.isSome, isOptional := true
      read := fun p t => (decodeText t).map fun a => { p with swiftPath := some a } },
    { name := "buildArguments", isGiven := fun p => p.buildArguments.isSome, isOptional := true
      read := fun p t =>
        (decodeList decodeText t).map fun a => { p with buildArguments := some a } },
    { name := "environment", isGiven := fun p => p.environment.isSome, isOptional := true
      read := fun p t => (Environment.decode t).map fun a => { p with environment := some a } },
    { name := "showStatus", isGiven := fun p => p.showStatus.isSome, isOptional := true
      read := fun p t => (decodeFlag t).map fun a => { p with showStatus := some a } },
    { name := "logOperations", isGiven := fun p => p.logOperations.isSome, isOptional := true
      read := fun p t => (decodeFlag t).map fun a => { p with logOperations := some a } }]
  blank := {}
  finish := fun p => .ok
    { swiftPath := p.swiftPath.getD standard.swiftPath
      buildArguments := p.buildArguments.getD standard.buildArguments
      environment := p.environment.getD standard.environment
      showStatus := p.showStatus.getD standard.showStatus
      logOperations := p.logOperations.getD standard.logOperations }

/-- The toolchain of a tree. -/
def decode : Decoder Toolchain := shape.decode

end Toolchain

namespace BuildConfiguration

/-- A build configuration in JSON. -/
def toJson (c : BuildConfiguration) : Value := .text c.name

/-- The build configuration of a name. -/
def ofName (name : String) : Decoded BuildConfiguration :=
  if name = "debug" then .ok .debug
  else if name = "release" then .ok .release
  else complain (.unknownVariant name ["debug", "release"])

/-- Nothing, as it stands beside the name of a build configuration. -/
def decodeNothing : Decoder Unit
  | .null => .ok ()
  | t => refuse "unit" t

/-- The build configuration of a whole text: a name, or an object with the name as its only key.
A text that begins in any other way is malformed from its first character on, and so is an object
that goes on after the key's value. -/
def decode : Decoder BuildConfiguration
  | .text (.ok name) => ofName name
  | .text (.error f) => faulty f
  | .object [] none => faulty .malformed
  | .object [] (some b) => faulty b.reading
  | .object ((.error f, _) :: _) _ => faulty f
  | .object ((.ok name, t) :: rest) cut => do
    let c ← ofName name
    decodeNothing t
    match rest with
    | [] => unlessCut cut (.ok c)
    | _ :: _ => faulty .malformed
  | .broken b => faulty (if b.isUnquoted then .malformed else b.reading)
  | .null | .bool _ | .number _ | .array _ _ => faulty .malformed

/-- The build configuration inside an action. -/
def decodeSetAside : Decoder BuildConfiguration
  | .text (.ok name) => ofName name
  | .object [(.ok name, t)] _ => do
    let c ← ofName name
    match t with
    | .object [] _ => .ok c
    | t => do
      decodeNothing t
      .ok c
  | .object _ _ => complain (.wrongValue .object "map with a single key")
  | t => refuse "string or map" t

end BuildConfiguration

namespace PackageAction

/-- An action in JSON. -/
def toJson : PackageAction → Value
  | .buildAll => tagged "buildAll"
  | .build configuration product =>
    .object [("action", .text "build"), ("configuration", configuration.toJson),
      ("product", .text product)]
  | .resolve => tagged "resolve"
  | .update => tagged "update"
  | .clean => tagged "clean"
  | .reset => tagged "reset"
  | .describe => tagged "describe"
  | .showDependencies => tagged "showDependencies"
  | .listTests => tagged "listTests"
where
  /-- An action without fields. -/
  tagged (name : String) : Value := .object [("action", .text name)]

/-- The fields of a build read so far. -/
structure BuildPart where
  configuration : Option BuildConfiguration := none
  product : Option String := none

/-- How the fields of a build are decoded. -/
def buildShape : RecordShape BuildPart PackageAction where
  description := "struct variant SwiftAction::Build"
  fields := [
    { name := "configuration", isGiven := fun p => p.configuration.isSome, isOptional := false
      read := fun p t =>
        (BuildConfiguration.decodeSetAside t).map fun a => { p with configuration := some a } },
    { name := "product", isGiven := fun p => p.product.isSome, isOptional := false
      read := fun p t => (decodeText t).map fun a => { p with product := some a } }]
  blank := {}
  finish := fun
    | ⟨none, _⟩ => .error (.missingField "configuration")
    | ⟨some _, none⟩ => .error (.missingField "product")
    | ⟨some configuration, some product⟩ => .ok (.build configuration product)

/-- How an action is decoded. -/
def shape : SumShape PackageAction where
  name := "SwiftAction"
  tag := "action"
  variants := [
    ("buildAll", SumShape.plainVariant .buildAll),
    ("build", SumShape.recordVariant buildShape),
    ("resolve", SumShape.plainVariant .resolve),
    ("update", SumShape.plainVariant .update),
    ("clean", SumShape.plainVariant .clean),
    ("reset", SumShape.plainVariant .reset),
    ("describe", SumShape.plainVariant .describe),
    ("showDependencies", SumShape.plainVariant .showDependencies),
    ("listTests", SumShape.plainVariant .listTests)]

/-- The action of a tree that stands inside `depth` objects. -/
def decodeAt (depth : Nat) : Decoder PackageAction := shape.decode depth

/-- The action of a tree. -/
def decode : Decoder PackageAction := decodeAt 0

end PackageAction

namespace TaskDefinition

/-- A task definition in JSON. -/
def toJson (d : TaskDefinition) : Value :=
  .object [("label", .text d.label), ("action", d.action.toJson), ("folder", d.folder.toJson),
    ("disabled", .bool d.disabled)]

/-- The fields of a task definition read so far. -/
structure Part where
  label : Option String := none
  action : Option PackageAction := none
  folder : Option Path := none
  disabled : Option Bool := none

/-- How a task definition is decoded. -/
def shape : RecordShape Part TaskDefinition where
  description := "struct TaskDefinition"
  fields := [
    { name := "label", isGiven := fun p => p.label.isSome, isOptional := false
      read := fun p t => (decodeText t).map fun a => { p with label := some a } },
    { name := "action", isGiven := fun p => p.action.isSome, isOptional := false
      read := fun p t => (PackageAction.decodeAt 1 t).map fun a => { p with action := some a } },
    { name := "folder", isGiven := fun p => p.folder.isSome, isOptional := false
      read := fun p t => (Path.decode t).map fun a => { p with folder := some a } },
    { name := "disabled", isGiven := fun p => p.disabled.isSome, isOptional := true
      read := fun p t => (decodeFlag t).map fun a => { p with disabled := some a } }]
  blank := {}
  finish := fun
    | ⟨none, _, _, _⟩ => .error (.missingField "label")
    | ⟨some _, none, _, _⟩ => .error (.missingField "action")
    | ⟨some _, some _, none, _⟩ => .error (.missingField "folder")
    | ⟨some label, some action, some folder, disabled⟩ =>
      .ok { label, action, folder, disabled := disabled.getD false }

/-- The task definition of a tree. -/
def decode : Decoder TaskDefinition := shape.decode

end TaskDefinition

end FolderTasks
