import FolderTasks.Command
import FolderTasks.Json.Decoder
import FolderTasks.Json.Value
/-!
# Commands in JSON

The written form lists the fields in declared order and leaves out the working directory and the
scope when they are not set.  Variables may be written in any order.

## Main definitions

* `Command.toJsonIn`, `Command.toJson`: the written form, its variables in a given order or in the
  order of their names.
* `Command.decode`: the command of a tree.
-/

namespace FolderTasks

open Json

/-- Variables in JSON, in the order of a list. -/
def Environment.toJsonIn (settings : List (String × String)) : Value :=
  .object (settings.map fun (k, v) => (k, .text v))

/-- A map of variables in JSON, in the order of the names. -/
def Environment.toJson (env : Environment) : Value := toJsonIn env.entries

/-- A map of variables; of two members of one name the later holds. -/
def Environment.decode : Decoder Environment := fun t =>
  (decodeMap decodeText t).map Environment.ofList

/-- A path in JSON. -/
def Path.toJson (p : Path) : Value := .text p.text

/-- A path. -/
def Path.decode : Decoder Path := fun t => (decodeTextAs "path string" t).map Path.mk

namespace Command

/-- A command in JSON, its variables in the order of a list. -/
def toJsonIn (c : Command) (settings : List (String × String)) : Value :=
  .object ([("program", .text c.program), ("args", .texts c.args)] ++
    (c.cwd.map fun p => ("cwd", p.toJson)).toList ++ [("env", Environment.toJsonIn settings)] ++
    (c.scope.map fun s => ("scope", .text s)).toList)

/-- A command in JSON, its variables in the order of their names. -/
def toJson (c : Command) : Value := c.toJsonIn c.env.entries

/-- The fields of a command read so far. -/
structure Part where
  program : Option String := none
  args : Option (List String) := none
  cwd : Option (Option Path) := none
  env : Option Environment := none
  scope : Option (Option String) := none

/-- How a command is decoded. -/
def shape : RecordShape Part Command where
  description := "struct TaskCommand"
  fields := [
    { name := "program", isGiven := fun p => p.program.isSome, isOptional := false
      read := fun p t => (decodeText t).map fun a => { p with program := some a } },
    { name := "args", isGiven := fun p => p.args.isSome, isOptional := true
      read := fun p t => (decodeList decodeText t).map fun a => { p with args := some a } },
    { name := "cwd", isGiven := fun p => p.cwd.isSome, isOptional := true
      read := fun p t => (decodeOption Path.decode t).map fun a => { p with cwd := some a } },
    { name := "env", isGiven := fun p => p.env.isSome, isOptional := true
      read := fun p t => (Environment.decode t).map fun a => { p with env := some a } },
    { name := "scope", isGiven := fun p => p.scope.isSome, isOptional := true
      read := fun p t => (decodeOption decodeText t).map fun a => { p with scope := some a } }]
  blank := {}
  finish := fun p =>
    match p.program with
    | none => .error (.missingField "program")
    | some program => .ok
      { program, args := p.args.getD [], cwd := p.cwd.getD none, env := p.env.getD .empty
        scope := p.scope.getD none }

/-- The command of a tree. -/
def decode : Decoder Command := shape.decode

end Command

end FolderTasks
