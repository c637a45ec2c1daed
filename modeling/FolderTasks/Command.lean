import FolderTasks.Environment
import FolderTasks.Path
/-!
# Commands

A command describes one external program run: the program, its arguments, and where and with
which variables it runs.

## Main definitions

* `Command`: the description.
* `Command.line`: program and arguments on one line.
* `Command.Same`: equal commands, the working directory compared as a path.
-/

namespace FolderTasks

/-- One external program run. -/
structure Command where
  program : String
  /-- The arguments, without the program. -/
  args : List String := []
  /-- The working directory. -/
  cwd : Option Path := none
  /-- Extra environment variables. -/
  env : Environment := .empty
  /-- A label for where the command belongs, usually the folder's name. -/
  scope : Option String := none
deriving DecidableEq, Inhabited

namespace Command

/-- Append one argument. -/
def arg (c : Command) (a : String) : Command := { c with args := c.args ++ [a] }

/-- Append several arguments. -/
def withArgs (c : Command) (as : List String) : Command := { c with args := c.args ++ as }

/-- Run in a directory. -/
def inDirectory (c : Command) (dir : Path) : Command := { c with cwd := some dir }

/-- Set an environment variable. -/
def withVariable (c : Command) (key value : String) : Command :=
  { c with env := c.env.insert key value }

/-- Label the command. -/
def withScope (c : Command) (scope : String) : Command := { c with scope := some scope }

/-- Program and arguments joined by blanks, for people to read. -/
def line (c : Command) : String := String.intercalate " " (c.program :: c.args)

/-- Two optional paths that are both absent or the same path. -/
def samePath? : Option Path → Option Path → Bool
  | none, none => true
  | some p, some q => decide (p.Same q)
  | _, _ => false

/-- Equal commands, the working directory compared as a path and not as a spelling. -/
def same (a b : Command) : Bool :=
  a.program == b.program && a.args == b.args && samePath? a.cwd b.cwd &&
    decide (a.env = b.env) && a.scope == b.scope

/-- Equivalent requests: the argument lists are equal, whatever the program, directory and
environment. -/
def sameRequest (a b : Command) : Bool := a.args == b.args

end Command

end FolderTasks
