import FolderTasks.Environment
/-!
# Toolchain settings

The settings that shape the commands run on a package: which executable, with which extra
arguments and variables, and whether operations are shown and logged.

## Main definitions

* `Toolchain`: the settings, with their defaults.
-/

namespace FolderTasks

/-- The settings of a toolchain. -/
structure Toolchain where
  /-- The executable. -/
  swiftPath : String := "swift"
  /-- Arguments appended to every build command. -/
  buildArguments : List String := []
  /-- Environment variables of every command. -/
  environment : Environment := .empty
  /-- Are operations shown in the status display? -/
  showStatus : Bool := true
  /-- Are start and end of operations logged? -/
  logOperations : Bool := true
deriving DecidableEq, Inhabited

/-- The default settings. -/
def Toolchain.standard : Toolchain where

end FolderTasks
