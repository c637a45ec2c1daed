import FolderTasks.Failure
import FolderTasks.Files.Disk
import FolderTasks.Log
import FolderTasks.Wire.Package
/-!
# Settings on disk

A toolchain's settings are kept in a file as indented JSON.  A file that is not there stands for
the default settings.  Saving writes the new text to a draft beside the file first and then
renames it, so a reader finds the old settings or the new ones.

## Main definitions

* `Toolchain.load`: the settings of a file, with what the log says about it.
* `Toolchain.saveIn`, `Toolchain.save`: put settings into a file, their variables in a given order or
  in the order of their names.
* `Toolchain.draftPath`: where the new text is written first.
-/

namespace FolderTasks.Toolchain

open Files

/-- The text of the settings in a file, the variables in the order of a list. -/
def fileTextIn (c : Toolchain) (settings : List (String × String)) : String :=
  (c.toJsonIn settings).indented

/-- The path of the draft beside a file. -/
def draftPath (p : Path) : Path := p.withExtension "tmp"

/-- The settings of a file; the defaults if there is nothing at the path. -/
def load (d : Disk) (p : Path) : Except Failure (Toolchain × List LogLine) :=
  if !d.pathExists p then .ok (standard, [])
  else match d.read p with
    | .error fault => .error (.settings (.unreadable p fault))
    | .ok text => match Json.decodeString decode text with
      | .error flaw => .error (.settings (.undecodable p flaw))
      | .ok c => .ok (c, [⟨.debug, .config, "Config loaded",
          [("path", p.text), ("swift", c.swiftPath)]⟩])

/-- Write a text to the draft and put it in place. -/
def writeText (text : String) (d : Disk) (p : Path) : Disk × Option Failure :=
  match d.write (draftPath p) (.text text) with
  | .error fault => (d, some (.files fault))
  | .ok d => match d.rename (draftPath p) p with
    | .error fault => (d, some (.settings (.notInPlace (draftPath p) p fault)))
    | .ok d => (d, none)

/-- Put a text into a file, whose folder is made if it is missing.  What was done before a failure
stays. -/
def saveText (text : String) (d : Disk) (p : Path) : Disk × Option Failure :=
  match p.parent? with
  | none => writeText text d p
  | some folder => match d.makeFolders folder with
    | (d, some fault) => (d, some (.settings (.noFolder folder fault)))
    | (d, none) => writeText text d p

/-- Put settings into a file, the variables in the order of a list. -/
def saveIn (c : Toolchain) (settings : List (String × String)) (d : Disk) (p : Path) :
    Disk × Option Failure :=
  saveText (c.fileTextIn settings) d p

/-- Put settings into a file, the variables in the order of their names. -/
def save (c : Toolchain) (d : Disk) (p : Path) : Disk × Option Failure :=
  c.saveIn c.environment.entries d p

/-- What the log says about settings that were saved. -/
def savedLine (p : Path) : LogLine := ⟨.debug, .config, "Config saved", [("path", p.text)]⟩

end FolderTasks.Toolchain
