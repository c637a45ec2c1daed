import FolderTasks.Operation
import FolderTasks.Package.Toolchain
/-!
# Actions on a package

Every operation that is run on a package has a name here, and its arguments are built in this
one place, so equivalent requests always have the same argument list.

## Main definitions

* `PackageAction`: the actions.
* `PackageAction.arguments`, `PackageAction.displayName`, `PackageAction.logHeading`: how one is
  run and presented.
* `PackageAction.operation`: the operation of an action on a folder.
* `TaskDefinition`: an action offered to the user, and `offeredActions` the actions offered.
-/

namespace FolderTasks

/-- How a product is built. -/
inductive BuildConfiguration where
  | debug
  | release
deriving DecidableEq, Repr, Inhabited

/-- The name of a build configuration. -/
def BuildConfiguration.name : BuildConfiguration → String
  | .debug => "debug"
  | .release => "release"

/-- An operation on a package. -/
inductive PackageAction where
  /-- Build everything, tests included. -/
  | buildAll
  /-- Build one product. -/
  | build (configuration : BuildConfiguration) (product : String)
  /-- Resolve the dependencies. -/
  | resolve
  /-- Update the dependencies. -/
  | update
  /-- Remove build products. -/
  | clean
  /-- Remove the dependencies with everything built from them. -/
  | reset
  /-- Describe the package. -/
  | describe
  /-- Show the dependencies. -/
  | showDependencies
  /-- List the tests. -/
  | listTests
deriving DecidableEq, Repr, Inhabited

namespace PackageAction

/-- Does the action compile code?  Builds and test listings do, all else only touches files of
the package. -/
def isBuild : PackageAction → Bool
  | .buildAll | .build _ _ | .listTests => true
  | _ => false

/-- The arguments that select the action. -/
def selector : PackageAction → List String
  | .buildAll => ["build", "--build-tests"]
  | .build .debug product => ["build", "--product", product]
  | .build .release product => ["build", "-c", "release", "--product", product]
  | .resolve => ["package", "resolve"]
  | .update => ["package", "update"]
  | .clean => ["package", "clean"]
  | .reset => ["package", "reset"]
  | .describe => ["package", "describe", "--type", "json"]
  | .showDependencies => ["package", "show-dependencies", "--format", "json"]
  | .listTests => ["test", "--list-tests"]

/-- All arguments of an action: the extra build arguments go to the actions that build. -/
def arguments (a : PackageAction) (toolchain : Toolchain) : List String :=
  a.selector ++ if a.isBuild then toolchain.buildArguments else []

/-- The name in the status display. -/
def displayName : PackageAction → String
  | .buildAll => "Build All"
  | .build .debug product => "Build Debug " ++ product
  | .build .release product => "Build Release " ++ product
  | .resolve => "Resolve Package Dependencies"
  | .update => "Update Package Dependencies"
  | .clean => "Clean Build"
  | .reset => "Reset Package Dependencies"
  | .describe => "Describe Package"
  | .showDependencies => "Show Dependencies"
  | .listTests => "List Tests"

/-- The heading of the log lines. -/
def logHeading : PackageAction → String
  | .buildAll => "Building All"
  | .build configuration product => "Building " ++ product ++ " (" ++ configuration.name ++ ")"
  | .resolve => "Resolving Dependencies"
  | .update => "Updating Dependencies"
  | .clean => "Cleaning Build Directory"
  | .reset => "Resetting Package Dependencies"
  | .describe => "Loading Package Description"
  | .showDependencies => "Loading Dependencies"
  | .listTests => "Discovering Tests"

/-- The command of an action in a folder. -/
def command (a : PackageAction) (toolchain : Toolchain) (folder : Path) : Command where
  program := toolchain.swiftPath
  args := a.arguments toolchain
  cwd := some folder
  env := toolchain.environment
  scope := folder.fileName?

/-- The operation of an action in a folder. -/
def operation (a : PackageAction) (toolchain : Toolchain) (folder : Path) : Operation where
  command := a.command toolchain folder
  displayName := some a.displayName
  logHeading := some a.logHeading
  showStatus := toolchain.showStatus
  logLifecycle := toolchain.logOperations

end PackageAction

/-- A task offered to the user for a folder. -/
structure TaskDefinition where
  label : String
  action : PackageAction
  folder : Path
  /-- Is the task only a placeholder, while the folder is withheld? -/
  disabled : Bool := false
deriving DecidableEq, Inhabited

/-- The actions offered for a package with these products: build everything, and build each
product in both configurations. -/
def offeredActions (products : List String) : List PackageAction :=
  .buildAll :: products.flatMap fun p => [.build .debug p, .build .release p]

/-- The task of an action in a folder. -/
def PackageAction.definition (a : PackageAction) (folder : Path) (disabled : Bool) :
    TaskDefinition :=
  ⟨a.displayName, a, folder, disabled⟩

end FolderTasks
