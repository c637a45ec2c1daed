import FolderTasks.Machine.Utility.Blocks
import FolderTasks.Machine.Utility.Cutting
import FolderTasks.Machine.Editing.Program
import FolderTasks.Machine.Utility.Finding
import FolderTasks.Machine.Utility.Matching
import FolderTasks.Machine.Utility.Showing
import FolderTasks.Machine.Utility.Sorting
import FolderTasks.Machine.Utility.Telling
import FolderTasks.Shell.Program
/-!
# The programs of the machine

Every program has a name, by which the machine knows how it is run.  Programs that execute others
are told how; a program may execute one that executes another, and so on, for longer than anybody
needs.

## Main definitions

* `Processes.plainUtility?`, `Processes.executingUtility?`: the program of a name, on its own and
  with others to execute.
* `Processes.runProgram`: how programs are run.
* `Processes.programNames`: all of them.
-/

namespace FolderTasks.Processes

open Machine Utility

/-- The programs that do their work on their own. -/
def plainUtilities : List (String × Utility) :=
  [("true", silent 0), ("false", silent 1), ("echo", echo standalone),
    ("printf", printf standalone), ("test", test standalone "test"), ("[", bracket standalone),
    ("pwd", pwd), ("yes", yes), ("basename", basename), ("dirname", dirname), ("seq", seq),
    ("factor", factor), ("sleep", sleep), ("cat", cat), ("head", head), ("tail", tail), ("wc", wc),
    ("tac", tac), ("rev", rev), ("nl", nl), ("fold", fold), ("expand", expand),
    ("base64", base64), ("od", od), ("sort", sort), ("uniq", uniq), ("comm", comm),
    ("join", join), ("cut", cut), ("paste", paste), ("tr", tr), ("tee", tee), ("grep", grep),
    ("egrep", grepAs "grep" true false), ("fgrep", grepAs "grep" false true), ("rm", rm),
    ("unlink", unlink), ("rmdir", rmdir), ("mkdir", mkdir), ("touch", touch),
    ("truncate", truncate), ("mv", mv), ("cp", cp), ("ln", ln), ("chmod", chmod),
    ("mktemp", mktemp), ("install", install), ("ls", ls), ("stat", stat),
    ("readlink", readlink), ("realpath", realpath), ("expr", expr), ("id", identify),
    ("whoami", telling "whoami" "root"), ("hostname", telling "hostname" "localhost"),
    ("arch", telling "arch" "x86_64"), ("uname", uname), ("tty", tty), ("nproc", nproc),
    ("date", date), ("cmp", cmp), ("diff", diff), ("printenv", printenv), ("which", which),
    ("kill", kill), ("sync", silent 0), ("sed", sed), ("dd", dd)]

/-- The programs that have others executed. -/
def executingUtilities : List (String × (Runner → Utility)) :=
  [("env", env), ("timeout", timeout), ("nohup", nohup), ("nice", nice), ("setsid", setsid),
    ("stdbuf", stdbuf), ("xargs", xargs), ("find", find)]

/-- The shells with their languages. -/
def shells : List (String × Shell.Dialect) :=
  [("sh", .basic), ("dash", .basic), ("bash", .extended)]

/-- The names of all programs. -/
def programNames : List String :=
  shells.map (·.1) ++ executingUtilities.map (·.1) ++ plainUtilities.map (·.1)

/-- How programs are run that execute others at most so many times within each other. -/
def runWithin : Nat → Runner
  | 0 => fun _ => Course.spin
  | depth + 1 => fun call =>
    match (shells.find? fun e => e.1 == call.program).map (·.2) with
    | some d => Shell.program d (runWithin depth) call.called call.args
    | none => match (executingUtilities.find? fun e => e.1 == call.program).map (·.2) with
      | some u => u (runWithin depth) call.args
      | none => match (plainUtilities.find? fun e => e.1 == call.program).map (·.2) with
        | some u => u call.args
        | none => pure 127

/-- How programs are run. -/
def runProgram : Runner := runWithin 1000000

end FolderTasks.Processes
