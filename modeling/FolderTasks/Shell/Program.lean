import FolderTasks.Shell.Run
/-!
# Shells as programs

A shell is called with options and with a script: an argument, a file, or what it can read.

## Main definitions

* `Shell.program`: a shell of a language.
-/

namespace FolderTasks.Shell

open Files Machine

/-- How a shell is called. -/
structure Invocation where
  /-- The options to switch, in order. -/
  switches : List (String × Bool) := []
  /-- Is the first argument the script itself? -/
  isCommand : Bool := false
  /-- Is the script read from the channel for input in any case? -/
  readsInput : Bool := false
  arguments : List String := []

/-- The letters after a hyphen or a plus sign, those with names of options aside. -/
def readSwitches (d : Dialect) (value : Bool) : List Char → Invocation → Except String Invocation
  | [], i => .ok i
  | c :: rest, i =>
    if c = 'c' && value then readSwitches d value rest { i with isCommand := true }
    else if c = 's' && value then readSwitches d value rest { i with readsInput := true }
    else if c = 'i' || c = 'l' || c = 'p' || c = 'o' then readSwitches d value rest i
    else match State.optionLetters.lookup c with
      | some name => readSwitches d value rest { i with switches := i.switches ++ [(name, value)] }
      | none => .error (match d with
        | .basic => "Illegal option -" ++ String.singleton c
        | .extended => "-" ++ String.singleton c ++ ": invalid option")

/-- Long options of the extended language that change nothing here. -/
def idleWords : List String :=
  ["--posix", "--norc", "--noprofile", "--login", "--noediting", "--restricted", "--verbose"]

/-- How a shell is called by some arguments. -/
def Invocation.ofArguments (d : Dialect) : List String → Invocation → Except String Invocation
  | [], i => .ok i
  | a :: rest, i =>
    if d = .extended && idleWords.contains a then ofArguments d rest i
    else match a.toList with
      | ['-', '-'] | ['-'] => .ok { i with arguments := rest }
      | sign :: letters =>
        if (sign = '-' || sign = '+') && !letters.isEmpty then do
          let i ← readSwitches d (sign == '-') letters i
          if letters.contains 'o' then match rest with
            | name :: rest =>
              if (if d = .basic then basicOptions else extendedOptions).contains name then
                ofArguments d rest { i with switches := i.switches ++ [(name, sign == '-')] }
              else .error (match d with
                | .basic => "Illegal option " ++ String.ofList [sign, 'o'] ++ " " ++ name
                | .extended => name ++ ": invalid option name")
            | [] => .ok i
          else ofArguments d rest i
        else .ok { i with arguments := a :: rest }
      | [] => .ok { i with arguments := a :: rest }

/-- A parameter with a text. -/
def Parameter.ofText (text : String) (isExported : Bool := false) : Parameter :=
  { value := some (.text text), isExported }

/-- The parameters that a shell sets for itself, unless the environment does. -/
def ownParameters (d : Dialect) (starter : Nat) : List (String × String) :=
  match d with
  | .basic => [("OPTIND", "1"), ("PATH", standardPath), ("PPID", toString starter), ("PS1", "# "),
      ("PS2", "> "), ("PS4", "+ ")]
  | .extended => [("OPTIND", "1"), ("PATH", standardPath), ("PPID", toString starter),
      ("PS4", "+ "), ("BASH", "/bin/bash"), ("BASH_VERSION", "5.2.21(1)-release"),
      ("HOSTTYPE", "x86_64"), ("MACHTYPE", "x86_64-pc-linux-gnu"), ("OSTYPE", "linux-gnu"),
      ("UID", "0"), ("EUID", "0"), ("TERM", "dumb"), ("HOME", "/root"),
      ("SHELLOPTS", "braceexpand:hashall:interactive-comments")]

/-- Is a path an absolute one of the working folder, without needless segments? -/
def isPlainPath (v : View) (path : String) : Bool :=
  let segments := (pathSegments path).drop 1
  isAbsolute path && segments.all (fun s => s != "." && s != "..") &&
    match v.find path with
    | .ok spot => spot.node == Spot.node v.context.here
    | .error _ => false

/-- A shell as it begins: its environment becomes parameters. -/
def beginning (d : Dialect) (name : String) (v : View) : State :=
  let c := v.context
  let given := c.environment.filter fun e =>
    isName e.1 && e.1 != "IFS" && e.1 != "OPTIND" && e.1 != "PPID"
  let parameters := given.map fun (n, value) => (n, Parameter.ofText value true)
  let own := (ownParameters d c.starter).filter fun e => (given.lookup e.1).isNone
  let here := match c.environment.lookup "PWD" with
    | some path => if isPlainPath v path then path else Spot.path c.here
    | none => Spot.path c.here
  let s : State :=
    { dialect := d, name, here, number := c.number
      deaf := c.ignored
      parameters := parameters ++ own.map fun (n, value) => (n, Parameter.ofText value) }
  let s := (s.put "IFS" (.ofText " \t\n")).put "PWD" (.ofText here true)
  match d with
  | .basic => s
  | .extended =>
    let level := ((c.environment.lookup "SHLVL").bind natural?).getD 0 + 1
    s.put "SHLVL" (.ofText (toString level) true)

/-- Run a text to its end; the answer is the status. -/
def runWhole (run : Runner) (s : State) (m : Manner) (text : String) : Course Nat := do
  let (_, s) ← (runToEnd run depth (runText run depth m 1 text)).run.run s
  pure (s.status % 256)

/-- Complain about the way in which a shell was called. -/
def complainOfCall (d : Dialect) (name text : String) (code : Nat) : Course Nat := do
  Course.complain (name ++ (if d = .basic then ": 0: " else ": ") ++ text)
  pure code

/-- Run the script in a file. -/
def runScriptFile (run : Runner) (s : State) (file : String) (arguments : List String) :
    Course Nat := do
  let v ← Course.look
  if v.hasFolder file then
    match s.dialect with
    | .basic => pure 0
    | .extended => do
      Course.complain (file ++ ": " ++ file ++ ": " ++ Fault.isDirectory.reason)
      pure 126
  else match ← Course.readFile file, s.dialect with
    | .ok bs, d =>
      runWhole run { s with
        name := file, arguments
        source := if d = .extended then some file else none } {} (textOf bs)
    | .error fault, .basic =>
      complainOfCall .basic s.name
        ("cannot open " ++ file ++ ": " ++ openFault "No such file" fault) 2
    | .error fault, .extended => complainOfCall .extended s.name (file ++ ": " ++ fault.reason) 127

/-- A shell of a language, called by a name. -/
def program (d : Dialect) (run : Runner) (called : String) : Utility := fun args => do
  match Invocation.ofArguments d args {} with
  | .error complaint => complainOfCall d called complaint 2
  | .ok i =>
    let s := beginning d called (← Course.look)
    let s := i.switches.foldl (fun (s : State) (name, value) => s.switch name value) s
    if i.isCommand then match i.arguments with
      | [] =>
        complainOfCall d called
          (if d = .basic then "-c requires an argument" else "-c: option requires an argument") 2
      | [text] => runWhole run s { isLast := d = .extended } text
      | text :: name :: arguments =>
        runWhole run { s with name, arguments } { isLast := d = .extended } text
    else match i.readsInput, i.arguments with
      | false, file :: arguments => runScriptFile run s file arguments
      | _, arguments => do
        match ← Course.readAll 0 with
        | .ok bs => runWhole run { s with arguments } {} (textOf bs)
        | .error _ => pure 0

end FolderTasks.Shell
