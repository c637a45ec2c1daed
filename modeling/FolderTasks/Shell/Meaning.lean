import FolderTasks.Shell.Jobs
import FolderTasks.Shell.Reading
/-!
# What names of commands mean

The name of a command may be a word of the language, another name, a function, a command of the
shell itself, or a program.

## Main definitions

* `Shell.Meaning`, `Shell.meaning?`: the meanings, and that of a name.
* `Shell.builtin?`: the command of the shell itself that has a name.
* `Shell.describe`: the commands that tell what a name means.
-/

namespace FolderTasks.Shell

open Files Machine

/-- What a name of a command means. -/
inductive Meaning where
  | keyword
  | otherName (text : String)
  | function
  | builtin (isFirm : Bool)
  /-- A program at a path, which may have been found before. -/
  | program (path : String) (wasFound : Bool)

/-- Commands of the shell itself that run others, or tell about them. -/
def runningNames (d : Dialect) : List String :=
  ["eval", ".", "exec", "command", "type", "hash"] ++
    if d = .extended then ["source", "builtin"] else []

/-- The names of all commands of the shell itself. -/
def builtinNames (d : Dialect) : List String :=
  runningNames d ++
    [":", "true", "false", "exit", "return", "break", "continue", "shift", "cd", "pwd", "umask",
      "ulimit", "times", "echo", "printf", "test", "[", "export", "readonly", "local", "unset",
      "set", "getopts", "alias", "unalias", "wait", "jobs", "fg", "bg", "kill", "trap", "read"] ++
    if d = .extended then
      ["declare", "typeset", "shopt", "let", "mapfile", "readarray"]
    else []

/-- The command of the shell itself that has a name, unless it runs others. -/
def builtin? (d : Dialect) (name : String) : Option Builtin :=
  (simpleBuiltin? name).or <| (declaringBuiltin? d name).or <|
    (readingBuiltin? d name).or <| jobsBuiltin? name

/-- The words of the language that may stand in the place of a command. -/
def keywords (d : Dialect) : List String :=
  reservedWords ++ if d = .extended then ["[[", "]]", "function", "time", "select", "in"] else []

/-- Where programs are looked for. -/
def searchPath (s : State) : String := (s.value? "PATH").getD ""

/-- Is there something at a path that can be executed? -/
def isProgramAt (v : View) (path : String) : Bool :=
  !v.hasFolder path && (v.nodeAt? path).any Condition.isExecutable

/-- The path at which a program is found. -/
def programPath? (s : State) (v : View) (name : String) : Option String :=
  (candidates (searchPath s) name).find? (isProgramAt v)

/-- What a name means. -/
def meaning? (s : State) (v : View) (name : String) : Option Meaning :=
  if (keywords s.dialect).contains name then some .keyword
  else match s.aliases.lookup name with
    | some text => some (.otherName text)
    | none =>
      if (s.functions.lookup name).isSome then some .function
      else if (builtinNames s.dialect).contains name then
        some (.builtin (s.dialect == .basic && isFirm name))
      else match s.found.lookup name with
        | some path => some (.program path true)
        | none => (programPath? s v name).map (.program · false)

/-- A sentence about a name. -/
def sentence (d : Dialect) (name : String) : Meaning → String
  | .keyword => name ++ " is a shell keyword"
  | .otherName text => match d with
    | .basic => name ++ " is an alias for " ++ text
    | .extended => name ++ " is aliased to \x60" ++ text ++ "\x27"
  | .function => match d with
    | .basic => name ++ " is a shell function"
    | .extended => name ++ " is a function"
  | .builtin firm => name ++ (if firm then " is a special shell builtin" else " is a shell builtin")
  | .program path wasFound =>
    if !wasFound then name ++ " is " ++ path
    else match d with
      | .basic => name ++ " is a tracked alias for " ++ path
      | .extended => name ++ " is hashed (" ++ path ++ ")"

/-- The word for the kind of a meaning. -/
def kindWord : Meaning → String
  | .keyword => "keyword"
  | .otherName _ => "alias"
  | .function => "function"
  | .builtin _ => "builtin"
  | .program _ _ => "file"

/-- What could be written in the place of a name. -/
def shortForm (d : Dialect) (name : String) : Meaning → String
  | .otherName text => "alias " ++ name ++ "=" ++ quotedText d text
  | .program path _ => path
  | _ => name

/-- Tell what names mean. -/
def describe : Builtin := fun args => do
  let d := (← get).dialect
  let (options, names) ← match d with
    | .basic => pure ([], args)
    | .extended => letterOptions "tpPaf" args
  let v ← (Course.look : Course View)
  Work.done 0
  let mut missing := false
  for name in names do
    let s ← get
    let path := programPath? s v name
    let text := if options.contains 'P' then path
      else match meaning? s v name with
        | none => none
        | some m =>
          if options.contains 't' then some (kindWord m)
          else if options.contains 'p' then match m with
            | .program path _ => some path
            | _ => some ""
          else some (sentence d name m)
    match text with
    | some "" => pure ()
    | some text => say (text ++ "\n")
    | none =>
      missing := true
      match d with
      | .basic => say (name ++ ": not found\n")
      | .extended => if options.isEmpty then Work.complain (name ++ ": not found")
  if missing then Work.done (if d = .basic then 127 else 1)

/-- Tell what names mean in short, or in a sentence. -/
def describeShortly (isShort : Bool) (names : List String) : Work Unit := do
  let d := (← get).dialect
  let v ← (Course.look : Course View)
  let s ← get
  let names := if d = .basic then names.take 1 else names
  let meanings := names.map fun n => (n, meaning? s v n)
  meanings.forM fun (name, m) => do
    match m with
    | some m => say ((if isShort then shortForm d name m else sentence d name m) ++ "\n")
    | none =>
      if !isShort then match d with
        | .basic => say (name ++ ": not found\n")
        | .extended => Work.complain (name ++ ": not found")
  let isFound := match d with
    | .basic => meanings.all fun m => m.2.isSome
    | .extended => meanings.any fun m => m.2.isSome
  Work.done (if isFound then 0 else if d = .basic then 127 else 1)

/-- Keep in mind where programs are, or forget it. -/
def remember : Builtin := fun args => do
  let (options, names) ← letterOptions "rvdlpt" args
  let v ← (Course.look : Course View)
  if options.contains 'r' then
    modify fun s => { s with found := [] }
    Work.done 0
  else if names.isEmpty then
    let s ← get
    match s.dialect with
    | .basic => say (unlines (s.found.map (·.2)))
    | .extended =>
      if s.found.isEmpty then say "hash: hash table empty\n"
      else say ("hits\tcommand\n" ++ unlines (s.found.map fun e => "   1\t" ++ e.2))
  else
    Work.done 0
    names.forM fun name => do
      let s ← get
      match programPath? s v name with
      | some path =>
        if (s.found.lookup name).isNone then set { s with found := s.found ++ [(name, path)] }
      | none =>
        if !(builtinNames s.dialect).contains name then
          Work.complain (name ++ ": not found")
          Work.done 1

end FolderTasks.Shell
