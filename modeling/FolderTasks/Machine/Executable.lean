import FolderTasks.Machine.Options
/-!
# Executing programs

A program is found by its path, or by its name in the folders of a search path.  A file whose
first line begins with `#!` names another program, which is executed with the file's path as an
argument.

## Main definitions

* `Call`: a program with its arguments.
* `View.resolve`: what is executed at a path.
* `Course.execute`, `Course.executeNamed`: a process becomes another program.
-/

namespace FolderTasks.Machine

open Files

/-- A program with its arguments. -/
structure Call where
  /-- The name that the program has on the machine. -/
  program : String
  /-- The name by which it is called. -/
  called : String
  args : List String
deriving DecidableEq, Repr

/-- Where programs are looked for unless somebody says otherwise. -/
def standardPath : String := "/usr/local/sbin:/usr/local/bin:/usr/sbin:/usr/bin:/sbin:/bin"

/-- The shell that executes files which do not say what executes them. -/
def standardShell : String := "/bin/sh"

/-- How many files may name the next one. -/
def greatestInterpreters : Nat := 5

/-- The greatest length of an argument, and of all together. -/
def longestArgument : Nat := 131071

/-- The greatest length of all arguments together with the environment. -/
def longestArguments : Nat := 2097152 - 4096

/-- What is said in the first line of a file: the path of a program, and an argument. -/
def interpreterOf? (content : Bytes) : Option (String × List String) :=
  match (textOf (content.take 256)).toList with
  | '#' :: '!' :: rest =>
    let isBlank (c : Char) : Bool := c = ' ' || c = '\t'
    let line := (rest.takeWhile (· != '\n')).dropWhile isBlank
    let line := (line.reverse.dropWhile isBlank).reverse
    let name := line.takeWhile (!isBlank ·)
    let argument := (line.drop name.length).dropWhile isBlank
    if name.isEmpty then none
    else some (String.ofList name, if argument.isEmpty then [] else [String.ofList argument])
  | _ => none

namespace View

/-- Are arguments too long to be passed on? -/
def isTooLong (v : View) (args : List String) : Bool :=
  let environment := v.context.environment.map fun e => e.1.length + e.2.length + 1
  let lengths := args.map String.length ++ environment
  lengths.any (fun n => decide (longestArgument < n)) ||
    decide (longestArguments < lengths.foldl (fun n m => n + m + 9) 0)

/-- What is executed at a path, by somebody who calls it by a name. -/
def resolveGo (v : View) : Nat → String → String → List String → Except Fault Call
  | 0, _, _, _ => .error .tooManyLinks
  | fuel + 1, path, called, args => do
    let s ← v.find path
    match v.store.volume.node? s.node with
    | none => .error .notFound
    | some n =>
      if n.mode &&& 0o111 = 0 then .error .denied
      else match n.body with
        | .program name => .ok ⟨name, called, args⟩
        | .file content => match interpreterOf? content with
          | some (other, argument) => v.resolveGo fuel other other (argument ++ path :: args)
          | none => .error .notExecutable
        | _ => .error .denied

/-- What is executed at a path, by somebody who calls it by a name. -/
def resolve (v : View) (path called : String) (args : List String) : Except Fault Call := do
  let call ← v.resolveGo greatestInterpreters path called args
  if v.isTooLong (path :: args) then .error .tooManyArguments else .ok call

end View

/-- The paths at which a name is looked for. -/
def candidates (searchPath name : String) : List String :=
  if name.toList.contains '/' then [name]
  else (searchPath.toList.splitOn ':').map fun folder =>
    if folder.isEmpty then name else String.ofList (folder ++ '/' :: name.toList)

/-- Is a fault a reason to look for a program elsewhere? -/
def isElsewhere (fault : Fault) : Bool :=
  fault == .notFound || fault == .notDirectory || fault == .denied

/-- Try paths one after the other; what is denied is remembered if nothing else is found. -/
def View.searchGo {α : Type} (attempt : String → Except Fault α) (isDenied : Bool) (last : Fault) :
    List String → Except Fault α
  | [] => .error (if isDenied then .denied else last)
  | path :: rest => match attempt path with
    | .ok a => .ok a
    | .error fault =>
      if isElsewhere fault then searchGo attempt (isDenied || fault == .denied) fault rest
      else .error fault

/-- Look for a program by name in a search path. -/
def View.search {α : Type} (name searchPath : String) (attempt : String → Except Fault α) :
    Except Fault α :=
  if name.isEmpty then .error .notFound
  else if name.toList.contains '/' then attempt name
  else if isNameTooLong name then .error .nameTooLong
  else searchGo attempt false .notFound (candidates searchPath name)

/-- What is executed at a path; a file that does not say what executes it is a script for the
usual shell if `trusts` is set. -/
def View.attempt (v : View) (trusts : Bool) (called : String) (args : List String)
    (path : String) : Except Fault Call :=
  match v.resolve path called args with
  | .error .notExecutable =>
    if trusts then v.resolve standardShell standardShell (path :: args)
    else .error .notExecutable
  | result => result

/-- What a call by name executes. -/
def View.callOf (v : View) (trusts : Bool) (name : String) (args : List String) :
    Except Fault Call :=
  View.search name ((v.valueOf? "PATH").getD standardPath) (v.attempt trusts name args)

/-- How the programs of a machine are run. -/
abbrev Runner := Call → Course Nat

namespace Course

/-- The process becomes a program, and ends with it. -/
def become {α : Type} (run : Runner) (call : Call) : Course α := do
  changeContext fun c => { c with caught := [], pending := [] }
  let code ← run call
  stop (.exited (code % 256))

/-- The process becomes the program at a path; otherwise the answer is why not. -/
def execute (run : Runner) (path called : String) (args : List String) : Course Fault := do
  match (← look).resolve path called args with
  | .error fault => pure fault
  | .ok call => become run call

/-- The process becomes the program of a name; otherwise the answer is why not. -/
def executeNamed (run : Runner) (name : String) (args : List String) : Course Fault := do
  match (← look).callOf true name args with
  | .error fault => pure fault
  | .ok call => become run call

end Course

end FolderTasks.Machine
