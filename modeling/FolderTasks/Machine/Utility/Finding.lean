import FolderTasks.Machine.Pattern
import FolderTasks.Machine.Regex
import FolderTasks.Machine.Utility.Launching
/-!
# Finding files

All files below some paths are gone through, and for each an expression of tests and actions is
evaluated.

## Main definitions

* `Utility.Finding.Test`: tests and actions.
* `Utility.Finding.read`: the expression that some arguments spell.
* `Utility.find`: the program.
-/

namespace FolderTasks.Machine

open Files

namespace Utility

namespace Finding

/-- A file that was come by. -/
structure Visit where
  view : View
  path : String
  /-- The path from which the search began. -/
  start : String
  depth : Nat
  number : Nat
  node : Node

/-- Tests and actions. -/
inductive Test where
  | fact (holds : Visit → Bool)
  | print (lineEnd : String)
  | format (text : String)
  | delete
  | stay
  | quit
  /-- Run a command; `inFolder` says whether the folder of the file becomes the working folder. -/
  | execute (command : List String) (inFolder : Bool)
  /-- Run a command in the end, with all files; commands of this kind are numbered. -/
  | gather (number : Nat) (command : List String)
  | negation (a : Test)
  | conjunction (a b : Test)
  | disjunction (a b : Test)
  | sequence (a b : Test)

/-- Does something in a test make it needless to print the path? -/
def Test.acts : Test → Bool
  | .fact _ | .stay | .quit => false
  | .print _ | .format _ | .delete | .execute _ _ | .gather _ _ => true
  | .negation a => a.acts
  | .conjunction a b | .disjunction a b | .sequence a b => a.acts || b.acts

/-- Is anything deleted? -/
def Test.deletes : Test → Bool
  | .delete => true
  | .negation a => a.deletes
  | .conjunction a b | .disjunction a b | .sequence a b => a.deletes || b.deletes
  | _ => false

/-- What is found out along the way. -/
structure Progress where
  /-- Is what lies below left out? -/
  stays : Bool := false
  isOver : Bool := false
  hasFailed : Bool := false
  gathered : List (Nat × List String × List String) := []

/-! ## Reading -/

/-- Options that hold for the whole search. -/
structure Limits where
  least : Nat := 0
  most : Option Nat := none
  deepFirst : Bool := false
  follows : Bool := false
deriving Repr

/-- The number that is compared with, and how: above, below or equal. -/
def compared (text : String) : Option (Nat → Bool) :=
  match text.toList with
  | '+' :: cs => (natural? (String.ofList cs)).map fun n k => decide (n < k)
  | '-' :: cs => (natural? (String.ofList cs)).map fun n k => decide (k < n)
  | _ => (natural? text).map fun n k => k == n

/-- The test of a size such as `+10k`. -/
def sizeTest (text : String) : Option Test :=
  let (unit, digits) := match text.toList.getLast? with
    | some 'c' => (1, text.toList.dropLast)
    | some 'w' => (2, text.toList.dropLast)
    | some 'k' => (1024, text.toList.dropLast)
    | some 'M' => (1048576, text.toList.dropLast)
    | some 'G' => (1073741824, text.toList.dropLast)
    | some 'b' => (512, text.toList.dropLast)
    | _ => (512, text.toList)
  (compared (String.ofList digits)).map fun holds =>
    .fact fun f => holds ((sizeOfNode f.node + unit - 1) / unit)

/-- The test of a mode, exact or of some bits. -/
def modeTest (text : String) : Option Test :=
  match text.toList with
  | '-' :: cs => (Mode.ofText? (String.ofList cs) 0 false 0).map fun m =>
    .fact fun f => f.node.mode &&& m == m
  | '/' :: cs => (Mode.ofText? (String.ofList cs) 0 false 0).map fun m =>
    .fact fun f => m == 0 || f.node.mode &&& m != 0
  | _ => (Mode.ofText? text 0 false 0).map fun m => .fact fun f => f.node.mode == m

/-- The letter of a kind of thing; a plain file has one of its own. -/
def typeLetter (n : Node) : Char :=
  let c := kindLetter n.body
  if c = '-' then 'f' else c

/-- Does a name fit a pattern, perhaps without regard to case? -/
def nameFits (pattern : String) (foldsCase : Bool) (name : String) : Bool :=
  let fold (s : String) : String := if foldsCase then String.ofList (s.toList.map Char.toLower) else s
  (Pattern.ofEscaped (fold pattern)).fits (fold name).toList

/-- Is there nothing in a file or a folder? -/
def isEmptyNode (n : Node) : Bool :=
  match n.body with
  | .file content => content.isEmpty
  | .folder names => names.isEmpty
  | _ => false

/-- The test without an argument that a word names. -/
def plainTest? (word : String) : Option Test :=
  match word with
  | "-print" => some (.print "\n")
  | "-print0" => some (.print "\x00")
  | "-delete" => some .delete
  | "-prune" => some .stay
  | "-quit" => some .quit
  | "-true" => some (.fact fun _ => true)
  | "-false" => some (.fact fun _ => false)
  | "-empty" => some (.fact fun f => isEmptyNode f.node)
  | "-executable" => some (.fact fun f => Condition.isExecutable f.node || f.view.hasFolder f.path)
  | "-readable" | "-writable" | "-mount" | "-xdev" | "-daystart" | "-noleaf" | "-depth" | "-d"
  | "-follow" => some (.fact fun _ => true)
  | "-nouser" | "-nogroup" => some (.fact fun _ => false)
  | _ => none

/-- What is wrong with an expression. -/
inductive Mistake where
  | unknown (word : String)
  | withoutArgument (word : String)
  | badArgument (word argument : String)
  | unclosed
  | misplaced (word : String)

/-- The wording of a mistake. -/
def Mistake.message : Mistake → String
  | .unknown word => "unknown predicate \x60" ++ word ++ "\x27"
  | .withoutArgument word => "missing argument to \x60" ++ word ++ "\x27"
  | .badArgument "-type" argument => "Unknown argument to -type: " ++ argument
  | .badArgument "-maxdepth" argument | .badArgument "-mindepth" argument =>
    "Expected a positive decimal integer argument to -maxdepth, but got " ++ quoted argument
  | .badArgument "-size" argument => "Invalid argument \x60" ++ argument ++ "\x27 to -size"
  | .badArgument "-perm" argument => "invalid mode " ++ quoted argument
  | .badArgument word argument => "invalid argument \x60" ++ argument ++ "\x27 to \x60" ++ word ++
    "\x27"
  | .unclosed => "invalid expression; expected to find a \x27)\x27 but didn\x27t see one. " ++
    "Perhaps you need an extra predicate after \x27(\x27"
  | .misplaced word => "paths must precede expression: \x60" ++ word ++ "\x27"

/-- The test with one argument that a word names. -/
def testOf? (v : View) (word argument : String) : Option (Except Mistake Test) :=
  let checked (t : Option Test) : Option (Except Mistake Test) :=
    some (match t with
      | some t => .ok t
      | none => .error (.badArgument word argument))
  let fact (holds : Visit → Bool) : Option (Except Mistake Test) := some (.ok (.fact holds))
  match word with
  | "-name" => fact fun f => nameFits argument false (lastName f.path)
  | "-iname" => fact fun f => nameFits argument true (lastName f.path)
  | "-path" | "-wholename" => fact fun f => nameFits argument false f.path
  | "-ipath" => fact fun f => nameFits argument true f.path
  | "-lname" => fact fun f => (linkTarget? f.node.body).any (nameFits argument false)
  | "-regex" => checked ((Regex.ofText false argument).toOption.map fun r =>
      .fact fun f => (r.search false (fun p q => p.before.isNone && q.rest.isEmpty)
        f.path.toList 0).isSome)
  | "-type" =>
    let letters := (argument.toList.splitOn ',').flatten
    checked (if !letters.isEmpty && letters.all fun c => "bcdpfls".toList.contains c then
      some (.fact fun f => letters.contains (typeLetter f.node)) else none)
  | "-size" => checked (sizeTest argument)
  | "-perm" => checked (modeTest argument)
  | "-links" => checked ((compared argument).map fun holds =>
      .fact fun f => holds (f.view.store.volume.nameCount f.number))
  | "-newer" => fact fun f => decide (Condition.changedAt v argument < f.node.changed)
  | "-samefile" => fact fun f => (v.find argument).toOption.any fun s => s.node == f.number
  | "-inum" => checked ((compared argument).map fun holds => .fact fun f => holds (f.number + 1))
  | "-user" | "-group" => fact fun _ => argument == "root" || argument == "0"
  | "-mtime" | "-ctime" | "-atime" | "-mmin" | "-cmin" | "-amin" =>
    checked ((compared argument).map fun holds => .fact fun _ => holds 0)
  | "-maxdepth" | "-mindepth" => checked ((natural? argument).map fun _ => .fact fun _ => true)
  | "-printf" => some (.ok (.format argument))
  | _ => none

/-- The words after one of `-exec` up to its end: the command, whether all files are gathered, and
the arguments after it. -/
def commandOf (word : String) : List String → List String →
    Except Mistake (List String × Bool × List String)
  | _, [] => .error (.withoutArgument word)
  | taken, ";" :: rest => .ok (taken.reverse, false, rest)
  | taken, "{}" :: "+" :: rest => .ok (taken.reverse, true, rest)
  | taken, a :: rest => commandOf word (a :: taken) rest

/-- The expression at the beginning of some arguments.  Levels are `,`, `-o`, `-a` and single
tests. -/
def readGo (v : View) : Nat → Nat → List String → Except Mistake (Test × List String)
  | 0, _, _ => .error .unclosed
  | fuel + 1, 0, args => do
    let (a, rest) ← readGo v fuel 1 args
    match rest with
    | "," :: rest => do
      let (b, rest) ← readGo v fuel 0 rest
      .ok (.sequence a b, rest)
    | rest => .ok (a, rest)
  | fuel + 1, 1, args => do
    let (a, rest) ← readGo v fuel 2 args
    match rest with
    | "-o" :: rest | "-or" :: rest => do
      let (b, rest) ← readGo v fuel 1 rest
      .ok (.disjunction a b, rest)
    | rest => .ok (a, rest)
  | fuel + 1, 2, args => do
    let (a, rest) ← readGo v fuel 3 args
    match rest with
    | "-a" :: rest | "-and" :: rest => do
      let (b, rest) ← readGo v fuel 2 rest
      .ok (.conjunction a b, rest)
    | [] | "," :: _ | "-o" :: _ | "-or" :: _ | ")" :: _ => .ok (a, rest)
    | rest => do
      let (b, rest) ← readGo v fuel 2 rest
      .ok (.conjunction a b, rest)
  | fuel + 1, _, args => match args with
    | [] => .error .unclosed
    | "!" :: rest | "-not" :: rest => do
      let (a, rest) ← readGo v fuel 3 rest
      .ok (.negation a, rest)
    | "(" :: rest => do
      let (a, rest) ← readGo v fuel 0 rest
      match rest with
      | ")" :: rest => .ok (a, rest)
      | _ => .error .unclosed
    | word :: rest =>
      if word = "-exec" || word = "-execdir" || word = "-ok" then do
        let (command, gathers, rest) ← commandOf word [] rest
        if command.isEmpty then .error (.withoutArgument word)
        else .ok (if gathers then .gather rest.length command
          else .execute command (word == "-execdir"), rest)
      else match plainTest? word with
        | some t => .ok (t, rest)
        | none => match testOf? v word (rest.headD "") with
          | some result =>
            if rest.isEmpty then .error (.withoutArgument word)
            else do .ok (← result, rest.drop 1)
          | none =>
            if word.toList.head? = some '-' then .error (.unknown word)
            else .error (.misplaced word)

/-- The options for the whole search among some arguments. -/
def limitsOf : List String → Except Mistake Limits
  | [] => .ok {}
  | "-maxdepth" :: n :: rest => do
    let l ← limitsOf rest
    match natural? n with
    | some n => .ok { l with most := some n }
    | none => .error (.badArgument "-maxdepth" n)
  | "-mindepth" :: n :: rest => do
    let l ← limitsOf rest
    match natural? n with
    | some n => .ok { l with least := n }
    | none => .error (.badArgument "-mindepth" n)
  | "-depth" :: rest | "-d" :: rest => do .ok { ← limitsOf rest with deepFirst := true }
  | "-follow" :: rest => do .ok { ← limitsOf rest with follows := true }
  | _ :: rest => limitsOf rest

/-! ## Searching -/

/-- What a letter after a percent sign stands for. -/
def formatValue (f : Visit) : Char → String
  | 'p' => f.path
  | 'f' => lastName f.path
  | 'h' => folderName f.path
  | 'P' => String.ofList ((f.path.toList.drop f.start.length).dropWhile (· = '/'))
  | 'd' => toString f.depth
  | 'm' => String.ofList (Nat.toDigits 8 f.node.mode)
  | 'M' => modeLetters f.node
  | 'y' => String.singleton (typeLetter f.node)
  | 'l' => (linkTarget? f.node.body).getD ""
  | 'k' => toString (blocksOf f.node)
  | 'b' => toString (blocksOf f.node * 2)
  | c => statValue f.view f.path f.number f.node c

/-- A format filled in with what is known about a file. -/
def formatText (f : Visit) : List Char → String
  | '%' :: '%' :: rest => "%" ++ formatText f rest
  | '%' :: c :: rest => formatValue f c ++ formatText f rest
  | c :: rest => String.singleton c ++ formatText f rest
  | [] => ""

/-- The search as it goes on. -/
abbrev Searching := StateT Progress Course

/-- Evaluate an expression for a file. -/
def Test.evaluate (run : Runner) (f : Visit) : Test → Searching Bool
  | .fact holds => pure (holds f)
  | .print lineEnd => do
    say "find" (f.path ++ lineEnd)
    pure true
  | .format text => do
    emit "find" (bytesOf (formatText f
      (textOf (Escape.expand ⟨false, true⟩ text).1).toList))
    pure true
  | .delete => do
    if f.path = "." then pure true
    else
      let result ← Course.changeVolume fun v =>
        let volume := v.store.volume
        match f.node.body with
        | .folder _ => volume.removeFolder v.context.here f.path
        | _ => volume.removeFile v.context.here f.path
      match result with
      | .ok () => pure true
      | .error fault =>
        object "find" ("cannot delete " ++ quoted f.path ++ ": " ++ fault.reason)
        modify fun p => { p with hasFailed := true }
        pure false
  | .stay => do
    modify fun p => { p with stays := true }
    pure true
  | .quit => do
    modify fun p => { p with isOver := true }
    pure true
  | .execute command inFolder => do
    let path := if inFolder then "./" ++ lastName f.path else f.path
    let fill (t : String) : String :=
      String.ofList (replaced ['\x7b', '\x7d'] path.toList (t.length + 1) t.toList)
    let words := command.map fill
    let folder := (f.view.find (folderName f.path)).toOption.getD f.view.context.here
    let e ← runAside run (words.headD "") (words.drop 1)
      (fun fault => "find: " ++ quoted (words.headD "") ++ ": " ++ fault.reason)
      (fun c => if inFolder then { c with here := folder } else c)
    pure (e == .exited 0)
  | .gather number command => do
    modify fun p =>
      let old := ((p.gathered.lookup number).map (·.2)).getD []
      { p with gathered :=
          (p.gathered.filter fun e => e.1 != number) ++ [(number, command, old ++ [f.path])] }
    pure true
  | .negation a => do pure (!(← a.evaluate run f))
  | .conjunction a b => do
    if ← a.evaluate run f then
      if (← get).isOver then pure true else b.evaluate run f
    else pure false
  | .disjunction a b => do
    if ← a.evaluate run f then pure true else b.evaluate run f
  | .sequence a b => do
    let _ ← a.evaluate run f
    b.evaluate run f

/-- Go through a file and everything below it. -/
def visit (run : Runner) (l : Limits) (t : Test) (start : String) :
    Nat → Nat → String → Searching Unit
  | 0, _, _ => pure ()
  | fuel + 1, depth, path => do
    let v ← Course.look
    match v.find path (l.follows) with
    | .error fault =>
      object "find" (quoted path ++ ": " ++ fault.reason)
      modify fun p => { p with hasFailed := true }
    | .ok s => match v.store.volume.node? s.node with
      | none => pure ()
      | some node =>
        let f : Visit := { view := v, path, start, depth, number := s.node, node }
        let own : Searching Unit := do
          if l.least ≤ depth && !(← get).isOver then
            let _ ← t.evaluate run f
        if !l.deepFirst then own
        let stays := (← get).stays && !l.deepFirst
        modify fun p => { p with stays := false }
        if !stays && l.most.all (depth < ·) && !(← get).isOver then
          let names := (v.store.volume.names? s.node).getD []
          names.forM fun e => do
            if !(← get).isOver then
              visit run l t start fuel (depth + 1) (within path e.1)
        if l.deepFirst then own

end Finding

/-- Find files. -/
def find (run : Runner) : Utility := fun args => do
  let args := args.dropWhile fun a => ["-H", "-L", "-P"].contains a
  let isPath (a : String) : Bool :=
    !(["!", "(", ")", ","].contains a) && a.toList.head? != some '-'
  let paths := args.takeWhile isPath
  let expression := args.drop paths.length
  let v ← Course.look
  let result : Except Finding.Mistake (Finding.Limits × Finding.Test) := do
    let t ← if expression.isEmpty then .ok (.print "\n")
      else do
        let (t, rest) ← Finding.readGo v (8 * expression.length + 8) 0 expression
        match rest with
        | [] => .ok (if t.acts then t else .conjunction t (.print "\n"))
        | word :: _ => .error (.misplaced word)
    let l ← Finding.limitsOf expression
    .ok ({ l with deepFirst := l.deepFirst || t.deletes }, t)
  match result with
  | .error mistake =>
    object "find" mistake.message
    pure 1
  | .ok (l, t) =>
    let starts := if paths.isEmpty then ["."] else paths
    let ((), p) ← (starts.forM fun path => Finding.visit run l t path folderDepth 0 path).run {}
    let endings ← p.gathered.mapM fun (_, command, files) =>
      runAside run (command.headD "") (command.drop 1 ++ files)
        (fun fault => "find: " ++ quoted (command.headD "") ++ ": " ++ fault.reason)
        (fun c => c)
    pure (if p.hasFailed || endings.any (· != .exited 0) then 1 else 0)

end Utility

end FolderTasks.Machine
