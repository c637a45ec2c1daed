import FolderTasks.Machine.Access
/-!
# The options of a program

The arguments of a program are options and operands.  An option is a letter after a hyphen, or a
word after two, perhaps with a value; options may stand anywhere before `--`.

## Main definitions

* `Options.Known`: the options that a program knows.
* `Options.read`: the options and operands among some arguments.
* `Utility`: a program of this kind.
* `Utility.withOptions`: a program that complains about options which it does not know.
-/

namespace FolderTasks.Machine

open Files

/-- A program on its own: from its arguments to its exit code. -/
abbrev Utility := List String → Course Nat

namespace Options

/-- The options that a program knows. -/
structure Known where
  /-- Letters without a value. -/
  flags : String := ""
  /-- Letters with a value. -/
  valued : String := ""
  /-- Letters with a value if it follows at once. -/
  attached : String := ""
  /-- Words, each with the letter that means the same. -/
  words : List (String × Char) := []
  /-- Do options end at the first operand? -/
  isStrict : Bool := false
deriving Repr

/-- Options that were given, with their values, and the operands. -/
structure Given where
  options : List (Char × String) := []
  operands : List String := []
deriving Repr

/-- Is an option given? -/
def Given.has (g : Given) (c : Char) : Bool := g.options.any fun o => o.1 == c

/-- The value of an option, the last of several. -/
def Given.value? (g : Given) (c : Char) : Option String :=
  (g.options.reverse.find? fun o => o.1 == c).map (·.2)

/-- What is wrong with an option. -/
inductive Mistake where
  | unknownLetter (c : Char)
  | unknownWord (w : String)
  | withoutValue (c : Char)
  | wordWithoutValue (w : String)
  | wordWithValue (w : String)
deriving DecidableEq, Repr

/-- The wording of a mistake. -/
def Mistake.message : Mistake → String
  | .unknownLetter c => "invalid option -- \x27" ++ String.singleton c ++ "\x27"
  | .unknownWord w => "unrecognized option \x27--" ++ w ++ "\x27"
  | .withoutValue c => "option requires an argument -- \x27" ++ String.singleton c ++ "\x27"
  | .wordWithoutValue w => "option \x27--" ++ w ++ "\x27 requires an argument"
  | .wordWithValue w => "option \x27--" ++ w ++ "\x27 doesn\x27t allow an argument"

/-- Take in the letters after a hyphen; the answer says whether the value of the last one is the
next argument. -/
def readLetters (k : Known) : List Char → Except Mistake (List (Char × String) × Option Char)
  | [] => .ok ([], none)
  | c :: rest =>
    if k.flags.toList.contains c then do
      let (more, waiting) ← readLetters k rest
      .ok ((c, "") :: more, waiting)
    else if k.attached.toList.contains c then .ok ([(c, String.ofList rest)], none)
    else if k.valued.toList.contains c then
      if rest.isEmpty then .ok ([], some c) else .ok ([(c, String.ofList rest)], none)
    else .error (.unknownLetter c)

/-- The option that a word names: itself, or the only one that begins with it. -/
def wordOption? (k : Known) (w : String) : Option (String × Char) :=
  match k.words.find? fun e => e.1 == w with
  | some e => some e
  | none =>
    match k.words.filter fun e => w.toList.isPrefixOf e.1.toList with
    | [e] => some e
    | _ => none

/-- Take in the word after two hyphens; the answer says whether its value is the next
argument. -/
def readWordOption (k : Known) (text : List Char) :
    Except Mistake (List (Char × String) × Option (Char × String)) :=
  let name := text.takeWhile (· != '=')
  let value := if name.length < text.length then
    some (String.ofList (text.drop (name.length + 1))) else none
  match wordOption? k (String.ofList name) with
  | none => .error (.unknownWord (String.ofList text))
  | some (w, c) =>
    if k.attached.toList.contains c then .ok ([(c, value.getD "")], none)
    else if k.valued.toList.contains c then match value with
      | some value => .ok ([(c, value)], none)
      | none => .ok ([], some (c, w))
    else match value with
      | some _ => .error (.wordWithValue w)
      | none => .ok ([(c, "")], none)

/-- The options and operands among some arguments. -/
def read (k : Known) : List String → Except Mistake Given
  | [] => .ok {}
  | a :: rest =>
    let more (options : List (Char × String)) (rest : Except Mistake Given) :
        Except Mistake Given := do
      let g ← rest
      .ok { g with options := options ++ g.options }
    match a.toList with
    | ['-', '-'] => .ok { operands := rest }
    | '-' :: '-' :: word => do
      match ← readWordOption k word with
      | (options, none) => more options (read k rest)
      | (options, some (c, w)) => match rest with
        | value :: rest => more (options ++ [(c, value)]) (read k rest)
        | [] => .error (.wordWithoutValue w)
    | '-' :: c :: letters => do
      match ← readLetters k (c :: letters) with
      | (options, none) => more options (read k rest)
      | (options, some c) => match rest with
        | value :: rest => more (options ++ [(c, value)]) (read k rest)
        | [] => .error (.withoutValue c)
    | _ =>
      if k.isStrict then .ok { operands := a :: rest }
      else do
        let g ← read k rest
        .ok { g with operands := a :: g.operands }

end Options

namespace Utility

/-- Where one who called a program in a wrong way finds help. -/
def adviceFor (name : String) : String :=
  "Try \x27" ++ name ++ " --help\x27 for more information."

/-- Complain with the program's name in front. -/
def object (name text : String) : Course Unit := Course.complain (name ++ ": " ++ text)

/-- Complain about a wrong call. -/
def misuse (name text : String) (code : Nat := 1) : Course Nat := do
  object name (text ++ "\n" ++ adviceFor name)
  pure code

/-- A program that complains about options which it does not know. -/
def withOptions (name : String) (k : Options.Known) (use : Options.Given → Course Nat)
    (code : Nat := 1) : Utility := fun args =>
  match Options.read k args with
  | .ok g => use g
  | .error mistake => misuse name mistake.message code

/-- A program that takes its arguments in another form. -/
def taking (f : List String → List String) (u : Utility) : Utility := fun args => u (f args)

/-- Print, or end with a complaint if that is not possible. -/
def emit (name : String) (bs : Bytes) (code : Nat := 1) : Course Unit := do
  match ← Course.write 1 bs with
  | .ok () => pure ()
  | .error fault =>
    object name ("write error: " ++ fault.reason)
    Course.stop (.exited code)

/-- Print a text, or end with a complaint if that is not possible. -/
def say (name text : String) : Course Unit := emit name (bytesOf text)

/-- Do something with every one of some arguments; the exit code is one if something is wrong with
one of them. -/
def forEach {α : Type} (name : String) (as : List α) (f : α → Course (Except String Unit)) :
    Course Nat := do
  let codes ← as.mapM fun a => do
    match ← f a with
    | .ok () => pure 0
    | .error complaint =>
      object name complaint
      pure 1
  pure (codes.foldl max 0)

/-- Change the volume for every one of some arguments. -/
def changeForEach (name : String) (paths : List String)
    (describe : String → Fault → String) (f : View → String → Except Fault Volume) : Course Nat :=
  forEach name paths fun path => do
    match ← Course.changeVolume fun v => f v path with
    | .ok () => pure (.ok ())
    | .error fault => pure (.error (describe path fault ++ ": " ++ fault.reason))

/-- A text between single quotes. -/
def quoted (s : String) : String := "\x27" ++ s ++ "\x27"

end Utility

/-- The natural number that a text spells in digits. -/
def natural? (text : String) : Option Nat :=
  let cs := text.toList
  if cs.isEmpty || !cs.all Char.isDigit then none
  else some (cs.foldl (fun n c => n * 10 + (c.toNat - 48)) 0)

/-- The lines of a text without their line feeds, the last one only if there is something in
it. -/
def linesOf (text : String) : List String :=
  let parts := text.toList.splitOn '\n'
  ((if parts.getLast? = some [] then parts.dropLast else parts)).map String.ofList

/-- Some lines as a text, each with its line feed. -/
def unlines (ls : List String) : String := String.join (ls.map (· ++ "\n"))

end FolderTasks.Machine
