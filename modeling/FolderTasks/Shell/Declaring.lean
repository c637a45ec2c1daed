import FolderTasks.Machine.Utility.Launching
import FolderTasks.Shell.Builtin
/-!
# Commands about names

Parameters are set, exported, made read-only, kept to a function or forgotten; options are
switched; other names are given to commands.

## Main definitions

* `Shell.quotedText`: a text as a script would have to write it.
* `Shell.declaringBuiltin?`: the command of a name, if it is one of those.
-/

namespace FolderTasks.Shell

open Files Machine

/-! ## Quoting -/

/-- A text between single quotes, except that single quotes stand between double ones. -/
def quotedInParts : Nat → List Char → String
  | 0, _ => ""
  | fuel + 1, cs =>
    let plain := cs.takeWhile (· != '\x27')
    let rest := cs.drop plain.length
    let quotes := rest.takeWhile (· == '\x27')
    let after := rest.drop quotes.length
    "\x27" ++ String.ofList plain ++ "\x27" ++
      (if quotes.isEmpty then "" else "\x22" ++ String.ofList quotes ++ "\x22") ++
      (if after.isEmpty then "" else quotedInParts fuel after)

/-- A text as a script would have to write it. -/
def quotedText (d : Dialect) (text : String) : String :=
  match d with
  | .basic => quotedInParts (text.length + 1) text.toList
  | .extended => inQuotes text

/-- A text between double quotes, with backslashes where they are needed. -/
def doubleQuoted (text : String) : String :=
  "\x22" ++ String.join (text.toList.map fun c =>
    if c = '\x22' || c = '\\' || c = '$' || c = '\x60' then "\\" ++ String.singleton c
    else String.singleton c) ++ "\x22"

/-- A text with quotes only if it needs them. -/
def quotedIfNeeded (text : String) : String :=
  if text.toList.all fun c => c.isAlphanum || "_-./:=@%+,".toList.contains c then text
  else inQuotes text

/-! ## Lists of parameters -/

/-- The parameters in the order of their names. -/
def sortedParameters (s : State) : List (String × Parameter) :=
  s.parameters.mergeSort fun a b => decide (a.1 ≤ b.1)

/-- The elements of a table or an array in brackets. -/
def elementsText : Value → String
  | .text t => doubleQuoted t
  | .array elements => "(" ++ String.intercalate " " (elements.map fun (n, v) =>
      "[" ++ toString n ++ "]=" ++ doubleQuoted v) ++ ")"
  | .table elements =>
    let sorted := elements.mergeSort fun a b =>
      decide (State.placeInTable a.1 ≤ State.placeInTable b.1)
    "(" ++ String.join (sorted.map fun (k, v) =>
      "[" ++ k ++ "]=" ++ doubleQuoted v ++ " ") ++ ")"

/-- The letters of what holds for a parameter. -/
def Parameter.letters (p : Parameter) : String :=
  let kind := match p.value with
    | some (.array _) => "a"
    | some (.table _) => "A"
    | _ => ""
  let all := kind ++ (if p.isInteger then "i" else "") ++ (if p.isReadonly then "r" else "") ++
    (if p.isExported then "x" else "") ++ (match p.folding with
      | some true => "u"
      | some false => "l"
      | none => "")
  if all.isEmpty then "-" else all

/-- The command that declares a parameter as it is. -/
def declarationOf (name : String) (p : Parameter) : String :=
  "declare -" ++ p.letters ++ " " ++ name ++ p.value.elim "" fun v => "=" ++ elementsText v

/-- The lines that show some parameters, each with a command in front. -/
def listParameters (command : String) (isMeant : Parameter → Bool) : Work Unit := do
  let s ← get
  let meant := (sortedParameters s).filter fun e => isMeant e.2
  say (unlines (meant.map fun (name, p) => match s.dialect with
    | .basic => command ++ " " ++ name ++
        (p.value.bind State.textOf?).elim "" fun v => "=" ++ quotedText .basic v
    | .extended => declarationOf name p))

/-- Show all parameters as they would have to be set. -/
def listAll : Work Unit := do
  let s ← get
  say (unlines ((sortedParameters s).filterMap fun (name, p) =>
    p.value.map fun v => name ++ "=" ++ match s.dialect, v with
      | .basic, v => quotedText .basic ((State.textOf? v).getD "")
      | .extended, .text t => quotedIfNeeded t
      | .extended, v => elementsText v))

/-! ## Declaring -/

/-- What a declaration makes of parameters. -/
structure Declaration where
  exports : Option Bool := none
  isReadonly : Bool := false
  isInteger : Option Bool := none
  isArray : Bool := false
  isTable : Bool := false
  folding : Option Bool := none
  /-- Does it hold only for the function that is called? -/
  isLocal : Bool := false

/-- What a parameter becomes by a declaration, but for being read-only. -/
def Declaration.follow (d : Declaration) (p : Parameter) : Parameter :=
  { p with
    isExported := d.exports.getD p.isExported
    isInteger := d.isInteger.getD p.isInteger
    folding := d.folding.or p.folding
    value := match p.value with
      | none => if d.isTable then some (.table []) else if d.isArray then some (.array []) else none
      | some (.text t) =>
        if d.isTable then some (.table [("0", t)])
        else if d.isArray then some (.array [(0, t)]) else p.value
      | v => v }

/-- Keep a parameter for the function that is called. -/
def keepLocal (name : String) (isEmpty : Bool) : Work Unit :=
  modify fun s => match s.frames with
    | [] => s
    | (function, before) :: frames =>
      if (before.lookup name).isSome then s
      else
        let s := { s with frames := (function, (name, s.parameter? name) :: before) :: frames }
        if isEmpty then s.unset name else s

/-- A name and, after an equals sign, a value; whether that is put at the end of the old one. -/
def splitDeclared (d : Dialect) (a : String) : String × Option String × Bool :=
  let (name, value) := Utility.splitSetting a
  match d, value, name.toList.reverse with
  | .extended, some v, '+' :: rest => (String.ofList rest.reverse, some v, true)
  | _, _, _ => (name, value, false)

/-- Follow a declaration for the parameter that an argument names. -/
def declare (d : Declaration) (a : String) : Work Unit := do
  let s ← get
  let (name, value, appends) := splitDeclared s.dialect a
  if !isName name then match s.dialect with
    | .basic => Work.refuse (name ++ ": bad variable name")
    | .extended => do
      Work.complain ("\x60" ++ a ++ "\x27: not a valid identifier")
      Work.done 1
  else
    let isRefused := s.dialect = .extended && value.isSome &&
      (s.parameter? name).any Parameter.isReadonly
    if isRefused then
      Work.complain (name ++ ": readonly variable")
      Work.done 1
    else
      if d.isLocal then keepLocal name (s.dialect == .extended)
      if value.isSome || d.exports.isSome || s.dialect = .extended || d.isReadonly then
        modify fun s => s.change name d.follow
      match value with
      | some v =>
        let s ← get
        assign name ((if appends then (s.value? name).getD "" else "") ++ v)
      | none => pure ()
      if d.isReadonly then modify fun s => s.change name fun p => { p with isReadonly := true }

/-- Follow a declaration for all parameters that are named, or show those that are meant. -/
def declareAll (command : String) (d : Declaration) (isMeant : Parameter → Bool) : Builtin :=
  fun args => do
    let s ← get
    let (options, names) ← letterOptions (if s.dialect = .extended then "pnfaA" else "p") args
    if options.contains 'p' || names.isEmpty then listParameters command isMeant
    else
      let d := if options.contains 'n' then { d with exports := d.exports.map fun _ => false } else d
      let d := { d with isArray := options.contains 'a', isTable := options.contains 'A' }
      Work.done 0
      if !options.contains 'f' then names.forM (declare d)

/-- Keep parameters for the function that is called. -/
def declareLocal : Builtin := fun args => do
  let s ← get
  if s.frames.isEmpty then match s.dialect with
    | .basic => Work.refuse "not in a function"
    | .extended => Work.refuse "can only be used in a function" 1
  else
    Work.done 0
    args.forM (declare { isLocal := true })

/-- Declare parameters in every way that the extended language has. -/
def declareFreely : Builtin := fun args => do
  let (given, names) := args.span fun a => match a.toList with
    | '-' :: c :: _ => c != '-'
    | '+' :: _ :: _ => true
    | _ => false
  let s ← get
  let on := (given.filter fun a => a.toList.head? == some '-').flatMap (·.toList.drop 1)
  let off := (given.filter fun a => a.toList.head? == some '+').flatMap (·.toList.drop 1)
  let switched (c : Char) : Option Bool :=
    if on.contains c then some true else if off.contains c then some false else none
  let d : Declaration :=
    { exports := switched 'x', isReadonly := on.contains 'r', isInteger := switched 'i'
      isArray := on.contains 'a', isTable := on.contains 'A'
      folding := if on.contains 'u' then some true else if on.contains 'l' then some false else none
      isLocal := !s.frames.isEmpty && !on.contains 'g' }
  match on.find? fun c => !"aAirxlupfFgn".toList.contains c with
  | some c => Work.refuse ("-" ++ String.singleton c ++ ": invalid option")
  | none =>
    if on.contains 'f' || on.contains 'F' then
      Work.done (if names.all fun n => (s.functions.lookup n).isSome then 0 else 1)
      if on.contains 'F' then
        let known := names.filter fun n => (s.functions.lookup n).isSome
        say (unlines (if names.isEmpty then s.functions.reverse.map fun f => "declare -f " ++ f.1
          else known))
        if known.length < names.length then Work.done 1
    else if on.contains 'p' || names.isEmpty then
      if names.isEmpty then
        listParameters "declare" fun p => !on.contains 'x' || p.isExported
      else
        Work.done 0
        names.forM fun name => do
          match (← get).parameter? name with
          | some p => say (declarationOf name p ++ "\n")
          | none => do
            Work.complain (name ++ ": not found")
            Work.done 1
    else
      Work.done 0
      names.forM (declare d)

/-- Forget an element, a parameter or a function. -/
def forgetOne (isFunction isParameter : Bool) (name : String) : Work Unit := do
  let s ← get
  let withoutFunction (s : State) : State :=
    { s with functions := s.functions.filter fun e => e.1 != name }
  if isFunction then set (withoutFunction s)
  else match s.dialect, splitReference s.dialect name.toList with
    | .extended, some (r, []) => match r.index with
      | .at key => do
        let isTable := match s.held? r.name with
          | some (.table _) => true
          | _ => false
        let n ← if isTable then pure 0 else do
          pure (elementNumber s r.name (← calculate key))
        modify fun s => s.change r.name fun p => { p with
          value := match p.value with
            | some (.table es) => some (.table (es.filter fun e => e.1 != key))
            | some (.array es) => some (.array (es.filter fun e => e.1 != n))
            | v => v }
      | _ => do
        if (s.parameter? r.name).any Parameter.isReadonly then
          Work.refuse (r.name ++ ": cannot unset: readonly variable") 1
        else if (s.parameter? r.name).isNone && !isParameter then set (withoutFunction s)
        else set (s.unset r.name)
    | .extended, _ => pure ()
    | .basic, _ => do
      if !isName name then Work.refuse (name ++ ": bad variable name")
      else do
        demandChangeable name
        modify fun s => s.unset name

/-- Forget parameters or functions. -/
def forget : Builtin := fun args => do
  let (options, names) ← letterOptions "fvn" args
  Work.done 0
  names.forM (forgetOne (options.contains 'f') (options.contains 'v'))

/-! ## Options -/

/-- The options of the basic language that have a name, in the order in which they are shown. -/
def basicOptions : List String :=
  ["errexit", "noglob", "ignoreeof", "interactive", "monitor", "noexec", "stdin", "xtrace",
    "verbose", "vi", "emacs", "noclobber", "allexport", "notify", "nounset", "privileged", "nolog",
    "debug"]

/-- The options of the extended language that have a name. -/
def extendedOptions : List String :=
  ["allexport", "braceexpand", "emacs", "errexit", "errtrace", "functrace", "hashall", "histexpand",
    "history", "ignoreeof", "interactive-comments", "keyword", "monitor", "noclobber", "noexec",
    "noglob", "nolog", "notify", "nounset", "onecmd", "physical", "pipefail", "posix",
    "privileged", "verbose", "vi", "xtrace"]

/-- The options that the extended language has switched on without being asked. -/
def alwaysOn : List String := ["braceexpand", "hashall", "interactive-comments"]

/-- A text filled up with blanks. -/
def filled (width : Nat) (s : String) : String :=
  s ++ String.ofList (List.replicate (width - s.length) ' ')

/-- Show which options are switched on. -/
def listOptions (asCommands : Bool) : Work Unit := do
  let s ← get
  let isOn (o : String) : Bool := s.isOn o || (s.dialect = .extended && alwaysOn.contains o)
  let names := if s.dialect = .extended then extendedOptions else basicOptions
  say (if asCommands then
      unlines (names.map fun o => "set " ++ (if isOn o then "-" else "+") ++ "o " ++ o)
    else match s.dialect with
      | .basic => "Current option settings\n" ++
          unlines (names.map fun o => filled 16 o ++ (if isOn o then "on" else "off"))
      | .extended => unlines (names.map fun o => filled 15 o ++ "\t" ++ (if isOn o then "on" else "off")))

/-- Switch the option of a letter. -/
def switchLetter (value : Bool) (c : Char) : Work Unit := do
  let s ← get
  let known := match s.dialect with
    | .basic => "efnxvCabuIisVEm"
    | .extended => "abefhkmnptuvxBCEHPT"
  if !known.toList.contains c then match s.dialect with
    | .basic => Work.refuse ("Illegal option -" ++ String.singleton c)
    | .extended => Work.refuse ("-" ++ String.singleton c ++ ": invalid option\n" ++
        "set: usage: set [-abefhkmnptuvxBCEHPT] [-o option-name] [--] [-] [arg ...]")
  else if c = 'm' && value && s.dialect = .basic then
    Work.complain "can\x27t access tty; job control turned off"
  else match State.optionLetters.lookup c with
    | some name => set (s.switch name value)
    | none => pure ()

/-- Switch options as the arguments say, and replace the arguments if some are left. -/
def switchOptions : List String → Work Unit
  | [] => pure ()
  | a :: rest => do
    let s ← get
    let replace (arguments : List String) : Work Unit :=
      set { s with arguments, optionIndex := 1, optionPlace := 0 }
    match a.toList with
    | ['-', '-'] => replace rest
    | ['-'] => do
      set ((s.switch "xtrace" false).switch "verbose" false)
      if !rest.isEmpty then
        modify fun s => { s with arguments := rest, optionIndex := 1, optionPlace := 0 }
    | c :: letters =>
      if (c = '-' || c = '+') && !letters.isEmpty then
        let value := c == '-'
        (letters.filter (· != 'o')).forM (switchLetter value)
        if letters.contains 'o' then match rest with
          | [] => listOptions (!value)
          | name :: rest => do
            let known := if s.dialect = .extended then extendedOptions else basicOptions
            if known.contains name then modify fun s => s.switch name value
            else match s.dialect with
              | .basic => Work.refuse ("Illegal option " ++ String.ofList [c, 'o'] ++ " " ++ name)
              | .extended => Work.refuse (name ++ ": invalid option name")
            switchOptions rest
        else switchOptions rest
      else replace (a :: rest)
    | [] => replace (a :: rest)

/-- Switch options, replace the arguments, or show all parameters. -/
def setThings : Builtin := fun args => do
  if args.isEmpty then listAll
  else
    Work.done 0
    switchOptions args

/-- The further options of the extended language. -/
def furtherOptions : List String :=
  ["autocd", "cdspell", "checkwinsize", "cmdhist", "dotglob", "execfail", "expand_aliases",
    "extglob", "extquote", "failglob", "globasciiranges", "globskipdots", "globstar", "inherit_errexit",
    "lastpipe", "localvar_inherit", "login_shell", "nocaseglob", "nocasematch", "nullglob",
    "patsub_replacement", "promptvars", "sourcepath", "xpg_echo"]

/-- Switch the further options of the extended language, or show them. -/
def setFurther : Builtin := fun args => do
  let (options, names) ← letterOptions "supqo" args
  let s ← get
  match names.find? fun n => !(furtherOptions ++ extendedOptions).contains n with
  | some n => Work.refuse (n ++ ": invalid shell option name") 1
  | none =>
    if options.contains 's' || options.contains 'u' then
      set { names.foldl (fun (s : State) n => s.switch n (options.contains 's')) s with status := 0 }
    else
      if !options.contains 'q' then
        say (unlines ((if names.isEmpty then furtherOptions else names).map fun n =>
          filled 15 n ++ "\t" ++ (if s.isOn n then "on" else "off")))
      Work.done (if names.all s.isOn then 0 else 1)

/-- Look at the next option among the arguments. -/
def nextOption : Builtin := fun args => do
  let s ← get
  match args with
  | optionText :: name :: own =>
    let arguments := if own.isEmpty then s.arguments else own
    let known := optionText.toList
    let isQuiet := known.head? == some ':'
    let index := s.optionIndex
    let setText (name : String) (value : Option String) : Work Unit := match value with
      | some v => modify fun s => s.set name v
      | none => modify fun s => s.unset name
    let finish (letter : Char) (index place : Nat) (argument : Option (Option String))
        (status : Nat) : Work Unit := do
      match argument with
      | some a => setText "OPTARG" a
      | none => pure ()
      modify fun s => { s.set "OPTIND" (toString index) with
        optionIndex := index, optionPlace := place }
      if !isName name then match s.dialect with
        | .basic => Work.refuse (name ++ ": bad variable name")
        | .extended => Work.refuse ("\x60" ++ name ++ "\x27: not a valid identifier") 1
      demandChangeable name
      setText name (some (String.singleton letter))
      Work.done status
    let current := if s.optionPlace = 0 then [] else
      ((arguments[index - 2]?).elim [] String.toList).drop s.optionPlace
    let (letters, index, isOver) := match current with
      | [] => match (arguments[index - 1]?).map String.toList with
        | some ['-', '-'] => ([], index + 1, true)
        | some ('-' :: c :: cs) => (c :: cs, index + 1, false)
        | _ => ([], index, true)
      | cs => (cs, index, false)
    match isOver, letters with
    | false, c :: rest =>
      let whole := ((arguments[index - 2]?).getD "").length
      let place := if rest.isEmpty then 0 else whole - rest.length
      let complain (basic extended : String) : Work Unit := match s.dialect with
        | .basic => Course.complain basic
        | .extended => Course.complain (s.name ++ ": " ++ extended)
      let after := (known.drop (if isQuiet then 1 else 0)).dropWhile (· != c)
      match if c = ':' then [] else after with
      | [] => do
        let letter := String.singleton c
        if isQuiet then finish '?' index place (some (some letter)) 0
        else
          complain ("Illegal option -" ++ letter) ("illegal option -- " ++ letter)
          finish '?' index place (some none) 0
      | _ :: ':' :: _ =>
        if !rest.isEmpty then finish c index 0 (some (some (String.ofList rest))) 0
        else match arguments[index - 1]? with
          | some value => finish c (index + 1) 0 (some (some value)) 0
          | none => do
            let letter := String.singleton c
            if isQuiet then finish ':' index 0 (some (some letter)) 0
            else
              complain ("No arg for -" ++ letter ++ " option")
                ("option requires an argument -- " ++ letter)
              finish '?' index 0 (some none) 0
      | _ =>
        finish c index place (some (if s.dialect = .basic then some "" else none)) 0
    | _, _ => finish '?' index 0 none 1
  | _ => match s.dialect with
    | .basic => Work.refuse "Usage: getopts optstring var [arg...]"
    | .extended => do
      Course.complain "getopts: usage: getopts optstring name [arg ...]"
      Work.done 2

/-! ## Other names of commands -/

/-- Give commands other names, or show these. -/
def nameCommands : Builtin := fun args => do
  let s ← get
  let shown (e : String × String) : String :=
    (if s.dialect = .extended then "alias " else "") ++ e.1 ++ "=" ++ quotedText s.dialect e.2
  Work.done 0
  if args.isEmpty then say (unlines (s.aliases.map shown))
  else args.forM fun a => do
    match Utility.splitSetting a with
    | (name, some text) =>
      modify fun s => { s with aliases := (s.aliases.filter fun e => e.1 != name) ++ [(name, text)] }
    | (name, none) => match (← get).aliases.lookup name with
      | some text => say (shown (name, text) ++ "\n")
      | none => do
        match s.dialect with
        | .basic => Course.complain ("alias: " ++ name ++ " not found")
        | .extended => Work.complain (name ++ ": not found")
        Work.done 1

/-- Take other names of commands away. -/
def unnameCommands : Builtin := fun args => do
  let s ← get
  Work.done 0
  if args.head? = some "-a" then modify fun s => { s with aliases := [] }
  else args.forM fun name => do
    if ((← get).aliases.lookup name).isSome then
      modify fun s => { s with aliases := s.aliases.filter fun e => e.1 != name }
    else
      match s.dialect with
      | .basic => Course.complain ("unalias: " ++ name ++ " not found")
      | .extended => Work.complain (name ++ ": not found")
      Work.done 1

/-- Calculate expressions; the status tells whether the last one is zero. -/
def calculateAll : Builtin := fun args => do
  if args.isEmpty then Work.refuse "expression expected" 1
  else
    try
      let values ← args.mapM calculate
      Work.done (if values.getLast? = some 0 then 1 else 0)
    catch flow => if flow = .abandoned then pure () else throw flow

/-- The command of a name, if it is one about names. -/
def declaringBuiltin? (d : Dialect) (name : String) : Option Builtin :=
  match name, d with
  | "export", _ => some (declareAll "export" { exports := some true } Parameter.isExported)
  | "readonly", _ => some (declareAll "readonly" { isReadonly := true } Parameter.isReadonly)
  | "local", .basic => some declareLocal
  | "local", .extended => some fun args => do
    if (← get).frames.isEmpty then declareLocal args else declareFreely args
  | "unset", _ => some forget
  | "set", _ => some setThings
  | "getopts", _ => some nextOption
  | "alias", _ => some nameCommands
  | "unalias", _ => some unnameCommands
  | "declare", .extended | "typeset", .extended => some declareFreely
  | "shopt", .extended => some setFurther
  | "let", .extended => some calculateAll
  | _, _ => none

end FolderTasks.Shell
