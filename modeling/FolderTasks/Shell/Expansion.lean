import FolderTasks.Machine.Pattern
import FolderTasks.Shell.Braces
import FolderTasks.Shell.State
/-!
# What words stand for

Before a command runs, its words are expanded: parameters, outputs and values are put in, what was
put in outside quotes is split at separators, and what is still a pattern stands for the paths
that fit it.

Scripts within words are run by functions that the caller supplies.

## Main definitions

* `Shell.Atom`: what an expanded word is made of.
* `Shell.fieldsOf`: the fields of an expanded word.
* `Shell.expandFields`, `Shell.expandText`, `Shell.expandPattern`: a word as arguments, as one
  text, and as a pattern.
-/

namespace FolderTasks.Shell

open Machine

/-- What an expanded word is made of. -/
inductive Atom where
  /-- A character; `splits` says whether it may separate fields. -/
  | char (c : Char) (isQuoted splits : Bool)
  /-- Something quoted, perhaps empty: there is a field here. -/
  | mark
  /-- Between two arguments: a field ends here. -/
  | gap
  /-- In the place of arguments, when there are none: this makes no field. -/
  | absent
deriving DecidableEq, Repr

/-- How scripts within words are run. -/
structure Inner where
  /-- The output of a script that begins on a line. -/
  output : Nat → String → Work String
  /-- The path of a pipe to a script, if it is written, or from it. -/
  path : Bool → String → Work String

/-- The atoms of a text. -/
def atomsOf (isQuoted splits : Bool) (s : String) : List Atom :=
  (if isQuoted then [.mark] else []) ++ s.toList.map fun c => .char c isQuoted splits

/-- The characters of some atoms. -/
def charsOf (atoms : List Atom) : List (Char × Bool) :=
  atoms.filterMap fun
    | .char c isQuoted _ => some (c, isQuoted)
    | _ => none

/-- The text of some atoms; between arguments there is a blank. -/
def plainText (atoms : List Atom) : String :=
  String.ofList (atoms.filterMap fun
    | .char c _ _ => some c
    | .gap => some ' '
    | _ => none)

/-- The characters that exclude what else is in brackets. -/
def exclusionMarks (d : Dialect) : String := if d = .extended then "!^" else "!"

/-- The pattern of some atoms. -/
def patternOf (d : Dialect) (atoms : List Atom) : Pattern :=
  .ofChars (exclusionMarks d) (charsOf atoms)

/-- Values in a row, each as a field of its own. -/
def rowAtoms (isQuoted : Bool) (values : List String) : List Atom :=
  if values.isEmpty then [.absent]
  else (values.map (atomsOf isQuoted (!isQuoted))).intersperse [.gap] |>.flatten

/-- A text without the line ends at its end. -/
def trimLineEnds (s : String) : String :=
  String.ofList (s.toList.reverse.dropWhile (· == '\n')).reverse

/-- What is wrong with a word within a word. -/
def readAgain {α : Type} (w : Except Misreading α) : Work α :=
  match w with
  | .ok w => pure w
  | .error m => Work.giveUp m.message

/-- A word that stands in for a parameter, quoted as the parameter is. -/
def wordWithin (isQuoted : Bool) (text : String) : Work Word := do
  let d := (← get).dialect
  readAgain (if isQuoted then readQuotable d .dropped text else wordOf d text)

/-! ## Setting parameters -/

/-- Refuse to change a parameter that is read-only. -/
def demandChangeable (name : String) : Work Unit := do
  let s ← get
  if (s.parameter? name).any Parameter.isReadonly then
    match s.dialect with
    | .basic => Work.giveUp (name ++ ": is read only")
    | .extended => Work.giveUp (name ++ ": readonly variable")

/-- How parameters are looked up in expressions. -/
def lookupIn (s : State) : Arithmetic.Lookup := fun name index =>
  match index with
  | none => (s.value? name).getD ""
  | some i => match s.held? name with
    | some (.array elements) =>
      let last := (elements.getLast?.map (·.1)).getD 0
      let n := if i < 0 then (last : Int) + 1 + i else i
      (elements.lookup n.toNat).getD ""
    | some (.table elements) => (elements.lookup (toString i)).getD ""
    | some (.text v) => if i = 0 then v else ""
    | none => ""

/-- The number of an element that an index means; below zero it is counted from the end. -/
def elementNumber (s : State) (name : String) (i : Int) : Nat :=
  match s.held? name with
  | some (.array elements) =>
    let last := (elements.getLast?.map (·.1)).getD 0
    (if i < 0 then (last : Int) + 1 + i else i).toNat
  | _ => i.toNat

/-- Set an element of an array. -/
def setElement (name : String) (n : Nat) (value : String) : Work Unit := do
  demandChangeable name
  modify fun s => s.change name fun p => { p with
    value := some (match p.value with
      | some (.array elements) => .array (State.insertElement n value elements)
      | some (.table elements) =>
        .table ((elements.filter fun e => e.1 != toString n) ++ [(toString n, value)])
      | some (.text old) => .array (State.insertElement n value [(0, old)])
      | none => .array [(n, value)]) }

/-- The value of an expression; what it sets is set. -/
def calculate (expression : String) : Work Int := do
  let s ← get
  match Arithmetic.valueOf s.dialect (lookupIn s) expression with
  | .error trouble =>
    Work.giveUp (match s.dialect with
      | .basic => trouble.message expression
      | .extended =>
        let shown := String.ofList (expression.toList.dropWhile (· = ' '))
        trouble.extendedMessage shown)
  | .ok (n, changes) =>
    changes.reverse.forM fun (name, index, value) => do
      match index with
      | none => do
        demandChangeable name
        modify fun s => s.set name (toString value)
      | some i => setElement name (elementNumber (← get) name i) (toString value)
    pure n

/-- Set a parameter to a text; of one that is for whole numbers, the value of the text counts. -/
def assign (name text : String) : Work Unit := do
  demandChangeable name
  let s ← get
  if (s.parameter? name).any Parameter.isInteger then
    let n ← calculate text
    modify fun s => s.set name (toString n)
  else
    modify fun s => s.set name text
    if name = "RANDOM" then modify fun s => { s with seed := text.toNat?.getD 0 * 65536 }
    if name = "OPTIND" then
      modify fun s => { s with optionIndex := text.toNat?.getD 1, optionPlace := 0 }

/-! ## Values of parameters -/

/-- What a reference comes to. -/
structure Found where
  values : List String
  /-- Are these several values, each of which is a field? -/
  isRow : Bool := false
  /-- Is there anything? -/
  isThere : Bool
  /-- How it is called in complaints. -/
  name : String

/-- The text between values that become one. -/
def joint (s : State) : String :=
  match s.parameter? "IFS" with
  | none => " "
  | some _ => match s.separators with
    | c :: _ => String.singleton c
    | [] => ""

/-- Several values, in quotes perhaps as one. -/
def rowOf (s : State) (joins isQuoted : Bool) (name : String) (values : List String) : Found :=
  if joins && isQuoted then
    { values := [String.intercalate (joint s) values], isThere := !values.isEmpty, name }
  else { values, isRow := true, isThere := !values.isEmpty, name }

/-- What a reference with an index that has been expanded comes to. -/
def lookUp (name : String) (index : Index) (key : String) (isQuoted : Bool) : Work Found := do
  let s ← get
  match index with
  | .all joins => pure (rowOf s joins isQuoted (name ++ "[@]") ((s.elementsOf name).map (·.2)))
  | .at _ =>
    let shown := name ++ "[" ++ key ++ "]"
    let value ← match s.held? name with
      | some (.table elements) => pure (elements.lookup key)
      | some held => do
        let n := elementNumber s name (← calculate key)
        pure (match held with
          | .array elements => elements.lookup n
          | .text v => if n = 0 then some v else none
          | .table _ => none)
      | none => pure none
    pure { values := [value.getD ""], isThere := value.isSome, name := shown }
  | .none =>
    if name = "@" || name = "*" then
      pure (rowOf s (name == "*") isQuoted name s.arguments)
    else
      let value := s.value? name
      if name = "RANDOM" && s.dialect = .extended then
        set { s with seed := (s.seed * 1103515245 + 12345) % 4294967296 }
      pure { values := [value.getD ""], isThere := value.isSome, name }

/-- Complain if a parameter has no value and must have one. -/
def demandValue (f : Found) : Work Unit := do
  let s ← get
  if !f.isThere && s.isOn "nounset" && !f.isRow && f.name != "@" && f.name != "*" then
    match s.dialect with
    | .basic => Work.giveUp (f.name ++ ": parameter not set")
    | .extended => do
      Work.complain (f.name ++ ": unbound variable")
      Work.exit 127

/-- A text between single quotes, as a script would have to write it. -/
def inQuotes (text : String) : String :=
  "\x27" ++ String.join (text.toList.map fun c =>
    if c = '\x27' then "\x27\\\x27\x27" else String.singleton c) ++ "\x27"

/-- A text with letters that fit a pattern made large or small. -/
def folded (upper all : Bool) (p : Pattern) (text : String) : String :=
  let fold (c : Char) : Char :=
    if p.isEmpty || p.fits [c] then (if upper then c.toUpper else c.toLower) else c
  match text.toList, all with
  | cs, true => String.ofList (cs.map fold)
  | c :: cs, false => String.ofList (fold c :: cs)
  | [], false => text

/-- A text with what fits a pattern replaced everywhere. -/
def replaceAllGo (p : Pattern) (replacement : List Char) (all : Bool) :
    Nat → List Char → List Char
  | 0, cs => cs
  | _, [] => []
  | fuel + 1, c :: cs => match p.longestAt (c :: cs) with
    | some n =>
      let rest := (c :: cs).drop n
      replacement ++ (if all then replaceAllGo p replacement all fuel rest else rest)
    | none => c :: replaceAllGo p replacement all fuel cs

/-- A text with what fits a pattern replaced. -/
def replacePattern (extent : Extent) (p : Pattern) (replacement text : String) : String :=
  let cs := text.toList
  let r := replacement.toList
  if p.isEmpty then text
  else match extent with
    | .first => String.ofList (replaceAllGo p r false (cs.length + 1) cs)
    | .everywhere => String.ofList (replaceAllGo p r true (cs.length + 1) cs)
    | .atStart => match ((List.range (cs.length + 1)).reverse).find? fun n => p.fits (cs.take n) with
      | some n => String.ofList (r ++ cs.drop n)
      | none => text
    | .atEnd => match (List.range (cs.length + 1)).find? fun n => p.fits (cs.drop n) with
      | some n => String.ofList (cs.take n ++ r)
      | none => text

/-- The part of a list from an offset on, both counted from the end if they are below zero. -/
def slice {α : Type} (offset : Int) (length : Option Int) (as : List α) : List α :=
  let n := as.length
  let start := if offset < 0 then (n : Int) + offset else offset
  if start < 0 then []
  else
    let rest := as.drop start.toNat
    match length with
    | none => rest
    | some l => if l < 0 then rest.take ((rest.length : Int) + l).toNat else rest.take l.toNat

/-- A text transformed as a letter says. -/
def transform (letter : Char) (name text : String) : String :=
  match letter with
  | 'Q' => inQuotes text
  | 'U' => folded true true [] text
  | 'u' => folded true false [] text
  | 'L' => folded false true [] text
  | 'A' => name ++ "=" ++ inQuotes text
  | 'E' => Machine.textOf (Escape.expand ⟨false, true⟩ text).1
  | _ => text

/-! ## Expanding words -/

/-- The home folder that a text after a tilde means. -/
def homeOf? (s : State) (user : String) : Option String :=
  if user.isEmpty then s.value? "HOME"
  else if user = "root" then some "/root"
  else if s.dialect = .extended && user = "+" then s.value? "PWD"
  else if s.dialect = .extended && user = "-" then s.value? "OLDPWD"
  else none

/-- A word in which a tilde at the beginning stands for a home folder. -/
def withHome (s : State) (inSetting : Bool) : Word → Word
  | .text t false :: rest => match t.toList with
    | '~' :: cs =>
      let user := cs.takeWhile fun c => c != '/' && !(inSetting && c = ':')
      let after := cs.drop user.length
      if after.isEmpty && !rest.isEmpty then .text t false :: rest
      else match homeOf? s (String.ofList user) with
        | some home => .text home true :: .text (String.ofList after) false :: rest
        | none => .text t false :: rest
    | _ => .text t false :: rest
  | w => w

/-- The atoms of a piece.  Words within words are as deep as there is fuel. -/
def expandPiece (inner : Inner) : Nat → Piece → Work (List Atom)
  | 0, _ => Work.giveUp "word: too deep"
  | _ + 1, .text s isQuoted => pure (atomsOf isQuoted false s)
  | _ + 1, .broken text => do
    Work.giveUp (match (← get).dialect with
      | .basic => "Bad substitution"
      | .extended => text ++ ": bad substitution")
  | _ + 1, .output script isQuoted isFresh => do
    let s ← get
    let text ← inner.output (if isFresh then 1 else s.line) script
    pure (atomsOf isQuoted (!isQuoted) (trimLineEnds text))
  | _ + 1, .path script isWritten => do
    pure (atomsOf true false (← inner.path isWritten script))
  | _ + 1, .names beginning isQuoted => do
    let names := ((← get).parameters.map (·.1)).filter fun n => beginning.toList.isPrefixOf n.toList
    pure (rowAtoms isQuoted (names.mergeSort fun a b => decide (a ≤ b)))
  | fuel + 1, .value expression isQuoted => do
    let d := (← get).dialect
    let quotes := if d = .extended then Quotes.dropped else .kept
    let inside ← (← readAgain (readQuotable d quotes expression)).mapM (expandPiece inner fuel)
    let n ← calculate (plainText inside.flatten)
    pure (atomsOf isQuoted (!isQuoted) (toString n))
  | fuel + 1, .parameter r treatment isQuoted => do
    let expandWithin (w : Word) : Work (List Atom) := do
      let s ← get
      pure (← (withHome s false w).mapM (expandPiece inner fuel)).flatten
    let textWithin (text : String) : Work String := do
      pure (plainText (← expandWithin (← readAgain (wordOf (← get).dialect text))))
    let patternWithin (text : String) : Work Pattern := do
      let d := (← get).dialect
      pure (patternOf d (← expandWithin (← readAgain (wordOf d text))))
    let keyOf (index : Index) : Work String := match index with
      | .at e => textWithin e
      | _ => pure ""
    let found ← match r.isIndirect, r.index with
      | true, .all joins => do
        let s ← get
        pure (rowOf s joins isQuoted r.name ((s.elementsOf r.name).map (·.1)))
      | true, index => do
        let f ← lookUp r.name index (← keyOf index) isQuoted
        let target := f.values.headD ""
        match splitReference (← get).dialect target.toList with
        | some (t, []) => lookUp t.name t.index (← keyOf t.index) isQuoted
        | _ =>
          if target.isEmpty then Work.giveUp (r.name ++ ": invalid indirect expansion")
          else Work.giveUp (target ++ ": invalid variable name")
      | false, index => do lookUp r.name index (← keyOf index) isQuoted
    let own : List Atom := if found.isRow then rowAtoms isQuoted found.values
      else atomsOf isQuoted (!isQuoted) (found.values.headD "")
    let ofEach (f : String → String) : Work (List Atom) := do
      demandValue found
      pure (if found.isRow then rowAtoms isQuoted (found.values.map f)
        else atomsOf isQuoted (!isQuoted) (f (found.values.headD "")))
    match treatment with
    | .plain =>
      demandValue found
      pure own
    | .length =>
      demandValue found
      let s ← get
      let isCounted := s.dialect = .extended && (r.name = "@" || r.name = "*" || (match r.index with
        | .all _ => true
        | _ => false))
      let n := if isCounted then
          (if r.index = .none then s.arguments.length else (s.elementsOf r.name).length)
        else (String.intercalate " " found.values).length
      pure (atomsOf isQuoted (!isQuoted) (toString n))
    | .instead kind orEmpty text =>
      let isFull := found.isThere && !(orEmpty && found.values.all (· == ""))
      if isFull && kind != '+' then pure own
      else if !isFull && kind = '+' then pure (atomsOf isQuoted (!isQuoted) "")
      else
        let word ← wordWithin isQuoted text
        if kind = '?' then do
          let what ← expandWithin word
          let message := if text.isEmpty then
              (if orEmpty then "parameter not set or null" else "parameter not set")
            else plainText what
          let d := (← get).dialect
          if d = .basic then Work.giveUp (found.name ++ ": " ++ message)
          else
            Work.complain (found.name ++ ": " ++ if text.isEmpty then
              (if orEmpty then "parameter null or not set" else "parameter not set")
              else plainText what)
            Work.exit 127
        else if kind = '=' then do
          let value := plainText (← expandWithin word)
          let d := (← get).dialect
          if isName r.name then
            match r.index with
            | .at e => do
              let key ← textWithin e
              match (← get).held? r.name with
              | some (.table _) =>
                modify fun s => s.change r.name fun p => { p with
                  value := match p.value with
                    | some (.table es) => some (.table (es ++ [(key, value)]))
                    | v => v }
              | _ => setElement r.name (elementNumber (← get) r.name (← calculate key)) value
            | _ => assign r.name value
            pure (atomsOf isQuoted (!isQuoted) value)
          else if d = .basic then Work.giveUp (r.name ++ ": bad variable name")
          else Work.giveUp ("$" ++ r.name ++ ": cannot assign in this way")
        else do
          let atoms ← expandWithin word
          -- What was put in outside quotes may be split, even if it is spelled out.
          pure (if isQuoted then .mark :: atoms else atoms.map fun
            | .char c false _ => .char c false true
            | a => a)
    | .trimmed atEnd greedy text =>
      let p ← patternWithin text
      ofEach (p.trim atEnd greedy)
    | .cased upper all text =>
      let p ← patternWithin text
      ofEach (folded upper all p)
    | .replaced extent text replacement =>
      let p ← patternWithin text
      let replacement ← textWithin replacement
      ofEach (replacePattern extent p replacement)
    | .transformed letter => ofEach (transform letter r.name)
    | .slice offset length =>
      demandValue found
      let offset ← calculate (← textWithin offset)
      let length ← match length with
        | none => pure none
        | some l => do pure (some (← calculate (← textWithin l)))
      if found.isRow then
        let s ← get
        let values := if r.index = .none then s.name :: s.arguments else found.values
        let offset := if r.index = .none && offset < 0 then offset else offset
        pure (rowAtoms isQuoted (slice offset length values))
      else
        let value := String.ofList (slice offset length (found.values.headD "").toList)
        pure (atomsOf isQuoted (!isQuoted) value)

/-- How deep words may stand within words. -/
def wordDepth : Nat := 100

/-- The atoms of a word. -/
def expandWord (inner : Inner) (w : Word) : Work (List Atom) := do
  let s ← get
  let atoms ← (withHome s false w).mapM (expandPiece inner wordDepth)
  pure atoms.flatten

/-- The fields of an expanded word, each character with whether it is quoted.  `current` is the
reversed beginning of the current field, if there is one; `isOver` says whether blanks have just
ended a field, so that another separator belongs to its end. -/
def fieldsGo (separators : List Char) (current : Option (List (Char × Bool))) (isOver : Bool) :
    List Atom → List (List (Char × Bool))
  | [] => current.toList.map List.reverse
  | .mark :: rest => fieldsGo separators (some (current.getD [])) false rest
  | .absent :: rest => fieldsGo separators current isOver rest
  | .gap :: rest => current.toList.map List.reverse ++ fieldsGo separators none false rest
  | .char c isQuoted splits :: rest =>
    if splits && !isQuoted && separators.contains c then
      if c = ' ' || c = '\t' || c = '\n' then
        current.toList.map List.reverse ++
          fieldsGo separators none (isOver || current.isSome) rest
      else if current.isNone && isOver then fieldsGo separators none false rest
      else (current.getD []).reverse :: fieldsGo separators none false rest
    else fieldsGo separators (some ((c, isQuoted) :: current.getD [])) false rest

/-- The fields of an expanded word.  Where arguments should be and are none, there is no field
unless some text is there too. -/
def fieldsOf (separators : List Char) (atoms : List Atom) : List (List (Char × Bool)) :=
  if atoms.contains .absent && (charsOf atoms).isEmpty then []
  else fieldsGo separators none false atoms

/-- The arguments of a field: the paths that fit it, if it is a pattern and any fit. -/
def argumentsOf (s : State) (v : View) (field : List (Char × Bool)) : List String :=
  let itself := String.ofList (field.map (·.1))
  let pattern : Pattern := .ofChars (exclusionMarks s.dialect) field
  if pattern.isOpen && !s.isOn "noglob" then
    let isDots (path : String) : Bool :=
      [".", ".."].contains (String.ofList (path.toList.reverse.takeWhile (· != '/')).reverse)
    let found := pattern.paths v
    let found := if s.dialect = .extended then found.filter (!isDots ·) else found
    match found with
    | [] => if s.isOn "nullglob" then [] else [itself]
    | paths => paths
  else [itself]

/-- A word as arguments. -/
def expandFields (inner : Inner) (w : Word) : Work (List String) := do
  let s ← get
  let words := if s.dialect = .extended then Braces.expand w else [w]
  let parts ← words.mapM fun w => do
    let atoms ← expandWord inner w
    let s ← get
    let v ← (Course.look : Course View)
    pure ((fieldsOf s.separators atoms).flatMap (argumentsOf s v))
  pure parts.flatten

/-- Words as arguments. -/
def expandAll (inner : Inner) (ws : List Word) : Work (List String) := do
  let fields ← ws.mapM (expandFields inner)
  pure fields.flatten

/-- A word as one text. -/
def expandText (inner : Inner) (w : Word) : Work String := do
  pure (plainText (← expandWord inner w))

/-- The text that a parameter is set to. -/
def expandSetting (inner : Inner) (w : Word) : Work String := do
  let s ← get
  let atoms ← (withHome s true w).mapM (expandPiece inner wordDepth)
  let joined := atoms.flatten.map fun
    | .gap => Atom.char ' ' false false
    | a => a
  pure (plainText joined)

/-- A word as a pattern. -/
def expandPattern (inner : Inner) (w : Word) : Work Pattern := do
  let atoms ← expandWord inner w
  pure (patternOf (← get).dialect atoms)

end FolderTasks.Shell
