import FolderTasks.Machine.Regex
/-!
# Scripts that edit

A script is a row of instructions.  Each says which lines it is for, and what is done with them.

## Main definitions

* `Editing.Address`, `Editing.Selection`: which lines are meant.
* `Editing.Deed`, `Editing.Instruction`: what is done.
* `Editing.readScript`: the instructions of a script, or what is wrong with it.
-/

namespace FolderTasks.Machine.Editing

/-- Which lines are meant. -/
inductive Address where
  | line (n : Nat)
  | last
  /-- A line, and every so many lines after it. -/
  | steps (first step : Nat)
  /-- Those that hold something that fits; if there is no expression, the one used last. -/
  | fits (r : Option Regex) (foldsCase : Bool)
deriving DecidableEq, Repr

/-- Where a range ends. -/
inductive RangeEnd where
  | address (a : Address)
  /-- After so many more lines. -/
  | more (n : Nat)
  /-- At the next line whose number is a multiple. -/
  | multiple (n : Nat)
deriving DecidableEq, Repr

/-- Which lines an instruction is for. -/
structure Selection where
  first : Option Address := none
  second : Option RangeEnd := none
  /-- Is it for all other lines? -/
  isInverted : Bool := false
deriving DecidableEq, Repr

/-- What something is replaced by. -/
inductive Part where
  | text (s : String)
  /-- What a group has fitted; number zero is all of it. -/
  | group (n : Nat)
  /-- How letters are changed from here on, or the next one only. -/
  | casing (c : Char)
deriving DecidableEq, Repr

/-- A replacement. -/
structure Substitution where
  regex : Option Regex
  foldsCase : Bool := false
  parts : List Part
  /-- The number of the first that is replaced. -/
  which : Nat := 1
  isGlobal : Bool := false
  prints : Bool := false
  file : Option String := none
deriving DecidableEq, Repr

/-- What an instruction does. -/
inductive Deed where
  /-- What stands between braces is skipped for other lines. -/
  | opening
  | closing
  | label (name : String)
  | substitute (s : Substitution)
  /-- Something that a letter says. -/
  | letter (c : Char)
  /-- The line is printed with everything in it visible, in lines of some width. -/
  | reveal (width : Option Nat)
  /-- A text is put after the line, before it, or in its place. -/
  | text (c : Char) (s : String)
  | quit (isSilent : Bool) (code : Nat)
  /-- Go on elsewhere: always, after a replacement, or if there was none. -/
  | jump (c : Char) (label : String)
  | transliterate (pairs : List (Char × Char))
  /-- A file is put after the line, or the line into a file. -/
  | file (c : Char) (path : String)
deriving DecidableEq, Repr

/-- An instruction. -/
structure Instruction where
  selection : Selection
  deed : Deed
deriving DecidableEq, Repr

/-- What is wrong with a script, and how many characters are left there. -/
structure Mistake where
  text : String
  left : Nat

/-- Something is wrong where some characters are left. -/
def fail {α : Type} (text : String) (rest : List Char) : Except Mistake α :=
  .error ⟨text, rest.length⟩

/-- The characters after some blanks. -/
def skipBlanks (cs : List Char) : List Char := cs.dropWhile fun c => c = ' ' || c = '\t'

/-- The number that digits at the beginning spell. -/
def readNumber (cs : List Char) : Nat × List Char :=
  let digits := cs.takeWhile Char.isDigit
  ((Escape.number 10 digits.length digits).1, cs.drop digits.length)

/-! ## Texts between marks -/

/-- The character that a number of some base spells after a letter. -/
def codeCharacter? : List Char → Option (Char × List Char)
  | c :: rest =>
    let ofBase (base limit : Nat) : Option (Char × List Char) :=
      match Escape.number base limit rest with
      | (_, 0, _) => none
      | (n, _, after) => some (Char.ofNat (n % 256), after)
    match c with
    | 'x' => ofBase 16 2
    | 'o' => ofBase 8 3
    | 'd' => ofBase 10 3
    | _ => none
  | [] => none

/-- The character that a letter after a backslash stands for. -/
def escapedCharacter (c : Char) : Char :=
  match c with
  | 'n' => '\n'
  | 't' => '\t'
  | 'r' => '\r'
  | 'f' => '\x0c'
  | 'v' => '\x0b'
  | 'a' => '\x07'
  | c => c

/-- A character in an expression that stands for itself. -/
def plainly (c : Char) : List Char := if "*.[]^$\\".toList.contains c then ['\\', c] else [c]

/-- What stands between brackets of an expression, with the closing one. -/
def bracketLength (cs : List Char) : Nat :=
  let first := match cs with
    | '^' :: ']' :: _ => 2
    | '^' :: _ => 1
    | ']' :: _ => 1
    | _ => 0
  let rec go : Nat → List Char → Nat → Nat
    | 0, _, n => n
    | _, [], n => n
    | fuel + 1, c :: rest, n =>
      if c = ']' then n + 1
      else match c, rest with
        | '[', ':' :: rest => go fuel (rest.dropWhile (· != ']') |>.drop 1)
            (n + 3 + (rest.takeWhile (· != ']')).length)
        | _, rest => go fuel rest (n + 1)
  go (cs.length + 1) (cs.drop first) first

/-- The text up to a mark; `isRegex` says whether it is an expression. -/
def readUpTo (mark : Char) (isRegex : Bool) : Nat → List Char → Option (List Char × List Char)
  | 0, _ | _, [] => none
  | fuel + 1, c :: rest =>
    let goOn (taken : List Char) (rest : List Char) : Option (List Char × List Char) :=
      (readUpTo mark isRegex fuel rest).map fun (more, rest) => (taken ++ more, rest)
    if c = mark then some ([], rest)
    else if c = '\n' && isRegex then none
    else if c = '\\' then match rest with
      | [] => none
      | d :: rest =>
        if d = mark && (isRegex || d != '&') then goOn [d] rest
        else if isRegex && d = 'n' then goOn ['\n'] rest
        else if isRegex then match codeCharacter? (d :: rest) with
          | some (e, after) => goOn (plainly e) after
          | none => goOn ['\\', d] rest
        else goOn ['\\', d] rest
    else if c = '[' && isRegex then
      let n := bracketLength rest
      goOn (c :: rest.take n) (rest.drop n)
    else goOn [c] rest

/-- The expression of a text, none if there is no text. -/
def regexOf (isExtended : Bool) (text : List Char) (rest : List Char) :
    Except Mistake (Option Regex) :=
  if text.isEmpty then .ok none
  else match Regex.ofText isExtended (String.ofList text) with
    | .ok r => .ok (some r)
    | .error m => fail m.message rest

/-- The greatest number by which a group can be referred to in an expression. -/
def groupCount : Regex → Nat
  | .group n a => max n (groupCount a)
  | .sequence a b | .either a b => max (groupCount a) (groupCount b)
  | .repeated a _ _ => groupCount a
  | _ => 0

/-- The parts of a replacement. -/
def partsOf : Nat → List Char → List Part
  | 0, _ | _, [] => []
  | fuel + 1, '&' :: rest => .group 0 :: partsOf fuel rest
  | fuel + 1, '\\' :: c :: rest =>
    match codeCharacter? (c :: rest) with
    | some (d, rest) => .text (String.singleton d) :: partsOf fuel rest
    | none =>
      (if c.isDigit then .group (c.toNat - 48)
        else if "ULulE".toList.contains c then .casing c
        else .text (String.singleton (escapedCharacter c))) :: partsOf fuel rest
  | fuel + 1, c :: rest => .text (String.singleton c) :: partsOf fuel rest

/-- A text in which backslashes stand before other characters. -/
def plainText : List Char → List Char
  | '\\' :: c :: rest => escapedCharacter c :: plainText rest
  | c :: rest => c :: plainText rest
  | [] => []

/-! ## Addresses -/

/-- The letters after an expression in an address. -/
def readAddressFlags : List Char → Bool × List Char
  | 'I' :: rest => (true, (readAddressFlags rest).2)
  | 'M' :: rest => readAddressFlags rest
  | rest => (false, rest)

/-- An address, if there is one. -/
def readAddress (isExtended : Bool) (cs : List Char) :
    Except Mistake (Option Address × List Char) := do
  let fitting (mark : Char) (rest : List Char) : Except Mistake (Option Address × List Char) := do
    match readUpTo mark true (rest.length + 1) rest with
    | none => fail "unterminated address regex" []
    | some (text, after) =>
      let (folds, after) := readAddressFlags after
      let r ← regexOf isExtended text after
      .ok (some (.fits r folds), after)
  match cs with
  | '$' :: rest => .ok (some .last, rest)
  | '/' :: rest => fitting '/' rest
  | '\\' :: mark :: rest => fitting mark rest
  | ['\\'] => fail "unterminated address regex" []
  | c :: _ =>
    if c.isDigit then
      let (n, rest) := readNumber cs
      match rest with
      | '~' :: rest =>
        let (step, rest) := readNumber rest
        .ok (some (if step = 0 then .line n else .steps n step), rest)
      | rest => .ok (some (.line n), rest)
    else .ok (none, cs)
  | [] => .ok (none, [])

/-- The end of a range, after the comma. -/
def readRangeEnd (isExtended : Bool) (cs : List Char) : Except Mistake (RangeEnd × List Char) := do
  match cs with
  | '+' :: rest =>
    let (n, rest) := readNumber rest
    .ok (.more n, rest)
  | '~' :: rest =>
    let (n, rest) := readNumber rest
    .ok (.multiple n, rest)
  | cs => match ← readAddress isExtended cs with
    | (some a, rest) => .ok (.address a, rest)
    | (none, rest) => fail "unexpected \x60,\x27" (rest.drop 1)

/-- Which lines an instruction is for. -/
def readSelection (isExtended : Bool) (cs : List Char) :
    Except Mistake (Selection × List Char) := do
  let (first, rest) ← readAddress isExtended cs
  let rest := skipBlanks rest
  let (second, rest) ← match first, rest with
    | some _, ',' :: rest => do
      let (e, rest) ← readRangeEnd isExtended (skipBlanks rest)
      .ok (some e, skipBlanks rest)
    | _, rest => .ok (none, rest)
  match first, second with
  | some (.line 0), some (.address (.fits _ _)) => pure ()
  | some (.line 0), _ => fail "invalid usage of line address 0" (rest.drop 1)
  | _, _ => pure ()
  match rest with
  | '!' :: rest =>
    let rest := skipBlanks rest
    if rest.head? = some '!' then fail "multiple \x60!\x27s" (rest.drop 1)
    else .ok ({ first, second, isInverted := true }, rest)
  | rest => .ok ({ first, second }, rest)

/-! ## Instructions -/

/-- The characters after the end of an instruction. -/
def endInstruction (cs : List Char) : Except Mistake (List Char) :=
  match skipBlanks cs with
  | [] => .ok []
  | '\n' :: rest | ';' :: rest => .ok rest
  | '\x7d' :: rest => .ok ('\x7d' :: rest)
  | '#' :: rest => .ok ('#' :: rest)
  | _ :: rest => fail "extra characters after command" rest

/-- The letters after a replacement. -/
def readFlags (s : Substitution) (isFirstNumber : Bool) : Nat → List Char →
    Except Mistake (Substitution × List Char)
  | 0, rest => .ok (s, rest)
  | fuel + 1, cs => match cs with
    | 'g' :: rest =>
      if s.isGlobal then fail "multiple \x60g\x27 options to \x60s\x27 command" rest
      else readFlags { s with isGlobal := true } isFirstNumber fuel rest
    | 'p' :: rest =>
      if s.prints then fail "multiple \x60p\x27 options to \x60s\x27 command" rest
      else readFlags { s with prints := true } isFirstNumber fuel rest
    | 'i' :: rest | 'I' :: rest => readFlags { s with foldsCase := true } isFirstNumber fuel rest
    | 'm' :: rest | 'M' :: rest => readFlags s isFirstNumber fuel rest
    | 'w' :: rest =>
      let path := (skipBlanks rest).takeWhile (· != '\n')
      if path.isEmpty then fail "missing filename in r/R/w/W commands" (skipBlanks rest)
      else .ok ({ s with file := some (String.ofList path) }, (skipBlanks rest).drop path.length)
    | c :: rest =>
      if c.isDigit then
        let (n, after) := readNumber cs
        if n = 0 then fail "number option to \x60s\x27 command may not be zero" after
        else if !isFirstNumber then
          fail "multiple number options to \x60s\x27 command" after
        else readFlags { s with which := n } false fuel after
      else if c = ' ' || c = '\t' then readFlags s isFirstNumber fuel rest
      else if c = '\n' || c = ';' || c = '\x7d' || c = '#' then .ok (s, cs)
      else fail "unknown option to \x60s\x27" rest
    | [] => .ok (s, [])

/-- A replacement, after its letter. -/
def readSubstitution (isExtended : Bool) (cs : List Char) :
    Except Mistake (Substitution × List Char) := do
  match cs with
  | [] => fail "unterminated \x60s\x27 command" []
  | mark :: rest =>
    match readUpTo mark true (rest.length + 1) rest with
    | none =>
      let line := rest.takeWhile (· != '\n')
      fail "unterminated \x60s\x27 command" (rest.drop line.length)
    | some (text, rest) => match readUpTo mark false (rest.length + 1) rest with
      | none => fail "unterminated \x60s\x27 command" []
      | some (replacement, rest) =>
        let isBare (i : Nat) : Bool := i = 0 || replacement[i - 1]? != some '\\'
        match replacement.zipIdx.find? fun (c, i) => c = '\n' && isBare i with
        | some (_, i) =>
          fail "unterminated \x60s\x27 command" (replacement.drop i ++ mark :: rest)
        | none =>
          let parts := partsOf replacement.length replacement
          let (s, rest) ← readFlags { regex := none, parts } true (rest.length + 1) rest
          let regex ← regexOf isExtended text rest
          let greatest := parts.foldl (fun m p => match p with
            | .group n => max m n
            | _ => m) 0
          match regex with
          | some r =>
            if groupCount r < greatest then
              fail ("invalid reference \\" ++ toString greatest ++
                " on \x60s\x27 command\x27s RHS") rest
            else .ok ({ s with regex }, rest)
          | none => .ok (s, rest)

/-- The text of an instruction that puts one somewhere, with its line feed. -/
def readText : List Char → List Char × List Char
  | '\\' :: c :: rest =>
    let (more, after) := readText rest
    (escapedCharacter c :: more, after)
  | '\n' :: rest => (['\n'], rest)
  | ['\\'] | [] => (['\n'], [])
  | c :: rest =>
    let (more, after) := readText rest
    (c :: more, after)

/-- A name up to a blank or the end of the instruction. -/
def readLabel (cs : List Char) : String × List Char :=
  let cs := skipBlanks cs
  let name := cs.takeWhile fun c => !" \t\n;".toList.contains c
  (String.ofList name, cs.drop name.length)

/-- What an instruction does. -/
def readDeed (isExtended : Bool) (cs : List Char) : Except Mistake (Deed × List Char) := do
  let plain (c : Char) (rest : List Char) : Except Mistake (Deed × List Char) := do
    .ok (.letter c, ← endInstruction rest)
  match cs with
  | [] => fail "missing command" []
  | '\n' :: _ | ';' :: _ => fail "missing command" (cs.drop 1)
  | c :: rest =>
    if c = '\x7b' then .ok (.opening, rest)
    else if c = '\x7d' then .ok (.closing, ← endInstruction rest)
    else if "dDpPnNhHgGxz=F".toList.contains c then plain c rest
    else if c = 'l' then do
      let (n, after) := readNumber (skipBlanks rest)
      let width := if after.length = (skipBlanks rest).length then none else some n
      .ok (.reveal width, ← endInstruction after)
    else match c with
      | 's' => do
        let (s, rest) ← readSubstitution isExtended rest
        .ok (.substitute s, ← endInstruction rest)
      | 'y' => match rest with
        | [] => fail "unterminated \x60y\x27 command" []
        | mark :: rest => match readUpTo mark false (rest.length + 1) rest with
          | none => fail "unterminated \x60y\x27 command" []
          | some (before, rest) => match readUpTo mark false (rest.length + 1) rest with
            | none => fail "unterminated \x60y\x27 command" []
            | some (after, rest) =>
              let before := plainText before
              let after := plainText after
              if before.length ≠ after.length then
                fail "strings for \x60y\x27 command are different lengths" rest
              else .ok (.transliterate (before.zip after), ← endInstruction rest)
      | 'a' | 'i' | 'c' => match skipBlanks rest with
        | [] => fail "expected \\ after \x60a\x27, \x60c\x27 or \x60i\x27" []
        | '\\' :: after => match skipBlanks after with
          | [] => .ok (.text c "", [])
          | first =>
            let (text, rest) := readText (if first.head? = some '\n' then first.drop 1 else after)
            .ok (.text c (String.ofList text), rest)
        | after =>
          let (text, rest) := readText after
          .ok (.text c (String.ofList text), rest)
      | 'q' | 'Q' => do
        let (code, rest) := readNumber (skipBlanks rest)
        .ok (.quit (c == 'Q') code, ← endInstruction rest)
      | ':' =>
        let (name, rest) := readLabel rest
        if name.isEmpty then fail "\x22:\x22 lacks a label" rest
        else .ok (.label name, rest)
      | 'b' | 't' | 'T' => do
        let (name, rest) := readLabel rest
        let own := name.toList.takeWhile (· != '\x7d')
        let left := name.toList.drop own.length
        .ok (.jump c (String.ofList own), ← endInstruction (left ++ rest))
      | 'r' | 'w' =>
        let path := (skipBlanks rest).takeWhile (· != '\n')
        if path.isEmpty then fail "missing filename in r/R/w/W commands" (skipBlanks rest)
        else .ok (.file c (String.ofList path), (skipBlanks rest).drop (path.length + 1))
      | c => fail ("unknown command: \x60" ++ String.singleton c ++ "\x27") rest

/-- The instructions of a script, and how many braces are open in the end; `depth` is how many are
open before. -/
def readScript (isExtended : Bool) : Nat → (depth : Nat) → List Char →
    Except Mistake (List Instruction × Nat)
  | 0, depth, _ => .ok ([], depth)
  | fuel + 1, depth, cs =>
    match cs.dropWhile fun c => " \t\n;".toList.contains c with
    | [] => .ok ([], depth)
    | '#' :: rest => readScript isExtended fuel depth (rest.dropWhile (· != '\n'))
    | cs => do
      let (selection, rest) ← readSelection isExtended cs
      if rest.head? = some '\x7d' && depth = 0 then
        fail "unexpected \x60\x7d\x27" (rest.drop 1)
      else
        let (deed, rest) ← readDeed isExtended rest
        let depth := match deed with
          | .opening => depth + 1
          | .closing => depth - 1
          | _ => depth
        let (more, depth) ← readScript isExtended fuel depth rest
        .ok (⟨selection, deed⟩ :: more, depth)

/-- The label that is jumped to and is not there, if there is one. -/
def missingLabel? (is : List Instruction) : Option String :=
  is.findSome? fun i => match i.deed with
    | .jump _ name =>
      if name.isEmpty || is.any fun j => j.deed == .label name then none else some name
    | _ => none

end FolderTasks.Machine.Editing
