import FolderTasks.Machine.Editing.Script
import FolderTasks.Machine.Utility.Source
/-!
# Editing lines by a script

Every line is taken into a space of its own, where the instructions of a script change it, and is
printed in the end.  A second space keeps what is put aside.

## Main definitions

* `Editing.Desk`: what is at hand while lines are edited.
* `Editing.Editor`: a part of the editing.
* `Editing.selects`: is an instruction for the line at hand?
* `Editing.perform`: what an instruction does.
* `Utility.sed`: the program.

## Design notes

What is printed is gathered and written in larger pieces, as the program does that is modelled; so
what was not yet written is lost when it is killed.
-/

namespace FolderTasks.Machine

open Files

namespace Editing

/-- How far a range of lines has come. -/
inductive Extent where
  | waiting
  /-- It goes on, up to a line if its number is known. -/
  | going (stop : Option Nat)
  | over

/-- Something that is printed after the line. -/
inductive Addition where
  | text (s : String)
  | file (path : String)

/-- What is to be done with the lines. -/
structure Plan where
  instructions : Array Instruction
  isQuiet : Bool := false
  lineEnd : Char := '\n'
  /-- The files that lines are put into, with their channels. -/
  outlets : List (String × Nat) := []
  /-- The width of lines in which everything is visible. -/
  width : Nat := 70

/-- What is at hand while lines are edited. -/
structure Desk where
  source : Source
  space : List Char := []
  /-- What was put aside. -/
  hold : List Char := []
  /-- The number of the line, and its file. -/
  number : Nat := 0
  path : String := "-"
  isWhole : Bool := true
  hasReplaced : Bool := false
  lastRegex : Option (Regex × Bool) := none
  extents : List (Nat × Extent) := []
  additions : List Addition := []
  /-- The places where the end of the last line is missing; the one without a path is where is
  printed. -/
  unfinished : List (Option String) := []
  /-- What is not yet written, the last piece first, and its length. -/
  pending : List String := []
  pendingLength : Nat := 0
  /-- Is all of it kept until the file is done? -/
  keeps : Bool := false

/-- A part of the editing. -/
abbrev Editor := StateT Desk Course

/-- What comes after an instruction. -/
inductive Next where
  | position (i : Nat)
  /-- The line is done and is printed, or not. -/
  | finished (prints : Bool)
  /-- It begins anew with what is in the space. -/
  | anew
  /-- Nothing more is done. -/
  | over (prints : Bool) (code : Nat)

/-! ## Printing -/

/-- Write what is not yet written. -/
def flush : Editor Unit := do
  let d ← get
  if !d.keeps then
    set { d with pending := [], pendingLength := 0 }
    Utility.say "sed" (String.join d.pending.reverse)

/-- Write a text somewhere. -/
def write (p : Plan) (outlet : Option String) (text : String) : Editor Unit := do
  match outlet.bind fun path => p.outlets.lookup path with
  | some channel => Course.print channel text
  | none =>
    modify fun d => { d with
      pending := text :: d.pending
      pendingLength := d.pendingLength + text.length }
    if 4096 ≤ (← get).pendingLength then flush

/-- Write a text after the line end that is missing, if one is. -/
def writeAfter (p : Plan) (outlet : Option String) (text : String) : Editor Unit := do
  let isMissing := (← get).unfinished.contains outlet
  modify fun d => { d with unfinished := d.unfinished.filter (· != outlet) }
  write p outlet ((if isMissing then String.singleton p.lineEnd else "") ++ text)

/-- Write a line; `isWhole` says whether it gets its end. -/
def writeLine (p : Plan) (outlet : Option String) (cs : List Char) (isWhole : Bool) :
    Editor Unit := do
  writeAfter p outlet (String.ofList (if isWhole then cs ++ [p.lineEnd] else cs))
  if !isWhole then modify fun d => { d with unfinished := outlet :: d.unfinished }

/-- Print the line. -/
def printSpace (p : Plan) (outlet : Option String := none) : Editor Unit := do
  let d ← get
  writeLine p outlet d.space d.isWhole

/-- Print what comes after the line. -/
def printAdditions (p : Plan) : Editor Unit := do
  let additions := (← get).additions
  modify fun d => { d with additions := [] }
  additions.forM fun a => match a with
    | .text s => if s.isEmpty then pure () else writeAfter p none s
    | .file path => do
      match ← Course.readFile path with
      | .ok bs => if bs.isEmpty then pure () else writeAfter p none (textOf bs)
      | .error _ => pure ()

/-- The characters of a line in a visible form. -/
def visibleCharacter (c : Char) : String :=
  match c with
  | '\\' => "\\\\"
  | '\x07' => "\\a"
  | '\x08' => "\\b"
  | '\x0c' => "\\f"
  | '\n' => "\\n"
  | '\r' => "\\r"
  | '\t' => "\\t"
  | '\x0b' => "\\v"
  | c =>
    if 32 ≤ c.toNat && c.toNat < 127 then String.singleton c
    else "\\" ++ String.ofList (Nat.toDigits 8 (c.toNat + 512)).tail

/-- Texts one after the other in lines of some width, without one if that is zero. -/
def inLines (width : Nat) : (column : Nat) → List String → String
  | _, [] => "$\n"
  | column, t :: rest =>
    if width ≠ 0 && width < column + t.length + 1 then
      "\\\n" ++ t ++ inLines width t.length rest
    else t ++ inLines width (column + t.length) rest

/-! ## Reading -/

/-- Is there no line after the one at hand? -/
def isLast : Editor Bool := do
  let (more, source) ← (← get).source.hasMore
  modify fun d => { d with source }
  pure !more

/-- Take the next line, after the one at hand if `joins`; is there one? -/
def takeLine (p : Plan) (joins : Bool) : Editor Bool := do
  let (line?, source) ← (← get).source.next
  modify fun d => { d with source }
  match line? with
  | none => pure false
  | some line =>
    printAdditions p
    modify fun d => { d with
      space := if joins then d.space ++ p.lineEnd :: line.text.toList else line.text.toList
      isWhole := line.isWhole, path := line.path, number := d.number + 1, hasReplaced := false }
    pure true

/-! ## Selecting -/

/-- The expression that is meant, or the last one. -/
def regexMeant (r : Option Regex) (foldsCase : Bool) : Editor (Regex × Bool) := do
  match r, (← get).lastRegex with
  | some r, _ =>
    modify fun d => { d with lastRegex := some (r, foldsCase) }
    pure (r, foldsCase)
  | none, some last => pure last
  | none, none => do
    Utility.object "sed" "-e expression #1, char 0: no previous regular expression"
    Course.stop (.exited 1)

/-- Is the line at hand one that an address means? -/
def Address.isHere : Address → Editor Bool
  | .line n => do pure ((← get).number == n)
  | .last => isLast
  | .steps first step => do
    let n := (← get).number
    pure (decide (first ≤ n) && (n - first) % step == 0)
  | .fits r foldsCase => do
    let (r, foldsCase) ← regexMeant r foldsCase
    pure (r.search foldsCase (fun _ _ => true) (← get).space 0).isSome

/-- The line at which a range ends that begins at a line, if that is known. -/
def RangeEnd.line? (n : Nat) : RangeEnd → Option Nat
  | .address (.line k) => some k
  | .address _ => none
  | .more k => some (n + k)
  | .multiple k => some (if k = 0 then n else (n + k - 1) / k * k)

/-- Does a range begin at a line?  One that begins at a line by its number does so later if that
was skipped. -/
def begins (first : Address) (second : RangeEnd) (e : Extent) : Editor Bool := do
  let n := (← get).number
  match first, second, e with
  | .line m, .address (.line k), .waiting => pure (if k < n then n == m else decide (m ≤ n))
  | .line m, _, .waiting => pure (decide (m ≤ n))
  | first, _, _ => first.isHere

/-- Is the line at hand in the range of the instruction with some number? -/
def isInRange (i : Nat) (first : Address) (second : RangeEnd) : Editor Bool := do
  let d ← get
  let note (e : Extent) : Editor Unit :=
    modify fun d => { d with extents := (i, e) :: d.extents.filter fun x => x.1 != i }
  let ends : Editor Bool := match second with
    | .address a => a.isHere
    | _ => pure true
  let e := (d.extents.lookup i).getD (if first = .line 0 then .going none else .waiting)
  match e with
  | .going (some stop) =>
    if stop ≤ d.number then note .over
    pure (decide (d.number ≤ stop))
  | .going none =>
    note (if ← ends then .over else .going none)
    pure true
  | e =>
    if ← begins first second e then
      note (match second.line? d.number with
        | some stop => if stop ≤ d.number then .over else .going (some stop)
        | none => .going none)
      pure true
    else pure false

/-- Is an instruction for the line at hand? -/
def selects (i : Nat) (s : Selection) : Editor Bool := do
  let isMeant ← match s.first, s.second with
    | none, _ => pure true
    | some a, none => a.isHere
    | some a, some e => isInRange i a e
  pure (isMeant != s.isInverted)

/-- Is the range of an instruction still going on? -/
def goesOn (i : Nat) : Editor Bool := do
  pure (match (← get).extents.lookup i with
    | some (.going _) => true
    | _ => false)

/-! ## Replacing -/

/-- Letters of a text in the case that a letter stands for. -/
def inCase (c : Option Char) (cs : List Char) : List Char :=
  match c with
  | some 'U' | some 'u' => cs.map Char.toUpper
  | some 'L' | some 'l' => cs.map Char.toLower
  | _ => cs

/-- The replacement of what was found; `mode` is the case of all letters, and `once` that of the
next one. -/
def filled (whole : List Char) (f : Regex.Found) : (mode once : Option Char) → List Part →
    List Char
  | _, _, [] => []
  | mode, once, p :: rest =>
    let put (text : List Char) : List Char :=
      if text.isEmpty then filled whole f mode once rest
      else inCase (once.or mode) (text.take 1) ++ inCase mode (text.drop 1) ++
        filled whole f mode none rest
    match p with
    | .casing c =>
      if c = 'u' || c = 'l' then filled whole f mode (some c) rest
      else filled whole f (some c) none rest
    | .text t => put t.toList
    | .group 0 => put ((whole.drop f.start).take (f.stop - f.start))
    | .group n => match f.groups.lookup n with
      | some (start, stop) => put ((whole.drop start).take (stop - start))
      | none => put []

/-- Replace what fits from a position on; `count` is how many were found before, and `lastStop`
where the last one ended.  The answer says whether anything was replaced. -/
def replaceFrom (r : Regex) (foldsCase : Bool) (s : Substitution) (whole : List Char) :
    Nat → (start count : Nat) → (lastStop : Option Nat) → List Char × Bool
  | 0, start, _, _ => (whole.drop start, false)
  | fuel + 1, start, count, lastStop =>
    match r.search foldsCase (fun _ _ => true) whole start with
    | none => (whole.drop start, false)
    | some f =>
      let before := (whole.drop start).take (f.start - start)
      let found := (whole.drop f.start).take (f.stop - f.start)
      let isEmpty := f.start == f.stop
      let next := (whole.drop f.stop).take 1
      let goOn (count : Nat) : List Char × Bool :=
        if isEmpty then
          if next.isEmpty then ([], false)
          else
            let (more, isDone) := replaceFrom r foldsCase s whole fuel (f.stop + 1) count none
            (next ++ more, isDone)
        else replaceFrom r foldsCase s whole fuel f.stop count (some f.stop)
      if isEmpty && lastStop = some f.start then
        let (more, isDone) := goOn count
        (before ++ more, isDone)
      else if count + 1 < s.which then
        let (more, isDone) := goOn (count + 1)
        (before ++ found ++ more, isDone)
      else
        let text := filled whole f none none s.parts
        let more := if s.isGlobal then (goOn (count + 1)).1 else whole.drop f.stop
        (before ++ text ++ more, true)

/-- Carry out a replacement. -/
def substitute (p : Plan) (s : Substitution) : Editor Unit := do
  let (r, foldsCase) ← regexMeant s.regex s.foldsCase
  let d ← get
  let (space, isDone) := replaceFrom r foldsCase s d.space (d.space.length + 2) 0 0 none
  if isDone then
    set { d with space, hasReplaced := true, lastRegex := (← get).lastRegex }
    if s.prints then printSpace p
    s.file.forM fun path => printSpace p (some path)

/-! ## Instructions -/

/-- The position after the brace that closes the one at a position. -/
def afterClosing (is : Array Instruction) : Nat → (i depth : Nat) → Nat
  | 0, i, _ => i
  | fuel + 1, i, depth => match (is[i]?).map Instruction.deed with
    | some .opening => afterClosing is fuel (i + 1) (depth + 1)
    | some .closing => if depth ≤ 1 then i + 1 else afterClosing is fuel (i + 1) (depth - 1)
    | some _ => afterClosing is fuel (i + 1) depth
    | none => i

/-- The position of a label, the end if it has no name. -/
def positionOf (p : Plan) (label : String) : Nat :=
  if label.isEmpty then p.instructions.size
  else ((p.instructions.toList.findIdx? fun i => i.deed == .label label)).getD p.instructions.size

/-- What an instruction does that is a letter alone. -/
def performLetter (p : Plan) (i : Nat) (c : Char) : Editor Next := do
  let d ← get
  let firstLine := d.space.takeWhile (· != p.lineEnd)
  let then_ (act : Editor Unit) : Editor Next := do
    act
    pure (.position (i + 1))
  match c with
  | 'd' => pure (.finished false)
  | 'D' =>
    if firstLine.length = d.space.length then pure (.finished false)
    else
      set { d with space := d.space.drop (firstLine.length + 1) }
      pure .anew
  | 'p' => then_ (printSpace p)
  | 'P' => then_ (writeLine p none firstLine true)
  | 'n' =>
    if ← isLast then pure (.over true 0)
    else do
      if !p.isQuiet then printSpace p
      let _ ← takeLine p false
      pure (.position (i + 1))
  | 'N' =>
    if ← isLast then pure (.over true 0)
    else do
      let _ ← takeLine p true
      pure (.position (i + 1))
  | 'h' => then_ (set { d with hold := d.space })
  | 'H' => then_ (set { d with hold := d.hold ++ p.lineEnd :: d.space })
  | 'g' => then_ (set { d with space := d.hold })
  | 'G' => then_ (set { d with space := d.space ++ p.lineEnd :: d.hold })
  | 'x' => then_ (set { d with space := d.hold, hold := d.space })
  | 'z' => then_ (set { d with space := [] })
  | '=' => then_ (writeAfter p none (toString d.number ++ "\n"))
  | 'F' => then_ (writeAfter p none (d.path ++ "\n"))
  | _ => pure (.position (i + 1))

/-- What an instruction does for the line at hand. -/
def perform (p : Plan) (i : Nat) (deed : Deed) : Editor Next := do
  let d ← get
  let jump (label : String) : Editor Next := do
    Course.pause
    pure (.position (positionOf p label))
  match deed with
  | .opening | .closing | .label _ => pure (.position (i + 1))
  | .substitute s => do
    substitute p s
    pure (.position (i + 1))
  | .letter c => performLetter p i c
  | .reveal width => do
    let shown := inLines (width.getD p.width) 0 (d.space.map visibleCharacter)
    writeAfter p none shown
    pure (.position (i + 1))
  | .text c s =>
    if c = 'c' then do
      if !(← goesOn i) then writeAfter p none s
      pure (.finished false)
    else do
      if c = 'i' then writeAfter p none s
      else modify fun d => { d with additions := d.additions ++ [.text s] }
      pure (.position (i + 1))
  | .quit isSilent code => pure (.over (!isSilent) code)
  | .jump c label =>
    if c = 'b' || d.hasReplaced == (c == 't') then do
      if c = 't' then set { d with hasReplaced := false }
      jump label
    else do
      if c = 'T' then set { d with hasReplaced := false }
      pure (.position (i + 1))
  | .transliterate pairs => do
    set { d with space := d.space.map fun c => (pairs.lookup c).getD c }
    pure (.position (i + 1))
  | .file c path => do
    if c = 'r' then modify fun d => { d with additions := d.additions ++ [.file path] }
    else printSpace p (some path)
    pure (.position (i + 1))

/-- Follow the instructions from a position on. -/
def follow (p : Plan) : Nat → Nat → Editor Next
  | 0, _ => Course.spin
  | fuel + 1, i => match p.instructions[i]? with
    | none => pure (.finished true)
    | some ins => do
      if ← selects i ins.selection then
        match ← perform p i ins.deed with
        | .position j => follow p fuel j
        | next => pure next
      else if ins.deed == .opening then
        follow p fuel (afterClosing p.instructions p.instructions.size i 0)
      else follow p fuel (i + 1)

/-- Edit line after line; the answer is the exit code if the script said that it is over. -/
def editLines (p : Plan) : Nat → (isAnew : Bool) → Editor (Option Nat)
  | 0, _ => Course.spin
  | fuel + 1, isAnew => do
    let hasLine ← if isAnew then pure true else takeLine p false
    if !hasLine then
      printAdditions p
      pure none
    else
      let next ← follow p Course.manyReads 0
      let prints := match next with
        | .finished prints | .over prints _ => prints && !p.isQuiet
        | _ => false
      if prints then printSpace p
      match next with
      | .over prints code =>
        if prints then printAdditions p
        pure (some code)
      | next =>
        printAdditions p
        editLines p fuel (match next with
          | .anew => true
          | _ => false)

/-! ## Files -/

/-- What is said of a file that lines cannot be taken from. -/
def complaintAbout (path : String) (fault : Fault) : String :=
  let matter := if fault = .isDirectory then "read error on " else "can\x27t read "
  "sed: " ++ matter ++ path ++ ": " ++ fault.reason

/-- The lines of some files. -/
def sourceOf (p : Plan) (paths : List String) : Source :=
  { complaintAbout, fatal := some 4, lineEnd := p.lineEnd, waiting := paths }

/-- Edit some files as one; the answer says whether one of them could not be read, and the exit
code if it is over. -/
def editTogether (p : Plan) (paths : List String) : Editor (Bool × Option Nat) := do
  modify fun d => { d with
    source := sourceOf p paths, number := 0, hold := [], extents := [], additions := [] }
  let code ← editLines p Course.manyReads false
  flush
  let source := (← get).source
  if (source.current.map (·.2)) = some 0 then Utility.giveBack 0 source.unread.length
  let _ ← source.leaveFile
  pure (source.hasFailed, code)

/-- Edit a file in its place; what was in it before is kept under the name with an ending, if
there is one. -/
def editInPlace (p : Plan) (ending : String) (path : String) : Editor (Bool × Option Nat) := do
  let v ← Course.look
  match v.find path with
  | .error fault =>
    Course.complain (complaintAbout path fault)
    pure (true, none)
  | .ok s => match (v.store.volume.node? s.node).map Node.body with
    | some (.file old) => do
      modify fun d => { d with keeps := true, unfinished := [] }
      let (hasFailed, code) ← editTogether p [path]
      let text := String.join (← get).pending.reverse
      modify fun d => { d with keeps := false, pending := [], pendingLength := 0 }
      if !ending.isEmpty then
        let keptPath := if ending.toList.contains '*' then
          String.ofList (ending.toList.flatMap fun c => if c = '*' then path.toList else [c])
          else path ++ ending
        let _ ← Course.writeFile keptPath .toWrite old
      let _ ← Course.writeFile path .toWrite (bytesOf text)
      pure (hasFailed, code)
    | _ => do
      Utility.object "sed" ("couldn\x27t edit " ++ path ++ ": not a regular file")
      Course.stop (.exited 4)

/-- Edit files one after the other, until it is over. -/
def editEach (edit : String → Editor (Bool × Option Nat)) : List String →
    Editor (Bool × Option Nat)
  | [] => pure (false, none)
  | path :: rest => do
    match ← edit path with
    | (hasFailed, some code) => pure (hasFailed, some code)
    | (hasFailed, none) =>
      let (hasFailedLater, code) ← editEach edit rest
      pure (hasFailed || hasFailedLater, code)

/-! ## Scripts -/

/-- A piece of a script: its text, and the file that it is from. -/
structure Piece where
  text : String
  file : Option String := none

/-- What is said of a mistake in a piece with some number. -/
def Piece.complaint (e : Piece) (number : Nat) (m : Mistake) : String :=
  let consumed := e.text.length - m.left
  match e.file with
  | none => "-e expression #" ++ toString number ++ ", char " ++ toString consumed ++ ": " ++ m.text
  | some path =>
    "file " ++ path ++ " line " ++
      toString (((e.text.toList.take (consumed - 1)).count '\n') + 1) ++ ": " ++ m.text

/-- Pieces in which one that ends with a backslash is joined with the next. -/
def joined : List Piece → List Piece
  | a :: b :: rest =>
    if a.file.isNone && a.text.toList.getLast? = some '\\' then
      joined ({ b with text := a.text ++ "\n" ++ b.text } :: rest)
    else a :: joined (b :: rest)
  | pieces => pieces
termination_by pieces => pieces.length

/-- The instructions of all pieces, or what is wrong with one of them. -/
def readPieces (isExtended : Bool) : (depth : Nat) → List (Piece × Nat) →
    Except String (List Instruction)
  | depth, [] =>
    if depth = 0 then .ok [] else .error "-e expression #1, char 0: unmatched \x60\x7b\x27"
  | depth, (e, number) :: rest =>
    match readScript isExtended (e.text.length + 1) depth e.text.toList with
    | .error m => .error (e.complaint number m)
    | .ok (is, depth) => do .ok (is ++ (← readPieces isExtended depth rest))

/-- The files that instructions put lines into. -/
def outletPaths (is : List Instruction) : List String :=
  (is.filterMap fun i => match i.deed with
    | .file 'w' path => some path
    | .substitute s => s.file
    | _ => none).eraseDups

/-- Open the files that lines are put into. -/
def openOutlets : List String → Course (Except (String × Fault) (List (String × Nat)))
  | [] => pure (.ok [])
  | path :: rest => do
    if path = "/dev/stdout" then openOutlets rest
    else
      let channel := (← Course.look).context.freeChannel 3
      match ← Course.openPathOn channel path .toWrite with
      | .error fault => pure (.error (path, fault))
      | .ok () => match ← openOutlets rest with
        | .error e => pure (.error e)
        | .ok more => pure (.ok ((path, channel) :: more))

end Editing

namespace Utility

open Editing

/-- Edit lines by a script. -/
def sed : Utility := fun args => do
  let known : Options.Known :=
    { flags := "nErsuzP", valued := "efl", attached := "i"
      words := [("quiet", 'n'), ("silent", 'n'), ("expression", 'e'), ("file", 'f'),
        ("in-place", 'i'), ("regexp-extended", 'E'), ("separate", 's'), ("unbuffered", 'u'),
        ("null-data", 'z'), ("line-length", 'l'), ("posix", 'P')] }
  let usage := "Usage: sed [OPTION]... \x7bscript-only-if-no-other-script\x7d [input-file]..."
  match Options.read known args with
  | .error mistake =>
    object "sed" (mistake.message ++ "\n" ++ usage)
    pure 1
  | .ok g =>
    let scripts := g.options.filter fun o => o.1 == 'e' || o.1 == 'f'
    if scripts.isEmpty && g.operands.isEmpty then
      Course.complain usage
      pure 1
    else
      let given := if scripts.isEmpty then g.operands.take 1 |>.map ('e', ·) else scripts
      let files := if scripts.isEmpty then g.operands.drop 1 else g.operands
      let pieces ← given.mapM fun (c, text) => do
        if c = 'e' then pure ({ text } : Piece)
        else match ← Course.readFile text with
          | .ok bs => pure { text := textOf bs, file := some text }
          | .error fault =>
            object "sed" ("couldn\x27t open file " ++ text ++ ": " ++ fault.reason)
            Course.stop (.exited 4)
      let hidesLines := match pieces.map (·.text.toList) with
        | ('#' :: 'n' :: rest) :: _ => rest.isEmpty || rest.head? = some '\n'
        | _ => false
      match readPieces (g.has 'E' || g.has 'r') 0 ((joined pieces).zip
          (List.range' 1 pieces.length)) with
      | .error complaint =>
        object "sed" complaint
        pure 1
      | .ok is => match missingLabel? is with
        | some label =>
          object "sed" ("can\x27t find label for jump to \x60" ++ label ++ "\x27")
          pure 4
        | none => match ← openOutlets (outletPaths is) with
          | .error (path, fault) =>
            object "sed" ("couldn\x27t open file " ++ path ++ ": " ++ fault.reason)
            pure 4
          | .ok outlets =>
            let plan : Plan :=
              { instructions := is.toArray, isQuiet := g.has 'n' || hidesLines
                lineEnd := if g.has 'z' then '\x00' else '\n', outlets
                width := ((g.value? 'l').bind natural?).getD 70 }
            let edit : Editor (Bool × Option Nat) :=
              match g.value? 'i' with
              | some ending => editEach (editInPlace plan ending) files
              | none =>
                if g.has 's' then editEach (fun path => editTogether plan [path]) (filesOf files)
                else editTogether plan (filesOf files)
            if g.has 'i' && files.isEmpty then
              object "sed" "no input files"
              pure 4
            else
              let ((hasFailed, code), _) ← edit.run { source := sourceOf plan [] }
              pure (code.getD (if hasFailed then 2 else 0))

end Utility

end FolderTasks.Machine
