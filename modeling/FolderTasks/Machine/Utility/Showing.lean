import FolderTasks.Machine.Utility.Printing
/-!
# Programs that show files

Each takes paths, or reads its channel if there are none, and prints the contents in a certain
form.

## Main definitions

* `Utility.inputs`: the contents of files, with complaints about those that cannot be read.
* `Utility.cat`, `Utility.head`, `Utility.tail`, `Utility.wc`, … : the programs.
-/

namespace FolderTasks.Machine

open Files

namespace Utility

/-- The files that are meant by some arguments: the channel to read from if there are none. -/
def filesOf (paths : List String) : List String := if paths.isEmpty then ["-"] else paths

/-- Do something with the content of every file; `describe` says what is wrong with one that
cannot be read. -/
def forEachFile (name : String) (paths : List String)
    (describe : String → Fault → String) (use : String → String → Course Unit) : Course Nat :=
  forEach name (filesOf paths) fun path => do
    match ← Course.readFile path with
    | .ok bs =>
      use path (textOf bs)
      pure (.ok ())
    | .error fault => pure (.error (describe path fault))

/-- What is usually said of a file that cannot be read. -/
def plainly (path : String) (fault : Fault) : String := path ++ ": " ++ fault.reason

/-- The contents of all files one after the other, and an exit code. -/
def inputs (name : String) (paths : List String)
    (describe : String → Fault → String := plainly) : Course (List (String × String) × Nat) := do
  let found ← (filesOf paths).mapM fun path => do
    match ← Course.readFile path with
    | .ok bs => pure (some (path, textOf bs))
    | .error fault =>
      object name (describe path fault)
      pure none
  let files := found.filterMap id
  pure (files, if files.length = found.length then 0 else 1)

/-! ## Whole files -/

/-- A character as a visible one. -/
def visible (keepsTab keepsLine : Bool) (c : Char) : String :=
  let low (n : Nat) : String :=
    if n < 32 then
      if n = 9 && keepsTab || n = 10 && keepsLine then String.singleton (Char.ofNat n)
      else "^" ++ String.singleton (Char.ofNat (n + 64))
    else if n = 127 then "^?"
    else String.singleton (Char.ofNat n)
  if c.toNat < 128 then low c.toNat else
    "M-" ++ (if c.toNat - 128 < 32 then "^" ++ String.singleton (Char.ofNat (c.toNat - 64))
      else if c.toNat = 255 then "^?" else String.singleton (Char.ofNat (c.toNat - 128)))

/-- A text as `cat` shows it with options; `first` is the number of its first line. -/
def decorated (g : Options.Given) (first : Nat) (text : String) : String × Nat :=
  let showsEnds := g.has 'E' || g.has 'e' || g.has 'A'
  let showsTabs := g.has 'T' || g.has 't' || g.has 'A'
  let showsOthers := g.has 'v' || g.has 'e' || g.has 't' || g.has 'A'
  let parts := text.toList.splitOn '\n'
  let isWhole := parts.getLast? = some []
  let parts := if isWhole then parts.dropLast else parts
  let parts := if g.has 's' then
      (parts.zip ([] :: parts)).zipIdx.filterMap fun ((l, before), i) =>
        if l.isEmpty && before.isEmpty && i != 0 then none else some l
    else parts
  let body (l : List Char) : String := String.join (l.map fun c =>
    if c = '\t' then (if showsTabs then "^I" else "\t")
    else if showsOthers then visible true true c else String.singleton c)
  let count := parts.length
  let numbered := parts.foldl (fun (n, out) l =>
    let isCounted := g.has 'b' && !l.isEmpty || g.has 'n' && !g.has 'b'
    let label := if isCounted then
      let d := toString n
      String.ofList (List.replicate (6 - d.length) ' ') ++ d ++ "\t" else ""
    (if isCounted then n + 1 else n, (label ++ body l) :: out)) (first, ([] : List String))
  let ls := numbered.2.reverse
  let ending := if showsEnds then "$\n" else "\n"
  let all := ls.zipIdx.map fun (l, i) =>
    if i + 1 = count && !isWhole then l else l ++ ending
  (String.join all, numbered.1)

/-- Print whatever comes from a channel as it comes. -/
def passOn (name : String) (channel : Nat) : Nat → Course (Except Fault Unit)
  | 0 => Course.spin
  | fuel + 1 => do
    match ← Course.read channel Course.chunk with
    | .error fault => pure (.error fault)
    | .ok [] => pure (.ok ())
    | .ok bs =>
      emit name bs
      passOn name channel fuel

/-- Print files one after the other. -/
def cat : Utility := withOptions "cat" { flags := "AbeEnstTuv"
                                         words := [("number", 'n'), ("show-all", 'A'),
    ("number-nonblank", 'b'), ("show-ends", 'E'), ("squeeze-blank", 's'), ("show-tabs", 'T'),
    ("show-nonprinting", 'v')] } fun g => do
  if g.options.all fun o => o.1 == 'u' then
    forEach "cat" (filesOf g.operands) fun path => do
      let result ← if path = "-" then passOn "cat" 0 Course.manyReads
        else Course.withFile path .toRead fun channel => passOn "cat" channel Course.manyReads
      pure (match result with
        | .ok () => .ok ()
        | .error fault => .error (plainly path fault))
  else
    let (files, code) ← inputs "cat" g.operands
    let (out, _) := files.foldl (fun (out, n) (_, text) =>
      let (shown, n) := decorated g n text
      (out ++ shown, n)) ("", 1)
    say "cat" out
    pure code

/-! ## Parts of files -/

/-- The lines of a text, each with its line feed, the last one perhaps without. -/
def wholeLines (text : String) : List String :=
  let parts := text.toList.splitOn '\n'
  (parts.dropLast.map fun l => String.ofList (l ++ ['\n'])) ++
    (parts.getLast?.toList.filter (!·.isEmpty)).map String.ofList

/-- How much of a file is asked for. -/
structure Amount where
  count : Nat
  isBytes : Bool
  /-- Is it counted from the other side? -/
  isOpposite : Bool

/-- The number that a text with a unit spells, such as `2k`. -/
def sized? (text : String) : Option Nat :=
  let cs := text.toList
  let digits := cs.takeWhile Char.isDigit
  let unit := match cs.drop digits.length with
    | [] => some 1
    | ['b'] => some 512
    | ['k'] | ['K'] | ['K', 'i', 'B'] => some 1024
    | ['k', 'B'] | ['K', 'B'] => some 1000
    | ['M'] => some 1048576
    | ['M', 'B'] => some 1000000
    | ['G'] => some 1073741824
    | ['c'] | ['B'] => some 1
    | ['w'] => some 2
    | _ => none
  match natural? (String.ofList digits), unit with
  | some n, some u => some (n * u)
  | _, _ => none

/-- The amount that options ask for; `sign` counts from the other side. -/
def amount? (sign : Char) (g : Options.Given) : Except String Amount :=
  let parse (isBytes : Bool) (text : String) : Except String Amount :=
    let (isOpposite, cs) := match text.toList with
      | '+' :: rest => (sign == '+', rest)
      | '-' :: rest => (sign == '-', rest)
      | cs => (false, cs)
    match sized? (String.ofList cs) with
    | some count => .ok ⟨count, isBytes, isOpposite⟩
    | none => .error ("invalid number of " ++ (if isBytes then "bytes" else "lines") ++ ": " ++
        quoted text)
  match g.options.reverse.find? fun o => o.1 == 'n' || o.1 == 'c' with
  | some (c, text) => parse (c == 'c') text
  | none => .ok ⟨10, false, false⟩

/-- Arguments in which a number alone after a hyphen asks for so many lines. -/
def withOldAmount (args : List String) : List String :=
  match args with
  | a :: rest => match a.toList with
    | '-' :: c :: cs =>
      if c.isDigit && (c :: cs).all Char.isDigit then "-n" :: String.ofList (c :: cs) :: rest
      else args
    | '+' :: cs =>
      if !cs.isEmpty && cs.all Char.isDigit then "-n" :: a :: rest else args
    | _ => args
  | [] => []

/-- The options of `head` and `tail`. -/
def portionOptions : Options.Known :=
  { flags := "qvfFz", valued := "ncs"
    words := [("lines", 'n'), ("bytes", 'c'), ("quiet", 'q'), ("silent", 'q'), ("verbose", 'v'),
      ("follow", 'f')] }

/-- What stands above a file when there are several. -/
def banner (g : Options.Given) (count : Nat) (isFirst : Bool) (path : String) : String :=
  if g.has 'q' || count < 2 && !g.has 'v' then ""
  else (if isFirst then "" else "\n") ++ "==> " ++
    (if path = "-" then "standard input" else path) ++ " <==\n"

/-- The beginning of a text. -/
def Amount.first (a : Amount) (text : String) : String :=
  if a.isBytes then
    String.ofList (if a.isOpposite then text.toList.take (text.length - a.count)
      else text.toList.take a.count)
  else
    let ls := wholeLines text
    String.join (if a.isOpposite then ls.take (ls.length - a.count) else ls.take a.count)

/-- The end of a text. -/
def Amount.last (a : Amount) (text : String) : String :=
  if a.isBytes then
    String.ofList (if a.isOpposite then text.toList.drop (a.count - 1)
      else text.toList.drop (text.length - a.count))
  else
    let ls := wholeLines text
    String.join (if a.isOpposite then ls.drop (a.count - 1) else ls.drop (ls.length - a.count))

/-- Read from a channel until there is enough. -/
def readEnough (a : Amount) (channel : Nat) : Nat → Bytes → Course (Except Fault Bytes)
  | 0, _ => Course.spin
  | fuel + 1, before => do
    let has := if a.isBytes then before.length else before.count lineFeed
    if a.count ≤ has && !a.isOpposite then pure (.ok before)
    else match ← Course.read channel 8192 with
      | .error fault => pure (.error fault)
      | .ok [] => pure (.ok before)
      | .ok bs => readEnough a channel fuel (before ++ bs)

/-- Have the next reader of a file go on after so many bytes of what was read last. -/
def giveBack (channel count : Nat) : Course Unit := do
  let v ← Course.look
  match (v.context.opened? channel).bind fun n => (v.store.opened[n]?).map (n, ·) with
  | some (n, o) => match o.target with
    | .node _ =>
      let o := { o with position := o.position - count }
      Course.change { v with store := { v.store with opened := v.store.opened.set! n o } }
    | _ => pure ()
  | none => pure ()

/-- The beginning of what comes from a channel. -/
def readFirst (a : Amount) (channel : Nat) : Course (Except Fault String) := do
  match ← readEnough a channel Course.manyReads [] with
  | .error fault => pure (.error fault)
  | .ok bs =>
    let text := a.first (textOf bs)
    if channel = 0 then giveBack channel (bs.length - text.length)
    pure (.ok text)

/-- Print the beginning of files. -/
def head : Utility := taking withOldAmount <| withOptions "head" portionOptions fun g => do
  match amount? '-' g with
  | .error complaint =>
    object "head" complaint
    pure 1
  | .ok a =>
    let files := filesOf g.operands
    forEach "head" files.zipIdx fun (path, i) => do
      let result ← if path = "-" then readFirst a 0
        else Course.withFile path .toRead (readFirst a)
      match result with
      | .ok text =>
        say "head" (banner g files.length (i == 0) path ++ text)
        pure (.ok ())
      | .error .isDirectory =>
        say "head" (banner g files.length (i == 0) path)
        pure (.error ("error reading " ++ quoted path ++ ": " ++ Fault.isDirectory.reason))
      | .error fault =>
        pure (.error ("cannot open " ++ quoted path ++ " for reading: " ++ fault.reason))

/-- Print the end of files. -/
def tail : Utility := taking withOldAmount <| withOptions "tail" portionOptions fun g => do
  match amount? '+' g with
  | .error complaint =>
    object "tail" complaint
    pure 1
  | .ok a =>
    let files := filesOf g.operands
    forEach "tail" files.zipIdx fun (path, i) => do
      match ← Course.readFile path with
      | .ok bs =>
        say "tail" (banner g files.length (i == 0) path ++ a.last (textOf bs))
        pure (.ok ())
      | .error .isDirectory =>
        say "tail" (banner g files.length (i == 0) path)
        pure (.error ("error reading " ++ quoted path ++ ": " ++ Fault.isDirectory.reason))
      | .error fault =>
        pure (.error ("cannot open " ++ quoted path ++ " for reading: " ++ fault.reason))

/-! ## Counting -/

/-- A text on the right of a column. -/
def column (width : Nat) (text : String) : String :=
  String.ofList (List.replicate (width - text.length) ' ') ++ text

/-- Is a character blank or a line end? -/
def isSpace (c : Char) : Bool := c = ' ' || (9 ≤ c.toNat && c.toNat ≤ 13)

/-- The number of words of a text. -/
def wordCount (text : String) : Nat :=
  let cs := text.toList
  ((cs.zip (' ' :: cs)).filter fun (c, before) => !isSpace c && isSpace before).length

/-- The greatest length of a line. -/
def longestLine (text : String) : Nat :=
  ((linesOf text).map fun l => l.toList.foldl (fun n c =>
    if c = '\t' then n + 8 - n % 8 else if c.toNat < 32 then n else n + 1) 0).foldl max 0

/-- The size of a file, if it is one: first whether there is anything at all. -/
def sizeOf? (v : View) (path : String) : Option (Option Nat) :=
  let ofNode (n : Node) : Option Nat := match n.body with
    | .file content => some content.length
    | _ => none
  if path = "-" then match v.opened? 0 with
    | some ⟨.node n, _, _, _, _⟩ => (v.store.volume.node? n).map ofNode
    | _ => some none
  else (v.nodeAt? path).map ofNode

/-- The width of the columns of counts of some files: enough for all bytes of the files together,
and seven where the size of one is not known beforehand. -/
def countWidth (sizes : List (Option (Option Nat))) : Nat :=
  match sizes with
  | none :: _ | [] => 1
  | sizes =>
    let total := (sizes.map fun s => (s.getD none).getD 0).foldl (· + ·) 0
    let least := if sizes.any (· == some none) then 7 else 1
    max least (toString total).length

/-- Count lines, words and bytes. -/
def wc : Utility := withOptions "wc" { flags := "clLmw"
                                       words := [("bytes", 'c'), ("chars", 'm'), ("lines", 'l'),
    ("words", 'w'), ("max-line-length", 'L')] } fun g => do
  let isAsked (c : Char) : Bool :=
    if g.options.isEmpty then c = 'l' || c = 'w' || c = 'c' else g.has c
  let counts (text : String) : List Nat :=
    (if isAsked 'l' then [text.toList.count '\n'] else []) ++
    (if isAsked 'w' then [wordCount text] else []) ++
    (if isAsked 'm' then [text.length] else []) ++
    (if isAsked 'c' then [text.length] else []) ++
    (if isAsked 'L' then [longestLine text] else [])
  let v ← Course.look
  let files := filesOf g.operands
  let width := if files.length = 1 && (counts "").length = 1 then 1
    else countWidth (files.map (sizeOf? v))
  let line (label : String) (row : List Nat) : String :=
    String.intercalate " " (row.map fun n => column width (toString n)) ++ label ++ "\n"
  let rows ← files.mapM fun path => do
    let label := if g.operands.isEmpty then "" else " " ++ path
    match ← Course.readFile path with
    | .ok bs =>
      let row := counts (textOf bs)
      say "wc" (line label row)
      pure (row, true)
    | .error fault =>
      object "wc" (plainly path fault)
      if fault = .isDirectory then say "wc" (line label (counts ""))
      pure (counts "", false)
  let add (a b : List Nat) : List Nat := (a.zip b).map fun (x, y) => x + y
  if 2 ≤ files.length then
    say "wc" (line " total" ((rows.map (·.1)).foldl add (counts "")))
  pure (if rows.all (·.2) then 0 else 1)

/-! ## Other orders and forms -/

/-- Print the lines of files, the last one first. -/
def tac : Utility := withOptions "tac" {} fun g => do
  forEachFile "tac" g.operands (fun path fault =>
    "failed to open " ++ quoted path ++ " for reading: " ++ fault.reason) fun _ text =>
      say "tac" (String.join (wholeLines text).reverse)

/-- Print lines backwards. -/
def rev : Utility := withOptions "rev" {} fun g => do
  forEachFile "rev" g.operands (fun path fault => "cannot open " ++ path ++ ": " ++ fault.reason)
    fun _ text => say "rev" (String.join ((wholeLines text).map fun l =>
      match l.toList.reverse with
      | '\n' :: rest => String.ofList (rest ++ ['\n'])
      | rest => String.ofList rest))

/-- Print lines with their numbers. -/
def nl : Utility := withOptions "nl" { flags := "p", valued := "bdfhinsvwl" } fun g => do
  let (files, code) ← inputs "nl" g.operands
  let style := (g.value? 'b').getD "t"
  let width := ((g.value? 'w').bind natural?).getD 6
  let separator := (g.value? 's').getD "\t"
  let first := ((g.value? 'v').bind natural?).getD 1
  let step := ((g.value? 'i').bind natural?).getD 1
  let ls := linesOf (String.join (files.map (·.2)))
  let (_, out) := ls.foldl (fun (n, out) l =>
    if style = "a" || style = "t" && !l.isEmpty then
      let label := match g.value? 'n' with
        | some "ln" => toString n ++ String.ofList (List.replicate (width - (toString n).length) ' ')
        | some "rz" => String.ofList (List.replicate (width - (toString n).length) '0') ++ toString n
        | _ => column width (toString n)
      (n + step, (label ++ separator ++ l) :: out)
    else (n, (String.ofList (List.replicate (width + separator.length) ' ') ++ l) :: out))
    (first, ([] : List String))
  say "nl" (unlines out.reverse)
  pure code

/-- A line in pieces of a width, cut after blanks if asked. -/
def foldLine (width : Nat) (atBlanks : Bool) : Nat → List Char → List (List Char)
  | 0, cs => [cs]
  | fuel + 1, cs =>
    if cs.length ≤ width then [cs]
    else
      let piece := cs.take width
      let cut := if atBlanks then
          let kept := (piece.reverse.dropWhile (· != ' ')).reverse
          if kept.isEmpty then piece else kept
        else piece
      cut :: foldLine width atBlanks fuel (cs.drop cut.length)

/-- Arguments of `fold`, an old form of the width replaced by the new one. -/
def withOldWidth : List String → List String
  | [] => []
  | a :: rest => match a.toList with
    | '-' :: c :: cs => if c.isDigit then "-w" :: String.ofList (c :: cs) :: rest else a :: rest
    | _ => a :: rest

/-- Break long lines. -/
def fold : Utility := taking withOldWidth <| withOptions "fold"
    { flags := "sb", valued := "w" } fun g => do
  let width := max 1 (((g.value? 'w').bind natural?).getD 80)
  forEachFile "fold" g.operands plainly fun _ text =>
    say "fold" (String.join ((wholeLines text).map fun l =>
      let (body, lineEnd) := match l.toList.reverse with
        | '\n' :: rest => (rest.reverse, "\n")
        | _ => (l.toList, "")
      String.intercalate "\n" ((foldLine width (g.has 's') body.length body).map String.ofList) ++
        lineEnd))

/-- Turn tabs into blanks up to the next stop. -/
def expandLine (stop : Nat) (l : String) : String :=
  String.ofList (l.toList.foldl (fun (out, n) c =>
    if c = '\t' then
      let k := stop - n % stop
      (List.replicate k ' ' ++ out, n + k)
    else if c = '\n' then (c :: out, 0) else (c :: out, n + 1)) (([] : List Char), 0)).1.reverse

/-- Print files with blanks in the place of tabs. -/
def expand : Utility := withOptions "expand" { flags := "i", valued := "t" } fun g => do
  let stop := max 1 (((g.value? 't').bind natural?).getD 8)
  forEachFile "expand" g.operands plainly fun _ text => say "expand" (expandLine stop text)

/-! ## Bytes as numbers -/

/-- The letters of base 64. -/
def base64Letters : String := "ABCDEFGHIJKLMNOPQRSTUVWXYZabcdefghijklmnopqrstuvwxyz0123456789+/"

/-- The letter of six bits. -/
def base64Letter (n : Nat) : Char := base64Letters.toList.getD n 'A'

/-- Bytes in base 64. -/
def toBase64 : List Nat → List Char
  | [] => []
  | [a] => [base64Letter (a / 4), base64Letter (a % 4 * 16), '=', '=']
  | [a, b] =>
    [base64Letter (a / 4), base64Letter (a % 4 * 16 + b / 16), base64Letter (b % 16 * 4), '=']
  | a :: b :: c :: rest =>
    base64Letter (a / 4) :: base64Letter (a % 4 * 16 + b / 16) ::
      base64Letter (b % 16 * 4 + c / 64) :: base64Letter (c % 64) :: toBase64 rest

/-- Six bits each as bytes; what is left over is dropped. -/
def ofBase64 : List Nat → List Nat
  | a :: b :: c :: d :: rest =>
    (a * 4 + b / 16) :: (b % 16 * 16 + c / 4) :: (c % 4 * 64 + d) :: ofBase64 rest
  | [a, b, c] => [a * 4 + b / 16, b % 16 * 16 + c / 4]
  | [a, b] => [a * 4 + b / 16]
  | _ => []

/-- Print a file in base 64, or the file of which that is the text. -/
def base64 : Utility := withOptions "base64" { flags := "di", valued := "w"
                                               words := [("decode", 'd'), ("wrap", 'w'),
    ("ignore-garbage", 'i')] } fun g => do
  let width := ((g.value? 'w').bind natural?).getD 76
  forEachFile "base64" (g.operands.take 1) plainly fun _ text => do
    if g.has 'd' then
      let values := text.toList.filterMap fun c =>
        base64Letters.toList.findIdx? (· == c)
      emit "base64" ((ofBase64 values).map UInt8.ofNat)
    else
      let letters := toBase64 (text.toList.map Char.toNat)
      if width = 0 then say "base64" (String.ofList letters)
      else if !letters.isEmpty then
        say "base64" (unlines ((foldLine width false letters.length letters).map String.ofList))

/-- A number in a base with leading zeros. -/
def padded (base width n : Nat) : String :=
  let ds := Nat.toDigits base n
  String.ofList (List.replicate (width - ds.length) '0' ++ ds)

/-- The rows of some bytes. -/
def rowsOf (width : Nat) : Nat → List Char → List (List Char)
  | 0, _ => []
  | fuel + 1, cs => if cs.isEmpty then [] else cs.take width :: rowsOf width fuel (cs.drop width)

/-- How a byte is shown by name. -/
def byteName (c : Char) : String :=
  match c.toNat with
  | 0 => "\\0"
  | 7 => "\\a"
  | 8 => "\\b"
  | 9 => "\\t"
  | 10 => "\\n"
  | 11 => "\\v"
  | 12 => "\\f"
  | 13 => "\\r"
  | n => if 32 ≤ n && n < 127 then String.singleton c else padded 8 3 n

/-- Units of a row of bytes, least significant byte first. -/
def unitsOf (size : Nat) (row : List Char) : List Nat :=
  (rowsOf size row.length row).map fun u => u.foldr (fun c n => n * 256 + c.toNat) 0

/-- A row of bytes as `od` shows it in a format. -/
def odRow (format : String) (row : List Char) : String :=
  let unit (size width base : Nat) : String :=
    String.join ((unitsOf size row).map fun n => " " ++ padded base width n)
  let decimal (size width : Nat) (isSigned : Bool) : String :=
    String.join ((unitsOf size row).map fun n =>
      let bound := Nat.pow 256 size
      " " ++ column width (toString (if isSigned && bound ≤ 2 * n then (n : Int) - bound else n)))
  match format with
  | "c" => String.join (row.map fun c => column 4 (byteName c))
  | "x1" => unit 1 2 16
  | "x2" | "x" => unit 2 4 16
  | "x4" => unit 4 8 16
  | "o1" => unit 1 3 8
  | "u1" => decimal 1 3 false
  | "u2" => decimal 2 5 false
  | "d1" => decimal 1 4 true
  | "d2" => decimal 2 6 true
  | "d4" => decimal 4 11 true
  | _ => unit 2 6 8

/-- Print files as numbers. -/
def od : Utility := withOptions "od" { flags := "bcdoxvs", valued := "AtNjw" } fun g => do
  let (files, code) ← inputs "od" g.operands
  let cs := (String.join (files.map (·.2))).toList
  let cs := cs.drop (((g.value? 'j').bind sized?).getD 0)
  let cs := match (g.value? 'N').bind sized? with
    | some n => cs.take n
    | none => cs
  let formats := g.options.filterMap fun (c, value) => match c with
    | 't' => some value
    | 'c' => some "c"
    | 'b' => some "o1"
    | 'x' => some "x2"
    | 'd' => some "u2"
    | 'o' => some "o2"
    | _ => none
  let formats := if formats.isEmpty then ["o2"] else formats
  let radix := (g.value? 'A').getD "o"
  let address (n : Nat) : String := match radix with
    | "n" => ""
    | "d" => padded 10 7 n
    | "x" => padded 16 6 n
    | _ => padded 8 7 n
  let rows := rowsOf 16 cs.length cs
  let text := String.join (rows.zipIdx.map fun (row, i) =>
    String.join (formats.zipIdx.map fun (f, k) =>
      (if k = 0 then address (16 * i)
        else String.ofList (List.replicate (address 0).length ' ')) ++ odRow f row ++ "\n"))
  say "od" (text ++ if radix = "n" then "" else address cs.length ++ "\n")
  pure code

end Utility

end FolderTasks.Machine
