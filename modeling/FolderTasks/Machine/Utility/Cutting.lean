import FolderTasks.Machine.Utility.Sorting
/-!
# Programs that cut lines apart and exchange characters

## Main definitions

* `Utility.Ranges`: which characters or fields of a line are meant.
* `Utility.cut`, `Utility.paste`: parts of lines, and lines side by side.
* `Utility.CharacterSet`, `Utility.tr`: sets of characters, and their exchange.
* `Utility.tee`: print and keep.
-/

namespace FolderTasks.Machine

open Files

namespace Utility

/-- Positions from a first to a last one, counted from one; without a last one to the end. -/
abbrev Ranges := List (Nat × Option Nat)

/-- Does a position lie in one of the ranges? -/
def Ranges.has (rs : Ranges) (n : Nat) : Bool :=
  rs.any fun (a, b) => a ≤ n && b.all (n ≤ ·)

/-- The ranges that a text such as `1,3-5,7-` describes. -/
def Ranges.ofText? (text : String) : Option Ranges :=
  (text.toList.splitOn ',').mapM fun part =>
    let first := part.takeWhile (· != '-')
    match part.drop first.length with
    | [] => (natural? (String.ofList first)).bind fun n => if n = 0 then none else some (n, some n)
    | _ :: last =>
      let a := if first.isEmpty then some 1 else natural? (String.ofList first)
      let b := if last.isEmpty then some none else (natural? (String.ofList last)).map some
      match a, b with
      | some a, some b =>
        if a = 0 || first.isEmpty && last.isEmpty || b.any (· < a) then none else some (a, b)
      | _, _ => none

/-- The parts of a list at some positions, or at all others. -/
def selectAt {α : Type} (rs : Ranges) (isComplement : Bool) (as : List α) : List α :=
  (as.zipIdx.filter fun (_, i) => rs.has (i + 1) != isComplement).map (·.1)

/-- Print parts of lines. -/
def cut : Utility := withOptions "cut"
    { flags := "nszC", valued := "bcfdO"
      words := [("bytes", 'b'), ("characters", 'c'), ("fields", 'f'), ("delimiter", 'd'),
        ("only-delimited", 's'), ("complement", 'C'), ("output-delimiter", 'O')] } fun g => do
  let isComplement := g.has 'C'
  match g.options.find? fun o => o.1 == 'b' || o.1 == 'c' || o.1 == 'f' with
  | none => misuse "cut" "you must specify a list of bytes, characters, or fields"
  | some (kind, list) =>
    match Ranges.ofText? list with
    | none =>
      if kind = 'f' then misuse "cut" ("invalid field value " ++ quoted list)
      else misuse "cut" ("invalid byte/character position " ++ quoted list)
    | some rs =>
      if ((g.value? 'd').getD "x").length != 1 then
        misuse "cut" "the delimiter must be a single character"
      else if kind != 'f' && g.has 'd' then
        misuse "cut" "an input delimiter may be specified only when operating on fields"
      else
        let delimiter := ((g.value? 'd').bind fun d => d.toList.head?).getD '\t'
        let glue := (g.value? 'O').getD (String.singleton delimiter)
        let line (l : String) : Option String :=
          if kind != 'f' then some (String.ofList (selectAt rs isComplement l.toList))
          else if !l.toList.contains delimiter then (if g.has 's' then none else some l)
          else some (String.intercalate glue
            ((selectAt rs isComplement (l.toList.splitOn delimiter)).map String.ofList))
        forEachFile "cut" g.operands plainly fun _ text =>
          say "cut" (unlines ((linesOf text).filterMap line))

/-- The characters of a list of delimiters. -/
def delimitersOf : List Char → List String
  | [] => []
  | '\\' :: c :: rest =>
    (match c with
      | 'n' => "\n"
      | 't' => "\t"
      | '0' => ""
      | c => String.singleton c) :: delimitersOf rest
  | c :: rest => String.singleton c :: delimitersOf rest

/-- Texts with delimiters between them, which are used in turn. -/
def interleave (delimiters : List String) (texts : List String) : String :=
  match texts with
  | [] => ""
  | a :: rest => a ++ String.join (rest.zipIdx.map fun (t, i) =>
      delimiters.getD (i % max 1 delimiters.length) "" ++ t)

/-- Print the lines of files side by side. -/
def paste : Utility := withOptions "paste" { flags := "sz", valued := "d"
                                             words := [("serial", 's'), ("delimiters", 'd')] }
    fun g => do
  let delimiters := delimitersOf ((g.value? 'd').getD "\t").toList
  let inputCount := (g.operands.filter (· == "-")).length
  let (files, code) ← inputs "paste" (g.operands.filter (· != "-") ++
    if 0 < inputCount || g.operands.isEmpty then ["-"] else [])
  let fromInput := linesOf (((files.find? fun f => f.1 == "-").map (·.2)).getD "")
  let step := max 1 inputCount
  let (_, columns) := (filesOf g.operands).foldl (fun (k, out) path =>
    if path = "-" && !g.has 's' then
      let mine := (fromInput.zipIdx.filter fun (_, i) => i % step = k).map (·.1)
      (k + 1, mine :: out)
    else match files.find? fun f => f.1 == path with
      | some (_, text) => (k, linesOf text :: out)
      | none => (k, out)) (0, ([] : List (List String)))
  let columns := columns.reverse
  if g.has 's' then say "paste" (unlines (columns.map (interleave delimiters)))
  else
    let height := (columns.map List.length).foldl max 0
    say "paste" (unlines ((List.range height).map fun i =>
      interleave delimiters (columns.map fun c => c.getD i "")))
  pure code

/-! ## Exchanging characters -/

/-- The characters of a class by its name. -/
def classMember? (name : String) : Option (Char → Bool) :=
  let isPunctuation (c : Char) : Bool := 32 < c.toNat && c.toNat < 127 && !c.isAlphanum
  match name with
  | "alpha" => some Char.isAlpha
  | "digit" => some Char.isDigit
  | "alnum" => some Char.isAlphanum
  | "upper" => some Char.isUpper
  | "lower" => some Char.isLower
  | "space" => some isSpace
  | "blank" => some fun c => c = ' ' || c = '\t'
  | "punct" => some isPunctuation
  | "cntrl" => some fun c => c.toNat < 32 || c.toNat = 127
  | "print" => some fun c => 32 ≤ c.toNat && c.toNat < 127
  | "graph" => some fun c => 32 < c.toNat && c.toNat < 127
  | "xdigit" => some fun c => (Escape.digit? 16 c).isSome
  | _ => none

/-- The characters of all bytes. -/
def allBytes : List Char := (List.range 256).map Char.ofNat

/-- The characters of a set that is written out, each perhaps so many times; zero stands for as
often as needed.  At most one step is made for every character. -/
def setGo : Nat → List Char → List (Char × Option Nat)
  | 0, _ | _, [] => []
  | fuel + 1, cs =>
    let single (cs : List Char) : Char × List Char :=
      match cs with
      | '\\' :: 'e' :: rest => ('e', rest)
      | '\\' :: rest => match Escape.read ⟨false, false⟩ rest with
        | .byte b rest => (Char.ofNat b.toNat, rest)
        | _ => (rest.headD '\\', rest.drop 1)
      | c :: rest => (c, rest)
      | [] => (' ', [])
    match cs with
    | '[' :: ':' :: rest =>
      let name := rest.takeWhile (· != ':')
      match classMember? (String.ofList name), rest.drop name.length with
      | some isMember, ':' :: ']' :: rest =>
        (allBytes.filter isMember).map (·, some 1) ++ setGo fuel rest
      | _, _ => ('[', some 1) :: setGo fuel (':' :: rest)
    | '[' :: '=' :: c :: '=' :: ']' :: rest => (c, some 1) :: setGo fuel rest
    | '[' :: c :: '*' :: rest =>
      let digits := rest.takeWhile Char.isDigit
      match rest.drop digits.length with
      | ']' :: rest =>
        let base := if digits.head? = some '0' then 8 else 10
        let n := (Escape.number base digits.length digits).1
        (c, if n = 0 then none else some n) :: setGo fuel rest
      | _ => ('[', some 1) :: setGo fuel (c :: '*' :: rest)
    | cs =>
      let (a, rest) := single cs
      match rest with
      | '-' :: next :: more =>
        let (b, rest) := single (next :: more)
        ((List.range (b.toNat + 1 - a.toNat)).map fun i => (Char.ofNat (a.toNat + i), some 1)) ++
          setGo fuel rest
      | rest => (a, some 1) :: setGo fuel rest

/-- The characters of a set, those that are repeated as often as needed up to a length. -/
def setOf (text : String) (length : Nat) : List Char :=
  let parts := setGo (text.length + 1) text.toList
  let known := (parts.map fun p => p.2.getD 0).foldl (· + ·) 0
  parts.flatMap fun (c, n) => List.replicate (n.getD (length - known)) c

/-- Characters of which only the first of a row of equal ones is kept, if they are among those that
are meant; `last` is the one before. -/
def squeeze (isIn : Char → Bool) (last : Option Char) : List Char → List Char
  | [] => []
  | c :: rest =>
    if last = some c && isIn c then squeeze isIn last rest
    else c :: squeeze isIn (some c) rest

/-- Print what is made of the input, piece by piece; `last` is the last character that was
printed. -/
def trGo (make : Option Char → List Char → List Char) (last : Option Char) : Nat → Course Nat
  | 0 => Course.spin
  | fuel + 1 => do
    match ← Course.read 0 Course.chunk with
    | .error fault =>
      object "tr" ("read error: " ++ fault.reason)
      pure 1
    | .ok [] => pure 0
    | .ok bs =>
      let cs := make last (textOf bs).toList
      say "tr" (String.ofList cs)
      trGo make (cs.getLast?.or last) fuel

/-- Exchange, drop or squeeze characters. -/
def tr : Utility := withOptions "tr"
    { flags := "cCdst", isStrict := true
      words := [("complement", 'c'), ("delete", 'd'), ("squeeze-repeats", 's'),
        ("truncate-set1", 't')] } fun g => do
  let complements := g.has 'c' || g.has 'C'
  let first := setOf (g.operands.headD "") 0
  let first := if complements then allBytes.filter fun c => !first.contains c else first
  let second := setOf (g.operands.getD 1 "") first.length
  let isIn (set : List Char) (c : Char) : Bool := set.contains c
  let change (f : List Char → List Char) (squeezed : Option (List Char)) : Course Nat :=
    let make (last : Option Char) (cs : List Char) : List Char :=
      match squeezed with
      | some set => squeeze (isIn set) last (f cs)
      | none => f cs
    trGo make none Course.manyReads
  match g.operands with
  | [] => misuse "tr" "missing operand"
  | [a] =>
    if g.has 'd' then change (List.filter fun c => !first.contains c) none
    else if g.has 's' then change id (some first)
    else misuse "tr" ("missing operand after " ++ quoted a ++
      "\nTwo strings must be given when translating.")
  | [_, b] =>
    if g.has 'd' then
      if g.has 's' then change (List.filter fun c => !first.contains c) (some second)
      else misuse "tr" ("extra operand " ++ quoted b ++
        "\nOnly one string may be given when deleting without squeezing repeats.")
    else if second.isEmpty && !g.has 't' then do
      object "tr" "when not truncating set1, string2 must be non-empty"
      pure 1
    else
      let second := if g.has 't' then second
        else second ++ List.replicate (first.length - second.length) (second.getLastD ' ')
      let pairs := (first.zip second).reverse
      let exchange (c : Char) : Char := (pairs.lookup c).getD c
      change (List.map exchange) (if g.has 's' then some second else none)
  | _ :: _ :: c :: _ => misuse "tr" ("extra operand " ++ quoted c)

/-- Print whatever comes, and write it into files as well. -/
def teeGo (channels : List Nat) : Nat → Course Unit
  | 0 => Course.spin
  | fuel + 1 => do
    match ← Course.read 0 Course.chunk with
    | .ok (b :: bs) =>
      channels.forM fun channel => do
        let _ ← Course.write channel (b :: bs)
      let _ ← Course.write 1 (b :: bs)
      teeGo channels fuel
    | _ => pure ()

/-- Print whatever comes, and write it into files as well. -/
def tee : Utility := withOptions "tee" { flags := "aip", words := [("append", 'a')] } fun g => do
  let results ← g.operands.mapM fun path => do
    let channel := (← Course.look).context.freeChannel 3
    match ← Course.openPathOn channel path (if g.has 'a' then .toAppend else .toWrite) with
    | .ok () => pure (some channel)
    | .error fault =>
      object "tee" (plainly path fault)
      pure none
  teeGo (results.filterMap id) Course.manyReads
  pure (if results.all Option.isSome then 0 else 1)

end Utility

end FolderTasks.Machine
