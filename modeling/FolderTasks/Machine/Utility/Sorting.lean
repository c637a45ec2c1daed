import FolderTasks.Machine.Utility.Showing
/-!
# Programs that sort lines and compare neighbours

Lines are compared by keys, parts of them that begin and end at certain fields, and those that
agree in all keys by their bytes.

## Main definitions

* `Sorting.Order`, `Sorting.Key`: how texts are compared, and which part of a line.
* `Sorting.compareLines`: the order of two lines.
* `Utility.sort`, `Utility.uniq`, `Utility.comm`, `Utility.join`: the programs.
-/

namespace FolderTasks.Machine

open Files

namespace Sorting

/-- Whether capitals and other characters count, and whether texts are numbers. -/
structure Order where
  isNumeric : Bool := false
  isGeneral : Bool := false
  isHuman : Bool := false
  isVersion : Bool := false
  isMonth : Bool := false
  foldsCase : Bool := false
  isDictionary : Bool := false
  skipsBlanks : Bool := false
  isReversed : Bool := false
deriving DecidableEq, Repr

/-- Add what a letter means. -/
def Order.add (o : Order) (c : Char) : Order :=
  match c with
  | 'n' => { o with isNumeric := true }
  | 'g' => { o with isGeneral := true }
  | 'h' => { o with isHuman := true }
  | 'V' => { o with isVersion := true }
  | 'M' => { o with isMonth := true }
  | 'f' => { o with foldsCase := true }
  | 'd' => { o with isDictionary := true }
  | 'b' => { o with skipsBlanks := true }
  | 'r' => { o with isReversed := true }
  | _ => o

/-- A part of a line, from a character of a field to a character of another, both counted from
one; the end is that of its field if its character is zero. -/
structure Key where
  firstField : Nat
  firstChar : Nat := 1
  lastField : Option Nat := none
  lastChar : Nat := 0
  order : Order := {}
  skipsBlanksAtEnd : Bool := false
  /-- Does the key have an order of its own? -/
  isOwn : Bool := false

/-- The number with which a text begins, as a sign, a quotient and its denominator. -/
def numberOf (text : List Char) : Int × Nat :=
  let cs := text.dropWhile isBlank
  let (isNegative, cs) := match cs with
    | '-' :: rest => (true, rest)
    | cs => (false, cs)
  let (n, places, _, _) := Real.mantissa cs
  (if isNegative then -(n : Int) else n, Nat.pow 10 places)
where
  /-- Is a character a blank? -/
  isBlank (c : Char) : Bool := c = ' ' || c = '\t'

/-- The order of two quotients. -/
def compareNumbers (a b : Int × Nat) : Ordering := compare (a.1 * b.2) (b.1 * a.2)

/-- A real number as a quotient; what is no number comes first. -/
def realOf (text : List Char) : Int × Int × Nat :=
  match Real.ofText (String.ofList text) with
  | some (.finite isNegative num den, _) => (0, if isNegative then -(num : Int) else num, den)
  | some (.infinite isNegative, _) => (if isNegative then -1 else 1, 0, 1)
  | _ => (-2, 0, 1)

/-- The rank of the unit of a number such as `2K`. -/
def unitOf (text : List Char) : Nat :=
  let cs := text.dropWhile fun c => c = ' ' || c = '\t' || c = '-'
  let (_, _, _, rest) := Real.mantissa cs
  match rest with
  | c :: _ => ("KMGTPEZY".toList.findIdx? (· == c.toUpper)).elim 0 (· + 1)
  | [] => 0

/-- The rank of a month by its short name; what is none comes first. -/
def monthOf (text : List Char) : Nat :=
  let name := String.ofList (((text.dropWhile (· = ' ')).take 3).map Char.toUpper)
  (["JAN", "FEB", "MAR", "APR", "MAY", "JUN", "JUL", "AUG", "SEP", "OCT", "NOV", "DEC"].findIdx?
    (· == name)).elim 0 (· + 1)

/-- The order of texts in which numbers count as such. -/
def compareVersions : Nat → List Char → List Char → Ordering
  | 0, _, _ => .eq
  | _ + 1, [], [] => .eq
  | fuel + 1, a, b =>
    let isDigit := Char.isDigit
    let x := a.takeWhile (!isDigit ·)
    let y := b.takeWhile (!isDigit ·)
    match compare (String.ofList x) (String.ofList y) with
    | .eq =>
      let a := a.drop x.length
      let b := b.drop y.length
      let m := a.takeWhile isDigit
      let n := b.takeWhile isDigit
      let value (ds : List Char) : Nat := ds.foldl (fun n c => n * 10 + (c.toNat - 48)) 0
      match compare (value m) (value n) with
      | .eq => compareVersions fuel (a.drop m.length) (b.drop n.length)
      | o => o
    | o => o

/-- The order of two keys. -/
def Order.compare (o : Order) (a b : List Char) : Ordering :=
  let trim (cs : List Char) : List Char :=
    if o.skipsBlanks then cs.dropWhile fun c => c = ' ' || c = '\t' else cs
  let clean (cs : List Char) : List Char :=
    let cs := if o.isDictionary then cs.filter fun c => c.isAlphanum || c = ' ' || c = '\t' else cs
    if o.foldsCase then cs.map Char.toUpper else cs
  let a := trim a
  let b := trim b
  let result :=
    if o.isNumeric then compareNumbers (numberOf a) (numberOf b)
    else if o.isHuman then
      let x := numberOf a
      let y := numberOf b
      let rank (n : Int × Nat) (cs : List Char) : Int :=
        if n.1 < 0 then -(unitOf cs : Int) - 1 else if n.1 = 0 then 0 else unitOf cs + 1
      (Ord.compare (rank x a) (rank y b)).then (compareNumbers x y)
    else if o.isGeneral then
      let (x, m, d) := realOf a
      let (y, n, e) := realOf b
      (Ord.compare x y).then (compareNumbers (m, d) (n, e))
    else if o.isMonth then Ord.compare (monthOf a) (monthOf b)
    else if o.isVersion then compareVersions (a.length + b.length + 1) a b
    else Ord.compare (String.ofList (clean a)) (String.ofList (clean b))
  if o.isReversed then result.swap else result

/-- Where the fields of a line begin and end, as positions.  Without a separator a field begins
with the blanks before it. -/
def fieldBounds (separator : Option Char) (cs : List Char) : List (Nat × Nat) :=
  match separator with
  | some c =>
    let parts := cs.splitOn c
    (parts.foldl (fun (out, n) p => ((n, n + p.length) :: out, n + p.length + 1))
      (([] : List (Nat × Nat)), 0)).1.reverse
  | none => blankFields cs.length 0 cs
where
  /-- The fields of a line, each with the blanks before it. -/
  blankFields : Nat → Nat → List Char → List (Nat × Nat)
    | 0, _, _ => []
    | fuel + 1, start, cs =>
      if cs.isEmpty then []
      else
        let isBlank (c : Char) : Bool := c = ' ' || c = '\t'
        let blanks := cs.takeWhile isBlank
        let body := (cs.drop blanks.length).takeWhile (!isBlank ·)
        let n := blanks.length + body.length
        (start, start + n) :: blankFields fuel (start + n) (cs.drop n)

/-- The part of a line that a key names. -/
def Key.part (k : Key) (separator : Option Char) (cs : List Char) : List Char :=
  let fields := fieldBounds separator cs
  let isBlank (c : Char) : Bool := c = ' ' || c = '\t'
  let skip (isSkipping : Bool) (position : Nat) : Nat :=
    if isSkipping then position + ((cs.drop position).takeWhile isBlank).length else position
  let start := match fields[k.firstField - 1]? with
    | some (a, _) => min cs.length (skip k.order.skipsBlanks a + (k.firstChar - 1))
    | none => cs.length
  let stop := match k.lastField with
    | none => cs.length
    | some n => match fields[n - 1]? with
      | none => cs.length
      | some (a, b) => if k.lastChar = 0 then b
        else min cs.length (skip k.skipsBlanksAtEnd a + k.lastChar)
  (cs.drop start).take (stop - start)

/-- How lines are sorted. -/
structure Rule where
  keys : List Key := []
  separator : Option Char := none
  order : Order := {}
  /-- Do lines that agree in all keys stay as they are? -/
  isStable : Bool := false

/-- The order of two lines by their keys. -/
def Rule.compareKeys (r : Rule) (a b : String) : Ordering :=
  if r.keys.isEmpty then r.order.compare a.toList b.toList
  else r.keys.foldl (fun o k =>
    let order := if k.isOwn then k.order
      else { r.order with skipsBlanks := r.order.skipsBlanks || k.order.skipsBlanks }
    o.then (order.compare (k.part r.separator a.toList) (k.part r.separator b.toList))) .eq

/-- The order of two lines. -/
def Rule.compareLines (r : Rule) (a b : String) : Ordering :=
  (r.compareKeys a b).then
    (if r.isStable then .eq
      else if r.order.isReversed then (compare a b).swap else compare a b)

/-- One end of a key: a field, a character of it, and letters. -/
def readEnd (cs : List Char) : Option (Nat × Option Nat × List Char × List Char) :=
  match Escape.number 10 cs.length cs with
  | (_, 0, _) => none
  | (field, _, rest) =>
    let (character, rest) := match rest with
      | '.' :: rest => match Escape.number 10 rest.length rest with
        | (n, _, rest) => (some n, rest)
      | rest => (none, rest)
    let letters := rest.takeWhile Char.isAlpha
    some (field, character, letters, rest.drop letters.length)

/-- The key that a text describes. -/
def Key.ofText? (text : String) : Option Key :=
  match readEnd text.toList with
  | none => none
  | some (field, character, letters, rest) =>
    let order := letters.foldl Order.add {}
    let k : Key := { firstField := field, firstChar := character.getD 1, order
                     isOwn := letters.any (· != 'b') }
    if field = 0 then none
    else match rest with
      | [] => some k
      | ',' :: rest => match readEnd rest with
        | some (last, character, letters, []) =>
          some { k with
            lastField := some last
            lastChar := character.getD 0
            order := (letters.filter (· != 'b')).foldl Order.add k.order
            skipsBlanksAtEnd := letters.contains 'b'
            isOwn := k.isOwn || letters.any (· != 'b') }
        | _ => none
      | _ => none

end Sorting

namespace Utility

/-- Lines without those that agree with the one before them. -/
def dropRepeated (isSame : String → String → Bool) : List String → List String
  | a :: b :: rest =>
    if isSame a b then dropRepeated isSame (a :: rest) else a :: dropRepeated isSame (b :: rest)
  | ls => ls
termination_by ls => ls.length

/-- Sort lines. -/
def sort : Utility := withOptions "sort"
    { flags := "bcCdfghimMnrRsuVz", valued := "koStT"
      words := [("reverse", 'r'), ("numeric-sort", 'n'), ("unique", 'u'), ("key", 'k'),
        ("field-separator", 't'), ("ignore-case", 'f'), ("stable", 's'), ("output", 'o'),
        ("check", 'c'), ("human-numeric-sort", 'h'), ("version-sort", 'V'),
        ("general-numeric-sort", 'g'), ("month-sort", 'M'), ("ignore-leading-blanks", 'b'),
        ("dictionary-order", 'd'), ("merge", 'm')] } (fun g => do
  let order := g.options.foldl (fun o (c, _) => o.add c) ({} : Sorting.Order)
  let keyTexts := g.options.filterMap fun (c, value) => if c = 'k' then some value else none
  match keyTexts.mapM Sorting.Key.ofText? with
  | none =>
    let wrong := (keyTexts.find? fun k => (Sorting.Key.ofText? k).isNone).getD ""
    object "sort" ("invalid field specification " ++ quoted wrong)
    pure 2
  | some keys =>
    let rule : Sorting.Rule := {
      keys, order, isStable := g.has 's' || g.has 'u'
      separator := (g.value? 't').bind fun t => if t = "\\0" then some '\x00' else t.toList.head? }
    let (files, code) ← inputs "sort" g.operands fun path fault =>
      if fault = .isDirectory then "read failed: " ++ plainly path fault
      else "cannot read: " ++ plainly path fault
    if code != 0 then pure 2
    else
      let ls := files.flatMap fun f => linesOf f.2
      if g.has 'c' || g.has 'C' then
        match (ls.zip (ls.drop 1)).zipIdx.find? fun ((a, b), _) =>
          match rule.compareLines a b with
          | .gt => true
          | .eq => g.has 'u'
          | .lt => false with
        | none => pure 0
        | some ((_, b), i) =>
          if !g.has 'C' then
            object "sort" ((files.head?.map (·.1)).getD "-" ++ ":" ++ toString (i + 2) ++
              ": disorder: " ++ b)
          pure 1
      else
        let sorted := ls.mergeSort fun a b => rule.compareLines a b != .gt
        let kept := if g.has 'u' then
          dropRepeated (fun a b => rule.compareKeys a b == .eq) sorted else sorted
        match g.value? 'o' with
        | none =>
          emit "sort" (bytesOf (unlines kept)) 2
          pure 0
        | some path =>
          match ← Course.writeFile path .toWrite (bytesOf (unlines kept)) with
          | .ok () => pure 0
          | .error fault =>
            object "sort" ("open failed: " ++ plainly path fault)
            pure 2) 2

/-- Neighbours that agree, together. -/
def groupsOf (isSame : String → String → Bool) : List String → List (String × List String)
  | [] => []
  | a :: rest => match groupsOf isSame rest with
    | (b, more) :: groups =>
      if isSame a b then (a, b :: more) :: groups else (a, []) :: (b, more) :: groups
    | [] => [(a, [])]

/-- Print lines, but of neighbours that agree only the first. -/
def uniq : Utility := withOptions "uniq"
    { flags := "cdDiuz", valued := "fsw"
      words := [("count", 'c'), ("repeated", 'd'), ("unique", 'u'), ("ignore-case", 'i'),
        ("skip-fields", 'f'), ("skip-chars", 's'), ("check-chars", 'w')] } fun g => do
  let number (c : Char) : Option Nat := (g.value? c).bind natural?
  let dropField (cs : List Char) : List Char :=
    (cs.dropWhile fun c => c = ' ' || c = '\t').dropWhile fun c => c != ' ' && c != '\t'
  let key (l : String) : String :=
    let cs := (List.range ((number 'f').getD 0)).foldl (fun cs _ => dropField cs) l.toList
    let cs := cs.drop ((number 's').getD 0)
    let cs := match number 'w' with | some n => cs.take n | none => cs
    String.ofList (if g.has 'i' then cs.map Char.toLower else cs)
  let (files, code) ← inputs "uniq" (g.operands.take 1)
  let groups := groupsOf (fun a b => key a == key b) (files.flatMap fun f => linesOf f.2)
  let shown := groups.filter fun (_, more) =>
    (!(g.has 'd' || g.has 'D') || !more.isEmpty) && (!g.has 'u' || more.isEmpty)
  let text := unlines (shown.flatMap fun (l, more) =>
    if g.has 'D' then l :: more
    else [(if g.has 'c' then column 7 (toString (more.length + 1)) ++ " " else "") ++ l])
  match g.operands.drop 1 with
  | [] =>
    say "uniq" text
    pure code
  | path :: _ =>
    match ← Course.writeFile path .toWrite (bytesOf text) with
    | .ok () => pure code
    | .error fault =>
      object "uniq" (plainly path fault)
      pure 1

/-- The lines of two sorted files side by side: the first's own, the second's own, common ones. -/
def merged : Nat → List String → List String → List (Nat × String)
  | 0, _, _ => []
  | _ + 1, [], bs => bs.map (1, ·)
  | _ + 1, as, [] => as.map (0, ·)
  | fuel + 1, a :: as, b :: bs =>
    match compare a b with
    | .lt => (0, a) :: merged fuel as (b :: bs)
    | .gt => (1, b) :: merged fuel (a :: as) bs
    | .eq => (2, a) :: merged fuel as bs

/-- Compare two sorted files line by line. -/
def comm : Utility := withOptions "comm" { flags := "123z" } fun g => do
  match g.operands with
  | [_, _] =>
    let (files, code) ← inputs "comm" g.operands
    match files with
    | [(_, a), (_, b)] =>
      let columns := ['1', '2', '3'].map fun c => !g.has c
      let rows := merged (a.length + b.length + 2) (linesOf a) (linesOf b)
      say "comm" (String.join (rows.filterMap fun (k, l) =>
        if columns.getD k false then
          let tabs := ((columns.take k).filter id).length
          some (String.ofList (List.replicate tabs '\t') ++ l ++ "\n")
        else none))
      pure code
    | _ => pure 1
  | [] => misuse "comm" "missing operand"
  | [a] => misuse "comm" ("missing operand after " ++ quoted a)
  | _ :: _ :: c :: _ => misuse "comm" ("extra operand " ++ quoted c)

/-- The fields of a line. -/
def fieldsOfLine (separator : Option Char) (l : String) : List String :=
  match separator with
  | some c => (l.toList.splitOn c).map String.ofList
  | none => ((l.toList.splitBy fun a b => isSpace a == isSpace b).filter fun p =>
      !(p.head?.any isSpace)).map String.ofList

/-- Join the lines of two files that agree in a field. -/
def join : Utility := withOptions "join" { flags := "i", valued := "12jtaveo" } fun g => do
  let separator := (g.value? 't').bind fun t => t.toList.head?
  let number (c : Char) : Nat := (((g.value? c).or (g.value? 'j')).bind natural?).getD 1 - 1
  let (files, code) ← inputs "join" g.operands
  match files with
  | [(_, a), (_, b)] =>
    let rows (text : String) : List (List String) := (linesOf text).map (fieldsOfLine separator)
    let glue := match separator with | some c => String.singleton c | none => " "
    let without (n : Nat) (fields : List String) : List String := fields.eraseIdx n
    let as := rows a
    let bs := rows b
    let key (n : Nat) (fields : List String) : String := fields.getD n ""
    let text := as.flatMap fun x =>
      let partners := bs.filter fun y => key (number '1') x == key (number '2') y
      if partners.isEmpty && g.value? 'a' == some "1" then
        [String.intercalate glue (key (number '1') x :: without (number '1') x)]
      else partners.map fun y => String.intercalate glue
        (key (number '1') x :: without (number '1') x ++ without (number '2') y)
    say "join" (unlines text)
    pure code
  | _ => if g.operands.length < 2 then misuse "join" "missing operand" else pure 1

end Utility

end FolderTasks.Machine
