import FolderTasks.Machine.Utility.Arranging
import FolderTasks.Machine.Utility.Showing
/-!
# Programs that list files

They print the names of files and what is known about them, but not what is in them.

## Main definitions

* `Utility.Item`: something that is listed.
* `Utility.ls`: the names in folders.
* `Utility.stat`: what is known about files, in a form of one's own.
* `Utility.readlink`, `Utility.realpath`: where links lead.
-/

namespace FolderTasks.Machine

open Files

namespace Utility

/-! ## What is known about a thing -/

/-- The size of a thing in bytes; a folder counts as one block. -/
def sizeOfNode (n : Node) : Nat :=
  match n.body with
  | .file content => content.length
  | .folder _ => 4096
  | .link target => target.length
  | .device _ => 0
  | .program _ => 100000

/-- The letter of a kind of thing. -/
def kindLetter : Body → Char
  | .folder _ => 'd'
  | .link _ => 'l'
  | .device _ => 'c'
  | .file _ | .program _ => '-'

/-- The name of a kind of thing. -/
def kindName : Body → String
  | .folder _ => "directory"
  | .link _ => "symbolic link"
  | .device _ => "character special file"
  | .file content => if content.isEmpty then "regular empty file" else "regular file"
  | .program _ => "regular file"

/-- The number of a kind of thing, which stands before its mode. -/
def kindNumber : Body → Nat
  | .folder _ => 0o040000
  | .link _ => 0o120000
  | .device _ => 0o020000
  | .file _ | .program _ => 0o100000

/-- The target of a link. -/
def linkTarget? : Body → Option String
  | .link target => some target
  | _ => none

/-- The mode of a thing in letters, its kind first. -/
def modeLetters (n : Node) : String := String.singleton (kindLetter n.body) ++ Mode.letters n.mode

/-- A text at the right of a column. -/
def rightIn (width : Nat) (text : String) : String :=
  String.ofList (List.replicate (width - text.length) ' ') ++ text

/-- A text at the left of a column. -/
def leftIn (width : Nat) (text : String) : String :=
  text ++ String.ofList (List.replicate (width - text.length) ' ')

/-! ## Listing names -/

/-- Something that is listed. -/
structure Item where
  name : String
  number : Nat
  node : Node

/-- The options of `ls`. -/
def lsOptions : Options.Known :=
  { flags := "aAbBcCdfFgGhHiklLmnNopqQrRsStuUvxX1Z", valued := "ITw"
    words := [("all", 'a'), ("almost-all", 'A'), ("directory", 'd'), ("recursive", 'R'),
      ("reverse", 'r'), ("classify", 'F'), ("quote-name", 'Q'), ("human-readable", 'h'),
      ("size", 's'), ("group-directories-first", 'Z'), ("no-group", 'G'), ("inode", 'i'),
      ("ignore", 'I'), ("literal", 'N')] }

/-- The blocks of a thing, of which four make a page. -/
def blocksOf (n : Node) : Nat :=
  match n.body with
  | .folder _ => 4
  | .file content => (content.length + 4095) / 4096 * 4
  | .program _ => 100
  | _ => 0

/-- The items in the order in which they are listed. -/
def inOrder (g : Options.Given) (items : List Item) : List Item :=
  let byName (a b : Item) : Bool := decide (a.name ≤ b.name)
  let ending (s : String) : String :=
    let after := (s.toList.reverse.takeWhile (· != '.')).reverse
    if after.length = s.length then "" else String.ofList after
  let ordered :=
    if g.has 'U' || g.has 'f' then items
    else
      let sorted := items.mergeSort byName
      if g.has 't' then sorted.mergeSort fun a b => decide (b.node.changed ≤ a.node.changed)
      else if g.has 'S' then
        sorted.mergeSort fun a b => decide (sizeOfNode b.node ≤ sizeOfNode a.node)
      else if g.has 'X' then
        sorted.mergeSort fun a b => decide (ending a.name ≤ ending b.name)
      else sorted
  if g.has 'r' then ordered.reverse else ordered

/-- The mark of a kind of thing after its name. -/
def markOf (g : Options.Given) (n : Node) : String :=
  match n.body with
  | .folder _ => if g.has 'F' || g.has 'p' then "/" else ""
  | .link _ => if g.has 'F' && !g.has 'l' then "@" else ""
  | _ => if g.has 'F' && Condition.isExecutable n then "*" else ""

/-- A name as it is listed. -/
def shownName (g : Options.Given) (i : Item) : String :=
  (if g.has 'Q' then "\x22" ++ i.name ++ "\x22" else i.name) ++ markOf g i.node

/-- Is everything that is known about items listed? -/
def isLong (g : Options.Given) : Bool := g.has 'l' || g.has 'n' || g.has 'g' || g.has 'o'

/-- The rows of items with everything that is known about them. -/
def longRows (v : View) (g : Options.Given) (items : List Item) : List String :=
  let width (f : Item → Nat) : Nat :=
    (items.map fun i => (toString (f i)).length).foldl max 1
  let linksOfItem (i : Item) : Nat := v.store.volume.nameCount i.number
  let linkWidth := width linksOfItem
  let sizeWidth := width fun i => sizeOfNode i.node
  let owner := if g.has 'n' then "0" else "root"
  items.map fun i =>
    (if g.has 'i' then toString (i.number + 1) ++ " " else "") ++
    modeLetters i.node ++ " " ++ rightIn linkWidth (toString (linksOfItem i)) ++
    (if g.has 'g' then "" else " " ++ owner) ++
    (if g.has 'o' || g.has 'G' then "" else " " ++ owner) ++ " " ++
    rightIn sizeWidth (toString (sizeOfNode i.node)) ++ " Jan  1 00:00 " ++ shownName g i ++
    ((linkTarget? i.node.body).elim "" (" -> " ++ ·))

/-- The text of some items; `inFolder` says whether they are all there is in a folder. -/
def itemsText (v : View) (g : Options.Given) (inFolder : Bool) (items : List Item) : String :=
  let items := inOrder g items
  let items := if g.has 'Z' then
      let (folders, others) := items.partition fun i => v.store.volume.isFolder i.number
      folders ++ others
    else items
  let total := if inFolder && (isLong g || g.has 's') then
      "total " ++ toString ((items.map fun i => blocksOf i.node).foldl (· + ·) 0) ++ "\n"
    else ""
  let names := items.map fun i =>
    (if g.has 'i' then toString (i.number + 1) ++ " " else "") ++
    (if g.has 's' then toString (blocksOf i.node) ++ " " else "") ++ shownName g i
  total ++
    (if isLong g then unlines (longRows v g items)
    else if g.has 'm' && !g.has '1' then
      (if names.isEmpty then "" else String.intercalate ", " names ++ "\n")
    else if (g.has 'x' || g.has 'C') && !g.has '1' then
      (if names.isEmpty then "" else String.intercalate "  " names ++ "\n")
    else unlines names)

/-- The items in a folder. -/
def itemsIn (v : View) (g : Options.Given) (s : Spot) : List Item :=
  let volume := v.store.volume
  let item (name : String) (n : Nat) : Option Item :=
    (volume.node? n).map fun node => ⟨name, n, node⟩
  let isHidden (name : String) : Bool := name.toList.head? == some '.'
  let dots := if g.has 'a' || g.has 'f' then
      [item "." s.node, item ".." (Spot.node s.tail)].filterMap id
    else []
  let isShown (name : String) : Bool :=
    (g.has 'a' || g.has 'A' || g.has 'f' || !isHidden name) &&
    !(g.has 'B' && name.endsWith "~") && g.value? 'I' != some name
  dots ++ ((volume.names? s.node).getD []).filterMap fun e =>
    if isShown e.1 then item e.1 e.2 else none

/-- The texts of a folder and, if that is asked for, of those in it. -/
def folderTexts (v : View) (g : Options.Given) (isNamed : Bool) : Nat → String → Spot → List String
  | 0, _, _ => []
  | fuel + 1, path, s =>
    let items := itemsIn v g s
    let own := (if isNamed then path ++ ":\n" else "") ++ itemsText v g true items
    if g.has 'R' then
      let below := (inOrder g items).filter fun i =>
        v.store.volume.isFolder i.number && i.name != "." && i.name != ".."
      own :: below.flatMap fun i =>
        folderTexts v g isNamed fuel (within path i.name) ((i.name, i.number) :: s)
    else [own]

/-- List files and the names in folders. -/
def ls : Utility := withOptions "ls" lsOptions (fun g => do
  let v ← Course.look
  let paths := if g.operands.isEmpty then ["."] else g.operands
  let follows := !(isLong g || g.has 'd' || g.has 'F') || g.has 'H' || g.has 'L'
  let found ← paths.mapM fun path => do
    match v.find path follows with
    | .ok s => pure ((v.store.volume.node? s.node).map fun n => (path, s, n))
    | .error fault =>
      match v.find path false with
      | .ok s => pure ((v.store.volume.node? s.node).map fun n => (path, s, n))
      | .error _ =>
        object "ls" ("cannot access " ++ quoted path ++ ": " ++ fault.reason)
        pure none
  let found := found.filterMap id
  let (folders, files) := found.partition fun (_, s, _) =>
    v.store.volume.isFolder s.node && !g.has 'd'
  let item : String × Spot × Node → Item := fun (path, s, n) => ⟨path, s.node, n⟩
  let isNamed := 1 < paths.length || g.has 'R'
  let fileTexts := if files.isEmpty then [] else [itemsText v g false (files.map item)]
  let ordered := (inOrder g (folders.map item)).filterMap fun i =>
    folders.find? fun f => f.1 == i.name
  let folderParts := ordered.flatMap fun (path, s, _) =>
    folderTexts v g isNamed folderDepth path s
  say "ls" (String.intercalate "\n" (fileTexts ++ folderParts))
  pure (if found.length = paths.length then 0 else 2)) 2

/-! ## Knowing more -/

/-- What a letter after a percent sign stands for. -/
def statValue (v : View) (path : String) (number : Nat) (n : Node) : Char → String
  | 'a' => String.ofList (Nat.toDigits 8 n.mode)
  | 'A' => modeLetters n
  | 'b' => toString (blocksOf n * 2)
  | 'B' => "512"
  | 'd' => "2049"
  | 'f' => String.ofList (Nat.toDigits 16 (kindNumber n.body + n.mode))
  | 'F' => kindName n.body
  | 'g' | 'u' => "0"
  | 'G' | 'U' => "root"
  | 'h' => toString (v.store.volume.nameCount number)
  | 'i' => toString (number + 1)
  | 'n' => path
  | 'N' => quoted path ++ (linkTarget? n.body).elim "" fun t => " -> " ++ quoted t
  | 'o' => "4096"
  | 's' => toString (sizeOfNode n)
  | 't' | 'T' => "0"
  | 'W' => "0"
  | 'X' | 'Y' | 'Z' => toString (n.changed / 1000000)
  | _ => "?"

/-- A format filled in with what is known about a thing. -/
def statText (v : View) (path : String) (number : Nat) (n : Node) : Nat → List Char → String
  | 0, _ | _, [] => ""
  | fuel + 1, '%' :: rest =>
    let flags := rest.takeWhile fun c => c = '-' || c = '0'
    let rest := rest.drop flags.length
    let digits := rest.takeWhile Char.isDigit
    let width := digits.foldl (fun k c => k * 10 + (c.toNat - 48)) 0
    match rest.drop digits.length with
    | [] => "%"
    | '%' :: rest => "%" ++ statText v path number n fuel rest
    | c :: rest =>
      let text := statValue v path number n c
      let text := if flags.contains '-' then leftIn width text
        else if flags.contains '0' then
          String.ofList (List.replicate (width - text.length) '0') ++ text
        else rightIn width text
      text ++ statText v path number n fuel rest
  | fuel + 1, c :: rest => String.singleton c ++ statText v path number n fuel rest

/-- Print what is known about files. -/
def stat : Utility := withOptions "stat"
    { flags := "Lft", valued := "cP", words := [("format", 'c'), ("printf", 'P'),
        ("dereference", 'L'), ("file-system", 'f'), ("terse", 't')] } fun g => do
  if g.operands.isEmpty then misuse "stat" "missing operand"
  else
    let format := (g.value? 'c').elim "  File: %N\n  Size: %s\tBlocks: %b\tIO Block: %o\t%F" id
    forEach "stat" g.operands fun path => do
      let v ← Course.look
      match v.find path (g.has 'L') with
      | .error fault =>
        pure (.error ("cannot statx " ++ quoted path ++ ": " ++ fault.reason))
      | .ok s => match v.store.volume.node? s.node with
        | none => pure (.ok ())
        | some n =>
          match g.value? 'P' with
          | some format =>
            emit "stat" (Escape.expand ⟨false, true⟩
              (statText v path s.node n format.length format.toList)).1
          | none => say "stat" (statText v path s.node n format.length format.toList ++ "\n")
          pure (.ok ())

/-! ## Where links lead -/

/-- The path of a thing without links; the last name may be of nothing, and any if `isLax` is
set. -/
def canonical (v : View) (isLax needsAll : Bool) (path : String) : Except Fault String :=
  match v.find path with
  | .ok s => .ok s.path
  | .error fault =>
    if needsAll then .error fault
    else match v.store.volume.target v.context.here path with
      | .ok (above, .name name _) =>
        match v.store.volume.nodeAt? above name false with
        | some ⟨.link target, _, _⟩ => .ok (if isAbsolute target then target
            else within above.path target)
        | some _ => .error fault
        | none => .ok (within above.path name)
      | .ok (above, .special) => .ok above.path
      | .error fault =>
        if isLax then
          let start := if isAbsolute path then [] else pathSegments v.context.here.path
          let segments := (start ++ pathSegments path).foldl (fun (acc : List String) s =>
            if s.isEmpty || s = "." then acc
            else if s = ".." then acc.dropLast else acc ++ [s]) []
          .ok ("/" ++ String.intercalate "/" segments)
        else .error fault

/-- Print where links lead. -/
def readlink : Utility := withOptions "readlink"
    { flags := "femnqsvz", words := [("canonicalize", 'f'), ("canonicalize-existing", 'e'),
        ("canonicalize-missing", 'm'), ("no-newline", 'n'), ("zero", 'z')] } fun g => do
  if g.operands.isEmpty then misuse "readlink" "missing operand"
  else
    let lineEnd := if g.has 'z' then "\x00"
      else if g.has 'n' && g.operands.length = 1 then "" else "\n"
    let codes ← g.operands.mapM fun path => do
      let v ← Course.look
      let result := if g.has 'f' || g.has 'e' || g.has 'm' then
          canonical v (g.has 'm') (g.has 'e') path
        else match v.nodeAt? path false with
          | some ⟨.link target, _, _⟩ => .ok target
          | some _ => .error .invalid
          | none => .error .notFound
      match result with
      | .ok text =>
        say "readlink" (text ++ lineEnd)
        pure 0
      | .error fault =>
        if g.has 'v' then object "readlink" (plainly path fault)
        pure 1
    pure (codes.foldl max 0)

/-- Print paths without links. -/
def realpath : Utility := withOptions "realpath"
    { flags := "emqsz", valued := "r", words := [("canonicalize-existing", 'e'),
        ("canonicalize-missing", 'm'), ("strip", 's'), ("no-symlinks", 's'), ("quiet", 'q'),
        ("zero", 'z'), ("relative-to", 'r')] } fun g => do
  if g.operands.isEmpty then misuse "realpath" "missing operand"
  else forEach "realpath" g.operands fun path => do
    let v ← Course.look
    match canonical v (g.has 'm') (g.has 'e') path with
    | .ok text =>
      let text := match (g.value? 'r').map (canonical v true false) with
        | some (.ok base) =>
          let a := (pathSegments base).filter (· != "")
          let b := (pathSegments text).filter (· != "")
          let common := ((a.zip b).takeWhile fun e => e.1 == e.2).length
          let steps := List.replicate (a.length - common) ".." ++ b.drop common
          if steps.isEmpty then "." else String.intercalate "/" steps
        | _ => text
      say "realpath" (text ++ if g.has 'z' then "\x00" else "\n")
      pure (.ok ())
    | .error fault => pure (if g.has 'q' then .ok () else .error (plainly path fault))

end Utility

end FolderTasks.Machine
