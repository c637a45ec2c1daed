import FolderTasks.Machine.Regex
import FolderTasks.Machine.Utility.Source
/-!
# Searching for lines

## Main definitions

* `Utility.Matching`: what lines are searched for and what is printed of them.
* `Utility.grep`: the program.
-/

namespace FolderTasks.Machine

open Files

namespace Utility

/-- What lines are searched for. -/
structure Matching where
  patterns : List Regex
  foldsCase : Bool
  isInverted : Bool
  wholeWords : Bool
  wholeLines : Bool

/-- Is what was found acceptable where it stands? -/
def Matching.isFine (m : Matching) (p q : Regex.Place) : Bool :=
  (!m.wholeWords || !p.before.any Regex.isWordPart && !q.rest.head?.any Regex.isWordPart) &&
  (!m.wholeLines || p.before.isNone && q.rest.isEmpty)

/-- The leftmost longest text of a line that any pattern fits, from a position on. -/
def Matching.search (m : Matching) (cs : List Char) (start : Nat) : Option Regex.Found :=
  (m.patterns.filterMap fun r => r.search m.foldsCase m.isFine cs start).foldl (fun best f =>
    match best with
    | none => some f
    | some b =>
      if f.start < b.start || f.start = b.start && b.stop < f.stop then some f else best) none

/-- Is a line one of those that are searched for? -/
def Matching.selects (m : Matching) (line : String) : Bool :=
  (m.search line.toList 0).isSome != m.isInverted

/-- The texts of a line that fit, one after the other; those without characters do not count. -/
def Matching.parts (m : Matching) (cs : List Char) : Nat → Nat → List String
  | 0, _ => []
  | fuel + 1, start => match m.search cs start with
    | none => []
    | some f =>
      if f.start = f.stop then
        if f.stop < cs.length then m.parts cs fuel (f.stop + 1) else []
      else String.ofList ((cs.drop f.start).take (f.stop - f.start)) :: m.parts cs fuel f.stop

/-- The options of `grep`. -/
def grepOptions : Options.Known :=
  { flags := "EFGPicvnqsowxlLhHrRazTU", valued := "efmABC"
    words := [("extended-regexp", 'E'), ("fixed-strings", 'F'), ("basic-regexp", 'G'),
      ("ignore-case", 'i'), ("count", 'c'), ("invert-match", 'v'), ("line-number", 'n'),
      ("quiet", 'q'), ("silent", 'q'), ("no-messages", 's'), ("only-matching", 'o'),
      ("word-regexp", 'w'), ("line-regexp", 'x'), ("files-with-matches", 'l'),
      ("files-without-match", 'L'), ("no-filename", 'h'), ("with-filename", 'H'),
      ("recursive", 'r'), ("text", 'a'), ("regexp", 'e'), ("file", 'f'), ("max-count", 'm'),
      ("after-context", 'A'), ("before-context", 'B'), ("context", 'C')] }

/-- All files below a path, in the order of their names. -/
def filesBelow (v : View) : Nat → String → List String
  | 0, path => [path]
  | fuel + 1, path =>
    match v.find path with
    | .error _ => [path]
    | .ok s => match v.store.volume.names? s.node with
      | none => [path]
      | some _ => (v.store.volume.listing s.node).flatMap fun name =>
          filesBelow v fuel (path ++ (if path.endsWith "/" then "" else "/") ++ name)

/-- What `grep` knows while it goes through a file. -/
structure Search where
  number : Nat := 0
  found : Nat := 0
  /-- Lines before that may yet be printed, the latest first. -/
  before : List (Nat × String) := []
  /-- How many more lines are printed after the last that was found. -/
  after : Nat := 0
  /-- The number of the last line that was printed. -/
  printed : Nat := 0
  isBinary : Bool := false

/-- What is printed of lines, and when the search ends. -/
structure Report where
  matching : Matching
  showsName : Bool
  options : Options.Given
  limit : Option Nat
  linesBefore : Nat
  linesAfter : Nat

/-- Is nothing printed but in the end? -/
def Report.isSilent (r : Report) : Bool :=
  r.options.has 'q' || r.options.has 'c' || r.options.has 'l' || r.options.has 'L'

/-- A line as it is printed. -/
def Report.line (r : Report) (path : String) (number : Nat) (mark text : String) : String :=
  (if r.showsName then path ++ mark else "") ++
    (if r.options.has 'n' then toString number ++ mark else "") ++ text ++ "\n"

/-- Take in one line of a file; the answer is what is printed. -/
def Report.take (r : Report) (path text : String) (s : Search) : Search × String :=
  let s := { s with number := s.number + 1 }
  if r.matching.selects text then
    let gap := (0 < r.linesBefore || 0 < r.linesAfter) && s.printed != 0 &&
      s.printed + 1 + s.before.length < s.number
    let shownBefore := String.join (s.before.reverse.map fun (n, t) => r.line path n "-" t)
    let own := if r.options.has 'o' then
        if r.matching.isInverted then ""
        else String.join ((r.matching.parts text.toList (text.length + 1) 0).map fun t =>
          r.line path s.number ":" t)
      else r.line path s.number ":" text
    ({ s with found := s.found + 1, before := [], after := r.linesAfter, printed := s.number },
      if r.options.has 'o' then own else (if gap then "--\n" else "") ++ shownBefore ++ own)
  else if 0 < s.after then
    ({ s with after := s.after - 1, printed := s.number, before := [] },
      if r.options.has 'o' then "" else r.line path s.number "-" text)
  else
    ({ s with before := ((s.number, text) :: s.before).take r.linesBefore }, "")

/-- Go through a file as far as needed. -/
def Report.search (r : Report) : Nat → Source → Search → Course (Source × Search)
  | 0, _, _ => Course.spin
  | fuel + 1, source, s => do
    if r.limit.any (· ≤ s.found) && s.after = 0 ||
        0 < s.found && (r.options.has 'q' || r.options.has 'l' || r.options.has 'L') then
      pure (← source.leaveFile, s)
    else
      match ← source.next with
      | (none, source) => pure (source, s)
      | (some line, source) =>
        if r.limit.any (· ≤ s.found) && r.matching.selects line.text then
          pure (← source.leaveFile, s)
        else
          let (s, text) := r.take line.path line.text s
          let isBinary := !r.options.has 'a' && line.text.toList.contains '\x00'
          if isBinary && 0 < s.found && !r.isSilent then
            pure (← source.leaveFile, { s with isBinary := true })
          else
            if !r.isSilent && !text.isEmpty then emit "grep" (bytesOf text) 2
            r.search fuel source s

/-- An argument of `grep`, an old form of the context replaced by the new one. -/
def withOldContext (a : String) : String :=
  match a.toList with
  | '-' :: c :: cs => if (c :: cs).all Char.isDigit then "-C" ++ String.ofList (c :: cs) else a
  | _ => a

/-- Search for lines. -/
def grepAs (name : String) (isExtended isLiteral : Bool) : Utility :=
  taking (List.map withOldContext) <| withOptions name grepOptions (fun g => do
    let isExtended := (isExtended || g.has 'E' || g.has 'P') && !g.has 'G'
    let isLiteral := isLiteral || g.has 'F'
    let listed ← (g.options.filter fun o => o.1 == 'f').mapM fun (_, path) => do
      match ← Course.readFile path with
      | .ok bs => pure (linesOf (textOf bs))
      | .error fault =>
        object name (plainly path fault)
        Course.stop (.exited 2)
    let given := (g.options.filter fun o => o.1 == 'e').map (·.2)
    let hasOption := g.has 'e' || g.has 'f'
    let (texts, paths) := if hasOption then
        (given.flatMap (fun t => (t.toList.splitOn '\n').map String.ofList) ++ listed.flatten,
          g.operands)
      else (((g.operands.headD "").toList.splitOn '\n').map String.ofList, g.operands.drop 1)
    if !hasOption && g.operands.isEmpty then
      Course.complain ("Usage: " ++ name ++ " [OPTION]... PATTERNS [FILE]...\n" ++
        "Try \x27" ++ name ++ " --help\x27 for more information.")
      pure 2
    else match texts.mapM fun t =>
        if isLiteral then .ok (Regex.literal t) else Regex.ofText isExtended t with
      | .error mistake =>
        object name mistake.message
        pure 2
      | .ok patterns => do
        let v ← Course.look
        let isRecursive := g.has 'r' || g.has 'R'
        let named := if isRecursive then
            if paths.isEmpty then
              (filesBelow v 100 ".").map fun p => String.ofList (p.toList.drop 2)
            else paths.flatMap (filesBelow v 100)
          else filesOf paths
        let number (c : Char) : Option Nat := (g.value? c).bind natural?
        let report : Report := {
          matching := { patterns, foldsCase := g.has 'i', isInverted := g.has 'v'
                        wholeWords := g.has 'w', wholeLines := g.has 'x' }
          showsName := !g.has 'h' && (g.has 'H' || 1 < paths.length || isRecursive)
          options := g, limit := number 'm'
          linesBefore := ((number 'B').or (number 'C')).getD 0
          linesAfter := ((number 'A').or (number 'C')).getD 0 }
        let results ← named.mapM fun path => do
          let label := if path = "-" then "(standard input)" else path
          let isFolder := path != "-" && v.hasFolder path
          if isFolder then
            if !g.has 's' then object name (plainly path .isDirectory)
            pure (0, true)
          else
            let source : Source :=
              { complaintAbout := fun path fault => name ++ ": " ++ plainly path fault
                waiting := [path] }
            let failsQuietly := g.has 's' && path != "-" && (v.nodeAt? path).isNone
            if failsQuietly then pure (0, true)
            else
              let (source, s) ← report.search Course.manyReads source {}
              if g.has 'c' && !g.has 'q' && !source.hasFailed then
                say name ((if report.showsName then label ++ ":" else "") ++
                  toString s.found ++ "\n")
              if g.has 'l' && !g.has 'q' && 0 < s.found then say name (label ++ "\n")
              if g.has 'L' && !g.has 'q' && s.found = 0 && !source.hasFailed then
                say name (label ++ "\n")
              if s.isBinary then say name (name ++ ": " ++ label ++ ": binary file matches\n")
              pure (s.found, source.hasFailed)
        let isFound := results.any fun r => 0 < r.1
        let hasFailed := results.any fun r => r.2
        pure (if hasFailed && !(g.has 'q' && isFound) then 2
          else if isFound != g.has 'L' then 0 else 1)) 2

/-- Search for lines. -/
def grep : Utility := grepAs "grep" false false

end Utility

end FolderTasks.Machine
