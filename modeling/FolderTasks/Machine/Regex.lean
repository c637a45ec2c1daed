import FolderTasks.Machine.Utility.Cutting
/-!
# Regular expressions

Texts are searched for what fits an expression: the leftmost place counts, and there the longest
text.  Expressions are written in a basic and in an extended form, which differ in where a
backslash is needed.

## Main definitions

* `Regex`: the expressions.
* `Regex.ofText`: the expression of a text in one of the two forms.
* `Regex.runs`: all ways in which an expression fits at a place.
* `Regex.search`: the leftmost longest text that fits.
-/

namespace FolderTasks.Machine

/-- Regular expressions. -/
inductive Regex where
  | empty
  | char (c : Char)
  | any
  | oneOf (isExcluded : Bool) (ranges : List (Char × Char))
  | lineStart
  | lineEnd
  | wordStart
  | wordEnd
  | wordEdge
  | noWordEdge
  | sequence (a b : Regex)
  | either (a b : Regex)
  | repeated (a : Regex) (least : Nat) (most : Option Nat)
  /-- A part that can be referred to by its number. -/
  | group (n : Nat) (a : Regex)
  /-- What a part has fitted, once more. -/
  | again (n : Nat)
deriving DecidableEq, Repr, Inhabited

namespace Regex

/-! ## Reading -/

/-- Is a character part of a word? -/
def isWordPart (c : Char) : Bool := c.isAlphanum || c = '_'

/-- The ranges of a list of characters. -/
def rangesOf (isMember : Char → Bool) : List (Char × Char) :=
  (Utility.allBytes.filter isMember).map fun c => (c, c)

/-- What stands between brackets, up to the closing one: ranges and the rest. -/
def readRanges : Nat → Bool → List Char → Option (List (Char × Char) × List Char)
  | 0, _, _ | _, _, [] => none
  | fuel + 1, isFirst, c :: rest =>
    let goOn (ranges : List (Char × Char)) (rest : List Char) :
        Option (List (Char × Char) × List Char) :=
      (readRanges fuel false rest).map fun (more, rest) => (ranges ++ more, rest)
    if c = ']' && !isFirst then some ([], rest)
    else match c, rest with
      | '[', ':' :: rest =>
        let name := rest.takeWhile (· != ':')
        match Utility.classMember? (String.ofList name), rest.drop name.length with
        | some isMember, ':' :: ']' :: rest => goOn (rangesOf isMember) rest
        | _, _ => none
      | '[', '.' :: d :: '.' :: ']' :: rest | '[', '=' :: d :: '=' :: ']' :: rest =>
        goOn [(d, d)] rest
      | c, '-' :: d :: rest =>
        if d = ']' then goOn [(c, c), ('-', '-')] (d :: rest) else goOn [(c, d)] rest
      | c, rest => goOn [(c, c)] rest

/-- An expression that fits what stands between brackets. -/
def readBracket (cs : List Char) : Option (Regex × List Char) :=
  let (isExcluded, cs) := match cs with
    | '^' :: rest => (true, rest)
    | cs => (false, cs)
  (readRanges (cs.length + 1) true cs).map fun (ranges, rest) => (.oneOf isExcluded ranges, rest)

/-- What a letter means after a backslash. -/
def escaped (c : Char) : Regex :=
  match c with
  | 'w' => .oneOf false (rangesOf isWordPart)
  | 'W' => .oneOf true (rangesOf isWordPart)
  | 's' => .oneOf false (rangesOf Utility.isSpace)
  | 'S' => .oneOf true (rangesOf Utility.isSpace)
  | 'b' => .wordEdge
  | 'B' => .noWordEdge
  | '<' => .wordStart
  | '>' => .wordEnd
  | '\x60' => .lineStart
  | '\x27' => .lineEnd
  | 'n' => .char '\n'
  | 't' => .char '\t'
  | c => if c.isDigit && c != '0' then .again (c.toNat - 48) else .char c

/-- The bounds of a repetition, after the opening brace. -/
def readBounds (isExtended : Bool) (cs : List Char) : Option (Nat × Option Nat × List Char) :=
  let closing : List Char := if isExtended then ['\x7d'] else ['\\', '\x7d']
  let first := cs.takeWhile Char.isDigit
  let value (ds : List Char) : Nat := (Escape.number 10 ds.length ds).1
  let after := cs.drop first.length
  let finish (least : Nat) (most : Option Nat) (rest : List Char) :
      Option (Nat × Option Nat × List Char) :=
    if closing.isPrefixOf rest then some (least, most, rest.drop closing.length) else none
  match after with
  | ',' :: rest =>
    let second := rest.takeWhile Char.isDigit
    finish (value first) (if second.isEmpty then none else some (value second))
      (rest.drop second.length)
  | rest => if first.isEmpty then none else finish (value first) (some (value first)) rest

/-- What is wrong with an expression. -/
inductive Mistake where
  | unmatchedBracket
  | unmatchedGroup
  | unmatchedClosing
  | badBounds
  | unmatchedBrace
  | trailingBackslash
  | badReference
  | nothingToRepeat
deriving DecidableEq, Repr

/-- The wording of a mistake. -/
def Mistake.message : Mistake → String
  | .unmatchedBracket => "Unmatched [, [^, [:, [., or [="
  | .unmatchedGroup => "Unmatched ( or \\("
  | .unmatchedClosing => "Unmatched ) or \\)"
  | .badBounds => "Invalid content of \\\x7b\\\x7d"
  | .unmatchedBrace => "Unmatched \\\x7b"
  | .trailingBackslash => "Trailing backslash"
  | .badReference => "Invalid back reference"
  | .nothingToRepeat => "Invalid preceding regular expression"

/-- What a reader has before it, the number of the next group, and those that are complete. -/
structure Reading where
  rest : List Char
  nextGroup : Nat := 1
  complete : List Nat := []

/-- A token of an expression. -/
inductive Sign where
  | opening
  | closing
  | bar
  | star
  | plus
  | optional
  | bounds
  | atom (r : Regex)

/-- The token at the beginning of a text and the rest; `isFirst` says that no atom stands before
it. -/
def readSign (isExtended isFirst : Bool) (cs : List Char) : Except Mistake (Sign × List Char) :=
  match cs with
  | [] => .error .trailingBackslash
  | '\\' :: rest => match rest with
    | [] => .error .trailingBackslash
    | c :: rest =>
      if isExtended then .ok (.atom (escaped c), rest)
      else match c with
        | '(' => .ok (.opening, rest)
        | ')' => .ok (.closing, rest)
        | '|' => .ok (.bar, rest)
        | '+' => .ok (if isFirst then .atom (.char '+') else .plus, rest)
        | '?' => .ok (if isFirst then .atom (.char '?') else .optional, rest)
        | '\x7b' => .ok (.bounds, rest)
        | c => .ok (.atom (escaped c), rest)
  | '[' :: rest => match readBracket rest with
    | some (r, rest) => .ok (.atom r, rest)
    | none => .error .unmatchedBracket
  | '.' :: rest => .ok (.atom .any, rest)
  | '*' :: rest => .ok (if isFirst then .atom (.char '*') else .star, rest)
  | '^' :: rest =>
    if isExtended || isFirst then .ok (.atom .lineStart, rest) else .ok (.atom (.char '^'), rest)
  | '$' :: rest =>
    let isLast := match rest with
      | [] => true
      | '\\' :: ')' :: _ | '\\' :: '|' :: _ => true
      | _ => false
    if isExtended || isLast then .ok (.atom .lineEnd, rest) else .ok (.atom (.char '$'), rest)
  | c :: rest =>
    if isExtended then match c with
      | '(' => .ok (.opening, rest)
      | ')' => .ok (.closing, rest)
      | '|' => .ok (.bar, rest)
      | '+' => .ok (if isFirst then .atom (.char '+') else .plus, rest)
      | '?' => .ok (if isFirst then .atom (.char '?') else .optional, rest)
      | '\x7b' =>
        if (readBounds true rest).isSome && !isFirst then .ok (.bounds, rest)
        else .ok (.atom (.char c), rest)
      | c => .ok (.atom (.char c), rest)
    else .ok (.atom (.char c), rest)

mutual

/-- Alternatives up to a closing parenthesis or the end. -/
def readEither (isExtended : Bool) : Nat → Reading → Except Mistake (Regex × Reading)
  | 0, _ => .error .unmatchedGroup
  | fuel + 1, s => do
    let (a, s) ← readRow isExtended fuel none s
    match s.rest with
    | [] => .ok (a, s)
    | cs => match ← readSign isExtended false cs with
      | (.bar, rest) =>
        let (b, s) ← readEither isExtended fuel { s with rest }
        .ok (.either a b, s)
      | _ => .ok (a, s)

/-- A row of atoms with their repetitions; `last` is the atom before, which may yet be
repeated. -/
def readRow (isExtended : Bool) : Nat → Option Regex → Reading → Except Mistake (Regex × Reading)
  | 0, _, _ => .error .unmatchedGroup
  | fuel + 1, last, s =>
    let done : Regex := last.getD .empty
    let repeatLast (least : Nat) (most : Option Nat) (rest : List Char) :
        Except Mistake (Regex × Reading) :=
      match last with
      | some a => readRow isExtended fuel (some (.repeated a least most)) { s with rest }
      | none => .error .nothingToRepeat
    let isStart := match last with
      | none | some .lineStart => true
      | _ => false
    match s.rest with
    | [] => .ok (done, s)
    | cs => do
      let joined (b : Regex) : Regex := match last with
        | some a => .sequence a b
        | none => b
      match ← readSign isExtended isStart cs with
      | (.bar, _) | (.closing, _) => .ok (done, s)
      | (.star, rest) => repeatLast 0 none rest
      | (.plus, rest) => repeatLast 1 none rest
      | (.optional, rest) => repeatLast 0 (some 1) rest
      | (.bounds, rest) => match readBounds isExtended rest with
        | some (least, most, rest) => repeatLast least most rest
        | none =>
          .error (if (rest.dropWhile fun c => c.isDigit || c = ',').isEmpty then .unmatchedBrace
            else .badBounds)
      | (.opening, rest) =>
        let n := s.nextGroup
        let (a, s) ← readEither isExtended fuel { s with rest, nextGroup := n + 1 }
        match s.rest with
        | [] => .error .unmatchedGroup
        | cs => match ← readSign isExtended false cs with
          | (.closing, rest) =>
            let s := { s with rest, complete := n :: s.complete }
            let (b, s) ← readRow isExtended fuel (some (.group n a)) s
            .ok (joined b, s)
          | _ => .error .unmatchedGroup
      | (.atom (.again n), rest) =>
        if s.complete.contains n then
          let (b, s) ← readRow isExtended fuel (some (.again n)) { s with rest }
          .ok (joined b, s)
        else .error .badReference
      | (.atom r, rest) =>
        let (b, s) ← readRow isExtended fuel (some r) { s with rest }
        .ok (joined b, s)

end

/-- The expression of a text in one of the two forms. -/
def ofText (isExtended : Bool) (text : String) : Except Mistake Regex := do
  let cs := text.toList
  let (r, s) ← readEither isExtended (4 * cs.length + 4) { rest := cs }
  if s.rest.isEmpty then .ok r
  else .error .unmatchedClosing

/-- The expression that fits one text only. -/
def literal (text : String) : Regex :=
  text.toList.foldr (fun c r => .sequence (.char c) r) .empty

/-! ## Fitting -/

/-- How far a text has been fitted, and what the groups have fitted. -/
structure Place where
  position : Nat
  /-- The character before. -/
  before : Option Char
  rest : List Char
  groups : List (Nat × Nat × Nat) := []

/-- Is the place at the same position with the same groups? -/
def Place.agrees (p q : Place) : Bool := p.position == q.position && p.groups == q.groups

/-- Places without those that agree with an earlier one. -/
def distinct (ps : List Place) : List Place :=
  ps.foldr (fun p out => p :: out.filter fun q => !p.agrees q) []

/-- The place after one more character. -/
def Place.advance (p : Place) : Option (Char × Place) :=
  match p.rest with
  | c :: rest => some (c, { p with position := p.position + 1, before := some c, rest })
  | [] => none

/-- The place after so many characters. -/
def Place.skip (p : Place) (n : Nat) : Place :=
  if n = 0 then p
  else { p with
    position := p.position + n
    before := (p.rest.drop (n - 1)).head?
    rest := p.rest.drop n }

/-- Steps made again and again, as often as allowed, the most first. -/
def iterate (step : Place → List Place) (least : Nat) (most : Option Nat) :
    Nat → Nat → Place → List Place
  | 0, _, p => [p]
  | fuel + 1, count, p =>
    let nexts := if most.all (count < ·) then step p else []
    let moved := nexts.filter fun q => p.position < q.position
    let resting := if count < least then nexts.filter fun q => q.position == p.position else []
    distinct ((moved.flatMap (iterate step least most fuel (count + 1))) ++ resting ++
      if least ≤ count then [p] else [])

/-- Is there an edge of a word at a place: is the character before, and the one after, part of a
word? -/
def Place.wordParts (p : Place) : Bool × Bool :=
  (p.before.any isWordPart, p.rest.head?.any isWordPart)

/-- All places up to which an expression fits, those that should be tried first in front. -/
def runs (whole : List Char) (foldsCase : Bool) : Regex → Place → List Place
  | .empty, p => [p]
  | .char c, p => match p.advance with
    | some (d, q) => if c = d || foldsCase && c.toLower = d.toLower then [q] else []
    | none => []
  | .any, p => match p.advance with
    | some (_, q) => [q]
    | none => []
  | .oneOf isExcluded ranges, p => match p.advance with
    | some (d, q) =>
      let isIn (c : Char) : Bool := ranges.any fun (a, b) => decide (a ≤ c) && decide (c ≤ b)
      let isMember := isIn d || foldsCase && (isIn d.toLower || isIn d.toUpper)
      if isMember != isExcluded then [q] else []
    | none => []
  | .lineStart, p => if p.before.isNone then [p] else []
  | .lineEnd, p => if p.rest.isEmpty then [p] else []
  | .wordStart, p => if p.wordParts = (false, true) then [p] else []
  | .wordEnd, p => if p.wordParts = (true, false) then [p] else []
  | .wordEdge, p => if p.wordParts.1 != p.wordParts.2 then [p] else []
  | .noWordEdge, p => if p.wordParts.1 == p.wordParts.2 then [p] else []
  | .sequence a b, p =>
    distinct ((runs whole foldsCase a p).flatMap (runs whole foldsCase b))
  | .either a b, p =>
    distinct (runs whole foldsCase a p ++ runs whole foldsCase b p)
  | .repeated a least most, p =>
    iterate (runs whole foldsCase a) least most (p.rest.length + least + 1) 0 p
  | .group n a, p => (runs whole foldsCase a p).map fun q =>
    { q with groups := (n, p.position, q.position) :: q.groups.filter fun g => g.1 != n }
  | .again n, p => match p.groups.lookup n with
    | none => []
    | some (start, stop) =>
      let text := (whole.drop start).take (stop - start)
      let same (a b : Char) : Bool := a == b || foldsCase && a.toLower == b.toLower
      let next := p.rest.take text.length
      if next.length = text.length && (text.zip next).all fun (a, b) => same a b then
        [p.skip text.length] else []

/-- The one that goes farthest, the first of several. -/
def farthest : List Place → Option Place
  | [] => none
  | p :: rest => match farthest rest with
    | none => some p
    | some q => if p.position < q.position then some q else some p

/-- What was found: where it begins and ends, and the groups. -/
structure Found where
  start : Nat
  stop : Nat
  groups : List (Nat × Nat × Nat) := []
deriving DecidableEq, Repr

/-- The leftmost longest text that fits from some place on and is acceptable. -/
def searchGo (whole : List Char) (foldsCase : Bool) (isFine : Place → Place → Bool) (r : Regex) :
    Nat → Place → Option Found
  | 0, _ => none
  | fuel + 1, p =>
    match farthest ((runs whole foldsCase r p).filter (isFine p)) with
    | some q => some ⟨p.position, q.position, q.groups⟩
    | none => match p.advance with
      | some (_, q) => searchGo whole foldsCase isFine r fuel q
      | none => none

/-- The leftmost longest text that fits from a position on and is acceptable. -/
def search (r : Regex) (foldsCase : Bool) (isFine : Place → Place → Bool) (whole : List Char)
    (start : Nat) : Option Found :=
  let p : Place := { position := 0, before := none, rest := whole }
  searchGo whole foldsCase isFine r (whole.length + 1) (p.skip start)

end Regex

end FolderTasks.Machine
