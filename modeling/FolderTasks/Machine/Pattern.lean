import FolderTasks.Machine.Options
import FolderTasks.Machine.Utility.Cutting
/-!
# Patterns

A pattern fits texts: `*` fits any text, `?` any character, brackets one of the characters in
them, and everything else itself.  Where it comes from quotes, a special character is ordinary.

## Main definitions

* `Pattern`: the patterns.
* `Pattern.fits`: does a text fit?
* `Pattern.trim`: what is left of a text when what fits is cut off.
* `Pattern.paths`: the paths on a volume that fit.
-/

namespace FolderTasks.Machine

open Files

/-- What one place in a pattern fits. -/
inductive Pattern.Part where
  | char (c : Char)
  | anyChar
  | anyText
  /-- One of some characters and ranges of characters, or, if `excluded`, none of them. -/
  | oneOf (excluded : Bool) (ranges : List (Char × Char))
deriving DecidableEq, Repr

/-- A pattern. -/
abbrev Pattern := List Pattern.Part

namespace Pattern

/-- The pattern that a text fits only by being it. -/
def ofText (cs : List Char) : Pattern := cs.map .char

/-- Does a character lie in one of some ranges? -/
def inRanges (ranges : List (Char × Char)) (c : Char) : Bool :=
  ranges.any fun (a, b) => decide (a ≤ c) && decide (c ≤ b)

/-- Does a text fit a pattern? -/
def fits : Pattern → List Char → Bool
  | [], cs => cs.isEmpty
  | .char d :: ps, c :: cs => d == c && fits ps cs
  | .anyChar :: ps, _ :: cs => fits ps cs
  | .oneOf excluded ranges :: ps, c :: cs => (inRanges ranges c != excluded) && fits ps cs
  | .anyText :: ps, [] => fits ps []
  | .anyText :: ps, c :: cs => fits ps (c :: cs) || fits (.anyText :: ps) cs
  | _ :: _, [] => false
termination_by ps cs => ps.length + cs.length

/-- The ranges within brackets up to the closing one, and the rest, each character with whether it
is quoted. -/
def rangesGo : Nat → Bool → List (Char × Bool) →
    Option (List (Char × Char) × List (Char × Bool))
  | 0, _, _ | _, _, [] => none
  | fuel + 1, isFirst, (a, isQuoted) :: rest =>
    let goOn (ranges : List (Char × Char)) (rest : List (Char × Bool)) :
        Option (List (Char × Char) × List (Char × Bool)) :=
      (rangesGo fuel false rest).map fun (more, rest) => (ranges ++ more, rest)
    if a = ']' && !isQuoted && !isFirst then some ([], rest)
    else match a, isQuoted, rest with
      | '[', false, (':', false) :: rest =>
        let name := rest.takeWhile fun e => e.1 != ':'
        match Utility.classMember? (String.ofList (name.map (·.1))), rest.drop name.length with
        | some isMember, _ :: (']', _) :: rest =>
          goOn ((Utility.allBytes.filter isMember).map fun c => (c, c)) rest
        | _, _ => goOn [('[', '[')] ((':', false) :: rest)
      | a, _, ('-', false) :: (b, isLast) :: after =>
        if b = ']' && !isLast then goOn [(a, a)] rest else goOn [(a, b)] after
      | a, _, rest => goOn [(a, a)] rest

/-- The pattern of characters, each with whether it is quoted; `marks` are those that exclude what
else is in brackets.  A bracket that is not closed is ordinary. -/
def ofCharsGo (marks : List Char) : Nat → List (Char × Bool) → Pattern
  | 0, _ | _, [] => []
  | fuel + 1, (c, isQuoted) :: rest =>
    if isQuoted then .char c :: ofCharsGo marks fuel rest
    else if c = '*' then .anyText :: ofCharsGo marks fuel rest
    else if c = '?' then .anyChar :: ofCharsGo marks fuel rest
    else if c = '[' then
      let (excluded, inside) := match rest with
        | (mark, false) :: inside => if marks.contains mark then (true, inside) else (false, rest)
        | rest => (false, rest)
      match rangesGo (inside.length + 1) true inside with
      | some (ranges, rest) =>
        .oneOf excluded ranges :: ofCharsGo marks fuel rest
      | none => .char c :: ofCharsGo marks fuel rest
    else .char c :: ofCharsGo marks fuel rest

/-- The pattern of characters, each with whether it is quoted; `marks` are those that exclude what
else is in brackets. -/
def ofChars (marks : String) (cs : List (Char × Bool)) : Pattern :=
  ofCharsGo marks.toList cs.length cs

/-- The characters of a text, those after a backslash quoted. -/
def unescaped : List Char → List (Char × Bool)
  | '\\' :: c :: rest => (c, true) :: unescaped rest
  | c :: rest => (c, false) :: unescaped rest
  | [] => []

/-- The pattern that a text spells, with backslashes as quotes. -/
def ofEscaped (text : String) : Pattern := ofChars "!^" (unescaped text.toList)

/-- Does a pattern fit anything but one text? -/
def isOpen (p : Pattern) : Bool :=
  p.any fun
    | .char _ => false
    | _ => true

/-- What is left of a text when what fits is cut off at the beginning or at the end, as much or as
little as possible. -/
def trim (p : Pattern) (atEnd greedy : Bool) (text : String) : String :=
  let cs := text.toList
  let lengths := List.range (cs.length + 1)
  let lengths := if greedy then lengths.reverse else lengths
  let cut (n : Nat) : List Char := if atEnd then cs.drop (cs.length - n) else cs.take n
  match lengths.find? fun n => fits p (cut n) with
  | some n => String.ofList (if atEnd then cs.take (cs.length - n) else cs.drop n)
  | none => text

/-- The longest text from a position on that fits and is not empty: how many characters. -/
def longestAt (p : Pattern) (cs : List Char) : Option Nat :=
  ((List.range cs.length).reverse.map (· + 1)).find? fun n => fits p (cs.take n)

/-- Does a name in a folder fit?  A dot at its beginning must be spelled out. -/
def fitsName (p : Pattern) (name : String) : Bool :=
  (name.toList.head? != some '.' || p.head? == some (.char '.')) && fits p name.toList

/-- The paths that fit, when what stands before the pattern is known. -/
def pathsGo (v : View) : List Pattern → List Char → List (List Char)
  | [], before => [before]
  | p :: rest, before =>
    let slash : List Char := if rest.isEmpty then [] else ['/']
    if p.isOpen then
      let folder := if before.isEmpty then "." else String.ofList before
      match v.find folder with
      | .error _ => []
      | .ok s =>
        let names := "." :: ".." :: v.store.volume.listing s.node
        (names.filter (fitsName p)).flatMap fun name =>
          pathsGo v rest (before ++ name.toList ++ slash)
    else
      let name := p.filterMap fun
        | .char c => some c
        | _ => none
      let path := before ++ name
      if rest.isEmpty && !path.isEmpty && (v.nodeAt? (String.ofList path) false).isNone then []
      else pathsGo v rest (path ++ slash)

/-- The paths on a volume that fit a pattern, in the order of their texts. -/
def paths (p : Pattern) (v : View) : List String :=
  ((pathsGo v (p.splitOn (.char '/')) []).map String.ofList).filter
    fun path => (v.nodeAt? path false).isSome

end Pattern

end FolderTasks.Machine
