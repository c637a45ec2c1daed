import FolderTasks.Json.Numeral
import FolderTasks.Json.Quoted
/-!
# Reading JSON text

The reader turns a text into the `Tree` of its value.  It never refuses: where the text stops
being JSON the tree says so, and the reading ends there.  What stands in the tree after the
first fault has no meaning, since everybody who walks the tree in text order stops at the fault.

## Main definitions

* `scanValue`: the value at the beginning of a text, with what follows it.
* `Document`: the value of a whole text, and whether anything but blanks follows it.
* `Document.ofString`: the document of a text.
-/

namespace FolderTasks.Json

/-- The four blanks of JSON. -/
def isBlank (c : Char) : Bool := c == ' ' || c == '\t' || c == '\n' || c == '\r'

/-- The text after its leading blanks. -/
def skipBlanks (cs : List Char) : List Char := cs.dropWhile isBlank

/-- The rest of a literal word after its first letter. -/
def scanWord (word : List Char) (value : Tree) (cs : List Char) : Tree × List Char :=
  match word, cs with
  | [], rest => (value, rest)
  | _ :: _, [] => (.broken { Break.both .truncated with isUnquoted := true }, [])
  | w :: word, c :: cs =>
    if w = c then scanWord word value cs else (.broken (.both .malformed), [])

/-- The numeral at the beginning of a text. -/
def scanNumber (cs : List Char) : Tree × List Char :=
  match Numeral.scan cs with
  | .ok (n, rest) => match n.number with
    | some number => (.number (.ok number), rest)
    | none => (.number (.error .malformed), rest)
  | .error fault => (.broken { fault with isUnquoted := true }, [])

/-- The quoted text after its opening quote. -/
def scanText (cs : List Char) : Tree × List Char :=
  match scanQuoted cs with
  | .ok (content, rest) => (.text content, rest)
  | .error fault => (.broken fault, [])

mutual
/-- The value at the beginning of a text, and what follows it.  At most three steps are
made for one character, so three times the length of the text is fuel enough. -/
def scanValue : Nat → List Char → Tree × List Char
  | 0, _ => (.broken (.both .truncated), [])
  | fuel + 1, cs =>
    match skipBlanks cs with
    | [] => (.broken (.both .truncated), [])
    | c :: rest =>
      if c = 'n' then scanWord ['u', 'l', 'l'] .null rest
      else if c = 't' then scanWord ['r', 'u', 'e'] (.bool true) rest
      else if c = 'f' then scanWord ['a', 'l', 's', 'e'] (.bool false) rest
      else if c = '"' then scanText rest
      else if c = '[' then
        let (items, cut, after) := scanItems fuel true rest
        (.array items cut, after)
      else if c = '\x7b' then
        let (members, cut, after) := scanMembers fuel true rest
        (.object members cut, after)
      else if c = '-' || Numeral.isDigit c then scanNumber (c :: rest)
      else (.broken (.both .malformed), [])

/-- The rest of an array.  Before every item but the first stands a comma, and a comma wants
an item after it. -/
def scanItems : Nat → Bool → List Char → List Tree × Option Break × List Char
  | 0, _, _ => ([], some (.both .truncated), [])
  | fuel + 1, isFirst, cs =>
    match skipBlanks cs with
    | [] => ([], some (.both .truncated), [])
    | c :: rest =>
      if c = ']' then ([], none, rest)
      else if isFirst then scanItem fuel (c :: rest)
      else if c = ',' then
        match skipBlanks rest with
        | ']' :: _ => ([.broken (.both .malformed)], none, [])
        | after => scanItem fuel after
      else ([], some (.both .malformed), [])

/-- An item and the rest of its array. -/
def scanItem : Nat → List Char → List Tree × Option Break × List Char
  | 0, _ => ([], some (.both .truncated), [])
  | fuel + 1, cs =>
    let (item, rest) := scanValue fuel cs
    let (items, cut, after) := scanItems fuel false rest
    (item :: items, cut, after)

/-- The rest of an object. -/
def scanMembers : Nat → Bool → List Char →
    List (Except Fault String × Tree) × Option Break × List Char
  | 0, _, _ => ([], some (.both .truncated), [])
  | fuel + 1, isFirst, cs =>
    match skipBlanks cs with
    | [] => ([], some (.both .truncated), [])
    | c :: rest =>
      if c = '\x7d' then ([], none, rest)
      else if isFirst then scanMember fuel (c :: rest)
      else if c = ',' then scanMember fuel (skipBlanks rest)
      else ([], some (.both .malformed), [])

/-- A member and the rest of its object.  A key that breaks off counts as a member. -/
def scanMember : Nat → List Char →
    List (Except Fault String × Tree) × Option Break × List Char
  | 0, _ => ([], some (.both .truncated), [])
  | _ + 1, [] => ([(.error .truncated, .broken (.both .truncated))], none, [])
  | fuel + 1, c :: cs =>
    if c = '"' then
      match scanQuoted cs with
      | .error fault => ([(.error fault.reading, .broken fault)], none, [])
      | .ok (key, rest) =>
        match skipBlanks rest with
        | [] => ([(key, .broken (.both .truncated))], none, [])
        | d :: rest =>
          if d = ':' then
            let (value, rest) := scanValue fuel rest
            let (members, cut, after) := scanMembers fuel false rest
            ((key, value) :: members, cut, after)
          else ([(key, .broken (.both .malformed))], none, [])
    else ([], some (.both .malformed), [])
end

/-- A whole JSON text. -/
structure Document where
  /-- The value at its beginning. -/
  root : Tree
  /-- Does anything but blanks follow the value? -/
  hasMore : Bool

/-- The document of a text. -/
def Document.ofString (s : String) : Document :=
  let cs := s.toList
  let (root, rest) := scanValue (3 * cs.length + 3) cs
  ⟨root, (skipBlanks rest).length != 0⟩

end FolderTasks.Json
