import FolderTasks.Json.Numeral
import FolderTasks.Json.Quoted
/-!
# JSON values and how they are written

A `Value` is what the library writes.  It has two written forms: a compact one on a single line
without blanks, and an indented one with a member or item a line.

## Main definitions

* `Value`: a JSON value, the members of an object in the order they are written.
* `Value.compact`, `Value.indented`: the two written forms.
-/

namespace FolderTasks.Json

/-- A JSON value to be written. -/
inductive Value where
  | null
  | bool (b : Bool)
  | number (n : Number)
  | text (s : String)
  | array (items : List Value)
  | object (members : List (String × Value))

namespace Value

instance : Inhabited Value := ⟨.null⟩

/-- A natural number. -/
def nat (n : Nat) : Value := .number (.natural n)

/-- An integer. -/
def int (i : Int) : Value :=
  if i < 0 then .number (.negative i.natAbs) else .number (.natural i.toNat)

/-- A list of texts. -/
def texts (ss : List String) : Value := .array (ss.map .text)

/-- A value or null. -/
def option {α : Type} (f : α → Value) : Option α → Value
  | none => .null
  | some a => f a

/-- A Boolean in writing. -/
def boolWord (b : Bool) : List Char := if b then ['t', 'r', 'u', 'e'] else ['f', 'a', 'l', 's', 'e']

mutual
/-- The compact form. -/
def compactChars : Value → List Char
  | .null => ['n', 'u', 'l', 'l']
  | .bool b => boolWord b
  | .number n => n.toText.toList
  | .text s => quoted s
  | .array items => '[' :: (compactItems true items ++ [']'])
  | .object members => '\x7b' :: (compactMembers true members ++ ['\x7d'])

/-- Items, with a comma before each but the first. -/
def compactItems : Bool → List Value → List Char
  | _, [] => []
  | isFirst, v :: rest =>
    (if isFirst then [] else [',']) ++ compactChars v ++ compactItems false rest

/-- Members, with a comma before each but the first. -/
def compactMembers : Bool → List (String × Value) → List Char
  | _, [] => []
  | isFirst, (key, v) :: rest =>
    (if isFirst then [] else [',']) ++ quoted key ++ [':'] ++ compactChars v ++
      compactMembers false rest
end

/-- A line break with two blanks for each level. -/
def lineBreak (level : Nat) : List Char := '\n' :: List.replicate (2 * level) ' '

mutual
/-- The indented form inside `level` arrays and objects.  An empty array or object stays on its
line. -/
def indentedChars : Nat → Value → List Char
  | _, .null => ['n', 'u', 'l', 'l']
  | _, .bool b => boolWord b
  | _, .number n => n.toText.toList
  | _, .text s => quoted s
  | _, .array [] => ['[', ']']
  | level, .array (v :: rest) =>
    '[' :: (lineBreak (level + 1) ++ indentedChars (level + 1) v ++
      indentedItems (level + 1) rest ++ lineBreak level ++ [']'])
  | _, .object [] => ['\x7b', '\x7d']
  | level, .object ((key, v) :: rest) =>
    '\x7b' :: (lineBreak (level + 1) ++ quoted key ++ [':', ' '] ++ indentedChars (level + 1) v ++
      indentedMembers (level + 1) rest ++ lineBreak level ++ ['\x7d'])

/-- The items after the first, each on a line of its own. -/
def indentedItems : Nat → List Value → List Char
  | _, [] => []
  | level, v :: rest =>
    ',' :: (lineBreak level ++ indentedChars level v ++ indentedItems level rest)

/-- The members after the first, each on a line of its own. -/
def indentedMembers : Nat → List (String × Value) → List Char
  | _, [] => []
  | level, (key, v) :: rest =>
    ',' :: (lineBreak level ++ quoted key ++ [':', ' '] ++ indentedChars level v ++
      indentedMembers level rest)
end

/-- The compact written form. -/
def compact (v : Value) : String := String.ofList v.compactChars

/-- The indented written form. -/
def indented (v : Value) : String := String.ofList (v.indentedChars 0)

end Value

end FolderTasks.Json
