import FolderTasks.Decimal.Shortest
/-!
# What a reader of JSON text meets, in the order it meets it

A JSON text that is decoded while it is being read can fail for two reasons: the text is not
JSON, or the value is not what the decoder wants.  Which of two failures is reported depends
on which comes first in the text.  A `Tree` keeps exactly that information: it is the text's
value up to the point where the text stops being JSON, with the fault standing at that point.

A value that a decoder does not care about is skipped, and skipping is more forgiving than
reading: an escape naming half a surrogate pair, or a number too large for a double, is a fault
only when it is read.  So every fault is recorded for both cases.

## Main definitions

* `Fault`: how a text fails to be JSON, malformed or ending too early.
* `Number`: an integer of 64 bits, or a double.
* `Tree`: a value with the faults that a reader meets in it.
* `Found`, `Tree.found`: what stands at a place.
* `Tree.skipFault?`, `Tree.captureFault?`: the first fault when a value is skipped, and when it
  is read whole with a bound on nesting.
-/

namespace FolderTasks.Json

open FolderTasks.Decimal

/-- How a text fails to be JSON. -/
inductive Fault where
  /-- A character stands where JSON does not allow it. -/
  | malformed
  /-- The text ends inside a value. -/
  | truncated
deriving DecidableEq, Repr

/-- A number of JSON text.  Whole numbers of 64 bits stay exact; all others are doubles. -/
inductive Number where
  /-- `n`, below `2 ^ 64`. -/
  | natural (n : Nat)
  /-- `-n`, with `0 < n ≤ 2 ^ 63`. -/
  | negative (n : Nat)
  /-- A double with its sign. -/
  | real (isNegative : Bool) (magnitude : Binary64)
deriving DecidableEq, Repr

/-- What stands at a place, as far as a message names it. -/
inductive Found where
  | null
  | bool (b : Bool)
  | number (n : Number)
  | text (s : String)
  | array
  | object
deriving DecidableEq, Repr

/-- The fault met at one place of the text, by a reader and by one who skips. -/
structure Break where
  reading : Fault
  skipping : Fault
  /-- Does the fault lie in a word or a number, as against a quoted text or no value at all? -/
  isUnquoted : Bool := false

/-- A fault that reading and skipping see alike. -/
def Break.both (f : Fault) : Break := { reading := f, skipping := f }

/-- The value of a JSON text, up to the first place where it stops being JSON. -/
inductive Tree where
  | null
  | bool (b : Bool)
  /-- A number; a fault when it is beyond every numeric type. -/
  | number (content : Except Fault Number)
  /-- A quoted text; a fault when an escape names half a surrogate pair. -/
  | text (content : Except Fault String)
  /-- The items of an array, and the fault that stands instead of its end. -/
  | array (items : List Tree) (cut : Option Break)
  /-- The members of an object in text order, and the fault that stands instead of its end. -/
  | object (members : List (Except Fault String × Tree)) (cut : Option Break)
  /-- No value can be read here. -/
  | broken (fault : Break)

namespace Tree

instance : Inhabited Tree := ⟨.null⟩

/-- What stands at the beginning of a value.  A scalar is read, so a fault in it comes first. -/
def found : Tree → Except Fault Found
  | .null => .ok .null
  | .bool b => .ok (.bool b)
  | .number content => content.map .number
  | .text content => content.map .text
  | .array _ _ => .ok .array
  | .object _ _ => .ok .object
  | .broken b => .error b.reading

mutual
/-- The first fault met when the value is skipped. -/
def skipFault? : Tree → Option Fault
  | .null | .bool _ | .number _ | .text _ => none
  | .array items cut => skipItems? items cut
  | .object members cut => skipMembers? members cut
  | .broken fault => some fault.skipping

/-- The first fault met when the rest of an array is skipped. -/
def skipItems? : List Tree → Option Break → Option Fault
  | [], cut => cut.map Break.skipping
  | t :: rest, cut => (skipFault? t).or (skipItems? rest cut)

/-- The first fault met when the rest of an object is skipped. -/
def skipMembers? : List (Except Fault String × Tree) → Option Break → Option Fault
  | [], cut => cut.map Break.skipping
  | (_, t) :: rest, cut => (skipFault? t).or (skipMembers? rest cut)
end

/-- The fault of a number or text that is read, if any. -/
def contentFault? {α : Type} : Except Fault α → Option Fault
  | .ok _ => none
  | .error f => some f

mutual
/-- The first fault met when the value is read whole, with at most `room` arrays and objects
inside one another: one more is a fault at its opening bracket. -/
def captureFault? : Nat → Tree → Option Fault
  | _, .null => none
  | _, .bool _ => none
  | _, .number content => contentFault? content
  | _, .text content => contentFault? content
  | 0, .array _ _ => some .malformed
  | 0, .object _ _ => some .malformed
  | room + 1, .array items cut => captureItems? room items cut
  | room + 1, .object members cut => captureMembers? room members cut
  | _, .broken fault => some fault.reading

/-- The first fault met when the rest of an array is read whole. -/
def captureItems? : Nat → List Tree → Option Break → Option Fault
  | _, [], cut => cut.map Break.reading
  | room, t :: rest, cut => (captureFault? room t).or (captureItems? room rest cut)

/-- The first fault met when the rest of an object is read whole. -/
def captureMembers? : Nat → List (Except Fault String × Tree) → Option Break → Option Fault
  | _, [], cut => cut.map Break.reading
  | room, (key, t) :: rest, cut =>
    (contentFault? key).or ((captureFault? room t).or (captureMembers? room rest cut))
end

/-- The member of an object under a key, the last of several. -/
def member? (key : String) : Tree → Option Tree
  | .object members _ =>
    (members.reverse.find? fun m => match m.1 with
      | .ok k => k == key
      | .error _ => false).map (·.2)
  | _ => none

/-- The items of an array. -/
def items? : Tree → Option (List Tree)
  | .array items _ => some items
  | _ => none

/-- The content of a quoted text. -/
def text? : Tree → Option String
  | .text (.ok s) => some s
  | _ => none

/-- A Boolean. -/
def bool? : Tree → Option Bool
  | .bool b => some b
  | _ => none

/-- A natural number. -/
def nat? : Tree → Option Nat
  | .number (.ok (.natural n)) => some n
  | _ => none

/-- An integer. -/
def int? : Tree → Option Int
  | .number (.ok (.natural n)) => some n
  | .number (.ok (.negative n)) => some (-(n : Int))
  | _ => none

end Tree

end FolderTasks.Json
