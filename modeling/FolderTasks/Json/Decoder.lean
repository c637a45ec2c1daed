import FolderTasks.Json.Reader
import FolderTasks.Text.Quoted
/-!
# Decoding values out of trees

A decoder walks a `Tree` in text order and stops at the first thing it cannot accept, be it a
fault of the text or a value of the wrong kind.

Records are decoded from an object, whose members may come in any order and may include unknown
ones, or from an array that lists the fields in their declared order.  Sums are told apart by a
tag, which may stand anywhere in an object or first in an array; the other members are set
aside until the tag is known.

## Main definitions

* `Complaint`: what is wrong with a value; `Complaint.message` words it.
* `Flaw`: why a text cannot be decoded.
* `decodeText`, `decodeFlag`, `decodeList`, … : the plain kinds of value.
* `RecordShape`: a record described by its fields, with `RecordShape.decode`.
* `SumShape`: a tagged sum described by its variants, with `SumShape.decode`.
* `decodeDocument`: a value that must make up a whole text.
-/

namespace FolderTasks.Json

/-- The wording of what was found. -/
def Found.message : Found → String
  | .null => "null"
  | .bool true => "boolean `true`"
  | .bool false => "boolean `false`"
  | .number (.real isNegative x) => "floating point `" ++ (Number.real isNegative x).toText ++ "`"
  | .number n => "integer `" ++ n.toText ++ "`"
  | .text s => "string " ++ Text.quote s
  | .array => "sequence"
  | .object => "map"

/-- What is wrong with a value of well-formed JSON. -/
inductive Complaint where
  /-- A value of another kind was expected. -/
  | wrongType (found : Found) (expected : String)
  /-- The kind is right and the value is not. -/
  | wrongValue (found : Found) (expected : String)
  /-- An array has too few or too many items. -/
  | wrongLength (length : Nat) (expected : String)
  /-- A field is left out. -/
  | missingField (name : String)
  /-- A field is given twice. -/
  | duplicateField (name : String)
  /-- A name is none of the known ones. -/
  | unknownVariant (name : String) (known : List String)
  /-- A text is not in the format it should have. -/
  | unreadable (reason : String)
deriving DecidableEq, Repr

/-- The known names of a choice: two are joined by "or", more are listed. -/
def oneOf (known : List String) : String :=
  match known with
  | [] => "there are no variants"
  | [a] => "`" ++ a ++ "`"
  | [a, b] => "`" ++ a ++ "` or `" ++ b ++ "`"
  | names => "one of " ++ String.intercalate ", " (names.map fun n => "`" ++ n ++ "`")

/-- The wording of a complaint. -/
def Complaint.message : Complaint → String
  | .wrongType found expected => "invalid type: " ++ found.message ++ ", expected " ++ expected
  | .wrongValue found expected => "invalid value: " ++ found.message ++ ", expected " ++ expected
  | .wrongLength n expected => "invalid length " ++ toString n ++ ", expected " ++ expected
  | .missingField name => "missing field `" ++ name ++ "`"
  | .duplicateField name => "duplicate field `" ++ name ++ "`"
  | .unknownVariant name known => "unknown variant `" ++ name ++ "`, expected " ++ oneOf known
  | .unreadable reason => reason

/-- Why a text cannot be decoded. -/
inductive Flaw where
  /-- The text is not JSON. -/
  | fault (f : Fault)
  /-- The value is not what it should be. -/
  | data (c : Complaint)
deriving DecidableEq, Repr

/-- The outcome of decoding. -/
abbrev Decoded (α : Type) := Except Flaw α

/-- A decoder of values. -/
abbrev Decoder (α : Type) := Tree → Decoded α

/-- Stop at a complaint. -/
def complain {α : Type} (c : Complaint) : Decoded α := .error (.data c)

/-- Stop at a fault of the text. -/
def faulty {α : Type} (f : Fault) : Decoded α := .error (.fault f)

/-- Go on unless the text breaks off here. -/
def unlessCut {α : Type} (cut : Option Break) (next : Decoded α) : Decoded α :=
  match cut with
  | some b => faulty b.reading
  | none => next

/-- Refuse what stands at a place for its kind. -/
def refuseFound {α : Type} (expected : String) : Except Fault Found → Decoded α
  | .ok found => complain (.wrongType found expected)
  | .error f => faulty f

/-- Refuse a value for its kind.  A scalar is read first, so a fault in it comes first. -/
def refuse {α : Type} (expected : String) : Decoder α := fun t => refuseFound expected t.found

/-- Pass over a value that is not wanted. -/
def ignore (t : Tree) : Decoded Unit :=
  match t.skipFault? with
  | some f => faulty f
  | none => .ok ()

/-! ## Plain values -/

/-- A text, named as `expected` in a complaint. -/
def decodeTextAs (expected : String) : Decoder String
  | .text (.ok s) => .ok s
  | t => refuse expected t

/-- A text. -/
def decodeText : Decoder String := decodeTextAs "a string"

/-- A Boolean. -/
def decodeFlag : Decoder Bool
  | .bool b => .ok b
  | t => refuse "a boolean" t

/-- A natural number below `2 ^ 64`. -/
def decodeWord : Decoder Nat
  | .number (.ok (.natural n)) => .ok n
  | .number (.ok (.negative n)) => complain (.wrongValue (.number (.negative n)) "u64")
  | t => refuse "u64" t

/-- An integer of 32 bits. -/
def decodeInt : Decoder Int
  | .number (.ok (.natural n)) =>
    if n < Nat.pow 2 31 then .ok n else complain (.wrongValue (.number (.natural n)) "i32")
  | .number (.ok (.negative n)) =>
    if n ≤ Nat.pow 2 31 then .ok (-(n : Int))
    else complain (.wrongValue (.number (.negative n)) "i32")
  | t => refuse "i32" t

/-- A value or null. -/
def decodeOption {α : Type} (decode : Decoder α) : Decoder (Option α)
  | .null => .ok none
  | t => (decode t).map some

/-- The items of an array, one after the other. -/
def decodeItems {α : Type} (decode : Decoder α) : List Tree → Option Break → Decoded (List α)
  | [], cut => unlessCut cut (.ok [])
  | t :: rest, cut => do
    let a ← decode t
    let as ← decodeItems decode rest cut
    return a :: as

/-- A list. -/
def decodeList {α : Type} (decode : Decoder α) : Decoder (List α)
  | .array items cut => decodeItems decode items cut
  | t => refuse "a sequence" t

/-- The members of an object, one after the other. -/
def decodePairs {α : Type} (decode : Decoder α) :
    List (Except Fault String × Tree) → Option Break → Decoded (List (String × α))
  | [], cut => unlessCut cut (.ok [])
  | (.error f, _) :: _, _ => faulty f
  | (.ok key, t) :: rest, cut => do
    let a ← decode t
    let as ← decodePairs decode rest cut
    return (key, a) :: as

/-- The pairs of a map in text order; a key may occur several times. -/
def decodeMap {α : Type} (decode : Decoder α) : Decoder (List (String × α))
  | .object members cut => decodePairs decode members cut
  | t => refuse "a map" t

/-! ## Records -/

/-- A field of a record that is filled in step by step, the record so far being a `P`. -/
structure FieldShape (P : Type) where
  /-- The field's name. -/
  name : String
  /-- Has the field been given? -/
  isGiven : P → Bool
  /-- Read the field's value into the record. -/
  read : P → Decoder P
  /-- May an array end before this field? -/
  isOptional : Bool

/-- A record: its description in complaints, its fields in their declared order, how a record
without any field looks and what is made of the fields in the end. -/
structure RecordShape (P α : Type) where
  description : String
  fields : List (FieldShape P)
  blank : P
  finish : P → Except Complaint α

/-- The wording of a number of elements. -/
def elements (n : Nat) : String :=
  if n = 1 then "1 element" else toString n ++ " elements"

namespace RecordShape

variable {P α : Type}

/-- The field of a name. -/
def field? (shape : RecordShape P α) (name : String) : Option (FieldShape P) :=
  shape.fields.find? fun f => f.name == name

/-- Take in one member of an object.  Members of unknown name are passed over. -/
def readMember (shape : RecordShape P α) (part : P) (key : String) (t : Tree) : Decoded P :=
  match shape.field? key with
  | none => (ignore t).map fun _ => part
  | some f => if f.isGiven part then complain (.duplicateField f.name) else f.read part t

/-- Take in the members of an object in text order. -/
def readMembers (shape : RecordShape P α) :
    P → List (Except Fault String × Tree) → Option Break → Decoded P
  | part, [], cut => unlessCut cut (.ok part)
  | _, (.error f, _) :: _, _ => faulty f
  | part, (.ok key, t) :: rest, cut => do
    let part ← shape.readMember part key t
    shape.readMembers part rest cut

/-- What is wrong when an array ends before a field that it needs. -/
def tooShort (shape : RecordShape P α) (length : Nat) : Complaint :=
  .wrongLength length (shape.description ++ " with " ++ elements shape.fields.length)

/-- Fill fields in order from the items of an array: the record, with the items left over.
`done` counts the fields before these. -/
def readItems (shape : RecordShape P α) :
    Nat → P → List (FieldShape P) → List Tree → Option Break → Decoded (P × List Tree)
  | _, part, [], items, _ => .ok (part, items)
  | done, part, f :: fields, [], cut =>
    unlessCut cut
      (if f.isOptional then shape.readItems (done + 1) part fields [] cut
      else complain (shape.tooShort done))
  | done, part, f :: fields, t :: items, cut => do
    let part ← f.read part t
    shape.readItems (done + 1) part fields items cut

/-- Make the value of a record out of its fields. -/
def complete (shape : RecordShape P α) (part : P) : Decoded α :=
  match shape.finish part with
  | .ok a => .ok a
  | .error c => complain c

/-- The record of an object. -/
def ofMembers (shape : RecordShape P α) (members : List (Except Fault String × Tree))
    (cut : Option Break) : Decoded α := do
  let part ← shape.readMembers shape.blank members cut
  shape.complete part

/-- The record of an array; an item too many is a fault of the text. -/
def ofItems (shape : RecordShape P α) (items : List Tree) (cut : Option Break) : Decoded α := do
  let (part, rest) ← shape.readItems 0 shape.blank shape.fields items cut
  if rest.isEmpty then unlessCut cut (shape.complete part) else faulty .malformed

/-- A record. -/
def decode (shape : RecordShape P α) : Decoder α
  | .object members cut => shape.ofMembers members cut
  | .array items cut => shape.ofItems items cut
  | t => refuse shape.description t

/-- The record of an array whose items are known to be sound; an item too many is complained
about. -/
def ofSoundItems (shape : RecordShape P α) (items : List Tree) : Decoded α := do
  let (part, rest) ← shape.readItems 0 shape.blank shape.fields items none
  if rest.isEmpty then shape.complete part
  else complain (.wrongLength items.length (elements shape.fields.length ++ " in sequence"))

end RecordShape

/-! ## Tagged sums -/

/-- What stands beside the tag of a sum: the other members of an object, or the items of an
array after the first. -/
inductive Beside where
  | members (ms : List (Except Fault String × Tree))
  | items (ts : List Tree)

/-- The number of arrays and objects that may stand inside one another in what is set aside. -/
def greatestNesting : Nat := 127

/-- A sum: its name, the name of its tag, and for each variant's name the decoder of what stands
beside the tag. -/
structure SumShape (α : Type) where
  name : String
  tag : String
  variants : List (String × (Beside → Decoded α))

namespace SumShape

variable {α : Type}

/-- The variant that a tag's value names. -/
def variant (shape : SumShape α) (t : Tree) : Decoded (Beside → Decoded α) := do
  let name ← decodeTextAs "variant identifier" t
  match shape.variants.find? fun v => v.1 == name with
  | some v => return v.2
  | none => complain (.unknownVariant name (shape.variants.map (·.1)))

/-- Set a value aside: it is read whole. -/
def setAside (room : Nat) (t : Tree) : Decoded Unit :=
  match t.captureFault? room with
  | some f => faulty f
  | none => .ok ()

/-- Sort the members of an object into the tag and the others, in text order. -/
def sortMembers (shape : SumShape α) (room : Nat) :
    Option (Beside → Decoded α) → List (Except Fault String × Tree) → Option Break →
      Decoded (Option (Beside → Decoded α) × List (Except Fault String × Tree))
  | tag, [], cut => unlessCut cut (.ok (tag, []))
  | _, (.error f, _) :: _, _ => faulty f
  | tag, (.ok key, t) :: rest, cut =>
    if key = shape.tag then
      if tag.isSome then complain (.duplicateField shape.tag)
      else do
        let v ← shape.variant t
        shape.sortMembers room (some v) rest cut
    else do
      setAside room t
      let (tag, others) ← shape.sortMembers room tag rest cut
      return (tag, (.ok key, t) :: others)

/-- Set the items of an array aside, in text order. -/
def setItemsAside (room : Nat) : List Tree → Option Break → Decoded Unit
  | [], cut => unlessCut cut (.ok ())
  | t :: rest, cut => do
    setAside room t
    setItemsAside room rest cut

/-- A tagged sum, standing inside `depth` arrays and objects. -/
def decode (shape : SumShape α) (depth : Nat) : Decoder α
  | .object members cut => do
    let (tag, others) ← shape.sortMembers (greatestNesting - depth - 1) none members cut
    match tag with
    | some variant => variant (.members others)
    | none => complain (.missingField shape.tag)
  | .array [] cut => unlessCut cut (complain (.missingField shape.tag))
  | .array (t :: items) cut => do
    let variant ← shape.variant t
    setItemsAside (greatestNesting - depth - 1) items cut
    variant (.items items)
  | t => refuse ("internally tagged enum " ++ shape.name) t

/-- A variant without fields: whatever members stand beside the tag are passed over. -/
def plainVariant (a : α) : Beside → Decoded α
  | .members _ => .ok a
  | .items [] => .ok a
  | .items ts => complain (.wrongLength ts.length (elements 0 ++ " in sequence"))

/-- A variant with fields. -/
def recordVariant {P : Type} (shape : RecordShape P α) : Beside → Decoded α
  | .members ms => shape.ofMembers ms none
  | .items ts => shape.ofSoundItems ts

end SumShape

/-- A value that makes up a whole text.  What follows it is looked at last. -/
def decodeDocument {α : Type} (decode : Decoder α) (d : Document) : Decoded α := do
  let a ← decode d.root
  if d.hasMore then faulty .malformed else return a

/-- A value that makes up a whole text. -/
def decodeString {α : Type} (decode : Decoder α) (s : String) : Decoded α :=
  decodeDocument decode (Document.ofString s)

end FolderTasks.Json
