import FolderTasks.Machine.Utility.Showing
/-!
# Copying block by block

A file is copied in blocks of some size; how many are copied, and where in the files it begins, can
be told.

## Main definitions

* `Utility.Blocks.Wish`: what is to be copied.
* `Utility.Blocks.read`: the wish that some arguments spell.
* `Utility.dd`: the program.
-/

namespace FolderTasks.Machine

open Files

namespace Utility

namespace Blocks

/-- What is to be copied. -/
structure Wish where
  input : Option String := none
  output : Option String := none
  size : Nat := 512
  count : Option Nat := none
  /-- The blocks that are left out at the beginning of the input, and of the output. -/
  skipped : Nat := 0
  sought : Nat := 0
  conversions : List String := []
  /-- How much is told in the end. -/
  status : String := ""

/-- What is wrong with an argument. -/
inductive Mistake where
  | operand (text : String)
  | number (text : String)
  | conversion (text : String)
  | status (text : String)

/-- The wording of a mistake. -/
def Mistake.message : Mistake → String
  | .operand text => "unrecognized operand " ++ quoted text ++ "\n" ++ adviceFor "dd"
  | .number text => "invalid number: " ++ quoted text
  | .conversion text => "invalid conversion: " ++ quoted text ++ "\n" ++ adviceFor "dd"
  | .status text => "invalid status level: " ++ quoted text ++ "\n" ++ adviceFor "dd"

/-- The conversions that are known. -/
def knownConversions : List String :=
  ["notrunc", "lcase", "ucase", "excl", "nocreat", "noerror", "sync", "fsync", "fdatasync"]

/-- A number that is not zero, or any number if that is allowed. -/
def readNumber (allowsZero : Bool) (text : String) : Except Mistake Nat :=
  match sized? text with
  | some n => if n = 0 && !allowsZero then .error (.number text) else .ok n
  | none => .error (.number text)

/-- Take in one argument. -/
def Wish.take (w : Wish) (a : String) : Except Mistake Wish :=
  let name := a.toList.takeWhile (· != '=')
  let value := String.ofList (a.toList.drop (name.length + 1))
  if name.length = a.length then .error (.operand a)
  else match String.ofList name with
    | "if" => .ok { w with input := some value }
    | "of" => .ok { w with output := some value }
    | "bs" | "ibs" | "obs" => do .ok { w with size := ← readNumber false value }
    | "count" => do .ok { w with count := some (← readNumber true value) }
    | "skip" => do .ok { w with skipped := ← readNumber true value }
    | "seek" => do .ok { w with sought := ← readNumber true value }
    | "status" =>
      if ["none", "noxfer", "progress"].contains value then .ok { w with status := value }
      else .error (.status value)
    | "conv" =>
      let parts := (value.toList.splitOn ',').map String.ofList
      match parts.find? fun part => !(knownConversions.contains part) with
      | some part => .error (.conversion part)
      | none => .ok { w with conversions := parts }
    | "iflag" | "oflag" => .ok w
    | _ => .error (.operand a)

/-- The wish that some arguments spell. -/
def read (args : List String) : Except Mistake Wish := args.foldlM Wish.take {}

/-- A block as it is written. -/
def Wish.convert (w : Wish) (bs : Bytes) : Bytes :=
  let cs := (textOf bs).toList
  if w.conversions.contains "ucase" then bytesOf (String.ofList (cs.map Char.toUpper))
  else if w.conversions.contains "lcase" then bytesOf (String.ofList (cs.map Char.toLower))
  else bs

/-- Have the next writer of a file begin after so many bytes. -/
def seek (channel position : Nat) : Course Unit := do
  let v ← Course.look
  match (v.context.opened? channel).bind fun n => (v.store.opened[n]?).map (n, ·) with
  | some (n, o) =>
    let o := { o with position := o.position + position }
    Course.change { v with store := { v.store with opened := v.store.opened.set! n o } }
  | none => pure ()

/-- How many whole blocks and how many shorter ones were copied, and how many bytes. -/
structure Tally where
  whole : Nat := 0
  short : Nat := 0
  bytes : Nat := 0

/-- The numbers of blocks, as they are told. -/
def Tally.records (t : Tally) : String := toString t.whole ++ "+" ++ toString t.short ++ " records "

/-- Copy block after block; the answer says also what went wrong with reading. -/
def copy (w : Wish) (source target : Nat) : Nat → Tally → Course (Tally × Option Fault)
  | 0, _ => Course.spin
  | fuel + 1, t => do
    if w.count.any (· ≤ t.whole + t.short) then pure (t, none)
    else match ← Course.read source w.size with
      | .error fault => pure (t, some fault)
      | .ok [] => pure (t, none)
      | .ok bs =>
        match ← Course.write target (w.convert bs) with
        | .error fault =>
          object "dd" ("error writing " ++ quoted (w.output.getD "standard output") ++ ": " ++
            fault.reason)
          Course.stop (.exited 1)
        | .ok () =>
          let isWhole := bs.length == w.size
          copy w source target fuel
            { whole := t.whole + (if isWhole then 1 else 0)
              short := t.short + (if isWhole then 0 else 1)
              bytes := t.bytes + bs.length }

/-- Leave out so many blocks. -/
def skip (w : Wish) (source : Nat) : Nat → Course Unit
  | 0 => pure ()
  | count + 1 => do
    let _ ← Course.read source w.size
    skip w source count

/-- Open a file on a channel that is free, or end with a complaint. -/
def openFor (path : String) (p : Purpose) : Course Nat := do
  let channel := (← Course.look).context.freeChannel 3
  match ← Course.openPathOn channel path p with
  | .ok () => pure channel
  | .error fault =>
    object "dd" ("failed to open " ++ quoted path ++ ": " ++ fault.reason)
    Course.stop (.exited 1)

end Blocks

open Blocks in
/-- Copy a file block by block. -/
def dd : Utility := fun args => do
  match Options.read {} args with
  | .error mistake => misuse "dd" mistake.message
  | .ok g => match Blocks.read g.operands with
    | .error mistake =>
      object "dd" mistake.message
      pure 1
    | .ok w =>
      let source ← match w.input with
        | some path => openFor path .toRead
        | none => pure 0
      let keeps := w.conversions.contains "notrunc" || 0 < w.sought
      let target ← match w.output with
        | some path => openFor path { Purpose.toWrite with
            empties := !keeps, isNew := w.conversions.contains "excl"
            creates := !w.conversions.contains "nocreat" }
        | none => pure 1
      skip w source w.skipped
      seek target (w.sought * w.size)
      let (t, fault?) ← copy w source target Course.manyReads {}
      fault?.forM fun fault =>
        object "dd" ("error reading " ++ quoted (w.input.getD "standard input") ++ ": " ++
          fault.reason)
      if w.status != "none" then
        Course.complain (t.records ++ "in\n" ++ t.records ++ "out")
        if w.status != "noxfer" then
          Course.complain (toString t.bytes ++ " bytes copied, 0 s, 0.0 kB/s")
      pure (if fault?.isSome then 1 else 0)

end Utility

end FolderTasks.Machine
