/-!
# Bytes and lines

What programs write is bytes.  Whoever reads along takes lines of text from them.

Programs themselves know bytes only: within the machine a text is a row of bytes, each as the
character of the same number, so that its length and its order are those of the bytes.

## Main definitions

* `Machine.inner`, `Machine.outer?`: a text as programs see it, and the way back.
* `Machine.bytesOf`, `Machine.textOf`: the bytes of a text within the machine, and the way back.
* `Machine.lines`: the lines of an output.
* `Machine.readableLines`: its lines as texts, up to the first that is no UTF-8.
-/

namespace FolderTasks.Machine

/-- What a program writes or reads. -/
abbrev Bytes := List UInt8

/-- The text that has certain bytes, each as a character. -/
def textOf (bs : Bytes) : String := String.ofList (bs.map fun b => Char.ofNat b.toNat)

/-- The bytes of a text within the machine. -/
def bytesOf (s : String) : Bytes := s.toList.map fun c => UInt8.ofNat c.toNat

/-- A text as programs see it: the bytes of its UTF-8 form. -/
def inner (s : String) : String := textOf s.toUTF8.toList

/-- The text of some bytes, if they are UTF-8. -/
def decodeText? (bs : Bytes) : Option String := String.fromUTF8? ⟨bs.toArray⟩

/-- The text that programs see in this way, if there is one. -/
def outer? (s : String) : Option String := decodeText? (bytesOf s)

/-- A line feed. -/
def lineFeed : UInt8 := 10

/-- A carriage return. -/
def carriageReturn : UInt8 := 13

/-- A reversed line without the carriage return at its end. -/
def trimReturn : Bytes → Bytes
  | b :: rest => if b = carriageReturn then rest else b :: rest
  | [] => []

/-- The lines of an output, with the reversed beginning of the current line. -/
def linesGo (current : Bytes) : Bytes → List Bytes
  | [] => if current = [] then [] else [current.reverse]
  | b :: rest =>
    if b = lineFeed then (trimReturn current).reverse :: linesGo [] rest
    else linesGo (b :: current) rest

/-- The lines of an output.  A line ends with a line feed; the line feed and a carriage return
before it do not belong to it.  The last line may go without. -/
def lines (bs : Bytes) : List Bytes := linesGo [] bs

/-- Some lines as texts, up to the first that is no UTF-8. -/
def readable : List Bytes → List String
  | [] => []
  | line :: rest => match decodeText? line with
    | some s => s :: readable rest
    | none => []

/-- The lines of an output as texts, up to the first that is no UTF-8. -/
def readableLines (bs : Bytes) : List String := readable (lines bs)

end FolderTasks.Machine
