import FolderTasks.Machine.Bytes
/-!
# Backslash escapes

Programs that print let a text name bytes by escapes: letters for the usual controls and octal
numbers for any byte.

## Main definitions

* `Escape.Style`: how numbers are written.
* `Escape.expand`: the bytes of a text with escapes.
-/

namespace FolderTasks.Machine.Escape

/-- How bytes are named by number. -/
structure Style where
  /-- Do octal numbers begin with a zero, which does not count as one of their digits? -/
  leadingZero : Bool
  /-- May a number also be hexadecimal? -/
  allowsHex : Bool
deriving DecidableEq, Repr

/-- The byte of a letter after a backslash. -/
def control? : Char → Option UInt8
  | 'a' => some 7
  | 'b' => some 8
  | 'e' => some 27
  | 'f' => some 12
  | 'n' => some 10
  | 'r' => some 13
  | 't' => some 9
  | 'v' => some 11
  | '\\' => some 92
  | _ => none

/-- The value of a digit in a base of at most sixteen. -/
def digit? (base : Nat) (c : Char) : Option Nat :=
  let value :=
    if c.isDigit then c.toNat - 48
    else if 97 ≤ c.toNat && c.toNat ≤ 102 then c.toNat - 87
    else if 65 ≤ c.toNat && c.toNat ≤ 70 then c.toNat - 55
    else base
  if value < base then some value else none

/-- The number at the beginning of a text, of at most `limit` digits; how many it has, and the
rest. -/
def number (base limit : Nat) (cs : List Char) : Nat × Nat × List Char :=
  let digits := (cs.take limit).takeWhile fun c => (digit? base c).isSome
  (digits.foldl (fun n c => n * base + (digit? base c).getD 0) 0, digits.length,
    cs.drop digits.length)

/-- What follows a backslash. -/
inductive Escaped where
  | byte (b : UInt8) (rest : List Char)
  /-- Nothing more is printed at all. -/
  | stop
  /-- It is no escape. -/
  | plain

/-- Read what follows a backslash. -/
def read (style : Style) : List Char → Escaped
  | [] => .plain
  | c :: rest =>
    match control? c with
    | some b => .byte b rest
    | none =>
      if c = 'c' && style.leadingZero then .stop
      else if c = '0' && style.leadingZero then
        let (n, _, rest) := number 8 3 rest
        .byte (UInt8.ofNat n) rest
      else if c = 'x' && style.allowsHex then
        match number 16 2 rest with
        | (_, 0, _) => .plain
        | (n, _, rest) => .byte (UInt8.ofNat n) rest
      else if (digit? 8 c).isSome then
        let (n, _, rest) := number 8 3 (c :: rest)
        .byte (UInt8.ofNat n) rest
      else if c = '\x22' && !style.leadingZero then .byte 34 rest
      else .plain

/-- The bytes of a text with escapes, and whether it stops all printing.  Every round takes a
character at least, so as many rounds as there are characters are enough. -/
def expandGo (style : Style) : Nat → List Char → Bytes × Bool
  | 0, _ | _, [] => ([], false)
  | fuel + 1, c :: rest =>
    let keep (bs : Bytes) (rest : List Char) : Bytes × Bool :=
      let (more, stops) := expandGo style fuel rest
      (bs ++ more, stops)
    if c = '\\' then match read style rest with
      | .byte b rest => keep [b] rest
      | .stop => ([], true)
      | .plain => keep [92] rest
    else keep (bytesOf (String.singleton c)) rest

/-- The bytes of a text with escapes, and whether it stops all printing. -/
def expand (style : Style) (text : String) : Bytes × Bool :=
  let cs := text.toList
  expandGo style cs.length cs

end FolderTasks.Machine.Escape
