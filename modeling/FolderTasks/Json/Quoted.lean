import FolderTasks.Json.Tree
/-!
# Quoted text

A quoted text holds any character but a bare quote, a backslash and the control characters
below the blank; all of these can be written by escapes.  An escape of four hexadecimal digits
names a unit of sixteen bits, and a character beyond those is named by two of them.

## Main definitions

* `escape`, `quoted`: the written form of a text.
* `unquote`: what the rest of a quoted text means, and what follows its closing quote.
* `skipQuoted`: where a quoted text ends, with escapes looked at only as far as needed.
-/

namespace FolderTasks.Json

/-- The lower-case hexadecimal digit of a number below sixteen. -/
def hexDigit (n : Nat) : Char :=
  if n < 10 then Char.ofNat ('0'.toNat + n) else Char.ofNat ('a'.toNat + (n - 10))

/-- How one character is written between quotes. -/
def escapeChar (c : Char) : List Char :=
  if c = '"' then ['\\', '"']
  else if c = '\\' then ['\\', '\\']
  else if c = '\n' then ['\\', 'n']
  else if c = '\r' then ['\\', 'r']
  else if c = '\t' then ['\\', 't']
  else if c = '\x08' then ['\\', 'b']
  else if c = '\x0c' then ['\\', 'f']
  else if c.toNat < 0x20 then
    ['\\', 'u', '0', '0', hexDigit (c.toNat / 16), hexDigit (c.toNat % 16)]
  else [c]

/-- The written form of a text, without its quotes. -/
def escape : List Char → List Char
  | [] => []
  | c :: rest => escapeChar c ++ escape rest

/-- A text between quotes. -/
def quoted (s : String) : List Char := '"' :: (escape s.toList ++ ['"'])

/-- The value of a hexadecimal digit of either case. -/
def hexValue? (c : Char) : Option Nat :=
  if '0' ≤ c && c ≤ '9' then some (c.toNat - '0'.toNat)
  else if 'a' ≤ c && c ≤ 'f' then some (c.toNat - 'a'.toNat + 10)
  else if 'A' ≤ c && c ≤ 'F' then some (c.toNat - 'A'.toNat + 10)
  else none

/-- Do at least four bytes of UTF-8 remain? -/
def hasFourBytes : List Char → Bool
  | a :: b :: c :: d :: _ => 4 ≤ a.utf8Size + b.utf8Size + c.utf8Size + d.utf8Size
  | cs => 4 ≤ cs.foldl (fun n c => n + c.utf8Size) 0

/-- The sixteen bits named by four hexadecimal digits, and what follows them. -/
def hexUnit (cs : List Char) : Except Fault (Nat × List Char) :=
  if hasFourBytes cs then
    match cs with
    | a :: b :: c :: d :: rest =>
      match hexValue? a, hexValue? b, hexValue? c, hexValue? d with
      | some a, some b, some c, some d => .ok (((a * 16 + b) * 16 + c) * 16 + d, rest)
      | _, _, _, _ => .error .malformed
    | _ => .error .malformed
  else .error .truncated

/-- Is this the first half of a surrogate pair? -/
def isLeading (n : Nat) : Bool := 0xD800 ≤ n && n ≤ 0xDBFF

/-- Is this the second half of a surrogate pair? -/
def isTrailing (n : Nat) : Bool := 0xDC00 ≤ n && n ≤ 0xDFFF

/-- The second half of a surrogate pair after its first half `n`: it must follow at once. -/
def trailingHalf (n : Nat) (cs : List Char) : Except Fault (Char × List Char) :=
  match cs with
  | [] => .error .truncated
  | '\\' :: [] => .error .truncated
  | '\\' :: 'u' :: rest => do
    let (m, after) ← hexUnit rest
    if isTrailing m then
      .ok (Char.ofNat ((n - 0xD800) * 0x400 + (m - 0xDC00) + 0x10000), after)
    else .error .malformed
  | _ => .error .malformed

/-- The character named by an escape of hexadecimal digits, after its `u`. -/
def hexChar (cs : List Char) : Except Fault (Char × List Char) := do
  let (n, rest) ← hexUnit cs
  if isTrailing n then .error .malformed
  else if isLeading n then trailingHalf n rest
  else .ok (Char.ofNat n, rest)

/-- The character named by an escape, after its backslash. -/
def escapedChar (cs : List Char) : Except Fault (Char × List Char) :=
  match cs with
  | [] => .error .truncated
  | '"' :: r => .ok ('"', r)
  | '\\' :: r => .ok ('\\', r)
  | '/' :: r => .ok ('/', r)
  | 'b' :: r => .ok ('\x08', r)
  | 'f' :: r => .ok ('\x0c', r)
  | 'n' :: r => .ok ('\n', r)
  | 'r' :: r => .ok ('\r', r)
  | 't' :: r => .ok ('\t', r)
  | 'u' :: r => hexChar r
  | _ :: _ => .error .malformed

/-- The meaning of a quoted text after its opening quote, and what follows the closing one.
Every step takes at least one character, so the length of the text is fuel enough. -/
def unquoteGo : Nat → List Char → List Char → Except Fault (List Char × List Char)
  | 0, _, _ => .error .truncated
  | _ + 1, _, [] => .error .truncated
  | fuel + 1, done, c :: rest =>
    if c = '"' then .ok (done.reverse, rest)
    else if c = '\\' then
      match escapedChar rest with
      | .ok (d, after) => unquoteGo fuel (d :: done) after
      | .error f => .error f
    else if c.toNat < 0x20 then .error .malformed
    else unquoteGo fuel (c :: done) rest

/-- The meaning of a quoted text after its opening quote, and what follows the closing one. -/
def unquote (cs : List Char) : Except Fault (String × List Char) :=
  (unquoteGo (cs.length + 1) [] cs).map fun (text, rest) => (String.ofList text, rest)

/-- What follows an escape, after its backslash, when nobody asks what it means. -/
def skipEscape (cs : List Char) : Except Fault (List Char) :=
  match cs with
  | [] => .error .truncated
  | 'u' :: r => (hexUnit r).map (·.2)
  | c :: r => if c ∈ ['"', '\\', '/', 'b', 'f', 'n', 'r', 't'] then .ok r else .error .malformed

/-- What follows the closing quote of a text that is skipped. -/
def skipQuotedGo : Nat → List Char → Except Fault (List Char)
  | 0, _ => .error .truncated
  | _ + 1, [] => .error .truncated
  | fuel + 1, c :: rest =>
    if c = '"' then .ok rest
    else if c = '\\' then
      match skipEscape rest with
      | .ok after => skipQuotedGo fuel after
      | .error f => .error f
    else if c.toNat < 0x20 then .error .malformed
    else skipQuotedGo fuel rest

/-- What follows the closing quote of a text that is skipped. -/
def skipQuoted (cs : List Char) : Except Fault (List Char) :=
  skipQuotedGo (cs.length + 1) cs

/-- A quoted text after its opening quote, as a reader and as one who skips sees it: the
content with what follows, or the fault that stops both. -/
def scanQuoted (cs : List Char) : Except Break (Except Fault String × List Char) :=
  match unquote cs with
  | .ok (text, rest) => .ok (.ok text, rest)
  | .error f => match skipQuoted cs with
    | .ok rest => .ok (.error f, rest)
    | .error g => .error { reading := f, skipping := g }

end FolderTasks.Json
