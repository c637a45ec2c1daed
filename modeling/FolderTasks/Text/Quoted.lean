import FolderTasks.Text.Printable
/-!
# Quoting a text for people

A text in a message stands between double quotes, with everything that could be misread named by
an escape: quotes and backslashes, the usual controls by letter, and invisible or combining
characters by their number.

## Main definitions

* `escapeChar`: one character between quotes.
* `quote`: a text between quotes.
* `quoteList`: a list of texts in brackets.
-/

namespace FolderTasks.Text

/-- The digits of a code point in lower-case hexadecimal. -/
def hex (n : Nat) : List Char := Nat.toDigits 16 n

/-- How one character is written between quotes. -/
def escapeChar (c : Char) : List Char :=
  if c = '\x00' then ['\\', '0']
  else if c = '\t' then ['\\', 't']
  else if c = '\r' then ['\\', 'r']
  else if c = '\n' then ['\\', 'n']
  else if c = '"' then ['\\', '"']
  else if c = '\\' then ['\\', '\\']
  else if isExtending c || isInvisible c then ['\\', 'u', '\x7b'] ++ hex c.toNat ++ ['\x7d']
  else [c]

/-- A text between quotes. -/
def quote (s : String) : String :=
  String.ofList ('"' :: (s.toList.flatMap escapeChar ++ ['"']))

/-- A list of texts in brackets. -/
def quoteList (ss : List String) : String :=
  "[" ++ String.intercalate ", " (ss.map quote) ++ "]"

end FolderTasks.Text
