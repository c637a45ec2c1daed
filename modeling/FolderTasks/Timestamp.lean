import FolderTasks.Text.Quoted
/-!
# Timestamps

Instants to the nanosecond, written and read as calendar date and time with an offset from UTC.

Reading is lenient about blanks and about the letter between date and time.  A second numbered
60 is kept as such, as the last second of its minute with a billion nanoseconds more.

## Main definitions

* `Timestamp`: seconds since the beginning of 1970 and nanoseconds.
* `Timestamp.ofString`: the instant written by a text.
* `Timestamp.toString`: the instant in UTC, with as many fraction digits as needed in groups of
  three.
-/

namespace FolderTasks

/-- An instant.  Nanoseconds of a billion and more belong to a second numbered 60. -/
structure Timestamp where
  seconds : Int
  nanoseconds : Nat
deriving DecidableEq, Repr, Inhabited

namespace Timestamp

/-- Why a text is not a timestamp. -/
inductive Misreading where
  | outOfRange
  | invalid
  | tooShort
  | tooLong
  /-- The offset moves a date of the calendar beyond its first or last day. -/
  | beyondCalendar
deriving DecidableEq, Repr

/-- The wording of a misreading. -/
def Misreading.message : Misreading → String
  | .outOfRange => "input is out of range"
  | .invalid => "input contains invalid characters"
  | .tooShort => "premature end of input"
  | .tooLong => "trailing input"
  | .beyondCalendar => "no possible date and time matching input"

/-! ## The calendar -/

/-- Does the year have 366 days? -/
def isLeapYear (year : Int) : Bool :=
  year % 4 = 0 && (year % 100 ≠ 0 || year % 400 = 0)

/-- The number of days of a month. -/
def daysInMonth (year : Int) (month : Nat) : Nat :=
  if month = 2 then (if isLeapYear year then 29 else 28)
  else if month ∈ [4, 6, 9, 11] then 30 else 31

/-- Days from the beginning of 1970 to a date.  Years are counted from March, so that the leap
day is the last of its year. -/
def daysOfDate (year : Int) (month day : Nat) : Int :=
  let y := if month ≤ 2 then year - 1 else year
  let era := y / 400
  let yearOfEra := y - era * 400
  let shifted : Int := if month ≤ 2 then month + 9 else (month : Int) - 3
  let dayOfYear := (153 * shifted + 2) / 5 + day - 1
  let dayOfEra := yearOfEra * 365 + yearOfEra / 4 - yearOfEra / 100 + dayOfYear
  era * 146097 + dayOfEra - 719468

/-- The date that many days after the beginning of 1970. -/
def dateOfDays (days : Int) : Int × Nat × Nat :=
  let z := days + 719468
  let era := z / 146097
  let dayOfEra := z - era * 146097
  let yearOfEra :=
    (dayOfEra - dayOfEra / 1460 + dayOfEra / 36524 - dayOfEra / 146096) / 365
  let dayOfYear := dayOfEra - (365 * yearOfEra + yearOfEra / 4 - yearOfEra / 100)
  let shifted := (5 * dayOfYear + 2) / 153
  let day := dayOfYear - (153 * shifted + 2) / 5 + 1
  let month := if shifted < 10 then shifted + 3 else shifted - 9
  let year := yearOfEra + era * 400
  (if month ≤ 2 then year + 1 else year, month.toNat, day.toNat)

/-- The first year of the calendar. -/
def firstYear : Int := -262143

/-- The last year of the calendar. -/
def lastYear : Int := 262142

/-! ## Writing -/

/-- A number padded with zeros on the left. -/
def padded (width n : Nat) : String :=
  let text := toString n
  String.ofList (List.replicate (width - text.length) '0') ++ text

/-- The year: four digits, with a sign outside of that. -/
def yearText (year : Int) : String :=
  if 0 ≤ year ∧ year ≤ 9999 then padded 4 year.toNat
  else (if year < 0 then "-" else "+") ++ padded 4 year.natAbs

/-- The fraction of a second: none, three, six or nine digits. -/
def fractionText (nanoseconds : Nat) : String :=
  if nanoseconds = 0 then ""
  else if nanoseconds % 1000000 = 0 then "." ++ padded 3 (nanoseconds / 1000000)
  else if nanoseconds % 1000 = 0 then "." ++ padded 6 (nanoseconds / 1000)
  else "." ++ padded 9 nanoseconds

/-- The instant in UTC. -/
def toString (t : Timestamp) : String :=
  let (year, month, day) := dateOfDays (t.seconds / 86400)
  let secondOfDay := (t.seconds % 86400).toNat
  let (extra, nanoseconds) :=
    if 1000000000 ≤ t.nanoseconds then (1, t.nanoseconds - 1000000000) else (0, t.nanoseconds)
  yearText year ++ "-" ++ padded 2 month ++ "-" ++ padded 2 day ++ "T" ++
    padded 2 (secondOfDay / 3600) ++ ":" ++ padded 2 (secondOfDay / 60 % 60) ++ ":" ++
    padded 2 (secondOfDay % 60 + extra) ++ fractionText nanoseconds ++ "Z"

/-! ## Reading -/

/-- The characters of the property `White_Space`. -/
def isSpace (c : Char) : Bool :=
  Text.inRanges [(0x09, 0x0D), (0x20, 0x20), (0x85, 0x85), (0xA0, 0xA0), (0x1680, 0x1680),
    (0x2000, 0x200A), (0x2028, 0x2029), (0x202F, 0x202F), (0x205F, 0x205F), (0x3000, 0x3000)]
    c.toNat

/-- The text after its leading white space. -/
def skipSpace (cs : List Char) : List Char := cs.dropWhile isSpace

/-- The value of a run of digits. -/
def digitsValue (ds : List Char) : Nat :=
  ds.foldl (fun n c => n * 10 + (c.toNat - '0'.toNat)) 0

/-- A number of at least one and at most `width` digits. -/
def number (width : Nat) (cs : List Char) : Except Misreading (Nat × List Char) :=
  let ds := (cs.take width).takeWhile Char.isDigit
  match ds, cs with
  | [], [] => .error .tooShort
  | [], _ :: _ => .error .invalid
  | ds, cs =>
    if digitsValue ds < Nat.pow 2 63 then .ok (digitsValue ds, cs.drop ds.length)
    else .error .outOfRange

/-- A number within bounds, after white space. -/
def field (width low high : Nat) (cs : List Char) : Except Misreading (Nat × List Char) := do
  let (n, rest) ← number width (skipSpace cs)
  if low ≤ n && n ≤ high then .ok (n, rest) else .error .outOfRange

/-- A year: four digits, or any number of them after a sign. -/
def year (cs : List Char) : Except Misreading (Int × List Char) := do
  let cs := skipSpace cs
  let (y, rest) ← (match cs with
    | '-' :: r => do
      let (n, rest) ← number r.length r
      .ok (-(n : Int), rest)
    | '+' :: r => do
      let (n, rest) ← number r.length r
      .ok ((n : Int), rest)
    | r => do
      let (n, rest) ← number 4 r
      .ok ((n : Int), rest) : Except Misreading (Int × List Char))
  if -2147483648 ≤ y && y < 2147483648 then .ok (y, rest) else .error .outOfRange

/-- A fixed character, after white space. -/
def mark (c : Char) (cs : List Char) : Except Misreading (List Char) :=
  match skipSpace cs with
  | [] => .error .tooShort
  | d :: rest => if c = d then .ok rest else .error .invalid

/-- The fraction of a second, if there is a point; digits after the ninth do not count. -/
def fraction (cs : List Char) : Except Misreading (Nat × List Char) :=
  match cs with
  | '.' :: r => do
    let (n, rest) ← number 9 r
    let used := r.length - rest.length
    .ok (n * Nat.pow 10 (9 - used), rest.dropWhile Char.isDigit)
  | r => .ok (0, r)

/-- Two digits of an offset, the first at most `greatest`. -/
def twoDigits (cs : List Char) : Except Misreading ((Nat × Nat) × List Char) :=
  match cs with
  | a :: b :: rest =>
    if a.isDigit && b.isDigit then
      .ok ((a.toNat - '0'.toNat, b.toNat - '0'.toNat), rest)
    else .error .invalid
  | [a] => if a.utf8Size < 2 then .error .tooShort else .error .invalid
  | [] => .error .tooShort

/-- The offset from UTC in seconds: `Z`, or hours and minutes with a sign. -/
def offset (cs : List Char) : Except Misreading (Int × List Char) := do
  match cs with
  | 'Z' :: rest | 'z' :: rest => .ok (0, rest)
  | 'U' :: rest | 'u' :: rest =>
    match rest with
    | t :: c :: rest =>
      if (t = 'T' || t = 't') && (c = 'C' || c = 'c') then .ok (0, rest) else .error .invalid
    | _ => .error .invalid
  | [] => .error .tooShort
  | sign :: rest =>
    if sign = '+' || sign = '-' || sign = '−' then
      let ((h, h'), rest) ← twoDigits rest
      let rest := rest.dropWhile fun c => c = ':' || isSpace c
      let ((m, m'), rest) ← twoDigits rest
      if 5 < m then .error .outOfRange
      else
        let seconds : Int := (h * 10 + h') * 3600 + (m * 10 + m') * 60
        .ok (if sign = '+' then seconds else -seconds, rest)
    else .error .invalid

/-- The instant written by a text. -/
def ofString (s : String) : Except Misreading Timestamp := do
  let cs := s.toList
  let (year, cs) ← year cs
  let cs ← mark '-' cs
  let (month, cs) ← field 2 1 12 cs
  let cs ← mark '-' cs
  let (day, cs) ← field 2 1 31 cs
  let cs ← (match cs with
    | [] => .error .tooShort
    | c :: rest => if c = 't' || c = 'T' || c = ' ' then .ok rest else .error .invalid)
  let (hour, cs) ← field 2 0 23 cs
  let cs ← mark ':' cs
  let (minute, cs) ← field 2 0 59 cs
  let cs ← mark ':' cs
  let (second, cs) ← field 2 0 60 cs
  let (nanoseconds, cs) ← fraction cs
  let (offset, cs) ← offset (skipSpace cs)
  if !(skipSpace cs).isEmpty then .error .tooLong
  else if daysInMonth year month < day || 86400 ≤ offset.natAbs
      || year < firstYear || lastYear < year then .error .outOfRange
  else
    let (second, nanoseconds) := if second = 60 then (59, nanoseconds + 1000000000)
      else (second, nanoseconds)
    let days := daysOfDate year month day
    let seconds := days * 86400 + hour * 3600 + minute * 60 + second - offset
    if seconds < daysOfDate firstYear 1 1 * 86400
        || daysOfDate (lastYear + 1) 1 1 * 86400 ≤ seconds then .error .beyondCalendar
    else .ok ⟨seconds, nanoseconds⟩

end Timestamp

end FolderTasks
