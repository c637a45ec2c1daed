import FolderTasks.Machine.Real
/-!
# Formatted printing

A format is a text with escapes and directives.  A directive takes an argument and prints it in
the form that it names.  The format is used again as long as arguments are left, and what it
asks for beyond them is empty.

## Main definitions

* `Format.Style`: what differs between programs that print in this way.
* `Format.Directive`: a directive.
* `Format.Result`: what was printed, and what was wrong.
* `Format.run`: print arguments with a format.
-/

namespace FolderTasks.Machine.Format

/-- What differs between programs that print in this way. -/
structure Style where
  escapes : Escape.Style
  /-- The binary digits of real numbers. -/
  realDigits : Nat
  /-- Is there a form that quotes an argument? -/
  quotes : Bool
deriving Repr

/-- A directive: flags, the least width, the precision and the form. -/
structure Directive where
  /-- How it is written, without the percent sign. -/
  text : List Char
  flags : List Char := []
  width : Nat := 0
  precision : Option Nat := none
  form : Option Char

/-- What is wrong with a format or an argument. -/
inductive Complaint where
  /-- An argument is no number. -/
  | notNumeric (arg : String)
  /-- An argument only begins with a number. -/
  | notCompletely (arg : String)
  /-- There is no such form. -/
  | badDirective (text : String)
  /-- The format ends within a directive. -/
  | noForm
deriving DecidableEq, Repr

/-- Does a complaint concern the format, so that nothing more is printed? -/
def Complaint.isFatal : Complaint → Bool
  | .notNumeric _ | .notCompletely _ => false
  | .badDirective _ | .noForm => true

/-- What was printed, the complaints, and whether printing was stopped. -/
structure Result where
  bytes : Bytes := []
  complaints : List Complaint := []
  isStopped : Bool := false

/-- One result after another. -/
def Result.append (a b : Result) : Result :=
  ⟨a.bytes ++ b.bytes, a.complaints ++ b.complaints, b.isStopped⟩

/-- Fill up to the least width. -/
def Directive.pad (d : Directive) (bs : Bytes) : Bytes :=
  let filling := List.replicate (d.width - bs.length) 32
  if d.flags.contains '-' then bs ++ filling else filling ++ bs

/-- A number in a base, in lower case. -/
def digits (base n : Nat) : List Char := Nat.toDigits base n

/-- Print the digits of a number: zeros up to the precision, or up to the width if a flag says
so. -/
def Directive.padNumber (d : Directive) (sign : String) (body : List Char) : Bytes :=
  let zeros := match d.precision with
    | some p => p - body.length
    | none => if d.flags.contains '0' && !d.flags.contains '-'
        then d.width - sign.length - body.length else 0
  d.pad (bytesOf (sign ++ String.ofList (List.replicate zeros '0' ++ body)))

/-- How much of an argument a number takes. -/
inductive Extent where
  | nothing
  | beginning
  | everything
deriving DecidableEq, Repr

/-- The extent of a number of some digits before a rest. -/
def extent (digits : Nat) (rest : List Char) : Extent :=
  if digits = 0 then .nothing else if rest.isEmpty then .everything else .beginning

/-- The whole number that an argument spells: decimal, octal with a zero before it, hexadecimal
with `0x`, or the code of a character after a quote. -/
def integer (arg : String) : Int × Extent :=
  let cs := arg.toList.dropWhile fun c => c = ' ' || c = '\t' || c = '\n'
  match cs with
  | '\x22' :: c :: rest => (c.toNat, extent 1 rest)
  | '\x27' :: c :: rest => (c.toNat, extent 1 rest)
  | _ =>
    let (isNegative, cs) := match cs with
      | '-' :: rest => (true, rest)
      | '+' :: rest => (false, rest)
      | cs => (false, cs)
    let (n, count, rest) := match cs with
      | '0' :: 'x' :: rest | '0' :: 'X' :: rest => Escape.number 16 rest.length rest
      | '0' :: rest => Escape.number 8 (rest.length + 1) ('0' :: rest)
      | cs => Escape.number 10 cs.length cs
    (if isNegative then -(n : Int) else n, extent count rest)

/-- The complaints about an argument that should be a number.  A missing or empty one is zero. -/
def numberComplaints (arg : String) : List Complaint :=
  if arg.isEmpty then []
  else match (integer arg).2 with
    | .nothing => [.notNumeric arg]
    | .beginning => [.notCompletely arg]
    | .everything => []

/-- A text that a shell reads as it is. -/
def shellQuoted (text : String) : String :=
  let isPlain (c : Char) : Bool := c.isAlphanum || "_-./:=@%^,+".toList.contains c
  if text.isEmpty then "\x27\x27"
  else if text.toList.all isPlain then text
  else String.join (text.toList.map fun c =>
    if isPlain c then String.singleton c
    else if c = '\n' then "$\x27\\n\x27"
    else "\\" ++ String.singleton c)

/-- Print a real number. -/
def Directive.printReal (d : Directive) (style : Style) (form : Char) (text : String) : Result :=
  let places := d.precision.getD 6
  let isUpper := form.isUpper
  let keepsPoint := d.flags.contains '#'
  let (x, complaints) : Real × List Complaint :=
    if text.isEmpty then (.finite false 0 1, [])
    else match Real.ofText text with
      | none => match text.toList with
        | '\x22' :: c :: _ | '\x27' :: c :: _ => (.finite false c.toNat 1, [])
        | _ => (.finite false 0 1, [.notNumeric text])
      | some (x, rest) =>
        (x.toBinary style.realDigits, if rest.isEmpty then [] else [.notCompletely text])
  let sign (isNegative : Bool) : String :=
    if isNegative then "-" else if d.flags.contains '+' then "+"
      else if d.flags.contains ' ' then " " else ""
  let word (isNegative : Bool) (w : String) : Bytes :=
    d.pad (bytesOf (sign isNegative ++ if isUpper then w.toUpper else w))
  match x with
  | .infinite isNegative => { bytes := word isNegative "inf", complaints }
  | .none => { bytes := word false "nan", complaints }
  | .finite isNegative num den =>
    let body := match form.toLower with
      | 'e' => Real.scientific places keepsPoint num den
      | 'g' => Real.general places keepsPoint num den
      | _ => Real.fixed places keepsPoint num den
    let body := if isUpper then body.map Char.toUpper else body
    let zeros := if d.flags.contains '0' && !d.flags.contains '-'
      then d.width - (sign isNegative).length - body.length else 0
    { bytes := d.pad (bytesOf (sign isNegative ++
        String.ofList (List.replicate zeros '0' ++ body))), complaints }

/-- Print one argument. -/
def Directive.print (d : Directive) (style : Style) (arg : Option String) : Result :=
  let text := arg.getD ""
  let cut (bs : Bytes) : Bytes := match d.precision with | some p => bs.take p | none => bs
  let n := (integer text).1
  let complaints := numberComplaints text
  let mark (s : String) : String := if d.flags.contains '#' then s else ""
  let unsigned : Nat := (n % (Nat.pow 2 64 : Nat)).toNat
  match d.form with
  | none => { complaints := [.noForm], isStopped := true }
  | some 's' => { bytes := d.pad (cut (bytesOf text)) }
  | some 'b' =>
    let (bs, stops) := Escape.expand ⟨true, false⟩ text
    { bytes := d.pad (cut bs), isStopped := stops }
  | some 'c' => { bytes := d.pad ((bytesOf text).take 1) }
  | some 'd' | some 'i' =>
    let sign := if n < 0 then "-" else if d.flags.contains '+' then "+"
      else if d.flags.contains ' ' then " " else ""
    { bytes := d.padNumber sign (digits 10 n.natAbs), complaints }
  | some 'u' => { bytes := d.padNumber "" (digits 10 unsigned), complaints }
  | some 'o' => { bytes := d.padNumber (mark "0") (digits 8 unsigned), complaints }
  | some 'x' => { bytes := d.padNumber (mark "0x") (digits 16 unsigned), complaints }
  | some 'X' =>
    { bytes := d.padNumber (mark "0X") ((digits 16 unsigned).map Char.toUpper), complaints }
  | some 'q' =>
    if style.quotes then { bytes := d.pad (bytesOf (shellQuoted text)) }
    else { complaints := [.badDirective (String.ofList d.text)], isStopped := true }
  | some c =>
    if "fFeEgG".toList.contains c then d.printReal style c text
    else { complaints := [.badDirective (String.ofList d.text)], isStopped := true }

/-- A number within a directive, which may be taken from the arguments. -/
def count (cs : List Char) (args : List String) : Option Nat × List Char × List String :=
  match cs with
  | '*' :: rest => (some ((args.head?.map fun a => (integer a).1.toNat).getD 0), rest, args.drop 1)
  | cs => match Escape.number 10 cs.length cs with
    | (_, 0, _) => (none, cs, args)
    | (n, _, rest) => (some n, rest, args)

/-- The directive after a percent sign, with what is left of format and arguments. -/
def directive (cs : List Char) (args : List String) : Directive × List Char × List String :=
  let isFlag (c : Char) : Bool := "-+ #0".toList.contains c
  let flags := cs.takeWhile isFlag
  let (width, rest, args) := count (cs.dropWhile isFlag) args
  let (precision, rest, args) := match rest with
    | '.' :: rest =>
      let (p, rest, args) := count rest args
      (some (p.getD 0), rest, args)
    | rest => (none, rest, args)
  let text := cs.take (cs.length - rest.length + 1)
  ({ text, flags, width := width.getD 0, precision, form := rest.head? }, rest.drop 1, args)

/-- Go through a format once; the answer holds the arguments that are left.  Every round takes a
character at least. -/
def once (style : Style) : Nat → List Char → List String → Result × List String
  | 0, _, args | _, [], args => ({}, args)
  | fuel + 1, c :: rest, args =>
    let goOn (r : Result) (rest : List Char) (args : List String) : Result × List String :=
      if r.isStopped then (r, args)
      else
        let (more, args) := once style fuel rest args
        (r.append more, args)
    if c = '\\' then match Escape.read style.escapes rest with
      | .byte b rest => goOn { bytes := [b] } rest args
      | .stop => ({ isStopped := true }, args)
      | .plain => goOn { bytes := [92] } rest args
    else if c = '%' then match rest with
      | '%' :: rest => goOn { bytes := [37] } rest args
      | _ =>
        let (d, rest, args) := directive rest args
        goOn (d.print style args.head?) rest (args.drop 1)
    else goOn { bytes := bytesOf (String.singleton c) } rest args

/-- Use a format until no arguments are left, but not once more when it takes none. -/
def runGo (style : Style) (cs : List Char) : Nat → List String → Result
  | 0, _ => {}
  | fuel + 1, args =>
    let (r, left) := once style cs.length cs args
    if r.isStopped || left.isEmpty || left.length = args.length then r
    else r.append (runGo style cs fuel left)

/-- Print arguments with a format. -/
def run (style : Style) (text : String) (args : List String) : Result :=
  runGo style text.toList (args.length + 1) args

end FolderTasks.Machine.Format
