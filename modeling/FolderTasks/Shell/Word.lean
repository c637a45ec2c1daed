import FolderTasks.Machine.Escape
/-!
# Words of a shell script

A word is a row of pieces without a blank between them: text, quoted or not, and places where
something is put in when the script runs, a parameter, the output of a script, or the value of an
expression.  Scripts and words inside a piece are kept as text and read when they are needed.

## Main definitions

* `Shell.Dialect`: the two languages that shells take.
* `Shell.Piece`, `Shell.Word`: pieces and rows of them.
* `Shell.readWord`: the word at the beginning of a text.
* `Shell.readQuotable`: a whole text taken as if it stood between double quotes.

## Design notes

Everything that is read takes a character from the text at least, so readers are bounded by the
length of the text and use it as fuel.
-/

namespace FolderTasks.Shell

/-- The language that a shell takes. -/
inductive Dialect where
  | basic
  /-- With arrays, conditions between brackets and more. -/
  | extended
deriving DecidableEq, Repr

/-- What is wrong with the text of a script. -/
inductive Misreading where
  /-- A quote or an opening bracket has no other end. -/
  | unterminated (opening : Char)
  /-- Something stands where it cannot, perhaps in the place of something else: what it is called,
  and how it is written. -/
  | unexpected (what written : String) (expected : Option String)
  /-- The text ends where it cannot, perhaps in the place of something. -/
  | unexpectedEnd (expected : Option String)
  /-- A name cannot be that of a function or a parameter. -/
  | badName (what written : String)
deriving DecidableEq, Repr

/-- The words after an unexpected thing about the one that is expected; any word goes by its
kind. -/
def expecting (expected : Option String) : String :=
  expected.elim "" fun e =>
    " (expecting " ++ (if e = "word" then e else "\x22" ++ e ++ "\x22") ++ ")"

/-- The wording of a misreading. -/
def Misreading.message : Misreading → String
  | .unterminated opening => "Syntax error: " ++ match opening with
    | '\x60' => "EOF in backquote substitution"
    | '\x7b' => "Missing \x27\x7d\x27"
    | '+' => "Missing \x27))\x27"
    | '(' => "end of file unexpected (expecting \x22)\x22)"
    | _ => "Unterminated quoted string"
  | .unexpected what _ expected => "Syntax error: " ++ what ++ " unexpected" ++ expecting expected
  | .unexpectedEnd expected => "Syntax error: end of file unexpected" ++ expecting expected
  | .badName what _ => "Syntax error: Bad " ++ what

/-- The wording of a misreading in the extended language, and whether the line is shown after it.
-/
def Misreading.extendedMessage : Misreading → String × Bool
  | .unterminated opening =>
    let closing := match opening with
      | '\x7b' => "\x7d"
      | '(' | '+' => ")"
      | c => String.singleton c
    ("unexpected EOF while looking for matching \x60" ++ closing ++ "\x27", false)
  | .unexpected _ written _ =>
    ("syntax error near unexpected token \x60" ++ written ++ "\x27", true)
  | .unexpectedEnd _ => ("syntax error: unexpected end of file", false)
  | .badName _ written => ("\x60" ++ written ++ "\x27: not a valid identifier", false)

/-- Where in a text a pattern is replaced. -/
inductive Extent where
  | first
  | everywhere
  | atStart
  | atEnd
deriving DecidableEq, Repr

/-- What is done with the value of a parameter. -/
inductive Treatment where
  | plain
  /-- Its length is taken. -/
  | length
  /-- A word stands in for it, or stands there instead of it; `orEmpty` says whether an empty
  value counts as none. -/
  | instead (kind : Char) (orEmpty : Bool) (word : String)
  /-- What a pattern fits is cut off, at the end or at the beginning, as much or as little as
  possible. -/
  | trimmed (atEnd : Bool) (greedy : Bool) (pattern : String)
  /-- Letters that a pattern fits become large or small, all of them or the first. -/
  | cased (upper : Bool) (all : Bool) (pattern : String)
  /-- A part of it, from an offset on. -/
  | slice (offset : String) (length : Option String)
  /-- What a pattern fits is replaced. -/
  | replaced (extent : Extent) (pattern replacement : String)
  /-- It is transformed as a letter says. -/
  | transformed (letter : Char)
deriving DecidableEq, Repr

/-- Which elements of an array are meant. -/
inductive Index where
  | none
  /-- All of them, perhaps as one text. -/
  | all (joins : Bool)
  | at (expression : String)
deriving DecidableEq, Repr

/-- How a parameter is referred to. -/
structure Reference where
  name : String
  index : Index := .none
  /-- Is it the parameter that is named by the value of this one? -/
  isIndirect : Bool := false
deriving DecidableEq, Repr

/-- A piece of a word. -/
inductive Piece where
  | text (s : String) (isQuoted : Bool)
  | parameter (r : Reference) (treatment : Treatment) (isQuoted : Bool)
  /-- The output of a script; `isFresh` says whether its lines are counted anew. -/
  | output (script : String) (isQuoted isFresh : Bool)
  /-- The value of an expression. -/
  | value (expression : String) (isQuoted : Bool)
  /-- The names of the parameters that begin in some way. -/
  | names (beginning : String) (isQuoted : Bool)
  /-- The path of a pipe to or from a script. -/
  | path (script : String) (isWritten : Bool)
  /-- Something between braces that cannot be understood. -/
  | broken (text : String)
deriving DecidableEq, Repr

/-- A row of pieces. -/
abbrev Word := List Piece

/-- The text of a word without quotes and substitutions. -/
def Word.plain? : Word → Option String
  | [] => some ""
  | .text s false :: rest => (Word.plain? rest).map (s ++ ·)
  | _ => none

/-- Can a name begin like this? -/
def isNameStart (c : Char) : Bool := c.isAlpha || c = '_'

/-- Can a name go on like this? -/
def isNamePart (c : Char) : Bool := c.isAlphanum || c = '_'

/-- Is a text a name? -/
def isName (s : String) : Bool := s.toList.head?.any isNameStart && s.toList.all isNamePart

/-- The parameters that are named by one character. -/
def isSpecial (c : Char) : Bool := "@*#?-$!0123456789".toList.contains c

/-! ## Brackets -/

/-- How many characters a text between double quotes has with its closing quote. -/
def doubleLength : List Char → Nat
  | [] => 0
  | '\\' :: _ :: rest => doubleLength rest + 2
  | c :: rest => if c = '\x22' then 1 else doubleLength rest + 1

/-- A text up to the closing bracket that fits, and what follows.  Quoted brackets do not count. -/
def balanced (opening closing : Char) : Nat → Nat → List Char → List Char →
    Option (List Char × List Char)
  | 0, _, _, _ | _, _, _, [] => none
  | fuel + 1, depth, taken, c :: rest =>
    if c = '\\' then
      balanced opening closing fuel depth (rest.take 1 ++ c :: taken) (rest.drop 1)
    else if c = '\x27' || c = '\x22' then
      let n := if c = '\x22' then doubleLength rest else (rest.takeWhile (· != c)).length + 1
      balanced opening closing fuel depth ((rest.take n).reverse ++ c :: taken) (rest.drop n)
    else if c = closing then
      if depth = 0 then some (taken.reverse, rest)
      else balanced opening closing fuel (depth - 1) (c :: taken) rest
    else balanced opening closing fuel (if c = opening then depth + 1 else depth) (c :: taken) rest

/-- A text within double quotes up to the closing brace that fits.  Single quotes are ordinary
there. -/
def balancedWithinQuotes : Nat → Nat → List Char → List Char → Option (List Char × List Char)
  | 0, _, _, _ | _, _, _, [] => none
  | fuel + 1, depth, taken, c :: rest =>
    if c = '\\' then
      balancedWithinQuotes fuel depth (rest.take 1 ++ c :: taken) (rest.drop 1)
    else if c = '\x22' then
      let n := doubleLength rest
      balancedWithinQuotes fuel depth ((rest.take n).reverse ++ c :: taken) (rest.drop n)
    else if c = '$' && rest.head? = some '\x7b' then
      balancedWithinQuotes fuel (depth + 1) ('\x7b' :: c :: taken) (rest.drop 1)
    else if c = '\x7d' then
      if depth = 0 then some (taken.reverse, rest)
      else balancedWithinQuotes fuel (depth - 1) (c :: taken) rest
    else balancedWithinQuotes fuel depth (c :: taken) rest

/-- The script up to the closing parenthesis that fits, and what follows.  `cases` counts the
`case` commands that are open, within which a parenthesis may close a pattern. -/
def scriptUpTo : Nat → Nat → Nat → Bool → List Char → List Char → Option (List Char × List Char)
  | 0, _, _, _, _, _ | _, _, _, _, _, [] => none
  | fuel + 1, depth, cases, isStart, taken, c :: rest =>
    let takeWord (word : List Char) : List Char := word.reverse ++ taken
    if c = '\\' then
      scriptUpTo fuel depth cases false (rest.take 1 ++ c :: taken) (rest.drop 1)
    else if c = '\x27' || c = '\x22' then
      let n := if c = '\x22' then doubleLength rest else (rest.takeWhile (· != c)).length + 1
      scriptUpTo fuel depth cases false ((rest.take n).reverse ++ c :: taken) (rest.drop n)
    else if c = '#' && isStart then
      let comment := rest.takeWhile (· != '\n')
      scriptUpTo fuel depth cases true (comment.reverse ++ c :: taken) (rest.drop comment.length)
    else if c = '(' then scriptUpTo fuel (depth + 1) cases true (c :: taken) rest
    else if c = ')' then
      if depth = 0 then
        if cases = 0 then some (taken.reverse, rest)
        else scriptUpTo fuel depth cases true (c :: taken) rest
      else scriptUpTo fuel (depth - 1) cases true (c :: taken) rest
    else if isStart && isNameStart c then
      let word := (c :: rest).takeWhile isNamePart
      let rest := (c :: rest).drop word.length
      let text := String.ofList word
      let cases := if text = "case" then cases + 1 else if text = "esac" then cases - 1 else cases
      let goesOn := ["then", "do", "else", "elif", "if", "while", "until"].contains text
      scriptUpTo fuel depth cases goesOn (takeWord word) rest
    else
      let isStart := c = '\n' || c = ';' || c = '&' || c = '|' || isStart && (c = ' ' || c = '\t') ||
        c = ' ' || c = '\t'
      scriptUpTo fuel depth cases isStart (c :: taken) rest

/-! ## Parameters -/

/-- What stands before a slash that is neither quoted nor in braces, and what stands after it. -/
def splitAtSlash : Nat → List Char → List Char → List Char × Option (List Char)
  | 0, taken, cs => (taken.reverse ++ cs, none)
  | _ + 1, taken, [] => (taken.reverse, none)
  | fuel + 1, taken, c :: rest =>
    if c = '/' then (taken.reverse, some rest)
    else if c = '\\' then splitAtSlash fuel (rest.take 1 ++ c :: taken) (rest.drop 1)
    else if c = '\x27' || c = '\x22' then
      let n := if c = '\x22' then doubleLength rest else (rest.takeWhile (· != c)).length + 1
      splitAtSlash fuel ((rest.take n).reverse ++ c :: taken) (rest.drop n)
    else if c = '$' && rest.head? = some '\x7b' then
      match balanced '\x7b' '\x7d' rest.length 0 [] (rest.drop 1) with
      | some (inside, after) =>
        splitAtSlash fuel (('$' :: '\x7b' :: inside ++ ['\x7d']).reverse ++ taken) after
      | none => splitAtSlash fuel (c :: taken) rest
    else splitAtSlash fuel (c :: taken) rest

/-- The treatment that only the extended language knows. -/
def extendedTreatment? (cs : List Char) : Option Treatment :=
  match cs with
  | '^' :: '^' :: rest => some (.cased true true (String.ofList rest))
  | '^' :: rest => some (.cased true false (String.ofList rest))
  | ',' :: ',' :: rest => some (.cased false true (String.ofList rest))
  | ',' :: rest => some (.cased false false (String.ofList rest))
  | ['@', c] => some (.transformed c)
  | [':'] => none
  | ':' :: rest =>
    let offset := rest.takeWhile (· != ':')
    match rest.drop offset.length with
    | _ :: length => some (.slice (String.ofList offset) (some (String.ofList length)))
    | [] => some (.slice (String.ofList offset) none)
  | '/' :: rest =>
    let (extent, rest) := match rest with
      | '/' :: rest => (Extent.everywhere, rest)
      | '#' :: rest => (Extent.atStart, rest)
      | '%' :: rest => (Extent.atEnd, rest)
      | rest => (Extent.first, rest)
    let (pattern, replacement) := splitAtSlash (rest.length + 1) [] rest
    some (.replaced extent (String.ofList pattern) (String.ofList (replacement.getD [])))
  | _ => none

/-- The treatment that is written after a parameter's name within braces. -/
def treatment? (d : Dialect) (cs : List Char) : Option Treatment :=
  let isKind (c : Char) : Bool := "-=?+".toList.contains c
  let more (cs : List Char) : Option Treatment :=
    if d = .extended then extendedTreatment? cs else none
  match cs with
  | [] => some .plain
  | ':' :: c :: rest =>
    if isKind c then some (.instead c true (String.ofList rest)) else more cs
  | '%' :: '%' :: rest => some (.trimmed true true (String.ofList rest))
  | '%' :: rest => some (.trimmed true false (String.ofList rest))
  | '#' :: '#' :: rest => some (.trimmed false true (String.ofList rest))
  | '#' :: rest => some (.trimmed false false (String.ofList rest))
  | c :: rest => if isKind c then some (.instead c false (String.ofList rest)) else more cs

/-- The name at the beginning of what stands within braces, and the rest. -/
def splitName : List Char → List Char × List Char
  | [] => ([], [])
  | c :: rest =>
    if isNameStart c then ((c :: rest).takeWhile isNamePart, (c :: rest).dropWhile isNamePart)
    else if c.isDigit then ((c :: rest).takeWhile Char.isDigit, (c :: rest).dropWhile Char.isDigit)
    else if isSpecial c then ([c], rest)
    else ([], c :: rest)

/-- The reference at the beginning of what stands within braces, and the rest. -/
def splitReference (d : Dialect) (cs : List Char) : Option (Reference × List Char) :=
  let (name, after) := splitName cs
  if name.isEmpty then none
  else
    let r : Reference := { name := String.ofList name }
    match d, after with
    | .extended, '[' :: rest =>
      if !name.head?.any isNameStart then some (r, after)
      else match balanced '[' ']' rest.length 0 [] rest with
        | some (['@'], after) => some ({ r with index := .all false }, after)
        | some (['*'], after) => some ({ r with index := .all true }, after)
        | some ([], _) => none
        | some (inside, after) => some ({ r with index := .at (String.ofList inside) }, after)
        | none => none
    | _, after => some (r, after)

/-- What stands within braces after a dollar sign. -/
def braced? (d : Dialect) (cs : List Char) (isQuoted : Bool) : Option Piece :=
  let general (cs : List Char) : Option Piece := do
    let (r, after) ← splitReference d cs
    let t ← treatment? d after
    some (.parameter r t isQuoted)
  match cs with
  | '#' :: c :: rest => match splitReference d (c :: rest) with
    | some (r, []) => some (.parameter r .length isQuoted)
    | _ => (treatment? d (c :: rest)).map fun t => .parameter { name := "#" } t isQuoted
  | '!' :: c :: rest =>
    if d = .extended && (isNameStart c || c.isDigit) then
      let (name, after) := splitName (c :: rest)
      if after = ['*'] || after = ['@'] then some (.names (String.ofList name) isQuoted)
      else do
        let (r, after) ← splitReference d (c :: rest)
        let t ← treatment? d after
        some (.parameter { r with isIndirect := true } t isQuoted)
    else general cs
  | cs => general cs

/-- What follows a dollar sign: a piece, and the rest. -/
def readDollar (d : Dialect) (isQuoted : Bool) (cs : List Char) :
    Except Misreading (Piece × List Char) :=
  let script (rest : List Char) : Except Misreading (Piece × List Char) :=
    match scriptUpTo (rest.length + 1) 0 0 true [] rest with
    | some (inside, rest) => .ok (.output (String.ofList inside) isQuoted false, rest)
    | none => .error (.unterminated '(')
  match cs with
  | '(' :: '(' :: rest => match balanced '(' ')' rest.length 1 [] rest with
    | some (inside, after) =>
      if inside.getLast? = some ')' then .ok (.value (String.ofList inside.dropLast) isQuoted, after)
      else script ('(' :: rest)
    | none => .error (.unterminated '+')
  | '(' :: rest => script rest
  | '\x7b' :: rest =>
    let inside? := if isQuoted then balancedWithinQuotes (rest.length + 1) 0 [] rest
      else balanced '\x7b' '\x7d' (rest.length + 1) 0 [] rest
    -- A colon takes the brace after it for an operator.
    let isOpen (inside rest : List Char) : Bool :=
      d = .basic && inside.getLast? = some ':' && !rest.contains '\x7d' &&
        (splitName inside).2 = [':']
    match inside? with
    | some (inside, rest) =>
      if isOpen inside rest then .error (.unterminated '\x7b')
      else .ok ((braced? d inside isQuoted).getD
        (.broken (String.ofList ('$' :: '\x7b' :: inside ++ ['\x7d']))), rest)
    | none => .error (.unterminated '\x7b')
  | '[' :: rest =>
    if d = .extended then match balanced '[' ']' (rest.length + 1) 0 [] rest with
      | some (inside, after) => .ok (.value (String.ofList inside) isQuoted, after)
      | none => .ok (.text "$" isQuoted, cs)
    else .ok (.text "$" isQuoted, cs)
  | c :: rest =>
    if isNameStart c then
      .ok (.parameter { name := String.ofList ((c :: rest).takeWhile isNamePart) } .plain isQuoted,
        (c :: rest).dropWhile isNamePart)
    else if isSpecial c then
      .ok (.parameter { name := String.singleton c } .plain isQuoted, rest)
    else .ok (.text "$" isQuoted, cs)
  | [] => .ok (.text "$" isQuoted, cs)

/-! ## Quotes -/

/-- The script between two backward quotes, the first of which has been read.  Within double
quotes a backslash also quotes one of those. -/
def readBackward (isQuoted : Bool) : Nat → List Char → List Char →
    Except Misreading (List Char × List Char)
  | 0, _, _ | _, _, [] => .error (.unterminated '\x60')
  | fuel + 1, taken, c :: rest =>
    if c = '\x60' then .ok (taken.reverse, rest)
    else if c = '\\' then match rest with
      | d :: rest =>
        readBackward isQuoted fuel
          (if "$\x60\\".toList.contains d || isQuoted && d = '\x22' then d :: taken
            else d :: c :: taken) rest
      | [] => .error (.unterminated '\x60')
    else readBackward isQuoted fuel (c :: taken) rest

/-- What a double quote means within a text that is taken as quoted. -/
inductive Quotes where
  /-- It closes the text. -/
  | closing
  /-- It is left out. -/
  | dropped
  /-- It is a character like others. -/
  | kept
deriving DecidableEq, Repr

/-- The pieces of a text within double quotes, up to the closing quote if there has to be one, and
the rest. -/
def readDouble (d : Dialect) (quotes : Quotes) : Nat → List Char → List Char →
    Except Misreading (Word × List Char)
  | 0, taken, _ | _, taken, [] =>
    if quotes = .closing then .error (.unterminated '\x22')
    else .ok ([.text (String.ofList taken.reverse) true], [])
  | fuel + 1, taken, c :: rest =>
    let before : Piece := .text (String.ofList taken.reverse) true
    if c = '\x22' && quotes = .closing then .ok ([before], rest)
    else if c = '\x22' && quotes = .dropped then readDouble d quotes fuel taken rest
    else if c = '\\' then match rest with
      | '\n' :: rest => readDouble d quotes fuel taken rest
      | e :: rest =>
        if "$\x60\\".toList.contains e || e = '\x22' && quotes != .kept ||
            e = '\x7d' && quotes = .dropped then
          readDouble d quotes fuel (e :: taken) rest
        else readDouble d quotes fuel (e :: c :: taken) rest
      | [] => readDouble d quotes fuel (c :: taken) []
    else if c = '$' then do
      let (piece, rest) ← readDollar d true rest
      let (word, rest) ← readDouble d quotes fuel [] rest
      .ok (before :: piece :: word, rest)
    else if c = '\x60' then do
      let (script, rest) ← readBackward true (rest.length + 1) [] rest
      let (word, rest) ← readDouble d quotes fuel [] rest
      .ok (before :: .output (String.ofList script) true true :: word, rest)
    else readDouble d quotes fuel (c :: taken) rest

/-- The text between single quotes after a dollar sign, with its escapes, and the rest. -/
def readEscaped : Nat → List Char → List Char → Except Misreading (List Char × List Char)
  | 0, _, _ | _, _, [] => .error (.unterminated '\x27')
  | fuel + 1, taken, c :: rest =>
    if c = '\x27' then .ok (taken.reverse, rest)
    else if c = '\\' then match rest with
      | e :: more =>
        if e = '\x27' || e = '\x22' || e = '?' then readEscaped fuel (e :: taken) more
        else if e = 'e' || e = 'E' then readEscaped fuel ('\x1b' :: taken) more
        else if e = 'u' || e = 'U' then
          let (n, count, _) := Machine.Escape.number 16 (if e = 'u' then 4 else 8) more
          if count = 0 then readEscaped fuel (e :: c :: taken) more
          else
            let bytes := (Machine.inner (String.singleton (Char.ofNat n))).toList
            readEscaped fuel (bytes.reverse ++ taken) (more.drop count)
        else if e = 'c' then match more with
          | d :: more => readEscaped fuel (Char.ofNat (d.toNat % 32) :: taken) more
          | [] => .error (.unterminated '\x27')
        else
          let piece := if e.isDigit then 1 + ((rest.take 3).takeWhile fun d =>
              '0' ≤ d && d ≤ '7').length
            else if e = 'x' then 2 + ((more.take 2).takeWhile fun d =>
              (Machine.Escape.digit? 16 d).isSome).length
            else 2
          let bs := (Machine.Escape.expand ⟨false, true⟩ (String.ofList (c :: rest.take (piece - 1)))).1
          readEscaped fuel (((Machine.textOf bs).toList).reverse ++ taken) (rest.drop (piece - 1))
      | [] => .error (.unterminated '\x27')
    else readEscaped fuel (c :: taken) rest

/-! ## Words -/

/-- Does a character end a word? -/
def endsWord (c : Char) : Bool := " \t\n;&|<>()".toList.contains c

/-- The word at the beginning of a text, and the rest.  A `whole` word goes to the end of the text
and may hold blanks and operators. -/
def readWord (d : Dialect) (whole : Bool) : Nat → List Char → List Char →
    Except Misreading (Word × List Char)
  | 0, taken, rest | _, taken, rest@([]) =>
    .ok (if taken.isEmpty then [] else [.text (String.ofList taken.reverse) false], rest)
  | fuel + 1, taken, c :: rest =>
    let before : Word :=
      if taken.isEmpty then [] else [.text (String.ofList taken.reverse) false]
    if (c = '<' || c = '>') && d = .extended && !whole && rest.head? = some '(' then
      match scriptUpTo (rest.length + 1) 0 0 true [] (rest.drop 1) with
      | some (inside, rest) => do
        let (word, rest) ← readWord d whole fuel [] rest
        .ok (before ++ .path (String.ofList inside) (c == '>') :: word, rest)
      | none => .error (.unterminated '(')
    else if endsWord c && !whole then .ok (before, c :: rest)
    else if c = '\\' then match rest with
      | '\n' :: rest => readWord d whole fuel taken rest
      | e :: rest => do
        let (word, rest) ← readWord d whole fuel [] rest
        .ok (before ++ .text (String.singleton e) true :: word, rest)
      | [] => readWord d whole fuel (c :: taken) []
    else if c = '\x27' then
      let quoted := rest.takeWhile (· != '\x27')
      if quoted.length = rest.length then .error (.unterminated '\x27')
      else do
        let (word, rest) ← readWord d whole fuel [] (rest.drop (quoted.length + 1))
        .ok (before ++ .text (String.ofList quoted) true :: word, rest)
    else if c = '\x22' then do
      let (inside, rest) ← readDouble d .closing (rest.length + 1) [] rest
      let (word, rest) ← readWord d whole fuel [] rest
      .ok (before ++ inside ++ word, rest)
    else if c = '$' && d = .extended && rest.head? = some '\x27' then do
      let (text, rest) ← readEscaped (rest.length + 1) [] (rest.drop 1)
      let (word, rest) ← readWord d whole fuel [] rest
      .ok (before ++ .text (String.ofList text) true :: word, rest)
    else if c = '$' && d = .extended && rest.head? = some '\x22' then
      readWord d whole fuel taken rest
    else if c = '$' then do
      let (piece, rest) ← readDollar d false rest
      let (word, rest) ← readWord d whole fuel [] rest
      .ok (before ++ piece :: word, rest)
    else if c = '\x60' then do
      let (script, rest) ← readBackward false (rest.length + 1) [] rest
      let (word, rest) ← readWord d whole fuel [] rest
      .ok (before ++ .output (String.ofList script) false true :: word, rest)
    else readWord d whole fuel (c :: taken) rest

/-- A whole text as one word. -/
def wordOf (d : Dialect) (text : String) : Except Misreading Word :=
  let cs := text.toList
  (readWord d true (cs.length + 1) [] cs).map (·.1)

/-- A whole text as if it stood between double quotes. -/
def readQuotable (d : Dialect) (quotes : Quotes) (text : String) : Except Misreading Word :=
  let cs := text.toList
  (readDouble d quotes (cs.length + 1) [] cs).map (·.1)

end FolderTasks.Shell
