import FolderTasks.Shell.Word
/-!
# Tokens of a shell script

A script is a row of words, operators and line ends.  Blanks separate words, a `#` at the
beginning of a word starts a comment, and a backslash at the end of a line joins it with the next.

## Main definitions

* `Shell.Token`: the tokens.
* `Shell.Lexeme`: a token with where it stands and how it is written.
* `Shell.lexemes`: the tokens of a text, as far as they can be read.
-/

namespace FolderTasks.Shell

/-- Something in a condition between double brackets. -/
inductive ConditionItem where
  | word (w : Word)
  | operator (s : String)
deriving DecidableEq, Repr

/-- A token. -/
inductive Token where
  | word (w : Word)
  /-- An operator between commands. -/
  | operator (s : String)
  /-- An operator that redirects a channel, with the number before it. -/
  | redirection (channel : Option Nat) (s : String)
  /-- Lines that follow in the script and are to be read from a channel. -/
  | document (channel : Option Nat) (text : String) (isQuoted : Bool)
  | newline
  /-- A word that sets an array, and its elements. -/
  | array (w : Word) (elements : List Word)
  /-- An expression between double parentheses. -/
  | calculation (expression : String)
  /-- A condition between double brackets. -/
  | condition (items : List ConditionItem)
deriving DecidableEq, Repr

/-- A token with the line on which it ends, and how it is written. -/
structure Lexeme where
  token : Token
  line : Nat
  text : String := ""
deriving Repr

/-- The operators of a language, the longer ones before their beginnings. -/
def operators (d : Dialect) : List String :=
  (if d = .extended then [";;&", ";&", "|&"] else []) ++
    ["&&", "||", ";;", ";", "&", "|", "(", ")"]

/-- The operators of a language that redirect, the longer ones before their beginnings. -/
def redirections (d : Dialect) : List String :=
  (if d = .extended then ["&>>", "&>", "<<<"] else []) ++
    [">>", ">&", "<&", "<>", ">|", ">", "<"]

/-- The first of some operators with which a text begins, and the rest. -/
def operatorAt? (candidates : List String) (cs : List Char) : Option (String × List Char) :=
  (candidates.find? fun op => op.toList.isPrefixOf cs).map fun op => (op, cs.drop op.length)

/-- The text of a word with its quotes taken away, and whether it had any. -/
def bareText (w : Word) : String × Bool :=
  (String.join (w.map fun
    | .text s _ => s
    | _ => ""), w.any fun
    | .text _ isQuoted => isQuoted
    | _ => true)

/-- The lines of a text up to one that is the delimiter, and what follows that one. -/
def documentLines (stripTabs : Bool) (delimiter : List Char) : Nat → List Char →
    List Char × List Char
  | 0, cs => ([], cs)
  | fuel + 1, cs =>
    if cs.isEmpty then ([], [])
    else
      let line := cs.takeWhile (· != '\n')
      let after := cs.drop line.length
      let line := if stripTabs then line.dropWhile (· = '\t') else line
      if line = delimiter then ([], after.drop 1)
      else
        let (more, rest) := documentLines stripTabs delimiter fuel (after.drop 1)
        (line ++ (after.take 1) ++ more, rest)

/-- What is wrong with the token at the beginning of a text, where a word has to stand. -/
def misplaced (d : Dialect) (cs : List Char) : Misreading :=
  let operator (s : String) : Misreading := .unexpected ("\x22" ++ s ++ "\x22") s none
  match operatorAt? (redirections d) cs, operatorAt? (operators d) cs, cs with
  | some (s, _), _, _ => .unexpected "redirection" s none
  | none, some (s, _), _ => operator s
  | none, none, [] => .unexpectedEnd none
  | none, none, _ => .unexpected "newline" "newline" none

/-- The document of which a delimiter follows, the script without it, and how many lines it
takes. -/
def readDocument (d : Dialect) (channel : Option Nat) (cs : List Char) :
    Except Misreading (Token × List Char × Nat) := do
  let (stripTabs, cs) := match cs with
    | '-' :: rest => (true, rest)
    | cs => (false, cs)
  let cs := cs.dropWhile fun c => c = ' ' || c = '\t'
  let (w, rest) ← readWord d false (cs.length + 1) [] cs
  if rest.length = cs.length then throw (misplaced d cs)
  let (delimiter, isQuoted) := bareText w
  let line := rest.takeWhile (· != '\n')
  let below := rest.drop (line.length + 1)
  let (text, after) := documentLines stripTabs delimiter.toList (below.length + 1) below
  let taken := (below.take (below.length - after.length)).count '\n'
  .ok (.document channel (String.ofList text) isQuoted, line ++ '\n' :: after, taken)

/-- The number in front of an operator that redirects, and the rest.  In the basic language it has
one digit. -/
def channelAt (d : Dialect) (cs : List Char) : Option Nat × List Char :=
  let digits := cs.takeWhile Char.isDigit
  match cs.drop digits.length with
  | c :: rest =>
    if !digits.isEmpty && (c = '<' || c = '>') && (d = .extended || digits.length = 1) then
      (some (digits.foldl (fun n d => n * 10 + (d.toNat - 48)) 0), c :: rest)
    else (none, cs)
  | [] => (none, cs)

/-- The elements of an array up to the closing parenthesis, and the rest. -/
def readElements (d : Dialect) : Nat → List Char → Except Misreading (List Word × List Char)
  | 0, _ | _, [] => .error (.unterminated '(')
  | fuel + 1, c :: rest =>
    if c = ')' then .ok ([], rest)
    else if c = ' ' || c = '\t' || c = '\n' then readElements d fuel rest
    else if c = '#' then readElements d fuel (rest.dropWhile (· != '\n'))
    else if endsWord c && !("<>".toList.contains c && rest.head? = some '(') then
      .error (.unexpected ("\x22" ++ String.singleton c ++ "\x22") (String.singleton c) none)
    else do
      let (w, rest) ← readWord d false (rest.length + 2) [] (c :: rest)
      let (ws, rest) ← readElements d fuel rest
      .ok (w :: ws, rest)

/-- Does a word set an array whose elements follow? -/
def setsArray (w : Word) : Bool :=
  match w with
  | [.text s false] =>
    let name := s.toList.takeWhile isNamePart
    let after := s.toList.drop name.length
    isName (String.ofList name) && (after = ['='] || after = ['+', '='])
  | _ => false

/-- How much of a text a regular expression takes: up to a blank outside its brackets. -/
def regexLength : Nat → List Char → Nat
  | _, [] => 0
  | depth, '\\' :: _ :: rest => regexLength depth rest + 2
  | depth, c :: rest =>
    if depth = 0 && (c = ' ' || c = '\t' || c = '\n') then 0
    else if c = '(' then regexLength (depth + 1) rest + 1
    else if c = ')' then regexLength (depth - 1) rest + 1
    else regexLength depth rest + 1

/-- The items of a condition up to the closing brackets, and the rest; `isRegex` says whether a
regular expression follows. -/
def readItems (isRegex : Bool) : Nat → List Char →
    Except Misreading (List ConditionItem × List Char)
  | 0, _ | _, [] => .error (.unexpectedEnd none)
  | fuel + 1, c :: rest =>
    let goOn (item : ConditionItem) (rest : List Char) :
        Except Misreading (List ConditionItem × List Char) := do
      let (items, rest) ← readItems (item = .word [.text "=~" false]) fuel rest
      .ok (item :: items, rest)
    if c = ' ' || c = '\t' || c = '\n' then readItems isRegex fuel rest
    else if isRegex then do
      let n := regexLength 0 (c :: rest)
      let (w, _) ← readWord .extended true (n + 1) [] ((c :: rest).take n)
      goOn (.word w) ((c :: rest).drop n)
    else match operatorAt? ["&&", "||", "(", ")", "<", ">"] (c :: rest) with
      | some (op, rest) => goOn (.operator op) rest
      | none =>
        if endsWord c then
          .error (.unexpected ("\x22" ++ String.singleton c ++ "\x22") (String.singleton c) none)
        else do
          let (w, rest) ← readWord .extended false (rest.length + 2) [] (c :: rest)
          if w.plain? = some "]]" then .ok ([], rest)
          else if w.plain? = some "!" then goOn (.operator "!") rest
          else goOn (.word w) rest

/-- The token at the beginning of a text that begins with no blank, the rest, and how many lines
below it takes. -/
def readToken (d : Dialect) (cs : List Char) : Except Misreading (Token × List Char × Nat) :=
  let (channel, after) := channelAt d cs
  let isTriple := d = .extended && "<<<".toList.isPrefixOf after
  let isPath := d = .extended && channel.isNone &&
    ("<(".toList.isPrefixOf after || ">(".toList.isPrefixOf after)
  let word : Except Misreading (Token × List Char × Nat) := do
    let (w, rest) ← readWord d false (cs.length + 1) [] cs
    if d = .extended && w.plain? = some "[[" then
      let (items, rest) ← readItems false (rest.length + 1) rest
      .ok (.condition items, rest, 0)
    else if d = .extended && setsArray w && rest.head? = some '(' then
      let (elements, rest) ← readElements d (rest.length + 1) (rest.drop 1)
      .ok (.array w elements, rest, 0)
    else .ok (.word w, rest, 0)
  match after with
  | '<' :: '<' :: rest =>
    if isTriple then .ok (.redirection channel "<<<", rest.drop 1, 0)
    else readDocument d channel rest
  | after =>
    if isPath then word
    else match operatorAt? (redirections d) after with
      | some (op, rest) => .ok (.redirection channel op, rest, 0)
      | none => match operatorAt? (operators d) cs with
        | some ("(", rest) =>
          if d = .extended && rest.head? = some '(' then
            match balanced '(' ')' (rest.length + 1) 1 [] (rest.drop 1) with
            | some (inside, after) =>
              if inside.getLast? = some ')' then
                .ok (.calculation (String.ofList inside.dropLast), after, 0)
              else .ok (.operator "(", rest, 0)
            | none => .ok (.operator "(", rest, 0)
          else .ok (.operator "(", rest, 0)
        | some (op, rest) => .ok (.operator op, rest, 0)
        | none => word

/-- The tokens of a text that begins on a line, with the misreading that ends them, if there is
one, and its line.  `below` counts the lines of documents that were already read. -/
def lexemesGo (d : Dialect) : Nat → Nat → Nat → List Char → List Lexeme × Option (Nat × Misreading)
  | 0, _, _, _ | _, _, _, [] => ([], none)
  | fuel + 1, line, below, c :: rest =>
    if c = ' ' || c = '\t' then lexemesGo d fuel line below rest
    else if c = '\n' then
      let (ts, fault) := lexemesGo d fuel (line + 1 + below) 0 rest
      (⟨.newline, line, "newline"⟩ :: ts, fault)
    else if c = '#' then lexemesGo d fuel line below (rest.dropWhile (· != '\n'))
    else if c = '\\' && rest.head? = some '\n' then
      lexemesGo d fuel (line + 1) below (rest.drop 1)
    else match readToken d (c :: rest) with
      | .error fault =>
        let line := match fault with
          | .unterminated opening =>
            if d = .extended && opening != '(' then line else line + rest.count '\n'
          | _ => line
        ([], some (line, fault))
      | .ok (t, after, lines) =>
        let isDocument := match t with
          | .document _ _ _ => true
          | _ => false
        let taken := (c :: rest).take (rest.length + 1 - after.length)
        let line := if isDocument then line else line + taken.count '\n'
        let (ts, fault) := lexemesGo d fuel line (below + lines) after
        (⟨t, line, String.ofList (if isDocument then [] else taken)⟩ :: ts, fault)

/-- The tokens of a text that begins on a line, and the misreading that ends them, if there is
one. -/
def lexemes (d : Dialect) (line : Nat) (text : String) :
    List Lexeme × Option (Nat × Misreading) :=
  let cs := text.toList
  lexemesGo d (2 * cs.length + 1) line 0 cs

end FolderTasks.Shell
