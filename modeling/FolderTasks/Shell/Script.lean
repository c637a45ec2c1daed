import FolderTasks.Shell.Token
/-!
# Shell scripts

What a script says, as a tree: commands with their words and redirections, joined to lists,
pipelines, branches and loops.

A script is read line by line, and what stands on earlier lines counts even when a later line
cannot be read.

## Main definitions

* `Shell.Node`: the trees.
* `Shell.Script`: what is left of a script.
* `Shell.Script.ofText`, `Shell.Script.next`: the script of a text, and its next line.

## Design notes

Every step of a reader takes a token or goes down one level of the grammar, and there are only a
few levels, so a small multiple of the number of tokens is enough fuel.
-/

namespace FolderTasks.Shell

/-- Where a channel leads during a command. -/
inductive Redirection where
  | to (channel : Option Nat) (operator : String) (target : Word)
  | document (channel : Option Nat) (text : String) (isQuoted : Bool)
deriving DecidableEq, Repr

/-- What a parameter is set to. -/
inductive Setting.Value where
  | text (w : Word)
  /-- The elements of an array. -/
  | elements (ws : List Word)
deriving DecidableEq, Repr

/-- A parameter is set. -/
structure Setting where
  name : String
  /-- The element of an array that is meant. -/
  index : Option Word := none
  /-- Is the value put at the end of the old one? -/
  appends : Bool := false
  value : Setting.Value
deriving DecidableEq, Repr

/-- A condition between double brackets. -/
inductive Condition where
  | single (w : Word)
  | unary (op : String) (w : Word)
  | binary (op : String) (a b : Word)
  | negation (a : Condition)
  | conjunction (a b : Condition)
  | disjunction (a b : Condition)
deriving Inhabited

/-- How a `case` goes on after an arm. -/
inductive ArmEnd where
  | leave
  /-- With the next arm, whatever its patterns. -/
  | fallThrough
  /-- With the next arm whose patterns fit. -/
  | goOn
deriving DecidableEq, Repr

/-- What a script says. -/
inductive Node where
  | nothing
  /-- Settings of parameters, and a command with its arguments. -/
  | simple (line : Nat) (settings : List Setting) (words : List Word)
      (redirections : List Redirection)
  | sequence (first second : Node)
  /-- The second only if the first succeeds. -/
  | both (first second : Node)
  /-- The second only if the first fails. -/
  | either (first second : Node)
  | negated (body : Node)
  | pipeline (parts : List Node)
  /-- Not waited for. -/
  | background (body : Node)
  | branch (condition yes no : Node)
  /-- Repeated as long as the condition fails, if `awaits` is set, or succeeds. -/
  | loop (awaits : Bool) (condition body : Node)
  /-- Once for every word, or for every argument. -/
  | each (line : Nat) (name : String) (words : Option (List Word)) (body : Node)
  /-- Between a first and a repeated expression as long as a third is not zero. -/
  | counted (line : Nat) (first condition step : String) (body : Node)
  | cases (line : Nat) (word : Word) (arms : List (List Word × Node × ArmEnd))
  /-- In a shell of its own. -/
  | apart (body : Node)
  | redirected (line : Nat) (body : Node) (redirections : List Redirection)
  | define (line : Nat) (name : String) (body : Node)
  | calculation (line : Nat) (expression : String)
  | condition (line : Nat) (c : Condition)
deriving Inhabited

/-- A misreading with its line; the last line of the script goes by the number zero. -/
abbrev Reading (α : Type) := Except (Nat × Misreading) α

/-- The words that have a meaning of their own where a command may begin. -/
def reservedWords : List String :=
  ["if", "then", "else", "elif", "fi", "while", "until", "for", "do", "done", "case", "esac",
    "\x7b", "\x7d", "!", "in"]

/-- What a token is called in complaints. -/
def Token.name : Token → String
  | .word w => match w.plain? with
    | some s => if reservedWords.contains s then "\x22" ++ s ++ "\x22" else "word"
    | none => "word"
  | .operator s => "\x22" ++ s ++ "\x22"
  | .redirection _ _ | .document _ _ _ => "redirection"
  | .newline => "newline"
  | .array _ _ | .condition _ => "word"
  | .calculation _ => "\x22(\x22"

/-- The word that a lexeme is, the empty one if it is none. -/
def Lexeme.word (l : Lexeme) : Word :=
  match l.token with
  | .word w => w
  | _ => []

/-- How a lexeme is written. -/
def Lexeme.written (l : Lexeme) : String :=
  match l.token with
  | .newline => "newline"
  | .document _ _ _ => "<<"
  | _ => l.text

/-- A complaint about the token that stands first. -/
def unexpected {α : Type} (ts : List Lexeme) (expected : Option String) : Reading α :=
  match ts with
  | [] => .error (0, .unexpectedEnd expected)
  | l :: _ => .error (l.line, .unexpected l.token.name l.written expected)

/-- The same where no word has a meaning of its own. -/
def unexpectedPlain {α : Type} (ts : List Lexeme) (expected : Option String) : Reading α :=
  match ts with
  | ⟨.word _, line, text⟩ :: _ => .error (line, .unexpected "word" text expected)
  | ts => unexpected ts expected

/-- The text of a token that is a word without quotes. -/
def Lexeme.plain? (l : Lexeme) : Option String :=
  match l.token with
  | .word w => w.plain?
  | _ => none

/-- Does a certain word stand first? -/
def startsWith (word : String) (ts : List Lexeme) : Bool :=
  (ts.head?.bind Lexeme.plain?) == some word

/-- Does a certain operator stand first? -/
def startsWithOperator (operator : String) (ts : List Lexeme) : Bool :=
  ts.head?.any fun l => l.token == .operator operator

/-- The tokens after a certain word. -/
def expect (word : String) (ts : List Lexeme) : Reading (List Lexeme) :=
  if startsWith word ts then .ok (ts.drop 1) else unexpected ts (some word)

/-- The tokens after a certain operator. -/
def expectOperator (operator : String) (ts : List Lexeme) : Reading (List Lexeme) :=
  if startsWithOperator operator ts then .ok (ts.drop 1) else unexpected ts (some operator)

/-- The tokens after some line ends. -/
def skipNewlines (ts : List Lexeme) : List Lexeme := ts.dropWhile fun l => l.token == .newline

/-- The line of the token that stands first. -/
def lineOf (ts : List Lexeme) : Nat := (ts.head?.map (·.line)).getD 0

/-- Does a list of commands end here? -/
def closes (ts : List Lexeme) : Bool :=
  match ts with
  | [] => true
  | l :: _ => match l.token with
    | .operator s => [")", ";;", ";&", ";;&"].contains s
    | .word w => match w.plain? with
      | some s => ["then", "else", "elif", "fi", "do", "done", "esac", "\x7d"].contains s
      | none => false
    | _ => false

/-! ## Settings -/

/-- The pieces of a word before and after an unquoted text, which is searched for from its
beginning. -/
def splitWord (mark : List Char) : Word → Option (Word × Word)
  | [] => none
  | .text s false :: rest =>
    let cs := s.toList
    match (List.range cs.length).find? fun n => mark.isPrefixOf (cs.drop n) with
    | some n =>
      let before := cs.take n
      let after := cs.drop (n + mark.length)
      some (if before.isEmpty then [] else [.text (String.ofList before) false],
        if after.isEmpty then rest else .text (String.ofList after) false :: rest)
    | none => (splitWord mark rest).map fun (a, b) => (.text s false :: a, b)
  | p :: rest => (splitWord mark rest).map fun (a, b) => (p :: a, b)

/-- The setting that a word says, if it is one. -/
def setting? (d : Dialect) : Word → Option Setting
  | .text s false :: rest =>
    let cs := s.toList
    let name := cs.takeWhile isNamePart
    let valueOf (value : List Char) : Word :=
      if value.isEmpty then rest else .text (String.ofList value) false :: rest
    if !name.head?.any isNameStart then none
    else match cs.drop name.length with
      | '=' :: value => some { name := String.ofList name, value := .text (valueOf value) }
      | '+' :: '=' :: value =>
        if d = .extended then
          some { name := String.ofList name, appends := true, value := .text (valueOf value) }
        else none
      | '[' :: inside =>
        if d = .extended then
          let w := valueOf inside
          let plain := splitWord [']', '='] w
          let appending := splitWord [']', '+', '='] w
          match plain, appending with
          | some (index, value), none =>
            some { name := String.ofList name, index := some index, value := .text value }
          | _, some (index, value) =>
            some { name := String.ofList name, index := some index, appends := true
                   value := .text value }
          | none, none => none
        else none
      | _ => none
  | _ => none

/-- The setting of an array with its elements. -/
def arraySetting (w : Word) (elements : List Word) : Setting :=
  let cs := ((Word.plain? w).getD "").toList
  { name := String.ofList (cs.takeWhile isNamePart), appends := cs.contains '+'
    value := .elements elements }

/-! ## Simple commands -/

/-- A redirection, of which the operator was read. -/
def readRedirection (d : Dialect) (ts : List Lexeme) :
    Option (Reading (Redirection × List Lexeme)) :=
  match ts with
  | [] => none
  | l :: rest => match l.token with
    | .redirection n op => some (match rest with
      | ⟨.word w, line, text⟩ :: rest =>
        let isBad := d = .basic && (op = ">&" || op = "<&") && w.plain?.any fun t =>
          t != "-" && !(t.length = 1 && t.toList.all Char.isDigit)
        if isBad then .error (line, .badName "fd number" text) else .ok (.to n op w, rest)
      | rest => unexpected rest none)
    | .document n text isQuoted => some (.ok (.document n text isQuoted, rest))
    | _ => none

/-- The redirections at the beginning of the tokens. -/
def readRedirections (d : Dialect) : Nat → List Lexeme →
    Reading (List Redirection × List Lexeme)
  | 0, ts => .ok ([], ts)
  | fuel + 1, ts => match readRedirection d ts with
    | none => .ok ([], ts)
    | some r => do
      let (first, ts) ← r
      let (more, ts) ← readRedirections d fuel ts
      .ok (first :: more, ts)

/-- The commands after which settings are arguments, even of arrays. -/
def declarations : List String := ["declare", "typeset", "local", "readonly", "export"]

/-- A simple command, of which some parts have been read. -/
def readSimple (d : Dialect) (line : Nat) (settings : List Setting) (words : List Word)
    (redirections : List Redirection) : Nat → List Lexeme → Reading (Node × List Lexeme)
  | 0, ts => unexpected ts none
  | fuel + 1, ts =>
    match readRedirection d ts with
    | some r => do
      let (first, rest) ← r
      readSimple d line settings words (redirections ++ [first]) fuel rest
    | none => match ts with
      | ⟨.word w, _, _⟩ :: rest =>
        match if words.isEmpty then setting? d w else none with
        | some s => readSimple d line (settings ++ [s]) words redirections fuel rest
        | none => readSimple d line settings (words ++ [w]) redirections fuel rest
      | ⟨.array w elements, _, _⟩ :: rest =>
        let isDeclared := (words.head?.bind Word.plain?).any declarations.contains
        if words.isEmpty then
          readSimple d line (settings ++ [arraySetting w elements]) words redirections fuel rest
        else if isDeclared then
          readSimple d line (settings ++ [arraySetting w elements])
            (words ++ [[.text (arraySetting w elements).name false]]) redirections fuel rest
        else .error (lineOf ts, .unexpected "\x22(\x22" "(" none)
      | ts =>
        if settings.isEmpty && words.isEmpty && redirections.isEmpty then unexpected ts none
        else if startsWithOperator "(" ts && settings.isEmpty && redirections.isEmpty &&
            words.length = 1 then
          unexpectedPlain (ts.drop 1) (some ")")
        else .ok (.simple line settings words redirections, ts)

/-- The commands after whose misuse the shell gives up, and whose settings remain. -/
def firmNames : List String :=
  [":", "break", "continue", ".", "eval", "exec", "exit", "export", "local", "readonly", "return",
    "set", "shift", "times", "trap", "unset"]

/-- Is a function defined?  A word with a meaning of its own is no name of one. -/
def isDefinition : List Lexeme → Bool
  | ⟨.word w, _, _⟩ :: ⟨.operator "(", _, _⟩ :: ⟨.operator ")", _, _⟩ :: _ =>
    !w.plain?.any reservedWords.contains
  | _ => false

/-- Does a command stand first that is made of others? -/
def isCompound (ts : List Lexeme) : Bool :=
  match ts with
  | [] => true
  | l :: _ => match l.token with
    | .operator "(" | .calculation _ | .condition _ => true
    | _ => ["\x7b", "if", "while", "until", "for", "case"].contains (l.plain?.getD "")

/-- The words up to the end of a command. -/
def readWords : List Lexeme → List Word × List Lexeme
  | ⟨.word w, _, _⟩ :: rest =>
    let (ws, rest) := readWords rest
    (w :: ws, rest)
  | ts => ([], ts)

/-- The patterns of a branch up to its parenthesis.  In the basic language whatever stands in the
place of one is taken for it. -/
def readPatterns (d : Dialect) : List Lexeme → Reading (List Word × List Lexeme)
  | [] => .error (0, .unexpectedEnd (some ")"))
  | l :: rest =>
    let isWord := match l.token with
      | .word _ => true
      | _ => false
    if d = .extended && !isWord then unexpected (l :: rest) none
    else match rest with
      | ⟨.operator "|", _, _⟩ :: rest => do
        let (ws, rest) ← readPatterns d rest
        .ok (l.word :: ws, rest)
      | ⟨.operator ")", _, _⟩ :: rest => .ok ([l.word], rest)
      | rest => unexpectedPlain rest (some ")")

/-- A command with the redirections that follow it. -/
def withRedirections (d : Dialect) (line : Nat) (body : Node) (ts : List Lexeme) :
    Reading (Node × List Lexeme) := do
  let (redirections, ts) ← readRedirections d (ts.length + 1) ts
  .ok (if redirections.isEmpty then body else .redirected line body redirections, ts)

/-! ## Conditions between brackets -/

/-- The operators of conditions with one operand. -/
def conditionUnary : List String :=
  ["-a", "-b", "-c", "-d", "-e", "-f", "-g", "-h", "-k", "-p", "-r", "-s", "-t", "-u", "-w", "-x",
    "-G", "-L", "-N", "-O", "-S", "-z", "-n", "-o", "-v", "-R"]

/-- The operators of conditions with two operands. -/
def conditionBinary : List String :=
  ["==", "=", "!=", "=~", "-eq", "-ne", "-lt", "-le", "-gt", "-ge", "-nt", "-ot", "-ef"]

/-- The condition at the beginning of some items; levels are alternatives, conjunctions and single
conditions. -/
def readConditionGo : Nat → Nat → List ConditionItem → Option (Condition × List ConditionItem)
  | 0, _, _ => none
  | fuel + 1, 0, items => do
    let (a, rest) ← readConditionGo fuel 1 items
    match rest with
    | .operator "||" :: rest =>
      let (b, rest) ← readConditionGo fuel 0 rest
      some (.disjunction a b, rest)
    | rest => some (a, rest)
  | fuel + 1, 1, items => do
    let (a, rest) ← readConditionGo fuel 2 items
    match rest with
    | .operator "&&" :: rest =>
      let (b, rest) ← readConditionGo fuel 1 rest
      some (.conjunction a b, rest)
    | rest => some (a, rest)
  | fuel + 1, _, items =>
    let plain (w : Word) : String := w.plain?.getD ""
    match items with
    | .operator "!" :: rest => do
      let (a, rest) ← readConditionGo fuel 2 rest
      some (.negation a, rest)
    | .operator "(" :: rest => do
      let (a, rest) ← readConditionGo fuel 0 rest
      match rest with
      | .operator ")" :: rest => some (a, rest)
      | _ => none
    | .word a :: .operator op :: .word b :: rest =>
      if op = "<" || op = ">" then some (.binary op a b, rest)
      else some (.single a, .operator op :: .word b :: rest)
    | .word a :: .word op :: .word b :: rest =>
      if conditionBinary.contains (plain op) then some (.binary (plain op) a b, rest)
      else if conditionUnary.contains (plain a) then some (.unary (plain a) op, .word b :: rest)
      else none
    | .word a :: .word b :: rest =>
      if conditionUnary.contains (plain a) then some (.unary (plain a) b, rest) else none
    | .word a :: rest => some (.single a, rest)
    | _ => none

/-- The condition that some items say. -/
def readCondition (line : Nat) (items : List ConditionItem) : Reading Condition :=
  match readConditionGo (6 * items.length + 6) 0 items with
  | some (c, []) => .ok c
  | _ => .error (line, .unexpected "word" "]]" none)

/-- The three expressions between double parentheses after `for`. -/
def threeExpressions (text : String) : Option (String × String × String) :=
  match (text.toList.splitOn ';').map String.ofList with
  | [a, b, c] => some (a, b, c)
  | _ => none

/-! ## Commands -/

mutual

/-- Commands one after the other, up to where a list ends; on one line only if `oneLine` is
set. -/
def readList (d : Dialect) (oneLine mayBeEmpty : Bool) :
    Nat → List Lexeme → Reading (Node × List Lexeme)
  | 0, ts => unexpected ts none
  | fuel + 1, ts =>
    let ts := if oneLine then ts else skipNewlines ts
    let isLineEnd := ts.head?.any fun l => l.token == .newline
    if ts.isEmpty || mayBeEmpty && (closes ts || oneLine && isLineEnd) then .ok (.nothing, ts)
    else do
      let (first, ts) ← readAlternatives d fuel ts
      match ts with
      | [] => .ok (first, [])
      | l :: rest => match l.token with
        | .operator ";" => do
          let (second, ts) ← readList d oneLine true fuel rest
          .ok (.sequence first second, ts)
        | .operator "&" => do
          let (second, ts) ← readList d oneLine true fuel rest
          .ok (.sequence (.background first) second, ts)
        | .newline =>
          if oneLine then .ok (first, ts)
          else do
            let (second, ts) ← readList d oneLine true fuel rest
            .ok (.sequence first second, ts)
        | _ => if !oneLine || closes ts then .ok (first, ts) else unexpected ts none

/-- Pipelines joined by `&&` and `||`. -/
def readAlternatives (d : Dialect) : Nat → List Lexeme → Reading (Node × List Lexeme)
  | 0, ts => unexpected ts none
  | fuel + 1, ts => do
    let (first, ts) ← readPipeline d fuel ts
    readMoreAlternatives d fuel first ts

/-- What else is joined by `&&` and `||`. -/
def readMoreAlternatives (d : Dialect) : Nat → Node → List Lexeme → Reading (Node × List Lexeme)
  | 0, _, ts => unexpected ts none
  | fuel + 1, first, ts =>
    if startsWithOperator "&&" ts then do
      let (second, ts) ← readPipeline d fuel (skipNewlines (ts.drop 1))
      readMoreAlternatives d fuel (.both first second) ts
    else if startsWithOperator "||" ts then do
      let (second, ts) ← readPipeline d fuel (skipNewlines (ts.drop 1))
      readMoreAlternatives d fuel (.either first second) ts
    else .ok (first, ts)

/-- Commands joined by `|`, perhaps after a `!`. -/
def readPipeline (d : Dialect) : Nat → List Lexeme → Reading (Node × List Lexeme)
  | 0, ts => unexpected ts none
  | fuel + 1, ts => do
    if startsWith "!" ts then
      if d = .basic && startsWith "!" (ts.drop 1) then unexpected (ts.drop 1) none
      else
        let (body, ts) ← readPipeline d fuel (ts.drop 1)
        .ok (.negated body, ts)
    else
      let (parts, ts) ← readParts d fuel ts
      match parts with
      | [part] => .ok (part, ts)
      | parts => .ok (.pipeline parts, ts)

/-- The parts of a pipeline. -/
def readParts (d : Dialect) : Nat → List Lexeme → Reading (List Node × List Lexeme)
  | 0, ts => unexpected ts none
  | fuel + 1, ts => do
    let (part, ts) ← readCommand d fuel ts
    if startsWithOperator "|" ts then
      let (parts, ts) ← readParts d fuel (skipNewlines (ts.drop 1))
      .ok (part :: parts, ts)
    else if startsWithOperator "|&" ts then
      let errors : Redirection := .to (some 2) ">&" [.text "1" false]
      let (parts, ts) ← readParts d fuel (skipNewlines (ts.drop 1))
      .ok (.redirected 0 part [errors] :: parts, ts)
    else .ok ([part], ts)

/-- One command. -/
def readCommand (d : Dialect) : Nat → List Lexeme → Reading (Node × List Lexeme)
  | 0, ts => unexpected ts none
  | fuel + 1, ts =>
    let line := lineOf ts
    match ts with
    | ⟨.calculation e, _, _⟩ :: rest => withRedirections d line (.calculation line e) rest
    | ⟨.condition items, _, _⟩ :: rest => do
      withRedirections d line (.condition line (← readCondition line items)) rest
    | ⟨.operator "(", _, _⟩ :: rest => do
      let (body, ts) ← readList d false false fuel rest
      withRedirections d line (.apart body) (← expectOperator ")" ts)
    | ⟨.word w, _, text⟩ :: rest => match if isDefinition ts then none else w.plain? with
      | none =>
        if isDefinition ts then
          let name := w.plain?.getD ""
          let isBad := d = .basic && (!isName name || firmNames.contains name)
          let ts := skipNewlines (rest.drop 2)
          if isBad || d = .basic && w.plain?.isNone then
            .error (line, .badName "function name" text)
          else if d = .extended && !isCompound ts then unexpected ts none
          else do
            let (body, ts) ← readCommand d fuel ts
            .ok (.define line (if w.plain?.isSome then name else text) body, ts)
        else readSimple d line [] [] [] (ts.length + 1) ts
      | some "\x7b" => do
        let (body, ts) ← readList d false false fuel rest
        withRedirections d line body (← expect "\x7d" ts)
      | some "if" => do
        let (body, ts) ← readBranch d fuel rest
        withRedirections d line body ts
      | some "while" => do
        let (body, ts) ← readLoop d false fuel rest
        withRedirections d line body ts
      | some "until" => do
        let (body, ts) ← readLoop d true fuel rest
        withRedirections d line body ts
      | some "for" => do
        let (body, ts) ← readEach d fuel rest
        withRedirections d line body ts
      | some "case" => match rest with
        | ⟨.word w, _, _⟩ :: rest => do
          let ts ← expect "in" (skipNewlines rest)
          let (arms, ts) ← readArms d fuel (skipNewlines ts)
          withRedirections d line (.cases line w arms) ts
        | ts => unexpected ts (some "word")
      | some "function" =>
        if d = .basic then readSimple d line [] [] [] (ts.length + 1) ts
        else match rest with
          | ⟨.word w, _, _⟩ :: rest => do
            let rest := if startsWithOperator "(" rest && startsWithOperator ")" (rest.drop 1)
              then rest.drop 2 else rest
            let (body, ts) ← readCommand d fuel (skipNewlines rest)
            .ok (.define line ((w.plain?).getD "") body, ts)
          | ts => unexpected ts none
      | some "time" =>
        if d = .basic then readSimple d line [] [] [] (ts.length + 1) ts
        else readPipeline d fuel (if startsWith "-p" rest then rest.drop 1 else rest)
      | _ => if closes ts || startsWith "in" ts then unexpected ts none
        else readSimple d line [] [] [] (ts.length + 1) ts
    | ts => readSimple d line [] [] [] (ts.length + 1) ts

/-- The rest of a branch after `if` or `elif`. -/
def readBranch (d : Dialect) : Nat → List Lexeme → Reading (Node × List Lexeme)
  | 0, ts => unexpected ts none
  | fuel + 1, ts => do
    let (condition, ts) ← readList d false false fuel ts
    let (yes, ts) ← readList d false false fuel (← expect "then" ts)
    if startsWith "elif" ts then
      let (no, ts) ← readBranch d fuel (ts.drop 1)
      .ok (.branch condition yes no, ts)
    else if startsWith "else" ts then
      let (no, ts) ← readList d false false fuel (ts.drop 1)
      .ok (.branch condition yes no, ← expect "fi" ts)
    else .ok (.branch condition yes .nothing, ← expect "fi" ts)

/-- The rest of a loop after its first word. -/
def readLoop (d : Dialect) (awaits : Bool) : Nat → List Lexeme → Reading (Node × List Lexeme)
  | 0, ts => unexpected ts none
  | fuel + 1, ts => do
    let (condition, ts) ← readList d false false fuel ts
    let (body, ts) ← readList d false false fuel (← expect "do" ts)
    .ok (.loop awaits condition body, ← expect "done" ts)

/-- The body of a loop over words; the extended language also takes one between braces. -/
def readBody (d : Dialect) : Nat → List Lexeme → Reading (Node × List Lexeme)
  | 0, ts => unexpected ts none
  | fuel + 1, ts => do
    if d = .extended && startsWith "\x7b" ts then
      let (body, ts) ← readList d false false fuel (ts.drop 1)
      .ok (body, ← expect "\x7d" ts)
    else
      let (body, ts) ← readList d false false fuel (← expect "do" ts)
      .ok (body, ← expect "done" ts)

/-- The rest of a loop over words after `for`. -/
def readEach (d : Dialect) : Nat → List Lexeme → Reading (Node × List Lexeme)
  | 0, ts => unexpected ts none
  | fuel + 1, ts =>
    let line := lineOf ts
    match ts with
    | ⟨.calculation text, _, _⟩ :: rest => match threeExpressions text with
      | none => unexpected ts none
      | some (first, condition, step) => do
        let ts := if startsWithOperator ";" rest then rest.drop 1 else rest
        let (body, ts) ← readBody d fuel (skipNewlines ts)
        .ok (.counted line first condition step body, ts)
    | ts => match ts.head?.map fun l => (l.plain?, l.text) with
      | none =>
        if d = .basic then .error (0, .badName "for loop variable" "") else unexpected ts none
      | some (plain?, text) =>
        let isWord := match ts.head? with
          | some ⟨.word _, _, _⟩ => true
          | _ => false
        let name := plain?.getD text
        if d = .basic && !(plain?.any isName) then
          .error (line, .badName "for loop variable" text)
        else if !isWord then unexpected ts none
        else do
          let ts := skipNewlines (ts.drop 1)
          let (words, ts) :=
            if startsWith "in" ts then
              let (ws, ts) := readWords (ts.drop 1)
              (some ws, ts)
            else (none, ts)
          if words.isSome && !startsWithOperator ";" ts &&
              !ts.head?.any (fun l => l.token == .newline) then
            unexpected ts none
          else
            let ts := skipNewlines (if startsWithOperator ";" ts then ts.drop 1 else ts)
            let (body, ts) ← readBody d fuel ts
            .ok (.each line name words body, ts)

/-- The arms of a `case` up to `esac`. -/
def readArms (d : Dialect) : Nat → List Lexeme → Reading (List (List Word × Node × ArmEnd) ×
    List Lexeme)
  | 0, ts => unexpected ts none
  | fuel + 1, ts =>
    if startsWith "esac" ts then .ok ([], ts.drop 1)
    else do
      let ts := if startsWithOperator "(" ts then ts.drop 1 else ts
      let (patterns, ts) ← readPatterns d ts
      let (body, ts) ← readList d false true fuel ts
      let ending := if startsWithOperator ";;" ts then some ArmEnd.leave
        else if startsWithOperator ";&" ts then some .fallThrough
        else if startsWithOperator ";;&" ts then some .goOn
        else none
      match ending with
      | some e => do
        let (arms, ts) ← readArms d fuel (skipNewlines (ts.drop 1))
        .ok ((patterns, body, e) :: arms, ts)
      | none =>
        if startsWith "esac" ts then .ok ([(patterns, body, .leave)], ts.drop 1)
        else unexpected ts (some ";;")

end

/-! ## Scripts -/

/-- What is left of a script. -/
structure Script where
  dialect : Dialect
  lexemes : List Lexeme
  /-- What is wrong with the text after the last token. -/
  misreading : Option (Nat × Misreading) := none
  /-- Is it wrong with a script within that text? -/
  isWithin : Bool := false
  /-- The number of the last line. -/
  endLine : Nat := 1

namespace Script

/-- The scripts whose output a word takes, each with whether it stands between backward quotes. -/
def innerScripts (d : Dialect) : Nat → Word → List (String × Bool)
  | 0, _ | _, [] => []
  | fuel + 1, p :: rest =>
    let within (text : String) (isQuoted : Bool) : List (String × Bool) :=
      match if isQuoted then readQuotable d .dropped text else wordOf d text with
      | .ok w => innerScripts d fuel w
      | .error _ => []
    let own := match p with
      | .output script _ isBackward => [(script, isBackward)]
      | .parameter _ (.instead _ _ text) isQuoted | .parameter _ (.trimmed _ _ text) isQuoted =>
        within text isQuoted
      | .value text _ => within text true
      | _ => []
    own ++ innerScripts d fuel rest

/-- The scripts within a token that are read together with it. -/
def scriptsOf (d : Dialect) (l : Lexeme) : List (String × Bool) :=
  match d, l.token with
  | .basic, .word w => innerScripts d (l.text.length + 1) w
  | .basic, .document _ text false => match readQuotable d .kept text with
    | .ok w => innerScripts d (text.length + 1) w
    | .error _ => []
  | .extended, .word w => (innerScripts d (l.text.length + 1) w).filter fun e => !e.2
  | _, _ => []

/-- What is wrong with a script whose output is taken.  Between parentheses all of it has to be
read, and its end is the closing one. -/
def innerFault? (d : Dialect) : Nat → String × Bool → Option Misreading
  | 0, _ => none
  | fuel + 1, (text, isBackward) =>
    let (ls, misreading) := Shell.lexemes d 1 text
    match ls.findSome? fun l => (scriptsOf d l).findSome? (innerFault? d fuel) with
    | some m => some m
    | none => match skipNewlines ls, misreading with
      | [], misreading => misreading.map (·.2)
      | ls, misreading =>
        let closing : List Lexeme :=
          if isBackward || misreading.isSome then [] else [⟨.operator ")", 1, ")"⟩]
        match readList d false true (12 * ls.length + 24) (ls ++ closing), misreading with
        | .error (_, .unexpectedEnd _), some (_, m) | .ok (_, []), some (_, m) => some m
        | .error (_, m), _ => some m
        | .ok (_, l :: _), _ =>
          if isBackward || l.token == .operator ")" then none
          else some (.unexpected l.token.name l.written (some ")"))
        | .ok (_, []), none => none

/-- The script of a text that begins on a line; the scripts within it are read together with it.
In the extended language a line end is added to the last line if it has none. -/
def ofText (d : Dialect) (line : Nat) (text : String) : Script :=
  let isOpen := d = .extended && !text.isEmpty && text.toList.getLast? != some '\n'
  let text := if isOpen then text ++ "\n" else text
  let endLine := line + text.toList.count '\n'
  let (lexemes, misreading) := Shell.lexemes d line text
  let faults := lexemes.map fun l => (scriptsOf d l).findSome? (innerFault? d text.length)
  match faults.findIdx? Option.isSome with
  | some n =>
    let misreading := (faults[n]?).join.map fun m => ((lexemes[n]?.map (·.line)).getD line, m)
    { dialect := d, lexemes := lexemes.take n, misreading, isWithin := true, endLine }
  | none => { dialect := d, lexemes, misreading, endLine }

/-- What comes next in a script. -/
inductive Next where
  | finished
  | fault (line : Nat) (m : Misreading)
  /-- A command; `isLast` says whether it ends the script. -/
  | command (node : Node) (isLast : Bool) (rest : Script)

/-- A misreading that was noticed, or the one that ends the text before it. -/
def faultOf (s : Script) (fault : Nat × Misreading) : Next :=
  match fault.2, s.misreading with
  | .unexpectedEnd _, some (line, m) => .fault line m
  | m, _ => .fault (if fault.1 = 0 then s.endLine else fault.1) m

/-- The tokens of a line with the words that have other meanings replaced by them; `taken` are
those words within which this one stands. -/
def replaceAliases (aliases : List (String × String)) :
    Nat → Bool → List Lexeme → List Lexeme
  | 0, _, ts => ts
  | _, _, [] => []
  | fuel + 1, isCommand, l :: rest =>
    let itself (isCommand : Bool) : List Lexeme := l :: replaceAliases aliases fuel isCommand rest
    match l.token with
    | .operator _ | .newline => itself true
    | .word w =>
      let name := w.plain?.getD ""
      if !isCommand then itself false
      else if reservedWords.contains name then itself (name != "for" && name != "case")
      else if (setting? .basic w).isSome then itself true
      else match aliases.lookup name with
        | none => itself false
        | some text =>
          let ls := (Shell.lexemes .basic l.line text).1.map fun k => { k with line := l.line }
          let others := aliases.filter fun a => a.1 != name
          let isOpen := text.toList.getLast? == some ' '
          replaceAliases others fuel true ls ++ replaceAliases aliases fuel isOpen rest
    | _ => itself isCommand

/-- The next line of a script. -/
def next (aliases : List (String × String)) (s : Script) : Next :=
  let ts := skipNewlines s.lexemes
  match ts with
  | [] => match s.misreading with
    | some (line, m) => .fault line m
    | none => .finished
  | ts =>
    let fuel (ts : List Lexeme) : Nat := 12 * ts.length + 12
    let read (ts : List Lexeme) : Reading (Node × List Lexeme) :=
      readList s.dialect true false (fuel ts) ts
    let result : Reading (Node × List Lexeme) := match read ts with
      | .error fault => .error fault
      | .ok (node, rest) =>
        if aliases.isEmpty then .ok (node, rest)
        else
          let own := ts.take (ts.length - rest.length)
          let replaced := replaceAliases aliases (20 * own.length + 100) true own
          match read (replaced ++ rest) with
          | .ok (node, _) => .ok (node, rest)
          | .error fault => .error fault
    match result with
    | .error fault => s.faultOf fault
    | .ok (node, rest) =>
      match rest, s.misreading with
      | [], some (line, m) => .fault line m
      | [], none => .command node true { s with lexemes := [] }
      | rest, _ =>
        if closes rest then match rest with
          | l :: _ => .fault l.line (.unexpected l.token.name l.written none)
          | [] => .finished
        else if (skipNewlines rest).isEmpty && s.misreading.isNone then
          .command node true { s with lexemes := [] }
        else .command node false { s with lexemes := rest }

end Script

end FolderTasks.Shell
