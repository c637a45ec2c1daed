import FolderTasks.Shell.Expansion
/-!
# Redirections

Before a command runs, channels can be led to files, to where other channels lead, or nowhere.
Unless that is to last, the channels lead afterwards to where they led before.

## Main definitions

* `Shell.redirectAll`: follow some redirections in order.
* `Shell.redirecting`: do something with channels redirected.
-/

namespace FolderTasks.Shell

open Files Machine

/-- Why a file cannot be opened; `absent` is what is said when it is not there. -/
def openFault (absent : String) (fault : Fault) : String :=
  if fault = .notFound || fault = .notDirectory then absent else fault.reason

/-- A redirection as it is followed: what went wrong, if something did. -/
abbrev Redirecting := ExceptT String Work

/-- What is said of a file that cannot be opened. -/
def cannotOpen (d : Dialect) (isWritten : Bool) (path : String) (fault : Fault) : String :=
  match d with
  | .extended =>
    path ++ ": " ++ if fault = .alreadyExists then "cannot overwrite existing file" else fault.reason
  | .basic =>
    if isWritten then "cannot create " ++ path ++ ": " ++ openFault "Directory nonexistent" fault
    else "cannot open " ++ path ++ ": " ++ openFault "No such file" fault

/-- Lead a channel to an open file, or close it. -/
def leadTo (n : Nat) (o : Option Nat) : Course Unit :=
  Course.changeContext fun c => c.setChannel n o

/-- Lead a channel to the file of a path. -/
def leadToPath (n : Nat) (path : String) (p : Purpose) : Redirecting Unit := do
  match ← Course.openPath path p with
  | .ok o => leadTo n (some o)
  | .error fault => throw (cannotOpen (← get).dialect p.writes path fault)

/-- Lead a channel to where another one leads. -/
def leadLike (n : Nat) (other : String) : Redirecting Unit := do
  if other = "-" then leadTo n none
  else match other.toNat? with
    | none => throw (match (← get).dialect with
      | .basic => "Syntax error: Bad fd number"
      | .extended => other ++ ": ambiguous redirect")
    | some m => match (← (Course.look : Course View)).context.opened? m with
      | some o => leadTo n (some o)
      | none => throw (other ++ ": Bad file descriptor")

/-- Have a channel deliver some bytes. -/
def leadFrom (n : Nat) (bs : Bytes) : Course Unit := do
  let (o, _) ← Course.changeStore fun s => s.makePipe bs
  leadTo n (some o)

/-- Lead a channel to a file that is written, which must be new or no plain file if the option is
switched on that protects files. -/
def leadToNew (n : Nat) (path : String) : Redirecting Unit := do
  let v ← (Course.look : Course View)
  let isPlain := match v.nodeAt? path with
    | some ⟨.file _, _, _⟩ => true
    | _ => false
  if (← get).isOn "noclobber" && isPlain then
    throw (cannotOpen (← get).dialect true path .alreadyExists)
  else leadToPath n path .toWrite

/-- The text that a target stands for. -/
def targetOf (inner : Inner) (w : Word) : Redirecting String := do
  if (← get).dialect = .basic then (expandText inner w : Work String)
  else match ← (expandFields inner w : Work (List String)) with
    | [path] => pure path
    | _ => throw (String.join (w.map fun
        | .text s _ => s
        | .parameter r _ _ => "$" ++ r.name
        | _ => "") ++ ": ambiguous redirect")

/-- Follow a redirection. -/
def redirect (inner : Inner) : Redirection → Redirecting Unit
  | .document n text isQuoted => do
    let text ← if isQuoted then pure text
      else do
        let w ← (readAgain (readQuotable (← get).dialect .kept text) : Work Word)
        (expandText inner w : Work String)
    leadFrom (n.getD 0) (bytesOf text)
  | .to n "<<<" target => do
    let text ← (expandText inner target : Work String)
    leadFrom (n.getD 0) (bytesOf (text ++ "\n"))
  | .to n operator target => do
    let path ← targetOf inner target
    let n := n.getD (if operator.toList.head? = some '<' then 0 else 1)
    match operator with
    | "<" => leadToPath n path .toRead
    | "<>" => leadToPath n path { reads := true, writes := true, creates := true }
    | ">>" => leadToPath n path .toAppend
    | ">|" => leadToPath n path .toWrite
    | "&>" => do
      leadToNew 1 path
      leadLike 2 "1"
    | "&>>" => do
      leadToPath 1 path .toAppend
      leadLike 2 "1"
    | "<&" => leadLike n path
    | ">&" => do
      let isNumber := path = "-" || (!path.isEmpty && path.toList.all Char.isDigit)
      if (← get).dialect = .extended && !isNumber && n = 1 then do
        leadToNew 1 path
        leadLike 2 "1"
      else leadLike n path
    | _ => leadToNew n path

/-- Follow some redirections in order; the answer is what is wrong with the first that fails. -/
def redirectAll (inner : Inner) (rs : List Redirection) : Work (Option String) := do
  match ← (rs.forM (redirect inner) : Redirecting Unit).run with
  | .ok () => pure none
  | .error complaint => pure (some complaint)

/-- The channels that redirections lead elsewhere. -/
def channelsOf (rs : List Redirection) : List Nat :=
  (rs.flatMap fun
    | .document n _ _ => [n.getD 0]
    | .to n operator _ =>
      if operator = "&>" || operator = "&>>" then [1, 2]
      else if operator = ">&" && n.isNone then [1, 2]
      else [n.getD (if operator.toList.head? = some '<' then 0 else 1)]).eraseDups

/-- The least number of a channel that holds on to where another one led. -/
def firstSpare : Nat := 10

/-- Hold on to where some channels lead; the answer says where. -/
def saveChannels (channels : List Nat) : Work (List (Nat × Option Nat)) :=
  channels.mapM fun n => do
    let c := (← (Course.look : Course View)).context
    match c.opened? n with
    | none => pure (n, none)
    | some o => do
      let spare := c.freeChannel firstSpare
      (leadTo spare (some o) : Course Unit)
      modify fun s => { s with saved := spare :: s.saved }
      pure (n, some spare)

/-- Lead channels back to where they led before. -/
def restoreChannels (before : List (Nat × Option Nat)) : Work Unit :=
  before.reverse.forM fun (n, spare) => do
    match spare with
    | none => (leadTo n none : Course Unit)
    | some spare => do
      let c := (← (Course.look : Course View)).context
      (leadTo n (c.opened? spare) : Course Unit)
      (leadTo spare none : Course Unit)
      modify fun s => { s with saved := s.saved.filter (· != spare) }

/-- Do something with channels redirected, or something else, which is told what is wrong, if that
is not possible; a complaint goes to where the redirections before the bad one lead.  Afterwards the
channels lead to where they led before.  What is done is told the channel that leads to where errors
went before. -/
def redirecting (inner : Inner) (rs : List Redirection) (body : Nat → Work Unit)
    (otherwise : String → Work Unit) : Work Unit := do
  if rs.isEmpty then body 2
  else
    let before ← saveChannels (channelsOf rs)
    let undoing {α : Type} (w : Work α) : Work α :=
      try w
      catch flow =>
        restoreChannels before
        throw flow
    match ← undoing (redirectAll inner rs) with
    | some complaint => undoing (otherwise complaint)
    | none => undoing (body (((before.lookup 2).join).getD 2))
    restoreChannels before

end FolderTasks.Shell
