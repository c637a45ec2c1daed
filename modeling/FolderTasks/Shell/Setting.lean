import FolderTasks.Shell.Declaring
/-!
# Following settings

A setting that stands in front of a command sets a parameter, an element of an array, or a whole
array.

## Main definitions

* `Shell.followSetting`: set what a setting says.
* `Shell.traceText`: how commands are shown before they run.
-/

namespace FolderTasks.Shell

open Machine

/-- Set an element that is named by a key. -/
def setByKey (name key value : String) (appends : Bool) : Work Unit := do
  let s ← get
  let old := if appends then
    ((s.elementsOf name).lookup key).getD "" else ""
  match s.held? name with
  | some (.table _) => do
    demandChangeable name
    modify fun s => s.change name fun p => { p with
      value := match p.value with
        | some (.table es) =>
          if (es.lookup key).isSome then
            some (.table (es.map fun e => if e.1 = key then (key, old ++ value) else e))
          else some (.table (es ++ [(key, value)]))
        | v => v }
  | _ => do
    let n := elementNumber s name (← calculate key)
    let old := if appends then ((s.elementsOf name).lookup (toString n)).getD "" else ""
    setElement name n (old ++ value)

/-- The key and the value of an element that is written with its key. -/
def keyed? : Word → Option (Word × Word)
  | .text s false :: rest => match s.toList with
    | '[' :: cs => splitWord [']', '='] (.text (String.ofList cs) false :: rest)
    | _ => none
  | _ => none

/-- The number of the element after the last. -/
def nextElement (s : State) (name : String) : Nat :=
  match s.held? name with
  | some (.array elements) => (elements.getLast?.map fun e => e.1 + 1).getD 0
  | some (.text _) => 1
  | _ => 0

/-- Set elements one after the other. -/
def setElements (inner : Inner) (name : String) : List Word → Work Unit
  | [] => pure ()
  | w :: rest => do
    match keyed? w with
    | some (key, value) =>
      setByKey name (← expandText inner key) (← expandSetting inner value) false
    | none =>
      (← expandFields inner w).forM fun v => do
        setElement name (nextElement (← get) name) v
    setElements inner name rest

/-- Empty a parameter for its elements. -/
def emptyElements (name : String) : Work Unit := do
  demandChangeable name
  modify fun s => s.change name fun p => { p with
    value := match p.value with
      | some (.table _) => some (.table [])
      | _ => some (.array []) }

/-- Set what a setting says, exported if that is asked for; the answer is how the setting is shown
before the command runs. -/
def followSetting (inner : Inner) (exports : Bool) (st : Setting) : Work String := do
  let shown ← match st.value with
    | .text w => do
      let value ← expandSetting inner w
      match st.index with
      | some index => do
        let key ← expandText inner index
        setByKey st.name key value st.appends
        pure (st.name ++ "[" ++ key ++ "]=" ++ value)
      | none => do
        let s ← get
        let isInteger := (s.parameter? st.name).any Parameter.isInteger
        let old := if st.appends then
          (s.value? st.name).getD "" ++ (if isInteger then "+" else "") else ""
        assign st.name (old ++ value)
        pure (st.name ++ (if st.appends then "+=" else "=") ++
          (if s.dialect = .extended then quotedIfNeeded value else value))
    | .elements ws => do
      if !st.appends then emptyElements st.name
      setElements inner st.name ws
      pure (st.name ++ "=(...)")
  if exports then modify fun s => s.change st.name fun p => { p with isExported := true }
  pure shown

/-- Show a command before it runs, if that is asked for. -/
def trace (channel : Nat) (settings words : List String) : Work Unit := do
  let s ← get
  if s.isOn "xtrace" then
    let beginning := (s.value? "PS4").getD "+ "
    let line (texts : List String) : Work Unit :=
      (Course.print channel (beginning ++ String.intercalate " " texts ++ "\n") : Course Unit)
    match s.dialect with
    | .basic => line (settings ++ words)
    | .extended => do
      settings.forM fun t => line [t]
      if !words.isEmpty then
        line (words.map fun w => if w.isEmpty then "\x27\x27" else quotedIfNeeded w)

end FolderTasks.Shell
