import FolderTasks.Machine.Condition
import FolderTasks.Machine.Regex
import FolderTasks.Shell.Builtin
/-!
# Conditions between double brackets

The words of such a condition are not split, and what stands on the right of a comparison is a
pattern.

## Main definitions

* `Shell.holds`: the truth of a condition.
-/

namespace FolderTasks.Shell

open Machine

/-- The truth of a question about one operand. -/
def answerUnary (op operand : String) : Work Bool := do
  let s ← get
  match op with
  | "-v" => match splitReference s.dialect operand.toList with
    | some (r, []) => match r.index with
      | .at key => pure ((s.elementsOf r.name).any fun e => e.1 == key)
      | .all _ => pure !(s.elementsOf r.name).isEmpty
      | .none => pure (s.held? r.name).isSome
    | _ => pure false
  | "-o" => pure (s.isOn operand)
  | op =>
    let v ← (Course.look : Course View)
    pure ((Machine.Condition.unary? v op).any fun holds => holds operand)

/-- Keep in mind what an expression and its groups have fitted. -/
def keepGroups (whole : List Char) (found : Regex.Found) : Work Unit := do
  let piece (start stop : Nat) : String := String.ofList ((whole.take stop).drop start)
  let last := (found.groups.map (·.1)).foldl max 0
  let values := piece found.start found.stop :: (List.range last).map fun i =>
    (found.groups.lookup (i + 1)).elim "" fun (start, stop) => piece start stop
  modify fun s => s.change "BASH_REMATCH" fun p =>
    { p with value := some (.array (values.zipIdx.map fun (v, i) => (i, v))) }

/-- The pattern of a word as a regular expression: what is quoted stands for itself. -/
def regexText (atoms : List Atom) : String :=
  String.join (atoms.map fun
    | .char c isQuoted _ =>
      if isQuoted && !c.isAlphanum && c != ' ' then "\\" ++ String.singleton c
      else String.singleton c
    | _ => "")

/-- The truth of a comparison. -/
def answerBinary (inner : Inner) (op : String) (a b : Word) : Work Bool := do
  let left ← expandText inner a
  let foldsCase := (← get).isOn "nocasematch"
  let folded (s : String) : List Char :=
    if foldsCase then s.toList.map Char.toLower else s.toList
  let numbers (holds : Int → Int → Bool) : Work Bool := do
    let right ← expandText inner b
    pure (holds (← calculate left) (← calculate right))
  match op with
  | "=" | "==" => do pure ((← expandPattern inner b).fits (folded left))
  | "!=" => do pure !((← expandPattern inner b).fits (folded left))
  | "=~" => do
    let text := regexText (← expandWord inner b)
    match Regex.ofText true text with
    | .error _ => do
      Work.done 2
      pure false
    | .ok r => match r.search foldsCase (fun _ _ => true) left.toList 0 with
      | some found => do
        keepGroups left.toList found
        pure true
      | none => do
        modify fun s => s.unset "BASH_REMATCH"
        pure false
  | "-eq" => numbers (· == ·)
  | "-ne" => numbers (· != ·)
  | "-lt" => numbers fun m n => decide (m < n)
  | "-le" => numbers fun m n => decide (m ≤ n)
  | "-gt" => numbers fun m n => decide (n < m)
  | "-ge" => numbers fun m n => decide (n ≤ m)
  | op => do
    let right ← expandText inner b
    let v ← (Course.look : Course View)
    match Machine.Condition.binary? v op with
    | some compare => match compare left right with
      | .ok answer => pure answer
      | .error _ => pure false
    | none => pure false

/-- The truth of a condition. -/
def holds (inner : Inner) : Condition → Work Bool
  | .single w => do pure ((← expandText inner w) != "")
  | .unary op w => do answerUnary op (← expandText inner w)
  | .binary op a b => answerBinary inner op a b
  | .negation a => do pure !(← holds inner a)
  | .conjunction a b => do if ← holds inner a then holds inner b else pure false
  | .disjunction a b => do if ← holds inner a then pure true else holds inner b

end FolderTasks.Shell
