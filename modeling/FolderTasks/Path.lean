/-!
# File paths

A path is kept exactly as it was spelled.  Two spellings name the same path when they have the
same components: repeated and trailing slashes do not count, nor does `.` except at the very
beginning of a relative path; `..` counts.

## Main definitions

* `Path`: a spelling.
* `Path.components`: what the spelling names.
* `Path.Same`: two spellings of one path.
* `Path.le`: the order of paths, component by component.
* `Path.fileName?`, `Path.parent?`, `Path.withExtension`: parts of the spelling.
-/

namespace FolderTasks

/-- A file path as it was spelled. -/
structure Path where
  text : String
deriving DecidableEq, Repr, Inhabited

namespace Path

/-- A component of a path. -/
inductive Component where
  /-- The slash at the beginning. -/
  | root
  /-- A `.` at the beginning. -/
  | here
  /-- A `..` anywhere. -/
  | up
  /-- Any other name. -/
  | name (s : String)
deriving DecidableEq, Repr

/-- The segments of a spelling between its slashes. -/
def segments (cs : List Char) : List (List Char) :=
  cs.splitOn '/'

/-- The component of a segment; the empty segment and `.` have none. -/
def component? (segment : List Char) : Option Component :=
  if segment = [] || segment = ['.'] then none
  else if segment = ['.', '.'] then some .up
  else some (.name (String.ofList segment))

/-- The part at the beginning of a spelling that is a component by itself, a slash or a `.`, and
the rest. -/
def splitLead : List Char → Option Component × List Char
  | '/' :: rest => (some .root, rest)
  | ['.'] => (some .here, [])
  | '.' :: '/' :: rest => (some .here, '/' :: rest)
  | cs => (none, cs)

/-- The components of a spelling. -/
def componentsOf (cs : List Char) : List Component :=
  let (lead, body) := splitLead cs
  lead.toList ++ (segments body).filterMap component?

/-- The components of a path. -/
def components (p : Path) : List Component := componentsOf p.text.toList

/-- Two spellings of one path. -/
def Same (p q : Path) : Prop := p.components = q.components

instance (p q : Path) : Decidable (Same p q) := inferInstanceAs (Decidable (_ = _))

theorem Same.refl (p : Path) : Same p p := rfl

theorem Same.symm {p q : Path} (h : Same p q) : Same q p := Eq.symm h

theorem Same.trans {p q r : Path} (h : Same p q) (h' : Same q r) : Same p r := Eq.trans h h'

/-- The order of components: the root, `.`, `..`, then names by code point. -/
def Component.le : Component → Component → Bool
  | .root, _ => true
  | .here, .root => false
  | .here, _ => true
  | .up, .root | .up, .here => false
  | .up, _ => true
  | .name a, .name b => decide (a ≤ b)
  | .name _, _ => false

/-- The order of component lists: the first difference decides, and a beginning of a list comes
before it. -/
def componentsLe : List Component → List Component → Bool
  | [], _ => true
  | _ :: _, [] => false
  | a :: as, b :: bs => if a = b then componentsLe as bs else a.le b

/-- The order of paths. -/
def le (p q : Path) : Bool := componentsLe p.components q.components

/-- The name of the file or folder, unless the path ends in `..` or has no name in it. -/
def fileName? (p : Path) : Option String :=
  match p.components.getLast? with
  | some (.name s) => some s
  | _ => none

/-- The name of the file or folder, or the whole spelling where there is none. -/
def displayName (p : Path) : String := p.fileName?.getD p.text

/-- A reversed spelling without the slashes and `.` segments at its end. -/
def trimEnd : List Char → List Char
  | '/' :: rest => trimEnd rest
  | '.' :: '/' :: rest => trimEnd rest
  | ['.'] => []
  | rest => rest

/-- The spelling of the folder that holds the path: what stands before the last component.  The
root and the empty path have none. -/
def parent? (p : Path) : Option Path :=
  let cs := p.text.toList
  let (lead, body) := splitLead cs
  let leadChars := match lead with
    | some .root => ['/']
    | some .here => ['.']
    | _ => []
  match trimEnd body.reverse with
  | [] => if lead = some .here then some ⟨""⟩ else none
  | last =>
    let before := trimEnd (last.dropWhile (· != '/'))
    some ⟨String.ofList (leadChars ++ before.reverse)⟩

/-- A file name without its extension, the part from its last dot on.  A dot at the beginning
starts no extension. -/
def stem (name : List Char) : List Char :=
  match name.reverse.dropWhile (· != '.') with
  | [] | ['.'] => name
  | _ :: before => before.reverse

/-- The path with the extension of its file name replaced, and nothing after the file name.  A
path without a file name is left as it is.  The old extension goes first, up to its dot: a name such
as `..x` at the very end is then `..`, no longer a file name, and stays so. -/
def withExtension (p : Path) (extension : String) : Path :=
  match p.fileName? with
  | none => p
  | some name =>
    let upToName := trimEnd p.text.toList.reverse
    let before := (upToName.drop name.toList.length).reverse
    if stem name.toList = ['.'] && upToName.length = p.text.length then
      ⟨String.ofList (before ++ ['.', '.'])⟩
    else ⟨String.ofList (before ++ stem name.toList ++ ['.']) ++ extension⟩

end Path

end FolderTasks
