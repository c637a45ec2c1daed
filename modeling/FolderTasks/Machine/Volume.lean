import FolderTasks.Files.Disk
import FolderTasks.Machine.Bytes
/-!
# The volume of a machine

What lies on a machine that many programs share: files, folders, links, devices and programs.
Every thing is a node with a number; a folder gives names to nodes, and a file may have several
names.

A path is followed segment by segment, as on a disk without links, except that a link stands for
the path that it holds.

## Main definitions

* `Body`, `Node`, `Volume`: things, and all of them.
* `Spot`: a node with the way that leads to it.
* `Volume.find`: the spot of a path.
* `Volume.create`, `Volume.remove`, `Volume.rename`, … : the operations.
-/

namespace FolderTasks.Machine

open Files

/-- A thing that behaves like a file and holds nothing. -/
inductive Device where
  /-- It takes everything and gives nothing. -/
  | null
  /-- It gives zeros without end. -/
  | zero
  /-- It takes nothing. -/
  | full
  /-- A channel of the program that opens it. -/
  | channel (n : Nat)
deriving DecidableEq, Repr

/-- What a node is. -/
inductive Body where
  | file (content : Bytes)
  /-- Names with the numbers of nodes. -/
  | folder (names : List (String × Nat))
  /-- Another path. -/
  | link (target : String)
  | device (d : Device)
  /-- A program of the machine. -/
  | program (name : String)
deriving DecidableEq, Repr

/-- A node: what it is, who may do what with it, and when it was changed. -/
structure Node where
  body : Body
  /-- Nine bits, those of the owner first: to read, to write, to execute. -/
  mode : Nat
  changed : Nat := 0
deriving DecidableEq, Repr

/-- All nodes by their numbers; number zero is the root. -/
structure Volume where
  nodes : Array Node := #[⟨.folder [], 0o755, 0⟩]

/-- A node with the names and nodes that lead to it from the root, the last one first. -/
abbrev Spot := List (String × Nat)

/-- The number of the node at a spot. -/
def Spot.node (s : Spot) : Nat := (s.head?.map (·.2)).getD 0

/-- The path of a spot. -/
def Spot.path (s : Spot) : String := "/" ++ String.intercalate "/" (s.reverse.map (·.1))

/-- The greatest length of a path on a volume. -/
def longestPath : Nat := 4095

/-- Is a name too long for a volume? -/
def isNameTooLong (name : String) : Bool := decide (255 < name.length)

/-- The greatest number of links that are followed on one path. -/
def greatestLinks : Nat := 40

/-- The segments of a path between its slashes. -/
def pathSegments (path : String) : List String :=
  (Path.segments path.toList).map String.ofList

/-- Does a path begin at the root? -/
def isAbsolute (path : String) : Bool := path.toList.head? == some '/'

namespace Volume

/-- The node of a number. -/
def node? (v : Volume) (n : Nat) : Option Node := v.nodes[n]?

/-- The names in a folder. -/
def names? (v : Volume) (n : Nat) : Option (List (String × Nat)) :=
  match v.node? n with
  | some ⟨.folder names, _, _⟩ => some names
  | _ => none

/-- Is the node a folder? -/
def isFolder (v : Volume) (n : Nat) : Bool := (v.names? n).isSome

/-- Change a node. -/
def modify (v : Volume) (n : Nat) (f : Node → Node) : Volume := ⟨v.nodes.modify n f⟩

/-- Follow segments from a spot.  A link is followed if something comes after it, or if `follows`
is set. -/
def walk (v : Volume) (follows : Bool) : Nat → Nat → Spot → List String → Except Fault Spot
  | 0, _, _, _ => .error .tooManyLinks
  | _ + 1, _, s, [] => .ok s
  | fuel + 1, links, s, segment :: rest =>
    match v.names? s.node with
    | none => .error .notDirectory
    | some names =>
      if segment = "" || segment = "." then v.walk follows fuel links s rest
      else if segment = ".." then v.walk follows fuel links s.tail rest
      else if isNameTooLong segment then .error .nameTooLong
      else match names.lookup segment with
        | none => .error .notFound
        | some n => match v.node? n with
          | some ⟨.link target, _, _⟩ =>
            if rest.isEmpty && !follows then .ok ((segment, n) :: s)
            else if greatestLinks ≤ links then .error .tooManyLinks
            else v.walk follows fuel (links + 1) (if isAbsolute target then [] else s)
              (pathSegments target ++ rest)
          | _ => v.walk follows fuel links ((segment, n) :: s) rest

/-- As many steps as a path can take. -/
def walkLimit : Nat := 200000

/-- Where a path begins, and its segments. -/
def route (here : Spot) (path : String) : Except Fault (Spot × List String) :=
  if path.toList.contains '\x00' then .error .nulInPath
  else if path.isEmpty then .error .notFound
  else if longestPath < path.length then .error .nameTooLong
  else .ok (if isAbsolute path then [] else here, pathSegments path)

/-- The spot of a path for somebody in a folder. -/
def find (v : Volume) (here : Spot) (path : String) (follows : Bool := true) :
    Except Fault Spot := do
  let (start, segments) ← route here path
  v.walk follows walkLimit 0 start segments

/-- The node at a path. -/
def nodeAt? (v : Volume) (here : Spot) (path : String) (follows : Bool := true) : Option Node :=
  match v.find here path follows with
  | .ok s => v.node? s.node
  | .error _ => none

/-- Is there a folder at a path? -/
def hasFolder (v : Volume) (here : Spot) (path : String) : Bool :=
  match v.find here path with
  | .ok s => v.isFolder s.node
  | .error _ => false

/-- The folder in which the last name of a path lies, and that name. -/
def target (v : Volume) (here : Spot) (path : String) : Except Fault (Spot × Disk.Last) := do
  let (start, segments) ← route here path
  let (before, last) := Disk.splitLast segments
  let above ← v.walk true walkLimit 0 start before
  if v.isFolder above.node then .ok (above, last) else .error .notDirectory

/-- Set the names in a folder. -/
def setNames (v : Volume) (n : Nat) (names : List (String × Nat)) : Volume :=
  v.modify n fun node => { node with body := .folder names }

/-- Give a node a name in a folder, in place of the node that has it. -/
def name (v : Volume) (folder : Nat) (s : String) (n : Nat) : Volume :=
  match v.names? folder with
  | some names =>
    if (names.lookup s).isSome then
      v.setNames folder (names.map fun e => if e.1 = s then (s, n) else e)
    else v.setNames folder (names ++ [(s, n)])
  | none => v

/-- Take a name out of a folder. -/
def unname (v : Volume) (folder : Nat) (s : String) : Volume :=
  match v.names? folder with
  | some names => v.setNames folder (names.filter fun e => e.1 != s)
  | none => v

/-- A new node, and its number. -/
def add (v : Volume) (n : Node) : Volume × Nat := (⟨v.nodes.push n⟩, v.nodes.size)

/-- Put a new node under a name in a folder. -/
def put (v : Volume) (folder : Nat) (s : String) (n : Node) : Volume :=
  let (v, number) := v.add n
  v.name folder s number

/-- The names in a folder in the order of their texts. -/
def listing (v : Volume) (n : Nat) : List String :=
  (((v.names? n).getD []).map (·.1)).mergeSort fun a b => decide (a ≤ b)

/-- How many names a node has; a folder has its own and one for every folder in it. -/
def nameCount (v : Volume) (n : Nat) : Nat :=
  match v.names? n with
  | some names => 2 + (names.filter fun e => v.isFolder e.2).length
  | none => (v.nodes.toList.map fun node => match node.body with
    | .folder names => (names.filter fun e => e.2 == n).length
    | _ => 0).foldl (· + ·) 0

/-! ## Operations -/

/-- The number of the file at a path, made with a mode if there is nothing.  Where the last name
is a link that leads nowhere, the file is made where it leads. -/
def createGo (now mode : Nat) : Nat → Volume → Spot → String → Except Fault (Volume × Nat)
  | 0, _, _, _ => .error .tooManyLinks
  | fuel + 1, v, here, path =>
    match v.find here path with
    | .ok s => if v.isFolder s.node then .error .isDirectory else .ok (v, s.node)
    | .error .notFound => do
      match ← v.target here path with
      | (_, .special) => .error .isDirectory
      | (above, .name s hasSlash) =>
        if hasSlash then .error .isDirectory
        else if isNameTooLong s then .error .nameTooLong
        else match v.nodeAt? above s false with
          | some ⟨.link target, _, _⟩ => createGo now mode fuel v above target
          | _ =>
            let (v, n) := v.add ⟨.file [], mode, now⟩
            .ok (v.name above.node s n, n)
    | .error fault => .error fault

/-- The number of the file at a path, made with a mode if there is nothing. -/
def create (v : Volume) (here : Spot) (path : String) (mode now : Nat) :
    Except Fault (Volume × Nat) :=
  createGo now mode greatestLinks v here path

/-- Put a new node at a path where nothing is. -/
def place (v : Volume) (here : Spot) (path : String) (n : Node) : Except Fault Volume := do
  match ← v.target here path with
  | (_, .special) => .error .alreadyExists
  | (above, .name s hasSlash) =>
    if isNameTooLong s then .error .nameTooLong
    else if (v.nodeAt? above s false).isSome then .error .alreadyExists
    else if hasSlash && (match n.body with | .folder _ => false | _ => true) then .error .notFound
    else .ok (v.put above.node s n)

/-- Make a folder. -/
def makeFolder (v : Volume) (here : Spot) (path : String) (mode now : Nat) :
    Except Fault Volume :=
  v.place here path ⟨.folder [], mode, now⟩

/-- Give the file at a path one more name. -/
def addName (v : Volume) (here : Spot) (path new : String) (follows : Bool) :
    Except Fault Volume := do
  let s ← v.find here path follows
  match ← v.target here new with
  | (_, .special) => .error .alreadyExists
  | (above, .name name _) =>
    if (v.nodeAt? above name false).isSome then .error .alreadyExists
    else .ok (v.name above.node name s.node)

/-- Take away the name of a thing that is no folder. -/
def removeFile (v : Volume) (here : Spot) (path : String) : Except Fault Volume := do
  let s ← v.find here path false
  match s with
  | [] => .error .isDirectory
  | (name, n) :: above =>
    if v.isFolder n then .error .isDirectory else .ok (v.unname (Spot.node above) name)

/-- Take away a folder with nothing in it. -/
def removeFolder (v : Volume) (here : Spot) (path : String) : Except Fault Volume := do
  let s ← v.find here path false
  match s with
  | [] => .error .busy
  | (name, n) :: above =>
    match v.names? n with
    | none => .error .notDirectory
    | some (_ :: _) => .error .notEmpty
    | some [] =>
      if (pathSegments path).reverse.find? (· != "") == some "." then .error .invalid
      else .ok (v.unname (Spot.node above) name)

/-- Take away a thing with everything in it. -/
def removeAll (v : Volume) (here : Spot) (path : String) : Except Fault Volume := do
  let s ← v.find here path false
  match s with
  | [] => .error .busy
  | (name, _) :: above => .ok (v.unname (Spot.node above) name)

/-- Give a thing another path, in place of what is there. -/
def rename (v : Volume) (here : Spot) (old new : String) : Except Fault Volume := do
  let (oldAbove, oldLast) ← v.target here old
  let (above, last) ← v.target here new
  match oldLast, last with
  | .name a aSlash, .name b bSlash =>
    match (v.names? oldAbove.node).bind (·.lookup a) with
    | none => .error .notFound
    | some n =>
      let isFolder := v.isFolder n
      if isNameTooLong b then .error .nameTooLong
      else if (aSlash || bSlash) && !isFolder then .error .notDirectory
      else if isFolder && (above.any fun e => e.2 == n) then .error .invalid
      else
        let move := (v.unname oldAbove.node a).name above.node b n
        match (v.names? above.node).bind (·.lookup b) with
        | none => .ok move
        | some m =>
          if m = n then .ok v
          else match v.names? m with
            | some (_ :: _) => .error (if isFolder then .notEmpty else .isDirectory)
            | some [] => if isFolder then .ok move else .error .isDirectory
            | none => if isFolder then .error .notDirectory else .ok move
  | _, _ => .error .busy

/-- The bytes of a file. -/
def content (v : Volume) (n : Nat) : Bytes :=
  match v.node? n with
  | some ⟨.file content, _, _⟩ => content
  | _ => []

/-- Replace the bytes of a file. -/
def setContent (v : Volume) (n : Nat) (bs : Bytes) (now : Nat) : Volume :=
  v.modify n fun node => match node.body with
    | .file _ => { node with body := .file bs, changed := now }
    | _ => node

/-- Set who may do what with a node. -/
def setMode (v : Volume) (n mode : Nat) : Volume := v.modify n fun node => { node with mode }

end Volume

end FolderTasks.Machine
