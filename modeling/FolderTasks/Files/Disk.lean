import FolderTasks.Files.Fault
import FolderTasks.Path
/-!
# A disk

Files and folders by their place, the list of names that leads to them from the root.  There are
no links, so every thing has one place.

A path is followed segment by segment from the root or from the working folder.  Every segment
but the last must lead into a folder; `.` and an empty segment stay there, `..` goes up, and the
root is above itself.

## Main definitions

* `Disk`: what lies where, and the working folder.
* `Disk.locate`: the place of an existing thing.
* `Disk.read`, `Disk.write`, `Disk.rename`, `Disk.makeFolders`: the operations on it.

## Main statements

* `Disk.entryAt?_put`, `Disk.entryAt?_erase`: an operation changes what lies at its place only.
-/

namespace FolderTasks.Files

/-- The content of a file. -/
inductive Content where
  | text (s : String)
  /-- Bytes that are not UTF-8. -/
  | bytes (bs : List UInt8)
deriving DecidableEq, Inhabited

/-- The content of some bytes. -/
def Content.ofBytes (bs : List UInt8) : Content :=
  match String.fromUTF8? ⟨bs.toArray⟩ with
  | some s => .text s
  | none => .bytes bs

/-- The bytes of a content. -/
def Content.toBytes : Content → List UInt8
  | .text s => s.toUTF8.toList
  | .bytes bs => bs

/-- What lies at a place. -/
inductive Entry where
  | file (content : Content)
  | folder
deriving DecidableEq, Inhabited

/-- A place: the names from the root on. -/
abbrev Place := List String

/-- Files and folders by their place; the root is always there. -/
structure Disk where
  entries : List (Place × Entry) := []
  /-- The working folder. -/
  here : Place := []

/-- The greatest length of a name, in bytes. -/
def greatestName : Nat := 255

/-- The greatest length of a path, in bytes. -/
def greatestPath : Nat := 4095

/-- Is a name too long? -/
def isTooLong (name : String) : Bool := greatestName < name.utf8ByteSize

namespace Disk

/-- What lies at a place. -/
def entryAt? (d : Disk) (p : Place) : Option Entry :=
  if p = [] then some .folder else d.entries.lookup p

/-- Put something at a place. -/
def put (d : Disk) (p : Place) (e : Entry) : Disk :=
  { d with entries := (p, e) :: d.entries.filter fun x => x.1 != p }

/-- Take away what lies at a place. -/
def erase (d : Disk) (p : Place) : Disk :=
  { d with entries := d.entries.filter fun x => x.1 != p }

theorem lookup_filter_ne {entries : List (Place × Entry)} {p q : Place} (h : q ≠ p) :
    (entries.filter fun x => x.1 != p).lookup q = entries.lookup q := by
  induction entries with
  | nil => rfl
  | cons x rest ih =>
    obtain ⟨k, e⟩ := x
    by_cases hk : k = p
    · subst hk
      have hq : (q == k) = false := by simp [h]
      simp [List.lookup_cons, hq, ih]
    · by_cases hq : q = k
      · subst hq
        simp [hk]
      · have hq' : (q == k) = false := by simp [hq]
        simp [hk, List.lookup_cons, hq', ih]

theorem entryAt?_put {d : Disk} {p q : Place} {e : Entry} (hp : p ≠ []) :
    (d.put p e).entryAt? q = if q = p then some e else d.entryAt? q := by
  unfold entryAt? put
  by_cases hq : q = p
  · simp [hq, hp]
  · have hq' : (q == p) = false := by simp [hq]
    by_cases hnil : q = []
    · simp [hnil, Ne.symm hp]
    · simp [hq, hnil, List.lookup_cons, hq', lookup_filter_ne hq]

theorem entryAt?_erase {d : Disk} {p q : Place} (h : q ≠ p) :
    (d.erase p).entryAt? q = d.entryAt? q := by
  unfold entryAt? erase
  simp [lookup_filter_ne h]

/-- Is there a folder at a place? -/
def isFolderAt (d : Disk) (p : Place) : Bool := d.entryAt? p == some .folder

/-- Follow segments from a place. -/
def walk (d : Disk) : Place → List String → Except Fault Place
  | at', [] => .ok at'
  | at', segment :: rest =>
    if !d.isFolderAt at' then .error .notDirectory
    else if segment = "" || segment = "." then d.walk at' rest
    else if segment = ".." then d.walk at'.dropLast rest
    else if isTooLong segment then .error .nameTooLong
    else match d.entryAt? (at' ++ [segment]) with
      | some _ => d.walk (at' ++ [segment]) rest
      | none => .error .notFound

/-- The place where a path begins, and its segments. -/
def route (d : Disk) (p : Path) : Except Fault (Place × List String) :=
  let cs := p.text.toList
  if cs.any (· == '\x00') then .error .nulInPath
  else if greatestPath < p.text.utf8ByteSize then .error .nameTooLong
  else match cs with
    | [] => .error .notFound
    | '/' :: rest => .ok ([], (Path.segments rest).map String.ofList)
    | cs => .ok (d.here, (Path.segments cs).map String.ofList)

/-- The place of an existing thing. -/
def locate (d : Disk) (p : Path) : Except Fault Place := do
  let (start, segments) ← d.route p
  d.walk start segments

/-- The last segment of a path, for operations that make or replace something. -/
inductive Last where
  /-- A name, followed by a slash or not. -/
  | name (s : String) (hasSlash : Bool)
  /-- `.`, `..` or the root. -/
  | special
deriving DecidableEq

/-- Split the last segment off. -/
def splitLast (segments : List String) : List String × Last :=
  let kept := (segments.reverse.dropWhile (· == "")).reverse
  match kept.getLast? with
  | none => ([], .special)
  | some s =>
    if s = "." || s = ".." then (kept.dropLast, .special)
    else (kept.dropLast, .name s (kept.length < segments.length))

/-- The folder in which the last segment of a path lies, and that segment. -/
def target (d : Disk) (p : Path) : Except Fault (Place × Last) := do
  let (start, segments) ← d.route p
  let (before, last) := splitLast segments
  let parent ← d.walk start before
  if d.isFolderAt parent then return (parent, last) else .error .notDirectory

/-- Does a path lead to something? -/
def pathExists (d : Disk) (p : Path) : Bool := (d.locate p).toOption.isSome

/-- Does a path lead to a folder? -/
def isFolder (d : Disk) (p : Path) : Bool :=
  match d.locate p with
  | .ok place => d.isFolderAt place
  | .error _ => false

/-- The text of a file. -/
def read (d : Disk) (p : Path) : Except Fault String := do
  let place ← d.locate p
  match d.entryAt? place with
  | some (.file (.text s)) => .ok s
  | some (.file (.bytes _)) => .error .notText
  | some .folder => .error .isDirectory
  | none => .error .notFound

/-- Write a file, new or in place of the one that is there. -/
def write (d : Disk) (p : Path) (content : Content) : Except Fault Disk := do
  match ← d.target p with
  | (_, .special) => .error .isDirectory
  | (parent, .name s hasSlash) =>
    if hasSlash then .error .isDirectory
    else if isTooLong s then .error .nameTooLong
    else if d.isFolderAt (parent ++ [s]) then .error .isDirectory
    else .ok (d.put (parent ++ [s]) (.file content))

/-- Make a folder. -/
def makeFolder (d : Disk) (p : Path) : Except Fault Disk := do
  match ← d.target p with
  | (_, .special) => .error .alreadyExists
  | (parent, .name s _) =>
    if isTooLong s then .error .nameTooLong
    else if (d.entryAt? (parent ++ [s])).isSome then .error .alreadyExists
    else .ok (d.put (parent ++ [s]) .folder)

/-- Make a folder; one that is there will do. -/
def ensureFolder (d : Disk) (p : Path) : Except Fault Disk :=
  match d.makeFolder p with
  | .ok d => .ok d
  | .error f => if d.isFolder p then .ok d else .error f

/-- Make a folder with all folders above it that are missing, at most `fuel` of them.  What was
made before a fault stays. -/
def makeFoldersGo (p : Path) : Nat → Disk → Disk × Option Fault
  | 0, d => (d, none)
  | fuel + 1, d =>
    if p.components = [] then (d, none)
    else match d.ensureFolder p with
      | .ok d => (d, none)
      | .error .notFound => match p.parent? with
        | none => (d, some (.other "failed to create whole tree"))
        | some above => match makeFoldersGo above fuel d with
          | (d, some f) => (d, some f)
          | (d, none) => match d.ensureFolder p with
            | .ok d => (d, none)
            | .error f => (d, some f)
      | .error f => (d, some f)

/-- Make a folder with all folders above it that are missing. -/
def makeFolders (d : Disk) (p : Path) : Disk × Option Fault :=
  makeFoldersGo p (p.components.length + 1) d

/-- Give a file a new path, in place of the file that is there. -/
def rename (d : Disk) (source destination : Path) : Except Fault Disk := do
  let (sourceParent, sourceLast) ← d.target source
  let (parent, last) ← d.target destination
  match sourceLast, last with
  | .name old oldSlash, .name new newSlash =>
    let oldPlace := sourceParent ++ [old]
    let newPlace := parent ++ [new]
    if isTooLong old then .error .nameTooLong
    else match d.entryAt? oldPlace with
      | none => .error .notFound
      | some e =>
        if isTooLong new then .error .nameTooLong
        else if oldSlash || newSlash then .error .notDirectory
        else if oldPlace = newPlace then .ok d
        else if d.isFolderAt newPlace then .error .isDirectory
        else .ok ((d.erase oldPlace).put newPlace e)
  | _, _ => .error .busy

/-- Something lies within a folder. -/
def isOccupied (d : Disk) (p : Place) : Bool :=
  d.entries.any fun x => p.isPrefixOf x.1 && x.1 != p

/-- The names in a folder, in the order of their texts. -/
def names (d : Disk) (p : Place) : List String :=
  (d.entries.filterMap fun x =>
    if x.1.dropLast = p && x.1 != [] then x.1.getLast? else none).mergeSort
      fun a b => decide (a ≤ b)

/-- Take away a file. -/
def removeFile (d : Disk) (p : Path) : Except Fault Disk := do
  let place ← d.locate p
  if d.isFolderAt place then .error .isDirectory else .ok (d.erase place)

/-- Take away a folder with nothing in it. -/
def removeFolder (d : Disk) (p : Path) : Except Fault Disk := do
  let place ← d.locate p
  if !d.isFolderAt place then .error .notDirectory
  else if d.isOccupied place then .error .notEmpty
  else .ok (d.erase place)

/-- Take away a file or folder with everything in it. -/
def removeAll (d : Disk) (p : Path) : Except Fault Disk := do
  let place ← d.locate p
  .ok { d with entries := d.entries.filter fun x => !place.isPrefixOf x.1 }

/-- Everything below the working folder by its path from there, folders with a slash at the end,
in the order of their texts. -/
def listing (d : Disk) : List String :=
  (d.entries.filterMap fun (place, e) =>
    if d.here.isPrefixOf place && d.here != place then
      let path := String.intercalate "/" (place.drop d.here.length)
      some (match e with | .folder => path ++ "/" | .file _ => path)
    else none).mergeSort fun a b => decide (a ≤ b)

end Disk

end FolderTasks.Files
