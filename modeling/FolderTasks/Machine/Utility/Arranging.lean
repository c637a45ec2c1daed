import FolderTasks.Machine.Utility.Printing
/-!
# Programs that arrange files

They make, take away, move, copy and link files, and set who may do what with them.

## Main definitions

* `Utility.Mode.ofText?`: what a text such as `u+x` or `644` makes of a mode.
* `Utility.rm`, `Utility.mkdir`, `Utility.mv`, `Utility.cp`, `Utility.ln`, `Utility.chmod`, … : the
  programs.
-/

namespace FolderTasks.Machine

open Files

namespace Utility

/-! ## Modes -/

namespace Mode

/-- The number that octal digits spell. -/
def octal? (text : String) : Option Nat :=
  let cs := text.toList
  if cs.isEmpty || !cs.all fun c => '0' ≤ c && c ≤ '7' then none
  else
    let n := cs.foldl (fun n c => n * 8 + (c.toNat - 48)) 0
    if n ≤ 0o7777 then some n else none

/-- The bits that are meant by the letters of owners. -/
def ownerBits (c : Char) : Nat :=
  match c with
  | 'u' => 0o4700
  | 'g' => 0o2070
  | 'o' => 0o1007
  | _ => 0o7777

/-- The bits of a letter, for all owners; `runs` says whether somebody may execute the thing, or
it is a folder. -/
def letterBits (runs : Bool) (c : Char) : Option Nat :=
  match c with
  | 'r' => some 0o444
  | 'w' => some 0o222
  | 'x' => some 0o111
  | 'X' => some (if runs then 0o111 else 0)
  | 's' => some 0o6000
  | 't' => some 0o1000
  | _ => none

/-- The bits that one owner has, for all owners. -/
def copiedBits (mode : Nat) (c : Char) : Option Nat :=
  match c with
  | 'u' => some (mode >>> 6 % 8 * 0o111)
  | 'g' => some (mode >>> 3 % 8 * 0o111)
  | 'o' => some (mode % 8 * 0o111)
  | _ => none

/-- Take some bits away. -/
def without (mode bits : Nat) : Nat := mode - (mode &&& bits)

/-- Follow the operators of one clause, for those owners that have the bits `owners`. -/
def followOperators (owners : Nat) (isFolder : Bool) : Nat → List Char → Nat → Option Nat
  | 0, _, mode | _, [], mode => some mode
  | fuel + 1, op :: rest, mode =>
    let letters := rest.takeWhile fun c => !"+-=".toList.contains c
    let runs := isFolder || mode &&& 0o111 != 0
    let bits? := match letters with
      | [c] => (letterBits runs c).or (copiedBits mode c)
      | cs => (cs.mapM (letterBits runs)).map fun bs => bs.foldl (· ||| ·) 0
    match bits? with
    | none => none
    | some bits =>
      let bits := bits &&& owners
      let next := match op with
        | '+' => some (mode ||| bits)
        | '-' => some (without mode bits)
        | '=' => some (without mode (owners &&& 0o777) ||| bits)
        | _ => none
      next.bind (followOperators owners isFolder fuel (rest.drop letters.length))

/-- What a clause such as `go-w` makes of a mode; without owners all are meant, but for what the
mask forbids. -/
def followClause (mask : Nat) (isFolder : Bool) (clause : List Char) (mode : Nat) : Option Nat :=
  let owners := clause.takeWhile fun c => "ugoa".toList.contains c
  let operators := clause.drop owners.length
  let bits := if owners.isEmpty then without 0o7777 mask
    else (owners.map ownerBits).foldl (· ||| ·) 0
  if operators.head?.any fun c => "+-=".toList.contains c then
    followOperators bits isFolder operators.length operators mode
  else none

/-- What a text makes of a mode. -/
def ofText? (text : String) (mask : Nat) (isFolder : Bool) (mode : Nat) : Option Nat :=
  match octal? text with
  | some n => some n
  | none => (text.toList.splitOn ',').foldlM (fun m clause => followClause mask isFolder clause m)
      mode

/-- A mode in letters, three for every owner. -/
def letters (mode : Nat) : String :=
  let row (n special : Nat) (mark : Char) : List Char :=
    let runs := n &&& 1 != 0
    [if n &&& 4 != 0 then 'r' else '-', if n &&& 2 != 0 then 'w' else '-',
      if mode &&& special != 0 then (if runs then mark else mark.toUpper)
      else if runs then 'x' else '-']
  String.ofList (row (mode >>> 6 % 8) 0o4000 's' ++ row (mode >>> 3 % 8) 0o2000 's' ++
    row (mode % 8) 0o1000 't')

end Mode

/-- The mode of a new folder, but for what the program forbids. -/
def newFolderMode (c : Context) : Nat := Mode.without 0o777 c.mask

/-- Say what was done, if that is asked for. -/
def report (name : String) (g : Options.Given) (text : String) : Course Unit :=
  if g.has 'v' then say name (text ++ "\n") else pure ()

/-! ## Taking away -/

/-- The options of `rm`. -/
def rmOptions : Options.Known :=
  { flags := "dfiIrRv"
    words := [("recursive", 'r'), ("force", 'f'), ("verbose", 'v'), ("dir", 'd')] }

/-- Everything below a path, what lies deeper first, with whether it is a folder. -/
def bottomUp (v : View) : Nat → String → List (String × Bool)
  | 0, _ => []
  | fuel + 1, path => match v.find path false with
    | .error _ => []
    | .ok s => match v.store.volume.names? s.node with
      | none => [(path, false)]
      | some names => (names.flatMap fun e => bottomUp v fuel (path ++ "/" ++ e.1)) ++ [(path, true)]

/-- How deep folders lie in folders. -/
def folderDepth : Nat := 2000

/-- Take files away. -/
def rm : Utility := withOptions "rm" rmOptions fun g => do
  let isRecursive := g.has 'r' || g.has 'R'
  if g.operands.isEmpty && !g.has 'f' then misuse "rm" "missing operand"
  else forEach "rm" g.operands fun path => do
    let v ← Course.look
    let about (fault : Fault) : Except String Unit :=
      if g.has 'f' && (fault = .notFound || fault = .notDirectory) then .ok ()
      else .error ("cannot remove " ++ quoted path ++ ": " ++ fault.reason)
    let last := lastName path
    if isRecursive && (last = "." || last = "..") then
      pure (.error ("refusing to remove \x27.\x27 or \x27..\x27 directory: skipping " ++
        quoted path))
    else if isRecursive && last = "/" then
      pure (.error ("it is dangerous to operate recursively on " ++ quoted path ++
        "\nrm: use --no-preserve-root to override this failsafe"))
    else match v.find path false with
      | .error fault => pure (about fault)
      | .ok s =>
        let isFolder := v.store.volume.isFolder s.node
        let here := v.context.here
        let below := if g.has 'v' && isRecursive then bottomUp v folderDepth path
          else [(path, isFolder)]
        let result ← Course.changeVolume fun v =>
          if isRecursive then v.store.volume.removeAll here path
          else if g.has 'd' && isFolder then v.store.volume.removeFolder here path
          else v.store.volume.removeFile here path
        match result with
        | .error fault => pure (about fault)
        | .ok () =>
          below.forM fun (p, isFolder) =>
            report "rm" g ((if isFolder then "removed directory " else "removed ") ++ quoted p)
          pure (.ok ())

/-- Take away the names of files. -/
def unlink : Utility := withOptions "unlink" {} fun g =>
  match g.operands with
  | [] => misuse "unlink" "missing operand"
  | [path] => changeForEach "unlink" [path] (fun p _ => "cannot unlink " ++ quoted p)
      fun v p => v.store.volume.removeFile v.context.here p
  | _ :: extra :: _ => misuse "unlink" ("extra operand " ++ quoted extra)

/-- The paths of the folders in which something lies, the nearest first. -/
def foldersAbove : Nat → String → List String
  | 0, _ => []
  | fuel + 1, path =>
    let above := folderName path
    if above = "." || above = "/" || above = path then [] else above :: foldersAbove fuel above

/-- Take empty folders away. -/
def rmdir : Utility := withOptions "rmdir"
    { flags := "pv", words := [("parents", 'p'), ("verbose", 'v'),
        ("ignore-fail-on-non-empty", 'i')] } fun g => do
  if g.operands.isEmpty then misuse "rmdir" "missing operand"
  else
    let paths := if g.has 'p' then
        g.operands.flatMap fun p => p :: foldersAbove p.length p
      else g.operands
    forEach "rmdir" paths fun path => do
      report "rmdir" g ("rmdir: removing directory, " ++ quoted path)
      match ← Course.changeVolume fun v => v.store.volume.removeFolder v.context.here path with
      | .ok () => pure (.ok ())
      | .error fault =>
        if fault = .notEmpty && g.has 'i' then pure (.ok ())
        else pure (.error ("failed to remove " ++ quoted path ++ ": " ++ fault.reason))

/-! ## Making -/

/-- The paths of the folders that lead to a path, the path itself last. -/
def stepsTo (path : String) : List String :=
  let step (acc : String × List String) (segment : String) : String × List String :=
    let text := acc.1 ++ segment
    (text ++ "/", if segment.isEmpty then acc.2 else acc.2 ++ [text])
  ((pathSegments path).foldl step (if isAbsolute path then "/" else "", [])).2

/-- Make folders one after the other where there are none. -/
def makeSteps (g : Options.Given) (mode : Nat) : List String → Course (Except String Unit)
  | [] => pure (.ok ())
  | step :: rest => do
    let v ← Course.look
    if v.hasFolder step then makeSteps g mode rest
    else
      let own := if rest.isEmpty then mode else newFolderMode v.context
      match ← Course.changeVolume fun v =>
          v.store.volume.makeFolder v.context.here step own v.clock with
      | .ok () =>
        report "mkdir" g ("mkdir: created directory " ++ quoted step)
        makeSteps g mode rest
      | .error fault =>
        let fault := if fault = .alreadyExists && !rest.isEmpty then .notDirectory else fault
        pure (.error ("cannot create directory " ++ quoted step ++ ": " ++ fault.reason))

/-- Make folders. -/
def mkdir : Utility := withOptions "mkdir"
    { flags := "pv", valued := "m"
      words := [("parents", 'p'), ("verbose", 'v'), ("mode", 'm')] } fun g => do
  let c := (← Course.look).context
  let mode? := match g.value? 'm' with
    | none => some (newFolderMode c)
    | some text => Mode.ofText? text c.mask true 0o777
  match mode? with
  | none =>
    object "mkdir" ("invalid mode " ++ quoted ((g.value? 'm').getD ""))
    pure 1
  | some mode =>
    if g.operands.isEmpty then misuse "mkdir" "missing operand"
    else forEach "mkdir" g.operands fun path => do
      if g.has 'p' && !path.isEmpty then makeSteps g mode (stepsTo path)
      else match ← Course.changeVolume fun v =>
          v.store.volume.makeFolder v.context.here path mode v.clock with
        | .ok () =>
          report "mkdir" g ("mkdir: created directory " ++ quoted path)
          pure (.ok ())
        | .error fault =>
          pure (.error ("cannot create directory " ++ quoted path ++ ": " ++ fault.reason))

/-- Make files that are not there, and set when the others were changed. -/
def touch : Utility := withOptions "touch"
    { flags := "acmfh", valued := "drt"
      words := [("no-create", 'c'), ("date", 'd'), ("reference", 'r')] } fun g =>
  if g.operands.isEmpty then misuse "touch" "missing file operand"
  else changeForEach "touch" g.operands (fun p _ => "cannot touch " ++ quoted p) fun v path =>
    let volume := v.store.volume
    let moment := if g.has 'd' || g.has 't' then 0 else v.clock
    match v.find path with
    | .ok s => .ok (volume.modify s.node fun n => { n with changed := moment })
    | .error fault =>
      if fault = .notFound && g.has 'c' then .ok volume
      else if fault = .notFound then do
        let (volume, _) ← volume.create v.context.here path (Course.newFileMode v.context) moment
        pure volume
      else .error fault

/-- Set how long files are. -/
def truncate : Utility := withOptions "truncate"
    { flags := "co", valued := "sr", words := [("size", 's'), ("reference", 'r'),
        ("no-create", 'c')] } fun g =>
  let text := (g.value? 's').getD ""
  let (sign, digits) := match text.toList with
    | c :: rest => if "+-<>".toList.contains c then (c, String.ofList rest) else (' ', text)
    | [] => (' ', text)
  let unit := match digits.toList.getLast? with
    | some 'K' | some 'k' => 1024
    | some 'M' => 1048576
    | _ => 1
  let bare := if unit = 1 then digits else String.ofList digits.toList.dropLast
  if (g.value? 's').isNone && (g.value? 'r').isNone then
    misuse "truncate" "you must specify either \x27--size\x27 or \x27--reference\x27"
  else if g.operands.isEmpty then misuse "truncate" "missing file operand"
  else match (natural? bare).map (· * unit), g.value? 's' with
    | none, some _ => do
      object "truncate" ("Invalid number: " ++ quoted text)
      pure 1
    | size?, _ => changeForEach "truncate" g.operands
        (fun p _ => "cannot open " ++ quoted p ++ " for writing") fun v path =>
      if g.has 'c' && (v.nodeAt? path).isNone then .ok v.store.volume
      else do
        let (volume, n) ← v.store.volume.create v.context.here path
          (Course.newFileMode v.context) v.clock
        let bs := volume.content n
        let referred := (g.value? 'r').bind fun p => (v.nodeAt? p).map fun n => match n.body with
          | .file content => content.length
          | _ => 0
        let size := match size?, sign with
          | none, _ => referred.getD 0
          | some k, '+' => bs.length + k
          | some k, '-' => bs.length - k
          | some k, '<' => min bs.length k
          | some k, '>' => max bs.length k
          | some k, _ => k
        pure (volume.setContent n
          (bs.take size ++ List.replicate (size - bs.length) 0) v.clock)

/-! ## Moving, copying and linking -/

/-- The path of a name in a folder. -/
def within (folder name : String) : String :=
  if folder.endsWith "/" then folder ++ name else folder ++ "/" ++ name

/-- What programs that take sources and a target are told: every source with its destination, or
what is wrong, and whether that is a wrong call. -/
def destinations (v : View) (g : Options.Given) : Except (String × Bool) (List (String × String)) :=
  let into (folder : String) (sources : List String) : List (String × String) :=
    sources.map fun s => (s, within folder (lastName s))
  match g.value? 't' with
  | some folder =>
    if g.operands.isEmpty then .error ("missing file operand", true)
    else .ok (into folder g.operands)
  | none => match g.operands.reverse with
    | [] => .error ("missing file operand", true)
    | [a] => .error ("missing destination file operand after " ++ quoted a, true)
    | target :: more =>
      let sources := more.reverse
      if v.hasFolder target && !g.has 'T' then .ok (into target sources)
      else match sources with
        | [source] => .ok [(source, target)]
        | _ =>
          if g.has 'T' then .error ("extra operand " ++ quoted target, true)
          else match v.find target with
            | .ok _ => .error ("target " ++ quoted target ++ ": Not a directory", false)
            | .error fault => .error ("target " ++ quoted target ++ ": " ++ fault.reason, false)

/-- Do something with every source and its destination. -/
def forEachDestination (name : String) (g : Options.Given)
    (f : String × String → Course (Except String Unit)) : Course Nat := do
  match destinations (← Course.look) g with
  | .error (text, true) => misuse name text
  | .error (text, false) =>
    object name text
    pure 1
  | .ok pairs => forEach name pairs f

/-- The words for options that programs with destinations share. -/
def destinationWords : List (String × Char) :=
  [("force", 'f'), ("interactive", 'i'), ("no-clobber", 'n'), ("verbose", 'v'),
    ("target-directory", 't'), ("no-target-directory", 'T'), ("update", 'u'),
    ("symbolic", 's'), ("recursive", 'r'), ("archive", 'a'), ("no-dereference", 'P')]

/-- What keeps a thing from taking the place of another. -/
def conflict? (v : View) (source destination : String) (s old : Spot) : Option String :=
  let isFolder := v.store.volume.isFolder s.node
  let wasFolder := v.store.volume.isFolder old.node
  if old.node = s.node then
    some (quoted source ++ " and " ++ quoted destination ++ " are the same file")
  else if isFolder && !wasFolder then
    some ("cannot overwrite non-directory " ++ quoted destination ++ " with directory " ++
      quoted source)
  else if !isFolder && wasFolder then
    some ("cannot overwrite directory " ++ quoted destination ++ " with non-directory")
  else none

/-- Give files another path. -/
def mv : Utility := withOptions "mv"
    { flags := "finuvTb", valued := "tS", words := destinationWords } fun g =>
  forEachDestination "mv" g fun (source, destination) => do
    let v ← Course.look
    match v.find source false with
    | .error fault => pure (.error ("cannot stat " ++ quoted source ++ ": " ++ fault.reason))
    | .ok s =>
      let old? := (v.find destination false).toOption
      let itself : String := "cannot move " ++ quoted source ++
        " to a subdirectory of itself, " ++ quoted destination
      if old?.isSome && g.has 'n' then pure (.error ("not replacing " ++ quoted destination))
      else match old?.bind (conflict? v source destination s) with
        | some complaint => pure (.error complaint)
        | none => match ← Course.changeVolume fun v =>
            v.store.volume.rename v.context.here source destination with
          | .ok () =>
            report "mv" g ("renamed " ++ quoted source ++ " -> " ++ quoted destination)
            pure (.ok ())
          | .error .invalid => pure (.error itself)
          | .error .notEmpty =>
            pure (.error ("cannot overwrite " ++ quoted destination ++ ": Directory not empty"))
          | .error fault =>
            pure (.error ("cannot move " ++ quoted source ++ " to " ++ quoted destination ++
              ": " ++ fault.reason))

/-- Put a copy of a node under a name in a folder, with everything in it. -/
def copyNode (v : Volume) (now mask : Nat) : Nat → Nat → Nat → String → Volume
  | 0, _, _, _ => v
  | fuel + 1, n, folder, name =>
    match v.node? n with
    | none => v
    | some node =>
      let old? := (v.names? folder).bind (·.lookup name)
      let mode := Mode.without node.mode mask
      match node.body with
      | .folder names =>
        let (v, k) := match old? with
          | some k => (v, k)
          | none =>
            let (v, k) := v.add ⟨.folder [], mode, now⟩
            (v.name folder name k, k)
        names.foldl (fun v e => copyNode v now mask fuel e.2 k e.1) v
      | .file content => match old? with
        | some k => v.setContent k content now
        | none => v.put folder name ⟨.file content, mode, now⟩
      | body => (v.unname folder name).put folder name ⟨body, mode, now⟩

/-- Copy files. -/
def cp : Utility := withOptions "cp"
    { flags := "abdfHiLlnPpRrsTuvx", valued := "tS", words := destinationWords } fun g =>
  forEachDestination "cp" g fun (source, destination) => do
    let v ← Course.look
    let isRecursive := g.has 'r' || g.has 'R' || g.has 'a'
    let keepsLinks := (isRecursive || g.has 'P' || g.has 'd') && !g.has 'L'
    let done : Course (Except String Unit) := do
      report "cp" g (quoted source ++ " -> " ++ quoted destination)
      pure (.ok ())
    match v.find source (!keepsLinks) with
    | .error fault => pure (.error ("cannot stat " ++ quoted source ++ ": " ++ fault.reason))
    | .ok s =>
      let volume := v.store.volume
      let isFolder := volume.isFolder s.node
      if isFolder && !isRecursive then
        pure (.error ("-r not specified; omitting directory " ++ quoted source))
      else
        let conflict := match v.find destination with
          | .ok old =>
            if g.has 'n' then none
            else (conflict? v source destination s old).map fun c =>
              if !isFolder && volume.isFolder old.node then c ++ " " ++ quoted source else c
          | .error .notDirectory =>
            some ("failed to access " ++ quoted destination ++ ": Not a directory")
          | .error _ => none
        match conflict with
        | some complaint => pure (.error complaint)
        | none =>
          if g.has 'n' && (v.nodeAt? destination).isSome then pure (.ok ())
          else if g.has 's' then
            match ← Course.changeVolume fun v =>
                v.store.volume.place v.context.here destination ⟨.link source, 0o777, v.clock⟩ with
            | .ok () => done
            | .error fault => pure (.error ("cannot create symbolic link " ++
                quoted destination ++ " to " ++ quoted source ++ ": " ++ fault.reason))
          else
            let target := if isFolder then
                String.ofList (destination.toList.reverse.dropWhile (· = '/')).reverse
              else destination
            let isLink := match volume.node? s.node with
              | some ⟨.link _, _, _⟩ => true
              | _ => false
            let result ← Course.changeVolume fun v => do
              let volume := v.store.volume
              if isFolder || isLink || g.has 'l' then
                match ← volume.target v.context.here target with
                | (above, .name name _) =>
                  if above.any fun e => e.2 == s.node then .error .invalid
                  else if g.has 'l' && !isFolder then
                    volume.addName v.context.here source target true
                  else .ok (copyNode volume v.clock v.context.mask folderDepth s.node
                    above.node name)
                | (above, .special) =>
                  let into := (volume.find v.context.here target).toOption.getD above
                  .ok (((volume.names? s.node).getD []).foldl (fun w e =>
                    copyNode w v.clock v.context.mask folderDepth e.2 into.node e.1) volume)
              else
                let mode := Mode.without ((volume.node? s.node).elim 0o644 (·.mode)) v.context.mask
                let (volume, n) ← volume.create v.context.here target mode v.clock
                .ok (volume.setContent n (volume.content s.node) v.clock)
            match result with
            | .ok () => done
            | .error .invalid =>
              pure (.error ("cannot copy a directory, " ++ quoted source ++ ", into itself, " ++
                quoted destination))
            | .error fault =>
              pure (.error ((if isFolder then "cannot create directory "
                else "cannot create regular file ") ++ quoted destination ++ ": " ++
                fault.reason))

/-- What a link names and where it is made, for all of them, or what is wrong, and whether that is
a wrong call. -/
def linksOf (v : View) (g : Options.Given) : Except (String × Bool) (List (String × String)) :=
  match g.operands with
  | [] => .error ("missing file operand", true)
  | [a] =>
    if (g.value? 't').isSome then destinations v g
    else .ok [(a, within "." (lastName a))]
  | operands =>
    let target := operands.getLastD ""
    let isLink := match v.nodeAt? target false with
      | some ⟨.link _, _, _⟩ => true
      | _ => false
    if g.has 'n' && isLink then
      .ok ((operands.dropLast).map fun s => (s, target))
    else destinations v g

/-- Make links. -/
def ln : Utility := withOptions "ln"
    { flags := "bdfFinLPrsTv", valued := "tS", words := destinationWords } fun g => do
  let make : String × String → Course (Except String Unit) := fun (source, destination) => do
    let v ← Course.look
    let isSymbolic := g.has 's'
    let kind := if isSymbolic then "symbolic link " else "hard link "
    let describe (fault : Fault) : Except String Unit :=
      .error ("failed to create " ++ kind ++ quoted destination ++ ": " ++ fault.reason)
    let source? := v.find source (g.has 'L')
    match source? with
    | .error fault =>
      if !isSymbolic then
        pure (.error ("failed to access " ++ quoted source ++ ": " ++ fault.reason))
      else makeLink g v source destination describe
    | .ok s =>
      if !isSymbolic && v.store.volume.isFolder s.node then
        pure (.error (source ++ ": hard link not allowed for directory"))
      else makeLink g v source destination describe
  match linksOf (← Course.look) g with
  | .error (text, true) => misuse "ln" text
  | .error (text, false) =>
    object "ln" text
    pure 1
  | .ok pairs => forEach "ln" pairs make
where
  /-- Make one link. -/
  makeLink (g : Options.Given) (v : View) (source destination : String)
      (describe : Fault → Except String Unit) : Course (Except String Unit) := do
    let here := v.context.here
    let isSame := Condition.isSameThing v source destination && !g.has 's'
    if g.has 'f' && isSame then
      pure (.error (quoted source ++ " and " ++ quoted destination ++ " are the same file"))
    else match ← Course.changeVolume fun v => do
        let volume := v.store.volume
        let volume := if g.has 'f' then
            (volume.removeFile here destination).toOption.getD volume
          else volume
        if g.has 's' then volume.place here destination ⟨.link source, 0o777, v.clock⟩
        else volume.addName here source destination (g.has 'L') with
      | .ok () =>
        report "ln" g (quoted (if destination.startsWith "./" && g.operands.length = 1
          then String.ofList (destination.toList.drop 2) else destination) ++
          (if g.has 's' then " -> " else " => ") ++ quoted source)
        pure (.ok ())
      | .error fault => pure (describe fault)

/-! ## Modes of files -/

/-- The options of `chmod`, but for those that begin a mode. -/
def chmodArguments (args : List String) : List String × List String :=
  args.partition fun a => a.toList.head? == some '-' && 1 < a.length &&
    (a.toList.drop 1).all fun c => "Rvcf-abdeghijklmnopqsy=".toList.contains c

/-- Everything below a path, the path itself first. -/
def topDown (v : View) : Nat → String → List String
  | 0, _ => []
  | fuel + 1, path => match v.find path false with
    | .error _ => [path]
    | .ok s => match v.store.volume.names? s.node with
      | none => [path]
      | some names => path :: names.flatMap fun e => topDown v fuel (within path e.1)

/-- Set who may do what with files. -/
def chmod : Utility := fun args => do
  let (flags, rest) := chmodArguments (args.filter (· != "--"))
  match Options.read { flags := "Rvcf", valued := "=", words := [("recursive", 'R'),
      ("verbose", 'v'), ("changes", 'c'), ("silent", 'f'), ("quiet", 'f'),
      ("reference", '=')] } flags with
  | .error mistake => misuse "chmod" mistake.message
  | .ok g =>
    let v ← Course.look
    let (text, paths) := match g.value? '=' with
      | some _ => ("", rest)
      | none => (rest.headD "", rest.drop 1)
    let newMode (isFolder : Bool) (old : Nat) : Option Nat := match g.value? '=' with
      | some path => (v.nodeAt? path).map (·.mode)
      | none => Mode.ofText? text v.context.mask isFolder old
    if paths.isEmpty then
      misuse "chmod" (if rest.isEmpty then "missing operand"
        else "missing operand after " ++ quoted text)
    else if (newMode false 0).isNone then misuse "chmod" ("invalid mode: " ++ quoted text)
    else
      let all := if g.has 'R' then paths.flatMap (topDown v folderDepth) else paths
      forEach "chmod" all fun path => do
        let v ← Course.look
        match v.find path with
        | .error fault =>
          pure (if g.has 'f' then .ok ()
            else .error ("cannot access " ++ quoted path ++ ": " ++ fault.reason))
        | .ok s =>
          let volume := v.store.volume
          let old := (volume.node? s.node).elim 0 (·.mode)
          let mode := (newMode (volume.isFolder s.node) old).getD old
          Course.change (v.withVolume (volume.setMode s.node mode))
          let shown (m : Nat) : String := "0" ++ String.ofList (Nat.toDigits 8 (m + 0o1000)).tail ++
            " (" ++ Mode.letters m ++ ")"
          if g.has 'v' || g.has 'c' && mode != old then
            say "chmod" ("mode of " ++ quoted path ++ (if mode = old then
              " retained as " ++ shown old
              else " changed from " ++ shown old ++ " to " ++ shown mode) ++ "\n")
          pure (.ok ())

/-- Make a file or a folder with a name that nothing has. -/
def mktemp : Utility := withOptions "mktemp"
    { flags := "dqtu", valued := "p", words := [("directory", 'd'), ("quiet", 'q'),
        ("tmpdir", 'p')] } fun g => do
  let v ← Course.look
  let template := g.operands.headD "tmp.XXXXXXXXXX"
  let marks := (template.toList.reverse.takeWhile (· = 'X')).length
  if marks < 3 then
    object "mktemp" ("too few X\x27s in template " ++ quoted template)
    pure 1
  else
    let folder := (g.value? 'p').getD ((v.valueOf? "TMPDIR").getD "/tmp")
    let isPlain := !g.operands.isEmpty && !g.has 't' && (g.value? 'p').isNone
    let stem := String.ofList (template.toList.take (template.length - marks))
    let number := toString (v.store.volume.nodes.size + 1000000)
    let path := (if isPlain then stem else within folder stem) ++
      String.ofList ((List.replicate marks 'a' ++ number.toList).drop number.length |>.take marks)
    match ← Course.changeVolume fun v =>
        if g.has 'u' then .ok v.store.volume
        else v.store.volume.place v.context.here path
          ⟨if g.has 'd' then .folder [] else .file [], if g.has 'd' then 0o700 else 0o600,
            v.clock⟩ with
    | .ok () =>
      say "mktemp" (path ++ "\n")
      pure 0
    | .error fault =>
      object "mktemp" ("failed to create file via template " ++ quoted template ++ ": " ++
        fault.reason)
      pure 1

/-- Copy files and set their modes, or make folders. -/
def install : Utility := withOptions "install"
    { flags := "bcCdDpsTv", valued := "mtog", words := [("mode", 'm'), ("directory", 'd'),
        ("target-directory", 't')] } fun g =>
  let mode := ((g.value? 'm').bind fun t => Mode.ofText? t 0 false 0).getD 0o755
  if g.has 'd' then forEach "install" g.operands fun path =>
    makeSteps { options := [] } mode (stepsTo path)
  else forEachDestination "install" g fun (source, destination) => do
    let steps := stepsTo destination
    if g.has 'D' then
      let _ ← makeSteps { options := [] } 0o755 steps.dropLast
    match ← Course.readFile source with
    | .error fault => pure (.error ("cannot stat " ++ quoted source ++ ": " ++ fault.reason))
    | .ok bs =>
      match ← Course.changeVolume fun v => do
          let volume := (v.store.volume.removeFile v.context.here destination).toOption.getD
            v.store.volume
          let (volume, n) ← volume.create v.context.here destination mode v.clock
          .ok (volume.setContent n bs v.clock) with
      | .ok () => pure (.ok ())
      | .error fault => pure (.error ("cannot create regular file " ++ quoted destination ++
          ": " ++ fault.reason))

end Utility

end FolderTasks.Machine
