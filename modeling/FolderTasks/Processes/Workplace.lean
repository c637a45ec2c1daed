import FolderTasks.Processes.Programs
/-!
# The workplace of a machine

What lies on the volume of a machine before anything is done: the usual folders, the programs, a
few devices, and the folder in which commands work.

## Main definitions

* `Processes.workplace`: the volume with some folders in the working folder.
* `Processes.workingPath`: the path of the working folder.
-/

namespace FolderTasks.Processes

open Machine

/-- The path of the folder in which commands work. -/
def workingPath : String := "/tmp/work"

/-- The folders that every machine has, each after the one that holds it. -/
def usualFolders : List String :=
  ["/boot", "/dev", "/dev/fd", "/etc", "/home", "/media", "/mnt", "/opt", "/proc", "/root", "/run",
    "/srv", "/sys", "/tmp", workingPath, "/usr", "/usr/bin", "/usr/lib", "/usr/local",
    "/usr/local/bin", "/usr/local/sbin", "/usr/sbin", "/usr/share", "/var", "/var/log", "/var/tmp"]

/-- The links that every machine has. -/
def usualLinks : List (String × String) :=
  [("/bin", "usr/bin"), ("/lib", "usr/lib"), ("/sbin", "usr/sbin")]

/-- A few files. -/
def usualFiles : List (String × String) :=
  [("/etc/passwd", "root:x:0:0:root:/root:/bin/sh\n"), ("/etc/group", "root:x:0:\n"),
    ("/etc/hostname", "localhost\n"), ("/etc/hosts", "127.0.0.1\tlocalhost\n")]

/-- The devices of every machine. -/
def usualDevices : List (String × Device) :=
  [("/dev/null", .null), ("/dev/zero", .zero), ("/dev/full", .full), ("/dev/urandom", .zero),
    ("/dev/random", .zero), ("/dev/stdin", .channel 0), ("/dev/stdout", .channel 1),
    ("/dev/stderr", .channel 2)] ++
    (List.range 64).map fun n => ("/dev/fd/" ++ toString n, .channel n)

/-- What lies on every machine, by paths. -/
def usualNodes : List (String × Node) :=
  usualFolders.map (fun p => (p, ⟨.folder [], if p = "/tmp" then 0o1777 else 0o755, 0⟩)) ++
    usualLinks.map (fun (p, target) => (p, ⟨.link target, 0o777, 0⟩)) ++
    usualFiles.map (fun (p, text) => (p, ⟨.file (bytesOf text), 0o644, 0⟩)) ++
    usualDevices.map (fun (p, d) => (p, ⟨.device d, 0o666, 0⟩)) ++
    programNames.map fun name => ("/usr/bin/" ++ name, ⟨.program name, 0o755, 0⟩)

/-- A volume with some nodes put at their paths, as far as that is possible. -/
def placeAll (v : Volume) (nodes : List (String × Node)) : Volume :=
  nodes.foldl (fun v (path, n) => match v.place [] path n with
    | .ok v => v
    | .error _ => v) v

/-- The volume of every machine. -/
def usualVolume : Volume := placeAll {} usualNodes

/-- The folders that lie on the way to a path, and the one at its end. -/
def foldersTo (path : String) : List String :=
  let segments := (pathSegments path).filter (· != "")
  (List.range segments.length).map fun n =>
    workingPath ++ "/" ++ String.intercalate "/" (segments.take (n + 1))

/-- The volume of a machine with some folders in the working folder. -/
def workplace (folders : List String) : Volume :=
  placeAll usualVolume ((folders.flatMap foldersTo).map fun path =>
    (path, ⟨.folder [], 0o755, 0⟩))

/-- The way to the working folder. -/
def workingSpot (v : Volume) : Spot :=
  match v.find [] workingPath with
  | .ok s => s
  | .error _ => []

end FolderTasks.Processes
