/-!
# Signals

Signals are known by number and by name.  Most of them kill the program that does not expect
them; a few stop it for good, and a few do nothing.

## Main definitions

* `Signal.ofText?`, `Signal.name`: the number that a text names, and the name of a number.
* `Signal.Effect`, `Signal.effect`: what a signal does to a program.
-/

namespace FolderTasks.Machine.Signal

/-- The names of the signals from number one on, with what is said when one kills a program. -/
def table : List (String × String) :=
  [("HUP", "Hangup"), ("INT", ""), ("QUIT", "Quit"), ("ILL", "Illegal instruction"),
    ("TRAP", "Trace/breakpoint trap"), ("ABRT", "Aborted"), ("BUS", "Bus error"),
    ("FPE", "Floating point exception"), ("KILL", "Killed"), ("USR1", "User defined signal 1"),
    ("SEGV", "Segmentation fault"), ("USR2", "User defined signal 2"), ("PIPE", ""),
    ("ALRM", "Alarm clock"), ("TERM", "Terminated"), ("STKFLT", "Stack fault"), ("CHLD", ""),
    ("CONT", ""), ("STOP", ""), ("TSTP", ""), ("TTIN", ""), ("TTOU", ""), ("URG", ""),
    ("XCPU", "CPU time limit exceeded"), ("XFSZ", "File size limit exceeded"),
    ("VTALRM", "Virtual timer expired"), ("PROF", "Profiling timer expired"), ("WINCH", ""),
    ("IO", "I/O possible"), ("PWR", "Power failure"), ("SYS", "Bad system call")]

/-- What is said when a signal kills a program, or nothing. -/
def obituary (n : Nat) : String := if n = 0 then "" else (table[n - 1]?.map (·.2)).getD ""

/-- What a signal does to a program that does not expect it. -/
inductive Effect where
  | none
  | kill
  | stop
deriving DecidableEq, Repr

/-- What a signal does to a program that does not expect it. -/
def effect (n : Nat) : Effect :=
  if [0, 17, 18, 23, 28].contains n then .none
  else if [19, 20, 21, 22].contains n then .stop
  else .kill

/-- The names of all signals by their numbers, those for any use included. -/
def names : List (Nat × String) :=
  table.zipIdx.map (fun (e, i) => (i + 1, e.1)) ++ [(34, "RTMIN")] ++
    (List.range 15).map (fun i => (35 + i, "RTMIN+" ++ toString (i + 1))) ++
    (List.range 14).map (fun i => (50 + i, "RTMAX-" ++ toString (14 - i))) ++ [(64, "RTMAX")]

/-- The greatest number of a signal. -/
def greatest : Nat := 64

/-- The number that a text names, by digits or by name. -/
def ofText? (text : String) : Option Nat :=
  let cs := text.toList
  if !cs.isEmpty && cs.all Char.isDigit then
    let n := cs.foldl (fun n c => n * 10 + (c.toNat - 48)) 0
    if n ≤ greatest then some n else none
  else
    let name := String.ofList (cs.map Char.toUpper)
    if name = "EXIT" then some 0 else (names.find? fun e => e.2 == name).map (·.1)

/-- The name of a signal. -/
def name (n : Nat) : String :=
  if n = 0 then "EXIT" else (names.lookup n).getD (toString n)

end FolderTasks.Machine.Signal
