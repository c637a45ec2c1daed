import FolderTasks.Machine.Utility.Showing
/-!
# Reading line by line

A program that takes its input line by line reads no more than it needs, so that it can stop while
more is coming.

## Main definitions

* `Source`: files from which lines are read one after the other.
* `Source.next`: the next line.
-/

namespace FolderTasks.Machine

open Files

/-- A line, with where it stands. -/
structure Source.Line where
  text : String
  /-- Does a line feed end it? -/
  isWhole : Bool
  path : String
  /-- Is it the first line of its file? -/
  isFirst : Bool

/-- Files from which lines are read one after the other. -/
structure Source where
  /-- What is said of a file that cannot be opened, and of one that cannot be read. -/
  complaintAbout : String → Fault → String
  /-- The exit code of one who does not go on after a file that cannot be read. -/
  fatal : Option Nat := none
  /-- The character that ends a line. -/
  lineEnd : Char := '\n'
  /-- The files that were not yet opened. -/
  waiting : List String
  /-- The file that is read, and its channel. -/
  current : Option (String × Nat) := none
  unread : List Char := []
  /-- Was a line read from the file that is read? -/
  hasBegun : Bool := false
  /-- Is the file at its end, so that only what is unread is left? -/
  isAtEnd : Bool := false
  /-- Was there a file that cannot be read? -/
  hasFailed : Bool := false

namespace Source

/-- Read until there is a line, or the end of a file, or nothing more at all. -/
def fill : Nat → Source → Course Source
  | 0, _ => Course.spin
  | fuel + 1, s =>
    if s.unread.contains s.lineEnd then pure s
    else match s.current with
      | none => match s.waiting with
        | [] => pure s
        | path :: waiting => do
          if path = "-" then
            fill fuel { s with waiting, current := some (path, 0), hasBegun := false }
          else
            let channel := (← Course.look).context.freeChannel 3
            match ← Course.openPathOn channel path .toRead with
            | .ok () =>
              fill fuel { s with waiting, current := some (path, channel), hasBegun := false }
            | .error fault =>
              Course.complain (s.complaintAbout path fault)
              fill fuel { s with waiting, hasFailed := true }
      | some (path, channel) => do
        if s.isAtEnd then
          if s.unread.isEmpty then
            fill fuel { s with current := none, isAtEnd := false }
          else pure s
        else match ← Course.read channel Course.chunk with
          | .ok [] =>
            if channel != 0 then Course.close channel
            fill fuel { s with isAtEnd := true }
          | .ok bs => fill fuel { s with unread := s.unread ++ (textOf bs).toList }
          | .error fault =>
            Course.complain (s.complaintAbout path fault)
            s.fatal.forM fun code => Course.stop (.exited code)
            if channel != 0 then Course.close channel
            fill fuel { s with isAtEnd := true, hasFailed := true }

/-- Is there another line? -/
def hasMore (s : Source) : Course (Bool × Source) := do
  let s ← fill Course.manyReads s
  pure (!s.unread.isEmpty, s)

/-- The next line. -/
def next (s : Source) : Course (Option Source.Line × Source) := do
  let s ← fill Course.manyReads s
  if s.unread.isEmpty then pure (none, s)
  else
    let line := s.unread.takeWhile (· != s.lineEnd)
    let rest := s.unread.drop line.length
    pure (some { text := String.ofList line, isWhole := !rest.isEmpty
                 path := (s.current.map (·.1)).getD "-", isFirst := !s.hasBegun },
      { s with unread := rest.drop 1, hasBegun := true })

/-- Leave the file that is read, and go on with the next one. -/
def leaveFile (s : Source) : Course Source := do
  match s.current with
  | some (_, channel) =>
    if channel != 0 then Course.close channel
    pure { s with current := none, unread := [], isAtEnd := false }
  | none => pure s

end Source

end FolderTasks.Machine
