import FolderTasks.Machine.Process
import FolderTasks.Machine.Signal
/-!
# A running machine

A host holds processes and the things they share, and lets them go on: those that can, one after
the other, until all of them wait for something; then the clock moves on to the next moment at
which one wakes.

A process that goes on without end at one moment is left alone after a while; it stays until
somebody kills it.

## Main definitions

* `Resident`, `Host`: a process on a machine, and the machine.
* `Host.go`: a process goes on with what it asks for next.
* `Host.settle`: all processes go on as far as they can.
* `Host.runUntil`: time goes by until something has happened.
-/

namespace FolderTasks.Machine

open Files

/-- What a process on a machine does. -/
inductive Resident.State where
  | awake (p : Process)
  /-- It sleeps until a moment. -/
  | asleep (moment : Nat) (next : Unit → Process)
  /-- It is at its end, and nobody has asked for it yet. -/
  | ended (e : Ending)
  /-- It is busy without end. -/
  | busy

/-- A process on a machine. -/
structure Resident where
  context : Context
  state : Resident.State
  /-- Has a signal stopped it until another makes it go on? -/
  isStopped : Bool := false

/-- Is the process not yet at its end? -/
def Resident.isAlive (r : Resident) : Bool :=
  match r.state with
  | .ended _ => false
  | _ => true

/-- A machine with its processes, those first that are to go on first. -/
structure Host where
  store : Store := {}
  /-- Microseconds since the machine was started. -/
  clock : Nat := 0
  residents : List Resident := []
  /-- The number of the next process. -/
  nextNumber : Nat := 1000

/-- The number by which the one outside goes who has processes started. -/
def outsider : Nat := 0

/-- As much as a pipe holds, about. -/
def pipeRoom : Nat := 65536

namespace Host

/-- The process of a number. -/
def resident? (h : Host) (number : Nat) : Option Resident :=
  h.residents.find? fun r => r.context.number == number

/-- Change the process of a number. -/
def update (h : Host) (number : Nat) (f : Resident → Resident) : Host :=
  { h with residents := h.residents.map fun r => if r.context.number = number then f r else r }

/-- What a process sees. -/
def view (h : Host) (c : Context) : View := ⟨h.store, c, h.clock⟩

/-- Does any process hold an open file of this kind? -/
def isHeld (h : Host) (isMeant : Opened → Bool) : Bool :=
  h.residents.any fun r => r.isAlive && r.context.channels.any fun e =>
    (h.store.opened[e.2]?).any isMeant

/-- Does any process hold an end of a pipe? -/
def hasEnd (h : Host) (n : Nat) (isWriting : Bool) : Bool :=
  h.isHeld fun o => o.target == .pipe n isWriting

/-- A process comes to its end.  Those that it started have nobody any more who asks for them. -/
def conclude (h : Host) (number : Nat) (e : Ending) : Host :=
  let starter := (h.resident? number).elim outsider (·.context.starter)
  let isAsked := starter == outsider ||
    h.residents.any fun r => r.context.number == starter && r.isAlive
  { h with residents := h.residents.filterMap fun r =>
      if r.context.number = number then
        if isAsked then some { r with state := .ended e } else none
      else if r.context.starter = number then
        if r.isAlive then some { r with context := { r.context with starter := 1 } } else none
      else some r }

/-- A signal comes to a process. -/
def deliver (h : Host) (number n : Nat) : Host :=
  match h.resident? number with
  | none => h
  | some r =>
    let isFinal := n = 9 || n = 19
    if !r.isAlive || n = 0 then h
    else if n = 18 then h.update number fun r => { r with isStopped := false }
    else if !isFinal && r.context.ignored.contains n then h
    else if !isFinal && r.context.caught.contains n then
      h.update number fun r => { r with context :=
        { r.context with pending := r.context.pending ++ [n] } }
    else match Signal.effect n with
      | .none => h
      | .stop => h.update number fun r => { r with isStopped := true }
      | .kill => h.conclude number (.killed n)

/-- What comes of an attempt to read: nothing yet, or an answer. -/
def reading (h : Host) (c : Context) (channel limit : Nat) :
    Option (Store × Except Fault Bytes) :=
  match (c.opened? channel).bind fun n => (h.store.opened[n]?).map (n, ·) with
  | none => some (h.store, .error .badChannel)
  | some (n, o) =>
    if !o.reads then some (h.store, .error .badChannel)
    else match o.target with
      | .listener _ => some (h.store, .error .badChannel)
      | .pipe k _ =>
        let bs := h.store.pipes.getD k []
        if bs.isEmpty then
          if h.hasEnd k true then none else some (h.store, .ok [])
        else some ({ h.store with pipes := h.store.pipes.set! k (bs.drop limit) },
          .ok (bs.take limit))
      | .node k => match h.store.volume.node? k with
        | some ⟨.file content, _, _⟩ =>
          let bs := (content.drop o.position).take limit
          let o := { o with position := o.position + bs.length }
          some ({ h.store with opened := h.store.opened.set! n o }, .ok bs)
        | some ⟨.device .zero, _, _⟩ | some ⟨.device .full, _, _⟩ =>
          some (h.store, .ok (List.replicate (min limit 65536) 0))
        | some ⟨.folder _, _, _⟩ => some (h.store, .error .isDirectory)
        | _ => some (h.store, .ok [])

/-- Bytes put over others at a position. -/
def overwrite (content : Bytes) (position : Nat) (bs : Bytes) : Bytes :=
  content.take position ++ List.replicate (position - content.length) 0 ++ bs ++
    content.drop (position + bs.length)

/-- What comes of an attempt to write: nothing yet, or an answer. -/
def writing (h : Host) (c : Context) (channel : Nat) (bs : Bytes) :
    Option (Store × Except Fault Unit) :=
  match (c.opened? channel).bind fun n => (h.store.opened[n]?).map (n, ·) with
  | none => some (h.store, .error .badChannel)
  | some (n, o) =>
    if !o.writes then some (h.store, .error .badChannel)
    else match o.target with
      | .listener k =>
        if (h.store.listeners.getD k {}).hasLeft h.clock then some (h.store, .error .brokenPipe)
        else
          let listeners := h.store.listeners.modify k fun l => l.hear h.clock bs
          some ({ h.store with listeners }, .ok ())
      | .pipe k _ =>
        if !h.hasEnd k false then some (h.store, .error .brokenPipe)
        else if pipeRoom ≤ (h.store.pipes.getD k []).length then none
        else some ({ h.store with pipes := h.store.pipes.modify k (· ++ bs) }, .ok ())
      | .node k => match h.store.volume.node? k with
        | some ⟨.file content, _, _⟩ =>
          let position := if o.appends then content.length else o.position
          let volume := h.store.volume.setContent k (overwrite content position bs) h.clock
          let o := { o with position := position + bs.length }
          some ({ h.store with volume, opened := h.store.opened.set! n o }, .ok ())
        | some ⟨.device .full, _, _⟩ => some (h.store, .error .noSpace)
        | _ => some (h.store, .ok ())

/-- What comes of waiting for processes: nothing yet, or an answer. -/
def awaiting (h : Host) (c : Context) (number : Option Nat) (w : Waiting) : Option Awaited :=
  let started := h.residents.filter fun r =>
    r.context.starter == c.number && number.all (· == r.context.number)
  match started.findSome? fun r => match r.state with
    | .ended e => some (Awaited.ended r.context.number e)
    | _ => none with
  | some a => some a
  | none =>
    if started.isEmpty || w = .hurried then some .nobody
    else if w = .watchful && !c.pending.isEmpty then some .interrupted
    else none

/-- Has a process something to do now? -/
def canGo (h : Host) (r : Resident) : Bool :=
  !r.isStopped && match r.state with
    | .awake (.read channel limit _) => (h.reading r.context channel limit).isSome
    | .awake (.write channel bs _) => (h.writing r.context channel bs).isSome
    | .awake (.await number w _) => (h.awaiting r.context number w).isSome
    | .awake _ => true
    | _ => false

/-- A process goes on with what it asks for next. -/
def go (h : Host) (r : Resident) : Host :=
  let number := r.context.number
  let continuing (h : Host) (p : Process) : Host :=
    h.update number fun r => { r with state := .awake p }
  match r.state with
  | .asleep _ _ | .ended _ | .busy => h
  | .awake p => match p with
    | .ended e => h.conclude number e
    | .spinning => h.update number fun r => { r with state := .busy }
    | .pause next =>
      let h := continuing h (next ())
      let (mine, others) := h.residents.partition fun r => r.context.number == number
      { h with residents := others ++ mine }
    | .look next => continuing h (next (h.view r.context))
    | .change v next =>
      ({ h with store := v.store } : Host).update number fun r =>
        { r with context := { v.context with number, starter := r.context.starter }
                 state := .awake (next ()) }
    | .sleep time next => h.update number fun r =>
        { r with state := .asleep (h.clock + time) next }
    | .read channel limit next => match h.reading r.context channel limit with
      | some (store, answer) => continuing { h with store } (next answer)
      | none => h
    | .write channel bs next => match h.writing r.context channel bs with
      | none => h
      | some (store, answer) =>
        let h := continuing { h with store } (next answer)
        match answer with
        | .error .brokenPipe => h.deliver number 13
        | _ => h
    | .fork child next =>
      let context := { r.context with
        number := h.nextNumber, starter := number, caught := [], pending := [] }
      let h : Host := { h with
        nextNumber := h.nextNumber + 1
        residents := h.residents ++ [{ context, state := .awake child }] }
      continuing h (next context.number)
    | .await asked w next => match h.awaiting r.context asked w with
      | none => h
      | some answer =>
        let h : Host := match answer with
          | .ended n _ => { h with residents := h.residents.filter fun r => r.context.number != n }
          | _ => h
        continuing h (next answer)
    | .signal target n next =>
      let targets := (h.residents.filter fun s =>
        if 0 < target then (s.context.number : Int) == target
        else s.isAlive && s.context.group == (if target = 0 then r.context.group
          else target.natAbs)).map fun s => s.context.number
      let h := continuing h (next (!targets.isEmpty))
      targets.foldl (fun h number => h.deliver number n) h

/-- How much all processes together may do at one moment. -/
def patience : Nat := 2000000

/-- Leave those alone that still have something to do. -/
def giveUp (h : Host) : Host :=
  { h with residents := h.residents.map fun r => if h.canGo r then { r with state := .busy } else r }

/-- All processes go on as far as they can at this moment. -/
def settleGo : Nat → Host → Host
  | 0, h => h.giveUp
  | fuel + 1, h => match h.residents.find? h.canGo with
    | some r => settleGo fuel (h.go r)
    | none => h

/-- All processes go on as far as they can at this moment. -/
def settle (h : Host) : Host := settleGo patience h

/-- The next moment at which a process wakes. -/
def nextWaking? (h : Host) : Option Nat :=
  (h.residents.filterMap fun r => match r.state with
    | .asleep t _ => if r.isStopped then none else some t
    | _ => none).min?

/-- Go to a later moment, at which those wake that have slept long enough. -/
def moveTo (h : Host) (t : Nat) : Host :=
  { h with
    clock := max h.clock t
    residents := h.residents.map fun r => match r.state with
      | .asleep u next => if u ≤ t then { r with state := .awake (next ()) } else r
      | _ => r }

/-- How many moments are gone through at most. -/
def manyMoments : Nat := 100000

/-- Time goes by until something has happened, or until a moment. -/
def runUntilGo (hasHappened : Host → Bool) (deadline : Option Nat) : Nat → Host → Host
  | 0, h => h
  | fuel + 1, h =>
    let h := h.settle
    if hasHappened h then h
    else match h.nextWaking?, deadline with
      | none, none => h
      | none, some d => h.moveTo d
      | some t, none => runUntilGo hasHappened deadline fuel (h.moveTo t)
      | some t, some d =>
        if d < t then h.moveTo d else runUntilGo hasHappened deadline fuel (h.moveTo t)

/-- Time goes by until something has happened, or until a moment. -/
def runUntil (h : Host) (hasHappened : Host → Bool) (deadline : Option Nat) : Host :=
  runUntilGo hasHappened deadline manyMoments h

/-- The ending of a process, if it is at its end. -/
def ending? (h : Host) (number : Nat) : Option Ending :=
  match h.resident? number with
  | some ⟨_, .ended e, _⟩ => some e
  | _ => none

/-- Start a process from outside. -/
def start (h : Host) (context : Context) (t : Course Ending) : Host × Nat :=
  let context := { context with number := h.nextNumber, starter := outsider }
  ({ h with
    nextNumber := h.nextNumber + 1
    residents := h.residents ++ [{ context, state := .awake t.toProcess }] }, context.number)

end Host

end FolderTasks.Machine
