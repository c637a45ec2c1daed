import FolderTasks.Proofs.Dispatch.WaitingRooms
import Mathlib.Data.List.Forall2
/-!
# Worlds that mirror each other

Two worlds mirror each other when one can be had from the other by leaving things out: handles and
the jobs that wait for them, tokens, and who has received an outcome.  The jobs that are left have
other numbers then, so every place where a world names a job is read through a correspondence of
jobs.

## Main definitions

* `World.Resembles`: what a user compares of two worlds.
* `World.Twins`: the jobs of two worlds correspond, wherever they are named.
* `World.Mirrors`: both, while the callbacks use nothing that is left out.

## Design notes

`D` lists tokens and `Z` lists names of handles.  What is left out are the handles with these names
and the jobs that wait for them, and nobody listens to these tokens.
-/

namespace FolderTasks.Dispatch

/-! ## What is left of the parts -/

/-- An entry without those who wait for it. -/
def Entry.plain (entry : Entry) : Entry := { entry with isReceived := false, room := {} }

/-- An entry looks like another one to all but those who wait for it.  An outcome that was received
from the second one was received from the first one, too. -/
structure Entry.Resembles (entry entry' : Entry) : Prop where
  plain : entry'.plain = entry.plain
  received : entry'.isReceived = true → entry.isReceived = true

/-- A position without the seat. -/
def Position.plain : Position → Position
  | .awaiting e _ => .awaiting e 0
  | p => p

/-- A job without the seat. -/
def Job.plain (job : Job) : Job := { job with position := job.position.plain }

/-- The token that an errand passes on. -/
def Errand.token? : Errand → Option String
  | .execution _ _ token | .reset _ _ token => token
  | .operation _ | .watch _ _ | .reopen _ _ => none

/-- Does a job wait for a handle of one of these names? -/
def Errand.awaits (Z : List String) : Errand → Bool
  | .watch handle _ => decide (handle ∈ Z)
  | .operation _ | .execution _ _ _ | .reset _ _ _ | .reopen _ _ => false

/-- An errand that passes on no token and waits for no handle that is left out. -/
def Errand.Spares (D Z : List String) (errand : Errand) : Prop :=
  (∀ x, errand.token? = some x → x ∉ D) ∧ errand.awaits Z = false

/-- The facts that a user compares: not which requests were absorbed, which number a job has, what a
callback was answered, and what those got to know who wait for handles of these names. -/
def Happening.isShown (Z : List String) : Happening → Bool
  | .absorbed _ _ _ | .numbered _ _ | .hookAnswered _ _ => false
  | .watched handle _ _ => decide (handle ∉ Z)
  | _ => true

/-- A token that is not left out. -/
def IsKept (D : List String) (token : Option String) : Prop := ∀ x, token = some x → x ∉ D

/-- An action that passes on no token and makes no handle that is left out. -/
def Action.Spares (D Z : List String) : Action → Prop
  | .request _ _ token handle => IsKept D token ∧ handle ∉ Z
  | .execute _ _ token | .reset _ _ token => IsKept D token
  | _ => True

/-- A hook all of whose actions do so. -/
def Hook.Spares (D Z : List String) (h : Hook) : Prop := ∀ a ∈ h.actions, a.Spares D Z

theorem Entry.Resembles.eq {entry entry' : Entry} (h : entry.Resembles entry') :
    entry'.queue = entry.queue ∧ entry'.operation = entry.operation ∧ entry'.token = entry.token ∧
      entry'.outcome = entry.outcome := by
  injection h.plain with hq ho ht hout
  exact ⟨hq, ho, ht, hout⟩

/-- The outcome of an entry is known in both worlds. -/
theorem Entry.Resembles.setOutcome {entry entry' : Entry} (h : entry.Resembles entry')
    (o : Outcome) :
    Entry.Resembles { entry with outcome := some o } { entry' with outcome := some o } := by
  obtain ⟨hqueue, hop, htoken, -⟩ := h.eq
  refine ⟨?_, h.received⟩
  rw [Entry.plain, Entry.plain, hqueue, hop, htoken]

theorem Position.plain_eq {p p' : Position} (h : p'.plain = p.plain) :
    p' = p ∨ ∃ e s s', p = .awaiting e s ∧ p' = .awaiting e s' := by
  cases p <;> cases p' <;> simp_all [Position.plain]

theorem Position.plain_eq_done {p : Position} : p.plain = .done ↔ p = .done := by
  cases p <;> simp [Position.plain]

theorem Job.plain_eq {job job' : Job} (h : job'.plain = job.plain) :
    job'.errand = job.errand ∧ job'.position.plain = job.position.plain ∧
      job'.isAbandoned = job.isAbandoned := by
  injection h with herrand hposition hgiven
  exact ⟨herrand, hposition, hgiven⟩

/-- Lists that correspond, read at one place. -/
theorem getElem?_of_forall₂ {α β : Type} {R : α → β → Prop} {l : List α} {l' : List β}
    (h : List.Forall₂ R l l') (i : Nat) :
    (l[i]? = none ∧ l'[i]? = none) ∨ ∃ a b, l[i]? = some a ∧ l'[i]? = some b ∧ R a b := by
  induction h generalizing i with
  | nil => exact .inl ⟨rfl, rfl⟩
  | cons hab _ ih =>
    cases i with
    | zero => exact .inr ⟨_, _, rfl, rfl, hab⟩
    | succ i => exact ih i

/-- Lists that correspond, changed at one place. -/
theorem forall₂_modify {α β : Type} {R : α → β → Prop} {l : List α} {l' : List β}
    (h : List.Forall₂ R l l') (i : Nat) {f : α → α} {g : β → β}
    (hfg : ∀ {a b}, l[i]? = some a → l'[i]? = some b → R a b → R (f a) (g b)) :
    List.Forall₂ R (l.modify i f) (l'.modify i g) := by
  induction h generalizing i with
  | nil => cases i <;> exact .nil
  | cons hab h ih =>
    cases i with
    | zero => exact .cons (hfg rfl rfl hab) h
    | succ i => exact .cons hab (ih i hfg)

namespace World

/-- **What a user compares of two worlds**: all but the jobs, the handles that are left out and
those who wait for an outcome. -/
structure Resembles (Z : List String) (w w' : World) : Prop where
  clock : w'.clock = w.clock
  backend : w'.backend = w.backend
  startDelays : w'.startDelays = w.startDelays
  startDelay : w'.startDelay = w.startDelay
  prefersCancellation : w'.prefersCancellation = w.prefersCancellation
  toolchain : w'.toolchain = w.toolchain
  lastId : w'.manager.lastId = w.manager.lastId
  startObservers : w'.manager.startObservers = w.manager.startObservers
  endObservers : w'.manager.endObservers = w.manager.endObservers
  isDisposed : w'.manager.isDisposed = w.manager.isDisposed
  entries : List.Forall₂ Entry.Resembles w.entries w'.entries
  queues : w'.queues = w.queues
  folders : w'.folders = w.folders
  reporter : w'.reporter = w.reporter
  recordsFolders : w'.recordsFolders = w.recordsFolders
  observerCalls : w'.observerCalls = w.observerCalls
  queueNames : w'.names.queues = w.names.queues
  observerNames : w'.names.observers = w.names.observers
  handles : w'.names.handles = w.names.handles.filter fun h => decide (h.1 ∉ Z)
  history : w'.history.filter (fun x => x.2.isShown Z) = w.history.filter fun x => x.2.isShown Z

/-- **The jobs of two worlds correspond**, wherever they are named. -/
structure Twins (D Z : List String) (T : JobId → JobId → Prop) (w w' : World) : Prop where
  order : ∀ {j k j' k'}, T j k → T j' k' → (j < j' ↔ k < k')
  jobs : ∀ {j k}, T j k → ∃ job job', w.jobs[j]? = some job ∧ w'.jobs[k]? = some job' ∧
    job'.plain = job.plain ∧ job.errand.Spares D Z
  rest : ∀ {j job}, w.jobs[j]? = some job → job.errand.awaits Z = false → ∃ k, T j k
  named : List.Forall₂ (fun p p' => p.1 = p'.1 ∧ T p.2 p'.2) w.names.jobs w'.names.jobs
  ready : ∀ {j k}, T j k → (j ∈ w.ready ↔ k ∈ w'.ready)
  nodup : w.ready.Nodup
  nodup' : w'.ready.Nodup
  bound : ∀ j ∈ w.ready, j < w.jobs.length
  bound' : ∀ k ∈ w'.ready, k < w'.jobs.length
  current : ∀ {j k}, T j k → (w.current = some j ↔ w'.current = some k)
  idle : ∀ {j}, w.current = some j → j < w.jobs.length
  idle' : ∀ {k}, w'.current = some k → k < w'.jobs.length
  timers : List.Forall₂ (fun t t' => t.deadline = t'.deadline ∧ T t.job t'.job) w.timers w'.timers
  flags : ∀ x ∉ D, (w'.token x).isCancelled = (w.token x).isCancelled
  waiters : ∀ x ∉ D, List.Forall₂ T (w.token x).waiters (w'.token x).waiters
  unheard : ∀ x ∈ D, (w.token x).waiters = [] ∧ (w'.token x).waiters = []
  holder : Option.Rel T w.manager.guard.holder w'.manager.guard.holder
  line : List.Forall₂ T w.manager.guard.line w'.manager.guard.line
  seats : ∀ {j k}, T j k → ∀ e, w.Sits j e ↔ w'.Sits k e
  sitting : ∀ {j e}, w.Sits j e → j < w.jobs.length
  sitting' : ∀ {k e}, w'.Sits k e → k < w'.jobs.length
  orders : ∀ entry ∈ w.entries, IsKept D entry.token

/-- **Two worlds mirror each other** through a correspondence of jobs. -/
structure Mirrors (D Z : List String) (T : JobId → JobId → Prop) (w w' : World) : Prop where
  resembles : Resembles Z w w'
  twins : Twins D Z T w w'
  hooks : w.CalledBy (Hook.Spares D Z)

section Mirroring

variable {D Z : List String} {T T' : JobId → JobId → Prop} {w w' : World} {j k : JobId}

/-! ## What looks alike -/

/-- The entries of one number look alike. -/
theorem Resembles.entry_cases (h : Resembles Z w w') (e : EntryId) :
    (w.entryOf? e = none ∧ w'.entryOf? e = none) ∨ ∃ entry entry', w.entryOf? e = some entry ∧
      w'.entryOf? e = some entry' ∧ entry.Resembles entry' := getElem?_of_forall₂ h.entries e

theorem Resembles.length (h : Resembles Z w w') : w'.entries.length = w.entries.length :=
  h.entries.length_eq.symm

theorem Resembles.isRecorded (h : Resembles Z w w') (e : EntryId) :
    w'.isRecorded e = w.isRecorded e := by
  rcases h.entry_cases e with ⟨he, he'⟩ | ⟨entry, entry', he, he', hlike⟩
  · rw [World.isRecorded, World.isRecorded, he, he']
    rfl
  · rw [World.isRecorded, World.isRecorded, he, he', Option.bind_some, Option.bind_some,
      hlike.eq.1, h.queues]

theorem Resembles.queueName (h : Resembles Z w w') (q : QueueId) :
    w'.queueName q = w.queueName q := by
  rw [World.queueName, World.queueName, h.queues]

theorem Resembles.label (h : Resembles Z w w') (e : EntryId) :
    (w'.entryOf? e).map (fun entry => entry.operation.label) =
      (w.entryOf? e).map fun entry => entry.operation.label := by
  rcases h.entry_cases e with ⟨he, he'⟩ | ⟨entry, entry', he, he', hlike⟩
  · rw [he, he']
  · rw [he, he', Option.map_some, Option.map_some, hlike.eq.2.1]

theorem Resembles.view (h : Resembles Z w w') (q : QueueId) : w'.view q = w.view q := by
  rw [World.view, World.view, h.queues]
  split
  · next queue hq =>
    cases hactive : queue.active with
    | none => rfl
    | some e => rw [Option.bind_some, Option.bind_some, h.label e]
  · rfl

theorem Resembles.absorber? (h : Resembles Z w w') (queue : Queue) (op : Operation) :
    w'.absorber? queue op = w.absorber? queue op := by
  unfold World.absorber?
  congr
  funext e
  rcases h.entry_cases e with ⟨he, he'⟩ | ⟨entry, entry', he, he', hlike⟩
  · rw [he, he']
  · rw [he, he']
    dsimp only
    rw [hlike.eq.2.1]

/-- What can be peeked at in the second world can be peeked at in the first one, too. -/
theorem Resembles.peek (h : Resembles Z w w') (e : EntryId) :
    w'.peek e = w.peek e ∨ w'.peek e = none ∧ (w.peek e).isSome := by
  rcases h.entry_cases e with ⟨he, he'⟩ | ⟨entry, entry', he, he', hlike⟩
  · simp [World.peek, he, he']
  · simp only [World.peek, he, he', hlike.eq.2.2.2]
    cases hr : entry.isReceived with
    | true =>
      cases entry'.isReceived with
      | true => exact .inl rfl
      | false => cases entry.outcome <;> simp
    | false =>
      have hr' : entry'.isReceived = false :=
        Bool.eq_false_iff.2 fun hr' => absurd (hlike.received hr') (by simp [hr])
      simp [hr']

theorem Resembles.folderQueue? (h : Resembles Z w w') (folder : Path) :
    w'.folderQueue? folder = w.folderQueue? folder := by
  rw [World.folderQueue?, World.folderQueue?, h.folders]

theorem Resembles.queueNamed? (h : Resembles Z w w') (key : String) :
    w'.queueNamed? key = w.queueNamed? key := by
  rw [World.queueNamed?, World.queueNamed?, h.queueNames]

theorem Resembles.startDelayOf (h : Resembles Z w w') (c : Command) :
    w'.startDelayOf c = w.startDelayOf c := by
  rw [World.startDelayOf, World.startDelayOf, h.startDelays, h.startDelay]

theorem Resembles.nextId (h : Resembles Z w w') : w'.nextId = w.nextId := by
  rw [World.nextId, World.nextId, h.lastId]

/-- A name that is not left out stands for the same entry. -/
theorem Resembles.handleNamed? (h : Resembles Z w w') {name : String} (hname : name ∉ Z) :
    w'.handleNamed? name = w.handleNamed? name := by
  have hlookup (handles : List (String × EntryId)) :
      (handles.filter fun h => decide (h.1 ∉ Z)).lookup name = handles.lookup name := by
    induction handles with
    | nil => rfl
    | cons p handles ih =>
      by_cases hp : p.1 ∈ Z
      · have hne : (name == p.1) = false := beq_eq_false_iff_ne.2 fun heq => hname (heq ▸ hp)
        rw [List.filter_cons_of_neg (by simpa using hp), List.lookup_cons, hne, ih]
      · rw [List.filter_cons_of_pos (by simpa using hp), List.lookup_cons, List.lookup_cons, ih]
  rw [World.handleNamed?, World.handleNamed?, h.handles, ← List.filter_reverse, hlookup]

/-- A name that is left out stands for nothing in the second world. -/
theorem Resembles.handleNamed?_eq_none (h : Resembles Z w w') {name : String} (hname : name ∈ Z) :
    w'.handleNamed? name = none := by
  rw [World.handleNamed?, h.handles, List.lookup_eq_none_iff]
  intro p hp
  rw [List.mem_reverse, List.mem_filter, decide_eq_true_iff] at hp
  have hne : name ≠ p.1 := fun heq => hp.2 (heq ▸ hname)
  simpa using hne

/-- A fact that both worlds write down. -/
theorem Resembles.note (h : Resembles Z w w') (x : Happening) :
    Resembles Z (w.note x) (w'.note x) := by
  have hhistory : ((w'.clock, x) :: w'.history).filter (fun x => x.2.isShown Z) =
      ((w.clock, x) :: w.history).filter fun x => x.2.isShown Z := by
    rw [h.clock, List.filter_cons, List.filter_cons, h.history]
  exact { h with history := hhistory }

/-- A fact that a user does not compare. -/
theorem Resembles.note_left (h : Resembles Z w w') {x : Happening} (hx : x.isShown Z = false) :
    Resembles Z (w.note x) w' := by
  have hhistory : w'.history.filter (fun x => x.2.isShown Z) =
      ((w.clock, x) :: w.history).filter fun x => x.2.isShown Z := by
    rw [List.filter_cons_of_neg (by simp [hx]), h.history]
  exact { h with history := hhistory }

theorem Resembles.note_right (h : Resembles Z w w') {x : Happening} (hx : x.isShown Z = false) :
    Resembles Z w (w'.note x) := by
  have hhistory : ((w'.clock, x) :: w'.history).filter (fun x => x.2.isShown Z) =
      w.history.filter fun x => x.2.isShown Z := by
    rw [List.filter_cons_of_neg (by simp [hx]), h.history]
  exact { h with history := hhistory }

/-- Entries that look alike are changed alike. -/
theorem Resembles.modifyEntry (h : Resembles Z w w') (e : EntryId) {f g : Entry → Entry}
    (hfg : ∀ {entry entry' : Entry}, entry.Resembles entry' → (f entry).Resembles (g entry')) :
    Resembles Z (w.modifyEntry e f) (w'.modifyEntry e g) :=
  { h with entries := forall₂_modify h.entries e fun _ _ => hfg }

/-- Somebody comes, leaves or receives the outcome in the first world. -/
theorem Resembles.modifyEntry_left (h : Resembles Z w w') (e : EntryId) {f : Entry → Entry}
    (hplain : ∀ entry, (f entry).plain = entry.plain)
    (hreceived : ∀ entry, entry.isReceived = true → (f entry).isReceived = true) :
    Resembles Z (w.modifyEntry e f) w' := by
  have hentries := forall₂_modify h.entries e (f := f) (g := id) fun {entry entry'} _ _ hlike =>
    ⟨hlike.plain.trans (hplain entry).symm, fun hr => hreceived entry (hlike.received hr)⟩
  rw [List.modify_id] at hentries
  exact { h with entries := hentries }

/-- An outcome is received in the second world that was received in the first one. -/
theorem Resembles.receive_right (h : Resembles Z w w') {e : EntryId} (hpeek : (w.peek e).isSome) :
    Resembles Z w (w'.modifyEntry e fun entry => { entry with isReceived := true }) := by
  have hentries := forall₂_modify h.entries e (f := id)
    (g := fun entry => { entry with isReceived := true }) fun {entry entry'} he _ hlike => by
      refine ⟨hlike.plain, fun _ => ?_⟩
      rw [World.peek, World.entryOf?, he] at hpeek
      change entry.isReceived = true
      by_contra hr
      simp [hr] at hpeek
  rw [List.modify_id] at hentries
  exact { h with entries := hentries }

theorem Resembles.modifyQueue (h : Resembles Z w w') (q : QueueId) (f : Queue → Queue) :
    Resembles Z (w.modifyQueue q f) (w'.modifyQueue q f) := by
  have hqueues : w'.queues.modify q f = w.queues.modify q f := by rw [h.queues]
  exact { h with queues := hqueues }

/-! ## Jobs that correspond -/

theorem Twins.left (h : Twins D Z T w w') {k' : JobId} (hT : T j k) (hT' : T j k') : k = k' := by
  have hlt := h.order hT hT'
  have hgt := h.order hT' hT
  have h₁ : ¬k < k' := fun hk => Nat.lt_irrefl j (hlt.2 hk)
  have h₂ : ¬k' < k := fun hk => Nat.lt_irrefl j (hgt.2 hk)
  exact Nat.le_antisymm (Nat.le_of_not_lt h₂) (Nat.le_of_not_lt h₁)

theorem Twins.right (h : Twins D Z T w w') {j' : JobId} (hT : T j k) (hT' : T j' k) : j = j' := by
  have hlt := h.order hT hT'
  have hgt := h.order hT' hT
  have h₁ : ¬j < j' := fun hj => Nat.lt_irrefl k (hlt.1 hj)
  have h₂ : ¬j' < j := fun hj => Nat.lt_irrefl k (hgt.1 hj)
  exact Nat.le_antisymm (Nat.le_of_not_lt h₂) (Nat.le_of_not_lt h₁)

/-- A job is the same when its twin is. -/
theorem Twins.eq_iff (h : Twins D Z T w w') {j' k' : JobId} (hT : T j k) (hT' : T j' k') :
    j = j' ↔ k = k' :=
  ⟨fun heq => h.left (heq ▸ hT) hT', fun heq => h.right (heq ▸ hT) hT'⟩

theorem Twins.lt (h : Twins D Z T w w') (hT : T j k) : j < w.jobs.length ∧ k < w'.jobs.length := by
  obtain ⟨job, job', hj, hk, -⟩ := h.jobs hT
  exact ⟨(List.getElem?_eq_some_iff.1 hj).1, (List.getElem?_eq_some_iff.1 hk).1⟩

/-- Where a job and its twin stand. -/
theorem Twins.position (h : Twins D Z T w w') (hT : T j k) :
    (w'.position k).plain = (w.position j).plain := by
  obtain ⟨job, job', hj, hk, heq, -⟩ := h.jobs hT
  rw [World.position, World.position, hj, hk]
  exact (Job.plain_eq heq).2.1

/-- The jobs of two lists correspond, so a job is in one when its twin is in the other. -/
theorem Twins.mem_iff (h : Twins D Z T w w') {l l' : List JobId} (hl : List.Forall₂ T l l')
    (hT : T j k) : j ∈ l ↔ k ∈ l' := by
  induction hl with
  | nil => simp
  | cons hab _ ih => rw [List.mem_cons, List.mem_cons, ih, h.eq_iff hT hab]

/-- Without a job, and without its twin. -/
theorem Twins.filter_ne (h : Twins D Z T w w') {l l' : List JobId} (hl : List.Forall₂ T l l')
    (hT : T j k) : List.Forall₂ T (l.filter (· != j)) (l'.filter (· != k)) := by
  refine List.rel_filter (fun a b hab => ?_) hl
  simpa using not_congr (h.eq_iff hab hT)

theorem nodup_wake {w : World} (h : w.ready.Nodup) (j : JobId) : (w.wake j).ready.Nodup := by
  unfold wake
  split
  · exact h
  · next hj =>
    refine List.nodup_append.2 ⟨h, List.nodup_singleton j, fun i hi i' hi' => ?_⟩
    rw [List.mem_singleton.1 hi']
    exact fun heq => hj (heq ▸ hi)

theorem mem_wakeAll {w : World} {js : List JobId} :
    j ∈ (w.wakeAll js).ready ↔ j ∈ w.ready ∨ j ∈ js := by
  induction js generalizing w with
  | nil => simp [wakeAll]
  | cons i js ih =>
    have hwake : j ∈ (w.wake i).ready ↔ j ∈ w.ready ∨ j = i := by
      unfold wake
      split
      · next hi => exact ⟨.inl, fun h => h.elim id fun heq => heq ▸ hi⟩
      · simp
    change j ∈ ((w.wake i).wakeAll js).ready ↔ _
    rw [ih, hwake, List.mem_cons, or_assoc]

theorem nodup_wakeAll {w : World} (h : w.ready.Nodup) (js : List JobId) :
    (w.wakeAll js).ready.Nodup := by
  induction js generalizing w with
  | nil => exact h
  | cons i js ih => exact ih (nodup_wake h i)

/-! ## What is done to jobs -/

/-- Jobs that correspond are woken. -/
theorem Twins.wakeAll (h : Twins D Z T w w') (js js' : List JobId)
    (hiff : ∀ {j k}, T j k → (j ∈ js ↔ k ∈ js')) (hjs : ∀ j ∈ js, j < w.jobs.length)
    (hjs' : ∀ k ∈ js', k < w'.jobs.length) : Twins D Z T (w.wakeAll js) (w'.wakeAll js') := by
  obtain ⟨ready, heq⟩ := wakeAll_eq js w
  obtain ⟨ready', heq'⟩ := wakeAll_eq js' w'
  have hmem {i : JobId} : i ∈ ready ↔ i ∈ w.ready ∨ i ∈ js := by rw [← mem_wakeAll, heq]
  have hmem' {i : JobId} : i ∈ ready' ↔ i ∈ w'.ready ∨ i ∈ js' := by rw [← mem_wakeAll, heq']
  have hnodup : ready.Nodup := by simpa [heq] using nodup_wakeAll h.nodup js
  have hnodup' : ready'.Nodup := by simpa [heq'] using nodup_wakeAll h.nodup' js'
  have hready {j k : JobId} (hT : T j k) : j ∈ ready ↔ k ∈ ready' := by
    rw [hmem, hmem', h.ready hT, hiff hT]
  have hbound : ∀ j ∈ ready, j < w.jobs.length := fun j hj => (hmem.1 hj).elim (h.bound j) (hjs j)
  have hbound' : ∀ j ∈ ready', j < w'.jobs.length :=
    fun j hj => (hmem'.1 hj).elim (h.bound' j) (hjs' j)
  rw [heq, heq']
  exact { h with ready := hready, nodup := hnodup, nodup' := hnodup', bound := hbound,
                 bound' := hbound' }

theorem Twins.wake (h : Twins D Z T w w') (hT : T j k) : Twins D Z T (w.wake j) (w'.wake k) := by
  refine h.wakeAll [j] [k] (fun hT' => ?_) (by simpa using (h.lt hT).1)
    (by simpa using (h.lt hT).2)
  rw [List.mem_singleton, List.mem_singleton]
  exact h.eq_iff hT' hT

/-- A job and its twin are changed alike. -/
theorem Twins.modifyJob (h : Twins D Z T w w') (hT : T j k) {f f' : Job → Job}
    (hf : ∀ {job job' : Job}, job'.plain = job.plain → (f' job').plain = (f job).plain)
    (herrand : ∀ job, (f job).errand = job.errand) :
    Twins D Z T (w.modifyJob j f) (w'.modifyJob k f') := by
  have hlength : (w.modifyJob j f).jobs.length = w.jobs.length := List.length_modify ..
  have hlength' : (w'.modifyJob k f').jobs.length = w'.jobs.length := List.length_modify ..
  have hget {w : World} {j a : JobId} {f : Job → Job} : (w.modifyJob j f).jobs[a]? =
      (w.jobs[a]?).map fun job => if j = a then f job else job := List.getElem?_modify ..
  refine { h with jobs := ?_, rest := ?_, bound := hlength ▸ h.bound, bound' := hlength' ▸ h.bound',
                  idle := hlength ▸ h.idle, idle' := hlength' ▸ h.idle',
                  sitting := hlength ▸ h.sitting, sitting' := hlength' ▸ h.sitting' }
  · intro a b hab
    obtain ⟨job, job', ha, hb, heq, hfree⟩ := h.jobs hab
    refine ⟨_, _, by rw [hget, ha]; rfl, by rw [hget, hb]; rfl, ?_⟩
    by_cases ha : j = a
    · dsimp only
      rw [if_pos ha, if_pos ((h.eq_iff hT hab).1 ha), Errand.Spares, herrand]
      exact ⟨hf heq, hfree⟩
    · dsimp only
      rw [if_neg ha, if_neg fun hb => ha ((h.eq_iff hT hab).2 hb)]
      exact ⟨heq, hfree⟩
  · intro a job ha hawaits
    rw [hget] at ha
    obtain ⟨job₀, ha₀, rfl⟩ := Option.map_eq_some_iff.1 ha
    refine h.rest ha₀ ?_
    split at hawaits
    · rwa [herrand] at hawaits
    · exact hawaits

theorem Twins.setPosition (h : Twins D Z T w w') (hT : T j k) {p p' : Position}
    (hp : p'.plain = p.plain) : Twins D Z T (w.setPosition j p) (w'.setPosition k p') := by
  refine h.modifyJob hT (fun heq => ?_) fun _ => rfl
  obtain ⟨herrand, -, hgiven⟩ := Job.plain_eq heq
  rw [Job.plain, Job.plain, herrand, hgiven, hp]

/-- A job and its twin are given up. -/
theorem Twins.giveUp (h : Twins D Z T w w') (hT : T j k) :
    Twins D Z T (w.modifyJob j fun job => { job with isAbandoned := true })
      (w'.modifyJob k fun job => { job with isAbandoned := true }) := by
  refine h.modifyJob hT (fun heq => ?_) fun _ => rfl
  obtain ⟨herrand, hposition, -⟩ := Job.plain_eq heq
  rw [Job.plain, Job.plain, herrand, hposition]

/-- A correspondence with one more pair. -/
def also (T : JobId → JobId → Prop) (n n' : JobId) : JobId → JobId → Prop :=
  fun j k => T j k ∨ j = n ∧ k = n'

theorem le_also (T : JobId → JobId → Prop) (n n' : JobId) : T ≤ also T n n' :=
  fun _ _ h => Or.inl h

/-- The same job is begun in both worlds. -/
theorem Twins.spawn (h : Twins D Z T w w') {errand : Errand} (hfree : errand.Spares D Z) :
    Twins D Z (also T w.jobs.length w'.jobs.length) (w.spawn errand).1 (w'.spawn errand).1 := by
  have hmono {l l' : List JobId} (hl : List.Forall₂ T l l') :
      List.Forall₂ (also T w.jobs.length w'.jobs.length) l l' :=
    hl.imp fun _ _ hab => .inl hab
  have hold {a b : JobId} (hab : also T w.jobs.length w'.jobs.length a b) :
      T a b ∨ a = w.jobs.length ∧ b = w'.jobs.length := hab
  refine
    { order := ?_, jobs := ?_, rest := ?_, named := ?_, ready := ?_,
      nodup := nodup_ready_spawn h.bound h.nodup errand,
      nodup' := nodup_ready_spawn h.bound' h.nodup' errand,
      bound := ready_lt_spawn h.bound errand, bound' := ready_lt_spawn h.bound' errand,
      current := ?_, idle := fun ha => lt_length_jobs_spawn errand (h.idle ha),
      idle' := fun ha => lt_length_jobs_spawn errand (h.idle' ha),
      timers := ?_, flags := h.flags, waiters := fun x hx => hmono (h.waiters x hx),
      unheard := h.unheard, holder := ?_, line := hmono h.line, seats := ?_,
      sitting := fun hs => lt_length_jobs_spawn errand (h.sitting hs),
      sitting' := fun hs => lt_length_jobs_spawn errand (h.sitting' hs), orders := h.orders }
  · intro a b a' b' hab hab'
    rcases hold hab with hab | ⟨rfl, rfl⟩ <;> rcases hold hab' with hab' | ⟨rfl, rfl⟩
    · exact h.order hab hab'
    · exact iff_of_true (h.lt hab).1 (h.lt hab).2
    · exact iff_of_false (Nat.lt_asymm (h.lt hab').1) (Nat.lt_asymm (h.lt hab').2)
    · exact iff_of_false (Nat.lt_irrefl _) (Nat.lt_irrefl _)
  · intro a b hab
    rcases hold hab with hab | ⟨rfl, rfl⟩
    · obtain ⟨job, job', ha, hb, hrest⟩ := h.jobs hab
      refine ⟨job, job', ?_, ?_, hrest⟩
      · exact (List.getElem?_append_left (h.lt hab).1).trans ha
      · exact (List.getElem?_append_left (h.lt hab).2).trans hb
    · exact ⟨{ errand }, { errand }, by simp [World.spawn], by simp [World.spawn], rfl, hfree⟩
  · intro a job ha hawaits
    rcases getElem?_jobs_spawn ha with ha | ⟨rfl, -⟩
    · obtain ⟨b, hb⟩ := h.rest ha hawaits
      exact ⟨b, .inl hb⟩
    · exact ⟨_, .inr ⟨rfl, rfl⟩⟩
  · exact h.named.imp fun _ _ hab => ⟨hab.1, .inl hab.2⟩
  · intro a b hab
    rcases hold hab with hab | ⟨rfl, rfl⟩
    · rw [mem_ready_spawn_of_lt errand (h.lt hab).1, mem_ready_spawn_of_lt errand (h.lt hab).2]
      exact h.ready hab
    · exact iff_of_true (mem_ready_spawn.2 (.inr rfl)) (mem_ready_spawn.2 (.inr rfl))
  · intro a b hab
    change w.current = some a ↔ w'.current = some b
    rcases hold hab with hab | ⟨rfl, rfl⟩
    · exact h.current hab
    · exact ⟨fun hc => absurd (h.idle hc) (Nat.lt_irrefl _),
        fun hc => absurd (h.idle' hc) (Nat.lt_irrefl _)⟩
  · exact h.timers.imp fun _ _ hab => ⟨hab.1, .inl hab.2⟩
  · change Option.Rel _ w.manager.guard.holder w'.manager.guard.holder
    have hholder := h.holder
    generalize w.manager.guard.holder = x at hholder
    generalize w'.manager.guard.holder = y at hholder
    cases hholder with
    | none => exact .none
    | some hab => exact .some (.inl hab)
  · intro a b hab e
    change w.Sits a e ↔ w'.Sits b e
    rcases hold hab with hab | ⟨rfl, rfl⟩
    · exact h.seats hab e
    · exact ⟨fun hs => absurd (h.sitting hs) (Nat.lt_irrefl _),
        fun hs => absurd (h.sitting' hs) (Nat.lt_irrefl _)⟩

/-! ## Timers, tokens and the right to start -/

theorem Twins.setTimer (h : Twins D Z T w w') (hT : T j k) (deadline : Nat) :
    Twins D Z T (w.setTimer deadline j) (w'.setTimer deadline k) := by
  have hinsert {timers timers' : List Timer}
      (hts : List.Forall₂ (fun t t' => t.deadline = t'.deadline ∧ T t.job t'.job) timers timers') :
      List.Forall₂ (fun t t' => t.deadline = t'.deadline ∧ T t.job t'.job)
        (insertTimer ⟨deadline, j⟩ timers) (insertTimer ⟨deadline, k⟩ timers') := by
    induction hts with
    | nil => exact .cons ⟨rfl, hT⟩ .nil
    | @cons u u' timers timers' hu hts ih =>
      unfold insertTimer
      rw [hu.1]
      split
      · exact .cons hu ih
      · exact .cons ⟨rfl, hT⟩ (.cons hu hts)
  exact { h with timers := hinsert h.timers }

theorem Twins.clearTimer (h : Twins D Z T w w') (hT : T j k) :
    Twins D Z T (w.clearTimer j) (w'.clearTimer k) := by
  have htimers := List.rel_filter (p := fun t : Timer => t.job != j) (q := fun t => t.job != k)
    (fun t t' ht => by simpa using not_congr (h.eq_iff ht.2 hT)) h.timers
  exact { h with timers := htimers }

/-- A job has a timer when its twin has one. -/
theorem Twins.any_timer (h : Twins D Z T w w') (hT : T j k) :
    (w'.timers.any fun t => t.job == k) = w.timers.any fun t => t.job == j := by
  have hany {timers timers' : List Timer}
      (hts : List.Forall₂ (fun t t' => t.deadline = t'.deadline ∧ T t.job t'.job) timers timers') :
      (timers'.any fun t => t.job == k) = timers.any fun t => t.job == j := by
    induction hts with
    | nil => rfl
    | @cons t t' _ _ ht _ ih =>
      have hjob : (t'.job == k) = (t.job == j) := by
        rw [Bool.eq_iff_iff, beq_iff_eq, beq_iff_eq, h.eq_iff ht.2 hT]
      rw [List.any_cons, List.any_cons, ih, hjob]
  exact hany h.timers

/-- Tokens of one name are put back. -/
theorem Twins.setToken (h : Twins D Z T w w') {x : String} {t t' : Token}
    (hflag : x ∉ D → t'.isCancelled = t.isCancelled)
    (hwaiters : x ∉ D → List.Forall₂ T t.waiters t'.waiters)
    (hunheard : x ∈ D → t.waiters = [] ∧ t'.waiters = []) :
    Twins D Z T (w.setToken x t) (w'.setToken x t') := by
  have hflags : ∀ y ∉ D, ((w'.setToken x t').token y).isCancelled =
      ((w.setToken x t).token y).isCancelled := by
    intro y hy
    rw [token_setToken, token_setToken]
    split
    · next heq => exact hflag (heq ▸ hy)
    · exact h.flags y hy
  have hwaiting : ∀ y ∉ D, List.Forall₂ T ((w.setToken x t).token y).waiters
      ((w'.setToken x t').token y).waiters := by
    intro y hy
    rw [token_setToken, token_setToken]
    split
    · next heq => exact hwaiters (heq ▸ hy)
    · exact h.waiters y hy
  have hnobody : ∀ y ∈ D, ((w.setToken x t).token y).waiters = [] ∧
      ((w'.setToken x t').token y).waiters = [] := by
    intro y hy
    rw [token_setToken, token_setToken]
    split
    · next heq => exact hunheard (heq ▸ hy)
    · exact h.unheard y hy
  exact { h with flags := hflags, waiters := hwaiting, unheard := hnobody }

theorem Twins.listen (h : Twins D Z T w w') (hT : T j k) {token : Option String}
    (hkept : IsKept D token) : Twins D Z T (w.listen token j) (w'.listen token k) := by
  cases token with
  | none => exact h
  | some x =>
    have hx : x ∉ D := hkept x rfl
    exact h.setToken (fun _ => h.flags x hx)
      (fun _ => List.rel_append (h.waiters x hx) (.cons hT .nil)) fun hD => absurd hD hx

theorem Twins.unlisten (h : Twins D Z T w w') (hT : T j k) {token : Option String}
    (hkept : IsKept D token) : Twins D Z T (w.unlisten token j) (w'.unlisten token k) := by
  cases token with
  | none => exact h
  | some x =>
    have hx : x ∉ D := hkept x rfl
    exact h.setToken (fun _ => h.flags x hx) (fun _ => h.filter_ne (h.waiters x hx) hT)
      fun hD => absurd hD hx

theorem Twins.isCancelled (h : Twins D Z T w w') {token : Option String}
    (hkept : IsKept D token) : w'.isCancelled token = w.isCancelled token := by
  cases token with
  | none => rfl
  | some x => exact h.flags x (hkept x rfl)

/-- Those who correspond are jobs of their worlds. -/
theorem Twins.lt_of_forall₂ (h : Twins D Z T w w') {l l' : List JobId} (hl : List.Forall₂ T l l') :
    (∀ j ∈ l, j < w.jobs.length) ∧ ∀ k ∈ l', k < w'.jobs.length := by
  induction hl with
  | nil => simp
  | cons hab _ ih =>
    simp only [List.mem_cons, forall_eq_or_imp]
    exact ⟨⟨(h.lt hab).1, ih.1⟩, (h.lt hab).2, ih.2⟩

/-- A token is cancelled in both worlds. -/
theorem Twins.cancel (h : Twins D Z T w w') {x : String} (hx : x ∉ D) :
    Twins D Z T (w.cancel x) (w'.cancel x) := by
  unfold World.cancel
  dsimp only
  rw [h.flags x hx]
  split
  · exact h
  · have hset : Twins D Z T (w.setToken x { isCancelled := true })
        (w'.setToken x { isCancelled := true }) :=
      h.setToken (fun _ => rfl) (fun _ => .nil) fun _ => ⟨rfl, rfl⟩
    have hlt := h.lt_of_forall₂ (h.waiters x hx)
    exact hset.wakeAll _ _ (fun hT => h.mem_iff (h.waiters x hx) hT) hlt.1 hlt.2

/-- A token to which nobody listens is cancelled: nothing changes but this token. -/
theorem cancel_of_nobody {x : String} (hnobody : (w.token x).waiters = []) :
    ∃ tokens, w.cancel x = { w with tokens } ∧
      (∀ y ≠ x, ({ w with tokens } : World).token y = w.token y) ∧
      (({ w with tokens } : World).token x).waiters = [] := by
  unfold World.cancel
  dsimp only
  split
  · exact ⟨w.tokens, rfl, fun _ _ => rfl, hnobody⟩
  · rw [hnobody]
    refine ⟨_, rfl, fun y hy => ?_, ?_⟩
    · exact (token_setToken w x y _).trans (if_neg hy)
    · exact congrArg Token.waiters ((token_setToken w x x _).trans (if_pos rfl))

/-- Tokens change that are left out. -/
theorem Twins.setTokens (h : Twins D Z T w w') {tokens tokens' : List (String × Token)}
    {x : String} (hx : x ∈ D) (hsame : ∀ y ≠ x, ({ w with tokens } : World).token y = w.token y)
    (hsame' : ∀ y ≠ x, ({ w' with tokens := tokens' } : World).token y = w'.token y)
    (hnobody : (({ w with tokens } : World).token x).waiters = [])
    (hnobody' : (({ w' with tokens := tokens' } : World).token x).waiters = []) :
    Twins D Z T { w with tokens } { w' with tokens := tokens' } := by
  have hne {y : String} (hy : y ∉ D) : y ≠ x := fun heq => hy (heq ▸ hx)
  refine { h with flags := fun y hy => ?_, waiters := fun y hy => ?_, unheard := fun y hy => ?_ }
  · rw [hsame y (hne hy), hsame' y (hne hy), h.flags y hy]
  · rw [hsame y (hne hy), hsame' y (hne hy)]
    exact h.waiters y hy
  · by_cases heq : y = x
    · rw [heq]
      exact ⟨hnobody, hnobody'⟩
    · rw [hsame y heq, hsame' y heq]
      exact h.unheard y hy

theorem Twins.setGuard (h : Twins D Z T w w') {g g' : StartGuard}
    (hholder : Option.Rel T g.holder g'.holder) (hline : List.Forall₂ T g.line g'.line) :
    Twins D Z T (w.setGuard g) (w'.setGuard g') := { h with holder := hholder, line := hline }

theorem Twins.releaseGuard (h : Twins D Z T w w') :
    Twins D Z T w.releaseGuard w'.releaseGuard := by
  have hline := h.line
  unfold World.releaseGuard
  revert hline
  generalize w.manager.guard.line = line
  generalize w'.manager.guard.line = line'
  intro hline
  cases hline with
  | nil => exact h.setGuard .none .nil
  | cons hab hline => exact (h.setGuard (.some hab) hline).wake hab

/-- A job has the right to start when its twin has it. -/
theorem Twins.holds_iff (h : Twins D Z T w w') (hT : T j k) :
    w.manager.guard.holder = some j ↔ w'.manager.guard.holder = some k := by
  have hholder := h.holder
  revert hholder
  generalize w.manager.guard.holder = holder
  generalize w'.manager.guard.holder = holder'
  intro hholder
  cases hholder with
  | none => simp
  | some hab => rw [Option.some.injEq, Option.some.injEq, h.eq_iff hab hT]

/-! ## Jobs that are left out -/

/-- A job that waits for a handle that is left out has no twin. -/
theorem Twins.not_of_awaits (h : Twins D Z T w w') {job : Job} (hj : w.jobs[j]? = some job)
    (hawaits : job.errand.awaits Z = true) (k : JobId) : ¬T j k := by
  intro hT
  obtain ⟨job₁, -, hj₁, -, -, -, hfree⟩ := h.jobs hT
  rw [hj] at hj₁
  rw [Option.some.inj hj₁, hfree] at hawaits
  exact absurd hawaits (by simp)

/-- A job that is left out moves. -/
theorem Twins.setPosition_left (h : Twins D Z T w w') (hj : ∀ k, ¬T j k) (p : Position) :
    Twins D Z T (w.setPosition j p) w' := by
  have hlength : (w.setPosition j p).jobs.length = w.jobs.length := List.length_modify ..
  refine { h with jobs := ?_, rest := ?_, bound := ?_, idle := ?_, sitting := ?_ }
  · intro a b hab
    obtain ⟨job, job', ha, hb, hrest⟩ := h.jobs hab
    refine ⟨job, job', ?_, hb, hrest⟩
    have hne : j ≠ a := fun heq => hj b (heq ▸ hab)
    rw [getElem?_setPosition, ha, Option.map_some, if_neg hne]
  · intro a job ha hawaits
    rw [getElem?_setPosition] at ha
    obtain ⟨job₀, ha₀, rfl⟩ := Option.map_eq_some_iff.1 ha
    refine h.rest ha₀ ?_
    split at hawaits <;> exact hawaits
  · exact hlength ▸ h.bound
  · exact hlength ▸ h.idle
  · exact hlength ▸ h.sitting

/-- A job of the second world moves that has no twin. -/
theorem Twins.setPosition_right (h : Twins D Z T w w') (hk : ∀ j, ¬T j k) (p : Position) :
    Twins D Z T w (w'.setPosition k p) := by
  have hlength : (w'.setPosition k p).jobs.length = w'.jobs.length := List.length_modify ..
  refine { h with jobs := ?_, bound' := hlength ▸ h.bound', idle' := hlength ▸ h.idle',
                  sitting' := hlength ▸ h.sitting' }
  intro a b hab
  obtain ⟨job, job', ha, hb, hrest⟩ := h.jobs hab
  have hne : k ≠ b := fun heq => hk a (heq ▸ hab)
  refine ⟨job, job', ha, ?_, hrest⟩
  rw [getElem?_setPosition, hb, Option.map_some, if_neg hne]

/-- A job is begun in the second world. -/
theorem Twins.spawn_right (h : Twins D Z T w w') (errand : Errand) :
    Twins D Z T w (w'.spawn errand).1 := by
  refine { h with jobs := ?_, ready := ?_, nodup' := nodup_ready_spawn h.bound' h.nodup' errand,
                  bound' := ready_lt_spawn h.bound' errand,
                  idle' := fun hk => lt_length_jobs_spawn errand (h.idle' hk),
                  sitting' := fun hs => lt_length_jobs_spawn errand (h.sitting' hs) }
  · intro a b hab
    obtain ⟨job, job', ha, hb, hrest⟩ := h.jobs hab
    exact ⟨job, job', ha, (List.getElem?_append_left (h.lt hab).2).trans hb, hrest⟩
  · intro a b hab
    rw [mem_ready_spawn_of_lt errand (h.lt hab).2]
    exact h.ready hab

/-- A job that is left out is begun. -/
theorem Twins.spawn_left (h : Twins D Z T w w') {errand : Errand}
    (hawaits : errand.awaits Z = true) : Twins D Z T (w.spawn errand).1 w' := by
  refine { h with jobs := ?_, rest := ?_, ready := ?_,
                  nodup := nodup_ready_spawn h.bound h.nodup errand,
                  bound := ready_lt_spawn h.bound errand,
                  idle := fun hj => lt_length_jobs_spawn errand (h.idle hj),
                  sitting := fun hs => lt_length_jobs_spawn errand (h.sitting hs) }
  · intro a b hab
    obtain ⟨job, job', ha, hrest⟩ := h.jobs hab
    exact ⟨job, job', (List.getElem?_append_left (h.lt hab).1).trans ha, hrest⟩
  · intro a job ha hfree
    rcases getElem?_jobs_spawn ha with ha | ⟨-, rfl⟩
    · exact h.rest ha hfree
    · exact absurd (hawaits.symm.trans hfree) (by simp)
  · intro a b hab
    rw [mem_ready_spawn_of_lt errand (h.lt hab).1]
    exact h.ready hab

/-! ## Entries and those who wait for them -/

theorem sits_modifyEntry (w : World) (e : EntryId) {f : Entry → Entry}
    (hf : ∀ entry, (f entry).room = entry.room) {e' : EntryId} :
    (w.modifyEntry e f).Sits j e' ↔ w.Sits j e' := by
  rw [Sits, roomOf_modifyEntry w e e' hf, Sits]

/-- A change of entries that leaves their tokens alone. -/
theorem tokens_modifyEntry {P : Option String → Prop} (h : ∀ entry ∈ w.entries, P entry.token)
    (e : EntryId) {f : Entry → Entry} (hf : ∀ entry, (f entry).token = entry.token) :
    ∀ entry ∈ (w.modifyEntry e f).entries, P entry.token := by
  intro entry hentry
  obtain ⟨i, hi⟩ := List.mem_iff_getElem?.1 hentry
  rw [World.modifyEntry, List.getElem?_modify] at hi
  obtain ⟨entry₀, hi₀, rfl⟩ := Option.map_eq_some_iff.1 hi
  have hkept := h entry₀ (List.mem_of_getElem? hi₀)
  by_cases hei : e = i
  · simpa [hei, hf] using hkept
  · simpa [hei] using hkept

/-- Entries are changed, but not who waits for them. -/
theorem Twins.modifyEntry (h : Twins D Z T w w') (e : EntryId) {f g : Entry → Entry}
    (hf : ∀ entry, (f entry).room = entry.room) (hg : ∀ entry, (g entry).room = entry.room)
    (htoken : ∀ entry, (f entry).token = entry.token) :
    Twins D Z T (w.modifyEntry e f) (w'.modifyEntry e g) := by
  refine { h with seats := ?_, sitting := ?_, sitting' := ?_, orders := ?_ }
  · intro a b hab e'
    rw [sits_modifyEntry w e hf, sits_modifyEntry w' e hg]
    exact h.seats hab e'
  · intro a e' hs
    exact h.sitting ((sits_modifyEntry w e hf).1 hs)
  · intro a e' hs
    exact h.sitting' ((sits_modifyEntry w' e hg).1 hs)
  · exact tokens_modifyEntry h.orders e htoken

/-- Entries of one world are changed, but not who waits for them. -/
theorem Twins.modifyEntry_left (h : Twins D Z T w w') (e : EntryId) {f : Entry → Entry}
    (hf : ∀ entry, (f entry).room = entry.room) (htoken : ∀ entry, (f entry).token = entry.token) :
    Twins D Z T (w.modifyEntry e f) w' := by
  have hboth := h.modifyEntry e (g := id) hf (fun _ => rfl) htoken
  rwa [World.modifyEntry, World.modifyEntry, List.modify_id] at hboth

theorem Twins.modifyEntry_right (h : Twins D Z T w w') (e : EntryId) {f : Entry → Entry}
    (hf : ∀ entry, (f entry).room = entry.room) : Twins D Z T w (w'.modifyEntry e f) := by
  have hboth := h.modifyEntry e (f := id) (g := f) (fun _ => rfl) hf fun _ => rfl
  rwa [World.modifyEntry, List.modify_id] at hboth

theorem Twins.append (h : Twins D Z T w w') (q : QueueId) (queue : Queue) (op : Operation)
    {token : Option String} (hkept : IsKept D token) :
    Twins D Z T (w.append q queue op token).1 (w'.append q queue op token).1 := by
  have hsits {w : World} {a : JobId} {e : EntryId} :
      (w.append q queue op token).1.Sits a e ↔ w.Sits a e := by
    rw [Sits, roomOf_append, Sits]
  refine { h with seats := ?_, sitting := ?_, sitting' := ?_, orders := ?_ }
  · intro a b hab e
    rw [hsits, hsits]
    exact h.seats hab e
  · intro a e hs
    exact h.sitting (hsits.1 hs)
  · intro a e hs
    exact h.sitting' (hsits.1 hs)
  · intro entry hentry
    rcases List.mem_append.1 hentry with hentry | hentry
    · exact h.orders entry hentry
    · rw [List.mem_singleton.1 hentry]
      exact hkept

/-- Who sits where after somebody took a seat. -/
theorem sits_takeSeat (w : World) {e : EntryId} (hsound : (w.roomOf e).IsSound)
    (he : (w.entryOf? e).isSome) (who : Waiter) (a : JobId) (e' : EntryId) :
    (w.takeSeat e who).1.Sits a e' ↔ w.Sits a e' ∨ e' = e ∧ who = .job a := by
  rw [Sits, (roomOf_takeSeat w e who e' he).2]
  by_cases heq : e' = e
  · rw [if_pos heq, heq]
    simp only [hsound.getElem?_enter, exists_or, exists_eq_left]
    rw [or_comm, eq_comm (a := Waiter.job a)]
    simp [Sits]
  · rw [if_neg heq]
    simp [heq, Sits]

/-- Who sits where after somebody gave up the only seat held. -/
theorem sits_leaveSeat (w : World) {e : EntryId} {seat : Nat} (who : Waiter)
    (he : (w.entryOf? e).isSome)
    (honly : ∀ s a, (w.roomOf e).seats[s]? = some (some (.job a)) → (s = seat ↔ who = .job a))
    (a : JobId) (e' : EntryId) :
    (w.leaveSeat e seat).Sits a e' ↔ w.Sits a e' ∧ ¬(e' = e ∧ who = .job a) := by
  rw [Sits, roomOf_leaveSeat w seat e' he]
  by_cases heq : e' = e
  · subst heq
    simp only [if_true, WaitingRoom.getElem?_leave, true_and]
    constructor
    · rintro ⟨s, hs, hseat⟩
      exact ⟨⟨s, hseat⟩, fun hwho => hs ((honly s a hseat).2 hwho)⟩
    · rintro ⟨⟨s, hseat⟩, hwho⟩
      exact ⟨s, fun hs => hwho ((honly s a hseat).1 hs), hseat⟩
  · rw [if_neg heq]
    simp [heq, Sits]

theorem tokens_takeSeat {P : Option String → Prop} (h : ∀ entry ∈ w.entries, P entry.token)
    (e : EntryId) (who : Waiter) : ∀ entry ∈ (w.takeSeat e who).1.entries, P entry.token := by
  unfold World.takeSeat
  split
  · exact h
  · exact tokens_modifyEntry h e fun _ => rfl

theorem takeSeat_eq (w : World) (e : EntryId) (who : Waiter) :
    ∃ entries, (w.takeSeat e who).1 = { w with entries } := by
  unfold World.takeSeat
  split
  · exact ⟨w.entries, rfl⟩
  · exact ⟨_, rfl⟩

/-- Seats change, and nothing else does. -/
theorem Twins.setEntries (h : Twins D Z T w w') (entries entries' : List Entry)
    (hseats : ∀ {j k}, T j k → ∀ e, ({ w with entries } : World).Sits j e ↔
      ({ w' with entries := entries' } : World).Sits k e)
    (hsitting : ∀ {j e}, ({ w with entries } : World).Sits j e → j < w.jobs.length)
    (hsitting' : ∀ {k e}, ({ w' with entries := entries' } : World).Sits k e → k < w'.jobs.length)
    (horders : ∀ entry ∈ entries, IsKept D entry.token) :
    Twins D Z T { w with entries } { w' with entries := entries' } :=
  { h with seats := hseats, sitting := hsitting, sitting' := hsitting', orders := horders }

/-- Somebody takes a seat in each world: twins do, or others than jobs. -/
theorem Twins.takeSeat (h : Twins D Z T w w') {who who' : Waiter}
    (hwho : ∀ {a b}, T a b → (who = .job a ↔ who' = .job b))
    (hlt : ∀ {a}, who = .job a → a < w.jobs.length)
    (hlt' : ∀ {b}, who' = .job b → b < w'.jobs.length) {e : EntryId}
    (hsame : (w'.entryOf? e).isSome = (w.entryOf? e).isSome) (hsound : (w.roomOf e).IsSound)
    (hsound' : (w'.roomOf e).IsSound) :
    Twins D Z T (w.takeSeat e who).1 (w'.takeSeat e who').1 := by
  by_cases he : (w.entryOf? e).isSome
  · have he' : (w'.entryOf? e).isSome := hsame.trans he
    have hsits := sits_takeSeat w hsound he who
    have hsits' := sits_takeSeat w' hsound' he' who'
    have horders := tokens_takeSeat h.orders e who
    obtain ⟨entries, heq⟩ := takeSeat_eq w e who
    obtain ⟨entries', heq'⟩ := takeSeat_eq w' e who'
    rw [heq] at hsits horders ⊢
    rw [heq'] at hsits' ⊢
    refine h.setEntries _ _ (fun hab e' => ?_) (fun hs => ?_) (fun hs => ?_) horders
    · rw [hsits, hsits', h.seats hab e', hwho hab]
    · rcases (hsits _ _).1 hs with hs | ⟨-, heq⟩
      · exact h.sitting hs
      · exact hlt heq
    · rcases (hsits' _ _).1 hs with hs | ⟨-, heq⟩
      · exact h.sitting' hs
      · exact hlt' heq
  · have hnone : w.entryOf? e = none := Option.not_isSome_iff_eq_none.1 he
    have hnone' : w'.entryOf? e = none := Option.not_isSome_iff_eq_none.1 (by rwa [hsame])
    rwa [takeSeat_of_none e _ hnone, takeSeat_of_none e _ hnone']

/-- Somebody who has no twin takes a seat. -/
theorem Twins.takeSeat_left (h : Twins D Z T w w') {who : Waiter}
    (hwho : ∀ {a b}, T a b → who ≠ .job a) (hlt : ∀ a, who = .job a → a < w.jobs.length)
    {e : EntryId} (hsound : (w.roomOf e).IsSound) : Twins D Z T (w.takeSeat e who).1 w' := by
  by_cases he : (w.entryOf? e).isSome
  · have hsits := sits_takeSeat w hsound he who
    have horders := tokens_takeSeat h.orders e who
    obtain ⟨entries, heq⟩ := takeSeat_eq w e who
    rw [heq] at hsits horders ⊢
    refine h.setEntries entries w'.entries (fun hab e' => ?_) (fun hs => ?_) h.sitting' horders
    · rw [hsits, h.seats hab e']
      exact or_iff_left fun hw => hwho hab hw.2
    · rcases (hsits _ _).1 hs with hs | ⟨-, heq⟩
      · exact h.sitting hs
      · exact hlt _ heq
  · rwa [takeSeat_of_none e _ (Option.not_isSome_iff_eq_none.1 he)]

/-- A job and its twin give up their seats. -/
theorem Twins.leaveSeat (h : Twins D Z T w w') (hT : T j k) {e : EntryId} {seat seat' : Nat}
    (he : (w.entryOf? e).isSome) (he' : (w'.entryOf? e).isSome)
    (honly : ∀ s a, (w.roomOf e).seats[s]? = some (some (.job a)) → (s = seat ↔ j = a))
    (honly' : ∀ s a, (w'.roomOf e).seats[s]? = some (some (.job a)) → (s = seat' ↔ k = a)) :
    Twins D Z T (w.leaveSeat e seat) (w'.leaveSeat e seat') := by
  have hsits := sits_leaveSeat w (.job j) he fun s a hs => by rw [honly s a hs, Waiter.job.injEq]
  have hsits' := sits_leaveSeat w' (.job k) he' fun s a hs => by
    rw [honly' s a hs, Waiter.job.injEq]
  refine h.setEntries _ _ (fun hab e' => ?_) (fun hs => ?_) (fun hs => ?_)
    (tokens_modifyEntry h.orders e fun _ => rfl)
  · refine (hsits _ e').trans (Iff.trans ?_ (hsits' _ e').symm)
    rw [h.seats hab e', Waiter.job.injEq, Waiter.job.injEq, h.eq_iff hT hab]
  · exact h.sitting ((hsits _ _).1 hs).1
  · exact h.sitting' ((hsits' _ _).1 hs).1

/-- Somebody outside all jobs gives up a seat. -/
theorem Twins.leaveSeat_left (h : Twins D Z T w w') {e : EntryId} {seat : Nat}
    (he : (w.entryOf? e).isSome) (hs : (w.roomOf e).seats[seat]? = some (some .outside)) :
    Twins D Z T (w.leaveSeat e seat) w' := by
  have honly (s : Nat) (a : JobId) (ha : (w.roomOf e).seats[s]? = some (some (.job a))) :
      s = seat ↔ Waiter.outside = .job a := by
    refine iff_of_false ?_ (by simp)
    rintro rfl
    exact absurd (hs.symm.trans ha) (by simp)
  have hsits := sits_leaveSeat w .outside he honly
  refine h.setEntries _ w'.entries (fun hab e' => ?_) (fun hs => ?_) h.sitting'
    (tokens_modifyEntry h.orders e fun _ => rfl)
  · refine (hsits _ e').trans (Iff.trans ?_ (h.seats hab e'))
    simp
  · exact h.sitting ((hsits _ _).1 hs).1

end Mirroring

end World
end FolderTasks.Dispatch
