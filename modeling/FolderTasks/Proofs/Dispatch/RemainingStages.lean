import FolderTasks.Proofs.Dispatch.JobWakeups
import FolderTasks.Proofs.Dispatch.QueueSlots
import Mathlib.Algebra.Ring.Nat
/-!
# How many stages of jobs are left

Every job has a number of stages before it, and every waiting entry has more of them before it than
its job has when it begins.  All this is the *labour* that is left.  It grows only with what is
asked for: a change that makes an entry, or begins a job with a name, is charged for what it adds,
and no other change adds anything.

A turn spends labour, or brings a job that waits for an outcome further, or does nothing at all.

## Main definitions

* `World.labour`, `World.demands`, `World.suspense`: the work left, what was asked for, and how far
  the jobs are that wait for outcomes.
* `World.Pays`: a change that spends labour, but for what it asks for.

## Main statements

* `World.Works.pays`: no change adds labour but what is asked for.
* `World.takeTurn_pays`: a turn spends labour, brings a waiting job further, or does nothing.
-/

namespace FolderTasks.Dispatch

namespace Errand

/-- The labour of a job at a position: the stages that are left, where the reset of a package has
more before it than all stages of the operation that it is to request. -/
def labour : Errand → Position → Nat
  | .operation _, p | .execution _ _ _, p => p.stagesLeft
  | .reset _ _ _, .fresh => 10
  | .reset _ _ _, .done => 0
  | .reset _ _ _, _ => 1
  | .watch _ _, _ | .reopen _ _, _ => 0

/-- What was asked for when a job began that the user gave a name; a reset is going to ask for an
operation besides. -/
def demand : Errand → Position → Nat
  | .execution _ _ _, _ => 1
  | .reset _ _ _, .fresh => 2
  | .reset _ _ _, _ => 1
  | .operation _, _ | .watch _ _, _ | .reopen _ _, _ => 0

/-- How far a job is that only waits for an outcome. -/
def suspense : Errand → Position → Nat
  | .watch _ _, .fresh | .reopen _ _, .fresh => 2
  | .watch _ _, .done | .reopen _ _, .done => 0
  | .watch _ _, _ | .reopen _ _, _ => 1
  | .operation _, _ | .execution _ _ _, _ | .reset _ _ _, _ => 0

end Errand

/-- One item of a list is changed, and what it counts for. -/
theorem sum_map_modify {α : Type} (g : α → Nat) (f : α → α) {l : List α} {i : Nat} {a : α}
    (h : l[i]? = some a) : ((l.modify i f).map g).sum + g a = (l.map g).sum + g (f a) := by
  induction l generalizing i with
  | nil => exact absurd h (by simp)
  | cons b l ih =>
    cases i with
    | zero =>
      obtain rfl : b = a := Option.some.inj h
      simp only [List.modify_zero_cons, List.map_cons, List.sum_cons]
      omega
    | succ i =>
      have hrest := ih (i := i) h
      simp only [List.modify_succ_cons, List.map_cons, List.sum_cons]
      omega

namespace World

/-- What the jobs count for, all together. -/
def total (w : World) (g : Errand → Position → Nat) : Nat :=
  (w.jobs.map fun job => g job.errand job.position).sum

/-- How many entries wait. -/
def waiting (w : World) : Nat := (w.slots.map fun s => s.2.length).sum

/-- **The labour that is left.** -/
def labour (w : World) : Nat := w.total Errand.labour + 6 * w.waiting

/-- **What was asked for**: operations, executions and resets. -/
def demands (w : World) : Nat := w.entries.length + w.total Errand.demand

/-- How far the jobs are that only wait for outcomes. -/
def suspense (w : World) : Nat := w.total Errand.suspense

/-- **A change spends labour**, at least so much of it, but for what it asks for. -/
def Pays (n : Nat) (w w' : World) : Prop :=
  w'.labour + 8 * w.demands + n ≤ w.labour + 8 * w'.demands

section Labour

variable {w w' w'' : World} {j : JobId} {errand : Errand} {p p' : Position} {n : Nat}

/-! ## Small pieces -/

theorem Pays.refl (w : World) : Pays 0 w w := Nat.le_refl _

theorem Pays.trans {m : Nat} (h : Pays m w w') (h' : Pays n w' w'') : Pays (m + n) w w'' := by
  unfold Pays at *
  omega

theorem Pays.weaken {m : Nat} (h : Pays m w w') (hn : n ≤ m) : Pays n w w' := by
  unfold Pays at *
  omega

theorem total_of_jobs (g : Errand → Position → Nat) (h : w'.jobs = w.jobs) :
    w'.total g = w.total g := by
  rw [total, total, h]

theorem pays_of_eq (hjobs : w'.jobs = w.jobs) (hslots : w'.slots = w.slots)
    (hentries : w'.entries.length = w.entries.length) : Pays 0 w w' := by
  unfold Pays labour demands waiting
  rw [total_of_jobs _ hjobs, total_of_jobs _ hjobs, hslots, hentries]
  omega

/-- A change of nothing that the ledger tells of queues and entries. -/
theorem pays_of_ledger (hjobs : w'.jobs = w.jobs) (hslots : w'.slots = w.slots)
    (howners : w'.entries.map Entry.queue = w.entries.map Entry.queue) : Pays 0 w w' := by
  refine pays_of_eq hjobs hslots ?_
  have hlength := congrArg List.length howners
  rwa [List.length_map, List.length_map] at hlength

theorem total_setPosition (g : Errand → Position → Nat) (hat : w.At j errand p) (p' : Position) :
    (w.setPosition j p').total g + g errand p = w.total g + g errand p' := by
  obtain ⟨given, hj⟩ := hat
  exact sum_map_modify (fun job : Job => g job.errand job.position) _ hj

/-- A job moves. -/
theorem At.pays (hat : w.At j errand p) (h : errand.labour p' + 8 * errand.demand p + n ≤
    errand.labour p + 8 * errand.demand p') : Pays n w (w.setPosition j p') := by
  have hlabour := total_setPosition Errand.labour hat p'
  have hdemand := total_setPosition Errand.demand hat p'
  have hentries : (w.setPosition j p').entries.length = w.entries.length := rfl
  have hwaiting : (w.setPosition j p').waiting = w.waiting := rfl
  unfold Pays labour demands
  omega

theorem total_spawn (g : Errand → Position → Nat) (w : World) (errand : Errand) :
    (w.spawn errand).1.total g = w.total g + g errand .fresh := by
  simp [total, spawn]

/-- A job begins. -/
theorem pays_spawn (w : World) (h : errand.labour .fresh ≤ 8 * errand.demand .fresh) :
    Pays 0 w (w.spawn errand).1 := by
  have hlabour := total_spawn Errand.labour w errand
  have hdemand := total_spawn Errand.demand w errand
  have hentries : (w.spawn errand).1.entries.length = w.entries.length := rfl
  have hwaiting : (w.spawn errand).1.waiting = w.waiting := rfl
  unfold Pays labour demands
  omega

/-- A waiting entry has more before it than its job. -/
theorem pays_dispatch (w : World) (q : QueueId) : Pays 0 w (w.dispatch q) := by
  rcases dispatch_eq w q with heq | ⟨queue, e, rest, hq, hactive, hpending, heq⟩
  · rw [heq]
    exact .refl w
  · have hslot : w.slots[q]? = some (none, e :: rest) := by
      rw [slots, List.getElem?_map, hq, Option.map_some, Queue.slot, hactive, hpending]
    have hslots : (w.dispatch q).slots = w.slots.modify q fun _ => (some e, rest) := by
      rw [heq]
      exact slots_modifyQueue w q fun _ => rfl
    have hwaiting : (w.dispatch q).waiting + (rest.length + 1) = w.waiting + rest.length := by
      rw [waiting, hslots]
      exact sum_map_modify (fun s : Option EntryId × List EntryId => s.2.length) _ hslot
    have hjobs (g : Errand → Position → Nat) :
        (w.dispatch q).total g = w.total g + g (.operation e) .fresh := by
      rw [heq]
      simp [total]
    have hlabour := hjobs Errand.labour
    have hdemand := hjobs Errand.demand
    rw [show Errand.labour (.operation e) .fresh = 5 from rfl] at hlabour
    rw [show Errand.demand (.operation e) .fresh = 0 from rfl] at hdemand
    have hentries : (w.dispatch q).entries.length = w.entries.length := by rw [dispatch_entries]
    unfold Pays labour demands
    omega

theorem pays_request (w : World) (q : QueueId) (op : Operation) (token : Option String) :
    Pays 0 w (w.request q op token).1 := by
  rcases request_eq w q op token with heq | ⟨queue, e, -, -, heq⟩ | ⟨queue, hq, -, heq⟩
  · rw [heq]
    exact .refl w
  · rw [heq]
    exact pays_of_eq rfl rfl rfl
  · rw [heq]
    refine Pays.trans (m := 0) (n := 0) ?_ (pays_dispatch _ q)
    have hslot : w.slots[q]? = some queue.slot := by
      rw [slots, List.getElem?_map, hq, Option.map_some]
    have hslots : (w.append q queue op token).1.slots =
        w.slots.modify q fun s => (s.1, s.2 ++ [w.entries.length]) :=
      slots_modifyQueue w q fun _ => rfl
    have hwaiting : (w.append q queue op token).1.waiting + queue.slot.2.length =
        w.waiting + (queue.slot.2 ++ [w.entries.length]).length := by
      rw [waiting, hslots]
      exact sum_map_modify (fun s : Option EntryId × List EntryId => s.2.length) _ hslot
    have hjobs (g : Errand → Position → Nat) :
        (w.append q queue op token).1.total g = w.total g := total_of_jobs g rfl
    have hlabour := hjobs Errand.labour
    have hdemand := hjobs Errand.demand
    have hentries : (w.append q queue op token).1.entries.length = w.entries.length + 1 :=
      List.length_append
    rw [List.length_append, List.length_singleton] at hwaiting
    unfold Pays labour demands
    omega

theorem pays_deliver (w : World) (e : EntryId) (o : Outcome) : Pays 0 w (w.deliver e o) := by
  rcases deliver_eq w e o with heq | ⟨ready, heq⟩
  · rw [heq]
    exact .refl w
  · rw [heq]
    exact pays_of_eq rfl rfl (List.length_modify ..)

theorem pays_resolve (w : World) (e : EntryId) (o : Outcome) : Pays 0 w (w.resolve e o) := by
  unfold resolve
  split
  · exact .refl w
  · next entry he =>
    refine Pays.trans (m := 0) (n := 0) ?_ (pays_deliver _ e o)
    refine Pays.trans (m := 0) (n := 0) ?_ (pays_dispatch _ entry.queue)
    -- An entry that is active does not wait, so nothing is counted for the slot that gets free.
    have hwaiting : ((w.modifyQueue entry.queue fun queue => { queue with active := none }).note
        (.vacated e)).waiting = w.waiting := by
      have hslots := slots_modifyQueue w entry.queue
        (f := fun queue => { queue with active := none }) (k := fun s => (none, s.2)) fun _ => rfl
      have hlengths := map_modify (g := fun s : Option EntryId × List EntryId => s.2.length)
        (k := id) (f := fun s => (none, s.2)) (fun _ => rfl) w.slots entry.queue
      rw [List.modify_id] at hlengths
      change (((w.modifyQueue entry.queue _).slots).map _).sum = _
      rw [hslots, hlengths]
      rfl
    unfold Pays labour demands
    rw [hwaiting]
    exact Nat.le_refl _

theorem pays_takeSeat (w : World) (e : EntryId) (who : Waiter) :
    Pays 0 w (w.takeSeat e who).1 := by
  unfold takeSeat
  split
  · exact .refl w
  · exact pays_of_eq rfl rfl (List.length_modify ..)

theorem pays_receive? {e : EntryId} {o : Outcome} (hr : w.receive? e = some (w', o)) :
    Pays 0 w w' := by
  unfold receive? at hr
  split at hr
  · obtain ⟨rfl, -⟩ := Prod.mk.inj (Option.some.inj hr)
    exact pays_of_eq rfl rfl (List.length_modify ..)
  · exact absurd hr (by simp)

theorem pays_withhold (w : World) (q : QueueId) (value : Bool) : Pays 0 w (w.withhold q value) :=
  pays_of_eq rfl (slots_withhold w q value) rfl

theorem pays_note (w : World) (x : Happening) : Pays 0 w (w.note x) := pays_of_eq rfl rfl rfl

theorem pays_concludeReset (w : World) (name : String) (folder : Path) (q : QueueId) (e : EntryId)
    (o : Outcome) : Pays 0 w (w.concludeReset name folder q e o) :=
  pays_of_eq rfl (slots_withhold (w.note (.packageReset folder o)) q false) rfl

/-! ## Change by change -/

theorem Deed.pays (hd : Deed w w') : Pays 0 w w' := by
  cases hd with
  | scripted | named | observed | answered => exact pays_of_eq rfl rfl rfl
  | queueMade name isRecorded =>
    have hwaiting : (w.makeQueue name isRecorded).1.waiting = w.waiting := by
      simp [waiting, slots, makeQueue, Queue.slot]
    unfold Pays labour demands
    rw [hwaiting]
    exact Nat.le_refl _
  | requested q op token => exact pays_request w q op token
  | cancelled name =>
    obtain ⟨tokens, ready, heq⟩ := cancel_eq w name
    rw [heq]
    exact pays_of_eq rfl rfl rfl
  | withheld q value => exact pays_withhold w q value
  | watched handle e => exact pays_spawn w (Nat.zero_le _)
  | begun name errand hnamed =>
    refine pays_spawn w ?_
    cases errand with
    | execution | reset => simp [Errand.labour, Errand.demand, Position.stagesLeft]
    | operation | watch | reopen => exact absurd hnamed (by simp [Errand.isNamed])
  | disposed =>
    obtain ⟨history, manager, heq, -⟩ := disposeManager_eq w
    rw [heq]
    exact pays_of_eq rfl rfl rfl
  | abandoned name j =>
    rcases abandonJob_eq w j with heq | ⟨ready, heq⟩
    · rw [heq]
      exact .refl w
    · have hjobs (g : Errand → Position → Nat) : (w.abandonJob j).1.total g = w.total g := by
        have hsame := map_modify (g := fun job : Job => g job.errand job.position) (k := id)
          (f := fun job => { job with isAbandoned := true }) (fun _ => rfl) w.jobs j
        rw [List.modify_id] at hsame
        rw [heq]
        exact congrArg List.sum hsame
      have hwaiting : (w.abandonJob j).1.waiting = w.waiting := by
        rw [heq]
        rfl
      have hentries : (w.abandonJob j).1.entries.length = w.entries.length := by rw [heq]
      unfold Pays labour demands
      rw [hjobs, hjobs, hwaiting, hentries]
      omega

theorem Deeds.pays (hd : Deeds w w') : Pays 0 w w' := by
  induction hd with
  | refl => exact .refl w
  | tail _ hd ih => exact ih.trans hd.pays

/-- The job of a call comes further. -/
theorem CallAt.pays {call : Call} (h : w.CallAt call p) (hlt : p'.stagesLeft < p.stagesLeft)
    (hjobs : w'.jobs = (w.setPosition call.job p').jobs) (hledger : w'.ledger = w.ledger) :
    Pays 1 w w' := by
  obtain ⟨errand, hat, hcall⟩ := h
  have hmoved : Pays 1 w (w.setPosition call.job p') := by
    refine hat.pays ?_
    cases errand with
    | operation | execution =>
      simp only [Errand.labour, Errand.demand]
      omega
    | reset | watch | reopen => exact absurd hcall (by simp [callOf?])
  exact hmoved.trans (n := 0) (pays_of_ledger (w := w.setPosition call.job p') hjobs
    (congrArg Ledger.slots hledger) (congrArg Ledger.owners hledger))

/-- The command of a call is over. -/
theorem CallAt.pays_telling {call : Call} (h : w.CallAt call p) (hp : 1 < p.stagesLeft)
    (hjobs : w'.jobs = (w.setPosition call.job .telling).jobs) (hledger : w'.ledger = w.ledger) :
    Pays 1 w w' :=
  h.pays (show Position.telling.stagesLeft < p.stagesLeft from hp) hjobs hledger

/-- **A stage of an execution spends labour**, if it moves a job at all. -/
theorem Stride.pays (hs : Stride w w') :
    Pays 1 w w' ∨ Pays 0 w w' ∧ w'.jobs = w.jobs := by
  have hledger := hs.ledger
  have hstays (hjobs : w'.jobs = w.jobs) : Pays 1 w w' ∨ Pays 0 w w' ∧ w'.jobs = w.jobs := by
    exact .inr ⟨pays_of_ledger hjobs (congrArg Ledger.slots hledger)
      (congrArg Ledger.owners hledger), hjobs⟩
  cases hs with
  | rejected h => exact .inl (h.pays (by simp [Position.stagesLeft]) rfl hledger)
  | guardTaken h =>
    have hstages : (Position.inLine w.nextId).stagesLeft < Position.fresh.stagesLeft := by
      simp [Position.stagesLeft]
    exact .inl (h.pays hstages rfl hledger)
  | lineJoined h => exact .inl (h.pays (by simp [Position.stagesLeft]) h.joins.jobs hledger)
  | turnedAway h => exact .inl (h.pays_telling (by simp [Position.stagesLeft]) rfl hledger)
  | unlistened j token =>
    obtain ⟨tokens, heq⟩ := unlisten_eq w token j
    exact hstays (by rw [heq])
  | timerCleared | startDelayed => exact hstays rfl
  | lineLeft h => exact .inl (h.pays_telling (by simp [Position.stagesLeft]) rfl hledger)
  | guardReturned h => exact .inl (h.pays (by simp [Position.stagesLeft]) h.returns.jobs hledger)
  | @startAsked call id h =>
    have hstages : (Position.starting id).stagesLeft < (Position.inLine id).stagesLeft := by
      simp [Position.stagesLeft]
    exact .inl (h.pays hstages rfl hledger)
  | refused h => exact .inl (h.pays (by simp [Position.stagesLeft]) (h.refused _).jobs hledger)
  | started h => exact .inl (h.pays (by simp [Position.stagesLeft]) (h.starts _ _).jobs hledger)
  | forsaken h => exact .inl (h.pays_telling (by simp [Position.stagesLeft]) rfl hledger)
  | @endAwaited call id execution =>
    obtain ⟨tokens, heq⟩ := listen_eq (w.setTimer execution.deadline call.job) call.token call.job
    exact hstays (by rw [heq]; rfl)
  | completed h => exact .inl (h.pays_telling (by simp [Position.stagesLeft]) rfl hledger)
  | terminated h => exact .inl (h.pays_telling (by simp [Position.stagesLeft]) rfl hledger)

/-- All labour of a job is spent when it is over. -/
theorem At.pays_endJob (hat : w.At j errand p) (hp : 0 < errand.labour p) :
    Pays 1 w (w.endJob j) := by
  refine hat.pays ?_
  cases errand with
  | operation | execution =>
    simp only [Errand.labour, Errand.demand, Position.stagesLeft] at hp ⊢
    omega
  | reset =>
    cases p <;> simp_all [Errand.labour, Errand.demand]
  | watch | reopen => exact absurd hp (by simp [Errand.labour])

theorem labour_pos (hp : p ≠ .done) (herrand : errand.isCall ∨ errand.isNamed) :
    0 < errand.labour p := by
  cases errand <;> cases p <;>
    simp_all [Errand.labour, Position.stagesLeft, Errand.isCall, Errand.isNamed]

theorem pays_dropExecution (w : World) (call : Call) : Pays 0 w (w.dropExecution call) := by
  obtain ⟨tokens, timers, ready, g, heq⟩ := dropExecution_eq w call
  rw [heq]
  exact pays_of_eq rfl rfl rfl

theorem pays_discardReset (w : World) (e : EntryId) (seat : Nat) :
    Pays 0 w (w.discardReset e seat) := by
  unfold discardReset
  split
  · exact .refl w
  · next entry he =>
    have hleft : Pays 0 w (w.leaveSeat e seat) := pays_of_eq rfl rfl (List.length_modify ..)
    dsimp only
    split
    · exact hleft.trans (n := 0) (pays_withhold (w.leaveSeat e seat) entry.queue false)
    · exact hleft.trans (n := 0) (pays_spawn _ (Nat.zero_le _))

/-- Who is dropped has labour left. -/
theorem pays_discard {job : Job} (hj : w.jobs[j]? = some job) (hp : job.position ≠ .done)
    (hnamed : job.errand.isNamed) : Pays 1 w (w.discard j job) := by
  have hat : w.At j job.errand job.position := ⟨job.isAbandoned, hj⟩
  have hpos := labour_pos hp (.inr hnamed)
  unfold discard
  dsimp only
  split
  · exact (pays_dropExecution w _).trans (m := 0) ((hat.dropExecution _).pays_endJob hpos)
  · next name folder token e seat herrand hposition =>
    exact (pays_discardReset w e seat).trans (m := 0)
      (((mild_discardReset w e seat).stays hat).pays_endJob hpos)
  · exact hat.pays_endJob hpos

/-- A reset that asks spends labour, whatever comes of its request. -/
theorem pays_askReset {name : String} {folder : Path} {token : Option String} (q : QueueId)
    (hat : w.At j (.reset name folder token) .fresh) : Pays 1 w (w.askReset j q folder token) := by
  unfold askReset
  dsimp only
  have hasked := (pays_withhold w q true).trans (n := 0) (pays_request (w.withhold q true) q
    (PackageAction.reset.operation w.toolchain folder) token)
  have hat₁ := At.of_jobs (request_jobs (w.withhold q true) q
    (PackageAction.reset.operation w.toolchain folder) token) hat
  generalize (w.withhold q true).request q _ token = r at hasked hat₁
  have hseated := (hasked.trans (n := 0) (pays_note r.1 (.resetAsked q r.2))).trans (n := 0)
    (pays_takeSeat _ r.2 (.job j))
  refine hseated.trans (n := 1) (At.pays (At.takeSeat (w := r.1.note _) hat₁ _ _) ?_)
  simp [Errand.labour, Errand.demand]

/-- A change moves no job that executes a command. -/
def KeepsCalls (w w' : World) : Prop :=
  ∀ {i : JobId} {errand : Errand} {p : Position}, errand.isCall → w.At i errand p → w'.At i errand p

/-- A job moves that executes nothing. -/
theorem Mild.keepsCalls {O : List Origin} {w₁ : World} (hm : Mild O w w₁) (hat : w.At j errand p)
    (herrand : errand.isCall = false) (p' : Position) : KeepsCalls w (w₁.setPosition j p') := by
  intro i errand' p₁ hcall hat₁
  refine (spares_setPosition w₁ j p').forth ?_ (hm.stays hat₁)
  rintro hij
  obtain rfl := Option.some.inj hij
  rw [(hat.unique hat₁).1, hcall] at herrand
  exact absurd herrand (by simp)

/-- **What ends a job or has it wait** spends labour, or does not concern executions. -/
theorem Closing.pays (hc : Closing w w') (ho : w.ledger.IsOrderly) :
    Pays 1 w w' ∨ Pays 0 w w' ∧ KeepsCalls w w' := by
  cases hc with
  | closed o hat hp =>
    exact .inl ((pays_resolve w _ o).trans (m := 0)
      (((mild_resolve w _ o).stays hat).pays_endJob (labour_pos hp (.inl rfl))))
  | executionEnded result hat =>
    exact .inl ((pays_note w _).trans (m := 0) (At.pays_endJob (w := w.note _) hat Nat.one_pos))
  | resetAsked q hat => exact .inl (pays_askReset q hat)
  | resetRefused hat =>
    exact .inl ((pays_note w _).trans (m := 0)
      (At.pays_endJob (w := w.note _) hat (Nat.succ_pos _)))
  | @seatTaken j errand p e hat hp he =>
    have herrand : errand.isCall = false := by rcases he with ⟨_, rfl⟩ | ⟨_, rfl⟩ <;> rfl
    refine .inr ⟨?_, (mild_takeSeat (O := []) w e _).keepsCalls hat herrand _⟩
    refine (pays_takeSeat w e (.job j)).trans (m := 0) (n := 0)
      (At.pays (hat.takeSeat e (.job j)) ?_)
    rcases he with ⟨_, rfl⟩ | ⟨_, rfl⟩ <;> exact Nat.le_refl _
  | @resetConcluded w₁ j name folder token e seat entry o hat he hr =>
    have hreopened : Pays 0 w (w₁.concludeReset name folder entry.queue e o) :=
      (pays_receive? hr).trans (m := 0) (pays_concludeReset w₁ name folder entry.queue e o)
    exact .inl (hreopened.trans (m := 0) (((mild_concludeReset hr name folder entry.queue).stays
      hat).pays_endJob Nat.one_pos))
  | resetForgotten hat => exact .inl (hat.pays_endJob Nat.one_pos)
  | @watchEnded w₁ j handle e p o hat hp hr =>
    have hended {v : World} (hmild : Mild [.closing] w v) (hpays : Pays 0 w₁ v) :
        Pays 0 w (v.endJob j) ∧ KeepsCalls w (v.endJob j) := by
      refine ⟨?_, hmild.keepsCalls hat rfl .done⟩
      exact ((pays_receive? hr).trans (m := 0) hpays).trans (m := 0)
        ((hmild.stays hat).pays (Nat.le_refl _))
    refine .inr (hended ?_ ?_)
    · split
      · exact (mild_receive? hr).note (by simp [Happening.origin])
      · exact mild_receive? hr
    · split <;> exact pays_of_eq rfl rfl rfl
  | @reopened w₁ j q e p o hat hp hr =>
    have hmild : Mild [.closing] w (w₁.reopen q e) :=
      (mild_receive? hr).trans (mild_reopen _ _ _ (by simp))
    refine .inr ⟨?_, hmild.keepsCalls hat rfl .done⟩
    exact ((pays_receive? hr).trans (m := 0) (pays_withhold w₁ q false)).trans (m := 0)
      ((hmild.stays hat).pays (Nat.le_refl _))
  | @discarded j job hj ha hp =>
    exact .inl (pays_discard hj hp (ho.abandoned job.runner
      (List.mem_map_of_mem (List.mem_of_getElem? hj)) ha))

/-- **What a turn is made of** spends labour, or moves no job that executes a command. -/
theorem Work.pays (hw : Work w w') (ho : w.ledger.IsOrderly) :
    Pays 1 w w' ∨ Pays 0 w w' ∧ KeepsCalls w w' := by
  cases hw with
  | turnTaken | turnSet => exact .inr ⟨pays_of_eq rfl rfl rfl, fun _ hat => hat⟩
  | answered site a =>
    have hdeeds : Deeds w _ := (perform_deeds w a).tail (.answered site (w.perform a).2)
    exact .inr ⟨hdeeds.pays, fun _ hat => Deeds.at hdeeds hat⟩
  | telling ht =>
    have hledger := ht.ledger
    have hjobs : w'.jobs = w.jobs := by cases ht <;> rfl
    exact .inr ⟨pays_of_ledger hjobs (congrArg Ledger.slots hledger)
      (congrArg Ledger.owners hledger), fun _ hat => ht.mild.stays hat⟩
  | stride hs =>
    refine hs.pays.imp_right ?_
    rintro ⟨hpays, hjobs⟩
    exact ⟨hpays, fun _ hat => hat.of_jobs (hjobs ▸ List.prefix_rfl)⟩
  | closing hc => exact hc.pays ho

/-- **No turn adds labour** but what is asked for in it; and it spends some if a job that executes a
command moves. -/
theorem Works.pays (hw : Arises w) (hworks : Works w w') :
    Pays 1 w w' ∨ Pays 0 w w' ∧ KeepsCalls w w' := by
  induction hworks with
  | refl => exact .inr ⟨.refl w, fun _ hat => hat⟩
  | tail hworks hwork ih =>
    rcases ih with hpays | ⟨hpays, hkeeps⟩
    · rcases hwork.pays (hw.changes (Works.changes hworks)).isOrderly with hpays' | ⟨hpays', -⟩
      · exact .inl ((hpays.trans hpays').weaken (by simp))
      · exact .inl (hpays.trans hpays')
    · rcases hwork.pays (hw.changes (Works.changes hworks)).isOrderly with
        hpays' | ⟨hpays', hkeeps'⟩
      · exact .inl (hpays.trans hpays')
      · exact .inr ⟨hpays.trans hpays', fun hcall hat => hkeeps' hcall (hkeeps hcall hat)⟩

theorem Works.pays_zero (hw : Arises w) (hworks : Works w w') : Pays 0 w w' := by
  rcases hworks.pays hw with hpays | ⟨hpays, -⟩
  · exact hpays.weaken (Nat.zero_le 1)
  · exact hpays

/-! ## Turns -/

/-- Who is dropped in its own turn has labour left. -/
theorem discardIfAbandoned_pays (ho : w.ledger.IsOrderly) (j : JobId) :
    w.discardIfAbandoned j = w ∨ Pays 1 w (w.discardIfAbandoned j) := by
  unfold discardIfAbandoned
  split
  · next job hj =>
    split
    · next hjob =>
      rw [Bool.and_eq_true, bne_iff_ne] at hjob
      exact .inr (pays_discard hj hjob.2 (ho.abandoned job.runner
        (List.mem_map_of_mem (List.mem_of_getElem? hj)) hjob.1))
    · exact .inl rfl
  · exact .inl rfl

theorem jobs_receive? {e : EntryId} {o : Outcome} (hr : w.receive? e = some (w', o)) :
    w'.jobs = w.jobs := by
  unfold receive? at hr
  split at hr
  · obtain ⟨rfl, -⟩ := Prod.mk.inj (Option.some.inj hr)
    rfl
  · exact absurd hr (by simp)

theorem jobs_takeSeat (w : World) (e : EntryId) (who : Waiter) :
    (w.takeSeat e who).1.jobs = w.jobs := by
  unfold takeSeat
  split <;> rfl

/-- A job that waits for an outcome comes further, or does nothing. -/
theorem turnAwait_pays {e : EntryId} {goOn : World → Outcome → World} (hat : w.At j errand p)
    (herrand : errand.isCall = false ∧ errand.isNamed = false)
    (hp : p = .fresh ∨ ∃ e seat, p = .awaiting e seat)
    (hgoOn : ∀ {w' : World} {o : Outcome}, w.receive? e = some (w', o) →
      (goOn w' o).jobs = w.jobs ∧ Pays 0 w (goOn w' o)) :
    w.turnAwait j e goOn = w ∨
      Pays 0 w (w.turnAwait j e goOn) ∧ (w.turnAwait j e goOn).suspense < w.suspense := by
  -- The job moves on, in a world in which the jobs are as they were.
  have hmoved {w₁ : World} (hjobs : w₁.jobs = w.jobs) (hpays : Pays 0 w w₁) {p' : Position}
      (hlt : errand.suspense p' < errand.suspense p) :
      Pays 0 w (w₁.setPosition j p') ∧ (w₁.setPosition j p').suspense < w.suspense := by
    have hat₁ : w₁.At j errand p := hat.of_jobs (hjobs ▸ List.prefix_rfl)
    have hsuspense := total_setPosition Errand.suspense hat₁ p'
    rw [total_of_jobs Errand.suspense hjobs] at hsuspense
    refine ⟨hpays.trans (n := 0) (hat₁.pays ?_), ?_⟩
    · cases errand with
      | watch | reopen => exact Nat.le_refl _
      | operation | execution | reset =>
        exact absurd herrand (by simp [Errand.isCall, Errand.isNamed])
    · unfold World.suspense
      omega
  have hidle : (∃ handle e, errand = .watch handle e) ∨ ∃ q e, errand = .reopen q e := by
    cases errand with
    | watch handle e => exact .inl ⟨handle, e, rfl⟩
    | reopen q e => exact .inr ⟨q, e, rfl⟩
    | operation | execution | reset =>
      exact absurd herrand (by simp [Errand.isCall, Errand.isNamed])
  unfold turnAwait
  split
  · next w' o hr =>
    refine .inr (hmoved (hgoOn hr).1 (hgoOn hr).2 ?_)
    rcases hidle with ⟨_, _, rfl⟩ | ⟨_, _, rfl⟩ <;> rcases hp with rfl | ⟨e, seat, rfl⟩ <;>
      exact Nat.succ_pos _
  · rw [hat.position_eq]
    rcases hp with rfl | ⟨e', seat, rfl⟩
    · refine .inr (hmoved (jobs_takeSeat w e _) (pays_takeSeat w e _) ?_)
      rcases hidle with ⟨_, _, rfl⟩ | ⟨_, _, rfl⟩ <;> exact Nat.lt_succ_self 1
    · exact .inl rfl

/-- The turn of a job that resets a package spends labour, or does nothing. -/
theorem turnReset_pays {name : String} {folder : Path} {token : Option String}
    (hat : w.At j (.reset name folder token) p) :
    w.turnReset j name folder token = w ∨ Pays 1 w (w.turnReset j name folder token) := by
  unfold turnReset
  rw [hat.position_eq]
  split
  · next e seat =>
    split
    · exact .inr (hat.pays_endJob Nat.one_pos)
    · next entry he =>
      unfold turnAwait
      split
      · next w₁ o hr =>
        have hreopened : Pays 0 w (w₁.concludeReset name folder entry.queue e o) :=
          (pays_receive? hr).trans (m := 0) (pays_concludeReset w₁ name folder entry.queue e o)
        exact .inr (hreopened.trans (m := 0) (((mild_concludeReset hr name folder entry.queue).stays
          hat).pays_endJob Nat.one_pos))
      · rw [hat.position_eq]
        exact .inl rfl
  · split
    · exact .inr ((pays_note w _).trans (m := 0)
        (At.pays_endJob (w := w.note _) hat (Nat.succ_pos _)))
    · exact .inr (pays_askReset _ hat)
  · exact .inl rfl

/-- **A job that takes its turn** spends labour, comes further, or does nothing. -/
theorem turnJob_pays (hw : Arises w) (hat : w.At j errand p)
    (hbefore : ({ w with ready := j :: w.ready } : World).Attends j errand p) (hdone : p ≠ .done) :
    w.turnJob j errand = w ∨ Pays 1 w (w.turnJob j errand) ∨
      Pays 0 w (w.turnJob j errand) ∧ (w.turnJob j errand).suspense < w.suspense := by
  have hcall (hcall : errand.isCall) :
      w.turnJob j errand = w ∨ Pays 1 w (w.turnJob j errand) := by
    rcases turnJob_moves hw hat hcall hbefore hdone with ⟨-, heq⟩ | hmoves
    · exact .inl heq
    · rcases (turnJob_works hat hdone).pays hw with hpays | ⟨-, hkeeps⟩
      · exact .inr hpays
      · exact absurd rfl (hmoves (hkeeps hcall hat))
  -- A job that executes nothing has not begun, or waits.
  have hwaits (herrand : errand.isCall = false) : p = .fresh ∨ ∃ e seat, p = .awaiting e seat := by
    have hidle := hw.isNumbered.idle hat herrand
    cases p with
    | fresh => exact .inl rfl
    | awaiting e seat => exact .inr ⟨e, seat, rfl⟩
    | telling => exact absurd hbefore (by simp [Attends])
    | done => exact absurd rfl hdone
    | inLine | starting | running => exact absurd hidle (by simp [Position.id?])
  cases errand with
  | operation | execution => exact (hcall rfl).imp_right .inl
  | reset name folder token => exact (turnReset_pays hat).imp_right .inl
  | watch handle e =>
    refine (turnAwait_pays hat ⟨rfl, rfl⟩ (hwaits rfl) fun {w' o} hr => ?_).imp_right .inr
    have hjobs : w'.jobs = w.jobs := jobs_receive? hr
    split
    · exact ⟨hjobs, (pays_receive? hr).trans (n := 0) (pays_note w' _)⟩
    · exact ⟨hjobs, pays_receive? hr⟩
  | reopen q e =>
    refine (turnAwait_pays hat ⟨rfl, rfl⟩ (hwaits rfl) fun {w' o} hr => ?_).imp_right .inr
    have hjobs : w'.jobs = w.jobs := jobs_receive? hr
    exact ⟨hjobs, (pays_receive? hr).trans (n := 0) (pays_withhold w' q false)⟩

/-- **Every turn** spends labour, brings a job further that waits for an outcome, or does nothing
but let the turn pass. -/
theorem takeTurn_pays (hw : Arises w) (ha : w.IsAttended) (hj : j ∈ w.ready) :
    Pays 1 w (w.takeTurn j) ∨ Pays 0 w (w.takeTurn j) ∧
      ((w.takeTurn j).suspense < w.suspense ∨ (w.takeTurn j).suspense = w.suspense ∧
        (w.takeTurn j).timers = w.timers ∧ (w.takeTurn j).ready.length < w.ready.length) := by
  have htaken : Arises { w with ready := w.ready.erase j } :=
    hw.change (.drift (.turnTaken j hj))
  have hlength : (w.ready.erase j).length < w.ready.length := by
    rw [List.length_erase_of_mem hj]
    exact Nat.sub_one_lt (List.length_pos_of_mem hj).ne'
  have hpassed (current : Option JobId) : Pays 0 w { w with ready := w.ready.erase j, current } ∧
      (World.suspense { w with ready := w.ready.erase j, current } < w.suspense ∨
        World.suspense { w with ready := w.ready.erase j, current } = w.suspense ∧
        w.timers = w.timers ∧ (w.ready.erase j).length < w.ready.length) :=
    ⟨pays_of_eq rfl rfl rfl, .inr ⟨rfl, rfl, hlength⟩⟩
  unfold takeTurn turn
  cases hjob : w.jobs[j]? with
  | none => exact .inr (hpassed w.current)
  | some job =>
    have hat : w.At j job.errand job.position := ⟨job.isAbandoned, hjob⟩
    dsimp only
    by_cases hdone : job.position = .done
    · rw [if_pos hdone]
      exact .inr (hpassed w.current)
    · rw [if_neg hdone]
      by_cases hgiven : job.isAbandoned
      · rw [if_pos hgiven]
        have hnamed := htaken.isOrderly.abandoned job.runner
          (List.mem_map_of_mem (List.mem_of_getElem? hjob)) hgiven
        exact .inl ((hpassed w.current).1.trans (m := 0) (pays_discard hjob hdone hnamed))
      · rw [if_neg hgiven]
        have hset : Arises { w with ready := w.ready.erase j, current := some j } :=
          htaken.change (.drift (.turnSet (some j)))
        have hattends := ha hat
        have hbefore :
            ({ w with ready := j :: w.ready.erase j, current := some j } : World).Attends j
              job.errand job.position := by
          generalize job.position = p at hattends
          cases p with
          | fresh => exact List.mem_cons_self
          | starting => exact .inl List.mem_cons_self
          | running => exact hattends.imp_right fun h => ⟨h.1, List.mem_cons_self⟩
          | inLine | telling | awaiting | done => exact hattends
        have hpays := turnJob_pays hset
          (w := { w with ready := w.ready.erase j, current := some j }) hat hbefore hdone
        have harises := hset.changes (turnJob_works
          (w := { w with ready := w.ready.erase j, current := some j }) hat hdone).changes
        have hdropped := discardIfAbandoned_pays harises.isOrderly j
        have hstart := (hpassed (some j)).1
        rcases hdropped with hstays | hdropped
        · rw [hstays]
          rcases hpays with heq | hpays | ⟨hpays, hlt⟩
          · rw [heq]
            exact .inr (hpassed none)
          · exact .inl (hstart.trans (m := 0) hpays)
          · exact .inr ⟨hstart.trans (m := 0) hpays, .inl hlt⟩
        · have hturned := (turnJob_works
            (w := { w with ready := w.ready.erase j, current := some j }) hat hdone).pays_zero hset
          exact .inl (hstart.trans (m := 0) (hturned.trans (m := 0) hdropped))

end Labour

end World

end FolderTasks.Dispatch
