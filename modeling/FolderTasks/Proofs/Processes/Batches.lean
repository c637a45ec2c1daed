import FolderTasks.Processes.Batch
import FolderTasks.Proofs.Processes.Handles
import Mathlib.Data.List.Forall2
/-!
# What a batch of commands comes to

The first command of a batch is executed at once, with the other ones waiting behind it.  Of those
that ask for the same only the first is executed, and the others share its outcome; nobody shares that
of the first command of all, which does not wait.

Served one request after the other, a batch keeps to this at every moment, so it is a property of the
requests served so far, kept by serving one more.

## Main definitions

* `Served.AnswersFor`: what an execution says about the request it was made for.
* `Batch.ServesAll`: what the executions have to do with the requests served so far.
* `Batch.alike`: the earlier requests that a request should share its outcome with.
* `Batch.SharesAlike`: the outcomes are shared by those who should.

## Main statements

* `Batch.answersFor_execute`, `Batch.evolves_execute`, `Batch.clock_execute_le`: one execution.
* `Batch.ServesAll.serve`: one more request.
* `Batch.servesAll_ofRequests`: a whole batch.
* `Batch.sharesAlike_ofRequests`: who gets which outcome, and with whom.
-/

namespace FolderTasks.Processes

open Files Machine

/-- **What an execution says about the request it was made for.** -/
structure Served.AnswersFor (s : Served) (isRead : Bool) (r : Request) : Prop where
  command : s.command = r.command
  /-- A request that was withdrawn beforehand is not launched. -/
  withdrawn : r.isWithdrawn = true → s.outcome = .cancelled ∧ s.readers = none
  /-- Nobody is cancelled who did not ask for it. -/
  cancelled : s.outcome = .cancelled → r.isWithdrawn = true ∨ r.patience.isSome = true
  /-- A launch that fails has a reason. -/
  launchFailed : ∀ message, s.outcome = .launchFailed message →
    ∃ reason, message = (Failure.launch r.command.program reason).message ∧
      (mentionsNul r.command = true ∧ reason = nulReason ∨ ∃ fault : Fault, reason = fault.message)
  /-- Its output is read only where outputs are read. -/
  readers : s.readers.isSome = true → isRead = true

namespace Batch

variable {b : Batch} {r : Request} {rs : List Request} {h : Host} {isRead : Bool}

/-! ## One execution -/

theorem readers_of_launch_eq_ok {c : Command} {l : Launched} (hl : launch h isRead c = .ok l) :
    l.readers.isSome = isRead := by
  rw [launch] at hl
  split at hl
  · exact absurd hl (by simp)
  · split at hl
    · exact absurd hl (by simp)
    · obtain rfl := Except.ok.inj hl
      cases isRead <;> rfl

/-- A process that is awaited is at its end, or is killed when nobody waits any more. -/
theorem outcome_await (h : Host) (number : Nat) (deadline : Option Nat) :
    (∃ code, (await h number deadline).2 = .ofCode code) ∨
      deadline.isSome = true ∧ (await h number deadline).2 = .cancelled := by
  rw [await]
  cases deadline <;> cases Host.ending? _ number with
  | some e => exact .inl ⟨e.code?, rfl⟩
  | none => first | exact .inl ⟨none, rfl⟩ | exact .inr ⟨rfl, rfl⟩

theorem evolves_await (hn : h.IsNumbered) (number : Nat) (deadline : Option Nat) :
    h.Evolves (await h number deadline).1 := by
  have hrun := Host.evolves_runUntil hn (fun h => (h.ending? number).isSome) deadline
  rw [await]
  split
  · exact hrun
  · exact hrun.trans (Host.evolves_deliver hrun.isNumbered number 9)

/-- Nobody is awaited beyond a deadline. -/
theorem clock_await_le (h : Host) (number deadline : Nat) :
    (await h number (some deadline)).1.clock ≤ max h.clock deadline := by
  have hrun := h.clock_runUntil_le (fun h => (h.ending? number).isSome) deadline
  rw [await]
  split
  · exact hrun
  · rwa [Host.clock_deliver]

/-- **An execution answers for its request.** -/
theorem answersFor_execute (b : Batch) (r : Request) :
    (b.execute r).2.AnswersFor b.isRead r ∧ (b.execute r).2.id = b.nextId := by
  rw [execute]
  split
  · next hwithdrawn =>
    exact ⟨⟨rfl, fun _ => ⟨rfl, rfl⟩, fun _ => .inl hwithdrawn, fun _ ho => absurd ho (by simp),
      fun hr => absurd hr (by simp)⟩, rfl⟩
  · next hpresent =>
    cases hl : launch b.host b.isRead r.command with
    | error f =>
      refine ⟨⟨rfl, fun hw => absurd hw hpresent, fun ho => absurd ho (by simp), ?_,
        fun hr => absurd hr (by simp)⟩, rfl⟩
      intro message ho
      obtain rfl := Outcome.launchFailed.inj ho
      rcases launch_eq_error hl with ⟨hnul, rfl⟩ | ⟨-, fault, -, rfl⟩
      · exact ⟨nulReason, rfl, .inl ⟨hnul, rfl⟩⟩
      · exact ⟨fault.message, rfl, .inr ⟨fault, rfl⟩⟩
    | ok l =>
      have houtcome := outcome_await l.host l.number (b.deadline? r)
      refine ⟨⟨rfl, fun hw => absurd hw hpresent, fun ho => ?_, fun message ho => ?_,
        fun hr => (readers_of_launch_eq_ok hl).symm.trans hr⟩, rfl⟩
      · rcases houtcome with ⟨code, hcode⟩ | ⟨hdeadline, -⟩
        · have hend := hcode.symm.trans ho
          cases code <;> exact absurd hend (by simp [Outcome.ofCode])
        · rw [deadline?, Option.isSome_map] at hdeadline
          exact .inr hdeadline
      · rcases houtcome with ⟨code, hcode⟩ | ⟨-, hcancelled⟩
        · have hend := hcode.symm.trans ho
          cases code <;> exact absurd hend (by simp [Outcome.ofCode])
        · exact absurd (hcancelled.symm.trans ho) (by simp)

/-- **What should last on a machine outlives an execution.** -/
theorem evolves_execute (hn : b.host.IsNumbered) (r : Request) :
    b.host.Evolves (b.execute r).1 := by
  rw [execute]
  split
  · exact .refl hn
  · cases hl : launch b.host b.isRead r.command with
    | error f => exact .refl hn
    | ok l =>
      have hlaunched := (launch_eq_ok hn hl).1
      exact hlaunched.trans (evolves_await hlaunched.isNumbered l.number (b.deadline? r))

/-- **Nobody waits longer than he is patient**, if there is a moment at which a request is cancelled. -/
theorem clock_execute_le (hn : b.host.IsNumbered) {deadline : Nat}
    (hd : b.deadline? r = some deadline) :
    (b.execute r).1.clock ≤ max b.host.clock deadline := by
  rw [execute]
  split
  · exact Nat.le_max_left _ _
  · cases hl : launch b.host b.isRead r.command with
    | error f => exact Nat.le_max_left _ _
    | ok l =>
      have hawait := clock_await_le l.host l.number deadline
      rw [(launch_eq_ok hn hl).2.1] at hawait
      rwa [hd]

/-! ## One request -/

/-- **What the executions have to do with the requests served so far.** -/
structure ServesAll (b : Batch) (rs : List Request) : Prop where
  /-- Tasks are numbered in the order of their executions. -/
  ids : b.served.map Served.id = (List.range b.served.length).map fun n => ⟨n + 1⟩
  /-- Requests are executed in the order in which they were handed in. -/
  inOrder : ∃ executed : List Request, executed.Sublist rs ∧ executed.head? = rs.head? ∧
    List.Forall₂ (fun s r => s.AnswersFor b.isRead r) b.served executed
  /-- Only the first execution may be of what another one is of. -/
  distinct : (b.served.drop 1).Pairwise fun s s' => s.command.args ≠ s'.command.args
  /-- Each request is served by an execution of what it asks for. -/
  assigned : List.Forall₂
    (fun n r => ∃ s, b.served[n]? = some s ∧ s.command.args = r.command.args) b.assigned rs
  /-- The first request has the first execution. -/
  first : ∀ n ∈ b.assigned.head?, n = 0
  /-- Nobody else has it. -/
  alone : 0 ∉ b.assigned.drop 1

namespace ServesAll

theorem nil (h : Host) (isRead : Bool) : ServesAll { host := h, isRead } [] where
  ids := rfl
  inOrder := ⟨[], .slnil, rfl, .nil⟩
  distinct := .nil
  assigned := .nil
  first _ hn := absurd hn (by simp)
  alone := List.not_mem_nil

theorem length_assigned (hb : b.ServesAll rs) : b.assigned.length = rs.length :=
  hb.assigned.length_eq

/-- Something was executed as soon as something was requested. -/
theorem served_eq_nil_iff (hb : b.ServesAll rs) : b.served = [] ↔ rs = [] := by
  obtain ⟨executed, -, hhead, hall⟩ := hb.inOrder
  rw [← List.length_eq_zero_iff, hall.length_eq, List.length_eq_zero_iff, ← List.head?_eq_none_iff,
    hhead, List.head?_eq_none_iff]

end ServesAll

theorem absorber?_eq_some {c : Command} {n : Nat} (ha : b.absorber? c = some n) :
    0 < n ∧ ∃ s, b.served[n]? = some s ∧ s.command.args = c.args := by
  rw [absorber?, Option.map_eq_some_iff] at ha
  obtain ⟨k, hk, rfl⟩ := ha
  obtain ⟨hlt, hsame, -⟩ := List.findIdx?_eq_some_iff_getElem.1 hk
  refine ⟨Nat.succ_pos k, (b.served.drop 1)[k], ?_, by simpa [Command.sameRequest] using hsame⟩
  rw [← List.getElem?_eq_getElem hlt, List.getElem?_drop, Nat.add_comm]

theorem absorber?_eq_none {c : Command} (ha : b.absorber? c = none) :
    ∀ s ∈ b.served.drop 1, s.command.args ≠ c.args := by
  rw [absorber?, Option.map_eq_none_iff, List.findIdx?_eq_none_iff] at ha
  intro s hs
  simpa [Command.sameRequest] using ha s hs

theorem drop_one_append_singleton {α : Type} {l : List α} (hl : l ≠ []) (a : α) :
    (l ++ [a]).drop 1 = l.drop 1 ++ [a] :=
  List.drop_append_of_le_length (List.length_pos_iff.2 hl)

/-- **One more request** is served by a waiting execution of what it asks for, or else by one of its
own. -/
theorem ServesAll.serve (hb : b.ServesAll rs) (r : Request) :
    (b.serve r).ServesAll (rs ++ [r]) := by
  have hassigned : b.assigned = [] ↔ rs = [] := by
    rw [← List.length_eq_zero_iff, hb.length_assigned, List.length_eq_zero_iff]
  obtain ⟨executed, hsub, hhead, hall⟩ := hb.inOrder
  rw [Batch.serve]
  cases ha : b.absorber? r.command with
  | some n =>
    obtain ⟨hpos, s, hs, hargs⟩ := absorber?_eq_some ha
    have hne : rs ≠ [] := fun hnil => by
      rw [hb.served_eq_nil_iff.2 hnil] at hs
      exact absurd hs (by simp)
    constructor
    · exact hb.ids
    · refine ⟨executed, hsub.trans (List.sublist_append_left _ _), ?_, hall⟩
      rw [hhead, List.head?_append_of_ne_nil _ hne]
    · exact hb.distinct
    · exact List.rel_append hb.assigned (.cons ⟨s, hs, hargs⟩ .nil)
    · rw [List.head?_append_of_ne_nil _ (mt hassigned.1 hne)]
      exact hb.first
    · rw [drop_one_append_singleton (mt hassigned.1 hne), List.mem_append, List.mem_singleton]
      exact not_or.2 ⟨hb.alone, Nat.ne_of_lt hpos⟩
  | none =>
    obtain ⟨hanswers, hid⟩ := b.answersFor_execute r
    have hserved : ∀ n s, b.served[n]? = some s →
        (b.served ++ [(b.execute r).2])[n]? = some s := fun n s hs => by
      rwa [List.getElem?_append_left (List.getElem?_eq_some_iff.1 hs).1]
    constructor
    · simp [hb.ids, hid, nextId, List.range_succ]
    · refine ⟨executed ++ [r], hsub.append (.refl _), ?_, List.rel_append hall (.cons hanswers .nil)⟩
      rw [List.head?_append, List.head?_append, hhead]
    · -- The very first execution waits for none, so nothing is said of it.
      rcases eq_or_ne b.served [] with hnil | hne
      · simp [hnil]
      · rw [drop_one_append_singleton hne, List.pairwise_append]
        refine ⟨hb.distinct, List.pairwise_singleton _ _, fun s hs s' hs' => ?_⟩
        obtain rfl := List.mem_singleton.1 hs'
        rw [hanswers.command]
        exact absorber?_eq_none ha s hs
    · refine List.rel_append (hb.assigned.imp fun n r ⟨s, hs, hargs⟩ => ⟨s, hserved n s hs, hargs⟩)
        (.cons ⟨(b.execute r).2, List.getElem?_concat_length, ?_⟩ .nil)
      rw [hanswers.command]
    · rcases eq_or_ne b.assigned [] with hnil | hne
      · have hempty : b.served = [] := hb.served_eq_nil_iff.2 (hassigned.1 hnil)
        simp [hnil, hempty]
      · rw [List.head?_append_of_ne_nil _ hne]
        exact hb.first
    · rcases eq_or_ne b.assigned [] with hnil | hne
      · simp [hnil]
      · rw [drop_one_append_singleton hne, List.mem_append, List.mem_singleton]
        have hpos : b.served ≠ [] := mt (hassigned.trans hb.served_eq_nil_iff.symm).2 hne
        exact not_or.2 ⟨hb.alone, (Nat.ne_of_gt (List.length_pos_iff.2 hpos)).symm⟩

/-! ## A whole batch -/

theorem servesAll_foldl (hb : b.ServesAll rs) (rs' : List Request) :
    (rs'.foldl serve b).ServesAll (rs ++ rs') := by
  induction rs' generalizing b rs with
  | nil => simpa using hb
  | cons r rs' ih => simpa using ih (hb.serve r)

theorem evolves_serve (hn : b.host.IsNumbered) (r : Request) : b.host.Evolves (b.serve r).host := by
  rw [serve]
  split
  · exact .refl hn
  · exact evolves_execute hn r

theorem evolves_foldl (hn : b.host.IsNumbered) (rs : List Request) :
    b.host.Evolves (rs.foldl serve b).host := by
  induction rs generalizing b with
  | nil => exact .refl hn
  | cons r rs ih =>
    have hserved := evolves_serve hn r
    exact hserved.trans (ih hserved.isNumbered)

/-- **A whole batch**: every request is served, nobody waits any more, and what should last on the
machine does. -/
theorem servesAll_ofRequests (h : Host) (isRead : Bool) (rs : List Request) :
    (ofRequests h isRead rs).ServesAll rs ∧ (ofRequests h isRead rs).isIdle rs = true ∧
      (h.IsNumbered → h.Evolves (ofRequests h isRead rs).host) := by
  have hfold : (rs.foldl serve { host := h, isRead }).ServesAll rs :=
    servesAll_foldl (ServesAll.nil h isRead) rs
  refine ⟨{ hfold with }, ?_, fun hn => ?_⟩
  · rw [isIdle, beq_iff_eq]
    exact hfold.length_assigned
  · have hserved := evolves_foldl (b := { host := h, isRead }) hn rs
    exact hserved.trans (Host.evolves_runUntil hserved.isNumbered (fun _ => false) none)

/-! ## Who shares an outcome -/

/-- What a request asks for. -/
def asked? (rs : List Request) (request : Nat) : Option (List String) :=
  rs[request]?.map fun r => r.command.args

/-- The earlier requests that a request should share its outcome with: those that wait, like itself,
and ask for the same. -/
def alike (rs : List Request) (request : Nat) : List Nat :=
  (List.range request).filter fun n => 0 < n && asked? rs n == asked? rs request

/-- **Who gets which outcome, and with whom.** -/
structure SharesAlike (b : Batch) (rs : List Request) : Prop where
  length : b.outcomes.length = rs.length
  /-- A request has the outcome of an execution of what it asks for. -/
  outcome : ∀ request r, rs[request]? = some r → ∃ s ∈ b.served,
    s.command.args = r.command.args ∧ b.outcomes[request]? = some (s.outcome, alike rs request)
  /-- Those who share an outcome have the same one. -/
  shared : ∀ request < rs.length, ∀ n ∈ alike rs request,
    b.outcomes[n]?.map Prod.fst = b.outcomes[request]?.map Prod.fst

namespace ServesAll

variable {i j n m : Nat} {s : Served}

/-- The execution that serves a request. -/
theorem exists_served (hb : b.ServesAll rs) (hi : i < rs.length) :
    ∃ n s, b.assigned[i]? = some n ∧ b.served[n]? = some s ∧ asked? rs i = some s.command.args := by
  obtain ⟨s, hs, hargs⟩ := hb.assigned.get (hb.length_assigned.symm ▸ hi) hi
  refine ⟨_, s, List.getElem?_eq_getElem _, hs, ?_⟩
  rw [asked?, List.getElem?_eq_getElem hi, Option.map_some, hargs]
  rfl

/-- Only the first request is served by the first execution. -/
theorem pos_of_assigned (hb : b.ServesAll rs) (hi : 0 < i) (hn : b.assigned[i]? = some n) : 0 < n := by
  refine Nat.pos_of_ne_zero fun hzero => hb.alone ?_
  obtain ⟨k, rfl⟩ := Nat.exists_eq_add_of_le hi
  exact List.mem_of_getElem? (by rw [List.getElem?_drop, hn, hzero])

/-- The waiting executions of the same are one. -/
theorem served_injective (hb : b.ServesAll rs) (hn : 0 < n) (hm : 0 < m) {s s' : Served}
    (hs : b.served[n]? = some s) (hs' : b.served[m]? = some s')
    (hargs : s.command.args = s'.command.args) : n = m := by
  obtain ⟨n, rfl⟩ := Nat.exists_eq_add_of_le hn
  obtain ⟨m, rfl⟩ := Nat.exists_eq_add_of_le hm
  rw [← List.getElem?_drop] at hs hs'
  obtain ⟨hn', rfl⟩ := List.getElem?_eq_some_iff.1 hs
  obtain ⟨hm', rfl⟩ := List.getElem?_eq_some_iff.1 hs'
  have hpairwise := List.pairwise_iff_getElem.1 hb.distinct
  rcases Nat.lt_trichotomy n m with hlt | rfl | hlt
  · exact absurd hargs (hpairwise n m hn' hm' hlt)
  · rfl
  · exact absurd hargs.symm (hpairwise m n hm' hn' hlt)

/-- **Two requests are served by one execution** if and only if both wait and ask for the same. -/
theorem assigned_eq_iff (hb : b.ServesAll rs) (hlt : j < i) (hi : i < rs.length) :
    b.assigned[j]? = b.assigned[i]? ↔ 0 < j ∧ asked? rs j = asked? rs i := by
  obtain ⟨n, s, hn, hs, hargs⟩ := hb.exists_served hi
  obtain ⟨m, s', hm, hs', hargs'⟩ := hb.exists_served (Nat.lt_trans hlt hi)
  have hpos : 0 < n := hb.pos_of_assigned (Nat.zero_lt_of_lt hlt) hn
  rw [hn, hm, hargs, hargs', Option.some_inj, Option.some_inj]
  constructor
  · rintro rfl
    refine ⟨Nat.pos_of_ne_zero ?_, by rw [Option.some.inj (hs'.symm.trans hs)]⟩
    rintro rfl
    exact absurd (hb.first m (List.head?_eq_getElem?.trans hm)) (Nat.ne_of_gt hpos)
  · rintro ⟨hj, hsame⟩
    exact hb.served_injective (hb.pos_of_assigned hj hm) hpos hs' hs hsame

theorem sharers_eq (hb : b.ServesAll rs) (hi : i < rs.length) : b.sharers i = alike rs i := by
  refine List.filter_congr fun j hj => ?_
  rw [Bool.eq_iff_iff, beq_iff_eq, hb.assigned_eq_iff (List.mem_range.1 hj) hi]
  simp

end ServesAll

theorem getElem?_filterMap {α β : Type} {f : α → Option β} {l : List α}
    (hf : ∀ a ∈ l, (f a).isSome = true) (i : Nat) : (l.filterMap f)[i]? = l[i]?.bind f := by
  induction l generalizing i with
  | nil => rfl
  | cons a l ih =>
    obtain ⟨b, hb⟩ := Option.isSome_iff_exists.1 (hf a List.mem_cons_self)
    rw [List.filterMap_cons_some hb]
    cases i with
    | zero => exact hb.symm
    | succ i => exact ih (fun a ha => hf a (List.mem_cons_of_mem _ ha)) i

namespace ServesAll

variable {i : Nat}

/-- No request is without an outcome. -/
theorem isSome_outcome (hb : b.ServesAll rs) : ∀ a ∈ b.assigned.zipIdx,
    (b.served[a.1]?.map fun s => (s.outcome, b.sharers a.2)).isSome = true := by
  rintro ⟨n, i⟩ hmem
  have hn : b.assigned[i]? = some n := by simpa using List.mem_zipIdx_iff_getElem?.1 hmem
  have hi : i < rs.length := hb.length_assigned ▸ (List.getElem?_eq_some_iff.1 hn).1
  obtain ⟨m, s, hm, hs, -⟩ := hb.exists_served hi
  obtain rfl := Option.some.inj (hn.symm.trans hm)
  rw [hs]
  rfl

/-- Each request has the outcome of the execution that serves it. -/
theorem getElem?_outcomes (hb : b.ServesAll rs) (i : Nat) :
    b.outcomes[i]? =
      b.assigned[i]?.bind fun n => b.served[n]?.map fun s => (s.outcome, b.sharers i) := by
  rw [outcomes, getElem?_filterMap hb.isSome_outcome, List.getElem?_zipIdx]
  cases b.assigned[i]? with
  | none => rfl
  | some n => simp

/-- **Who gets which outcome, and with whom**, once all requests are served. -/
theorem sharesAlike (hb : b.ServesAll rs) : b.SharesAlike rs where
  length := by
    rw [outcomes, List.filterMap_length_eq_length.2 hb.isSome_outcome, List.length_zipIdx,
      hb.length_assigned]
  outcome i r hr := by
    have hi := (List.getElem?_eq_some_iff.1 hr).1
    obtain ⟨n, s, hn, hs, hargs⟩ := hb.exists_served hi
    rw [asked?, hr] at hargs
    refine ⟨s, List.mem_of_getElem? hs, (Option.some.inj hargs).symm, ?_⟩
    rw [hb.getElem?_outcomes, hn, Option.bind_some, hs, hb.sharers_eq hi]
    rfl
  shared i hi j hj := by
    obtain ⟨hlt, hsame⟩ := List.mem_filter.1 hj
    rw [Bool.and_eq_true, decide_eq_true_eq, beq_iff_eq] at hsame
    have hassigned := (hb.assigned_eq_iff (List.mem_range.1 hlt) hi).2 hsame
    rw [hb.getElem?_outcomes, hb.getElem?_outcomes, hassigned, Option.map_bind, Option.map_bind]
    simp only [Function.comp_def, Option.map_map]

end ServesAll

/-- **What a whole batch delivers.** -/
theorem sharesAlike_ofRequests (h : Host) (isRead : Bool) (rs : List Request) :
    (ofRequests h isRead rs).SharesAlike rs :=
  (servesAll_ofRequests h isRead rs).1.sharesAlike

end Batch

end FolderTasks.Processes
