import FolderTasks.Machine.Host
import Mathlib.Data.List.Nodup
/-!
# Processes of a running machine

Whatever the programs on a machine are, its processes keep their numbers apart, time does not run
backwards, and a process that was started from outside stays until somebody outside has seen how it
ended.  Its ending is final: nothing that happens on the machine afterwards changes it.

## Main definitions

* `Resident.Becomes`: what lasts of a process.
* `Host.IsNumbered`: each process has a number of its own.
* `Host.HasLaunched`: a process was started from outside.
* `Host.Evolves`: what lasts of a machine.

## Main statements

* `Host.evolves_go`: one process goes on.
* `Host.evolves_settle`, `Host.evolves_runUntil`: all of them go on, for a while.
* `Host.Evolves.ending?`: the ending of a process is final.
* `Host.clock_runUntil_le`: no deadline is passed.

## Design notes

A process is taken away when the one that started it asks for its end, so only those from outside are
sure to stay.  The numbers are distinct at every moment, which is why a change of the process with a
certain number changes no other.
-/

namespace FolderTasks.Machine

/-- **What lasts of a process**: its number, that it was started from outside, and its ending. -/
structure Resident.Becomes (r r' : Resident) : Prop where
  number : r'.context.number = r.context.number
  starter : r.context.starter = outsider → r'.context.starter = outsider
  ended : ∀ e, r.state = .ended e → r'.state = .ended e

theorem Resident.Becomes.refl (r : Resident) : r.Becomes r := ⟨rfl, id, fun _ => id⟩

theorem Resident.Becomes.trans {r r' r'' : Resident} (h : r.Becomes r') (h' : r'.Becomes r'') :
    r.Becomes r'' :=
  ⟨h'.number.trans h.number, h'.starter ∘ h.starter, fun e he => h'.ended e (h.ended e he)⟩

/-- A process that is not at its end may go on in any way. -/
theorem Resident.Becomes.of_isAlive {r r' : Resident} (hr : r.isAlive = true)
    (hnumber : r'.context.number = r.context.number)
    (hstarter : r.context.starter = outsider → r'.context.starter = outsider) : r.Becomes r' :=
  ⟨hnumber, hstarter, fun e he => by simp [Resident.isAlive, he] at hr⟩

namespace Host

/-- The numbers of the processes. -/
def numbers (h : Host) : List Nat := h.residents.map fun r => r.context.number

/-- **Each process has a number of its own**, which is not that of the one outside. -/
structure IsNumbered (h : Host) : Prop where
  distinct : h.numbers.Nodup
  given : ∀ n ∈ h.numbers, outsider < n ∧ n < h.nextNumber
  next : outsider < h.nextNumber

/-- A process was started from outside and is still there. -/
def HasLaunched (h : Host) (n : Nat) : Prop :=
  ∃ r ∈ h.residents, r.context.number = n ∧ r.context.starter = outsider

/-- **What lasts of a machine**: time and the numbers only grow, and whoever was started from outside
stays. -/
structure Evolves (h h' : Host) : Prop where
  clock : h.clock ≤ h'.clock
  nextNumber : h.nextNumber ≤ h'.nextNumber
  isNumbered : h'.IsNumbered
  launched : ∀ r ∈ h.residents, r.context.starter = outsider → ∃ r' ∈ h'.residents, r.Becomes r'

section Lasting

variable {h h' h'' : Host} {r r' : Resident} {n : Nat} {e : Ending}

namespace IsNumbered

/-- There is one process of a number. -/
theorem unique (hn : h.IsNumbered) (hr : r ∈ h.residents) (hr' : r' ∈ h.residents)
    (heq : r.context.number = r'.context.number) : r = r' :=
  List.inj_on_of_nodup_map hn.distinct hr hr' heq

theorem resident?_eq (hn : h.IsNumbered) (hr : r ∈ h.residents) :
    h.resident? r.context.number = some r := by
  cases hfind : h.resident? r.context.number with
  | none => exact absurd (List.find?_eq_none.1 hfind r hr) (by simp)
  | some r' =>
    have heq : r'.context.number = r.context.number := by simpa using List.find?_some hfind
    rw [hn.unique (List.mem_of_find?_eq_some hfind) hr heq]

theorem ending?_eq_some_iff (hn : h.IsNumbered) :
    h.ending? n = some e ↔
      ∃ r ∈ h.residents, r.context.number = n ∧ r.state = .ended e := by
  constructor
  · intro hending
    rw [ending?] at hending
    split at hending
    · next context e' isStopped hfind =>
      have hnumber : context.number = n := by simpa using List.find?_some hfind
      obtain rfl := Option.some.inj hending
      exact ⟨_, List.mem_of_find?_eq_some hfind, hnumber, rfl⟩
    · exact absurd hending (by simp)
  · rintro ⟨r, hr, rfl, hstate⟩
    rw [ending?, hn.resident?_eq hr]
    obtain ⟨context, state, isStopped⟩ := r
    obtain rfl : state = .ended e := hstate
    rfl

/-- No other numbers, each of them once, with the same numbers to come. -/
theorem of_subset (hn : h.IsNumbered) (hdistinct : h'.numbers.Nodup)
    (hsubset : h'.numbers ⊆ h.numbers) (hnext : h'.nextNumber = h.nextNumber) :
    h'.IsNumbered where
  distinct := hdistinct
  given n hmem := by
    rw [hnext]
    exact hn.given n (hsubset hmem)
  next := by
    rw [hnext]
    exact hn.next

end IsNumbered

namespace Evolves

theorem refl (hn : h.IsNumbered) : h.Evolves h :=
  ⟨Nat.le_refl _, Nat.le_refl _, hn, fun r hr _ => ⟨r, hr, .refl r⟩⟩

theorem trans (he : h.Evolves h') (he' : h'.Evolves h'') : h.Evolves h'' where
  clock := Nat.le_trans he.clock he'.clock
  nextNumber := Nat.le_trans he.nextNumber he'.nextNumber
  isNumbered := he'.isNumbered
  launched r hr hs := by
    obtain ⟨r', hr', hbecomes⟩ := he.launched r hr hs
    obtain ⟨r'', hr'', hbecomes'⟩ := he'.launched r' hr' (hbecomes.starter hs)
    exact ⟨r'', hr'', hbecomes.trans hbecomes'⟩

theorem hasLaunched (he : h.Evolves h') (hl : h.HasLaunched n) : h'.HasLaunched n := by
  obtain ⟨r, hr, rfl, hs⟩ := hl
  obtain ⟨r', hr', hbecomes⟩ := he.launched r hr hs
  exact ⟨r', hr', hbecomes.number, hbecomes.starter hs⟩

/-- **The ending of a process is final**, when it was started from outside. -/
theorem ending? (he : h.Evolves h') (hn : h.IsNumbered) (hl : h.HasLaunched n)
    (hending : h.ending? n = some e) : h'.ending? n = some e := by
  obtain ⟨r, hr, hnumber, hs⟩ := hl
  obtain ⟨r', hr', hnumber', hstate⟩ := hn.ending?_eq_some_iff.1 hending
  obtain rfl := hn.unique hr hr' (hnumber.trans hnumber'.symm)
  obtain ⟨r'', hr'', hbecomes⟩ := he.launched r hr hs
  exact he.isNumbered.ending?_eq_some_iff.2
    ⟨r'', hr'', hbecomes.number.trans hnumber, hbecomes.ended e hstate⟩

/-- A change that leaves every process its number. -/
theorem of_map {f : Resident → Resident} (hn : h.IsNumbered) (hclock : h.clock ≤ h'.clock)
    (hnext : h'.nextNumber = h.nextNumber) (hresidents : h'.residents = h.residents.map f)
    (hf : ∀ r ∈ h.residents, r.Becomes (f r)) : h.Evolves h' where
  clock := hclock
  nextNumber := Nat.le_of_eq hnext.symm
  isNumbered := by
    have hnumbers : h'.numbers = h.numbers := by
      rw [numbers, numbers, hresidents, List.map_map]
      exact List.map_congr_left fun r hr => (hf r hr).number
    exact hn.of_subset (hnumbers ▸ hn.distinct) (fun n hmem => hnumbers ▸ hmem) hnext
  launched r hr _ := ⟨f r, hresidents ▸ List.mem_map_of_mem hr, hf r hr⟩

/-- Processes that come in another order. -/
theorem of_perm (hn : h.IsNumbered) (hclock : h'.clock = h.clock)
    (hnext : h'.nextNumber = h.nextNumber) (hresidents : h'.residents.Perm h.residents) :
    h.Evolves h' where
  clock := Nat.le_of_eq hclock.symm
  nextNumber := Nat.le_of_eq hnext.symm
  isNumbered :=
    have hnumbers : h'.numbers.Perm h.numbers := hresidents.map _
    hn.of_subset (hnumbers.nodup_iff.2 hn.distinct) hnumbers.subset hnext
  launched r hr _ := ⟨r, hresidents.mem_iff.2 hr, .refl r⟩

end Evolves

theorem evolves_store (hn : h.IsNumbered) (store : Store) : h.Evolves { h with store } :=
  .of_perm hn rfl rfl (.refl _)

/-- A change of the processes of a number. -/
theorem evolves_update (hn : h.IsNumbered) {f : Resident → Resident}
    (hf : ∀ r ∈ h.residents, r.context.number = n → r.Becomes (f r)) :
    h.Evolves (h.update n f) := by
  refine .of_map hn (Nat.le_refl _) rfl rfl fun r hr => ?_
  split
  · next hnumber => exact hf r hr hnumber
  · exact .refl r

/-- Whoever has a number is not at his end. -/
def IsAlive (h : Host) (n : Nat) : Prop :=
  ∀ r ∈ h.residents, r.context.number = n → r.isAlive = true

theorem IsNumbered.isAlive (hn : h.IsNumbered) (hr : r ∈ h.residents) (halive : r.isAlive = true) :
    h.IsAlive r.context.number := by
  intro r' hr' heq
  rwa [hn.unique hr' hr heq]

/-- A process that is not at its end goes on in any way. -/
theorem evolves_update_of_isAlive (hn : h.IsNumbered) (halive : h.IsAlive n)
    {f : Resident → Resident} (hf : ∀ r, r.context.number = n →
      (f r).context.number = r.context.number ∧ (f r).context.starter = r.context.starter) :
    h.Evolves (h.update n f) :=
  evolves_update hn fun r hr heq =>
    .of_isAlive (halive r hr heq) (hf r heq).1 fun hs => (hf r heq).2.trans hs

theorem sublist_map_filterMap {α β : Type} {f : α → Option α} {g : α → β} {l : List α}
    (hf : ∀ a ∈ l, ∀ b ∈ f a, g b = g a) : ((l.filterMap f).map g).Sublist (l.map g) := by
  induction l with
  | nil => exact .slnil
  | cons a l ih =>
    have hrest := ih fun b hb => hf b (List.mem_cons_of_mem a hb)
    cases ha : f a with
    | none =>
      rw [List.filterMap_cons_none ha, List.map_cons]
      exact hrest.cons _
    | some b =>
      rw [List.filterMap_cons_some ha, List.map_cons, List.map_cons,
        hf a List.mem_cons_self b ha]
      exact hrest.cons_cons _

/-- **A process comes to its end**: if it was started from outside, it stays with its ending. -/
theorem evolves_conclude (hn : h.IsNumbered) (hr : r ∈ h.residents) (halive : r.isAlive = true)
    (e : Ending) : h.Evolves (h.conclude r.context.number e) where
  clock := Nat.le_refl _
  nextNumber := Nat.le_refl _
  isNumbered := by
    have hnumbers : (h.conclude r.context.number e).numbers.Sublist h.numbers := by
      refine sublist_map_filterMap fun r' _ r'' hr'' => ?_
      -- Whether it ends, loses its starter or stays as it is, it keeps its number.
      have hsome {a : Resident} (heq : r'' ∈ some a)
          (ha : a.context.number = r'.context.number) :
          r''.context.number = r'.context.number := by
        rwa [← Option.some.inj heq]
      split at hr''
      · split at hr''
        · exact hsome hr'' rfl
        · exact absurd hr'' (by simp)
      · split at hr''
        · split at hr''
          · exact hsome hr'' rfl
          · exact absurd hr'' (by simp)
        · exact hsome hr'' rfl
    exact hn.of_subset (hn.distinct.sublist hnumbers) hnumbers.subset rfl
  launched r' hr' hs := by
    by_cases heq : r'.context.number = r.context.number
    · obtain rfl := hn.unique hr' hr heq
      refine ⟨{ r' with state := .ended e }, List.mem_filterMap.2 ⟨r', hr, ?_⟩, ?_⟩
      · simp [hn.resident?_eq hr, hs]
      · exact .of_isAlive halive rfl id
    · -- Nobody has the number of the one outside, so the process keeps its starter.
      have hstarter : outsider ≠ r.context.number :=
        Nat.ne_of_lt (hn.given _ (List.mem_map_of_mem hr)).1
      refine ⟨r', List.mem_filterMap.2 ⟨r', hr', ?_⟩, .refl r'⟩
      simp [heq, hs, hstarter]

theorem mem_of_resident? (hfind : h.resident? n = some r) :
    r ∈ h.residents ∧ r.context.number = n :=
  ⟨List.mem_of_find?_eq_some hfind, by simpa using List.find?_some hfind⟩

/-- A signal comes to a process, if it is there and not at its end. -/
theorem evolves_deliver (hn : h.IsNumbered) (number n : Nat) : h.Evolves (h.deliver number n) := by
  rw [deliver]
  split
  · exact .refl hn
  · next r hfind =>
    obtain ⟨hr, rfl⟩ := mem_of_resident? hfind
    dsimp only
    split
    · exact .refl hn
    · next hgone =>
      have halive : r.isAlive = true := by
        cases hr' : r.isAlive with
        | true => rfl
        | false => simp [hr'] at hgone
      have hupdate {f : Resident → Resident} (hf : ∀ r, (f r).context.number = r.context.number ∧
          (f r).context.starter = r.context.starter) :
          h.Evolves (h.update r.context.number f) :=
        evolves_update_of_isAlive hn (hn.isAlive hr halive) fun r _ => hf r
      split
      · exact hupdate fun _ => ⟨rfl, rfl⟩
      · split
        · exact .refl hn
        · split
          · exact hupdate fun _ => ⟨rfl, rfl⟩
          · split
            · exact .refl hn
            · exact hupdate fun _ => ⟨rfl, rfl⟩
            · exact evolves_conclude hn hr halive _

/-! ## Going on -/

/-- A process that goes on with something else. -/
theorem evolves_awake (hn : h.IsNumbered) (halive : h.IsAlive n) (state : Resident.State) :
    h.Evolves (h.update n fun r => { r with state }) :=
  evolves_update_of_isAlive hn halive fun _ _ => ⟨rfl, rfl⟩

/-- Another process begins, which has a number that nobody had. -/
theorem evolves_begin (hn : h.IsNumbered) {context : Context} (hnumber : context.number = h.nextNumber)
    (state : Resident.State) :
    h.Evolves { h with
      nextNumber := h.nextNumber + 1
      residents := h.residents ++ [{ context, state }] } where
  clock := Nat.le_refl _
  nextNumber := Nat.le_succ _
  isNumbered := by
    have hnumbers : ∀ m ∈ h.numbers, m < h.nextNumber := fun m hm => (hn.given m hm).2
    constructor
    · simp only [numbers, List.map_append, List.map_cons, List.map_nil, hnumber]
      have hdistinct := hn.distinct.concat fun hmem =>
        absurd (hnumbers h.nextNumber hmem) (Nat.lt_irrefl _)
      rwa [List.concat_eq_append] at hdistinct
    · simp only [numbers, List.map_append, List.map_cons, List.map_nil, List.mem_append,
        List.mem_singleton, hnumber]
      rintro m (hm | rfl)
      · exact ⟨(hn.given m hm).1, Nat.lt_succ_of_lt (hn.given m hm).2⟩
      · exact ⟨hn.next, Nat.lt_succ_self _⟩
    · exact Nat.lt_succ_of_lt hn.next
  launched r hr _ := ⟨r, List.mem_append_left _ hr, .refl r⟩

/-- A process that was started by another one is taken away. -/
theorem evolves_takeAway (hn : h.IsNumbered) (hr : r ∈ h.residents)
    (hs : r.context.starter ≠ outsider) : h.Evolves { h with
      residents := h.residents.filter fun r' => r'.context.number != r.context.number } where
  clock := Nat.le_refl _
  nextNumber := Nat.le_refl _
  isNumbered :=
    have hnumbers := List.filter_sublist.map fun r : Resident => r.context.number
    hn.of_subset (hn.distinct.sublist hnumbers) hnumbers.subset rfl
  launched r' hr' hs' := by
    refine ⟨r', List.mem_filter.2 ⟨hr', ?_⟩, .refl r'⟩
    rw [bne_iff_ne]
    intro heq
    exact hs ((hn.unique hr' hr heq) ▸ hs')

/-- Who is waited for was started by the one who waits. -/
theorem starter_of_awaiting {c : Context} {asked : Option Nat} {w : Waiting}
    (h' : h.awaiting c asked w = some (.ended n e)) :
    ∃ r ∈ h.residents, r.context.number = n ∧ r.context.starter = c.number := by
  rw [awaiting] at h'
  split at h'
  · next a hfound =>
    obtain rfl := Option.some.inj h'
    obtain ⟨r, hr, hstate⟩ := List.exists_of_findSome?_eq_some hfound
    obtain ⟨hmem, hstarter⟩ := List.mem_filter.1 hr
    rw [Bool.and_eq_true, beq_iff_eq] at hstarter
    split at hstate
    · obtain ⟨rfl, -⟩ := Awaited.ended.inj (Option.some.inj hstate)
      exact ⟨r, hmem, rfl, hstarter.1⟩
    · exact absurd hstate (by simp)
  · split at h'
    · exact absurd h' (by simp)
    · split at h' <;> exact absurd h' (by simp)

/-- **One process goes on** with what it asks for next. -/
theorem evolves_go (hn : h.IsNumbered) (hr : r ∈ h.residents) : h.Evolves (h.go r) := by
  obtain ⟨context, state, isStopped⟩ := r
  cases state with
  | asleep _ _ | ended _ | busy => exact .refl hn
  | awake p =>
    have halive : h.IsAlive context.number := hn.isAlive hr rfl
    have hawake (state : Resident.State) := evolves_awake hn halive state
    -- What is shared may change before the process goes on.
    have hstored (store : Store) (state : Resident.State) : h.Evolves
        (({ h with store } : Host).update context.number fun r => { r with state }) :=
      (evolves_store hn store).trans (evolves_awake (evolves_store hn store).isNumbered halive _)
    cases p with
    | ended e => exact evolves_conclude hn hr rfl e
    | spinning | look _ | sleep _ _ => exact hawake _
    | pause next =>
      refine (hawake (.awake (next ()))).trans (.of_perm (hawake _).isNumbered rfl rfl ?_)
      simp only [go, List.partition_eq_filter_filter]
      exact List.perm_append_comm.trans (List.filter_append_perm _ _)
    | change v next =>
      have hstore := evolves_store hn v.store
      refine hstore.trans (evolves_update_of_isAlive hstore.isNumbered halive fun r hr => ?_)
      exact ⟨hr.symm, rfl⟩
    | read channel limit next =>
      simp only [go]
      split
      · exact hstored _ _
      · exact .refl hn
    | write channel bs next =>
      simp only [go]
      split
      · exact .refl hn
      · next store answer _ =>
        have hwritten := hstored store (.awake (next answer))
        split
        · exact hwritten.trans (evolves_deliver hwritten.isNumbered _ _)
        · exact hwritten
    | fork child next =>
      let begun : Context := { context with
        number := h.nextNumber, starter := context.number, caught := [], pending := [] }
      have hbegun := evolves_begin hn (rfl : begun.number = h.nextNumber) (.awake child)
      have halive' := hbegun.isNumbered.isAlive (List.mem_append_left _ hr) rfl
      exact hbegun.trans (evolves_awake hbegun.isNumbered halive' _)
    | await asked w next =>
      simp only [go]
      split
      · exact .refl hn
      · next answer hanswer =>
        split
        · next number e =>
          obtain ⟨r', hr', rfl, hstarter⟩ := starter_of_awaiting hanswer
          have hgiven := (hn.given _ (List.mem_map_of_mem hr)).1
          have htaken := evolves_takeAway hn hr' (hstarter ▸ (Nat.ne_of_lt hgiven).symm)
          exact htaken.trans (evolves_awake htaken.isNumbered
            (fun r hmem => halive r (List.mem_of_mem_filter hmem)) _)
        · exact hawake _
    | signal target n next =>
      simp only [go]
      generalize hfound : (!(List.map _ _).isEmpty) = isFound
      generalize List.map (fun s : Resident => s.context.number) _ = targets
      have hsent := hawake (.awake (next isFound))
      clear hfound
      generalize h.update context.number _ = h₁ at hsent ⊢
      induction targets generalizing h₁ with
      | nil => exact hsent
      | cons number targets ih => exact ih _ (hsent.trans (evolves_deliver hsent.isNumbered _ _))

/-- Who has something to do is not at his end. -/
theorem isAlive_of_canGo (hgo : h.canGo r = true) : r.isAlive = true := by
  obtain ⟨context, state, isStopped⟩ := r
  cases state with
  | ended e => simp [canGo] at hgo
  | awake | asleep | busy => rfl

theorem evolves_giveUp (hn : h.IsNumbered) : h.Evolves h.giveUp := by
  refine .of_map hn (Nat.le_refl _) rfl rfl fun r hr => ?_
  split
  · next hgo => exact .of_isAlive (isAlive_of_canGo hgo) rfl id
  · exact .refl r

theorem evolves_settleGo (hn : h.IsNumbered) (fuel : Nat) : h.Evolves (settleGo fuel h) := by
  induction fuel generalizing h with
  | zero => exact evolves_giveUp hn
  | succ fuel ih =>
    rw [settleGo]
    split
    · next r hfind =>
      have hgone := evolves_go hn (List.mem_of_find?_eq_some hfind)
      exact hgone.trans (ih hgone.isNumbered)
    · exact .refl hn

/-- **All processes go on** as far as they can at a moment. -/
theorem evolves_settle (hn : h.IsNumbered) : h.Evolves h.settle := evolves_settleGo hn patience

theorem evolves_moveTo (hn : h.IsNumbered) (t : Nat) : h.Evolves (h.moveTo t) := by
  refine .of_map hn (Nat.le_max_left _ _) rfl rfl fun r hr => ?_
  obtain ⟨context, state, isStopped⟩ := r
  cases state with
  | asleep u next =>
    dsimp only
    split
    · exact .of_isAlive rfl rfl id
    · exact .refl _
  | awake | ended | busy => exact .refl _

theorem evolves_runUntilGo (hn : h.IsNumbered) (hasHappened : Host → Bool)
    (deadline : Option Nat) (fuel : Nat) :
    h.Evolves (runUntilGo hasHappened deadline fuel h) := by
  induction fuel generalizing h with
  | zero => exact .refl hn
  | succ fuel ih =>
    have hsettled := evolves_settle hn
    have hmoved (t : Nat) := hsettled.trans (evolves_moveTo hsettled.isNumbered t)
    simp only [runUntilGo]
    split
    · exact hsettled
    · split
      · exact hsettled
      · exact hmoved _
      · exact (hmoved _).trans (ih (hmoved _).isNumbered)
      · split
        · exact hmoved _
        · exact (hmoved _).trans (ih (hmoved _).isNumbered)

/-- **Time goes by**, and whatever is done meanwhile, what should last does. -/
theorem evolves_runUntil (hn : h.IsNumbered) (hasHappened : Host → Bool)
    (deadline : Option Nat) : h.Evolves (h.runUntil hasHappened deadline) :=
  evolves_runUntilGo hn hasHappened deadline manyMoments

/-! ## Time -/

theorem clock_deliver (h : Host) (number n : Nat) : (h.deliver number n).clock = h.clock := by
  simp only [deliver]
  repeat' split
  all_goals rfl

theorem clock_deliverAll (h : Host) (numbers : List Nat) (n : Nat) :
    (numbers.foldl (fun h number => h.deliver number n) h).clock = h.clock := by
  induction numbers generalizing h with
  | nil => rfl
  | cons number numbers ih => exact (ih _).trans (clock_deliver h number n)

/-- No time goes by while processes go on. -/
theorem clock_go (h : Host) (r : Resident) : (h.go r).clock = h.clock := by
  obtain ⟨context, state, isStopped⟩ := r
  cases state with
  | asleep _ _ | ended _ | busy => rfl
  | awake p =>
    cases p with
    | ended | spinning | look | sleep | pause | change | fork => rfl
    | read channel limit next =>
      simp only [go]
      split <;> rfl
    | write channel bs next =>
      simp only [go]
      split
      · rfl
      · split
        · exact clock_deliver _ _ _
        · rfl
    | await asked w next =>
      simp only [go]
      split
      · rfl
      · split <;> rfl
    | signal target n next => exact clock_deliverAll _ _ n

theorem clock_settle (h : Host) : h.settle.clock = h.clock := by
  have hgo (fuel : Nat) : (settleGo fuel h).clock = h.clock := by
    induction fuel generalizing h with
    | zero => rfl
    | succ fuel ih =>
      rw [settleGo]
      split
      · exact (ih _).trans (clock_go h _)
      · rfl
  exact hgo patience

theorem clock_runUntilGo_le (h : Host) (hasHappened : Host → Bool) (deadline fuel : Nat) :
    (runUntilGo hasHappened (some deadline) fuel h).clock ≤ max h.clock deadline := by
  induction fuel generalizing h with
  | zero => exact Nat.le_max_left _ _
  | succ fuel ih =>
    have hsettled := clock_settle h
    have hmoved (t : Nat) : (h.settle.moveTo t).clock = max h.clock t :=
      congrArg (max · t) hsettled
    simp only [runUntilGo]
    split
    · omega
    · split
      · omega
      · next hd =>
        obtain rfl := Option.some.inj hd
        exact Nat.le_of_eq (hmoved _)
      · next hd => exact absurd hd (by simp)
      · next t d _ hd =>
        obtain rfl := Option.some.inj hd
        split
        · exact Nat.le_of_eq (hmoved _)
        · next hle =>
          have hrest := ih (h.settle.moveTo t)
          rw [hmoved] at hrest
          omega

/-- **No deadline is passed**, unless it was past already. -/
theorem clock_runUntil_le (h : Host) (hasHappened : Host → Bool) (deadline : Nat) :
    (h.runUntil hasHappened (some deadline)).clock ≤ max h.clock deadline :=
  clock_runUntilGo_le h hasHappened deadline manyMoments

/-! ## Starting from outside -/

/-- **A process that is started from outside** has a number of its own, and is launched. -/
theorem evolves_start (hn : h.IsNumbered) (context : Context) (t : Course Ending) :
    h.Evolves (h.start context t).1 ∧ (h.start context t).2 = h.nextNumber ∧
      (h.start context t).1.HasLaunched h.nextNumber := by
  let begun : Context := { context with number := h.nextNumber, starter := outsider }
  refine ⟨evolves_begin hn (rfl : begun.number = h.nextNumber) (.awake t.toProcess), rfl, ?_⟩
  exact ⟨_, List.mem_append_right _ List.mem_cons_self, rfl, rfl⟩

end Lasting

end Host

end FolderTasks.Machine
