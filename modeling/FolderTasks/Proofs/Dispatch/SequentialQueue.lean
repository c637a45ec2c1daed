import FolderTasks.Proofs.Dispatch.SoleQueue
import Mathlib.Data.List.Basic
/-!
# One queue is a sequential server

A queue that is the only user of a task manager serves its requests as a plan says: each begins when
it comes or when the one before it is over, whatever jobs, timers and tokens do in between.  This is
true of every punctual run in which nothing goes wrong, in whatever order things happen that fall
together; and whatever the requests and their cancellations are, there is such a run.

## Main definitions

* `Schedule`: requests with the moments at which their tokens are cancelled.
* `Input`, `Schedule.agenda`: what the user does then, one after the other.
* `World.HasTaken`: a run has taken some inputs of the user.

## Main statements

* `World.HasTaken.settle`: a run goes on as far as it can, up to a given moment.
* `Schedule.exists_run`: every schedule can be carried out.
* `Server.serves_schedule`: every run that carries out a schedule fulfils a plan of its requests, and
  there is one.
* `Server.not_fulfils_plan`: that need not be the plan in which all ties are won by what comes first.

## Design notes

Two requests may share a token.  When it is cancelled while the first of them runs, the second one
gets its turn at the very moment of the cancellation, and is not started because the token is
cancelled by then.  So a plan has to leave it open who wins such a tie.
-/

namespace FolderTasks.Dispatch

/-- **A schedule**: what is requested, in the order of the moments, and when each token is cancelled. -/
structure Schedule where
  requests : List Request
  ordered : requests.Pairwise fun r r' => r.instant ≤ r'.instant
  /-- What is said of the cancellation of one token is the same everywhere. -/
  tokens : ∀ r ∈ requests, ∀ r' ∈ requests, ∀ t ∈ r.token, ∀ t' ∈ r'.token, t.1 = t'.1 → t = t'

/-- What the user does at a moment. -/
inductive Input where
  | ask (r : Request)
  | cancel (token : String) (instant : Nat)

namespace Input

def instant : Input → Nat
  | .ask r => r.instant
  | .cancel _ c => c

/-- What the user chooses to do. -/
def choice : Input → Choice
  | .ask r => .act (.act (.request "" r.operation r.tokenName ""))
  | .cancel x _ => .act (.act (.cancel x))

/-- What is asked for. -/
def ask? : Input → Option Ask
  | .ask r => some ⟨r.instant, r.operation, r.tokenName⟩
  | .cancel _ _ => none

/-- When a token is cancelled. -/
def cancelOf? (x : String) : Input → Option Nat
  | .ask _ => none
  | .cancel y c => if y = x then some c else none

theorem cancelOf?_eq_some {x : String} {e : Input} {c : Nat} :
    e.cancelOf? x = some c ↔ e = .cancel x c := by
  cases e with
  | ask r => simp [cancelOf?]
  | cancel y c' =>
    rw [cancelOf?]
    split
    · next h => simp [h]
    · next h => simp [h]

/-- One input comes no later than another one. -/
def le (e e' : Input) : Bool := decide (e.instant ≤ e'.instant)

theorem le_trans (a b c : Input) (h : a.le b) (h' : b.le c) : a.le c :=
  decide_eq_true (Nat.le_trans (of_decide_eq_true h) (of_decide_eq_true h'))

theorem le_total (a b : Input) : (a.le b || b.le a) = true := by
  rw [Bool.or_eq_true]
  exact (Nat.le_total a.instant b.instant).imp decide_eq_true decide_eq_true

end Input

/-! ## What the user does -/

namespace Schedule

variable (S : Schedule)

/-- The requests, and the cancellations of their tokens. -/
def inputs : List Input :=
  S.requests.map .ask ++
    S.requests.filterMap fun r => r.token.bind fun t => t.2.map (Input.cancel t.1)

/-- **What the user does**, in the order of the moments. -/
def agenda : List Input := S.inputs.mergeSort Input.le

theorem pairwise_agenda : S.agenda.Pairwise fun e e' => e.instant ≤ e'.instant :=
  (List.pairwise_mergeSort Input.le_trans Input.le_total S.inputs).imp of_decide_eq_true

theorem cancel_mem_agenda {x : String} {c : Nat} :
    .cancel x c ∈ S.agenda ↔ ∃ r ∈ S.requests, r.token = some (x, some c) := by
  rw [agenda, List.mem_mergeSort, inputs, List.mem_append, List.mem_filterMap]
  constructor
  · rintro (hask | ⟨r, hr, hcancel⟩)
    · obtain ⟨r, -, heq⟩ := List.mem_map.1 hask
      exact absurd heq (by simp)
    · obtain ⟨⟨y, c'⟩, ht, hcancel⟩ := Option.bind_eq_some_iff.1 hcancel
      obtain ⟨c'', rfl, heq⟩ := Option.map_eq_some_iff.1 hcancel
      obtain ⟨rfl, rfl⟩ := Input.cancel.inj heq
      exact ⟨r, hr, ht⟩
  · rintro ⟨r, hr, ht⟩
    exact .inr ⟨r, hr, by rw [ht]; rfl⟩

/-- The requests are made in the order of the schedule. -/
theorem asked_agenda :
    S.agenda.filterMap Input.ask? = S.requests.map fun r => ⟨r.instant, r.operation, r.tokenName⟩ := by
  have hinputs : S.inputs.filterMap Input.ask? =
      S.requests.map fun r => ⟨r.instant, r.operation, r.tokenName⟩ := by
    have hcancels : (S.requests.filterMap fun r =>
        r.token.bind fun t => t.2.map (Input.cancel t.1)).filterMap Input.ask? = [] := by
      refine List.filterMap_eq_nil_iff.2 fun e he => ?_
      obtain ⟨r, -, hcancel⟩ := List.mem_filterMap.1 he
      obtain ⟨t, -, hcancel⟩ := Option.bind_eq_some_iff.1 hcancel
      obtain ⟨c, -, rfl⟩ := Option.map_eq_some_iff.1 hcancel
      rfl
    rw [inputs, List.filterMap_append, hcancels, List.append_nil, List.filterMap_map]
    exact congrFun List.filterMap_eq_map S.requests
  -- The requests are in order, so they keep it when the inputs are sorted.
  have hsub : (S.requests.map Input.ask).Sublist S.agenda := by
    refine List.sublist_mergeSort Input.le_trans Input.le_total ?_ (List.sublist_append_left _ _)
    exact List.pairwise_map.2 (S.ordered.imp decide_eq_true)
  have hsame : (S.requests.map Input.ask).filterMap Input.ask? =
      S.requests.map fun r => ⟨r.instant, r.operation, r.tokenName⟩ := by
    rw [List.filterMap_map]
    exact congrFun List.filterMap_eq_map S.requests
  have hlength := ((List.mergeSort_perm S.inputs Input.le).filterMap Input.ask?).length_eq
  rw [hinputs, ← hsame] at hlength
  rw [← hsame]
  exact ((hsub.filterMap Input.ask?).eq_of_length hlength.symm).symm

/-- A token is cancelled when the schedule says. -/
theorem cancelled_agenda {r : Request} (hr : r ∈ S.requests) {x : String} {c : Option Nat}
    (ht : r.token = some (x, c)) : S.agenda.findSome? (Input.cancelOf? x) = c := by
  have hsame {r' : Request} (hr' : r' ∈ S.requests) {c' : Option Nat}
      (ht' : r'.token = some (x, c')) : c' = c :=
    congrArg Prod.snd (S.tokens r' hr' r hr _ ht' _ ht rfl)
  cases hfound : S.agenda.findSome? (Input.cancelOf? x) with
  | some c' =>
    obtain ⟨e, he, hcancel⟩ := List.exists_of_findSome?_eq_some hfound
    obtain rfl := Input.cancelOf?_eq_some.1 hcancel
    obtain ⟨r', hr', ht'⟩ := S.cancel_mem_agenda.1 he
    exact hsame hr' ht'
  | none =>
    cases c with
    | none => rfl
    | some c =>
      have hnone := List.findSome?_eq_none_iff.1 hfound _ (S.cancel_mem_agenda.2 ⟨r, hr, ht⟩)
      exact absurd hnone (by simp [Input.cancelOf?])

end Schedule

/-! ## Runs that take inputs -/

/-- What is given to the world of a server beforehand. -/
def Server.setting (v : Server) : Setting where
  fallback := v.fallback
  scripts := v.scripts
  startDelay := v.startDelay

namespace World

/-- **A run has taken some inputs** on its queue. -/
structure HasTaken (v : Server) (inputs : List Input) (log : List (World × Choice)) (w : World) :
    Prop where
  runs : Runs v.setting log w
  serving : w.IsServing
  asked : asksOn 0 log = inputs.filterMap Input.ask?
  cancelled : ∀ x, cancelledAt? log w x = inputs.findSome? (Input.cancelOf? x)

section Taking

variable {v : Server} {inputs : List Input} {log : List (World × Choice)} {w w' : World}

/-- What is found cancelled after one more choice. -/
theorem cancelledAt?_append (log : List (World × Choice)) (w w' : World) (c : Choice) (x : String) :
    cancelledAt? (log ++ [(w, c)]) w' x =
      (cancelledAt? log w x).or (if w'.isCancelled (some x) then some w'.clock else none) := by
  rw [cancelledAt?, cancelledAt?, List.map_append, List.map_singleton, List.find?_append,
    Option.map_or, List.find?_singleton]
  congr 1
  rw [isCancelled]
  split <;> rfl

theorem cancelled_of_isCancelled (h : w.isCancelled (some x)) (log : List (World × Choice)) :
    (cancelledAt? log w x).isSome := by
  rw [cancelledAt?, Option.isSome_map, List.find?_isSome]
  exact ⟨w, List.mem_append_right _ (List.mem_singleton_self w), h⟩

namespace HasTaken

/-- **One more choice**, by which some inputs are taken. -/
theorem next (h : HasTaken v inputs log w) {c : Choice} (hdoes : Does w c w')
    (hreserved : c.IsReserved) (hpunctual : w.IsPunctual w') (hserving : w'.IsServing)
    (more : List Input) (hask : ((ask? 0 (w, c)).map Prod.fst).toList = more.filterMap Input.ask?)
    (hcancel : ∀ x, w'.isCancelled (some x) =
      (w.isCancelled (some x) || (more.findSome? (Input.cancelOf? x)).isSome))
    (hmoment : ∀ e ∈ more, e.instant = w'.clock) :
    HasTaken v (inputs ++ more) (log ++ [(w, c)]) w' where
  runs := h.runs.next hdoes hreserved hpunctual
  serving := hserving
  asked := by rw [asksOn_append, hask, h.asked, List.filterMap_append]
  cancelled x := by
    rw [cancelledAt?_append, List.findSome?_append, ← h.cancelled]
    cases hold : cancelledAt? log w x with
    | some c => rfl
    | none =>
      have hfresh : w.isCancelled (some x) = false := by
        refine Bool.eq_false_iff.2 fun hc => ?_
        have hsome := cancelled_of_isCancelled hc log
        rw [hold] at hsome
        exact Bool.noConfusion hsome
      rw [Option.none_or, Option.none_or, hcancel, hfresh, Bool.false_or]
      cases hfound : more.findSome? (Input.cancelOf? x) with
      | none => rfl
      | some c =>
        obtain ⟨e, he, hcancels⟩ := List.exists_of_findSome?_eq_some hfound
        obtain rfl := Input.cancelOf?_eq_some.1 hcancels
        exact congrArg some (hmoment _ he).symm

/-- A choice by which nothing is taken. -/
theorem next_idle (h : HasTaken v inputs log w) {c : Choice} (hdoes : Does w c w')
    (hreserved : c.IsReserved) (hpunctual : w.IsPunctual w') (hserving : w'.IsServing)
    (hask : w.demand? c = none)
    (hcancel : ∀ x, w'.isCancelled (some x) = w.isCancelled (some x)) :
    HasTaken v inputs (log ++ [(w, c)]) w' := by
  have hnone : ask? 0 (w, c) = none := by simp only [ask?, hask]
  have hnext := h.next hdoes hreserved hpunctual hserving [] (by rw [hnone]; rfl)
    (fun x => by rw [hcancel]; exact (Bool.or_false _).symm) (by simp)
  rwa [List.append_nil] at hnext

/-! ### Moves -/

/-- The turn of an operation requests nothing. -/
theorem demand?_turn (h : w.IsServing) (j : JobId) : w.demand? (.turn j) = none := by
  simp only [demand?]
  split
  · next hjob =>
    obtain ⟨e, herrand⟩ := h.operations ⟨false, hjob⟩
    exact absurd herrand (by simp)
  · rfl

theorem turn (h : HasTaken v inputs log w) {j : JobId} (hj : j ∈ w.ready) :
    ∃ log', HasTaken v inputs log' (w.takeTurn j) := by
  have hm := Move.turn j hj
  have hclock : (w.takeTurn j).clock = w.clock :=
    (turn_spares { w with ready := w.ready.erase j } j).clock
  refine ⟨_, h.next_idle (.turn j hj) trivial ?_ (hm.isServing h.serving)
    (demand?_turn h.serving j) fun x => hm.isCancelled h.serving (some x)⟩
  exact fun hlt => absurd hclock (Nat.ne_of_gt hlt)

theorem fire (h : HasTaken v inputs log w) {t : Timer} {rest : List Timer} (hready : w.ready = [])
    (ht : w.timers = t :: rest) : ∃ log', HasTaken v inputs log' (w.fire t) := by
  have hm := Move.fire t rest hready ht
  have hclock : (w.fire t).clock = max w.clock t.deadline := by
    obtain ⟨timers, ready, heq⟩ := fire_eq w t
    rw [heq]
  refine ⟨_, h.next_idle (.fire t (by rw [ht]; exact List.mem_cons_self)) trivial ?_
    (hm.isServing h.serving) rfl fun x => hm.isCancelled h.serving (some x)⟩
  intro hlt
  refine ⟨hready, fun u hu => ?_⟩
  have hle : t.deadline ≤ u.deadline := by
    have hsorted := h.serving.timers
    rw [ht] at hu hsorted
    rcases List.mem_cons.1 hu with rfl | hu
    · exact Nat.le_refl _
    · exact (List.pairwise_cons.1 hsorted).1 u hu
  rw [hclock] at hlt ⊢
  omega

theorem pass (h : HasTaken v inputs log w) {moment : Nat} (hle : w.clock ≤ moment)
    (hready : w.ready = []) (htimers : ∀ t ∈ w.timers, moment ≤ t.deadline) :
    ∃ log', HasTaken v inputs log' { w with clock := moment } :=
  ⟨_, h.next_idle (.pass moment hle) trivial (fun _ => ⟨hready, htimers⟩) (h.serving.pass moment)
    rfl fun _ => rfl⟩

/-- **A run goes on as far as it can**, up to a given moment if there is one. -/
theorem settle (h : HasTaken v inputs log w) (limit : Option Nat) (hle : ∀ l ∈ limit, w.clock ≤ l) :
    ∃ log' w', HasTaken v inputs log' w' ∧ w'.ready = [] ∧ (∀ l ∈ limit, w'.clock ≤ l) ∧
      ∀ t ∈ w'.timers, ∃ l ∈ limit, l < t.deadline := by
  -- By induction on the moves that are left; there is an end to them since nothing more is requested.
  induction h.serving.acc h.runs.reachable generalizing log with
  | intro w _ ih =>
    cases hready : w.ready with
    | cons j ready =>
      have hj : j ∈ w.ready := by rw [hready]; exact List.mem_cons_self
      obtain ⟨log', h'⟩ := h.turn hj
      have hclock : (w.takeTurn j).clock = w.clock :=
        (turn_spares { w with ready := w.ready.erase j } j).clock
      exact ih _ (Move.turn j hj) h' (hclock.symm ▸ hle)
    | nil =>
      cases htimers : w.timers with
      | nil => exact ⟨log, w, h, hready, hle, by simp [htimers]⟩
      | cons t rest =>
        by_cases hdue : ∀ l ∈ limit, t.deadline ≤ l
        · obtain ⟨log', h'⟩ := h.fire hready htimers
          have hclock : (w.fire t).clock = max w.clock t.deadline := by
            obtain ⟨timers, ready, heq⟩ := fire_eq w t
            rw [heq]
          refine ih _ (Move.fire t rest hready htimers) h' fun l hl => ?_
          rw [hclock]
          exact Nat.max_le.2 ⟨hle l hl, hdue l hl⟩
        · simp only [not_forall, Nat.not_le] at hdue
          obtain ⟨l, hl, hlt⟩ := hdue
          refine ⟨log, w, h, hready, hle, fun u hu => ⟨l, hl, ?_⟩⟩
          have hsorted := h.serving.timers
          rw [htimers] at hu hsorted
          rcases List.mem_cons.1 hu with rfl | hu
          · exact hlt
          · exact Nat.lt_of_lt_of_le hlt ((List.pairwise_cons.1 hsorted).1 u hu)

/-- A run can go on to any moment. -/
theorem exists_at (h : HasTaken v inputs log w) {moment : Nat} (hle : w.clock ≤ moment) :
    ∃ log' w', HasTaken v inputs log' w' ∧ w'.clock = moment := by
  obtain ⟨log', w', h', hready, hle', hlater⟩ := h.settle (some moment)
    (fun l hl => Option.some.inj hl ▸ hle)
  obtain ⟨log'', h''⟩ := h'.pass (hle' moment rfl) hready fun t ht => by
    obtain ⟨l, hl, hlt⟩ := hlater t ht
    exact Option.some.inj hl ▸ Nat.le_of_lt hlt
  exact ⟨log'', _, h'', rfl⟩

/-! ### Inputs -/

/-- **A run takes an input** when its moment has come. -/
theorem take (h : HasTaken v inputs log w) {e : Input} (hclock : w.clock = e.instant) :
    ∃ log' w', HasTaken v (inputs ++ [e]) log' w' ∧ w'.clock = e.instant := by
  have hspares {s : Step} (hs : s.isInstant) : (w.step s).1.clock = w.clock :=
    (instant_spares w hs).clock
  cases e with
  | ask r =>
    have hdoes : Does w (Input.ask r).choice _ := .act _ rfl
    have hsame := hspares (s := .act (.request "" r.operation r.tokenName "")) rfl
    refine ⟨_, _, h.next hdoes ⟨by simp, fun _ _ _ heq => absurd heq (by simp)⟩
      (fun hlt => absurd hsame (Nat.ne_of_gt hlt)) (h.serving.request _ _ _) [.ask r] ?_
      (fun x => ?_) ?_, hsame.trans hclock⟩
    · simp only [ask?, Input.choice, demand?, h.serving.named, Option.map_some]
      exact congrArg (fun t => [Ask.mk t r.operation r.tokenName]) hclock
    · refine (isCancelled_of_tokens ?_ (some x)).trans (Bool.or_false _).symm
      exact tokens_perform_request w r.operation r.tokenName ""
    · intro e he
      rw [List.mem_singleton.1 he]
      exact (hsame.trans hclock).symm
  | cancel x c =>
    have hdoes : Does w (Input.cancel x c).choice _ := .act _ rfl
    have hsame := hspares (s := .act (.cancel x)) rfl
    refine ⟨_, _, h.next hdoes ⟨by simp, fun _ _ _ heq => absurd heq (by simp)⟩
      (fun hlt => absurd hsame (Nat.ne_of_gt hlt)) (h.serving.cancel x) [.cancel x c] rfl
      (fun y => ?_) ?_, hsame.trans hclock⟩
    · refine (isCancelled_cancel w x y).trans (congrArg (w.isCancelled (some y) || ·) ?_)
      by_cases hxy : x = y <;> simp [Input.cancelOf?, hxy]
    · intro e he
      rw [List.mem_singleton.1 he]
      exact (hsame.trans hclock).symm

/-- The world with the queue, in which nothing was requested. -/
theorem exists_start (v : Server) : ∃ log w, HasTaken v [] log w ∧ w.clock = 0 := by
  have hdoes : Does v.setting.world (.act (.act (.makeQueue "" ""))) _ := .act _ rfl
  refine ⟨_, _, ⟨Runs.new.next hdoes ⟨by simp, fun _ _ _ heq => absurd heq (by simp)⟩
    (fun hlt => absurd hlt (Nat.lt_irrefl 0)), ⟨rfl, ⟨?_, rfl⟩, rfl, rfl, ?_, ?_⟩, rfl,
    fun x => rfl⟩, rfl⟩
  · exact fun x hx => absurd hx List.not_mem_nil
  · rintro j errand p ⟨given, hj⟩
    exact absurd hj (by simp [step, perform, makeQueue, nameQueue, Server.setting, Setting.world])
  · exact List.Pairwise.nil

/-- **Whatever the user does, one after the other, there is a run that takes it.** -/
theorem exists_run (v : Server) (hinputs : inputs.Pairwise fun e e' => e.instant ≤ e'.instant) :
    ∃ log w, HasTaken v inputs log w ∧ ∀ l, (∀ e ∈ inputs, e.instant ≤ l) → w.clock ≤ l := by
  induction inputs using List.reverseRecOn with
  | nil =>
    obtain ⟨log, w, h, hclock⟩ := exists_start v
    exact ⟨log, w, h, fun l _ => hclock ▸ Nat.zero_le l⟩
  | append_singleton inputs e ih =>
    obtain ⟨hbefore, -, hlast⟩ := List.pairwise_append.1 hinputs
    obtain ⟨log, w, h, hclock⟩ := ih hbefore
    have hle := hclock e.instant fun e' he' => hlast e' he' e (List.mem_singleton_self e)
    obtain ⟨log₁, w₁, h₁, hclock₁⟩ := h.exists_at hle
    obtain ⟨log₂, w₂, h₂, hclock₂⟩ := h₁.take hclock₁
    refine ⟨log₂, w₂, h₂, fun l hl => ?_⟩
    rw [hclock₂]
    exact hl e (List.mem_append_right _ (List.mem_singleton_self e))

end HasTaken

end Taking

end World

/-! ## Main statements -/

open World

/-- **Every schedule can be carried out** by a run that is complete. -/
theorem Schedule.exists_run (S : Schedule) (v : Server) : ∃ log w, Completes v.setting 0 log w ∧
    askedOn (cancelledAt? log w) 0 log = S.requests := by
  obtain ⟨log, w, h, -⟩ := HasTaken.exists_run v S.pairwise_agenda
  obtain ⟨log', w', h', hready, -, htimers⟩ := h.settle none (by simp)
  refine ⟨log', w', ⟨⟨rfl, by simp [Server.setting]⟩, h'.runs, h'.serving.untroubled,
    h'.serving.isSoleUser h'.runs.reachable.arises, hready, ?_⟩, ?_⟩
  · refine List.eq_nil_iff_forall_not_mem.2 fun t ht => ?_
    obtain ⟨l, hl, -⟩ := htimers t ht
    exact absurd hl (by simp)
  · rw [askedOn, h'.asked, S.asked_agenda, List.map_map]
    refine (List.map_congr_left fun r hr => ?_).trans (List.map_id S.requests)
    have htoken : (r.tokenName.map fun x => (x, cancelledAt? log' w' x)) = r.token := by
      cases ht : r.token with
      | none => simp [Request.tokenName, ht]
      | some t =>
        obtain ⟨x, c⟩ := t
        simp [Request.tokenName, ht, h'.cancelled, S.cancelled_agenda hr ht]
    obtain ⟨instant, operation, token⟩ := r
    exact congrArg (Request.mk instant operation) htoken

/-- **One queue is a sequential server.**  There is a run that carries out a schedule of requests and
cancellations; and every such run fulfils a plan of the requests, which is the one of the recurrence
unless things fall together in that one of which the order matters. -/
theorem Server.serves_schedule (v : Server) (S : Schedule) :
    (∃ s log w, s.server = v ∧ Completes s 0 log w ∧
      askedOn (cancelledAt? log w) 0 log = S.requests) ∧
    ∀ (s : Setting) (q : QueueId) (log : List (World × Choice)) (w : World), s.server = v →
      Completes s q log w → askedOn (cancelledAt? log w) q log = S.requests →
      ∃ P, v.Plans S.requests P ∧ w.Fulfils q log P ∧
        ((v.plan S.requests).IsUntied v S.requests → P = v.plan S.requests) := by
  constructor
  · obtain ⟨log, w, hcompletes, hasked⟩ := S.exists_run v
    exact ⟨v.setting, log, w, rfl, hcompletes, hasked⟩
  · rintro s q log w rfl hcompletes hasked
    rw [← hasked]
    exact hcompletes.exists_plan

/-- **Two requests share a token.**  It is cancelled when the first one runs; then the second one gets
its turn, finds the token cancelled and is not started.  By the recurrence it would be started and
interrupted at once. -/
theorem Server.not_fulfils_plan : ∃ (v : Server) (S : Schedule) (s : Setting)
    (log : List (World × Choice)) (w : World), s.server = v ∧ Completes s 0 log w ∧
      askedOn (cancelledAt? log w) 0 log = S.requests ∧
      ¬ w.Fulfils 0 log (v.plan S.requests) := by
  let op (a : String) : Operation := { command := ⟨"p", [a], none, .empty, none⟩ }
  have h₀ : Runs { fallback := { delay := 1000 } } [] _ := .new
  have h₁ := h₀.next (.act (.act (.makeQueue "q" "Q")) rfl)
    (isReserved_act (by simp) (by simp)) (by decide +kernel)
  have h₂ := h₁.next (.act (.act (.request "q" (op "a") (some "x") "a")) rfl)
    (isReserved_act (by simp) (by simp)) (by decide +kernel)
  have h₃ := h₂.next (.act (.act (.request "q" (op "b") (some "x") "b")) rfl)
    (isReserved_act (by simp) (by simp)) (by decide +kernel)
  have h₄ := h₃.next (.turn 0 (by decide +kernel)) trivial (by decide +kernel)
  have h₅ := h₄.next (.pass 500 (by decide +kernel)) trivial (by decide +kernel)
  have h₆ := h₅.next (.act (.act (.cancel "x")) rfl) (isReserved_act (by simp) (by simp))
    (by decide +kernel)
  have h₇ := h₆.next (.turn 0 (by decide +kernel)) trivial (by decide +kernel)
  have h₈ := h₇.next (.turn 1 (by decide +kernel)) trivial (by decide +kernel)
  have h : Completes _ 0 _ _ := ⟨⟨rfl, by simp⟩, h₈,
    isUntroubled_of_all (by decide +kernel) (by decide +kernel),
    isSoleUser_of_all (by decide +kernel), by decide +kernel, by decide +kernel⟩
  refine ⟨_, ⟨[⟨0, op "a", some ("x", some 500)⟩, ⟨0, op "b", some ("x", some 500)⟩],
    by decide +kernel, by decide +kernel⟩, _, _, _, rfl, h, by decide +kernel, fun hfulfils => ?_⟩
  let started : Service :=
    ⟨⟨0, op "b", some ("x", some 500)⟩, 500, 500, .cancelled, some ⟨500, 500, true⟩⟩
  have hfate := (hfulfils.performs (k := 1) (S := started) (e := 1) (by decide +kernel)
    (by decide +kernel)).fate
  exact absurd hfate (by decide +kernel)

end FolderTasks.Dispatch
