import FolderTasks.Proofs.Dispatch.LedgerChanges
import Mathlib.Data.List.Induction
/-!
# A server that takes one request after the other

One queue, left to itself, works like a server with a line before it: it takes the requests in the
order in which they come and serves each for a time that the scripts and the cancellations tell.
When each service begins and ends follows from the one before it by a recurrence, which is set
down here without any jobs, timers or tokens that wake.

## Main definitions

* `Server`, `Request`: what a server is told beforehand, and what is asked of it.
* `Server.Serves`: what may become of a request whose turn comes at a given moment.
* `Plan`, `Server.Plans`: services of a list of requests, and which service answers each.
* `Server.serve`, `Server.plan`: the services when whatever comes first is said to win all ties.
* `Plan.IsUntied`: nothing falls together of which the order would matter.

## Main statements

* `Server.Plans.isOrdered`: each service is over when the next one begins.
* `Server.Plans.eq_plan`: without ties there is one plan.

## Design notes

What falls together may happen in either order, and three such ties can be seen.  A token that is
cancelled when the turn of its request comes is found cancelled or not.  An execution that is over
when its token is cancelled is found to be over, or is terminated.  And a request that is made when
a waiting one of the same arguments gets its turn is absorbed or comes too late.  The relations
`Server.Serves` and `Server.Plans` leave these ties open; nothing else is open in them.
-/

namespace FolderTasks.Dispatch

/-- A request. -/
structure Request where
  instant : Nat
  operation : Operation
  /-- Its token, and the instant at which that is cancelled, if it ever is. -/
  token : Option (String × Option Nat) := none
deriving DecidableEq

namespace Request

/-- The name of the token. -/
def tokenName (r : Request) : Option String := r.token.map Prod.fst

/-- The instant of the cancellation; `none` stands for never. -/
def cancelAt (r : Request) : Option Nat := r.token.bind Prod.snd

/-- Is the request cancelled before an instant? -/
def isCancelledBefore (r : Request) (t : Nat) : Bool := r.cancelAt.any fun c => decide (c < t)

/-- When an execution from `s` to `e` is interrupted: by the cancellation, or at once if that came
before. -/
def interruption? (r : Request) (s e : Nat) : Option Nat :=
  (r.cancelAt.map fun c => max c s).filter fun c => decide (c < e)

theorem isCancelledBefore_iff {r : Request} {t : Nat} :
    r.isCancelledBefore t ↔ ∃ c ∈ r.cancelAt, c < t := by
  rw [isCancelledBefore, Option.any_eq_true]
  simp only [decide_eq_true_eq, Option.mem_def]

theorem isCancelledBefore_eq_false_iff {r : Request} {t : Nat} :
    r.isCancelledBefore t = false ↔ ∀ c ∈ r.cancelAt, t ≤ c := by
  rw [← Bool.not_eq_true, isCancelledBefore_iff]
  simp only [not_exists, not_and, Nat.not_lt]

/-- Nothing is interrupted by a cancellation that comes when it is over. -/
theorem interruption?_eq_none {r : Request} {s e : Nat} :
    r.interruption? s e = none ↔ ∀ c ∈ r.cancelAt, e ≤ max c s := by
  rw [interruption?, Option.filter_eq_none_iff]
  simp

theorem interruption?_eq_some {r : Request} {s e t : Nat} :
    r.interruption? s e = some t ↔ ∃ c ∈ r.cancelAt, max c s = t ∧ t < e := by
  rw [interruption?, Option.filter_eq_some_iff]
  simp only [Option.map_eq_some_iff, decide_eq_true_eq, Option.mem_def]
  exact ⟨fun ⟨⟨c, hc, ht⟩, hlt⟩ => ⟨c, hc, ht, hlt⟩, fun ⟨c, hc, ht, hlt⟩ => ⟨⟨c, hc, ht⟩, hlt⟩⟩

/-- A request has one token, and that is cancelled once. -/
theorem cancelAt_unique {r : Request} {c c' : Nat} (h : c ∈ r.cancelAt) (h' : c' ∈ r.cancelAt) :
    c = c' := Option.some.inj (h.symm.trans h')

end Request

/-- The time of an execution. -/
structure Span where
  startedAt : Nat
  endedAt : Nat
  /-- Was it ended from outside? -/
  isTerminated : Bool
deriving DecidableEq

/-- What became of a request that was not absorbed. -/
structure Service where
  request : Request
  beginsAt : Nat
  endsAt : Nat
  outcome : Outcome
  /-- The execution; absent when nothing was started. -/
  span : Option Span := none
deriving DecidableEq

/-- What a server is told beforehand: how long each start takes, and the scripts. -/
structure Server where
  startDelay : Nat
  fallback : Script
  scripts : List (List String × Script)

namespace Server

/-- The script of an argument list. -/
def scriptFor (v : Server) (args : List String) : Script :=
  (v.scripts.lookup args).getD v.fallback

/-- The script of a request. -/
def scriptOf (v : Server) (r : Request) : Script := v.scriptFor r.operation.key

/-- When the start of a request is over whose turn comes at `b`. -/
def startsAt (v : Server) (b : Nat) : Nat := b + v.startDelay

/-- When its execution is over, if it is left to itself. -/
def dueAt (v : Server) (r : Request) (b : Nat) : Nat := v.startsAt b + (v.scriptOf r).delay

/-- What is said of a request that the backend refuses to start. -/
def refusal (r : Request) : Outcome :=
  .launchFailed (Failure.launch r.operation.command.program Scripted.refusal).message

/-- **What may become of a request whose turn comes at `b`.**  A request that is cancelled by then is
not started; a start takes its time whether it succeeds or not; a started execution runs as long
as its script says, unless it is interrupted. -/
inductive Serves (v : Server) (r : Request) (b : Nat) : Service → Prop where
  | skipped {c : Nat} (hc : c ∈ r.cancelAt) (hle : c ≤ b) : Serves v r b ⟨r, b, b, .cancelled, none⟩
  | refused (h : ∀ c ∈ r.cancelAt, b ≤ c) (hrefuses : (v.scriptOf r).refuses) :
      Serves v r b ⟨r, b, v.startsAt b, refusal r, none⟩
  | interrupted {c : Nat} (hc : c ∈ r.cancelAt) (hle : b ≤ c)
      (haccepts : (v.scriptOf r).refuses = false) (hdue : max c (v.startsAt b) ≤ v.dueAt r b) :
      Serves v r b ⟨r, b, max c (v.startsAt b), .cancelled,
        some ⟨v.startsAt b, max c (v.startsAt b), true⟩⟩
  | completed (h : ∀ c ∈ r.cancelAt, b ≤ c ∧ v.dueAt r b ≤ max c (v.startsAt b))
      (haccepts : (v.scriptOf r).refuses = false) :
      Serves v r b ⟨r, b, v.dueAt r b, .ofCode (v.scriptOf r).exitCode,
        some ⟨v.startsAt b, v.dueAt r b, false⟩⟩

/-- **What becomes of a request whose turn comes at `b`**, when no tie is won by the
cancellation. -/
def serve (v : Server) (r : Request) (b : Nat) : Service :=
  if r.isCancelledBefore b then ⟨r, b, b, .cancelled, none⟩
  else if (v.scriptOf r).refuses then ⟨r, b, v.startsAt b, refusal r, none⟩
  else match r.interruption? (v.startsAt b) (v.dueAt r b) with
    | some c => ⟨r, b, c, .cancelled, some ⟨v.startsAt b, c, true⟩⟩
    | none => ⟨r, b, v.dueAt r b, .ofCode (v.scriptOf r).exitCode,
        some ⟨v.startsAt b, v.dueAt r b, false⟩⟩

/-- **No tie decides what becomes of a request** whose turn comes at `b`. -/
structure IsUntied (v : Server) (r : Request) (b : Nat) : Prop where
  /-- The token is not cancelled when the turn comes, -/
  begins : b ∉ r.cancelAt
  /-- nor is it found cancelled when the execution is over. -/
  ends : (v.scriptOf r).refuses = false →
    ∀ c ∈ r.cancelAt, b ≤ c → max c (v.startsAt b) ≠ v.dueAt r b

section Serving

variable {v : Server} {r : Request} {b : Nat} {S : Service}

theorem le_startsAt (v : Server) (b : Nat) : b ≤ v.startsAt b := Nat.le_add_right _ _

theorem startsAt_le_dueAt (v : Server) (r : Request) (b : Nat) : v.startsAt b ≤ v.dueAt r b :=
  Nat.le_add_right _ _

namespace Serves

theorem request_eq (h : v.Serves r b S) : S.request = r := by cases h <;> rfl

theorem beginsAt_eq (h : v.Serves r b S) : S.beginsAt = b := by cases h <;> rfl

theorem le_endsAt (h : v.Serves r b S) : b ≤ S.endsAt := by
  cases h with
  | skipped => exact Nat.le_refl b
  | refused => exact v.le_startsAt b
  | interrupted => exact Nat.le_trans (v.le_startsAt b) (Nat.le_max_right _ _)
  | completed => exact Nat.le_trans (v.le_startsAt b) (v.startsAt_le_dueAt r b)

/-- An execution begins when the start is over, -/
theorem startedAt_eq (h : v.Serves r b S) {q : Span} (hq : q ∈ S.span) :
    q.startedAt = v.startsAt b := by
  cases h with
  | skipped | refused => exact absurd hq (by simp)
  | interrupted | completed => rw [← Option.some.inj hq]

/-- and the service ends with it. -/
theorem endedAt_eq (h : v.Serves r b S) {q : Span} (hq : q ∈ S.span) : q.endedAt = S.endsAt := by
  cases h with
  | skipped | refused => exact absurd hq (by simp)
  | interrupted | completed => rw [← Option.some.inj hq]

/-- When a token is cancelled at the end of the execution, that is the end of the service, whoever
wins. -/
theorem endsAt_of_tie (h : v.Serves r b S) (haccepts : (v.scriptOf r).refuses = false)
    (hc : v.dueAt r b ∈ r.cancelAt) : S.endsAt = v.dueAt r b := by
  have hdue : b ≤ v.dueAt r b := Nat.le_trans (v.le_startsAt b) (v.startsAt_le_dueAt r b)
  cases h with
  | skipped hc' hle =>
    rw [Request.cancelAt_unique hc' hc] at hle
    exact Nat.le_antisymm hdue hle
  | refused _ hrefuses => exact absurd hrefuses (by simp [haccepts])
  | interrupted hc' =>
    rw [Request.cancelAt_unique hc' hc]
    exact Nat.max_eq_left (v.startsAt_le_dueAt r b)
  | completed => rfl

/-- **Without ties the service is determined.** -/
theorem eq_serve (h : v.Serves r b S) (hu : v.IsUntied r b) : S = v.serve r b := by
  have hlater (h : ∀ c ∈ r.cancelAt, b ≤ c) : r.isCancelledBefore b = false :=
    Request.isCancelledBefore_eq_false_iff.2 h
  unfold serve
  cases h with
  | @skipped c hc hle =>
    have hlt : c < b := Nat.lt_of_le_of_ne hle fun heq => hu.begins (heq ▸ hc)
    rw [if_pos (Request.isCancelledBefore_iff.2 ⟨c, hc, hlt⟩)]
  | refused h hrefuses => rw [hlater h, if_neg Bool.false_ne_true, if_pos hrefuses]
  | @interrupted c hc hle haccepts hdue =>
    have hlt := Nat.lt_of_le_of_ne hdue (hu.ends haccepts c hc hle)
    have hbefore : r.isCancelledBefore b = false :=
      hlater fun c' hc' => Request.cancelAt_unique hc hc' ▸ hle
    rw [hbefore, if_neg Bool.false_ne_true, haccepts, if_neg Bool.false_ne_true,
      Request.interruption?_eq_some.2 ⟨c, hc, rfl, hlt⟩]
  | completed h haccepts =>
    rw [hlater fun c hc => (h c hc).1, if_neg Bool.false_ne_true, haccepts,
      if_neg Bool.false_ne_true, Request.interruption?_eq_none.2 fun c hc => (h c hc).2]

end Serves

/-- What becomes of a request when no tie is won by the cancellation may become of it. -/
theorem serves_serve (v : Server) (r : Request) (b : Nat) : v.Serves r b (v.serve r b) := by
  unfold serve
  split
  · next hbefore =>
    obtain ⟨c, hc, hlt⟩ := Request.isCancelledBefore_iff.1 hbefore
    exact .skipped hc (Nat.le_of_lt hlt)
  · next hbefore =>
    have hlater := Request.isCancelledBefore_eq_false_iff.1 (Bool.eq_false_iff.2 hbefore)
    split
    · next hrefuses => exact .refused hlater hrefuses
    · next hrefuses =>
      have haccepts := Bool.eq_false_iff.2 hrefuses
      split
      · next t ht =>
        obtain ⟨c, hc, rfl, hlt⟩ := Request.interruption?_eq_some.1 ht
        exact .interrupted hc (hlater c hc) haccepts (Nat.le_of_lt hlt)
      · next hnone =>
        exact .completed (fun c hc => ⟨hlater c hc, Request.interruption?_eq_none.1 hnone c hc⟩)
          haccepts

/-- A service that is not skipped lasts until the start is over. -/
theorem startsAt_le_endsAt_serve (hcalm : ∀ c ∈ r.cancelAt, b ≤ c) :
    v.startsAt b ≤ (v.serve r b).endsAt := by
  unfold serve
  rw [Request.isCancelledBefore_eq_false_iff.2 hcalm, if_neg Bool.false_ne_true]
  split
  · exact Nat.le_refl _
  · split
    · next t ht =>
      obtain ⟨c, -, rfl, -⟩ := Request.interruption?_eq_some.1 ht
      exact Nat.le_max_right _ _
    · exact v.startsAt_le_dueAt r b

end Serving

end Server

/-! ## Plans -/

/-- The services of some requests, and for each request the number of the service that answers
it. -/
structure Plan where
  services : List Service := []
  answers : List Nat := []
deriving DecidableEq

namespace Plan

/-- When the last service ends. -/
def lastEnd (P : Plan) : Nat := (P.services.getLast?.map Service.endsAt).getD 0

/-- The service that absorbs a request: an earlier one of the same arguments that begins later. -/
def absorber? (P : Plan) (r : Request) : Option Nat :=
  (List.range P.services.length).find? fun k => P.services[k]?.any fun S =>
    S.request.operation.key == r.operation.key && decide (r.instant < S.beginsAt)

/-- A request is answered by a service that is there. -/
def answer (P : Plan) (k : Nat) : Plan := { P with answers := P.answers ++ [k] }

/-- A request is answered by a service of its own. -/
def append (P : Plan) (S : Service) : Plan where
  services := P.services ++ [S]
  answers := P.answers ++ [P.services.length]

end Plan

namespace Server

/-- **What the plan of a list of requests may be.**  A request is absorbed by a service of the same
arguments that begins later; if none does, it has a service of its own, which begins when the
request comes or when the service before it ends.  A service that has to wait for the end of another
one begins at that moment, and a request that comes just then is absorbed or not. -/
inductive Plans (v : Server) : List Request → Plan → Prop where
  | nil : Plans v [] {}
  | absorbed {requests : List Request} {P : Plan} {r : Request} {k : Nat} {S : Service}
      (h : Plans v requests P) (hS : P.services[k]? = some S)
      (hkey : S.request.operation.key = r.operation.key)
      (hbegins : r.instant < S.beginsAt ∨
        r.instant = S.beginsAt ∧ ∃ i S', i < k ∧ P.services[i]? = some S' ∧ S'.endsAt = S.beginsAt) :
      Plans v (requests ++ [r]) (P.answer k)
  | created {requests : List Request} {P : Plan} {r : Request} {S : Service}
      (h : Plans v requests P)
      (hnone : ∀ S' ∈ P.services, S'.request.operation.key = r.operation.key →
        S'.beginsAt ≤ r.instant)
      (hserves : v.Serves r (max r.instant P.lastEnd) S) :
      Plans v (requests ++ [r]) (P.append S)

/-- Take one more request. -/
def add (v : Server) (P : Plan) (r : Request) : Plan :=
  match P.absorber? r with
  | some k => P.answer k
  | none => P.append (v.serve r (max r.instant P.lastEnd))

/-- **The plan of a list of requests**, when whoever comes at the moment of a tie comes too late. -/
def plan (v : Server) (requests : List Request) : Plan := requests.foldl v.add {}

section Adding

variable {v : Server} {P : Plan} {r : Request} {k : Nat}

theorem plan_append (v : Server) (requests : List Request) (r : Request) :
    v.plan (requests ++ [r]) = v.add (v.plan requests) r := by
  rw [plan, List.foldl_append]
  rfl

theorem add_of_absorbed (h : P.absorber? r = some k) : v.add P r = P.answer k := by
  rw [add, h]

theorem add_of_not_absorbed (h : P.absorber? r = none) :
    v.add P r = P.append (v.serve r (max r.instant P.lastEnd)) := by
  rw [add, h]

end Adding

end Server

/-- A request is absorbed by a service of the same arguments that begins later. -/
theorem Plan.absorbs_of_eq_some {P : Plan} {r : Request} {k : Nat} (h : P.absorber? r = some k) :
    ∃ S, P.services[k]? = some S ∧ S.request.operation.key = r.operation.key ∧
      r.instant < S.beginsAt := by
  have hfound := List.find?_some h
  obtain ⟨S, hS, hany⟩ := (Option.any_eq_true _ _).1 hfound
  rw [Bool.and_eq_true, beq_iff_eq, decide_eq_true_eq] at hany
  exact ⟨S, hS, hany⟩

/-- A request that is not absorbed finds no such service. -/
theorem Plan.le_of_eq_none {P : Plan} {r : Request} {S : Service} (h : P.absorber? r = none)
    (hS : S ∈ P.services) (hkey : S.request.operation.key = r.operation.key) :
    S.beginsAt ≤ r.instant := by
  obtain ⟨k, hk⟩ := List.mem_iff_getElem?.1 hS
  refine Nat.le_of_not_lt fun hlt => List.find?_eq_none.1 h k ?_ ?_
  · exact List.mem_range.2 (List.getElem?_eq_some_iff.1 hk).1
  · rw [hk, Option.any_some, hkey, beq_self_eq_true, Bool.true_and, decide_eq_true_eq]
    exact hlt

namespace Server

/-- The plan in which whoever comes at the moment of a tie comes too late is one of those that may
be. -/
theorem plans_plan (v : Server) (requests : List Request) : v.Plans requests (v.plan requests) := by
  induction requests using List.reverseRecOn with
  | nil => exact .nil
  | append_singleton requests r ih =>
    rw [v.plan_append]
    cases habsorber : (v.plan requests).absorber? r with
    | none =>
      rw [add_of_not_absorbed habsorber]
      exact ih.created (fun S hS => Plan.le_of_eq_none habsorber hS) (v.serves_serve _ _)
    | some k =>
      obtain ⟨S, hS, hkey, hlt⟩ := Plan.absorbs_of_eq_some habsorber
      rw [add_of_absorbed habsorber]
      exact ih.absorbed hS hkey (.inl hlt)

end Server

/-! ## The order of the services -/

namespace Plan

/-- **Services follow each other**: each is over when the next one begins, and begins as soon as it
can. -/
structure IsOrdered (v : Server) (P : Plan) : Prop where
  served : ∀ S ∈ P.services, v.Serves S.request S.beginsAt S
  apart : P.services.Pairwise fun S S' => S.endsAt ≤ S'.beginsAt
  /-- Each begins when it is requested or when an earlier one ends. -/
  paced : ∀ {k : Nat} {S : Service}, P.services[k]? = some S → S.request.instant ≤ S.beginsAt ∧
    (S.beginsAt = S.request.instant ∨
      ∃ i S', i < k ∧ P.services[i]? = some S' ∧ S.beginsAt = S'.endsAt)

namespace IsOrdered

variable {v : Server} {P : Plan} {S : Service}

theorem begins_le_ends (h : P.IsOrdered v) (hS : S ∈ P.services) : S.beginsAt ≤ S.endsAt :=
  (h.served S hS).le_endsAt

/-- All services are over at the end of the last one. -/
theorem endsAt_le_lastEnd (h : P.IsOrdered v) (hS : S ∈ P.services) : S.endsAt ≤ P.lastEnd := by
  obtain ⟨services, last, hservices⟩ := List.eq_nil_or_concat P.services |>.resolve_left
    (List.ne_nil_of_mem hS)
  have hlast : P.lastEnd = last.endsAt := by
    rw [lastEnd, hservices, List.concat_eq_append, List.getLast?_concat]
    rfl
  have hmem : last ∈ P.services := by simp [hservices]
  have hapart := h.apart
  rw [hservices, List.concat_eq_append] at hapart hS
  rcases List.mem_append.1 hS with hS | hS
  · have hle := (List.pairwise_append.1 hapart).2.2 S hS last (List.mem_singleton_self last)
    rw [hlast]
    exact Nat.le_trans hle (h.begins_le_ends hmem)
  · exact Nat.le_of_eq ((congrArg Service.endsAt (List.mem_singleton.1 hS)).trans hlast.symm)

theorem append {r : Request} (h : P.IsOrdered v) (hS : v.Serves r (max r.instant P.lastEnd) S) :
    (P.append S).IsOrdered v where
  served S' hS' := by
    rcases List.mem_append.1 hS' with hS' | hS'
    · exact h.served S' hS'
    · rw [List.mem_singleton.1 hS', hS.request_eq, hS.beginsAt_eq]
      exact hS
  apart := by
    refine List.pairwise_append.2 ⟨h.apart, List.pairwise_singleton _ _, fun S₁ hS₁ S₂ hS₂ => ?_⟩
    rw [List.mem_singleton.1 hS₂, hS.beginsAt_eq]
    exact Nat.le_trans (h.endsAt_le_lastEnd hS₁) (Nat.le_max_right _ _)
  paced {k S₁} hS₁ := by
    have hold {i : Nat} {S' : Service} (hS' : P.services[i]? = some S') :
        (P.append S).services[i]? = some S' :=
      World.getElem?_of_isPrefix (List.prefix_append _ _) hS'
    rcases getElem?_concat_cases hS₁ with hS₁ | ⟨rfl, rfl⟩
    · obtain ⟨hle, hpaced⟩ := h.paced hS₁
      exact ⟨hle, hpaced.imp_right fun ⟨i, S', hi, hS', heq⟩ => ⟨i, S', hi, hold hS', heq⟩⟩
    · rw [hS.beginsAt_eq, hS.request_eq]
      refine ⟨Nat.le_max_left _ _, ?_⟩
      rcases Nat.le_total P.lastEnd r.instant with hle | hle
      · exact .inl (Nat.max_eq_left hle)
      · cases hlast : P.services.getLast? with
        | none =>
          rw [lastEnd, hlast] at hle ⊢
          exact .inl (Nat.max_eq_left (Nat.zero_le _))
        | some S' =>
          have hend : P.lastEnd = S'.endsAt := by rw [lastEnd, hlast]; rfl
          rw [List.getLast?_eq_getElem?] at hlast
          have hlt := (List.getElem?_eq_some_iff.1 hlast).1
          exact .inr ⟨_, S', by omega, hold hlast, (Nat.max_eq_right hle).trans hend⟩

end IsOrdered

end Plan

namespace Server

variable {v : Server} {requests : List Request} {P : Plan} {r : Request} {S : Service} {k : Nat}

/-- **Each service of a plan is over when the next one begins.** -/
theorem Plans.isOrdered (h : v.Plans requests P) : P.IsOrdered v := by
  induction h with
  | nil =>
    exact ⟨fun _ h => absurd h List.not_mem_nil, List.Pairwise.nil, fun h => absurd h (by simp)⟩
  | absorbed _ _ _ _ ih => exact ⟨ih.served, ih.apart, ih.paced⟩
  | created _ _ hserves ih => exact ih.append hserves

/-- Every service is of one of the requests. -/
theorem Plans.mem_requests (h : v.Plans requests P) (hS : S ∈ P.services) :
    S.request ∈ requests := by
  induction h with
  | nil => exact absurd hS List.not_mem_nil
  | absorbed _ _ _ _ ih => exact List.mem_append_left _ (ih hS)
  | created _ _ hserves ih =>
    rcases List.mem_append.1 hS with hS | hS
    · exact List.mem_append_left _ (ih hS)
    · rw [List.mem_singleton.1 hS, hserves.request_eq]
      exact List.mem_append_right _ (List.mem_singleton_self _)

end Server

/-! ## Plans without ties -/

/-- **Nothing falls together of which the order would matter**: no tie decides a service, and no
request is made at the moment at which a waiting one of the same arguments gets its turn. -/
structure Plan.IsUntied (v : Server) (requests : List Request) (P : Plan) : Prop where
  services : ∀ S ∈ P.services, v.IsUntied S.request S.beginsAt
  requests : requests.Pairwise fun r r' => r.operation.key = r'.operation.key →
    ∀ S ∈ P.services, S.request.operation.key = r'.operation.key → S.beginsAt = r'.instant →
      ∀ S' ∈ P.services, S'.endsAt ≠ r'.instant

/-- What is untied is so without the last request. -/
theorem Plan.IsUntied.before {v : Server} {requests : List Request} {P Q : Plan} {r : Request}
    (h : Q.IsUntied v (requests ++ [r])) (hsub : ∀ S ∈ P.services, S ∈ Q.services) :
    P.IsUntied v requests where
  services S hS := h.services S (hsub S hS)
  requests := (List.pairwise_append.1 h.requests).1.imp fun hr hkey S hS hkey' hbegins S' hS' =>
    hr hkey S (hsub S hS) hkey' hbegins S' (hsub S' hS')

/-- The last request does not come just when a service of the same arguments gets its turn. -/
theorem Plan.IsUntied.last {v : Server} {requests : List Request} {P : Plan} {r r' : Request}
    {S S' : Service} (h : P.IsUntied v (requests ++ [r])) (hr : r' ∈ requests)
    (hkey : r'.operation.key = r.operation.key) (hS : S ∈ P.services)
    (hkey' : S.request.operation.key = r.operation.key) (hbegins : S.beginsAt = r.instant)
    (hS' : S' ∈ P.services) : S'.endsAt ≠ r.instant :=
  (List.pairwise_append.1 h.requests).2.2 r' hr r (List.mem_singleton_self r) hkey S hS hkey' hbegins
    S' hS'

namespace Server

variable {v : Server} {requests : List Request} {P : Plan} {r : Request} {S : Service} {k : Nat}

/-- Of two services of the same arguments the earlier one has begun when the later one is
requested. -/
theorem Plans.isDistinct (h : v.Plans requests P) : P.services.Pairwise fun S S' =>
    S.request.operation.key = S'.request.operation.key → S.beginsAt ≤ S'.request.instant := by
  induction h with
  | nil => exact List.Pairwise.nil
  | absorbed _ _ _ _ ih => exact ih
  | created _ hnone hserves ih =>
    refine List.pairwise_append.2 ⟨ih, List.pairwise_singleton _ _, fun S hS S' hS' => ?_⟩
    rw [List.mem_singleton.1 hS', hserves.request_eq]
    exact hnone S hS

/-- A request finds its absorber where the plan has it. -/
theorem Plans.absorber?_eq (h : v.Plans requests P) (hr : ∀ r' ∈ requests, r'.instant ≤ r.instant)
    (hS : P.services[k]? = some S) (hkey : S.request.operation.key = r.operation.key)
    (hlt : r.instant < S.beginsAt) : P.absorber? r = some k := by
  cases habsorber : P.absorber? r with
  | none =>
    exact absurd (Plan.le_of_eq_none habsorber (List.mem_of_getElem? hS) hkey) (Nat.not_le.2 hlt)
  | some k' =>
    obtain ⟨S', hS', hkey', hlt'⟩ := Plan.absorbs_of_eq_some habsorber
    obtain ⟨hk, rfl⟩ := List.getElem?_eq_some_iff.1 hS
    obtain ⟨hk', rfl⟩ := List.getElem?_eq_some_iff.1 hS'
    have hdistinct := List.pairwise_iff_getElem.1 h.isDistinct
    have hinstant {i : Nat} (hi : i < P.services.length) :
        P.services[i].request.instant ≤ r.instant :=
      hr _ (h.mem_requests (List.getElem_mem hi))
    rcases Nat.lt_trichotomy k k' with hlt₁ | rfl | hlt₁
    · have hle := hdistinct k k' hk hk' hlt₁ (hkey.trans hkey'.symm)
      exact absurd (Nat.le_trans hle (hinstant hk')) (Nat.not_le.2 hlt)
    · rfl
    · have hle := hdistinct k' k hk' hk hlt₁ (hkey'.trans hkey.symm)
      exact absurd (Nat.le_trans hle (hinstant hk)) (Nat.not_le.2 hlt')

/-- A plan keeps its services when one more request is taken. -/
theorem mem_services_add (hS : S ∈ P.services) : S ∈ (v.add P r).services := by
  unfold add
  split
  · exact hS
  · exact List.mem_append_left _ hS

/-- **Without ties there is one plan**, and that can be told from either one. -/
theorem Plans.eq_plan (h : v.Plans requests P)
    (hu : P.IsUntied v requests ∨ (v.plan requests).IsUntied v requests)
    (hr : requests.Pairwise fun r r' => r.instant ≤ r'.instant) : P = v.plan requests := by
  induction h with
  | nil => rfl
  | @absorbed requests P r k S h hS hkey hbegins ih =>
    rw [v.plan_append] at hu ⊢
    obtain ⟨hr₁, -, hr₂⟩ := List.pairwise_append.1 hr
    obtain rfl : P = v.plan requests := ih (hu.imp (fun hu => hu.before fun _ hS' => hS')
      (fun hu => hu.before fun _ hS' => mem_services_add hS')) hr₁
    have hlt : r.instant < S.beginsAt := by
      refine hbegins.resolve_right ?_
      rintro ⟨heq, i, S', -, hS', hend⟩
      have hmem := List.mem_of_getElem? hS
      have hmem' := List.mem_of_getElem? hS'
      have hown := h.mem_requests hmem
      rcases hu with hu | hu
      · exact hu.last hown hkey hmem hkey heq.symm hmem' (hend.trans heq.symm)
      · exact hu.last hown hkey (mem_services_add hmem) hkey heq.symm (mem_services_add hmem')
          (hend.trans heq.symm)
    have hbefore (r' : Request) (hr' : r' ∈ requests) : r'.instant ≤ r.instant :=
      hr₂ r' hr' r (List.mem_singleton_self r)
    rw [add_of_absorbed (h.absorber?_eq hbefore hS hkey hlt)]
  | @created requests P r S h hnone hserves ih =>
    rw [v.plan_append] at hu ⊢
    obtain ⟨hr₁, -, -⟩ := List.pairwise_append.1 hr
    obtain rfl : P = v.plan requests :=
      ih (hu.imp (fun hu => hu.before fun _ hS' => List.mem_append_left _ hS')
        (fun hu => hu.before fun _ hS' => mem_services_add hS')) hr₁
    have hnoabsorber : (v.plan requests).absorber? r = none := by
      refine Option.eq_none_iff_forall_not_mem.2 fun k hk => ?_
      obtain ⟨S', hS', hkey, hlt⟩ := Plan.absorbs_of_eq_some hk
      exact absurd (hnone S' (List.mem_of_getElem? hS') hkey) (Nat.not_le.2 hlt)
    rw [add_of_not_absorbed hnoabsorber] at hu ⊢
    have hserves' := v.serves_serve r (max r.instant (v.plan requests).lastEnd)
    have huntied : v.IsUntied r (max r.instant (v.plan requests).lastEnd) := by
      rcases hu with hu | hu
      · have hlast := hu.services S (List.mem_append_right _ (List.mem_singleton_self S))
        rwa [hserves.request_eq, hserves.beginsAt_eq] at hlast
      · have hlast := hu.services _ (List.mem_append_right _ (List.mem_singleton_self _))
        rwa [hserves'.request_eq, hserves'.beginsAt_eq] at hlast
    rw [hserves.eq_serve huntied]

end Server

end FolderTasks.Dispatch
