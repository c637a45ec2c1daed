import FolderTasks.Proofs.Scripted.Accounting
import FolderTasks.Scripted.Client
/-!
# Waits that are dropped

Who waits for an execution may stop waiting before the wait is complete, at any moment, also when the
deadline has passed already.  Nothing is left of such a wait but the time that went by, so it may be
left out of whatever a client does if time goes by in its place: all other moves have the same
results, and the backend and the clock are the same after each of them.  The execution keeps its
deadline and its exit code, and who waits for it again gets just these.

## Main definitions

* `Scripted.Client.completes`: is a wait that is under way complete in the end?
* `Scripted.Client.isDropped`: does a move belong to a wait that is dropped?
* `Scripted.Client.withoutWaits`: some moves without the waits that are dropped.
* `Scripted.Client.ForgetsWaits`: that these waits leave no trace.

## Main statements

* `Scripted.Bench.perform_eq_givenUp`: a call that waits is given up just when its limit comes before
  the deadline.
* `Scripted.Client.perform_kept`: what a move does when the dropped waits are not there.
* `Scripted.Client.session_withoutWaits`: move by move, nothing else changes.
* `Scripted.Client.forgetsWaits`: waits that are dropped leave no trace.
* `Scripted.Client.exists_performAll_eq`: what clients do to a backend can be done with calls alone.

## Design notes

Whether a wait is dropped shows only later, so the moves that follow are looked at when a wait is
begun or polled in vain.  The two runs go side by side: the second one holds the waits of the first
that are going to be complete, and no others.
-/

namespace FolderTasks.Scripted

/-! ## Calls that wait -/

namespace Bench

variable {b : Bench} {n : Nat} {e : Execution}

theorem perform_wait (he : b.executions[n]? = some e) (limit : Option Nat) :
    b.perform (.wait n limit) = b.await e limit := by
  rw [perform, withExecution, he]

/-- **A call that waits is given up just when its limit comes before the deadline.** -/
theorem perform_eq_givenUp (b : Bench) (n limit : Nat) :
    (b.perform (.wait n (some limit))).2 = .givenUp ↔
      ∃ e, b.executions[n]? = some e ∧ b.clock + limit < e.deadline := by
  cases he : b.executions[n]? with
  | none => simp [perform, withExecution, he]
  | some e =>
    rw [perform_wait he, await_some]
    split
    · next hlt => simp [hlt]
    · next hge => simp [await_none, hge]

/-- Nothing but a wait with a limit is ever given up, and it does what time does that goes by. -/
theorem perform_of_givenUp {s : Step} (h : (b.perform s).2 = .givenUp) :
    ∃ limit, (b.perform s).1 = (b.perform (.advance limit)).1 ∧
      (b.perform s).1.clock = b.clock + limit := by
  cases s with
  | wait n limit =>
    cases limit with
    | none =>
      cases he : b.executions[n]? with
      | none => simp [perform, withExecution, he] at h
      | some e => simp [perform_wait he, await_none] at h
    | some limit =>
      obtain ⟨e, he, hlt⟩ := (perform_eq_givenUp b n limit).1 h
      rw [perform_wait he, await_some, if_pos hlt]
      exact ⟨limit, rfl, rfl⟩
  | start id c =>
    simp only [perform] at h
    split at h <;> exact absurd h (by simp)
  | terminate n | processNumber n =>
    simp only [perform, withExecution] at h
    split at h <;> exact absurd h (by simp)
  | script | name | advance => exact absurd h (by simp [perform])

/-- Executions last. -/
theorem Makes.executions {x : Exchange} (hx : b.Makes x) : b.executions <+: x.after.executions := by
  cases hx with
  | idle | ended => exact List.prefix_rfl
  | started => exact List.prefix_append _ _

theorem getElem?_executions_perform (he : b.executions[n]? = some e) (s : Step) :
    (b.perform s).1.executions[n]? = some e := by
  obtain ⟨more, hmore⟩ := (b.makes_exchange s).executions
  change b.executions ++ more = (b.perform s).1.executions at hmore
  rw [← hmore, List.getElem?_append_left (List.getElem?_eq_some_iff.1 he).1, he]

end Bench

/-- A move, what came of it, and the backend after it. -/
structure Turn where
  move : Move
  reply : Reply
  after : Bench

/-- The number of the execution whose wait a move deals with. -/
def Move.wait? : Move → Option Nat
  | .call _ => none
  | .beginWait n | .pollWait n | .dropWait n => some n

/-- Is this the beginning or the dropping of a wait, or a poll in vain? -/
def Reply.isWaiting : Reply → Bool
  | .begun | .pending | .dropped | .answered .givenUp => true
  | .answered _ | .complete _ | .nothing => false

/-- What is decided on the wait that was under way: is it complete, or dropped? -/
def Reply.decision? : Reply → Option Bool
  | .complete _ => some true
  | .begun | .dropped => some false
  | .answered _ | .pending | .nothing => none

namespace Client

/-- Some moves, with what comes of each of them. -/
def session (c : Client) : List Move → List Turn
  | [] => []
  | m :: moves => ⟨m, (c.perform m).2, (c.perform m).1.bench⟩ :: (c.perform m).1.session moves

/-- What a client is after some moves. -/
def performAll (c : Client) (moves : List Move) : Client :=
  moves.foldl (fun c m => (c.perform m).1) c

/-- What a move decides on the wait for an execution. -/
def decides (c : Client) (n : Nat) (m : Move) : Option Bool :=
  if m.wait? = some n then (c.perform m).2.decision? else none

/-- **Is the wait for an execution complete in the end**, when these moves follow? -/
def completes (c : Client) (n : Nat) : List Move → Bool
  | [] => false
  | m :: moves => (c.decides n m).getD ((c.perform m).1.completes n moves)

/-- **Does a move belong to a wait that is dropped**, when these moves follow?  A wait that is still
under way after the last of them is dropped then. -/
def isDropped (c : Client) (m : Move) (moves : List Move) : Bool :=
  match (c.perform m).2 with
  | .begun | .pending => m.wait?.all fun n => !(c.perform m).1.completes n moves
  | .dropped | .answered .givenUp => true
  | .answered _ | .complete _ | .nothing => false

/-- A move, or the time that it takes if it belongs to a wait that is dropped. -/
def replaced (c : Client) (m : Move) (moves : List Move) : Move :=
  if c.isDropped m moves then .call (.advance ((c.perform m).1.bench.clock - c.bench.clock)) else m

/-- **Some moves without the waits that are dropped.**  Time goes by in place of them. -/
def withoutWaits (c : Client) : List Move → List Move
  | [] => []
  | m :: moves => c.replaced m moves :: (c.perform m).1.withoutWaits moves

/-- **What is seen of a move, and what is seen instead.**  The backend and the clock are the same
afterwards.  The move is the same too, and so is what comes of it, unless a wait is begun, polled in
vain or dropped: then time may go by in its place. -/
structure Matches (x x' : Turn) : Prop where
  after : x'.after = x.after
  kept : x'.move = x.move ∧ x'.reply = x.reply ∨
    x.reply.isWaiting ∧ (∃ time, x'.move = .call (.advance time)) ∧ x'.reply = .answered .done

/-- **Waits that are dropped leave no trace.** -/
structure ForgetsWaits (c : Client) (moves : List Move) : Prop where
  /-- Move by move, time goes by in place of these waits, and nothing else changes. -/
  same : List.Forall₂ Matches (c.session moves) (c.session (c.withoutWaits moves))
  final : (c.performAll (c.withoutWaits moves)).bench = (c.performAll moves).bench
  /-- No wait is dropped any more. -/
  undropped : c.withoutWaits (c.withoutWaits moves) = c.withoutWaits moves
  /-- A call that waits is given up just when its limit comes before the deadline. -/
  givenUp : ∀ {n limit : Nat},
    ((c.performAll moves).bench.perform (.wait n (some limit))).2 = .givenUp ↔
      ∃ e, (c.performAll moves).bench.executions[n]? = some e ∧
        (c.performAll moves).bench.clock + limit < e.deadline
  /-- Whatever comes before it, a call that waits to the end lasts until the deadline, and gives the
  code. -/
  resumed : ∀ {earlier : List Move} {n : Nat} {e : Execution}, earlier <+: moves →
    (c.performAll earlier).bench.executions[n]? = some e →
    ((c.performAll moves).bench.perform (.wait n none)).2 = .ended e.exitCode ∧
      ((c.performAll moves).bench.perform (.wait n none)).1.clock =
        max (c.performAll moves).bench.clock e.deadline
  /-- Whatever comes before it, a wait that is under way sleeps until the deadline.  Polled from then
  on, it gives the code. -/
  polled : ∀ {n : Nat} {e : Execution}, (c.performAll moves).waits n = some e →
    (c.performAll moves).bench.executions[n]? = some e ∧
      ((c.performAll moves).perform (.pollWait n)).2 =
        if (c.performAll moves).bench.clock < e.deadline then .pending else .complete e.exitCode

/-- The waits under way that are going to be complete, and no others. -/
def kept (c : Client) (moves : List Move) : Client :=
  { c with waits := fun n => if c.completes n moves then c.waits n else none }

/-- **What a move does**: it calls the backend, or deals with a wait, or there is nothing to deal
with. -/
inductive Does (c : Client) : Move → Client × Reply → Prop where
  | called (s : Step) : Does c (.call s)
      ({ c with bench := (c.bench.perform s).1 }, .answered (c.bench.perform s).2)
  | unstarted {n : Nat} (he : c.bench.executions[n]? = none) : Does c (.beginWait n) (c, .nothing)
  | begun {n : Nat} {e : Execution} (he : c.bench.executions[n]? = some e) :
      Does c (.beginWait n) ({ c with waits := Function.update c.waits n (some e) }, .begun)
  | unwaited {m : Move} {n : Nat} (hm : m = .pollWait n ∨ m = .dropWait n)
      (hn : c.waits n = none) : Does c m (c, .nothing)
  | pending {n : Nat} {e : Execution} (hn : c.waits n = some e)
      (hclock : c.bench.clock < e.deadline) : Does c (.pollWait n) (c, .pending)
  | completed {n : Nat} {e : Execution} (hn : c.waits n = some e)
      (hclock : e.deadline ≤ c.bench.clock) : Does c (.pollWait n)
      ({ c.forget n with bench := (c.bench.poll e).1 }, .complete e.exitCode)
  | dropped {n : Nat} {e : Execution} (hn : c.waits n = some e) :
      Does c (.dropWait n) (c.forget n, .dropped)

section Waits

variable {c : Client} {m : Move} {moves : List Move} {n : Nat} {e : Execution}

/-- **Every move does one of these things.** -/
theorem does (c : Client) (m : Move) : c.Does m (c.perform m) := by
  cases m with
  | call s => exact .called s
  | beginWait n =>
    simp only [perform]
    cases he : c.bench.executions[n]? with
    | none => exact .unstarted he
    | some e => exact .begun he
  | pollWait n =>
    simp only [perform]
    cases hn : c.waits n with
    | none => exact .unwaited (.inl rfl) hn
    | some e =>
      rcases Nat.lt_or_ge c.bench.clock e.deadline with hlt | hge
      · simp only [Bench.poll_of_lt hlt]
        exact .pending hn hlt
      · have hdoes := Does.completed hn hge
        simpa only [Bench.poll_of_le hge] using hdoes
  | dropWait n =>
    simp only [perform]
    cases hn : c.waits n with
    | none => exact .unwaited (.inr rfl) hn
    | some e => exact .dropped hn

/-- A move does one thing only. -/
theorem Does.eq {r : Client × Reply} (h : c.Does m r) : c.perform m = r := by
  cases h with
  | called s => rfl
  | unstarted he | begun he => simp only [perform, he]
  | unwaited hm hn => rcases hm with rfl | rfl <;> simp only [perform, hn]
  | pending hn hclock => simp only [perform, hn, Bench.poll_of_lt hclock]
  | completed hn hclock => simp only [perform, hn, Bench.poll_of_le hclock]
  | dropped hn => simp only [perform, hn]

/-! ### What becomes of the waits -/

theorem forget_waits_self (c : Client) (n : Nat) : (c.forget n).waits n = none :=
  Function.update_self n _ c.waits

/-- A move that decides nothing on a wait leaves it alone. -/
theorem waits_perform (h : c.decides n m = none) : (c.perform m).1.waits n = c.waits n := by
  have hdoes := c.does m
  rw [decides] at h
  generalize c.perform m = r at hdoes h
  have hne : ∀ {k : Nat}, (if some k = some n then r.2.decision? else none) = none →
      r.2.decision? ≠ none → n ≠ k := by
    rintro k hk hdecision rfl
    exact hdecision (by simpa using hk)
  cases hdoes with
  | called | unstarted | unwaited | pending => rfl
  | begun | completed | dropped =>
    exact Function.update_of_ne (hne h (by simp [Reply.decision?])) _ _

/-- A wait that is complete was under way. -/
theorem waits_of_decides (h : c.decides n m = some true) : c.waits n ≠ none := by
  have hdoes := c.does m
  rw [decides] at h
  generalize c.perform m = r at hdoes h
  cases hdoes with
  | completed hn =>
    obtain ⟨heq, -⟩ := (Option.ite_none_right_eq_some).1 h
    obtain rfl := Option.some.inj heq
    simp [hn]
  | called | unstarted | unwaited | pending | begun | dropped => simp [Reply.decision?] at h

/-- A wait that is not under way is never complete. -/
theorem completes_eq_false (hn : c.waits n = none) : c.completes n moves = false := by
  induction moves generalizing c with
  | nil => rfl
  | cons m moves ih =>
    rw [completes]
    cases hdecides : c.decides n m with
    | none =>
      rw [Option.getD_none]
      exact ih ((waits_perform hdecides).trans hn)
    | some isComplete =>
      rw [Option.getD_some]
      cases isComplete with
      | false => rfl
      | true => exact absurd hn (waits_of_decides hdecides)

theorem kept_waits (c : Client) (moves : List Move) (n : Nat) :
    (c.kept moves).waits n = if c.completes n moves then c.waits n else none := rfl

/-- Of the waits that are under way, a move that decides nothing keeps those that are kept. -/
theorem kept_waits_cons (h : c.decides n m = none) :
    (c.kept (m :: moves)).waits n = ((c.perform m).1.kept moves).waits n := by
  rw [kept_waits, kept_waits, completes, h, Option.getD_none, waits_perform h]

/-- What a move decides when it belongs to a wait that is dropped. -/
theorem completes_of_isDropped {isComplete : Bool} (h : c.isDropped m moves = true)
    (hdecides : c.decides n m = some isComplete) :
    isComplete = false ∧ (c.perform m).1.completes n moves = false := by
  have hdoes := c.does m
  rw [isDropped] at h
  rw [decides] at hdecides
  obtain ⟨hwait, hdecision⟩ := Option.ite_none_right_eq_some.1 hdecides
  generalize c.perform m = r at *
  cases hdoes with
  | called | unstarted | unwaited | pending => simp [Reply.decision?] at hdecision
  | completed => simp at h
  | begun =>
    simp only [hwait, Option.all_some, Bool.not_eq_true'] at h
    exact ⟨(Option.some.inj hdecision).symm, h⟩
  | dropped =>
    obtain rfl := Option.some.inj hwait
    exact ⟨(Option.some.inj hdecision).symm, completes_eq_false (forget_waits_self c _)⟩

/-! ### Runs side by side -/

/-- When time goes by in place of a move, the backend and the clock are what they should be. -/
theorem bench_of_isDropped (h : c.isDropped m moves = true) :
    ∃ time, (c.perform m).1.bench = (c.bench.perform (.advance time)).1 := by
  have hdoes := c.does m
  rw [isDropped] at h
  generalize c.perform m = r at *
  cases hdoes with
  | called s =>
    have hgiven : (c.bench.perform s).2 = .givenUp := by
      dsimp only at h
      split at h <;> simp_all
    obtain ⟨limit, heq, -⟩ := Bench.perform_of_givenUp hgiven
    exact ⟨limit, heq⟩
  | unstarted | unwaited | completed => simp at h
  | begun | pending | dropped => exact ⟨0, rfl⟩

/-- **A move of a wait that is dropped**: in place of it time goes by. -/
theorem perform_kept_of_isDropped (h : c.isDropped m moves = true) :
    (c.kept (m :: moves)).perform
        (.call (.advance ((c.perform m).1.bench.clock - c.bench.clock))) =
      ((c.perform m).1.kept moves, .answered .done) := by
  obtain ⟨time, hbench⟩ := bench_of_isDropped h
  have htime : (c.perform m).1.bench.clock - c.bench.clock = time := by
    rw [hbench]
    exact Nat.add_sub_cancel_left _ _
  have hafter : ({ c.kept (m :: moves) with bench := (c.bench.perform (.advance time)).1 } :
      Client) = (c.perform m).1.kept moves := by
    refine Client.ext hbench.symm (funext fun n => ?_)
    change (c.kept (m :: moves)).waits n = _
    cases hdecides : c.decides n m with
    | none => exact kept_waits_cons hdecides
    | some isComplete =>
      obtain ⟨rfl, hcompletes⟩ := completes_of_isDropped h hdecides
      rw [kept_waits, kept_waits, completes, hdecides, hcompletes, Option.getD_some]
      rfl
  rw [htime, ← hafter]
  rfl

/-- A move that leaves the client as it is leaves what is kept. -/
theorem kept_cons_of_eq {reply : Reply} (h : c.perform m = (c, reply))
    (hdecision : reply.decision? = none) : c.kept (m :: moves) = c.kept moves := by
  refine Client.ext rfl (funext fun n => ?_)
  have hdecides : c.decides n m = none := by
    rw [decides, h]
    simp [hdecision]
  rw [kept_waits_cons hdecides, h]

/-- **Any other move** does the same when the waits that are dropped are not there. -/
theorem does_kept_of_not_isDropped (h : c.isDropped m moves = false) :
    (c.kept (m :: moves)).Does m ((c.perform m).1.kept moves, (c.perform m).2) := by
  have hdoes := c.does m
  have hperform := hdoes.eq
  rw [isDropped] at h
  -- A wait for another execution is not touched.
  have hother : ∀ k, m.wait? ≠ some k →
      (c.kept (m :: moves)).waits k = ((c.perform m).1.kept moves).waits k :=
    fun k hk => kept_waits_cons (if_neg hk)
  generalize hr : c.perform m = r at *
  cases hdoes with
  | called s =>
    have heq : ({ c.kept (.call s :: moves) with bench := (c.bench.perform s).1 } : Client) =
        ({ c with bench := (c.bench.perform s).1 } : Client).kept moves :=
      Client.ext rfl (funext fun k => hother k (by simp [Move.wait?]))
    rw [← heq]
    exact .called s
  | unstarted he =>
    rw [kept_cons_of_eq hr rfl]
    exact .unstarted he
  | @begun n e he =>
    have hcompletes : ({ c with waits := Function.update c.waits n (some e) } : Client).completes n
        moves = true := by simpa [Move.wait?] using h
    have heq : ({ c.kept (.beginWait n :: moves) with
        waits := Function.update (c.kept (.beginWait n :: moves)).waits n (some e) } : Client) =
        ({ c with waits := Function.update c.waits n (some e) } : Client).kept moves := by
      refine Client.ext rfl (funext fun k => ?_)
      rcases eq_or_ne k n with rfl | hne
      · rw [kept_waits, hcompletes]
        simp
      · exact (Function.update_of_ne hne _ _).trans (hother k (by simp [Move.wait?, hne.symm]))
    rw [← heq]
    exact .begun he
  | @unwaited _ n hm hn =>
    rw [kept_cons_of_eq hr rfl]
    refine .unwaited hm ?_
    rw [kept_waits, hn, ite_self]
  | @pending n e hn hclock =>
    have hcompletes : c.completes n moves = true := by simpa [Move.wait?] using h
    rw [kept_cons_of_eq hr rfl]
    refine .pending ?_ hclock
    rw [kept_waits, hcompletes, if_pos rfl, hn]
  | @completed n e hn hclock =>
    have hcompletes : c.completes n (.pollWait n :: moves) = true := by
      simp [completes, decides, Move.wait?, hr, Reply.decision?]
    have heq : ({ (c.kept (.pollWait n :: moves)).forget n with bench := (c.bench.poll e).1 } :
        Client) = ({ c.forget n with bench := (c.bench.poll e).1 } : Client).kept moves := by
      refine Client.ext rfl (funext fun k => ?_)
      rcases eq_or_ne k n with rfl | hne
      · have hleft := forget_waits_self (c.kept (.pollWait k :: moves)) k
        have hright := forget_waits_self c k
        rw [kept_waits]
        dsimp only
        rw [hleft, hright, ite_self]
      · exact (Function.update_of_ne hne _ _).trans (hother k (by simp [Move.wait?, hne.symm]))
    rw [← heq]
    refine .completed ?_ hclock
    rw [kept_waits, hcompletes, if_pos rfl, hn]
  | dropped hn => simp at h

/-- **What a move does when the waits that are dropped are not there.** -/
theorem perform_kept (c : Client) (m : Move) (moves : List Move) :
    (c.kept (m :: moves)).perform (c.replaced m moves) =
      ((c.perform m).1.kept moves,
        if c.isDropped m moves then .answered .done else (c.perform m).2) := by
  rw [replaced]
  cases h : c.isDropped m moves with
  | true => exact perform_kept_of_isDropped h
  | false => exact (does_kept_of_not_isDropped h).eq

/-- What comes of the moves of a wait that is dropped. -/
theorem isWaiting_of_isDropped (h : c.isDropped m moves = true) :
    (c.perform m).2.isWaiting = true := by
  rw [isDropped] at h
  split at h <;> simp_all [Reply.isWaiting]

/-- **Move by move, nothing but the dropped waits changes.** -/
theorem session_withoutWaits (c : Client) (moves : List Move) :
    List.Forall₂ Matches (c.session moves) ((c.kept moves).session (c.withoutWaits moves)) := by
  induction moves generalizing c with
  | nil => exact .nil
  | cons m moves ih =>
    rw [withoutWaits, session, session, perform_kept]
    refine .cons ⟨rfl, ?_⟩ (ih _)
    cases h : c.isDropped m moves with
    | true =>
      refine .inr ⟨isWaiting_of_isDropped h, ?_, rfl⟩
      exact ⟨_, by rw [replaced, if_pos h]⟩
    | false => exact .inl ⟨by simp [replaced, h], rfl⟩

theorem performAll_withoutWaits (c : Client) (moves : List Move) :
    (c.kept moves).performAll (c.withoutWaits moves) = (c.performAll moves).kept [] := by
  induction moves generalizing c with
  | nil => rfl
  | cons m moves ih =>
    calc (c.kept (m :: moves)).performAll (c.withoutWaits (m :: moves))
      _ = ((c.kept (m :: moves)).perform (c.replaced m moves)).1.performAll
            ((c.perform m).1.withoutWaits moves) := rfl
      _ = ((c.perform m).1.performAll moves).kept [] := by rw [perform_kept, ih]

/-- Nothing else changes for the waits that are kept. -/
theorem completes_withoutWaits (c : Client) (moves : List Move) (n : Nat) :
    (c.kept moves).completes n (c.withoutWaits moves) = c.completes n moves := by
  induction moves generalizing c with
  | nil => rfl
  | cons m moves ih =>
    rw [withoutWaits, completes, completes, decides, perform_kept, ih]
    cases h : c.isDropped m moves with
    | false =>
      rw [replaced, h]
      rfl
    | true =>
      rw [replaced, h]
      cases hdecides : c.decides n m with
      | none => rfl
      | some isComplete =>
        obtain ⟨rfl, hcompletes⟩ := completes_of_isDropped h hdecides
        exact hcompletes

/-- No wait is dropped any more. -/
theorem isDropped_withoutWaits (c : Client) (m : Move) (moves : List Move) :
    (c.kept (m :: moves)).isDropped (c.replaced m moves) ((c.perform m).1.withoutWaits moves) =
      false := by
  rw [isDropped, perform_kept]
  cases h : c.isDropped m moves with
  | true => rfl
  | false =>
    have hdropped := h
    rw [isDropped] at hdropped
    simpa only [replaced, h, Bool.false_eq_true, if_false, completes_withoutWaits] using hdropped

theorem withoutWaits_withoutWaits (c : Client) (moves : List Move) :
    (c.kept moves).withoutWaits (c.withoutWaits moves) = c.withoutWaits moves := by
  induction moves generalizing c with
  | nil => rfl
  | cons m moves ih =>
    have hhead : (c.kept (m :: moves)).replaced (c.replaced m moves)
        ((c.perform m).1.withoutWaits moves) = c.replaced m moves := by
      rw [replaced, isDropped_withoutWaits]
      rfl
    rw [withoutWaits, withoutWaits, hhead, perform_kept, ih]

/-! ### What is left of an execution -/

/-- The waits under way are for executions that were started. -/
def HoldsStarted (c : Client) : Prop :=
  ∀ n e, c.waits n = some e → c.bench.executions[n]? = some e

theorem getElem?_executions_perform (he : c.bench.executions[n]? = some e) (m : Move) :
    (c.perform m).1.bench.executions[n]? = some e := by
  have hdoes := c.does m
  generalize c.perform m = r at *
  cases hdoes with
  | called s => exact Bench.getElem?_executions_perform he s
  | completed hn hclock => rwa [Bench.poll_of_le hclock]
  | unstarted | begun | unwaited | pending | dropped => exact he

theorem getElem?_executions_performAll (he : c.bench.executions[n]? = some e)
    (moves : List Move) : (c.performAll moves).bench.executions[n]? = some e := by
  induction moves generalizing c with
  | nil => exact he
  | cons m moves ih => exact ih (getElem?_executions_perform he m)

theorem HoldsStarted.perform (h : c.HoldsStarted) (m : Move) : (c.perform m).1.HoldsStarted := by
  intro n e hn
  refine getElem?_executions_perform ?_ m
  have hdoes := c.does m
  generalize c.perform m = r at *
  cases hdoes with
  | called | unstarted | unwaited | pending => exact h n e hn
  | @begun k e' he =>
    change Function.update c.waits k (some e') n = some e at hn
    rcases eq_or_ne n k with rfl | hne
    · rw [Function.update_self] at hn
      rwa [← hn]
    · exact h n e (by rwa [Function.update_of_ne hne] at hn)
  | @completed k | @dropped k =>
    rcases eq_or_ne n k with rfl | hne
    · exact absurd ((forget_waits_self c n).symm.trans hn) (by simp)
    · exact h n e ((Function.update_of_ne hne _ _).symm.trans hn)

theorem HoldsStarted.performAll (h : c.HoldsStarted) (moves : List Move) :
    (c.performAll moves).HoldsStarted := by
  induction moves generalizing c with
  | nil => exact h
  | cons m moves ih => exact ih (h.perform m)

/-- What a move does to the backend is what a few calls do. -/
theorem HoldsStarted.exists_perform_eq (h : c.HoldsStarted) (m : Move) :
    ∃ steps, (c.perform m).1.bench = c.bench.performAll steps := by
  have hdoes := c.does m
  generalize c.perform m = r at *
  cases hdoes with
  | called s => exact ⟨[s], rfl⟩
  | unstarted | begun | unwaited | pending | dropped => exact ⟨[], rfl⟩
  | @completed n e hn hclock =>
    refine ⟨[.wait n none], ?_⟩
    change _ = (c.bench.perform (.wait n none)).1
    rw [Bench.perform_wait (h n e hn), Bench.await_none, Nat.max_eq_left hclock,
      Bench.poll_of_le hclock]

/-- **What clients do to a backend can be done with calls alone**: a wait that is complete is a call
that waits, made at the moment when it is polled for the last time. -/
theorem HoldsStarted.exists_performAll_eq (h : c.HoldsStarted) (moves : List Move) :
    ∃ steps, (c.performAll moves).bench = c.bench.performAll steps := by
  induction moves generalizing c with
  | nil => exact ⟨[], rfl⟩
  | cons m moves ih =>
    obtain ⟨first, hfirst⟩ := h.exists_perform_eq m
    obtain ⟨rest, hrest⟩ := ih (h.perform m)
    refine ⟨first ++ rest, ?_⟩
    rw [Bench.performAll_append, ← hfirst]
    exact hrest

/-- A wait under way sleeps until the deadline, and gives the code from then on. -/
theorem pollWait_reply (hn : c.waits n = some e) :
    (c.perform (.pollWait n)).2 =
      if c.bench.clock < e.deadline then .pending else .complete e.exitCode := by
  split
  · next hlt => rw [(Does.pending hn hlt).eq]
  · next hge => rw [(Does.completed hn (Nat.not_lt.1 hge)).eq]

theorem kept_of_waits_eq (h : ∀ n, c.waits n = none) (moves : List Move) : c.kept moves = c := by
  refine Client.ext rfl (funext fun n => ?_)
  rw [kept_waits, h, ite_self]

/-- **Waits that are dropped leave no trace**, whatever a client does. -/
theorem forgetsWaits (b : Bench) (moves : List Move) : ForgetsWaits { bench := b } moves where
  same := by
    have hsession := session_withoutWaits { bench := b } moves
    rwa [kept_of_waits_eq fun _ => rfl] at hsession
  final := by
    have hfinal := performAll_withoutWaits { bench := b } moves
    rw [kept_of_waits_eq fun _ => rfl] at hfinal
    exact (congrArg bench hfinal).trans rfl
  undropped := by
    have htwice := withoutWaits_withoutWaits { bench := b } moves
    rwa [kept_of_waits_eq fun _ => rfl] at htwice
  givenUp := Bench.perform_eq_givenUp _ _ _
  resumed := by
    rintro earlier n e ⟨later, rfl⟩ he
    have hlast : (performAll { bench := b } (earlier ++ later)).bench.executions[n]? = some e := by
      rw [performAll, List.foldl_append]
      exact getElem?_executions_performAll he later
    rw [Bench.perform_wait hlast, Bench.await_none]
    exact ⟨rfl, rfl⟩
  polled := by
    intro n e hn
    have hstarted : HoldsStarted { bench := b } := by
      rintro _ _ ⟨⟩
    exact ⟨hstarted.performAll moves n e hn, pollWait_reply hn⟩

/-- An execution is waited for in three ways before it is ended from outside: by a call with a limit,
by a wait that is polled and dropped, and by one that is dropped past the deadline.  Another execution
is waited for meanwhile. -/
example :
    withoutWaits { bench := .fresh (.exit 2 10) 0 }
      [.call (.start ⟨1⟩ { program := "p" }), .call (.start ⟨2⟩ { program := "q" }),
        .call (.wait 0 (some 4)), .beginWait 0, .beginWait 1, .pollWait 0, .dropWait 0,
        .beginWait 0, .call (.advance 8), .dropWait 0, .pollWait 1, .call (.terminate 0)] =
      [.call (.start ⟨1⟩ { program := "p" }), .call (.start ⟨2⟩ { program := "q" }),
        .call (.advance 4), .call (.advance 0), .beginWait 1, .call (.advance 0),
        .call (.advance 0), .call (.advance 0), .call (.advance 8), .call (.advance 0),
        .pollWait 1, .call (.terminate 0)] := by
  rfl

end Waits

end Client

end FolderTasks.Scripted
