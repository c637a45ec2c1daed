import FolderTasks.Processes.Handle
import FolderTasks.Proofs.Machine.Hosts
/-!
# What a started process answers

A command is launched on a machine as a process with a number that no other process has, and nothing
else on the machine changes; a launch that is refused says which program could not be launched.  The
one who launched it may then wait for it, terminate it and ask for its number as often as he likes.
Every wait gets the same answer, which is settled by what was asked first: that of a process that is
waited for is how it ended, and a process that is terminated has no exit code.

## Main definitions

* `Handle.replies`: what is answered, one after the other.
* `Handle.verdict`: the code that all waits are answered.
* `Handle.AnswersTruly`: what the answers come to.

## Main statements

* `launch_eq_error`, `launch_eq_ok`: what comes of a launch.
* `Handle.answersTruly`: the answers, whatever is asked and in whatever order.
* `Handle.ending?_of_launched`: the ending of a launched process is final.
-/

namespace FolderTasks.Processes

open Machine

/-! ## Launching -/

section Launching

variable {h : Host} {isRead : Bool} {c : Command}

theorem isNumbered_freshHost (folders : List String) : (freshHost folders).IsNumbered :=
  ⟨.nil, fun _ hn => absurd hn List.not_mem_nil, show 0 < 1000 by decide⟩

/-- **A launch that is refused** names the program, and says that a text of the command has the
character NUL in it or what could not be found. -/
theorem launch_eq_error {f : Failure} (hl : launch h isRead c = .error f) :
    (mentionsNul c = true ∧ f = .launch c.program nulReason) ∨
      mentionsNul c = false ∧
        ∃ fault, prepare h c = .error fault ∧ f = .launch c.program fault.message := by
  rw [launch] at hl
  cases hnul : mentionsNul c with
  | true =>
    rw [if_pos hnul] at hl
    exact .inl ⟨rfl, (Except.error.inj hl).symm⟩
  | false =>
    rw [if_neg (by simp [hnul])] at hl
    refine .inr ⟨rfl, ?_⟩
    cases hp : prepare h c with
    | error fault =>
      rw [hp] at hl
      exact ⟨fault, rfl, (Except.error.inj hl).symm⟩
    | ok prepared =>
      rw [hp] at hl
      exact absurd hl (by simp)

/-- A process begins on a machine that has some more open files. -/
theorem exists_begin_eq (h : Host) (isRead : Bool) (context : Context) (call : Call) :
    ∃ store context' t, (begin h isRead context call).host =
        (({ h with store } : Host).start context' t).1 ∧
      (begin h isRead context call).number = h.nextNumber := by
  cases isRead <;> exact ⟨_, _, _, rfl, rfl⟩

/-- **A launched process** has a number that no other one has, and what should last on the machine
does. -/
theorem launch_eq_ok (hn : h.IsNumbered) {l : Launched} (hl : launch h isRead c = .ok l) :
    h.Evolves l.host ∧ l.host.clock = h.clock ∧ l.number ∉ h.numbers ∧
      l.host.HasLaunched l.number := by
  rw [launch] at hl
  split at hl
  · exact absurd hl (by simp)
  · split at hl
    · exact absurd hl (by simp)
    · next context call _ =>
      obtain rfl := Except.ok.inj hl
      obtain ⟨store, context', t, hhost, hnumber⟩ := exists_begin_eq h isRead context call
      have hstore := Host.evolves_store hn store
      obtain ⟨hstart, -, hlaunched⟩ := Host.evolves_start hstore.isNumbered context' t
      rw [hhost, hnumber]
      refine ⟨hstore.trans hstart, rfl, fun hmem => ?_, hlaunched⟩
      exact absurd (hn.given _ hmem).2 (Nat.lt_irrefl _)

end Launching

/-! ## Asking -/

/-- Does it settle what waits are answered? -/
def Asked.settles : Asked → Bool
  | .wait | .terminate => true
  | .number => false

namespace Handle

/-- What is answered, one after the other. -/
def replies (h : Handle) : List Asked → List Reply
  | [] => []
  | a :: rest => (h.perform a).2 :: (h.perform a).1.replies rest

/-- A handle after some asking. -/
def performAll (h : Handle) (asked : List Asked) : Handle :=
  asked.foldl (fun h a => (h.perform a).1) h

/-- **The code that all waits are answered**: the one that was collected before, or none if
terminating comes first, or else that of the process at its end. -/
def verdict (h : Handle) (asked : List Asked) : Option Int32 :=
  match h.collected with
  | some code => code
  | none => match asked.find? Asked.settles with
    | some .terminate => none
    | _ => (h.finish.host.ending? h.number).bind Ending.code?

/-- What is answered when all waits get a certain code. -/
def replyOf (code : Option Int32) : Asked → Reply
  | .wait => .ended code
  | .terminate => .done
  | .number => .numbered

/-- **What the answers come to.** -/
structure AnswersTruly (h : Handle) (asked : List Asked) : Prop where
  /-- All waits get the same code, wherever they stand. -/
  replies : h.replies asked = asked.map (replyOf (h.verdict asked))
  /-- What should last on the machine does, whatever is asked. -/
  evolves : h.host.IsNumbered → h.host.Evolves (h.performAll asked).host
  /-- A process that is waited for first is answered for by its ending, which is still there at the
  end of all the asking. -/
  ending : h.collected = none → asked.find? Asked.settles = some .wait →
    h.verdict asked = ((h.performAll asked).host.ending? h.number).bind Ending.code?
  /-- A process that is terminated first has no code. -/
  terminated : h.collected = none → asked.find? Asked.settles = some .terminate →
    h.verdict asked = none

section Answers

variable {h : Handle} {code : Option Int32}

theorem finish_collected (hc : h.collected = none) :
    h.finish.collected = some ((h.finish.host.ending? h.number).bind Ending.code?) := by
  simp only [finish, hc]

theorem verdict_of_collected (hc : h.collected = some code) (asked : List Asked) :
    h.verdict asked = code := by
  rw [verdict, hc]

/-- Once a code is collected it stays, and the machine is left alone. -/
theorem perform_of_collected (hc : h.collected = some code) (a : Asked) :
    (h.perform a).1 = h ∧ (h.perform a).2 = replyOf code a := by
  obtain ⟨host, number, collected⟩ := h
  obtain rfl : collected = some code := hc
  cases a <;> exact ⟨rfl, rfl⟩

theorem replies_of_collected (hc : h.collected = some code) (asked : List Asked) :
    h.replies asked = asked.map (replyOf code) ∧ h.performAll asked = h := by
  induction asked with
  | nil => exact ⟨rfl, rfl⟩
  | cons a asked ih =>
    obtain ⟨hhandle, hreply⟩ := perform_of_collected hc a
    rw [replies, performAll, List.foldl_cons, hhandle, hreply, List.map_cons, ih.1]
    exact ⟨rfl, ih.2⟩

/-- What is asked first settles the answers, unless it is the number. -/
theorem replies_eq (h : Handle) (asked : List Asked) :
    h.replies asked = asked.map (replyOf (h.verdict asked)) := by
  cases hc : h.collected with
  | some code =>
    rw [verdict_of_collected hc]
    exact (replies_of_collected hc asked).1
  | none =>
    induction asked with
    | nil => rfl
    | cons a asked ih =>
      cases a with
      | number =>
        have hverdict : h.verdict (.number :: asked) = h.verdict asked := by
          simp [verdict, hc, Asked.settles]
        rw [hverdict, List.map_cons, ← ih]
        rfl
      | wait =>
        have hcollected := finish_collected hc
        have hverdict : h.verdict (.wait :: asked) =
            (h.finish.host.ending? h.number).bind Ending.code? := by
          simp [verdict, hc, Asked.settles]
        rw [hverdict, List.map_cons, ← (replies_of_collected hcollected asked).1, replies]
        simp only [perform, hcollected, Option.getD_some, replyOf]
      | terminate =>
        have hcollected : (h.perform .terminate).1.collected = some none := by
          simp [perform, hc]
        have hfirst : (Asked.terminate :: asked).find? Asked.settles = some .terminate := rfl
        have hverdict : h.verdict (.terminate :: asked) = none := by
          rw [verdict, hc, hfirst]
        rw [hverdict, List.map_cons, ← (replies_of_collected hcollected asked).1]
        rfl

theorem evolves_perform (hn : h.host.IsNumbered) (a : Asked) :
    h.host.Evolves (h.perform a).1.host := by
  cases a with
  | terminate | number => exact .refl hn
  | wait =>
    simp only [perform, finish]
    split
    · exact .refl hn
    · exact Host.evolves_runUntil hn (fun host => (host.ending? h.number).isSome) none

theorem evolves_performAll (hn : h.host.IsNumbered) (asked : List Asked) :
    h.host.Evolves (h.performAll asked).host := by
  induction asked generalizing h with
  | nil => exact .refl hn
  | cons a asked ih =>
    have ha := evolves_perform hn a
    exact ha.trans (ih ha.isNumbered)

/-- When waiting settles the answers, the machine has run until then and no further. -/
theorem host_performAll (hc : h.collected = none) {asked : List Asked}
    (hasked : asked.find? Asked.settles = some .wait) :
    (h.performAll asked).host = h.finish.host := by
  induction asked with
  | nil => exact absurd hasked (by simp)
  | cons a asked ih =>
    cases a with
    | number => exact ih (by simpa [Asked.settles] using hasked)
    | wait => exact congrArg host (replies_of_collected (finish_collected hc) asked).2
    | terminate => exact absurd hasked (by simp [Asked.settles])

/-- **What a started process answers**, whatever is asked and in whatever order. -/
theorem answersTruly (h : Handle) (asked : List Asked) : h.AnswersTruly asked where
  replies := replies_eq h asked
  evolves hn := evolves_performAll hn asked
  ending hc hasked := by
    rw [host_performAll hc hasked, verdict, hc, hasked]
  terminated hc hasked := by
    rw [verdict, hc, hasked]

/-- **The ending of a launched process is final**: whatever was asked, and whatever happens on the
machine later. -/
theorem ending?_of_launched {host later : Host} {isRead : Bool} {c : Command} {l : Launched}
    (hn : host.IsNumbered) (hl : launch host isRead c = .ok l) (asked : List Asked)
    (hlater : ((ofLaunched l).performAll asked).host.Evolves later) {e : Ending}
    (he : ((ofLaunched l).performAll asked).host.ending? l.number = some e) :
    later.ending? l.number = some e := by
  obtain ⟨hlaunched, -, -, hthere⟩ := launch_eq_ok hn hl
  have hasked : l.host.Evolves ((ofLaunched l).performAll asked).host :=
    evolves_performAll (h := ofLaunched l) hlaunched.isNumbered asked
  exact hlater.ending? hasked.isNumbered (hasked.hasLaunched hthere) he

end Answers

end Handle

end FolderTasks.Processes
