import FolderTasks.Proofs.Dispatch.QueueLedger
/-!
# Entries are queued for folders

Whatever is queued through the workspace is queued for a folder, on the queue that the folder has at
that moment: an action that is run there, and a reset when its job gets its turn.  All other changes
leave the folders and the number of entries alone.

## Main definitions

* `World.holdings`: the folders, and how many entries there are.
* `World.Lodges`: what is queued meanwhile is for a folder.
* `World.Commissions`: it is an action on a folder, with the settings of the workspace.

## Main statements

* `World.Work.commissions`: what turns are made of, as long as callbacks request nothing.
* `World.instant_commissions`: what the user does between two turns with the folders that are there.

## Design notes

What callbacks do is written down with the replies, so whether they request anything is read off the
history.  What the user does leaves no such trace, and is told from the steps themselves.
-/

namespace FolderTasks.Dispatch

/-- Is a reply that of a request on a queue? -/
def Reply.isQueued : Reply → Bool
  | .queued _ _ => true
  | _ => false

/-- Is it a fact that a callback requested an operation? -/
def Happening.isHookRequest : Happening → Bool
  | .hookAnswered _ reply => reply.isQueued
  | _ => false

/-- Does an action request an operation on a queue, whatever folder it is for? -/
def Action.isRequest : Action → Bool
  | .request _ _ _ _ => true
  | _ => false

/-- Does a step request an operation on a queue, whatever folder it is for? -/
def Step.isRequest : Step → Bool
  | .act a => a.isRequest
  | _ => false

namespace World

/-! ## What leaves the folders and the number of entries alone -/

/-- How many entries there are, and the folders. -/
def holdings (w : World) : Nat × List (Path × QueueId) := (w.entries.length, w.folders)

section Holdings

variable (w : World)

@[simp] theorem holdings_note (h : Happening) : (w.note h).holdings = w.holdings := rfl

@[simp] theorem holdings_modifyEntry (e : EntryId) (f : Entry → Entry) :
    (w.modifyEntry e f).holdings = w.holdings :=
  Prod.ext (List.length_modify ..) rfl

@[simp] theorem holdings_modifyQueue (q : QueueId) (f : Queue → Queue) :
    (w.modifyQueue q f).holdings = w.holdings := rfl

@[simp] theorem holdings_setPosition (j : JobId) (p : Position) :
    (w.setPosition j p).holdings = w.holdings := rfl

@[simp] theorem holdings_endJob (j : JobId) : (w.endJob j).holdings = w.holdings := rfl

@[simp] theorem holdings_spawn (errand : Errand) : (w.spawn errand).1.holdings = w.holdings := rfl

@[simp] theorem holdings_setBackend (b : Scripted) : (w.setBackend b).holdings = w.holdings := rfl

@[simp] theorem holdings_setTimer (deadline : Nat) (j : JobId) :
    (w.setTimer deadline j).holdings = w.holdings := rfl

@[simp] theorem holdings_clearTimer (j : JobId) : (w.clearTimer j).holdings = w.holdings := rfl

@[simp] theorem holdings_takeNumber (j : JobId) : (w.takeNumber j).holdings = w.holdings := rfl

@[simp] theorem holdings_takeGuard (j : JobId) : (w.takeGuard j).holdings = w.holdings := rfl

@[simp] theorem holdings_joinLine (j : JobId) : (w.joinLine j).holdings = w.holdings := rfl

@[simp] theorem holdings_leaveLine (j : JobId) : (w.leaveLine j).holdings = w.holdings := rfl

@[simp] theorem holdings_wakeAll (js : List JobId) : (w.wakeAll js).holdings = w.holdings := by
  obtain ⟨ready, h⟩ := wakeAll_eq js w
  rw [h]
  rfl

@[simp] theorem holdings_releaseGuard : w.releaseGuard.holdings = w.holdings := by
  obtain ⟨ready, h⟩ := releaseGuard_eq w
  rw [h]
  rfl

@[simp] theorem holdings_listen (token : Option String) (j : JobId) :
    (w.listen token j).holdings = w.holdings := by
  obtain ⟨tokens, h⟩ := listen_eq w token j
  rw [h]
  rfl

@[simp] theorem holdings_unlisten (token : Option String) (j : JobId) :
    (w.unlisten token j).holdings = w.holdings := by
  obtain ⟨tokens, h⟩ := unlisten_eq w token j
  rw [h]
  rfl

@[simp] theorem holdings_cancel (name : String) : (w.cancel name).holdings = w.holdings := by
  obtain ⟨tokens, ready, h⟩ := cancel_eq w name
  rw [h]
  rfl

@[simp] theorem holdings_fire (t : Timer) : (w.fire t).holdings = w.holdings := by
  obtain ⟨timers, ready, h⟩ := fire_eq w t
  rw [h]
  rfl

@[simp] theorem holdings_dropExecution (call : Call) :
    (w.dropExecution call).holdings = w.holdings := by
  obtain ⟨tokens, timers, ready, g, h⟩ := dropExecution_eq w call
  rw [h]
  rfl

@[simp] theorem holdings_disposeManager : w.disposeManager.holdings = w.holdings := by
  obtain ⟨history, manager, h, -⟩ := disposeManager_eq w
  rw [h]
  rfl

@[simp] theorem holdings_abandonJob (j : JobId) : (w.abandonJob j).1.holdings = w.holdings := by
  rcases abandonJob_eq w j with h | ⟨ready, h⟩ <;> rw [h]
  rfl

@[simp] theorem holdings_dispatch (q : QueueId) : (w.dispatch q).holdings = w.holdings := by
  rcases dispatch_eq w q with h | ⟨queue, e, rest, -, -, -, h⟩ <;> rw [h]
  rfl

@[simp] theorem holdings_takeSeat (e : EntryId) (who : Waiter) :
    (w.takeSeat e who).1.holdings = w.holdings := by
  unfold takeSeat
  split
  · rfl
  · exact holdings_modifyEntry w e _

@[simp] theorem holdings_leaveSeat (e : EntryId) (seat : Nat) :
    (w.leaveSeat e seat).holdings = w.holdings := holdings_modifyEntry w e _

theorem holdings_receive? {w w' : World} {e : EntryId} {o : Outcome}
    (h : w.receive? e = some (w', o)) : w'.holdings = w.holdings := by
  unfold receive? at h
  split at h
  · obtain ⟨rfl, -⟩ := Prod.mk.inj (Option.some.inj h)
    exact holdings_modifyEntry w e _
  · exact absurd h (by simp)

@[simp] theorem holdings_deliver (e : EntryId) (o : Outcome) :
    (w.deliver e o).holdings = w.holdings := by
  unfold deliver
  split
  · rfl
  · simp

@[simp] theorem holdings_resolve (e : EntryId) (o : Outcome) :
    (w.resolve e o).holdings = w.holdings := by
  unfold resolve
  split
  · rfl
  · simp

@[simp] theorem holdings_reopen (q : QueueId) (e : EntryId) :
    (w.reopen q e).holdings = w.holdings := rfl

@[simp] theorem holdings_discardReset (e : EntryId) (seat : Nat) :
    (w.discardReset e seat).holdings = w.holdings := by
  unfold discardReset
  split
  · rfl
  · dsimp only
    split <;> simp

@[simp] theorem holdings_discard (j : JobId) (job : Job) :
    (w.discard j job).holdings = w.holdings := by
  unfold discard
  dsimp only
  split <;> simp

@[simp] theorem holdings_subscribe (kind : NoticeKind) (o : Observer) :
    (w.subscribe kind o).1.holdings = w.holdings := by
  cases kind <;> rfl

theorem holdings_observe (name : String) (kind : NoticeKind) (hooks : List Hook) :
    (w.observe name kind hooks).holdings = w.holdings := by
  have hkept := holdings_subscribe w kind ⟨name, hooks⟩
  unfold observe
  dsimp only
  split
  · exact hkept
  · exact hkept

/-- An action that requests nothing. -/
theorem holdings_perform {a : Action} (ha : a.isRequest = false) :
    (w.perform a).1.holdings = w.holdings := by
  cases a with
  | script args s startDelay => cases startDelay <;> rfl
  | makeQueue | execute | reset => rfl
  | request => exact Bool.noConfusion ha
  | cancel token => exact holdings_cancel w token
  | withhold queue value =>
    simp only [perform, withQueue]
    split <;> rfl
  | peek handle | watch handle =>
    simp only [perform, withHandle]
    split <;> rfl
  | describe handle =>
    simp only [perform, withHandle]
    split
    · split <;> rfl
    · rfl
  | compare a b =>
    simp only [perform, withHandle]
    split
    · split <;> rfl
    · rfl
  | observe name kind hooks => exact holdings_observe w name kind hooks
  | unobserve name =>
    simp only [perform]
    split <;> rfl
  | countObservers | inspectManager | listRecords | undecodable | unknown => rfl
  | disposeManager => exact holdings_disposeManager w
  | abandon name =>
    simp only [perform]
    split
    · rfl
    · rw [abandonJob_names]
      exact holdings_abandonJob w _

end Holdings

/-! ## What is queued for a folder -/

/-- **What is queued meanwhile is for a folder**, and on the queue that the folder has. -/
structure Lodges (w w' : World) : Prop where
  folders : w'.folders = w.folders
  lodged : ∀ {e : EntryId} {entry : Entry}, w.entries.length ≤ e → w'.entryOf? e = some entry →
    ∃ folder, entry.operation.command.cwd = some folder ∧ w.folderQueue? folder = some entry.queue

/-- **What is queued meanwhile is an action on a folder**, with the settings of the workspace and on
the queue that the folder has. -/
structure Commissions (w w' : World) : Prop where
  folders : w'.folders = w.folders
  commissioned : ∀ {e : EntryId} {entry : Entry}, w.entries.length ≤ e →
    w'.entryOf? e = some entry → ∃ (a : PackageAction) (folder : Path),
      entry.operation = a.operation w.toolchain folder ∧ w.folderQueue? folder = some entry.queue

section Lodging

variable {w w' : World}

theorem entryOf?_lt {e : EntryId} {entry : Entry} (h : w.entryOf? e = some entry) :
    e < w.entries.length := (List.getElem?_eq_some_iff.1 h).1

/-- Nothing is queued where there are no more entries than before. -/
theorem Commissions.of_holdings (h : w'.holdings = w.holdings) : Commissions w w' := by
  have hlength : w'.entries.length = w.entries.length := congrArg Prod.fst h
  refine ⟨congrArg Prod.snd h, ?_⟩
  intro e entry hle he
  have hlt := entryOf?_lt he
  rw [hlength] at hlt
  exact absurd hlt (Nat.not_lt.2 hle)

/-- An action on a folder is for that folder. -/
theorem Commissions.lodges (h : Commissions w w') : Lodges w w' := by
  refine ⟨h.folders, ?_⟩
  intro e entry hle he
  obtain ⟨a, folder, hop, hq⟩ := h.commissioned hle he
  exact ⟨folder, by rw [hop]; rfl, hq⟩

theorem Lodges.of_holdings (h : w'.holdings = w.holdings) : Lodges w w' :=
  (Commissions.of_holdings h).lodges

/-- An entry that is changed is for the same folder as before. -/
theorem Commissions.modifyEntry (h : Commissions w w') (e : EntryId) {f : Entry → Entry}
    (hqueue : ∀ entry, (f entry).queue = entry.queue)
    (hoperation : ∀ entry, (f entry).operation = entry.operation) :
    Commissions w (w'.modifyEntry e f) := by
  refine ⟨h.folders, ?_⟩
  intro e' entry hle he'
  obtain ⟨entry', hentry', rfl⟩ := exists_of_getElem?_modify he'
  have hcommissioned := h.commissioned hle hentry'
  split
  · rwa [hqueue, hoperation]
  · exact hcommissioned

theorem request_commissions {q : QueueId} (a : PackageAction) {folder : Path}
    (token : Option String) (hq : w.folderQueue? folder = some q) :
    Commissions w (w.request q (a.operation w.toolchain folder) token).1 := by
  rcases request_eq w q (a.operation w.toolchain folder) token with
    h | ⟨queue, e, -, -, h⟩ | ⟨queue, -, -, h⟩
  · rw [h]
    exact .of_holdings rfl
  · rw [h]
    exact .of_holdings rfl
  · rw [h]
    have hholdings :=
      holdings_dispatch (w.append q queue (a.operation w.toolchain folder) token).1 q
    refine ⟨congrArg Prod.snd hholdings, ?_⟩
    intro e entry hle he
    rw [entryOf?, dispatch_entries] at he
    change (w.entries ++
      [{ queue := q, operation := a.operation w.toolchain folder, token }])[e]? = some entry at he
    rcases getElem?_concat_cases he with he | ⟨-, rfl⟩
    · exact absurd (List.getElem?_eq_some_iff.1 he).1 (Nat.not_lt.2 hle)
    · exact ⟨a, folder, rfl, hq⟩

/-- A reset is queued for its folder. -/
theorem askReset_commissions (j : JobId) {q : QueueId} {folder : Path} (token : Option String)
    (hq : w.folderQueue? folder = some q) : Commissions w (w.askReset j q folder token) := by
  have hrequested : Commissions (w.withhold q true) ((w.withhold q true).request q
      (PackageAction.reset.operation w.toolchain folder) token).1 :=
    request_commissions .reset token hq
  unfold askReset
  dsimp only
  generalize (w.withhold q true).request q _ token = r at hrequested ⊢
  have hnoted : Commissions w (r.1.note (.resetAsked q r.2)) :=
    ⟨hrequested.folders, hrequested.commissioned⟩
  have hseated : Commissions w ((r.1.note (.resetAsked q r.2)).takeSeat r.2 (.job j)).1 := by
    unfold takeSeat
    split
    · exact hnoted
    · exact hnoted.modifyEntry _ (fun _ => rfl) fun _ => rfl
  exact ⟨hseated.folders, hseated.commissioned⟩

theorem Telling.holdings (h : Telling w w') : w'.holdings = w.holdings := by
  cases h <;> rfl

theorem Stride.holdings (h : Stride w w') : w'.holdings = w.holdings := by
  cases h <;> simp

theorem Closing.commissions (h : Closing w w') : Commissions w w' := by
  cases h with
  | closed o hat hp => exact .of_holdings (by simp)
  | executionEnded | resetRefused | resetForgotten => exact .of_holdings (by simp)
  | resetAsked q hat hq => exact askReset_commissions _ _ hq
  | seatTaken e hat hp he => exact .of_holdings (by simp)
  | resetConcluded o hat he hr =>
    refine .of_holdings ?_
    rw [holdings_endJob, concludeReset, holdings_note, holdings_reopen, holdings_note,
      holdings_receive? hr]
  | watchEnded o hat hp hr =>
    refine .of_holdings (Eq.trans ?_ (holdings_receive? hr))
    split <;> rfl
  | reopened o hat hp hr =>
    refine .of_holdings ?_
    rw [holdings_endJob, holdings_reopen, holdings_receive? hr]
  | discarded hj ha hp => exact .of_holdings (by simp)

/-- **In a turn nothing is queued but actions on folders**, as long as callbacks request nothing. -/
theorem Work.commissions (h : Work w w') (hhooks : ∀ p ∈ w'.history, p.2.isHookRequest = false) :
    Commissions w w' := by
  cases h with
  | turnTaken | turnSet => exact .of_holdings rfl
  | answered site a =>
    refine .of_holdings ?_
    rw [holdings_note]
    cases a with
    | request queue op token handle =>
      -- The reply to a request that found a queue would be in the history.
      have hreply := hhooks _ List.mem_cons_self
      simp only [perform, withQueue] at hreply ⊢
      split
      · next q hq =>
        rw [hq] at hreply
        exact Bool.noConfusion hreply
      · rfl
    | _ => exact holdings_perform w rfl
  | telling h => exact .of_holdings h.holdings
  | stride h => exact .of_holdings h.holdings
  | closing h => exact h.commissions

theorem Work.lodges (h : Work w w') (hhooks : ∀ p ∈ w'.history, p.2.isHookRequest = false) :
    Lodges w w' := (h.commissions hhooks).lodges

/-- What the user does between two turns queues nothing but actions on folders. -/
theorem instant_commissions {s : Step} (hs : s.isInstant) (hr : s.isRequest = false)
    (hadd : ∀ folder, s ≠ .addFolder folder) (hremove : ∀ folder, s ≠ .removeFolder folder)
    (hdispose : s ≠ .dispose) : Commissions w (w.step s).1 := by
  cases s with
  | act a => exact .of_holdings (holdings_perform w hr)
  | settle | advance | await => exact Bool.noConfusion hs
  | addFolder folder => exact absurd rfl (hadd folder)
  | removeFolder folder => exact absurd rfl (hremove folder)
  | dispose => exact absurd rfl hdispose
  | folders | toolchain => exact .of_holdings rfl
  | find folder =>
    simp only [step]
    split <;> exact .of_holdings rfl
  | tasks folder products =>
    simp only [step]
    split <;> exact .of_holdings rfl
  | run folder action token handle =>
    simp only [step]
    split
    · next q hq =>
      have hrequested := request_commissions action token hq
      exact ⟨hrequested.folders, hrequested.commissioned⟩
    · exact .of_holdings rfl

theorem instant_lodges {s : Step} (hs : s.isInstant) (hr : s.isRequest = false)
    (hadd : ∀ folder, s ≠ .addFolder folder) (hremove : ∀ folder, s ≠ .removeFolder folder)
    (hdispose : s ≠ .dispose) : Lodges w (w.step s).1 :=
  (instant_commissions hs hr hadd hremove hdispose).lodges

end Lodging

end World

end FolderTasks.Dispatch
