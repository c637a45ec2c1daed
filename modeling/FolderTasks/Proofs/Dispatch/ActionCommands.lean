import FolderTasks.Proofs.Dispatch.EntrySharing
import FolderTasks.Proofs.Dispatch.HandleOutcomes
import FolderTasks.Proofs.Dispatch.QueueWithholding
/-!
# Whoever runs an action gets its command

Requests are told apart by their arguments alone, whatever the program, the directory and the
environment, so a request may be answered with the entry of another.  When a workspace is used
through its folders this changes nothing about what is run: a queue is that of one folder, however
it is spelled, its operations are actions on that folder with the settings of the workspace, and two
of these that have the same arguments have the same command.

## Main definitions

* `World.IsHome`: a queue is that of a folder, or has an operation for it.
* `World.IsCommissioned`: all operations are actions on folders, and each queue has one folder.
* `World.RunsAsAsked`: an entry runs a command, or one that is the same.

## Main statements

* `PackageAction.command_same`: actions with the same arguments have the same command in a folder.
* `World.Change.toolchain`: the settings are never changed.
* `World.Driven.isCommissioned`: queues are left to their folders along the way.
* `World.Driven.runsAsAsked`: an action that is run on a folder runs its own command.
-/

namespace FolderTasks

/-! ## Commands of actions -/

/-- The name of a folder does not depend on its spelling. -/
theorem Path.Same.fileName? {p p' : Path} (h : p.Same p') : p.fileName? = p'.fileName? := by
  rw [Path.fileName?, Path.fileName?, h]

/-- **Two actions with the same arguments have the same command** in a folder, however that is
spelled. -/
theorem PackageAction.command_same {a a' : PackageAction} {toolchain : Toolchain}
    {folder folder' : Path} (hargs : a.arguments toolchain = a'.arguments toolchain)
    (hsame : folder.Same folder') :
    (a.command toolchain folder).same (a'.command toolchain folder') = true := by
  simp [Command.same, Command.samePath?, PackageAction.command, hargs, hsame.fileName?,
    decide_eq_true hsame]

namespace Dispatch.World

/-- **A queue is that of a folder**, or has an operation that is to run there. -/
def IsHome (w : World) (q : QueueId) (folder : Path) : Prop :=
  (folder, q) ∈ w.folders ∨ ∃ (e : EntryId) (entry : Entry), w.entryOf? e = some entry ∧
    entry.queue = q ∧ entry.operation.command.cwd = some folder

/-- **All that is queued are actions on folders**, and each queue has one folder. -/
structure IsCommissioned (w : World) : Prop where
  action : ∀ {e : EntryId} {entry : Entry}, w.entryOf? e = some entry →
    ∃ (a : PackageAction) (folder : Path), entry.operation = a.operation w.toolchain folder
  home : ∀ {q : QueueId} {folder folder' : Path}, w.IsHome q folder → w.IsHome q folder' →
    folder.Same folder'

/-- **An entry runs a command**, or one that is the same: such is that of its operation, and such is
every command that the backend is asked to start for it. -/
structure RunsAsAsked (w : World) (e : EntryId) (c : Command) : Prop where
  operation : ∃ entry, w.entryOf? e = some entry ∧ entry.operation.command.same c = true
  asked : ∀ {id : TaskId} {c' : Command}, w.Serves id e → .startAsked id c' ∈ w.annals id →
    c'.same c = true

/-! ## The settings -/

section Settings

variable {w w' : World}

@[simp] theorem toolchain_wakeAll (w : World) (js : List JobId) :
    (w.wakeAll js).toolchain = w.toolchain := by
  obtain ⟨ready, h⟩ := wakeAll_eq js w
  rw [h]

@[simp] theorem toolchain_releaseGuard (w : World) : w.releaseGuard.toolchain = w.toolchain := by
  obtain ⟨ready, h⟩ := releaseGuard_eq w
  rw [h]

@[simp] theorem toolchain_listen (w : World) (token : Option String) (j : JobId) :
    (w.listen token j).toolchain = w.toolchain := by
  obtain ⟨tokens, h⟩ := listen_eq w token j
  rw [h]

@[simp] theorem toolchain_unlisten (w : World) (token : Option String) (j : JobId) :
    (w.unlisten token j).toolchain = w.toolchain := by
  obtain ⟨tokens, h⟩ := unlisten_eq w token j
  rw [h]

@[simp] theorem toolchain_dispatch (w : World) (q : QueueId) :
    (w.dispatch q).toolchain = w.toolchain := by
  rcases dispatch_eq w q with h | ⟨queue, e, rest, -, -, -, h⟩ <;> rw [h]

@[simp] theorem toolchain_request (w : World) (q : QueueId) (op : Operation)
    (token : Option String) : (w.request q op token).1.toolchain = w.toolchain := by
  rcases request_eq w q op token with h | ⟨queue, e, -, -, h⟩ | ⟨queue, -, -, h⟩
  · rw [h]
  · rw [h]
    rfl
  · rw [h]
    exact toolchain_dispatch _ q

@[simp] theorem toolchain_takeSeat (w : World) (e : EntryId) (who : Waiter) :
    (w.takeSeat e who).1.toolchain = w.toolchain := by
  unfold takeSeat
  split <;> rfl

theorem toolchain_receive? {e : EntryId} {o : Outcome} (h : w.receive? e = some (w', o)) :
    w'.toolchain = w.toolchain := by
  unfold receive? at h
  split at h
  · obtain ⟨rfl, -⟩ := Prod.mk.inj (Option.some.inj h)
    rfl
  · exact absurd h (by simp)

@[simp] theorem toolchain_resolve (w : World) (e : EntryId) (o : Outcome) :
    (w.resolve e o).toolchain = w.toolchain := by
  unfold resolve
  split
  · rfl
  · unfold deliver
    dsimp only
    split
    · exact toolchain_dispatch _ _
    · exact (toolchain_wakeAll _ _).trans (toolchain_dispatch _ _)

theorem Deed.toolchain (h : Deed w w') : w'.toolchain = w.toolchain := by
  cases h with
  | requested q op token => exact toolchain_request w q op token
  | cancelled name =>
    obtain ⟨tokens, ready, h⟩ := cancel_eq w name
    rw [h]
  | disposed =>
    obtain ⟨history, manager, h, -⟩ := disposeManager_eq w
    rw [h]
  | abandoned name j _ => rcases abandonJob_eq w j with h | ⟨ready, h⟩ <;> rw [h]
  | _ => rfl

theorem Drift.toolchain (h : Drift w w') : w'.toolchain = w.toolchain := by
  cases h with
  | fired t _ =>
    obtain ⟨timers, ready, h⟩ := fire_eq w t
    rw [h]
  | sat e => exact toolchain_takeSeat w e _
  | received e o hr => exact toolchain_receive? hr
  | _ => rfl

theorem Stride.toolchain (h : Stride w w') : w'.toolchain = w.toolchain := by
  cases h with
  | lineJoined => exact toolchain_listen _ _ _
  | endAwaited => exact toolchain_listen _ _ _
  | unlistened j token => exact toolchain_unlisten w token j
  | guardReturned => exact toolchain_releaseGuard w
  | refused => exact toolchain_releaseGuard _
  | started => exact toolchain_releaseGuard _
  | _ => rfl

theorem toolchain_discard (w : World) (j : JobId) (job : Job) :
    (w.discard j job).toolchain = w.toolchain := by
  unfold discard
  dsimp only
  split
  · obtain ⟨tokens, timers, ready, g, h⟩ := dropExecution_eq w _
    rw [h]
    rfl
  · unfold discardReset
    split
    · rfl
    · dsimp only
      split <;> rfl
  · rfl

theorem Closing.toolchain (h : Closing w w') : w'.toolchain = w.toolchain := by
  cases h with
  | closed o => exact toolchain_resolve w _ o
  | resetAsked q => exact (toolchain_takeSeat _ _ _).trans (toolchain_request _ q _ _)
  | seatTaken e => exact toolchain_takeSeat w e _
  | resetConcluded o _ _ hr | reopened o _ _ hr => exact (toolchain_receive? hr :)
  | watchEnded o _ _ hr =>
    refine Eq.trans ?_ (toolchain_receive? hr)
    split <;> rfl
  | discarded => exact toolchain_discard w _ _
  | _ => rfl

/-- **The settings are never changed.** -/
theorem Change.toolchain (h : Change w w') : w'.toolchain = w.toolchain := by
  cases h with
  | deed h => exact h.toolchain
  | drift h => exact h.toolchain
  | telling h => cases h <;> rfl
  | stride h => exact h.toolchain
  | closing h => exact h.toolchain

theorem Changes.toolchain (h : Changes w w') : w'.toolchain = w.toolchain := by
  induction h with
  | refl => rfl
  | tail _ hc ih => rw [hc.toolchain, ih]

end Settings

/-! ## Queues and their folders -/

section Homes

variable {w w' : World} {q : QueueId} {e : EntryId} {folder : Path}

/-- What was queued before was for the same queue, and is the same operation. -/
theorem Arises.entry_back (hw : Arises w) (hc : Changes w w') (hlt : e < w.entries.length)
    {entry' : Entry} (he' : w'.entryOf? e = some entry') : ∃ entry, w.entryOf? e = some entry ∧
      entry.queue = entry'.queue ∧ entry.operation = entry'.operation := by
  obtain ⟨entry, he⟩ : ∃ entry, w.entryOf? e = some entry := ⟨_, List.getElem?_eq_getElem hlt⟩
  obtain ⟨entry₁, he₁, horder⟩ := (hw.lasts_changes hc).entryOf? he
  obtain rfl := Option.some.inj (he₁.symm.trans he')
  exact ⟨entry, he, (hw.queue_forth hc he he').symm, (Prod.mk.inj horder).1.symm⟩

/-- The queue of a home is there. -/
theorem Reachable.isHome_lt (hw : Reachable w) (h : w.IsHome q folder) : q < w.queues.length := by
  rcases h with hf | ⟨e, entry, he, rfl, -⟩
  · exact hw.isVouched.folders _ hf
  · obtain ⟨active, pending, hslot⟩ := hw.arises.isOrderly.exists_slot (isOn_ledger he)
    have hlt := (List.getElem?_eq_some_iff.1 hslot).1
    change entry.queue < w.slots.length at hlt
    rwa [slots, List.length_map] at hlt

namespace IsCommissioned

/-- What is queued are actions, and no queue gets a folder that it did not have. -/
theorem kept (h : w.IsCommissioned) (hw : Arises w) (hc : Changes w w')
    (haction : ∀ {e : EntryId} {entry : Entry}, w.entries.length ≤ e →
      w'.entryOf? e = some entry →
        ∃ (a : PackageAction) (folder : Path), entry.operation = a.operation w.toolchain folder)
    (hback : ∀ {q : QueueId} {folder : Path}, w'.IsHome q folder →
      ∃ folder', folder.Same folder' ∧ w.IsHome q folder') : w'.IsCommissioned := by
  constructor
  · intro e entry he
    rw [hc.toolchain]
    by_cases hlt : e < w.entries.length
    · obtain ⟨entry₀, he₀, -, hop⟩ := hw.entry_back hc hlt he
      exact hop ▸ h.action he₀
    · exact haction (Nat.not_lt.1 hlt) he
  · intro q folder folder' hf hf'
    obtain ⟨g, hsame, hg⟩ := hback hf
    obtain ⟨g', hsame', hg'⟩ := hback hf'
    exact (hsame.trans (h.home hg hg')).trans hsame'.symm

/-- Folders are removed, and nothing is queued. -/
theorem unlist (h : w.IsCommissioned) (hw : Arises w) (hc : Changes w w')
    (hlength : w'.entries.length = w.entries.length) (hfolders : ∀ f ∈ w'.folders, f ∈ w.folders) :
    w'.IsCommissioned := by
  refine h.kept hw hc (fun hle he => absurd (entryOf?_lt he) (hlength ▸ Nat.not_lt.2 hle)) ?_
  rintro q folder (hf | ⟨e, entry, he, rfl, hcwd⟩)
  · exact ⟨folder, .refl _, .inl (hfolders _ hf)⟩
  · obtain ⟨entry₀, he₀, hqueue, hop⟩ := hw.entry_back hc (hlength ▸ entryOf?_lt he) he
    exact ⟨folder, .refl _, .inr ⟨e, entry₀, he₀, hqueue, hop ▸ hcwd⟩⟩

/-- What is queued is queued for folders. -/
theorem commission (h : w.IsCommissioned) (hw : Arises w) (hc : Changes w w')
    (hl : Commissions w w') : w'.IsCommissioned := by
  refine h.kept hw hc (fun hle he => ?_) ?_
  · obtain ⟨a, folder, hop, -⟩ := hl.commissioned hle he
    exact ⟨a, folder, hop⟩
  rintro q folder (hf | ⟨e, entry, he, rfl, hcwd⟩)
  · exact ⟨folder, .refl _, .inl (hl.folders ▸ hf)⟩
  by_cases hlt : e < w.entries.length
  · obtain ⟨entry₀, he₀, hqueue, hop⟩ := hw.entry_back hc hlt he
    exact ⟨folder, .refl _, .inr ⟨e, entry₀, he₀, hqueue, hop ▸ hcwd⟩⟩
  · -- The folder of a new entry is there, maybe under another spelling.
    obtain ⟨a, folder', hop, hq⟩ := hl.commissioned (Nat.not_lt.1 hlt) he
    rw [hop] at hcwd
    obtain rfl := Option.some.inj hcwd
    obtain ⟨f, hf, hqueue⟩ := Option.map_eq_some_iff.1 hq
    have hfound : f.1.Same folder' := by simpa using List.find?_some hf
    exact ⟨f.1, hfound.symm, .inl (hqueue ▸ List.mem_of_find?_eq_some hf)⟩

/-- A folder is added, with a queue of its own. -/
theorem list (h : w.IsCommissioned) (hw : Reachable w) (hc : Changes w w') (folder : Path)
    (hentries : w'.entries = w.entries)
    (hfolders : w'.folders = w.folders ++ [(folder, w.queues.length)]) : w'.IsCommissioned := by
  have hhome {q : QueueId} {f : Path} (hf : w'.IsHome q f) :
      w.IsHome q f ∨ f = folder ∧ q = w.queues.length := by
    rcases hf with hf | ⟨e, entry, he, hrest⟩
    · rw [hfolders, List.mem_append, List.mem_singleton, Prod.mk.injEq] at hf
      exact hf.imp .inl id
    · rw [entryOf?, hentries] at he
      exact .inl (.inr ⟨e, entry, he, hrest⟩)
  constructor
  · intro e entry he
    rw [entryOf?, hentries] at he
    rw [hc.toolchain]
    exact h.action he
  · intro q f g hf hg
    -- Nothing else has the new queue for its own.
    rcases hhome hf with hf | ⟨rfl, rfl⟩ <;> rcases hhome hg with hg | ⟨rfl, hq⟩
    · exact h.home hf hg
    · exact absurd (hw.isHome_lt hf) (hq ▸ Nat.lt_irrefl _)
    · exact absurd (hw.isHome_lt hg) (Nat.lt_irrefl _)
    · exact .refl _

/-- A turn leaves queues to their folders. -/
theorem works (h : w.IsCommissioned) (hw : Arises w) (hc : Works w w')
    (hhooks : ∀ p ∈ w'.history, p.2.isHookRequest = false) : w'.IsCommissioned := by
  induction hc with
  | refl => exact h
  | tail hc hlast ih =>
    have harises := hw.changes (Works.changes hc)
    have hbefore := (harises.lasts_changes hlast.changes).history
    exact (ih fun p hp => hhooks p (hbefore.subset hp)).commission harises hlast.changes
      (hlast.commissions hhooks)

/-- What the user does between two turns leaves queues to their folders. -/
theorem step (h : w.IsCommissioned) (hw : Reachable w) {s : Step} (hs : s.isInstant)
    (hr : s.isRequest = false) : (w.step s).1.IsCommissioned := by
  have hc := instant_changes w hs
  cases s with
  | addFolder folder =>
    cases hq : w.folderQueue? folder with
    | some q =>
      refine h.commission hw.arises hc (.of_holdings ?_)
      simp only [World.step, addFolder, hq]
      rfl
    | none =>
      refine h.list hw hc folder ?_ ?_
      · simp only [World.step, addFolder, hq]
        rfl
      · simp only [World.step, addFolder, hq]
        rfl
  | removeFolder folder =>
    refine h.unlist hw.arises hc ?_ ?_
    · simp only [World.step, removeFolder]
      split <;> rfl
    · intro f hf
      simp only [World.step, removeFolder] at hf
      split at hf
      · exact hf
      · exact (List.mem_filter.1 hf).1
  | dispose =>
    refine h.unlist hw.arises hc ?_ fun f hf => absurd hf List.not_mem_nil
    exact congrArg Prod.fst (holdings_disposeManager w)
  | _ => exact h.commission hw.arises hc (instant_commissions hs hr (by simp) (by simp) (by simp))

end IsCommissioned

/-- What goes on meanwhile leaves queues to their folders. -/
theorem Passing.isCommissioned (hp : Passing w w') (h : w.IsCommissioned) (hw : Arises w)
    (hhooks : ∀ p ∈ w'.history, p.2.isHookRequest = false) : w'.IsCommissioned := by
  have hc := hp.transition.changes
  cases hp with
  | turn j hj => exact h.works hw (takeTurn_works hj) hhooks
  | fire t ht => exact h.commission hw hc (.of_holdings (holdings_fire w t))
  | pass moment hle => exact h.commission hw hc (.of_holdings rfl)
  | sit e => exact h.commission hw hc (.of_holdings (holdings_takeSeat w e _))
  | leave e entry seat he hseat =>
    exact h.commission hw hc (.of_holdings (holdings_leaveSeat w e seat))
  | receive e o hr => exact h.commission hw hc (.of_holdings (holdings_receive? hr))

theorem isCommissioned_new (s : Setting) : s.world.IsCommissioned := by
  have hnone {e : EntryId} {entry : Entry} : s.world.entryOf? e ≠ some entry := by
    simp [Setting.world, entryOf?]
  constructor
  · exact fun he => absurd he hnone
  · rintro q folder folder' (hf | ⟨e, entry, he, -⟩)
    · exact absurd hf List.not_mem_nil
    · exact absurd he hnone

/-- **Queues are left to their folders** when a workspace is used through them. -/
theorem Driven.isCommissioned {may : World → Path → Prop} (h : Driven may w)
    (hhooks : ∀ p ∈ w.history, p.2.isHookRequest = false) : w.IsCommissioned := by
  induction h with
  | new s => exact isCommissioned_new s
  | @act w h s hs hr _ ih =>
    have hbefore := (h.reachable.arises.lasts_changes (instant_changes w hs)).history
    exact (ih fun p hp => hhooks p (hbefore.subset hp)).step h.reachable hs hr
  | passing h hp ih =>
    have hw := h.reachable.arises
    have hbefore := (hw.lasts_changes hp.transition.changes).history
    exact hp.isCommissioned (ih fun p hp => hhooks p (hbefore.subset hp)) hw hhooks

end Homes

/-! ## What becomes of an action that is run -/

section Running

variable {w w' : World} {q : QueueId} {e : EntryId} {folder : Path}

/-- An operation that waits on the queue of a folder with the arguments of an action there has the
command of that action. -/
theorem IsCommissioned.command_same (h : w.IsCommissioned) (hq : w.folderQueue? folder = some q)
    {entry : Entry} (he : w.entryOf? e = some entry) (hqueue : entry.queue = q) {a : PackageAction}
    (hargs : entry.operation.key = a.arguments w.toolchain) :
    entry.operation.command.same (a.command w.toolchain folder) = true := by
  obtain ⟨a', folder', hop⟩ := h.action he
  obtain ⟨f, hf, rfl⟩ := Option.map_eq_some_iff.1 hq
  have hfound : f.1.Same folder := by simpa using List.find?_some hf
  have hhome : w.IsHome f.2 folder' := .inr ⟨e, entry, he, hqueue, by rw [hop]; rfl⟩
  have hsame : folder'.Same f.1 := h.home hhome (.inl (List.mem_of_find?_eq_some hf))
  rw [hop] at hargs ⊢
  exact PackageAction.command_same hargs (hsame.trans hfound)

/-- The entry that serves a request is one of the queue, and has the arguments. -/
theorem Arises.exists_request (hw : Arises w) (hlt : q < w.queues.length) (op : Operation)
    (token : Option String) : ∃ entry,
      (w.request q op token).1.entryOf? (w.request q op token).2 = some entry ∧
        entry.queue = q ∧ entry.operation.key = op.key := by
  obtain ⟨entry, he, -, hkey⟩ :=
    (hw.deduplicates (List.getElem?_eq_getElem hlt) op token).exists_entry
  have howner := owner_request hw.isOrderly hlt op token
  change ((w.request q op token).1.entries.map Entry.queue)[(w.request q op token).2]? = some q
    at howner
  rw [List.getElem?_map] at howner
  obtain ⟨entry', he', hqueue⟩ := Option.map_eq_some_iff.1 howner
  obtain rfl := Option.some.inj (he.symm.trans he')
  exact ⟨entry, he, hqueue, hkey⟩

/-- What serves the request of an action has its command. -/
theorem IsCommissioned.request (h : w.IsCommissioned) (hw : Reachable w)
    (hq : w.folderQueue? folder = some q) (a : PackageAction) (token : Option String) :
    ∃ entry, (w.request q (a.operation w.toolchain folder) token).1.entryOf?
      (w.request q (a.operation w.toolchain folder) token).2 = some entry ∧
        entry.operation.command.same (a.command w.toolchain folder) = true := by
  have hlt := hw.isVouched.folderQueue? hq
  obtain ⟨entry, he, hqueue, hkey⟩ :=
    hw.arises.exists_request hlt (a.operation w.toolchain folder) token
  have hcommissioned := h.commission hw.arises (.single (.deed (.requested q _ token)))
    (request_commissions a token hq)
  have hthere : (w.request q (a.operation w.toolchain folder) token).1.folderQueue? folder =
      some q := by
    rw [folderQueue?, folders_request]
    exact hq
  have hargs : entry.operation.key =
      a.arguments (w.request q (a.operation w.toolchain folder) token).1.toolchain := by
    rw [toolchain_request]
    exact hkey
  have hsame := hcommissioned.command_same hthere he hqueue hargs
  rw [toolchain_request] at hsame
  exact ⟨entry, he, hsame⟩

/-- An operation stays with its entry, and no other command is started for it. -/
theorem Arises.runs_same (hw : Arises w) (hc : Changes w w') {entry : Entry} {c : Command}
    (he : w.entryOf? e = some entry) (hsame : entry.operation.command.same c = true) :
    w'.RunsAsAsked e c := by
  obtain ⟨entry', he', horder⟩ := (hw.lasts_changes hc).entryOf? he
  have hop : entry'.operation = entry.operation := (Prod.mk.inj horder).1
  rw [← hop] at hsame
  constructor
  · exact ⟨entry', he', hsame⟩
  · intro id c' hserves hasked
    obtain ⟨ch, htells⟩ := hserves.tells (hw.changes hc) he'
    rw [htells.annals] at hasked
    rw [eq_command_of_startAsked hasked]
    exact hsame

/-- **Whoever runs an action on a folder gets a handle whose operation has the command of that
action**, though the request may be absorbed by an earlier one under another spelling, and the
backend is asked to start no other command for it, whatever happens afterwards. -/
theorem Driven.runsAsAsked {may : World → Path → Prop} (h : Driven may w)
    (hhooks : ∀ p ∈ w.history, p.2.isHookRequest = false) (hq : w.folderQueue? folder = some q)
    (a : PackageAction) (token : Option String) (handle : String)
    (hc : Changes (w.step (.run folder a token handle)).1 w') :
    ∃ e, (w.step (.run folder a token handle)).1.handleNamed? handle = some e ∧
      w'.RunsAsAsked e (a.command w.toolchain folder) := by
  have hw := h.reachable.arises
  have hrequest : (w.step (.run folder a token handle)).1 =
      (w.requestNamed q (a.operation w.toolchain folder) token handle).1 := by
    simp only [World.step, hq]
  rw [hrequest] at hc ⊢
  refine ⟨(w.request q (a.operation w.toolchain folder) token).2, ?_, ?_⟩
  · exact handleNamed?_of_prefix (handles_of_requestNamed .refl) (by
      simp [IsUnused, handles_requestNamed])
  · obtain ⟨entry, he, hsame⟩ := (h.isCommissioned hhooks).request h.reachable hq a token
    have hw₁ := hw.change (.deed (.requested q (a.operation w.toolchain folder) token))
    exact hw₁.runs_same ((changes_of_requestNamed .refl).trans hc) he hsame

/-- While an operation runs in a folder, another one is asked for there under another spelling. -/
def respelled : World :=
  let w := (({ fallback := { delay := 10 } } : Setting).world.step (.addFolder ⟨"/w/p"⟩)).1
  let w := (w.step (.run ⟨"/w/p/"⟩ .resolve none "a")).1.takeTurn 0
  (w.step (.run ⟨"/w//p"⟩ (.build .debug "x") none "b")).1

/-- The action is asked for once more, under a third spelling, and its time comes. -/
def respelledTwice : World :=
  let w := (respelled.step (.run ⟨"/w/p/."⟩ (.build .debug "x") none "c")).1
  ((w.fire ⟨10, 0⟩).takeTurn 0).takeTurn 1

theorem driven_respelled : Driven (fun _ _ => True) respelled := by
  have hnew : Driven (fun _ _ => True) ({ fallback := { delay := 10 } } : Setting).world := .new _
  have hadded := hnew.act (.addFolder ⟨"/w/p"⟩) rfl rfl fun _ _ => trivial
  have hrunning := (hadded.act (.run ⟨"/w/p/"⟩ .resolve none "a") rfl rfl (by simp)).passing
    (.turn 0 (by decide))
  exact hrunning.act (.run ⟨"/w//p"⟩ (.build .debug "x") none "b") rfl rfl (by simp)

/-- The handle is shared, and what is started for it is the same command. -/
theorem runsAsAsked_respelled : Driven (fun _ _ => True) respelled ∧
    (∀ p ∈ respelled.history, p.2.isHookRequest = false) ∧
    respelled.folderQueue? ⟨"/w/p/."⟩ = some 0 ∧ respelled.entries.length = 2 ∧
    respelledTwice.Serves ⟨2⟩ 1 ∧
    .startAsked ⟨2⟩ ((PackageAction.build .debug "x").command .standard ⟨"/w//p"⟩) ∈
      respelledTwice.annals ⟨2⟩ ∧
    (respelled.step (.run ⟨"/w/p/."⟩ (.build .debug "x") none "c")).1.handleNamed? "c" = some 1 ∧
    respelledTwice.RunsAsAsked 1
      ((PackageAction.build .debug "x").command .standard ⟨"/w/p/."⟩) := by
  have hhooks : ∀ p ∈ respelled.history, p.2.isHookRequest = false := by decide
  have hq : respelled.folderQueue? ⟨"/w/p/."⟩ = some 0 := by decide
  have hfired := (Passing.fire (w := (respelled.step (.run ⟨"/w/p/."⟩
    (.build .debug "x") none "c")).1) ⟨10, 0⟩ (by decide)).transition.changes
  have hover := (hfired.trans (Passing.turn 0 (by decide)).transition.changes).trans
    (Passing.turn 1 (by decide)).transition.changes
  obtain ⟨e, he, hruns⟩ :=
    driven_respelled.runsAsAsked hhooks hq (.build .debug "x") none "c" hover
  have hshared : (respelled.step (.run ⟨"/w/p/."⟩ (.build .debug "x") none "c")).1.handleNamed?
      "c" = some 1 := by decide
  obtain rfl := Option.some.inj (he.symm.trans hshared)
  exact ⟨driven_respelled, hhooks, hq, by decide, ⟨1, _, by decide, false, rfl⟩, by decide, hshared,
    hruns⟩

end Running

end Dispatch.World

end FolderTasks
