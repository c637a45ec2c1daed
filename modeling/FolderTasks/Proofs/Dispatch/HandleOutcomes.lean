import FolderTasks.Proofs.Dispatch.TurnTouches
import FolderTasks.Proofs.Dispatch.FolderEntries
import FolderTasks.Proofs.Dispatch.OutcomeLaw
import FolderTasks.Proofs.Dispatch.EntrySharing
/-!
# Handles stand for entries that get an outcome

Every handle that was returned stands for an entry, and an entry that has left the active slot of
its queue has an outcome. So when a queue has no entry any more, whoever awaits a handle of it gets
an outcome.

## Main definitions

* `World.IsVouched`: names of queues stand for queues, and handles stand for entries.
* `World.IsSettled`: an entry that has left its slot has an outcome.

## Main statements

* `World.Reachable.isVouched`, `World.Reachable.isSettled`: both hold whatever happens.
* `World.Reachable.exists_outcome`: an entry of a queue that is idle has an outcome.
-/

namespace FolderTasks.Dispatch.World

/-- **Names stand for something**: for queues, and handles for entries. -/
structure IsVouched (w : World) : Prop where
  queues : ∀ p ∈ w.names.queues, p.2 < w.queues.length
  folders : ∀ f ∈ w.folders, f.2 < w.queues.length
  handles : ∀ p ∈ w.names.handles, p.2 < w.entries.length

/-- **An entry that has left its slot has an outcome.** -/
def IsSettled (w : World) : Prop :=
  ∀ e ∈ w.seen Happening.vacated?, ∃ o, (e, o) ∈ w.seen Happening.resolved?

section Vouching

variable {w w' : World}

/-! ## Names -/

theorem slots_length_dispatch (w : World) (q : QueueId) :
    (w.dispatch q).slots.length = w.slots.length := by
  rcases slots_dispatch w q with ⟨e, rest, -, hslots⟩ | ⟨-, hslots⟩ <;> rw [hslots]
  exact List.length_modify ..

/-- Queues are only ever added. -/
theorem Shift.length_le (hs : Shift w w') : w.slots.length ≤ w'.slots.length := by
  cases hs with
  | kept h => rw [h]
  | made h =>
    rw [h, List.length_append]
    exact Nat.le_add_right _ _
  | requested q op token h₀ hentries h horders =>
    rw [h, ← h₀]
    rcases slots_request _ q op token with heq | ⟨queue, w₁, -, -, hslots, -, heq⟩
    · rw [heq]
    · rw [heq, slots_length_dispatch, hslots, List.length_modify]
  | resolved e o h =>
    rw [h]
    rcases slots_resolve w e o with heq | ⟨w₁, q, hslots, heq⟩
    · rw [heq]
    · rw [heq, slots_length_dispatch, hslots, List.length_modify]

/-- Queues and entries are only ever added. -/
theorem Arises.length_le (hw : Arises w) (hc : Changes w w') :
    w.queues.length ≤ w'.queues.length ∧ w.entries.length ≤ w'.entries.length := by
  constructor
  · induction hc with
    | refl => exact Nat.le_refl _
    | tail _ hc ih =>
      have hle := hc.shift.length_le
      rw [slots, slots, List.length_map, List.length_map] at hle
      exact Nat.le_trans ih hle
  · have hle := (hw.owners_isPrefix hc).length_le
    rwa [ledger, ledger, List.length_map, List.length_map] at hle

/-- Nothing gets a name, and no folder is listed. -/
theorem IsVouched.kept (h : w.IsVouched) (hw : Arises w) (hc : Changes w w')
    (hqueues : ∀ p ∈ w'.names.queues, p ∈ w.names.queues)
    (hfolders : ∀ f ∈ w'.folders, f ∈ w.folders)
    (hhandles : ∀ p ∈ w'.names.handles, p ∈ w.names.handles) : w'.IsVouched := by
  obtain ⟨hlength, hentries⟩ := hw.length_le hc
  refine ⟨?_, ?_, ?_⟩
  · intro p hp
    exact Nat.lt_of_lt_of_le (h.queues p (hqueues p hp)) hlength
  · intro f hf
    exact Nat.lt_of_lt_of_le (h.folders f (hfolders f hf)) hlength
  · intro p hp
    exact Nat.lt_of_lt_of_le (h.handles p (hhandles p hp)) hentries

/-- The entry that serves a request is there. -/
theorem Arises.request_lt (hw : Arises w) {q : QueueId} (hq : q < w.queues.length) (op : Operation)
    (token : Option String) :
    (w.request q op token).2 < (w.request q op token).1.entries.length := by
  obtain ⟨entry, he, -⟩ := (hw.deduplicates (List.getElem?_eq_getElem hq) op token).exists_entry
  exact (List.getElem?_eq_some_iff.1 he).1

theorem folders_request (w : World) (q : QueueId) (op : Operation) (token : Option String) :
    (w.request q op token).1.folders = w.folders := by
  rcases request_eq w q op token with heq | ⟨queue, e, -, -, heq⟩ | ⟨queue, -, -, heq⟩ <;> rw [heq]
  · rfl
  · exact congrArg Prod.snd (holdings_dispatch (w.append q queue op token).1 q)

/-- What gives nothing a name, and lists no folder. -/
theorem IsVouched.of_eq (h : w.IsVouched) (hw : Arises w) (hc : Changes w w')
    (hqueues : w'.names.queues = w.names.queues) (hfolders : w'.folders = w.folders)
    (hhandles : w'.names.handles = w.names.handles) : w'.IsVouched :=
  h.kept hw hc (fun _ hp => hqueues ▸ hp) (fun _ hf => hfolders ▸ hf) fun _ hp => hhandles ▸ hp

theorem IsVouched.of_names (h : w.IsVouched) (hw : Arises w) (hc : Changes w w')
    (hnames : w'.names = w.names) (hfolders : w'.folders = w.folders) : w'.IsVouched :=
  h.of_eq hw hc (by rw [hnames]) hfolders (by rw [hnames])

/-- A request gives its handle a name. -/
theorem IsVouched.requestNamed (h : w.IsVouched) (hw : Arises w) {q : QueueId}
    (hq : q < w.queues.length) (op : Operation) (token : Option String) (name : String) :
    (w.requestNamed q op token name).1.IsVouched := by
  have hkept : (w.request q op token).1.IsVouched :=
    h.of_names hw (.single (.deed (.requested q op token))) (names_request w q op token)
      (folders_request w q op token)
  refine ⟨hkept.queues, hkept.folders, ?_⟩
  intro p hp
  rcases List.mem_append.1 hp with hp | hp
  · exact hkept.handles p hp
  · rw [List.mem_singleton.1 hp]
    exact hw.request_lt hq op token

/-- A new queue gets a name. -/
theorem IsVouched.nameQueue (h : w.IsVouched) (key : String) {q : QueueId}
    (hq : q < w.queues.length) : (w.nameQueue key q).IsVouched := by
  refine ⟨?_, h.folders, h.handles⟩
  intro p hp
  rcases List.mem_cons.1 hp with rfl | hp
  · exact hq
  · exact h.queues p (List.mem_filter.1 hp).1

/-- A queue is listed for a folder. -/
theorem IsVouched.listFolder (h : w.IsVouched) (folder : Path) {q : QueueId}
    (hq : q < w.queues.length) :
    ({ w with folders := w.folders ++ [(folder, q)] } : World).IsVouched := by
  refine ⟨h.queues, ?_, h.handles⟩
  intro f hf
  rcases List.mem_append.1 hf with hf | hf
  · exact h.folders f hf
  · rw [List.mem_singleton.1 hf]
    exact hq

theorem IsVouched.queueNamed? (h : w.IsVouched) {key : String} {q : QueueId}
    (hq : w.queueNamed? key = some q) : q < w.queues.length := by
  obtain ⟨before, after, heq, -⟩ := List.lookup_eq_some_iff.1 hq
  exact h.queues (key, q) (by rw [heq]; simp)

theorem IsVouched.folderQueue? (h : w.IsVouched) {folder : Path} {q : QueueId}
    (hq : w.folderQueue? folder = some q) : q < w.queues.length := by
  obtain ⟨f, hf, rfl⟩ := Option.map_eq_some_iff.1 hq
  exact h.folders f (List.mem_of_find?_eq_some hf)

/-- **An action leaves names standing for something.** -/
theorem IsVouched.perform (h : w.IsVouched) (hw : Arises w) (a : Action) :
    (w.perform a).1.IsVouched := by
  have hchanges : Changes w (w.perform a).1 := (perform_deeds w a).changes
  have hof (hqueues : (w.perform a).1.names.queues = w.names.queues)
      (hfolders : (w.perform a).1.folders = w.folders)
      (hhandles : (w.perform a).1.names.handles = w.names.handles) :=
    h.of_eq hw hchanges hqueues hfolders hhandles
  have hnames (hnames : (w.perform a).1.names = w.names) (ha : a.isRequest = false) :=
    h.of_names hw hchanges hnames (congrArg Prod.snd (holdings_perform w ha))
  cases a with
  | script args s startDelay => cases startDelay <;> exact hnames rfl rfl
  | makeQueue key name =>
    have hmade : (w.makeQueue name true).1.IsVouched :=
      h.of_names hw (.single (.deed (.queueMade name true))) rfl rfl
    exact hmade.nameQueue key (by simp [makeQueue])
  | execute | reset => exact hof rfl rfl rfl
  | request queue op token handle =>
    simp only [World.perform, withQueue]
    split
    · next q hq => exact h.requestNamed hw (h.queueNamed? hq) op token handle
    · exact h
  | cancel token => exact hnames (names_cancel w token) rfl
  | withhold queue value =>
    refine hnames ?_ rfl
    simp only [World.perform, withQueue]
    split <;> rfl
  | peek handle | watch handle =>
    refine hnames ?_ rfl
    simp only [World.perform, withHandle]
    split <;> rfl
  | describe | compare =>
    refine hnames ?_ rfl
    simp only [World.perform, withHandle]
    split
    · split <;> rfl
    · rfl
  | observe name kind hooks =>
    have hfolders := congrArg Prod.snd (holdings_perform w (a := .observe name kind hooks) rfl)
    refine hof ?_ hfolders ?_ <;>
    · simp only [World.perform, World.observe]
      cases kind <;> split <;> rfl
  | unobserve name =>
    have hfolders := congrArg Prod.snd (holdings_perform w (a := .unobserve name) rfl)
    refine hof ?_ hfolders ?_ <;>
    · simp only [World.perform]
      split <;> rfl
  | countObservers | inspectManager | listRecords | undecodable | unknown => exact hnames rfl rfl
  | disposeManager => exact hnames (names_disposeManager w) rfl
  | abandon name =>
    have hfolders := congrArg Prod.snd (holdings_perform w (a := .abandon name) rfl)
    refine hof ?_ hfolders ?_ <;>
    · simp only [World.perform]
      split
      · rfl
      · rw [abandonJob_names]

/-- A step that lets no job run leaves names standing for something. -/
theorem IsVouched.step (h : w.IsVouched) (hw : Arises w) {s : Step} (hs : s.isInstant) :
    (w.step s).1.IsVouched := by
  have hchanges := instant_changes w hs
  cases s with
  | act a => exact h.perform hw a
  | settle | advance | await => exact Bool.noConfusion hs
  | addFolder folder =>
    simp only [World.step, addFolder]
    split
    · next q hq => exact h.nameQueue folder.text (h.folderQueue? hq)
    · have hmade : ((w.note (.folderAdded folder)).makeQueue folder.displayName
          w.recordsFolders).1.IsVouched := by
        refine h.of_names hw ?_ rfl rfl
        refine Relation.ReflTransGen.tail ?_ (.deed (.queueMade _ _))
        exact .single (.drift (.folderTold _ (.inl ⟨folder, rfl⟩)))
      have hlast : w.queues.length < ((w.note (.folderAdded folder)).makeQueue folder.displayName
          w.recordsFolders).1.queues.length := by
        simp [makeQueue, note]
      exact (hmade.listFolder folder hlast).nameQueue folder.text hlast
  | removeFolder folder =>
    simp only [World.step, removeFolder]
    split
    · exact h
    · exact ⟨h.queues, fun f hf => h.folders f (List.mem_filter.1 hf).1, h.handles⟩
  | folders | toolchain => exact h
  | find folder | tasks folder products =>
    simp only [World.step]
    split <;> exact h
  | run folder action token handle =>
    simp only [World.step]
    split
    · next q hq => exact h.requestNamed hw (h.folderQueue? hq) _ token handle
    · exact h
  | dispose =>
    have hdisposed : w.disposeManager.IsVouched :=
      h.of_names hw (.single (.deed .disposed)) (names_disposeManager w)
        (congrArg Prod.snd (holdings_disposeManager w))
    exact ⟨hdisposed.queues, fun f hf => absurd hf List.not_mem_nil, hdisposed.handles⟩

/-- **Names stand for something**, whatever goes on. -/
theorem Event.isVouched (he : Event w w') (hw : Arises w) (h : w.IsVouched) : w'.IsVouched := by
  cases he with
  | work hwork =>
    have hchanges := hwork.changes
    cases hwork with
    | turnTaken | turnSet => exact ⟨h.queues, h.folders, h.handles⟩
    | answered site a =>
      have hperformed := h.perform hw a
      exact ⟨hperformed.queues, hperformed.folders, hperformed.handles⟩
    | telling ht => exact h.of_names hw hchanges ht.names (congrArg Prod.snd ht.holdings)
    | stride hs => exact h.of_names hw hchanges hs.names (congrArg Prod.snd hs.holdings)
    | closing hc => exact h.of_names hw hchanges hc.names hc.commissions.folders
  | drift hd =>
    have hnames := hd.names
    have hchanges := hd.changes
    cases hd with
    | folderListed folder q hq => exact h.listFolder folder hq
    | foldersUnlisted folders hf =>
      exact ⟨h.queues, fun f hmem => h.folders f (hf f hmem), h.handles⟩
    | turnTaken | turnSet | passed | folderTold => exact ⟨h.queues, h.folders, h.handles⟩
    | fired t ht => exact h.of_names hw hchanges hnames (congrArg Prod.snd (holdings_fire w t))
    | sat e => exact h.of_names hw hchanges hnames (congrArg Prod.snd (holdings_takeSeat w e _))
    | seatLeft e entry seat =>
      exact h.of_names hw hchanges hnames (congrArg Prod.snd (holdings_leaveSeat w e seat))
    | received e o hr =>
      exact h.of_names hw hchanges hnames (congrArg Prod.snd (holdings_receive? hr))
  | stepped s hs => exact h.step hw hs
  | performed a => exact h.perform hw a
  | answered => exact ⟨h.queues, h.folders, h.handles⟩

/-- **Names stand for something**, whatever happens. -/
theorem Reachable.isVouched (hw : Reachable w) : w.IsVouched := by
  induction hw with
  | new s =>
    exact ⟨fun _ hp => absurd hp List.not_mem_nil, fun _ hf => absurd hf List.not_mem_nil,
      fun _ hp => absurd hp List.not_mem_nil⟩
  | next hw t ih =>
    have harises := hw.arises
    have hevents := t.events
    clear t hw
    -- Along the events of the transition, by induction on them from the front.
    induction hevents using Relation.ReflTransGen.head_induction_on with
    | refl => exact ih
    | head he _ hrest => exact hrest (he.isVouched harises ih) (harises.changes he.changes)

/-! ## Outcomes -/

theorem IsSettled.of_eq (h : w.IsSettled)
    (hvacated : w'.seen Happening.vacated? = w.seen Happening.vacated?)
    (hresolved : w'.seen Happening.resolved? = w.seen Happening.resolved?) : w'.IsSettled := by
  intro e he
  rw [hresolved]
  exact h e (hvacated ▸ he)

theorem IsSettled.of_history (h : w.IsSettled) (heq : w'.history = w.history) : w'.IsSettled :=
  h.of_eq (by rw [seen, seen, heq]) (by rw [seen, seen, heq])

theorem IsSettled.of_mild (h : w.IsSettled) (hm : Mild [.deed, .drift] w w') : w'.IsSettled := by
  refine h.of_eq (hm.seen_eq ?_) (hm.seen_eq ?_) <;>
  · intro x hx
    cases x <;> first | rfl | simp [Happening.origin] at hx

/-- An entry leaves its slot with an outcome. -/
theorem IsSettled.resolve (h : w.IsSettled) (e : EntryId) (o : Outcome) :
    (w.resolve e o).IsSettled := by
  cases he : w.entryOf? e with
  | none =>
    rw [World.resolve, he]
    exact h
  | some entry =>
    obtain ⟨v, t, hmild, hhistory⟩ := resolve_history he o
    have hvacated : (w.resolve e o).seen Happening.vacated? = w.seen Happening.vacated? ++ [e] := by
      rw [seen_of_history (w := v) hhistory rfl, hmild.seen_eq, seen_note]
      · rfl
      · intro x hx
        cases x <;> first | rfl | simp [Happening.origin] at hx
    have hresolved : (w.resolve e o).seen Happening.resolved? =
        w.seen Happening.resolved? ++ [(e, o)] := by
      have hbefore : v.seen Happening.resolved? = w.seen Happening.resolved? := by
        rw [hmild.seen_eq, seen_note_of_none _ rfl]
        intro x hx
        cases x <;> first | rfl | simp [Happening.origin] at hx
      rw [← hbefore, seen, hhistory]
      exact List.reverse_cons
    intro e' he'
    rw [hresolved]
    rw [hvacated, List.mem_append, List.mem_singleton] at he'
    rcases he' with he' | rfl
    · obtain ⟨o', ho'⟩ := h e' he'
      exact ⟨o', List.mem_append_left _ ho'⟩
    · exact ⟨o, by simp⟩

theorem Touch.isSettled {K : Hook → Prop} {j : JobId} (ht : Touch K j w w') (h : w.IsSettled) :
    w'.IsSettled := by
  have hnote {w : World} (h : w.IsSettled) (x : Happening)
      (hx : x.vacated? = none ∧ x.resolved? = none) : (w.note x).IsSettled :=
    h.of_eq (seen_note_of_none w hx.1) (seen_note_of_none w hx.2)
  cases ht with
  | noted x hx =>
    refine hnote h x ?_
    cases x <;> first
      | exact ⟨rfl, rfl⟩
      | exact absurd (hx _ rfl).1 (by simp [Happening.origin])
  | moved | guardTaken | lineJoined | lineLeft | timerSet | timerCleared | begun | ended | called
  | noticed | unseated | withheld | leftOpen | turnSet => exact h.of_history rfl
  | numbered => exact hnote (w := { w with manager := _ }) (h.of_history rfl) _ ⟨rfl, rfl⟩
  | guardReleased =>
    obtain ⟨ready, heq⟩ := releaseGuard_eq w
    exact h.of_history (by rw [heq])
  | listened token =>
    obtain ⟨tokens, heq⟩ := listen_eq w token j
    exact h.of_history (by rw [heq])
  | unlistened token =>
    obtain ⟨tokens, heq⟩ := unlisten_eq w token j
    exact h.of_history (by rw [heq])
  | @acted site _ _ a =>
    have hperformed := h.of_mild ((perform_deeds w a).mild.weaken (by simp))
    exact hnote hperformed _ ⟨rfl, rfl⟩
  | resolved o => exact h.resolve _ o
  | received hr => exact h.of_mild (mild_receive? hr)
  | seated e => exact h.of_mild (mild_takeSeat w e _)
  | @asked name folder token q =>
    let op := PackageAction.reset.operation w.toolchain folder
    have hrequested := h.of_mild ((mild_withhold w q true).trans (mild_request _ q op token
      (by simp)))
    have hasked := hnote hrequested (.resetAsked q ((w.withhold q true).request q op token).2)
      ⟨rfl, rfl⟩
    exact (hasked.of_mild (mild_takeSeat _ _ (.job j))).of_history rfl

theorem Touches.isSettled {K : Hook → Prop} {j : JobId} (ht : Touches K j w w')
    (h : w.IsSettled) : w'.IsSettled := by
  induction ht with
  | refl => exact h
  | tail _ ht ih => exact ht.isSettled ih

/-- **An entry that has left its slot has an outcome**, whatever happens. -/
theorem Reachable.isSettled (hw : Reachable w) : w.IsSettled := by
  induction hw with
  | new s => exact fun e he => absurd he List.not_mem_nil
  | @next w w' hw t ih =>
    rcases t.sorts with hm | ⟨j, hj, rfl⟩
    · exact ih.of_mild hm
    · have htouches := turn_touches (K := fun _ => True)
        (w := { w with ready := w.ready.erase j }) (j := j) fun h _ => h.within_of_forall fun _ =>
          trivial
      exact htouches.isSettled (ih.of_history rfl)

/-- An entry that is neither waiting nor active has left its slot. -/
theorem Arises.mem_vacated (hw : Arises w) {e : EntryId} {entry : Entry}
    (he : w.entryOf? e = some entry) (hnot : ∀ queue, w.queues[entry.queue]? = some queue →
      e ∉ queue.pending ∧ queue.active ≠ some e) : e ∈ w.ledger.vacated := by
  have ho := hw.isOrderly
  have hon : w.ledger.isOn entry.queue e := isOn_ledger he
  obtain ⟨active, pending, hslot⟩ := ho.exists_slot hon
  have hslots : w.slots[entry.queue]? = some (active, pending) := hslot
  rw [slots, List.getElem?_map] at hslots
  obtain ⟨queue, hq, heq⟩ := Option.map_eq_some_iff.1 hslots
  obtain ⟨rfl, rfl⟩ := Prod.mk.inj heq
  obtain ⟨hpending, hactive⟩ := hnot queue hq
  have hmem : e ∈ w.ledger.created.filter (w.ledger.isOn entry.queue) := by
    refine List.mem_filter.2 ⟨?_, hon⟩
    rw [ho.created, List.mem_range]
    exact Ledger.IsOrderly.isOn_lt hon
  rw [ho.served hslot, List.mem_append, List.mem_append, Option.mem_toList] at hmem
  exact (List.mem_filter.1 ((hmem.resolve_right hpending).resolve_right hactive)).1

/-- **An entry of an idle queue has an outcome.** -/
theorem Reachable.exists_outcome (hw : Reachable w) {e : EntryId} {entry : Entry}
    (he : w.entryOf? e = some entry) (hidle : (w.view entry.queue).isIdle) :
    ∃ o, entry.outcome = some o := by
  have hvacated : e ∈ w.ledger.vacated := by
    refine hw.arises.mem_vacated he fun queue hq => ?_
    simp only [view, hq, Bool.and_eq_true, Option.isNone_iff_eq_none, List.isEmpty_iff] at hidle
    simp [hidle.1, hidle.2]
  obtain ⟨o, hresolved⟩ := hw.isSettled e hvacated
  exact ⟨o, (outcome_iff_resolved hw.arises.isOrderly he).2 hresolved⟩

end Vouching

end FolderTasks.Dispatch.World
