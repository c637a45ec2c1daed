import FolderTasks.Proofs.Dispatch.Requesters
import FolderTasks.Proofs.Dispatch.WaitingRooms
import FolderTasks.Proofs.Paths.Ordering
/-!
# The folders of a workspace

A workspace lists folders, whatever their spelling: a folder that is added while it is absent is
listed as it was spelled then, gets a queue that nobody had before, and keeps both until it is
removed or the workspace is disposed of.  So what is listed, and on which queue, is told by the
user's own steps; all that goes on between them leaves it alone.

## Main definitions

* `Choice.respell`, `listedAs`: the spelling under which a folder is listed, told by what was done.
* `Choice.unlists`: a folder is removed, or the workspace disposed of.
* `World.DoesAll`: what comes of choices, one after another.
* `World.KeepsFolders`: what the list of folders and their queues come to.

## Main statements

* `World.Does.listing?`: what one choice makes of the listing of a folder.
* `World.DoesAll.folderQueue?_iff`: a queue is that of its folder until the folder is removed, and
  never that of another.
* `World.DoesAll.keepsFolders`: the list of folders.

## Design notes

The spelling under which a folder is listed is computed from the choices alone, folder by folder,
and never looks at the list that the world keeps.
-/

namespace FolderTasks.Dispatch

/-- What a choice makes of the spelling under which a folder is listed.  The folder keeps it however
often it is added again. -/
def Choice.respell (folder : Path) (listed : Option Path) : Choice → Option Path
  | .act (.addFolder p) => if p.Same folder then some (listed.getD p) else listed
  | .act (.removeFolder p) => if p.Same folder then none else listed
  | .act .dispose => none
  | _ => listed

/-- **The spelling under which a folder is listed** after some choices: that with which it was first
added since it was last absent. -/
def listedAs (folder : Path) (choices : List Choice) : Option Path :=
  choices.foldl (fun listed c => c.respell folder listed) none

/-- Does a choice take a folder off the list? -/
def Choice.unlists (folder : Path) : Choice → Bool
  | .act (.removeFolder p) => decide (p.Same folder)
  | .act .dispose => true
  | _ => false

/-- Does a choice add or remove folders? -/
def Choice.relists : Choice → Bool
  | .act (.addFolder _) | .act (.removeFolder _) | .act .dispose => true
  | _ => false

/-- The folder that has to be listed for a step. -/
def Step.needs? : Step → Option Path
  | .find p | .run p _ _ _ | .tasks p _ => some p
  | _ => none

namespace World

/-- What comes of choices, one after another. -/
inductive DoesAll : World → List Choice → World → Prop where
  | refl (w : World) : DoesAll w [] w
  | next {w w' w'' : World} {choices : List Choice} {c : Choice} (h : DoesAll w choices w')
      (hc : Does w' c w'') : DoesAll w (choices ++ [c]) w''

/-- **What the list of folders and their queues come to** after some choices. -/
structure KeepsFolders (choices : List Choice) (w : World) : Prop where
  /-- What is listed is strictly ascending, so no folder is listed twice. -/
  ascending : w.step .folders = (w, .folders w.sortedFolders) ∧
    w.sortedFolders.Pairwise fun p p' => p.le p' ∧ ¬ p'.le p
  /-- A folder is listed just as it was first added since it was last absent. -/
  listed : ∀ {folder p : Path},
    listedAs folder choices = some p ↔ p ∈ w.sortedFolders ∧ p.Same folder
  /-- Whoever adds, finds or removes a listed folder gets its one queue, however it is spelled. -/
  shared : ∀ {folder : Path}, (listedAs folder choices).isSome → ∃ q, ∀ {p : Path},
    p.Same folder → w.addFolder p = (w, q) ∧ (w.removeFolder p).2 = some q ∧
      w.step (.find p) = (w, .found (w.queueName q) (w.view q)) ∧ w.folderQueue? p = some q
  /-- A folder that is not listed gets a new queue when it is added, and cannot be removed. -/
  renewed : ∀ {folder : Path}, listedAs folder choices = none →
    (w.addFolder folder).2 = w.queues.length ∧
      (w.step (.addFolder folder)).1.folderQueue? folder = some w.queues.length ∧
      w.removeFolder folder = (w, none)
  /-- Later the queue of a folder is found for this folder alone, and as long as it is not removed.
  If the folder is added again after that, its queue is another one. -/
  lasting : ∀ {later : List Choice} {w' : World} {folder folder' : Path} {q : QueueId},
    DoesAll w later w' → w.folderQueue? folder = some q →
    (w'.folderQueue? folder' = some q ↔
      folder'.Same folder ∧ ∀ c ∈ later, c.unlists folder = false)
  /-- A step fails just if its folder is not listed, and then nothing changes. -/
  refused : ∀ {s : Step} {folder : Path}, s.needs? = some folder →
    ((∃ f, (w.step s).2 = .failed f) ↔ listedAs folder choices = none) ∧
      (listedAs folder choices = none → w.step s = (w, .failed (.folderNotFound folder)))
  /-- So does a reset when its job has its turn; all that changes is that the job is over. -/
  resetRefused : ∀ {j : JobId} {name : String} {folder : Path} {token : Option String},
    w.jobs[j]? = some ⟨.reset name folder token, .fresh, false⟩ →
    listedAs folder choices = none →
      w.takeTurn j = { w with
        ready := w.ready.erase j
        current := none
        jobs := w.jobs.set j ⟨.reset name folder token, .done, false⟩
        history := (w.clock, .jobEnded .reset name (.failure (.folderNotFound folder))) ::
          w.history }
  /-- The reset of a listed folder is asked for on its queue. -/
  resetAsked : ∀ {j : JobId} {name : String} {folder : Path} {token : Option String},
    w.jobs[j]? = some ⟨.reset name folder token, .fresh, false⟩ →
    (listedAs folder choices).isSome → ∃ q e seat, w.folderQueue? folder = some q ∧
      (w.takeTurn j).At j (.reset name folder token) (.awaiting e seat) ∧
      (w.takeTurn j).history.head? = some (w.clock, .resetAsked q e)

/-- A folder on the list, with its queue. -/
def listing? (w : World) (folder : Path) : Option (Path × QueueId) :=
  w.folders.find? fun f => decide (f.1.Same folder)

section Listing

variable {w w' : World} {c : Choice} {choices : List Choice} {folder p : Path} {q : QueueId}

theorem folderQueue?_eq (w : World) (folder : Path) :
    w.folderQueue? folder = (w.listing? folder).map Prod.snd := rfl

theorem folderQueue?_eq_none_iff : w.folderQueue? folder = none ↔ w.listing? folder = none := by
  rw [folderQueue?_eq, Option.map_eq_none_iff]

/-- A folder is found however it is spelled. -/
theorem listing?_congr (w : World) (h : p.Same folder) : w.listing? p = w.listing? folder := by
  unfold listing?
  congr 1
  funext f
  exact decide_eq_decide.2 ⟨fun hf => hf.trans h, fun hf => hf.trans h.symm⟩

theorem same_of_listing? {f : Path × QueueId} (h : w.listing? folder = some f) :
    f ∈ w.folders ∧ f.1.Same folder :=
  ⟨List.mem_of_find?_eq_some h, by simpa using List.find?_some h⟩

/-! ## What one choice does -/

/-- What a choice makes of a folder on the list, when the next queue to be made has the number
`next`. -/
def relist (folder : Path) (next : QueueId) (listed : Option (Path × QueueId)) :
    Choice → Option (Path × QueueId)
  | .act (.addFolder p) => if p.Same folder then some (listed.getD (p, next)) else listed
  | .act (.removeFolder p) => if p.Same folder then none else listed
  | .act .dispose => none
  | _ => listed

theorem map_relist (folder : Path) (next : QueueId) (listed : Option (Path × QueueId))
    (c : Choice) : (relist folder next listed c).map Prod.fst =
      c.respell folder (listed.map Prod.fst) := by
  unfold relist Choice.respell
  split
  · split
    · cases listed <;> rfl
    · rfl
  · split <;> rfl
  · rfl
  · rfl

theorem perform_folders (w : World) (a : Action) : (w.perform a).1.folders = w.folders := by
  cases ha : a.isRequest with
  | false => exact congrArg Prod.snd (holdings_perform w ha)
  | true =>
    cases a with
    | request queue op token handle =>
      simp only [perform, withQueue]
      split
      · exact folders_request w _ op token
      · rfl
    | _ => exact Bool.noConfusion ha

/-- Turns leave the list of folders alone. -/
theorem takeTurn_folders {j : JobId} (hj : j ∈ w.ready) : (w.takeTurn j).folders = w.folders := by
  have hworks := takeTurn_works hj
  generalize w.takeTurn j = w' at hworks
  induction hworks with
  | refl => rfl
  | tail _ hw ih =>
    refine Eq.trans ?_ ih
    cases hw with
    | turnTaken | turnSet => rfl
    | answered site a => exact perform_folders _ a
    | telling h => exact congrArg Prod.snd h.holdings
    | stride h => exact congrArg Prod.snd h.holdings
    | closing h => exact h.commissions.folders

/-- The list is changed by adding and removing folders alone. -/
theorem Does.folders (hc : Does w c w') (h : c.relists = false) : w'.folders = w.folders := by
  cases hc with
  | turn j hj => exact takeTurn_folders hj
  | fire t ht => exact congrArg Prod.snd (holdings_fire w t)
  | pass moment hle => rfl
  | sit e => exact congrArg Prod.snd (holdings_takeSeat w e .outside)
  | leave e entry seat => exact congrArg Prod.snd (holdings_leaveSeat w e seat)
  | receive e o hr => exact congrArg Prod.snd (holdings_receive? hr)
  | act s hs =>
    cases s with
    | act a => exact perform_folders w a
    | settle | advance | await => exact Bool.noConfusion hs
    | addFolder | removeFolder | dispose => exact Bool.noConfusion h
    | folders | toolchain => rfl
    | find folder | tasks folder products =>
      simp only [step]
      split <;> rfl
    | run folder action token handle =>
      simp only [step]
      split
      · exact folders_request w _ _ token
      · rfl

theorem addFolder_of_some (h : w.folderQueue? folder = some q) :
    w.addFolder folder = (w, q) := by
  rw [addFolder, h]

theorem addFolder_of_none (h : w.folderQueue? folder = none) :
    (w.addFolder folder).2 = w.queues.length ∧
      (w.addFolder folder).1.folders = w.folders ++ [(folder, w.queues.length)] := by
  rw [addFolder, h]
  exact ⟨rfl, rfl⟩

theorem removeFolder_of_none (h : w.folderQueue? folder = none) :
    w.removeFolder folder = (w, none) := by
  rw [removeFolder, h]

theorem removeFolder_of_some (h : w.folderQueue? folder = some q) :
    (w.removeFolder folder).2 = some q ∧ (w.removeFolder folder).1.folders =
      w.folders.filter fun f => !decide (f.1.Same folder) := by
  rw [removeFolder, h]
  exact ⟨rfl, rfl⟩

/-- **What one choice makes of the listing of a folder.** -/
theorem Does.listing? (hc : Does w c w') (folder : Path) :
    w'.listing? folder = relist folder w.queues.length (w.listing? folder) c := by
  cases hlists : c.relists with
  | false =>
    rw [World.listing?, hc.folders hlists, ← World.listing?]
    unfold relist
    split <;> first | rfl | exact Bool.noConfusion hlists
  | true =>
    cases hc with
    | act s hs =>
      cases s with
      | addFolder p =>
        change (w.addFolder p).1.listing? folder = if p.Same folder then _ else _
        cases hq : w.folderQueue? p with
        | some q =>
          rw [addFolder_of_some hq]
          split
          · next hsame =>
            -- The folder is there already, and keeps its spelling.
            rw [← listing?_congr w hsame]
            rw [folderQueue?_eq, Option.map_eq_some_iff] at hq
            obtain ⟨f, hf, -⟩ := hq
            rw [hf, Option.getD_some]
          · rfl
        | none =>
          rw [World.listing?, (addFolder_of_none hq).2, List.find?_append, ← World.listing?]
          split
          · next hsame =>
            rw [← listing?_congr w hsame, folderQueue?_eq_none_iff.1 hq]
            simp [hsame]
          · next hother => simp [hother]
      | removeFolder p =>
        change (w.removeFolder p).1.listing? folder = if p.Same folder then _ else _
        cases hq : w.folderQueue? p with
        | none =>
          rw [removeFolder_of_none hq]
          split
          · next hsame =>
            rw [← listing?_congr w hsame]
            exact folderQueue?_eq_none_iff.1 hq
          · rfl
        | some q =>
          rw [World.listing?, (removeFolder_of_some hq).2, List.find?_filter]
          split
          · next hsame =>
            rw [List.find?_eq_none]
            rintro f - hf
            simp only [Bool.not_eq_true', decide_eq_false_iff_not, decide_eq_true_eq] at hf
            exact hf.1 (hf.2.trans hsame.symm)
          · next hother =>
            rw [World.listing?]
            congr 1
            funext f
            by_cases hf : f.1.Same folder
            · have hne : ¬ f.1.Same p := fun hp => hother (hp.symm.trans hf)
              simp [hf, hne]
            · simp [hf]
      | dispose => rfl
      | _ => exact Bool.noConfusion hlists
    | _ => exact Bool.noConfusion hlists

/-! ## The list after many choices -/

theorem DoesAll.changes (h : DoesAll w choices w') : Changes w w' := by
  induction h with
  | refl => exact .refl
  | next _ hc ih => exact ih.trans hc.transition.changes

theorem listedAs_concat (folder : Path) (choices : List Choice) (c : Choice) :
    listedAs folder (choices ++ [c]) = c.respell folder (listedAs folder choices) := by
  rw [listedAs, List.foldl_append]
  rfl

/-- **A folder is listed as the choices tell.** -/
theorem DoesAll.listedAs_eq {s : Setting} (h : DoesAll s.world choices w) (folder : Path) :
    listedAs folder choices = (w.listing? folder).map Prod.fst := by
  induction h with
  | refl => rfl
  | next _ hc ih => rw [listedAs_concat, ih, ← map_relist folder, ← hc.listing?]

theorem DoesAll.listedAs_eq_none_iff {s : Setting} (h : DoesAll s.world choices w) :
    listedAs folder choices = none ↔ w.folderQueue? folder = none := by
  rw [h.listedAs_eq, Option.map_eq_none_iff, folderQueue?_eq_none_iff]

/-- **Each folder is on the list once**, and has a queue of its own. -/
def IsListed (w : World) : Prop :=
  w.folders.Pairwise fun f g => ¬ f.1.Same g.1 ∧ f.2 ≠ g.2

theorem Does.isListed (hc : Does w c w') (hw : Arises w) (h : w.IsListed) : w'.IsListed := by
  cases hlists : c.relists with
  | false => rwa [IsListed, hc.folders hlists]
  | true =>
    cases hc with
    | act s hs =>
      cases s with
      | addFolder p =>
        change (w.addFolder p).1.folders.Pairwise _
        cases hq : w.folderQueue? p with
        | some q => rwa [addFolder_of_some hq]
        | none =>
          rw [(addFolder_of_none hq).2]
          refine List.pairwise_append.2 ⟨h, List.pairwise_singleton .., ?_⟩
          intro f hf g hg
          obtain rfl := List.mem_singleton.1 hg
          constructor
          · have habsent := List.find?_eq_none.1 (folderQueue?_eq_none_iff.1 hq) f hf
            simpa using habsent
          · exact Nat.ne_of_lt (hw.folders_lt f hf)
      | removeFolder p =>
        change (w.removeFolder p).1.folders.Pairwise _
        cases hq : w.folderQueue? p with
        | none => rwa [removeFolder_of_none hq]
        | some q =>
          rw [(removeFolder_of_some hq).2]
          exact List.Pairwise.filter _ h
      | dispose => exact List.Pairwise.nil
      | _ => exact Bool.noConfusion hlists
    | _ => exact Bool.noConfusion hlists

theorem DoesAll.isListed {s : Setting} (h : DoesAll s.world choices w) : w.IsListed := by
  induction h with
  | refl => exact List.Pairwise.nil
  | next h hc ih => exact hc.isListed ⟨s, h.changes⟩ ih

/-- On the list a folder has one spelling and one queue. -/
theorem IsListed.listing?_eq_some_iff (h : w.IsListed) {f : Path × QueueId} :
    w.listing? folder = some f ↔ f ∈ w.folders ∧ f.1.Same folder := by
  refine ⟨same_of_listing?, fun ⟨hf, hsame⟩ => ?_⟩
  cases hg : w.listing? folder with
  | none =>
    have habsent := List.find?_eq_none.1 hg f hf
    exact absurd hsame (by simpa using habsent)
  | some g =>
    obtain ⟨hmem, hsame'⟩ := same_of_listing? hg
    by_contra hne
    have hfg : f ≠ g := fun heq => hne (by rw [heq])
    have hsymm : Std.Symm fun f g : Path × QueueId => ¬ f.1.Same g.1 :=
      ⟨fun _ _ hab hba => hab hba.symm⟩
    have hpair : w.folders.Pairwise fun f g => ¬ f.1.Same g.1 := h.imp And.left
    exact hpair.forall hf hmem hfg (hsame.trans hsame'.symm)

/-- Two folders with one queue are the same. -/
theorem IsListed.same_of_queue (h : w.IsListed) (hq : w.folderQueue? folder = some q)
    (hp : w.folderQueue? p = some q) : p.Same folder := by
  rw [folderQueue?_eq, Option.map_eq_some_iff] at hq hp
  obtain ⟨f, hf, hfq⟩ := hq
  obtain ⟨g, hg, hgq⟩ := hp
  obtain ⟨hfmem, hfsame⟩ := same_of_listing? hf
  obtain ⟨hgmem, hgsame⟩ := same_of_listing? hg
  have hpair : w.folders.Pairwise fun f g => f.2 ≠ g.2 := h.imp And.right
  obtain rfl : f = g := by
    by_contra hne
    have hsymm : Std.Symm fun f g : Path × QueueId => f.2 ≠ g.2 := ⟨fun _ _ hab => hab.symm⟩
    exact hpair.forall hfmem hgmem hne (hfq.trans hgq.symm)
  exact hgsame.symm.trans hfsame

theorem mem_sortedFolders : p ∈ w.sortedFolders ↔ ∃ f ∈ w.folders, f.1 = p := by
  rw [sortedFolders, List.mem_mergeSort, List.mem_map]

/-- **A queue is that of its folder until the folder is removed**, and never that of another. -/
theorem DoesAll.folderQueue?_iff {later : List Choice} (h : DoesAll w later w') (hw : Arises w)
    (hlisted : w.IsListed) (hq : w.folderQueue? folder = some q) (p : Path) :
    w'.folderQueue? p = some q ↔ p.Same folder ∧ ∀ c ∈ later, c.unlists folder = false := by
  induction h with
  | refl =>
    simp only [List.not_mem_nil, false_implies, implies_true, and_true]
    refine ⟨hlisted.same_of_queue hq, fun hsame => ?_⟩
    rw [← hq, folderQueue?_eq, listing?_congr w hsame, folderQueue?_eq]
  | @next w₁ w₂ later c h hc ih =>
    -- The queue was there before any queue that is made later.
    have hlt : q < w₁.queues.length :=
      Nat.lt_of_lt_of_le (hw.folderQueue?_lt hq) (hw.length_le h.changes).1
    rw [folderQueue?_eq] at ih
    rw [folderQueue?_eq, hc.listing?, List.forall_mem_append, List.forall_mem_singleton,
      ← and_assoc, ← ih]
    unfold relist Choice.unlists
    split
    · next p' =>
      split
      · cases w₁.listing? p with
        | none => simpa using Nat.ne_of_gt hlt
        | some f => simp
      · simp
    · next p' =>
      split
      · next hsame =>
        refine iff_of_false (by simp) fun ⟨hq', hstays⟩ => ?_
        exact of_decide_eq_false hstays (hsame.trans (ih.1 hq').1)
      · next hother =>
        refine ⟨fun hq' => ⟨hq', decide_eq_false fun hsame => ?_⟩, And.left⟩
        exact hother (hsame.trans (ih.1 hq').1.symm)
    · simp
    · simp

/-! ## Resets -/

/-- A job that was not given up is not dropped. -/
theorem discardIfAbandoned_of_kept {j : JobId} {errand : Errand} {position : Position}
    (hj : w.jobs[j]? = some ⟨errand, position, false⟩) : w.discardIfAbandoned j = w := by
  rw [discardIfAbandoned, hj]
  rfl

/-- The turn of a job that is to reset the package in a folder. -/
theorem takeTurn_reset {j : JobId} {name : String} {token : Option String}
    (hj : w.jobs[j]? = some ⟨.reset name folder token, .fresh, false⟩) :
    w.takeTurn j = { (match w.folderQueue? folder with
      | none => (({ w with ready := w.ready.erase j, current := some j } : World).note
          (.jobEnded .reset name (.failure (.folderNotFound folder)))).endJob j
      | some q => ({ w with ready := w.ready.erase j, current := some j } : World).askReset j q
          folder token : World).discardIfAbandoned j with current := none } := by
  have hat : ({ w with ready := w.ready.erase j, current := some j } : World).At j
      (.reset name folder token) .fresh := ⟨false, hj⟩
  rw [takeTurn, turn_of_fresh (w := { w with ready := w.ready.erase j }) hj]
  unfold turnJob turnReset
  simp only [hat.position_eq]
  rfl

/-- The reset of a folder that is not listed is refused. -/
theorem takeTurn_resetRefused {j : JobId} {name : String} {token : Option String}
    (hj : w.jobs[j]? = some ⟨.reset name folder token, .fresh, false⟩)
    (hq : w.folderQueue? folder = none) : w.takeTurn j = { w with
      ready := w.ready.erase j
      current := none
      jobs := w.jobs.set j ⟨.reset name folder token, .done, false⟩
      history := (w.clock, .jobEnded .reset name (.failure (.folderNotFound folder))) ::
        w.history } := by
  have hset : w.jobs.modify j (fun job => { job with position := .done }) =
      w.jobs.set j ⟨.reset name folder token, .done, false⟩ := by
    rw [List.modify_eq_set_getElem?, hj]
    rfl
  have hended : ((({ w with ready := w.ready.erase j, current := some j } : World).note
      (.jobEnded .reset name (.failure (.folderNotFound folder)))).endJob j).jobs[j]? =
        some ⟨.reset name folder token, .done, false⟩ := by
    rw [endJob, getElem?_setPosition]
    change (w.jobs[j]?).map _ = _
    rw [hj]
    simp
  rw [takeTurn_reset hj, hq]
  dsimp only
  rw [discardIfAbandoned_of_kept hended, ← hset]
  rfl

theorem clock_request (w : World) (q : QueueId) (op : Operation) (token : Option String) :
    (w.request q op token).1.clock = w.clock := by
  rcases request_eq w q op token with h | ⟨queue, e, -, -, h⟩ | ⟨queue, -, -, h⟩
  · rw [h]
  · rw [h]
    rfl
  · rw [h]
    rcases dispatch_eq (w.append q queue op token).1 q with h' | ⟨_, _, _, -, -, -, h'⟩
    · rw [h']
      rfl
    · rw [h']
      rfl

theorem history_takeSeat (w : World) (e : EntryId) (who : Waiter) :
    (w.takeSeat e who).1.history = w.history := by
  unfold takeSeat
  split <;> rfl

/-- The reset of a folder that is listed is asked for, and its job waits for the outcome. -/
theorem takeTurn_resetAsked {j : JobId} {name : String} {token : Option String}
    (hj : w.jobs[j]? = some ⟨.reset name folder token, .fresh, false⟩)
    (hq : w.folderQueue? folder = some q) : ∃ e seat,
      (w.takeTurn j).At j (.reset name folder token) (.awaiting e seat) ∧
      (w.takeTurn j).history.head? = some (w.clock, .resetAsked q e) := by
  rw [takeTurn_reset hj, hq]
  dsimp only
  unfold askReset
  dsimp only
  generalize hr : (({ w with ready := w.ready.erase j, current := some j } : World).withhold q
    true).request q _ token = r
  have hjob : r.1.jobs[j]? = some ⟨.reset name folder token, .fresh, false⟩ :=
    hr ▸ getElem?_of_isPrefix (request_jobs _ q _ token) hj
  have hclock : r.1.clock = w.clock := hr ▸ clock_request _ q _ token
  generalize hseat : (r.1.note (.resetAsked q r.2)).takeSeat r.2 (.job j) = seated
  have hjobs : seated.1.jobs = r.1.jobs := hseat ▸ jobs_takeSeat _ r.2 (.job j)
  have hhistory : seated.1.history = (r.1.clock, .resetAsked q r.2) :: r.1.history :=
    hseat ▸ history_takeSeat _ r.2 (.job j)
  have hawaits : (seated.1.setPosition j (.awaiting r.2 seated.2)).jobs[j]? =
      some ⟨.reset name folder token, .awaiting r.2 seated.2, false⟩ := by
    rw [getElem?_setPosition, hjobs, hjob]
    simp
  rw [discardIfAbandoned_of_kept hawaits]
  refine ⟨r.2, seated.2, ⟨false, hawaits⟩, ?_⟩
  change seated.1.history.head? = _
  rw [hhistory, hclock]
  rfl

/-! ## What is listed -/

theorem IsListed.ascending (h : w.IsListed) :
    w.sortedFolders.Pairwise fun p p' => p.le p' ∧ ¬ p'.le p :=
  Path.pairwise_mergeSort (List.pairwise_map.2 (h.imp And.left))

/-- A folder is spelled on the list as it was when it was added. -/
theorem IsListed.map_listing?_eq_some_iff (h : w.IsListed) :
    (w.listing? folder).map Prod.fst = some p ↔ p ∈ w.sortedFolders ∧ p.Same folder := by
  rw [mem_sortedFolders, Option.map_eq_some_iff]
  constructor
  · rintro ⟨f, hf, rfl⟩
    obtain ⟨hmem, hsame⟩ := same_of_listing? hf
    exact ⟨⟨f, hmem, rfl⟩, hsame⟩
  · rintro ⟨⟨f, hmem, rfl⟩, hsame⟩
    exact ⟨f, h.listing?_eq_some_iff.2 ⟨hmem, hsame⟩, rfl⟩

/-- Whoever names a folder that is listed gets its queue. -/
theorem shared_of_folderQueue? (hq : w.folderQueue? folder = some q) (hsame : p.Same folder) :
    w.addFolder p = (w, q) ∧ (w.removeFolder p).2 = some q ∧
      w.step (.find p) = (w, .found (w.queueName q) (w.view q)) ∧ w.folderQueue? p = some q := by
  have hp : w.folderQueue? p = some q := by
    rw [folderQueue?_eq, listing?_congr w hsame, ← folderQueue?_eq, hq]
  refine ⟨addFolder_of_some hp, (removeFolder_of_some hp).1, ?_, hp⟩
  simp only [step, hp]

/-- A folder that is added while it is absent has a new queue from then on. -/
theorem folderQueue?_addFolder (h : w.folderQueue? folder = none) :
    (w.step (.addFolder folder)).1.folderQueue? folder = some w.queues.length := by
  change ((w.addFolder folder).1.folders.find? fun f => decide (f.1.Same folder)).map Prod.snd = _
  rw [(addFolder_of_none h).2, List.find?_append]
  change ((w.listing? folder).or _).map Prod.snd = _
  rw [folderQueue?_eq_none_iff.1 h]
  simp [Path.Same]

/-- A step that needs a folder fails just if it is not listed. -/
theorem step_needs {s : Step} (hs : s.needs? = some folder) :
    ((∃ f, (w.step s).2 = .failed f) ↔ w.folderQueue? folder = none) ∧
      (w.folderQueue? folder = none → w.step s = (w, .failed (.folderNotFound folder))) := by
  have hfails (h : w.folderQueue? folder = none) :
      w.step s = (w, .failed (.folderNotFound folder)) := by
    cases s with
    | find p | run p action token handle | tasks p products =>
      obtain rfl : p = folder := Option.some.inj hs
      simp only [step, provideTasks, h]
    | _ => exact absurd hs (by simp [Step.needs?])
  refine ⟨⟨?_, fun h => ⟨_, congrArg Prod.snd (hfails h)⟩⟩, hfails⟩
  rintro ⟨f, hf⟩
  by_contra hlisted
  obtain ⟨q, hq⟩ := Option.ne_none_iff_exists'.1 hlisted
  cases s with
  | find p | run p action token handle | tasks p products =>
    obtain rfl : p = folder := Option.some.inj hs
    simp [step, provideTasks, requestNamed, hq] at hf
  | _ => exact absurd hs (by simp [Step.needs?])

/-- **The list of folders**: strictly ascending, just what was added and not removed, each folder
under its first spelling and on a queue of its own. -/
theorem DoesAll.keepsFolders {s : Setting} (h : DoesAll s.world choices w) :
    w.KeepsFolders choices where
  ascending := ⟨rfl, h.isListed.ascending⟩
  listed := by
    intro folder p
    rw [h.listedAs_eq]
    exact h.isListed.map_listing?_eq_some_iff
  shared := by
    intro folder hlisted
    obtain ⟨q, hq⟩ := Option.ne_none_iff_exists'.1
      (mt h.listedAs_eq_none_iff.2 (Option.isSome_iff_ne_none.1 hlisted))
    exact ⟨q, fun hsame => shared_of_folderQueue? hq hsame⟩
  renewed := by
    intro folder habsent
    have hq := h.listedAs_eq_none_iff.1 habsent
    exact ⟨(addFolder_of_none hq).1, folderQueue?_addFolder hq, removeFolder_of_none hq⟩
  lasting := by
    intro later w' folder folder' q hlater hq
    exact hlater.folderQueue?_iff ⟨s, h.changes⟩ h.isListed hq folder'
  refused := by
    intro s folder hs
    rw [h.listedAs_eq_none_iff]
    exact step_needs hs
  resetRefused := by
    intro j name folder token hj habsent
    exact takeTurn_resetRefused hj (h.listedAs_eq_none_iff.1 habsent)
  resetAsked := by
    intro j name folder token hj hlisted
    obtain ⟨q, hq⟩ := Option.ne_none_iff_exists'.1
      (mt h.listedAs_eq_none_iff.2 (Option.isSome_iff_ne_none.1 hlisted))
    obtain ⟨e, seat, hat, hasked⟩ := takeTurn_resetAsked hj hq
    exact ⟨q, e, seat, hq, hat, hasked⟩

/-- A folder is added, added again under another spelling, removed under a third one, and added
once more. -/
def comesAndGoes : List Choice :=
  [.act (.addFolder ⟨"/w//p/"⟩), .act (.addFolder ⟨"/w/p"⟩), .act (.removeFolder ⟨"/w/./p"⟩),
    .act (.addFolder ⟨"/w/p/."⟩)]

/-- What comes of it. -/
def cameBack : World :=
  let w := ((({} : Setting).world.step (.addFolder ⟨"/w//p/"⟩)).1.step (.addFolder ⟨"/w/p"⟩)).1
  ((w.step (.removeFolder ⟨"/w/./p"⟩)).1.step (.addFolder ⟨"/w/p/."⟩)).1

theorem doesAll_comesAndGoes : DoesAll ({} : Setting).world comesAndGoes cameBack := by
  have hadded := (DoesAll.refl ({} : Setting).world).next (.act (.addFolder ⟨"/w//p/"⟩) rfl)
  have hagain := hadded.next (.act (.addFolder ⟨"/w/p"⟩) rfl)
  have hremoved := hagain.next (.act (.removeFolder ⟨"/w/./p"⟩) rfl)
  exact hremoved.next (.act (.addFolder ⟨"/w/p/."⟩) rfl)

/-- The folder is listed under its last first spelling, and has its second queue. -/
theorem keepsFolders_comesAndGoes :
    DoesAll ({} : Setting).world comesAndGoes cameBack ∧
      listedAs ⟨"/w/p"⟩ comesAndGoes = some ⟨"/w/p/."⟩ ∧
      cameBack.sortedFolders = [⟨"/w/p/."⟩] ∧ cameBack.folderQueue? ⟨"/w/p"⟩ = some 1 ∧
      cameBack.KeepsFolders comesAndGoes := by
  have hfolders : cameBack.folders = [(⟨"/w/p/."⟩, 1)] := by decide
  refine ⟨doesAll_comesAndGoes, by decide, ?_, by decide, doesAll_comesAndGoes.keepsFolders⟩
  rw [sortedFolders, hfolders]
  exact List.mergeSort_singleton _

end Listing

end World

end FolderTasks.Dispatch
