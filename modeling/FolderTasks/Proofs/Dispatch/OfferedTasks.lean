import FolderTasks.Proofs.Dispatch.EntrySharing
import FolderTasks.Proofs.Package.Kinds
/-!
# What is offered for a folder

For a folder with some products, one task is offered that builds everything, and two for each
product.  They are different actions, so the user can tell them apart, and none of them is ever
absorbed by the request of another: requests are absorbed by their arguments, and these tell the
actions apart as well.

## Main definitions

* `Toolchain.TellsApart`: what each text of an action is good for.

## Main statements

* `Dispatch.World.Arises.request_ne`: requests with different arguments have different entries.
* `Toolchain.tellsApart`: whatever the settings are, they tell actions apart.

## Design notes

Later a request may meet any queue, not only that of the earlier one, and any number of changes may
lie between the two.
-/

namespace FolderTasks

open Dispatch Dispatch.World

/-- **Actions are told apart** under these settings. -/
structure Toolchain.TellsApart (toolchain : Toolchain) : Prop where
  arguments : ∀ {a b : PackageAction}, a.arguments toolchain = b.arguments toolchain ↔ a = b
  names : ∀ {a b : PackageAction}, a.displayName = b.displayName ↔ a = b
  headings : ∀ {a b : PackageAction}, a.logHeading = b.logHeading ↔ a = b
  /-- The tasks offered for a folder differ in their labels and in their arguments. -/
  offered : ∀ {w : World} {folder : Path} {q : QueueId} {products : List String},
    w.folderQueue? folder = some q → products.Nodup →
    ∃ tasks, w.provideTasks folder products = .ok tasks ∧
      tasks.length = 1 + 2 * products.length ∧ (tasks.map TaskDefinition.label).Nodup ∧
      (tasks.map fun task => task.action.arguments toolchain).Nodup
  /-- No request of an action is absorbed by the entry of another action, however much happens
  between the two requests. -/
  unmerged : ∀ {a b : PackageAction}, a ≠ b → ∀ {w w' : World} {q q' : QueueId}
    {folder folder' : Path} {token token' : Option String}, Arises w → q < w.queues.length →
    Changes (w.request q (a.operation toolchain folder) token).1 w' → q' < w'.queues.length →
    (w'.request q' (b.operation toolchain folder') token').2 ≠
      (w.request q (a.operation toolchain folder) token).2

/-- **Requests with different arguments have different entries.** -/
theorem Dispatch.World.Arises.request_ne {w w' : World} (hw : Arises w) {q q' : QueueId}
    {op op' : Operation} {token token' : Option String} (hlt : q < w.queues.length)
    (hc : Changes (w.request q op token).1 w') (hlt' : q' < w'.queues.length)
    (hne : op.key ≠ op'.key) : (w'.request q' op' token').2 ≠ (w.request q op token).2 := by
  intro heq
  have hw' : Arises w' := (hw.change (.deed (.requested q op token))).changes hc
  -- Both entries are there after the second request, with the arguments of their requests.
  have hlater := hc.tail (.deed (.requested q' op' token'))
  obtain ⟨entry, he, -, hkey⟩ := (hw.isServed (List.getElem?_eq_getElem hlt) hlater).operation
  obtain ⟨entry', he', -, hkey'⟩ :=
    (hw'.deduplicates (List.getElem?_eq_getElem hlt') op' token').exists_entry
  rw [heq, he] at he'
  obtain rfl := Option.some.inj he'
  exact hne (hkey.symm.trans hkey')

/-- **Whatever the settings are, they tell actions apart.** -/
theorem Toolchain.tellsApart (toolchain : Toolchain) : toolchain.TellsApart where
  arguments := PackageAction.arguments_inj
  names := PackageAction.displayName_inj
  headings := PackageAction.logHeading_inj
  offered := by
    intro w folder q products hq h
    have hactions := nodup_offeredActions h
    refine ⟨_, provideTasks_eq hq products, ?_, ?_, ?_⟩
    · rw [List.length_map, length_offeredActions]
    · rw [List.map_map]
      exact hactions.map fun a b hlabel => PackageAction.displayName_inj.1 hlabel
    · rw [List.map_map]
      exact hactions.map fun a b hargs => PackageAction.arguments_inj.1 hargs
  unmerged := by
    intro a b hne w w' q q' folder folder' token token' hw hlt hc hlt'
    exact hw.request_ne hlt hc hlt' fun hkey => hne (PackageAction.arguments_inj.1 hkey)

/-- A folder is offered products that are named like other actions, or like arguments. -/
theorem tellsApart_imitations :
    (({} : Setting).world.step (.addFolder ⟨"/w/p"⟩)).1.folderQueue? ⟨"/w/p"⟩ = some 0 ∧
      ["All", "All (debug)", "--product"].Nodup ∧
      ∃ tasks, (({} : Setting).world.step (.addFolder ⟨"/w/p"⟩)).1.provideTasks ⟨"/w/p"⟩
          ["All", "All (debug)", "--product"] = .ok tasks ∧
        tasks.length = 7 ∧ (tasks.map TaskDefinition.label).Nodup ∧
        (tasks.map fun task => task.action.arguments .standard).Nodup := by
  have hq : (({} : Setting).world.step (.addFolder ⟨"/w/p"⟩)).1.folderQueue? ⟨"/w/p"⟩ = some 0 := by
    decide
  have hproducts : ["All", "All (debug)", "--product"].Nodup := by decide
  exact ⟨hq, hproducts, (Toolchain.tellsApart .standard).offered hq hproducts⟩

end FolderTasks
