import FolderTasks.Package.Action
import Mathlib.Data.List.Nodup
/-!
# Actions are told apart

An action is known by its arguments, by its name in the status display, and by its heading in the
log, even if a product is called `All` or looks like an argument.  Actions come in kinds, and each
text has a part that its kind fixes: the arguments and the name begin with it, the heading ends with
it.  No kind fixes a beginning of what another kind fixes, so equal texts are those of one kind, and
what the kind leaves open is the product.

## Main definitions

* `PackageAction.kind`: an action without its product.

## Main statements

* `PackageAction.kind_eq_of_isPrefix`: what begins with the parts of two kinds is of one kind.
* `PackageAction.arguments_inj`, `PackageAction.displayName_inj`, `PackageAction.logHeading_inj`:
  each text tells which action it is for.
* `nodup_offeredActions`: different products are offered in different actions.
-/

namespace FolderTasks

namespace PackageAction

/-- The kind of an action: all but its product. -/
def kind : PackageAction → PackageAction
  | .build configuration _ => .build configuration ""
  | a => a

/-- All kinds of actions. -/
def kinds : List PackageAction :=
  [.buildAll, .build .debug "", .build .release "", .resolve, .update, .clean, .reset, .describe,
    .showDependencies, .listTests]

theorem kind_mem_kinds (a : PackageAction) : a.kind ∈ kinds := by
  cases a with
  | build configuration product => cases configuration <;> simp [kind, kinds]
  | _ => decide

/-- Different actions of one kind build different products. -/
theorem eq_or_build_of_kind {a b : PackageAction} (h : a.kind = b.kind) :
    a = b ∨ ∃ c p p', a = .build c p ∧ b = .build c p' := by
  cases a with
  | build c p =>
    cases b with
    | build c' p' =>
      obtain ⟨rfl, -⟩ := PackageAction.build.inj h
      exact .inr ⟨c, p, p', rfl, rfl⟩
    | _ => exact PackageAction.noConfusion h
  | _ =>
    cases b with
    | build c' p' => exact PackageAction.noConfusion h
    | _ => exact .inl h

/-- **What begins with the parts of two kinds is of one kind**, if none of these parts is a
beginning of another. -/
theorem kind_eq_of_isPrefix {α : Type} (part : PackageAction → List α)
    (hfree : ∀ k ∈ kinds, ∀ k' ∈ kinds, part k <+: part k' → k = k') {a b : PackageAction}
    {text : List α} (ha : part a.kind <+: text) (hb : part b.kind <+: text) : a.kind = b.kind := by
  rcases List.prefix_or_prefix_of_prefix ha hb with h | h
  · exact hfree _ a.kind_mem_kinds _ b.kind_mem_kinds h
  · exact (hfree _ b.kind_mem_kinds _ a.kind_mem_kinds h).symm

/-! ## Arguments -/

/-- The arguments before the product. -/
def firstArguments : PackageAction → List String
  | .build .debug _ => ["build", "--product"]
  | .build .release _ => ["build", "-c", "release", "--product"]
  | a => a.selector

theorem firstArguments_isPrefix (a : PackageAction) (toolchain : Toolchain) :
    a.kind.firstArguments <+: a.arguments toolchain := by
  refine List.IsPrefix.trans ?_ (List.prefix_append a.selector _)
  cases a with
  | build c p =>
    cases c with
    | debug => exact ⟨[p], rfl⟩
    | release => exact ⟨[p], rfl⟩
  | _ => exact List.prefix_rfl

/-- **An action is told by its arguments**, whatever the extra build arguments are. -/
theorem arguments_inj {a b : PackageAction} {toolchain : Toolchain} :
    a.arguments toolchain = b.arguments toolchain ↔ a = b := by
  refine ⟨fun h => ?_, fun h => h ▸ rfl⟩
  have hkind : a.kind = b.kind := kind_eq_of_isPrefix firstArguments (by decide)
    (a.firstArguments_isPrefix toolchain) (h ▸ b.firstArguments_isPrefix toolchain)
  obtain rfl | ⟨c, p, p', rfl, rfl⟩ := eq_or_build_of_kind hkind
  · rfl
  · cases c <;> simpa [arguments, selector, isBuild] using h

/-! ## Names -/

/-- The name before the product. -/
def nameStart : PackageAction → String
  | .build .debug _ => "Build Debug "
  | .build .release _ => "Build Release "
  | a => a.displayName

theorem nameStart_isPrefix (a : PackageAction) :
    a.kind.nameStart.toList <+: a.displayName.toList := by
  cases a with
  | build c p =>
    cases c with
    | debug => exact ⟨p.toList, String.toList_append.symm⟩
    | release => exact ⟨p.toList, String.toList_append.symm⟩
  | _ => exact List.prefix_rfl

/-- **An action is told by its name.** -/
theorem displayName_inj {a b : PackageAction} : a.displayName = b.displayName ↔ a = b := by
  refine ⟨fun h => ?_, fun h => h ▸ rfl⟩
  have hkind : a.kind = b.kind := kind_eq_of_isPrefix (fun k => k.nameStart.toList) (by decide)
    a.nameStart_isPrefix (h ▸ b.nameStart_isPrefix)
  obtain rfl | ⟨c, p, p', rfl, rfl⟩ := eq_or_build_of_kind hkind
  · rfl
  · cases c with
    | debug => rw [(String.append_right_inj "Build Debug ").1 h]
    | release => rw [(String.append_right_inj "Build Release ").1 h]

/-! ## Headings -/

/-- The heading after the product. -/
def headingEnd : PackageAction → String
  | .build configuration _ => " (" ++ configuration.name ++ ")"
  | a => a.logHeading

theorem logHeading_build (configuration : BuildConfiguration) (product : String) :
    (build configuration product).logHeading =
      "Building " ++ product ++ (build configuration product).headingEnd := by
  simp only [logHeading, headingEnd, String.append_assoc]

theorem headingEnd_isPrefix (a : PackageAction) :
    a.kind.headingEnd.toList.reverse <+: a.logHeading.toList.reverse := by
  rw [List.reverse_prefix]
  cases a with
  | build c p =>
    rw [logHeading_build, String.toList_append]
    exact List.suffix_append _ _
  | _ => exact List.suffix_rfl

/-- **An action is told by its heading.** -/
theorem logHeading_inj {a b : PackageAction} : a.logHeading = b.logHeading ↔ a = b := by
  refine ⟨fun h => ?_, fun h => h ▸ rfl⟩
  have hkind : a.kind = b.kind :=
    kind_eq_of_isPrefix (fun k => k.headingEnd.toList.reverse) (by decide)
      a.headingEnd_isPrefix (h ▸ b.headingEnd_isPrefix)
  obtain rfl | ⟨c, p, p', rfl, rfl⟩ := eq_or_build_of_kind hkind
  · rfl
  · rw [logHeading_build, logHeading_build] at h
    have hstart := (String.append_left_inj (build c p).headingEnd).1 h
    rw [(String.append_right_inj "Building ").1 hstart]

end PackageAction

/-! ## What is offered -/

theorem length_offeredActions (products : List String) :
    (offeredActions products).length = 1 + 2 * products.length := by
  simp [offeredActions, List.length_flatMap]
  omega

/-- **Different products are offered in different actions.** -/
theorem nodup_offeredActions {products : List String} (h : products.Nodup) :
    (offeredActions products).Nodup := by
  refine List.nodup_cons.2 ⟨by simp, List.nodup_flatMap.2 ⟨fun p _ => by simp, ?_⟩⟩
  refine h.imp fun hne => ?_
  simp [Function.onFun, hne.symm]

end FolderTasks
