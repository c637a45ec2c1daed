import FolderTasks.Proofs.Wire.RoundTrip
/-!
# Actions and outcomes are decoded in any order

An action and an outcome are sums with a tag.  The members of either may stand in any order and
among members that it does not know, and the tag and every field may be given once.

## Main definitions

* `Slot.ofDecoder`: a field that is refused for whatever its decoder complains of.

## Main statements

* `SumShape.tells_field`: a tag with one field.
* `Outcome.exists_tells`, `PackageAction.exists_tells`: every value is told by the variant that its
  tag names.
* `decodesInAnyOrder`: actions and outcomes are decoded in any order.
-/

namespace FolderTasks

open Json

namespace Json

/-- What a decoder complains of. -/
def flawOf? {β : Type} : Decoded β → Option Flaw
  | .ok _ => none
  | .error flaw => some flaw

/-- A field that is read by itself, and refused for whatever its decoder complains of. -/
def Slot.ofDecoder {P β : Type} (name : String) (decode : Decoder β) (get : P → Option β)
    (set : P → β → P) : Slot P where
  name := name
  Content := β
  decode := decode
  wrong? t := flawOf? (decode t)
  get := get
  set := set

theorem Slot.wrong_ofDecoder {P β : Type} (name : String) (decode : Decoder β) (get : P → Option β)
    (set : P → β → P) (t : Tree) (flaw : Flaw) :
    decode t = .error flaw ↔ (Slot.ofDecoder name decode get set).wrong? t = some flaw := by
  change _ ↔ flawOf? (decode t) = some flaw
  cases decode t <;> simp [flawOf?]

section OneField

variable {P α β : Type} {shape : SumShape α} {record : RecordShape P α} {name key : String}
  {decode : Decoder β} {get : P → Option β} {set : P → β → P} {v : Value} {b : β} {a : α}

/-- A record with one field keeps it by itself. -/
theorem RecordShape.isSlotted_singleton
    (hfields : record.fields.map (fun f => (f.name, f.isGiven, f.read)) =
      [(key, fun p => (get p).isSome, fun p t => (decode t).map (set p))])
    (hblank : get record.blank = none) (hset : ∀ part b, get (set part b) = some b) :
    record.IsSlotted [.ofDecoder key decode get set] where
  fields := hfields
  names := List.nodup_singleton _
  wrong := List.forall_mem_singleton.2 fun t _ => Slot.wrong_ofDecoder _ _ _ _ t
  blank := List.forall_mem_singleton.2 hblank
  get_set := List.forall_mem_singleton.2 hset
  get_set_of_ne s hs s' hs' hne := by
    rw [List.mem_singleton.1 hs, List.mem_singleton.1 hs'] at hne
    exact absurd rfl hne

/-- A record with one field is filled by it. -/
theorem RecordShape.isFilledBy_singleton (hdecode : decode v.tree = .ok b)
    (hfinish : ∀ part, get part = some b → record.finish part = .ok a) :
    record.IsFilledBy [.ofDecoder key decode get set] [(key, v)] a where
  names := rfl
  decodes s hs v' hv' := by
    obtain rfl := List.mem_singleton.1 hs
    obtain ⟨-, rfl⟩ := Prod.mk.inj (List.mem_singleton.1 hv')
    exact ⟨b, hdecode⟩
  finish part h := by
    obtain ⟨b', hb', hget⟩ := List.forall_mem_singleton.1 h v (List.mem_singleton.2 rfl)
    obtain rfl : b = b' := Except.ok.inj (hdecode.symm.trans hb')
    exact hfinish part hget

/-- A tag with one field. -/
theorem SumShape.tells_field (hslotted : record.IsSlotted [.ofDecoder key decode get set])
    (hnamed : shape.variants.find? (fun v => v.1 == name) = some (name, recordVariant record))
    (hdecode : decode v.tree = .ok b)
    (hfinish : ∀ part, get part = some b → record.finish part = .ok a)
    (hbeside : key ≠ shape.tag ∧ v.depth < 100) :
    shape.Tells name (recordVariant record) [(key, v)] a where
  named := hnamed
  isVariant := (RecordShape.isFilledBy_singleton hdecode hfinish).isVariant hslotted
  beside := List.forall_mem_singleton.2 hbeside

end OneField

/-- A tag without fields. -/
theorem SumShape.tells_plain {α : Type} {shape : SumShape α} {name : String} {a : α}
    (h : shape.variants.find? (fun v => v.1 == name) = some (name, plainVariant a)) :
    shape.Tells name (plainVariant a) [] a where
  named := h
  isVariant := isVariant_plain a
  beside := List.forall_mem_nil _

end Json

/-! ## Outcomes -/

namespace Outcome

theorem exited_isSlotted :
    exitedShape.IsSlotted [.ofDecoder "code" decodeExitCode id fun _ => some] :=
  RecordShape.isSlotted_singleton rfl rfl fun _ _ => rfl

theorem launchFailed_isSlotted :
    launchFailedShape.IsSlotted [.ofDecoder "reason" decodeText id fun _ => some] :=
  RecordShape.isSlotted_singleton rfl rfl fun _ _ => rfl

/-- **Every outcome is told by the variant that its tag names.** -/
theorem exists_tells (o : Outcome) : ∃ name variant fields,
    o.toJson = .object ((shape.tag, .text name) :: fields) ∧ shape.Tells name variant fields o := by
  cases o with
  | terminated => exact ⟨_, _, _, rfl, SumShape.tells_plain rfl⟩
  | cancelled => exact ⟨_, _, _, rfl, SumShape.tells_plain rfl⟩
  | exited code =>
    have hdepth : (exitCodeToJson code).depth < 100 := by
      rw [depth_exitCode]
      decide
    have htells : shape.Tells "exited" (SumShape.recordVariant exitedShape)
        [("code", exitCodeToJson code)] (.exited code) := by
      apply SumShape.tells_field exited_isSlotted rfl (readsBack_exitCode code).decode_tree
      · rintro _ rfl
        rfl
      · exact ⟨by decide, hdepth⟩
    exact ⟨_, _, _, rfl, htells⟩
  | launchFailed reason =>
    have htells : shape.Tells "launchFailed" (SumShape.recordVariant launchFailedShape)
        [("reason", .text reason)] (.launchFailed reason) := by
      apply SumShape.tells_field launchFailed_isSlotted rfl (readsBack_text reason).decode_tree
      · rintro _ rfl
        rfl
      · exact ⟨by decide, show 0 < 100 by decide⟩
    exact ⟨_, _, _, rfl, htells⟩

end Outcome

/-! ## Actions -/

namespace PackageAction

/-- The fields of a build. -/
def buildSlots : List (Slot BuildPart) := [
  .ofDecoder "configuration" BuildConfiguration.decodeSetAside BuildPart.configuration fun p a =>
    { p with configuration := some a },
  .ofDecoder "product" decodeText BuildPart.product fun p a => { p with product := some a }]

theorem build_isSlotted : buildShape.IsSlotted buildSlots where
  fields := rfl
  names := by decide
  wrong := by
    simp only [buildSlots, List.forall_mem_cons]
    exact ⟨fun t _ => Slot.wrong_ofDecoder _ _ _ _ t, fun t _ => Slot.wrong_ofDecoder _ _ _ _ t,
      List.forall_mem_nil _⟩
  blank := by
    simp only [buildSlots, List.forall_mem_cons]
    exact ⟨rfl, rfl, List.forall_mem_nil _⟩
  get_set := by
    simp only [buildSlots, List.forall_mem_cons]
    exact ⟨fun _ _ => rfl, fun _ _ => rfl, List.forall_mem_nil _⟩
  get_set_of_ne := by simp [buildSlots, Slot.ofDecoder]

/-- The fields of a build fill its slots. -/
theorem build_isFilledBy (configuration : BuildConfiguration) (product : String) :
    buildShape.IsFilledBy buildSlots
      [("configuration", configuration.toJson), ("product", .text product)]
      (.build configuration product) where
  names := rfl
  decodes := by
    simp only [buildSlots, List.forall_mem_cons]
    refine ⟨fun v hv => ⟨configuration, ?_⟩, fun v hv => ⟨product, ?_⟩, List.forall_mem_nil _⟩
    · obtain rfl : v = configuration.toJson := by simpa [Slot.ofDecoder] using hv
      exact configuration.readsBack_toJson.decode_tree
    · obtain rfl : v = .text product := by simpa [Slot.ofDecoder] using hv
      rfl
  finish part h := by
    simp only [buildSlots, List.forall_mem_cons] at h
    obtain ⟨hconfiguration, hproduct, -⟩ := h
    obtain ⟨configuration', hdecode, hget⟩ := hconfiguration _ List.mem_cons_self
    obtain rfl : configuration = configuration' :=
      Except.ok.inj (configuration.readsBack_toJson.decode_tree.symm.trans hdecode)
    obtain ⟨product', hdecode', hget'⟩ :=
      hproduct (.text product) (List.mem_cons_of_mem _ List.mem_cons_self)
    obtain rfl : product = product' := Except.ok.inj hdecode'
    obtain ⟨c, p⟩ := part
    obtain rfl : c = some configuration := hget
    obtain rfl : p = some product := hget'
    rfl

/-- **Every action is told by the variant that its tag names.** -/
theorem exists_tells (a : PackageAction) : ∃ name variant fields,
    a.toJson = .object ((shape.tag, .text name) :: fields) ∧ shape.Tells name variant fields a := by
  cases a with
  | build configuration product =>
    have hfilled := build_isFilledBy configuration product
    have hconfiguration : "configuration" ≠ shape.tag ∧ 0 < 100 := by decide
    have hproduct : "product" ≠ shape.tag ∧ 0 < 100 := by decide
    refine ⟨_, _, _, rfl, rfl, hfilled.isVariant build_isSlotted, ?_⟩
    exact List.forall_mem_cons.2 ⟨hconfiguration, List.forall_mem_singleton.2 hproduct⟩
  | _ => exact ⟨_, _, _, rfl, SumShape.tells_plain rfl⟩

end PackageAction

/-- **Actions and outcomes are decoded in any order.**  The members of one may stand in any order in
a text, and among any others that are nested fewer than a hundred deep; and a text in which the tag
or a field stands twice is refused for that. -/
theorem decodesInAnyOrder :
    DecodesTagged PackageAction.decode PackageAction.toJson ∧
    DecodesTagged Outcome.decode Outcome.toJson :=
  ⟨SumShape.decodesTagged PackageAction.exists_tells, SumShape.decodesTagged Outcome.exists_tells⟩

/-- A build whose tag stands last, and one whose product is given twice, both behind a member that
no build has. -/
theorem decodesInAnyOrder_tagLast :
    let note : String × Value := ("note", .array [.object []])
    let product : String × Value := ("product", .text "p")
    let configuration : String × Value := ("configuration", .text "debug")
    let action : String × Value := ("action", .text "build")
    decodeString PackageAction.decode
        (Value.object [note, product, configuration, action]).compact =
      .ok (.build .debug "p") ∧
    decodeString PackageAction.decode
        (Value.object [note, product, configuration, action, product]).compact =
      .error (.data (.duplicateField "product")) := by
  intro note product configuration action
  have hextras : ∀ m ∈ [note], m.1 ∉ [action, configuration, product].map Prod.fst ∧
      m.2.depth < 100 := List.forall_mem_singleton.2 ⟨by decide, show 2 < 100 by decide⟩
  have hperm : [note, product, configuration, action].Perm
      ([action, configuration, product] ++ [note]) :=
    List.reverse_perm [action, configuration, product, note]
  have hown : (PackageAction.build .debug "p").toJson =
      .object [action, configuration, product] := rfl
  constructor
  · apply decodesInAnyOrder.1.orderless hown hextras hperm
    exact Value.isTextOf_compact ⟨⟨trivial, trivial⟩, trivial, trivial, trivial, trivial⟩
  · have hagain : ([note, product, configuration, action] ++ []).Perm
        ([action, configuration, product] ++ [note]) := hperm
    have hproduct : ("product", Value.text "p") ∈ [action, configuration, product] :=
      List.mem_cons_of_mem _ (List.mem_cons_of_mem _ List.mem_cons_self)
    apply decodesInAnyOrder.1.repeated hown hextras hagain (List.mem_map_of_mem hproduct)
      (.inl hproduct)
    exact Value.isTextOf_compact ⟨⟨trivial, trivial⟩, trivial, trivial, trivial, trivial, trivial⟩

end FolderTasks
