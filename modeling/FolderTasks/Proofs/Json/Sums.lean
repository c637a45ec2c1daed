import FolderTasks.Proofs.Json.Records
import FolderTasks.Proofs.Json.Spelling
import Mathlib.Data.List.Perm.Basic
/-!
# Tagged sums are decoded in any order

The members of a tagged sum are sorted first: the tag says which variant it is, and all others are
set aside for that variant.  So the tag may stand anywhere, and the others in any order and among
members that the variant does not know, as long as what is set aside is not nested too deep.  A tag
or a field that is given twice is refused wherever it stands.

## Main definitions

* `Value.depth`: how many arrays and objects stand inside one another.
* `SumShape.IsVariant`: a variant that makes a value of its fields in any order.
* `SumShape.Tells`: a value that such a variant makes, named by a tag.
* `DecodesTagged`: a decoder that takes the members of a value in any order, and none twice.

## Main statements

* `Value.captureFault?_tree`: what is not nested too deep can be set aside.
* `SumShape.decode_once`, `SumShape.decode_twice`: what becomes of a tag that stands anywhere.
* `RecordShape.IsFilledBy.isVariant`: a record whose fields are kept apart is such a variant.
* `SumShape.decodesTagged`: sums whose values are told by such variants are decoded in any order.
-/

namespace FolderTasks.Json

/-! ## Nesting -/

namespace Value

mutual
/-- **How many arrays and objects stand inside one another** in a value. -/
def depth : Value → Nat
  | .null | .bool _ | .number _ | .text _ => 0
  | .array items => itemsDepth items + 1
  | .object members => membersDepth members + 1

/-- The same for items. -/
def itemsDepth : List Value → Nat
  | [] => 0
  | v :: rest => max v.depth (itemsDepth rest)

/-- The same for members. -/
def membersDepth : List (String × Value) → Nat
  | [] => 0
  | (_, v) :: rest => max v.depth (membersDepth rest)
end

mutual
/-- **What is not nested too deep can be set aside.** -/
theorem captureFault?_tree : (v : Value) → {room : Nat} → v.depth ≤ room →
    v.tree.captureFault? room = none
  | .null, _, _ => by rw [tree, Tree.captureFault?]
  | .bool _, _, _ => by rw [tree, Tree.captureFault?]
  | .number _, _, _ => by rw [tree, Tree.captureFault?, Tree.contentFault?]
  | .text _, _, _ => by rw [tree, Tree.captureFault?, Tree.contentFault?]
  | .array items, room + 1, h => by
    rw [tree, Tree.captureFault?]
    exact captureItems?_itemTrees items (Nat.le_of_succ_le_succ h)
  | .object members, room + 1, h => by
    rw [tree, Tree.captureFault?]
    exact captureMembers?_memberTrees members (Nat.le_of_succ_le_succ h)

theorem captureItems?_itemTrees : (items : List Value) → {room : Nat} → itemsDepth items ≤ room →
    Tree.captureItems? room (itemTrees items) none = none
  | [], _, _ => by rw [itemTrees, Tree.captureItems?]; rfl
  | v :: items, room, h => by
    obtain ⟨hv, hitems⟩ := Nat.max_le.1 h
    rw [itemTrees, Tree.captureItems?, captureFault?_tree v hv,
      captureItems?_itemTrees items hitems]
    rfl

theorem captureMembers?_memberTrees : (members : List (String × Value)) → {room : Nat} →
    membersDepth members ≤ room → Tree.captureMembers? room (memberTrees members) none = none
  | [], _, _ => by rw [memberTrees, Tree.captureMembers?]; rfl
  | (_, v) :: members, room, h => by
    obtain ⟨hv, hmembers⟩ := Nat.max_le.1 h
    rw [memberTrees, Tree.captureMembers?, captureFault?_tree v hv,
      captureMembers?_memberTrees members hmembers]
    rfl
end

/-- The members of a value, as a reader has them. -/
def trees (members : List (String × Value)) : List (String × Tree) :=
  members.map fun m => (m.1, m.2.tree)

theorem trees_append (members rest : List (String × Value)) :
    trees (members ++ rest) = trees members ++ trees rest := List.map_append

theorem trees_cons (key : String) (v : Value) (rest : List (String × Value)) :
    trees ((key, v) :: rest) = (key, v.tree) :: trees rest := rfl

theorem mem_trees {members : List (String × Value)} {key : String} {t : Tree} :
    (key, t) ∈ trees members ↔ ∃ v, (key, v) ∈ members ∧ v.tree = t := by
  simp [trees]

theorem map_fst_trees (members : List (String × Value)) :
    (trees members).map Prod.fst = members.map Prod.fst := by
  rw [trees, List.map_map]
  rfl

/-- Members are as well-formed as the values in them. -/
theorem wellFormed_trees {members : List (String × Value)}
    (h : ∀ m ∈ members, m.2.tree.IsWellFormed) : ∀ m ∈ trees members, m.2.IsWellFormed :=
  List.forall_mem_map.2 h

theorem memberTrees_eq_keyed (members : List (String × Value)) :
    memberTrees members = keyed (trees members) := by
  induction members with
  | nil => rfl
  | cons m members ih => rw [memberTrees, ih]; rfl

end Value

/-! ## Sorting -/

namespace SumShape

variable {α : Type} {shape : SumShape α} {room : Nat} {before between after : List (String × Tree)}
  {t t' : Tree} {variant : Beside → Decoded α}

/-- **Members that can be set aside.** -/
def CanWait (shape : SumShape α) (room : Nat) (members : List (String × Tree)) : Prop :=
  ∀ m ∈ members, m.1 ≠ shape.tag ∧ m.2.captureFault? room = none

/-- What can be set aside is, and the sorting goes on behind it. -/
theorem CanWait.sortMembers_append (h : shape.CanWait room before)
    (tag : Option (Beside → Decoded α)) (rest : List (String × Tree)) :
    shape.sortMembers room tag (keyed (before ++ rest)) none =
      (shape.sortMembers room tag (keyed rest) none).map fun r => (r.1, keyed before ++ r.2) := by
  induction before with
  | nil =>
    rw [List.nil_append]
    cases shape.sortMembers room tag (keyed rest) none <;> rfl
  | cons m before ih =>
    obtain ⟨⟨hne, hcapture⟩, hbefore⟩ := List.forall_mem_cons.1 h
    change shape.sortMembers room tag ((.ok m.1, m.2) :: keyed (before ++ rest)) none = _
    rw [sortMembers, if_neg hne, setAside, hcapture, ih hbefore]
    cases shape.sortMembers room tag (keyed rest) none <;> rfl

theorem CanWait.sortMembers_eq_ok (h : shape.CanWait room before)
    (tag : Option (Beside → Decoded α)) :
    shape.sortMembers room tag (keyed before) none = .ok (tag, keyed before) := by
  have happend := h.sortMembers_append tag []
  rw [List.append_nil] at happend
  rw [happend]
  change Except.ok (tag, keyed before ++ []) = _
  rw [List.append_nil]

/-- A tag among members that can be set aside. -/
theorem sortMembers_tag (hbefore : shape.CanWait room before)
    (hvariant : shape.variant t = .ok variant) (rest : List (String × Tree)) :
    shape.sortMembers room none (keyed (before ++ (shape.tag, t) :: rest)) none =
      (shape.sortMembers room (some variant) (keyed rest) none).map fun r =>
        (r.1, keyed before ++ r.2) := by
  rw [hbefore.sortMembers_append]
  change (shape.sortMembers room none ((.ok shape.tag, t) :: keyed rest) none).map _ = _
  rw [sortMembers, if_pos rfl, hvariant]
  rfl

/-- **A tag may stand anywhere**: the members beside it are left to its variant, in their order. -/
theorem decode_once {depth : Nat} (hbefore : shape.CanWait (greatestNesting - depth - 1) before)
    (hafter : shape.CanWait (greatestNesting - depth - 1) after)
    (hvariant : shape.variant t = .ok variant) :
    shape.decode depth (.object (keyed (before ++ (shape.tag, t) :: after)) none) =
      variant (.members (keyed (before ++ after))) := by
  rw [decode, sortMembers_tag hbefore hvariant, hafter.sortMembers_eq_ok, keyed_append]
  rfl

/-- **A tag that is given twice is refused**, whatever it says the second time. -/
theorem decode_twice {depth : Nat} (hbefore : shape.CanWait (greatestNesting - depth - 1) before)
    (hbetween : shape.CanWait (greatestNesting - depth - 1) between)
    (hvariant : shape.variant t = .ok variant) :
    shape.decode depth
        (.object (keyed (before ++ (shape.tag, t) :: (between ++ (shape.tag, t') :: after))) none) =
      .error (.data (.duplicateField shape.tag)) := by
  have hagain : shape.sortMembers (greatestNesting - depth - 1) (some variant)
      (keyed ((shape.tag, t') :: after)) none = .error (.data (.duplicateField shape.tag)) := by
    change shape.sortMembers _ _ ((.ok shape.tag, t') :: keyed after) none = _
    rw [sortMembers, if_pos rfl]
    rfl
  rw [decode, sortMembers_tag hbefore hvariant, hbetween.sortMembers_append, hagain]
  rfl

/-! ## Variants -/

/-- **A variant that makes a value of its fields**, in any order and among members that it does not
know.  A field that is given twice is refused. -/
structure IsVariant (variant : Beside → Decoded α) (fields : List (String × Value)) (a : α) :
    Prop where
  ok : ∀ {extras others : List (String × Value)}, (∀ m ∈ extras, m.1 ∉ fields.map Prod.fst) →
    others.Perm (fields ++ extras) → (∀ m ∈ others, m.2.tree.IsWellFormed) →
      variant (.members (keyed (Value.trees others))) = .ok a
  repeated : ∀ {extras front back : List (String × Value)} {key : String} {v : Value},
    (∀ m ∈ extras, m.1 ∉ fields.map Prod.fst) → (front ++ back).Perm (fields ++ extras) →
      key ∈ fields.map Prod.fst → key ∈ front.map Prod.fst →
        (∀ m ∈ front ++ (key, v) :: back, m.2.tree.IsWellFormed) →
          variant (.members (keyed (Value.trees (front ++ (key, v) :: back)))) =
            .error (.data (.duplicateField key))

/-- A variant without fields passes over whatever there is. -/
theorem isVariant_plain (a : α) : IsVariant (plainVariant a) [] a where
  ok _ _ _ := rfl
  repeated _ _ hkey := absurd hkey List.not_mem_nil

end SumShape

namespace RecordShape

variable {P α : Type} {shape : RecordShape P α} {slots : List (Slot P)}
  {fields extras others : List (String × Value)} {a : α}

/-- **Fields that fill the slots of a record**, and what is made of the record then. -/
structure IsFilledBy (shape : RecordShape P α) (slots : List (Slot P))
    (fields : List (String × Value)) (a : α) : Prop where
  names : fields.map Prod.fst = slots.map Slot.name
  decodes : ∀ s ∈ slots, ∀ v, (s.name, v) ∈ fields → ∃ b, s.decode v.tree = .ok b
  finish : ∀ part, (∀ s ∈ slots, ∀ v, (s.name, v) ∈ fields →
    ∃ b, s.decode v.tree = .ok b ∧ s.get part = some b) → shape.finish part = .ok a

namespace IsFilledBy

/-- Nothing is wrong with the fields of a record in any order. -/
theorem accepts (h : shape.IsFilledBy slots fields a) (hslots : shape.IsSlotted slots)
    (hextras : ∀ m ∈ extras, m.1 ∉ fields.map Prod.fst) (hperm : others.Perm (fields ++ extras))
    (hothers : ∀ m ∈ others, m.2.tree.IsWellFormed) :
    (Slot.declared slots).Accepts (Value.trees others) := by
  intro key wrong? hdeclared
  obtain ⟨s, hfind, rfl⟩ := Option.map_eq_some_iff.1 hdeclared
  have hs : s ∈ slots := List.mem_of_find?_eq_some hfind
  obtain rfl : s.name = key := by simpa using List.find?_some hfind
  have hname : s.name ∈ fields.map Prod.fst := by
    rw [h.names]
    exact List.mem_map_of_mem hs
  constructor
  · have hone : (slots.map Slot.name).count s.name ≤ 1 :=
      List.nodup_iff_count_le_one.1 hslots.names _
    have hnone : (extras.map Prod.fst).count s.name = 0 := by
      apply List.count_eq_zero.2
      intro hmem
      obtain ⟨m, hm, heq⟩ := List.mem_map.1 hmem
      exact hextras m hm (heq ▸ hname)
    rw [Value.map_fst_trees, (hperm.map Prod.fst).count_eq, List.map_append, List.count_append,
      hnone, h.names]
    exact hone
  · intro t ht
    obtain ⟨v, hv, rfl⟩ := Value.mem_trees.1 ht
    rcases List.mem_append.1 (hperm.mem_iff.1 hv) with hfield | hextra
    · obtain ⟨b, hb⟩ := h.decodes s hs v hfield
      exact hslots.wrong?_eq_none hs (hothers _ hv) hb
    · exact absurd hname (hextras _ hextra)

/-- **A record whose fields are kept apart is a variant that makes a value of its fields.** -/
theorem isVariant (h : shape.IsFilledBy slots fields a) (hslots : shape.IsSlotted slots) :
    SumShape.IsVariant (SumShape.recordVariant shape) fields a where
  ok {extras others} hextras hperm hothers := by
    have haccepts := h.accepts hslots hextras hperm hothers
    obtain ⟨flaw, hfirst, -⟩ | ⟨-, part, hread, hholds⟩ :=
      hslots.readMembers (Value.wellFormed_trees hothers)
    · exact absurd haccepts hfirst.not_accepts
    · have hfinish : shape.finish part = .ok a := by
        apply h.finish
        intro s hs v hv
        have hmem : (s.name, v) ∈ others := hperm.mem_iff.2 (List.mem_append_left _ hv)
        exact (hholds s hs).present v.tree (Value.mem_trees.2 ⟨v, hmem, rfl⟩)
      change shape.ofMembers _ none = _
      rw [ofMembers, hread]
      change shape.complete part = _
      rw [complete, hfinish]
  repeated {extras front back key v} hextras hperm hkey hgiven hmembers := by
    obtain ⟨hfront, hrest⟩ := List.forall_mem_append.1 hmembers
    obtain ⟨hv, hback⟩ := List.forall_mem_cons.1 hrest
    have haccepts := h.accepts hslots hextras hperm (List.forall_mem_append.2 ⟨hfront, hback⟩)
    rw [Value.trees, List.map_append] at haccepts
    -- The second member of the name offends, since nothing is wrong up to there.
    have hoffence : (Slot.declared slots).offence? (Value.trees front) (key, v.tree) =
        some (.data (.duplicateField key)) := by
      rw [h.names] at hkey
      obtain ⟨s, hs, rfl⟩ := List.mem_map.1 hkey
      rw [Declared.offence?, Slot.declared, hslots.find?_eq_some hs, Value.map_fst_trees]
      exact if_pos hgiven
    change shape.ofMembers _ none = _
    rw [ofMembers, Value.trees, List.map_append, List.map_cons, readMembers_append]
    obtain ⟨flaw, hfirst, -⟩ | ⟨-, part, hread, hholds⟩ :=
      hslots.readMembers (Value.wellFormed_trees hfront)
    · exact absurd haccepts.left hfirst.not_accepts
    · obtain ⟨flaw, hflaw, hone⟩ | ⟨hnone, -⟩ := hslots.readMember hholds (m := (key, v.tree)) hv
      · rw [hoffence, Option.some.injEq] at hflaw
        rw [← Value.trees, hread, hflaw]
        change (shape.readMembers part (keyed ((key, v.tree) :: _)) none >>= _) = _
        rw [readMembers_cons, hone]
        rfl
      · rw [hoffence] at hnone
        cases hnone

end IsFilledBy

end RecordShape

/-! ## Values of a sum -/

/-- **A tagged sum is decoded in any order**: of every text that holds an object with the members of
a value, wherever they stand and whatever else there is that is not nested too deep. -/
structure DecodesTagged {α : Type} (decode : Decoder α) (toJson : α → Value) : Prop where
  /-- The members of a value make that value, in any order and among any others. -/
  orderless : ∀ {a : α} {own extras members : List (String × Value)} {s : String},
    toJson a = .object own → (∀ m ∈ extras, m.1 ∉ own.map Prod.fst ∧ m.2.depth < 100) →
      members.Perm (own ++ extras) → (Value.object members).tree.IsTextOf s →
        decodeString decode s = .ok a
  /-- One of them that is given again is refused, a copy wherever it stands and anything else
  behind the first. -/
  repeated : ∀ {a : α} {own extras before after : List (String × Value)} {key : String} {v : Value}
    {s : String}, toJson a = .object own →
      (∀ m ∈ extras, m.1 ∉ own.map Prod.fst ∧ m.2.depth < 100) →
        (before ++ after).Perm (own ++ extras) → key ∈ own.map Prod.fst →
          (key, v) ∈ own ∨ key ∈ before.map Prod.fst ∧ v.depth < 100 →
            (Value.object (before ++ (key, v) :: after)).tree.IsTextOf s →
              decodeString decode s = .error (.data (.duplicateField key))

namespace SumShape

variable {α : Type} {shape : SumShape α} {name key : String} {variant : Beside → Decoded α}
  {fields extras before after : List (String × Value)} {v : Value} {a : α}

/-- **A value of a sum**: the variant that its tag names makes it of its fields. -/
structure Tells (shape : SumShape α) (name : String) (variant : Beside → Decoded α)
    (fields : List (String × Value)) (a : α) : Prop where
  named : shape.variants.find? (fun v => v.1 == name) = some (name, variant)
  isVariant : IsVariant variant fields a
  beside : ∀ m ∈ fields, m.1 ≠ shape.tag ∧ m.2.depth < 100

/-- What may stand beside the tag. -/
def StandsBeside (shape : SumShape α) (m : String × Value) : Prop :=
  m.1 ≠ shape.tag ∧ m.2.depth < 100

theorem canWait_trees {members : List (String × Value)} (h : ∀ m ∈ members, shape.StandsBeside m) :
    shape.CanWait (greatestNesting - 0 - 1) (Value.trees members) := by
  refine List.forall_mem_map.2 fun m hm => ?_
  obtain ⟨hne, hdepth⟩ := h m hm
  have hroom : m.2.depth ≤ greatestNesting - 0 - 1 := by
    change m.2.depth ≤ 126
    omega
  exact ⟨hne, Value.captureFault?_tree m.2 hroom⟩

theorem variant_text (h : shape.variants.find? (fun v => v.1 == name) = some (name, variant)) :
    shape.variant (Value.text name).tree = .ok variant := by
  rw [Value.tree, SumShape.variant, decodeTextAs]
  simp only [bind, Except.bind, h]
  rfl

namespace Tells

/-- What is left beside the tag may stand there. -/
theorem standsBeside (h : shape.Tells name variant fields a)
    (hextras : ∀ m ∈ extras, m.1 ∉ ((shape.tag, Value.text name) :: fields).map Prod.fst ∧
      m.2.depth < 100) {members : List (String × Value)} (hperm : members.Perm (fields ++ extras)) :
    ∀ m ∈ members, shape.StandsBeside m := by
  intro m hm
  rcases List.mem_append.1 (hperm.mem_iff.1 hm) with hfield | hextra
  · exact h.beside m hfield
  · obtain ⟨habsent, hdepth⟩ := hextras m hextra
    rw [List.map_cons, List.mem_cons, not_or] at habsent
    exact ⟨habsent.1, hdepth⟩

/-- Others are not among the fields. -/
theorem not_mem_fields
    (hextras : ∀ m ∈ extras, m.1 ∉ ((shape.tag, Value.text name) :: fields).map Prod.fst ∧
      m.2.depth < 100) : ∀ m ∈ extras, m.1 ∉ fields.map Prod.fst := by
  intro m hm hmem
  exact (hextras m hm).1 (List.mem_cons_of_mem _ hmem)

/-- **A value is decoded wherever its tag stands**, and its fields are left to its variant. -/
theorem decode_tag (h : shape.Tells name variant fields a)
    (hbefore : ∀ m ∈ before, shape.StandsBeside m) (hafter : ∀ m ∈ after, shape.StandsBeside m) :
    shape.decode 0 (Value.object (before ++ (shape.tag, .text name) :: after)).tree =
      variant (.members (keyed (Value.trees (before ++ after)))) := by
  rw [Value.tree, Value.memberTrees_eq_keyed, Value.trees_append, Value.trees_cons,
    Value.trees_append]
  exact decode_once (canWait_trees hbefore) (canWait_trees hafter) (variant_text h.named)

/-- A value is refused whose tag is given twice. -/
theorem decode_tag_tag (h : shape.Tells name variant fields a) {between : List (String × Value)}
    (hbefore : ∀ m ∈ before, shape.StandsBeside m)
    (hbetween : ∀ m ∈ between, shape.StandsBeside m) :
    shape.decode 0 (Value.object
        (before ++ (shape.tag, .text name) :: (between ++ (shape.tag, v) :: after))).tree =
      .error (.data (.duplicateField shape.tag)) := by
  rw [Value.tree, Value.memberTrees_eq_keyed, Value.trees_append, Value.trees_cons,
    Value.trees_append, Value.trees_cons]
  exact decode_twice (canWait_trees hbefore) (canWait_trees hbetween) (variant_text h.named)

/-- What stands beside the tag of a value. -/
theorem perm_beside
    (hperm : (before ++ (shape.tag, .text name) :: after).Perm
      ((shape.tag, .text name) :: fields ++ extras)) :
    (before ++ after).Perm (fields ++ extras) :=
  (List.perm_cons _).1 (List.perm_middle.symm.trans hperm)

/-- **The members of a value make that value**, in any order and among any others. -/
theorem decode_of_perm (h : shape.Tells name variant fields a)
    (hextras : ∀ m ∈ extras, m.1 ∉ ((shape.tag, Value.text name) :: fields).map Prod.fst ∧
      m.2.depth < 100) (hwell : ∀ m ∈ fields ++ extras, m.2.tree.IsWellFormed)
    {members : List (String × Value)}
    (hperm : members.Perm ((shape.tag, .text name) :: fields ++ extras)) :
    shape.decode 0 (Value.object members).tree = .ok a := by
  have htag : (shape.tag, Value.text name) ∈ members := hperm.mem_iff.2 List.mem_cons_self
  obtain ⟨before, after, rfl⟩ := List.append_of_mem htag
  have hbeside := perm_beside hperm
  obtain ⟨hbefore, hafter⟩ := List.forall_mem_append.1 (h.standsBeside hextras hbeside)
  rw [h.decode_tag hbefore hafter]
  exact h.isVariant.ok (not_mem_fields hextras) hbeside fun m hm =>
    hwell m (hbeside.mem_iff.1 hm)

/-- A value is refused of which a field is given again, wherever the tag stands. -/
theorem decode_of_repeated_field (h : shape.Tells name variant fields a)
    (hextras : ∀ m ∈ extras, m.1 ∉ ((shape.tag, Value.text name) :: fields).map Prod.fst ∧
      m.2.depth < 100) (hwell : ∀ m ∈ fields ++ extras, m.2.tree.IsWellFormed)
    {front back : List (String × Value)} (hsplit : before ++ after = front ++ (key, v) :: back)
    (hbeside : (front ++ back).Perm (fields ++ extras)) (hkey : key ∈ fields.map Prod.fst)
    (hgiven : key ∈ front.map Prod.fst) (hv : v.tree.IsWellFormed) (hdepth : v.depth < 100) :
    shape.decode 0 (Value.object (before ++ (shape.tag, .text name) :: after)).tree =
      .error (.data (.duplicateField key)) := by
  have hne : key ≠ shape.tag := by
    obtain ⟨m, hm, rfl⟩ := List.mem_map.1 hkey
    exact (h.beside m hm).1
  have hall : ∀ m ∈ before ++ after, shape.StandsBeside m := by
    obtain ⟨hfront, hback⟩ := List.forall_mem_append.1 (h.standsBeside hextras hbeside)
    rw [hsplit]
    exact List.forall_mem_append.2 ⟨hfront, List.forall_mem_cons.2 ⟨⟨hne, hdepth⟩, hback⟩⟩
  have hmembers : ∀ m ∈ front ++ (key, v) :: back, m.2.tree.IsWellFormed := by
    obtain ⟨hfront, hback⟩ := List.forall_mem_append.1 fun m hm => hwell m (hbeside.mem_iff.1 hm)
    exact List.forall_mem_append.2 ⟨hfront, List.forall_mem_cons.2 ⟨hv, hback⟩⟩
  obtain ⟨hbefore, hafter⟩ := List.forall_mem_append.1 hall
  rw [h.decode_tag hbefore hafter, hsplit]
  exact h.isVariant.repeated (not_mem_fields hextras) hbeside hkey hgiven hmembers

/-- **A value is refused of which a member is given again** behind the first. -/
theorem decode_of_repeated (h : shape.Tells name variant fields a)
    (hextras : ∀ m ∈ extras, m.1 ∉ ((shape.tag, Value.text name) :: fields).map Prod.fst ∧
      m.2.depth < 100) (hwell : ∀ m ∈ fields ++ extras, m.2.tree.IsWellFormed)
    (hperm : (before ++ after).Perm ((shape.tag, .text name) :: fields ++ extras))
    (hkey : key ∈ ((shape.tag, Value.text name) :: fields).map Prod.fst)
    (hgiven : key ∈ before.map Prod.fst) (hv : v.tree.IsWellFormed) (hdepth : v.depth < 100) :
    shape.decode 0 (Value.object (before ++ (key, v) :: after)).tree =
      .error (.data (.duplicateField key)) := by
  have htag : (shape.tag, Value.text name) ∈ before ++ after := hperm.mem_iff.2 List.mem_cons_self
  have hfield (hne : key ≠ shape.tag) : key ∈ fields.map Prod.fst :=
    (List.mem_cons.1 hkey).resolve_left hne
  rcases List.mem_append.1 htag with hbefore | hafter
  · -- The tag stands first, and it may be the member that is given again.
    obtain ⟨front, between, rfl⟩ := List.append_of_mem hbefore
    rw [List.append_assoc, List.cons_append] at hperm ⊢
    have hbeside := perm_beside hperm
    by_cases hne : key = shape.tag
    · subst hne
      obtain ⟨hfront, hrest⟩ := List.forall_mem_append.1 (h.standsBeside hextras hbeside)
      exact h.decode_tag_tag hfront (List.forall_mem_append.1 hrest).1
    · have hgiven : key ∈ (front ++ between).map Prod.fst := by
        simpa [hne] using hgiven
      rw [← List.append_assoc] at hbeside
      exact h.decode_of_repeated_field hextras hwell (List.append_assoc _ _ _).symm hbeside
        (hfield hne) hgiven hv hdepth
  · -- The tag stands behind the member that is given again, so that is a field.
    obtain ⟨between, back, rfl⟩ := List.append_of_mem hafter
    rw [← List.append_assoc] at hperm
    have hbeside := perm_beside hperm
    have hne : key ≠ shape.tag := by
      obtain ⟨m, hm, rfl⟩ := List.mem_map.1 hgiven
      have hmem := List.mem_append_left back (List.mem_append_left between hm)
      exact (h.standsBeside hextras hbeside m hmem).1
    have hsplit : (before ++ (key, v) :: between) ++ back =
        before ++ (key, v) :: (between ++ back) := by
      rw [List.append_assoc, List.cons_append]
    rw [List.append_assoc] at hbeside
    have hfound := h.decode_of_repeated_field hextras hwell hsplit hbeside (hfield hne) hgiven hv
      hdepth
    rwa [List.append_assoc, List.cons_append] at hfound

end Tells

/-- Of two copies of a member one stands behind the other. -/
theorem exists_behind (hv : (key, v) ∈ before ++ after ∨ key ∈ before.map Prod.fst) :
    ∃ front back, before ++ (key, v) :: after = front ++ (key, v) :: back ∧
      (front ++ back).Perm (before ++ after) ∧ key ∈ front.map Prod.fst := by
  by_cases hgiven : key ∈ before.map Prod.fst
  · exact ⟨before, after, rfl, .refl _, hgiven⟩
  · have hafter : (key, v) ∈ after := by
      apply (List.mem_append.1 (hv.resolve_right hgiven)).resolve_left
      intro hbefore
      exact hgiven (List.mem_map.2 ⟨_, hbefore, rfl⟩)
    obtain ⟨between, back, rfl⟩ := List.append_of_mem hafter
    refine ⟨before ++ (key, v) :: between, back, ?_, ?_, ?_⟩
    · rw [List.append_assoc, List.cons_append]
    · rw [List.append_assoc, List.cons_append]
      exact List.perm_middle.symm.append_left before
    · simp

theorem wellFormed_of_isTextOf {members : List (String × Value)} {s : String}
    (h : (Value.object members).tree.IsTextOf s) : ∀ m ∈ members, m.2.tree.IsWellFormed := by
  rw [Value.tree, Value.memberTrees_eq_keyed] at h
  exact fun m hm => h.isWellFormed_of_keyed _ (List.mem_map_of_mem hm)

/-- **A sum is decoded in any order** whose values are made by the variants that their tags name. -/
theorem decodesTagged {toJson : α → Value} (h : ∀ a, ∃ name variant fields,
    toJson a = .object ((shape.tag, .text name) :: fields) ∧ shape.Tells name variant fields a) :
    DecodesTagged (shape.decode 0) toJson where
  orderless {a own extras members s} hown hextras hperm hs := by
    obtain ⟨name, variant, fields, hjson, htells⟩ := h a
    obtain rfl : own = _ := Value.object.inj (hown.symm.trans hjson)
    have hmembers := wellFormed_of_isTextOf hs
    rw [hs.decodeString]
    exact htells.decode_of_perm hextras
      (fun m hm => hmembers m (hperm.mem_iff.2 (List.mem_cons_of_mem _ hm))) hperm
  repeated {a own extras before after key v s} hown hextras hperm hkey hv hs := by
    obtain ⟨name, variant, fields, hjson, htells⟩ := h a
    obtain rfl : own = _ := Value.object.inj (hown.symm.trans hjson)
    have hdepth : v.depth < 100 := by
      rcases hv with hv | ⟨-, hv⟩
      · rcases List.mem_cons.1 hv with heq | hv
        · obtain ⟨-, rfl⟩ := Prod.mk.inj heq
          change 0 < 100
          decide
        · exact (htells.beside _ hv).2
      · exact hv
    have hcopy : (key, v) ∈ before ++ after ∨ key ∈ before.map Prod.fst :=
      hv.imp (fun hv => hperm.mem_iff.2 (List.mem_append_left _ hv)) And.left
    obtain ⟨front, back, hsplit, hbehind, hgiven⟩ := exists_behind hcopy
    rw [hsplit] at hs
    have hperm := hbehind.trans hperm
    obtain ⟨hfront, hrest⟩ := List.forall_mem_append.1 (wellFormed_of_isTextOf hs)
    obtain ⟨hv, hback⟩ := List.forall_mem_cons.1 hrest
    have hall := List.forall_mem_append.2 ⟨hfront, hback⟩
    rw [hs.decodeString]
    exact htells.decode_of_repeated hextras
      (fun m hm => hall m (hperm.mem_iff.2 (List.mem_cons_of_mem _ hm))) hperm hkey hgiven hv hdepth

end SumShape

end FolderTasks.Json
