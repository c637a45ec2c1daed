import FolderTasks.Proofs.Json.Kinds
import FolderTasks.Proofs.Json.Records
/-!
# Records are decoded exactly

A record is decoded from an object of well-formed JSON, whose keys stand for texts, if and only if no
field is given twice, every field that is given has a value of its type and every field that is needed
is given.  Each field is then as given or has its default.  So neither the order of the members nor
what stands under other names matters.  If anything is wrong, what is reported is the first thing in
text order.

## Main definitions

* `Accepts`: the members that make up a record.
* `Gives`: the value that members give to a field.
* `DecodesExactly`: a decoder takes just the objects that it should, and makes of them what they
  say.
* `RecordShape.Finishes`: what a record needs besides fields that are kept apart.

## Main statements

* `RecordShape.IsSlotted.decodesExactly`: records whose fields are kept apart are decoded exactly.
-/

namespace FolderTasks.Json

theorem lookup_cons_ite {β : Type} (key name : String) (b : β) (l : List (String × β)) :
    ((key, b) :: l).lookup name = if name = key then some b else l.lookup name := by
  by_cases h : name = key
  · subst h
    simp
  · have hbeq : (name == key) = false := beq_false_of_ne h
    rw [List.lookup_cons, hbeq, if_neg h]

/-- What fields of given types declare. -/
def declaredBy (fields : List (String × Kind)) : Declared :=
  fun name => (fields.lookup name).map Kind.flaw?

/-- **Members that make up a record**: no field is given twice, each that is given has a value of
its type, and every field that is needed is given. -/
def Accepts (fields : List (String × Kind)) (needed : List String)
    (members : List (String × Tree)) : Prop :=
  (∀ name kind, fields.lookup name = some kind →
    (members.map Prod.fst).count name ≤ 1 ∧ ∀ t, (name, t) ∈ members → kind.Fits t) ∧
  ∀ name ∈ needed, name ∈ members.map Prod.fst

/-- The members under declared names. -/
def known (fields : List (String × Kind)) (members : List (String × Tree)) : List (String × Tree) :=
  members.filter fun m => (fields.lookup m.1).isSome

/-- **A value that members give**: what is denoted under its name, or else its default. -/
structure Gives {β : Type} (members : List (String × Tree)) (name : String)
    (denotes : Tree → β → Prop) (default value : β) : Prop where
  present : ∀ t, (name, t) ∈ members → denotes t value
  missing : name ∉ members.map Prod.fst → value = default

/-- **A decoder takes just the objects that it should**, and makes of them what they say.  This is
about every text that holds an object whose keys are texts once their escapes are resolved; its
values may be anything.  A key with half of a surrogate pair stands for no text and is a fault of its
own, which is left aside here. -/
structure DecodesExactly {α : Type} (decode : Decoder α) (fields : List (String × Kind))
    (needed : List String) (IsMadeOf : α → List (String × Tree) → Prop) : Prop where
  /-- An object is decoded if and only if its members make up a record. -/
  accepts_iff : ∀ {s : String} {members : List (String × Tree)},
    (Tree.object (keyed members) none).IsTextOf s →
      ((∃ a, decodeString decode s = .ok a) ↔ Accepts fields needed members)
  /-- What is decoded is what the members give. -/
  made : ∀ {s : String} {members : List (String × Tree)},
    (Tree.object (keyed members) none).IsTextOf s → ∀ a, decodeString decode s = .ok a →
      IsMadeOf a members
  /-- What is reported is what is wrong with the first member that offends, or if there is none, a
  needed field that is not given. -/
  refuses : ∀ {s : String} {members : List (String × Tree)},
    (Tree.object (keyed members) none).IsTextOf s → ∀ flaw, decodeString decode s = .error flaw →
      (declaredBy fields).IsFirstOffence members flaw ∨
      (∀ flaw', ¬ (declaredBy fields).IsFirstOffence members flaw') ∧
        ∃ name ∈ needed, name ∉ members.map Prod.fst ∧ flaw = .data (.missingField name)
  /-- Neither the order of the members nor what stands under other names matters. -/
  orderless : ∀ {s s' : String} {members members' : List (String × Tree)},
    (Tree.object (keyed members) none).IsTextOf s →
      (Tree.object (keyed members') none).IsTextOf s' →
        (known fields members).Perm (known fields members') →
          ∀ a, decodeString decode s = .ok a ↔ decodeString decode s' = .ok a

/-! ### What members give -/

namespace Gives

variable {β : Type} {members members' : List (String × Tree)} {name : String}
  {denotes : Tree → β → Prop} {default value value' : β}

/-- Only the members under the name matter. -/
theorem congr (h : Gives members name denotes default value)
    (hiff : ∀ t, (name, t) ∈ members ↔ (name, t) ∈ members') :
    Gives members' name denotes default value where
  present t ht := h.present t ((hiff t).2 ht)
  missing hname := by
    apply h.missing
    intro hmem
    obtain ⟨⟨_, t⟩, ht, rfl⟩ := List.mem_map.1 hmem
    exact hname (List.mem_map_of_mem ((hiff t).1 ht))

/-- Members give one value at most. -/
theorem unique (h : Gives members name denotes default value)
    (h' : Gives members name denotes default value')
    (hdenotes : ∀ t b b', denotes t b → denotes t b' → b = b') : value = value' := by
  by_cases hname : name ∈ members.map Prod.fst
  · obtain ⟨⟨_, t⟩, ht, rfl⟩ := List.mem_map.1 hname
    exact hdenotes t _ _ (h.present t ht) (h'.present t ht)
  · rw [h.missing hname, h'.missing hname]

end Gives

/-- What a slot holds is what the members give. -/
theorem Slot.Holds.gives {P : Type} {s : Slot P} {part : P} {members : List (String × Tree)}
    (h : s.Holds part members) (hmembers : ∀ m ∈ members, m.2.IsWellFormed) {kind : Kind}
    {denotes : Tree → s.Content → Prop} (hjudges : Judges s.decode kind denotes)
    (default : s.Content) : Gives members s.name denotes default ((s.get part).getD default) where
  present t ht := by
    obtain ⟨a, hdecode, hget⟩ := h.present t ht
    rw [hget]
    exact hjudges.denotes_of_ok t (hmembers _ ht) a hdecode
  missing hname := by
    rw [h.absent hname]
    rfl

/-! ### Records whose fields are kept apart -/

/-- A field of a type, refused for what is wrong with a value of that type. -/
def Slot.ofKind {P β : Type} (name : String) (kind : Kind) (decode : Decoder β)
    (get : P → Option β) (set : P → β → P) : Slot P where
  name := name
  Content := β
  decode := decode
  wrong? := kind.flaw?
  get := get
  set := set

/-- Members are accepted if nothing is wrong with them and none is missing. -/
theorem accepts_iff {fields : List (String × Kind)} {needed : List String}
    {members : List (String × Tree)} (hmembers : ∀ m ∈ members, m.2.IsWellFormed) :
    Accepts fields needed members ↔
      (declaredBy fields).Accepts members ∧ ∀ name ∈ needed, name ∈ members.map Prod.fst := by
  apply and_congr_left'
  constructor
  · intro h name wrong? hname
    obtain ⟨kind, hkind, rfl⟩ := Option.map_eq_some_iff.1 hname
    obtain ⟨hcount, hfits⟩ := h name kind hkind
    exact ⟨hcount, fun t ht => (Kind.flaw?_eq_none_iff (hmembers _ ht)).2 (hfits t ht)⟩
  · intro h name kind hkind
    obtain ⟨hcount, hright⟩ := h name kind.flaw? (Option.map_eq_some_iff.2 ⟨kind, hkind, rfl⟩)
    exact ⟨hcount, fun t ht => (Kind.flaw?_eq_none_iff (hmembers _ ht)).1 (hright t ht)⟩

/-- Slots with the names and types of fields declare what the fields do. -/
theorem declared_eq_declaredBy {P : Type} {slots : List (Slot P)} {fields : List (String × Kind)}
    (h : slots.map (fun s => (s.name, s.wrong?)) = fields.map fun f => (f.1, f.2.flaw?)) :
    Slot.declared slots = declaredBy fields := by
  funext name
  rw [Slot.declared, declaredBy]
  induction slots generalizing fields with
  | nil =>
    obtain rfl := List.map_eq_nil_iff.1 h.symm
    rfl
  | cons s slots ih =>
    obtain ⟨f, fields, rfl, hhead, htail⟩ := List.map_eq_cons_iff.1 h.symm
    obtain ⟨key, kind⟩ := f
    obtain ⟨rfl, hwrong⟩ := Prod.mk.inj hhead
    rw [List.find?_cons, lookup_cons_ite]
    by_cases hname : name = s.name
    · simp [hname, hwrong]
    · have hbeq : (s.name == name) = false := beq_false_of_ne (Ne.symm hname)
      rw [hbeq, if_neg hname]
      exact ih htail.symm

/-- The members under the names of a record are the same in any order and whatever else there is. -/
theorem mem_iff_of_perm {fields : List (String × Kind)} {members members' : List (String × Tree)}
    (h : (known fields members).Perm (known fields members')) {name : String}
    (hname : (fields.lookup name).isSome) (t : Tree) :
    (name, t) ∈ members ↔ (name, t) ∈ members' := by
  have hmem := h.mem_iff (a := (name, t))
  simpa only [known, List.mem_filter, hname, and_true] using hmem

theorem count_eq_of_perm {fields : List (String × Kind)} {members members' : List (String × Tree)}
    (h : (known fields members).Perm (known fields members')) {name : String}
    (hname : (fields.lookup name).isSome) :
    (members.map Prod.fst).count name = (members'.map Prod.fst).count name := by
  have hcount (ms : List (String × Tree)) :
      ((known fields ms).map Prod.fst).count name = (ms.map Prod.fst).count name := by
    have hmap : (known fields ms).map Prod.fst =
        (ms.map Prod.fst).filter fun key => (fields.lookup key).isSome := by
      rw [List.filter_map]
      rfl
    rw [hmap]
    exact List.count_filter hname
  rw [← hcount members, ← hcount members']
  exact (h.map Prod.fst).count_eq name

/-- Neither the order of the members nor what stands under other names makes them a record. -/
theorem Accepts.of_perm {fields : List (String × Kind)} {needed : List String}
    {members members' : List (String × Tree)} (h : Accepts fields needed members)
    (hneeded : ∀ name ∈ needed, (fields.lookup name).isSome)
    (hperm : (known fields members).Perm (known fields members')) :
    Accepts fields needed members' := by
  constructor
  · intro name kind hkind
    have hname : (fields.lookup name).isSome := by rw [hkind]; rfl
    obtain ⟨hcount, hfits⟩ := h.1 name kind hkind
    rw [count_eq_of_perm hperm hname] at hcount
    exact ⟨hcount, fun t ht => hfits t ((mem_iff_of_perm hperm hname t).2 ht)⟩
  · intro name hmem
    obtain ⟨⟨_, t⟩, ht, rfl⟩ := List.mem_map.1 (h.2 name hmem)
    exact List.mem_map.2 ⟨_, (mem_iff_of_perm hperm (hneeded _ hmem) t).1 ht, rfl⟩

section Slotted

variable {P α : Type} {shape : RecordShape P α} {slots : List (Slot P)}
  {fields : List (String × Kind)} {needed : List String}
  {IsMadeOf : α → List (String × Tree) → Prop}

/-- **What a record needs besides slots to be decoded exactly**: it is finished when all that is
needed is given, and it depends on the members under its names alone. -/
structure RecordShape.Finishes (shape : RecordShape P α) (slots : List (Slot P))
    (fields : List (String × Kind)) (needed : List String)
    (IsMadeOf : α → List (String × Tree) → Prop) : Prop where
  slots_eq : slots.map (fun s => (s.name, s.wrong?)) = fields.map fun f => (f.1, f.2.flaw?)
  declared : ∀ name ∈ needed, (fields.lookup name).isSome
  finish : ∀ {part : P} {members : List (String × Tree)}, (∀ m ∈ members, m.2.IsWellFormed) →
    (∀ s ∈ slots, s.Holds part members) →
      (∃ a, shape.finish part = .ok a ∧ IsMadeOf a members ∧
        ∀ name ∈ needed, name ∈ members.map Prod.fst) ∨
      ∃ name ∈ needed, name ∉ members.map Prod.fst ∧ shape.finish part = .error (.missingField name)
  congr : ∀ {a : α} {members members' : List (String × Tree)}, IsMadeOf a members →
    (∀ name, (fields.lookup name).isSome → ∀ t, (name, t) ∈ members ↔ (name, t) ∈ members') →
      IsMadeOf a members'
  unique : ∀ {a a' : α} {members : List (String × Tree)}, IsMadeOf a members →
    IsMadeOf a' members → a = a'

/-- The three ways in which an object is decoded. -/
theorem RecordShape.IsSlotted.decode_cases (h : shape.IsSlotted slots)
    (hfinishes : shape.Finishes slots fields needed IsMadeOf) {members : List (String × Tree)}
    (hmembers : ∀ m ∈ members, m.2.IsWellFormed) :
    (∃ flaw, (declaredBy fields).IsFirstOffence members flaw ∧
      shape.decode (.object (keyed members) none) = .error flaw) ∨
    (declaredBy fields).Accepts members ∧
      ((∃ a, shape.decode (.object (keyed members) none) = .ok a ∧ IsMadeOf a members ∧
        ∀ name ∈ needed, name ∈ members.map Prod.fst) ∨
      ∃ name ∈ needed, name ∉ members.map Prod.fst ∧
        shape.decode (.object (keyed members) none) = .error (.data (.missingField name))) := by
  rw [← declared_eq_declaredBy hfinishes.slots_eq]
  have hdecode : shape.decode (.object (keyed members) none) =
      (shape.readMembers shape.blank (keyed members) none >>= shape.complete) := rfl
  rw [hdecode]
  obtain ⟨flaw, hfirst, hread⟩ | ⟨haccepts, part, hread, hholds⟩ := h.readMembers hmembers
  · rw [hread]
    exact .inl ⟨flaw, hfirst, rfl⟩
  · rw [hread]
    change _ ∨ _ ∧ ((∃ a, shape.complete part = .ok a ∧ _) ∨
      ∃ name ∈ needed, _ ∧ shape.complete part = .error _)
    rw [RecordShape.complete]
    refine .inr ⟨haccepts, ?_⟩
    obtain ⟨a, hfinish, hmade⟩ | ⟨name, hname, habsent, hfinish⟩ := hfinishes.finish hmembers hholds
    · rw [hfinish]
      exact .inl ⟨a, rfl, hmade⟩
    · rw [hfinish]
      exact .inr ⟨name, hname, habsent, rfl⟩

namespace RecordShape.IsSlotted

variable {s s' : String} {members members' : List (String × Tree)} {a : α}

/-- What is decoded is accepted, and it is what the members give. -/
theorem accepted_of_ok (h : shape.IsSlotted slots)
    (hfinishes : shape.Finishes slots fields needed IsMadeOf)
    (hs : (Tree.object (keyed members) none).IsTextOf s)
    (ha : decodeString shape.decode s = .ok a) :
    Accepts fields needed members ∧ IsMadeOf a members := by
  have hmembers := hs.isWellFormed_of_keyed
  rw [hs.decodeString] at ha
  obtain ⟨flaw, _, hdecode⟩ | ⟨hright, ⟨a', hdecode, hmade, hneeded⟩ | ⟨name, _, _, hdecode⟩⟩ :=
    h.decode_cases hfinishes hmembers
  · rw [hdecode] at ha
    cases ha
  · rw [hdecode] at ha
    obtain rfl := Except.ok.inj ha
    exact ⟨(accepts_iff hmembers).2 ⟨hright, hneeded⟩, hmade⟩
  · rw [hdecode] at ha
    cases ha

/-- What is accepted is decoded. -/
theorem exists_ok (h : shape.IsSlotted slots)
    (hfinishes : shape.Finishes slots fields needed IsMadeOf)
    (hs : (Tree.object (keyed members) none).IsTextOf s)
    (haccepts : Accepts fields needed members) : ∃ a, decodeString shape.decode s = .ok a := by
  have hmembers := hs.isWellFormed_of_keyed
  obtain ⟨hright, hneeded⟩ := (accepts_iff hmembers).1 haccepts
  rw [hs.decodeString]
  obtain ⟨flaw, hfirst, _⟩ | ⟨_, ⟨a, hdecode, _⟩ | ⟨name, hname, habsent, _⟩⟩ :=
    h.decode_cases hfinishes hmembers
  · exact absurd hright hfirst.not_accepts
  · exact ⟨a, hdecode⟩
  · exact absurd (hneeded name hname) habsent

/-- The same is decoded of the same members under declared names. -/
theorem ok_of_perm (h : shape.IsSlotted slots)
    (hfinishes : shape.Finishes slots fields needed IsMadeOf)
    (hs : (Tree.object (keyed members) none).IsTextOf s)
    (hs' : (Tree.object (keyed members') none).IsTextOf s')
    (hperm : (known fields members).Perm (known fields members'))
    (ha : decodeString shape.decode s = .ok a) : decodeString shape.decode s' = .ok a := by
  obtain ⟨haccepts, hmade⟩ := h.accepted_of_ok hfinishes hs ha
  obtain ⟨a', ha'⟩ := h.exists_ok hfinishes hs' (haccepts.of_perm hfinishes.declared hperm)
  have hmade' : IsMadeOf a members' :=
    hfinishes.congr hmade fun name hname t => mem_iff_of_perm hperm hname t
  rw [ha', hfinishes.unique (h.accepted_of_ok hfinishes hs' ha').2 hmade']

/-- **Records whose fields are kept apart are decoded exactly.** -/
theorem decodesExactly (h : shape.IsSlotted slots)
    (hfinishes : shape.Finishes slots fields needed IsMadeOf) :
    DecodesExactly shape.decode fields needed IsMadeOf where
  accepts_iff hs :=
    ⟨fun ⟨_, ha⟩ => (h.accepted_of_ok hfinishes hs ha).1, h.exists_ok hfinishes hs⟩
  made hs _ ha := (h.accepted_of_ok hfinishes hs ha).2
  refuses hs flaw hflaw := by
    rw [hs.decodeString] at hflaw
    obtain ⟨flaw', hfirst, hdecode⟩ | ⟨hright, ⟨a, hdecode, _⟩ | ⟨name, hname, habsent, hdecode⟩⟩ :=
      h.decode_cases hfinishes (hs.isWellFormed_of_keyed)
    · rw [hdecode] at hflaw
      obtain rfl := Except.error.inj hflaw
      exact .inl hfirst
    · rw [hdecode] at hflaw
      cases hflaw
    · rw [hdecode] at hflaw
      obtain rfl := Except.error.inj hflaw
      exact .inr ⟨fun _ hfirst => hfirst.not_accepts hright, name, hname, habsent, rfl⟩
  orderless hs hs' hperm _ :=
    ⟨h.ok_of_perm hfinishes hs hs' hperm, h.ok_of_perm hfinishes hs' hs hperm.symm⟩

end RecordShape.IsSlotted

end Slotted

end FolderTasks.Json
