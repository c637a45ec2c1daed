import FolderTasks.Proofs.Json.Grammar
import Mathlib.Data.List.Induction
import Mathlib.Data.List.Nodup
/-!
# Records are decoded member by member

The members of an object are taken in text order.  One under a name that the record does not declare
is passed over.  One under a declared name offends if that name was given before or if its value is
not what it should be, and the first offence ends the reading.  Without an offence every field holds
in the end what its decoder makes of its member, wherever that member stands.

## Main definitions

* `Declared`: the names that a record declares, with what is wrong with a value under each.
* `Declared.offence?`, `Declared.IsFirstOffence`: what is wrong with a member behind others, and the
  first such thing in an object.
* `Slot`, `RecordShape.IsSlotted`: fields that are read and kept independently of one another.

## Main statements

* `RecordShape.IsSlotted.readMember`: what one member does to a record.
* `RecordShape.IsSlotted.readMembers`: what all of them do.
-/

namespace FolderTasks.Json

/-- The members of an object whose keys are all texts. -/
def keyed (members : List (String × Tree)) : List (Except Fault String × Tree) :=
  members.map fun m => (.ok m.1, m.2)

theorem keyed_append (members rest : List (String × Tree)) :
    keyed (members ++ rest) = keyed members ++ keyed rest := List.map_append

/-- The values in an object that makes up a text are well-formed. -/
theorem Tree.IsTextOf.isWellFormed_of_keyed {s : String} {members : List (String × Tree)}
    (h : (Tree.object (keyed members) none).IsTextOf s) : ∀ m ∈ members, m.2.IsWellFormed :=
  fun _ hm => h.isWellFormed.of_object.2 _ (List.mem_map_of_mem hm)

/-! ## Offences -/

/-- The names that a record declares, with what is wrong with a value under each, if anything. -/
abbrev Declared := String → Option (Tree → Option Flaw)

namespace Declared

variable (declared : Declared)

/-- **What is wrong with a member behind others**: a declared name that stands among them already,
or a value that is not what it should be under its name. -/
def offence? (before : List (String × Tree)) (m : String × Tree) : Option Flaw :=
  match declared m.1 with
  | none => none
  | some wrong? =>
    if m.1 ∈ before.map Prod.fst then some (.data (.duplicateField m.1)) else wrong? m.2

/-- **The offence of the first member that offends**, in text order. -/
def IsFirstOffence (members : List (String × Tree)) (flaw : Flaw) : Prop :=
  ∃ before m after, members = before ++ m :: after ∧ declared.offence? before m = some flaw ∧
    ∀ before' m' after', before = before' ++ m' :: after' → declared.offence? before' m' = none

/-- **Members that nothing is wrong with**: no declared name stands among them twice, and under each
stands what should. -/
def Accepts (members : List (String × Tree)) : Prop :=
  ∀ key wrong?, declared key = some wrong? →
    (members.map Prod.fst).count key ≤ 1 ∧ ∀ t, (key, t) ∈ members → wrong? t = none

variable {declared}

theorem Accepts.nil : declared.Accepts [] :=
  fun _ _ _ => ⟨by simp, fun _ h => absurd h List.not_mem_nil⟩

theorem offence?_eq_none_iff {before : List (String × Tree)} {key : String} {t : Tree} :
    declared.offence? before (key, t) = none ↔
      ∀ wrong?, declared key = some wrong? → key ∉ before.map Prod.fst ∧ wrong? t = none := by
  unfold offence?
  cases declared key with
  | none => simp
  | some wrong? =>
    by_cases hmem : key ∈ before.map Prod.fst <;> simp [hmem]

theorem count_concat_le_one {keys : List String} {key key' : String} :
    (keys ++ [key]).count key' ≤ 1 ↔ keys.count key' ≤ 1 ∧ (key' = key → key' ∉ keys) := by
  by_cases heq : key' = key
  · subst heq
    simp only [List.count_append, List.count_singleton_self, ← List.count_eq_zero, forall_const]
    omega
  · have hzero : [key].count key' = 0 := List.count_eq_zero.2 (by simpa using heq)
    simp only [List.count_append, hzero, heq, Nat.add_zero, false_imp_iff, and_true]

/-- Nothing is wrong with members and one more behind them if nothing is wrong with either. -/
theorem accepts_concat {members : List (String × Tree)} {m : String × Tree} :
    declared.Accepts (members ++ [m]) ↔
      declared.Accepts members ∧ declared.offence? members m = none := by
  obtain ⟨key, t⟩ := m
  simp only [offence?_eq_none_iff, Accepts, List.map_append, List.map_cons, List.map_nil,
    count_concat_le_one, List.mem_append, List.mem_singleton, Prod.mk.injEq]
  constructor
  · intro h
    refine ⟨fun key' wrong? hdeclared => ?_, fun wrong? hdeclared => ?_⟩
    · obtain ⟨⟨hcount, -⟩, hfits⟩ := h key' wrong? hdeclared
      exact ⟨hcount, fun t' ht' => hfits t' (.inl ht')⟩
    · obtain ⟨⟨-, habsent⟩, hfits⟩ := h key wrong? hdeclared
      exact ⟨habsent rfl, hfits t (.inr ⟨rfl, rfl⟩)⟩
  · rintro ⟨h, hm⟩ key' wrong? hdeclared
    obtain ⟨hcount, hfits⟩ := h key' wrong? hdeclared
    refine ⟨⟨hcount, ?_⟩, ?_⟩
    · rintro rfl
      exact (hm wrong? hdeclared).1
    · rintro t' (ht' | ⟨rfl, rfl⟩)
      · exact hfits t' ht'
      · exact (hm wrong? hdeclared).2

theorem Accepts.left {before after : List (String × Tree)}
    (h : declared.Accepts (before ++ after)) : declared.Accepts before := by
  intro key wrong? hdeclared
  obtain ⟨hcount, hfits⟩ := h key wrong? hdeclared
  rw [List.map_append, List.count_append] at hcount
  exact ⟨by omega, fun t ht => hfits t (List.mem_append_left _ ht)⟩

/-- No member offends among those that nothing is wrong with. -/
theorem Accepts.offence?_eq_none {before after : List (String × Tree)} {m : String × Tree}
    (h : declared.Accepts (before ++ m :: after)) : declared.offence? before m = none := by
  rw [← List.singleton_append, ← List.append_assoc] at h
  exact (accepts_concat.1 h.left).2

/-- The first offence stays the first whatever follows. -/
theorem IsFirstOffence.append {members : List (String × Tree)} {flaw : Flaw}
    (h : declared.IsFirstOffence members flaw) (rest : List (String × Tree)) :
    declared.IsFirstOffence (members ++ rest) flaw := by
  obtain ⟨before, m, after, rfl, hoffence, hclean⟩ := h
  exact ⟨before, m, after ++ rest, by simp, hoffence, hclean⟩

/-- An offence behind members that nothing is wrong with is the first. -/
theorem Accepts.isFirstOffence {members : List (String × Tree)} {m : String × Tree} {flaw : Flaw}
    (h : declared.Accepts members) (hm : declared.offence? members m = some flaw) :
    declared.IsFirstOffence (members ++ [m]) flaw :=
  ⟨members, m, [], rfl, hm, fun _ _ _ heq => (heq ▸ h).offence?_eq_none⟩

theorem IsFirstOffence.not_accepts {members : List (String × Tree)} {flaw : Flaw}
    (h : declared.IsFirstOffence members flaw) : ¬ declared.Accepts members := by
  obtain ⟨before, m, after, rfl, hoffence, -⟩ := h
  intro haccepts
  rw [haccepts.offence?_eq_none] at hoffence
  exact absurd hoffence (by simp)

end Declared

/-! ## Fields that are kept apart -/

/-- **A field that is read and kept by itself**: its decoder, what is wrong with a value that it
does not take, and where its content is kept. -/
structure Slot (P : Type) where
  name : String
  Content : Type
  decode : Decoder Content
  wrong? : Tree → Option Flaw
  get : P → Option Content
  set : P → Content → P

namespace Slot

variable {P : Type}

/-- What slots declare. -/
def declared (slots : List (Slot P)) : Declared :=
  fun key => (slots.find? fun s => s.name == key).map Slot.wrong?

/-- **A slot holds what members say**: nothing if none of them is its own, and else what its decoder
makes of the one that is. -/
structure Holds (s : Slot P) (part : P) (members : List (String × Tree)) : Prop where
  absent : s.name ∉ members.map Prod.fst → s.get part = none
  present : ∀ t, (s.name, t) ∈ members → ∃ a, s.decode t = .ok a ∧ s.get part = some a

variable {s : Slot P} {part part' : P} {members : List (String × Tree)} {m : String × Tree}

/-- A member under another name does not matter. -/
theorem Holds.concat (h : s.Holds part members) (hne : s.name ≠ m.1)
    (hget : s.get part' = s.get part) : s.Holds part' (members ++ [m]) where
  absent hname := by
    rw [hget]
    apply h.absent
    intro hmem
    exact hname (by simp [hmem])
  present t ht := by
    rw [hget]
    rcases List.mem_append.1 ht with ht | ht
    · exact h.present t ht
    · exact absurd (congrArg Prod.fst (List.mem_singleton.1 ht)) hne

/-- The slot's own member matters if it is the only one. -/
theorem holds_concat_self {t : Tree} {a : s.Content} (habsent : s.name ∉ members.map Prod.fst)
    (hdecode : s.decode t = .ok a) (hget : s.get part' = some a) :
    s.Holds part' (members ++ [(s.name, t)]) where
  absent hname := absurd (by simp) hname
  present t' ht' := by
    rcases List.mem_append.1 ht' with ht' | ht'
    · exact absurd (List.mem_map_of_mem ht') habsent
    · obtain ⟨-, rfl⟩ := Prod.mk.inj (List.mem_singleton.1 ht')
      exact ⟨a, hdecode, hget⟩

end Slot

namespace RecordShape

variable {P α : Type} {shape : RecordShape P α} {slots : List (Slot P)}

/-- **A record whose fields are kept apart**: each is a slot, filling one leaves the others as they
are, and none is full in the beginning. -/
structure IsSlotted (shape : RecordShape P α) (slots : List (Slot P)) : Prop where
  fields : shape.fields.map (fun f => (f.name, f.isGiven, f.read)) =
    slots.map fun s => (s.name, fun p => (s.get p).isSome, fun p t => (s.decode t).map (s.set p))
  names : (slots.map Slot.name).Nodup
  wrong : ∀ s ∈ slots, ∀ t : Tree, t.IsWellFormed → ∀ flaw,
    s.decode t = .error flaw ↔ s.wrong? t = some flaw
  blank : ∀ s ∈ slots, s.get shape.blank = none
  get_set : ∀ s ∈ slots, ∀ part a, s.get (s.set part a) = some a
  get_set_of_ne : ∀ s ∈ slots, ∀ s' ∈ slots, s.name ≠ s'.name → ∀ part a,
    s'.get (s.set part a) = s'.get part

namespace IsSlotted

theorem find?_fields (h : shape.IsSlotted slots) (key : String) :
    (shape.field? key).map (fun f => (f.name, f.isGiven, f.read)) =
      (slots.find? fun s => s.name == key).map fun s =>
        (s.name, fun p => (s.get p).isSome, fun p t => (s.decode t).map (s.set p)) := by
  have hfields := congrArg (List.find? fun f => f.1 == key) h.fields
  rw [List.find?_map, List.find?_map] at hfields
  exact hfields

/-- A slot is found by its name. -/
theorem find?_eq_some (h : shape.IsSlotted slots) {s : Slot P} (hs : s ∈ slots) :
    (slots.find? fun s' => s'.name == s.name) = some s := by
  cases hfind : slots.find? fun s' => s'.name == s.name with
  | none => exact absurd (List.find?_eq_none.1 hfind s hs) (by simp)
  | some s' =>
    have hname : s'.name = s.name := by simpa using List.find?_some hfind
    rw [List.inj_on_of_nodup_map h.names (List.mem_of_find?_eq_some hfind) hs hname]

/-- Nothing is wrong with a value that is decoded. -/
theorem wrong?_eq_none (h : shape.IsSlotted slots) {s : Slot P} (hs : s ∈ slots) {t : Tree}
    (ht : t.IsWellFormed) {a : s.Content} (hdecode : s.decode t = .ok a) : s.wrong? t = none := by
  apply Option.eq_none_iff_forall_ne_some.2
  intro flaw hflaw
  rw [(h.wrong s hs t ht flaw).2 hflaw] at hdecode
  cases hdecode

/-- A member under a declared name is read unless its slot is full. -/
theorem readMember_own (h : shape.IsSlotted slots) {s : Slot P} {key : String}
    (hs : slots.find? (fun s => s.name == key) = some s) (part : P) (t : Tree) :
    shape.readMember part key t =
      if (s.get part).isSome then complain (.duplicateField key)
      else (s.decode t).map (s.set part) := by
  have hfield := h.find?_fields key
  have hname : s.name = key := by simpa using List.find?_some hs
  rw [hs, Option.map_some, Option.map_eq_some_iff] at hfield
  obtain ⟨f, hf, heq⟩ := hfield
  simp only [Prod.mk.injEq] at heq
  obtain ⟨hfname, hgiven, hread⟩ := heq
  rw [readMember, hf]
  dsimp only
  rw [hgiven, hread, hfname, hname]

/-- A member under any other name is passed over. -/
theorem readMember_foreign (h : shape.IsSlotted slots) {key : String}
    (hs : slots.find? (fun s => s.name == key) = none) (part : P) {t : Tree}
    (ht : t.skipFault? = none) : shape.readMember part key t = .ok part := by
  have hfield := h.find?_fields key
  rw [hs, Option.map_none, Option.map_eq_none_iff] at hfield
  rw [readMember, hfield, ignore, ht]
  rfl

/-- **What one member does to a record** that holds what the members before it say: it offends and
is refused, or else the record holds what that member says, too. -/
theorem readMember (h : shape.IsSlotted slots) {part : P} {members : List (String × Tree)}
    {m : String × Tree} (hholds : ∀ s ∈ slots, s.Holds part members) (hm : m.2.IsWellFormed) :
    (∃ flaw, (Slot.declared slots).offence? members m = some flaw ∧
      shape.readMember part m.1 m.2 = .error flaw) ∨
    (Slot.declared slots).offence? members m = none ∧
      ∃ part', shape.readMember part m.1 m.2 = .ok part' ∧
        ∀ s ∈ slots, s.Holds part' (members ++ [m]) := by
  obtain ⟨key, t⟩ := m
  rw [Declared.offence?, Slot.declared]
  cases hs : slots.find? fun s => s.name == key with
  | none =>
    refine .inr ⟨rfl, part, h.readMember_foreign hs part hm.skipFault?_eq_none, fun s hmem => ?_⟩
    have hne : s.name ≠ key := by simpa using List.find?_eq_none.1 hs s hmem
    exact (hholds s hmem).concat hne rfl
  | some s =>
    have hmem : s ∈ slots := List.mem_of_find?_eq_some hs
    have hname : s.name = key := by simpa using List.find?_some hs
    subst hname
    simp only [Option.map_some, h.readMember_own hs]
    by_cases hgiven : s.name ∈ members.map Prod.fst
    · obtain ⟨⟨-, t'⟩, ht', rfl⟩ := List.mem_map.1 hgiven
      obtain ⟨a, -, hget⟩ := (hholds s hmem).present t' ht'
      rw [if_pos hgiven, hget]
      exact .inl ⟨_, rfl, rfl⟩
    · rw [if_neg hgiven, (hholds s hmem).absent hgiven]
      cases hdecode : s.decode t with
      | error flaw => exact .inl ⟨flaw, (h.wrong s hmem t hm flaw).1 hdecode, rfl⟩
      | ok a =>
        refine .inr ⟨h.wrong?_eq_none hmem hm hdecode, s.set part a, rfl, fun s' hmem' => ?_⟩
        by_cases hname : s'.name = s.name
        · obtain rfl : s' = s := List.inj_on_of_nodup_map h.names hmem' hmem hname
          exact Slot.holds_concat_self hgiven hdecode (h.get_set s' hmem' part a)
        · exact (hholds s' hmem').concat hname
            (h.get_set_of_ne s hmem s' hmem' (Ne.symm hname) part a)

end IsSlotted

/-- Members are taken one after the other. -/
theorem readMembers_append (shape : RecordShape P α) (part : P)
    (members rest : List (String × Tree)) :
    shape.readMembers part (keyed (members ++ rest)) none =
      (shape.readMembers part (keyed members) none >>= fun part =>
        shape.readMembers part (keyed rest) none) := by
  induction members generalizing part with
  | nil => rfl
  | cons m members ih =>
    change (shape.readMember part m.1 m.2 >>= fun part =>
      shape.readMembers part (keyed (members ++ rest)) none) = _
    simp only [ih]
    change _ = ((shape.readMember part m.1 m.2 >>= fun part =>
      shape.readMembers part (keyed members) none) >>= fun part =>
        shape.readMembers part (keyed rest) none)
    rw [bind_assoc]

theorem readMembers_cons (shape : RecordShape P α) (part : P) (m : String × Tree)
    (rest : List (String × Tree)) : shape.readMembers part (keyed (m :: rest)) none =
      (shape.readMember part m.1 m.2 >>= fun part => shape.readMembers part (keyed rest) none) :=
  rfl

/-- **What the members of an object do to a record**: the first that offends ends the reading, or
else the record holds in the end what they say. -/
theorem IsSlotted.readMembers (h : shape.IsSlotted slots) {members : List (String × Tree)}
    (hmembers : ∀ m ∈ members, m.2.IsWellFormed) :
    (∃ flaw, (Slot.declared slots).IsFirstOffence members flaw ∧
      shape.readMembers shape.blank (keyed members) none = .error flaw) ∨
    (Slot.declared slots).Accepts members ∧
      ∃ part, shape.readMembers shape.blank (keyed members) none = .ok part ∧
        ∀ s ∈ slots, s.Holds part members := by
  -- By induction on the members taken so far.
  induction members using List.reverseRecOn with
  | nil =>
    refine .inr ⟨.nil, shape.blank, rfl, fun s hs => ⟨fun _ => h.blank s hs, fun t ht => ?_⟩⟩
    exact absurd ht List.not_mem_nil
  | append_singleton members m ih =>
    obtain ⟨hmembers, hm⟩ := List.forall_mem_append.1 hmembers
    rw [readMembers_append]
    obtain ⟨flaw, hfirst, hread⟩ | ⟨haccepts, part, hread, hholds⟩ := ih hmembers
    · rw [hread]
      exact .inl ⟨flaw, hfirst.append [m], rfl⟩
    · have hstep := h.readMember hholds (hm m (List.mem_singleton.2 rfl))
      rw [hread]
      change (∃ flaw, _ ∧ shape.readMembers part (keyed [m]) none = .error flaw) ∨
        _ ∧ ∃ part', shape.readMembers part (keyed [m]) none = .ok part' ∧ _
      rw [readMembers_cons]
      obtain ⟨flaw, hoffence, hone⟩ | ⟨hnone, part', hone, hholds⟩ := hstep
      · rw [hone]
        exact .inl ⟨flaw, haccepts.isFirstOffence hoffence, rfl⟩
      · rw [hone]
        exact .inr ⟨Declared.accepts_concat.2 ⟨haccepts, hnone⟩, part', rfl, hholds⟩

end RecordShape

end FolderTasks.Json
