import FolderTasks.Proofs.Json.Grammar
import FolderTasks.Proofs.Json.Numerals
/-!
# Written values read back

The library writes a value in one of two forms, on a single line or with a member or item a line.
Both are ways of writing the tree of the value, so both read back, whatever the value holds, as long
as its numbers are whole ones of 64 bits.

## Main definitions

* `Value.tree`: the tree that stands for a value.
* `Value.HasWholeNumbers`: the values that the library writes without loss.

## Main statements

* `compact_isWritten`, `indented_isWritten`: both forms are ways of writing the tree of the value.
* `isTextOf_compact`, `isTextOf_indented`: both are texts that hold that tree.
-/

namespace FolderTasks.Json

/-! ## Trees of values -/

namespace Value

mutual
/-- **The tree of a value**: what a reader makes of it when it is written down. -/
def tree : Value → Tree
  | .null => .null
  | .bool b => .bool b
  | .number n => .number (.ok n)
  | .text s => .text (.ok s)
  | .array items => .array (itemTrees items) none
  | .object members => .object (memberTrees members) none

/-- The trees of items. -/
def itemTrees : List Value → List Tree
  | [] => []
  | v :: rest => v.tree :: itemTrees rest

/-- The trees of members, with their keys. -/
def memberTrees : List (String × Value) → List (Except Fault String × Tree)
  | [] => []
  | (key, v) :: rest => (.ok key, v.tree) :: memberTrees rest
end

mutual
/-- All numbers in a value are whole. -/
def HasWholeNumbers : Value → Prop
  | .null | .bool _ | .text _ => True
  | .number n => n.IsWhole
  | .array items => HaveWholeNumbers items
  | .object members => MembersHaveWholeNumbers members

/-- All numbers in items are whole. -/
def HaveWholeNumbers : List Value → Prop
  | [] => True
  | v :: rest => v.HasWholeNumbers ∧ HaveWholeNumbers rest

/-- All numbers in members are whole. -/
def MembersHaveWholeNumbers : List (String × Value) → Prop
  | [] => True
  | (_, v) :: rest => v.HasWholeNumbers ∧ MembersHaveWholeNumbers rest
end

theorem haveWholeNumbers_iff {items : List Value} :
    HaveWholeNumbers items ↔ ∀ v ∈ items, v.HasWholeNumbers := by
  induction items with
  | nil => simp [HaveWholeNumbers]
  | cons v items ih => simp [HaveWholeNumbers, ih]

theorem membersHaveWholeNumbers_iff {members : List (String × Value)} :
    MembersHaveWholeNumbers members ↔ ∀ m ∈ members, m.2.HasWholeNumbers := by
  induction members with
  | nil => simp [MembersHaveWholeNumbers]
  | cons m members ih => simp [MembersHaveWholeNumbers, ih]

end Value

/-! ## Scalars -/

/-- The quoted form of a text is one of the ways of writing it. -/
theorem exists_pieces_quoted (s : String) : ∃ ps, (∀ p ∈ ps, p.IsSound) ∧ Piece.content ps = .ok s ∧
    quoted s = '"' :: (Piece.spelling ps ++ ['"']) := by
  obtain ⟨ps, hps, hspelling, hmeaning⟩ := exists_pieces_escape s.toList
  refine ⟨ps, hps, ?_, by rw [quoted, hspelling]⟩
  rw [Piece.content, hmeaning]
  exact congrArg Except.ok String.ofList_toList

namespace Value

theorem text_isWritten (s : String) : (Value.text s).tree.IsWritten (quoted s) := by
  obtain ⟨ps, hps, hcontent, hquoted⟩ := exists_pieces_quoted s
  rw [tree, ← hcontent, hquoted]
  exact .text hps

theorem number_isWritten {n : Number} (h : n.IsWhole) :
    (Value.number n).tree.IsWritten n.toText.toList := by
  obtain ⟨numeral, hwritten, hcontent⟩ := h.exists_numeral
  rw [tree, ← hcontent]
  exact .number hwritten

/-- A member under the quoted form of its key. -/
theorem member_areWritten {isFirst : Bool} (key : String) {v : Value}
    {members : List (String × Value)} {separator blanks cs body : List Char}
    (hs : IsSeparator isFirst separator) (hb : AreBlanks blanks) (h : v.tree.IsWritten cs)
    (hrest : Tree.MembersAreWritten false (memberTrees members) body) :
    Tree.MembersAreWritten isFirst (memberTrees ((key, v) :: members))
      (separator ++ (quoted key ++ ':' :: (blanks ++ (cs ++ body)))) := by
  obtain ⟨ps, hps, hcontent, hquoted⟩ := exists_pieces_quoted key
  have hmember := Tree.MembersAreWritten.member hs hps areBlanks_nil hb h hrest
  rw [hcontent] at hmember
  rw [hquoted, memberTrees]
  simpa only [List.cons_append, List.append_assoc, List.nil_append] using hmember

/-! ## The written forms -/

theorem areBlanks_blank : AreBlanks [' '] := by
  intro c hc
  rw [List.mem_singleton.1 hc]
  rfl

theorem areBlanks_lineBreak (level : Nat) : AreBlanks (lineBreak level) := by
  intro c hc
  rcases List.mem_cons.1 hc with rfl | hc
  · rfl
  · rw [List.eq_of_mem_replicate hc]
    rfl

/-- A comma alone, before any part but the first. -/
theorem isSeparator_comma (isFirst : Bool) :
    IsSeparator isFirst (if isFirst then [] else [',']) := by
  cases isFirst with
  | true => exact .first areBlanks_nil
  | false => exact .next areBlanks_nil areBlanks_nil

/-- A comma at the end of a line. -/
theorem isSeparator_lineBreak (level : Nat) : IsSeparator false (',' :: lineBreak level) :=
  .next areBlanks_nil (areBlanks_lineBreak level)

mutual
/-- **The compact form is a way of writing a value.** -/
theorem compact_isWritten : (v : Value) → v.HasWholeNumbers → v.tree.IsWritten v.compactChars
  | .null, _ => .null
  | .bool b, _ => .bool b
  | .number _, h => number_isWritten h
  | .text s, _ => text_isWritten s
  | .array items, h => .array (compactItems_areWritten true items h)
  | .object members, h => .object (compactMembers_areWritten true members h)

theorem compactItems_areWritten : (isFirst : Bool) → (items : List Value) → HaveWholeNumbers items →
    Tree.ItemsAreWritten isFirst (itemTrees items) (compactItems isFirst items ++ [']'])
  | _, [], _ => .closed areBlanks_nil
  | isFirst, v :: items, h => by
    simp only [compactItems, List.append_assoc]
    exact .item (isSeparator_comma isFirst) (compact_isWritten v h.1)
      (compactItems_areWritten false items h.2)

theorem compactMembers_areWritten : (isFirst : Bool) → (members : List (String × Value)) →
    MembersHaveWholeNumbers members →
      Tree.MembersAreWritten isFirst (memberTrees members)
        (compactMembers isFirst members ++ ['\x7d'])
  | _, [], _ => .closed areBlanks_nil
  | isFirst, (key, v) :: members, h => by
    simp only [compactMembers, List.append_assoc, List.singleton_append]
    have hmember := member_areWritten key (isSeparator_comma isFirst) areBlanks_nil
      (compact_isWritten v h.1) (compactMembers_areWritten false members h.2)
    exact hmember
end

mutual
/-- **The indented form is a way of writing a value.** -/
theorem indented_isWritten : (level : Nat) → (v : Value) → v.HasWholeNumbers →
    v.tree.IsWritten (v.indentedChars level)
  | _, .null, _ => .null
  | _, .bool b, _ => .bool b
  | _, .number _, h => number_isWritten h
  | _, .text s, _ => text_isWritten s
  | _, .array [], _ => .array (.closed areBlanks_nil)
  | level, .array (v :: items), h => by
    simp only [indentedChars, List.append_assoc]
    exact .array (.item (.first (areBlanks_lineBreak _)) (indented_isWritten (level + 1) v h.1)
      (indentedItems_areWritten (level + 1) (areBlanks_lineBreak level) items h.2))
  | _, .object [], _ => .object (.closed areBlanks_nil)
  | level, .object ((key, v) :: members), h => by
    simp only [indentedChars, List.append_assoc, List.cons_append, List.nil_append]
    exact .object (member_areWritten key (.first (areBlanks_lineBreak _)) areBlanks_blank
      (indented_isWritten (level + 1) v h.1)
      (indentedMembers_areWritten (level + 1) (areBlanks_lineBreak level) members h.2))

theorem indentedItems_areWritten : (level : Nat) → {blanks : List Char} → AreBlanks blanks →
    (items : List Value) → HaveWholeNumbers items →
      Tree.ItemsAreWritten false (itemTrees items) (indentedItems level items ++ (blanks ++ [']']))
  | _, _, hb, [], _ => .closed hb
  | level, _, hb, v :: items, h => by
    have hitem := Tree.ItemsAreWritten.item (isSeparator_lineBreak level)
      (indented_isWritten level v h.1) (indentedItems_areWritten level hb items h.2)
    simpa only [indentedItems, itemTrees, List.append_assoc, List.cons_append] using hitem

theorem indentedMembers_areWritten : (level : Nat) → {blanks : List Char} → AreBlanks blanks →
    (members : List (String × Value)) → MembersHaveWholeNumbers members →
      Tree.MembersAreWritten false (memberTrees members)
        (indentedMembers level members ++ (blanks ++ ['\x7d']))
  | _, _, hb, [], _ => .closed hb
  | level, _, hb, (key, v) :: members, h => by
    have hmember := member_areWritten key (isSeparator_lineBreak level) areBlanks_blank
      (indented_isWritten level v h.1) (indentedMembers_areWritten level hb members h.2)
    simpa only [indentedMembers, List.append_assoc, List.cons_append, List.nil_append] using hmember
end

/-- The compact form of a value is a text that holds it. -/
theorem isTextOf_compact {v : Value} (h : v.HasWholeNumbers) : v.tree.IsTextOf v.compact :=
  Tree.IsWritten.isTextOf <| by
    rw [compact, String.toList_ofList]
    exact compact_isWritten v h

/-- The indented form of a value is a text that holds it. -/
theorem isTextOf_indented {v : Value} (h : v.HasWholeNumbers) : v.tree.IsTextOf v.indented :=
  Tree.IsWritten.isTextOf <| by
    rw [indented, String.toList_ofList]
    exact indented_isWritten 0 v h

end Value

end FolderTasks.Json
