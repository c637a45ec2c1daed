import FolderTasks.Machine.Store
/-!
# What is read of an output

Whoever reads along what a program writes gets it in pieces, as they are written.  How it is cut into
pieces makes no difference to the lines that are read, and a line that is complete is read for good.
A text that a program was given and writes as it is comes out as the same text.

## Main statements

* `outer?_inner`: a text comes out of a machine as it went in.
* `Listener.hear_append`: pieces may be put together.
* `Listener.lines_hear_prefix`: complete lines are read for good.
-/

namespace FolderTasks.Machine

/-! ## Texts -/

theorem toList_loop (bs : ByteArray) (i : Nat) (before : List UInt8) :
    ByteArray.toList.loop bs i before = before.reverse ++ bs.data.toList.drop i := by
  induction i, before using ByteArray.toList.loop.induct bs with
  | case1 i before hlt ih =>
    have hi : i < bs.data.toList.length := hlt
    have hbyte : bs.get! i = bs.data.toList[i] := getElem!_pos bs.data i hlt
    rw [ByteArray.toList.loop, if_pos hlt, ih, List.drop_eq_getElem_cons hi, hbyte]
    simp
  | case2 i before hge =>
    rw [ByteArray.toList.loop, if_neg hge, List.drop_eq_nil_of_le (Nat.le_of_not_lt hge),
      List.append_nil]

/-- A byte is kept by the character of its number. -/
theorem bytesOf_textOf (bs : Bytes) : bytesOf (textOf bs) = bs := by
  have hbyte (b : UInt8) : UInt8.ofNat (Char.ofNat b.toNat).toNat = b := by
    have hvalid : b.toNat.isValidChar := .inl (Nat.lt_trans b.toNat_lt (by decide))
    rw [Char.ofNat, dif_pos hvalid]
    exact UInt8.ofNat_toNat
  rw [bytesOf, textOf, String.toList_ofList, List.map_map]
  exact (List.map_congr_left fun b _ => hbyte b).trans (List.map_id bs)

/-- **A text comes out of a machine as it went in.** -/
theorem outer?_inner (s : String) : outer? (inner s) = some s := by
  rw [outer?, inner, bytesOf_textOf, decodeText?, ByteArray.toList, toList_loop]
  exact dif_pos s.isValidUTF8

/-! ## Lines -/

theorem linesGo_append (current before rest : Bytes) :
    linesGo current (before ++ lineFeed :: rest) =
      linesGo current (before ++ [lineFeed]) ++ lines rest := by
  induction before generalizing current with
  | nil => simp [linesGo, lines]
  | cons b before ih =>
    by_cases h : b = lineFeed
    · simp [linesGo, h, ih]
    · simp [linesGo, h, ih]

/-- A line that is complete does not depend on what follows. -/
theorem lines_append (before rest : Bytes) :
    lines (before ++ lineFeed :: rest) = lines (before ++ [lineFeed]) ++ lines rest :=
  linesGo_append [] before rest

/-- What can be read of some lines can be read of more. -/
theorem readable_prefix (before rest : List Bytes) :
    readable before <+: readable (before ++ rest) := by
  induction before with
  | nil => exact List.nil_prefix
  | cons line before ih =>
    rw [List.cons_append, readable, readable]
    cases decodeText? line with
    | none => exact List.prefix_rfl
    | some s => exact List.cons_prefix_cons.2 ⟨rfl, ih⟩

/-! ## Pieces -/

namespace Listener

/-- A line goes on in the next piece. -/
theorem follow_append (current a b : Bytes) :
    follow current (a ++ b) =
      if (follow current a).2 then ([], true) else follow (follow current a).1 b := by
  induction a generalizing current with
  | nil => rfl
  | cons x a ih =>
    rw [List.cons_append, follow, follow]
    split
    · split
      · rfl
      · exact ih []
    · exact ih (x :: current)

/-- When nobody listens any more, no line is under way. -/
theorem follow_of_over {current a : Bytes} (h : (follow current a).2 = true) :
    (follow current a).1 = [] := by
  induction a generalizing current with
  | nil => exact absurd h (by simp [follow])
  | cons x a ih =>
    rw [follow] at h ⊢
    split at h
    · split at h
      · next hfeed hover => rw [if_pos hfeed, if_pos hover]
      · next hfeed hover => rw [if_pos hfeed, if_neg hover, ih h]
    · next hfeed => rw [if_neg hfeed, ih h]

theorem lines_hear (l : Listener) (now : Nat) (bs : Bytes) :
    (l.hear now bs).lines = readableLines (l.heard.reverse.flatten ++ bs) := by
  rw [hear]
  cases l.leftAt <;> simp [lines]

/-- **Pieces may be put together**: the lines that are read are the same, and so is the line that is
under way and the moment after which nobody listens. -/
theorem hear_append (l : Listener) (now : Nat) (a b : Bytes) :
    ((l.hear now a).hear now b).lines = (l.hear now (a ++ b)).lines ∧
      ((l.hear now a).hear now b).current = (l.hear now (a ++ b)).current ∧
      ((l.hear now a).hear now b).leftAt = (l.hear now (a ++ b)).leftAt := by
  constructor
  · have hheard : (l.hear now a).heard = a :: l.heard := by
      rw [hear]
      cases l.leftAt <;> rfl
    rw [lines_hear, lines_hear, hheard]
    simp
  · cases hl : l.leftAt with
    | some t => simp [hear, hl]
    | none =>
      simp only [hear, hl, follow_append]
      cases hover : (follow l.current a).2 with
      | true => simp [follow_of_over hover]
      | false => simp

/-- **Complete lines are read for good**: once the last one ends with a line feed, whatever is heard
later only adds to them. -/
theorem lines_hear_prefix {l : Listener} {before : Bytes} (now : Nat) (bs : Bytes)
    (h : l.heard.reverse.flatten = before ++ [lineFeed]) : l.lines <+: (l.hear now bs).lines := by
  have hlines : Machine.lines (before ++ [lineFeed] ++ bs) =
      Machine.lines (before ++ [lineFeed]) ++ Machine.lines bs := by
    rw [List.append_assoc]
    exact lines_append before bs
  rw [lines_hear, Listener.lines, h, readableLines, readableLines, hlines]
  exact readable_prefix _ _

end Listener

end FolderTasks.Machine
