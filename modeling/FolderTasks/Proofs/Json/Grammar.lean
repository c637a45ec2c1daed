import FolderTasks.Json.Decoder
import FolderTasks.Json.Value
import FolderTasks.Proofs.Json.Numerals
import FolderTasks.Proofs.Json.Unquoting
/-!
# Texts of JSON

A value can be written in many ways: with any blanks between its parts, its texts with any escapes
and its numbers with any fraction and exponent.  The reader makes one and the same tree of all of
them, with no fault in it but for an escape that names half a surrogate pair and a number that is
beyond every number.  These are faults only for one who looks at them.

## Main definitions

* `Tree.IsWritten`, `Tree.ItemsAreWritten`, `Tree.MembersAreWritten`: the ways of writing a value,
  and of what stands behind an opening bracket or behind a part.
* `Tree.IsTextOf`: the texts that hold just one value.
* `Tree.IsWellFormed`: the values that can be written.

## Main statements

* `Tree.IsWritten.scanValue`: a value is read as its tree, however it is written.
* `Tree.IsTextOf.ofString`: so is a whole text.
* `Tree.IsWritten.skipFault?_eq_none`: a written value can be passed over.
-/

namespace FolderTasks.Json

/-! ## Written values -/

/-- Nothing but blanks. -/
def AreBlanks (blanks : List Char) : Prop := ∀ c ∈ blanks, isBlank c = true

theorem areBlanks_nil : AreBlanks [] := fun _ h => absurd h List.not_mem_nil

/-- What stands before a part: blanks before the first, and a comma between blanks before any
other. -/
inductive IsSeparator : Bool → List Char → Prop where
  | first {blanks : List Char} (hb : AreBlanks blanks) : IsSeparator true blanks
  | next {blanks blanks' : List Char} (hb : AreBlanks blanks) (hb' : AreBlanks blanks') :
      IsSeparator false (blanks ++ ',' :: blanks')

namespace Tree

mutual
/-- **The ways of writing a value.**  None begins with a blank. -/
inductive IsWritten : Tree → List Char → Prop where
  | null : IsWritten .null ['n', 'u', 'l', 'l']
  | bool (b : Bool) : IsWritten (.bool b) (Value.boolWord b)
  | number {n : Numeral} {cs : List Char} (h : n.IsWritten cs) : IsWritten (.number n.content) cs
  | text {ps : List Piece} (h : ∀ p ∈ ps, p.IsSound) :
      IsWritten (.text (Piece.content ps)) ('"' :: (Piece.spelling ps ++ ['"']))
  | array {items : List Tree} {body : List Char} (h : ItemsAreWritten true items body) :
      IsWritten (.array items none) ('[' :: body)
  | object {members : List (Except Fault String × Tree)} {body : List Char}
      (h : MembersAreWritten true members body) : IsWritten (.object members none) ('\x7b' :: body)

/-- The ways of writing the rest of an array, from its first item on or from behind an item. -/
inductive ItemsAreWritten : Bool → List Tree → List Char → Prop where
  | closed {isFirst : Bool} {blanks : List Char} (hb : AreBlanks blanks) :
      ItemsAreWritten isFirst [] (blanks ++ [']'])
  | item {isFirst : Bool} {t : Tree} {items : List Tree} {separator cs body : List Char}
      (hs : IsSeparator isFirst separator) (h : IsWritten t cs)
      (hrest : ItemsAreWritten false items body) :
      ItemsAreWritten isFirst (t :: items) (separator ++ (cs ++ body))

/-- The ways of writing the rest of an object, from its first member on or from behind a member. -/
inductive MembersAreWritten : Bool → List (Except Fault String × Tree) → List Char → Prop where
  | closed {isFirst : Bool} {blanks : List Char} (hb : AreBlanks blanks) :
      MembersAreWritten isFirst [] (blanks ++ ['\x7d'])
  | member {isFirst : Bool} {key : List Piece} {t : Tree}
      {members : List (Except Fault String × Tree)} {separator blanks blanks' cs body : List Char}
      (hs : IsSeparator isFirst separator) (hkey : ∀ p ∈ key, p.IsSound) (hb : AreBlanks blanks)
      (hb' : AreBlanks blanks') (h : IsWritten t cs)
      (hrest : MembersAreWritten false members body) :
      MembersAreWritten isFirst ((Piece.content key, t) :: members)
        (separator ++ ('"' :: (Piece.spelling key ++
          '"' :: (blanks ++ ':' :: (blanks' ++ (cs ++ body))))))
end

/-- **The texts that hold just one value**, between blanks. -/
def IsTextOf (t : Tree) (s : String) : Prop :=
  ∃ blanks cs blanks', AreBlanks blanks ∧ t.IsWritten cs ∧ AreBlanks blanks' ∧
    s.toList = blanks ++ (cs ++ blanks')

/-- A text without blanks around its value. -/
theorem IsWritten.isTextOf {t : Tree} {s : String} (h : t.IsWritten s.toList) : t.IsTextOf s :=
  ⟨[], s.toList, [], areBlanks_nil, h, areBlanks_nil, by simp⟩

/-! ## Where parts begin and end -/

/-- A written value begins with a character that says of what kind the value is. -/
theorem IsWritten.exists_cons {t : Tree} {cs : List Char} (h : t.IsWritten cs) :
    ∃ c rest, cs = c :: rest ∧ isBlank c = false ∧ c ≠ ']' := by
  cases h with
  | null => exact ⟨_, _, rfl, by decide, by decide⟩
  | bool b => cases b <;> exact ⟨_, _, rfl, by decide, by decide⟩
  | number hn =>
    obtain ⟨c, cs, heq, hc⟩ := hn.exists_cons
    refine ⟨c, cs, heq, ?_⟩
    rcases hc with rfl | hc
    · decide
    · constructor
      · simp only [isBlank, Bool.or_eq_false_iff, beq_eq_false_iff_ne]
        refine ⟨⟨⟨?_, ?_⟩, ?_⟩, ?_⟩ <;> rintro rfl <;> exact absurd hc (by decide)
      · rintro rfl
        exact absurd hc (by decide)
  | text => exact ⟨_, _, rfl, by decide, by decide⟩
  | array => exact ⟨_, _, rfl, by decide, by decide⟩
  | object => exact ⟨_, _, rfl, by decide, by decide⟩

end Tree

theorem skipBlanks_append {blanks : List Char} (hb : AreBlanks blanks) (cs : List Char) :
    skipBlanks (blanks ++ cs) = skipBlanks cs :=
  List.dropWhile_append_of_pos hb

theorem skipBlanks_cons {c : Char} (hc : isBlank c = false) (cs : List Char) :
    skipBlanks (c :: cs) = c :: cs := by
  rw [skipBlanks, List.dropWhile_cons, hc]
  rfl

theorem isDelimited_append {blanks : List Char} (hb : AreBlanks blanks) {rest : List Char}
    (hrest : IsDelimited rest) : IsDelimited (blanks ++ rest) := by
  intro c hc
  cases blanks with
  | nil => exact hrest c hc
  | cons b blanks => exact .inl (hb c (Option.some.inj hc ▸ List.mem_cons_self))

theorem isDelimited_cons {c : Char} (hc : c = ',' ∨ c = ']' ∨ c = '\x7d') (rest : List Char) :
    IsDelimited (c :: rest) :=
  fun _ hd => .inr (Option.some.inj hd ▸ hc)

/-- What stands between two parts ends the first of them. -/
theorem IsSeparator.isDelimited {separator : List Char} (h : IsSeparator false separator)
    (rest : List Char) : IsDelimited (separator ++ rest) := by
  cases h with
  | next hb =>
    rw [List.append_assoc]
    exact isDelimited_append hb (isDelimited_cons (.inl rfl) _)

namespace Tree

/-- What stands behind an item ends it. -/
theorem ItemsAreWritten.isDelimited {items : List Tree} {body : List Char}
    (h : ItemsAreWritten false items body) (rest : List Char) : IsDelimited (body ++ rest) := by
  cases h with
  | closed hb =>
    rw [List.append_assoc]
    exact isDelimited_append hb (isDelimited_cons (.inr (.inl rfl)) _)
  | item hs =>
    rw [List.append_assoc]
    exact hs.isDelimited _

/-- What stands behind a member ends it. -/
theorem MembersAreWritten.isDelimited {members : List (Except Fault String × Tree)}
    {body : List Char} (h : MembersAreWritten false members body) (rest : List Char) :
    IsDelimited (body ++ rest) := by
  cases h with
  | closed hb =>
    rw [List.append_assoc]
    exact isDelimited_append hb (isDelimited_cons (.inr (.inr rfl)) _)
  | member hs =>
    rw [List.append_assoc]
    exact hs.isDelimited _

theorem IsWritten.length_pos {t : Tree} {cs : List Char} (h : t.IsWritten cs) : 0 < cs.length := by
  obtain ⟨c, rest, rfl, -⟩ := h.exists_cons
  simp

theorem ItemsAreWritten.length_pos {isFirst : Bool} {items : List Tree} {body : List Char}
    (h : ItemsAreWritten isFirst items body) : 0 < body.length := by
  cases h with
  | closed => simp
  | item hs h =>
    have hpos := h.length_pos
    simp only [List.length_append]
    omega

theorem MembersAreWritten.length_pos {isFirst : Bool} {members : List (Except Fault String × Tree)}
    {body : List Char} (h : MembersAreWritten isFirst members body) : 0 < body.length := by
  cases h with
  | closed => simp
  | member =>
    simp only [List.length_append, List.length_cons]
    omega

end Tree

/-! ## Reading -/

theorem scanValue_blanks {blanks : List Char} (hb : AreBlanks blanks) (fuel : Nat)
    (cs : List Char) : scanValue fuel (blanks ++ cs) = scanValue fuel cs := by
  cases fuel with
  | zero => rfl
  | succ fuel => rw [scanValue, scanValue, skipBlanks_append hb]

/-- An item is looked for behind what separates it from the last. -/
theorem scanItems_separator {isFirst : Bool} {separator : List Char}
    (hs : IsSeparator isFirst separator) {c : Char} (hblank : isBlank c = false)
    (hbracket : c ≠ ']') (fuel : Nat) (cs : List Char) :
    scanItems (fuel + 1) isFirst (separator ++ c :: cs) = scanItem fuel (c :: cs) := by
  cases hs with
  | first hb =>
    rw [scanItems, skipBlanks_append hb, skipBlanks_cons hblank]
    dsimp only
    rw [if_neg hbracket, if_pos rfl]
  | next hb hb' =>
    rw [List.append_assoc, List.cons_append, scanItems, skipBlanks_append hb,
      skipBlanks_cons (by decide)]
    dsimp only
    rw [if_neg (by decide), if_neg (by decide), if_pos rfl, skipBlanks_append hb',
      skipBlanks_cons hblank]
    split
    · next heq => exact absurd (List.cons.inj heq).1 hbracket
    · rfl

/-- A member is looked for behind what separates it from the last. -/
theorem scanMembers_separator {isFirst : Bool} {separator : List Char}
    (hs : IsSeparator isFirst separator) (fuel : Nat) (cs : List Char) :
    scanMembers (fuel + 1) isFirst (separator ++ '"' :: cs) = scanMember fuel ('"' :: cs) := by
  cases hs with
  | first hb =>
    rw [scanMembers, skipBlanks_append hb, skipBlanks_cons (by decide)]
    rfl
  | next hb hb' =>
    rw [List.append_assoc, List.cons_append, scanMembers, skipBlanks_append hb,
      skipBlanks_cons (by decide)]
    dsimp only
    rw [if_neg (by decide), if_neg (by decide), if_pos rfl, skipBlanks_append hb',
      skipBlanks_cons (by decide)]

/-- **What fuel is enough for**: everything that is short enough is read as what is written. -/
structure Reads (fuel : Nat) : Prop where
  value : ∀ {t : Tree} {cs rest : List Char}, t.IsWritten cs → IsDelimited rest →
    3 * cs.length ≤ fuel → scanValue fuel (cs ++ rest) = (t, rest)
  items : ∀ {isFirst : Bool} {items : List Tree} {body rest : List Char},
    Tree.ItemsAreWritten isFirst items body → 3 * body.length ≤ fuel →
      scanItems fuel isFirst (body ++ rest) = (items, none, rest)
  members : ∀ {isFirst : Bool} {members : List (Except Fault String × Tree)}
    {body rest : List Char}, Tree.MembersAreWritten isFirst members body → 3 * body.length ≤ fuel →
      scanMembers fuel isFirst (body ++ rest) = (members, none, rest)

namespace Reads

variable {fuel : Nat}

/-- A value is read whose parts are read. -/
theorem nextValue (h : Reads fuel) {t : Tree} {cs rest : List Char} (ht : t.IsWritten cs)
    (hrest : IsDelimited rest) (hfuel : 3 * cs.length ≤ fuel + 1) :
    scanValue (fuel + 1) (cs ++ rest) = (t, rest) := by
  obtain ⟨c, tail, hcons, hblank, -⟩ := ht.exists_cons
  have hskip : skipBlanks (cs ++ rest) = cs ++ rest := by
    rw [hcons, List.cons_append, skipBlanks_cons hblank]
  rw [scanValue, hskip]
  cases ht with
  | null => rfl
  | bool b => cases b <;> rfl
  | @text ps hps =>
    have hquoted := scanQuoted_spelling hps rest
    simp only [List.cons_append, List.append_assoc, List.nil_append, scanText, hquoted]
    rfl
  | number hn =>
    have hread := hn.scanNumber hrest
    obtain ⟨c, tail, rfl, hc⟩ := hn.exists_cons
    have hletters : c ≠ 'n' ∧ c ≠ 't' ∧ c ≠ 'f' ∧ c ≠ '"' ∧ c ≠ '[' ∧ c ≠ '\x7b' := by
      rcases hc with rfl | hc
      · decide
      · refine ⟨?_, ?_, ?_, ?_, ?_, ?_⟩ <;> rintro rfl <;> exact absurd hc (by decide)
    have hnumeral : (c == '-' || Numeral.isDigit c) = true := by
      rcases hc with rfl | hc
      · rfl
      · rw [hc, Bool.or_true]
    simp only [List.cons_append] at hread ⊢
    simp only [hletters, if_false]
    rw [if_pos (by simpa using hnumeral), hread]
  | array hitems =>
    have hread : scanItems fuel true (_ ++ rest) = _ :=
      h.items hitems (by rw [List.length_cons] at hfuel; omega)
    simp only [List.cons_append]
    simp only [Char.reduceEq, if_false, if_true, hread]
  | object hmembers =>
    have hread : scanMembers fuel true (_ ++ rest) = _ :=
      h.members hmembers (by rw [List.length_cons] at hfuel; omega)
    simp only [List.cons_append]
    simp only [Char.reduceEq, if_false, if_true, hread]

/-- An item is read, and what stands behind it. -/
theorem nextItem (h : Reads fuel) {t : Tree} {items : List Tree} {cs body : List Char}
    (rest : List Char) (ht : t.IsWritten cs) (hitems : Tree.ItemsAreWritten false items body)
    (hfuel : 3 * (cs.length + body.length) ≤ fuel + 3) :
    scanItem (fuel + 1) (cs ++ (body ++ rest)) = (t :: items, none, rest) := by
  have hpos := hitems.length_pos
  have hpos' := ht.length_pos
  rw [scanItem, h.value ht (hitems.isDelimited rest) (by omega)]
  dsimp only
  rw [h.items hitems (by omega)]

/-- A member is read, and what stands behind it. -/
theorem nextMember (h : Reads fuel) {key : List Piece} {t : Tree}
    {members : List (Except Fault String × Tree)} {blanks blanks' cs body : List Char}
    (rest : List Char) (hkey : ∀ p ∈ key, p.IsSound) (hb : AreBlanks blanks)
    (hb' : AreBlanks blanks') (ht : t.IsWritten cs)
    (hmembers : Tree.MembersAreWritten false members body)
    (hfuel : 3 * (cs.length + body.length) ≤ fuel + 3) :
    scanMember (fuel + 1) ('"' :: (Piece.spelling key ++
        '"' :: (blanks ++ ':' :: (blanks' ++ (cs ++ (body ++ rest)))))) =
      ((Piece.content key, t) :: members, none, rest) := by
  have hpos := hmembers.length_pos
  have hpos' := ht.length_pos
  rw [scanMember, if_pos rfl, scanQuoted_spelling hkey]
  dsimp only
  rw [skipBlanks_append hb, skipBlanks_cons (by decide)]
  dsimp only
  rw [if_pos rfl, scanValue_blanks hb', h.value ht (hmembers.isDelimited rest) (by omega)]
  dsimp only
  rw [h.members hmembers (by omega)]

/-- The rest of an array is read whose items are read. -/
theorem nextItems (h : Reads fuel) {isFirst : Bool} {items : List Tree} {body rest : List Char}
    (hitems : Tree.ItemsAreWritten isFirst items body) (hfuel : 3 * body.length ≤ fuel + 2) :
    scanItems (fuel + 2) isFirst (body ++ rest) = (items, none, rest) := by
  cases hitems with
  | closed hb =>
    rw [List.append_assoc, scanItems, skipBlanks_append hb, List.singleton_append,
      skipBlanks_cons (by decide)]
    rfl
  | item hs ht hitems =>
    have hread := h.nextItem rest ht hitems (by
      simp only [List.length_append] at hfuel
      omega)
    obtain ⟨c, tail, rfl, hblank, hbracket⟩ := ht.exists_cons
    rw [List.append_assoc, List.append_assoc, List.cons_append,
      scanItems_separator hs hblank hbracket]
    exact hread

/-- The rest of an object is read whose members are read. -/
theorem nextMembers (h : Reads fuel) {isFirst : Bool} {members : List (Except Fault String × Tree)}
    {body rest : List Char} (hmembers : Tree.MembersAreWritten isFirst members body)
    (hfuel : 3 * body.length ≤ fuel + 2) :
    scanMembers (fuel + 2) isFirst (body ++ rest) = (members, none, rest) := by
  cases hmembers with
  | closed hb =>
    rw [List.append_assoc, scanMembers, skipBlanks_append hb, List.singleton_append,
      skipBlanks_cons (by decide)]
    rfl
  | member hs hkey hb hb' ht hmembers =>
    have hread := h.nextMember rest hkey hb hb' ht hmembers (by
      simp only [List.length_append, List.length_cons] at hfuel
      omega)
    simp only [List.append_assoc, List.cons_append]
    rw [scanMembers_separator hs]
    exact hread

end Reads

theorem reads (fuel : Nat) : Reads fuel := by
  induction fuel using Nat.twoStepInduction with
  | more fuel ih ih' => exact ⟨ih'.nextValue, ih.nextItems, ih.nextMembers⟩
  | zero | one =>
    -- Everything that is written takes a character at least.
    refine ⟨fun ht _ hfuel => ?_, fun hitems hfuel => ?_, fun hmembers hfuel => ?_⟩
    · have := ht.length_pos
      omega
    · have := hitems.length_pos
      omega
    · have := hmembers.length_pos
      omega

namespace Tree

/-- **A value is read as its tree, however it is written**, with any fuel that is enough for it. -/
theorem IsWritten.scanValue {t : Tree} {cs rest : List Char} (h : t.IsWritten cs)
    (hrest : IsDelimited rest) {fuel : Nat} (hfuel : 3 * cs.length ≤ fuel) :
    Json.scanValue fuel (cs ++ rest) = (t, rest) :=
  (Json.reads fuel).value h hrest hfuel

/-- **A text that holds one value makes up a document with its tree.** -/
theorem IsTextOf.ofString {t : Tree} {s : String} (h : t.IsTextOf s) :
    Document.ofString s = ⟨t, false⟩ := by
  obtain ⟨blanks, cs, blanks', hb, ht, hb', hs⟩ := h
  have hend : IsDelimited [] := fun c hc => absurd hc (by simp)
  have hrest : IsDelimited blanks' := by simpa using isDelimited_append hb' hend
  have hskip : skipBlanks blanks' = [] := List.dropWhile_eq_nil_iff.2 hb'
  have hlength := congrArg List.length hs
  simp only [List.length_append] at hlength
  have hread : Json.scanValue (3 * s.toList.length + 3) (blanks ++ (cs ++ blanks')) =
      (t, blanks') := by
    rw [scanValue_blanks hb, ht.scanValue hrest (by omega)]
  rw [← hs] at hread
  rw [Document.ofString]
  dsimp only
  rw [hread]
  dsimp only
  rw [hskip]
  rfl

/-- **What is decoded of a text is what is decoded of the value that it holds.** -/
theorem IsTextOf.decodeString {α : Type} (decode : Decoder α) {t : Tree} {s : String}
    (h : t.IsTextOf s) : Json.decodeString decode s = decode t := by
  rw [Json.decodeString, h.ofString, decodeDocument]
  cases decode t <;> rfl

/-! ## Passing over -/

mutual
/-- **A written value can be passed over.** -/
theorem IsWritten.skipFault?_eq_none : {t : Tree} → {cs : List Char} → t.IsWritten cs →
    t.skipFault? = none
  | .null, _, _ => by rw [skipFault?]
  | .bool _, _, _ => by rw [skipFault?]
  | .number _, _, _ => by rw [skipFault?]
  | .text _, _, _ => by rw [skipFault?]
  | .array _ _, _, .array h => by rw [skipFault?, h.skipItems?_eq_none]
  | .object _ _, _, .object h => by rw [skipFault?, h.skipMembers?_eq_none]

theorem ItemsAreWritten.skipItems?_eq_none : {isFirst : Bool} → {items : List Tree} →
    {body : List Char} → ItemsAreWritten isFirst items body → skipItems? items none = none
  | _, [], _, _ => by rw [skipItems?]; rfl
  | _, _ :: _, _, .item _ h hrest => by
    rw [skipItems?, h.skipFault?_eq_none, hrest.skipItems?_eq_none]
    rfl

theorem MembersAreWritten.skipMembers?_eq_none : {isFirst : Bool} →
    {members : List (Except Fault String × Tree)} → {body : List Char} →
      MembersAreWritten isFirst members body → skipMembers? members none = none
  | _, [], _, _ => by rw [skipMembers?]; rfl
  | _, _ :: _, _, .member _ _ _ _ h hrest => by
    rw [skipMembers?, h.skipFault?_eq_none, hrest.skipMembers?_eq_none]
    rfl
end

/-! ## Well-formed values -/

/-- **A value of well-formed JSON**: there is a way of writing it. -/
def IsWellFormed (t : Tree) : Prop := ∃ cs, t.IsWritten cs

theorem IsTextOf.isWellFormed {t : Tree} {s : String} (h : t.IsTextOf s) : t.IsWellFormed := by
  obtain ⟨-, cs, -, -, hcs, -⟩ := h
  exact ⟨cs, hcs⟩

theorem IsWellFormed.skipFault?_eq_none {t : Tree} (h : t.IsWellFormed) : t.skipFault? = none := by
  obtain ⟨cs, hcs⟩ := h
  exact hcs.skipFault?_eq_none

theorem ItemsAreWritten.isWellFormed {isFirst : Bool} {items : List Tree} {body : List Char}
    (h : ItemsAreWritten isFirst items body) : ∀ t ∈ items, t.IsWellFormed := by
  induction items generalizing isFirst body with
  | nil => exact List.forall_mem_nil _
  | cons t items ih =>
    cases h with
    | item hs ht hrest => exact List.forall_mem_cons.2 ⟨⟨_, ht⟩, ih hrest⟩

theorem MembersAreWritten.isWellFormed {isFirst : Bool}
    {members : List (Except Fault String × Tree)} {body : List Char}
    (h : MembersAreWritten isFirst members body) : ∀ m ∈ members, m.2.IsWellFormed := by
  induction members generalizing isFirst body with
  | nil => exact List.forall_mem_nil _
  | cons m members ih =>
    cases h with
    | member hs hkey hb hb' ht hrest => exact List.forall_mem_cons.2 ⟨⟨_, ht⟩, ih hrest⟩

/-- Nothing breaks off in a well-formed array. -/
theorem IsWellFormed.of_array {items : List Tree} {cut : Option Break}
    (h : (array items cut).IsWellFormed) : cut = none ∧ ∀ t ∈ items, t.IsWellFormed := by
  obtain ⟨cs, hcs⟩ := h
  cases hcs with
  | array hitems => exact ⟨rfl, hitems.isWellFormed⟩

/-- Nothing breaks off in a well-formed object. -/
theorem IsWellFormed.of_object {members : List (Except Fault String × Tree)} {cut : Option Break}
    (h : (object members cut).IsWellFormed) : cut = none ∧ ∀ m ∈ members, m.2.IsWellFormed := by
  obtain ⟨cs, hcs⟩ := h
  cases hcs with
  | object hmembers => exact ⟨rfl, hmembers.isWellFormed⟩

end Tree

end FolderTasks.Json
