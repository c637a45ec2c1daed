import FolderTasks.Json.Quoted
/-!
# Quoted text is read as what it means

Between its quotes a text is written piece by piece: a character by itself, an escape by a letter,
or one by four hexadecimal digits.  The reader takes the pieces one after the other and stops right
behind the closing quote.  It makes a text of them unless an escape names half a surrogate pair.
The quoted form of a text is written in such pieces, so it is read as that text again.

## Main definitions

* `Piece`: a piece of a quoted text as it is written.
* `Piece.meaning`: the text that pieces stand for, if they stand for one.

## Main statements

* `scanQuoted_spelling`: pieces are read as what they mean.
* `exists_pieces_escape`: the quoted form of a text is written in pieces that mean it.
-/

namespace FolderTasks.Json

/-- **A piece of a quoted text as it is written.** -/
inductive Piece where
  /-- A character that stands for itself. -/
  | plain (c : Char)
  /-- An escape by a letter, and the character that it names. -/
  | letter (written named : Char)
  /-- An escape by four hexadecimal digits, and the unit of sixteen bits that it names. -/
  | unit (a b c d : Char) (n : Nat)

namespace Piece

/-- The letters of escapes, with the characters that they name. -/
def letters : List (Char × Char) :=
  [('"', '"'), ('\\', '\\'), ('/', '/'), ('b', '\x08'), ('f', '\x0c'), ('n', '\n'), ('r', '\r'),
    ('t', '\t')]

/-- **A piece that JSON allows.** -/
def IsSound : Piece → Prop
  | .plain c => c ≠ '"' ∧ c ≠ '\\' ∧ 0x20 ≤ c.toNat
  | .letter written named => (written, named) ∈ letters
  | .unit a b c d n => ∃ i j k l, hexValue? a = some i ∧ hexValue? b = some j ∧
      hexValue? c = some k ∧ hexValue? d = some l ∧ n = ((i * 16 + j) * 16 + k) * 16 + l

/-- How a piece is written. -/
def chars : Piece → List Char
  | .plain c => [c]
  | .letter written _ => ['\\', written]
  | .unit a b c d _ => ['\\', 'u', a, b, c, d]

/-- How pieces are written. -/
def spelling (ps : List Piece) : List Char := ps.flatMap chars

@[simp] theorem spelling_nil : spelling [] = [] := rfl

@[simp] theorem spelling_cons (p : Piece) (ps : List Piece) :
    spelling (p :: ps) = p.chars ++ spelling ps := rfl

/-- **The text that pieces stand for.**  They stand for none when an escape names half a surrogate
pair without the other half behind it. -/
def meaning : List Piece → Option (List Char)
  | [] => some []
  | .plain c :: rest => (meaning rest).map (c :: ·)
  | .letter _ named :: rest => (meaning rest).map (named :: ·)
  | .unit _ _ _ _ n :: rest =>
    if isTrailing n then none
    else if isLeading n then
      match rest with
      | .unit _ _ _ _ m :: rest =>
        if isTrailing m then
          (meaning rest).map (Char.ofNat ((n - 0xD800) * 0x400 + (m - 0xDC00) + 0x10000) :: ·)
        else none
      | _ => none
    else (meaning rest).map (Char.ofNat n :: ·)

theorem length_chars_pos (p : Piece) : 0 < p.chars.length := by
  cases p <;> simp [chars]

end Piece

/-! ## Escapes -/

/-- Four hexadecimal digits are enough for the reader to look at them. -/
theorem hasFourBytes_cons (a b c d : Char) (rest : List Char) :
    hasFourBytes (a :: b :: c :: d :: rest) = true := by
  have ha := a.utf8Size_pos
  have hb := b.utf8Size_pos
  have hc := c.utf8Size_pos
  have hd := d.utf8Size_pos
  simp only [hasFourBytes, decide_eq_true_eq]
  omega

theorem hexUnit_cons {a b c d : Char} {n : Nat} (h : (Piece.unit a b c d n).IsSound)
    (rest : List Char) : hexUnit (a :: b :: c :: d :: rest) = .ok (n, rest) := by
  obtain ⟨i, j, k, l, ha, hb, hc, hd, rfl⟩ := h
  simp only [hexUnit, hasFourBytes_cons, if_true, ha, hb, hc, hd]

theorem escapedChar_letter {written named : Char} (h : (written, named) ∈ Piece.letters)
    (rest : List Char) : escapedChar (written :: rest) = .ok (named, rest) := by
  simp only [Piece.letters, List.mem_cons, Prod.mk.injEq, List.not_mem_nil, or_false] at h
  rcases h with ⟨rfl, rfl⟩ | ⟨rfl, rfl⟩ | ⟨rfl, rfl⟩ | ⟨rfl, rfl⟩ | ⟨rfl, rfl⟩ | ⟨rfl, rfl⟩ |
    ⟨rfl, rfl⟩ | ⟨rfl, rfl⟩ <;> rfl

theorem skipEscape_letter {written named : Char} (h : (written, named) ∈ Piece.letters)
    (rest : List Char) : skipEscape (written :: rest) = .ok rest := by
  simp only [Piece.letters, List.mem_cons, Prod.mk.injEq, List.not_mem_nil, or_false] at h
  rcases h with ⟨rfl, rfl⟩ | ⟨rfl, rfl⟩ | ⟨rfl, rfl⟩ | ⟨rfl, rfl⟩ | ⟨rfl, rfl⟩ | ⟨rfl, rfl⟩ |
    ⟨rfl, rfl⟩ | ⟨rfl, rfl⟩ <;> rfl

/-- No escape by a letter looks like one by hexadecimal digits. -/
theorem Piece.ne_of_mem_letters {written named : Char} (h : (written, named) ∈ Piece.letters) :
    written ≠ 'u' := by
  rintro rfl
  simp [Piece.letters] at h

/-- A first half of a surrogate pair wants an escape by hexadecimal digits behind it. -/
theorem trailingHalf_of_not_unit (n : Nat) {ps : List Piece} (hps : ∀ p ∈ ps, p.IsSound)
    (hunit : ∀ a b c d m rest, ps ≠ .unit a b c d m :: rest) (rest : List Char) :
    trailingHalf n (Piece.spelling ps ++ '"' :: rest) = .error .malformed := by
  cases ps with
  | nil => rfl
  | cons p ps =>
    have hp := hps p List.mem_cons_self
    cases p with
    | plain c =>
      unfold trailingHalf
      simp only [Piece.spelling_cons, Piece.chars, List.cons_append, List.nil_append]
      split
      · next heq => exact absurd heq (by simp)
      · next heq => exact absurd (List.cons.inj heq).1 hp.2.1
      · next heq => exact absurd (List.cons.inj heq).1 hp.2.1
      · rfl
    | letter written named =>
      have hne := Piece.ne_of_mem_letters hp
      unfold trailingHalf
      simp only [Piece.spelling_cons, Piece.chars, List.cons_append, List.nil_append]
      split
      · next heq => exact absurd heq (by simp)
      · next heq => exact absurd heq (by simp)
      · next heq => exact absurd (List.cons.inj (List.cons.inj heq).2).1 hne
      · rfl
    | unit a b c d m => exact absurd rfl (hunit a b c d m ps)

theorem trailingHalf_unit (n : Nat) {a b c d : Char} {m : Nat}
    (h : (Piece.unit a b c d m).IsSound) (rest : List Char) :
    trailingHalf n ('\\' :: 'u' :: a :: b :: c :: d :: rest) =
      if isTrailing m then .ok (Char.ofNat ((n - 0xD800) * 0x400 + (m - 0xDC00) + 0x10000), rest)
      else .error .malformed := by
  rw [trailingHalf, hexUnit_cons h]
  rfl

/-! ## Reading -/

/-- What a reader of pieces makes of them, after the characters that are `done`. -/
def unquoted (done rest : List Char) : Option (List Char) → Except Fault (List Char × List Char)
  | some s => .ok (done.reverse ++ s, rest)
  | none => .error .malformed

theorem unquoted_cons (done rest : List Char) (c : Char) (s : Option (List Char)) :
    unquoted (c :: done) rest s = unquoted done rest (s.map (c :: ·)) := by
  cases s with
  | none => rfl
  | some s => simp [unquoted]

theorem unquoteGo_escape {cs after done : List Char} {c : Char} (fuel : Nat)
    (h : escapedChar cs = .ok (c, after)) :
    unquoteGo (fuel + 1) done ('\\' :: cs) = unquoteGo fuel (c :: done) after := by
  rw [unquoteGo, if_neg (by decide), if_pos rfl, h]

theorem unquoteGo_fault {cs done : List Char} {f : Fault} (fuel : Nat)
    (h : escapedChar cs = .error f) : unquoteGo (fuel + 1) done ('\\' :: cs) = .error f := by
  rw [unquoteGo, if_neg (by decide), if_pos rfl, h]

/-- The unit that an escape names is half a surrogate pair or a character. -/
theorem hexChar_unit {a b c d : Char} {n : Nat} (h : (Piece.unit a b c d n).IsSound)
    (rest : List Char) : hexChar (a :: b :: c :: d :: rest) =
      if isTrailing n then .error .malformed
      else if isLeading n then trailingHalf n rest
      else .ok (Char.ofNat n, rest) := by
  rw [hexChar, hexUnit_cons h]
  rfl

/-- **Pieces are read one after the other.**  A surrogate pair is two pieces and one step. -/
theorem unquoteGo_spelling (ps : List Piece) (hps : ∀ p ∈ ps, p.IsSound) (done rest : List Char)
    (spare : Nat) : unquoteGo (spare + ps.length + 1) done (Piece.spelling ps ++ '"' :: rest) =
      unquoted done rest (Piece.meaning ps) := by
  -- The cases are those of the meaning: what stands first, and for a half what stands behind it.
  fun_induction Piece.meaning ps generalizing done spare with
  | case1 => simp [unquoteGo, unquoted]
  | case2 c ps ih =>
    obtain ⟨hc, hps⟩ := List.forall_mem_cons.1 hps
    have hcontrol : ¬ c.toNat < 0x20 := Nat.not_lt.2 hc.2.2
    rw [← unquoted_cons, ← ih hps]
    change unquoteGo (spare + ps.length + 1 + 1) done (c :: (Piece.spelling ps ++ '"' :: rest)) = _
    rw [unquoteGo, if_neg hc.1, if_neg hc.2.1, if_neg hcontrol]
  | case3 written named ps ih =>
    obtain ⟨hp, hps⟩ := List.forall_mem_cons.1 hps
    rw [← unquoted_cons, ← ih hps]
    exact unquoteGo_escape _ (escapedChar_letter hp _)
  | case4 a b c d n ps htrailing =>
    have hchar := hexChar_unit (hps _ List.mem_cons_self) (Piece.spelling ps ++ '"' :: rest)
    rw [if_pos htrailing] at hchar
    exact unquoteGo_fault _ hchar
  | case5 a b c d n htrailing hleading a' b' c' d' m ps htrailing' ih =>
    obtain ⟨hp, hps⟩ := List.forall_mem_cons.1 hps
    obtain ⟨hq, hps⟩ := List.forall_mem_cons.1 hps
    have hchar := hexChar_unit hp
      ('\\' :: 'u' :: a' :: b' :: c' :: d' :: (Piece.spelling ps ++ '"' :: rest))
    rw [if_neg htrailing, if_pos hleading, trailingHalf_unit n hq, if_pos htrailing'] at hchar
    rw [← unquoted_cons, ← ih hps _ (spare + 1), Nat.add_right_comm spare 1]
    exact unquoteGo_escape _ hchar
  | case6 a b c d n htrailing hleading a' b' c' d' m ps htrailing' =>
    obtain ⟨hp, hps⟩ := List.forall_mem_cons.1 hps
    have hchar := hexChar_unit hp
      ('\\' :: 'u' :: a' :: b' :: c' :: d' :: (Piece.spelling ps ++ '"' :: rest))
    rw [if_neg htrailing, if_pos hleading, trailingHalf_unit n (hps _ List.mem_cons_self),
      if_neg htrailing'] at hchar
    exact unquoteGo_fault _ hchar
  | case7 a b c d n ps htrailing hleading hunit =>
    obtain ⟨hp, hps⟩ := List.forall_mem_cons.1 hps
    have hchar := hexChar_unit hp (Piece.spelling ps ++ '"' :: rest)
    rw [if_neg htrailing, if_pos hleading, trailingHalf_of_not_unit n hps hunit] at hchar
    exact unquoteGo_fault _ hchar
  | case8 a b c d n ps htrailing hleading ih =>
    obtain ⟨hp, hps⟩ := List.forall_mem_cons.1 hps
    have hchar := hexChar_unit hp (Piece.spelling ps ++ '"' :: rest)
    rw [if_neg htrailing, if_neg hleading] at hchar
    rw [← unquoted_cons, ← ih hps]
    exact unquoteGo_escape _ hchar

theorem skipQuotedGo_spelling (ps : List Piece) (hps : ∀ p ∈ ps, p.IsSound) (rest : List Char)
    (spare : Nat) :
    skipQuotedGo (spare + ps.length + 1) (Piece.spelling ps ++ '"' :: rest) = .ok rest := by
  induction ps with
  | nil => simp [skipQuotedGo]
  | cons p ps ih =>
    obtain ⟨hp, hrest⟩ := List.forall_mem_cons.1 hps
    have hescape {cs : List Char} (h : skipEscape cs = .ok (Piece.spelling ps ++ '"' :: rest)) :
        skipQuotedGo (spare + ps.length + 1 + 1) ('\\' :: cs) = .ok rest := by
      rw [skipQuotedGo, if_neg (by decide), if_pos rfl, h]
      exact ih hrest
    cases p with
    | plain c =>
      have hcontrol : ¬ c.toNat < 0x20 := Nat.not_lt.2 hp.2.2
      rw [← ih hrest]
      change skipQuotedGo (spare + ps.length + 1 + 1) (c :: (Piece.spelling ps ++ '"' :: rest)) = _
      rw [skipQuotedGo, if_neg hp.1, if_neg hp.2.1, if_neg hcontrol]
    | letter written named => exact hescape (skipEscape_letter hp _)
    | unit a b c d n =>
      have hunit : skipEscape ('u' :: a :: b :: c :: d :: (Piece.spelling ps ++ '"' :: rest)) =
          .ok (Piece.spelling ps ++ '"' :: rest) := by
        rw [skipEscape, hexUnit_cons hp]
        rfl
      exact hescape hunit

namespace Piece

/-- **What a reader has of a quoted text**: the text that its pieces stand for, or a fault. -/
def content (ps : List Piece) : Except Fault String :=
  match meaning ps with
  | some s => .ok (String.ofList s)
  | none => .error .malformed

theorem length_le_spelling (ps : List Piece) : ps.length ≤ (spelling ps).length := by
  induction ps with
  | nil => exact Nat.le_refl _
  | cons p ps ih =>
    have hp := p.length_chars_pos
    rw [spelling_cons, List.length_append, List.length_cons]
    omega

end Piece

/-- **A quoted text is read as what its pieces mean**, and the reader stops behind the quote. -/
theorem scanQuoted_spelling {ps : List Piece} (hps : ∀ p ∈ ps, p.IsSound) (rest : List Char) :
    scanQuoted (Piece.spelling ps ++ '"' :: rest) = .ok (Piece.content ps, rest) := by
  obtain ⟨spare, hspare⟩ : ∃ spare,
      (Piece.spelling ps ++ '"' :: rest).length = spare + ps.length := by
    have hle := Piece.length_le_spelling ps
    exact ⟨_, (Nat.sub_add_cancel (by rw [List.length_append]; omega)).symm⟩
  rw [scanQuoted, unquote, skipQuoted, hspare, unquoteGo_spelling ps hps,
    skipQuotedGo_spelling ps hps, Piece.content]
  cases Piece.meaning ps <;> rfl

/-! ## The written form -/

theorem hexValue?_hexDigit {n : Nat} (h : n < 16) : hexValue? (hexDigit n) = some n := by
  revert n
  decide

/-- The escape of a control character is a piece that means it. -/
theorem Piece.isSound_control {c : Char} (h : c.toNat < 0x20) :
    (unit '0' '0' (hexDigit (c.toNat / 16)) (hexDigit (c.toNat % 16)) c.toNat).IsSound :=
  ⟨0, 0, c.toNat / 16, c.toNat % 16, by decide, by decide, hexValue?_hexDigit (by omega),
    hexValue?_hexDigit (by omega), by omega⟩

/-- **A piece that is written where a character is written, and means it.** -/
def Piece.IsFor (c : Char) (p : Piece) : Prop :=
  p.IsSound ∧ p.chars = escapeChar c ∧ ∀ ps, meaning (p :: ps) = (meaning ps).map (c :: ·)

theorem Piece.isFor_letter {written c : Char} (h : (written, c) ∈ letters)
    (heq : escapeChar c = ['\\', written]) : IsFor c (.letter written c) :=
  ⟨h, heq.symm, fun _ => by rw [meaning]⟩

/-- Every character is written by one piece. -/
theorem Piece.exists_isFor (c : Char) : ∃ p, IsFor c p := by
  -- The escapes by a letter are looked up; then come the control characters, then all others.
  by_cases hletter : ∃ written, (written, c) ∈ letters ∧ escapeChar c = ['\\', written]
  · obtain ⟨written, hmem, heq⟩ := hletter
    exact ⟨_, isFor_letter hmem heq⟩
  · have hnone : c ≠ '"' ∧ c ≠ '\\' ∧ c ≠ '\n' ∧ c ≠ '\r' ∧ c ≠ '\t' ∧ c ≠ '\x08' ∧ c ≠ '\x0c' := by
      refine ⟨?_, ?_, ?_, ?_, ?_, ?_, ?_⟩ <;> rintro rfl <;> exact hletter ⟨_, by decide, rfl⟩
    by_cases hcontrol : c.toNat < 0x20
    · refine ⟨_, isSound_control hcontrol, ?_, fun ps => ?_⟩
      · simp only [escapeChar, hnone, hcontrol, if_false, if_true, chars]
      · have hnot : isTrailing c.toNat = false ∧ isLeading c.toNat = false := by
          simp only [isTrailing, isLeading, Bool.and_eq_false_iff, decide_eq_false_iff_not]
          omega
        rw [meaning.eq_def]
        simp only [hnot, Bool.false_eq_true, if_false, Char.ofNat_toNat]
    · refine ⟨.plain c, ⟨hnone.1, hnone.2.1, Nat.not_lt.1 hcontrol⟩, ?_, fun ps => by rw [meaning]⟩
      simp only [escapeChar, hnone, hcontrol, if_false, chars]

/-- **The written form of a text is made of pieces that mean it.** -/
theorem exists_pieces_escape (s : List Char) :
    ∃ ps, (∀ p ∈ ps, p.IsSound) ∧ Piece.spelling ps = escape s ∧ Piece.meaning ps = some s := by
  induction s with
  | nil => exact ⟨[], List.forall_mem_nil _, rfl, by rw [Piece.meaning]⟩
  | cons c s ih =>
    obtain ⟨ps, hps, hspelling, hmeaning⟩ := ih
    obtain ⟨p, hp, hchars, hcons⟩ := Piece.exists_isFor c
    refine ⟨p :: ps, List.forall_mem_cons.2 ⟨hp, hps⟩, ?_, ?_⟩
    · rw [Piece.spelling_cons, hchars, hspelling, escape]
    · rw [hcons, hmeaning]
      rfl

end FolderTasks.Json
