import FolderTasks.Json.Reader
import Mathlib.Algebra.Ring.Nat
import Mathlib.Data.List.TakeWhile
/-!
# Numerals are read part by part

A numeral is written as its whole digits, with a sign, a fraction and an exponent if it has them.
The reader takes the longest numeral that it finds, so it needs to know where one ends: what may
follow a value goes on with nothing that a numeral could go on with.

A whole number of 64 bits is written by its digits, behind a sign if it is negative.  That is a
numeral, and it stands for just that number.

## Main definitions

* `IsDelimited`: what may follow a value, a blank or a mark between values.
* `Numeral.IsWritten`: the ways of writing a numeral.
* `Numeral.content`: the number that a numeral stands for, if it is not beyond every number.
* `Number.IsWhole`: the numbers that are kept exactly.

## Main statements

* `Numeral.IsWritten.scan`: a numeral is read as its parts.
* `Numeral.IsWritten.scanNumber`: a numeral is read as the number that it stands for.
* `Numeral.isWritten_toDigits`: the digits of a number are a numeral, with a sign or without.
* `Number.IsWhole.exists_numeral`: a whole number is written as a numeral that stands for it.
-/

namespace FolderTasks.Json

/-- **What may follow a value**: nothing, a blank, or a mark that ends it. -/
def IsDelimited (rest : List Char) : Prop :=
  ∀ c ∈ rest.head?, isBlank c ∨ c = ',' ∨ c = ']' ∨ c = '\x7d'

namespace Numeral

/-! ## Written numerals -/

/-- Digits, one at least. -/
def AreDigits (ds : List Char) : Prop := ds ≠ [] ∧ ∀ c ∈ ds, isDigit c = true

/-- A sign or none. -/
def sign (isNegative : Bool) : List Char := if isNegative then ['-'] else []

/-- The ways of writing a fraction. -/
inductive WritesFraction : Option (List Char) → List Char → Prop where
  | none : WritesFraction none []
  | some {ds : List Char} (h : AreDigits ds) : WritesFraction (some ds) ('.' :: ds)

/-- The ways of writing an exponent. -/
inductive WritesExponent : Option (Bool × List Char) → List Char → Prop where
  | none : WritesExponent none []
  | unsigned {mark : Char} {ds : List Char} (hmark : mark = 'e' ∨ mark = 'E') (h : AreDigits ds) :
      WritesExponent (some (false, ds)) (mark :: ds)
  | plus {mark : Char} {ds : List Char} (hmark : mark = 'e' ∨ mark = 'E') (h : AreDigits ds) :
      WritesExponent (some (false, ds)) (mark :: '+' :: ds)
  | minus {mark : Char} {ds : List Char} (hmark : mark = 'e' ∨ mark = 'E') (h : AreDigits ds) :
      WritesExponent (some (true, ds)) (mark :: '-' :: ds)

/-- **The ways of writing a numeral.**  Its whole digits begin with a zero only if it stands
alone. -/
structure IsWritten (n : Numeral) (cs : List Char) : Prop where
  whole : AreDigits n.whole
  no_leading_zero : ∀ c ds, n.whole ≠ '0' :: c :: ds
  parts : ∃ fraction exponent, WritesFraction n.fraction fraction ∧
    WritesExponent n.exponent exponent ∧
      cs = sign n.isNegative ++ (n.whole ++ (fraction ++ exponent))

/-! ## Reading -/

/-- What follows a value goes on with nothing that a numeral could go on with. -/
theorem not_part_of_isDelimited {c : Char} {rest : List Char} (h : IsDelimited (c :: rest)) :
    isDigit c = false ∧ c ≠ '.' ∧ c ≠ 'e' ∧ c ≠ 'E' := by
  have hc := h c rfl
  simp only [isBlank, Bool.or_eq_true, beq_iff_eq] at hc
  rcases hc with ((((rfl | rfl) | rfl) | rfl) | rfl | rfl | rfl) <;> decide

theorem head?_not_digit {rest : List Char} (h : IsDelimited rest) :
    ∀ c ∈ rest.head?, isDigit c = false := by
  cases rest with
  | nil => exact fun c hc => absurd hc (by simp)
  | cons c rest => exact fun d hd => Option.some.inj hd ▸ (not_part_of_isDelimited h).1

/-- All digits are taken, up to the first character that is none. -/
theorem digits_append {ds rest : List Char} (h : AreDigits ds)
    (hrest : ∀ c ∈ rest.head?, isDigit c = false) : digits (ds ++ rest) = (ds, rest) := by
  have hnone : rest.takeWhile isDigit = [] ∧ rest.dropWhile isDigit = rest := by
    cases rest with
    | nil => exact ⟨rfl, rfl⟩
    | cons c rest => simp [hrest c rfl]
  rw [digits, List.takeWhile_append_of_pos h.2, List.dropWhile_append_of_pos h.2, hnone.1, hnone.2,
    List.append_nil]

theorem scanWhole_append {ds rest : List Char} (h : AreDigits ds)
    (hzero : ∀ c ds', ds ≠ '0' :: c :: ds') (hrest : ∀ c ∈ rest.head?, isDigit c = false) :
    scanWhole (ds ++ rest) = .ok (ds, rest) := by
  rw [scanWhole, digits_append h hrest]
  split
  · next heq => exact absurd (Prod.mk.inj heq).1 h.1
  · next heq => exact absurd (Prod.mk.inj heq).1 (hzero _ _)
  · next heq =>
    obtain ⟨rfl, rfl⟩ := Prod.mk.inj heq
    rfl

/-- Digits with what follows are not taken for the lack of digits. -/
theorem match_digits {β : Type} {ds rest : List Char} (h : AreDigits ds)
    (hrest : ∀ c ∈ rest.head?, isDigit c = false) (f : List Char → β)
    (g : List Char → List Char → β) :
    (match digits (ds ++ rest) with
      | ([], after) => f after
      | (ds, after) => g ds after) = g ds rest := by
  rw [digits_append h hrest]
  split
  · next heq => exact absurd (Prod.mk.inj heq).1 h.1
  · next heq =>
    obtain ⟨rfl, rfl⟩ := Prod.mk.inj heq
    rfl

namespace WritesFraction

variable {fraction : Option (List Char)} {cs : List Char}

theorem scanFraction? (h : WritesFraction fraction cs) {rest : List Char}
    (hrest : ∀ c ∈ rest.head?, isDigit c = false ∧ c ≠ '.') :
    Numeral.scanFraction? (cs ++ rest) = .ok (fraction, rest) := by
  cases h with
  | none =>
    unfold Numeral.scanFraction?
    split
    · next r heq => exact absurd rfl (hrest '.' (by rw [show rest = '.' :: r from heq]; rfl)).2
    · rfl
  | some h => exact match_digits h (fun c hc => (hrest c hc).1) _ _

/-- A fraction begins with no digit. -/
theorem head?_append (h : WritesFraction fraction cs) {rest : List Char}
    (hrest : ∀ c ∈ rest.head?, isDigit c = false) :
    ∀ c ∈ (cs ++ rest).head?, isDigit c = false := by
  cases h with
  | none => exact hrest
  | some h =>
    intro c hc
    rw [← Option.some.inj hc]
    decide

end WritesFraction

/-- Digits are no sign. -/
theorem scanExponent_unsigned {ds rest : List Char} (h : AreDigits ds)
    (hrest : ∀ c ∈ rest.head?, isDigit c = false) :
    scanExponent (ds ++ rest) = .ok ((false, ds), rest) := by
  obtain ⟨c, ds, rfl⟩ := List.exists_cons_of_ne_nil h.1
  have hc : c ≠ '+' ∧ c ≠ '-' := by
    constructor <;> rintro rfl <;> exact absurd (h.2 _ List.mem_cons_self) (by decide)
  have hmatch := match_digits h hrest
    (fun after => (.error (wantedDigit after) : Except Break ((Bool × List Char) × List Char)))
    (fun ds after => .ok ((false, ds), after))
  rw [scanExponent.eq_def]
  simp only [List.cons_append] at hmatch ⊢
  simp only [List.cons.injEq, hc.1, hc.2, false_and, imp_self, implies_true]
  exact hmatch

namespace WritesExponent

variable {exponent : Option (Bool × List Char)} {cs : List Char}

theorem scanExponent? (h : WritesExponent exponent cs) {rest : List Char}
    (hrest : IsDelimited rest) : Numeral.scanExponent? (cs ++ rest) = .ok (exponent, rest) := by
  have hend := head?_not_digit hrest
  have hmark {mark : Char} (h : mark = 'e' ∨ mark = 'E') {e : Bool × List Char} {cs : List Char}
      (hscan : scanExponent cs = .ok (e, rest)) :
      Numeral.scanExponent? (mark :: cs) = .ok (some e, rest) := by
    rcases h with rfl | rfl <;> simp only [Numeral.scanExponent?, hscan, Except.map]
  cases h with
  | none =>
    rw [List.nil_append]
    unfold Numeral.scanExponent?
    split
    · exact absurd rfl (not_part_of_isDelimited hrest).2.2.1
    · exact absurd rfl (not_part_of_isDelimited hrest).2.2.2
    · rfl
  | unsigned h hds => exact hmark h (scanExponent_unsigned hds hend)
  | plus h hds => exact hmark h (match_digits hds hend _ _)
  | minus h hds => exact hmark h (match_digits hds hend _ _)

/-- An exponent begins with no digit and no point. -/
theorem head?_append (h : WritesExponent exponent cs) {rest : List Char}
    (hrest : IsDelimited rest) : ∀ c ∈ (cs ++ rest).head?, isDigit c = false ∧ c ≠ '.' := by
  have hmark {mark : Char} (h : mark = 'e' ∨ mark = 'E') : isDigit mark = false ∧ mark ≠ '.' := by
    rcases h with rfl | rfl <;> decide
  intro c hc
  cases h with
  | none =>
    cases rest with
    | nil => exact absurd hc (by simp)
    | cons d rest =>
      have hd := not_part_of_isDelimited hrest
      rw [← Option.some.inj hc]
      exact ⟨hd.1, hd.2.1⟩
  | unsigned h => exact Option.some.inj hc ▸ hmark h
  | plus h => exact Option.some.inj hc ▸ hmark h
  | minus h => exact Option.some.inj hc ▸ hmark h

end WritesExponent

/-- Minus is no digit. -/
theorem AreDigits.ne_minus {c : Char} {ds : List Char} (h : AreDigits (c :: ds)) : c ≠ '-' := by
  rintro rfl
  exact absurd (h.2 _ List.mem_cons_self) (by decide)

namespace IsWritten

variable {n : Numeral} {cs : List Char}

/-- **A numeral is read as its parts**, each up to where the next begins. -/
theorem scan (h : n.IsWritten cs) {rest : List Char} (hrest : IsDelimited rest) :
    Numeral.scan (cs ++ rest) = .ok (n, rest) := by
  obtain ⟨fraction, exponent, hfraction, hexponent, rfl⟩ := h.parts
  obtain ⟨isNegative, whole, fraction?, exponent?⟩ := n
  have hafter := hexponent.head?_append hrest
  have hwhole : scanWhole (whole ++ (fraction ++ (exponent ++ rest))) =
      .ok (whole, fraction ++ (exponent ++ rest)) :=
    scanWhole_append h.whole h.no_leading_zero
      (hfraction.head?_append fun c hc => (hafter c hc).1)
  simp only [List.append_assoc]
  cases isNegative with
  | true =>
    simp only [Numeral.scan, sign, if_true, List.cons_append, List.nil_append, bind, Except.bind,
      pure, Except.pure, hwhole, hfraction.scanFraction? hafter, hexponent.scanExponent? hrest]
  | false =>
    obtain ⟨c, ds, rfl⟩ := List.exists_cons_of_ne_nil h.whole.1
    have hc := h.whole.ne_minus
    rw [List.cons_append] at hwhole
    simp only [Numeral.scan, sign, Bool.false_eq_true, if_false, List.nil_append, List.cons_append,
      bind, Except.bind, pure, Except.pure, List.cons.injEq, hc, false_and, imp_self,
      implies_true, hwhole, hfraction.scanFraction? hafter, hexponent.scanExponent? hrest]

/-- A numeral begins with a sign or a digit. -/
theorem exists_cons (h : n.IsWritten cs) :
    ∃ c rest, cs = c :: rest ∧ (c = '-' ∨ isDigit c = true) := by
  obtain ⟨fraction, exponent, -, -, rfl⟩ := h.parts
  obtain ⟨c, ds, hds⟩ := List.exists_cons_of_ne_nil h.whole.1
  cases hsign : n.isNegative with
  | true => exact ⟨'-', _, rfl, .inl rfl⟩
  | false =>
    exact ⟨c, ds ++ (fraction ++ exponent), by rw [hds]; rfl,
      .inr (h.whole.2 c (by rw [hds]; exact List.mem_cons_self))⟩

end IsWritten

/-- **What a reader has of a numeral**: the number, or a fault when it is beyond every number. -/
def content (n : Numeral) : Except Fault Number :=
  match n.number with
  | some number => .ok number
  | none => .error .malformed

/-- **A numeral is read as the number that it stands for.** -/
theorem IsWritten.scanNumber {n : Numeral} {cs : List Char} (h : n.IsWritten cs) {rest : List Char}
    (hrest : IsDelimited rest) : Json.scanNumber (cs ++ rest) = (.number n.content, rest) := by
  rw [Json.scanNumber, h.scan hrest, content]
  dsimp only
  cases n.number <;> rfl

end Numeral

/-! ## Whole numbers -/

/-- **A whole number of 64 bits**, with a sign or without, in the form in which it is kept. -/
def Number.IsWhole : Number → Prop
  | .natural n => n < 2 ^ 64
  | .negative n => 0 < n ∧ n ≤ 2 ^ 63
  | .real _ _ => False

namespace Numeral

/-- Only zero has digits that begin with a zero. -/
theorem toDigits_ne_zero_cons (n : Nat) (c : Char) (ds : List Char) :
    Nat.toDigits 10 n ≠ '0' :: c :: ds := by
  intro h
  induction n using Nat.strong_induction_on generalizing c ds with
  | _ n ih =>
    rw [Nat.toDigits_eq_if (by decide)] at h
    split at h
    · exact absurd h (by simp)
    · next hn =>
      -- Without its last digit the number would begin with a zero, too.
      obtain ⟨front, hfront⟩ : ∃ front, Nat.toDigits 10 (n / 10) = '0' :: front := by
        cases hcase : Nat.toDigits 10 (n / 10) with
        | nil => exact absurd hcase Nat.toDigits_ne_nil
        | cons d front =>
          rw [hcase, List.cons_append, List.cons.injEq] at h
          exact ⟨front, by rw [h.1]⟩
      cases front with
      | cons d front => exact ih (n / 10) (by omega) d front hfront
      | nil =>
        have hzero : n / 10 = 0 := by
          rw [← Nat.ofDigitChars_ten_toDigits (n := n / 10), hfront]
          decide
        omega

/-- **The digits of a number are a numeral**, with a sign or without. -/
theorem isWritten_toDigits (isNegative : Bool) (n : Nat) :
    IsWritten ⟨isNegative, Nat.toDigits 10 n, none, none⟩
      (sign isNegative ++ Nat.toDigits 10 n) where
  whole := ⟨Nat.toDigits_ne_nil, fun _ h => Nat.isDigit_of_mem_toDigits (by decide) (by decide) h⟩
  no_leading_zero := toDigits_ne_zero_cons n
  parts := ⟨[], [], .none, .none, by rw [List.append_nil, List.append_nil]⟩

theorem natural_toDigits (n : Nat) : natural (Nat.toDigits 10 n) = n := by
  have hdigits := Nat.ofDigitChars_ten_toDigits (n := n)
  rw [Nat.ofDigitChars_eq_foldl] at hdigits
  simpa only [natural, digitValue, Nat.mul_comm 10] using hdigits

end Numeral

theorem toText_natural (n : Nat) :
    (Number.natural n).toText.toList = Numeral.sign false ++ Nat.toDigits 10 n := by
  rw [Number.toText, Nat.toString_eq_ofList_toDigits, String.toList_ofList]
  rfl

theorem toText_negative (n : Nat) :
    (Number.negative n).toText.toList = Numeral.sign true ++ Nat.toDigits 10 n := by
  rw [Number.toText, Nat.toString_eq_ofList_toDigits]
  simp only [String.toList_append, String.toList_ofList]
  rfl

/-- **A whole number is written as a numeral that stands for it.** -/
theorem Number.IsWhole.exists_numeral {n : Number} (hn : n.IsWhole) :
    ∃ numeral : Numeral, numeral.IsWritten n.toText.toList ∧ numeral.content = .ok n := by
  cases n with
  | natural n =>
    have hvalue : Numeral.number ⟨false, Nat.toDigits 10 n, none, none⟩ = some (.natural n) := by
      have hlt : n < Nat.pow 2 64 := hn
      simp only [Numeral.number, Numeral.natural_toDigits, hlt, Option.isNone_none, Bool.and_self,
        decide_true, Bool.not_false, if_true]
    rw [toText_natural]
    exact ⟨_, Numeral.isWritten_toDigits false n, by rw [Numeral.content, hvalue]⟩
  | negative n =>
    have hvalue : Numeral.number ⟨true, Nat.toDigits 10 n, none, none⟩ = some (.negative n) := by
      have hle : n ≤ Nat.pow 2 63 := hn.2
      have hlt : n < Nat.pow 2 64 := Nat.lt_of_le_of_lt hle (by decide)
      simp only [Numeral.number, Numeral.natural_toDigits, hlt, hle, hn.1, Option.isNone_none,
        Bool.and_self, decide_true, Bool.not_true, Bool.false_eq_true, if_true, if_false]
    rw [toText_negative]
    exact ⟨_, Numeral.isWritten_toDigits true n, by rw [Numeral.content, hvalue]⟩
  | real isNegative x => exact hn.elim

end FolderTasks.Json
