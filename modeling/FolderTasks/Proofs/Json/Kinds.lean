import FolderTasks.Proofs.Failing
import FolderTasks.Proofs.Json.Grammar
import Mathlib.Data.Set.List
/-!
# Types of JSON values

A field is declared with a type of JSON.  A well-formed value either is of that type, and then the
decoder of the type makes of it what it denotes, or it is not, and then the decoder complains of the
first thing in it that is of a wrong type.

## Main definitions

* `Kind`: the types that fields are declared with, with `Kind.Fits` and `Kind.flaw?`.
* `DenotesText`, `DenotesTexts`, `DenotesFlag`, `DenotesOption`: what values stand for.
* `Judges`: a decoder that refuses what is not of a type and makes of all else what it denotes.

## Main statements

* `Kind.flaw?_eq_none_iff`: nothing is wrong with a value of the right type.
* `judges_text`, `judges_flag`, `judges_texts`, `judges_settings`, `Judges.option`: the plain
  decoders judge the types of fields.
-/

namespace FolderTasks.Json

/-- **The types that fields are declared with.** -/
inductive Kind where
  /-- A text, named as `expected` in complaints. -/
  | text (expected : String)
  /-- A Boolean. -/
  | flag
  /-- An array of texts. -/
  | texts
  /-- An object of texts. -/
  | settings
  /-- A text or null. -/
  | optionalText (expected : String)

/-- The value of a text. -/
def textTree (s : String) : Tree := .text (.ok s)

/-- A member that sets a name to a text. -/
def settingTree (s : String × String) : Except Fault String × Tree := (.ok s.1, textTree s.2)

/-- What is complained of when a value is of a wrong type.  A scalar is read first, so a fault in
it comes first. -/
def mismatch (expected : String) (t : Tree) : Flaw :=
  match t.found with
  | .ok found => .data (.wrongType found expected)
  | .error f => .fault f

/-- What is wrong with a value that should be a text. -/
def textFlaw? (expected : String) : Tree → Option Flaw
  | .text (.ok _) => none
  | t => some (mismatch expected t)

/-- What is wrong with a member that should set a name to a text. -/
def settingFlaw? : Except Fault String × Tree → Option Flaw
  | (.error f, _) => some (.fault f)
  | (.ok _, t) => textFlaw? "a string" t

namespace Kind

/-- **The values of a type.** -/
def Fits : Kind → Tree → Prop
  | .text _, t => ∃ s, t = textTree s
  | .flag, t => ∃ b, t = .bool b
  | .texts, t => ∃ ss : List String, t = .array (ss.map textTree) none
  | .settings, t => ∃ ss : List (String × String), t = .object (ss.map settingTree) none
  | .optionalText _, t => t = .null ∨ ∃ s, t = textTree s

/-- **What is wrong with a value that should be of a type**: the first thing in text order. -/
def flaw? : Kind → Tree → Option Flaw
  | .text expected, t => textFlaw? expected t
  | .flag, .bool _ => none
  | .flag, t => some (mismatch "a boolean" t)
  | .texts, .array items _ => items.findSome? (textFlaw? "a string")
  | .texts, t => some (mismatch "a sequence" t)
  | .settings, .object members _ => members.findSome? settingFlaw?
  | .settings, t => some (mismatch "a map" t)
  | .optionalText _, .null => none
  | .optionalText expected, t => textFlaw? expected t

end Kind

/-! ## Values of the right type -/

theorem textFlaw?_eq_none_iff {expected : String} {t : Tree} :
    textFlaw? expected t = none ↔ ∃ s, t = textTree s := by
  unfold textFlaw? textTree
  split
  · simp
  · next h => simpa using h

theorem settingFlaw?_eq_none_iff {m : Except Fault String × Tree} :
    settingFlaw? m = none ↔ ∃ s, m = settingTree s := by
  obtain ⟨key, t⟩ := m
  cases key with
  | error f => simp [settingFlaw?, settingTree]
  | ok key => simp [settingFlaw?, settingTree, textFlaw?_eq_none_iff]

/-- A list of what a function makes is made by the function. -/
theorem exists_map_eq_iff {α β : Type} {f : α → β} {l : List β} :
    (∃ as : List α, l = as.map f) ↔ ∀ b ∈ l, ∃ a, b = f a := by
  have hrange := Set.ext_iff.1 (Set.range_list_map f) l
  simpa only [Set.mem_range, Set.mem_ofPred_eq, eq_comm] using hrange

/-- **Nothing is wrong with a value of the right type**, and only with such a value. -/
theorem Kind.flaw?_eq_none_iff {kind : Kind} {t : Tree} (ht : t.IsWellFormed) :
    kind.flaw? t = none ↔ kind.Fits t := by
  cases kind with
  | text expected => exact textFlaw?_eq_none_iff
  | flag => cases t <;> simp [flaw?, Fits]
  | texts =>
    cases t with
    | array items cut =>
      obtain ⟨rfl, -⟩ := ht.of_array
      simp [flaw?, Fits, textFlaw?_eq_none_iff, exists_map_eq_iff]
    | _ => simp [flaw?, Fits]
  | settings =>
    cases t with
    | object members cut =>
      obtain ⟨rfl, -⟩ := ht.of_object
      simp [flaw?, Fits, settingFlaw?_eq_none_iff, exists_map_eq_iff]
    | _ => simp [flaw?, Fits]
  | optionalText expected =>
    cases t with
    | null => simp [flaw?, Fits]
    | _ => simp [flaw?, Fits, textFlaw?_eq_none_iff]

/-! ## What values denote -/

/-- A text. -/
def DenotesText (t : Tree) (s : String) : Prop := t = textTree s

/-- A Boolean. -/
def DenotesFlag (t : Tree) (b : Bool) : Prop := t = .bool b

/-- A list of texts, in text order. -/
def DenotesTexts (t : Tree) (ss : List String) : Prop := t = .array (ss.map textTree) none

/-- A list of settings, in text order. -/
def DenotesSettings (t : Tree) (ss : List (String × String)) : Prop :=
  t = .object (ss.map settingTree) none

/-- What a value denotes that may be null. -/
def DenotesOption {α : Type} (denotes : Tree → α → Prop) (t : Tree) : Option α → Prop
  | none => t = .null
  | some a => denotes t a

/-- **A decoder of a type**: it refuses what is not of the type for what is wrong with it, and makes
of anything else what that denotes. -/
structure Judges {α : Type} (decode : Decoder α) (kind : Kind) (denotes : Tree → α → Prop) :
    Prop where
  error_iff : ∀ t : Tree, t.IsWellFormed → ∀ flaw,
    decode t = .error flaw ↔ kind.flaw? t = some flaw
  denotes_of_ok : ∀ t : Tree, t.IsWellFormed → ∀ a, decode t = .ok a → denotes t a

/-! ### One way at most -/

theorem textTree_inj {s s' : String} (h : textTree s = textTree s') : s = s' := by
  simpa [textTree] using h

theorem settingTree_inj {s s' : String × String} (h : settingTree s = settingTree s') : s = s' := by
  rw [settingTree, settingTree, Prod.mk.injEq, Except.ok.injEq] at h
  exact Prod.ext h.1 (textTree_inj h.2)

theorem DenotesText.unique {t : Tree} {s s' : String} (h : DenotesText t s)
    (h' : DenotesText t s') : s = s' :=
  textTree_inj (h.symm.trans h')

theorem DenotesFlag.unique {t : Tree} {b b' : Bool} (h : DenotesFlag t b)
    (h' : DenotesFlag t b') : b = b' :=
  Tree.bool.inj (h.symm.trans h')

theorem DenotesTexts.unique {t : Tree} {ss ss' : List String} (h : DenotesTexts t ss)
    (h' : DenotesTexts t ss') : ss = ss' :=
  (List.map_inj_right fun _ _ => textTree_inj).1 (Tree.array.inj (h.symm.trans h')).1

theorem DenotesSettings.unique {t : Tree} {ss ss' : List (String × String)}
    (h : DenotesSettings t ss) (h' : DenotesSettings t ss') : ss = ss' :=
  (List.map_inj_right fun _ _ => settingTree_inj).1 (Tree.object.inj (h.symm.trans h')).1

theorem DenotesOption.unique {β : Type} {denotes : Tree → β → Prop} {t : Tree} {o o' : Option β}
    (h : DenotesOption denotes t o) (h' : DenotesOption denotes t o')
    (hnull : ∀ b, ¬ denotes .null b) (hunique : ∀ b b', denotes t b → denotes t b' → b = b') :
    o = o' := by
  cases o with
  | none =>
    cases o' with
    | none => rfl
    | some b' =>
      obtain rfl : t = .null := h
      exact absurd h' (hnull b')
  | some b =>
    cases o' with
    | none =>
      obtain rfl : t = .null := h'
      exact absurd h (hnull b)
    | some b' => rw [hunique b b' h h']

/-! ### Scalars -/

theorem refuse_eq {α : Type} (expected : String) (t : Tree) :
    (refuse expected t : Decoded α) = .error (mismatch expected t) := by
  rw [refuse, mismatch]
  cases t.found <;> rfl

theorem decodeTextAs_eq_error_iff {expected : String} {t : Tree} {flaw : Flaw} :
    decodeTextAs expected t = .error flaw ↔ textFlaw? expected t = some flaw := by
  cases t with
  | text content => cases content <;> simp [decodeTextAs, textFlaw?, refuse_eq]
  | _ => simp [decodeTextAs, textFlaw?, refuse_eq]

theorem denotesText_of_ok {expected : String} {t : Tree} {s : String}
    (h : decodeTextAs expected t = .ok s) : DenotesText t s := by
  unfold decodeTextAs at h
  split at h
  · rw [Except.ok.inj h]
    rfl
  · rw [refuse_eq] at h
    cases h

theorem judges_text (expected : String) :
    Judges (decodeTextAs expected) (.text expected) DenotesText where
  error_iff _ _ _ := decodeTextAs_eq_error_iff
  denotes_of_ok _ _ _ := denotesText_of_ok

theorem judges_flag : Judges decodeFlag .flag DenotesFlag where
  error_iff t _ flaw := by
    cases t <;> simp [decodeFlag, Kind.flaw?, refuse_eq]
  denotes_of_ok t _ b h := by
    unfold decodeFlag at h
    split at h
    · rw [Except.ok.inj h]
      rfl
    · rw [refuse_eq] at h
      cases h

/-- What is made of what a decoder makes. -/
theorem Judges.map {β γ : Type} {decode : Decoder β} {kind : Kind} {denotes : Tree → β → Prop}
    {denotes' : Tree → γ → Prop} (h : Judges decode kind denotes) (f : β → γ)
    (hf : ∀ t b, denotes t b → denotes' t (f b)) :
    Judges (fun t => (decode t).map f) kind denotes' where
  error_iff t ht flaw := by
    rw [← h.error_iff t ht flaw]
    cases decode t <;> simp [Except.map]
  denotes_of_ok t ht c hc := by
    obtain ⟨b, hb, rfl⟩ := map_eq_ok_iff.1 hc
    exact hf t b (h.denotes_of_ok t ht b hb)

/-- What may be null is of its type or null. -/
theorem Judges.option {α : Type} {decode : Decoder α} {expected : String}
    {denotes : Tree → α → Prop} (h : Judges decode (.text expected) denotes) :
    Judges (decodeOption decode) (.optionalText expected) (DenotesOption denotes) where
  error_iff t ht flaw := by
    cases t with
    | null => simp [decodeOption, Kind.flaw?]
    | _ =>
      have hiff := h.error_iff _ ht flaw
      simp only [Kind.flaw?] at hiff ⊢
      rw [← hiff, decodeOption]
      · cases decode _ <;> simp [Except.map]
      · simp
  denotes_of_ok t ht o hok := by
    unfold decodeOption at hok
    split at hok
    · obtain rfl := Except.ok.inj hok
      rfl
    · obtain ⟨a, ha, rfl⟩ := map_eq_ok_iff.1 hok
      exact h.denotes_of_ok t ht a ha

/-! ### Lists -/

theorem decodeItems_eq_mapM {α : Type} (decode : Decoder α) (items : List Tree) :
    decodeItems decode items none = items.mapM decode := by
  induction items with
  | nil => rfl
  | cons t items ih => rw [decodeItems, ih, List.mapM_cons]

/-- One member of a map. -/
def decodePair {α : Type} (decode : Decoder α) : Except Fault String × Tree → Decoded (String × α)
  | (.error f, _) => faulty f
  | (.ok key, t) => (decode t).map fun a => (key, a)

theorem decodePairs_eq_mapM {α : Type} (decode : Decoder α)
    (members : List (Except Fault String × Tree)) :
    decodePairs decode members none = members.mapM (decodePair decode) := by
  induction members with
  | nil => rfl
  | cons m members ih =>
    obtain ⟨key, t⟩ := m
    rw [List.mapM_cons]
    cases key with
    | error f => rfl
    | ok key =>
      rw [decodePairs, ih, decodePair]
      cases decode t <;> rfl

theorem judges_texts : Judges (decodeList decodeText) .texts DenotesTexts where
  error_iff t ht flaw := by
    cases t with
    | array items cut =>
      obtain ⟨rfl, -⟩ := ht.of_array
      rw [decodeList, decodeItems_eq_mapM]
      exact mapM_eq_error_iff fun _ _ => decodeTextAs_eq_error_iff
    | _ => simp [decodeList, Kind.flaw?, refuse_eq]
  denotes_of_ok t ht ss h := by
    unfold decodeList at h
    split at h
    · obtain ⟨rfl, -⟩ := ht.of_array
      rw [decodeItems_eq_mapM] at h
      rw [eq_map_of_mapM (fun _ _ => denotesText_of_ok) h]
      rfl
    · rw [refuse_eq] at h
      cases h

theorem decodePair_eq_error_iff {m : Except Fault String × Tree} {flaw : Flaw} :
    decodePair decodeText m = .error flaw ↔ settingFlaw? m = some flaw := by
  obtain ⟨key, t⟩ := m
  cases key with
  | error f => simp [decodePair, settingFlaw?, faulty]
  | ok key =>
    rw [settingFlaw?, ← decodeTextAs_eq_error_iff, decodePair, decodeText]
    cases decodeTextAs "a string" t <;> simp [Except.map]

theorem eq_settingTree_of_decodePair {m : Except Fault String × Tree} {s : String × String}
    (h : decodePair decodeText m = .ok s) : m = settingTree s := by
  obtain ⟨key, t⟩ := m
  cases key with
  | error f => cases h
  | ok key =>
    obtain ⟨text, ht, rfl⟩ := map_eq_ok_iff.1 h
    rw [denotesText_of_ok ht]
    rfl

theorem judges_settings : Judges (decodeMap decodeText) .settings DenotesSettings where
  error_iff t ht flaw := by
    cases t with
    | object members cut =>
      obtain ⟨rfl, -⟩ := ht.of_object
      rw [decodeMap, decodePairs_eq_mapM]
      exact mapM_eq_error_iff fun _ _ => decodePair_eq_error_iff
    | _ => simp [decodeMap, Kind.flaw?, refuse_eq]
  denotes_of_ok t ht ss h := by
    unfold decodeMap at h
    split at h
    · obtain ⟨rfl, -⟩ := ht.of_object
      rw [decodePairs_eq_mapM] at h
      rw [eq_map_of_mapM (fun _ _ => eq_settingTree_of_decodePair) h]
      rfl
    · rw [refuse_eq] at h
      cases h

end FolderTasks.Json
