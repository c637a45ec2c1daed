import FolderTasks.Shell.Expansion
/-!
# How expanded words are split

Splitting takes out separators and nothing else: what is quoted, or was in the word from the start,
is in the fields as it was, in its order.  So the arguments of a script that are handed on in quotes
are the same arguments again, blanks, empty ones and all.

## Main definitions

* `Atom.kept?`: the character that is kept of an atom.
* `quoted`: a text all of which is quoted.

## Main statements

* `flatten_fieldsOf`: nothing else is taken out.
* `fieldsOf_rowAtoms`: quoted values in a row are fields as they are.
-/

namespace FolderTasks.Shell

variable {separators : List Char}

/-- The character that is kept of an atom, if it has one that does not separate fields. -/
def Atom.kept? (separators : List Char) : Atom → Option (Char × Bool)
  | .char c isQuoted splits =>
    if splits && !isQuoted && separators.contains c then none else some (c, isQuoted)
  | .mark | .gap | .absent => none

/-- Fields, with the one that is under way. -/
theorem flatten_fieldsGo (separators : List Char) (current : Option (List (Char × Bool)))
    (isOver : Bool) (atoms : List Atom) :
    (fieldsGo separators current isOver atoms).flatten =
      (current.getD []).reverse ++ atoms.filterMap (Atom.kept? separators) := by
  have hcurrent (current : Option (List (Char × Bool))) :
      (current.toList.map List.reverse).flatten = (current.getD []).reverse := by
    cases current <;> simp
  induction atoms generalizing current isOver with
  | nil => simpa [fieldsGo] using hcurrent current
  | cons a atoms ih =>
    cases a with
    | mark =>
      rw [fieldsGo, ih, List.filterMap_cons_none rfl]
      simp
    | absent => rw [fieldsGo, ih, List.filterMap_cons_none rfl]
    | gap =>
      rw [fieldsGo, List.flatten_append, hcurrent, ih, List.filterMap_cons_none rfl]
      simp
    | char c isQuoted splits =>
      rw [fieldsGo]
      cases hsplits : splits && !isQuoted && separators.contains c with
      | false =>
        rw [if_neg (by simp), ih, List.filterMap_cons, Atom.kept?, hsplits]
        simp
      | true =>
        rw [if_pos rfl, List.filterMap_cons, Atom.kept?, if_pos hsplits]
        -- Whichever way a separator ends a field, it is in none itself.
        split
        · rw [List.flatten_append, hcurrent, ih]
          rfl
        · split
          · next hnone =>
            rw [Bool.and_eq_true, Option.isNone_iff_eq_none] at hnone
            rw [ih, hnone.1]
          · rw [List.flatten_cons, ih]
            rfl

/-- **Nothing but separators is taken out of a word**: its fields together are what is kept of its
atoms. -/
theorem flatten_fieldsOf (separators : List Char) (atoms : List Atom) :
    (fieldsOf separators atoms).flatten = atoms.filterMap (Atom.kept? separators) := by
  rw [fieldsOf]
  split
  · next h =>
    rw [Bool.and_eq_true, List.isEmpty_iff, charsOf, List.filterMap_eq_nil_iff] at h
    symm
    rw [List.flatten_nil, List.filterMap_eq_nil_iff]
    intro a ha
    cases a with
    | char c isQuoted splits => exact absurd (h.2 _ ha) (by simp)
    | mark | gap | absent => rfl
  · exact flatten_fieldsGo separators none false atoms

/-- A text all of which is quoted. -/
def quoted (s : String) : List (Char × Bool) := s.toList.map fun c => (c, true)

/-- A quoted text goes on with the field that is under way. -/
theorem fieldsGo_quoted (field : List (Char × Bool)) (isOver : Bool) (cs : List Char)
    (rest : List Atom) :
    fieldsGo separators (some field) isOver (cs.map (Atom.char · true false) ++ rest) =
      fieldsGo separators (some ((cs.map fun c => (c, true)).reverse ++ field))
        (isOver && cs.isEmpty) rest := by
  induction cs generalizing field isOver with
  | nil => simp
  | cons c cs ih =>
    rw [List.map_cons, List.cons_append, fieldsGo]
    simp [ih]

/-- A quoted value is a field of its own, though it be empty. -/
theorem fieldsGo_atomsOf (separators : List Char) (s : String) (isOver : Bool)
    (rest : List Atom) :
    fieldsGo separators none isOver (atomsOf true false s ++ rest) =
      fieldsGo separators (some (quoted s).reverse) false rest := by
  simp only [atomsOf, if_true, List.cons_append, List.nil_append, fieldsGo]
  rw [fieldsGo_quoted]
  simp [quoted]

/-- Between two values a field ends. -/
theorem row_cons (v w : String) (values : List String) :
    (((v :: w :: values).map (atomsOf true false)).intersperse [.gap]).flatten =
      atomsOf true false v ++ .gap ::
        (((w :: values).map (atomsOf true false)).intersperse [.gap]).flatten := by
  simp [List.intersperse_cons_cons]

theorem fieldsGo_row (v : String) (values : List String) (isOver : Bool) :
    fieldsGo separators none isOver
        (((v :: values).map (atomsOf true false)).intersperse [.gap]).flatten =
      (v :: values).map quoted := by
  induction values generalizing v isOver with
  | nil =>
    have hend := fieldsGo_atomsOf separators v isOver []
    simpa [fieldsGo] using hend
  | cons w values ih =>
    rw [row_cons, fieldsGo_atomsOf, fieldsGo, ih]
    simp

theorem absent_notMem_row (v : String) (values : List String) :
    Atom.absent ∉ (((v :: values).map (atomsOf true false)).intersperse [.gap]).flatten := by
  have hatoms (v : String) : Atom.absent ∉ atomsOf true false v := by simp [atomsOf]
  induction values generalizing v with
  | nil => simpa using hatoms v
  | cons w values ih =>
    rw [row_cons, List.mem_append, List.mem_cons]
    exact not_or.2 ⟨hatoms v, not_or.2 ⟨by simp, ih w⟩⟩

/-- **Quoted values in a row are fields as they are**, whatever separates fields. -/
theorem fieldsOf_rowAtoms (separators : List Char) (values : List String) :
    fieldsOf separators (rowAtoms true values) = values.map quoted := by
  cases values with
  | nil => rfl
  | cons v values =>
    have hpresent : (rowAtoms true (v :: values)).contains .absent = false := by
      simpa [rowAtoms] using absent_notMem_row v values
    rw [fieldsOf, hpresent]
    exact fieldsGo_row v values false

end FolderTasks.Shell
