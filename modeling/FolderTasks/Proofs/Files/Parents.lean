import FolderTasks.Path
import Mathlib.Data.List.Infix
import Mathlib.Data.List.TakeWhile
/-!
# The folder that holds a path

The folder that holds a path is spelled by what stands before the last component.  Slashes and `.`
segments at the end of a spelling have no component, so cutting them off leaves the components as
they are; cutting off the last name as well takes away just one.

## Main definitions

* `Path.IsAncestor`: a path with fewer components, which are the first of another one.

## Main statements

* `Path.bodyComponents_trimEnd`: what is cut off from the end has no component.
* `Path.components_of_parent?`: the folder that holds a path has all components but the last.
-/

namespace FolderTasks.Path

/-- **A folder above a path**, as far as the spellings tell: its components are the first ones of
the path, and not all of them. -/
def IsAncestor (a p : Path) : Prop := a.components <+: p.components ∧ a.components ≠ p.components

instance (a p : Path) : Decidable (IsAncestor a p) := inferInstanceAs (Decidable (_ ∧ _))

example : IsAncestor ⟨"/a//b"⟩ ⟨"/a/b/../c"⟩ ∧ ¬ IsAncestor ⟨"/a"⟩ ⟨"/ab"⟩ := by decide +kernel

/-- The components of what follows the lead of a spelling. -/
def bodyComponents (body : List Char) : List Component := (segments body).filterMap component?

theorem componentsOf_eq (cs : List Char) :
    componentsOf cs = (splitLead cs).1.toList ++ bodyComponents (splitLead cs).2 := rfl

theorem bodyComponents_append (before after : List Char) :
    bodyComponents (before ++ '/' :: after) = bodyComponents before ++ bodyComponents after := by
  rw [bodyComponents, segments, List.splitOn_append_cons_self, List.filterMap_append]
  rfl

/-- A segment without a slash is one component, if any. -/
theorem bodyComponents_segment {segment : List Char} (h : '/' ∉ segment) :
    bodyComponents segment = (component? segment).toList := by
  rw [bodyComponents, segments, List.splitOn_eq_singleton h]
  cases hc : component? segment <;> simp [hc]

/-! ## Trimming -/

theorem trimEnd_suffix (reversed : List Char) : trimEnd reversed <:+ reversed := by
  fun_induction trimEnd reversed with
  | case1 rest ih => exact ih.trans (List.suffix_cons _ _)
  | case2 rest ih => exact ih.trans ((List.suffix_cons _ _).trans (List.suffix_cons _ _))
  | case3 => exact List.nil_suffix
  | case4 rest => exact List.suffix_refl _

/-- **What is cut off from the end has no component.** -/
theorem bodyComponents_trimEnd (reversed : List Char) :
    bodyComponents (trimEnd reversed).reverse = bodyComponents reversed.reverse := by
  fun_induction trimEnd reversed with
  | case1 rest ih =>
    rw [ih, List.reverse_cons, bodyComponents_append, show bodyComponents [] = [] from rfl,
      List.append_nil]
  | case2 rest ih =>
    rw [ih, List.reverse_cons, List.reverse_cons, List.append_assoc, List.singleton_append,
      bodyComponents_append, show bodyComponents ['.'] = [] from rfl, List.append_nil]
  | case3 => rfl
  | case4 rest => rfl

/-- A segment that is trimmed away has no component, so one at the end of a trimmed spelling has. -/
theorem component?_eq_none_iff {segment : List Char} :
    component? segment = none ↔ segment = [] ∨ segment = ['.'] := by
  unfold component?
  split_ifs with h
  · simpa using h
  · simpa using h
  · simpa using h

/-- What is left after trimming ends in a segment that has a component. -/
theorem trimEnd_eq (reversed : List Char) :
    trimEnd reversed = [] ∨
      ∃ c, component? ((trimEnd reversed).takeWhile (· != '/')).reverse = some c := by
  fun_induction trimEnd reversed with
  | case1 rest ih => exact ih
  | case2 rest ih => exact ih
  | case3 => exact .inl rfl
  | case4 rest hslash hdotSlash hdot =>
    refine or_iff_not_imp_left.2 fun hne => ?_
    rw [← Option.ne_none_iff_exists', Ne, component?_eq_none_iff, not_or]
    cases rest with
    | nil => exact absurd rfl hne
    | cons c rest =>
      have hc : c ≠ '/' := fun heq => hslash rest (heq ▸ rfl)
      rw [List.takeWhile_cons_of_pos (by simpa using hc), List.reverse_cons]
      refine ⟨by simp, fun hsingle => ?_⟩
      -- The last segment would be a single dot, which is cut off.
      obtain ⟨htake, hdotc⟩ : (rest.takeWhile (· != '/')).reverse = [] ∧ c = '.' := by
        cases hr : (rest.takeWhile (· != '/')).reverse with
        | nil => simpa [hr] using hsingle
        | cons d ds => simp [hr] at hsingle
      cases rest with
      | nil => exact hdot (by rw [hdotc])
      | cons d rest =>
        by_cases hd : d = '/'
        · exact hdotSlash rest (by rw [hdotc, hd])
        · rw [List.takeWhile_cons_of_pos (by simpa using hd)] at htake
          simp at htake

/-- The last segment of a trimmed spelling is one component. -/
theorem bodyComponents_last (reversed : List Char) (h : trimEnd reversed ≠ []) :
    ∃ c, bodyComponents reversed.reverse =
      bodyComponents ((trimEnd reversed).dropWhile (· != '/')).reverse ++ [c] := by
  obtain ⟨c, hc⟩ := (trimEnd_eq reversed).resolve_left h
  rw [← bodyComponents_trimEnd]
  generalize trimEnd reversed = trimmed at h hc ⊢
  have hname : '/' ∉ (trimmed.takeWhile (· != '/')).reverse := by
    intro hmem
    simpa using List.mem_takeWhile_imp (List.mem_reverse.1 hmem)
  have hsplit : trimmed.reverse = (trimmed.dropWhile (· != '/')).reverse ++
      (trimmed.takeWhile (· != '/')).reverse := by
    rw [← List.reverse_append, List.takeWhile_append_dropWhile]
  refine ⟨c, ?_⟩
  rw [hsplit]
  cases hrest : trimmed.dropWhile (· != '/') with
  | nil =>
    rw [List.reverse_nil, List.nil_append, bodyComponents_segment hname, hc]
    rfl
  | cons d rest =>
    obtain rfl : d = '/' := by
      have hhead := List.head?_dropWhile_not (· != '/') trimmed
      rw [hrest] at hhead
      simpa using hhead
    rw [List.reverse_cons, List.append_assoc, List.singleton_append, bodyComponents_append,
      bodyComponents_append, show bodyComponents [] = [] from rfl, List.append_nil,
      bodyComponents_segment hname, hc]
    rfl

/-! ## The folder above -/

/-- The lead of a spelling, spelled. -/
def leadChars : Option Component → List Char
  | some .root => ['/']
  | some .here => ['.']
  | _ => []

/-- A spelling that is cut short, but not down to a `.`, keeps its lead. -/
theorem splitLead_cut (cs : List Char) {before : List Char}
    (hbefore : before <+: (splitLead cs).2)
    (hdot : before ≠ ['.']) :
    splitLead (leadChars (splitLead cs).1 ++ before) = ((splitLead cs).1, before) := by
  revert hbefore
  fun_cases splitLead cs with
  | case1 rest => exact fun _ => rfl
  | case2 =>
    intro hbefore
    rw [List.prefix_nil.1 hbefore]
    rfl
  | case3 rest =>
    intro hbefore
    cases before with
    | nil => rfl
    | cons c before =>
      obtain rfl := (List.cons_prefix_cons.1 hbefore).1
      rfl
  | case4 cs hroot hdotOnly hslash =>
    intro hbefore
    obtain ⟨rest, rfl⟩ := hbefore
    -- A lead of what is left would be one of the whole.
    change splitLead before = (none, before)
    unfold splitLead
    split
    · exact (hroot _ rfl).elim
    · exact absurd rfl hdot
    · exact (hslash _ rfl).elim
    · rfl

theorem parent?_eq (p : Path) :
    p.parent? = match trimEnd (splitLead p.text.toList).2.reverse with
      | [] => if (splitLead p.text.toList).1 = some .here then some ⟨""⟩ else none
      | last => some ⟨String.ofList (leadChars (splitLead p.text.toList).1 ++
          (trimEnd (last.dropWhile (· != '/'))).reverse)⟩ := rfl

/-- **The folder that holds a path has all components but the last.** -/
theorem components_of_parent? {p a : Path} (h : p.parent? = some a) :
    ∃ c, p.components = a.components ++ [c] := by
  rw [parent?_eq] at h
  have hcut (before : List Char) := @splitLead_cut p.text.toList before
  rw [components, componentsOf_eq]
  generalize (splitLead p.text.toList).1 = lead at h hcut ⊢
  generalize (splitLead p.text.toList).2 = body at h hcut ⊢
  cases htrimmed : trimEnd body.reverse with
  | nil =>
    rw [htrimmed] at h
    dsimp only at h
    split_ifs at h with hhere
    obtain rfl := Option.some.inj h
    have hnone : bodyComponents body = [] := by
      rw [← body.reverse_reverse, ← bodyComponents_trimEnd, htrimmed]
      rfl
    refine ⟨.here, ?_⟩
    rw [hhere, hnone]
    rfl
  | cons d last =>
    obtain ⟨c, hc⟩ := bodyComponents_last body.reverse (by simp [htrimmed])
    rw [List.reverse_reverse, htrimmed] at hc
    rw [htrimmed] at h
    dsimp only at h
    obtain rfl := Option.some.inj h
    generalize hrest : (d :: last).dropWhile (· != '/') = rest at hc ⊢
    have hsuffix : trimEnd rest <:+ body.reverse := by
      rw [← hrest]
      exact (trimEnd_suffix _).trans
        ((List.dropWhile_suffix _).trans (htrimmed ▸ trimEnd_suffix body.reverse))
    have hprefix : (trimEnd rest).reverse <+: body := by
      simpa using List.reverse_prefix.2 hsuffix
    have hdot : (trimEnd rest).reverse ≠ ['.'] := by
      intro hsingle
      have hone : trimEnd rest = ['.'] := by simpa using congrArg List.reverse hsingle
      rcases trimEnd_eq rest with hnil | ⟨c, hc⟩
      · simp [hone] at hnil
      · simp [hone, component?] at hc
    refine ⟨c, ?_⟩
    rw [components, String.toList_ofList, componentsOf_eq, hcut _ hprefix hdot, hc,
      bodyComponents_trimEnd, List.append_assoc]

/-- What stands above the folder that holds a path stands above the path. -/
theorem isAncestor_of_parent? {p folder a : Path} (h : p.parent? = some folder)
    (ha : a.components <+: folder.components) : a.IsAncestor p := by
  obtain ⟨c, hc⟩ := components_of_parent? h
  refine ⟨hc ▸ ha.trans (List.prefix_append _ _), fun heq => ?_⟩
  have hlength := ha.length_le
  rw [heq, hc, List.length_append, List.length_singleton] at hlength
  omega

end FolderTasks.Path
