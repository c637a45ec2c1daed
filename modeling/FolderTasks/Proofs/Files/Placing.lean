import FolderTasks.Proofs.Files.Reaching
/-!
# Files that are put in place

Writing and renaming change what lies at places that are no folders, so all paths still lead where
they led.  A file is found where it was written or where its new name leads, and everything that
lies elsewhere is as it was.

## Main statements

* `Disk.write_eq_ok`, `Disk.rename_eq_ok`: what writing and renaming do.
* `Disk.write_effect`, `Disk.rename_effect`: what they change.
* `Disk.read_of_replaced`: a text that is written at one path and renamed to another is read there.
-/

namespace FolderTasks.Files.Disk

variable {d d' d₁ : Disk} {path source destination : Path} {content : Content} {q : Place}

/-! ## Writing -/

/-- **What writing does**: the content lies at the place of the path, which is no folder. -/
theorem write_eq_ok (h : d.write path content = .ok d') :
    ∃ parent s, d.target path = .ok (parent, .name s false) ∧ isTooLong s = false ∧
      d.isFolderAt (parent ++ [s]) = false ∧ d' = d.put (parent ++ [s]) (.file content) := by
  obtain ⟨⟨parent, ⟨s, hasSlash⟩ | _⟩, htarget, h⟩ := bind_eq_ok_iff.1 h
  · dsimp only at h
    split_ifs at h with hslash hlong hfolder
    obtain rfl : hasSlash = false := by simpa using hslash
    exact ⟨parent, s, htarget, by simpa using hlong, by simpa using hfolder,
      (Except.ok.inj h).symm⟩
  · exact absurd h (by simp)

/-- **What writing changes**: the content lies where the path leads, and all else stays. -/
theorem write_effect (h : d.write path content = .ok d') :
    ∃ q, d.Keeps d' ∧ d'.place? path = some q ∧ d'.locate path = .ok q ∧
      d'.entryAt? q = some (.file content) ∧ ∀ x, x ≠ q → d'.entryAt? x = d.entryAt? x := by
  obtain ⟨parent, s, htarget, hlong, hfile, rfl⟩ := write_eq_ok h
  have hkeeps := keeps_put (.file content) hfile
  have hput (x : Place) := entryAt?_put (d := d) (q := x) (e := .file content)
    (ne_nil_of_not_isFolderAt hfile)
  have htarget' := target_of_keeps hkeeps htarget
  have hself : (d.put (parent ++ [s]) (.file content)).entryAt? (parent ++ [s]) =
      some (.file content) := by rw [hput, if_pos rfl]
  exact ⟨parent ++ [s], hkeeps, place?_of_target htarget', locate_of_target htarget' hlong hself,
    hself, fun x hx => by rw [hput, if_neg hx]⟩

/-! ## Renaming -/

/-- **What renaming does**: what lies at the place of the source lies at that of the destination
afterwards, which is no folder unless it is the same place. -/
theorem rename_eq_ok (h : d.rename source destination = .ok d') :
    ∃ sourceParent old parent new e, d.target source = .ok (sourceParent, .name old false) ∧
      d.target destination = .ok (parent, .name new false) ∧ isTooLong new = false ∧
      d.entryAt? (sourceParent ++ [old]) = some e ∧
      (sourceParent ++ [old] = parent ++ [new] ∧ d' = d ∨
        sourceParent ++ [old] ≠ parent ++ [new] ∧
          d.isFolderAt (parent ++ [new]) = false ∧
          d' = (d.erase (sourceParent ++ [old])).put (parent ++ [new]) e) := by
  obtain ⟨⟨sourceParent, ⟨old, oldSlash⟩ | _⟩, hsource, hrest⟩ := bind_eq_ok_iff.1 h
  · obtain ⟨⟨parent, ⟨new, newSlash⟩ | _⟩, hdestination, hdone⟩ := bind_eq_ok_iff.1 hrest
    · dsimp only at hdone
      split at hdone
      · exact absurd hdone (by simp)
      · cases he : d.entryAt? (sourceParent ++ [old]) with
        | none => exact absurd hdone (by simp [he])
        | some e =>
          simp only [he] at hdone
          split_ifs at hdone with hlong hslash hsame hfolder
          all_goals
            obtain ⟨rfl, rfl⟩ : oldSlash = false ∧ newSlash = false := by simpa using hslash
            refine ⟨_, _, _, _, e, hsource, hdestination, by simpa using hlong, he, ?_⟩
          · exact .inl ⟨hsame, (Except.ok.inj hdone).symm⟩
          · exact .inr ⟨hsame, by simpa using hfolder, (Except.ok.inj hdone).symm⟩
    · exact absurd hdone (by simp)
  · obtain ⟨⟨parent, last⟩, -, hdone⟩ := bind_eq_ok_iff.1 hrest
    exact absurd hdone (by simp)

theorem entryAt?_erase_self (hq : q ≠ []) : (d.erase q).entryAt? q = none := by
  rw [entryAt?, if_neg hq, erase, List.lookup_eq_none_iff]
  intro x hx
  have hne : x.1 ≠ q := by simpa using (List.mem_filter.1 hx).2
  simpa using hne.symm

/-- **What renaming a file changes**: it lies where the new path leads and no longer where the old
one led, unless this is the same place; and all else stays. -/
theorem rename_effect (h : d.rename source destination = .ok d')
    (hsource : d.place? source = some q) (hlocate : d.locate source = .ok q)
    (hq : d.entryAt? q = some (.file content)) :
    ∃ q', d.Keeps d' ∧ d'.place? source = some q ∧ d'.place? destination = some q' ∧
      d'.locate destination = .ok q' ∧ d'.entryAt? q' = some (.file content) ∧
      (q = q' ∧ d'.locate source = .ok q ∨ d'.entryAt? q = none ∧ d'.pathExists source = false) ∧
      ∀ x, x ≠ q → x ≠ q' → d'.entryAt? x = d.entryAt? x := by
  obtain ⟨sourceParent, old, parent, new, e, hold, hnew, hlong, he, hplaced⟩ := rename_eq_ok h
  obtain rfl : sourceParent ++ [old] = q :=
    Option.some.inj ((place?_of_target hold).symm.trans hsource)
  obtain rfl : e = .file content := Option.some.inj (he.symm.trans hq)
  rcases hplaced with ⟨hsame, rfl⟩ | ⟨hother, hfree, rfl⟩
  · exact ⟨_, .refl d', hsource, place?_of_target hnew,
      locate_of_target hnew hlong (hsame ▸ hq), hsame ▸ hq, .inl ⟨hsame, hlocate⟩,
      fun _ _ _ => rfl⟩
  · have holdFile : d.isFolderAt (sourceParent ++ [old]) = false := by
      rw [isFolderAt, hq]
      rfl
    have hnewFree : (d.erase (sourceParent ++ [old])).isFolderAt (parent ++ [new]) = false := by
      rw [isFolderAt, entryAt?_erase hother.symm]
      exact hfree
    have hkeeps := (keeps_erase holdFile).trans (keeps_put (.file content) hnewFree)
    have hput (x : Place) := entryAt?_put (d := d.erase (sourceParent ++ [old])) (q := x)
      (e := .file content) (ne_nil_of_not_isFolderAt hnewFree)
    have hnone : ((d.erase (sourceParent ++ [old])).put (parent ++ [new]) (.file content)).entryAt?
        (sourceParent ++ [old]) = none := by
      rw [hput, if_neg hother, entryAt?_erase_self (ne_nil_of_not_isFolderAt holdFile)]
    have hold' := target_of_keeps hkeeps hold
    have hnew' := target_of_keeps hkeeps hnew
    have hself : ((d.erase (sourceParent ++ [old])).put (parent ++ [new]) (.file content)).entryAt?
        (parent ++ [new]) = some (.file content) := by rw [hput, if_pos rfl]
    refine ⟨_, hkeeps, place?_of_target hold', place?_of_target hnew',
      locate_of_target hnew' hlong hself, hself,
      .inr ⟨hnone, not_pathExists_of_target hold' hnone⟩, fun x hx hx' => ?_⟩
    rw [hput, if_neg hx', entryAt?_erase hx]

/-- **A text that is written at one path and renamed to another is read there.** -/
theorem read_of_replaced {text : String} (hwrite : d.write source (.text text) = .ok d₁)
    (hrename : d₁.rename source destination = .ok d') :
    d'.pathExists destination ∧ d'.read destination = .ok text := by
  obtain ⟨q, -, hplace, hlocate, hfile, -⟩ := write_effect hwrite
  obtain ⟨q', -, -, -, hlocate', hfile', -⟩ := rename_effect hrename hplace hlocate hfile
  exact read_of_find? (by rw [find?_of_locate hlocate', hfile'])

end FolderTasks.Files.Disk
