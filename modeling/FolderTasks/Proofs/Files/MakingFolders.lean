import FolderTasks.Proofs.Files.Parents
import FolderTasks.Proofs.Files.Reaching
/-!
# Folders that are made

Making a folder with all that is missing above it only adds folders to a disk.  Each of them is one
to which the path itself or a path above it leads now and led not before; this holds as well when
the making stops half-way.

## Main definitions

* `Disk.Gains`: one disk has all that another one has, and folders of certain paths besides.

## Main statements

* `Disk.Gains.trans`: what is gained in two steps.
* `Disk.gains_makeFolders`: what making a folder with all above it adds to a disk.
-/

namespace FolderTasks.Files.Disk

/-- **What is there stays, and what is new is a folder** to which one of the wanted paths leads now
that led nowhere before. -/
structure Gains (d d' : Disk) (wanted : Path → Prop) : Prop where
  here : d'.here = d.here
  entries : ∀ q, d'.entryAt? q = d.entryAt? q ∨
    d.entryAt? q = none ∧ d'.entryAt? q = some .folder ∧
      ∃ a, wanted a ∧ d.pathExists a = false ∧ d'.locate a = .ok q

namespace Gains

variable {d d' d'' : Disk} {wanted wanted' : Path → Prop} {q : Place} {e : Entry} {path : Path}

theorem refl (d : Disk) (wanted : Path → Prop) : d.Gains d wanted := ⟨rfl, fun _ => .inl rfl⟩

theorem mono (h : d.Gains d' wanted) (hwanted : ∀ a, wanted a → wanted' a) :
    d.Gains d' wanted' where
  here := h.here
  entries q := (h.entries q).imp_right fun ⟨hnone, hfolder, a, ha, hrest⟩ =>
    ⟨hnone, hfolder, a, hwanted a ha, hrest⟩

theorem entryAt? (h : d.Gains d' wanted) (he : d.entryAt? q = some e) :
    d'.entryAt? q = some e := by
  rcases h.entries q with hsame | ⟨hnone, -⟩
  · rw [hsame, he]
  · rw [hnone] at he
    exact absurd he (by simp)

theorem keeps (h : d.Gains d' wanted) : d.Keeps d' :=
  ⟨h.here, fun hp => isFolderAt_iff.2 (h.entryAt? (isFolderAt_iff.1 hp))⟩

/-- A path leads where it led. -/
theorem locate (h : d.Gains d' wanted) (hlocate : d.locate path = .ok q) :
    d'.locate path = .ok q := by
  refine locate_forth h.keeps hlocate fun hsome => ?_
  obtain ⟨e, he⟩ := Option.isSome_iff_exists.1 hsome
  rw [h.entryAt? he]
  rfl

/-- No file is made or lost. -/
theorem fileAt? (h : d.Gains d' wanted) (q : Place) : d'.fileAt? q = d.fileAt? q := by
  rcases h.entries q with hsame | ⟨hnone, hfolder, -⟩
  · exact fileAt?_congr hsame
  · rw [Disk.fileAt?, Disk.fileAt?, hnone, hfolder]

/-- What a path led to is what it leads to. -/
theorem find? (h : d.Gains d' wanted) (he : d.find? path = some e) :
    d'.find? path = some e := by
  obtain ⟨q, hlocate, he⟩ := find?_eq_some_iff.1 he
  rw [find?_of_locate (h.locate hlocate), h.entryAt? he]

/-- A path that leads nowhere led nowhere before. -/
theorem not_pathExists (h : d.Gains d' wanted) (hpath : d'.pathExists path = false) :
    d.pathExists path = false := by
  cases hlocate : d.locate path with
  | error fault => simp [pathExists, hlocate, Except.toOption]
  | ok q => simp [pathExists, h.locate hlocate, Except.toOption] at hpath

/-- **What is gained in two steps.** -/
theorem trans (h : d.Gains d' wanted) (h' : d'.Gains d'' wanted) : d.Gains d'' wanted where
  here := h'.here.trans h.here
  entries q := by
    rcases h'.entries q with hsame' | ⟨hnone', hfolder', a, ha, hpath, hlocate⟩
    · rcases h.entries q with hsame | ⟨hnone, hfolder, a, ha, hpath, hlocate⟩
      · exact .inl (hsame'.trans hsame)
      · exact .inr ⟨hnone, hsame'.trans hfolder, a, ha, hpath, h'.locate hlocate⟩
    · have hnone : d.entryAt? q = none := by
        rcases h.entries q with hsame | ⟨hnone, -⟩
        · rw [← hsame, hnone']
        · exact hnone
      exact .inr ⟨hnone, hfolder', a, ha, h.not_pathExists hpath, hlocate⟩

end Gains

section Making

variable {d d' : Disk} {path : Path}

/-- **What making a folder does**: nothing lay at the place of the path, and a folder does then. -/
theorem makeFolder_eq_ok (h : d.makeFolder path = .ok d') :
    ∃ parent s hasSlash, d.target path = .ok (parent, .name s hasSlash) ∧ isTooLong s = false ∧
      d.entryAt? (parent ++ [s]) = none ∧ d' = d.put (parent ++ [s]) .folder := by
  obtain ⟨⟨parent, ⟨s, hasSlash⟩ | _⟩, htarget, h⟩ := bind_eq_ok_iff.1 h
  · dsimp only at h
    split_ifs at h with hlong hsome
    exact ⟨parent, s, hasSlash, htarget, by simpa using hlong, by simpa using hsome,
      (Except.ok.inj h).symm⟩
  · exact absurd h (by simp)

theorem gains_makeFolder (h : d.makeFolder path = .ok d') : d.Gains d' (· = path) := by
  obtain ⟨parent, s, hasSlash, htarget, hlong, hnone, rfl⟩ := makeFolder_eq_ok h
  have hfree : d.isFolderAt (parent ++ [s]) = false := by
    rw [isFolderAt, hnone]
    rfl
  have hput (q : Place) := entryAt?_put (d := d) (q := q) (e := .folder)
    (ne_nil_of_not_isFolderAt hfree)
  refine ⟨rfl, fun q => ?_⟩
  by_cases hq : q = parent ++ [s]
  · subst hq
    have hfolder : (d.put (parent ++ [s]) .folder).entryAt? (parent ++ [s]) = some .folder := by
      rw [hput, if_pos rfl]
    refine .inr ⟨hnone, hfolder, path, rfl, not_pathExists_of_target htarget hnone, ?_⟩
    exact locate_of_target_folder (target_of_keeps (keeps_put .folder hfree) htarget) hlong
      (isFolderAt_iff.2 hfolder)
  · exact .inl (by rw [hput, if_neg hq])

theorem gains_ensureFolder (h : d.ensureFolder path = .ok d') : d.Gains d' (· = path) := by
  unfold ensureFolder at h
  cases hmade : d.makeFolder path with
  | ok made =>
    rw [hmade] at h
    obtain rfl := Except.ok.inj h
    exact gains_makeFolder hmade
  | error fault =>
    simp only [hmade] at h
    split_ifs at h
    obtain rfl := Except.ok.inj h
    exact .refl d _

/-- A folder is made, or those above it that are missing are made first; the making may stop at any
of them. -/
theorem gains_makeFoldersGo (path : Path) (fuel : Nat) (d : Disk) :
    d.Gains (makeFoldersGo path fuel d).1 (·.components <+: path.components) := by
  have hself {d d' : Disk} {path : Path} (h : d.ensureFolder path = .ok d') :
      d.Gains d' (·.components <+: path.components) :=
    (gains_ensureFolder h).mono fun a ha => ha ▸ List.prefix_refl _
  induction fuel generalizing path d with
  | zero => exact .refl d _
  | succ fuel ih =>
    unfold makeFoldersGo
    split_ifs with hempty
    · exact .refl d _
    · cases hensured : d.ensureFolder path with
      | ok d' => exact hself hensured
      | error fault =>
        cases fault with
        | notFound =>
          cases habove : path.parent? with
          | none => exact .refl d _
          | some above =>
            have hgains : d.Gains (makeFoldersGo above fuel d).1
                (·.components <+: path.components) :=
              (ih above d).mono fun a ha => (Path.isAncestor_of_parent? habove ha).1
            rcases hmade : makeFoldersGo above fuel d with ⟨d₁, _ | fault⟩
            · rw [hmade] at hgains
              simp only [hmade]
              cases hagain : d₁.ensureFolder path with
              | ok d₂ => exact hgains.trans (hself hagain)
              | error fault => exact hgains
            · rw [hmade] at hgains
              simpa only [hmade] using hgains
        | _ => exact .refl d _

/-- **What making a folder with all above it adds to a disk**: folders to which the path leads or
one above it, and nothing else. -/
theorem gains_makeFolders (d : Disk) (path : Path) :
    d.Gains (d.makeFolders path).1 (·.components <+: path.components) :=
  gains_makeFoldersGo path _ d

end Making

end FolderTasks.Files.Disk
