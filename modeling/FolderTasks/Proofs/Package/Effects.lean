import FolderTasks.Package.Storage
import FolderTasks.Proofs.Files.MakingFolders
import FolderTasks.Proofs.Files.Placing
/-!
# What saving settings changes on a disk

Saving makes the folders that are missing above a path, writes the draft and renames it.  It may
stop at each of these steps, and whatever was done by then stays.  In every case all other files are
as they were, no folder is lost, and those that are new lie above the path.

## Main definitions

* `Toolchain.Saves`: how saving may end, with what each step did.

## Main statements

* `Toolchain.saves_saveText`: saving ends in one of these ways.
* `Toolchain.save_touches`: saving touches the file at its path and the draft only.

## Design notes

Whether a path names a place is settled after the saving: the folders that it passes may be made on
the way.
-/

namespace FolderTasks.Toolchain

open Files

/-- **How saving may end**: the folder or the draft was refused, the draft could not be put in
place, or all went well. -/
inductive Saves (text : String) (d : Disk) (p : Path) : Disk × Option Failure → Prop where
  | refused {d₁ : Disk} {failure : Failure} (hd : d.Gains d₁ (·.IsAncestor p))
      (hfailure : ∀ draft file fault, failure ≠ .settings (.notInPlace draft file fault)) :
      Saves text d p (d₁, some failure)
  | stuck {d₁ d₂ : Disk} {fault : Fault} (hd : d.Gains d₁ (·.IsAncestor p))
      (hwrite : d₁.write (draftPath p) (.text text) = .ok d₂)
      (hrename : d₂.rename (draftPath p) p = .error fault) :
      Saves text d p (d₂, some (.settings (.notInPlace (draftPath p) p fault)))
  | placed {d₁ d₂ d₃ : Disk} (hd : d.Gains d₁ (·.IsAncestor p))
      (hwrite : d₁.write (draftPath p) (.text text) = .ok d₂)
      (hrename : d₂.rename (draftPath p) p = .ok d₃) : Saves text d p (d₃, none)

section Saving

variable {text : String} {d d₁ : Disk} {p : Path} {result : Disk × Option Failure}

theorem saves_writeText (hd : d.Gains d₁ (·.IsAncestor p)) : Saves text d p (writeText text d₁ p) := by
  unfold writeText
  cases hwrite : d₁.write (draftPath p) (.text text) with
  | error fault => exact .refused hd fun _ _ _ => by simp
  | ok d₂ =>
    dsimp only
    cases hrename : d₂.rename (draftPath p) p with
    | error fault => exact .stuck hd hwrite hrename
    | ok d₃ => exact .placed hd hwrite hrename

/-- **Saving ends in one of these ways.** -/
theorem saves_saveText (text : String) (d : Disk) (p : Path) :
    Saves text d p (saveText text d p) := by
  unfold saveText
  cases hparent : p.parent? with
  | none => exact saves_writeText (.refl d _)
  | some folder =>
    have hgains := (d.gains_makeFolders folder).mono fun a ha =>
      Path.isAncestor_of_parent? hparent ha
    rcases hmade : d.makeFolders folder with ⟨d₁, _ | fault⟩
    · rw [hmade] at hgains
      simp only [hmade]
      exact saves_writeText hgains
    · rw [hmade] at hgains
      simp only [hmade]
      exact .refused hgains fun _ _ _ => by simp

/-- **What a draft that is put in place changes**: the settings lie at the path, nothing lies at the
draft unless it is the same place, and all else stays. -/
theorem placed_effect {d₁ d₂ d₃ : Disk}
    (hwrite : d₁.write (draftPath p) (.text text) = .ok d₂)
    (hrename : d₂.rename (draftPath p) p = .ok d₃) :
    ∃ q q', d₁.Keeps d₃ ∧ d₃.place? (draftPath p) = some q ∧ d₃.place? p = some q' ∧
      d₃.locate p = .ok q' ∧ d₃.entryAt? q' = some (.file (.text text)) ∧
      (q = q' ∧ d₃.locate (draftPath p) = .ok q ∨
        d₃.entryAt? q = none ∧ d₃.pathExists (draftPath p) = false) ∧
      ∀ x, x ≠ q → x ≠ q' → d₃.entryAt? x = d₁.entryAt? x := by
  obtain ⟨q, hkeeps, hplace, hlocate, hfile, hother⟩ := Disk.write_effect hwrite
  obtain ⟨q', hkeeps', hplace', hpath, hlocate', hfile', hdraft, hother'⟩ :=
    Disk.rename_effect hrename hplace hlocate hfile
  exact ⟨q, q', hkeeps.trans hkeeps', hplace', hpath, hlocate', hfile', hdraft,
    fun x hx hx' => (hother' x hx hx').trans (hother x hx)⟩

/-- A new folder is one that was gained, when no others are made afterwards. -/
theorem isAncestor_of_gains {d' : Disk} (hd : d.Gains d₁ (·.IsAncestor p)) (hkeeps : d₁.Keeps d')
    {q : Place} (hq : d'.isFolderAt q) (hq₁ : d₁.isFolderAt q) (hnew : ¬ d.isFolderAt q) :
    ∃ a : Path, a.IsAncestor p ∧ d.pathExists a = false ∧ d'.locate a = .ok q := by
  rcases hd.entries q with hsame | ⟨-, -, a, ha, hpath, hlocate⟩
  · exact absurd (Disk.isFolderAt_iff.2 (hsame ▸ Disk.isFolderAt_iff.1 hq₁)) hnew
  · exact ⟨a, ha, hpath, Disk.locate_forth hkeeps hlocate fun _ => by
      rw [Disk.isFolderAt_iff.1 hq]; rfl⟩

namespace Saves

variable {d' : Disk} {failure : Failure} {q : Place}

/-- Whatever is written after the folders are made keeps to places where no folder lies. -/
theorem exists_gains (h : Saves text d p result) :
    ∃ d₁, d.Gains d₁ (·.IsAncestor p) ∧ d₁.Keeps result.1 ∧
      ∀ q, result.1.isFolderAt q → d₁.isFolderAt q := by
  cases h with
  | @refused d₁ failure hd hfailure => exact ⟨d₁, hd, .refl d₁, fun _ => id⟩
  | @stuck d₁ d₂ fault hd hwrite hrename =>
    obtain ⟨q, hkeeps, -, -, hfile, hother⟩ := Disk.write_effect hwrite
    refine ⟨d₁, hd, hkeeps, fun x hx => ?_⟩
    by_cases hne : x = q
    · rw [hne, Disk.isFolderAt_iff, hfile] at hx
      simp at hx
    · rwa [Disk.isFolderAt, hother x hne] at hx
  | @placed d₁ d₂ d₃ hd hwrite hrename =>
    obtain ⟨q, q', hkeeps, -, -, -, hfile, hdraft, hother⟩ := placed_effect hwrite hrename
    refine ⟨d₁, hd, hkeeps, fun x hx => ?_⟩
    by_cases hne' : x = q'
    · rw [hne', Disk.isFolderAt_iff, hfile] at hx
      simp at hx
    · by_cases hne : x = q
      · rcases hdraft with ⟨rfl, -⟩ | ⟨hnone, -⟩
        · exact absurd hne hne'
        · rw [hne, Disk.isFolderAt_iff, hnone] at hx
          simp at hx
      · rwa [Disk.isFolderAt, hother x hne hne'] at hx

/-- **Once settings are saved** they lie at the path, no draft is left unless it is the same file,
and all other files are as they were. -/
theorem of_saved (h : Saves text d p (d', none)) :
    d'.find? p = some (.file (.text text)) ∧
      (¬ d'.SameFile (draftPath p) p → d'.pathExists (draftPath p) = false) ∧
      ∀ q, d'.place? p ≠ some q → d'.place? (draftPath p) ≠ some q →
        d'.fileAt? q = d.fileAt? q := by
  cases h with
  | placed hd hwrite hrename =>
    obtain ⟨q, q', hkeeps, hplace, hplace', hlocate, hfile, hdraft, hother⟩ :=
      placed_effect hwrite hrename
    refine ⟨by rw [Disk.find?_of_locate hlocate, hfile], fun hdifferent => ?_, fun x hx hx' => ?_⟩
    · rcases hdraft with ⟨rfl, hsame⟩ | ⟨-, hgone⟩
      · exact absurd ⟨q, hsame, hlocate⟩ hdifferent
      · exact hgone
    · have hne : x ≠ q := fun heq => hx' (heq ▸ hplace)
      have hne' : x ≠ q' := fun heq => hx (heq ▸ hplace')
      rw [Disk.fileAt?_congr (hother x hne hne'), hd.fileAt? x]

/-- **When saving fails**, all files but the draft are as they were. -/
theorem of_failed (h : Saves text d p (d', some failure)) :
    (∀ q, d'.place? (draftPath p) ≠ some q → d'.fileAt? q = d.fileAt? q) ∧
      ∀ content, d.find? p = some (.file content) → ¬ d'.SameFile (draftPath p) p →
        d'.find? p = some (.file content) := by
  cases h with
  | refused hd hfailure => exact ⟨fun q _ => hd.fileAt? q, fun content h _ => hd.find? h⟩
  | stuck hd hwrite hrename =>
    obtain ⟨q, hkeeps, hplace, hlocate, hfile, hother⟩ := Disk.write_effect hwrite
    refine ⟨fun x hx => ?_, fun content h hdifferent => ?_⟩
    · have hne : x ≠ q := fun heq => hx (heq ▸ hplace)
      rw [Disk.fileAt?_congr (hother x hne), hd.fileAt? x]
    · obtain ⟨x, hx, hcontent⟩ := Disk.find?_eq_some_iff.1 (hd.find? h)
      by_cases hne : x = q
      · subst hne
        have hpath := Disk.locate_forth hkeeps hx fun _ => by rw [hfile]; rfl
        exact absurd ⟨x, hlocate, hpath⟩ hdifferent
      · exact Disk.find?_of_keeps hkeeps hx ((hother x hne).trans hcontent)

end Saves

/-- **Saving touches the file at its path and the draft only.**  Once settings are saved, their
indented JSON lies at the path, no draft is left unless it is the same file, and all other files are
as they were.  When saving fails, all files but the draft are as they were.  No folder is lost, and
those that are new were missing above the path.  All this holds in whatever order the variables are
written. -/
theorem save_touches (c : Toolchain) (settings : List (String × String)) (d : Disk) (p : Path) :
    let d' := (c.saveIn settings d p).1
    ((c.saveIn settings d p).2 = none →
      d'.find? p = some (.file (.text (c.toJsonIn settings).indented)) ∧
      (¬ d'.SameFile (draftPath p) p → d'.pathExists (draftPath p) = false) ∧
      ∀ q, d'.place? p ≠ some q → d'.place? (draftPath p) ≠ some q →
        d'.fileAt? q = d.fileAt? q) ∧
    ((c.saveIn settings d p).2 ≠ none →
      (∀ q, d'.place? (draftPath p) ≠ some q → d'.fileAt? q = d.fileAt? q) ∧
      ∀ content, d.find? p = some (.file content) → ¬ d'.SameFile (draftPath p) p →
        d'.find? p = some (.file content)) ∧
    (∀ q, d.isFolderAt q → d'.isFolderAt q) ∧
    ∀ q, d'.isFolderAt q → ¬ d.isFolderAt q →
      ∃ a : Path, a.IsAncestor p ∧ d.pathExists a = false ∧ d'.locate a = .ok q := by
  have hsaves : Saves (c.fileTextIn settings) d p (c.saveIn settings d p) := saves_saveText _ d p
  generalize c.saveIn settings d p = result at hsaves ⊢
  obtain ⟨d', failure⟩ := result
  obtain ⟨d₁, hd, hkeeps, hfolders⟩ := hsaves.exists_gains
  refine ⟨?_, ?_, fun q hq => hkeeps.folders (hd.keeps.folders hq),
    fun q hq hnew => isAncestor_of_gains hd hkeeps hq (hfolders q hq) hnew⟩
  · rintro rfl
    exact hsaves.of_saved
  · intro hfailed
    obtain ⟨fault, rfl⟩ := Option.ne_none_iff_exists'.1 hfailed
    exact hsaves.of_failed

end Saving

/-- Settings that are to be saved where a folder lies, by way of a folder that is missing: the file
beside it stays as it is, and the missing folder is the only one that is made. -/
theorem save_touches_atFolder :
    let d : Disk := { entries := [(["a"], .folder), (["b"], .file (.text "?"))] }
    let d' := (standard.save d ⟨"n/../a"⟩).1
    (standard.save d ⟨"n/../a"⟩).2 ≠ none ∧ d'.fileAt? ["b"] = some (.text "?") ∧
      d'.isFolderAt ["a"] ∧ d'.isFolderAt ["n"] ∧
      ∃ a : Path, a.IsAncestor ⟨"n/../a"⟩ ∧ d.pathExists a = false ∧ d'.locate a = .ok ["n"] := by
  intro d d'
  have hfailed : (standard.save d ⟨"n/../a"⟩).2 ≠ none := by decide +kernel
  have hmade : d'.isFolderAt ["n"] := by decide +kernel
  obtain ⟨-, hother, hkept, hnew⟩ := save_touches standard [] d ⟨"n/../a"⟩
  exact ⟨hfailed, (hother hfailed).1 ["b"] (by decide +kernel), hkept ["a"] rfl, hmade,
    hnew ["n"] hmade (by decide)⟩

end FolderTasks.Toolchain
