import FolderTasks.Proofs.Package.Effects
import FolderTasks.Proofs.Package.Saving
/-!
# What becomes of a file where the draft is written

The draft of settings is written beside their file, at a path of its own.  A file that lies there is
overwritten, and it is gone once the draft has its place; a draft that cannot be put in place stays.
So settings that were saved at the draft of another path are lost when settings are saved there.

## Main statements

* `Toolchain.save_spares_iff`: when saving leaves alone what lies at the draft, and when settings
  that were saved before are still loaded.
* `Toolchain.not_save_spares`: settings that are lost.
-/

namespace FolderTasks.Toolchain

open Files

section Sparing

variable {a b c : Toolchain} {s t : List (String × String)} {text : String} {d d₁ d₂ : Disk}
  {p q : Path}

/-- Settings are loaded from their text. -/
theorem load_of_find? (hs : s.Perm c.environment.entries)
    (h : d.find? p = some (.file (.text (c.fileTextIn s)))) :
    (load d p).map Prod.fst = .ok c := by
  obtain ⟨hexists, hread⟩ := Disk.read_of_find? h
  rw [load_of_read hexists hread (decode_fileTextIn hs)]
  rfl

theorem load_of_not_pathExists (h : d.pathExists p = false) :
    (load d p).map Prod.fst = .ok standard := by
  rw [load, h]
  rfl

/-- Once a text is saved, its path names the place where it lies. -/
theorem exists_place_of_saved (h : (saveText text d p).2 = none) :
    ∃ q, (saveText text d p).1.place? p = some q ∧ (saveText text d p).1.locate p = .ok q ∧
      (saveText text d p).1.entryAt? q = some (.file (.text text)) := by
  have hsaves := saves_saveText text d p
  generalize saveText text d p = result at hsaves h ⊢
  cases hsaves with
  | refused | stuck => exact absurd h (by simp)
  | placed hd hwrite hrename =>
    obtain ⟨-, q, -, -, hplace, hlocate, hfile, -⟩ := placed_effect hwrite hrename
    exact ⟨q, hplace, hlocate, hfile⟩

/-- **What lies at the draft is left alone** just in these cases: saving succeeds and nothing lay
there; or the draft stays behind and its text lay there before; or nothing is written, and no folder
is made there. -/
theorem draft_stays_iff (text : String) (d : Disk) (p : Path)
    (hother : ¬ (saveText text d p).1.SameFile (draftPath p) p) :
    (saveText text d p).1.find? (draftPath p) = d.find? (draftPath p) ↔
      match (saveText text d p).2 with
      | none => d.find? (draftPath p) = none
      | some (.settings (.notInPlace _ _ _)) => d.find? (draftPath p) = some (.file (.text text))
      | some _ =>
        d.find? (draftPath p) = none → (saveText text d p).1.find? (draftPath p) = none := by
  have hsaves := saves_saveText text d p
  generalize saveText text d p = result at hsaves hother ⊢
  cases hsaves with
  | refused hd hfailure =>
    split
    · next hnone => exact absurd hnone (by simp)
    · next hfault => exact absurd (Option.some.inj hfault) (hfailure _ _ _)
    · refine ⟨fun heq hnone => heq.trans hnone, fun hnone => ?_⟩
      cases hbefore : d.find? (draftPath p) with
      | none => exact hnone hbefore
      | some e => exact hd.find? hbefore
  | stuck hd hwrite hrename =>
    obtain ⟨place, -, -, hlocate, hfile, -⟩ := Disk.write_effect hwrite
    rw [Disk.find?_of_locate hlocate, hfile]
    exact eq_comm
  | placed hd hwrite hrename =>
    have hgone := ((Saves.placed hd hwrite hrename).of_saved).2.1 hother
    rw [Disk.find?_of_not_pathExists hgone]
    exact eq_comm

/-- **Settings saved before are still loaded** after settings are saved at another file, unless this
file's draft is theirs and was written.  Then the new settings are loaded in their stead, or the
defaults when the draft has its place. -/
theorem load_stays_iff (hs : s.Perm a.environment.entries) (ht : t.Perm b.environment.entries)
    (hsaved : (b.saveIn t d q).2 = none)
    (hother : ¬ (a.saveIn s (b.saveIn t d q).1 p).1.SameFile p q) :
    (load (a.saveIn s (b.saveIn t d q).1 p).1 q).map Prod.fst = .ok b ↔
      ((a.saveIn s (b.saveIn t d q).1 p).1.SamePlace (draftPath p) q →
        match (a.saveIn s (b.saveIn t d q).1 p).2 with
        | none => b = standard
        | some (.settings (.notInPlace _ _ _)) => b = a
        | some _ => True) := by
  obtain ⟨place, hplace, hlocate, hfile⟩ := exists_place_of_saved hsaved
  change (b.saveIn t d q).1.place? q = _ at hplace
  change (b.saveIn t d q).1.locate q = _ at hlocate
  change (b.saveIn t d q).1.entryAt? place = _ at hfile
  have hsaves : Saves (a.fileTextIn s) (b.saveIn t d q).1 p (a.saveIn s (b.saveIn t d q).1 p) :=
    saves_saveText _ _ p
  generalize (b.saveIn t d q).1 = d₁ at hplace hlocate hfile hsaves hother ⊢
  generalize a.saveIn s d₁ p = result at hsaves hother ⊢
  -- What is not written over is loaded.
  have hloaded {d₂ : Disk} (hkeeps : d₁.Keeps d₂)
      (hsame : d₂.entryAt? place = some (.file (.text (b.fileTextIn t)))) :
      (load d₂ q).map Prod.fst = .ok b :=
    load_of_find? ht (Disk.find?_of_keeps hkeeps hlocate hsame)
  cases hsaves with
  | @refused d₂ failure hd hfailure =>
    refine iff_of_true (hloaded hd.keeps (hd.entryAt? hfile)) fun _ => ?_
    split
    · next hnone => exact absurd hnone (by simp)
    · next hfault => exact absurd (Option.some.inj hfault) (hfailure _ _ _)
    · trivial
  | @stuck d₂ d₃ fault hd hwrite hrename =>
    obtain ⟨draft, hkeeps, hdraft, -, hdraftFile, hrest⟩ := Disk.write_effect hwrite
    have hkeeps' := hd.keeps.trans hkeeps
    have hplace' := Disk.place?_of_keeps hkeeps' hplace
    by_cases hsame : place = draft
    · subst hsame
      have hnew := load_of_find? hs (Disk.find?_of_keeps hkeeps' hlocate hdraftFile)
      rw [hnew]
      exact ⟨fun heq _ => (Except.ok.inj heq).symm,
        fun heq => congrArg _ (heq ⟨place, hdraft, hplace'⟩).symm⟩
    · refine iff_of_true (hloaded hkeeps' ?_) fun ⟨x, hx, hx'⟩ => absurd ?_ hsame
      · rw [hrest place hsame, hd.entryAt? hfile]
      · exact Option.some.inj (hplace'.symm.trans (hx'.trans (hx.symm.trans hdraft)))
  | @placed d₂ d₃ d₄ hd hwrite hrename =>
    obtain ⟨draft, target, hkeeps, hdraft, -, htarget, htargetFile, hgone, hrest⟩ :=
      placed_effect hwrite hrename
    have hkeeps' := hd.keeps.trans hkeeps
    have hplace' := Disk.place?_of_keeps hkeeps' hplace
    -- The new settings lie elsewhere, for otherwise they would be the same file.
    have hne : place ≠ target := by
      rintro rfl
      exact hother ⟨place, htarget, Disk.locate_forth hkeeps' hlocate fun _ => by
        rw [htargetFile]; rfl⟩
    by_cases hsame : place = draft
    · subst hsame
      rcases hgone with ⟨heq, -⟩ | ⟨hnone, -⟩
      · exact absurd heq hne
      · rw [load_of_not_pathExists (Disk.not_pathExists_of_place? hplace' hnone)]
        exact ⟨fun heq _ => (Except.ok.inj heq).symm,
          fun heq => congrArg _ (heq ⟨place, hdraft, hplace'⟩).symm⟩
    · refine iff_of_true (hloaded hkeeps' ?_) fun ⟨x, hx, hx'⟩ => absurd ?_ hsame
      · rw [hrest place hsame hne, hd.entryAt? hfile]
      · exact Option.some.inj (hplace'.symm.trans (hx'.trans (hx.symm.trans hdraft)))

/-- **When saving leaves other files alone.**  What lies at the draft is left alone just when saving
succeeds and nothing lay there, or the draft stays behind and its text lay there before, or nothing
is written and no folder is made there.  And settings that were saved before at another file are
still loaded, unless their file is where the draft was written and they differ from what it leaves:
the new settings if the draft stays behind, and else the defaults.  The variables may be written in
any order. -/
theorem save_spares_iff (a b : Toolchain) (s t : List (String × String)) (d : Disk) (p q : Path) :
    (¬ (a.saveIn s d p).1.SameFile (draftPath p) p →
      ((a.saveIn s d p).1.find? (draftPath p) = d.find? (draftPath p) ↔
        match (a.saveIn s d p).2 with
        | none => d.find? (draftPath p) = none
        | some (.settings (.notInPlace _ _ _)) =>
          d.find? (draftPath p) = some (.file (.text (a.fileTextIn s)))
        | some _ =>
          d.find? (draftPath p) = none → (a.saveIn s d p).1.find? (draftPath p) = none)) ∧
    let d₁ := (b.saveIn t d q).1
    let d₂ := (a.saveIn s d₁ p).1
    s.Perm a.environment.entries → t.Perm b.environment.entries →
      (b.saveIn t d q).2 = none → ¬ d₂.SameFile p q →
      ((load d₂ q).map Prod.fst = .ok b ↔
        (d₂.SamePlace (draftPath p) q →
          match (a.saveIn s d₁ p).2 with
          | none => b = standard
          | some (.settings (.notInPlace _ _ _)) => b = a
          | some _ => True)) :=
  ⟨draft_stays_iff (a.fileTextIn s) d p, load_stays_iff⟩

end Sparing

/-- Settings of two files side by side, neither of which is the draft of the other: nothing is left
at the draft, and the settings that were saved first are still loaded. -/
theorem save_spares_neighbour :
    let b : Toolchain := { swiftPath := "/b" }
    let d₁ := (b.save {} ⟨"b.json"⟩).1
    let d₂ := (standard.save d₁ ⟨"c.json"⟩).1
    (b.save {} ⟨"b.json"⟩).2 = none ∧ ¬ d₂.SameFile ⟨"c.json"⟩ ⟨"b.json"⟩ ∧
      (load d₂ ⟨"b.json"⟩).map Prod.fst = .ok b ∧
      ¬ d₂.SameFile (draftPath ⟨"c.json"⟩) ⟨"c.json"⟩ ∧
      d₂.find? (draftPath ⟨"c.json"⟩) = d₁.find? (draftPath ⟨"c.json"⟩) := by
  intro b d₁ d₂
  have hsaved : (b.save {} ⟨"b.json"⟩).2 = none := by decide +kernel
  have hb : d₂.locate ⟨"b.json"⟩ = .ok ["b.json"] := by decide +kernel
  have hc : d₂.locate ⟨"c.json"⟩ = .ok ["c.json"] := by decide +kernel
  have hdraft : d₂.locate (draftPath ⟨"c.json"⟩) = .error .notFound := by decide +kernel
  have hother : ¬ d₂.SameFile ⟨"c.json"⟩ ⟨"b.json"⟩ := by
    rintro ⟨q, hq, hq'⟩
    exact absurd (Except.ok.inj ((hc.symm.trans hq).trans (hq'.symm.trans hb))) (by decide)
  have hother' : ¬ d₂.SameFile (draftPath ⟨"c.json"⟩) ⟨"c.json"⟩ := by
    rintro ⟨q, hq, -⟩
    exact absurd (hdraft.symm.trans hq) (by simp)
  have hplaced : (standard.saveIn [] d₁ ⟨"c.json"⟩).2 = none := by decide +kernel
  have hloads := (save_spares_iff standard b [] [] {} ⟨"c.json"⟩ ⟨"b.json"⟩).2 (.refl _) (.refl _)
    hsaved hother
  have hspares := (save_spares_iff standard b [] [] d₁ ⟨"c.json"⟩ ⟨"b.json"⟩).1 hother'
  refine ⟨hsaved, hother, hloads.2 ?_, hother', hspares.2 ?_⟩
  · rintro ⟨q, hq, hq'⟩
    have hplaces : d₂.place? (draftPath ⟨"c.json"⟩) = some ["c.tmp"] ∧
        d₂.place? ⟨"b.json"⟩ = some ["b.json"] := by decide +kernel
    exact absurd (Option.some.inj ((hplaces.1.symm.trans hq).trans (hq'.symm.trans hplaces.2)))
      (by decide)
  · rw [hplaced]
    show d₁.find? (draftPath ⟨"c.json"⟩) = none
    decide +kernel

/-- **Settings that are lost and a draft that is left over.**  Settings saved at the draft of
another file are gone once settings are saved there, and the defaults are loaded; and where a folder
lies at the path, saving fails and leaves its draft. -/
theorem not_save_spares :
    let b : Toolchain := { swiftPath := "/b" }
    let d₁ := (b.save {} ⟨"c.tmp"⟩).1
    let d₂ := (standard.save d₁ ⟨"c.json"⟩).1
    let e : Disk := { entries := [(["d"], .folder)] }
    ((b.save {} ⟨"c.tmp"⟩).2 = none ∧ (standard.save d₁ ⟨"c.json"⟩).2 = none ∧
      draftPath ⟨"c.json"⟩ = ⟨"c.tmp"⟩ ∧ d₂.locate ⟨"c.json"⟩ ≠ d₂.locate ⟨"c.tmp"⟩ ∧
      d₁.find? ⟨"c.tmp"⟩ = some (.file (.text (b.fileTextIn []))) ∧ d₂.find? ⟨"c.tmp"⟩ = none ∧
      (load d₂ ⟨"c.tmp"⟩).map Prod.fst = .ok standard ∧ standard ≠ b) ∧
    ((standard.save e ⟨"d"⟩).2 ≠ none ∧ draftPath ⟨"d"⟩ = ⟨"d.tmp"⟩ ∧
      e.find? ⟨"d.tmp"⟩ = none ∧
      (standard.save e ⟨"d"⟩).1.find? ⟨"d.tmp"⟩ = some (.file (.text (standard.fileTextIn [])))) := by
  decide +kernel

end FolderTasks.Toolchain
