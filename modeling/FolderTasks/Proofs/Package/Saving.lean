import FolderTasks.Package.Storage
import FolderTasks.Proofs.Files.Placing
import FolderTasks.Proofs.Wire.RoundTrip
/-!
# Settings that were saved are loaded again

Once settings are saved, loading from the same path gives them back, whatever was on the disk before,
however the path is spelled, and in whatever order the variables are written.  The draft may be the
file itself, which is so for a path that already ends in the extension of drafts.

## Main statements

* `Toolchain.decode_fileTextIn`: the text of settings stands for them.
* `Toolchain.writeText_eq_none`: what it takes to write a text.
* `Toolchain.load_save`: settings that were saved are loaded again.
-/

namespace FolderTasks.Toolchain

open Files

section Saving

variable {c : Toolchain} {settings : List (String × String)} {text : String} {d : Disk} {p : Path}

/-- The text of settings stands for them, in whatever order the variables are written. -/
theorem decode_fileTextIn (h : settings.Perm c.environment.entries) :
    Json.decodeString decode (c.fileTextIn settings) = .ok c :=
  (c.readsBack_toJsonIn h).indented

/-- A text is written when the draft is, and when it is then put in place. -/
theorem writeText_eq_none (h : (writeText text d p).2 = none) :
    ∃ d₁, d.write (draftPath p) (.text text) = .ok d₁ ∧
      d₁.rename (draftPath p) p = .ok (writeText text d p).1 := by
  unfold writeText at h ⊢
  cases hwrite : d.write (draftPath p) (.text text) with
  | error fault => exact absurd h (by simp [hwrite])
  | ok d₁ =>
    simp only [hwrite] at h ⊢
    cases hrename : d₁.rename (draftPath p) p with
    | error fault => exact absurd h (by simp [hrename])
    | ok d₂ => exact ⟨d₁, rfl, hrename⟩

/-- A text is saved when it is written on a disk that has the folder. -/
theorem saveText_eq_none (h : (saveText text d p).2 = none) :
    ∃ d₁, (writeText text d₁ p).2 = none ∧ (saveText text d p).1 = (writeText text d₁ p).1 := by
  unfold saveText at h ⊢
  cases hparent : p.parent? with
  | none =>
    simp only [hparent] at h
    exact ⟨d, h, rfl⟩
  | some folder =>
    rcases hmade : d.makeFolders folder with ⟨d₁, _ | fault⟩
    · simp only [hparent, hmade] at h
      exact ⟨d₁, h, by simp only [hmade]⟩
    · exact absurd h (by simp [hparent, hmade])

/-- A file is loaded as what its text stands for. -/
theorem load_of_read (hp : d.pathExists p) (hread : d.read p = .ok text)
    (htext : Json.decodeString decode text = .ok c) :
    load d p = .ok (c, [⟨.debug, .config, "Config loaded",
      [("path", p.text), ("swift", c.swiftPath)]⟩]) := by
  simp [load, hp, hread, htext]

/-- **Settings that were saved are loaded again**, from any disk and at any path, in whatever order
their variables were written. -/
theorem load_save (hsettings : settings.Perm c.environment.entries)
    (h : (c.saveIn settings d p).2 = none) :
    (load (c.saveIn settings d p).1 p).map Prod.fst = .ok c := by
  obtain ⟨d₁, hwritten, hsaved⟩ := saveText_eq_none h
  obtain ⟨d₂, hdraft, hplaced⟩ := writeText_eq_none hwritten
  obtain ⟨hexists, hread⟩ := Disk.read_of_replaced hdraft hplaced
  rw [saveIn, hsaved, load_of_read hexists hread (decode_fileTextIn hsettings)]
  rfl

end Saving

/-- A path that is its own draft, through a folder that is missing and back, where a file lies that
is no text.  The variables are not written in the order of their names. -/
theorem load_save_ownDraft :
    let c : Toolchain :=
      { swiftPath := "\"", environment := .ofList [("B", "\n"), ("A", "1")], showStatus := false }
    let settings := [("B", "\n"), ("A", "1")]
    let d : Disk := { entries := [(["b"], .folder), (["b", "c.tmp"], .file (.bytes [255]))] }
    settings.Perm c.environment.entries ∧ settings ≠ c.environment.entries ∧
      (c.saveIn settings d ⟨"a/.././b//c.tmp"⟩).2 = none ∧
      (load (c.saveIn settings d ⟨"a/.././b//c.tmp"⟩).1 ⟨"a/.././b//c.tmp"⟩).map Prod.fst =
        .ok c := by
  intro c settings d
  have hsettings : settings.Perm c.environment.entries := by decide
  have hsaved : (c.saveIn settings d ⟨"a/.././b//c.tmp"⟩).2 = none := by decide +kernel
  exact ⟨hsettings, by decide, hsaved, load_save hsettings hsaved⟩

end FolderTasks.Toolchain
