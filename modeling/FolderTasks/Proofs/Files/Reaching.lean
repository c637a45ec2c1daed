import FolderTasks.Files.Disk
import FolderTasks.Proofs.Failing
import Mathlib.Data.List.DropRight
import Mathlib.Tactic.SplitIfs
/-!
# What a path leads to

A path names a place, whether or not something lies there, and it leads to what lies at this place.
Both are settled by the folders that the path passes, so they stay as long as these folders do.

## Main definitions

* `Disk.Keeps`: every folder of a disk is one of another disk as well.
* `Disk.place?`: the place that a path names.
* `Disk.find?`: what a path leads to.
* `Disk.fileAt?`: the file at a place.
* `Disk.SameFile`, `Disk.SamePlace`: two paths that lead to the same thing, or name the same place.

## Main statements

* `Disk.target_of_keeps`: a path names the place that it named while the folders stay.
* `Disk.locate_forth`: and it leads where it led.
* `Disk.locate_eq_of_target`: what a path leads to is found behind the folder that it passes last.

## Design notes

The disk may be any list of entries; nothing here asks that the folders above an entry are there.  A
path may name a place to which it does not lead: nothing lies there, or there is a slash behind the
name of a file.
-/

namespace FolderTasks.Files.Disk

/-- **Every folder stays**, and so does the working folder. -/
structure Keeps (d d' : Disk) : Prop where
  here : d'.here = d.here
  folders : ∀ {p : Place}, d.isFolderAt p → d'.isFolderAt p

/-- **The place that a path names**, whether or not something lies there. -/
def place? (d : Disk) (p : Path) : Option Place :=
  match d.target p with
  | .ok (parent, .name s _) => some (parent ++ [s])
  | _ => none

/-- **What a path leads to**, if it leads to anything. -/
def find? (d : Disk) (p : Path) : Option Entry := (d.locate p).toOption.bind d.entryAt?

/-- The file at a place, if there is one. -/
def fileAt? (d : Disk) (q : Place) : Option Content :=
  match d.entryAt? q with
  | some (.file content) => some content
  | _ => none

/-- **Two paths that lead to the same thing.** -/
def SameFile (d : Disk) (p p' : Path) : Prop := ∃ q, d.locate p = .ok q ∧ d.locate p' = .ok q

/-- **Two paths that name the same place**, whether or not something lies there. -/
def SamePlace (d : Disk) (p p' : Path) : Prop := ∃ q, d.place? p = some q ∧ d.place? p' = some q

section Reaching

variable {d d' d'' : Disk} {p q parent : Place} {path : Path} {segments rest : List String}
  {s : String} {last : Last} {e : Entry} {hasSlash : Bool}

/-! ## Folders that stay -/

namespace Keeps

theorem refl (d : Disk) : d.Keeps d := ⟨rfl, id⟩

theorem trans (h : d.Keeps d') (h' : d'.Keeps d'') : d.Keeps d'' :=
  ⟨h'.here.trans h.here, fun hp => h'.folders (h.folders hp)⟩

end Keeps

theorem isFolderAt_iff : d.isFolderAt p ↔ d.entryAt? p = some .folder := beq_iff_eq

/-- The root is always a folder, so what is no folder lies at a place of its own. -/
theorem ne_nil_of_not_isFolderAt (h : d.isFolderAt p = false) : p ≠ [] := by
  rintro rfl
  exact Bool.noConfusion h

/-- Putting something at a place that is no folder leaves all folders. -/
theorem keeps_put (e : Entry) (h : d.isFolderAt p = false) : d.Keeps (d.put p e) where
  here := rfl
  folders {q} hq := by
    have hne : q ≠ p := fun heq => by simp [heq, h] at hq
    rw [isFolderAt_iff] at hq ⊢
    rw [entryAt?_put (ne_nil_of_not_isFolderAt h), if_neg hne, hq]

theorem keeps_erase (h : d.isFolderAt p = false) : d.Keeps (d.erase p) where
  here := rfl
  folders {q} hq := by
    have hne : q ≠ p := fun heq => by simp [heq, h] at hq
    rw [isFolderAt_iff] at hq ⊢
    rw [entryAt?_erase hne, hq]

/-! ## Following a path -/

theorem walk_append (d : Disk) (p : Place) (segments rest : List String) :
    d.walk p (segments ++ rest) = (d.walk p segments).bind fun q => d.walk q rest := by
  induction segments generalizing p with
  | nil => rfl
  | cons s segments ih =>
    rw [List.cons_append, walk, walk]
    split_ifs
    · rfl
    · exact ih p
    · exact ih p.dropLast
    · rfl
    · split
      · exact ih (p ++ [s])
      · rfl

/-- A walk that goes on begins in a folder. -/
theorem isFolderAt_of_walk_cons (h : d.walk p (s :: segments) = .ok q) : d.isFolderAt p := by
  rw [walk] at h
  split_ifs at h with hp
  all_goals simpa using hp

/-- **A walk goes the same way** as long as all folders stay, and what lies at its end: whatever
else it passes is a folder. -/
theorem walk_forth (hd : d.Keeps d') (h : d.walk p segments = .ok q)
    (hend : (d.entryAt? q).isSome → (d'.entryAt? q).isSome) : d'.walk p segments = .ok q := by
  induction segments generalizing p with
  | nil => exact h
  | cons s segments ih =>
    have hp := isFolderAt_of_walk_cons h
    rw [walk] at h ⊢
    simp only [hp, hd.folders hp, Bool.not_true, Bool.false_eq_true, if_false] at h ⊢
    split_ifs at h ⊢
    · exact ih h
    · exact ih h
    · cases he : d.entryAt? (p ++ [s]) with
      | none => exact absurd h (by simp [he])
      | some e =>
        rw [he] at h
        -- Only the last step may lead to anything but a folder.
        obtain ⟨e', he'⟩ : ∃ e', d'.entryAt? (p ++ [s]) = some e' := by
          cases segments with
          | nil =>
            obtain rfl : p ++ [s] = q := Except.ok.inj h
            exact Option.isSome_iff_exists.1 (hend (by rw [he]; rfl))
          | cons s' segments =>
            exact ⟨_, isFolderAt_iff.1 (hd.folders (isFolderAt_of_walk_cons h))⟩
        rw [he']
        exact ih h

/-- A walk to a folder goes the same way as long as all folders stay. -/
theorem walk_of_keeps (hd : d.Keeps d') (h : d.walk p segments = .ok q) (hq : d.isFolderAt q) :
    d'.walk p segments = .ok q :=
  walk_forth hd h fun _ => by rw [isFolderAt_iff.1 (hd.folders hq)]; rfl

/-- Slashes behind a folder stay there. -/
theorem walk_replicate (hp : d.isFolderAt p) (n : Nat) :
    d.walk p (List.replicate n "") = .ok p := by
  induction n with
  | zero => rfl
  | succ n ih => simp [List.replicate_succ, walk, hp, ih]

theorem route_of_keeps (hd : d.Keeps d') (path : Path) : d'.route path = d.route path := by
  rw [route, route, hd.here]

/-- **A path leads where it led** as long as all folders stay, and what lies there. -/
theorem locate_forth (hd : d.Keeps d') (h : d.locate path = .ok q)
    (hend : (d.entryAt? q).isSome → (d'.entryAt? q).isSome) : d'.locate path = .ok q := by
  obtain ⟨⟨start, segments⟩, hroute, hwalk⟩ := bind_eq_ok_iff.1 h
  rw [locate, route_of_keeps hd, hroute]
  exact walk_forth hd hwalk hend

/-! ## The last segment -/

/-- A last segment that is a name has only empty segments behind it, and none if there is no
slash. -/
theorem splitLast_eq_name (h : splitLast segments = (rest, .name s hasSlash)) :
    ∃ n, segments = rest ++ s :: List.replicate n "" ∧ (hasSlash = false → n = 0) ∧
      s ≠ "" ∧ s ≠ "." ∧ s ≠ ".." := by
  have hall := List.rdropWhile_append_rtakeWhile (l := segments) (p := (· == ""))
  obtain ⟨n, hn⟩ : ∃ n, segments.rtakeWhile (· == "") = List.replicate n "" :=
    ⟨_, List.eq_replicate_of_mem fun segment hmem => by simpa using List.mem_rtakeWhile_imp hmem⟩
  rw [hn] at hall
  unfold splitLast at h
  dsimp only at h
  rw [show (segments.reverse.dropWhile (· == "")).reverse = segments.rdropWhile (· == "") from rfl]
    at h
  generalize hkept : segments.rdropWhile (· == "") = kept at h hall
  split at h
  · exact absurd (Prod.mk.inj h).2 (by simp)
  · next s' hlast =>
    split_ifs at h with hspecial
    · exact absurd (Prod.mk.inj h).2 (by simp)
    · obtain ⟨rfl, hname⟩ := Prod.mk.inj h
      obtain ⟨rfl, hslash⟩ := Last.name.inj hname
      obtain ⟨hdot, hup⟩ : s' ≠ "." ∧ s' ≠ ".." := by simpa using hspecial
      obtain ⟨before, rfl⟩ := List.getLast?_eq_some_iff.1 hlast
      rw [List.append_assoc, List.singleton_append] at hall
      refine ⟨n, ?_, ?_, ?_, hdot, hup⟩
      · rw [List.dropLast_concat, hall]
      · rintro rfl
        have hlength : segments.length ≤ (before ++ [s']).length := by simpa using hslash
        rw [← hall] at hlength
        simp only [List.length_append, List.length_cons, List.length_replicate,
          List.length_nil] at hlength
        omega
      · rintro rfl
        have hnot := List.rdropWhile_last_not (· == "") segments (by simp [hkept])
        simp [hkept] at hnot

theorem target_eq_ok (h : d.target path = .ok (parent, last)) :
    ∃ start segments before, d.route path = .ok (start, segments) ∧
      splitLast segments = (before, last) ∧ d.walk start before = .ok parent ∧
      d.isFolderAt parent := by
  obtain ⟨⟨start, segments⟩, hroute, h⟩ := bind_eq_ok_iff.1 h
  obtain ⟨place, hwalk, h⟩ := bind_eq_ok_iff.1 h
  split_ifs at h with hfolder
  obtain ⟨rfl, rfl⟩ := Prod.mk.inj (Except.ok.inj h)
  exact ⟨start, segments, _, hroute, rfl, hwalk, hfolder⟩

/-- **A path has the same target** as long as all folders stay. -/
theorem target_of_keeps (hd : d.Keeps d') (h : d.target path = .ok (parent, last)) :
    d'.target path = .ok (parent, last) := by
  obtain ⟨start, segments, before, hroute, hsplit, hwalk, hfolder⟩ := target_eq_ok h
  simp [target, route_of_keeps hd, hroute, hsplit, walk_of_keeps hd hwalk hfolder,
    hd.folders hfolder, bind, Except.bind, pure, Except.pure]

/-- **What a path leads to is found behind the folder that it passes last.** -/
theorem locate_eq_of_target (h : d.target path = .ok (parent, .name s hasSlash)) :
    ∃ n, (hasSlash = false → n = 0) ∧ d.isFolderAt parent ∧ (s ≠ "" ∧ s ≠ "." ∧ s ≠ "..") ∧
      d.locate path = d.walk parent (s :: List.replicate n "") := by
  obtain ⟨start, segments, before, hroute, hsplit, hwalk, hfolder⟩ := target_eq_ok h
  obtain ⟨n, rfl, hn, hname⟩ := splitLast_eq_name hsplit
  refine ⟨n, hn, hfolder, hname, ?_⟩
  rw [locate, hroute]
  change d.walk start _ = _
  rw [walk_append, hwalk]
  rfl

/-- A path without a slash at its end leads to what lies at its target. -/
theorem locate_of_target (h : d.target path = .ok (parent, .name s false))
    (hlong : isTooLong s = false) (he : d.entryAt? (parent ++ [s]) = some e) :
    d.locate path = .ok (parent ++ [s]) := by
  obtain ⟨n, hn, hparent, hname, hlocate⟩ := locate_eq_of_target h
  rw [hlocate, hn rfl]
  simp [walk, hparent, hname, hlong, he]

/-- A path leads to the folder at its target. -/
theorem locate_of_target_folder (h : d.target path = .ok (parent, .name s hasSlash))
    (hlong : isTooLong s = false) (hfolder : d.isFolderAt (parent ++ [s])) :
    d.locate path = .ok (parent ++ [s]) := by
  obtain ⟨n, -, hparent, hname, hlocate⟩ := locate_eq_of_target h
  rw [hlocate]
  simp [walk, hparent, hname, hlong, isFolderAt_iff.1 hfolder, walk_replicate hfolder]

/-- A path leads nowhere when nothing lies at its target. -/
theorem not_pathExists_of_target (h : d.target path = .ok (parent, .name s hasSlash))
    (hnone : d.entryAt? (parent ++ [s]) = none) : d.pathExists path = false := by
  obtain ⟨n, -, hparent, hname, hlocate⟩ := locate_eq_of_target h
  rw [pathExists, hlocate]
  cases hlong : isTooLong s <;>
    simp [walk, hparent, hname, hlong, hnone, Except.toOption]

/-! ## The place that a path names -/

theorem place?_of_target (h : d.target path = .ok (parent, .name s hasSlash)) :
    d.place? path = some (parent ++ [s]) := by
  rw [place?, h]

theorem place?_eq_some (h : d.place? path = some q) :
    ∃ parent s hasSlash, d.target path = .ok (parent, .name s hasSlash) ∧ q = parent ++ [s] := by
  unfold place? at h
  split at h
  · next parent s hasSlash htarget => exact ⟨parent, s, hasSlash, htarget, (Option.some.inj h).symm⟩
  · exact absurd h (by simp)

theorem place?_of_keeps (hd : d.Keeps d') (h : d.place? path = some q) :
    d'.place? path = some q := by
  obtain ⟨parent, s, hasSlash, htarget, rfl⟩ := place?_eq_some h
  exact place?_of_target (target_of_keeps hd htarget)

theorem not_pathExists_of_place? (h : d.place? path = some q) (hnone : d.entryAt? q = none) :
    d.pathExists path = false := by
  obtain ⟨parent, s, hasSlash, htarget, rfl⟩ := place?_eq_some h
  exact not_pathExists_of_target htarget hnone

/-! ## What lies there -/

/-- The same things lie at a place, so the same file does. -/
theorem fileAt?_congr (h : d'.entryAt? q = d.entryAt? q) : d'.fileAt? q = d.fileAt? q := by
  rw [fileAt?, fileAt?, h]

theorem find?_of_locate (h : d.locate path = .ok q) : d.find? path = d.entryAt? q := by
  rw [find?, h]
  rfl

theorem find?_eq_some_iff :
    d.find? path = some e ↔ ∃ q, d.locate path = .ok q ∧ d.entryAt? q = some e := by
  cases h : d.locate path with
  | error fault => simp [find?, h, Except.toOption]
  | ok q => simp [find?_of_locate h]

theorem find?_of_not_pathExists (h : d.pathExists path = false) : d.find? path = none := by
  have hnone : (d.locate path).toOption = none := by simpa [pathExists] using h
  rw [find?, hnone]
  rfl

/-- A path leads to what it led to as long as this is still there, and all folders are. -/
theorem find?_of_keeps (hd : d.Keeps d') (h : d.locate path = .ok q)
    (he : d'.entryAt? q = some e) : d'.find? path = some e := by
  rw [find?_of_locate (locate_forth hd h fun _ => by rw [he]; rfl), he]

/-- The text that a path leads to is read there. -/
theorem read_of_find? {text : String} (h : d.find? path = some (.file (.text text))) :
    d.pathExists path ∧ d.read path = .ok text := by
  obtain ⟨q, hlocate, he⟩ := find?_eq_some_iff.1 h
  constructor
  · simp [pathExists, hlocate, Except.toOption]
  · simp [read, hlocate, he, bind, Except.bind]

end Reaching

end FolderTasks.Files.Disk
