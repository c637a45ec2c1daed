/-!
# Environment variables

A map from names to values, kept in ascending order of names, so two maps with the same entries
are equal however they were built.

## Main definitions

* `Environment`: the map.
* `Environment.insert`: set a variable; the last setting of a name holds.
* `Environment.ofList`: the map of a list of settings.
-/

namespace FolderTasks

/-- Set a variable in an ascending list of entries. -/
def insertEntry (key value : String) : List (String × String) → List (String × String)
  | [] => [(key, value)]
  | (k, v) :: rest =>
    if key < k then (key, value) :: (k, v) :: rest
    else if key = k then (key, value) :: rest
    else (k, v) :: insertEntry key value rest

theorem mem_insertEntry {key value : String} {entries : List (String × String)}
    {e : String × String} (h : e ∈ insertEntry key value entries) :
    e = (key, value) ∨ e ∈ entries := by
  induction entries with
  | nil => simpa [insertEntry] using h
  | cons head rest ih =>
    obtain ⟨k, v⟩ := head
    unfold insertEntry at h
    split at h
    · simpa using h
    · split at h
      · simp only [List.mem_cons] at h ⊢
        rcases h with h | h
        · exact .inl h
        · exact .inr (.inr h)
      · simp only [List.mem_cons] at h ⊢
        rcases h with h | h
        · exact .inr (.inl h)
        · rcases ih h with h | h
          · exact .inl h
          · exact .inr (.inr h)

/-- Ascending names, none twice. -/
def Ascending (entries : List (String × String)) : Prop :=
  entries.Pairwise fun a b => a.1 < b.1

theorem Ascending.insertEntry {entries : List (String × String)} (h : Ascending entries)
    (key value : String) : Ascending (insertEntry key value entries) := by
  induction entries with
  | nil => exact List.pairwise_singleton _ _
  | cons head rest ih =>
    obtain ⟨k, v⟩ := head
    obtain ⟨hk, hrest⟩ := List.pairwise_cons.1 h
    unfold FolderTasks.insertEntry
    split
    · next hlt =>
      refine List.pairwise_cons.2 ⟨fun e he => ?_, h⟩
      rcases List.mem_cons.1 he with rfl | he
      · exact hlt
      · exact String.lt_trans hlt (hk e he)
    · next hnot =>
      split
      · next heq => exact List.pairwise_cons.2 ⟨fun e he => heq ▸ hk e he, hrest⟩
      · next hne =>
        refine List.pairwise_cons.2 ⟨fun e he => ?_, ih hrest⟩
        rcases mem_insertEntry he with rfl | he
        · exact Std.lt_of_le_of_ne hnot fun h => hne h.symm
        · exact hk e he

/-- A map of environment variables, in ascending order of names. -/
structure Environment where
  entries : List (String × String)
  ascending : Ascending entries

namespace Environment

instance : DecidableEq Environment := fun a b =>
  if h : a.entries = b.entries then
    .isTrue (by cases a; cases b; cases h; rfl)
  else .isFalse fun e => h (congrArg entries e)

/-- No variables. -/
def empty : Environment := ⟨[], .nil⟩

instance : Inhabited Environment := ⟨empty⟩

/-- Set a variable. -/
def insert (env : Environment) (key value : String) : Environment :=
  ⟨insertEntry key value env.entries, env.ascending.insertEntry key value⟩

/-- Set several variables, one after the other. -/
def insertAll (env : Environment) (settings : List (String × String)) : Environment :=
  settings.foldl (fun e kv => e.insert kv.1 kv.2) env

/-- The map of a list of settings. -/
def ofList (settings : List (String × String)) : Environment := empty.insertAll settings

/-- The value of a variable. -/
def get? (env : Environment) (key : String) : Option String := env.entries.lookup key

/-- The number of variables. -/
def size (env : Environment) : Nat := env.entries.length

end Environment

end FolderTasks
