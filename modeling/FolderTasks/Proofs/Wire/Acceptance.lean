import FolderTasks.Proofs.Json.Exactness
import FolderTasks.Proofs.Wire.RoundTrip
/-!
# Which objects are toolchains and commands

A toolchain and a command are records with declared types of fields.  They are decoded from just the
objects that they should be: all fields of a toolchain may be left out, and all of a command but its
program.  A variable that is set more than once has the value that it is set to last.

## Main definitions

* `Toolchain.fields`, `Command.fields`: the declared fields with their types.
* `Toolchain.IsMadeOf`, `Command.IsMadeOf`: the values that members give, and the defaults.

## Main statements

* `Environment.get?_ofList`: the last setting of a name holds.
* `acceptsExactly`: toolchains and commands are decoded exactly.
-/

namespace FolderTasks

open Json

/-! ## Settings of variables -/

theorem lookup_insertEntry (key value name : String) (entries : List (String × String)) :
    (insertEntry key value entries).lookup name =
      if name = key then some value else entries.lookup name := by
  induction entries with
  | nil => exact lookup_cons_ite key name value []
  | cons head rest ih =>
    obtain ⟨k, v⟩ := head
    unfold insertEntry
    split
    · exact lookup_cons_ite key name value _
    · split
      · next heq =>
        subst heq
        simp only [lookup_cons_ite]
        split <;> rfl
      · next hne =>
        simp only [lookup_cons_ite, ih]
        by_cases h : name = k
        · subst h
          rw [if_pos rfl, if_neg (Ne.symm hne), if_pos rfl]
        · rw [if_neg h, if_neg h]

namespace Environment

/-- The last setting of a name holds. -/
theorem get?_insertAll (settings : List (String × String)) (env : Environment) (name : String) :
    (env.insertAll settings).get? name = (settings.reverse.lookup name).or (env.get? name) := by
  induction settings generalizing env with
  | nil => rfl
  | cons s settings ih =>
    have hinsert : (env.insert s.1 s.2).get? name = ([s].lookup name).or (env.get? name) := by
      rw [get?, insert, lookup_insertEntry, lookup_cons_ite]
      split <;> rfl
    have hstep := ih (env.insert s.1 s.2)
    rw [hinsert, ← Option.or_assoc, ← List.lookup_append, ← List.reverse_cons] at hstep
    exact hstep

theorem get?_ofList (settings : List (String × String)) (name : String) :
    (ofList settings).get? name = settings.reverse.lookup name := by
  rw [ofList, get?_insertAll]
  exact Option.or_none

theorem lookup_eq_some_iff_mem {l : List (String × String)} (h : (l.map Prod.fst).Nodup)
    {name value : String} : l.lookup name = some value ↔ (name, value) ∈ l := by
  induction l with
  | nil => simp
  | cons s l ih =>
    obtain ⟨k, v⟩ := s
    rw [List.map_cons, List.nodup_cons] at h
    rw [lookup_cons_ite, List.mem_cons, Prod.mk.injEq]
    by_cases heq : name = k
    · subst heq
      have habsent : (name, value) ∉ l := fun hmem => h.1 (List.mem_map.2 ⟨_, hmem, rfl⟩)
      simp [habsent, eq_comm]
    · simp [heq, ih h.2]

/-- An environment is known by the values of its variables. -/
theorem ext_get? {env env' : Environment} (h : ∀ name, env.get? name = env'.get? name) :
    env = env' := by
  have hperm : env.entries.Perm env'.entries := by
    apply (List.perm_ext_iff_of_nodup env.nodup_names.of_map env'.nodup_names.of_map).2
    rintro ⟨name, value⟩
    rw [← lookup_eq_some_iff_mem env.nodup_names, ← lookup_eq_some_iff_mem env'.nodup_names]
    exact iff_of_eq (congrArg (· = some value) (h name))
  have hentries : env.entries = env'.entries :=
    List.Perm.eq_of_pairwise (fun a b _ _ hab hba => absurd hba (String.lt_asymm hab))
      env.ascending env'.ascending hperm
  cases env
  cases env'
  simpa only [mk.injEq] using hentries

end Environment

/-- **An environment in JSON**: the last of several members of one name holds. -/
def Environment.IsDenoted (t : Tree) (env : Environment) : Prop :=
  ∃ settings, DenotesSettings t settings ∧ ∀ name, env.get? name = settings.reverse.lookup name

/-- A path in JSON. -/
def Path.IsDenoted (t : Tree) (p : Path) : Prop := DenotesText t p.text

theorem Environment.IsDenoted.unique {t : Tree} {env env' : Environment}
    (h : Environment.IsDenoted t env) (h' : Environment.IsDenoted t env') : env = env' := by
  obtain ⟨settings, hsettings, hget⟩ := h
  obtain ⟨settings', hsettings', hget'⟩ := h'
  obtain rfl := hsettings.unique hsettings'
  exact ext_get? fun name => (hget name).trans (hget' name).symm

theorem Path.IsDenoted.unique {t : Tree} {p p' : Path} (h : Path.IsDenoted t p)
    (h' : Path.IsDenoted t p') : p = p' := by
  cases p
  cases p'
  exact congrArg Path.mk (DenotesText.unique h h')

theorem Environment.judges : Judges Environment.decode .settings Environment.IsDenoted :=
  judges_settings.map ofList fun _ settings h => ⟨settings, h, get?_ofList settings⟩

theorem Path.judges : Judges Path.decode (.text "path string") Path.IsDenoted :=
  (judges_text "path string").map Path.mk fun _ _ h => h

/-! ## Toolchains -/

namespace Toolchain

/-- The fields of a toolchain. -/
def fields : List (String × Kind) :=
  [("swiftPath", .text "a string"), ("buildArguments", .texts), ("environment", .settings),
    ("showStatus", .flag), ("logOperations", .flag)]

/-- **The toolchain that members give.** -/
structure IsMadeOf (c : Toolchain) (members : List (String × Tree)) : Prop where
  swiftPath : Gives members "swiftPath" DenotesText "swift" c.swiftPath
  buildArguments : Gives members "buildArguments" DenotesTexts [] c.buildArguments
  environment : Gives members "environment" Environment.IsDenoted .empty c.environment
  showStatus : Gives members "showStatus" DenotesFlag true c.showStatus
  logOperations : Gives members "logOperations" DenotesFlag true c.logOperations

/-- The fields of a toolchain, kept apart. -/
def slots : List (Slot Part) := [
  .ofKind "swiftPath" (.text "a string") decodeText Part.swiftPath fun p a =>
    { p with swiftPath := some a },
  .ofKind "buildArguments" .texts (decodeList decodeText) Part.buildArguments fun p a =>
    { p with buildArguments := some a },
  .ofKind "environment" .settings Environment.decode Part.environment fun p a =>
    { p with environment := some a },
  .ofKind "showStatus" .flag decodeFlag Part.showStatus fun p a =>
    { p with showStatus := some a },
  .ofKind "logOperations" .flag decodeFlag Part.logOperations fun p a =>
    { p with logOperations := some a }]

theorem isSlotted : shape.IsSlotted slots where
  fields := rfl
  names := by decide
  wrong := by
    simp only [slots, List.forall_mem_cons]
    exact ⟨(judges_text _).error_iff, judges_texts.error_iff, Environment.judges.error_iff,
      judges_flag.error_iff, judges_flag.error_iff, List.forall_mem_nil _⟩
  blank := by
    simp only [slots, List.forall_mem_cons]
    exact ⟨rfl, rfl, rfl, rfl, rfl, List.forall_mem_nil _⟩
  get_set := by simp [slots, Slot.ofKind]
  get_set_of_ne := by simp [slots, Slot.ofKind]

/-- Every field has a default, so a toolchain is made of whatever is accepted. -/
theorem finishes : shape.Finishes slots fields [] IsMadeOf where
  slots_eq := rfl
  declared := List.forall_mem_nil _
  finish {part members} hmembers hholds := by
    simp only [slots, List.forall_mem_cons] at hholds
    obtain ⟨hpath, harguments, henvironment, hstatus, hlog, -⟩ := hholds
    refine .inl ⟨_, rfl, ?_, List.forall_mem_nil _⟩
    exact {
      swiftPath := hpath.gives hmembers (judges_text _) "swift"
      buildArguments := harguments.gives hmembers judges_texts []
      environment := henvironment.gives hmembers Environment.judges .empty
      showStatus := hstatus.gives hmembers judges_flag true
      logOperations := hlog.gives hmembers judges_flag true }
  congr h hiff := {
    swiftPath := h.swiftPath.congr (hiff _ rfl)
    buildArguments := h.buildArguments.congr (hiff _ rfl)
    environment := h.environment.congr (hiff _ rfl)
    showStatus := h.showStatus.congr (hiff _ rfl)
    logOperations := h.logOperations.congr (hiff _ rfl) }
  unique {c c' members} h h' := by
    cases c
    cases c'
    rw [mk.injEq]
    exact ⟨h.swiftPath.unique h'.swiftPath fun _ _ _ => DenotesText.unique,
      h.buildArguments.unique h'.buildArguments fun _ _ _ => DenotesTexts.unique,
      h.environment.unique h'.environment fun _ _ _ => Environment.IsDenoted.unique,
      h.showStatus.unique h'.showStatus fun _ _ _ => DenotesFlag.unique,
      h.logOperations.unique h'.logOperations fun _ _ _ => DenotesFlag.unique⟩

end Toolchain

/-! ## Commands -/

namespace Command

/-- The fields of a command. -/
def fields : List (String × Kind) :=
  [("program", .text "a string"), ("args", .texts), ("cwd", .optionalText "path string"),
    ("env", .settings), ("scope", .optionalText "a string")]

/-- **The command that members give.** -/
structure IsMadeOf (c : Command) (members : List (String × Tree)) : Prop where
  isGiven : "program" ∈ members.map Prod.fst
  program : ∀ t, ("program", t) ∈ members → DenotesText t c.program
  args : Gives members "args" DenotesTexts [] c.args
  cwd : Gives members "cwd" (DenotesOption Path.IsDenoted) none c.cwd
  env : Gives members "env" Environment.IsDenoted .empty c.env
  scope : Gives members "scope" (DenotesOption DenotesText) none c.scope

/-- The fields of a command, kept apart. -/
def slots : List (Slot Part) := [
  .ofKind "program" (.text "a string") decodeText Part.program fun p a =>
    { p with program := some a },
  .ofKind "args" .texts (decodeList decodeText) Part.args fun p a => { p with args := some a },
  .ofKind "cwd" (.optionalText "path string") (decodeOption Path.decode) Part.cwd fun p a =>
    { p with cwd := some a },
  .ofKind "env" .settings Environment.decode Part.env fun p a => { p with env := some a },
  .ofKind "scope" (.optionalText "a string") (decodeOption decodeText) Part.scope fun p a =>
    { p with scope := some a }]

theorem judges_cwd : Judges (decodeOption Path.decode) (.optionalText "path string")
    (DenotesOption Path.IsDenoted) := Path.judges.option

theorem judges_scope : Judges (decodeOption decodeText) (.optionalText "a string")
    (DenotesOption DenotesText) := (judges_text "a string").option

theorem isSlotted : shape.IsSlotted slots where
  fields := rfl
  names := by decide
  wrong := by
    simp only [slots, List.forall_mem_cons]
    exact ⟨(judges_text _).error_iff, judges_texts.error_iff, judges_cwd.error_iff,
      Environment.judges.error_iff, judges_scope.error_iff, List.forall_mem_nil _⟩
  blank := by
    simp only [slots, List.forall_mem_cons]
    exact ⟨rfl, rfl, rfl, rfl, rfl, List.forall_mem_nil _⟩
  get_set := by simp [slots, Slot.ofKind]
  get_set_of_ne := by simp [slots, Slot.ofKind]

/-- Every field of a command has a default but its program. -/
theorem finishes : shape.Finishes slots fields ["program"] IsMadeOf where
  slots_eq := rfl
  declared := List.forall_mem_singleton.2 rfl
  finish {part members} hmembers hholds := by
    simp only [slots, List.forall_mem_cons] at hholds
    obtain ⟨hprogram, hargs, hcwd, henv, hscope, -⟩ := hholds
    by_cases hgiven : "program" ∈ members.map Prod.fst
    · obtain ⟨⟨name, t⟩, ht, hname⟩ := List.mem_map.1 hgiven
      obtain rfl : name = "program" := hname
      obtain ⟨program, -, hget⟩ := hprogram.present t ht
      have hfinish : shape.finish part = .ok
          { program, args := part.args.getD [], cwd := part.cwd.getD none
            env := part.env.getD .empty, scope := part.scope.getD none } := by
        have hpart : part.program = some program := hget
        simp only [shape, hpart]
      refine .inl ⟨_, hfinish, ?_, List.forall_mem_singleton.2 hgiven⟩
      exact {
        isGiven := hgiven
        program := fun t' ht' => by
          obtain ⟨program', hdecode, hget'⟩ := hprogram.present t' ht'
          obtain rfl : program = program' := Option.some.inj (hget.symm.trans hget')
          exact denotesText_of_ok hdecode
        args := hargs.gives hmembers judges_texts []
        cwd := hcwd.gives hmembers judges_cwd none
        env := henv.gives hmembers Environment.judges .empty
        scope := hscope.gives hmembers judges_scope none }
    · have hpart : part.program = none := hprogram.absent hgiven
      refine .inr ⟨"program", List.mem_singleton.2 rfl, hgiven, ?_⟩
      simp only [shape, hpart]
  congr {c members members'} h hiff := {
    isGiven := by
      obtain ⟨⟨name, t⟩, ht, hname⟩ := List.mem_map.1 h.isGiven
      obtain rfl : name = "program" := hname
      exact List.mem_map.2 ⟨_, (hiff _ rfl t).1 ht, rfl⟩
    program := fun t ht => h.program t ((hiff _ rfl t).2 ht)
    args := h.args.congr (hiff _ rfl)
    cwd := h.cwd.congr (hiff _ rfl)
    env := h.env.congr (hiff _ rfl)
    scope := h.scope.congr (hiff _ rfl) }
  unique {c c' members} h h' := by
    obtain ⟨⟨name, t⟩, ht, hname⟩ := List.mem_map.1 h.isGiven
    obtain rfl : name = "program" := hname
    cases c
    cases c'
    rw [mk.injEq]
    have hpath (p : Path) : ¬ Path.IsDenoted .null p := by
      simp [Path.IsDenoted, DenotesText, textTree]
    have htext (s : String) : ¬ DenotesText .null s := by simp [DenotesText, textTree]
    exact ⟨(h.program t ht).unique (h'.program t ht),
      h.args.unique h'.args fun _ _ _ => DenotesTexts.unique,
      h.cwd.unique h'.cwd fun _ _ _ hp hp' => hp.unique hp' hpath fun _ _ => Path.IsDenoted.unique,
      h.env.unique h'.env fun _ _ _ => Environment.IsDenoted.unique,
      h.scope.unique h'.scope fun _ _ _ hs hs' => hs.unique hs' htext fun _ _ => DenotesText.unique⟩

end Command

/-- **Toolchains and commands are decoded exactly.**  Of every text that holds an object whose keys
unescape to texts, whatever the values of its members are and in whatever order, a toolchain or a
command is decoded if and only if no field is given twice, every one that is given has a value of its
type and the program of a command is given.  What is decoded is what the members give, and otherwise
the first offence in text order is reported, or the program that is missing. -/
theorem acceptsExactly :
    DecodesExactly Toolchain.decode Toolchain.fields [] Toolchain.IsMadeOf ∧
    DecodesExactly Command.decode Command.fields ["program"] Command.IsMadeOf :=
  ⟨Toolchain.isSlotted.decodesExactly Toolchain.finishes,
    Command.isSlotted.decodesExactly Command.finishes⟩

/-- A path and a variable that is set twice, alone and behind a member that no toolchain
declares. -/
theorem acceptsExactly_reordered :
    let path : String × Value := ("swiftPath", .text "a")
    let environment : String × Value :=
      ("environment", .object [("A", .text "1"), ("A", .text "2")])
    let note : String × Value := ("note", .array [.null, .nat 1])
    ∃ c, decodeString Toolchain.decode (Value.object [path, environment]).compact = .ok c ∧
      decodeString Toolchain.decode (Value.object [note, environment, path]).compact = .ok c ∧
      c.swiftPath = "a" ∧ c.environment.get? "A" = some "2" ∧ c.showStatus = true := by
  intro path environment note
  let members := [path, environment].map fun m => (m.1, m.2.tree)
  have hs : (Tree.object (keyed members) none).IsTextOf
      (Value.object [path, environment]).compact :=
    Value.isTextOf_compact (v := .object [path, environment])
      ⟨trivial, ⟨trivial, trivial, trivial⟩, trivial⟩
  let members' := [note, environment, path].map fun m => (m.1, m.2.tree)
  have hs' : (Tree.object (keyed members') none).IsTextOf
      (Value.object [note, environment, path]).compact :=
    Value.isTextOf_compact (v := .object [note, environment, path])
      ⟨⟨trivial, show 1 < 2 ^ 64 by decide, trivial⟩, ⟨trivial, trivial, trivial⟩, trivial, trivial⟩
  have hperm : (known Toolchain.fields members).Perm (known Toolchain.fields members') :=
    .swap _ _ _
  obtain ⟨c, hc⟩ : ∃ c, decodeString Toolchain.decode (Value.object [path, environment]).compact =
      .ok c := ⟨_, hs.decodeString Toolchain.decode⟩
  have hmade := acceptsExactly.1.made hs c hc
  obtain ⟨settings, hsettings, hget⟩ :=
    hmade.environment.present environment.2.tree (List.mem_cons_of_mem _ List.mem_cons_self)
  obtain rfl : settings = [("A", "1"), ("A", "2")] := hsettings.unique rfl
  refine ⟨c, hc, (acceptsExactly.1.orderless hs hs' hperm c).1 hc, ?_, hget "A", ?_⟩
  · exact (hmade.swiftPath.present path.2.tree List.mem_cons_self).unique rfl
  · exact hmade.showStatus.missing (by decide)

end FolderTasks
