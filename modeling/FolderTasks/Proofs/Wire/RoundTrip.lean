import FolderTasks.Proofs.Json.Sums
import FolderTasks.Wire.Outcome
import FolderTasks.Wire.Package
import Mathlib.Data.List.Perm.Basic
/-!
# Written values decode to what they were

Commands, settings, actions, task definitions and outcomes are written down in JSON and decoded from
it.  What is decoded from the written form is what was written, whatever the texts in it hold; and
the variables of an environment may be written in any order.

## Main definitions

* `ReadsBack`: a value of JSON that a decoder makes something of when it is written and read.
* `Fills`: what the members of an object make of a record, field by field.

## Main statements

* `Environment.ofList_of_perm`: the order of settings does not matter when no name is set twice.
* `Fills.readsBack`, `SumShape.readsBack`: records and tagged sums read back when their parts do.
* `roundTrip`: all of them, as texts.
-/

namespace FolderTasks

open Json

/-! ## Variables in any order -/

theorem insertEntry_perm {key : String} (value : String) {entries : List (String × String)}
    (h : key ∉ entries.map Prod.fst) :
    (insertEntry key value entries).Perm ((key, value) :: entries) := by
  induction entries with
  | nil => exact .refl _
  | cons head rest ih =>
    obtain ⟨k, v⟩ := head
    rw [List.map_cons, List.mem_cons, not_or] at h
    unfold insertEntry
    split
    · exact .refl _
    · rw [if_neg h.1]
      exact ((ih h.2).cons _).trans (.swap _ _ _)

namespace Environment

theorem nodup_names (env : Environment) : (env.entries.map Prod.fst).Nodup :=
  List.pairwise_map.2 <| env.ascending.imp fun {a b} hlt (heq : a.1 = b.1) =>
    absurd (heq ▸ hlt) (String.lt_irrefl b.1)

/-- Settings of different names are all there in the end. -/
theorem insertAll_perm (settings : List (String × String)) (env : Environment)
    (h : ((settings ++ env.entries).map Prod.fst).Nodup) :
    (env.insertAll settings).entries.Perm (settings ++ env.entries) := by
  induction settings generalizing env with
  | nil => exact .refl _
  | cons kv settings ih =>
    have hmoved : (settings ++ kv :: env.entries).Perm (kv :: settings ++ env.entries) :=
      List.perm_middle
    have hnodup := (hmoved.map Prod.fst).nodup_iff.2 h
    have hinserted : (env.insert kv.1 kv.2).entries.Perm (kv :: env.entries) := by
      refine insertEntry_perm kv.2 fun hmem => ?_
      rw [List.map_append, List.map_cons] at hnodup
      exact (List.nodup_cons.1 (List.nodup_append.1 hnodup).2.1).1 hmem
    have hrest := ih (env.insert kv.1 kv.2)
      (((hinserted.append_left settings).map Prod.fst).nodup_iff.2 hnodup)
    exact (hrest.trans (hinserted.append_left settings)).trans hmoved

/-- **The order of settings does not matter** when no name is set twice. -/
theorem ofList_of_perm {env : Environment} {settings : List (String × String)}
    (h : settings.Perm env.entries) : ofList settings = env := by
  have hnodup : ((settings ++ empty.entries).map Prod.fst).Nodup := by
    rw [show empty.entries = [] from rfl, List.append_nil]
    exact (h.map Prod.fst).nodup_iff.2 env.nodup_names
  have hperm := insertAll_perm settings empty hnodup
  rw [show empty.entries = [] from rfl, List.append_nil] at hperm
  have hentries : (ofList settings).entries = env.entries :=
    List.Perm.eq_of_pairwise (fun a b _ _ hab hba => absurd hba (String.lt_asymm hab))
      (ofList settings).ascending env.ascending (hperm.trans h)
  cases hcase : ofList settings
  cases env
  simpa only [hcase, mk.injEq] using hentries

end Environment

/-! ## Reading back -/

/-- A value of JSON that reads back: it can be written without loss, and a decoder makes something
of it. -/
structure ReadsBack {α : Type} (decode : Decoder α) (v : Value) (a : α) : Prop where
  hasWholeNumbers : v.HasWholeNumbers
  decode_tree : decode v.tree = .ok a

namespace ReadsBack

variable {α : Type} {decode : Decoder α} {v : Value} {a : α}

theorem compact (h : ReadsBack decode v a) : decodeString decode v.compact = .ok a := by
  rw [(Value.isTextOf_compact h.hasWholeNumbers).decodeString, h.decode_tree]

theorem indented (h : ReadsBack decode v a) : decodeString decode v.indented = .ok a := by
  rw [(Value.isTextOf_indented h.hasWholeNumbers).decodeString, h.decode_tree]

end ReadsBack

theorem readsBack_text (s : String) : ReadsBack decodeText (.text s) s := ⟨trivial, rfl⟩

theorem readsBack_flag (b : Bool) : ReadsBack decodeFlag (.bool b) b := ⟨trivial, rfl⟩

theorem readsBack_texts (ss : List String) :
    ReadsBack (decodeList decodeText) (.texts ss) ss where
  hasWholeNumbers := by
    refine Value.haveWholeNumbers_iff.2 fun v hv => ?_
    obtain ⟨s, -, rfl⟩ := List.mem_map.1 hv
    trivial
  decode_tree := by
    have hitems : decodeItems decodeText (Value.itemTrees (ss.map .text)) none = .ok ss := by
      induction ss with
      | nil => rfl
      | cons s ss ih =>
        simp only [List.map_cons, Value.itemTrees, decodeItems, ih]
        rfl
    exact hitems

/-- A value that is left out when there is none. -/
theorem ReadsBack.option {α : Type} {decode : Decoder α} {v : Value} {a : α}
    (h : ReadsBack decode v a) (hv : v.tree ≠ .null) :
    ReadsBack (decodeOption decode) v (some a) where
  hasWholeNumbers := h.hasWholeNumbers
  decode_tree := by
    unfold decodeOption
    split
    · exact absurd ‹_› hv
    · rw [h.decode_tree]
      rfl

theorem Path.readsBack_toJson (p : Path) : ReadsBack Path.decode p.toJson p := ⟨trivial, rfl⟩

theorem Environment.readsBack_toJsonIn {env : Environment} {settings : List (String × String)}
    (h : settings.Perm env.entries) :
    ReadsBack Environment.decode (Environment.toJsonIn settings) env where
  hasWholeNumbers := by
    refine Value.membersHaveWholeNumbers_iff.2 fun m hm => ?_
    obtain ⟨s, -, rfl⟩ := List.mem_map.1 hm
    trivial
  decode_tree := by
    have hpairs (ss : List (String × String)) : decodePairs decodeText
        (Value.memberTrees (ss.map fun s => (s.1, .text s.2))) none = .ok ss := by
      induction ss with
      | nil => rfl
      | cons s ss ih =>
        simp only [List.map_cons, Value.memberTrees, decodePairs, ih]
        rfl
    have hmap : decodeMap decodeText (Environment.toJsonIn settings).tree = .ok settings :=
      hpairs settings
    rw [Environment.decode, hmap, ← ofList_of_perm h]
    rfl

/-- Exit codes are whole numbers. -/
theorem readsBack_exitCode (code : Int32) :
    ReadsBack decodeExitCode (exitCodeToJson code) code := by
  have hlow : -2 ^ 31 ≤ code.toInt := Int32.le_toInt code
  have hhigh : code.toInt < 2 ^ 31 := Int32.toInt_lt code
  have hcode : Int32.ofInt code.toInt = code := Int32.ofInt_toInt code
  have hpow : Nat.pow 2 31 = 2147483648 := rfl
  unfold exitCodeToJson Value.int
  split
  · next hneg =>
    have hvalue : -(code.toInt.natAbs : Int) = code.toInt := by omega
    have hle : code.toInt.natAbs ≤ Nat.pow 2 31 := by omega
    refine ⟨⟨by omega, by omega⟩, ?_⟩
    simp only [Value.tree, decodeExitCode, decodeInt, hle, if_true, hvalue, Except.map, hcode]
  · next hnat =>
    have hvalue : (code.toInt.toNat : Int) = code.toInt := by omega
    have hlt : code.toInt.toNat < Nat.pow 2 31 := by omega
    refine ⟨show code.toInt.toNat < 2 ^ 64 by omega, ?_⟩
    simp only [Value.tree, decodeExitCode, decodeInt, hlt, if_true, hvalue, Except.map, hcode]

/-! ## Records -/

namespace Json

/-- **What members make of a record**: each fills a field that was not given before. -/
inductive Fills {P α : Type} (shape : RecordShape P α) : P → List (String × Value) → P → Prop where
  | nil (part : P) : Fills shape part [] part
  | cons {β : Type} {decode : Decoder β} {fill : β → P} {part part' : P} {f : FieldShape P}
      {key : String} {v : Value} {b : β} {members : List (String × Value)}
      (hfield : shape.field? key = some f) (hgiven : f.isGiven part = false)
      (hfill : f.read part = fun t => (decode t).map fill) (h : ReadsBack decode v b)
      (hrest : Fills shape (fill b) members part') : Fills shape part ((key, v) :: members) part'

namespace Fills

variable {P α : Type} {shape : RecordShape P α} {part part' : P} {members : List (String × Value)}
  {a : α}

theorem hasWholeNumbers (h : Fills shape part members part') :
    Value.MembersHaveWholeNumbers members := by
  induction h with
  | nil => trivial
  | cons hfield hgiven hfill h hrest ih => exact ⟨h.hasWholeNumbers, ih⟩

theorem readMembers (h : Fills shape part members part') :
    shape.readMembers part (Value.memberTrees members) none = .ok part' := by
  induction h with
  | nil => rfl
  | cons hfield hgiven hfill h hrest ih =>
    rw [Value.memberTrees, RecordShape.readMembers, RecordShape.readMember, hfield]
    dsimp only
    rw [hgiven, if_neg Bool.false_ne_true, hfill]
    dsimp only
    rw [h.decode_tree]
    exact ih

/-- Filled fields make up a record. -/
theorem ofMembers (h : Fills shape shape.blank members part) (ha : shape.finish part = .ok a) :
    shape.ofMembers (Value.memberTrees members) none = .ok a := by
  rw [RecordShape.ofMembers, h.readMembers]
  simp only [bind, Except.bind, RecordShape.complete, ha]

theorem readsBack (h : Fills shape shape.blank members part) (ha : shape.finish part = .ok a) :
    ReadsBack shape.decode (.object members) a :=
  ⟨h.hasWholeNumbers, h.ofMembers ha⟩

end Fills

end Json

theorem Command.readsBack_toJsonIn (c : Command) {settings : List (String × String)}
    (h : settings.Perm c.env.entries) : ReadsBack decode (c.toJsonIn settings) c := by
  obtain ⟨program, args, cwd, env, scope⟩ := c
  have henv : ReadsBack Environment.decode (Environment.toJsonIn settings) env :=
    Environment.readsBack_toJsonIn h
  -- The scope is written last, if there is one.
  have hscope (part : Part) (hpart : part.scope.isSome = false) :
      Fills shape part (scope.map fun s => ("scope", .text s)).toList
        { part with scope := (scope.map some).or part.scope } := by
    cases scope with
    | none => exact .nil part
    | some s =>
      exact .cons rfl hpart rfl ((readsBack_text s).option (by simp [Value.tree])) (.nil _)
  have hfills : Fills shape shape.blank
      ([("program", .text program), ("args", .texts args)] ++
        (cwd.map fun p => ("cwd", p.toJson)).toList ++ [("env", Environment.toJsonIn settings)] ++
        (scope.map fun s => ("scope", .text s)).toList)
      ⟨some program, some args, cwd.map some, some env, (scope.map some).or none⟩ := by
    refine .cons rfl rfl rfl (readsBack_text _) (.cons rfl rfl rfl (readsBack_texts _) ?_)
    cases cwd with
    | none => exact .cons rfl rfl rfl henv (hscope _ rfl)
    | some p =>
      have hp : ReadsBack (decodeOption Path.decode) p.toJson (some p) :=
        p.readsBack_toJson.option (by simp [Value.tree, Path.toJson])
      exact .cons rfl rfl rfl hp (.cons rfl rfl rfl henv (hscope _ rfl))
  refine hfills.readsBack ?_
  cases cwd <;> cases scope <;> rfl

theorem Toolchain.readsBack_toJsonIn (c : Toolchain) {settings : List (String × String)}
    (h : settings.Perm c.environment.entries) : ReadsBack decode (c.toJsonIn settings) c :=
  have hfills : Fills shape shape.blank _
      ⟨some c.swiftPath, some c.buildArguments, some c.environment, some c.showStatus,
        some c.logOperations⟩ :=
    .cons rfl rfl rfl (readsBack_text _) <| .cons rfl rfl rfl (readsBack_texts _) <|
      .cons rfl rfl rfl (Environment.readsBack_toJsonIn h) <|
      .cons rfl rfl rfl (readsBack_flag _) <| .cons rfl rfl rfl (readsBack_flag _) (.nil _)
  hfills.readsBack rfl

/-! ## Sums -/

namespace Json.SumShape

variable {α : Type} {shape : SumShape α}

/-- **A sum reads back** when the variant that its tag names does. -/
theorem readsBack {depth : Nat} {name : String} {variant : Beside → Decoded α}
    {members : List (String × Value)} {a : α}
    (hvariant : shape.variants.find? (fun v => v.1 == name) = some (name, variant))
    (hwhole : Value.MembersHaveWholeNumbers members)
    (haside : ∀ m ∈ members, m.1 ≠ shape.tag ∧ m.2.depth ≤ greatestNesting - depth - 1)
    (h : variant (.members (Value.memberTrees members)) = .ok a) :
    ReadsBack (shape.decode depth) (.object ((shape.tag, .text name) :: members)) a where
  hasWholeNumbers := ⟨trivial, hwhole⟩
  decode_tree := by
    have hmembers : shape.CanWait (greatestNesting - depth - 1) (Value.trees members) :=
      List.forall_mem_map.2 fun m hm =>
        ⟨(haside m hm).1, Value.captureFault?_tree m.2 (haside m hm).2⟩
    rw [Value.memberTrees_eq_keyed] at h
    rw [Value.tree, Value.memberTrees_eq_keyed, Value.trees_cons]
    exact (decode_once (List.forall_mem_nil _) hmembers (variant_text hvariant)).trans h

end Json.SumShape

theorem depth_exitCode (code : Int32) : (exitCodeToJson code).depth = 0 := by
  unfold exitCodeToJson Value.int
  split <;> rfl

theorem Outcome.readsBack_toJson (o : Outcome) : ReadsBack decode o.toJson o := by
  cases o with
  | terminated | cancelled =>
    exact SumShape.readsBack rfl trivial (List.forall_mem_nil _) rfl
  | exited code =>
    have hfills : Fills exitedShape none [("code", exitCodeToJson code)] (some code) :=
      .cons rfl rfl rfl (readsBack_exitCode code) (.nil _)
    refine SumShape.readsBack rfl hfills.hasWholeNumbers ?_ (hfills.ofMembers rfl)
    exact List.forall_mem_singleton.2
      ⟨show "code" ≠ "type" by decide, (depth_exitCode code).le.trans (Nat.zero_le _)⟩
  | launchFailed reason =>
    have hfills : Fills launchFailedShape none [("reason", .text reason)] (some reason) :=
      .cons rfl rfl rfl (readsBack_text reason) (.nil _)
    refine SumShape.readsBack rfl hfills.hasWholeNumbers ?_ (hfills.ofMembers rfl)
    exact List.forall_mem_singleton.2 ⟨show "reason" ≠ "type" by decide, Nat.zero_le _⟩

theorem BuildConfiguration.readsBack_toJson (c : BuildConfiguration) :
    ReadsBack decodeSetAside c.toJson c := by
  cases c <;> exact ⟨trivial, rfl⟩

/-- An action reads back wherever it stands. -/
theorem PackageAction.readsBack_toJson (a : PackageAction) (depth : Nat) :
    ReadsBack (decodeAt depth) a.toJson a := by
  cases a with
  | build configuration product =>
    have hfills : Fills buildShape {} [("configuration", configuration.toJson),
        ("product", .text product)] ⟨some configuration, some product⟩ :=
      .cons rfl rfl rfl configuration.readsBack_toJson <|
        .cons rfl rfl rfl (readsBack_text product) (.nil _)
    refine SumShape.readsBack rfl hfills.hasWholeNumbers ?_ (hfills.ofMembers rfl)
    exact List.forall_mem_cons.2 ⟨⟨show "configuration" ≠ "action" by decide, Nat.zero_le _⟩,
      List.forall_mem_singleton.2 ⟨show "product" ≠ "action" by decide, Nat.zero_le _⟩⟩
  | _ => exact SumShape.readsBack rfl trivial (List.forall_mem_nil _) rfl

theorem TaskDefinition.readsBack_toJson (d : TaskDefinition) : ReadsBack decode d.toJson d :=
  have hfills : Fills shape shape.blank _
      ⟨some d.label, some d.action, some d.folder, some d.disabled⟩ :=
    .cons rfl rfl rfl (readsBack_text _) <| .cons rfl rfl rfl (d.action.readsBack_toJson 1) <|
      .cons rfl rfl rfl d.folder.readsBack_toJson <| .cons rfl rfl rfl (readsBack_flag _) (.nil _)
  hfills.readsBack rfl

/-! ## Texts -/

/-- **What is written reads back**: the text of a command, a toolchain, an action, a task definition
or an outcome decodes to the same again, whatever texts it holds and in whatever order the variables
of an environment are written. -/
theorem roundTrip :
    (∀ (c : Command) (settings : List (String × String)), settings.Perm c.env.entries →
      decodeString Command.decode (c.toJsonIn settings).compact = .ok c) ∧
    (∀ (c : Toolchain) (settings : List (String × String)),
      settings.Perm c.environment.entries →
        decodeString Toolchain.decode (c.toJsonIn settings).compact = .ok c ∧
        decodeString Toolchain.decode (c.toJsonIn settings).indented = .ok c) ∧
    (∀ a : PackageAction, decodeString PackageAction.decode a.toJson.compact = .ok a) ∧
    (∀ d : TaskDefinition, decodeString TaskDefinition.decode d.toJson.compact = .ok d) ∧
    ∀ o : Outcome, decodeString Outcome.decode o.toJson.compact = .ok o :=
  ⟨fun c _ h => (c.readsBack_toJsonIn h).compact,
    fun c _ h => ⟨(c.readsBack_toJsonIn h).compact, (c.readsBack_toJsonIn h).indented⟩,
    fun a => (a.readsBack_toJson 0).compact, fun d => d.readsBack_toJson.compact,
    fun o => o.readsBack_toJson.compact⟩

/-- The variables of an environment, written in descending order, and a text with a quote, a
backslash, a control character and a character of the second plane. -/
theorem roundTrip_descending :
    let c : Command :=
      { program := "swift", args := ["\"", "\\", "\u0001", "\n", "😀"], cwd := some ⟨"/a//b/."⟩
        env := .ofList [("A", "1"), ("B", "\t")] }
    [("B", "\t"), ("A", "1")].Perm c.env.entries ∧
      decodeString Command.decode (c.toJsonIn [("B", "\t"), ("A", "1")]).compact = .ok c := by
  intro c
  have hperm : [("B", "\t"), ("A", "1")].Perm c.env.entries := .swap _ _ _
  exact ⟨hperm, roundTrip.1 c _ hperm⟩

end FolderTasks
