import FolderTasks.Listeners.Program
import Mathlib.Data.List.DropRight
import Mathlib.Data.List.Nodup
/-!
# Live subscriptions

A registry holds the callbacks whose handles are still kept and that no removal of all callbacks has
swept away.  This module says what changes a bench can go through, with what befalls subscriptions in
each of them, and that every change keeps this so.

## Main definitions

* `Event`: what befalls subscriptions.
* `Change`, `Leads`: the changes that a bench goes through, with what befalls subscriptions in them.
* `Arises`: a bench and everything that has befallen subscriptions up to it.
* `live`: the subscriptions that should be there.
* `HoldsLive`: a bench on which they are.

## Main statements

* `Leads.isSound`: what every change preserves.
* `Leads.holdsLive`: the registered callbacks are the live subscriptions.

## Design notes

A change is as small as what a callback can find on the bench: between two changes the registry is
never seen.  What befalls subscriptions is a label of the changes, because a bench does not remember
when its callbacks were removed.
-/

namespace FolderTasks.Listening

/-- **What befalls subscriptions.** -/
inductive Event where
  /-- A callback is subscribed under a number. -/
  | subscribed (number : Nat) (callback : Callback)
  /-- The handle of a subscription is disposed of or dropped. -/
  | released (number : Nat)
  /-- All callbacks are removed. -/
  | cleared
  /-- The registry is given up. -/
  | givenUp

namespace Event

/-- The subscription that is made. -/
def subscription? : Event → Option (Nat × Callback)
  | .subscribed number callback => some (number, callback)
  | .released _ | .cleared | .givenUp => none

/-- The number of the subscription whose handle is given up. -/
def released? : Event → Option Nat
  | .released number => some number
  | .subscribed _ _ | .cleared | .givenUp => none

/-- Are all callbacks removed? -/
def isClear : Event → Bool
  | .cleared => true
  | .subscribed _ _ | .released _ | .givenUp => false

end Event

/-- The subscriptions that were made. -/
def subscriptions (events : List Event) : List (Nat × Callback) :=
  events.filterMap Event.subscription?

/-- The numbers of the subscriptions whose handles were given up. -/
def releases (events : List Event) : List Nat := events.filterMap Event.released?

/-- What happened after all callbacks were removed for the last time. -/
def sinceClear (events : List Event) : List Event := events.rtakeWhile fun e => !e.isClear

/-- **The live subscriptions**, in the order in which they were made: those that were made after all
callbacks were removed for the last time, and whose handles were neither disposed of nor dropped. -/
def live (events : List Event) : List (Nat × Callback) :=
  (subscriptions (sinceClear events)).filter fun s => s.1 ∉ releases events

/-- **One change of a bench**, with what befalls subscriptions in it. -/
inductive Change : Bench → List Event → Bench → Prop where
  /-- Nothing changes. -/
  | idle {b : Bench} : Change b [] b
  /-- A call or an answer is noted. -/
  | noted {b : Bench} (c : Call) : Change b [] (b.note c)
  /-- A call is counted. -/
  | counted {b : Bench} (number : Nat) : Change b [] (b.count number).1
  /-- A callback is subscribed, and the handle that its name kept before is dropped. -/
  | subscribed {b : Bench} {r : Registry Callback} (name : String) (hooks : List Hook)
      (h : b.registry = some r) :
      Change b (.subscribed (r.issued + 1) ⟨name, hooks⟩ ::
        (b.handles.lookup name).toList.map .released) (b.subscribe name hooks).1
  /-- A handle is disposed of or dropped. -/
  | released {b : Bench} {name : String} {number : Nat} (h : b.handles.lookup name = some number) :
      Change b [.released number] (b.releaseNamed name).1
  /-- All callbacks are removed. -/
  | cleared {b : Bench} {r : Registry Callback} (h : b.registry = some r) :
      Change b [.cleared] { b with registry := some r.clear }
  /-- The registry is given up. -/
  | givenUp {b : Bench} : Change b [.givenUp] { b with registry := none }

/-- **Any number of changes**, with what befalls subscriptions in them. -/
inductive Leads (b : Bench) : List Event → Bench → Prop where
  | refl : Leads b [] b
  | tail {events more : List Event} {b' b'' : Bench} (h : Leads b events b')
      (hc : Change b' more b'') : Leads b (events ++ more) b''

/-- **A bench arises**, with everything that has befallen subscriptions before. -/
abbrev Arises (b : Bench) (events : List Event) : Prop := Leads {} events b

/-- **A bench holds the live subscriptions.** -/
structure HoldsLive (b : Bench) (events : List Event) : Prop where
  /-- There is a registry until it is given up. -/
  present : b.registry = none ↔ .givenUp ∈ events
  /-- The registered callbacks are the live subscriptions. -/
  registered : ∀ r ∈ b.registry, r.callbacks = live events
  /-- None of them is registered twice. -/
  distinct : ∀ r ∈ b.registry, r.numbers.Nodup
  /-- Their number is what the registry says. -/
  size : b.size? = b.registry.map fun _ => (live events).length
  /-- Numbers grow from subscription to subscription, so none is given twice. -/
  ascending : ((subscriptions events).map Prod.fst).Pairwise (· < ·)
  /-- The handles that are kept are those that were neither disposed of nor dropped. -/
  kept : ∀ number, number ∈ b.handles.map Prod.snd ↔
    number ∈ (subscriptions events).map Prod.fst ∧ number ∉ releases events
  /-- Releasing a handle removes no callback but its own. -/
  own : ∀ name number, b.handles.lookup name = some number → ∀ r ∈ b.registry,
    ∃ r' ∈ (b.releaseNamed name).1.registry,
      r'.callbacks = (live events).filter fun s => s.1 != number
  /-- Releasing a handle whose callback is not registered any more removes nothing. -/
  swept : ∀ name number, b.handles.lookup name = some number →
    number ∉ (live events).map Prod.fst → (b.releaseNamed name).1.registry = b.registry
  /-- Releasing a handle once the registry is gone does nothing but forget it. -/
  gone : ∀ name number, b.handles.lookup name = some number → b.registry = none →
    (b.releaseNamed name).1 = b.forget name

/-! ## What changes do to live subscriptions -/

section Living

variable (events : List Event) (number : Nat) (callback : Callback)

@[simp] theorem subscriptions_append (more : List Event) :
    subscriptions (events ++ more) = subscriptions events ++ subscriptions more :=
  List.filterMap_append

@[simp] theorem releases_append (more : List Event) :
    releases (events ++ more) = releases events ++ releases more :=
  List.filterMap_append

@[simp] theorem subscriptions_subscribed (more : List Event) :
    subscriptions (.subscribed number callback :: more) =
      (number, callback) :: subscriptions more := rfl

@[simp] theorem releases_subscribed (more : List Event) :
    releases (.subscribed number callback :: more) = releases more := rfl

@[simp] theorem subscriptions_map_released (numbers : List Nat) :
    subscriptions (numbers.map .released) = [] := by
  simp [subscriptions, Event.subscription?]

@[simp] theorem releases_map_released (numbers : List Nat) :
    releases (numbers.map .released) = numbers := by
  simp [releases, Event.released?, Function.comp_def]

@[simp] theorem subscriptions_released : subscriptions [.released number] = [] := rfl

@[simp] theorem releases_released : releases [.released number] = [number] := rfl

@[simp] theorem subscriptions_cleared : subscriptions [.cleared] = [] := rfl

@[simp] theorem releases_cleared : releases [.cleared] = [] := rfl

@[simp] theorem subscriptions_givenUp : subscriptions [.givenUp] = [] := rfl

@[simp] theorem releases_givenUp : releases [.givenUp] = [] := rfl

theorem live_sublist : (live events).Sublist (subscriptions events) :=
  List.filter_sublist.trans ((List.rtakeWhile_suffix _ events).sublist.filterMap _)

theorem sinceClear_subscribed : sinceClear (events ++ [.subscribed number callback]) =
    sinceClear events ++ [.subscribed number callback] :=
  List.rtakeWhile_concat_pos _ events _ rfl

theorem sinceClear_released (numbers : List Nat) :
    sinceClear (events ++ numbers.map .released) =
      sinceClear events ++ numbers.map .released := by
  induction numbers using List.reverseRecOn with
  | nil => simp
  | append_singleton numbers number ih =>
    rw [List.map_append, ← List.append_assoc, ← List.append_assoc, ← ih]
    exact List.rtakeWhile_concat_pos _ _ _ rfl

/-- A new subscription is live. -/
theorem live_subscribed {events : List Event} {number : Nat} (callback : Callback)
    (hnew : number ∉ releases events) :
    live (events ++ [.subscribed number callback]) = live events ++ [(number, callback)] := by
  have hreleases : releases (events ++ [.subscribed number callback]) = releases events := by
    simp [releases, Event.released?]
  rw [live, sinceClear_subscribed, hreleases, subscriptions_append, List.filter_append]
  simp [live, subscriptions, Event.subscription?, hnew]

/-- Subscriptions whose handles are given up are live no more. -/
theorem live_released (numbers : List Nat) :
    live (events ++ numbers.map .released) =
      (live events).filter fun s => s.1 ∉ numbers := by
  rw [live, sinceClear_released, subscriptions_append, subscriptions_map_released,
    List.append_nil, releases_append, releases_map_released, live, List.filter_filter]
  refine List.filter_congr fun s _ => ?_
  simp [List.mem_append, and_comm]

theorem live_released_one :
    live (events ++ [.released number]) = (live events).filter fun s => s.1 != number := by
  refine (live_released events [number]).trans (List.filter_congr fun s _ => ?_)
  simp [bne, beq_eq_decide]

/-- After all callbacks are removed, no subscription is live. -/
theorem live_cleared : live (events ++ [.cleared]) = [] := by
  have hsince : sinceClear (events ++ [.cleared]) = [] :=
    List.rtakeWhile_concat_neg _ events _ (by simp [Event.isClear])
  rw [live, hsince]
  rfl

end Living

/-! ## The invariant -/

section Invariant

variable {b b' : Bench} {events more : List Event} {r : Registry Callback} {name : String}

/-- What a bench and everything that has befallen subscriptions satisfy. -/
structure IsSound (b : Bench) (events : List Event) : Prop where
  present : b.registry = none ↔ .givenUp ∈ events
  registered : ∀ r ∈ b.registry, r.callbacks = live events
  issued : ∀ r ∈ b.registry, ∀ s ∈ subscriptions events, s.1 ≤ r.issued
  ascending : ((subscriptions events).map Prod.fst).Pairwise (· < ·)
  kept : ∀ number, number ∈ b.handles.map Prod.snd ↔
    number ∈ (subscriptions events).map Prod.fst ∧ number ∉ releases events
  made : ∀ number ∈ releases events, number ∈ (subscriptions events).map Prod.fst
  names : (b.handles.map Prod.fst).Nodup
  numbers : (b.handles.map Prod.snd).Nodup

theorem subscribe_eq (hooks : List Hook) (h : b.registry = some r) :
    (b.subscribe name hooks).1 =
      { b with
        registry := some
          { issued := r.issued + 1
            callbacks := (r.callbacks ++ [(r.issued + 1, Callback.mk name hooks)]).filter fun c =>
              c.1 ∉ (b.handles.lookup name).toList }
        handles := (name, r.issued + 1) :: (b.forget name).handles } := by
  rw [Bench.subscribe, h]
  cases hk : b.handles.lookup name with
  | none => simp [Registry.subscribe, Bench.forget]
  | some old =>
    simp only [Registry.subscribe, Bench.release, Registry.release, Option.map_some,
      Option.toList_some, List.mem_singleton, Bench.forget]
    congr 4
    funext c
    simp [bne, decide_not, beq_eq_decide]

theorem releaseNamed_eq {number : Nat} (h : b.handles.lookup name = some number) :
    (b.releaseNamed name).1 =
      { b with
        registry := b.registry.map fun r => r.release number
        handles := (b.forget name).handles } := by
  rw [Bench.releaseNamed, h]
  rfl

namespace IsSound

theorem empty : IsSound {} [] where
  present := by simp
  registered := by rintro r ⟨⟩; rfl
  issued := by simp [subscriptions]
  ascending := .nil
  kept := by simp [subscriptions]
  made := by simp [releases]
  names := .nil
  numbers := .nil

/-- Only the registry, the handles and what befell subscriptions matter. -/
theorem of_eq (hs : IsSound b events) (hregistry : b'.registry = b.registry)
    (hhandles : b'.handles = b.handles) : IsSound b' events where
  present := by rw [hregistry]; exact hs.present
  registered := by rw [hregistry]; exact hs.registered
  issued := by rw [hregistry]; exact hs.issued
  ascending := hs.ascending
  kept := by rw [hhandles]; exact hs.kept
  made := hs.made
  names := by rw [hhandles]; exact hs.names
  numbers := by rw [hhandles]; exact hs.numbers

theorem lookup_eq_some_iff (hs : IsSound b events) {number : Nat} :
    b.handles.lookup name = some number ↔ (name, number) ∈ b.handles := by
  have hmem : ∀ {n}, b.handles.lookup name = some n → (name, n) ∈ b.handles := by
    intro n hn
    obtain ⟨before, after, he, -⟩ := List.lookup_eq_some_iff.1 hn
    simp [he]
  refine ⟨hmem, fun h => ?_⟩
  cases hk : b.handles.lookup name with
  | none => exact absurd (List.lookup_eq_none_iff.1 hk _ h) (by simp)
  | some n =>
    have heq := List.inj_on_of_nodup_map hs.names (hmem hk) h rfl
    rw [(Prod.mk.inj heq).2]

/-- Forgetting a name forgets the handle that it kept and no other one. -/
theorem mem_forget (hs : IsSound b events) {name : String} {number : Nat} :
    number ∈ (b.forget name).handles.map Prod.snd ↔
      number ∈ b.handles.map Prod.snd ∧ number ∉ (b.handles.lookup name).toList := by
  simp only [Option.mem_toList, hs.lookup_eq_some_iff]
  constructor
  · intro h
    obtain ⟨⟨other, n⟩, hmem, rfl⟩ := List.mem_map.1 h
    obtain ⟨hmem, hne⟩ := List.mem_filter.1 hmem
    refine ⟨List.mem_map_of_mem hmem, fun hsame => ?_⟩
    have heq := List.inj_on_of_nodup_map hs.numbers hmem hsame rfl
    exact absurd (Prod.mk.inj heq).1 (by simpa using hne)
  · rintro ⟨h, hne⟩
    obtain ⟨⟨other, n⟩, hmem, rfl⟩ := List.mem_map.1 h
    have hother : other ≠ name := by
      rintro rfl
      exact hne hmem
    exact List.mem_map_of_mem (f := Prod.snd) (List.mem_filter.2 ⟨hmem, by simpa using hother⟩)

theorem names_forget (hs : IsSound b events) (name : String) :
    ((b.forget name).handles.map Prod.fst).Nodup :=
  hs.names.sublist (List.filter_sublist.map _)

theorem numbers_forget (hs : IsSound b events) (name : String) :
    ((b.forget name).handles.map Prod.snd).Nodup :=
  hs.numbers.sublist (List.filter_sublist.map _)

/-- The handles that are kept are those of subscriptions. -/
theorem number_of_lookup (hs : IsSound b events) {number : Nat}
    (h : number ∈ b.handles.lookup name) :
    number ∈ (subscriptions events).map Prod.fst ∧ number ∉ releases events :=
  (hs.kept number).1 (List.mem_map_of_mem (f := Prod.snd) (hs.lookup_eq_some_iff.1 h))

theorem numbers_nodup (hs : IsSound b events) (hr : b.registry = some r) : r.numbers.Nodup := by
  rw [Registry.numbers, hs.registered r hr]
  exact (hs.ascending.imp fun hlt => hlt.ne).sublist ((live_sublist events).map _)

theorem subscribed (hs : IsSound b events) (name : String) (hooks : List Hook)
    (hr : b.registry = some r) :
    IsSound (b.subscribe name hooks).1 (events ++ (.subscribed (r.issued + 1) ⟨name, hooks⟩ ::
      (b.handles.lookup name).toList.map .released)) := by
  have hbound : ∀ n ∈ (subscriptions events).map Prod.fst, n ≤ r.issued := by
    intro n hn
    obtain ⟨s, hs', rfl⟩ := List.mem_map.1 hn
    exact hs.issued r hr s hs'
  have hfresh : r.issued + 1 ∉ (subscriptions events).map Prod.fst := fun h =>
    absurd (hbound _ h) (by omega)
  rw [subscribe_eq hooks hr]
  constructor
  case present =>
    have hpresent : Event.givenUp ∉ events := fun h => by simp [hs.present.2 h] at hr
    simp [hpresent]
  case registered =>
    rintro _ ⟨⟩
    rw [List.append_cons events, live_released, live_subscribed _ fun h => hfresh (hs.made _ h),
      hs.registered r hr]
  case issued =>
    rintro _ ⟨⟩ s hmem
    simp only [subscriptions_append, subscriptions_subscribed, subscriptions_map_released,
      List.mem_append, List.mem_singleton] at hmem
    rcases hmem with hmem | rfl
    · exact Nat.le_succ_of_le (hs.issued r hr s hmem)
    · exact Nat.le_refl _
  case ascending =>
    simp only [subscriptions_append, subscriptions_subscribed, subscriptions_map_released,
      List.map_append, List.map_cons, List.map_nil]
    refine List.pairwise_append.2 ⟨hs.ascending, List.pairwise_singleton _ _, fun n hn m hm => ?_⟩
    rw [List.mem_singleton.1 hm]
    exact Nat.lt_succ_of_le (hbound n hn)
  case kept =>
    intro n
    simp only [List.map_cons, List.mem_cons, hs.mem_forget, hs.kept, subscriptions_append,
      subscriptions_subscribed, subscriptions_map_released, List.map_append, List.map_nil,
      List.mem_append, List.not_mem_nil, or_false, releases_append, releases_subscribed,
      releases_map_released, not_or]
    constructor
    · rintro (rfl | ⟨⟨hn, hrel⟩, hlook⟩)
      · exact ⟨.inr rfl, fun h => hfresh (hs.made _ h), fun h =>
          hfresh (hs.number_of_lookup (Option.mem_toList.1 h)).1⟩
      · exact ⟨.inl hn, hrel, hlook⟩
    · rintro ⟨hn | hn, hrel, hlook⟩
      · exact .inr ⟨⟨hn, hrel⟩, hlook⟩
      · exact .inl hn
  case made =>
    intro n hn
    simp only [releases_append, releases_subscribed, releases_map_released, List.mem_append] at hn
    rw [subscriptions_append, List.map_append]
    refine List.mem_append_left _ ?_
    rcases hn with hn | hn
    · exact hs.made n hn
    · exact (hs.number_of_lookup (Option.mem_toList.1 hn)).1
  case names =>
    refine List.nodup_cons.2 ⟨fun h => ?_, hs.names_forget name⟩
    obtain ⟨k, hk, hname⟩ := List.mem_map.1 h
    exact absurd hname (by simpa using (List.mem_filter.1 hk).2)
  case numbers =>
    refine List.nodup_cons.2 ⟨fun h => ?_, hs.numbers_forget name⟩
    exact hfresh ((hs.kept _).1 (hs.mem_forget.1 h).1).1

theorem released (hs : IsSound b events) {number : Nat}
    (hk : b.handles.lookup name = some number) :
    IsSound (b.releaseNamed name).1 (events ++ [.released number]) := by
  rw [releaseNamed_eq hk]
  constructor
  case present => simp [hs.present]
  case registered =>
    intro r' hr'
    obtain ⟨r, hr, rfl⟩ := Option.map_eq_some_iff.1 hr'
    rw [Registry.release, hs.registered r hr, live_released_one]
  case issued =>
    intro r' hr'
    obtain ⟨r, hr, rfl⟩ := Option.map_eq_some_iff.1 hr'
    rw [subscriptions_append, subscriptions_released, List.append_nil]
    exact hs.issued r hr
  case ascending =>
    rw [subscriptions_append, subscriptions_released, List.append_nil]
    exact hs.ascending
  case kept =>
    intro n
    rw [hs.mem_forget, hs.kept, hk, subscriptions_append, subscriptions_released,
      List.append_nil, releases_append, releases_released, List.mem_append, not_or, and_assoc,
      Option.toList_some]
  case made =>
    intro n hn
    rw [subscriptions_append, subscriptions_released, List.append_nil]
    rw [releases_append, releases_released, List.mem_append, List.mem_singleton] at hn
    rcases hn with hn | rfl
    · exact hs.made n hn
    · exact (hs.number_of_lookup hk).1
  case names => exact hs.names_forget name
  case numbers => exact hs.numbers_forget name

theorem cleared (hs : IsSound b events) (hr : b.registry = some r) :
    IsSound { b with registry := some r.clear } (events ++ [.cleared]) where
  present := by
    have hpresent : Event.givenUp ∉ events := fun h => by simp [hs.present.2 h] at hr
    simp [hpresent]
  registered := by
    rintro _ ⟨⟩
    exact (live_cleared events).symm
  issued := by
    rintro _ ⟨⟩
    rw [subscriptions_append, subscriptions_cleared, List.append_nil]
    exact hs.issued r hr
  ascending := by simpa using hs.ascending
  kept := by simpa using hs.kept
  made := by simpa using hs.made
  names := hs.names
  numbers := hs.numbers

theorem givenUp (hs : IsSound b events) :
    IsSound { b with registry := none } (events ++ [.givenUp]) where
  present := by simp
  registered := by rintro _ ⟨⟩
  issued := by rintro _ ⟨⟩
  ascending := by simpa using hs.ascending
  kept := by simpa using hs.kept
  made := by simpa using hs.made
  names := hs.names
  numbers := hs.numbers

/-- Every change preserves the invariant. -/
theorem change (hs : IsSound b events) (hc : Change b more b') : IsSound b' (events ++ more) := by
  cases hc with
  | idle => rwa [List.append_nil]
  | noted c => rw [List.append_nil]; exact hs.of_eq rfl rfl
  | counted number => rw [List.append_nil]; exact hs.of_eq rfl rfl
  | subscribed name hooks hr => exact hs.subscribed name hooks hr
  | released hk => exact hs.released hk
  | cleared hr => exact hs.cleared hr
  | givenUp => exact hs.givenUp

end IsSound

/-- Whatever arises satisfies the invariant. -/
theorem Leads.isSound (h : Arises b events) : IsSound b events := by
  induction h with
  | refl => exact .empty
  | tail _ hc ih => exact ih.change hc

end Invariant

/-! ## The registered callbacks -/

section Holding

variable {b : Bench} {events : List Event}

/-- **A registry holds exactly the live subscriptions**, on whatever bench arises. -/
theorem Leads.holdsLive (h : Arises b events) : HoldsLive b events where
  present := h.isSound.present
  registered := h.isSound.registered
  distinct _ hr := h.isSound.numbers_nodup hr
  size := by
    cases hr : b.registry with
    | none => simp [Bench.size?, hr]
    | some r => simp [Bench.size?, hr, Registry.size, h.isSound.registered r hr]
  ascending := h.isSound.ascending
  kept := h.isSound.kept
  own name number hk r hr := by
    rw [releaseNamed_eq hk, hr]
    exact ⟨r.release number, rfl, by rw [Registry.release, h.isSound.registered r hr]⟩
  swept name number hk hlive := by
    rw [releaseNamed_eq hk]
    cases hr : b.registry with
    | none => rfl
    | some r =>
      rw [← h.isSound.registered r hr] at hlive
      rw [Option.map_some, Registry.release_of_not_registered hlive]
  gone name number hk hr := by
    rw [releaseNamed_eq hk, hr, Bench.forget]
    simp [hr]

end Holding

end FolderTasks.Listening
