import SideraCore.Adapter.Registration
import SideraCore.Concurrency.Machine

/-!
Owns the outbound manager of an instance whose outbounds change: `Create` of a new
or an existing tag, `Remove`, and the choice of the default outbound at start. The
result says which of these operations keep the list, the tag map, the dependency map
and the default in step and fail without a change.
-/

namespace SideraCore.Adapter.RunningOutbounds

open Concurrency Data Rule

/-- An instance of an outbound. The handle tells it from others of the same tag. -/
structure Outbound where
  handle : Nat
  type : String
  tag : String
  dependencies : List String
deriving DecidableEq, Repr

/-- `outbound.Manager`; the registry holds its list and its two maps. -/
structure Manager where
  defaultTag : String
  started : Bool
  stage : StartStage
  registry : Registry String Outbound
  defaultOutbound : Option Outbound

def Manager.new (defaultTag : String) : Manager := ⟨defaultTag, false, .stateInitialize, .empty, none⟩

def Outbound.label (outbound : Outbound) : String := "outbound/" ++ outbound.type ++ "[" ++ outbound.tag ++ "]"

namespace Manager

variable (manager : Manager) (tag : String)

/-- The end of `Create`, after an existing outbound was closed. -/
def register (outbound : Outbound) : Manager :=
  { manager with
    registry := manager.registry.put tag outbound outbound.dependencies
    defaultOutbound :=
      if tag = manager.defaultTag ∨ (manager.defaultTag = "" ∧ manager.defaultOutbound = none) then
        some outbound
      else manager.defaultOutbound }

/-- `Manager.Create`. There is no result where it panics. -/
def create (calls : Construction Outbound) :
    Option (Manager × Except String Unit) :=
  (construct manager.registry manager.started Outbound.label tag calls).map fun
    | .error message => (manager, .error message)
    | .ok outbound => (manager.register tag outbound, .ok ())

def remove (closing : Except String Unit) :
    Option (Manager × Except String Unit) :=
  match manager.registry.byTag tag with
  | none => some (manager, .error "invalid argument")
  | some outbound =>
      if outbound ∈ manager.registry.entries then
        let dropped := manager.registry.drop tag outbound
        let changed :=
          { manager with
            registry := dropped
            defaultOutbound :=
              if manager.defaultOutbound = some outbound then dropped.entries.head?
              else manager.defaultOutbound }
        match dropped.dependents tag with
        | [] =>
            some ({ changed with registry := dropped.release tag outbound.dependencies },
              if manager.started then closing else .ok ())
        | dependBy =>
            some (changed,
              .error ("outbound[" ++ tag ++ "] is depended by " ++ ", ".intercalate dependBy))
      else none

/-- `Manager.Start`, up to the loops that start the outbounds. `endpoint` is what the
endpoint manager has for the default tag. -/
def start (stage : StartStage) (endpoint : Option Outbound) (fallback : Except String Outbound) :
    Option (Manager × Except String Unit) :=
  if manager.started ∧ stage ≤ manager.stage then none
  else
    let begun := { manager with started := true, stage := stage }
    if stage ≠ .stateStart then some (begun, .ok ())
    else
      match manager.defaultOutbound with
      | some _ => some (begun, .ok ())
      | none =>
          if manager.defaultTag ≠ "" then
            match endpoint with
            | none => some (begun, .error ("default outbound not found: " ++ manager.defaultTag))
            | some found => some ({ begun with defaultOutbound := some found }, .ok ())
          else
            match fallback with
            | .error message => some (begun, .error (cause message "create direct outbound for fallback"))
            | .ok direct =>
                some ({ begun with
                  registry := manager.registry.adopt direct.tag direct
                  defaultOutbound := some direct }, .ok ())

end Manager

inductive Event where
  | create (tag : String) (calls : Construction Outbound)
  | remove (tag : String) (closing : Except String Unit)
  | start (stage : StartStage) (endpoint : Option Outbound) (fallback : Except String Outbound)

namespace Manager

def serve (manager : Manager) : Event → Option (Manager × Except String Unit)
  | .create tag calls => manager.create tag calls
  | .remove tag closing => manager.remove tag closing
  | .start stage endpoint fallback => manager.start stage endpoint fallback

/-- What the callers and the registry keep to: instances are new and have the tag asked
for, the fallback has no dependencies, and the stages follow each other. -/
def Possible (manager : Manager) : Event → Prop
  | .create tag calls => calls.Lawful manager.registry Outbound.tag tag
  | .remove _ _ => True
  | .start stage endpoint fallback =>
      (manager.started = true → ¬stage ≤ manager.stage) ∧
        (endpoint.all fun found => found.tag = manager.defaultTag) = true ∧
        (fallback.toOption.all fun direct => direct.tag = "direct" ∧ direct.dependencies = []) = true

instance (manager : Manager) (event : Event) : Decidable (manager.Possible event) :=
  match event with
  | .create tag calls =>
      inferInstanceAs (Decidable (calls.Lawful manager.registry Outbound.tag tag))
  | .remove _ _ => inferInstanceAs (Decidable True)
  | .start stage endpoint fallback =>
      inferInstanceAs (Decidable ((manager.started = true → ¬stage ≤ manager.stage) ∧
        (endpoint.all fun found => found.tag = manager.defaultTag) = true ∧
        (fallback.toOption.all fun direct => direct.tag = "direct" ∧ direct.dependencies = []) = true))

structure Consistent (manager : Manager) : Prop where
  registry : manager.registry.Consistent Outbound.tag Outbound.dependencies
  listed : ∀ outbound, manager.defaultOutbound = some outbound → outbound ∈ manager.registry.entries
  chosen : ∀ outbound ∈ manager.registry.entries, outbound.tag = manager.defaultTag →
    manager.defaultOutbound = some outbound

/-- The operation leaves the structures in step, and unchanged if it creates or removes
an outbound and fails. -/
def Clean (manager : Manager) (event : Event) : Prop :=
  manager.Possible event → ∃ after reply, manager.serve event = some (after, reply) ∧ after.Consistent ∧
    ∀ message, reply = .error message →
      match event with
      | .start .. => True
      | _ => after.registry = manager.registry ∧ after.defaultOutbound = manager.defaultOutbound

/-- A replaced outbound has no dependency that the new one has not, and is the default
only under the default tag; nothing depends on a removed outbound, it closes, and no
dependency it names twice has exactly one other entry; the default is no endpoint. -/
def Careful (manager : Manager) : Event → Prop
  | .create tag calls => ∀ outbound existing,
      calls.Succeeds manager.registry manager.started tag outbound →
      manager.registry.byTag tag = some existing →
      existing.dependencies ⊆ outbound.dependencies ∧
        (manager.defaultOutbound = some existing → tag = manager.defaultTag)
  | .remove tag closing => ∀ outbound, manager.registry.byTag tag = some outbound →
      manager.registry.dependents tag = [] ∧ (manager.started = true → closing = .ok ()) ∧
        ∀ dependency, 2 ≤ outbound.dependencies.count dependency →
          ((manager.registry.dependents dependency).filter (· ≠ tag)).length ≠ 1
  | .start stage endpoint _ => stage = .stateStart → manager.defaultTag ≠ "" →
      manager.defaultOutbound = none → endpoint = none

/-- What clean operations keep: the manager is consistent, all tags are set, and without
a default tag only an empty manager has no default. -/
structure Sound (manager : Manager) : Prop where
  consistent : manager.Consistent
  tagged : ∀ outbound ∈ manager.registry.entries, outbound.tag ≠ ""
  untagged : manager.defaultTag = "" → manager.defaultOutbound = none → manager.registry.entries = []

theorem new_sound (defaultTag : String) : (new defaultTag).Sound :=
  ⟨⟨Registry.empty_consistent, nofun, nofun⟩, nofun, fun _ _ => rfl⟩

variable {manager after : Manager} {tag : String} {calls : Construction Outbound} {outbound : Outbound}

theorem register_consistent_iff (consistent : manager.Consistent) (isTag : outbound.tag = tag)
    (fresh : outbound ∉ manager.registry.entries) :
    (manager.register tag outbound).Consistent ↔
      ∀ existing, manager.registry.byTag tag = some existing →
        existing.dependencies ⊆ outbound.dependencies ∧
          (manager.defaultOutbound = some existing → tag = manager.defaultTag) := by
  subst isTag
  have mem {other : Outbound} : other ∈ (manager.register outbound.tag outbound).registry.entries ↔
      other = outbound ∨ (other ∈ manager.registry.entries ∧ other.tag ≠ outbound.tag) :=
    consistent.registry.mem_put_iff
  constructor
  · intro after existing found
    refine ⟨fun key depends => consistent.registry.put_iff.1 after.registry existing found key depends,
      fun isDefault => ?_⟩
    obtain ⟨member, sameTag⟩ := consistent.registry.mem_of_byTag found
    by_contra different
    have kept : (manager.register outbound.tag outbound).defaultOutbound = some existing := by
      simp [register, different, isDefault]
    rcases mem.1 (after.listed existing kept) with rfl | ⟨-, otherTag⟩
    · exact fresh member
    · exact otherTag sameTag
  · intro careful
    refine ⟨consistent.registry.put_iff.2 fun old found key depends => (careful old found).1 depends, ?_, ?_⟩
    · intro chosen isDefault
      rw [mem]
      simp only [register] at isDefault
      split_ifs at isDefault with takes
      · exact .inl (Option.some.inj isDefault).symm
      · refine .inr ⟨consistent.listed chosen isDefault, fun sameTag => ?_⟩
        have found := (consistent.registry.tagged outbound.tag chosen).2
          ⟨consistent.listed chosen isDefault, sameTag⟩
        exact takes (.inl ((careful chosen found).2 isDefault))
    · intro other member named
      simp only [register]
      rcases mem.1 member with rfl | ⟨isOld, different⟩
      · rw [if_pos (.inl named)]
      · have isDefault := consistent.chosen other isOld named
        rw [if_neg, isDefault]
        rintro (same | ⟨-, unset⟩)
        · exact different (named.trans same.symm)
        · rw [isDefault] at unset
          cases unset

theorem create_clean_iff (sound : manager.Sound) (possible : manager.Possible (.create tag calls)) :
    manager.Clean (.create tag calls) ↔ manager.Careful (.create tag calls) := by
  have consistent := sound.consistent
  unfold Clean
  rw [forall_prop_of_true possible]
  rcases construct_cases consistent.registry Outbound.label manager.started tag calls with
    ⟨message, constructed, fails⟩ | ⟨outbound, succeeds, constructed⟩
  · have created : manager.serve (.create tag calls) = some (manager, .error message) := by
      simp [serve, create, constructed]
    exact iff_of_true ⟨manager, _, created, consistent, fun _ _ => ⟨rfl, rfl⟩⟩
      fun outbound existing succeeds => absurd succeeds (fails outbound)
  · have created : manager.serve (.create tag calls) = some (manager.register tag outbound, .ok ()) := by
      simp [serve, create, constructed]
    obtain ⟨isTag, fresh⟩ := Construction.Lawful.of_built possible succeeds.built
    have registered := register_consistent_iff consistent isTag fresh
    constructor
    · rintro ⟨after, reply, served, isConsistent, -⟩ candidate existing again found
      rw [created, Option.some.injEq, Prod.mk.injEq] at served
      have built := again.built
      rw [succeeds.built, Except.ok.injEq] at built
      subst built
      rw [← served.1] at isConsistent
      exact registered.1 isConsistent existing found
    · intro careful
      exact ⟨_, _, created, registered.2 fun existing => careful outbound existing succeeds, nofun⟩

variable {reply : Except String Unit}

theorem create_sound (sound : manager.Sound) (possible : manager.Possible (.create tag calls))
    (created : manager.create tag calls = some (after, reply)) (consistent : after.Consistent) :
    after.Sound := by
  rcases construct_cases sound.consistent.registry Outbound.label manager.started tag calls with
    ⟨message, constructed, -⟩ | ⟨outbound, succeeds, constructed⟩
  · simp only [create, constructed, Option.map_some, Option.some.injEq, Prod.mk.injEq] at created
    exact created.1 ▸ sound
  · simp only [create, constructed, Option.map_some, Option.some.injEq, Prod.mk.injEq] at created
    obtain ⟨rfl, -⟩ := created
    obtain ⟨isTag, -⟩ := Construction.Lawful.of_built possible succeeds.built
    refine ⟨consistent, fun other member => ?_, fun unset noDefault => ?_⟩
    · rcases sound.consistent.registry.mem_put_iff.1 member with rfl | ⟨isOld, -⟩
      · exact isTag ▸ succeeds.tagged
      · exact sound.tagged other isOld
    · simp only [register] at noDefault unset
      split_ifs at noDefault with takes
      exact absurd (.inr ⟨unset, noDefault⟩) takes

variable {closing : Except String Unit}

/-- The manager after the outbound was taken out, before its entries are withdrawn. -/
def without (manager : Manager) (tag : String) (outbound : Outbound) : Manager :=
  { manager with
    registry := manager.registry.drop tag outbound
    defaultOutbound :=
      if manager.defaultOutbound = some outbound then (manager.registry.entries.erase outbound).head?
      else manager.defaultOutbound }

theorem remove_found (consistent : manager.Consistent)
    (found : manager.registry.byTag tag = some outbound) :
    manager.remove tag closing =
      if manager.registry.dependents tag = [] then
        some ({ manager.without tag outbound with
            registry := (manager.registry.drop tag outbound).release tag outbound.dependencies },
          if manager.started then closing else .ok ())
      else some (manager.without tag outbound, .error ("outbound[" ++ tag ++ "] is depended by " ++
        ", ".intercalate (manager.registry.dependents tag))) := by
  unfold remove
  simp only [found, if_pos (consistent.registry.mem_of_byTag found).1]
  have same : (manager.registry.drop tag outbound).dependents tag = manager.registry.dependents tag := rfl
  rw [same]
  split
  · rename_i isEmpty
    rw [if_pos isEmpty]
    rfl
  · rename_i dependBy nonempty
    rw [if_neg nonempty]
    rfl

theorem without_default (consistent : manager.Consistent) :
    (∀ chosen, (manager.without tag outbound).defaultOutbound = some chosen →
        chosen ∈ manager.registry.entries.erase outbound) ∧
      ∀ other ∈ manager.registry.entries.erase outbound, other.tag = manager.defaultTag →
        (manager.without tag outbound).defaultOutbound = some other := by
  have nodup := consistent.registry.nodup
  unfold without
  constructor
  · intro chosen isDefault
    split_ifs at isDefault with removed
    · exact List.mem_of_head? isDefault
    · rw [nodup.mem_erase_iff]
      exact ⟨fun same => removed (same ▸ isDefault), consistent.listed chosen isDefault⟩
  · intro other member named
    rw [nodup.mem_erase_iff] at member
    have isDefault := consistent.chosen other member.2 named
    rw [if_neg, isDefault]
    rw [isDefault, Option.some.injEq]
    exact member.1

theorem remove_clean_iff (sound : manager.Sound) :
    manager.Clean (.remove tag closing) ↔ manager.Careful (.remove tag closing) := by
  have consistent := sound.consistent
  have possible : manager.Possible (.remove tag closing) := trivial
  unfold Clean
  rw [forall_prop_of_true possible]
  cases found : manager.registry.byTag tag with
  | none =>
      refine iff_of_true ⟨manager, .error "invalid argument", ?_, consistent, fun _ _ => ⟨rfl, rfl⟩⟩ ?_
      · simp [serve, remove, found]
      · intro outbound isFound
        rw [found] at isFound
        cases isFound
  | some outbound =>
      have removed := @remove_found manager tag outbound closing consistent found
      obtain ⟨listed, chosen⟩ := @without_default manager tag outbound consistent
      have released := consistent.registry.release_iff found
      have member := (consistent.registry.mem_of_byTag found).1
      -- A removal that fails after the outbound was taken out has changed the list.
      have changes : manager.registry.entries.erase outbound ≠ manager.registry.entries := by
        intro same
        have left : outbound ∈ manager.registry.entries.erase outbound := same.symm ▸ member
        rw [consistent.registry.nodup.mem_erase_iff] at left
        exact left.1 rfl
      constructor
      · rintro ⟨after, reply, served, isConsistent, unchanged⟩ other isOther
        cases found.symm.trans isOther
        rw [show manager.serve (.remove tag closing) = _ from removed] at served
        by_cases independent : manager.registry.dependents tag = []
        · rw [if_pos independent, Option.some.injEq, Prod.mk.injEq] at served
          obtain ⟨rfl, rfl⟩ := served
          refine ⟨independent, fun started => ?_, released.1 isConsistent.registry⟩
          cases closing with
          | ok value => rfl
          | error message =>
              have same := (unchanged message (if_pos started)).1
              exact absurd (congrArg Registry.entries same) changes
        · rw [if_neg independent, Option.some.injEq, Prod.mk.injEq] at served
          obtain ⟨rfl, rfl⟩ := served
          have same := (unchanged _ rfl).1
          exact absurd (congrArg Registry.entries same) changes
      · intro careful
        obtain ⟨independent, closes, apart⟩ := careful outbound found
        rw [if_pos independent] at removed
        refine ⟨_, _, removed, ⟨released.2 apart, listed, chosen⟩, fun message failed => ?_⟩
        split_ifs at failed with started
        rw [closes started] at failed
        cases failed

theorem remove_sound (sound : manager.Sound)
    (removed : manager.remove tag closing = some (after, reply)) (consistent : after.Consistent) :
    after.Sound := by
  cases found : manager.registry.byTag tag with
  | none =>
      simp only [remove, found, Option.some.injEq, Prod.mk.injEq] at removed
      exact removed.1 ▸ sound
  | some outbound =>
      rw [remove_found sound.consistent found] at removed
      obtain ⟨entries, isDefault, isTag⟩ : after.registry.entries = manager.registry.entries.erase outbound ∧
          after.defaultOutbound = (manager.without tag outbound).defaultOutbound ∧
          after.defaultTag = manager.defaultTag := by
        split at removed
        · cases removed
          exact ⟨rfl, rfl, rfl⟩
        · cases removed
          exact ⟨rfl, rfl, rfl⟩
      refine ⟨consistent, fun other member => ?_, fun unset noDefault => ?_⟩
      · rw [entries] at member
        exact sound.tagged other (List.mem_of_mem_erase member)
      · rw [entries]
        rw [isDefault] at noDefault
        simp only [without] at noDefault
        split_ifs at noDefault
        · exact List.head?_eq_none_iff.1 noDefault
        · rw [sound.untagged (isTag ▸ unset) noDefault]
          rfl

section Start

variable {stage : StartStage} {endpoint : Option Outbound} {fallback : Except String Outbound}
  (possible : manager.Possible (.start stage endpoint fallback))
include possible

theorem possible_start : (∀ found, endpoint = some found → found.tag = manager.defaultTag) ∧
      ∀ direct, fallback = .ok direct → direct.tag = "direct" ∧ direct.dependencies = [] := by
  obtain ⟨-, named, generated⟩ := possible
  constructor
  · rintro found rfl
    simpa using named
  · rintro direct rfl
    simpa [Except.toOption] using generated

theorem start_cases :
    (∃ reply, manager.start stage endpoint fallback =
        some ({ manager with started := true, stage := stage }, reply) ∧
        (stage = .stateStart → manager.defaultTag ≠ "" → manager.defaultOutbound = none → endpoint = none)) ∨
      (∃ found, manager.start stage endpoint fallback =
        some ({ manager with started := true, stage := stage, defaultOutbound := some found }, .ok ()) ∧
        stage = .stateStart ∧ manager.defaultTag ≠ "" ∧ manager.defaultOutbound = none ∧
        endpoint = some found) ∨
      ∃ direct, manager.start stage endpoint fallback =
        some ({ manager with
          started := true, stage := stage
          registry := manager.registry.adopt direct.tag direct
          defaultOutbound := some direct }, .ok ()) ∧
        manager.defaultTag = "" ∧ manager.defaultOutbound = none ∧ fallback = .ok direct := by
  unfold start
  rw [if_neg fun both => possible.1 both.1 both.2]
  split
  · rename_i otherStage
    exact .inl ⟨_, rfl, fun same => absurd same otherStage⟩
  · rename_i isStart
    rw [not_not] at isStart
    split
    · rename_i chosen isDefault
      refine .inl ⟨_, rfl, fun _ _ noDefault => ?_⟩
      rw [isDefault] at noDefault
      cases noDefault
    · rename_i noDefault
      split
      · rename_i tagged
        split
        · exact .inl ⟨_, rfl, fun _ _ _ => rfl⟩
        · rename_i found
          exact .inr (.inl ⟨found, rfl, isStart, tagged, noDefault, rfl⟩)
      · rename_i untagged
        rw [not_not] at untagged
        split
        · exact .inl ⟨_, rfl, fun _ tagged => absurd untagged tagged⟩
        · rename_i direct
          exact .inr (.inr ⟨direct, rfl, untagged, noDefault, rfl⟩)

variable (sound : manager.Sound)
include sound

theorem start_clean_iff :
    manager.Clean (.start stage endpoint fallback) ↔ manager.Careful (.start stage endpoint fallback) := by
  have consistent := sound.consistent
  obtain ⟨named, generated⟩ := possible_start possible
  unfold Clean
  rw [forall_prop_of_true possible]
  rcases start_cases possible with ⟨reply, started, careful⟩ | ⟨found, started, isStart, tagged, noDefault,
    isEndpoint⟩ | ⟨direct, started, untagged, noDefault, isFallback⟩
  · exact iff_of_true ⟨_, _, started, ⟨consistent.registry, consistent.listed, consistent.chosen⟩,
      fun _ _ => trivial⟩ careful
  · refine iff_of_false ?_ ?_
    · rintro ⟨after, reply, served, isConsistent, -⟩
      rw [show manager.serve (.start stage endpoint fallback) = _ from started, Option.some.injEq,
        Prod.mk.injEq] at served
      obtain ⟨rfl, -⟩ := served
      -- A listed outbound of the default tag would be the default already.
      have listed : found ∈ manager.registry.entries := isConsistent.listed found rfl
      rw [consistent.chosen found listed (named found isEndpoint)] at noDefault
      cases noDefault
    · intro careful
      rw [careful isStart tagged noDefault] at isEndpoint
      cases isEndpoint
  · have nobody := sound.untagged untagged noDefault
    refine iff_of_true ⟨_, _, started, ⟨consistent.registry.adopt_of_empty nobody
      (generated direct isFallback).2, ?_, ?_⟩, fun _ _ => trivial⟩ fun _ tagged => absurd untagged tagged
    · intro chosen isDefault
      cases isDefault
      exact List.mem_append_right _ (List.mem_singleton.2 rfl)
    · intro other member _
      simp only [Registry.adopt, nobody, List.nil_append, List.mem_singleton] at member
      rw [member]

theorem start_sound (started : manager.start stage endpoint fallback = some (after, reply))
    (consistent : after.Consistent) : after.Sound := by
  rcases start_cases possible with ⟨_, isStarted, -⟩ | ⟨found, isStarted, -⟩ | ⟨direct, isStarted, -, -,
    isFallback⟩
  · rw [isStarted, Option.some.injEq, Prod.mk.injEq] at started
    obtain ⟨rfl, -⟩ := started
    exact ⟨consistent, sound.tagged, sound.untagged⟩
  · rw [isStarted, Option.some.injEq, Prod.mk.injEq] at started
    obtain ⟨rfl, -⟩ := started
    exact ⟨consistent, sound.tagged, nofun⟩
  · rw [isStarted, Option.some.injEq, Prod.mk.injEq] at started
    obtain ⟨rfl, -⟩ := started
    refine ⟨consistent, fun other member => ?_, nofun⟩
    rcases List.mem_append.1 member with isOld | isNew
    · exact sound.tagged other isOld
    · rw [List.mem_singleton.1 isNew, ((possible_start possible).2 direct isFallback).1]
      decide

end Start

def machine : Machine Manager Event :=
  ⟨fun manager event => if manager.Possible event then (manager.serve event).map Prod.fst else none⟩

theorem clean_iff_careful (sound : manager.Sound) {event : Event} (possible : manager.Possible event) :
    manager.Clean event ↔ manager.Careful event := by
  cases event with
  | create tag calls => exact create_clean_iff sound possible
  | remove tag closing => exact remove_clean_iff sound
  | start stage endpoint fallback => exact start_clean_iff possible sound

theorem step_sound (sound : manager.Sound) {event : Event} (possible : manager.Possible event)
    (clean : manager.Clean event) (stepped : machine.step manager event = some after) : after.Sound := by
  obtain ⟨next, reply, served, consistent, -⟩ := clean possible
  have same : machine.step manager event = some next := by
    simp only [machine, if_pos possible, served, Option.map_some]
  cases stepped.symm.trans same
  cases event with
  | create tag calls => exact create_sound sound possible served consistent
  | remove tag closing => exact remove_sound sound served consistent
  | start stage endpoint fallback => exact start_sound possible sound served consistent

/-- The operations of a run all keep the manager consistent and fail without a change
iff each meets the condition. -/
theorem outboundManager_clean_iff_careful (defaultTag : String) (events : List Event) :
    machine.Meets Clean (new defaultTag) events ↔
      machine.Meets (fun manager event => manager.Possible event → manager.Careful event) (new defaultTag)
        events := by
  have agree (manager : Manager) (event : Event) (sound : manager.Sound) :
      manager.Clean event ↔ (manager.Possible event → manager.Careful event) := by
    by_cases possible : manager.Possible event
    · rw [clean_iff_careful sound possible, forall_prop_of_true possible]
    · exact iff_of_true (fun isPossible => absurd isPossible possible)
        fun isPossible => absurd isPossible possible
  refine Machine.meets_iff agree (fun before event after stepped careful sound => ?_) (new_sound defaultTag)
  have possible : before.Possible event := by
    by_contra impossible
    simp only [machine, if_neg impossible] at stepped
    cases stepped
  exact step_sound sound possible ((agree before event sound).2 careful) stepped

def dependedRun : List Event :=
  [.create "a" ⟨.ok ⟨0, "direct", "a", []⟩, none, .ok ()⟩,
    .create "g" ⟨.ok ⟨1, "selector", "g", ["a"]⟩, none, .ok ()⟩]

/-- The removal fails and has taken the outbound out of the list. -/
theorem dependedRun_removal_changes :
    ∃ manager after, machine.run (new "") dependedRun = some manager ∧
      manager.remove "a" (.ok ()) = some (after, .error "outbound[a] is depended by g") ∧
      manager.registry.entries.map (·.tag) = ["a", "g"] ∧ after.registry.entries.map (·.tag) = ["g"] ∧
      manager.registry.byTag "a" ≠ none ∧ after.registry.byTag "a" = none := by
  refine ⟨_, _, rfl, rfl, ?_, ?_, ?_, ?_⟩
  · rfl
  · rfl
  · nofun
  · rfl

end Manager

end SideraCore.Adapter.RunningOutbounds
