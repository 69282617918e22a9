import SideraCore.Adapter.Lifecycle
import SideraCore.Data.Registry
import SideraCore.Rule.DnsRule

/-!
Owns the part that the `Create` methods of the managers share, up to the point where
the new instance is registered: it is constructed, started if the manager is, and an
instance of the same tag is closed.
-/

namespace SideraCore.Adapter

open Data Rule

variable {α : Type} [DecidableEq α]

/-- What the calls of a creation return: the constructor, the first stage that fails,
and the `Close` of the old instance. -/
structure Construction (α : Type) where
  built : Except String α
  starting : Option (StartStage × String)
  closing : Except String Unit

/-- The instance to register, or the first error. There is no result where the method
panics. -/
def construct (registry : Registry String α) (started : Bool) (label : α → String) (tag : String)
    (calls : Construction α) : Option (Except String α) :=
  if tag = "" then some (.error "invalid argument")
  else
    match calls.built with
    | .error message => some (.error message)
    | .ok value =>
        match if started then calls.starting else none with
        | some (stage, message) => some (.error (cause message (stage.text ++ " " ++ label value)))
        | none =>
            match registry.byTag tag with
            | none => some (.ok value)
            | some existing =>
                match if started then calls.closing else .ok () with
                | .error message => some (.error (cause message ("close " ++ label existing)))
                | .ok () => if existing ∈ registry.entries then some (.ok value) else none

structure Construction.Succeeds (calls : Construction α) (registry : Registry String α) (started : Bool)
    (tag : String) (value : α) : Prop where
  tagged : tag ≠ ""
  built : calls.built = .ok value
  starts : started = true → calls.starting = none
  closes : started = true → registry.byTag tag ≠ none → calls.closing = .ok ()

/-- A constructed instance is a new one and has the tag that was asked for. -/
def Construction.Lawful (calls : Construction α) (registry : Registry String α) (instanceTag : α → String)
    (tag : String) : Prop :=
  (calls.built.toOption.all fun value => instanceTag value = tag ∧ value ∉ registry.entries) = true

instance (calls : Construction α) (registry : Registry String α) (instanceTag : α → String)
    (tag : String) : Decidable (calls.Lawful registry instanceTag tag) :=
  inferInstanceAs (Decidable (_ = true))

variable {registry : Registry String α} {started : Bool} {label instanceTag : α → String} {tag : String}
  {calls : Construction α} {value : α}

theorem Construction.Lawful.of_built (lawful : calls.Lawful registry instanceTag tag)
    (built : calls.built = .ok value) : instanceTag value = tag ∧ value ∉ registry.entries := by
  unfold Construction.Lawful at lawful
  rw [built] at lawful
  simpa [Except.toOption] using lawful

theorem construct_cases {dependencies : α → List String} (consistent : registry.Consistent instanceTag dependencies)
    (label : α → String) (started : Bool) (tag : String) (calls : Construction α) :
    (∃ message, construct registry started label tag calls = some (.error message) ∧
        ∀ value, ¬calls.Succeeds registry started tag value) ∨
      ∃ value, calls.Succeeds registry started tag value ∧
        construct registry started label tag calls = some (.ok value) := by
  unfold construct
  split
  · rename_i untagged
    exact .inl ⟨_, rfl, fun _ succeeds => succeeds.tagged untagged⟩
  · rename_i untagged
    split
    · rename_i message failed
      refine .inl ⟨_, rfl, fun _ succeeds => ?_⟩
      have built := succeeds.built
      rw [failed] at built
      cases built
    · rename_i value built
      split
      · rename_i stage message fails
        refine .inl ⟨_, rfl, fun _ succeeds => ?_⟩
        split_ifs at fails with isStarted
        rw [succeeds.starts isStarted] at fails
        cases fails
      · rename_i starts
        have startsIf : started = true → calls.starting = none := by
          intro isStarted
          rwa [if_pos isStarted] at starts
        split
        · rename_i absent
          exact .inr ⟨value, ⟨untagged, built, startsIf, fun _ present => absurd absent present⟩, rfl⟩
        · rename_i existing found
          split
          · rename_i message fails
            refine .inl ⟨_, rfl, fun _ succeeds => ?_⟩
            split_ifs at fails with isStarted
            rw [succeeds.closes isStarted (by simp [found])] at fails
            cases fails
          · rename_i closes
            rw [if_pos (consistent.mem_of_byTag found).1]
            refine .inr ⟨value, ⟨untagged, built, startsIf, fun isStarted _ => ?_⟩, rfl⟩
            rwa [if_pos isStarted] at closes

end SideraCore.Adapter
