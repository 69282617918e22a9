import SideraCore.Control.Except
import SideraCore.Rule.DnsRule

/-!
Owns the outbound manager while an instance is built and started: `Create` in
the order of the options, and the choice of the default outbound at start.

It does not own the registry, whose constructor either accepts options or
fails, nor changes to the outbounds of a running instance.
-/

namespace SideraCore.Adapter

open Control Rule

variable {δ : Type}

/-- An outbound or an endpoint, with the tag it runs under once it is created. -/
structure Outbound (δ : Type) where
  type : String
  tag : String
  fields : Option δ
deriving DecidableEq, Repr

/-- The tag the construction loops give: the configured one, else the index. -/
def Outbound.named (index : Nat) (outbound : Outbound δ) : Outbound δ :=
  { outbound with tag := if outbound.tag ≠ "" then outbound.tag else toString index }

structure OutboundOptions (δ : Type) where
  outbounds : List (Outbound δ)
  endpoints : List (Outbound δ)
  routeFinal : String
deriving DecidableEq, Repr

structure Manager (δ : Type) where
  defaultTag : String
  outbounds : List (Outbound δ)
  defaultOutbound : Option (Outbound δ)
deriving DecidableEq, Repr

namespace Manager

def new (defaultTag : String) : Manager δ := ⟨defaultTag, [], none⟩

def create (registry : Outbound δ → Except String Unit) (manager : Manager δ) (outbound : Outbound δ) :
    Except String (Manager δ) := do
  if outbound.tag = "" then throw "invalid argument"
  registry outbound
  return { manager with
    outbounds := manager.outbounds.filter (fun other => other.tag ≠ outbound.tag) ++ [outbound]
    defaultOutbound :=
      if outbound.tag = manager.defaultTag ∨
          (manager.defaultTag = "" ∧ manager.defaultOutbound = none) then
        some outbound
      else manager.defaultOutbound }

def createAll (registry : Outbound δ → Except String Unit) :
    Nat → Manager δ → List (Outbound δ) → Except String (Manager δ)
  | _, manager, [] => pure manager
  | index, manager, outbound :: rest => do
      let created ← (manager.create registry (outbound.named index)).mapError
        (cause · s!"initialize outbound[{index}]")
      createAll registry (index + 1) created rest

/-- `Manager.Start`, up to the choice of the default outbound. -/
def start (endpoints : List (Outbound δ)) (fallback : Except String (Outbound δ))
    (manager : Manager δ) : Except String (Manager δ) := do
  let chosen ←
    if manager.defaultTag ≠ "" ∧ manager.defaultOutbound.isNone then
      match endpoints.find? fun endpoint => endpoint.tag = manager.defaultTag with
      | none => throw ("default outbound not found: " ++ manager.defaultTag)
      | some endpoint => pure (some endpoint)
    else pure manager.defaultOutbound
  match chosen with
  | some outbound => pure { manager with defaultOutbound := some outbound }
  | none => do
      let direct ← fallback.mapError (cause · "create direct outbound for fallback")
      return { manager with
        outbounds := manager.outbounds ++ [direct]
        defaultOutbound := some direct }

def generatedDirect : Outbound δ := ⟨"direct", "direct", none⟩

def build (registry : Outbound δ → Except String Unit) (options : OutboundOptions δ) :
    Except String (Manager δ) := do
  let manager ← createAll registry 0 (new options.routeFinal) options.outbounds
  let endpoints := options.endpoints.mapIdx fun index endpoint => endpoint.named index
  manager.start endpoints (pure generatedDirect)

/-! ### Without a configured default -/

variable {registry : Outbound δ → Except String Unit} {manager later : Manager δ}

theorem create_default {outbound : Outbound δ} (unset : manager.defaultTag = "")
    (created : manager.create registry outbound = .ok later) :
    later.defaultTag = "" ∧
      later.defaultOutbound = some (manager.defaultOutbound.getD outbound) := by
  simp only [create, throw_bind] at created
  rw [ite_throw_eq_ok_iff, bind_eq_ok_iff] at created
  obtain ⟨tagged, -, -, assembled⟩ := created
  rw [← pure_eq_ok_iff.1 assembled]
  refine ⟨unset, ?_⟩
  cases known : manager.defaultOutbound with
  | none => simp [unset]
  | some chosen =>
      rw [unset, if_neg (by simp [tagged])]
      rfl

theorem createAll_default {outbounds : List (Outbound δ)} {index : Nat} (unset : manager.defaultTag = "")
    (created : createAll registry index manager outbounds = .ok later) :
    later.defaultTag = "" ∧
      later.defaultOutbound =
        manager.defaultOutbound.or (outbounds.head?.map (Outbound.named index)) := by
  induction outbounds generalizing index manager with
  | nil =>
      rw [← pure_eq_ok_iff.1 created]
      simp [unset]
  | cons outbound rest ih =>
      obtain ⟨next, one, others⟩ := bind_eq_ok_iff.1 created
      have stepped := create_default unset (mapError_eq_ok_iff.1 one)
      have reached := ih stepped.1 others
      refine ⟨reached.1, ?_⟩
      rw [reached.2, stepped.2]
      cases manager.defaultOutbound <;> rfl

/-- **The default without a configured one**: the first outbound, else the generated
one. -/
theorem build_default {options : OutboundOptions δ} {running : Manager δ}
    (unset : options.routeFinal = "") (built : build registry options = .ok running) :
    running.defaultOutbound =
      some ((options.outbounds.head?.map (Outbound.named 0)).getD generatedDirect) := by
  obtain ⟨manager, created, started⟩ := bind_eq_ok_iff.1 built
  obtain ⟨untagged, chosen⟩ := createAll_default unset created
  simp only [start, untagged, chosen, ne_eq, not_true_eq_false, false_and, if_false] at started
  obtain ⟨selected, same, started⟩ := bind_eq_ok_iff.1 started
  rw [← pure_eq_ok_iff.1 same] at started
  cases listed : options.outbounds with
  | nil =>
      simp only [listed, List.head?_nil, Option.map_none] at started
      obtain ⟨direct, generated, started⟩ := bind_eq_ok_iff.1 started
      rw [← pure_eq_ok_iff.1 started, pure_eq_ok_iff.1 (mapError_eq_ok_iff.1 generated)]
      rfl
  | cons outbound rest =>
      simp only [listed, List.head?_cons, Option.map_some] at started
      rw [← pure_eq_ok_iff.1 started]
      rfl

end Manager

end SideraCore.Adapter
