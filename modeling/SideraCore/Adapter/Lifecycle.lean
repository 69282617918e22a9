import Mathlib

/-!
Owns the stages in which the parts of an instance are started.
-/

namespace SideraCore.Adapter

inductive StartStage where
  | stateInitialize
  | stateStart
  | statePostStart
  | stateStarted
deriving DecidableEq, Repr

namespace StartStage

def rank : StartStage → Nat
  | stateInitialize => 0
  | stateStart => 1
  | statePostStart => 2
  | stateStarted => 3

instance : LE StartStage := ⟨fun first second => first.rank ≤ second.rank⟩

instance (first second : StartStage) : Decidable (first ≤ second) :=
  inferInstanceAs (Decidable (first.rank ≤ second.rank))

def text : StartStage → String
  | stateInitialize => "initialize"
  | stateStart => "start"
  | statePostStart => "post-start"
  | stateStarted => "finish-start"

end StartStage

end SideraCore.Adapter
