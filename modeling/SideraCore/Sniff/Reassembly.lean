import SideraCore.Sniff.Ja3
import SideraCore.Route.Walk

/-!
Owns the reassembly of a QUIC hello: the search for the piece at the next offset,
and the record that the bytes found are put into.

The search ends when every piece that it takes moves it on, and a record whose
announced length is not that of the hello never parses.
-/

namespace SideraCore.Sniff

open Control Control.Checked Route
open Relation (ReflTransGen)

variable (fragments : List CryptoFragment)

def pieceAt (index : Nat) : Option CryptoFragment :=
  fragments.find? fun fragment => fragment.offset == index

/-- One turn of the search: the index and the bytes written so far. No piece is taken
twice unless it is empty. -/
def assembleTurn (state : Nat × List UInt8) :
    Checked Empty ((Nat × List UInt8) ⊕ List UInt8) :=
  match pieceAt fragments state.1 with
  | some fragment => .ok (.inl (fragment.offset + fragment.length, state.2 ++ fragment.payload))
  | none => .ok (.inr state.2)

def assemble (turns : Nat) (fragments : List CryptoFragment) : Checked Empty (List UInt8) :=
  iterate (assembleTurn fragments) turns (0, [])

def frameLen : Nat := (fragments.map (·.length)).sum

/-- A handshake record that announces the length of all pieces, as a `uint16`. -/
def record (body : List UInt8) : List UInt8 :=
  [0x16, 0x03, 0x03, UInt8.ofNat (frameLen fragments / 256), UInt8.ofNat (frameLen fragments)] ++ body

def Next (index next : Nat) : Prop :=
  ∃ fragment, pieceAt fragments index = some fragment ∧ next = index + fragment.length

/-- Every piece that the search takes from the start moves it on. -/
def Advances : Prop :=
  ∀ index, ReflTransGen (Next fragments) 0 index →
    ∀ fragment, pieceAt fragments index = some fragment → 0 < fragment.length

section Search

variable {fragments : List CryptoFragment} {fragment : CryptoFragment} {state : Nat × List UInt8}

theorem pieceAt_spec {index : Nat} (found : pieceAt fragments index = some fragment) :
    fragment ∈ fragments ∧ fragment.offset = index := by
  refine ⟨List.mem_of_find?_eq_some found, ?_⟩
  have matched := List.find?_some found
  exact beq_iff_eq.1 matched

theorem assembleTurn_of_piece (found : pieceAt fragments state.1 = some fragment) :
    assembleTurn fragments state =
      .ok (.inl (state.1 + fragment.length, state.2 ++ fragment.payload)) := by
  simp only [assembleTurn, found, (pieceAt_spec found).2]

theorem assembleTurn_of_none (missing : pieceAt fragments state.1 = none) :
    assembleTurn fragments state = .ok (.inr state.2) := by
  simp only [assembleTurn, missing]

theorem assembleTurn_total (fragments : List CryptoFragment) (state : Nat × List UInt8) :
    ∃ outcome, assembleTurn fragments state = .ok outcome := by
  cases found : pieceAt fragments state.1 with
  | some fragment => exact ⟨_, assembleTurn_of_piece found⟩
  | none => exact ⟨_, assembleTurn_of_none found⟩

variable {next : Nat × List UInt8} {turns : Nat}

theorem assembleTurn_next_iff :
    assembleTurn fragments state = .ok (.inl next) ↔
      ∃ fragment, pieceAt fragments state.1 = some fragment ∧
        next = (state.1 + fragment.length, state.2 ++ fragment.payload) := by
  cases found : pieceAt fragments state.1 with
  | none => simp [assembleTurn_of_none found]
  | some fragment =>
      rw [assembleTurn_of_piece found]
      simp [eq_comm]

def ahead (fragments : List CryptoFragment) (state : Nat × List UInt8) : Nat :=
  fragments.countP fun fragment => state.1 ≤ fragment.offset

theorem ahead_lt (found : pieceAt fragments state.1 = some fragment) (nonempty : 0 < fragment.length)
    (moved : next.1 = state.1 + fragment.length) :
    ahead fragments next < ahead fragments state := by
  obtain ⟨member, atIndex⟩ := pieceAt_spec found
  obtain ⟨before, after, rfl⟩ := List.append_of_mem member
  have later : ∀ part : List CryptoFragment, ahead part next ≤ ahead part state := by
    intro part
    apply List.countP_mono_left
    intro other _ isAhead
    simp only [decide_eq_true_eq] at isAhead ⊢
    omega
  have beforeLater := later before
  have afterLater := later after
  have taken : ¬next.1 ≤ fragment.offset := by omega
  have atHand : state.1 ≤ fragment.offset := by omega
  simp only [ahead, List.countP_append, List.countP_cons, taken, atHand, decide_true, decide_false,
    Bool.false_eq_true, if_true, if_false] at beforeLater afterLater ⊢
  omega

theorem reaches_index (reached : Reaches (assembleTurn fragments) (0, []) state) :
    ReflTransGen (Next fragments) 0 state.1 := by
  apply reached.invariant (fun state => ReflTransGen (Next fragments) 0 state.1) .refl
  intro state next before turned
  obtain ⟨fragment, found, moved⟩ := assembleTurn_next_iff.1 turned
  exact before.tail ⟨fragment, found, by rw [moved]⟩

/-- A search that always moves on ends, within as many turns as there are pieces. -/
theorem assemble_finishes (advances : Advances fragments) (enough : fragments.length < turns) :
    ∃ body, assemble turns fragments = .ok body := by
  have shrinks : ∀ state next, Reaches (assembleTurn fragments) (0, []) state →
      assembleTurn fragments state = .ok (.inl next) → ahead fragments next < ahead fragments state := by
    intro state next reached turned
    obtain ⟨fragment, found, moved⟩ := assembleTurn_next_iff.1 turned
    exact ahead_lt found (advances _ (reaches_index reached) fragment found) (by rw [moved])
  have few : ahead fragments (0, []) < turns := Nat.lt_of_le_of_lt List.countP_le_length enough
  cases ended : assemble turns fragments with
  | ok body => exact ⟨body, rfl⟩
  | error stop =>
      obtain ⟨state, -, stopped⟩ := (iterate_eq_error_iff shrinks few).1 ended
      obtain ⟨outcome, returned⟩ := assembleTurn_total fragments state
      rw [returned] at stopped
      cases stopped

/-- A search that comes to an empty piece takes it again and again. -/
theorem assemble_unfinished (stalls : ¬Advances fragments) (turns : Nat) :
    assemble turns fragments = .error .unfinished := by
  simp only [Advances, not_forall] at stalls
  obtain ⟨stall, comes, fragment, found, isEmpty⟩ := stalls
  have turn : ∀ state : Nat × List UInt8, ReflTransGen (Next fragments) state.1 stall →
      ∃ next : Nat × List UInt8, ReflTransGen (Next fragments) next.1 stall ∧
        assembleTurn fragments state = .ok (.inl next) := by
    intro state onTheWay
    rcases onTheWay.cases_head with arrived | ⟨index, ⟨piece, taken, moved⟩, later⟩
    · have here : pieceAt fragments state.1 = some fragment := arrived ▸ found
      refine ⟨_, ?_, assembleTurn_of_piece here⟩
      have stays : state.1 + fragment.length = stall := by omega
      rw [stays]
    · refine ⟨_, ?_, assembleTurn_of_piece taken⟩
      rw [← moved]
      exact later
  exact iterate_unfinished_of_stays turn comes

end Search

end SideraCore.Sniff
