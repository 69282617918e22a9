import SideraCore.Control.Except

/-!
Owns computations whose accesses are checked at run time: a computation returns,
fails with an error, panics, or does not finish within the turns it is given.
It also owns checked accesses to a list and loops that run until they have a result:
when they panic, and when a loop finishes.
-/

namespace SideraCore.Control

inductive Stop (ε : Type) where
  | error (problem : ε)
  | panic
  | unfinished
deriving DecidableEq, Repr

def Stop.Fatal {ε : Type} : Stop ε → Prop
  | .error _ => False
  | .panic => True
  | .unfinished => True

theorem Stop.fatal_panic {ε : Type} : (Stop.panic : Stop ε).Fatal := trivial

theorem Stop.fatal_unfinished {ε : Type} : (Stop.unfinished : Stop ε).Fatal := trivial

abbrev Checked (ε α : Type) := Except (Stop ε) α

namespace Checked

variable {ε α β σ : Type}

def failIf (check : Prop) [Decidable check] (problem : ε) : Checked ε Unit :=
  if check then .error (.error problem) else .ok ()

def index (list : List α) (position : Nat) : Checked ε α :=
  match list[position]? with
  | some element => .ok element
  | none => .error .panic

def slice (list : List α) (low high : Nat) : Checked ε (List α) :=
  if low ≤ high ∧ high ≤ list.length then .ok ((list.drop low).take (high - low))
  else .error .panic

def attempt : Checked ε α → Checked Empty (Except ε α)
  | .ok value => .ok (.ok value)
  | .error (.error problem) => .ok (.error problem)
  | .error .panic => .error .panic
  | .error .unfinished => .error .unfinished

/-! ### How a computation stops -/

variable {check : Prop} {problem : ε} {list : List α} {position : Nat}

theorem failIf_eq_ok_iff [Decidable check] {done : Unit} :
    failIf check problem = .ok done ↔ ¬check := by
  by_cases failed : check
  · simp [failIf, failed]
  · simp [failIf, failed]

theorem failIf_eq_ok [Decidable check] (passed : ¬check) :
    failIf check problem = .ok () := if_neg passed

theorem failIf_eq_fail [Decidable check] (failed : check) :
    failIf check problem = .error (.error problem) := if_pos failed

theorem error_bind (stop : Stop ε) (next : α → Checked ε β) :
    ((.error stop : Checked ε α) >>= next) = .error stop := rfl

theorem index_eq_ok_iff {element : α} :
    (index list position : Checked ε α) = .ok element ↔ list[position]? = some element := by
  unfold index
  cases found : list[position]? with
  | some other | none => simp

theorem index_take {count : Nat} (before : position < count) :
    (index (list.take count) position : Checked ε α) = index list position := by
  simp only [index, List.getElem?_take, before, if_true]

theorem index_eq_panic (outside : list.length ≤ position) :
    (index list position : Checked ε α) = .error .panic := by
  simp [index, outside]

theorem slice_eq_ok {low high : Nat} (ordered : low ≤ high) (inside : high ≤ list.length) :
    (slice list low high : Checked ε (List α)) = .ok ((list.drop low).take (high - low)) :=
  if_pos ⟨ordered, inside⟩

theorem slice_eq_panic {low high : Nat} (outside : list.length < high) :
    (slice list low high : Checked ε (List α)) = .error .panic :=
  if_neg fun inside => Nat.not_lt.2 inside.2 outside

/-- The computation returns a value with a property, or fails: it neither panics nor
runs out of turns. -/
def Returns (computation : Checked ε α) (holds : α → Prop) : Prop :=
  match computation with
  | .ok value => holds value
  | .error (.error _) => True
  | .error .panic => False
  | .error .unfinished => False

section Returns

variable {computation first : Checked ε α} {holds between : α → Prop} {next : α → Checked ε β}
  {after : β → Prop}

section Returns

variable (returns : Returns computation holds)
include returns

theorem Returns.ne_panic : computation ≠ .error .panic := by
  rintro rfl
  exact returns

theorem Returns.ne_unfinished : computation ≠ .error .unfinished := by
  rintro rfl
  exact returns

theorem Returns.of_eq_ok {value : α} (returned : computation = .ok value) : holds value := by
  rw [returned] at returns
  exact returns

theorem Returns.eq_fail (fails : ∀ value, computation ≠ .ok value) :
    ∃ problem, computation = .error (.error problem) := by
  cases computation with
  | ok value => exact absurd rfl (fails value)
  | error stop =>
      cases stop with
      | error problem => exact ⟨problem, rfl⟩
      | panic | unfinished => exact absurd returns id

end Returns

theorem Returns.eq_ok {computation : Checked Empty α} (returns : Returns computation holds) :
    ∃ value, computation = .ok value := by
  cases computation with
  | ok value => exact ⟨value, rfl⟩
  | error stop =>
      cases stop with
      | error problem => exact problem.elim
      | panic | unfinished => exact absurd returns id

theorem Returns.and_eq (returns : Returns computation holds) :
    Returns computation fun value => computation = .ok value ∧ holds value := by
  cases computation with
  | ok value => exact ⟨rfl, returns⟩
  | error stop =>
      cases stop with
      | error problem => trivial
      | panic | unfinished => exact returns

theorem returns_pure {value : α} (held : holds value) :
    Returns (pure value : Checked ε α) holds := held

theorem returns_bind (returns : Returns first between)
    (later : ∀ value, between value → Returns (next value) after) :
    Returns (first >>= next) after := by
  cases first with
  | ok value => exact later value returns
  | error stop =>
      cases stop with
      | error problem => trivial
      | panic | unfinished => exact returns

theorem Returns.weaken (returns : Returns computation between)
    (implied : ∀ value, between value → holds value) : Returns computation holds := by
  rw [← bind_pure computation]
  exact returns_bind returns fun value held => returns_pure (implied value held)

theorem Returns.bind_eq_error_iff {stop : Stop ε} (returns : Returns first between)
    (fatal : stop.Fatal) :
    (first >>= next) = .error stop ↔ ∃ value, first = .ok value ∧ next value = .error stop := by
  rw [Control.bind_eq_error_iff]
  apply or_iff_right
  intro stopped
  rw [stopped] at returns
  cases stop with
  | error problem => exact fatal
  | panic | unfinished => exact returns

theorem returns_failIf {check : Prop} [Decidable check] {problem : ε} {next : Unit → Checked ε β}
    (later : ¬check → Returns (next ()) after) : Returns (failIf check problem >>= next) after := by
  unfold failIf
  split_ifs with failed
  · trivial
  · exact later failed

theorem returns_index {list : List α} {position : Nat} (inside : position < list.length) :
    Returns (index list position : Checked ε α) fun element => list[position]? = some element := by
  simp [index, inside, Returns]

theorem returns_slice {list : List α} {low high : Nat} (ordered : low ≤ high)
    (inside : high ≤ list.length) :
    Returns (slice list low high : Checked ε (List α))
      fun part => part = (list.drop low).take (high - low) := by
  rw [slice_eq_ok ordered inside]
  rfl

end Returns

/-- A loop: its body either goes on with another state or ends with a result. -/
def iterate (body : σ → Checked ε (σ ⊕ α)) : Nat → σ → Checked ε α
  | 0, _ => .error .unfinished
  | turns + 1, state =>
      match body state with
      | .ok (.inl next) => iterate body turns next
      | .ok (.inr result) => .ok result
      | .error stop => .error stop

inductive Reaches (body : σ → Checked ε (σ ⊕ α)) : σ → σ → Prop where
  | refl (state : σ) : Reaches body state state
  | step {state next last : σ} : body state = .ok (.inl next) → Reaches body next last →
      Reaches body state last

section Loop

variable {body : σ → Checked ε (σ ⊕ α)} {start next : σ} {turns : Nat}

theorem iterate_of_next (step : body start = .ok (.inl next)) :
    iterate body (turns + 1) start = iterate body turns next := by
  rw [iterate, step]

theorem iterate_of_result {result : α} (step : body start = .ok (.inr result)) :
    iterate body (turns + 1) start = .ok result := by
  rw [iterate, step]

variable {stop : Stop ε} {state : σ}

theorem iterate_of_stop (step : body start = .error stop) :
    iterate body (turns + 1) start = .error stop := by
  rw [iterate, step]

theorem reaches_iff_of_next (step : body start = .ok (.inl next)) :
    Reaches body start state ↔ state = start ∨ Reaches body next state := by
  constructor
  · intro reached
    cases reached with
    | refl => exact .inl rfl
    | step other later =>
        rw [step] at other
        cases other
        exact .inr later
  · rintro (rfl | later)
    · exact .refl state
    · exact .step step later

theorem reaches_iff_of_last (last : ∀ next, body start ≠ .ok (.inl next)) :
    Reaches body start state ↔ state = start := by
  constructor
  · intro reached
    cases reached with
    | refl => rfl
    | step other _ => exact absurd other (last _)
  · rintro rfl
    exact .refl state

/-- What holds at the start and is kept by the body holds in every state reached. -/
theorem Reaches.invariant (holds : σ → Prop) (reached : Reaches body start state)
    (starts : holds start)
    (kept : ∀ state next, holds state → body state = .ok (.inl next) → holds next) : holds state := by
  induction reached with
  | refl => exact starts
  | step stepped _ ih => exact ih (kept _ _ starts stepped)

theorem reaches_of_iterate_eq_ok {result : α} (returned : iterate body turns start = .ok result) :
    ∃ state, Reaches body start state ∧ body state = .ok (.inr result) := by
  induction turns generalizing start with
  | zero => cases returned
  | succ turns ih =>
      cases step : body start with
      | error stop =>
          rw [iterate_of_stop step] at returned
          cases returned
      | ok outcome =>
          cases outcome with
          | inr other =>
              rw [iterate_of_result step] at returned
              cases returned
              exact ⟨start, .refl start, step⟩
          | inl next =>
              rw [iterate_of_next step] at returned
              obtain ⟨state, reached, last⟩ := ih returned
              exact ⟨state, .step step reached, last⟩

theorem iterate_of_finished {more : Nat} (finished : iterate body turns start ≠ .error .unfinished)
    (enough : turns ≤ more) : iterate body more start = iterate body turns start := by
  induction turns generalizing start more with
  | zero => exact absurd rfl finished
  | succ turns ih =>
      obtain ⟨more, rfl⟩ : ∃ fewer, more = fewer + 1 := ⟨more - 1, by omega⟩
      cases step : body start with
      | error stop => rw [iterate_of_stop step, iterate_of_stop step]
      | ok outcome =>
          cases outcome with
          | inr result => rw [iterate_of_result step, iterate_of_result step]
          | inl next =>
              rw [iterate_of_next step] at finished
              rw [iterate_of_next step, iterate_of_next step]
              exact ih finished (by omega)

theorem iterate_unique {other : Nat} (finished : iterate body turns start ≠ .error .unfinished)
    (otherFinished : iterate body other start ≠ .error .unfinished) :
    iterate body turns start = iterate body other start := by
  rw [← iterate_of_finished finished (Nat.le_max_left turns other),
    ← iterate_of_finished otherFinished (Nat.le_max_right turns other)]

/-- A loop that always has a next state with a property never finishes. -/
theorem iterate_unfinished_of_stays {stays : σ → Prop}
    (turn : ∀ state, stays state → ∃ next, stays next ∧ body state = .ok (.inl next))
    (starts : stays start) : iterate body turns start = .error .unfinished := by
  induction turns generalizing start with
  | zero => rfl
  | succ turns ih =>
      obtain ⟨next, kept, step⟩ := turn start starts
      rw [iterate_of_next step]
      exact ih kept

theorem stop_of_iterate_eq_error (total : ∀ state, ∃ outcome, body state = .ok outcome)
    (stopped : iterate body turns start = .error stop) : stop = .unfinished := by
  induction turns generalizing start with
  | zero =>
      cases stopped
      rfl
  | succ turns ih =>
      obtain ⟨outcome, step⟩ := total start
      cases outcome with
      | inr result =>
          rw [iterate_of_result step] at stopped
          cases stopped
      | inl next =>
          rw [iterate_of_next step] at stopped
          exact ih stopped

/-- A loop whose states shrink stops in time, exactly as its body does in a state it
reaches. -/
theorem iterate_eq_error_iff {size : σ → Nat}
    (shrinks : ∀ state next, Reaches body start state → body state = .ok (.inl next) →
      size next < size state) (enough : size start < turns) :
    iterate body turns start = .error stop ↔
      ∃ state, Reaches body start state ∧ body state = .error stop := by
  induction turns generalizing start with
  | zero => omega
  | succ turns ih =>
      cases step : body start with
      | error other =>
          have last : ∀ next, body start ≠ .ok (.inl next) := by simp [step]
          rw [iterate_of_stop step]
          simp only [reaches_iff_of_last last, exists_eq_left, step]
          exact ⟨fun same => by cases same; rfl, fun same => by cases same; rfl⟩
      | ok outcome =>
          cases outcome with
          | inr result =>
              have last : ∀ next, body start ≠ .ok (.inl next) := by simp [step]
              rw [iterate_of_result step]
              simp only [reaches_iff_of_last last, exists_eq_left, step, reduceCtorEq]
          | inl next =>
              have smaller := shrinks start next (.refl start) step
              have laterShrinks : ∀ state later, Reaches body next state →
                  body state = .ok (.inl later) → size later < size state :=
                fun state later reached => shrinks state later (.step step reached)
              rw [iterate_of_next step, ih laterShrinks (by omega)]
              simp only [reaches_iff_of_next step, or_and_right, exists_or, exists_eq_left, step,
                reduceCtorEq, false_or]

/-- A loop that panics exactly in the states without a property panics iff it reaches
one. -/
theorem iterate_stops {fits : σ → Prop} {size : σ → Nat}
    (returns : ∀ state, Reaches body start state → fits state → Returns (body state) fun _ => True)
    (panics : ∀ state, ¬fits state → body state = .error .panic)
    (shrinks : ∀ state next, Reaches body start state → body state = .ok (.inl next) →
      size next < size state)
    (enough : size start < turns) :
    iterate body turns start ≠ .error .unfinished ∧
      (iterate body turns start = .error .panic ↔
        ¬∀ state, Reaches body start state → fits state) := by
  rw [ne_eq, iterate_eq_error_iff shrinks enough, iterate_eq_error_iff shrinks enough]
  constructor
  · rintro ⟨state, reached, unfinished⟩
    by_cases fit : fits state
    · exact (returns state reached fit).ne_unfinished unfinished
    · rw [panics state fit] at unfinished
      cases unfinished
  · constructor
    · rintro ⟨state, reached, panicked⟩ fit
      exact (returns state reached (fit state reached)).ne_panic panicked
    · intro overrun
      simp only [not_forall] at overrun
      obtain ⟨state, reached, misfit⟩ := overrun
      exact ⟨state, reached, panics state misfit⟩

/-- The rule of a loop: an invariant that every turn keeps while the state shrinks. -/
theorem returns_iterate (holds : σ → Prop) (size : σ → Nat) {after : α → Prop}
    (turn : ∀ state, holds state → Returns (body state)
      (Sum.elim (fun next => holds next ∧ size next < size state) after))
    (starts : holds start) (enough : size start < turns) :
    Returns (iterate body turns start) after := by
  induction turns generalizing start with
  | zero => omega
  | succ turns ih =>
      have turned := turn start starts
      cases step : body start with
      | error stop =>
          rw [iterate_of_stop step]
          rw [step] at turned
          cases stop with
          | error problem => trivial
          | panic | unfinished => exact turned
      | ok outcome =>
          rw [step] at turned
          cases outcome with
          | inr result =>
              rw [iterate_of_result step]
              exact turned
          | inl next =>
              obtain ⟨kept, smaller⟩ := turned
              rw [iterate_of_next step]
              exact ih kept (by omega)

end Loop

end Checked

end SideraCore.Control
