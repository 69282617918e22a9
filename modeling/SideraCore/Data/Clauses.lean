import Mathlib

/-!
Owns Boolean conditions on a list of points whose atoms ask for a point of some kind
in the list, and their clauses: the ways in which a condition comes out true or
false. Whether points can be found that meet a clause is a question of covering
(`Clause.meetable_iff`).
-/

namespace SideraCore.Data

variable {α : Type}

/-- Asks for a point in a list; an empty list has an answer of its own. -/
structure Probe (α : Type) where
  accepts : α → Bool
  onEmpty : Bool

def Probe.holds (probe : Probe α) (points : List α) : Bool :=
  if points.isEmpty then probe.onEmpty else points.any probe.accepts

/-- Probes, each with the outcome it must have. -/
abbrev Clause (α : Type) := List (Probe α × Bool)

namespace Clause

def Met (clause : Clause α) (points : List α) : Prop :=
  ∀ literal ∈ clause, literal.1.holds points = literal.2

/-- No probe that must fail accepts the point. -/
def Spares (clause : Clause α) (point : α) : Prop :=
  ∀ literal ∈ clause, literal.2 = false → literal.1.accepts point = false

/-- The empty list will do, or there are spared points, one for each probe that must
hold. -/
def Meetable (clause : Clause α) (valid : α → Prop) : Prop :=
  (∀ literal ∈ clause, literal.1.onEmpty = literal.2) ∨
    (∃ point, valid point ∧ clause.Spares point) ∧
      ∀ literal ∈ clause, literal.2 = true →
        ∃ point, valid point ∧ clause.Spares point ∧ literal.1.accepts point = true

variable {clause : Clause α} {points : List α} {valid : α → Prop}

theorem Met.spares (met : clause.Met points) {point : α} (member : point ∈ points) :
    clause.Spares point := by
  intro literal inside fails
  have refused := met literal inside
  rw [fails, Probe.holds, if_neg (by simp [List.ne_nil_of_mem member]), List.any_eq_false] at refused
  simpa using refused point member

theorem meetable_iff : clause.Meetable valid ↔
    ∃ points, (∀ point ∈ points, valid point) ∧ clause.Met points := by
  constructor
  · rintro (empty | ⟨⟨spare, isValid, spared⟩, found⟩)
    · exact ⟨[], by simp, empty⟩
    · have : Nonempty α := ⟨spare⟩
      choose! pick picks using found
      refine ⟨spare :: (clause.filter (·.2)).map pick, ?_, fun literal inside => ?_⟩
      · simp only [List.mem_cons, List.mem_map, List.mem_filter]
        rintro point (rfl | ⟨literal, ⟨inside, holds⟩, rfl⟩)
        · exact isValid
        · exact (picks literal inside holds).1
      · rw [Probe.holds, if_neg (by simp)]
        cases wanted : literal.2 with
        | true =>
            have accepted := (picks literal inside wanted).2.2
            refine List.any_eq_true.2 ⟨pick literal, List.mem_cons_of_mem _ ?_, accepted⟩
            exact List.mem_map_of_mem (List.mem_filter.2 ⟨inside, wanted⟩)
        | false =>
            simp only [List.any_eq_false, List.mem_cons, List.mem_map, List.mem_filter,
              Bool.not_eq_true]
            rintro point (rfl | ⟨other, ⟨there, holds⟩, rfl⟩)
            · exact spared literal inside wanted
            · exact (picks other there holds).2.1 literal inside wanted
  · rintro ⟨points, allValid, met⟩
    cases points with
    | nil => exact .inl met
    | cons first rest =>
        refine .inr ⟨⟨first, allValid first (by simp), met.spares (by simp)⟩, fun literal inside holds => ?_⟩
        have accepted := met literal inside
        rw [holds, Probe.holds, if_neg (by simp), List.any_eq_true] at accepted
        obtain ⟨point, member, accepts⟩ := accepted
        exact ⟨point, allValid point member, met.spares member, accepts⟩

end Clause

inductive Condition (α : Type) where
  | known (verdict : Bool)
  | asks (probe : Probe α)
  | not (condition : Condition α)
  | and (first second : Condition α)
  | or (first second : Condition α)

namespace Condition

def eval : Condition α → List α → Bool
  | known verdict, _ => verdict
  | asks probe, points => probe.holds points
  | not condition, points => !condition.eval points
  | and first second, points => first.eval points && second.eval points
  | or first second, points => first.eval points || second.eval points

def all (conditions : List (Condition α)) : Condition α := conditions.foldr and (known true)

def any (conditions : List (Condition α)) : Condition α := conditions.foldr or (known false)

def negateIf (condition : Condition α) (invert : Bool) : Condition α :=
  if invert then condition.not else condition

def both (first second : List (Clause α)) : List (Clause α) :=
  first.flatMap fun clause => second.map (clause ++ ·)

/-- The ways in which the condition comes out as wanted. -/
def clauses : Condition α → Bool → List (Clause α)
  | known verdict, wanted => if verdict = wanted then [[]] else []
  | asks probe, wanted => [[(probe, wanted)]]
  | not condition, wanted => condition.clauses (!wanted)
  | and first second, true => both (first.clauses true) (second.clauses true)
  | and first second, false => first.clauses false ++ second.clauses false
  | or first second, true => first.clauses true ++ second.clauses true
  | or first second, false => both (first.clauses false) (second.clauses false)

variable (points : List α)

@[simp] theorem eval_negateIf (condition : Condition α) (invert : Bool) :
    (condition.negateIf invert).eval points =
      if invert then !condition.eval points else condition.eval points := by
  cases invert <;> rfl

theorem eval_all (conditions : List (Condition α)) :
    (all conditions).eval points = conditions.all (·.eval points) := by
  induction conditions with
  | nil => rfl
  | cons first rest ih => exact congrArg (first.eval points && ·) ih

theorem eval_any (conditions : List (Condition α)) :
    (any conditions).eval points = conditions.any (·.eval points) := by
  induction conditions with
  | nil => rfl
  | cons first rest ih => exact congrArg (first.eval points || ·) ih

theorem met_both (first second : List (Clause α)) :
    (∃ clause ∈ both first second, clause.Met points) ↔
      (∃ clause ∈ first, clause.Met points) ∧ ∃ clause ∈ second, clause.Met points := by
  simp only [both, List.mem_flatMap, List.mem_map, Clause.Met]
  constructor
  · rintro ⟨_, ⟨left, inFirst, right, inSecond, rfl⟩, met⟩
    exact ⟨⟨left, inFirst, fun literal inside => met literal (List.mem_append_left _ inside)⟩,
      right, inSecond, fun literal inside => met literal (List.mem_append_right _ inside)⟩
  · rintro ⟨⟨left, inFirst, metLeft⟩, right, inSecond, metRight⟩
    refine ⟨_, ⟨left, inFirst, right, inSecond, rfl⟩, fun literal inside => ?_⟩
    exact (List.mem_append.1 inside).elim (metLeft literal) (metRight literal)

theorem met_append (first second : List (Clause α)) :
    (∃ clause ∈ first ++ second, clause.Met points) ↔
      (∃ clause ∈ first, clause.Met points) ∨ ∃ clause ∈ second, clause.Met points := by
  simp only [List.mem_append, or_and_right, exists_or]

theorem eval_eq_iff (condition : Condition α) (wanted : Bool) :
    condition.eval points = wanted ↔ ∃ clause ∈ condition.clauses wanted, clause.Met points := by
  induction condition generalizing wanted with
  | known verdict =>
      by_cases same : verdict = wanted <;> simp [eval, clauses, Clause.Met, same]
  | asks probe => simp only [eval, clauses, Clause.Met, List.mem_singleton, exists_eq_left, forall_eq]
  | not condition ih => rw [eval, clauses, ← ih, Bool.not_eq_eq_eq_not]
  | and first second ihFirst ihSecond =>
      cases wanted with
      | true => rw [eval, clauses, met_both, ← ihFirst, ← ihSecond, Bool.and_eq_true]
      | false => rw [eval, clauses, met_append, ← ihFirst, ← ihSecond, Bool.and_eq_false_iff]
  | or first second ihFirst ihSecond =>
      cases wanted with
      | true => rw [eval, clauses, met_append, ← ihFirst, ← ihSecond, Bool.or_eq_true]
      | false => rw [eval, clauses, met_both, ← ihFirst, ← ihSecond, Bool.or_eq_false_iff]

/-- A condition can be satisfied iff one of its clauses can be met. -/
theorem satisfiable_iff (condition : Condition α) (valid : α → Prop) :
    (∃ points, (∀ point ∈ points, valid point) ∧ condition.eval points = true) ↔
      ∃ clause ∈ condition.clauses true, clause.Meetable valid := by
  simp only [eval_eq_iff, Clause.meetable_iff]
  constructor
  · rintro ⟨points, allValid, clause, member, met⟩
    exact ⟨clause, member, points, allValid, met⟩
  · rintro ⟨clause, member, points, allValid, met⟩
    exact ⟨points, allValid, clause, member, met⟩

end Condition

end SideraCore.Data
