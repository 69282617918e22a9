import Mathlib

/-!
Owns assignments in partial bijections: pairing two values, whatever either of
them was paired with before. Partial bijections are Mathlib's `PEquiv`.
-/

namespace SideraCore.Data

open Function

variable {α β : Type} [DecidableEq α] [DecidableEq β]

/-- Pairs two values; their former partners are left without one. -/
def assign (pairing : α ≃. β) (left : α) (right : β) : α ≃. β where
  toFun other :=
    if other = left then some right else if pairing other = some right then none else pairing other
  invFun other :=
    if other = right then some left
    else if pairing.symm other = some left then none else pairing.symm other
  inv first second := by
    have paired : pairing.symm second = some first ↔ pairing first = some second :=
      pairing.mem_iff_mem
    by_cases isLeft : first = left
    · subst isLeft
      by_cases isRight : second = right
      · simp [isRight]
      · simp only [isRight, if_false, if_true, Option.some.injEq, Ne.symm isRight, iff_false]
        split
        · simp
        · assumption
    · by_cases isRight : second = right
      · subst isRight
        simp only [isLeft, if_false, if_true, Option.some.injEq, Ne.symm isLeft, false_iff]
        split
        · simp
        · assumption
      · simp only [isLeft, isRight, if_false]
        constructor
        · intro found
          split at found
          · cases found
          · rw [paired] at found
            simp [found, isRight]
        · intro found
          split at found
          · cases found
          · rw [← paired] at found
            simp [found, isLeft]

variable {pairing : α ≃. β} {left : α} {right : β}

theorem assign_apply (other : α) : assign pairing left right other =
    if other = left then some right
    else if pairing other = some right then none else pairing other := rfl

/-- As an update: the value that holds the right one gives it up, then the left one takes it. -/
theorem assign_eq_update : (assign pairing left right : α → Option β) =
    update
      ((pairing.symm right).elim (pairing : α → Option β) fun former => update pairing former none)
      left (some right) := by
  funext other
  rw [assign_apply, update_apply]
  split
  · rfl
  · have held : pairing other = some right ↔ pairing.symm right = some other := pairing.mem_iff_mem.symm
    cases holder : pairing.symm right with
    | none =>
        rw [if_neg fun found => by simp [held, holder] at found]
        rfl
    | some former =>
        rw [holder, Option.some.injEq] at held
        show _ = update pairing former none other
        by_cases same : former = other
        · rw [if_pos (held.2 same), same, update_self]
        · rw [if_neg fun found => same (held.1 found), update_of_ne (Ne.symm same)]

theorem assign_symm_eq_update (free : pairing left = none) :
    ((assign pairing left right).symm : β → Option α) =
      update pairing.symm right (some left) := by
  funext other
  show (if other = right then some left else if pairing.symm other = some left then none
    else pairing.symm other) = _
  rw [update_apply]
  split
  · rfl
  · rw [if_neg]
    intro found
    have paired : pairing left = some other := pairing.mem_iff_mem.1 found
    rw [free] at paired
    cases paired

end SideraCore.Data
