import Mathlib

/-!
Owns the inversion of successful computations in `Except`: what a sequence, a
check and a traversal must have done when the whole succeeded.
-/

namespace SideraCore.Control

variable {ε ε' α β : Type} {first computation : Except ε α} {next visit : α → Except ε β} {result : β}
  {problem : ε} {results : List β} {elements : List α}

theorem bind_eq_ok_iff :
    (first >>= next) = .ok result ↔ ∃ value, first = .ok value ∧ next value = .ok result := by
  cases first with
  | error problem =>
      constructor
      · intro succeeded
        cases succeeded
      · rintro ⟨value, succeeded, -⟩
        cases succeeded
  | ok value =>
      constructor
      · intro succeeded
        exact ⟨value, rfl, succeeded⟩
      · rintro ⟨other, same, succeeded⟩
        cases same
        exact succeeded

theorem bind_eq_error_iff :
    (first >>= next) = .error problem ↔
      first = .error problem ∨ ∃ value, first = .ok value ∧ next value = .error problem := by
  cases first with
  | error other =>
      constructor
      · intro failed
        cases failed
        exact .inl rfl
      · rintro (same | ⟨value, succeeded, -⟩)
        · cases same
          rfl
        · cases succeeded
  | ok value =>
      constructor
      · intro failed
        exact .inr ⟨value, rfl, failed⟩
      · rintro (impossible | ⟨other, same, failed⟩)
        · cases impossible
        · cases same
          exact failed

theorem bind_of_eq_ok {value : α} (succeeded : first = .ok value) : (first >>= next) = next value := by
  rw [succeeded]
  rfl

theorem map_eq_ok_iff {transform : α → β} :
    computation.map transform = .ok result ↔ ∃ value, computation = .ok value ∧ transform value = result := by
  cases computation with
  | error problem | ok value => simp [Except.map]

theorem map_eq_error_iff {transform : α → β} :
    computation.map transform = .error problem ↔ computation = .error problem := by
  cases computation with
  | error problem | ok value => simp [Except.map]

theorem mapError_eq_ok_iff {wrap : ε → ε'} {result : α} :
    computation.mapError wrap = .ok result ↔ computation = .ok result := by
  cases computation with
  | error problem =>
      constructor <;> intro succeeded <;> cases succeeded
  | ok value =>
      constructor <;> rintro ⟨⟩ <;> rfl

theorem throw_bind (problem : ε) (next : α → Except ε β) :
    ((throw problem : Except ε α) >>= next) = throw problem := rfl

theorem pure_eq_ok_iff {value result : α} :
    (pure value : Except ε α) = .ok result ↔ value = result := by
  constructor
  · intro same
    cases same
    rfl
  · rintro rfl
    rfl

theorem ite_throw_eq_ok_iff {check : Prop} [Decidable check] {rest : Except ε α} {result : α} :
    (if check then throw problem else rest) = .ok result ↔ ¬check ∧ rest = .ok result := by
  by_cases failed : check
  · rw [if_pos failed]
    constructor
    · intro succeeded
      cases succeeded
    · exact fun both => absurd failed both.1
  · rw [if_neg failed]
    exact ⟨fun succeeded => ⟨failed, succeeded⟩, And.right⟩

theorem eq_ok_of_ite_check {check : Prop} [Decidable check] {rest : Except ε β}
    (succeeded : (if check then first >>= fun _ => rest else rest) = .ok result) :
    rest = .ok result := by
  by_cases checked : check
  · rw [if_pos checked, bind_eq_ok_iff] at succeeded
    obtain ⟨-, -, later⟩ := succeeded
    exact later
  · rwa [if_neg checked] at succeeded

theorem mapM_cons_eq_ok_iff {head : α} {rest : List α} :
    (head :: rest).mapM visit = .ok results ↔
      ∃ first later, visit head = .ok first ∧ rest.mapM visit = .ok later ∧ results = first :: later := by
  rw [List.mapM_cons, bind_eq_ok_iff]
  apply exists_congr
  intro first
  rw [bind_eq_ok_iff]
  constructor
  · rintro ⟨visited, later, others, assembled⟩
    rw [pure_eq_ok_iff] at assembled
    exact ⟨later, visited, others, assembled.symm⟩
  · rintro ⟨later, visited, others, assembled⟩
    exact ⟨visited, later, others, pure_eq_ok_iff.2 assembled.symm⟩

theorem mem_iff_of_mapM_eq_ok (succeeded : elements.mapM visit = .ok results) (result : β) :
    result ∈ results ↔ ∃ element ∈ elements, visit element = .ok result := by
  induction elements generalizing results with
  | nil =>
      have vacant : [] = results := pure_eq_ok_iff.1 succeeded
      simp [← vacant]
  | cons head rest ih =>
      obtain ⟨first, later, visited, others, assembled⟩ := mapM_cons_eq_ok_iff.1 succeeded
      simp only [assembled, List.mem_cons, ih others, exists_eq_or_imp, visited]
      apply or_congr_left
      constructor
      · intro same
        rw [same]
      · intro same
        injection same with same
        exact same.symm

theorem exists_mem_iff_of_mem_iff {γ : Type} {sources : List γ} {gives : γ → β → Prop}
    (mem : ∀ result, result ∈ results ↔ ∃ source ∈ sources, gives source result) (holds : β → Prop) :
    (∃ result ∈ results, holds result) ↔
      ∃ source ∈ sources, ∃ result, gives source result ∧ holds result := by
  simp only [mem]
  constructor
  · rintro ⟨result, ⟨source, member, given⟩, holding⟩
    exact ⟨source, member, result, given, holding⟩
  · rintro ⟨source, member, result, given, holding⟩
    exact ⟨result, ⟨source, member, given⟩, holding⟩

theorem exists_of_mapM_eq_ok (succeeded : elements.mapM visit = .ok results) {element : α}
    (member : element ∈ elements) : ∃ result, visit element = .ok result := by
  induction elements generalizing results with
  | nil => cases member
  | cons head rest ih =>
      obtain ⟨first, later, visited, others, -⟩ := mapM_cons_eq_ok_iff.1 succeeded
      cases member with
      | head => exact ⟨first, visited⟩
      | tail _ member => exact ih others member

theorem exists_mem_iff_of_mapM_eq_ok (succeeded : elements.mapM visit = .ok results)
    {given : α → Prop} {holds : β → Prop}
    (same : ∀ element result, visit element = .ok result → (holds result ↔ given element)) :
    (∃ result ∈ results, holds result) ↔ ∃ element ∈ elements, given element := by
  rw [exists_mem_iff_of_mem_iff (mem_iff_of_mapM_eq_ok succeeded)]
  refine exists_congr fun element => and_congr_right fun member => ?_
  obtain ⟨result, visited⟩ := exists_of_mapM_eq_ok succeeded member
  simp only [visited, Except.ok.injEq, exists_eq_left', same element result visited]

theorem eq_nil_iff_of_mapM_eq_ok (succeeded : elements.mapM visit = .ok results) :
    results = [] ↔ elements = [] := by
  cases elements with
  | nil =>
      have vacant : [] = results := pure_eq_ok_iff.1 succeeded
      simp [← vacant]
  | cons head rest =>
      obtain ⟨first, later, -, -, assembled⟩ := mapM_cons_eq_ok_iff.1 succeeded
      simp [assembled]

end SideraCore.Control
