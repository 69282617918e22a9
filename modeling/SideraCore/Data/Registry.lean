import Mathlib

/-!
Owns registries of tagged values: the values in the order they came, a map from
their tags, and for every tag the tags of the values that depend on it. The three
are kept by separate assignments, so what each operation needs to keep them in step
is stated as an equivalence.

The list of dependents is kept with repetitions, as it grows by one entry for every
dependency; only which tags occur in it matters to consistency.
-/

namespace SideraCore.Data

open Function

variable {κ α β : Type}

theorem iterate_append (key : κ) (count : Nat) (tags : List κ) :
    (fun tags => tags ++ [key])^[count] tags = tags ++ List.replicate count key := by
  induction count generalizing tags with
  | zero => simp
  | succ count ih =>
      rw [iterate_succ_apply, ih, List.replicate_succ, List.append_assoc]
      rfl

section Assignments

variable [DecidableEq κ]

theorem foldl_update_apply (change : β → β) (keys : List κ) (map : κ → β) (key : κ) :
    keys.foldl (fun map key => update map key (change (map key))) map key =
      change^[keys.count key] (map key) := by
  induction keys generalizing map with
  | nil => rfl
  | cons first rest ih =>
      rw [List.foldl_cons, ih]
      by_cases same : key = first
      · subst same
        rw [update_self, List.count_cons_self, iterate_succ_apply]
      · rw [update_of_ne same, List.count_cons_of_ne (Ne.symm same)]

/-- A list of one tag is emptied, any other loses the key. -/
def withdraw (key : κ) (tags : List κ) : List κ :=
  if tags.length = 1 then [] else tags.filter (· ≠ key)

variable {key : κ} {tags : List κ}

theorem withdraw_of_mem (member : key ∈ tags) :
    withdraw key tags = tags.filter (· ≠ key) := by
  unfold withdraw
  split_ifs with single
  · obtain ⟨only, rfl⟩ := List.length_eq_one_iff.1 single
    rw [List.mem_singleton] at member
    simp [member]
  · rfl

theorem iterate_withdraw {count : Nat} (positive : 0 < count) (member : key ∈ tags) :
    (withdraw key)^[count] tags =
      if 2 ≤ count ∧ (tags.filter (· ≠ key)).length = 1 then [] else tags.filter (· ≠ key) := by
  obtain ⟨later, rfl⟩ := Nat.exists_eq_succ_of_ne_zero (Nat.ne_of_gt positive)
  rw [iterate_succ_apply, withdraw_of_mem member]
  have again (rest : Nat) : (withdraw key)^[rest] ([] : List κ) = [] := by
    induction rest with
    | zero => rfl
    | succ rest ih => exact ih
  induction later with
  | zero => simp
  | succ later ih =>
      rw [iterate_succ_apply]
      by_cases single : (tags.filter (· ≠ key)).length = 1
      · rw [if_pos ⟨by omega, single⟩, withdraw, if_pos single, again]
      · have same : withdraw key (tags.filter (· ≠ key)) = tags.filter (· ≠ key) := by
          rw [withdraw, if_neg single, List.filter_filter]
          simp
        rw [same, ih (by omega), if_neg fun both => single both.2,
          if_neg fun both => single both.2]

end Assignments

structure Registry (κ α : Type) where
  entries : List α
  byTag : κ → Option α
  dependents : κ → List κ

namespace Registry

def empty : Registry κ α := ⟨[], fun _ => none, fun _ => []⟩

/-- List and map hold the same values under distinct tags, and dependents are the values
that depend on a tag. -/
structure Consistent (registry : Registry κ α) (tag : α → κ) (dependencies : α → List κ) : Prop where
  tagged : ∀ key value, registry.byTag key = some value ↔ value ∈ registry.entries ∧ tag value = key
  distinct : (registry.entries.map tag).Nodup
  depended : ∀ key dependent, dependent ∈ registry.dependents key ↔
    ∃ value ∈ registry.entries, tag value = dependent ∧ key ∈ dependencies value

variable {registry : Registry κ α} {tag : α → κ} {dependencies : α → List κ} {key : κ} {value : α}

theorem empty_consistent : (empty : Registry κ α).Consistent tag dependencies := by
  refine ⟨fun key value => ?_, List.nodup_nil, fun key dependent => ?_⟩
  · simp [empty]
  · simp [empty]

namespace Consistent

section Consistent

variable (consistent : registry.Consistent tag dependencies)
include consistent

theorem nodup : registry.entries.Nodup :=
  consistent.distinct.of_map

theorem tag_injective {first second : α} (member : first ∈ registry.entries)
    (other : second ∈ registry.entries) (same : tag first = tag second) : first = second := by
  have one := (consistent.tagged (tag first) first).2 ⟨member, rfl⟩
  have two := (consistent.tagged (tag first) second).2 ⟨other, same.symm⟩
  rw [one, Option.some.injEq] at two
  exact two

theorem mem_of_byTag (found : registry.byTag key = some value) :
    value ∈ registry.entries ∧ tag value = key :=
  (consistent.tagged key value).1 found

end Consistent

end Consistent

variable [DecidableEq κ] [DecidableEq α]

def put (registry : Registry κ α) (key : κ) (value : α) (dependencies : List κ) : Registry κ α :=
  { entries := ((registry.byTag key).elim registry.entries registry.entries.erase) ++ [value]
    byTag := update registry.byTag key (some value)
    dependents := dependencies.foldl
      (fun map dependency => update map dependency (map dependency ++ [key])) registry.dependents }

def adopt (registry : Registry κ α) (key : κ) (value : α) : Registry κ α :=
  { registry with
    entries := registry.entries ++ [value]
    byTag := update registry.byTag key (some value) }

def drop (registry : Registry κ α) (key : κ) (value : α) : Registry κ α :=
  { registry with
    entries := registry.entries.erase value
    byTag := update registry.byTag key none }

/-- The entries of the tag are withdrawn, once for every dependency. -/
def release (registry : Registry κ α) (key : κ) (dependencies : List κ) : Registry κ α :=
  { registry with
    dependents := dependencies.foldl
      (fun map dependency => update map dependency (withdraw key (map dependency)))
      registry.dependents }

namespace Consistent

omit [DecidableEq κ] in
theorem mem_erase_iff (consistent : registry.Consistent tag dependencies)
    (found : registry.byTag key = some value) {other : α} :
    other ∈ registry.entries.erase value ↔ other ∈ registry.entries ∧ tag other ≠ key := by
  obtain ⟨member, rfl⟩ := consistent.mem_of_byTag found
  rw [consistent.nodup.mem_erase_iff]
  constructor
  · rintro ⟨different, isOther⟩
    exact ⟨isOther, fun same => different (consistent.tag_injective isOther member same)⟩
  · rintro ⟨isOther, different⟩
    exact ⟨fun same => different (congrArg tag same), isOther⟩

theorem mem_put_iff (consistent : registry.Consistent tag dependencies) {other : α} {added : List κ} :
    other ∈ (registry.put key value added).entries ↔
      other = value ∨ (other ∈ registry.entries ∧ tag other ≠ key) := by
  simp only [put, List.mem_append, List.mem_singleton]
  rw [or_comm]
  apply or_congr Iff.rfl
  cases found : registry.byTag key with
  | none =>
      refine ⟨fun member => ⟨member, fun same => ?_⟩, And.left⟩
      rw [(consistent.tagged key other).2 ⟨member, same⟩] at found
      cases found
  | some old => exact consistent.mem_erase_iff found

theorem dependents_put (registry : Registry κ α) (key : κ) (value : α) (added : List κ) (dependency : κ) :
    (registry.put key value added).dependents dependency =
      registry.dependents dependency ++ List.replicate (added.count dependency) key := by
  have folded := foldl_update_apply (fun tags : List κ => tags ++ [key]) added registry.dependents dependency
  rw [iterate_append] at folded
  exact folded

section Consistent

variable (consistent : registry.Consistent tag dependencies)
include consistent

/-- A new value keeps a registry consistent iff it has every dependency of the value
whose tag it takes. -/
theorem put_iff :
    (registry.put (tag value) value (dependencies value)).Consistent tag dependencies ↔
      ∀ old, registry.byTag (tag value) = some old → ∀ key ∈ dependencies old, key ∈ dependencies value := by
  constructor
  · intro after old found key depends
    obtain ⟨member, same⟩ := consistent.mem_of_byTag found
    have entry : tag value ∈ (registry.put (tag value) value (dependencies value)).dependents key := by
      rw [dependents_put, List.mem_append]
      exact .inl ((consistent.depended key (tag value)).2 ⟨old, member, same, depends⟩)
    obtain ⟨other, isOther, sameTag, dependsOther⟩ := (after.depended key (tag value)).1 entry
    rcases consistent.mem_put_iff.1 isOther with rfl | ⟨-, different⟩
    · exact dependsOther
    · exact absurd sameTag different
  · intro covered
    refine ⟨fun key other => ?_, ?_, fun key dependent => ?_⟩
    · rw [consistent.mem_put_iff]
      simp only [put]
      by_cases same : key = tag value
      · subst same
        rw [update_self, Option.some.injEq]
        constructor
        · rintro rfl
          exact ⟨.inl rfl, rfl⟩
        · rintro ⟨rfl | ⟨-, different⟩, isTag⟩
          · rfl
          · exact absurd isTag different
      · rw [update_of_ne same, consistent.tagged]
        constructor
        · rintro ⟨member, rfl⟩
          exact ⟨.inr ⟨member, same⟩, rfl⟩
        · rintro ⟨rfl | ⟨member, -⟩, isTag⟩
          · exact absurd isTag.symm same
          · exact ⟨member, isTag⟩
    · have others : ∀ other ∈ (registry.byTag (tag value)).elim registry.entries registry.entries.erase,
          tag other ≠ tag value := by
        cases found : registry.byTag (tag value) with
        | none =>
            intro other member same
            rw [(consistent.tagged (tag value) other).2 ⟨member, same⟩] at found
            cases found
        | some old => exact fun other member => ((consistent.mem_erase_iff found).1 member).2
      have kept : (((registry.byTag (tag value)).elim registry.entries registry.entries.erase).map
          tag).Nodup := by
        cases registry.byTag (tag value) with
        | none => exact consistent.distinct
        | some old => exact consistent.distinct.sublist ((List.erase_sublist).map tag)
      simp only [put, List.map_append, List.map_cons, List.map_nil]
      rw [List.nodup_append]
      refine ⟨kept, List.nodup_singleton _, ?_⟩
      intro first isFirst second isSecond
      obtain ⟨other, member, rfl⟩ := List.mem_map.1 isFirst
      rw [List.mem_singleton.1 isSecond]
      exact others other member
    · rw [dependents_put, List.mem_append, List.mem_replicate, consistent.depended]
      constructor
      · rintro (⟨other, member, rfl, depends⟩ | ⟨occurs, rfl⟩)
        · by_cases same : tag other = tag value
          · have found := (consistent.tagged (tag value) other).2 ⟨member, same⟩
            exact ⟨value, consistent.mem_put_iff.2 (.inl rfl), same.symm,
              covered other found key depends⟩
          · exact ⟨other, consistent.mem_put_iff.2 (.inr ⟨member, same⟩), rfl, depends⟩
        · exact ⟨value, consistent.mem_put_iff.2 (.inl rfl), rfl,
            List.count_pos_iff.1 (Nat.pos_of_ne_zero occurs)⟩
      · rintro ⟨other, member, rfl, depends⟩
        rcases consistent.mem_put_iff.1 member with rfl | ⟨isOld, -⟩
        · exact .inr ⟨Nat.ne_of_gt (List.count_pos_iff.2 depends), rfl⟩
        · exact .inl ⟨other, isOld, rfl, depends⟩

theorem adopt_of_empty (nobody : registry.entries = []) (independent : dependencies value = []) :
    (registry.adopt (tag value) value).Consistent tag dependencies := by
  have absent : registry.byTag (tag value) = none := by
    by_contra present
    obtain ⟨other, found⟩ := Option.ne_none_iff_exists'.1 present
    have member := (consistent.mem_of_byTag found).1
    rw [nobody] at member
    cases member
  have put : (registry.put (tag value) value (dependencies value)).Consistent tag dependencies := by
    rw [consistent.put_iff]
    intro old found
    rw [absent] at found
    cases found
  simpa only [Registry.put, Registry.adopt, absent, independent, Option.elim_none, List.foldl_nil] using put

theorem dependents_release (found : registry.byTag key = some value) (dependency : κ) :
    ((registry.drop key value).release key (dependencies value)).dependents dependency =
      if dependency ∉ dependencies value then registry.dependents dependency
      else if 2 ≤ (dependencies value).count dependency ∧
          ((registry.dependents dependency).filter (· ≠ key)).length = 1 then []
      else (registry.dependents dependency).filter (· ≠ key) := by
  have folded := foldl_update_apply (withdraw key) (dependencies value) registry.dependents dependency
  refine folded.trans ?_
  by_cases depends : dependency ∈ dependencies value
  · rw [if_neg (not_not.2 depends)]
    obtain ⟨member, same⟩ := consistent.mem_of_byTag found
    have entered := (consistent.depended dependency key).2 ⟨value, member, same, depends⟩
    exact iterate_withdraw (List.count_pos_iff.2 depends) entered
  · rw [if_pos depends, List.count_eq_zero_of_not_mem depends]
    rfl

/-- Taking a value out keeps a registry consistent iff no dependency that it names twice
has exactly one other entry. -/
theorem release_iff (found : registry.byTag key = some value) :
    ((registry.drop key value).release key (dependencies value)).Consistent tag dependencies ↔
      ∀ dependency, 2 ≤ (dependencies value).count dependency →
        ((registry.dependents dependency).filter (· ≠ key)).length ≠ 1 := by
  have mem {other : α} : other ∈ registry.entries.erase value ↔
      other ∈ registry.entries ∧ tag other ≠ key := consistent.mem_erase_iff found
  constructor
  · intro after dependency twice single
    have depends : dependency ∈ dependencies value := List.count_pos_iff.1 (by omega)
    obtain ⟨other, isOther⟩ := List.length_eq_one_iff.1 single
    have entry : other ∈ (registry.dependents dependency).filter (· ≠ key) := by
      rw [isOther]
      exact List.mem_singleton.2 rfl
    rw [List.mem_filter, decide_eq_true_eq] at entry
    obtain ⟨user, member, rfl, dependsUser⟩ := (consistent.depended dependency other).1 entry.1
    have lost := (after.depended dependency (tag user)).2 ⟨user, mem.2 ⟨member, entry.2⟩, rfl, dependsUser⟩
    rw [consistent.dependents_release found, if_neg (not_not.2 depends), if_pos ⟨twice, single⟩] at lost
    exact absurd lost List.not_mem_nil
  · intro apart
    refine ⟨fun other candidate => ?_, ?_, fun dependency dependent => ?_⟩
    · simp only [release, drop]
      rw [mem]
      by_cases same : other = key
      · subst same
        simp only [update_self, reduceCtorEq, false_iff]
        rintro ⟨⟨-, different⟩, isTag⟩
        exact different isTag
      · rw [update_of_ne same, consistent.tagged]
        constructor
        · rintro ⟨member, rfl⟩
          exact ⟨⟨member, same⟩, rfl⟩
        · rintro ⟨⟨member, -⟩, isTag⟩
          exact ⟨member, isTag⟩
    · exact consistent.distinct.sublist ((List.erase_sublist).map tag)
    · have filtered : dependent ∈ (registry.dependents dependency).filter (· ≠ key) ↔
          ∃ other ∈ registry.entries.erase value, tag other = dependent ∧
            dependency ∈ dependencies other := by
        rw [List.mem_filter, decide_eq_true_eq, consistent.depended]
        constructor
        · rintro ⟨⟨other, member, rfl, depends⟩, different⟩
          exact ⟨other, mem.2 ⟨member, different⟩, rfl, depends⟩
        · rintro ⟨other, member, rfl, depends⟩
          obtain ⟨isOther, different⟩ := mem.1 member
          exact ⟨⟨other, isOther, rfl, depends⟩, different⟩
      rw [consistent.dependents_release found]
      refine Iff.trans ?_ filtered
      by_cases depends : dependency ∈ dependencies value
      · rw [if_neg (not_not.2 depends), if_neg fun both => apart dependency both.1 both.2]
      · rw [if_pos depends, List.mem_filter, decide_eq_true_eq]
        refine ⟨fun entry => ⟨entry, ?_⟩, And.left⟩
        rintro rfl
        obtain ⟨other, member, same, dependsOther⟩ := (consistent.depended dependency dependent).1 entry
        have isValue := (consistent.tagged dependent other).2 ⟨member, same⟩
        rw [found, Option.some.injEq] at isValue
        exact depends (isValue ▸ dependsOther)

end Consistent

end Consistent

end Registry

end SideraCore.Data
