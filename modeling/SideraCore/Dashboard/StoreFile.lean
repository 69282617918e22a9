import SideraCore.Storage.Script

/-!
Owns the file operations of the dashboard store: how `saveStoreNormalized`
replaces it and how `adminAPI.loadStore` reads it back. Its result says from which
disks an interrupted save keeps the old or the new store.

It does not own the content of a file: decoding is a parameter that answers with
the store, or with nothing if the file cannot be read or decoded.
-/

namespace SideraCore.Dashboard

open Storage Storage.Script Operation Function

variable {Content Store : Type} (decode : Content → Option Store)

def loadCandidates (disk : Disk Slot Content) : List Slot → List Slot → Except (List Slot) (Option Store)
  | [], [] => .ok none
  | [], failed => .error failed
  | path :: rest, failed =>
      match disk path with
      | none => loadCandidates disk rest failed
      | some content =>
          match decode content with
          | some store => .ok (some store)
          | none => loadCandidates disk rest (failed ++ [path])

/-- The store of the first file that decodes; with no file at all `none`, the empty
store. -/
def loadStore (disk : Disk Slot Content) : Except (List Slot) (Option Store) :=
  loadCandidates decode disk [.primary, .backup] []

def installStore (restore : Script Slot Content Bool) : Script Slot Content Bool :=
  .perform (.rename .temporary .primary) restore <|
  .perform .idle (leave false) (leave true)

def saveStoreFiles (torn content : Content) : Script Slot Content Bool :=
  stage torn content (.finish false) (leave false) <|
  .perform .idle (leave false) <|
  .inspect .primary fun current =>
    if current.isSome then
      .perform .idle (leave false) <|
      .perform (.remove .backup) (leave false) <|
      .perform (.rename .primary .backup) (leave false) <|
      installStore (.perform (.rename .backup .primary) (leave false) (leave false))
    else
      installStore (leave false)

variable {decode} {disk : Disk Slot Content} {torn content : Content} {loaded : Option Store}
  {replacement : Store}

theorem loadStore_eq (disk : Disk Slot Content) :
    loadStore decode disk =
      match disk .primary, disk .backup with
      | none, none => .ok none
      | none, some backup => (decode backup).elim (.error [.backup]) (.ok ∘ some)
      | some primary, none => (decode primary).elim (.error [.primary]) (.ok ∘ some)
      | some primary, some backup =>
          (decode primary).elim ((decode backup).elim (.error [.primary, .backup]) (.ok ∘ some))
            (.ok ∘ some) := by
  unfold loadStore
  cases primary : disk .primary with
  | none =>
      cases backup : disk .backup with
      | none => simp [loadCandidates, primary, backup]
      | some held => cases decoded : decode held <;> simp [loadCandidates, primary, backup, decoded]
  | some content =>
      cases first : decode content with
      | some store =>
          cases backup : disk .backup <;> simp [loadCandidates, primary, first]
      | none =>
          cases backup : disk .backup with
          | none => simp [loadCandidates, primary, first, backup]
          | some held =>
              cases decoded : decode held <;> simp [loadCandidates, primary, first, backup, decoded]

/-- Loading gives the store from before the save or the new one. -/
def Recovers (decode : Content → Option Store) (loaded : Option Store) (replacement : Store)
    (disk : Disk Slot Content) : Prop :=
  loadStore decode disk = .ok loaded ∨ loadStore decode disk = .ok (some replacement)

theorem recovers_update_temporary (disk : Disk Slot Content) (held : Option Content) :
    Recovers decode loaded replacement (update disk .temporary held) ↔
      Recovers decode loaded replacement disk := by
  simp only [Recovers, loadStore_eq, ne_eq, reduceCtorEq, not_false_eq_true, update_of_ne]

variable {held : Content} {store : Store}

theorem recovers_of_primary (primary : disk .primary = some held) (decoded : decode held = some store)
    (known : loaded = some store ∨ replacement = store) : Recovers decode loaded replacement disk := by
  have load : loadStore decode disk = .ok (some store) := by
    rw [loadStore_eq, primary]
    cases disk .backup <;> simp [decoded]
  rcases known with rfl | rfl
  · exact .inl load
  · exact .inr load

theorem installStore_recovers {restore : Script Slot Content Bool}
    (now : Recovers decode loaded replacement disk)
    (onFailure : restore.Always (Recovers decode loaded replacement) disk)
    (staged : disk .temporary = some content) (valid : decode content = some replacement) :
    (installStore restore).Always (Recovers decode loaded replacement) disk := by
  refine ⟨now, onFailure, fun _ => ?_⟩
  have installed : Recovers decode loaded replacement
      ((rename .temporary .primary).apply disk) := by
    have held : (rename .temporary .primary).apply disk .primary = some content := by
      simp [apply, staged]
    exact recovers_of_primary held valid (.inr rfl)
  exact always_idle (always_leave recovers_update_temporary installed)
    (always_leave recovers_update_temporary installed)

theorem saveStoreFiles_recovers_of_missing (load : loadStore decode disk = .ok loaded)
    (valid : decode content = some replacement) (missing : disk .primary = none) :
    (saveStoreFiles torn content).Always (Recovers decode loaded replacement) disk := by
  have kept {other : Disk Slot Content} (primary : other .primary = disk .primary)
      (backup : other .backup = disk .backup) : Recovers decode loaded replacement other := by
    left
    rw [← load, loadStore_eq, loadStore_eq, primary, backup]
  have leaves {other : Disk Slot Content} (primary : other .primary = disk .primary)
      (backup : other .backup = disk .backup) :
      (leave false).Always (Recovers decode loaded replacement) other :=
    always_leave recovers_update_temporary (kept primary backup)
  apply always_stage recovers_update_temporary (kept rfl rfl)
  · intro held
    exact kept rfl rfl
  · intro held
    exact leaves rfl rfl
  · apply always_idle
    · exact leaves rfl rfl
    refine ⟨kept rfl rfl, ?_⟩
    dsimp only
    rw [if_neg (by simp [missing])]
    exact installStore_recovers (kept rfl rfl) (leaves rfl rfl) rfl valid

theorem saveStoreFiles_recovers_of_primary (load : loadStore decode disk = .ok loaded)
    (valid : decode content = some replacement) (present : disk .primary = some held)
    (decoded : decode held = some store) :
    (saveStoreFiles torn content).Always (Recovers decode loaded replacement) disk := by
  have isLoaded : loaded = some store := by
    rw [loadStore_eq, present] at load
    cases backup : disk .backup <;> simp_all
  have kept {other : Disk Slot Content} (primary : other .primary = disk .primary) :
      Recovers decode loaded replacement other :=
    recovers_of_primary (primary.trans present) decoded (.inl isLoaded)
  have leaves {other : Disk Slot Content} (primary : other .primary = disk .primary) :
      (leave false).Always (Recovers decode loaded replacement) other :=
    always_leave recovers_update_temporary (kept primary)
  apply always_stage recovers_update_temporary (kept rfl)
  · intro held
    exact kept rfl
  · intro held
    exact leaves rfl
  · apply always_idle
    · exact leaves rfl
    refine ⟨kept rfl, ?_⟩
    have found : (update disk .temporary (some content) .primary).isSome = true := by
      simp [present]
    dsimp only
    rw [if_pos found]
    apply always_idle
    · exact leaves rfl
    refine ⟨kept rfl, leaves rfl, fun _ => ⟨kept rfl, leaves rfl, fun _ => ?_⟩⟩
    have aside : Recovers decode loaded replacement
        ((rename .primary .backup).apply ((remove .backup).apply
          (update disk .temporary (some content)))) := by
      left
      rw [loadStore_eq, isLoaded]
      simp [apply, present, decoded]
    apply installStore_recovers aside _ rfl valid
    exact ⟨aside, always_leave recovers_update_temporary aside, fun _ => leaves rfl⟩

/-- A save that finds a primary that cannot be decoded removes the backup first. -/
theorem saveStoreFiles_loses (torn content : Content) (loaded : Option Store) (replacement : Store)
    (present : disk .primary = some held) (undecodable : decode held = none) :
    ∃ later, (saveStoreFiles torn content).Visits disk later ∧
      ¬Recovers decode loaded replacement later := by
  have removed : (saveStoreFiles torn content).Visits disk
      ((remove .backup).apply (update disk .temporary (some content))) := by
    apply visits_stage
    refine .performed trivial (.inspected ?_)
    have found : (update disk .temporary (some content) .primary).isSome = true := by
      simp [present]
    rw [if_pos (by exact found)]
    exact .performed trivial (.performed trivial (.here _ _))
  refine ⟨_, removed, ?_⟩
  simp [Recovers, loadStore_eq, apply, present, undecodable]

/-- Every interruption of a save leaves a disk from which the old or the new store is
loaded, iff the primary, where there is one, can be decoded. -/
theorem interrupted_save_recovers_iff (decode : Content → Option Store) (disk : Disk Slot Content)
    (torn content : Content) (loaded : Option Store) (replacement : Store)
    (load : loadStore decode disk = .ok loaded) (valid : decode content = some replacement) :
    (∀ later, (saveStoreFiles torn content).Visits disk later →
        Recovers decode loaded replacement later) ↔
      ∀ held, disk .primary = some held → (decode held).isSome := by
  constructor
  · intro recovers held present
    by_contra undecodable
    obtain ⟨later, visits, lost⟩ := saveStoreFiles_loses torn content loaded replacement present
      (Option.not_isSome_iff_eq_none.1 undecodable)
    exact lost (recovers later visits)
  · intro decodable
    have always : (saveStoreFiles torn content).Always (Recovers decode loaded replacement) disk := by
      cases present : disk .primary with
      | none => exact saveStoreFiles_recovers_of_missing load valid present
      | some held =>
          obtain ⟨store, decoded⟩ := Option.isSome_iff_exists.1 (decodable held present)
          exact saveStoreFiles_recovers_of_primary load valid present decoded
    exact always_iff.1 always

/-- A disk with store 1 in its primary. Stores are numbers, and 0 cannot be decoded. -/
def goodPrimary : Disk Slot Nat
  | .primary => some 1
  | _ => none

def decodePositive (content : Nat) : Option Nat := if content = 0 then none else some content

theorem goodPrimary_save_recovers :
    loadStore decodePositive goodPrimary = .ok (some 1) ∧
      ∀ later, (saveStoreFiles 0 2).Visits goodPrimary later →
        Recovers decodePositive (some 1) 2 later :=
  ⟨rfl, (interrupted_save_recovers_iff decodePositive goodPrimary 0 2 (some 1) 2 rfl rfl).2
    (by rintro held ⟨⟩; rfl)⟩

def damagedPrimary : Disk Slot Nat
  | .primary => some 0
  | .backup => some 1
  | .temporary => none

/-- Interruptions after the backup is removed, and after the damaged file has become the
backup, leave no store to load. -/
theorem damagedPrimary_save_loses_store :
    loadStore decodePositive damagedPrimary = .ok (some 1) ∧
      (∃ later, (saveStoreFiles 0 2).Visits damagedPrimary later ∧
        loadStore decodePositive later = .error [.primary]) ∧
      ∃ later, (saveStoreFiles 0 2).Visits damagedPrimary later ∧
        loadStore decodePositive later = .error [.backup] := by
  refine ⟨rfl, ⟨_, visits_stage (.performed trivial (.inspected (.performed trivial
    (.performed trivial (.here _ _))))), rfl⟩, ⟨_, visits_stage (.performed trivial (.inspected
    (.performed trivial (.performed trivial (.performed ?_ (.here _ _)))))), rfl⟩⟩
  simp [Possible, apply, damagedPrimary]

end SideraCore.Dashboard
