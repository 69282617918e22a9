import SideraCore.Storage.Script

/-!
Owns the file operations of the last-known-good runtime document: how `run`
replaces it and how a start reads it back. Its result says from which disks an
interrupted replacement keeps a document that can be read.

It does not own the content of a document: reading a file is a parameter that
answers with the document, or with nothing if the file is not a valid one.
-/

namespace SideraCore.Command

open Storage Storage.Script Operation

variable {Content Document : Type} (read : Content → Option Document)

def candidatePaths : List Slot := [.primary, .backup]

def readRuntimeConfigAt (disk : Disk Slot Content) (path : Slot) : Option Document :=
  (disk path).bind read

def readRuntimeConfig (disk : Disk Slot Content) : Option (Document × Slot) :=
  candidatePaths.findSome? fun path =>
    (readRuntimeConfigAt read disk path).map fun document => (document, path)

def installRuntimeConfig (restore : Script Slot Content Bool) : Script Slot Content Bool :=
  .perform (.rename .temporary .primary) restore <|
  .perform .idle (leave false) <|
  .perform .idle (leave false) (leave true)

def writeRuntimeConfigFile (torn content : Content) : Script Slot Content Bool :=
  stage torn content (.finish false) (leave false) <|
  .perform (.remove .backup) (leave false) <|
  .perform .idle (leave false) <|
  .inspect .primary fun current =>
    if current.isSome then
      .perform .idle (leave false) <|
      .perform (.rename .primary .backup) (leave false) <|
      installRuntimeConfig (.perform (.rename .backup .primary) (leave false) (leave false))
    else
      installRuntimeConfig (leave false)

variable {read} {disk before : Disk Slot Content} {torn content : Content} {replacement : Document}

theorem readRuntimeConfig_eq (disk : Disk Slot Content) :
    readRuntimeConfig read disk =
      match (disk .primary).bind read with
      | some document => some (document, .primary)
      | none => ((disk .backup).bind read).map fun document => (document, .backup) := by
  simp only [readRuntimeConfig, candidatePaths, readRuntimeConfigAt, List.findSome?]
  cases (disk .primary).bind read with
  | none => cases (disk .backup).bind read <;> rfl
  | some document => rfl

def Survives (read : Content → Option Document) (before : Disk Slot Content) (replacement : Document)
    (disk : Disk Slot Content) : Prop :=
  ∃ document path, readRuntimeConfig read disk = some (document, path) ∧
    (document = replacement ∨
      ∃ path ∈ candidatePaths, readRuntimeConfigAt read before path = some document)

variable {document : Document}

theorem survives_of_primary (readable : (disk .primary).bind read = some document)
    (known : document = replacement ∨
      ∃ path ∈ candidatePaths, readRuntimeConfigAt read before path = some document) :
    Survives read before replacement disk := by
  refine ⟨document, .primary, ?_, known⟩
  rw [readRuntimeConfig_eq, readable]

theorem not_survives (unreadable : (disk .primary).bind read = none) (missing : disk .backup = none) :
    ¬Survives read before replacement disk := by
  rintro ⟨document, path, found, -⟩
  rw [readRuntimeConfig_eq, unreadable, missing] at found
  cases found

theorem survives_update_temporary (held : Option Content) :
    Survives read before replacement (Function.update disk .temporary held) ↔
      Survives read before replacement disk := by
  simp only [Survives, readRuntimeConfig_eq, ne_eq, reduceCtorEq, not_false_eq_true,
    Function.update_of_ne]

theorem leave_survives {succeeded : Bool} (now : Survives read before replacement disk) :
    (leave succeeded).Always (Survives read before replacement) disk :=
  always_leave (fun _ _ => survives_update_temporary _) now

theorem installRuntimeConfig_survives {restore : Script Slot Content Bool}
    (now : Survives read before replacement disk)
    (onFailure : restore.Always (Survives read before replacement) disk)
    (staged : disk .temporary = some content) (valid : read content = some replacement) :
    (installRuntimeConfig restore).Always (Survives read before replacement) disk := by
  refine ⟨now, onFailure, fun _ => ?_⟩
  have installed : Survives read before replacement
      ((rename .temporary .primary).apply disk) := by
    have found : ((rename .temporary .primary).apply disk .primary).bind read =
        some replacement := by
      simp [apply, staged, valid]
    exact survives_of_primary found (.inl rfl)
  exact always_idle (leave_survives installed)
    (always_idle (leave_survives installed) (leave_survives installed))

/-- A replacement that starts from a primary that can be read is safe to interrupt. -/
theorem writeRuntimeConfigFile_survives
    (readable : readRuntimeConfigAt read disk .primary = some document)
    (valid : read content = some replacement) :
    (writeRuntimeConfigFile torn content).Always (Survives read disk replacement) disk := by
  have known : document = replacement ∨
      ∃ path ∈ candidatePaths, readRuntimeConfigAt read disk path = some document :=
    .inr ⟨.primary, by simp [candidatePaths], readable⟩
  have kept {other : Disk Slot Content} (same : other .primary = disk .primary) :
      Survives read disk replacement other :=
    survives_of_primary (by rw [same]; exact readable) known
  have moved {other : Disk Slot Content} (missing : other .primary = none)
      (same : other .backup = disk .primary) : Survives read disk replacement other := by
    refine ⟨document, .backup, ?_, known⟩
    rw [readRuntimeConfig_eq, missing, same, show (disk .primary).bind read = _ from readable]
    rfl
  have present : (disk .primary).isSome = true := by
    cases held : disk .primary with
    | none => simp [readRuntimeConfigAt, held] at readable
    | some content => rfl
  apply always_stage (fun _ _ => survives_update_temporary _) (kept rfl)
  · intro held
    exact kept rfl
  · intro held
    exact leave_survives (kept rfl)
  · refine ⟨kept rfl, leave_survives (kept rfl), fun _ => ?_⟩
    apply always_idle
    · exact leave_survives (kept rfl)
    refine ⟨kept rfl, ?_⟩
    dsimp only
    rw [if_pos (by exact present)]
    apply always_idle
    · exact leave_survives (kept rfl)
    refine ⟨kept rfl, leave_survives (kept rfl), fun _ => ?_⟩
    have aside : Survives read disk replacement
        ((rename .primary .backup).apply ((remove .backup).apply
          (Function.update disk .temporary (some content)))) := moved rfl rfl
    apply installRuntimeConfig_survives aside _ rfl valid
    exact ⟨aside, leave_survives aside, fun _ => leave_survives (kept rfl)⟩

theorem interrupted_write_survives_iff (read : Content → Option Document) (disk : Disk Slot Content)
    (torn content : Content) (replacement : Document) (valid : read content = some replacement) :
    (∀ later, (writeRuntimeConfigFile torn content).Visits disk later →
        Survives read disk replacement later) ↔
      (readRuntimeConfigAt read disk .primary).isSome := by
  constructor
  · intro survives
    by_contra unreadable
    -- the backup is removed before anything else is looked at, and then no document is left
    have survived := survives _ (visits_stage (.performed trivial (.here _ _)))
    refine absurd survived (not_survives ?_ rfl)
    exact Option.not_isSome_iff_eq_none.1 unreadable
  · intro primary
    obtain ⟨document, found⟩ := Option.isSome_iff_exists.1 primary
    exact always_iff.1 (writeRuntimeConfigFile_survives found valid)

/-- If a document can be read, every interruption of a replacement leaves a readable
one, iff the one before is the primary. -/
theorem interrupted_write_readable_iff (read : Content → Option Document) (disk : Disk Slot Content)
    (torn content : Content) (replacement : Document) (valid : read content = some replacement) :
    ((readRuntimeConfig read disk).isSome →
        ∀ later, (writeRuntimeConfigFile torn content).Visits disk later →
          Survives read disk replacement later) ↔
      ((readRuntimeConfig read disk).isSome → (readRuntimeConfigAt read disk .primary).isSome) :=
  imp_congr_right fun _ => interrupted_write_survives_iff read disk torn content replacement valid

/-- A disk with document 1 in its primary only. Every file can be read. -/
def onlyPrimary : Disk Slot Nat
  | .primary => some 1
  | _ => none

theorem onlyPrimary_write_readable :
    (readRuntimeConfigAt some onlyPrimary .primary).isSome ∧
      ∀ later, (writeRuntimeConfigFile 0 2).Visits onlyPrimary later → Survives some onlyPrimary 2 later :=
  ⟨rfl, (interrupted_write_readable_iff some onlyPrimary 0 2 2 rfl).2 (fun _ => rfl) rfl⟩

/-- The disk after a first replacement of document 1 was cut between its renames. -/
def onlyBackup : Disk Slot Nat
  | .primary => none
  | .backup => some 1
  | .temporary => some 2

/-- Interrupting the replacement after that loses the document. -/
theorem second_interruption_loses_document :
    (writeRuntimeConfigFile 0 2).Visits onlyPrimary onlyBackup ∧
      readRuntimeConfig some onlyBackup = some (1, .backup) ∧
      ∃ later, (writeRuntimeConfigFile 0 3).Visits onlyBackup later ∧
        readRuntimeConfig some later = none := by
  refine ⟨?_, rfl, _, visits_stage (.performed trivial (.here _ _)), rfl⟩
  apply visits_stage
  refine .performed trivial (.performed trivial (.inspected (.performed trivial (.performed ?_ ?_))))
  · simp [Possible, apply, onlyPrimary]
  · have same : onlyBackup = (rename .primary .backup).apply
        ((remove .backup).apply (Function.update onlyPrimary .temporary (some 2))) := by
      funext slot
      cases slot <;> rfl
    rw [same]
    exact .here _ _

end SideraCore.Command
