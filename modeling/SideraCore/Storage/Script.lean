import Mathlib

/-!
Owns file scripts: sequences of file operations, each of which may fail, and the
disks that a script leaves behind when it is interrupted or runs to its end.

A disk is what its names hold. Removing, writing and renaming are atomic; an
operation that fails leaves the disk as it is, and the script goes on with the
branch for its failure.
-/

namespace SideraCore.Storage

open Function

abbrev Disk (Name Content : Type) := Name → Option Content

/-- A file that is replaced, its backup, and the file its next content is written to. -/
inductive Slot where
  | primary
  | backup
  | temporary
deriving DecidableEq, Repr

/-- One call of the file system. Removing a file that is not there succeeds. -/
inductive Operation (Name Content : Type) where
  /-- Creating a directory, setting permissions, flushing, closing. -/
  | idle
  | remove (name : Name)
  | write (name : Name) (content : Content)
  | rename (source target : Name)

variable {Name Content Result : Type}

def Operation.Possible : Operation Name Content → Disk Name Content → Prop
  | .rename source _, disk => disk source ≠ none
  | _, _ => True

variable [DecidableEq Name]

def Operation.apply : Operation Name Content → Disk Name Content → Disk Name Content
  | .idle, disk => disk
  | .remove name, disk => update disk name none
  | .write name content, disk => update disk name (some content)
  | .rename source target, disk =>
      update (update disk source none) target (disk source)

inductive Script (Name Content Result : Type) where
  | finish (result : Result)
  | perform (operation : Operation Name Content) (failed next : Script Name Content Result)
  | inspect (name : Name) (next : Option Content → Script Name Content Result)

namespace Script

/-- Running the script passes through the disk: it is what an interruption leaves. -/
inductive Visits : Script Name Content Result → Disk Name Content → Disk Name Content → Prop where
  | here (script : Script Name Content Result) (disk : Disk Name Content) : Visits script disk disk
  | performed {operation : Operation Name Content} {failed next : Script Name Content Result}
      {disk later : Disk Name Content} (possible : operation.Possible disk)
      (rest : Visits next (operation.apply disk) later) :
      Visits (.perform operation failed next) disk later
  | failed {operation : Operation Name Content} {failed next : Script Name Content Result}
      {disk later : Disk Name Content} (rest : Visits failed disk later) :
      Visits (.perform operation failed next) disk later
  | inspected {name : Name} {next : Option Content → Script Name Content Result}
      {disk later : Disk Name Content} (rest : Visits (next (disk name)) disk later) :
      Visits (.inspect name next) disk later

def Always (property : Disk Name Content → Prop) :
    Script Name Content Result → Disk Name Content → Prop
  | .finish _, disk => property disk
  | .perform operation failed next, disk =>
      property disk ∧ Always property failed disk ∧
        (operation.Possible disk → Always property next (operation.apply disk))
  | .inspect name next, disk => property disk ∧ Always property (next (disk name)) disk

variable {property : Disk Name Content → Prop} {script failed next : Script Name Content Result}
  {operation : Operation Name Content} {disk : Disk Name Content}

theorem Always.now (always : script.Always property disk) : property disk := by
  cases script with
  | finish result => exact always
  | perform operation failed next | inspect name next => exact always.1

/-- The rule for every prefix: what holds along the script holds of each disk an
interruption leaves. -/
theorem always_iff : script.Always property disk ↔ ∀ later, script.Visits disk later → property later := by
  constructor
  · intro always later visits
    induction visits with
    | here script disk => exact always.now
    | performed possible _ ih => exact ih (always.2.2 possible)
    | failed _ ih => exact ih always.2.1
    | inspected _ ih => exact ih always.2
  · intro holds
    induction script generalizing disk with
    | finish result => exact holds _ (.here _ _)
    | perform operation failed next failedHypothesis nextHypothesis =>
        refine ⟨holds _ (.here _ _), ?_, ?_⟩
        · apply failedHypothesis
          intro later visits
          exact holds later (.failed visits)
        · intro possible
          apply nextHypothesis
          intro later visits
          exact holds later (.performed possible visits)
    | inspect name next ih =>
        refine ⟨holds _ (.here _ _), ?_⟩
        apply ih
        intro later visits
        exact holds later (.inspected visits)

theorem always_idle (onFailure : failed.Always property disk) (onSuccess : next.Always property disk) :
    (perform .idle failed next).Always property disk :=
  ⟨onSuccess.now, onFailure, fun _ => onSuccess⟩

/-! ### Writing the next content beside the file -/

section Stage

variable {torn content : Content} {refused abandoned : Script Slot Content Result}
  {property : Disk Slot Content → Prop} {next : Script Slot Content Result} {disk : Disk Slot Content}

/-- Creates the temporary file and fills it. A failure is answered by `refused` until
the file exists, then by `abandoned`; `torn` is an incomplete content. -/
def stage (torn content : Content) (refused abandoned next : Script Slot Content Result) :
    Script Slot Content Result :=
  .perform .idle refused <|
  .perform (.remove .temporary) refused <|
  .perform (.write .temporary torn) refused <|
  .perform .idle abandoned <|
  .perform (.write .temporary content) abandoned <|
  .perform .idle abandoned <|
  .perform .idle abandoned <|
  .perform .idle abandoned next

def leave (result : Result) : Script Slot Content Result :=
  .perform (.remove .temporary) (.finish result) (.finish result)

section Ignored

variable (ignored : ∀ disk held, property (update disk .temporary held) ↔ property disk)
  (now : property disk)
include ignored now

theorem always_leave {result : Result} : (leave result).Always property disk :=
  ⟨now, now, fun _ => (ignored _ _).2 now⟩

theorem always_stage
    (onRefusal : ∀ held, refused.Always property (update disk .temporary held))
    (onAbandon : ∀ held, abandoned.Always property (update disk .temporary held))
    (onSuccess : next.Always property (update disk .temporary (some content))) :
    (stage torn content refused abandoned next).Always property disk := by
  have atOnce : refused.Always property disk := by
    simpa only [update_eq_self] using onRefusal (disk .temporary)
  apply always_idle atOnce
  refine ⟨now, atOnce, fun _ => ⟨(ignored _ _).2 now, onRefusal none, fun _ => ?_⟩⟩
  simp only [Operation.apply, update_idem]
  apply always_idle (onAbandon _)
  refine ⟨(ignored _ _).2 now, onAbandon _, fun _ => ?_⟩
  simp only [Operation.apply, update_idem]
  exact always_idle (onAbandon _) (always_idle (onAbandon _) (always_idle (onAbandon _) onSuccess))

end Ignored

theorem visits_stage {later : Disk Slot Content}
    (visits : next.Visits (update disk .temporary (some content)) later) :
    (stage torn content refused abandoned next).Visits disk later := by
  refine .performed trivial (.performed trivial (.performed trivial (.performed trivial
    (.performed trivial (.performed trivial (.performed trivial (.performed trivial ?_)))))))
  simpa only [Operation.apply, update_idem] using visits

end Stage

end Script

end SideraCore.Storage
