import SideraCore.Dashboard.StagedChanges

/-!
Owns what a failed request for users leaves behind. Its result says for which
stores and requests every failure leaves no trace in memory, on disk and in the
lists that were pushed, provided the restoring updates and writes succeed.
-/

namespace SideraCore.Dashboard

def Outcomes.Restores (outcomes : Outcomes) (tag : String) (policy : Policy) : Prop :=
  policy = outcomes.rollback tag ∨ policy = outcomes.restore tag

/-- The dashboard is as it was up to counters and applied revisions: in memory, on disk,
and in the pushed lists, which are the old ones or computed by a restoring update. -/
structure Live.Restored (before after : Live) (managers : GoMap ManagedRuntime) (outcomes : Outcomes) :
    Prop where
  memory : after.store.core = before.store.core
  disk : after.disk.core = before.disk.core
  pushed : ∀ tag, after.pushed tag = before.pushed tag ∨
    ∃ policy, outcomes.Restores tag policy ∧ after.Shows managers policy tag

def UserRequest.LeavesNoTrace (request : UserRequest) (environment : RequestEnvironment) (live : Live) :
    Prop :=
  ∀ outcomes : Outcomes, outcomes.Of → (request.serve environment outcomes live).2 ≠ .done →
    live.Restored (request.serve environment outcomes live).1 environment.managers outcomes

/-- A failed change can be undone: saving the store changes nothing, and with more
authoritative records leaves the profiles alone. -/
structure Store.Undoable (store : Store) (replace : ReplaceUsers) (tags : List String) : Prop where
  tokens : store.TokensInOrder
  keeps : ∀ tag, ScrubKeeps replace (store.marked tags) store.servers tag

theorem Store.Undoable.of_core {store other : Store} {replace : ReplaceUsers} {tags : List String}
    (undoable : store.Undoable replace tags) (same : other.core = store.core) :
    other.Undoable replace tags := by
  refine ⟨undoable.tokens.of_core same, fun tag => ?_⟩
  rw [servers_of_core same]
  apply (undoable.keeps tag).of_frame
  have frames := frames_of_core same tag
  unfold Store.marked
  split_ifs
  · have marked := congrArg (Option.map fun frame : Bool × String × String => (true, frame.2)) frames
    rw [Option.map_map, Option.map_map] at marked
    rw [Option.map_map, Option.map_map]
    exact marked
  · exact frames

section Restored

variable {environment : RequestEnvironment} {outcomes : Outcomes} {live applied : Live} {before : Store}
  {tags : List String} {saver : Store → SaveContext} {policy : String → Policy}

theorem Live.restored_of_save (sound : before.Sound) (undoable : before.Undoable environment.replace tags)
    (core : before.core = live.store.core) (onDisk : live.disk.core = live.store.core)
    (same : applied.store.unapplied = before.unapplied)
    (disk : ¬Scrubbable environment.replace before.inbounds before.servers → applied.disk = live.disk)
    (pushed : ∀ tag, tag ∉ tags → applied.pushed tag = live.pushed tag)
    (shown : ∀ tag ∈ tags, outcomes.Restores tag (policy tag) ∧
      applied.Shows environment.managers (policy tag) tag)
    (of : ∀ store, store.Finite → (saver store).Of store)
    (written : ∀ store, (saver store).write = .written) :
    live.Restored (applied.save environment.replace (saver applied.store)).1 environment.managers
      outcomes := by
  have restored := core_of_unapplied same
  obtain ⟨memory, onDiskAfter⟩ := save_restored same sound.accepted sound.normal undoable.tokens
    (fun tag => (undoable.keeps tag).of_marked) (of _ (sound.finite.of_core restored)) (written _)
  refine ⟨?_, ?_, fun tag => ?_⟩
  · rw [memory, restored, core]
  · rcases onDiskAfter with saved | ⟨fails, kept⟩
    · rw [saved, restored, core, onDisk]
    · rw [kept, disk fails]
  · by_cases member : tag ∈ tags
    · obtain ⟨restores, shows'⟩ := shown tag member
      refine .inr ⟨policy tag, restores, ?_⟩
      unfold Live.Shows
      rw [memory]
      exact shows'
    · left
      rw [save_pushed, pushed tag member]

/-- What a failed commit changed is in the records of the tags, the accounts and the
tokens; the disk changed only if it can be written again. -/
structure Live.Confined (current live : Live) (before : Store) (replace : ReplaceUsers)
    (tags : List String) : Prop where
  outside : ∀ tag, tag ∉ tags → current.store.unapplied.inbounds tag = before.unapplied.inbounds tag
  servers : current.store.servers = before.servers
  disk : ¬Scrubbable replace before.inbounds before.servers → current.disk = live.disk
  pushed : ∀ tag, tag ∉ tags → current.pushed tag = live.pushed tag

theorem Store.Staged.confined {replace : ReplaceUsers} {context : SaveContext} {changed : Store}
    (staged : applied.store.Staged before tags) (of : context.Of applied.store)
    (undoable : before.Undoable replace tags)
    (pushes : ({ live with store := changed } : Live).Pushes applied tags)
    (outside : ∀ tag, tag ∉ tags →
      (saveStore replace context applied.store).store.unapplied.inbounds tag =
        before.unapplied.inbounds tag) :
    (applied.save replace context).1.Confined live before replace tags :=
  ⟨outside, staged.save_servers of undoable.keeps,
    fun fails => (Live.save_disk (staged.unwritten of fails)).trans pushes.disk, pushes.pushed⟩

end Restored

section Single

variable {environment : RequestEnvironment} {outcomes : Outcomes} {store : Store} {mutation : Mutation}
  {live current : Live}

def rolledBackMutation (environment : RequestEnvironment) (outcomes : Outcomes) (tag : String)
    (previous : InboundRecord) (before : Store) (live : Live) : Live :=
  restoreInbound environment.managers (outcomes.rollback tag) tag
    { live with
      store := (live.store.withInbounds fun other => if other = tag then some previous else none)
        |>.withAccountsOf before }

theorem rolledBackMutation_spec {applied : Live} (fits : mutation.Fits environment.managers store)
    (outside : ∀ tag, tag ∉ [mutation.tag] →
      current.store.unapplied.inbounds tag = mutation.before.unapplied.inbounds tag)
    (isApplied : rolledBackMutation environment outcomes mutation.tag mutation.previous mutation.changed
      current = applied) :
    applied.store.unapplied =
        ({ mutation.before with servers := current.store.servers } : Store).unapplied ∧
      applied.disk = current.disk ∧
      (∀ tag, tag ∉ [mutation.tag] → applied.pushed tag = current.pushed tag) ∧
      ∀ tag ∈ [mutation.tag], applied.Shows environment.managers (outcomes.rollback tag) tag := by
  subst isApplied
  have inbounds := @withInbounds_unapplied current.store mutation.before [mutation.tag]
    (fun other => if other = mutation.tag then some mutation.previous else none)
    (fun tag => by
      by_cases same : tag = mutation.tag
      · simp [same, fits.previous]
      · simp [same])
    (fun tag member => by
      rw [List.mem_singleton.1 member, fits.previous]
      nofun)
    outside
  have present : (current.store.withInbounds fun other =>
      if other = mutation.tag then some mutation.previous else none).inbounds mutation.tag ≠ none := by
    simp [Store.withInbounds]
  have pushes := @restoreInbound_pushes environment.managers
    { current with
      store := (current.store.withInbounds fun other =>
        if other = mutation.tag then some mutation.previous else none).withAccountsOf mutation.changed }
    mutation.tag (outcomes.rollback mutation.tag)
  refine ⟨pushes.store.trans (unapplied_eq inbounds rfl rfl rfl rfl), pushes.disk, pushes.pushed,
    fun tag member => ?_⟩
  rw [List.mem_singleton.1 member]
  exact restoreInbound_shows fits.managed present

variable (fits : mutation.Fits environment.managers live.store) (sound : live.store.Sound)
  (undoable : live.store.Undoable environment.replace [mutation.tag]) (of : outcomes.Of)
  (onDisk : live.disk.core = live.store.core)
include fits sound undoable of onDisk

theorem rollbackMutation_restored
    (confined : current.Confined live mutation.before environment.replace [mutation.tag]) :
    live.Restored (rollbackMutation environment outcomes mutation.tag mutation.previous mutation.changed
      true current) environment.managers outcomes := by
  obtain ⟨restored, disk, others, shown⟩ :=
    @rolledBackMutation_spec environment outcomes _ _ _ _ fits confined.outside rfl
  rw [confined.servers] at restored
  exact Live.restored_of_save (sound.of_core fits.core) (undoable.of_core fits.core) fits.core onDisk restored
    (fun fails => disk.trans (confined.disk fails))
    (fun tag notIn => (others tag notIn).trans (confined.pushed tag notIn))
    (fun tag member => ⟨.inl rfl, shown tag member⟩) of.rollbackSave of.rollbackWritten

theorem commitMutation_restored
    (failed : (commitMutation environment outcomes mutation.tag mutation.previous
      { live with store := mutation.changed }).2 ≠ .done) :
    live.Restored (commitMutation environment outcomes mutation.tag mutation.previous
      { live with store := mutation.changed }).1 environment.managers outcomes := by
  have before := sound.of_core fits.core
  have staged := fits.staged before
  unfold commitMutation at failed ⊢
  split
  · -- The first update fails: nothing was saved.
    obtain ⟨restored, disk, others, shown⟩ :=
      @rolledBackMutation_spec environment outcomes _ _ { live with store := mutation.changed } _ fits
        staged.outside rfl
    refine ⟨(core_of_unapplied restored).trans fits.core, congrArg Store.core disk, fun tag => ?_⟩
    by_cases member : tag ∈ [mutation.tag]
    · exact .inr ⟨outcomes.rollback tag, .inl rfl, shown tag member⟩
    · exact .inl (others tag member)
  · rename_i applied updated
    have pushes := applyInbound_pushes updated
    have stagedApplied := staged.of_unapplied pushes.store
    have contextOf := of.save applied.store stagedApplied.finite
    have rolledBack := rollbackMutation_restored fits sound undoable of onDisk
      (stagedApplied.confined contextOf (undoable.of_core fits.core) pushes
        (fits.save_outside before pushes.store contextOf))
    split
    · rename_i saved error isSaved
      rw [isSaved] at rolledBack
      exact rolledBack
    · rename_i saved isSaved
      rw [isSaved] at rolledBack
      split
      · exact rolledBack
      · rename_i again isAgain
        simp only [updated, isSaved, isAgain, ne_eq, not_true_eq_false] at failed

end Single

/-- All users of the account have its name; or those that have not are on the inbounds
of the change, and the old records are refused under the accounts of the save. -/
def GroupChange.Unsplit (change : GroupChange) (identifier name : String) : Prop :=
  change.Whole identifier name ∨
    ((∀ tag, tag ∉ change.tags → ∀ record, change.changed.inbounds tag = some record →
        ∀ user ∈ record.users, user.accountID = identifier → user.name = name) ∧ change.Orphans)

section Group

variable {environment : RequestEnvironment} {outcomes : Outcomes} {store : Store} {change : GroupChange}
  {members : GoMap User} {identifier name : String} {live current undone : Live}

/-- Where `restoreUserGroupState` can restore: only accounts and tokens are left to put
back, and the disk changed only if it can be written again. -/
structure Live.Restorable (current live : Live) (before : Store) (replace : ReplaceUsers)
    (tags : List String) : Prop where
  inbounds : ∀ tag, (current.store.inbounds tag).map InboundRecord.unapplied =
    (before.inbounds tag).map InboundRecord.unapplied
  servers : current.store.servers = before.servers
  disk : ¬Scrubbable replace before.inbounds before.servers → current.disk = live.disk
  pushed : ∀ tag, tag ∉ tags → current.pushed tag = live.pushed tag

theorem Live.Restorable.save {before : Store} {replace : ReplaceUsers} {tags : List String}
    {context : SaveContext} (restorable : undone.Restorable live before replace tags)
    (undoable : before.Undoable replace tags) (of : context.Of undone.store)
    (kept : ∀ tag, (saveStore replace context undone.store).store.inbounds tag =
      undone.store.inbounds tag) :
    (undone.save replace context).1.Restorable live before replace tags := by
  have frames (tag : String) := frames_of_unapplied (restorable.inbounds tag)
  refine ⟨fun tag => ?_, ?_, fun fails => ?_, restorable.pushed⟩
  · rw [← restorable.inbounds tag]
    exact congrArg _ (kept tag)
  · rw [← restorable.servers]
    funext tag
    apply saveStore_servers_of_keeps of
    rw [restorable.servers]
    exact (undoable.keeps tag).of_marked.of_frame (frames tag)
  · refine (Live.save_disk (saveStore_written_eq_none of ?_)).trans (restorable.disk fails)
    rw [restorable.servers]
    exact fun scrubs => fails (scrubs.of_frames fun tag => (frames tag).symm)

theorem rolledBackBatch_spec {undone : Live}
    (fits : change.Fits environment.managers store members identifier name)
    (confined : current.Confined live change.before environment.replace change.tags)
    (isUndone : rollbackInboundBatch environment outcomes change.tags change.previous false current =
      undone) :
    undone.Restorable live change.before environment.replace change.tags ∧
      undone.store.accounts = current.store.accounts := by
  subst isUndone
  have inbounds := @withInbounds_unapplied current.store change.before change.tags change.previous
    (fun _ => rfl) fits.present confined.outside
  have pushes := @restoreBatch_pushes environment.managers
    { current with store := current.store.withInbounds change.previous } change.tags outcomes.rollback
  have core := core_of_unapplied pushes.store
  have accounts := accounts_of_core core
  refine ⟨⟨fun tag => ?_, (servers_of_core core).trans confined.servers,
    fun fails => pushes.disk.trans (confined.disk fails), fun tag notIn => ?_⟩, accounts⟩
  · exact (congrFun (congrArg Store.inbounds pushes.store) tag).trans (inbounds tag)
  · exact (pushes.pushed tag notIn).trans (confined.pushed tag notIn)

variable (fits : change.Fits environment.managers live.store members identifier name)
  (sound : live.store.Sound) (undoable : live.store.Undoable environment.replace change.tags)
  (of : outcomes.Of) (onDisk : live.disk.core = live.store.core)
include fits sound undoable of

theorem undone_restorable {applied : Live} (unsplit : change.Unsplit identifier name)
    (pushes : ({ live with store := change.changed } : Live).Pushes applied change.tags) :
    (rollbackInboundBatch environment outcomes change.tags change.previous true
      (applied.save environment.replace (outcomes.save applied.store)).1).Restorable live change.before
      environment.replace change.tags := by
  have before := sound.of_core fits.core
  have undoableBefore := undoable.of_core fits.core
  have fitsApplied := fits.of_unapplied pushes.store
  have staged := fitsApplied.staged before
  have contextOf := of.save applied.store staged.finite
  have records := congrArg Store.inbounds pushes.store
  have wholeApplied (whole : change.Whole identifier name) :
      ({ change with changed := applied.store } : GroupChange).Whole identifier name :=
    fun user has => whole user (has_of_unapplied records has)
  have outside := @Store.Staged.save_outside environment.replace (outcomes.save applied.store) _ _ _
    staged contextOf (by
      intro tag notIn index user found
      have has : applied.store.Has user := Store.has_iff_userAt.2 ⟨tag, index, found⟩
      refine fitsApplied.named before has fun same => ?_
      rcases unsplit with whole | ⟨inside, -⟩
      · exact wholeApplied whole user has same
      · have foundChanged := userAt_of_unapplied (congrFun records tag) found
        obtain ⟨record, present, isUser⟩ := Option.bind_eq_some_iff.1 foundChanged
        exact inside tag notIn record present user (List.mem_of_getElem? isUser) same)
  have restored := @rolledBackBatch_spec environment outcomes _ _ _ _ _ _ _ _ fits
    (staged.confined contextOf undoableBefore pushes outside) rfl
  -- The records are put back and saved again.
  simp only [rollbackInboundBatch, Bool.false_eq_true, if_true, if_false] at restored ⊢
  generalize restoreBatch _ _ _ _ = undone at restored ⊢
  obtain ⟨restorable, accounts⟩ := restored
  obtain ⟨result, resultAccounts, outcome, savedAccounts, -⟩ := @saveStore_outcome environment.replace
    (outcomes.save applied.store) applied.store contextOf staged.accepted staged.astray.namesApart
  have undoneAccounts : undone.store.accounts = result.accounts := accounts.trans savedAccounts
  have undoneInbounds : undone.store.unapplied.inbounds = change.before.unapplied.inbounds :=
    funext restorable.inbounds
  have finiteUndone : undone.store.Finite := by
    have finiteSaved := @saveStore_finite applied.store environment.replace (outcomes.save applied.store)
      contextOf staged.finite
    refine before.finite.of_similar before.room (by rw [accounts]; exact finiteSaved.accounts)
      (fun tag => ?_) ⟨"", fun user has => .inr ⟨user, has_of_unapplied undoneInbounds has, rfl⟩⟩
      restorable.servers
    rw [← Option.map_eq_none_iff, restorable.inbounds tag, Option.map_eq_none_iff]
  have undoneOf := of.rollbackSave undone.store finiteUndone
  refine restorable.save undoableBefore undoneOf fun tag => ?_
  by_cases acceptedUndone : undone.store.AccountsAccepted
  · rcases unsplit with whole | ⟨-, user, has, orphaned⟩
    · obtain ⟨astray, all⟩ := fitsApplied.undone_namedAfter before outcome undoneAccounts
        (wholeApplied whole) undoneInbounds acceptedUndone
      exact saveStore_inbounds_of_namedAfter undoneOf astray.namesApart fun index user found =>
        all user (Store.has_iff_userAt.2 ⟨tag, index, found⟩)
    · exact absurd acceptedUndone (fitsApplied.undone_refused before outcome undoneAccounts
        ⟨user, has, fun other hasOther => orphaned other (has_of_unapplied records hasOther)⟩ undoneInbounds)
  · obtain ⟨refusal, refused⟩ := saveStore_of_refused environment.replace undoneOf acceptedUndone
    rw [refused]

include onDisk

theorem restoreUserGroupState_restored
    (restorable : current.Restorable live change.before environment.replace change.tags) :
    live.Restored (restoreUserGroupState environment outcomes change.tags change.before current)
      environment.managers outcomes := by
  have pushes := @restoreBatch_pushes environment.managers
    { current with store := current.store.withAccountsOf change.before } change.tags outcomes.restore
  have same := pushes.store.trans (unapplied_eq restorable.inbounds restorable.servers rfl rfl rfl)
  have present (tag : String) (member : tag ∈ change.tags) : current.store.inbounds tag ≠ none := by
    rw [ne_eq, ← Option.map_eq_none_iff, restorable.inbounds tag, Option.map_eq_none_iff]
    exact fits.present tag member
  exact Live.restored_of_save (sound.of_core fits.core) (undoable.of_core fits.core) fits.core onDisk same
    (fun fails => pushes.disk.trans (restorable.disk fails))
    (fun tag notIn => (pushes.pushed tag notIn).trans (restorable.pushed tag notIn))
    (fun tag member => ⟨.inr rfl,
      restoreBatch_shows (fits.managed tag member) (present tag member) member⟩)
    of.restoreSave of.restoreWritten

theorem commitGroup_restored (unsplit : change.Unsplit identifier name)
    (failed : ((Change.group change).commit environment outcomes live).2 ≠ .done) :
    live.Restored ((Change.group change).commit environment outcomes live).1 environment.managers
      outcomes := by
  -- It is enough that the batch leaves the store restorable.
  suffices restorable : (commitInboundBatch environment outcomes change.tags change.previous
      { live with store := change.changed }).2 ≠ .done →
      (commitInboundBatch environment outcomes change.tags change.previous
        { live with store := change.changed }).1.Restorable live change.before environment.replace
        change.tags by
    unfold Change.commit at failed ⊢
    dsimp only at failed ⊢
    split
    · rename_i committed isDone
      simp only [isDone, ne_eq, not_true_eq_false] at failed
    · rename_i rolledBack reply notDone isRolledBack
      apply restoreUserGroupState_restored fits sound undoable of onDisk
      have enough := restorable (by rw [isRolledBack]; exact notDone)
      rw [isRolledBack] at enough
      exact enough
  intro batchFailed
  unfold commitInboundBatch at batchFailed ⊢
  have pushes := @applyBatch_pushes environment.managers { live with store := change.changed } change.tags
    outcomes.update
  split
  · -- An update fails: nothing was saved.
    rename_i applied isApplied
    rw [isApplied] at pushes
    have fitsApplied := fits.of_unapplied pushes.store
    have confined : applied.Confined live change.before environment.replace change.tags :=
      ⟨fitsApplied.outside, fitsApplied.servers, fun _ => pushes.disk, pushes.pushed⟩
    exact (rolledBackBatch_spec fits confined rfl).1
  · rename_i applied isApplied
    rw [isApplied] at pushes
    have restorable := undone_restorable fits sound undoable of unsplit pushes
    split
    · rename_i saved error isSaved
      rw [isSaved] at restorable
      exact restorable
    · rename_i saved isSaved
      simp only [isApplied, isSaved, ne_eq, not_true_eq_false] at batchFailed

end Group

end SideraCore.Dashboard
