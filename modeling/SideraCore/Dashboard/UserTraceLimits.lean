import SideraCore.Dashboard.UserTraces

/-!
Owns the failures that leave a trace of a request for users, and with them the
stores and requests for which none does. Every failure here is a write that leaves
the file as it was; the updates and all the writes that undo it succeed.
-/

namespace SideraCore.Dashboard

open InboundRecord Change

/-! ### The calls of a failing request -/

def idlePolicy : Policy := ⟨0, [], fun _ _ => ⟨0, 0⟩⟩

structure Saves (saver : Store → SaveContext) (write : WriteOutcome) : Prop where
  of : ∀ store, store.Finite → (saver store).Of store
  write : ∀ store, (saver store).write = write

theorem exists_saver (write : WriteOutcome) : ∃ saver, Saves saver write := by
  classical
  have exists' (store : Store) : ∃ context : SaveContext, (store.Finite → context.Of store) ∧
      context.write = write := by
    by_cases finite : store.Finite
    · obtain ⟨context, of, isWrite⟩ := finite.exists_context write
      exact ⟨context, fun _ => of, isWrite⟩
    · exact ⟨⟨⟨[], [], [], []⟩, fun _ => none, 0, fun _ => "", [], write⟩,
        fun isFinite => absurd isFinite finite, rfl⟩
  choose saver of isWrite using exists'
  exact ⟨saver, of, isWrite⟩

theorem exists_saver_first (first : String) :
    ∃ saver, Saves saver .kept ∧
      ∀ store, store.servers first ≠ none → ∃ later, (saver store).profiles = first :: later := by
  classical
  obtain ⟨saver, of, kept⟩ := exists_saver .kept
  refine ⟨fun store => if store.servers first = none then saver store else
    { saver store with profiles := first :: (saver store).profiles.erase first }, ⟨?_, ?_⟩, ?_⟩
  · intro store finite
    dsimp only
    split_ifs with absent
    · exact of store finite
    · exact (of store finite).startWith absent
  · intro store
    dsimp only
    split_ifs
    · exact kept store
    · exact kept store
  · intro store present
    dsimp only
    rw [if_neg present]
    exact ⟨_, rfl⟩

variable {replace : ReplaceUsers} {tags : List String} {tag : String} {profile scrubbed : ServerProfile}
  {before : Store} {context : SaveContext}

section

variable (idempotent : ReplaceUsers.Idempotent replace) (scrubs : scrubProfile replace (before.marked tags) tag profile = some scrubbed)
include idempotent scrubs

theorem scrubProfile_again {other : GoMap InboundRecord}
    (frames : (other tag).map frame = (before.inbounds tag).map frame) :
    scrubProfile replace other tag scrubbed = some scrubbed := by
  rw [scrubProfile_of_frame frames]
  have shape : ∃ config, scrubbed = { profile with config := config } ∧
      (config = profile.config ∨ ∃ record, before.inbounds tag = some record ∧
        replace profile.config (blockedAdminServerUsers profile.type record) = some config) := by
    unfold scrubProfile at scrubs
    split_ifs at scrubs
    · cases scrubs
      exact ⟨profile.config, rfl, .inl rfl⟩
    · split at scrubs
      · cases scrubs
        exact ⟨profile.config, rfl, .inl rfl⟩
      · rename_i record present
        split_ifs at scrubs
        · obtain ⟨config, replaced, rfl⟩ := Option.map_eq_some_iff.1 scrubs
          refine ⟨config, rfl, .inr ?_⟩
          unfold Store.marked at present
          split_ifs at present
          · obtain ⟨original, presentOriginal, rfl⟩ := Option.map_eq_some_iff.1 present
            exact ⟨original, presentOriginal, replaced⟩
          · exact ⟨record, present, replaced⟩
        · cases scrubs
          exact ⟨profile.config, rfl, .inl rfl⟩
  obtain ⟨config, rfl, unchanged | ⟨record, present, replaced⟩⟩ := shape
  · -- The configuration was as the scrubbing leaves it, or is not scrubbed.
    subst unchanged
    cases present : before.inbounds tag with
    | none => simp [scrubProfile, present]
    | some record =>
        cases authoritative : record.authoritative with
        | false => simp [scrubProfile, present, authoritative]
        | true =>
            have same : (before.inbounds tag).map frame =
                (before.marked tags tag).map frame := by
              unfold Store.marked
              split_ifs <;> simp [present, frame, authoritative]
            rw [scrubProfile_of_frame same]
            exact scrubs
  · have again := idempotent _ _ _ replaced
    simp only [scrubProfile, present]
    split_ifs
    · rfl
    · rw [again]
      rfl
    · rfl

theorem saveStore_servers_again {other : Store}
    (of : context.Of other) (here : other.servers tag = some scrubbed)
    (frames : (other.inbounds tag).map frame = (before.inbounds tag).map frame) :
    (saveStore replace context other).store.servers tag = some scrubbed := by
  rw [saveStore_servers_of_keeps of, here]
  intro found present
  cases here.symm.trans present
  exact .inr (scrubProfile_again idempotent scrubs frames)

end

theorem Store.Staged.save_first {applied : Store} (staged : applied.Staged before tags)
    (of : context.Of applied)
    (first : applied.servers tag ≠ none → ∃ later, context.profiles = tag :: later)
    (present : before.servers tag = some profile)
    (scrubs : scrubProfile replace (before.marked tags) tag profile = some scrubbed) :
    (saveStore replace context applied).store.servers tag = some scrubbed := by
  rw [← staged.servers] at present
  obtain ⟨later, isFirst⟩ := first (by simp [present])
  refine saveStore_servers_first of staged.accepted isFirst present ?_
  rw [scrubProfile_of_frame (staged.frames tag)]
  exact scrubs

section Needed

variable {environment : RequestEnvironment} {store : Store} {live : Live}

def outcomesWith (update : Option Policy) (save rollbackSave restoreSave : Store → SaveContext) : Outcomes :=
  { update := fun _ => update
    save := save
    again := update
    rollback := fun _ => idlePolicy
    rollbackSave := rollbackSave
    restore := fun _ => idlePolicy
    restoreSave := restoreSave }

/-- The outcomes in which the updates succeed and only the saves differ. -/
def savedWith (save writer : Store → SaveContext) : Outcomes :=
  outcomesWith (some idlePolicy) save writer writer

theorem outcomesWith_of {update : Option Policy} {write : WriteOutcome} {save writer : Store → SaveContext}
    (saves : Saves save write) (writes : Saves writer .written) :
    (outcomesWith update save writer writer).Of :=
  ⟨saves.of, writes.of, writes.of, writes.write, writes.write⟩

theorem Live.save_fails {replace : ReplaceUsers} {context : SaveContext} (kept : context.write = .kept) :
    ∃ saved error, live.save replace context = (saved, some error) ∧
      saved.store = (saveStore replace context live.store).store := by
  obtain ⟨error, failed⟩ := Option.ne_none_iff_exists'.1
    (@saveStore_fails replace context live.store (by rw [kept]; decide))
  exact ⟨(live.save replace context).1, error, Prod.ext rfl failed, rfl⟩

theorem applyInbound_succeeds {managers : GoMap ManagedRuntime} {tag : String} {policy : Policy}
    (managed : managers tag ≠ none) (present : live.store.inbounds tag ≠ none) :
    ∃ applied, applyInbound managers tag (some policy) live = some applied := by
  obtain ⟨runtime, isManaged⟩ := Option.ne_none_iff_exists'.1 managed
  obtain ⟨record, isPresent⟩ := Option.ne_none_iff_exists'.1 present
  simp only [applyInbound, isManaged, isPresent]
  exact ⟨_, rfl⟩

theorem applyBatch_succeeds {managers : GoMap ManagedRuntime} {tags : List String} {policy : Policy}
    (managed : ∀ tag ∈ tags, managers tag ≠ none)
    (present : ∀ tag ∈ tags, live.store.inbounds tag ≠ none) :
    (applyBatch managers (fun _ => some policy) tags live).2 = true := by
  induction tags generalizing live with
  | nil => rfl
  | cons first rest ih =>
      obtain ⟨applied, isApplied⟩ := @applyInbound_succeeds live managers first policy
        (managed first List.mem_cons_self) (present first List.mem_cons_self)
      have pushes := applyInbound_pushes isApplied
      simp only [applyBatch, isApplied]
      apply ih
      · exact fun tag member => managed tag (List.mem_cons_of_mem _ member)
      · intro tag member
        rw [inbounds_ne_none_of_unapplied pushes.store]
        exact present tag (List.mem_cons_of_mem _ member)

variable {save writer : Store → SaveContext}

section Mutation

variable {mutation : Mutation} (fits : mutation.Fits environment.managers store) (sound : store.Sound)
  (restored : ∀ outcomes : Outcomes, outcomes.Of →
    (commitMutation environment outcomes mutation.tag mutation.previous
      { live with store := mutation.changed }).2 ≠ .done →
    (commitMutation environment outcomes mutation.tag mutation.previous
      { live with store := mutation.changed }).1.store.core = store.core)
include fits sound restored

theorem Mutation.Fits.rolledBack (fails : Saves save .kept) (writes : Saves writer .written) :
    ∃ applied rolledBack : Store, applied.Staged mutation.before [mutation.tag] ∧
      rolledBack.unapplied = ({ mutation.before with
        servers := (saveStore environment.replace (save applied) applied).store.servers } :
          Store).unapplied ∧
      (writer rolledBack).Of rolledBack ∧
      (saveStore environment.replace (writer rolledBack) rolledBack).store.core = mutation.before.core := by
  have before := sound.of_core fits.core
  have present : mutation.changed.inbounds mutation.tag ≠ none := by simp [Mutation.changed]
  obtain ⟨applied, isApplied⟩ := @applyInbound_succeeds { live with store := mutation.changed }
    environment.managers mutation.tag idlePolicy fits.managed present
  obtain ⟨saved, error, isSaved, isStore⟩ := @Live.save_fails applied environment.replace _
    (fails.write applied.store)
  have pushes := (applyInbound_pushes isApplied).store
  have staged := (fits.staged before).of_unapplied pushes
  have saves := fails.of applied.store staged.finite
  have outside := @Mutation.Fits.save_outside _ _ _ fits before environment.replace _ _ pushes saves
  rw [← isStore] at outside
  obtain ⟨restores, -⟩ := @rolledBackMutation_spec environment (savedWith save writer) _ _ saved _ fits
    outside rfl
  rw [isStore] at restores
  have committed : commitMutation environment (savedWith save writer) mutation.tag mutation.previous
      { live with store := mutation.changed } = (rollbackMutation environment (savedWith save writer)
        mutation.tag mutation.previous mutation.changed true saved, .saveFailed error) := by
    simp only [commitMutation, savedWith, outcomesWith, isApplied, isSaved]
  have memory := restored (savedWith save writer) (outcomesWith_of fails writes) (by rw [committed]; exact UserReply.noConfusion)
  rw [committed, ← fits.core] at memory
  have mixed : ({ mutation.before with
      servers := (saveStore environment.replace (save applied.store) applied.store).store.servers } :
        Store).Finite :=
    ⟨before.finite.accounts, before.finite.inbounds, (saveStore_finite saves staged.finite).servers⟩
  exact ⟨applied.store, _, staged, restores, writes.of _ (mixed.of_core (core_of_unapplied restores)), memory⟩

theorem Mutation.Fits.undoable_of_restored (idempotent : ReplaceUsers.Idempotent environment.replace) :
    store.Undoable environment.replace [mutation.tag] := by
  have before := sound.of_core fits.core
  obtain ⟨writer, writes⟩ := exists_saver .written
  have keeps (tag : String) : ScrubKeeps environment.replace (mutation.before.marked [mutation.tag])
      mutation.before.servers tag := by
    intro profile present
    cases scrubs : scrubProfile environment.replace (mutation.before.marked [mutation.tag]) tag profile with
    | none => exact .inl rfl
    | some scrubbed =>
        right
        obtain ⟨save, fails, first⟩ := exists_saver_first tag
        obtain ⟨applied, rolledBack, staged, same, rolledBackOf, memory⟩ :=
          fits.rolledBack sound restored fails writes
        have sameCore := core_of_unapplied same
        have onRolledBack : rolledBack.servers tag = some scrubbed := by
          rw [servers_of_core sameCore]
          exact staged.save_first (fails.of applied staged.finite) (first applied) present scrubs
        have final := saveStore_servers_again idempotent scrubs rolledBackOf onRolledBack
          (frames_of_core sameCore tag)
        rw [servers_of_core memory, present] at final
        exact final.symm
  refine Store.Undoable.of_core ⟨?_, keeps⟩ fits.core.symm
  obtain ⟨save, fails⟩ := exists_saver .kept
  obtain ⟨applied, rolledBack, staged, same, rolledBackOf, memory⟩ :=
    fits.rolledBack sound restored fails writes
  rw [staged.save_servers (fails.of applied staged.finite) keeps] at same
  have sameCore := core_of_unapplied same
  have inOrder := tokensInOrder_of_saveStore rolledBackOf (before.accepted.of_core sameCore)
    (before.normal.of_core sameCore) ((subscriptions_of_core memory).trans (subscriptions_of_core sameCore).symm)
    ((external_of_core memory).trans (external_of_core sameCore).symm)
  exact inOrder.of_core sameCore.symm

end Mutation

/-- The stores on the way back from a failed save of several records: pushed, with the
records put back, and with accounts and tokens put back as well. -/
structure GroupChange.Undoing (change : GroupChange) (replace : ReplaceUsers)
    (save writer : Store → SaveContext) (applied undone restored : Store) : Prop where
  pushes : applied.unapplied = change.changed.unapplied
  accounts : undone.accounts = (saveStore replace (save applied) applied).store.accounts
  servers : undone.servers = (saveStore replace (save applied) applied).store.servers
  inside : ∀ tag ∈ change.tags, (undone.inbounds tag).map unapplied =
    (change.before.inbounds tag).map unapplied
  outside : ∀ tag, tag ∉ change.tags → (undone.inbounds tag).map unapplied =
    ((saveStore replace (save applied) applied).store.inbounds tag).map unapplied
  restores : restored.unapplied =
    ((saveStore replace (writer undone) undone).store.withAccountsOf change.before).unapplied

section Group

variable {change : GroupChange} {members : GoMap User} {identifier name : String}
  {applied undone restored : Store}
  (fits : change.Fits environment.managers store members identifier name)
include fits

theorem commitGroup_save_fails (fails : Saves save .kept) :
    ∃ applied undone restored, change.Undoing environment.replace save writer applied undone restored ∧
      ((group change).commit environment (savedWith save writer) live).2 ≠ .done ∧
      ((group change).commit environment (savedWith save writer) live).1.store =
        (saveStore environment.replace (writer restored) restored).store := by
  have present (tag : String) (member : tag ∈ change.tags) : change.changed.inbounds tag ≠ none := by
    obtain ⟨record, presentBefore⟩ := Option.ne_none_iff_exists'.1 (fits.present tag member)
    obtain ⟨updated, presentAfter, -⟩ := fits.inside tag member record presentBefore
    simp [presentAfter]
  have updated := @applyBatch_succeeds { live with store := change.changed } environment.managers
    change.tags idlePolicy fits.managed present
  have pushes := @applyBatch_pushes environment.managers { live with store := change.changed } change.tags
    (fun _ => some idlePolicy)
  obtain ⟨pushed, isPushed⟩ : ∃ pushed, applyBatch environment.managers (fun _ => some idlePolicy)
      change.tags { live with store := change.changed } = (pushed, true) := ⟨_, Prod.ext rfl updated⟩
  rw [isPushed] at pushes
  obtain ⟨saved, error, isSaved, isStore⟩ := @Live.save_fails pushed environment.replace _
    (fails.write pushed.store)
  -- The records are put back and pushed, and then the accounts.
  have undoes := @restoreBatch_pushes environment.managers
    { saved with store := saved.store.withInbounds change.previous } change.tags (fun _ => idlePolicy)
  obtain ⟨undone, isUndone⟩ : ∃ undone, restoreBatch environment.managers (fun _ => idlePolicy) change.tags
    { saved with store := saved.store.withInbounds change.previous } = undone := ⟨_, rfl⟩
  rw [isUndone] at undoes
  have restores := @restoreBatch_pushes environment.managers
    { (undone.save environment.replace (writer undone.store)).1 with
      store := (undone.save environment.replace (writer undone.store)).1.store.withAccountsOf change.before }
    change.tags (fun _ => idlePolicy)
  have committed : (group change).commit environment (savedWith save writer) live =
      (restoreUserGroupState environment (savedWith save writer) change.tags change.before
        (undone.save environment.replace (writer undone.store)).1, .saveFailed error) := by
    simp only [commit, commitInboundBatch, savedWith, outcomesWith, isPushed, isSaved,
      rollbackInboundBatch, if_true, isUndone]
  have accounts := accounts_of_core (core_of_unapplied undoes.store)
  have servers := servers_of_core (core_of_unapplied undoes.store)
  have records := congrFun (congrArg Store.inbounds undoes.store)
  refine ⟨pushed.store, undone.store, _, ⟨pushes.store, isStore ▸ accounts, isStore ▸ servers,
    fun tag member => ?_, fun tag notIn => ?_, restores.store⟩, ?_, ?_⟩
  · obtain ⟨record, isRecord⟩ := Option.ne_none_iff_exists'.1 (fits.present tag member)
    refine (records tag).trans ?_
    simp [Store.unapplied, Store.withInbounds, GroupChange.previous, member, isRecord]
  · refine (records tag).trans ?_
    simp only [Store.unapplied, Store.withInbounds, GroupChange.previous, if_neg notIn, Option.none_or,
      isStore]
  · rw [committed]
    exact UserReply.noConfusion
  · rw [committed]
    rfl

omit fits in
theorem GroupChange.Undoing.frames
    (undoing : change.Undoing environment.replace save writer applied undone restored)
    (staged : applied.Staged change.before change.tags) (saves : (save applied).Of applied)
    (tag : String) : (undone.inbounds tag).map frame =
      (change.before.inbounds tag).map frame := by
  by_cases member : tag ∈ change.tags
  · exact frames_of_unapplied (undoing.inside tag member)
  · refine (frames_of_unapplied (undoing.outside tag member)).trans
      ((saveStore_frames saves tag).trans ((staged.frames tag).trans ?_))
    unfold Store.marked
    rw [if_neg member]

/-- The stores on the way back are finite, so that they can be saved. -/
theorem GroupChange.Undoing.finite
    (undoing : change.Undoing environment.replace save writer applied undone restored)
    (sound : change.before.Sound) (fails : Saves save .kept) (writes : Saves writer .written) :
    applied.Staged change.before change.tags ∧ (save applied).Of applied ∧ (writer undone).Of undone ∧
      (writer restored).Of restored := by
  have fitsApplied := fits.of_unapplied undoing.pushes
  have staged := fitsApplied.staged sound
  have saves := fails.of applied staged.finite
  have finiteSaved := @saveStore_finite applied environment.replace (save applied) saves staged.finite
  have mixed : ({ change.before with
      servers := (saveStore environment.replace (save applied) applied).store.servers } : Store).Finite :=
    ⟨sound.finite.accounts, sound.finite.inbounds, finiteSaved.servers⟩
  obtain ⟨result, accounts, outcome, -, inbounds⟩ := @saveStore_outcome environment.replace
    (save applied) applied saves staged.accepted staged.astray.namesApart
  have finiteUndone : undone.Finite := by
    refine mixed.of_similar sound.room (by rw [undoing.accounts]; exact finiteSaved.accounts)
      (fun tag => ?_) ⟨name, fun user has => ?_⟩ undoing.servers
    · rw [← Option.map_eq_none_iff, undoing.frames staged saves tag, Option.map_eq_none_iff]
    · rcases has_of_either undoing.inside undoing.outside has with old | ⟨tag, record, present, member⟩
      · exact .inr ⟨user, old, rfl⟩
      · rw [inbounds] at present
        obtain ⟨⟨earlier, hasEarlier, sameName⟩, -⟩ := outcome.has ⟨tag, record, present, member⟩
        rcases fitsApplied.has hasEarlier with isOld | ⟨-, isName⟩
        · exact .inr ⟨earlier, isOld, sameName.symm⟩
        · exact .inl (sameName.trans isName)
  have undoneOf := writes.of undone finiteUndone
  have finiteAgain := @saveStore_finite undone environment.replace (writer undone) undoneOf finiteUndone
  have mixedAgain : ((saveStore environment.replace (writer undone) undone).store.withAccountsOf
      change.before).Finite := ⟨sound.finite.accounts, finiteAgain.inbounds, finiteAgain.servers⟩
  exact ⟨staged, saves, undoneOf,
    writes.of restored (mixedAgain.of_core (core_of_unapplied undoing.restores))⟩

variable (sound : store.Sound) (memory : ∀ outcomes : Outcomes, outcomes.Of →
  ((group change).commit environment outcomes live).2 ≠ .done →
    ((group change).commit environment outcomes live).1.store.core = store.core)
include sound memory

theorem GroupChange.Fits.unsplit_of_restored : change.Unsplit identifier name := by
  by_contra split
  have before := sound.of_core fits.core
  obtain ⟨save, fails⟩ := exists_saver .kept
  obtain ⟨writer, writes⟩ := exists_saver .written
  obtain ⟨applied, undone, restored, undoing, failed, final⟩ := commitGroup_save_fails fits fails
  have remembered := memory (savedWith save writer) (outcomesWith_of fails writes) failed
  rw [final] at remembered
  obtain ⟨staged, saves, undoneOf, restoredOf⟩ := undoing.finite fits before fails writes
  have fitsApplied := fits.of_unapplied undoing.pushes
  obtain ⟨result, accounts, outcome, savedAccounts, savedInbounds⟩ := @saveStore_outcome environment.replace
    (save applied) applied saves staged.accepted staged.astray.namesApart
  have undoneAccounts := undoing.accounts.trans savedAccounts
  -- After the records are saved, a user refers to an account the old store has not.
  have astray : ∃ tag index fresh,
      (saveStore environment.replace (writer undone) undone).store.accountAt tag index = some fresh ∧
      change.before.accounts fresh = none ∧ fresh ≠ "" := by
    by_cases left : ∃ tag index user, tag ∉ change.tags ∧ applied.userAt tag index = some user ∧
        user.accountID = identifier ∧ user.name ≠ name
    · obtain ⟨tag, index, user, notIn, found, same, misnamed⟩ := left
      refine ⟨tag, index, fitsApplied.undone_outside before same misnamed outcome undoneAccounts undoneOf
        undoing.inside (fun other notAffected => ?_) found notIn⟩
      unfold Store.unapplied
      rw [← savedInbounds]
      exact undoing.outside other notAffected
    · have records := congrArg Store.inbounds undoing.pushes
      have inside (tag : String) (notIn : tag ∉ change.tags) (index : Nat) (user : User)
          (found : applied.userAt tag index = some user) (same : user.accountID = identifier) :
          user.name = name := by
        by_contra misnamed
        exact left ⟨tag, index, user, notIn, found, same, misnamed⟩
      unfold GroupChange.Unsplit at split
      rw [not_or, not_and] at split
      have noOrphans := split.2 fun tag notIn record present user member same => by
        obtain ⟨index, isUser⟩ := List.getElem?_of_mem member
        refine inside tag notIn index user (userAt_of_unapplied (congrFun records tag).symm ?_) same
        simp only [Store.userAt, present, Option.bind_some]
        exact isUser
      have outside := @Store.Staged.save_outside environment.replace (save applied) _ _ _ staged saves
        fun tag notIn index user found => fitsApplied.named before
          (Store.has_iff_userAt.2 ⟨tag, index, found⟩) (inside tag notIn index user found)
      unfold GroupChange.Whole at split
      push Not at split
      obtain ⟨⟨user, has, same, misnamed⟩, -⟩ := split
      refine fitsApplied.undone_inside before same misnamed outcome undoneAccounts undoneOf
        staged.astray.namesApart (funext fun tag => ?_) (has_of_unapplied records.symm has) ?_
      · by_cases member : tag ∈ change.tags
        · exact undoing.inside tag member
        · exact (undoing.outside tag member).trans (outside tag member)
      · rintro ⟨last, old, alone⟩
        exact noOrphans ⟨last, old, fun other hasOther =>
          alone other (has_of_unapplied records.symm hasOther)⟩
  obtain ⟨tag, index, fresh, found, unknown, nonempty⟩ := astray
  have restoredCore := core_of_unapplied undoing.restores
  have foundRestored : restored.accountAt tag index = some fresh := by
    rw [← accountAt_core, restoredCore, accountAt_core]
    exact found
  obtain ⟨user, isUser, rfl⟩ := Option.map_eq_some_iff.1 foundRestored
  have refused : ¬restored.AccountsAccepted := by
    intro acceptedRestored
    apply acceptedRestored.known user (Store.has_iff_userAt.2 ⟨tag, index, isUser⟩) nonempty
    rw [accounts_of_core restoredCore]
    exact unknown
  obtain ⟨error, saved⟩ := saveStore_of_refused environment.replace restoredOf refused
  rw [saved] at remembered
  exact refused (sound.accepted.of_core remembered)

omit sound memory in
theorem commitGroup_update_fails :
    ∃ restored, restored.unapplied = change.before.unapplied ∧
      ((group change).commit environment (outcomesWith none save writer writer) live).2 ≠ .done ∧
      ((group change).commit environment (outcomesWith none save writer writer) live).1.store =
        (saveStore environment.replace (writer restored) restored).store := by
  have stopped : applyBatch environment.managers (fun _ => none) change.tags
      { live with store := change.changed } = ({ live with store := change.changed }, false) := by
    obtain ⟨first, rest, isTags⟩ := List.exists_cons_of_ne_nil fits.nonempty
    rw [isTags]
    simp [applyBatch, applyInbound]
  obtain ⟨rolledBack, isRolledBack⟩ : ∃ rolledBack, rollbackInboundBatch environment
      (outcomesWith none save writer writer) change.tags change.previous false
      { live with store := change.changed } = rolledBack := ⟨_, rfl⟩
  have confined : ({ live with store := change.changed } : Live).Confined live change.before
      environment.replace change.tags := ⟨fits.outside, fits.servers, fun _ => rfl, fun _ _ => rfl⟩
  have restorable := (rolledBackBatch_spec fits confined isRolledBack).1
  have committed : (group change).commit environment (outcomesWith none save writer writer) live =
      (restoreUserGroupState environment (outcomesWith none save writer writer) change.tags change.before
        rolledBack, .updateFailed) := by
    rw [← isRolledBack]
    simp only [commit, commitInboundBatch, outcomesWith, stopped]
  have pushes := @restoreBatch_pushes environment.managers
    { rolledBack with store := rolledBack.store.withAccountsOf change.before } change.tags
    (fun _ => idlePolicy)
  refine ⟨_, pushes.store.trans (unapplied_eq restorable.inbounds restorable.servers rfl rfl rfl), ?_, ?_⟩
  · rw [committed]
    exact UserReply.noConfusion
  · rw [committed]
    rfl

theorem GroupChange.Fits.undoable_of_restored
    (idempotent : ReplaceUsers.Idempotent environment.replace) :
    store.Undoable environment.replace change.tags := by
  obtain ⟨writer, writes⟩ := exists_saver .written
  refine Store.Undoable.of_core ⟨?_, fun tag profile present => ?_⟩ fits.core.symm
  · obtain ⟨restored, same, failed, final⟩ := commitGroup_update_fails fits
    have remembered := memory _ (outcomesWith_of writes writes) failed
    have sameCore := core_of_unapplied same
    rw [final, ← fits.core, ← sameCore] at remembered
    have found := sound.of_core (sameCore.trans fits.core)
    have inOrder := tokensInOrder_of_saveStore (writes.of restored found.finite) found.accepted found.normal
      (subscriptions_of_core remembered) (external_of_core remembered)
    exact inOrder.of_core sameCore.symm
  · cases scrubs : scrubProfile environment.replace (change.before.marked change.tags) tag profile with
    | none => exact .inl rfl
    | some scrubbed =>
        right
        obtain ⟨save, fails, first⟩ := exists_saver_first tag
        obtain ⟨applied, undone, restored, undoing, failed, final⟩ := commitGroup_save_fails fits fails
        have remembered := memory (savedWith save writer) (outcomesWith_of fails writes) failed
        rw [final, ← fits.core] at remembered
        obtain ⟨staged, saves, undoneOf, restoredOf⟩ :=
          undoing.finite fits (sound.of_core fits.core) fails writes
        -- The failing save scrubs the profile; the later ones leave it scrubbed.
        have onUndone : undone.servers tag = some scrubbed := by
          rw [undoing.servers]
          exact staged.save_first saves (first applied) present scrubs
        have framesUndone := undoing.frames staged saves tag
        have restoredCore := core_of_unapplied undoing.restores
        have onRestored : restored.servers tag = some scrubbed := by
          rw [servers_of_core restoredCore]
          exact saveStore_servers_again idempotent scrubs undoneOf onUndone framesUndone
        have framesRestored := (frames_of_core restoredCore tag).trans
          ((saveStore_frames undoneOf tag).trans framesUndone)
        have onFinal := saveStore_servers_again idempotent scrubs restoredOf onRestored framesRestored
        rw [servers_of_core remembered, present] at onFinal
        exact onFinal.symm

end Group

end Needed

end SideraCore.Dashboard
