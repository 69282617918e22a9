import SideraCore.Dashboard.GroupChanges

/-!
Owns what the procedures that commit and undo a change do to a running dashboard:
runtime updates leave the store alone up to applied revisions, and a save leaves
alone what is normal, has its tokens in order and is already scrubbed.
-/

namespace SideraCore.Dashboard

open Dashboard.Store

structure Live.Pushes (live after : Live) (tags : List String) : Prop where
  store : after.store.unapplied = live.store.unapplied
  disk : after.disk = live.disk
  pushed : ∀ tag, tag ∉ tags → after.pushed tag = live.pushed tag

/-- The list last pushed to the runtime is the one computed from the store. -/
def Live.Shows (live : Live) (managers : GoMap ManagedRuntime) (policy : Policy) (tag : String) : Prop :=
  ∃ runtime record, managers tag = some runtime ∧ live.store.inbounds tag = some record ∧
    live.pushed tag = some (live.store.managedUsers runtime policy tag record)

section Pushes

variable {managers : GoMap ManagedRuntime} {live after middle : Live} {tag : String}
  {tags more : List String} {policy : Policy}

theorem Live.Pushes.refl (live : Live) (tags : List String) : live.Pushes live tags :=
  ⟨rfl, rfl, fun _ _ => rfl⟩

theorem Live.Pushes.trans (first : live.Pushes middle tags) (second : middle.Pushes after more) :
    live.Pushes after (tags ++ more) := by
  refine ⟨second.store.trans first.store, second.disk.trans first.disk, fun tag notIn => ?_⟩
  rw [List.mem_append, not_or] at notIn
  rw [second.pushed tag notIn.2, first.pushed tag notIn.1]

theorem applyInbound_pushes {outcome : Option Policy}
    (applied : applyInbound managers tag outcome live = some after) : live.Pushes after [tag] := by
  unfold applyInbound at applied
  split at applied
  · cases applied
    refine ⟨markApplied_unapplied live.store tag, rfl, fun other notIn => ?_⟩
    rw [List.mem_singleton] at notIn
    exact Function.update_of_ne notIn ..
  · cases applied

theorem restoreInbound_pushes : live.Pushes (restoreInbound managers policy tag live) [tag] := by
  unfold restoreInbound
  cases applied : applyInbound managers tag (some policy) live with
  | none => exact .refl live [tag]
  | some after => exact applyInbound_pushes applied

theorem Live.Shows.of_pushes (shows' : live.Shows managers policy tag)
    (pushes : live.Pushes after tags) (notIn : tag ∉ tags) : after.Shows managers policy tag := by
  obtain ⟨runtime, record, managed, present, pushed⟩ := shows'
  have records := congrFun (congrArg inbounds pushes.store) tag
  simp only [unapplied, present, Option.map_some] at records
  obtain ⟨found, presentAfter, -⟩ := Option.map_eq_some_iff.1 records
  refine ⟨runtime, found, managed, presentAfter, ?_⟩
  rw [pushes.pushed tag notIn, pushed, managedUsers_congr pushes.store present presentAfter]

theorem restoreInbound_shows (managed : managers tag ≠ none) (present : live.store.inbounds tag ≠ none) :
    (restoreInbound managers policy tag live).Shows managers policy tag := by
  obtain ⟨runtime, isManaged⟩ := Option.ne_none_iff_exists'.1 managed
  obtain ⟨record, isPresent⟩ := Option.ne_none_iff_exists'.1 present
  have marked : (live.store.markApplied tag).inbounds tag =
      some { record with appliedRevision := record.revision } := by
    simp [markApplied, isPresent]
  simp only [restoreInbound, applyInbound, isManaged, isPresent, Option.getD_some]
  refine ⟨runtime, _, isManaged, marked, ?_⟩
  dsimp only
  rw [Function.update_self,
    managedUsers_congr (markApplied_unapplied live.store tag) isPresent marked runtime policy]

theorem applyBatch_pushes {outcomes : String → Option Policy} :
    live.Pushes (applyBatch managers outcomes tags live).1 tags := by
  induction tags generalizing live with
  | nil => exact .refl live []
  | cons tag rest ih =>
      unfold applyBatch
      cases applied : applyInbound managers tag (outcomes tag) live with
      | none => exact .refl live _
      | some after => exact (applyInbound_pushes applied).trans ih

theorem restoreBatch_pushes {policies : String → Policy} :
    live.Pushes (restoreBatch managers policies tags live) tags := by
  induction tags generalizing live with
  | nil => exact .refl live []
  | cons tag rest ih => exact restoreInbound_pushes.trans ih

theorem inbounds_ne_none_of_unapplied {store other : Store} (same : other.unapplied = store.unapplied)
    (tag : String) : other.inbounds tag ≠ none ↔ store.inbounds tag ≠ none := by
  have records := congrFun (congrArg inbounds same) tag
  simp only [unapplied] at records
  rw [ne_eq, ← Option.map_eq_none_iff, records, Option.map_eq_none_iff]

theorem restoreBatch_shows {policies : String → Policy} (managed : managers tag ≠ none)
    (present : live.store.inbounds tag ≠ none) (member : tag ∈ tags) :
    (restoreBatch managers policies tags live).Shows managers (policies tag) tag := by
  induction tags generalizing live with
  | nil => exact absurd member List.not_mem_nil
  | cons first rest ih =>
      have pushes := @restoreInbound_pushes managers live first (policies first)
      by_cases later : tag ∈ rest
      · exact ih ((inbounds_ne_none_of_unapplied pushes.store tag).2 present) later
      · have isFirst : tag = first := (List.mem_cons.1 member).resolve_right later
        subst isFirst
        exact (restoreInbound_shows managed present).of_pushes restoreBatch_pushes later

end Pushes

/-! ### Stores that are almost normal -/

/-- The users of at most one account are not named after it. -/
structure Store.OneAstray (store : Store) : Prop where
  named : ∀ user, store.Has user → user.name ≠ ""
  sole : ∃ identifier, ∀ user, store.Has user →
    store.Named user.accountID user.name ∨ user.accountID = identifier

section Astray

variable {store other : Store}

theorem Store.OneAstray.namesApart (astray : store.OneAstray) : store.NamesApart := by
  obtain ⟨only, sole⟩ := astray.sole
  have mover {identifier name : String} (moves : store.Moves identifier name) : identifier = only := by
    obtain ⟨user, has, rfl, rfl⟩ := moves.refers
    exact (sole user has).resolve_left moves.not_named
  refine ⟨astray.named, fun identifier second account name _ _ moves _ movesOther different => ?_⟩
  exact absurd ((mover movesOther).trans (mover moves).symm) different

theorem Store.OneAstray.of_core (astray : store.OneAstray) (same : other.core = store.core) :
    other.OneAstray := by
  obtain ⟨only, sole⟩ := astray.sole
  refine ⟨fun user has => ?_, only, fun user has => ?_⟩
  · obtain ⟨similar, hasSimilar, -, name⟩ := has_of_core same.symm has
    rw [← name]
    exact astray.named similar hasSimilar
  · obtain ⟨similar, hasSimilar, account, name⟩ := has_of_core same.symm has
    unfold Named
    rw [accounts_of_core same, ← account, ← name]
    exact sole similar hasSimilar

theorem Store.AccountsNormal.oneAstray (normal : store.AccountsNormal) (accepted : store.AccountsAccepted) :
    store.OneAstray := by
  refine ⟨fun user has => ?_, "", fun user has => .inl (normal.assigned user has)⟩
  obtain ⟨account, present, named⟩ := normal.assigned user has
  rw [← named]
  exact accepted.valid.name_ne present

theorem Store.namedAfter_of_named {user : User} (has : store.Has user)
    (named : store.Named user.accountID user.name) : store.NamedAfter user.accountID user.name :=
  namedAfter_of_refers ⟨user, has, rfl, rfl⟩ named

end Astray

/-! ### Saves of a changed store -/

def Store.marked (store : Store) (tags : List String) : GoMap InboundRecord :=
  fun tag =>
    if tag ∈ tags then (store.inbounds tag).map fun record => { record with authoritative := true }
    else store.inbounds tag

/-- The store differs from another in the authoritative records of the tags, in accounts
and tokens, and in applied revisions. -/
structure Store.Staged (store before : Store) (tags : List String) : Prop where
  outside : ∀ tag, tag ∉ tags →
    (store.inbounds tag).map InboundRecord.unapplied = (before.inbounds tag).map InboundRecord.unapplied
  present : ∀ tag ∈ tags, before.inbounds tag ≠ none
  frames : ∀ tag, (store.inbounds tag).map InboundRecord.frame =
    (before.marked tags tag).map InboundRecord.frame
  servers : store.servers = before.servers
  accepted : store.AccountsAccepted
  astray : store.OneAstray
  finite : store.Finite

section Marked

variable {replace : ReplaceUsers} {store before : Store} {tags : List String} {tag : String}

theorem ScrubKeeps.of_marked
    (keeps : ScrubKeeps replace (before.marked tags) before.servers tag) :
    ScrubKeeps replace before.inbounds before.servers tag := by
  intro profile present
  have kept := keeps profile present
  by_cases member : tag ∈ tags
  · cases found : before.inbounds tag with
    | none => exact .inr (by simp [scrubProfile, found])
    | some record =>
        cases authoritative : record.authoritative with
        | false => exact .inr (by simp [scrubProfile, found, authoritative])
        | true =>
            have same : (before.inbounds tag).map InboundRecord.frame =
                (before.marked tags tag).map InboundRecord.frame := by
              simp [marked, member, found, InboundRecord.frame, authoritative]
            rw [scrubProfile_of_frame same]
            exact kept
  · have same : (before.inbounds tag).map InboundRecord.frame =
        (before.marked tags tag).map InboundRecord.frame := by
      simp [marked, member]
    rw [scrubProfile_of_frame same]
    exact kept

theorem Scrubbable.of_marked (scrubs : Scrubbable replace (before.marked tags) before.servers) :
    Scrubbable replace before.inbounds before.servers := by
  intro tag profile present fails
  apply scrubs tag profile present
  rw [← fails]
  apply scrubProfile_of_frame
  -- A record that is not authoritative does not fail.
  cases found : before.inbounds tag with
  | none =>
      unfold marked
      split_ifs <;> simp [found]
  | some record =>
      cases authoritative : record.authoritative with
      | false => simp [scrubProfile, found, authoritative] at fails
      | true =>
          unfold marked
          split_ifs <;> simp [found, InboundRecord.frame, authoritative]

theorem Scrubbable.of_frames {inbounds other : GoMap InboundRecord} {servers : GoMap ServerProfile}
    (scrubs : Scrubbable replace inbounds servers)
    (same : ∀ tag, (other tag).map InboundRecord.frame = (inbounds tag).map InboundRecord.frame) :
    Scrubbable replace other servers := by
  intro tag profile present
  rw [scrubProfile_of_frame (same tag)]
  exact scrubs tag profile present

end Marked

section Finite

variable {store other : Store}

/-- The names of the store leave room for one more token. -/
def Store.HasRoom (store : Store) : Prop :=
  ∃ keys, Enumerates keys store.inbounds ∧ (store.names keys).length < tokenSupply

theorem Store.Finite.of_similar (finite : store.Finite) (room : store.HasRoom)
    (accounts : ∃ keys, Enumerates keys other.accounts)
    (inbounds : ∀ tag, other.inbounds tag = none ↔ store.inbounds tag = none)
    (named : ∃ name, ∀ user, other.Has user →
      user.name = name ∨ ∃ known, store.Has known ∧ known.name = user.name)
    (servers : other.servers = store.servers) : other.Finite := by
  obtain ⟨keys, enumerated, few⟩ := room
  obtain ⟨name, names⟩ := named
  have order : Enumerates keys other.inbounds := enumerated.congr inbounds
  refine ⟨accounts, ⟨keys, order, ?_⟩, by rw [servers]; exact finite.servers⟩
  have included : other.names keys ⊆ name :: store.names keys := by
    intro found member
    obtain ⟨user, has, rfl⟩ := (mem_names order).1 member
    rcases names user has with same | known
    · exact same ▸ List.mem_cons_self
    · exact List.mem_cons_of_mem _ ((mem_names enumerated).2 known)
  have bound := (names_nodup.subperm included).length_le
  rw [List.length_cons] at bound
  omega

theorem names_of_core (same : other.core = store.core) {keys : List String}
    (enumerated : Enumerates keys store.inbounds) :
    Enumerates keys other.inbounds ∧ (other.names keys).length ≤ (store.names keys).length := by
  have order : Enumerates keys other.inbounds := enumerated.congr fun tag => by
    rw [← Option.map_eq_none_iff, inbounds_of_core same tag, Option.map_eq_none_iff]
  refine ⟨order, names_length_le enumerated order fun user has => ?_⟩
  obtain ⟨similar, hasSimilar, -, name⟩ := has_of_core same.symm has
  exact ⟨similar, hasSimilar, name⟩

theorem Store.Finite.of_core (finite : store.Finite) (same : other.core = store.core) :
    other.Finite := by
  obtain ⟨keys, enumerated, few⟩ := finite.inbounds
  obtain ⟨order, fewer⟩ := names_of_core same enumerated
  exact ⟨by rw [accounts_of_core same]; exact finite.accounts, ⟨keys, order, fewer.trans few⟩,
    by rw [servers_of_core same]; exact finite.servers⟩

/-- What a request finds: accepted, normal accounts, and room for one more token. -/
structure Store.Sound (store : Store) : Prop where
  accepted : store.AccountsAccepted
  normal : store.AccountsNormal
  finite : store.Finite
  room : store.HasRoom

theorem Store.Sound.of_core (sound : store.Sound) (same : other.core = store.core) : other.Sound := by
  obtain ⟨keys, enumerated, few⟩ := sound.room
  obtain ⟨order, fewer⟩ := names_of_core same enumerated
  exact ⟨sound.accepted.of_core same, sound.normal.of_core same, sound.finite.of_core same,
    keys, order, fewer.trans_lt few⟩

theorem Store.Sound.name_ne (sound : store.Sound) {user : User} (has : store.Has user) :
    user.name ≠ "" :=
  (sound.normal.oneAstray sound.accepted).named user has

theorem Store.Sound.identifier_ne (sound : store.Sound) {user : User} (has : store.Has user) :
    user.accountID ≠ "" := by
  obtain ⟨account, present, -⟩ := sound.normal.assigned user has
  exact sound.accepted.valid.identifier_ne present

end Finite

section Staged

variable {replace : ReplaceUsers} {context : SaveContext} {store other before : Store}
  {tags : List String}

section

variable (staged : store.Staged before tags)
include staged

theorem Store.Staged.of_unapplied
    (same : other.unapplied = store.unapplied) : other.Staged before tags := by
  have core := core_of_unapplied same
  have records := congrArg inbounds same
  exact ⟨fun tag notIn => (congrFun records tag).trans (staged.outside tag notIn), staged.present,
    fun tag => (frames_of_core core tag).trans (staged.frames tag),
    (servers_of_core core).trans staged.servers, staged.accepted.of_core core,
    staged.astray.of_core core, staged.finite.of_core core⟩

theorem Store.Staged.save_outside (of : context.Of store)
    (named : ∀ tag, tag ∉ tags → ∀ index user, store.userAt tag index = some user →
      store.Named user.accountID user.name) (tag : String) (notIn : tag ∉ tags) :
    (saveStore replace context store).store.unapplied.inbounds tag = before.unapplied.inbounds tag := by
  unfold unapplied
  dsimp only
  rw [saveStore_inbounds_of_namedAfter of staged.astray.namesApart fun index user found =>
    namedAfter_of_named (has_iff_userAt.2 ⟨tag, index, found⟩) (named tag notIn index user found)]
  exact staged.outside tag notIn

theorem Store.Staged.save_servers (of : context.Of store)
    (keeps : ∀ tag, ScrubKeeps replace (before.marked tags) before.servers tag) :
    (saveStore replace context store).store.servers = before.servers := by
  funext tag
  rw [← staged.servers]
  apply saveStore_servers_of_keeps of
  rw [staged.servers]
  exact (keeps tag).of_frame (staged.frames tag)

theorem Store.Staged.unwritten (of : context.Of store)
    (fails : ¬Scrubbable replace before.inbounds before.servers) :
    (saveStore replace context store).written = none := by
  apply saveStore_written_eq_none of
  intro scrubs
  apply fails
  rw [staged.servers] at scrubs
  exact (scrubs.of_frames fun tag => (staged.frames tag).symm).of_marked

end

theorem Live.save_disk {live : Live} (unwritten : (saveStore replace context live.store).written = none) :
    (live.save replace context).1.disk = live.disk := by
  unfold Live.save
  dsimp only
  rw [unwritten, Option.getD_none]

theorem withInbounds_unapplied {previous : GoMap InboundRecord}
    (isPrevious : ∀ tag, previous tag = if tag ∈ tags then before.inbounds tag else none)
    (present : ∀ tag ∈ tags, before.inbounds tag ≠ none)
    (outside : ∀ tag, tag ∉ tags → store.unapplied.inbounds tag = before.unapplied.inbounds tag)
    (tag : String) :
    (store.withInbounds previous).unapplied.inbounds tag = before.unapplied.inbounds tag := by
  unfold withInbounds unapplied
  dsimp only
  rw [isPrevious]
  split_ifs with member
  · obtain ⟨record, found⟩ := Option.ne_none_iff_exists'.1 (present tag member)
    rw [found, Option.some_or]
  · exact outside tag member

theorem unapplied_eq (inbounds : ∀ tag, store.unapplied.inbounds tag = before.unapplied.inbounds tag)
    (servers : store.servers = before.servers) (accounts : store.accounts = before.accounts)
    (subscriptions : store.subscriptions = before.subscriptions)
    (external : store.externalSubscriptions = before.externalSubscriptions) :
    store.unapplied = before.unapplied := by
  rw [mk.injEq]
  exact ⟨accounts, funext inbounds, servers, subscriptions, external⟩

end Staged

/-! ### The save of a restored store -/

section Restored

variable {replace : ReplaceUsers} {context : SaveContext} {live : Live} {before : Store}

/-- Saving a store that is as it was changes nothing, and writes it unless a profile
cannot be scrubbed. -/
theorem save_restored (same : live.store.unapplied = before.unapplied)
    (accepted : before.AccountsAccepted) (normal : before.AccountsNormal)
    (tokens : before.TokensInOrder)
    (keeps : ∀ tag, ScrubKeeps replace before.inbounds before.servers tag)
    (of : context.Of live.store) (succeeds : context.write = .written) :
    (live.save replace context).1.store = live.store ∧
      ((live.save replace context).1.disk = live.store ∨
        ¬Scrubbable replace before.inbounds before.servers ∧
          (live.save replace context).1.disk = live.disk) := by
  have core := core_of_unapplied same
  have acceptedLive := accepted.of_core core
  have saved : (saveStore replace context live.store).store = live.store := by
    rw [saveStore_store_of_normal of acceptedLive (normal.of_core core) (tokens.of_core core)]
    have servers : (scrubProfiles replace live.store.inbounds context.profiles live.store.servers).1 =
        live.store.servers := by
      funext tag
      apply scrubProfiles_of_keeps
      rw [servers_of_core core]
      exact (keeps tag).of_frame (frames_of_core core tag)
    rw [servers]
  refine ⟨saved, ?_⟩
  unfold Live.save
  dsimp only
  by_cases scrubs : Scrubbable replace before.inbounds before.servers
  · have scrubsLive : Scrubbable replace live.store.inbounds live.store.servers := by
      rw [servers_of_core core]
      exact scrubs.of_frames (frames_of_core core)
    rw [saveStore_writes of acceptedLive succeeds scrubsLive, saved]
    exact .inl rfl
  · have unwritten : (saveStore replace context live.store).written = none := by
      apply saveStore_written_eq_none of
      rw [servers_of_core core]
      exact fun scrubsLive => scrubs (scrubsLive.of_frames fun tag => (frames_of_core core tag).symm)
    rw [unwritten]
    exact .inr ⟨scrubs, rfl⟩

theorem save_pushed : (live.save replace context).1.pushed = live.pushed := rfl

end Restored

end SideraCore.Dashboard
