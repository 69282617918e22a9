import SideraCore.Dashboard.Save

/-!
Owns the operations on server profiles: `createServer`, `updateServer` and
`deleteServer`, with what they undo when the save fails. Its result says for which
stores and requests a failed save leaves no trace in memory.

It does not own the validation of submitted JSON: `decodeAdminServer` and
`adminServerHasUsers` are parameters.
-/

namespace SideraCore.Dashboard

open Function

structure ServerInput where
  kind : String
  config : String
  advertise : String
  revision : Int
deriving DecidableEq, Repr

structure DecodedServer where
  kind : ServerKind
  tag : String
  type : String
  config : String
  advertise : String
deriving DecidableEq, Repr

/-- What a profile that is edited must keep: its tag, its kind and its type. -/
structure ExpectedServer where
  tag : String
  kind : ServerKind
  type : String
deriving DecidableEq, Repr

inductive ServerReply where
  | created
  | updated
  | deleted
  | badRequest (message : String)
  | notFound
  | conflict
  | internal
  | saveFailed (error : SaveError)
deriving DecidableEq, Repr

structure ServerEnvironment where
  decode : ServerInput → Option ExpectedServer → Except String DecodedServer
  hasUsers : String → Bool
  replace : ReplaceUsers
  running : String → Bool
  now : Int

/-- A change that is ready to be saved, and the profile that is put back if the save
fails. -/
structure ServerChange where
  tag : String
  current : Option ServerProfile
  changed : Store
  reply : ServerReply

variable (environment : ServerEnvironment) (store : Store) (tag : String)

def Store.setServer (profile : Option ServerProfile) : Store :=
  { store with servers := update store.servers tag profile }

def Store.dropInbound : Store :=
  { store with inbounds := update store.inbounds tag none }

def prepareCreateServer (input : ServerInput) :
    Except ServerReply ServerChange :=
  match environment.decode input none with
  | .error message => .error (.badRequest message)
  | .ok decoded =>
      if environment.running decoded.tag then .error .conflict
      else if store.servers decoded.tag ≠ none then .error .conflict
      else
        .ok
          { tag := decoded.tag
            current := none
            changed := store.setServer decoded.tag (some
              { kind := decoded.kind
                type := decoded.type
                config := decoded.config
                advertise := decoded.advertise
                revision := environment.now
                appliedRevision := 0
                deleted := false
                createdAt := environment.now
                updatedAt := environment.now })
            reply := .created }

/-- `updateServer` up to its save. Users of an authoritative inbound stay out of the
configuration. -/
def prepareUpdateServer (input : ServerInput) : Except ServerReply ServerChange :=
  match store.servers tag with
  | none => .error .notFound
  | some current =>
      if current.deleted then .error .notFound
      else if input.revision ≤ 0 ∨ input.revision ≠ current.revision then .error .conflict
      else
        let authoritative := (store.inbounds tag).filter (·.authoritative)
        if authoritative.isSome ∧ environment.hasUsers input.config then
          .error (.badRequest "此節點的 users 由用戶管理頁面維護，不可在 Server JSON 中變更")
        else
          match environment.decode input (some ⟨tag, current.kind, current.type⟩) with
          | .error message => .error (.badRequest message)
          | .ok decoded =>
              let config := match authoritative with
                | some record =>
                    environment.replace decoded.config (blockedAdminServerUsers current.type record)
                | none => some decoded.config
              match config with
              | none => .error .internal
              | some config =>
                  .ok
                    { tag := tag
                      current := some current
                      changed := store.setServer tag (some
                        { current with
                          config := config
                          advertise := decoded.advertise
                          revision := nextAdminRevision current.revision environment.now
                          updatedAt := environment.now })
                      reply := .updated }

/-- `deleteServer` up to its save. A profile without a running server goes at once, with
its record; a running one is marked. -/
def prepareDeleteServer (expectedRevision : Int) : Except ServerReply ServerChange :=
  if expectedRevision ≤ 0 then .error (.badRequest "revision 格式不正確")
  else
    match store.servers tag with
    | none => .error .notFound
    | some current =>
        if current.revision ≠ expectedRevision then .error .conflict
        else
          .ok
            { tag := tag
              current := some current
              changed :=
                if environment.running tag then
                  store.setServer tag (some
                    { current with
                      deleted := true
                      revision := nextAdminRevision current.revision environment.now
                      updatedAt := environment.now })
                else (store.setServer tag none).dropInbound tag
              reply := .deleted }

def ServerChange.commit (change : ServerChange) (replace : ReplaceUsers) (context : SaveContext) :
    ServerReply × Store :=
  let saved := saveStore replace context change.changed
  match saved.error with
  | some error => (.saveFailed error, saved.store.setServer change.tag change.current)
  | none => (change.reply, saved.store)

inductive ServerRequest where
  | create (input : ServerInput)
  | update (tag : String) (input : ServerInput)
  | delete (tag : String) (expectedRevision : Int)
deriving DecidableEq, Repr

def ServerRequest.prepare :
    ServerRequest → Except ServerReply ServerChange
  | .create input => prepareCreateServer environment store input
  | .update tag input => prepareUpdateServer environment store tag input
  | .delete tag expectedRevision => prepareDeleteServer environment store tag expectedRevision

def ServerRequest.serve (context : SaveContext) (store : Store) (request : ServerRequest) :
    ServerReply × Store :=
  match request.prepare environment store with
  | .error reply => (reply, store)
  | .ok change => change.commit environment.replace context

/-- The request removes a profile that has no running server. -/
def ServerRequest.RemovesAtOnce : ServerRequest → Prop
  | .delete tag _ => environment.running tag = false
  | _ => False

/-! ### What the operations change before they save -/

section Changes

variable {environment : ServerEnvironment} {store : Store} {request : ServerRequest}
  {change : ServerChange}

/-- A change touches the profile of its tag, and the record only where the profile goes
at once. -/
structure ServerChange.Touches (change : ServerChange) (environment : ServerEnvironment)
    (store : Store) (request : ServerRequest) : Prop where
  current : change.current = store.servers change.tag
  accounts : change.changed.accounts = store.accounts
  subscriptions : change.changed.subscriptions = store.subscriptions
  external : change.changed.externalSubscriptions = store.externalSubscriptions
  servers : ∀ tag, tag ≠ change.tag → change.changed.servers tag = store.servers tag
  kept : ¬request.RemovesAtOnce environment → change.changed.inbounds = store.inbounds
  removed : request.RemovesAtOnce environment →
    change.changed.inbounds = update store.inbounds change.tag none
  fails : ∀ error, change.reply ≠ .saveFailed error

theorem setServer_servers_of_ne {tag other : String} {profile : Option ServerProfile}
    (different : other ≠ tag) : (store.setServer tag profile).servers other = store.servers other :=
  update_of_ne different ..

theorem prepare_touches (prepared : request.prepare environment store = .ok change) :
    change.Touches environment store request := by
  cases request with
  | create input =>
      simp only [ServerRequest.prepare, prepareCreateServer] at prepared
      split at prepared
      · cases prepared
      split_ifs at prepared with running taken
      cases prepared
      rw [not_not] at taken
      exact ⟨taken.symm, rfl, rfl, rfl, fun tag different => setServer_servers_of_ne different,
        fun _ => rfl, fun impossible => impossible.elim, nofun⟩
  | update tag input =>
      simp only [ServerRequest.prepare, prepareUpdateServer] at prepared
      split at prepared
      · cases prepared
      rename_i current present
      split_ifs at prepared
      split at prepared
      · cases prepared
      split at prepared
      · cases prepared
      · cases prepared
        exact ⟨present.symm, rfl, rfl, rfl,
          fun other different => setServer_servers_of_ne different, fun _ => rfl,
          fun impossible => impossible.elim, nofun⟩
  | delete tag expectedRevision =>
      simp only [ServerRequest.prepare, prepareDeleteServer] at prepared
      split_ifs at prepared with _ running
      · split at prepared
        · cases prepared
        rename_i current present
        split_ifs at prepared
        cases prepared
        exact ⟨present.symm, rfl, rfl, rfl,
          fun other different => setServer_servers_of_ne different, fun _ => rfl,
          fun removes => by simp [ServerRequest.RemovesAtOnce, running] at removes, nofun⟩
      · split at prepared
        · cases prepared
        rename_i current present
        split_ifs at prepared
        cases prepared
        exact ⟨present.symm, rfl, rfl, rfl,
          fun other different => setServer_servers_of_ne different,
          fun stays => absurd (Bool.eq_false_iff.2 running) stays, fun _ => rfl, nofun⟩

end Changes

section Failures

variable {environment : ServerEnvironment} {store : Store} {request : ServerRequest}
  {change : ServerChange} {context : SaveContext}

/-- A failed save leaves the accounts, the tokens and the profiles of other tags. -/
structure Store.Settled (store : Store) (replace : ReplaceUsers) (tag : String) : Prop where
  normal : store.AccountsNormal
  tokens : store.TokensInOrder
  profiles : ∀ other, other ≠ tag → ScrubKeeps replace store.inbounds store.servers other

theorem commit_of_failed {error : SaveError} {after : Store}
    (never : change.reply ≠ .saveFailed error)
    (served : change.commit environment.replace context = (.saveFailed error, after)) :
    after = (saveStore environment.replace context change.changed).store.setServer change.tag
      change.current := by
  unfold ServerChange.commit at served
  dsimp only at served
  split at served
  · exact (congrArg Prod.snd served).symm
  · exact absurd (congrArg Prod.fst served) never

/-- Putting the profile back undoes a change that only touched it. -/
theorem setServer_undoes {changed : Store} {tag : String} {current : Option ServerProfile}
    (isCurrent : current = store.servers tag) (accounts : changed.accounts = store.accounts)
    (inbounds : changed.inbounds = store.inbounds)
    (subscriptions : changed.subscriptions = store.subscriptions)
    (external : changed.externalSubscriptions = store.externalSubscriptions)
    (servers : ∀ other, other ≠ tag → changed.servers other = store.servers other) :
    changed.setServer tag current = store := by
  have profiles : update changed.servers tag current = store.servers := by
    funext other
    by_cases same : other = tag
    · rw [same, update_self, isCurrent]
    · rw [update_of_ne same, servers other same]
  unfold Store.setServer
  rw [accounts, inbounds, subscriptions, external, profiles]

section

variable (touches : change.Touches environment store request)
include touches

theorem failed_save_invisible
    (inbounds : change.changed.inbounds = store.inbounds) (of : context.Of change.changed)
    (settled : store.AccountsAccepted → store.Settled environment.replace change.tag) :
    (saveStore environment.replace context change.changed).store.setServer change.tag change.current =
      store := by
  by_cases accepted : change.changed.AccountsAccepted
  · have isSettled := settled (accepted.congr touches.accounts.symm inbounds.symm)
    have normal := isSettled.normal.congr touches.accounts inbounds
    have inOrder := isSettled.tokens.congr inbounds touches.subscriptions touches.external
    rw [saveStore_store_of_normal of accepted normal inOrder]
    refine setServer_undoes touches.current touches.accounts ?_ touches.subscriptions touches.external
      fun other different => ?_
    · exact inbounds
    have keeps : ScrubKeeps environment.replace change.changed.inbounds change.changed.servers other := by
      rw [ScrubKeeps, inbounds, touches.servers other different]
      exact isSettled.profiles other different
    dsimp only
    rw [scrubProfiles_of_keeps keeps, touches.servers other different]
  · obtain ⟨error, saved⟩ := saveStore_of_refused environment.replace of accepted
    rw [saved]
    exact setServer_undoes touches.current touches.accounts inbounds touches.subscriptions
      touches.external touches.servers

theorem ServerChange.Touches.inbounds
    (removes : request.RemovesAtOnce environment → store.inbounds change.tag = none) :
    change.changed.inbounds = store.inbounds := by
  by_cases removesNow : request.RemovesAtOnce environment
  · rw [touches.removed removesNow, ← removes removesNow, update_eq_self]
  · exact touches.kept removesNow

theorem ServerChange.Touches.finite
    (finite : store.Finite) : change.changed.Finite := by
  obtain ⟨tags, enumerated, few⟩ := finite.inbounds
  obtain ⟨servers, profiles⟩ := finite.servers
  refine ⟨?_, ?_, profiles.of_agree touches.servers⟩
  · rw [touches.accounts]
    exact finite.accounts
  · have agree : ∀ tag, tag ≠ change.tag → change.changed.inbounds tag = store.inbounds tag := by
      intro tag different
      by_cases removes : request.RemovesAtOnce environment
      · rw [touches.removed removes, update_of_ne different]
      · rw [touches.kept removes]
    obtain ⟨later, after⟩ := enumerated.of_agree agree
    refine ⟨later, after, (names_length_le enumerated after ?_).trans few⟩
    rintro user ⟨tag, record, present, member⟩
    refine ⟨user, ⟨tag, record, ?_, member⟩, rfl⟩
    by_cases removes : request.RemovesAtOnce environment
    · rw [touches.removed removes] at present
      by_cases same : tag = change.tag
      · rw [same, update_self] at present
        cases present
      · rwa [update_of_ne same] at present
    · rwa [touches.kept removes] at present

end

end Failures

/-- A request whose save fails leaves the store in memory as it was. -/
def ServerRequest.InvisibleOnFailure (request : ServerRequest) (environment : ServerEnvironment)
    (store : Store) : Prop :=
  ∀ context change error after, request.prepare environment store = .ok change →
    context.Of change.changed →
    request.serve environment context store = (.saveFailed error, after) → after = store

theorem ServerRequest.InvisibleOnFailure.restored {environment : ServerEnvironment} {store : Store}
    {request : ServerRequest} {change : ServerChange} {context : SaveContext}
    (invisible : request.InvisibleOnFailure environment store)
    (prepared : request.prepare environment store = .ok change) (of : context.Of change.changed)
    (failing : context.write ≠ .written) :
    (saveStore environment.replace context change.changed).store.setServer change.tag change.current =
      store := by
  obtain ⟨error, failed⟩ := Option.ne_none_iff_exists'.1
    (@saveStore_fails environment.replace context change.changed failing)
  apply invisible context change error _ prepared of
  simp only [ServerRequest.serve, prepared, ServerChange.commit, failed]

/-- A failed save is invisible iff the request is refused before it, or it removes no
inbound record with its profile, and the accounts are refused or the store is settled. -/
theorem failed_server_request_invisible_iff (finite : store.Finite) (request : ServerRequest) :
    request.InvisibleOnFailure environment store ↔
      ∀ change, request.prepare environment store = .ok change →
        (request.RemovesAtOnce environment → store.inbounds change.tag = none) ∧
          (store.AccountsAccepted → store.Settled environment.replace change.tag) := by
  constructor
  · intro invisible change prepared
    have touches := prepare_touches prepared
    obtain ⟨context, of, failing⟩ := (touches.finite finite).exists_context .kept
    have restored := invisible.restored prepared of (by rw [failing]; nofun)
    have removes : request.RemovesAtOnce environment → store.inbounds change.tag = none := by
      intro removesNow
      rw [← restored]
      apply (saveStore_inbounds_eq_none of).2
      rw [touches.removed removesNow, update_self]
    refine ⟨removes, fun accepted => ?_⟩
    have inbounds := touches.inbounds removes
    have acceptedChanged := accepted.congr touches.accounts inbounds
    have accounts := congrArg Store.accounts restored
    have records := congrArg Store.inbounds restored
    have subscriptions := congrArg Store.subscriptions restored
    have external := congrArg Store.externalSubscriptions restored
    have normal : change.changed.AccountsNormal :=
      normal_of_saveStore of acceptedChanged (accounts.trans touches.accounts.symm)
        (records.trans inbounds.symm)
    have inOrder : change.changed.TokensInOrder :=
      tokensInOrder_of_saveStore of acceptedChanged normal
        (subscriptions.trans touches.subscriptions.symm) (external.trans touches.external.symm)
    refine ⟨normal.congr touches.accounts.symm inbounds.symm,
      inOrder.congr inbounds.symm touches.subscriptions.symm touches.external.symm, ?_⟩
    intro other different profile present
    cases scrubbed : scrubProfile environment.replace store.inbounds other profile with
    | none => exact .inl rfl
    | some result =>
        right
        have presentChanged : change.changed.servers other = some profile := by
          rw [touches.servers other different, present]
        have known : change.changed.servers other ≠ none := by simp [presentChanged]
        have ofFirst := of.startWith known
        have restoredFirst := invisible.restored prepared ofFirst (by rw [failing]; nofun)
        rw [saveStore_store_of_normal ofFirst acceptedChanged normal inOrder] at restoredFirst
        have atOther := congrFun (congrArg Store.servers restoredFirst) other
        rw [setServer_servers_of_ne different, present] at atOther
        rw [← atOther, inbounds]
        have notLater : other ∉ context.profiles.erase other := by
          rw [of.profiles.nodup.mem_erase_iff]
          exact fun ⟨isOther, _⟩ => isOther rfl
        exact (scrubProfiles_first notLater presentChanged scrubbed).symm
  · intro condition context change error after prepared of served
    obtain ⟨removes, settled⟩ := condition change prepared
    have touches := prepare_touches prepared
    simp only [ServerRequest.serve, prepared] at served
    rw [commit_of_failed (touches.fails error) served]
    exact failed_save_invisible touches (touches.inbounds removes) of settled

/-! ### A profile with and without users -/

def stoppedEnvironment : ServerEnvironment :=
  { decode := fun _ _ => .error "入站 JSON 格式不正確"
    hasUsers := fun _ => false
    replace := fun config _ => some config
    running := fun _ => false
    now := 2 }

def stoppedProfile : ServerProfile :=
  { kind := .inbound, type := "vless", config := "\x7b\x7d", advertise := "\x7b\x7d",
    revision := 1, appliedRevision := 0, deleted := false, createdAt := 1, updatedAt := 1 }

def occupiedStore : Store :=
  (plainStore [("1", plainAccount "1" "a")] [plainUser "u" "1" "a"]).setServer "in"
    (some stoppedProfile)

def profileStore : Store :=
  { occupiedStore.setServer "out" (some stoppedProfile) with subscriptions := loneToken }

theorem profileStore_lone : profileStore.Lone := by
  refine ⟨rfl, fun user => ?_⟩
  exact (@has_plainStore [("1", plainAccount "1" "a")] [plainUser "u" "1" "a"] user).trans
    List.mem_singleton

theorem profileStore_finite : profileStore.Finite := by
  refine ⟨⟨["1"], @enumerates_lookup Account [("1", plainAccount "1" "a")] (by simp)⟩,
    ⟨["in"], ⟨by simp, fun tag => ?_⟩, ?_⟩, ["in", "out"], by simp, fun tag => ?_⟩
  · simp [profileStore, occupiedStore, plainStore, Store.setServer]
  · have one : (profileStore.names ["in"]).length = 1 := by decide +kernel
    rw [one]
    exact tokenSupply_pos
  · by_cases isOut : tag = "out"
    · simp [profileStore, Store.setServer, isOut]
    · by_cases isIn : tag = "in" <;>
        simp [profileStore, occupiedStore, plainStore, Store.setServer, isIn, isOut]

/-- The profile without a record is deleted; the other one and the user stay. -/
theorem profileStore_delete_invisible :
    ((ServerRequest.delete "out" 1).prepare stoppedEnvironment profileStore).isOk = true ∧
      (ServerRequest.delete "out" 1).InvisibleOnFailure stoppedEnvironment profileStore := by
  refine ⟨rfl, (failed_server_request_invisible_iff stoppedEnvironment profileStore profileStore_finite
    (.delete "out" 1)).2 fun change prepared => ?_⟩
  cases prepared
  refine ⟨fun _ => rfl, fun _ => ⟨profileStore_lone.normal, profileStore_lone.tokensInOrder rfl fun _ => rfl,
    fun other _ profile present => .inr ?_⟩⟩
  by_cases isIn : other = "in" <;>
    simp [scrubProfile, profileStore, occupiedStore, plainStore, Store.setServer, isIn]

def emptiedStore : Store := (occupiedStore.setServer "in" none).dropInbound "in"

theorem emptiedStore_inbounds : emptiedStore.inbounds tag = none := by
  unfold emptiedStore Store.dropInbound
  dsimp only
  by_cases same : tag = "in"
  · rw [same, update_self]
  · rw [update_of_ne same]
    exact if_neg same

theorem emptiedStore_has (user : User) : ¬emptiedStore.Has user := by
  rintro ⟨tag, record, present, -⟩
  rw [emptiedStore_inbounds] at present
  cases present

theorem emptiedStore_finite : emptiedStore.Finite := by
  refine ⟨⟨["1"], @enumerates_lookup Account [("1", plainAccount "1" "a")] (by simp)⟩,
    ⟨[], ⟨by simp, by simp [emptiedStore_inbounds]⟩, by simp [Store.names, Store.usersIn]⟩,
    ⟨[], by simp, fun tag => ?_⟩⟩
  by_cases same : tag = "in"
  · simp [same, emptiedStore, Store.dropInbound, Store.setServer]
  · simp [emptiedStore, Store.dropInbound, Store.setServer, occupiedStore, plainStore]

theorem emptiedStore_accepted : emptiedStore.AccountsAccepted :=
  ⟨plainAccount_valid rfl, fun user has => absurd has (emptiedStore_has user)⟩

/-- The deletion of the profile fails. The profile is put back, but its record with
the user is gone from memory, and so is the account. -/
theorem occupiedStore_delete_loses_users :
    ∃ context change error after,
      (ServerRequest.delete "in" 1).prepare stoppedEnvironment occupiedStore = .ok change ∧
      context.Of change.changed ∧
      (ServerRequest.delete "in" 1).serve stoppedEnvironment context occupiedStore =
        (.saveFailed error, after) ∧
      after.servers "in" = some stoppedProfile ∧ occupiedStore.inbounds "in" ≠ none ∧
      after.inbounds "in" = none ∧ occupiedStore.accounts "1" ≠ none ∧ after.accounts "1" = none := by
  have prepared : (ServerRequest.delete "in" 1).prepare stoppedEnvironment occupiedStore =
      .ok ⟨"in", some stoppedProfile, emptiedStore, .deleted⟩ := rfl
  obtain ⟨context, of, failing⟩ := emptiedStore_finite.exists_context .kept
  obtain ⟨error, failed⟩ := Option.ne_none_iff_exists'.1
    (@saveStore_fails stoppedEnvironment.replace context emptiedStore (by rw [failing]; nofun))
  obtain ⟨accounts, ensured⟩ := @ensureAdminAccounts_succeeds emptiedStore context.orders context.newID
    context.now of.orders emptiedStore_accepted.valid emptiedStore_accepted.known of.total
  obtain ⟨_, _, -, -, -, becomes⟩ := ensureAdminAccounts_eq_ok of.orders of.fresh ensured
  have noUser (user : User) : ¬accounts.Has user := by
    rintro ⟨tag, record, present, -⟩
    rw [(becomes.inbounds tag).2 (emptiedStore_inbounds tag)] at present
    cases present
  refine ⟨context, _, error, (saveStore stoppedEnvironment.replace context emptiedStore).store.setServer
    "in" (some stoppedProfile), prepared, of, ?_, by simp [Store.setServer], by decide +kernel,
    (saveStore_inbounds_eq_none of).2 (emptiedStore_inbounds "in"), by decide +kernel, ?_⟩
  · simp only [ServerRequest.serve, prepared, ServerChange.commit, failed]
  · have lost : (saveStore stoppedEnvironment.replace context emptiedStore).store.accounts "1" = none := by
      rw [saveStore_store ensured]
      exact becomes.unused "1" fun user has => absurd has (noUser user)
    exact lost

end SideraCore.Dashboard
