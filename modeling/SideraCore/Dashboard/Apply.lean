import SideraCore.Dashboard.Save

/-!
Owns what the dashboard pushes to its runtimes: the usage of accounts, the policy
that decides which users are enabled, the user list of an inbound, and
`applyInbound`. It also owns the part of a store that traffic and applied
revisions do not change.
-/

namespace SideraCore.Dashboard

open Dashboard.Store

/-! ### Usage and policy -/

structure Usage where
  upload : Int
  download : Int
deriving DecidableEq, Repr

def saturatingAdd : Int → List Int → Int
  | result, [] => result
  | result, value :: rest =>
      if value ≤ 0 then saturatingAdd result rest
      else if maxInt64 - result < value then maxInt64
      else saturatingAdd (result + value) rest

def saturatingAdminTrafficAdd (values : List Int) : Int := saturatingAdd 0 values

/-- What `applyInbound` takes from outside the store: the time, the order of the
inbounds, and the active usage. -/
structure Policy where
  now : Int
  order : List String
  active : String → String → Usage

variable (store : Store) (user : User)

def Store.members (order : List String) (identifier : String) :
    List (String × User) :=
  order.flatMap fun tag =>
    (((store.inbounds tag).map (·.users)).getD []).filterMap fun user =>
      if user.accountID = identifier then some (tag, user) else none

/-- `aggregateAccountUsageLocked`; accounts without a global policy have no entry, which
reads as no usage. -/
def Store.accountUsage (policy : Policy) (identifier : String) : Usage :=
  match store.accounts identifier with
  | none => ⟨0, 0⟩
  | some account =>
      if account.policyScope = some .accountGlobal then
        (store.members policy.order identifier).foldl
          (fun usage member =>
            ⟨saturatingAdminTrafficAdd
                [usage.upload, member.2.uploadBytes, (policy.active member.1 member.2.name).upload],
              saturatingAdminTrafficAdd
                [usage.download, member.2.downloadBytes, (policy.active member.1 member.2.name).download]⟩)
          ⟨account.baseUploadBytes, account.baseDownloadBytes⟩
      else ⟨0, 0⟩

def adminUserEnabled (now : Int) (active : Usage) : Bool :=
  if ¬user.enabled ∨ (0 < user.expiresAt ∧ user.expiresAt ≤ now) then false
  else
    user.quotaBytes ≤ 0 ∨
      saturatingAdminTrafficAdd
        [user.uploadBytes, user.downloadBytes, active.upload, active.download] < user.quotaBytes

def adminUserEnabledWithAccount (account : Option Account) (now : Int)
    (membershipUsage accountUsage : Usage) : Bool :=
  match account with
  | none => adminUserEnabled user now membershipUsage
  | some account =>
      if account.policyScope ≠ some .accountGlobal then adminUserEnabled user now membershipUsage
      else if ¬user.enabled ∨ ¬account.enabled ∨ (0 < account.expiresAt ∧ account.expiresAt ≤ now) then
        false
      else
        account.quotaBytes ≤ 0 ∨
          saturatingAdminTrafficAdd [accountUsage.upload, accountUsage.download] < account.quotaBytes

inductive Credential where
  | password
  | uuid
  | uuidPassword
deriving DecidableEq, Repr

/-- `adapter.ManagedUserSchema`. `passwordBytes` is the length of a base64 password, if
it must be one. -/
structure ManagedSchema where
  credential : Credential
  passwordBytes : Option Nat
  flow : Bool
  alterID : Bool
  noTraffic : Bool
deriving DecidableEq, Repr

structure ManagedRuntime where
  type : String
  schema : ManagedSchema
deriving DecidableEq, Repr

structure ManagedUser where
  name : String
  uuid : String
  password : String
  flow : String
  alterID : Int
deriving DecidableEq, Repr

def User.managed : ManagedUser :=
  ⟨user.name, user.uuid, user.password, user.flow, user.alterID⟩

def InboundRecord.blocked (record : InboundRecord) (credential : Credential) : ManagedUser :=
  match credential with
  | .uuid => ⟨"__sidera_blocked__", record.blockUUID, "", "", 0⟩
  | .uuidPassword => ⟨"__sidera_blocked__", record.blockUUID, record.blockPassword, "", 0⟩
  | .password => ⟨"__sidera_blocked__", "", record.blockPassword, "", 0⟩

def Store.managedUsers (runtime : ManagedRuntime) (policy : Policy) (tag : String)
    (record : InboundRecord) : List ManagedUser :=
  let enabled := record.users.filter fun user =>
    adminUserEnabledWithAccount user (store.accounts user.accountID) policy.now
      (policy.active tag user.name) (store.accountUsage policy user.accountID)
  if enabled = [] ∧ record.authoritative then [record.blocked runtime.schema.credential]
  else enabled.map User.managed

/-! ### The running dashboard -/

/-- The store in memory, the store on disk, and the lists last pushed. -/
structure Live where
  store : Store
  disk : Store
  pushed : GoMap (List ManagedUser)

def Store.markApplied (tag : String) : Store :=
  { store with
    inbounds := Function.update store.inbounds tag
      ((store.inbounds tag).map fun record => { record with appliedRevision := record.revision }) }

/-- `applyInbound` with `force`. It changes nothing without a manager or a record, or if
the runtime refuses. -/
def applyInbound (managers : GoMap ManagedRuntime) (tag : String) (outcome : Option Policy)
    (live : Live) : Option Live :=
  match managers tag, live.store.inbounds tag, outcome with
  | some runtime, some record, some policy =>
      some
        { live with
          store := live.store.markApplied tag
          pushed := Function.update live.pushed tag
            (some (live.store.managedUsers runtime policy tag record)) }
  | _, _, _ => none

def Live.save (live : Live) (replace : ReplaceUsers) (context : SaveContext) :
    Live × Option SaveError :=
  let saved := saveStore replace context live.store
  ({ live with store := saved.store, disk := saved.written.getD live.disk }, saved.error)

/-! ### What applied revisions leave alone -/

def InboundRecord.unapplied (record : InboundRecord) : InboundRecord :=
  { record with appliedRevision := 0 }

def Store.unapplied (store : Store) : Store :=
  { store with inbounds := fun tag => (store.inbounds tag).map InboundRecord.unapplied }

section Unapplied

variable {store other : Store}

theorem Store.members_unapplied (store : Store) (order : List String) (identifier : String) :
    store.unapplied.members order identifier = store.members order identifier := by
  unfold members
  congr 1
  funext tag
  cases present : store.inbounds tag <;> simp [unapplied, present, InboundRecord.unapplied]

theorem Store.managedUsers_unapplied (store : Store) (runtime : ManagedRuntime) (policy : Policy)
    (tag : String) (record : InboundRecord) :
    store.unapplied.managedUsers runtime policy tag record.unapplied =
      store.managedUsers runtime policy tag record := by
  simp only [managedUsers, accountUsage, members_unapplied]
  rfl

/-- Applied revisions do not change the lists that are pushed. -/
theorem managedUsers_congr (same : other.unapplied = store.unapplied) {tag : String}
    {record found : InboundRecord} (present : store.inbounds tag = some record)
    (presentOther : other.inbounds tag = some found) (runtime : ManagedRuntime) (policy : Policy) :
    other.managedUsers runtime policy tag found = store.managedUsers runtime policy tag record := by
  have records := congrFun (congrArg inbounds same) tag
  simp only [unapplied, present, presentOther, Option.map_some, Option.some.injEq] at records
  rw [← managedUsers_unapplied, ← store.managedUsers_unapplied, same, records]

theorem markApplied_unapplied (store : Store) (tag : String) :
    (store.markApplied tag).unapplied = store.unapplied := by
  have inbounds : (fun other => ((store.markApplied tag).inbounds other).map InboundRecord.unapplied) =
      fun other => (store.inbounds other).map InboundRecord.unapplied := by
    funext other
    unfold markApplied
    by_cases same : other = tag
    · subst same
      cases store.inbounds other <;> simp [InboundRecord.unapplied]
    · simp [Function.update_of_ne same]
  unfold unapplied
  rw [inbounds]
  rfl

end Unapplied

/-! ### What traffic and applied revisions leave alone -/

/-- A user without its counters and the time they last changed. -/
def User.core : User := { user with uploadBytes := 0, downloadBytes := 0, updatedAt := 0 }

def InboundRecord.core (record : InboundRecord) : InboundRecord :=
  { record with users := record.users.map User.core, appliedRevision := 0 }

/-- The store up to traffic counters and applied revisions. -/
def Store.core (store : Store) : Store :=
  { store with inbounds := fun tag => (store.inbounds tag).map InboundRecord.core }

section Core

variable {store other : Store}

theorem has_core {user : User} : store.core.Has user ↔ ∃ full, store.Has full ∧ full.core = user := by
  constructor
  · rintro ⟨tag, record, present, member⟩
    obtain ⟨full, found, rfl⟩ := Option.map_eq_some_iff.1 present
    obtain ⟨original, isIn, rfl⟩ := List.mem_map.1 member
    exact ⟨original, ⟨tag, full, found, isIn⟩, rfl⟩
  · rintro ⟨full, ⟨tag, record, present, member⟩, rfl⟩
    exact ⟨tag, record.core, by simp [core, present], List.mem_map_of_mem member⟩

theorem userAt_core (tag : String) (index : Nat) :
    store.core.userAt tag index = (store.userAt tag index).map User.core := by
  cases present : store.inbounds tag with
  | none => simp [userAt, core, present]
  | some record => simp [userAt, core, present, InboundRecord.core]

theorem accountAt_core (tag : String) (index : Nat) :
    store.core.accountAt tag index = store.accountAt tag index := by
  unfold accountAt
  rw [userAt_core]
  cases store.userAt tag index <;> rfl

section Same

variable (same : other.core = store.core)
include same

theorem has_of_core {user : User} (has : store.Has user) :
    ∃ similar, other.Has similar ∧ similar.accountID = user.accountID ∧ similar.name = user.name := by
  have inCore : other.core.Has user.core := by
    rw [same]
    exact has_core.2 ⟨user, has, rfl⟩
  obtain ⟨similar, hasSimilar, equal⟩ := has_core.1 inCore
  have account := congrArg User.accountID equal
  have name := congrArg User.name equal
  exact ⟨similar, hasSimilar, account, name⟩

theorem accounts_of_core : other.accounts = store.accounts := by
  have equal := congrArg accounts same
  exact equal

theorem servers_of_core : other.servers = store.servers := by
  have equal := congrArg servers same
  exact equal

theorem subscriptions_of_core : other.subscriptions = store.subscriptions := by
  have equal := congrArg subscriptions same
  exact equal

theorem external_of_core : other.externalSubscriptions = store.externalSubscriptions := by
  have equal := congrArg externalSubscriptions same
  exact equal

end Same

theorem Store.AccountsNormal.of_core (normal : store.AccountsNormal) (same : other.core = store.core) :
    other.AccountsNormal := by
  refine ⟨?_, ?_, ?_⟩
  · intro user has
    obtain ⟨similar, hasSimilar, account, name⟩ := has_of_core same.symm has
    unfold Named
    rw [accounts_of_core same, ← account, ← name]
    exact normal.assigned similar hasSimilar
  · unfold Named
    rw [accounts_of_core same]
    exact normal.distinct
  · intro identifier present
    rw [accounts_of_core same] at present
    obtain ⟨user, has, rfl⟩ := normal.referenced identifier present
    obtain ⟨similar, hasSimilar, account, -⟩ := has_of_core same has
    exact ⟨similar, hasSimilar, account⟩

theorem Store.AccountsAccepted.of_core (accepted : store.AccountsAccepted)
    (same : other.core = store.core) : other.AccountsAccepted := by
  refine ⟨by rw [accounts_of_core same]; exact accepted.valid, fun user has => ?_⟩
  obtain ⟨similar, hasSimilar, account, -⟩ := has_of_core same.symm has
  rw [accounts_of_core same, ← account]
  exact accepted.known similar hasSimilar

theorem Store.TokensInOrder.of_core (inOrder : store.TokensInOrder) (same : other.core = store.core) :
    other.TokensInOrder := by
  have known (name : String) (found : ∃ user, store.Has user ∧ user.name = name) :
      ∃ user, other.Has user ∧ user.name = name := by
    obtain ⟨user, has, rfl⟩ := found
    obtain ⟨similar, hasSimilar, -, sameName⟩ := has_of_core same has
    exact ⟨similar, hasSimilar, sameName⟩
  refine ⟨?_, ?_, ?_, ?_, ?_⟩
  · intro user has
    obtain ⟨similar, hasSimilar, -, name⟩ := has_of_core same.symm has
    rw [subscriptions_of_core same, ← name]
    exact inOrder.present similar hasSimilar
  · intro name present
    rw [subscriptions_of_core same] at present
    exact known name (inOrder.known name present)
  · rw [subscriptions_of_core same]
    exact inOrder.valid
  · rw [subscriptions_of_core same]
    exact inOrder.distinct
  · intro name present
    rw [external_of_core same] at present
    exact known name (inOrder.external name present)

theorem inbounds_of_core (same : other.core = store.core) (tag : String) :
    (other.inbounds tag).map InboundRecord.core = (store.inbounds tag).map InboundRecord.core :=
  congrFun (congrArg inbounds same) tag

theorem frames_of_core (same : other.core = store.core) (tag : String) :
    (other.inbounds tag).map InboundRecord.frame = (store.inbounds tag).map InboundRecord.frame := by
  have cores := congrArg (Option.map InboundRecord.frame) (inbounds_of_core same tag)
  rw [Option.map_map, Option.map_map] at cores
  exact cores

end Core

theorem frames_of_unapplied {record other : Option InboundRecord}
    (same : other.map InboundRecord.unapplied = record.map InboundRecord.unapplied) :
    other.map InboundRecord.frame = record.map InboundRecord.frame := by
  have mapped := congrArg (Option.map InboundRecord.frame) same
  rw [Option.map_map, Option.map_map] at mapped
  exact mapped

theorem core_unapplied : store.unapplied.core = store.core := by
  unfold core unapplied
  congr 1
  funext tag
  rw [Option.map_map]
  rfl

theorem core_of_unapplied {store other : Store} (same : other.unapplied = store.unapplied) :
    other.core = store.core := by
  rw [← core_unapplied, same, core_unapplied]

end SideraCore.Dashboard
