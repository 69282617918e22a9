import SideraCore.Dashboard.Apply

/-!
Owns the requests that change users, up to the point where they commit:
`createUser`, `updateUser`, `deleteUser`, `mutateUserGroup` for creating and
updating a group, and `deleteUserGroup`. A request is refused with a store that may
already have changed, or prepares a change of the store.

It does not own the texts of names and credentials: trimming, case folding and the
decoders of UUIDs and base64 are parameters.
-/

namespace SideraCore.Dashboard

open Function

/-! ### Inputs and checks -/

structure TextTools where
  trim : String → String
  parseUUID : String → Option String
  decodedLength : String → Option Nat
  equalFold : String → String → Bool
  equalFold_refl : ∀ text, equalFold text text = true

structure UserInput where
  inbound : String
  name : String
  uuid : String
  password : String
  flow : String
  alterID : Int
  enabled : Option Bool
  quotaBytes : Int
  expiresAt : Int
  maxIPs : Option Int
  revision : Int
deriving DecidableEq, Repr

def normalizeCredentials (tools : TextTools) (schema : ManagedSchema) (input : UserInput) :
    Except String (String × String) := do
  let uuid ←
    if schema.credential = .uuid ∨ schema.credential = .uuidPassword then
      match tools.parseUUID (tools.trim input.uuid) with
      | none => .error "UUID 格式不正確"
      | some parsed => .ok parsed
    else .ok ""
  if schema.credential = .password ∨ schema.credential = .uuidPassword then
    if input.password = "" then .error "密碼不能留空"
    else if 1024 < input.password.utf8ByteSize then .error "密碼過長"
    else
      match schema.passwordBytes with
      | none => .ok (uuid, input.password)
      | some bytes =>
          if 0 < bytes ∧ tools.decodedLength input.password ≠ some bytes then
            .error s!"密碼必須是 {bytes} bytes 的標準 Base64"
          else .ok (uuid, input.password)
  else .ok (uuid, "")

def normalizeAdminInput (tools : TextTools) (schema : ManagedSchema) (input : UserInput) :
    Except String UserInput :=
  let name := tools.trim input.name
  if name = "" then .error "用戶名稱不能留空"
  else if 128 < name.utf8ByteSize then .error "用戶名稱過長"
  else if input.quotaBytes < 0 ∨ input.expiresAt < 0 ∨ input.alterID < 0 ∨ input.maxIPs.any (· < 0) then
    .error "額度、到期時間、Alter ID 與 IP 限制不可為負數"
  else do
    let credentials ← normalizeCredentials tools schema input
    .ok
      { input with
        name := name
        uuid := credentials.1
        password := credentials.2
        flow := if schema.flow then input.flow else ""
        alterID := if schema.alterID then input.alterID else 0
        quotaBytes := if schema.noTraffic then 0 else input.quotaBytes }

def validateUniqueUser (tools : TextTools) (candidate : User) (skipID : String) :
    List User → Except String Unit
  | [] => .ok ()
  | user :: rest =>
      if user.id = skipID then validateUniqueUser tools candidate skipID rest
      else if tools.equalFold user.name candidate.name then .error "用戶名稱已存在"
      else if candidate.uuid ≠ "" ∧ user.uuid = candidate.uuid then .error "UUID 已存在"
      else if candidate.password ≠ "" ∧ user.password = candidate.password then
        .error "密碼已被其他用戶使用"
      else validateUniqueUser tools candidate skipID rest

inductive UserReply where
  | done
  | badRequest (message : String)
  | notFound (message : String)
  | conflict (message : String)
  | updateFailed
  | saveFailed (error : SaveError)
deriving DecidableEq, Repr

/-- What a request takes from outside the store: runtimes, orders, the time,
identifiers, and the bytes of active connections that no user was credited with yet. -/
structure RequestEnvironment where
  managers : GoMap ManagedRuntime
  tools : TextTools
  replace : ReplaceUsers
  inbounds : List String
  accounts : List String
  now : Int
  timely : 0 ≤ now ∧ now < maxInt64
  newID : String
  memberID : String → String
  unsettled : String → Usage

abbrev Refusal := UserReply × Store

def settleUsers (usage : Usage) (now : Int) (name : String) : List User → List User
  | [] => []
  | user :: rest =>
      if user.name = name then
        { user with
          uploadBytes := saturatingAdminTrafficAdd [user.uploadBytes, usage.upload]
          downloadBytes := saturatingAdminTrafficAdd [user.downloadBytes, usage.download]
          updatedAt := now } :: rest
      else user :: settleUsers usage now name rest

variable (environment : RequestEnvironment) (store : Store) (account : Account)
  (identifier tag name : String) (expectedRevision : Int)

def Store.settle (usage : Usage) (now : Int) (tag name : String) : Store :=
  if name = "" ∨ (usage.upload = 0 ∧ usage.download = 0) then store
  else
    { store with
      inbounds := update store.inbounds tag ((store.inbounds tag).map fun record =>
        { record with users := settleUsers usage now name record.users }) }

/-! ### Requests for one user -/

structure Mutation where
  tag : String
  before : Store
  previous : InboundRecord
  updated : InboundRecord

def Mutation.changed (mutation : Mutation) : Store :=
  { mutation.before with
    inbounds := update mutation.before.inbounds mutation.tag (some mutation.updated) }

/-- `mutateInbound` for a request with a revision. The reply to a missing record is the
caller's. -/
def mutateInbound (now : Int) (missing : UserReply)
    (mutate : InboundRecord → Except UserReply InboundRecord) : Except Refusal Mutation :=
  match store.inbounds tag with
  | none => .error (missing, store)
  | some record =>
      if expectedRevision ≤ 0 then .error (.conflict "缺少資料 revision，請重新整理後再試", store)
      else if record.revision ≠ expectedRevision then
        .error (.conflict "資料已被其他操作更新，請重新整理後再試", store)
      else
        match mutate record with
        | .error reply => .error (reply, store)
        | .ok updated =>
            .ok
              { tag := tag
                before := store
                previous := record
                updated := { updated with revision := nextAdminRevision record.revision now } }

def newUser (type : String) (input : UserInput) (now : Int) : User :=
  { id := identifier
    accountID := ""
    inbound := input.inbound
    type := type
    name := input.name
    uuid := input.uuid
    password := input.password
    flow := input.flow
    alterID := input.alterID
    enabled := input.enabled.getD true
    quotaBytes := input.quotaBytes
    expiresAt := input.expiresAt
    maxIPs := input.maxIPs.getD 0
    uploadBytes := 0
    downloadBytes := 0
    trafficGeneration := 0
    createdAt := now
    updatedAt := now }

def prepareCreateUser (input : UserInput) :
    Except Refusal Mutation :=
  match environment.managers input.inbound with
  | none => .error (.badRequest "此入站不支援動態用戶管理", store)
  | some runtime =>
      match normalizeAdminInput environment.tools runtime.schema input with
      | .error message => .error (.badRequest message, store)
      | .ok normalized =>
          let user := newUser environment.newID runtime.type normalized environment.now
          mutateInbound store input.inbound normalized.revision environment.now
              (.conflict "file does not exist") fun record =>
            match validateUniqueUser environment.tools user "" record.users with
            | .error message => .error (.conflict message)
            | .ok () =>
                .ok { record with authoritative := true, users := record.users ++ [user] }

def findUser (managers : GoMap ManagedRuntime) (store : Store) (identifier : String) :
    List String → Option (String × User)
  | [] => none
  | tag :: rest =>
      match managers tag, (store.inbounds tag).bind fun record => record.users.find? (·.id = identifier) with
      | some _, some user => some (tag, user)
      | _, _ => findUser managers store identifier rest

def User.update (user : User) (input : UserInput) (now : Int) : User :=
  { user with
    name := input.name
    uuid := input.uuid
    password := input.password
    flow := input.flow
    alterID := input.alterID
    quotaBytes := input.quotaBytes
    expiresAt := input.expiresAt
    maxIPs := input.maxIPs.getD user.maxIPs
    updatedAt := now
    enabled := input.enabled.getD user.enabled }

def updateUsers (tools : TextTools) (identifier : String) (input : UserInput) (now : Int)
    (all : List User) : List User → Except UserReply (List User)
  | [] => .error (.conflict "file does not exist")
  | user :: rest =>
      if user.id = identifier then
        match validateUniqueUser tools (user.update input now) identifier all with
        | .error message => .error (.conflict message)
        | .ok () => .ok (user.update input now :: rest)
      else do
        let others ← updateUsers tools identifier input now all rest
        .ok (user :: others)

def requireInboundRevision :
    Except Refusal Unit :=
  match store.inbounds tag with
  | none => .error (.conflict "file does not exist", store)
  | some record =>
      if expectedRevision ≤ 0 then .error (.conflict "缺少資料 revision，請重新整理後再試", store)
      else if record.revision ≠ expectedRevision then
        .error (.conflict "資料已被其他操作更新，請重新整理後再試", store)
      else .ok ()

def User.candidate (user : User) (input : UserInput) : User :=
  { user with
    name := input.name
    uuid := input.uuid
    password := input.password
    flow := input.flow
    alterID := input.alterID
    maxIPs := input.maxIPs.getD user.maxIPs }

def prepareUpdateUser (input : UserInput) : Except Refusal Mutation :=
  match findUser environment.managers store identifier environment.inbounds with
  | none => .error (.notFound "找不到用戶", store)
  | some (tag, current) =>
      if input.inbound ≠ "" ∧ input.inbound ≠ tag then
        .error (.badRequest "不可變更用戶所屬入站", store)
      else
        match environment.managers tag with
        | none => .error (.notFound "用戶所屬入站已不存在", store)
        | some runtime =>
            match normalizeAdminInput environment.tools runtime.schema input with
            | .error message => .error (.badRequest message, store)
            | .ok normalized => do
                requireInboundRevision store tag normalized.revision
                match validateUniqueUser environment.tools (current.candidate normalized) identifier
                    (((store.inbounds tag).map (·.users)).getD []) with
                | .error message => .error (.conflict message, store)
                | .ok () =>
                    let settled :=
                      if normalized.name ≠ current.name then
                        store.settle (environment.unsettled tag) environment.now tag current.name
                      else store
                    mutateInbound settled tag normalized.revision environment.now
                        (.conflict "file does not exist") fun record => do
                      let users ← updateUsers environment.tools identifier normalized environment.now
                        record.users record.users
                      .ok { record with authoritative := true, users := users }

def removeUser (identifier : String) : List User → Except UserReply (List User)
  | [] => .error (.notFound "找不到用戶")
  | user :: rest =>
      if user.id = identifier then .ok rest
      else do
        let others ← removeUser identifier rest
        .ok (user :: others)

def prepareDeleteUser : Except Refusal Mutation :=
  if expectedRevision ≤ 0 then .error (.badRequest "revision 格式不正確", store)
  else
    match findUser environment.managers store identifier environment.inbounds with
    | none => .error (.notFound "找不到用戶", store)
    | some (tag, _) => do
        requireInboundRevision store tag expectedRevision
        mutateInbound store tag expectedRevision environment.now (.notFound "找不到用戶") fun record => do
          let users ← removeUser identifier record.users
          .ok { record with authoritative := true, users := users }

/-! ### Requests for a group -/

structure MembershipInput where
  id : String
  inbound : String
  uuid : String
  password : String
  flow : String
  alterID : Int
  enabled : Option Bool
  quotaBytes : Int
  expiresAt : Int
  maxIPs : Option Int
deriving DecidableEq, Repr

def MembershipInput.userInput (membership : MembershipInput) (name : String) (revision : Int) :
    UserInput :=
  { inbound := membership.inbound
    name := name
    uuid := membership.uuid
    password := membership.password
    flow := membership.flow
    alterID := membership.alterID
    enabled := membership.enabled
    quotaBytes := membership.quotaBytes
    expiresAt := membership.expiresAt
    maxIPs := membership.maxIPs
    revision := revision }

/-- `adminUserGroupInput`. The scope is `none` where it is empty, and `some none` for an
unknown text. -/
structure GroupInput where
  name : String
  policyScope : Option (Option PolicyScope)
  accountRevision : Int
  enabled : Option Bool
  quotaBytes : Int
  expiresAt : Int
  maxIPs : Option Int
  resetDays : Int
  memberships : List MembershipInput
  revisions : String → Int

structure Desired where
  inbound : String
  value : UserInput
  id : String

def normalizeMemberships (environment : RequestEnvironment) (store : Store) (name : String)
    (revisions : String → Int) : List Desired → List MembershipInput → Except Refusal (List Desired)
  | desired, [] => .ok desired
  | desired, membership :: rest =>
      if membership.inbound = "" then .error (.badRequest "節點不能留空", store)
      else if desired.any (·.inbound = membership.inbound) then
        .error (.badRequest "同一用戶不可重複選擇節點", store)
      else
        match environment.managers membership.inbound with
        | none => .error (.badRequest "節點不支援動態用戶管理", store)
        | some runtime =>
            match normalizeAdminInput environment.tools runtime.schema
                (membership.userInput name (revisions membership.inbound)) with
            | .error message => .error (.badRequest message, store)
            | .ok value =>
                normalizeMemberships environment store name revisions
                  (desired ++ [⟨membership.inbound, value, membership.id⟩]) rest

def userGroupMembers (managers : GoMap ManagedRuntime) (store : Store) (name : String) : GoMap User :=
  fun tag =>
    match managers tag with
    | none => none
    | some _ => (store.inbounds tag).bind fun record => record.users.find? (·.name = name)

def sharedAccount (members : GoMap User) : List String → String → Option String
  | [], accountID => some accountID
  | tag :: rest, accountID =>
      match members tag with
      | none => sharedAccount members rest accountID
      | some user =>
          if accountID = "" then sharedAccount members rest user.accountID
          else if accountID ≠ user.accountID then none
          else sharedAccount members rest accountID

structure GroupChange where
  tags : List String
  before : Store
  changed : Store

def blankMember (type name : String) (now : Int) : User :=
  { id := identifier
    accountID := ""
    inbound := tag
    type := type
    name := name
    uuid := ""
    password := ""
    flow := ""
    alterID := 0
    enabled := true
    quotaBytes := 0
    expiresAt := 0
    maxIPs := 0
    uploadBytes := 0
    downloadBytes := 0
    trafficGeneration := 0
    createdAt := now
    updatedAt := 0 }

def desiredMember (tag : String) (existing : Option User) (value : UserInput) : User :=
  let type := ((environment.managers tag).map (·.type)).getD ""
  let candidate := existing.getD
    (blankMember (environment.memberID tag) tag type name environment.now)
  let limited : User :=
    if account.policyScope = some .accountGlobal then
      { candidate with quotaBytes := 0, expiresAt := 0, maxIPs := 0 }
    else
      { candidate with
        quotaBytes := value.quotaBytes
        expiresAt := value.expiresAt
        maxIPs := value.maxIPs.getD candidate.maxIPs }
  { limited with
    accountID := account.id
    name := name
    uuid := value.uuid
    password := value.password
    flow := value.flow
    alterID := value.alterID
    enabled := value.enabled.getD candidate.enabled
    updatedAt := environment.now }

/-- The record after an update: the member is taken out, and put back at the end if it
is still wanted. -/
def updateMembership (tag : String) (existing : Option User) (desired : Option Desired)
    (record : InboundRecord) :
    Except UserReply InboundRecord :=
  let others := record.users.filter fun user => ¬existing.any (·.id = user.id)
  let finish (users : List User) : InboundRecord :=
    { record with
      users := users
      authoritative := true
      revision := nextAdminRevision record.revision environment.now }
  match desired with
  | none => .ok (finish others)
  | some wanted =>
      if wanted.id ≠ "" ∧ ¬existing.any (·.id = wanted.id) then
        .error (.conflict "用戶節點身分已變更，請重新整理後再試")
      else
        let candidate := desiredMember environment account name tag existing wanted.value
        match validateUniqueUser environment.tools candidate "" others with
        | .error message => .error (.conflict message)
        | .ok () => .ok (finish (others ++ [candidate]))

def updateMemberships (environment : RequestEnvironment) (account : Account) (name : String)
    (members : GoMap User) (desired : List Desired) :
    List String → GoMap InboundRecord → Except UserReply (GoMap InboundRecord)
  | [], inbounds => .ok inbounds
  | tag :: rest, inbounds =>
      match inbounds tag with
      | none => updateMemberships environment account name members desired rest inbounds
      | some record => do
          let updated ← updateMembership environment account name tag (members tag)
            (desired.find? (·.inbound = tag)) record
          updateMemberships environment account name members desired rest
            (update inbounds tag (some updated))

/-- The account after an update: its name, and with a global policy its limits and the
traffic of members that leave. -/
def updateAccount (input : GroupInput) (name : String) (leaving : List User) :
    Account :=
  if account.policyScope = some .accountGlobal then
    { account with
      name := name
      enabled := input.enabled.getD account.enabled
      quotaBytes := input.quotaBytes
      expiresAt := input.expiresAt
      maxIPs := input.maxIPs.getD account.maxIPs
      resetDays := input.resetDays
      baseUploadBytes := leaving.foldl
        (fun bytes user => saturatingAdminTrafficAdd [bytes, user.uploadBytes]) account.baseUploadBytes
      baseDownloadBytes := leaving.foldl
        (fun bytes user => saturatingAdminTrafficAdd [bytes, user.downloadBytes])
        account.baseDownloadBytes }
  else { account with name := name }

def moveToken (table : GoMap String) (oldName name : String) : GoMap String :=
  match table oldName with
  | none => table
  | some token => update (update table name (some token)) oldName none

def affectedTags (members : GoMap User) (desired : List Desired) :
    List String :=
  (environment.inbounds.filter (fun tag => (members tag).isSome) ++
    desired.map (·.inbound)).dedup.mergeSort

def checkGroupInput (input : GroupInput) (name : String) : Option UserReply :=
  if name = "" ∨ 128 < name.utf8ByteSize then
    some (.badRequest "用戶名稱不能留空且不可超過 128 個字元")
  else if input.policyScope = some none then some (.badRequest "帳戶政策範圍不正確")
  else if input.quotaBytes < 0 ∨ input.expiresAt < 0 ∨ input.resetDays < 0 ∨
      maxInt64 / dayMilliseconds < input.resetDays ∨ input.maxIPs.any (· < 0) then
    some (.badRequest "帳戶額度、到期時間、重設週期與 IP 限制不可為負數")
  else if input.memberships = [] then some (.badRequest "用戶至少需要一個節點")
  else none

/-- The end of `mutateUserGroup`, with the account as it is and as it will be. -/
def prepareGroup (input : GroupInput) (name : String) (rename : Option String) (members : GoMap User)
    (desired : List Desired) (current : Account) (updated : Account → Account) :
    Except Refusal GroupChange :=
  let tags := affectedTags environment members desired
  if environment.accounts.any fun identifier =>
      identifier ≠ current.id ∧
        (store.accounts identifier).any fun account => environment.tools.equalFold account.name name then
    .error (.conflict "用戶名稱已存在", store)
  else if tags.any fun tag => ¬(store.inbounds tag).any (·.revision = input.revisions tag) then
    .error (.conflict "資料已被其他操作更新，請重新整理後再試", store)
  else
    let leaving := environment.inbounds.filterMap fun tag =>
      if desired.any (·.inbound = tag) then none else members tag
    let account := updated (updateAccount current input name leaving)
    match updateMemberships environment account name members desired tags store.inbounds with
    | .error reply => .error (reply, store)
    | .ok inbounds =>
        .ok
          { tags := tags
            before := store
            changed :=
              { store with
                accounts := update store.accounts account.id (some account)
                inbounds := inbounds
                subscriptions := match rename with
                  | some oldName => moveToken store.subscriptions oldName name
                  | none => store.subscriptions
                externalSubscriptions := match rename with
                  | some oldName => moveToken store.externalSubscriptions oldName name
                  | none => store.externalSubscriptions } }

def newGroupAccount (scope : Option PolicyScope) (enabled : Bool) (now : Int) : Account :=
  { id := identifier
    name := name
    policyScope := scope
    enabled := enabled
    quotaBytes := 0
    expiresAt := 0
    maxIPs := 0
    resetDays := 0
    baseUploadBytes := 0
    baseDownloadBytes := 0
    lastOnline := 0
    revision := nextAdminRevision 0 now
    createdAt := now
    updatedAt := now }

def prepareCreateGroup (input : GroupInput) :
    Except Refusal GroupChange :=
  let name := environment.tools.trim input.name
  match checkGroupInput input name with
  | some reply => .error (reply, store)
  | none => do
      let desired ← normalizeMemberships environment store name input.revisions [] input.memberships
      let members := userGroupMembers environment.managers store name
      if environment.inbounds.any fun tag => (members tag).isSome then
        .error (.conflict "用戶名稱已存在", store)
      else if (affectedTags environment members desired).any fun tag => input.revisions tag ≤ 0 then
        .error (.conflict "缺少節點 revision，請重新整理後再試", store)
      else
        prepareGroup environment store input name none members desired
          (newGroupAccount environment.newID name (input.policyScope.getD (some .accountGlobal))
            (input.enabled.getD true) environment.now) id

def Store.settleMembers (environment : RequestEnvironment) (members : GoMap User) (name : String) :
    Store :=
  (environment.inbounds.filter fun tag => (members tag).isSome).foldl
    (fun store tag => store.settle (environment.unsettled tag) environment.now tag name) store

def prepareUpdateGroup (oldName : String) (input : GroupInput) : Except Refusal GroupChange :=
  let name := environment.tools.trim input.name
  match checkGroupInput input name with
  | some reply => .error (reply, store)
  | none => do
      let desired ← normalizeMemberships environment store name input.revisions [] input.memberships
      let members := userGroupMembers environment.managers store oldName
      let renamed := userGroupMembers environment.managers store name
      if ¬environment.inbounds.any fun tag => (members tag).isSome then
        .error (.notFound "找不到用戶", store)
      else if oldName ≠ name ∧ environment.inbounds.any fun tag => (renamed tag).isSome then
        .error (.conflict "用戶名稱已存在", store)
      else
        match sharedAccount members environment.inbounds "" with
        | none => .error (.conflict "用戶節點未連結至同一帳戶，請先修復資料", store)
        | some accountID =>
            match store.accounts accountID with
            | none => .error (.conflict "用戶帳戶資料不存在，請重新整理後再試", store)
            | some account =>
                if input.accountRevision ≤ 0 ∨ account.revision ≠ input.accountRevision then
                  .error (.conflict "帳戶資料已被其他操作更新，請重新整理後再試", store)
                else if input.policyScope ≠ none ∧ input.policyScope ≠ some account.policyScope then
                  .error (.badRequest "既有帳戶不可變更政策範圍", store)
                else if (affectedTags environment members desired).any fun tag =>
                    input.revisions tag ≤ 0 then
                  .error (.conflict "缺少節點 revision，請重新整理後再試", store)
                else
                  let settled := store.settleMembers environment members oldName
                  prepareGroup environment settled input name
                    (if oldName ≠ name then some oldName else none)
                    (userGroupMembers environment.managers settled oldName) desired account
                    fun account =>
                      { account with
                        revision := nextAdminRevision account.revision environment.now
                        updatedAt := environment.now }

/-- The loop of `deleteUserGroup`. A revision that does not match refuses the request
after earlier inbounds were changed. -/
def deleteMembers (environment : RequestEnvironment) (members : GoMap User)
    (revisions : String → Int) :
    List String → GoMap InboundRecord → Except (GoMap InboundRecord) (GoMap InboundRecord)
  | [], inbounds => .ok inbounds
  | tag :: rest, inbounds =>
      match inbounds tag with
      | none => .error inbounds
      | some record =>
          if revisions tag ≤ 0 ∨ record.revision ≠ revisions tag then .error inbounds
          else
            deleteMembers environment members revisions rest
              (update inbounds tag (some
                { record with
                  users := record.users.filter fun user => ¬(members tag).any (·.id = user.id)
                  authoritative := true
                  revision := nextAdminRevision record.revision environment.now }))

def prepareDeleteGroup (accountRevision : Int) (revisions : String → Int) : Except Refusal GroupChange :=
  let members := userGroupMembers environment.managers store name
  let tags := affectedTags environment members []
  if ¬environment.inbounds.any fun tag => (members tag).isSome then
    .error (.notFound "找不到用戶", store)
  else
    match sharedAccount members environment.inbounds "" with
    | none => .error (.conflict "用戶節點未連結至同一帳戶，請先修復資料", store)
    | some accountID =>
        if ¬(store.accounts accountID).any fun account =>
            0 < accountRevision ∧ account.revision = accountRevision then
          .error (.conflict "帳戶資料已被其他操作更新，請重新整理後再試", store)
        else
          match deleteMembers environment members revisions tags store.inbounds with
          | .error inbounds =>
              .error (.conflict "資料已被其他操作更新，請重新整理後再試",
                { store with inbounds := inbounds })
          | .ok inbounds =>
              .ok
                { tags := tags
                  before := store
                  changed :=
                    { store with
                      inbounds := inbounds
                      subscriptions := update store.subscriptions name none
                      externalSubscriptions := update store.externalSubscriptions name none } }

end SideraCore.Dashboard
