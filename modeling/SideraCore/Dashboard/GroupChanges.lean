import SideraCore.Dashboard.UserChanges

/-!
Owns what the requests for a group change before they commit. A request that is
refused leaves the store as it was, except for a deletion that is cut short. A
request that passes its checks replaces the records of the inbounds it affects.
-/

namespace SideraCore.Dashboard

open Control Function

/-! ### Members of a group -/

def GoesWith (members : GoMap User) (tag : String) (user : User) : Prop :=
  ∃ member, members tag = some member ∧ user.id = member.id

/-- What a request for a group prepares: the affected records become authoritative, the
users that go with the members are out, and all that come in refer to the account, which
has the group's name. -/
structure GroupChange.Fits (change : GroupChange) (managers : GoMap ManagedRuntime) (store : Store)
    (members : GoMap User) (identifier name : String) : Prop where
  core : change.before.core = store.core
  nonempty : change.tags ≠ []
  managed : ∀ tag ∈ change.tags, managers tag ≠ none
  present : ∀ tag ∈ change.tags, change.before.inbounds tag ≠ none
  affected : ∀ tag, members tag ≠ none → tag ∈ change.tags
  outside : ∀ tag, tag ∉ change.tags →
    (change.changed.inbounds tag).map InboundRecord.unapplied =
      (change.before.inbounds tag).map InboundRecord.unapplied
  inside : ∀ tag ∈ change.tags, ∀ record, change.before.inbounds tag = some record →
    ∃ updated, change.changed.inbounds tag = some updated ∧
      updated.frame = (true, record.blockUUID, record.blockPassword) ∧
      (∀ user ∈ updated.users, (user ∈ record.users ∧ ¬GoesWith members tag user) ∨
        (user.accountID = identifier ∧ user.name = name)) ∧
      ∀ user ∈ record.users, ¬GoesWith members tag user → user ∈ updated.users
  servers : change.changed.servers = change.before.servers
  accounts : ∀ other, other ≠ identifier → change.changed.accounts other = change.before.accounts other
  valid : ValidAccounts change.changed.accounts
  account : change.changed.Named identifier name
  alone : ∀ other, other ≠ identifier → ¬change.before.Named other name
  joined : change.before.Named identifier name ∨
    ∃ user, change.changed.Has user ∧ user.accountID = identifier ∧ user.name = name

section Members

variable {environment : RequestEnvironment} {managers : GoMap ManagedRuntime} {store other : Store}
  {members : GoMap User} {desired : List Desired} {name tag : String}

theorem members_of_core (same : other.core = store.core) (name tag : String) :
    (userGroupMembers managers other name tag).map User.core =
      (userGroupMembers managers store name tag).map User.core := by
  have found (store : Store) : (userGroupMembers managers store name tag).map User.core =
      userGroupMembers managers store.core name tag := by
    unfold userGroupMembers
    cases managers tag with
    | none => rfl
    | some runtime =>
        cases present : store.inbounds tag with
        | none => simp [Store.core, present]
        | some record =>
            simp only [Store.core, present, Option.bind_some, Option.map_some, InboundRecord.core,
              List.find?_map]
            rfl
  rw [found, found, same]

theorem members_ne_none_of_core (same : other.core = store.core) :
    userGroupMembers managers other name tag ≠ none ↔ userGroupMembers managers store name tag ≠ none := by
  rw [ne_eq, ← Option.map_eq_none_iff, members_of_core same, Option.map_eq_none_iff]

variable {user : User} {given : List Desired}

theorem goesWith_of_core (same : other.core = store.core) :
    GoesWith (userGroupMembers managers other name) tag user ↔
      GoesWith (userGroupMembers managers store name) tag user := by
  have half {left right : Store} (equal : left.core = right.core)
      (goes : GoesWith (userGroupMembers managers left name) tag user) :
      GoesWith (userGroupMembers managers right name) tag user := by
    obtain ⟨member, found, sameID⟩ := goes
    have cores := @members_of_core managers right left equal name tag
    rw [found] at cores
    obtain ⟨similar, foundSimilar, coreEqual⟩ := Option.map_eq_some_iff.1 cores.symm
    have identifiers := congrArg User.id coreEqual
    exact ⟨similar, foundSimilar, sameID.trans identifiers.symm⟩
  exact ⟨half same, half same.symm⟩

theorem members_managed (found : userGroupMembers managers store name tag ≠ none) :
    managers tag ≠ none ∧ store.inbounds tag ≠ none := by
  unfold userGroupMembers at found
  cases managed : managers tag with
  | none =>
      rw [managed] at found
      exact absurd rfl found
  | some runtime =>
      refine ⟨by simp, fun absent => ?_⟩
      rw [managed, absent] at found
      exact absurd rfl found

theorem members_ne_none {record : InboundRecord} (managed : managers tag ≠ none)
    (present : store.inbounds tag = some record) (member : user ∈ record.users)
    (named : user.name = name) : userGroupMembers managers store name tag ≠ none := by
  obtain ⟨runtime, isManaged⟩ := Option.ne_none_iff_exists'.1 managed
  simp only [userGroupMembers, isManaged, present, Option.bind_some, ne_eq, List.find?_eq_none]
  intro none
  exact absurd named (by simpa using none user member)

theorem mem_affectedTags : tag ∈ affectedTags environment members desired ↔
    (tag ∈ environment.inbounds ∧ members tag ≠ none) ∨ ∃ wanted ∈ desired, wanted.inbound = tag := by
  simp only [affectedTags, List.mem_mergeSort, List.mem_dedup, List.mem_append, List.mem_filter,
    List.mem_map, Option.isSome_iff_ne_none]

theorem mem_affectedTags_nil :
    tag ∈ affectedTags environment members [] ↔ tag ∈ environment.inbounds ∧ members tag ≠ none := by
  simp [mem_affectedTags]

theorem affectedTags_nodup : (affectedTags environment members desired).Nodup :=
  (List.mergeSort_perm _ _).nodup_iff.2 (List.nodup_dedup _)

variable {revisions : String → Int} {memberships : List MembershipInput}

theorem normalizeMemberships_spec
    (succeeded : normalizeMemberships environment store name revisions given memberships = .ok desired) :
    desired.map (·.inbound) = given.map (·.inbound) ++ memberships.map (·.inbound) ∧
      ∀ membership ∈ memberships, environment.managers membership.inbound ≠ none := by
  induction memberships generalizing given with
  | nil =>
      cases succeeded
      simp
  | cons first rest ih =>
      unfold normalizeMemberships at succeeded
      split_ifs at succeeded
      split at succeeded
      · cases succeeded
      rename_i runtime managed
      split at succeeded
      · cases succeeded
      · obtain ⟨inbounds, all⟩ := ih succeeded
        exact ⟨by simpa using inbounds, List.forall_mem_cons.2 ⟨by simp [managed], all⟩⟩

theorem normalizeMemberships_refused {reply : UserReply}
    (refused : normalizeMemberships environment store name revisions given memberships =
      .error (reply, other)) : other = store := by
  induction memberships generalizing given with
  | nil => cases refused
  | cons first rest ih =>
      unfold normalizeMemberships at refused
      split_ifs at refused
      · cases refused
        rfl
      · cases refused
        rfl
      · split at refused
        · cases refused
          rfl
        · split at refused
          · cases refused
            rfl
          · exact ih refused

end Members

/-! ### Records of an updated group -/

section Records

variable {environment : RequestEnvironment} {account : Account} {name tag : String}
  {members : GoMap User} {desired : List Desired}

theorem mem_others {record : InboundRecord} {user : User} :
    user ∈ record.users.filter (fun user => ¬(members tag).any (·.id = user.id)) ↔
      user ∈ record.users ∧ ¬GoesWith members tag user := by
  have goes : (members tag).any (fun member => decide (member.id = user.id)) = true ↔
      GoesWith members tag user := by
    cases found : members tag with
    | none => simp [GoesWith, found]
    | some member =>
        simp only [Option.any_some, decide_eq_true_eq, GoesWith, found, Option.some.injEq,
          exists_eq_left']
        exact eq_comm
  rw [List.mem_filter, decide_eq_true_eq, goes]

theorem updateMembership_spec {wanted : Option Desired} {record updated : InboundRecord}
    (succeeded : updateMembership environment account name tag (members tag) wanted record =
      .ok updated) :
    updated.frame = (true, record.blockUUID, record.blockPassword) ∧
      (∀ user ∈ updated.users, (user ∈ record.users ∧ ¬GoesWith members tag user) ∨
        (user.accountID = account.id ∧ user.name = name)) ∧
      (∀ user ∈ record.users, ¬GoesWith members tag user → user ∈ updated.users) ∧
      (wanted ≠ none → ∃ user ∈ updated.users, user.accountID = account.id ∧ user.name = name) := by
  unfold updateMembership at succeeded
  dsimp only at succeeded
  split at succeeded
  · cases succeeded
    exact ⟨rfl, fun user member => .inl (mem_others.1 member),
      fun user member stays => mem_others.2 ⟨member, stays⟩, fun some => absurd rfl some⟩
  · split_ifs at succeeded
    split at succeeded
    · cases succeeded
    cases succeeded
    refine ⟨rfl, fun user member => ?_, fun user member stays => ?_, fun _ => ?_⟩
    · rcases List.mem_append.1 member with old | new
      · exact .inl (mem_others.1 old)
      · rw [List.mem_singleton.1 new]
        exact .inr ⟨rfl, rfl⟩
    · exact List.mem_append_left _ (mem_others.2 ⟨member, stays⟩)
    · exact ⟨_, List.mem_append_right _ (List.mem_singleton_self _), rfl, rfl⟩

theorem updateMemberships_spec {tags : List String} {inbounds result : GoMap InboundRecord}
    (nodup : tags.Nodup)
    (succeeded : updateMemberships environment account name members desired tags inbounds =
      .ok result) :
    (∀ tag, tag ∉ tags → result tag = inbounds tag) ∧
      ∀ tag ∈ tags, ∀ record, inbounds tag = some record → ∃ updated, result tag = some updated ∧
        updateMembership environment account name tag (members tag)
          (desired.find? (·.inbound = tag)) record = .ok updated := by
  induction tags generalizing inbounds with
  | nil =>
      cases succeeded
      exact ⟨fun _ _ => rfl, nofun⟩
  | cons first rest ih =>
      obtain ⟨notLater, nodupRest⟩ := List.nodup_cons.1 nodup
      unfold updateMemberships at succeeded
      split at succeeded
      · rename_i absent
        obtain ⟨outside, inside⟩ := ih nodupRest succeeded
        refine ⟨fun tag notIn => outside tag (List.not_mem_of_not_mem_cons notIn),
          List.forall_mem_cons.2 ⟨fun record present => ?_, inside⟩⟩
        rw [absent] at present
        cases present
      · rename_i firstRecord presentFirst
        obtain ⟨updatedFirst, updates, continued⟩ := bind_eq_ok_iff.1 succeeded
        obtain ⟨outside, inside⟩ := ih nodupRest continued
        refine ⟨fun tag notIn => ?_, List.forall_mem_cons.2
          ⟨fun record present => ?_, fun tag later record present => ?_⟩⟩
        · rw [List.mem_cons, not_or] at notIn
          rw [outside tag notIn.2, update_of_ne notIn.1]
        · cases presentFirst.symm.trans present
          exact ⟨updatedFirst, by rw [outside first notLater, update_self], updates⟩
        · apply inside tag later record
          rw [update_of_ne (ne_of_mem_of_not_mem later notLater), present]

theorem saturatingAdd_nonneg {result : Int} (nonneg : 0 ≤ result) (values : List Int) :
    0 ≤ saturatingAdd result values := by
  induction values generalizing result with
  | nil => exact nonneg
  | cons value rest ih =>
      unfold saturatingAdd
      split_ifs
      · exact ih nonneg
      · decide
      · exact ih (by omega)

theorem foldl_saturating_nonneg {start : Int} (nonneg : 0 ≤ start) (bytes : User → Int)
    (users : List User) :
    0 ≤ users.foldl (fun total user => saturatingAdminTrafficAdd [total, bytes user]) start := by
  induction users generalizing start with
  | nil => exact nonneg
  | cons user rest ih =>
      exact ih (saturatingAdd_nonneg (le_refl 0) _)

theorem updateAccount_check {input : GroupInput} {identifier : String} {leaving : List User}
    (checked : account.check identifier = .ok ()) (passed : checkGroupInput input name = none) :
    (updateAccount account input name leaving).check identifier = .ok () := by
  rw [Account.check_eq_ok_iff] at checked ⊢
  obtain ⟨nonempty, sameID, -, scope, quota, expires, maxIPs, reset, days, upload, download, online⟩ :=
    checked
  unfold checkGroupInput at passed
  split_ifs at passed with empty _ limits
  rw [not_or] at empty
  simp only [not_or, not_lt] at limits
  obtain ⟨quotaInput, expiresInput, resetInput, daysInput, maxIPsInput⟩ := limits
  have limit : 0 ≤ input.maxIPs.getD account.maxIPs := by
    cases given : input.maxIPs with
    | none => exact maxIPs
    | some limit =>
        simp only [given, Option.any_some, decide_eq_true_eq, not_lt] at maxIPsInput
        exact maxIPsInput
  unfold updateAccount
  split_ifs
  · exact ⟨nonempty, sameID, empty.1, scope, quotaInput, expiresInput, limit, resetInput, daysInput,
      foldl_saturating_nonneg upload _ _, foldl_saturating_nonneg download _ _, online⟩
  · exact ⟨nonempty, sameID, empty.1, scope, quota, expires, maxIPs, reset, days, upload, download,
      online⟩

end Records

/-! ### Created and updated groups -/

section Groups

variable {environment : RequestEnvironment} {store after : Store} {input : GroupInput} {name : String}
  {members : GoMap User} {desired : List Desired} {change : GroupChange} {reply : UserReply}
  {rename : Option String} {current : Account} {updated : Account → Account} {identifier : String}

/-- An account that passes the checks and has a name of its own can be put in. -/
theorem ValidAccounts.update {accounts : GoMap Account} {account : Account} (valid : ValidAccounts accounts)
    (checked : account.check identifier = .ok ())
    (alone : ∀ other found, other ≠ identifier → accounts other = some found → found.name ≠ account.name) :
    ValidAccounts (update accounts identifier (some account)) := by
  refine ⟨fun first found present => ?_, fun first second found other presentFirst presentSecond named => ?_⟩
  · by_cases same : first = identifier
    · subst same
      rw [update_self] at present
      exact Option.some.inj present ▸ checked
    · rw [update_of_ne same] at present
      exact valid.checked first found present
  · by_cases isFirst : first = identifier <;> by_cases isSecond : second = identifier
    · rw [isFirst, isSecond]
    · rw [isFirst, update_self] at presentFirst
      cases presentFirst
      rw [update_of_ne isSecond] at presentSecond
      exact absurd named.symm (alone second other isSecond presentSecond)
    · rw [isSecond, update_self] at presentSecond
      cases presentSecond
      rw [update_of_ne isFirst] at presentFirst
      exact absurd named (alone first found isFirst presentFirst)
    · rw [update_of_ne isFirst] at presentFirst
      rw [update_of_ne isSecond] at presentSecond
      exact valid.distinct first second found other presentFirst presentSecond named

structure Unseen (updated : Account → Account) : Prop where
  id : ∀ account, (updated account).id = account.id
  name : ∀ account, (updated account).name = account.name
  check : ∀ account identifier, (updated account).check identifier = account.check identifier

variable {account : Account} {leaving : List User}

theorem updateAccount_id :
    (updateAccount account input name leaving).id = account.id := by
  unfold updateAccount
  split_ifs <;> rfl

theorem updateAccount_name :
    (updateAccount account input name leaving).name = name := by
  unfold updateAccount
  split_ifs <;> rfl

variable {lookup tag oldName : String} {memberships : List MembershipInput} {revisions : String → Int}

theorem prepareGroup_fits (belong : ∀ {tag}, members tag ≠ none →
      environment.managers tag ≠ none ∧ store.inbounds tag ≠ none)
    (valid : ValidAccounts store.accounts)
    (accounts : Enumerates environment.accounts store.accounts)
    (inbounds : Enumerates environment.inbounds store.inbounds)
    (passed : checkGroupInput input name = none) (wanted : desired ≠ [])
    (managed : ∀ wanted ∈ desired, environment.managers wanted.inbound ≠ none)
    (checked : current.check current.id = .ok ()) (unseen : Unseen updated)
    (prepared : prepareGroup environment store input name rename members desired current updated =
      .ok change) :
    change.Fits environment.managers store members current.id name ∧ change.before = store ∧
      change.tags = affectedTags environment members desired := by
  simp only [prepareGroup] at prepared
  split at prepared
  · cases prepared
  rename_i untaken
  split at prepared
  · cases prepared
  rename_i matching
  split at prepared
  · cases prepared
  rename_i records updates
  cases prepared
  obtain ⟨outside, inside⟩ := updateMemberships_spec affectedTags_nodup updates
  generalize isAccount : updated (updateAccount current input name _) = account at *
  have accountID : account.id = current.id := by rw [← isAccount, unseen.id, updateAccount_id]
  have accountName : account.name = name := by rw [← isAccount, unseen.name, updateAccount_name]
  have accountCheck : account.check current.id = .ok () := by
    rw [← isAccount, unseen.check]
    exact updateAccount_check checked passed
  have alone (other : String) (different : other ≠ current.id) : ¬store.Named other name := by
    rintro ⟨found, present, rfl⟩
    refine untaken (List.any_eq_true.2 ⟨other, (accounts.mem_iff other).2 (by simp [present]), ?_⟩)
    simp [different, present, environment.tools.equalFold_refl]
  have present (tag : String) (member : tag ∈ affectedTags environment members desired) :
      store.inbounds tag ≠ none :=
    fun absent => matching (List.any_eq_true.2 ⟨tag, member, by simp [absent]⟩)
  obtain ⟨first, rest, isFirst⟩ := List.exists_cons_of_ne_nil wanted
  have isDesired : first ∈ desired := by rw [isFirst]; exact List.mem_cons_self
  have member : first.inbound ∈ affectedTags environment members desired :=
    mem_affectedTags.2 (.inr ⟨first, isDesired, rfl⟩)
  refine ⟨⟨rfl, List.ne_nil_of_mem member, ?_, present, fun tag found => mem_affectedTags.2 (.inl
      ⟨(inbounds.mem_iff tag).2 (belong found).2, found⟩),
    fun tag notIn => congrArg _ (outside tag notIn), ?_, rfl, ?_, ?_, ?_, alone, ?_⟩, rfl, rfl⟩
  · intro tag member
    rcases mem_affectedTags.1 member with ⟨-, found⟩ | ⟨desiredOne, isDesired, rfl⟩
    · exact (belong found).1
    · exact managed desiredOne isDesired
  · intro tag member record presentRecord
    obtain ⟨result, found, updatesRecord⟩ := inside tag member record presentRecord
    obtain ⟨frame, users, kept, -⟩ := updateMembership_spec updatesRecord
    rw [accountID] at users
    exact ⟨result, found, frame, users, kept⟩
  · rw [accountID]
    exact fun other different => update_of_ne different ..
  · rw [accountID]
    exact valid.update accountCheck fun other found different present named =>
      alone other different ⟨found, present, named.trans accountName⟩
  · rw [accountID]
    exact ⟨account, update_self .., accountName⟩
  · obtain ⟨record, presentRecord⟩ := Option.ne_none_iff_exists'.1 (present first.inbound member)
    obtain ⟨result, found, updatesRecord⟩ := inside first.inbound member record presentRecord
    obtain ⟨-, -, -, joins⟩ := updateMembership_spec updatesRecord
    obtain ⟨user, isIn, isAccountID, isNamed⟩ := joins (by
      rw [ne_eq, List.find?_eq_none]
      intro none
      simpa using none first isDesired)
    exact .inr ⟨user, ⟨first.inbound, result, found, isIn⟩, isAccountID.trans accountID, isNamed⟩

theorem prepareGroup_refused
    (refused : prepareGroup environment store input name rename members desired current updated =
      .error (reply, after)) : after = store := by
  simp only [prepareGroup] at refused
  iterate 3
    split at refused
    · cases refused
      rfl
  cases refused

/-- The environment visits the maps of the store, and its new identifier is new. -/
structure RequestEnvironment.Of (environment : RequestEnvironment) (store : Store) : Prop where
  inbounds : Enumerates environment.inbounds store.inbounds
  accounts : Enumerates environment.accounts store.accounts
  generated : environment.newID ≠ ""
  fresh : store.accounts environment.newID = none

theorem RequestEnvironment.Of.of_core {other : Store} (of : environment.Of store)
    (same : other.core = store.core) : environment.Of other := by
  refine ⟨of.inbounds.congr fun tag => ?_, ?_, of.generated, ?_⟩
  · have cores := inbounds_of_core same tag
    rw [← Option.map_eq_none_iff, cores, Option.map_eq_none_iff]
  · rw [accounts_of_core same]
    exact of.accounts
  · rw [accounts_of_core same]
    exact of.fresh

theorem desired_of_normalized
    (normalized : normalizeMemberships environment store name revisions [] memberships = .ok desired) :
    (∃ wanted ∈ desired, wanted.inbound = tag) ↔
      ∃ membership ∈ memberships, membership.inbound = tag := by
  have inbounds := (normalizeMemberships_spec normalized).1
  rw [List.map_nil, List.nil_append] at inbounds
  have same : tag ∈ desired.map (·.inbound) ↔ tag ∈ memberships.map (·.inbound) := by rw [inbounds]
  simpa only [List.mem_map] using same

theorem wanted_of_normalized
    (normalized : normalizeMemberships environment store name revisions [] memberships = .ok desired)
    (given : memberships ≠ []) :
    desired ≠ [] ∧ ∀ wanted ∈ desired, environment.managers wanted.inbound ≠ none := by
  obtain ⟨inbounds, managed⟩ := normalizeMemberships_spec normalized
  refine ⟨?_, fun wanted isDesired => ?_⟩
  · rintro rfl
    simp only [List.map_nil, List.nil_append, List.nil_eq, List.map_eq_nil_iff] at inbounds
    exact given inbounds
  · obtain ⟨membership, isIn, same⟩ := (desired_of_normalized normalized).1 ⟨wanted, isDesired, rfl⟩
    rw [← same]
    exact managed membership isIn

theorem checkGroupInput_memberships (passed : checkGroupInput input name = none) :
    input.memberships ≠ [] ∧ name ≠ "" ∧ input.policyScope ≠ some none := by
  unfold checkGroupInput at passed
  split_ifs at passed with empty scope _ memberships
  exact ⟨memberships, fun isEmpty => empty (.inl isEmpty), scope⟩

theorem newGroupAccount_check {scope : Option PolicyScope} {enabled : Bool} {now : Int}
    (generated : identifier ≠ "") (named : name ≠ "") (known : scope ≠ none) :
    (newGroupAccount identifier name scope enabled now).check identifier = .ok () := by
  rw [Account.check_eq_ok_iff]
  refine ⟨generated, rfl, named, known, ?_⟩
  unfold Account.HasLimits newGroupAccount
  dsimp only
  decide

theorem prepareCreateGroup_fits (of : environment.Of store) (valid : ValidAccounts store.accounts)
    (prepared : prepareCreateGroup environment store input = .ok change) :
    change.Fits environment.managers store
        (userGroupMembers environment.managers store (environment.tools.trim input.name))
        environment.newID (environment.tools.trim input.name) ∧
      change.before = store ∧
      ∀ tag, tag ∈ change.tags ↔ ∃ membership ∈ input.memberships, membership.inbound = tag := by
  unfold prepareCreateGroup at prepared
  dsimp only at prepared
  split at prepared
  · cases prepared
  rename_i passed
  obtain ⟨desired, normalized, continued⟩ := bind_eq_ok_iff.1 prepared
  split_ifs at continued with taken
  obtain ⟨given, named, scope⟩ := checkGroupInput_memberships passed
  obtain ⟨wanted, managed⟩ := wanted_of_normalized normalized given
  have known : input.policyScope.getD (some .accountGlobal) ≠ none := by
    cases given : input.policyScope with
    | none => nofun
    | some found =>
        rintro rfl
        exact scope given
  obtain ⟨fits, before, tags⟩ := prepareGroup_fits members_managed valid of.accounts of.inbounds passed wanted
    managed (newGroupAccount_check of.generated named known) ⟨fun _ => rfl, fun _ => rfl, fun _ _ => rfl⟩
    continued
  refine ⟨fits, before, fun tag => ?_⟩
  rw [tags, mem_affectedTags, ← desired_of_normalized normalized]
  apply or_iff_right
  rintro ⟨visited, found⟩
  apply taken
  rw [List.any_eq_true]
  exact ⟨tag, visited, Option.isSome_iff_ne_none.2 found⟩

theorem prepareCreateGroup_refused
    (refused : prepareCreateGroup environment store input = .error (reply, after)) : after = store := by
  unfold prepareCreateGroup at refused
  dsimp only at refused
  split at refused
  · cases refused
    rfl
  rcases bind_eq_error_iff.1 refused with early | ⟨desired, -, continued⟩
  · exact normalizeMemberships_refused early
  · split_ifs at continued
    · cases continued
      rfl
    · cases continued
      rfl
    · exact prepareGroup_refused continued

theorem sharedAccount_spec {tags : List String} {start : String}
    (assigned : ∀ tag user, members tag = some user → user.accountID ≠ "")
    (shared : sharedAccount members tags start = some identifier) :
    (start ≠ "" → start = identifier) ∧
      ∀ tag ∈ tags, ∀ user, members tag = some user → user.accountID = identifier := by
  induction tags generalizing start with
  | nil =>
      cases shared
      exact ⟨fun _ => rfl, nofun⟩
  | cons first rest ih =>
      unfold sharedAccount at shared
      cases found : members first with
      | none =>
          rw [found] at shared
          obtain ⟨same, all⟩ := ih shared
          refine ⟨same, List.forall_mem_cons.2 ⟨fun user isUser => ?_, all⟩⟩
          rw [found] at isUser
          cases isUser
      | some firstUser =>
          rw [found] at shared
          dsimp only at shared
          split_ifs at shared with isEmpty isSame
          · obtain ⟨same, all⟩ := ih shared
            refine ⟨fun nonempty => absurd isEmpty nonempty, List.forall_mem_cons.2 ⟨?_, all⟩⟩
            simpa only [found, Option.some.injEq, forall_eq'] using same (assigned first firstUser found)
          · rw [not_not] at isSame
            obtain ⟨same, all⟩ := ih shared
            refine ⟨same, List.forall_mem_cons.2 ⟨?_, all⟩⟩
            simpa only [found, Option.some.injEq, forall_eq', ← isSame] using same isEmpty

theorem members_has {user : User}
    (found : userGroupMembers environment.managers store name tag = some user) :
    store.Has user ∧ user.name = name := by
  unfold userGroupMembers at found
  split at found
  · cases found
  · obtain ⟨record, present, first⟩ := Option.bind_eq_some_iff.1 found
    exact ⟨⟨tag, record, present, List.mem_of_find?_eq_some first⟩,
      by simpa using List.find?_some first⟩

theorem named_of_sharedAccount (accepted : store.AccountsAccepted) (normal : store.AccountsNormal)
    (anyMember : environment.inbounds.any fun tag =>
      (userGroupMembers environment.managers store name tag).isSome)
    (shared : sharedAccount (userGroupMembers environment.managers store name) environment.inbounds "" =
      some identifier) : store.Named identifier name := by
  obtain ⟨tag, visited, found⟩ := List.any_eq_true.1 anyMember
  obtain ⟨user, isMember⟩ := Option.isSome_iff_exists.1 found
  have assigned : ∀ tag user, userGroupMembers environment.managers store name tag = some user →
      user.accountID ≠ "" := by
    intro tag user isMember
    obtain ⟨account, present, -⟩ := normal.assigned user (members_has isMember).1
    exact accepted.valid.identifier_ne present
  obtain ⟨has, named⟩ := members_has isMember
  rw [← (sharedAccount_spec assigned shared).2 tag visited user isMember, ← named]
  exact normal.assigned user has

theorem GroupChange.Fits.of_core {settled : Store} (fits : change.Fits environment.managers settled
      (userGroupMembers environment.managers settled lookup) identifier name)
    (same : settled.core = store.core) :
    change.Fits environment.managers store (userGroupMembers environment.managers store lookup)
      identifier name := by
  refine ⟨fits.core.trans same, fits.nonempty, fits.managed, fits.present,
    fun tag found => fits.affected tag ((members_ne_none_of_core same).2 found), fits.outside, ?_,
    fits.servers, fits.accounts, fits.valid, fits.account, fits.alone, fits.joined⟩
  intro tag member record present
  obtain ⟨updated, found, frame, users, kept⟩ := fits.inside tag member record present
  refine ⟨updated, found, frame, fun user isIn => ?_, fun user isIn stays => ?_⟩
  · rw [← goesWith_of_core same]
    exact users user isIn
  · rw [← goesWith_of_core same] at stays
    exact kept user isIn stays

theorem prepareUpdateGroup_fits (of : environment.Of store) (accepted : store.AccountsAccepted)
    (normal : store.AccountsNormal)
    (prepared : prepareUpdateGroup environment store oldName input = .ok change) :
    ∃ identifier, store.Named identifier oldName ∧
      change.Fits environment.managers store (userGroupMembers environment.managers store oldName)
        identifier (environment.tools.trim input.name) ∧
      ∀ tag, tag ∈ change.tags ↔ userGroupMembers environment.managers store oldName tag ≠ none ∨
        ∃ membership ∈ input.memberships, membership.inbound = tag := by
  unfold prepareUpdateGroup at prepared
  dsimp only at prepared
  split at prepared
  · cases prepared
  rename_i passed
  obtain ⟨desired, normalized, continued⟩ := bind_eq_ok_iff.1 prepared
  obtain ⟨wanted, managed⟩ := wanted_of_normalized normalized (checkGroupInput_memberships passed).1
  split at continued
  · cases continued
  rename_i anyMember
  rw [not_not] at anyMember
  split at continued
  · cases continued
  split at continued
  · cases continued
  rename_i identifier shared
  split at continued
  · cases continued
  rename_i account present
  have settledCore := @settleMembers_core oldName store environment
    (userGroupMembers environment.managers store oldName)
  have settledOf := of.of_core settledCore
  have settledAccepted := accepted.of_core settledCore
  have checked := accepted.valid.checked identifier account present
  have sameID := (Account.check_eq_ok_iff.1 checked).2.1
  have unseen : Unseen fun account : Account =>
    { account with
      revision := nextAdminRevision account.revision environment.now
      updatedAt := environment.now } := ⟨fun _ => rfl, fun _ => rfl, fun _ _ => rfl⟩
  -- The renamed name is a conditional too, which the split must leave alone.
  generalize (if oldName ≠ environment.tools.trim input.name then some oldName else none) =
    renamed at continued
  split_ifs at continued
  obtain ⟨fits, -, tags⟩ := prepareGroup_fits members_managed settledAccepted.valid
    settledOf.accounts settledOf.inbounds passed wanted managed (sameID ▸ checked) unseen continued
  rw [sameID] at fits
  refine ⟨identifier, named_of_sharedAccount accepted normal anyMember shared,
    fits.of_core settledCore, fun tag => ?_⟩
  rw [tags, mem_affectedTags, ← desired_of_normalized normalized,
    members_ne_none_of_core settledCore]
  apply or_congr_left
  exact ⟨And.right, fun found =>
    ⟨(of.inbounds.mem_iff tag).2 (members_managed found).2, found⟩⟩

theorem prepareUpdateGroup_refused
    (refused : prepareUpdateGroup environment store oldName input = .error (reply, after)) :
    after.core = store.core := by
  unfold prepareUpdateGroup at refused
  dsimp only at refused
  split at refused
  · cases refused
    rfl
  rcases bind_eq_error_iff.1 refused with early | ⟨desired, -, continued⟩
  · rw [normalizeMemberships_refused early]
  · -- the checks before the store is touched
    iterate 7
      split at continued
      · cases continued
        rfl
    rw [prepareGroup_refused continued]
    exact settleMembers_core store environment _

end Groups

def RevisionMatches (inbounds : GoMap InboundRecord) (revisions : String → Int) (tag : String) : Prop :=
  ∃ record, inbounds tag = some record ∧ 0 < revisions tag ∧ record.revision = revisions tag

/-- The deletion is refused after some members were taken out: the account and the first
inbound have the revision of the request, a later one has not. -/
def DeletionCutShort (environment : RequestEnvironment) (store : Store) (name : String)
    (accountRevision : Int) (revisions : String → Int) : Prop :=
  ∃ identifier account first rest tag,
    sharedAccount (userGroupMembers environment.managers store name) environment.inbounds "" =
      some identifier ∧
    store.accounts identifier = some account ∧ 0 < accountRevision ∧ account.revision = accountRevision ∧
    affectedTags environment (userGroupMembers environment.managers store name) [] = first :: rest ∧
    RevisionMatches store.inbounds revisions first ∧ tag ∈ rest ∧
    ¬RevisionMatches store.inbounds revisions tag

section Deleted

variable {environment : RequestEnvironment} {store after : Store} {name : String} {members : GoMap User}
  {revisions : String → Int} {tags : List String} {inbounds result : GoMap InboundRecord}

def withoutMember (environment : RequestEnvironment) (members : GoMap User) (tag : String)
    (record : InboundRecord) : InboundRecord :=
  { record with
    users := record.users.filter fun user => ¬(members tag).any (·.id = user.id)
    authoritative := true
    revision := nextAdminRevision record.revision environment.now }

variable {first : String} {accountRevision : Int} {rest : List String} {tag : String}
  {change : GroupChange}

theorem deleteMembers_cons {record : InboundRecord} (present : inbounds first = some record)
    (matching : RevisionMatches inbounds revisions first) :
    deleteMembers environment members revisions (first :: rest) inbounds =
      deleteMembers environment members revisions rest
        (update inbounds first (some (withoutMember environment members first record))) := by
  obtain ⟨found, presentFound, positive, same⟩ := matching
  cases present.symm.trans presentFound
  simp only [deleteMembers, present]
  rw [if_neg]
  · rfl
  · rintro (nonpositive | different)
    · omega
    · exact different same

theorem deleteMembers_of_mismatch (mismatch : ¬RevisionMatches inbounds revisions first) :
    deleteMembers environment members revisions (first :: rest) inbounds = .error inbounds := by
  unfold deleteMembers
  cases present : inbounds first with
  | none => rfl
  | some record =>
      dsimp only
      rw [if_pos]
      by_contra both
      rw [not_or, not_le, not_not] at both
      exact mismatch ⟨record, present, both⟩

theorem revisionMatches_update {record : Option InboundRecord} (different : tag ≠ first) :
    RevisionMatches (update inbounds first record) revisions tag ↔
      RevisionMatches inbounds revisions tag := by
  unfold RevisionMatches
  rw [update_of_ne different]

theorem deleteMembers_spec (nodup : tags.Nodup)
    {outcome : Except (GoMap InboundRecord) (GoMap InboundRecord)}
    (done : deleteMembers environment members revisions tags inbounds = outcome) :
    match outcome with
    | .ok result =>
        (∀ tag, tag ∉ tags → result tag = inbounds tag) ∧ ∀ tag ∈ tags,
          RevisionMatches inbounds revisions tag ∧ ∃ record, inbounds tag = some record ∧
            result tag = some (withoutMember environment members tag record)
    | .error left =>
        (∀ tag, tag ∉ tags → left tag = inbounds tag) ∧
          ∃ tag ∈ tags, ¬RevisionMatches inbounds revisions tag := by
  induction tags generalizing inbounds with
  | nil =>
      cases done
      exact ⟨fun _ _ => rfl, nofun⟩
  | cons first rest ih =>
      obtain ⟨notLater, nodupRest⟩ := List.nodup_cons.1 nodup
      have other {tag : String} (later : tag ∈ rest) : tag ≠ first := ne_of_mem_of_not_mem later notLater
      by_cases matching : RevisionMatches inbounds revisions first
      · obtain ⟨record, present, -⟩ := id matching
        have continued := ih nodupRest ((deleteMembers_cons present matching).symm.trans done)
        have visited {left : GoMap InboundRecord} {given : Option InboundRecord}
            (outside : ∀ tag, tag ∉ rest → left tag = update inbounds first given tag) :
            ∀ tag, tag ∉ first :: rest → left tag = inbounds tag := by
          intro tag notIn
          rw [List.mem_cons, not_or] at notIn
          rw [outside tag notIn.2, update_of_ne notIn.1]
        cases outcome with
        | ok result =>
            obtain ⟨outside, inside⟩ := continued
            refine ⟨visited outside, List.forall_mem_cons.2 ⟨⟨matching, ?_⟩, fun tag later => ?_⟩⟩
            · exact ⟨record, present, by rw [outside first notLater, update_self]⟩
            · have removed := inside tag later
              rwa [revisionMatches_update (other later), update_of_ne (other later)] at removed
        | error left =>
            obtain ⟨outside, tag, later, mismatch⟩ := continued
            rw [revisionMatches_update (other later)] at mismatch
            exact ⟨visited outside, tag, List.mem_cons_of_mem _ later, mismatch⟩
      · cases (deleteMembers_of_mismatch matching).symm.trans done
        exact ⟨fun _ _ => rfl, first, List.mem_cons_self, matching⟩

theorem nextAdminRevision_ne (revision : Int) {now : Int} (timely : 0 ≤ now ∧ now < maxInt64) :
    nextAdminRevision revision now ≠ revision := by
  unfold nextAdminRevision maxInt64 at *
  rw [Int.bmod_def]
  omega

theorem prepareDeleteGroup_fits (of : environment.Of store) (accepted : store.AccountsAccepted)
    (normal : store.AccountsNormal)
    (prepared : prepareDeleteGroup environment store name accountRevision revisions = .ok change) :
    ∃ identifier,
      change.Fits environment.managers store (userGroupMembers environment.managers store name)
        identifier name ∧
      change.before = store ∧ store.Named identifier name ∧
      ∀ tag, tag ∈ change.tags ↔ userGroupMembers environment.managers store name tag ≠ none := by
  unfold prepareDeleteGroup at prepared
  dsimp only at prepared
  split at prepared
  · cases prepared
  rename_i anyMember
  rw [not_not] at anyMember
  split at prepared
  · cases prepared
  rename_i identifier shared
  split at prepared
  · cases prepared
  split at prepared
  · cases prepared
  rename_i inbounds deleted
  cases prepared
  obtain ⟨outside, inside⟩ := deleteMembers_spec affectedTags_nodup deleted
  have named := named_of_sharedAccount accepted normal anyMember shared
  have mem (tag : String) :
      tag ∈ affectedTags environment (userGroupMembers environment.managers store name) [] ↔
        userGroupMembers environment.managers store name tag ≠ none := by
    rw [mem_affectedTags_nil]
    exact ⟨And.right, fun found =>
      ⟨(of.inbounds.mem_iff tag).2 (members_managed found).2, found⟩⟩
  obtain ⟨tag, visited, found⟩ := List.any_eq_true.1 anyMember
  refine ⟨identifier, ⟨rfl, ?_, ?_, ?_, fun tag => (mem tag).2,
    fun tag notIn => congrArg _ (outside tag notIn), ?_, rfl, fun _ _ => rfl, accepted.valid, named, ?_, .inl named⟩, rfl, named, mem⟩
  · exact List.ne_nil_of_mem ((mem tag).2 (Option.isSome_iff_ne_none.1 found))
  · exact fun tag member => (members_managed ((mem tag).1 member)).1
  · exact fun tag member => (members_managed ((mem tag).1 member)).2
  · intro tag member record present
    obtain ⟨-, other, presentOther, removed⟩ := inside tag member
    cases present.symm.trans presentOther
    exact ⟨_, removed, rfl, fun user isIn => .inl (mem_others.1 isIn),
      fun user isIn stays => mem_others.2 ⟨isIn, stays⟩⟩
  · exact fun other different taken => different (normal.distinct other identifier name taken named)

theorem prepareDeleteGroup_whole
    (prepared : prepareDeleteGroup environment store name accountRevision revisions = .ok change) :
    ¬DeletionCutShort environment store name accountRevision revisions := by
  rintro ⟨_, _, first, rest, tag, -, -, -, -, tagged, -, later, mismatch⟩
  unfold prepareDeleteGroup at prepared
  dsimp only at prepared
  iterate 4
    split at prepared
    · cases prepared
  rename_i deleted
  have matching := (deleteMembers_spec affectedTags_nodup deleted).2
  rw [tagged] at matching
  exact mismatch (matching tag (List.mem_cons_of_mem _ later)).1

/-- A refused deletion has changed the store if and only if it was cut short. -/
theorem prepareDeleteGroup_refused {reply : UserReply}
    (refused : prepareDeleteGroup environment store name accountRevision revisions =
      .error (reply, after)) :
    (after.core = store.core ↔
      ¬DeletionCutShort environment store name accountRevision revisions) ∧ reply ≠ .done := by
  unfold prepareDeleteGroup at refused
  dsimp only at refused
  unfold DeletionCutShort
  generalize tagged : affectedTags environment (userGroupMembers environment.managers store name) [] = tags
    at refused
  have nodup : tags.Nodup := tagged ▸ affectedTags_nodup
  split at refused
  · rename_i noMember
    cases refused
    refine ⟨iff_of_true rfl ?_, UserReply.noConfusion⟩
    rintro ⟨-, -, first, rest, -, -, -, -, -, rfl, -⟩
    have member : first ∈ first :: rest := List.mem_cons_self
    rw [← tagged, mem_affectedTags_nil] at member
    apply noMember
    rw [List.any_eq_true]
    exact ⟨first, member.1, Option.isSome_iff_ne_none.2 member.2⟩
  · split at refused
    · rename_i unshared
      cases refused
      refine ⟨iff_of_true rfl ?_, UserReply.noConfusion⟩
      rintro ⟨identifier, -, -, -, -, shared, -⟩
      rw [unshared] at shared
      cases shared
    · rename_i identifier shared
      split at refused
      · rename_i mismatch
        cases refused
        refine ⟨iff_of_true rfl ?_, UserReply.noConfusion⟩
        rintro ⟨other, account, -, -, -, sharedOther, present, positive, same, -⟩
        cases shared.symm.trans sharedOther
        exact mismatch (by simp [present, positive, same])
      · rename_i matchingAccount
        split at refused
        · rename_i inbounds failed
          cases refused
          refine ⟨?_, UserReply.noConfusion⟩
          obtain ⟨account, present, positive, same⟩ : ∃ account, store.accounts identifier = some account ∧
              0 < accountRevision ∧ account.revision = accountRevision := by
            rw [not_not] at matchingAccount
            cases found : store.accounts identifier with
            | none => simp [found] at matchingAccount
            | some account =>
                rw [found, Option.any_some, decide_eq_true_eq] at matchingAccount
                exact ⟨account, rfl, matchingAccount⟩
          cases tags with
          | nil => cases failed
          | cons first rest =>
              by_cases matching : RevisionMatches store.inbounds revisions first
              · -- The first inbound has lost its member and has a new revision.
                obtain ⟨record, presentFirst, -⟩ := id matching
                have nodupRest := List.nodup_cons.1 nodup
                obtain ⟨-, tag, later, mismatch⟩ := deleteMembers_spec nodup failed
                rw [deleteMembers_cons presentFirst matching] at failed
                refine iff_of_false ?_ ?_
                · intro unchanged
                  have atFirst := inbounds_of_core unchanged first
                  dsimp only at atFirst
                  rw [(deleteMembers_spec nodupRest.2 failed).1 first nodupRest.1, update_self, presentFirst,
                    Option.map_some, Option.map_some, Option.some.injEq] at atFirst
                  exact nextAdminRevision_ne record.revision environment.timely
                    (congrArg InboundRecord.revision atFirst)
                · rw [not_not]
                  refine ⟨identifier, account, first, rest, tag, shared, present, positive, same, rfl,
                    matching, ?_, mismatch⟩
                  rcases List.mem_cons.1 later with rfl | isLater
                  · exact absurd matching mismatch
                  · exact isLater
              · rw [deleteMembers_of_mismatch matching] at failed
                cases failed
                refine iff_of_true rfl ?_
                rintro ⟨-, -, other, others, -, -, -, -, -, sameTags, matchingOther, -⟩
                cases sameTags
                exact matching matchingOther
        · cases refused

end Deleted

end SideraCore.Dashboard
