import SideraCore.Dashboard.UserTraceLimits

/-!
Owns for which requests and stores every failed request for users leaves no trace.
Three things stand against it, all of them visible before the request is made: a
deletion that is refused after it has taken out members, profiles and tokens that a
save changes, and a rename that leaves users of the old name behind.
-/

namespace SideraCore.Dashboard

open UserRequest Control

/-! ### Renames that leave users behind -/

variable (managers : GoMap ManagedRuntime) (environment : RequestEnvironment) (store : Store)
  (name : String)

/-- A user of the name on the inbound who does not go with the members of the group. -/
def LeftBehind (tag : String) : Prop :=
  ∃ record user, store.inbounds tag = some record ∧ user ∈ record.users ∧ user.name = name ∧
    ¬GoesWith (userGroupMembers managers store name) tag user

/-- All users of some other name go with the members of the group. -/
def TakesAnother : Prop :=
  ∃ user, store.Has user ∧ user.name ≠ name ∧
    ∀ tag record, store.inbounds tag = some record → ∀ other ∈ record.users, other.name = user.name →
      GoesWith (userGroupMembers managers store name) tag other

/-- A rename splits the account for good: a user stays behind on an inbound that is not
managed, or stays behind while no other account loses its last user. -/
def RenameSplits : Prop :=
  (∃ tag, managers tag = none ∧ LeftBehind managers store name tag) ∨
    (∃ tag, LeftBehind managers store name tag) ∧ ¬TakesAnother managers store name

section Renames

variable {managers : GoMap ManagedRuntime} {store other : Store} {name tag : String}

theorem records_of_core (same : other.core = store.core) {record : InboundRecord}
    (present : store.inbounds tag = some record) :
    ∃ similar, other.inbounds tag = some similar ∧ similar.core = record.core := by
  have cores := inbounds_of_core same tag
  rw [present, Option.map_some] at cores
  exact Option.map_eq_some_iff.1 cores

theorem users_of_record_core {record similar : InboundRecord} (same : similar.core = record.core)
    {user : User} (member : user ∈ record.users) :
    ∃ found ∈ similar.users, found.id = user.id ∧ found.name = user.name := by
  have users : similar.users.map User.core = record.users.map User.core :=
    congrArg InboundRecord.users same
  have inCore := List.mem_map_of_mem (f := User.core) member
  rw [← users] at inCore
  obtain ⟨found, isIn, equal⟩ := List.mem_map.1 inCore
  have identifier := congrArg User.id equal
  have called := congrArg User.name equal
  exact ⟨found, isIn, identifier, called⟩

theorem GoesWith.congr {members : GoMap User} {user found : User} (goes : GoesWith members tag user)
    (same : found.id = user.id) : GoesWith members tag found := by
  obtain ⟨member, isMember, equal⟩ := goes
  exact ⟨member, isMember, same.trans equal⟩

theorem LeftBehind.of_core (left : LeftBehind managers store name tag) (same : other.core = store.core) :
    LeftBehind managers other name tag := by
  obtain ⟨record, user, present, member, named, stays⟩ := left
  obtain ⟨similar, presentSimilar, cores⟩ := records_of_core same present
  obtain ⟨found, isIn, identifier, called⟩ := users_of_record_core cores member
  refine ⟨similar, found, presentSimilar, isIn, called.trans named, fun goes => stays ?_⟩
  exact (goesWith_of_core same).1 (goes.congr identifier.symm)

theorem TakesAnother.of_core (takes : TakesAnother managers store name)
    (same : other.core = store.core) : TakesAnother managers other name := by
  obtain ⟨user, has, different, all⟩ := takes
  obtain ⟨similar, hasSimilar, -, called⟩ := has_of_core same has
  refine ⟨similar, hasSimilar, called ▸ different, fun tag record present found isIn sameName => ?_⟩
  obtain ⟨original, presentOriginal, cores⟩ := records_of_core same.symm present
  obtain ⟨earlier, member, identifier, named⟩ := users_of_record_core cores isIn
  have goes := all tag original presentOriginal earlier member (by rw [named, sameName, called])
  exact (goesWith_of_core same).2 (goes.congr identifier.symm)

theorem renameSplits_of_core (same : other.core = store.core) :
    RenameSplits managers other name ↔ RenameSplits managers store name := by
  have half {left right : Store} (equal : left.core = right.core)
      (splits : RenameSplits managers left name) : RenameSplits managers right name := by
    rcases splits with ⟨tag, unmanaged, behind⟩ | ⟨⟨tag, behind⟩, takes⟩
    · exact .inl ⟨tag, unmanaged, behind.of_core equal.symm⟩
    · exact .inr ⟨⟨tag, behind.of_core equal.symm⟩, fun another => takes (another.of_core equal)⟩
  exact ⟨half same, half same.symm⟩

end Renames

/-! ### Changes and renames -/

section Changes

variable {managers : GoMap ManagedRuntime} {store : Store} {change : GroupChange}
  {oldName identifier name tag : String} {members : GoMap User}

namespace GroupChange.Fits

section Fits

variable (fits : change.Fits managers store members identifier name)
include fits

theorem user_iff {user : User}
    (misnamed : user.accountID = identifier → user.name ≠ name) :
    (∃ record, change.changed.inbounds tag = some record ∧ user ∈ record.users) ↔
      ∃ record, change.before.inbounds tag = some record ∧ user ∈ record.users ∧
        ¬GoesWith members tag user := by
  by_cases affected : tag ∈ change.tags
  · obtain ⟨record, present⟩ := Option.ne_none_iff_exists'.1 (fits.present tag affected)
    obtain ⟨updated, presentUpdated, -, comes, stays⟩ := fits.inside tag affected record present
    constructor
    · rintro ⟨found, presentFound, member⟩
      cases presentUpdated.symm.trans presentFound
      rcases comes user member with ⟨isOld, notWith⟩ | ⟨isAccount, isName⟩
      · exact ⟨record, present, isOld, notWith⟩
      · exact absurd isName (misnamed isAccount)
    · rintro ⟨found, presentFound, member, notWith⟩
      cases present.symm.trans presentFound
      exact ⟨updated, presentUpdated, stays user member notWith⟩
  · have records := fits.outside tag affected
    have alone : ¬GoesWith members tag user := by
      rintro ⟨member, isMember, -⟩
      exact affected (fits.affected tag (by simp [isMember]))
    constructor
    · rintro ⟨found, present, member⟩
      obtain ⟨old, presentOld, users⟩ := users_of_unapplied records present
      exact ⟨old, presentOld, users ▸ member, alone⟩
    · rintro ⟨found, present, member, -⟩
      obtain ⟨new, presentNew, users⟩ := users_of_unapplied records.symm present
      exact ⟨new, presentNew, users ▸ member⟩

theorem whole_of_named (normal : store.AccountsNormal)
    (named : change.before.Named identifier name) : change.Whole identifier name := by
  intro user has same
  rcases fits.has has with old | ⟨-, isName⟩
  · exact ((normal.of_core fits.core).assigned user old).unique (same ▸ named)
  · exact isName

theorem whole_of_absent (normal : store.AccountsNormal)
    (absent : store.accounts identifier = none) : change.Whole identifier name := by
  intro user has same
  rcases fits.has has with old | ⟨-, isName⟩
  · obtain ⟨account, present, -⟩ := (normal.of_core fits.core).assigned user old
    rw [same, accounts_of_core fits.core, absent] at present
    cases present
  · exact isName

end Fits

section Renamed

variable (fits : change.Fits managers store (userGroupMembers managers store oldName) identifier name)
  (normal : store.AccountsNormal) (named : store.Named identifier oldName) (different : name ≠ oldName)

include fits normal named

theorem account_iff {user : User} (has : change.before.Has user) :
    user.accountID = identifier ↔ user.name = oldName := by
  have normalBefore := normal.of_core fits.core
  have namedBefore : change.before.Named identifier oldName := by
    unfold Store.Named
    rw [accounts_of_core fits.core]
    exact named
  have assigned := normalBefore.assigned user has
  constructor
  · intro same
    exact assigned.unique (same ▸ namedBefore)
  · intro same
    rw [same] at assigned
    exact normalBefore.distinct _ _ _ assigned namedBefore

include different

theorem leftBehind_iff :
    (∃ record user, change.changed.inbounds tag = some record ∧ user ∈ record.users ∧
      user.accountID = identifier ∧ user.name ≠ name) ↔ LeftBehind managers change.before oldName tag := by
  constructor
  · rintro ⟨record, user, present, member, same, misnamed⟩
    obtain ⟨old, presentOld, isOld, stays⟩ := (fits.user_iff fun _ => misnamed).1 ⟨record, present, member⟩
    have isNamed := (fits.account_iff normal named ⟨tag, old, presentOld, isOld⟩).1 same
    exact ⟨old, user, presentOld, isOld, isNamed, fun goes => stays ((goesWith_of_core fits.core).1 goes)⟩
  · rintro ⟨record, user, present, member, isNamed, stays⟩
    have same := (fits.account_iff normal named ⟨tag, record, present, member⟩).2 isNamed
    have misnamed : user.name ≠ name := fun equal => different (equal.symm.trans isNamed)
    obtain ⟨updated, presentUpdated, isIn⟩ := (fits.user_iff fun _ => misnamed).2
      ⟨record, present, member, fun goes => stays ((goesWith_of_core fits.core).2 goes)⟩
    exact ⟨updated, user, presentUpdated, isIn, same, misnamed⟩

theorem orphans_iff (left : LeftBehind managers change.before oldName tag) :
    change.Orphans ↔ TakesAnother managers change.before oldName := by
  have normalBefore := normal.of_core fits.core
  constructor
  · rintro ⟨user, has, alone⟩
    have other : user.accountID ≠ identifier := by
      obtain ⟨record, staying, present, member, same, -⟩ :=
        (fits.leftBehind_iff normal named different).2 left
      intro equal
      exact alone staying ⟨tag, record, present, member⟩ (same.trans equal.symm)
    refine ⟨user, has, fun isNamed => other ((fits.account_iff normal named has).2 isNamed),
      fun place record present found member sameName => ?_⟩
    have assigned := normalBefore.assigned found ⟨place, record, present, member⟩
    rw [sameName] at assigned
    have sameAccount := normalBefore.distinct _ _ _ assigned (normalBefore.assigned user has)
    rw [goesWith_of_core fits.core]
    by_contra stays
    obtain ⟨updated, presentUpdated, isIn⟩ := (fits.user_iff
      fun equal => absurd (sameAccount.symm.trans equal) other).2 ⟨record, present, member, stays⟩
    exact alone found ⟨place, updated, presentUpdated, isIn⟩ sameAccount
  · rintro ⟨user, has, otherName, all⟩
    have other : user.accountID ≠ identifier := fun equal =>
      otherName ((fits.account_iff normal named has).1 equal)
    refine ⟨user, has, ?_⟩
    rintro found ⟨place, updated, presentUpdated, isIn⟩ sameAccount
    obtain ⟨record, present, member, stays⟩ := (fits.user_iff
      fun equal => absurd (sameAccount.symm.trans equal) other).1 ⟨updated, presentUpdated, isIn⟩
    have assigned := normalBefore.assigned found ⟨place, record, present, member⟩
    rw [sameAccount] at assigned
    have sameName := assigned.unique (normalBefore.assigned user has)
    exact stays ((goesWith_of_core fits.core).1 (all place record present found member sameName))

theorem unsplit_iff :
    change.Unsplit identifier name ↔ ¬RenameSplits managers store oldName := by
  rw [← renameSplits_of_core fits.core]
  -- A user who is left behind stands outside the change on inbounds without a manager.
  have outside {tag : String} (left : LeftBehind managers change.before oldName tag) :
      tag ∉ change.tags ↔ managers tag = none := by
    constructor
    · intro notIn
      by_contra managed
      obtain ⟨record, user, present, member, isNamed, -⟩ := left
      have found := members_ne_none managed present member isNamed
      exact notIn (fits.affected tag ((members_ne_none_of_core fits.core).1 found))
    · intro unmanaged affected
      exact fits.managed tag affected unmanaged
  have here (tag : String) : (∀ record, change.changed.inbounds tag = some record →
      ∀ user ∈ record.users, user.accountID = identifier → user.name = name) ↔
      ¬LeftBehind managers change.before oldName tag := by
    rw [← fits.leftBehind_iff normal named different]
    simp only [not_exists, not_and, not_not]
    exact forall_congr' fun record => forall_comm
  have whole : change.Whole identifier name ↔ ¬∃ tag, LeftBehind managers change.before oldName tag := by
    constructor
    · rintro isWhole ⟨tag, left⟩
      refine (here tag).1 (fun record present user member => ?_) left
      exact isWhole user ⟨tag, record, present, member⟩
    · rintro nobody user ⟨tag, record, present, member⟩
      exact (here tag).2 (fun left => nobody ⟨tag, left⟩) record present user member
  have inside : (∀ tag, tag ∉ change.tags → ∀ record, change.changed.inbounds tag = some record →
      ∀ user ∈ record.users, user.accountID = identifier → user.name = name) ↔
      ¬∃ tag, managers tag = none ∧ LeftBehind managers change.before oldName tag := by
    constructor
    · rintro all ⟨tag, unmanaged, left⟩
      exact (here tag).1 (all tag ((outside left).2 unmanaged)) left
    · intro nobody tag notIn
      exact (here tag).2 fun left => nobody ⟨tag, (outside left).1 notIn, left⟩
  unfold GroupChange.Unsplit RenameSplits
  rw [whole, inside, not_or, not_and_not_right]
  by_cases left : ∃ tag, LeftBehind managers change.before oldName tag
  · obtain ⟨tag, isLeft⟩ := id left
    rw [fits.orphans_iff normal named different isLeft]
    simp only [left, not_true_eq_false, false_or, true_implies]
  · have unmanaged : ¬∃ tag, managers tag = none ∧ LeftBehind managers change.before oldName tag := by
      rintro ⟨tag, -, isLeft⟩
      exact left ⟨tag, isLeft⟩
    simp only [left, unmanaged, not_false_eq_true, true_or, false_implies, and_self]

end Renamed

end GroupChange.Fits

end Changes

def UserRequest.affected : UserRequest → List String
  | .createUser input => [input.inbound]
  | .updateUser identifier _ =>
      ((findUser environment.managers store identifier environment.inbounds).map Prod.fst).toList
  | .deleteUser identifier _ =>
      ((findUser environment.managers store identifier environment.inbounds).map Prod.fst).toList
  | .createGroup input => input.memberships.map (·.inbound)
  | .updateGroup name input =>
      environment.inbounds.filter
          (fun tag => (userGroupMembers environment.managers store name tag).isSome) ++
        input.memberships.map (·.inbound)
  | .deleteGroup name _ _ =>
      environment.inbounds.filter fun tag => (userGroupMembers environment.managers store name tag).isSome

/-- The request deletes a group and is refused after some members were taken out. -/
def UserRequest.CutShort : UserRequest → Prop
  | .deleteGroup name accountRevision revisions =>
      DeletionCutShort environment store name accountRevision revisions
  | _ => False

def UserRequest.Splits : UserRequest → Prop
  | .updateGroup name input =>
      environment.tools.trim input.name ≠ name ∧ RenameSplits environment.managers store name
  | _ => False

def UserRequest.Passes (request : UserRequest) (environment : RequestEnvironment) (store : Store) : Prop :=
  ∃ change, request.prepare environment store = .ok change

section Requests

variable {environment : RequestEnvironment} {store after : Store} {request : UserRequest} {live : Live}

theorem Store.Undoable.congr {replace : ReplaceUsers} {tags others : List String}
    (undoable : store.Undoable replace tags) (same : ∀ tag, tag ∈ tags ↔ tag ∈ others) :
    store.Undoable replace others := by
  have marked : store.marked tags = store.marked others := by
    funext tag
    unfold Store.marked
    simp only [same tag]
  exact ⟨undoable.tokens, marked ▸ undoable.keeps⟩

/-- What a request that passes its checks prepares, for one inbound or for several. -/
def UserRequest.Prepares (request : UserRequest) (environment : RequestEnvironment) (store : Store) :
    Change → Prop
  | .single mutation =>
      mutation.Fits environment.managers store ∧
        (∀ tag, tag ∈ [mutation.tag] ↔ tag ∈ request.affected environment store) ∧
        ¬request.Splits environment store
  | .group change =>
      ∃ members identifier name, change.Fits environment.managers store members identifier name ∧
        (∀ tag, tag ∈ change.tags ↔ tag ∈ request.affected environment store) ∧
        (change.Unsplit identifier name ↔ ¬request.Splits environment store)

theorem mem_members_affected (of : environment.Of store) {name tag : String} :
    tag ∈ environment.inbounds.filter
        (fun tag => (userGroupMembers environment.managers store name tag).isSome) ↔
      userGroupMembers environment.managers store name tag ≠ none := by
  rw [List.mem_filter, Option.isSome_iff_ne_none]
  exact ⟨And.right, fun found => ⟨(of.inbounds.mem_iff tag).2 (members_managed found).2, found⟩⟩

theorem UserRequest.prepare_ok {change : Change} (of : environment.Of store)
    (accepted : store.AccountsAccepted) (normal : store.AccountsNormal)
    (prepared : request.prepare environment store = .ok change) :
    request.Prepares environment store change ∧ ¬request.CutShort environment store := by
  cases request with
  | createUser input =>
      obtain ⟨mutation, isPrepared, rfl⟩ := map_eq_ok_iff.1 prepared
      obtain ⟨fits, isTag⟩ := prepareCreateUser_fits isPrepared
      exact ⟨⟨fits, fun tag => by rw [isTag]; rfl, id⟩, id⟩
  | updateUser identifier input =>
      obtain ⟨mutation, isPrepared, rfl⟩ := map_eq_ok_iff.1 prepared
      obtain ⟨fits, user, found⟩ := prepareUpdateUser_fits isPrepared
      exact ⟨⟨fits, fun tag => by simp [affected, found], id⟩, id⟩
  | deleteUser identifier revision =>
      obtain ⟨mutation, isPrepared, rfl⟩ := map_eq_ok_iff.1 prepared
      obtain ⟨fits, user, found⟩ := prepareDeleteUser_fits isPrepared
      exact ⟨⟨fits, fun tag => by simp [affected, found], id⟩, id⟩
  | createGroup input =>
      obtain ⟨group, isPrepared, rfl⟩ := map_eq_ok_iff.1 prepared
      obtain ⟨fits, -, tags⟩ := prepareCreateGroup_fits of accepted.valid isPrepared
      refine ⟨⟨_, _, _, fits, fun tag => (tags tag).trans List.mem_map.symm, ?_⟩, id⟩
      exact iff_of_true (.inl (fits.whole_of_absent normal of.fresh)) id
  | updateGroup name input =>
      obtain ⟨group, isPrepared, rfl⟩ := map_eq_ok_iff.1 prepared
      obtain ⟨identifier, named, fits, tags⟩ := prepareUpdateGroup_fits of accepted normal isPrepared
      refine ⟨⟨_, _, _, fits, fun tag => ?_, ?_⟩, id⟩
      · rw [tags, affected, List.mem_append, mem_members_affected of, List.mem_map]
      · by_cases same : environment.tools.trim input.name = name
        · have named' : group.before.Named identifier (environment.tools.trim input.name) := by
            unfold Store.Named
            rw [accounts_of_core fits.core, same]
            exact named
          exact iff_of_true (.inl (fits.whole_of_named normal named')) fun splits => splits.1 same
        · rw [fits.unsplit_iff normal named same, Splits, and_iff_right same]
  | deleteGroup name accountRevision revisions =>
      obtain ⟨group, isPrepared, rfl⟩ := map_eq_ok_iff.1 prepared
      obtain ⟨identifier, fits, before, named, tags⟩ := prepareDeleteGroup_fits of accepted normal isPrepared
      refine ⟨⟨_, _, _, fits, fun tag => (tags tag).trans (mem_members_affected of).symm, ?_⟩,
        prepareDeleteGroup_whole isPrepared⟩
      exact iff_of_true (.inl (fits.whole_of_named normal (before ▸ named))) id

theorem UserRequest.prepare_refused {reply : UserReply}
    (refused : request.prepare environment store = .error (reply, after)) :
    (after.core = store.core ↔ ¬request.CutShort environment store) ∧
      (request.CutShort environment store → reply ≠ .done) := by
  cases request with
  | createUser input =>
      rw [prepareCreateUser_refused (map_eq_error_iff.1 refused)]
      exact ⟨iff_of_true rfl id, nofun⟩
  | updateUser identifier input =>
      exact ⟨iff_of_true (prepareUpdateUser_refused (map_eq_error_iff.1 refused)) id, nofun⟩
  | deleteUser identifier revision =>
      rw [prepareDeleteUser_refused (map_eq_error_iff.1 refused)]
      exact ⟨iff_of_true rfl id, nofun⟩
  | createGroup input =>
      rw [prepareCreateGroup_refused (map_eq_error_iff.1 refused)]
      exact ⟨iff_of_true rfl id, nofun⟩
  | updateGroup name input =>
      exact ⟨iff_of_true (prepareUpdateGroup_refused (map_eq_error_iff.1 refused)) id, nofun⟩
  | deleteGroup name accountRevision revisions =>
      exact (prepareDeleteGroup_refused (map_eq_error_iff.1 refused)).imp_right fun done _ => done

/-- A failed request leaves no trace whatever fails, iff the deletion is not cut short
and, where the checks pass, a save changes nothing, no profile of an affected inbound
would be scrubbed, and no account is split. -/
theorem userRequest_leavesNoTrace_iff {codec : ObjectCodec} (of : environment.Of live.store)
    (lawful : codec.Lawful) (replaces : environment.replace = replaceAdminServerUsers codec)
    (accepted : live.store.AccountsAccepted)
    (normal : live.store.AccountsNormal) (finite : live.store.Finite) (room : live.store.HasRoom)
    (onDisk : live.disk.core = live.store.core) :
    request.LeavesNoTrace environment live ↔
      ¬request.CutShort environment live.store ∧
        (request.Passes environment live.store →
          live.store.Undoable environment.replace (request.affected environment live.store) ∧
            ¬request.Splits environment live.store) := by
  have idempotent : ReplaceUsers.Idempotent environment.replace :=
    replaces ▸ replaceAdminServerUsers_idempotent lawful
  have sound : live.store.Sound := ⟨accepted, normal, finite, room⟩
  unfold LeavesNoTrace serve Passes
  cases prepared : request.prepare environment live.store with
  | error refusal =>
      obtain ⟨unchanged, replied⟩ := prepare_refused prepared
      constructor
      · intro traceless
        refine ⟨fun cutShort => ?_, nofun⟩
        obtain ⟨writer, writes⟩ := exists_saver .written
        have restored := traceless (outcomesWith none writer writer writer)
          (outcomesWith_of writes writes) (replied cutShort)
        exact unchanged.1 restored.memory cutShort
      · rintro ⟨whole, -⟩ outcomes - -
        exact ⟨unchanged.2 whole, rfl, fun tag => .inl rfl⟩
  | ok change =>
      obtain ⟨prepares, whole⟩ := prepare_ok of accepted normal prepared
      rw [and_iff_right whole, forall_prop_of_true ⟨change, rfl⟩]
      cases change with
      | single mutation =>
          obtain ⟨fits, tags, unsplit⟩ := prepares
          rw [and_iff_left unsplit]
          constructor
          · intro traceless
            exact (fits.undoable_of_restored sound (fun outcomes isOf failed =>
              (traceless outcomes isOf failed).memory) idempotent).congr tags
          · intro undoable outcomes isOf failed
            exact commitMutation_restored fits sound (undoable.congr fun tag => (tags tag).symm) isOf onDisk
              failed
      | group change =>
          obtain ⟨members, identifier, name, fits, tags, unsplit⟩ := prepares
          rw [← unsplit]
          constructor
          · intro traceless
            have memory (outcomes : Outcomes) (isOf : outcomes.Of)
                (failed : ((Change.group change).commit environment outcomes live).2 ≠ .done) :=
              (traceless outcomes isOf failed).memory
            exact ⟨(fits.undoable_of_restored sound memory idempotent).congr tags,
              fits.unsplit_of_restored sound memory⟩
          · rintro ⟨undoable, isUnsplit⟩ outcomes isOf failed
            exact commitGroup_restored fits sound (undoable.congr fun tag => (tags tag).symm) isOf onDisk
              isUnsplit failed

end Requests

/-! ### A new user, and a deletion that is cut short -/

def plainTools : TextTools := ⟨id, some, fun _ => none, fun left right => left = right, by simp⟩

def plainCodec : ObjectCodec := ⟨fun _ => some fun _ => none, fun _ => "", fun _ => ""⟩

def plainRuntime : ManagedRuntime := ⟨"trojan", ⟨.password, none, false, false, false⟩⟩

def plainEnvironment (inbounds accounts : List String) : RequestEnvironment :=
  { managers := fun tag => if tag ∈ inbounds then some plainRuntime else none
    tools := plainTools
    replace := replaceAdminServerUsers plainCodec
    inbounds := inbounds
    accounts := accounts
    now := 0
    timely := by decide
    newID := "2"
    memberID := id
    unsettled := fun _ => ⟨0, 0⟩ }

def plainInput : UserInput :=
  { inbound := "x", name := "b", uuid := "", password := "p", flow := "", alterID := 0, enabled := none,
    quotaBytes := 0, expiresAt := 0, maxIPs := none, revision := 1 }

def pairedRecord (revision : Int) : InboundRecord :=
  { type := "trojan", authoritative := false, blockUUID := "", blockPassword := "",
    users := [plainUser "u" "1" "a"], revision := revision, appliedRevision := revision }

def pairedStore : Store :=
  { plainStore [("1", plainAccount "1" "a")] [] with
    inbounds := fun tag => [("x", pairedRecord 1), ("y", pairedRecord 2)].lookup tag }

theorem pairedStore_lone : pairedStore.Lone := by
  refine ⟨rfl, fun user => ⟨?_, ?_⟩⟩
  · rintro ⟨tag, record, present, member⟩
    have found : [("x", pairedRecord 1), ("y", pairedRecord 2)].lookup tag = some record := present
    rw [List.lookup_cons] at found
    split at found
    · cases found
      exact List.mem_singleton.1 member
    · rw [List.lookup_cons] at found
      split at found
      · cases found
        exact List.mem_singleton.1 member
      · cases found
  · rintro rfl
    exact ⟨"x", pairedRecord 1, rfl, List.mem_singleton.2 rfl⟩

def subscribedStore : Store := { pairedStore with subscriptions := loneToken }

theorem subscribedStore_lone : subscribedStore.Lone := ⟨rfl, pairedStore_lone.has⟩

/-- A second user on one of two inbounds: the request passes its checks, and leaves no
trace if it fails later. -/
theorem createUser_leavesNoTrace :
    (plainEnvironment ["x", "y"] ["1"]).Of subscribedStore ∧
      (createUser plainInput).Passes (plainEnvironment ["x", "y"] ["1"]) subscribedStore ∧
      (createUser plainInput).LeavesNoTrace (plainEnvironment ["x", "y"] ["1"])
        ⟨subscribedStore, subscribedStore, fun _ => none⟩ := by
  have tags : Enumerates ["x", "y"] subscribedStore.inbounds :=
    @enumerates_lookup _ [("x", pairedRecord 1), ("y", pairedRecord 2)] (by decide)
  have accounts : Enumerates ["1"] subscribedStore.accounts :=
    @enumerates_lookup _ [("1", plainAccount "1" "a")] (by decide)
  have of : (plainEnvironment ["x", "y"] ["1"]).Of subscribedStore :=
    ⟨tags, accounts, by decide, by decide +kernel⟩
  have lawful : plainCodec.Lawful := fun _ => ⟨_, rfl, fun _ _ => rfl⟩
  have few : (subscribedStore.names ["x", "y"]).length < tokenSupply := by
    have one : (subscribedStore.names ["x", "y"]).length = 1 := by decide +kernel
    rw [one]
    exact Nat.one_lt_pow (by decide) (by decide)
  have undoable (affected : List String) :
      subscribedStore.Undoable (replaceAdminServerUsers plainCodec) affected :=
    ⟨subscribedStore_lone.tokensInOrder rfl fun _ => rfl, fun tag profile present => by cases present⟩
  refine ⟨of, ⟨_, rfl⟩, (@userRequest_leavesNoTrace_iff (plainEnvironment ["x", "y"] ["1"])
    (.createUser plainInput) ⟨subscribedStore, subscribedStore, fun _ => none⟩ plainCodec of lawful rfl
    subscribedStore_lone.accepted subscribedStore_lone.normal
    ⟨⟨_, accounts⟩, ⟨_, tags, few.le⟩, [], by simp, by simp [subscribedStore, pairedStore, plainStore]⟩
    ⟨_, tags, few⟩ rfl).2 ⟨id, fun _ => ⟨undoable _, id⟩⟩⟩

theorem pairedStore_tags :
    affectedTags (plainEnvironment ["x", "y"] ["1"])
      (userGroupMembers (plainEnvironment ["x", "y"] ["1"]).managers pairedStore "a") [] = ["x", "y"] := by
  have listed : ((plainEnvironment ["x", "y"] ["1"]).inbounds.filter (fun tag =>
      (userGroupMembers (plainEnvironment ["x", "y"] ["1"]).managers pairedStore "a" tag).isSome) ++
      ([] : List Desired).map (·.inbound)).dedup = ["x", "y"] := by decide +kernel
  exact List.mergeSort_of_pairwise (by decide)

/-- The deletion is refused with a conflict at the second inbound, and the first one
has lost its user. -/
theorem pairedStore_deletion_cut_short :
    (plainEnvironment ["x", "y"] ["1"]).Of pairedStore ∧ pairedStore.AccountsAccepted ∧
      pairedStore.AccountsNormal ∧
      ∃ outcomes : Outcomes, outcomes.Of ∧ ∃ after,
        (deleteGroup "a" 1 fun _ => 1).serve (plainEnvironment ["x", "y"] ["1"]) outcomes
          ⟨pairedStore, pairedStore, fun _ => none⟩ =
            (after, .conflict "資料已被其他操作更新，請重新整理後再試") ∧
        pairedStore.userAt "x" 0 = some (plainUser "u" "1" "a") ∧ after.store.userAt "x" 0 = none := by
  obtain ⟨writer, writes⟩ := exists_saver .written
  have tags : Enumerates ["x", "y"] pairedStore.inbounds :=
    @enumerates_lookup _ [("x", pairedRecord 1), ("y", pairedRecord 2)] (by decide)
  have accounts : Enumerates ["1"] pairedStore.accounts :=
    @enumerates_lookup _ [("1", plainAccount "1" "a")] (by decide)
  -- The first record is replaced before the second revision is looked at.
  obtain ⟨left, prepared, lost⟩ : ∃ left,
      prepareDeleteGroup (plainEnvironment ["x", "y"] ["1"]) pairedStore "a" 1 (fun _ => 1) =
        .error (.conflict "資料已被其他操作更新，請重新整理後再試", left) ∧ left.userAt "x" 0 = none := by
    simp only [prepareDeleteGroup, pairedStore_tags]
    exact ⟨_, rfl, rfl⟩
  refine ⟨⟨tags, accounts, by decide, by decide +kernel⟩, pairedStore_lone.accepted, pairedStore_lone.normal,
    outcomesWith none writer writer writer, outcomesWith_of writes writes,
    ⟨left, pairedStore, fun _ => none⟩, ?_, rfl, lost⟩
  simp only [serve, prepare, prepared, Except.map]

end SideraCore.Dashboard
