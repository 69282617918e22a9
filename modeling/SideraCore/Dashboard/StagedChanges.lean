import SideraCore.Dashboard.Rollback

/-!
Owns the stores that are saved while a change of users is committed or undone. A
prepared change is staged: it keeps the accounts acceptable and leaves at most one
account with users that are not named after it. A commit that fails after the save
puts the records back while the accounts are still those of the save.
-/

namespace SideraCore.Dashboard

open Dashboard.Store Mutation Function

section Alike

variable {left right first second : Store} {tag : String} {user : User}

theorem users_of_unapplied (same : left.unapplied.inbounds tag = right.unapplied.inbounds tag)
    {record : InboundRecord} (present : left.inbounds tag = some record) :
    ∃ found, right.inbounds tag = some found ∧ found.users = record.users := by
  simp only [unapplied, present, Option.map_some] at same
  obtain ⟨found, presentRight, equal⟩ := Option.map_eq_some_iff.1 same.symm
  have users := congrArg InboundRecord.users equal
  exact ⟨found, presentRight, users⟩

theorem userAt_of_unapplied (same : left.unapplied.inbounds tag = right.unapplied.inbounds tag)
    {index : Nat} (found : left.userAt tag index = some user) : right.userAt tag index = some user := by
  obtain ⟨record, present, isUser⟩ := Option.bind_eq_some_iff.1 found
  obtain ⟨other, presentOther, users⟩ := users_of_unapplied same present
  simp only [userAt, presentOther, Option.bind_some, users]
  exact isUser

theorem has_of_unapplied (same : left.unapplied.inbounds = right.unapplied.inbounds)
    (has : left.Has user) : right.Has user := by
  obtain ⟨tag, record, present, member⟩ := has
  obtain ⟨found, presentRight, users⟩ := users_of_unapplied (congrFun same tag) present
  exact ⟨tag, found, presentRight, users ▸ member⟩

theorem has_of_either {tags : List String}
    (inside : ∀ tag ∈ tags, left.unapplied.inbounds tag = first.unapplied.inbounds tag)
    (outside : ∀ tag, tag ∉ tags → left.unapplied.inbounds tag = second.unapplied.inbounds tag)
    (has : left.Has user) : first.Has user ∨ second.Has user := by
  obtain ⟨tag, record, present, member⟩ := has
  by_cases affected : tag ∈ tags
  · obtain ⟨found, presentFound, users⟩ := users_of_unapplied (inside tag affected) present
    exact .inl ⟨tag, found, presentFound, users ▸ member⟩
  · obtain ⟨found, presentFound, users⟩ := users_of_unapplied (outside tag affected) present
    exact .inr ⟨tag, found, presentFound, users ▸ member⟩

theorem named_of_accounts (same : left.accounts = right.accounts) {identifier name : String} :
    left.Named identifier name ↔ right.Named identifier name := by
  unfold Named
  rw [same]

end Alike

section Single

variable {managers : GoMap ManagedRuntime} {store : Store} {mutation : Mutation}
  (fits : mutation.Fits managers store)
include fits

theorem Mutation.Fits.has :
    ∃ odd : User, ∀ user, mutation.changed.Has user → mutation.before.Has user ∨
      (user = odd ∧ odd.name ≠ "" ∧
        (odd.accountID = "" ∨ ∃ known, mutation.before.Has known ∧ known.accountID = odd.accountID)) := by
  obtain ⟨odd, users⟩ := fits.users
  refine ⟨odd, ?_⟩
  rintro user ⟨tag, record, present, member⟩
  by_cases same : tag = mutation.tag
  · subst same
    simp only [changed, update_self, Option.some.injEq] at present
    subst present
    rcases users user member with old | ⟨isOdd, named, assigned⟩
    · exact .inl ⟨mutation.tag, mutation.previous, fits.previous, old⟩
    · refine .inr ⟨isOdd, named, assigned.imp_right ?_⟩
      rintro ⟨known, isIn, sameAccount⟩
      exact ⟨known, ⟨mutation.tag, mutation.previous, fits.previous, isIn⟩, sameAccount⟩
  · simp only [changed, update_of_ne same] at present
    exact .inl ⟨tag, record, present, member⟩

variable (sound : mutation.before.Sound)
include sound

theorem Mutation.Fits.staged : mutation.changed.Staged mutation.before [mutation.tag] := by
  obtain ⟨odd, users⟩ := fits.has
  refine ⟨?_, ?_, ?_, rfl, ⟨sound.accepted.valid, ?_⟩, ⟨?_, odd.accountID, ?_⟩, ?_⟩
  · intro tag notIn
    rw [List.mem_singleton] at notIn
    simp only [changed, update_of_ne notIn]
  · intro tag member
    rw [List.mem_singleton.1 member, fits.previous]
    nofun
  · intro tag
    by_cases same : tag = mutation.tag
    · subst same
      simp only [changed, update_self, Option.map_some, fits.frame, marked,
        List.mem_singleton, if_true, fits.previous]
      rfl
    · simp only [changed, update_of_ne same, marked, List.mem_singleton, if_neg same]
  · intro user has assigned
    rcases users user has with old | ⟨rfl, -, empty | ⟨known, hasKnown, same⟩⟩
    · exact sound.accepted.known user old assigned
    · exact absurd empty assigned
    · rw [← same] at assigned ⊢
      exact sound.accepted.known known hasKnown assigned
  · intro user has
    rcases users user has with old | ⟨rfl, named, -⟩
    · exact sound.name_ne old
    · exact named
  · intro user has
    rcases users user has with old | ⟨rfl, -⟩
    · exact .inl (sound.normal.assigned user old)
    · exact .inr rfl
  · refine sound.finite.of_similar sound.room sound.finite.accounts ?_ ⟨odd.name, fun user has => ?_⟩ rfl
    · intro tag
      by_cases same : tag = mutation.tag
      · subst same
        simp [changed, fits.previous]
      · simp only [changed, update_of_ne same]
    · rcases users user has with old | ⟨rfl, -⟩
      · exact .inr ⟨user, old, rfl⟩
      · exact .inl rfl

theorem Mutation.Fits.save_outside {replace : ReplaceUsers} {context : SaveContext} {applied : Store}
    (same : applied.unapplied = mutation.changed.unapplied) (of : context.Of applied) (tag : String)
    (notIn : tag ∉ [mutation.tag]) :
    (saveStore replace context applied).store.unapplied.inbounds tag =
      mutation.before.unapplied.inbounds tag := by
  have staged := (fits.staged sound).of_unapplied same
  refine staged.save_outside of (fun other notOther index user found => ?_) tag notIn
  have foundBefore := userAt_of_unapplied (staged.outside other notOther) found
  unfold Named
  rw [accounts_of_core (core_of_unapplied same)]
  exact sound.normal.assigned user (has_iff_userAt.2 ⟨other, index, foundBefore⟩)

end Single

/-! ### Stores whose users are all named after their accounts -/

section Named

variable {store result : Store} {accounts : GoMap Account}

theorem Store.not_moves (all : ∀ user, store.Has user → store.Named user.accountID user.name)
    (identifier name : String) : ¬store.Moves identifier name := by
  intro moves
  obtain ⟨user, has, rfl, rfl⟩ := moves.refers
  exact moves.not_named (all user has)

theorem Store.namedAfter_iff {identifier name : String}
    (stays : ∀ second, ¬store.Moves identifier second) :
    store.NamedAfter identifier name ↔ store.Named identifier name := by
  constructor
  · rintro ⟨account, present, ⟨moves, -⟩ | ⟨named, -⟩⟩
    · exact absurd moves (stays name)
    · exact ⟨account, present, named⟩
  · rintro ⟨account, present, named⟩
    exact ⟨account, present, .inr ⟨named, fun second moves => absurd moves (stays second)⟩⟩

variable (outcome : store.Outcome result accounts)
include outcome

variable {tag : String} {index : Nat} {user : User}

theorem Store.Outcome.userAt_of_named (found : store.userAt tag index = some user)
    (named : store.Named user.accountID user.name) :
    result.userAt tag index = some user :=
  outcome.userAt_of_namedAfter found
    (namedAfter_of_named (has_iff_userAt.2 ⟨tag, index, found⟩) named)

theorem Store.Outcome.has_of_named (has : store.Has user) (named : store.Named user.accountID user.name) :
    result.Has user := by
  obtain ⟨tag, index, found⟩ := has_iff_userAt.1 has
  exact has_iff_userAt.2 ⟨tag, index, outcome.userAt_of_named found named⟩

theorem Store.Outcome.user_before {given : User} (found : result.userAt tag index = some given) :
    ∃ user, store.userAt tag index = some user ∧ given = { user with accountID := given.accountID } := by
  cases before : store.userAt tag index with
  | none =>
      rw [(outcome.places tag index).2 before] at found
      cases found
  | some user =>
      obtain ⟨identifier, account, after, -, -⟩ := outcome.users tag index user before
      rw [after, Option.some.injEq] at found
      exact ⟨user, rfl, by rw [← found]⟩

theorem Store.Outcome.named_of_stays (stays : ∀ identifier name, ¬store.Moves identifier name)
    {other called : String} (known : store.accounts other ≠ none) (named : result.Named other called) :
    store.Named other called := by
  obtain ⟨account, present, isCalled⟩ := named
  have after := (outcome.named other known called).1 ⟨account, (outcome.of_accounts present).1, isCalled⟩
  exact (namedAfter_iff (stays other)).1 after

end Named

/-- The users of the account have its name. -/
def GroupChange.Whole (change : GroupChange) (identifier name : String) : Prop :=
  ∀ user, change.changed.Has user → user.accountID = identifier → user.name = name

def GroupChange.Orphans (change : GroupChange) : Prop :=
  ∃ user, change.before.Has user ∧
    ∀ other, change.changed.Has other → other.accountID ≠ user.accountID

namespace GroupChange.Fits

section Group

variable {managers : GoMap ManagedRuntime} {store undone : Store} {change : GroupChange}
  {members : GoMap User} {identifier name : String}
  (fits : change.Fits managers store members identifier name)
include fits

variable {user : User} {other called : String}

theorem has (has : change.changed.Has user) :
    change.before.Has user ∨ (user.accountID = identifier ∧ user.name = name) := by
  obtain ⟨tag, updated, present, member⟩ := has
  by_cases affected : tag ∈ change.tags
  · obtain ⟨record, presentBefore⟩ := Option.ne_none_iff_exists'.1 (fits.present tag affected)
    obtain ⟨found, presentAfter, -, users, -⟩ := fits.inside tag affected record presentBefore
    cases present.symm.trans presentAfter
    exact (users user member).imp_left fun old => ⟨tag, record, presentBefore, old.1⟩
  · obtain ⟨record, presentBefore, users⟩ := users_of_unapplied (fits.outside tag affected) present
    exact .inl ⟨tag, record, presentBefore, users ▸ member⟩

theorem of_unapplied {applied : Store}
    (same : applied.unapplied = change.changed.unapplied) :
    ({ change with changed := applied } : GroupChange).Fits managers store members identifier name := by
  have core := core_of_unapplied same
  have records := congrArg inbounds same
  have accounts := accounts_of_core core
  refine ⟨fits.core, fits.nonempty, fits.managed, fits.present, fits.affected,
    fun tag notIn => (congrFun records tag).trans (fits.outside tag notIn), ?_,
    (servers_of_core core).trans fits.servers, ?_, ?_, ?_, fits.alone, ?_⟩
  · intro tag affected record present
    obtain ⟨updated, presentAfter, frame, users, kept⟩ := fits.inside tag affected record present
    obtain ⟨found, presentFound, sameUsers⟩ := users_of_unapplied (congrFun records tag).symm presentAfter
    refine ⟨found, presentFound, ?_, sameUsers ▸ users, sameUsers ▸ kept⟩
    have frames := frames_of_core core tag
    rw [presentFound, presentAfter, Option.map_some, Option.map_some, Option.some.injEq] at frames
    rw [frames, frame]
  · intro other different
    exact (congrFun accounts other).trans (fits.accounts other different)
  · rw [show ({ change with changed := applied } : GroupChange).changed.accounts = _ from accounts]
    exact fits.valid
  · unfold Named
    rw [show ({ change with changed := applied } : GroupChange).changed.accounts = _ from accounts]
    exact fits.account
  · refine fits.joined.imp_right ?_
    rintro ⟨user, has, joins⟩
    exact ⟨user, has_of_unapplied records.symm has, joins⟩

theorem named_of_ne (different : other ≠ identifier) :
    change.changed.Named other called ↔ change.before.Named other called := by
  unfold Named
  rw [fits.accounts other different]

theorem name_ne : name ≠ "" := by
  obtain ⟨account, present, named⟩ := fits.account
  rw [← named]
  exact fits.valid.name_ne present

variable (sound : change.before.Sound)
include sound

theorem named_other (has : change.changed.Has user) (different : user.accountID ≠ identifier) :
    change.changed.Named user.accountID user.name := by
  rcases fits.has has with old | ⟨isIdentifier, -⟩
  · exact (fits.named_of_ne different).2 (sound.normal.assigned user old)
  · exact absurd isIdentifier different

theorem named (has : change.changed.Has user)
    (rightly : user.accountID = identifier → user.name = name) :
    change.changed.Named user.accountID user.name := by
  by_cases same : user.accountID = identifier
  · rw [same, rightly same]
    exact fits.account
  · exact fits.named_other sound has same

theorem nonempty_name (has : change.changed.Has user) :
    user.name ≠ "" := by
  rcases fits.has has with old | ⟨-, isName⟩
  · exact sound.name_ne old
  · rw [isName]
    exact fits.name_ne

theorem staged : change.changed.Staged change.before change.tags := by
  refine ⟨fits.outside, fits.present, ?_, fits.servers,
    ⟨fits.valid, ?_⟩, ⟨fun user => fits.nonempty_name sound, identifier, ?_⟩, ?_⟩
  · intro tag
    by_cases affected : tag ∈ change.tags
    · obtain ⟨record, present⟩ := Option.ne_none_iff_exists'.1 (fits.present tag affected)
      obtain ⟨updated, presentAfter, frame, -⟩ := fits.inside tag affected record present
      simp only [presentAfter, Option.map_some, frame, marked, if_pos affected, present]
      rfl
    · rw [marked, if_neg affected]
      exact frames_of_unapplied (fits.outside tag affected)
  · intro user has assigned
    by_cases same : user.accountID = identifier
    · rw [same]
      exact fits.account.known
    · exact (fits.named_other sound has same).known
  · intro user has
    by_cases same : user.accountID = identifier
    · exact .inr same
    · exact .inl (fits.named_other sound has same)
  · obtain ⟨keys, listed⟩ := sound.finite.accounts
    refine sound.finite.of_similar sound.room (listed.of_agree fits.accounts) ?_
      ⟨name, fun user has => ?_⟩ fits.servers
    · intro tag
      by_cases affected : tag ∈ change.tags
      · obtain ⟨record, present⟩ := Option.ne_none_iff_exists'.1 (fits.present tag affected)
        obtain ⟨updated, presentAfter, -⟩ := fits.inside tag affected record present
        rw [presentAfter, present]
        simp
      · rw [← Option.map_eq_none_iff, fits.outside tag affected, Option.map_eq_none_iff]
    · rcases fits.has has with old | ⟨-, isName⟩
      · exact .inr ⟨user, old, rfl⟩
      · exact .inl isName

/-! ### Records put back under the accounts of a save -/

variable {result : Store} {accounts : GoMap Account} (outcome : change.changed.Outcome result accounts)
include outcome

theorem named_saved (whole : change.Whole identifier name)
    (named : result.Named other called) : change.changed.Named other called := by
  have all : ∀ user, change.changed.Has user → change.changed.Named user.accountID user.name :=
    fun user has => fits.named sound has (whole user has)
  refine outcome.named_of_stays (not_moves all) ?_ named
  -- The account has a user, who was there before with the same account.
  obtain ⟨account, present, -⟩ := named
  obtain ⟨-, user, has, rfl⟩ := outcome.of_accounts present
  obtain ⟨tag, index, found⟩ := has_iff_userAt.1 has
  obtain ⟨earlier, foundEarlier, -⟩ := outcome.user_before found
  have hasEarlier : change.changed.Has earlier := has_iff_userAt.2 ⟨tag, index, foundEarlier⟩
  have unchanged := outcome.userAt_of_named foundEarlier (all earlier hasEarlier)
  rw [found, Option.some.injEq] at unchanged
  exact unchanged ▸ (all earlier hasEarlier).known

variable (sameAccounts : undone.accounts = result.accounts)
include sameAccounts

theorem undone_named (stays : ∀ other second, ¬change.changed.Moves other second)
    (old : change.before.Has user) (different : user.accountID ≠ identifier)
    (known : undone.accounts user.accountID ≠ none) : undone.Named user.accountID user.name := by
  obtain ⟨account, present⟩ := Option.ne_none_iff_exists'.1 known
  have inChange := (fits.named_of_ne different).2 (sound.normal.assigned user old)
  have saved := outcome.named_of_stays stays inChange.known ⟨account, sameAccounts ▸ present, rfl⟩
  exact ⟨account, present, saved.unique inChange⟩

/-- The old records under the accounts of the save: if accepted, every account keeps its
users or takes its old name back. -/
theorem undone_namedAfter (whole : change.Whole identifier name)
    (inbounds : undone.unapplied.inbounds = change.before.unapplied.inbounds)
    (acceptedUndone : undone.AccountsAccepted) :
    undone.OneAstray ∧ ∀ user, undone.Has user → undone.NamedAfter user.accountID user.name := by
  have before {user : User} (has : undone.Has user) : change.before.Has user :=
    has_of_unapplied inbounds has
  -- What is named in the undone store is named in the change.
  have named {other called : String} (isNamed : undone.Named other called) :
      change.changed.Named other called :=
    fits.named_saved sound outcome whole ((named_of_accounts sameAccounts).1 isNamed)
  have known {user : User} (has : undone.Has user) : undone.accounts user.accountID ≠ none :=
    acceptedUndone.known user has (sound.identifier_ne (before has))
  have kept {user : User} (has : undone.Has user) (different : user.accountID ≠ identifier) :
      undone.Named user.accountID user.name :=
    fits.undone_named sound outcome sameAccounts
      (not_moves fun other hasOther => fits.named sound hasOther (whole other hasOther)) (before has)
      different (known has)
  refine ⟨⟨fun user has => sound.name_ne (before has), identifier, fun user has => ?_⟩,
    fun user has => ?_⟩
  · by_cases same : user.accountID = identifier
    · exact .inr same
    · exact .inl (kept has same)
  · by_cases same : user.accountID = identifier
    · obtain ⟨found, present⟩ := Option.ne_none_iff_exists'.1 (known has)
      have isName : found.name = name := by
        rw [same] at present
        exact (named ⟨found, present, rfl⟩).unique fits.account
      by_cases unchanged : user.name = name
      · exact namedAfter_of_named has ⟨found, present, by rw [isName, unchanged]⟩
      · refine ⟨found, present, .inl ⟨⟨⟨found, present, fun equal => unchanged (by rw [← equal, isName])⟩,
          ⟨user, has, rfl, rfl⟩, ?_⟩, ?_⟩⟩
        · rintro other ⟨second, hasSecond, sameAccount, rfl⟩
          have namedSecond := sound.normal.assigned second (before hasSecond)
          rw [sameAccount] at namedSecond
          exact namedSecond.unique (sound.normal.assigned user (before has))
        · intro other taken
          have inChange := named taken
          by_cases isIdentifier : other = identifier
          · rw [isIdentifier] at inChange
            exact unchanged (inChange.unique fits.account)
          · have inBefore := (fits.named_of_ne isIdentifier).1 inChange
            have owner := sound.normal.assigned user (before has)
            exact isIdentifier ((sound.normal.distinct other user.accountID user.name inBefore owner).trans
              same)
    · exact namedAfter_of_named has (kept has same)

/-- A change that takes the last user of an account: the old records are refused after
the save. -/
theorem undone_refused (orphans : change.Orphans)
    (inbounds : undone.unapplied.inbounds = change.before.unapplied.inbounds) :
    ¬undone.AccountsAccepted := by
  intro acceptedUndone
  obtain ⟨user, has, orphaned⟩ := orphans
  have presentUndone := acceptedUndone.known user (has_of_unapplied inbounds.symm has)
    (sound.identifier_ne has)
  rw [sameAccounts] at presentUndone
  obtain ⟨account, present⟩ := Option.ne_none_iff_exists'.1 presentUndone
  -- Whoever refers to the account after the save has its name.
  obtain ⟨presentAccounts, last, hasLast, sameAccount⟩ := outcome.of_accounts present
  obtain ⟨tag, index, found⟩ := has_iff_userAt.1 hasLast
  obtain ⟨earlier, foundEarlier, isEarlier⟩ := outcome.user_before found
  have hasEarlier : change.changed.Has earlier := has_iff_userAt.2 ⟨tag, index, foundEarlier⟩
  have sameName : account.name = earlier.name := by
    have namedLast := outcome.normal.assigned last hasLast
    rw [sameAccount, isEarlier] at namedLast
    exact Named.unique ⟨account, present, rfl⟩ namedLast
  have inChange : change.changed.accounts user.accountID ≠ none := by
    by_cases same : user.accountID = identifier
    · rw [same]
      exact fits.account.known
    · rw [fits.accounts _ same]
      exact (sound.normal.assigned user has).known
  have stays (second : String) : ¬change.changed.Moves user.accountID second := by
    intro moves
    obtain ⟨other, hasOther, isOrphaned, -⟩ := moves.refers
    exact orphaned other hasOther isOrphaned
  have namedChanged : change.changed.Named user.accountID earlier.name :=
    (namedAfter_iff stays).1
      ((outcome.named _ inChange earlier.name).1 ⟨account, presentAccounts, sameName⟩)
  apply orphaned earlier hasEarlier
  by_cases same : user.accountID = identifier
  · rw [same] at namedChanged ⊢
    have isName := namedChanged.unique fits.account
    rcases fits.has hasEarlier with old | ⟨isIdentifier, -⟩
    · by_contra different
      exact fits.alone _ different (isName ▸ sound.normal.assigned earlier old)
    · exact isIdentifier
  · have namedBefore := (fits.named_of_ne same).1 namedChanged
    rcases fits.has hasEarlier with old | ⟨-, isName⟩
    · exact sound.normal.distinct _ _ _ (sound.normal.assigned earlier old) namedBefore
    · rw [isName] at namedBefore
      exact absurd namedBefore (fits.alone _ same)

end Group

/-! ### Changes that split an account -/

section Split

variable {managers : GoMap ManagedRuntime} {store undone : Store} {change : GroupChange}
  {members : GoMap User} {identifier name : String} {left : User}
  (fits : change.Fits managers store members identifier name) (sound : change.before.Sound)
  (sameAccount : left.accountID = identifier) (misnamed : left.name ≠ name)
include fits sound sameAccount misnamed

theorem left_named (hasLeft : change.changed.Has left) :
    change.before.Has left ∧ change.before.Named identifier left.name := by
  have old : change.before.Has left := (fits.has hasLeft).resolve_right fun new => misnamed new.2
  exact ⟨old, sameAccount ▸ sound.normal.assigned left old⟩

theorem stays (hasLeft : change.changed.Has left) (other second : String) :
    ¬change.changed.Moves other second := by
  intro moves
  obtain ⟨user, has, rfl, rfl⟩ := moves.refers
  have isIdentifier : user.accountID = identifier := by
    by_contra different
    exact moves.not_named (fits.named_other sound has different)
  -- The account has a user who has its name, and one who has not.
  rcases fits.joined with named | ⟨joined, hasJoined, joins, isName⟩
  · exact misnamed ((fits.left_named sound sameAccount misnamed hasLeft).2.unique named)
  · have first := moves.sole left.name ⟨left, hasLeft, by rw [sameAccount, isIdentifier], rfl⟩
    have second := moves.sole name ⟨joined, hasJoined, by rw [joins, isIdentifier], isName⟩
    exact misnamed (first.trans second.symm)

variable {result : Store} {accounts : GoMap Account} (outcome : change.changed.Outcome result accounts)
include outcome

variable {tag : String} {index : Nat}

theorem split_account (found : change.changed.userAt tag index = some left) :
    ∃ fresh, result.userAt tag index = some { left with accountID := fresh } ∧
      result.Named fresh left.name ∧ change.before.accounts fresh = none ∧ fresh ≠ "" := by
  have hasLeft : change.changed.Has left := has_iff_userAt.2 ⟨tag, index, found⟩
  obtain ⟨old, oldName⟩ := fits.left_named sound sameAccount misnamed hasLeft
  obtain ⟨fresh, account, assigned, present, isNamed⟩ := outcome.users tag index left found
  have used : result.Named fresh left.name :=
    outcome.normal.assigned _ (has_iff_userAt.2 ⟨tag, index, assigned⟩)
  have unknown : change.changed.accounts fresh = none := by
    by_contra known
    have named := outcome.named_of_stays (fits.stays sound sameAccount misnamed hasLeft) known used
    by_cases same : fresh = identifier
    · rw [same] at named
      exact misnamed (named.unique fits.account)
    · exact same (sound.normal.distinct _ _ _ ((fits.named_of_ne same).1 named) oldName)
  have different : fresh ≠ identifier := by
    rintro rfl
    exact fits.account.known unknown
  refine ⟨fresh, assigned, used, ?_, ?_⟩
  · rw [← fits.accounts fresh different, unknown]
  · exact (Account.check_eq_ok_iff.1 (outcome.valid fresh account present
      (isNamed ▸ sound.name_ne old))).1

variable (sameAccounts : undone.accounts = result.accounts)
include sameAccounts

variable {replace : ReplaceUsers} {context : SaveContext} (of : context.Of undone)
include of

/-- A user left on an inbound outside the change stays with the new account. -/
theorem undone_outside (inside : ∀ tag ∈ change.tags,
      undone.unapplied.inbounds tag = change.before.unapplied.inbounds tag)
    (outside : ∀ tag, tag ∉ change.tags →
      undone.unapplied.inbounds tag = result.unapplied.inbounds tag)
    (found : change.changed.userAt tag index = some left) (notIn : tag ∉ change.tags) :
    ∃ fresh, (saveStore replace context undone).store.accountAt tag index = some fresh ∧
      change.before.accounts fresh = none ∧ fresh ≠ "" := by
  have hasLeft : change.changed.Has left := has_iff_userAt.2 ⟨tag, index, found⟩
  have stays := fits.stays sound sameAccount misnamed hasLeft
  obtain ⟨fresh, assigned, named, unknown, nonempty⟩ :=
    fits.split_account sound sameAccount misnamed outcome found
  have here : undone.userAt tag index = some { left with accountID := fresh } :=
    userAt_of_unapplied (outside tag notIn).symm assigned
  have namedHere := (named_of_accounts sameAccounts).2 named
  refine ⟨fresh, ?_, unknown, nonempty⟩
  by_cases acceptedUndone : undone.AccountsAccepted
  · have astray : undone.OneAstray := by
      refine ⟨fun user has => ?_, identifier, fun user has => ?_⟩
      · rcases has_of_either inside outside has with old | new
        · exact sound.name_ne old
        · obtain ⟨⟨earlier, hasEarlier, sameName⟩, -⟩ := outcome.has new
          rw [sameName]
          exact fits.nonempty_name sound hasEarlier
      · rcases has_of_either inside outside has with old | new
        · by_cases same : user.accountID = identifier
          · exact .inr same
          · exact .inl (fits.undone_named sound outcome sameAccounts stays old same
              (acceptedUndone.known user has (sound.identifier_ne old)))
        · exact .inl ((named_of_accounts sameAccounts).2 (outcome.normal.assigned user new))
    obtain ⟨last, lastAccounts, lastOutcome, -, inbounds⟩ :=
      @saveStore_outcome replace context undone of acceptedUndone astray.namesApart
    have kept := lastOutcome.userAt_of_named here namedHere
    simp only [accountAt, userAt, inbounds] at kept ⊢
    rw [kept]
    rfl
  · obtain ⟨error, saved⟩ := saveStore_of_refused replace of acceptedUndone
    rw [saved, accountAt, here]
    rfl

/-- A user left on an inbound of the change moves to the new account, unless the records
are refused. -/
theorem undone_inside (apart : change.changed.NamesApart)
    (inbounds : undone.unapplied.inbounds = change.before.unapplied.inbounds)
    (hasLeft : change.changed.Has left) (noOrphans : ¬change.Orphans) :
    ∃ tag index fresh, (saveStore replace context undone).store.accountAt tag index = some fresh ∧
      change.before.accounts fresh = none ∧ fresh ≠ "" := by
  have stays := fits.stays sound sameAccount misnamed hasLeft
  obtain ⟨place, position, foundLeft⟩ := has_iff_userAt.1 hasLeft
  obtain ⟨fresh, -, named, unknown, nonempty⟩ :=
    fits.split_account sound sameAccount misnamed outcome foundLeft
  obtain ⟨old, oldName⟩ := fits.left_named sound sameAccount misnamed hasLeft
  have before {user : User} (has : undone.Has user) : change.before.Has user :=
    has_of_unapplied inbounds has
  -- Every account of an old record has kept a user through the save.
  have keptUser {user : User} (has : change.changed.Has user)
      (isNamed : change.changed.Named user.accountID user.name) :
      result.accounts user.accountID ≠ none :=
    (outcome.normal.assigned user (outcome.has_of_named has isNamed)).known
  have known {user : User} (isOld : change.before.Has user) : result.accounts user.accountID ≠ none := by
    by_cases same : user.accountID = identifier
    · rcases fits.joined with isNamed | ⟨joined, hasJoined, joins, isName⟩
      · exact absurd (oldName.unique isNamed) misnamed
      · rw [same, ← joins]
        apply keptUser hasJoined
        rw [joins, isName]
        exact fits.account
    · obtain ⟨other, hasOther, sameOther⟩ : ∃ other, change.changed.Has other ∧
          other.accountID = user.accountID := by
        by_contra none
        exact noOrphans ⟨user, isOld, fun other hasOther same => none ⟨other, hasOther, same⟩⟩
      rw [← sameOther] at same ⊢
      exact keptUser hasOther (fits.named_other sound hasOther same)
  have acceptedUndone : undone.AccountsAccepted := by
    refine ⟨by rw [sameAccounts]; exact outcome.validAccounts apart, fun user has _ => ?_⟩
    rw [sameAccounts]
    exact known (before has)
  have astray : undone.OneAstray := by
    refine ⟨fun user has => sound.name_ne (before has), identifier, fun user has => ?_⟩
    by_cases same : user.accountID = identifier
    · exact .inr same
    · left
      refine fits.undone_named sound outcome sameAccounts stays (before has) same ?_
      rw [sameAccounts]
      exact known (before has)
  obtain ⟨last, lastAccounts, lastOutcome, -, lastInbounds⟩ :=
    @saveStore_outcome replace context undone of acceptedUndone astray.namesApart
  obtain ⟨tag, index, found⟩ := has_iff_userAt.1 (has_of_unapplied inbounds.symm old)
  obtain ⟨target, account, assigned, present, isNamed⟩ := lastOutcome.users tag index left found
  -- Nobody refers to the new account, so it keeps its name and takes the user.
  have unreferred (second : String) : ¬undone.Moves fresh second := by
    intro moves
    obtain ⟨user, has, isFresh, -⟩ := moves.refers
    exact (sound.normal.assigned user (before has)).known (isFresh ▸ unknown)
  have namedUndone := (named_of_accounts sameAccounts).2 named
  obtain ⟨held, presentHeld, isHeld⟩ := (lastOutcome.named fresh namedUndone.known left.name).2
    ((namedAfter_iff unreferred).2 namedUndone)
  have isFresh := lastOutcome.distinct target fresh account held present presentHeld
    (isNamed.trans isHeld.symm)
  subst isFresh
  refine ⟨tag, index, target, ?_, unknown, nonempty⟩
  simp only [accountAt, userAt, lastInbounds] at assigned ⊢
  rw [assigned]
  rfl

end Split

end GroupChange.Fits

end SideraCore.Dashboard
