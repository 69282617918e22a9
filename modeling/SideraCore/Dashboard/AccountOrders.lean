import SideraCore.Dashboard.Accounts

/-!
Owns what `ensureAdminAccounts` makes of a store over all iteration orders of its
maps: the account invariant of a store, the exact condition on the names of users
and accounts under which every order establishes it, and the order-independence
of the result.
-/

namespace SideraCore.Dashboard

open Control Function Dashboard.Store

namespace Store

variable (store : Store)

def Refers (identifier name : String) : Prop :=
  ∃ user, store.Has user ∧ user.accountID = identifier ∧ user.name = name

def Named (identifier name : String) : Prop :=
  ∃ account, store.accounts identifier = some account ∧ account.name = name

def Free (name : String) : Prop := ∀ identifier, ¬store.Named identifier name

/-- All users that refer to the account have one name, and it is another than the
account's. -/
structure Moves (identifier name : String) : Prop where
  misnamed : ∃ account, store.accounts identifier = some account ∧ account.name ≠ name
  refers : store.Refers identifier name
  sole : ∀ other, store.Refers identifier other → other = name

structure AccountsNormal : Prop where
  assigned : ∀ user, store.Has user → store.Named user.accountID user.name
  distinct : ∀ identifier other name, store.Named identifier name → store.Named other name →
    identifier = other
  referenced : ∀ identifier, store.accounts identifier ≠ none →
    ∃ user, store.Has user ∧ user.accountID = identifier

/-- Every user has a name; an account whose users share a new free name is the only one
to take it, and its old name is the new name of no other account's users. -/
structure NamesApart : Prop where
  named : ∀ user, store.Has user → user.name ≠ ""
  apart : ∀ identifier other account name second, store.accounts identifier = some account →
    store.Moves identifier name → store.Free name → store.Moves other second →
    other ≠ identifier → second ≠ account.name ∧ second ≠ name

end Store

section Named

variable {store : Store} {identifier name other : String}

theorem Store.Named.known (named : store.Named identifier name) : store.accounts identifier ≠ none := by
  obtain ⟨account, present, -⟩ := named
  simp [present]

theorem Store.Named.unique (named : store.Named identifier name)
    (second : store.Named identifier other) : name = other := by
  obtain ⟨account, present, rfl⟩ := named
  obtain ⟨found, presentFound, rfl⟩ := second
  rw [present, Option.some.injEq] at presentFound
  rw [presentFound]

theorem Store.Moves.not_named (moves : store.Moves identifier name) : ¬store.Named identifier name := by
  intro named
  obtain ⟨account, present, misnamed⟩ := moves.misnamed
  exact misnamed (Named.unique ⟨account, present, rfl⟩ named)

theorem Store.Moves.referred (moves : store.Moves identifier name)
    (valid : ValidAccounts store.accounts) :
    identifier ≠ "" ∧ ∃ user, store.Has user ∧ user.accountID = identifier := by
  obtain ⟨account, present, -⟩ := moves.misnamed
  obtain ⟨user, has, refers, -⟩ := moves.refers
  exact ⟨valid.identifier_ne present, user, has, refers⟩

end Named

section References

variable {store : Store} {tags : List String}

theorem soleName_references (order : Enumerates tags store.inbounds) {identifier name : String} :
    soleName (referenceNames (store.usersIn tags) identifier) = some name ↔
      store.Refers identifier name ∧ ∀ other, store.Refers identifier other → other = name := by
  have mem {other : String} :
      other ∈ referenceNames (store.usersIn tags) identifier ↔ store.Refers identifier other := by
    simp only [mem_referenceNames, mem_usersIn order, Refers]
  rw [soleName_eq_some_iff, mem]
  simp only [mem]

end References

/-! ### Frames of the loop over the references -/

section Frames

variable {users : List User} {now : Int} {working : Working} {identifier other : String}
  {order : List String}

/-- What the loop leaves alone when it visits the references. -/
structure Working.Settles (working : Working) (order : List String) (after : Working) : Prop where
  others : ∀ other ∉ order, after.accounts other = working.accounts other ∧
    after.assign other = working.assign other
  known : ∀ other, after.accounts other = none ↔ working.accounts other = none
  indexes : Indexes working.byName working.accounts → Indexes after.byName after.accounts

theorem settleReference_settles :
    working.Settles [identifier] (settleReference users now working identifier) := by
  have stays : working.Settles [identifier] working := ⟨fun _ _ => ⟨rfl, rfl⟩, fun _ => Iff.rfl, id⟩
  have assigned (assign : String → String) : working.Settles [identifier]
      { working with assign := update working.assign identifier assign } :=
    ⟨fun _ absent => ⟨rfl, update_of_ne (List.ne_of_not_mem_cons absent) ..⟩,
      fun _ => Iff.rfl, id⟩
  unfold settleReference
  cases present : working.accounts identifier with
  | none => exact stays
  | some account =>
      cases soleName (referenceNames users identifier) with
      | none => exact assigned _
      | some name =>
          dsimp only
          split_ifs
          · exact stays
          · cases named : working.byName name with
            | none =>
                refine ⟨fun other absent => ⟨update_of_ne (List.ne_of_not_mem_cons absent) ..,
                  rfl⟩, fun other => ?_, fun indexed => indexed.rename present named now⟩
                by_cases same : other = identifier
                · simp [same, present]
                · simp [same]
            | some existing => exact assigned _

theorem settleReferences_settles :
    working.Settles order (settleReferences users now working order) := by
  induction order generalizing working with
  | nil => exact ⟨fun _ _ => ⟨rfl, rfl⟩, fun _ => Iff.rfl, id⟩
  | cons identifier rest ih =>
      have first := @settleReference_settles users now working identifier
      have later := @ih (settleReference users now working identifier)
      refine ⟨fun other absent => ?_, fun other => (later.known other).trans (first.known other),
        fun indexed => later.indexes (first.indexes indexed)⟩
      rw [List.mem_cons, not_or, ← List.mem_singleton] at absent
      obtain ⟨accounts, assign⟩ := first.others other absent.1
      exact (later.others other absent.2).imp (·.trans accounts) (·.trans assign)

theorem settleReference_of_ne (different : other ≠ identifier) :
    (settleReference users now working identifier).accounts other = working.accounts other ∧
      (settleReference users now working identifier).assign other = working.assign other :=
  settleReference_settles.others other (by simpa using different)

end Frames

/-! ### What a successful normalization does, in any order -/

def Orders.settled (orders : Orders) (store : Store) (byName : GoMap String) (now : Int) : Working :=
  settleReferences (store.usersIn orders.collected) now
    ⟨store.accounts, byName, fun identifier _ => identifier⟩ orders.references

/-- What the last loop and the removal of unused accounts leave. -/
structure Store.Becomes (store : Store) (working : Working) (newID : Nat → Option String)
    (result : Store) (state : Assigning) : Prop where
  extension : state.Extends newID working.accounts
  inbounds : ∀ tag, result.inbounds tag = none ↔ store.inbounds tag = none
  records : ∀ tag record, store.inbounds tag = some record →
    ∃ users, result.inbounds tag = some { record with users := users }
  users : ∀ tag index user, store.userAt tag index = some user →
    ∃ identifier, result.userAt tag index = some { user with accountID := identifier } ∧
      working.Assigned state.accounts user identifier
  places : ∀ tag index, store.userAt tag index = none → result.userAt tag index = none
  used : ∀ identifier user, result.Has user → user.accountID = identifier →
    result.accounts identifier = state.accounts identifier
  unused : ∀ identifier, (∀ user, result.Has user → user.accountID ≠ identifier) →
    result.accounts identifier = none

theorem forall₂_getElem? {α β : Type} {relation : α → β → Prop} {left : List α} {right : List β}
    (related : List.Forall₂ relation left right) (index : Nat) :
    (left[index]? = none ∧ right[index]? = none) ∨
      ∃ first second, left[index]? = some first ∧ right[index]? = some second ∧
        relation first second := by
  induction related generalizing index with
  | nil => exact .inl ⟨by simp, by simp⟩
  | cons head _ ih =>
      cases index with
      | zero => exact .inr ⟨_, _, rfl, rfl, head⟩
      | succ index => simpa using ih index

section Ensured

variable {store result : Store} {orders : Orders} {newID : Nat → Option String} {now : Int}

theorem ensureAdminAccounts_eq_ok (of : orders.Of store) (fresh : FreshSource newID store.accounts)
    (succeeded : ensureAdminAccounts orders newID now store = .ok result) :
    ∃ byName state, ValidAccounts store.accounts ∧ Indexes byName store.accounts ∧
      (∀ user, store.Has user → user.accountID ≠ "" → store.accounts user.accountID ≠ none) ∧
      store.Becomes (orders.settled store byName now) newID result state := by
  obtain ⟨byName, indexed, succeeded⟩ := bind_eq_ok_iff.1 succeeded
  obtain ⟨_, checked, succeeded⟩ := bind_eq_ok_iff.1 succeeded
  obtain ⟨⟨state, inbounds⟩, assigned, succeeded⟩ := bind_eq_ok_iff.1 succeeded
  cases succeeded
  obtain ⟨valid, indexes⟩ := indexAccounts_ok of.accounts indexed
  have freshNow : FreshSource newID (orders.settled store byName now).accounts := by
    refine ⟨fun number identifier generated => ?_, fresh.once⟩
    obtain ⟨named, unused⟩ := fresh.unused number identifier generated
    exact ⟨named, (settleReferences_settles.known identifier).2 unused⟩
  obtain ⟨extension, -, others, visited⟩ := assignInbounds_spec freshNow of.assigned.nodup
    (Assigning.extends_start (settleReferences_settles.indexes indexes)) assigned
  have visit (tag : String) : (store.inbounds tag = none ∧ inbounds tag = none) ∨
      ∃ record users, store.inbounds tag = some record ∧
        inbounds tag = some { record with users := users } ∧
        List.Forall₂ ((orders.settled store byName now).AssignsTo state.accounts) record.users users := by
    by_cases member : tag ∈ orders.assigned
    · obtain ⟨record, present⟩ := Option.ne_none_iff_exists'.1 ((of.assigned.mem_iff tag).1 member)
      obtain ⟨users, found, related⟩ := visited tag member record present
      exact .inr ⟨record, users, present, found, related⟩
    · have absent := not_not.1 (mt (of.assigned.mem_iff tag).2 member)
      exact .inl ⟨absent, (others tag member).trans absent⟩
  have tags (tag : String) : inbounds tag = none ↔ store.inbounds tag = none := by
    rcases visit tag with ⟨absent, also⟩ | ⟨record, users, present, found, -⟩ <;> simp [*]
  have enumerated : Enumerates orders.assigned inbounds :=
    ⟨of.assigned.nodup, fun tag => (of.assigned.mem_iff tag).trans (not_congr (tags tag)).symm⟩
  have place (tag : String) (index : Nat) :
      (store.userAt tag index = none ∧ (inbounds tag).bind (·.users[index]?) = none) ∨
        ∃ user given, store.userAt tag index = some user ∧
          (inbounds tag).bind (·.users[index]?) = some given ∧
          (orders.settled store byName now).AssignsTo state.accounts user given := by
    rcases visit tag with ⟨absent, also⟩ | ⟨record, users, present, found, related⟩
    · simp [userAt, absent, also]
    · simpa [userAt, present, found] using forall₂_getElem? related index
  have isUsed {identifier : String} :
      identifier ∈ (({ store with inbounds := inbounds } : Store).usersIn orders.assigned).map
          (·.accountID) ↔
        ∃ user, ({ store with inbounds := inbounds } : Store).Has user ∧
          user.accountID = identifier := by
    rw [List.mem_map]
    exact exists_congr fun user => and_congr_left fun _ => mem_usersIn enumerated
  have records (tag : String) (record : InboundRecord) (present : store.inbounds tag = some record) :
      ∃ users, inbounds tag = some { record with users := users } := by
    rcases visit tag with ⟨absent, -⟩ | ⟨_, users, same, found, -⟩
    · simp [present] at absent
    · cases present.symm.trans same
      exact ⟨users, found⟩
  refine ⟨byName, state, valid, indexes, ?_, extension, tags, records, ?_, ?_, ?_, ?_⟩
  · intro user has
    exact checkReferences_eq_ok_iff.1 checked user ((mem_usersIn of.collected).2 has)
  · intro tag index user found
    rcases place tag index with ⟨absent, -⟩ | ⟨other, given, foundOther, at', related⟩
    · rw [found] at absent
      cases absent
    · rw [found] at foundOther
      cases foundOther
      exact ⟨given.accountID, by rw [← related.2]; exact at', related.1⟩
  · intro tag index absent
    rcases place tag index with ⟨-, at'⟩ | ⟨other, given, foundOther, -⟩
    · exact at'
    · rw [absent] at foundOther
      cases foundOther
  · intro identifier user has same
    exact if_pos (isUsed.2 ⟨user, has, same⟩)
  · intro identifier noneUses
    refine if_neg fun member => ?_
    obtain ⟨user, has, same⟩ := isUsed.1 member
    exact noneUses user has same

theorem ensureAdminAccounts_frame
    (succeeded : ensureAdminAccounts orders newID now store = .ok result) :
    result.servers = store.servers ∧ result.subscriptions = store.subscriptions ∧
      result.externalSubscriptions = store.externalSubscriptions := by
  obtain ⟨_, _, succeeded⟩ := bind_eq_ok_iff.1 succeeded
  obtain ⟨_, _, succeeded⟩ := bind_eq_ok_iff.1 succeeded
  obtain ⟨_, _, succeeded⟩ := bind_eq_ok_iff.1 succeeded
  cases succeeded
  exact ⟨rfl, rfl, rfl⟩

/-! ### A normal store stays as it is -/

variable {working : Working} {identifier name : String}

theorem settleReferences_of_normal {references : List String}
    (collected : Enumerates orders.collected store.inbounds) (normal : store.AccountsNormal)
    (same : working.accounts = store.accounts)
    (referred : ∀ identifier ∈ references, ∃ user, store.Has user ∧ user.accountID = identifier) :
    settleReferences (store.usersIn orders.collected) now working references = working := by
  induction references with
  | nil => rfl
  | cons identifier rest ih =>
      have unchanged :
          settleReference (store.usersIn orders.collected) now working identifier = working := by
        obtain ⟨user, has, refers⟩ := referred identifier (by simp)
        obtain ⟨account, present, named⟩ := normal.assigned user has
        rw [refers] at present
        have sole : soleName (referenceNames (store.usersIn orders.collected) identifier) =
            some account.name := by
          rw [soleName_references collected]
          refine ⟨⟨user, has, refers, named.symm⟩, ?_⟩
          rintro other ⟨second, hasSecond, refersSecond, rfl⟩
          have namedSecond := normal.assigned second hasSecond
          rw [refersSecond] at namedSecond
          exact namedSecond.unique ⟨account, present, rfl⟩
        simp [settleReference, same, present, sole]
      rw [settleReferences, List.foldl_cons, unchanged]
      exact ih fun other member => referred other (by simp [member])

theorem assignUsers_of_settled {working : Working} {state : Assigning} {users : List User}
    (settled : ∀ user ∈ users, user.accountID ≠ "" ∧ working.current user = user.accountID) :
    assignUsers working newID now state users = .ok (state, users) := by
  induction users with
  | nil => rfl
  | cons user rest ih =>
      obtain ⟨refers, same⟩ := settled user (by simp)
      have first : assignUser working newID now state user = .ok (state, user.accountID) := by
        rw [assignUser, same, if_pos refers]
      rw [assignUsers, bind_of_eq_ok first,
        bind_of_eq_ok (ih fun other member => settled other (by simp [member]))]

theorem assignInbounds_of_settled {working : Working} {state : Assigning} {tags : List String}
    (settled : ∀ user, store.Has user → user.accountID ≠ "" ∧ working.current user = user.accountID) :
    assignInbounds working newID now state store.inbounds tags = .ok (state, store.inbounds) := by
  induction tags with
  | nil => rfl
  | cons tag rest ih =>
      cases present : store.inbounds tag with
      | none =>
          simp only [assignInbounds, present]
          exact ih
      | some record =>
          have users := @assignUsers_of_settled newID now working state record.users
            fun user member => settled user ⟨tag, record, present, member⟩
          have unchanged : update store.inbounds tag (some record) = store.inbounds := by
            rw [← present, update_eq_self]
          simp only [assignInbounds, present]
          rw [bind_of_eq_ok users]
          simpa only [unchanged] using ih

theorem ensureAdminAccounts_of_normal (of : orders.Of store) (valid : ValidAccounts store.accounts)
    (normal : store.AccountsNormal) : ensureAdminAccounts orders newID now store = .ok store := by
  obtain ⟨byName, indexed⟩ := indexAccounts_succeeds valid of.accounts
  have known (user : User) (has : store.Has user) :
      user.accountID ≠ "" ∧ store.accounts user.accountID ≠ none := by
    obtain ⟨account, present, -⟩ := normal.assigned user has
    exact ⟨valid.identifier_ne present, by simp [present]⟩
  have checked : checkReferences store.accounts (store.usersIn orders.collected) = .ok () := by
    apply checkReferences_eq_ok_iff.2
    intro user member _
    exact (known user ((mem_usersIn of.collected).1 member)).2
  have settled : settleReferences (store.usersIn orders.collected) now
      ⟨store.accounts, byName, fun identifier _ => identifier⟩ orders.references =
        ⟨store.accounts, byName, fun identifier _ => identifier⟩ := by
    apply settleReferences_of_normal of.collected normal rfl
    intro identifier member
    exact ((of.references identifier).1 member).2
  have assigned := @assignInbounds_of_settled store newID now
    ⟨store.accounts, byName, fun identifier _ => identifier⟩ ⟨store.accounts, byName, 0⟩
    orders.assigned fun user has => ⟨(known user has).1, if_neg (known user has).1⟩
  unfold ensureAdminAccounts
  rw [bind_of_eq_ok indexed]
  rw [bind_of_eq_ok checked, settled, bind_of_eq_ok assigned]
  have accounts : (fun identifier =>
      if identifier ∈ (store.usersIn orders.assigned).map (·.accountID) then
        store.accounts identifier else none) = store.accounts := by
    funext identifier
    split_ifs with used
    · rfl
    · by_contra present
      obtain ⟨user, has, refers⟩ := normal.referenced identifier (Ne.symm present)
      exact used (List.mem_map.2 ⟨user, (mem_usersIn of.assigned).2 has, refers⟩)
  rw [Except.ok.injEq]
  exact congrArg (fun accounts => ({ store with accounts := accounts } : Store)) accounts

/-- The state in which the loop visits an account, seen from the end of the loop. -/
theorem settleReferences_visit {users : List User} {working : Working} {references : List String}
    {identifier : String} (nodup : references.Nodup) (member : identifier ∈ references)
    (indexed : Indexes working.byName working.accounts) :
    ∃ before : Working, before.accounts identifier = working.accounts identifier ∧
      before.assign identifier = working.assign identifier ∧
      Indexes before.byName before.accounts ∧
      (settleReferences users now working references).accounts identifier =
        (settleReference users now before identifier).accounts identifier ∧
      (settleReferences users now working references).assign identifier =
        (settleReference users now before identifier).assign identifier := by
  induction references generalizing working with
  | nil => cases member
  | cons first rest ih =>
      obtain ⟨notLater, nodupRest⟩ := List.nodup_cons.1 nodup
      by_cases same : identifier = first
      · subst same
        exact ⟨working, rfl, rfl, indexed, settleReferences_settles.others identifier notLater⟩
      · have later : identifier ∈ rest := (List.mem_cons.1 member).resolve_left same
        obtain ⟨before, accounts, assign, indexedBefore, atEnd, assignAtEnd⟩ :=
          ih nodupRest later (settleReference_settles.indexes indexed)
        refine ⟨before, ?_, ?_, indexedBefore, atEnd, assignAtEnd⟩
        · rw [accounts, (settleReference_of_ne same).1]
        · rw [assign, (settleReference_of_ne same).2]

theorem settleReference_fixed {users : List User} {account : Account}
    (indexed : Indexes working.byName working.accounts)
    (present : working.accounts identifier = some account)
    (refers : name ∈ referenceNames users identifier)
    (unchanged : (settleReference users now working identifier).accounts identifier = some account)
    (assigned : (settleReference users now working identifier).assign identifier name = identifier)
    (nonempty : identifier ≠ "") :
    account.name = name := by
  cases sole : soleName (referenceNames users identifier) with
  | none =>
      simp only [settleReference, present, sole, update_self] at assigned
      split_ifs at assigned with same
      · exact same.symm
      · exact absurd assigned.symm nonempty
  | some only =>
      obtain ⟨-, all⟩ := soleName_eq_some_iff.1 sole
      rw [all name refers]
      by_cases same : only = account.name
      · exact same.symm
      · cases named : working.byName only with
        | none =>
            simp only [settleReference, present, sole, if_neg same, named, update_self,
              Option.some.injEq] at unchanged
            rw [← unchanged]
            rfl
        | some existing =>
            simp only [settleReference, present, sole, if_neg same, named, update_self]
              at assigned
            obtain ⟨found, presentExisting, isNamed⟩ := (indexed only existing).1 named
            rw [assigned, present] at presentExisting
            cases presentExisting
            exact isNamed

/-- The accounts pass the checks, and every reference is to one of them. -/
structure Store.AccountsAccepted (store : Store) : Prop where
  valid : ValidAccounts store.accounts
  known : ∀ user, store.Has user → user.accountID ≠ "" → store.accounts user.accountID ≠ none

theorem accountsAccepted_of_ensured (of : orders.Of store)
    (succeeded : ensureAdminAccounts orders newID now store = .ok result) : store.AccountsAccepted := by
  obtain ⟨byName, indexed, succeeded⟩ := bind_eq_ok_iff.1 succeeded
  obtain ⟨_, checked, -⟩ := bind_eq_ok_iff.1 succeeded
  refine ⟨(indexAccounts_ok of.accounts indexed).1, fun user has => ?_⟩
  exact checkReferences_eq_ok_iff.1 checked user ((Store.mem_usersIn of.collected).2 has)

section Congruence

variable {other : Store}

theorem Store.AccountsNormal.congr (normal : store.AccountsNormal)
    (accounts : other.accounts = store.accounts) (inbounds : other.inbounds = store.inbounds) :
    other.AccountsNormal := by
  cases other
  subst accounts inbounds
  exact ⟨normal.assigned, normal.distinct, normal.referenced⟩

theorem Store.AccountsAccepted.congr (accepted : store.AccountsAccepted)
    (accounts : other.accounts = store.accounts) (inbounds : other.inbounds = store.inbounds) :
    other.AccountsAccepted := by
  cases other
  subst accounts inbounds
  exact ⟨accepted.valid, accepted.known⟩

end Congruence

/-- Normalization changes nothing only where there is nothing to normalize. -/
theorem ensureAdminAccounts_eq_self_iff (of : orders.Of store)
    (fresh : FreshSource newID store.accounts) :
    ensureAdminAccounts orders newID now store = .ok store ↔
      store.AccountsAccepted ∧ store.AccountsNormal := by
  refine ⟨fun unchanged => ?_, fun ⟨accepted, normal⟩ =>
    ensureAdminAccounts_of_normal of accepted.valid normal⟩
  obtain ⟨byName, state, valid, indexes, known, becomes⟩ := ensureAdminAccounts_eq_ok of fresh unchanged
  refine ⟨⟨valid, known⟩, ?_, ?_, ?_⟩
  · intro user has
    obtain ⟨tag, index, found⟩ := has_iff_userAt.1 has
    obtain ⟨identifier, given, assigned⟩ := becomes.users tag index user found
    rw [found, Option.some.injEq] at given
    have same : user.accountID = identifier := congrArg User.accountID given
    have atEnd := becomes.used identifier user has same
    rcases assigned with ⟨settled, isCurrent⟩ | ⟨-, account, present, named⟩
    · have refers : user.accountID ≠ "" := by
        intro empty
        simp [Working.current, empty] at settled
      have isAssigned : (orders.settled store byName now).assign user.accountID user.name =
          user.accountID := by
        rw [Working.current, if_neg refers] at isCurrent
        rw [← isCurrent, same]
      obtain ⟨account, present⟩ := Option.ne_none_iff_exists'.1 (known user has refers)
      have member := (of.references user.accountID).2 ⟨refers, user, has, rfl⟩
      have collected : user.name ∈ referenceNames (store.usersIn orders.collected) user.accountID :=
        mem_referenceNames.2 ⟨user, (mem_usersIn of.collected).2 has, rfl, rfl⟩
      obtain ⟨before, accounts, -, indexed, accountsEnd, assignEnd⟩ :=
        @settleReferences_visit now (store.usersIn orders.collected)
          ⟨store.accounts, byName, fun identifier _ => identifier⟩ _ _ of.nodup member indexes
      have stays : (settleReference (store.usersIn orders.collected) now before user.accountID).accounts
          user.accountID = some account := by
        have there : (orders.settled store byName now).accounts user.accountID ≠ none :=
          fun absent => known user has refers ((settleReferences_settles.known _).1 absent)
        obtain ⟨settledAccount, found⟩ := Option.ne_none_iff_exists'.1 there
        rw [← accountsEnd, ← present, same, atEnd, ← same, becomes.extension.old _ _ found]
        exact found
      refine ⟨account, present, ?_⟩
      apply settleReference_fixed indexed (accounts.trans present) collected stays _ refers
      rw [← assignEnd]
      exact isAssigned
    · exact ⟨account, by rw [same, atEnd, present], named⟩
  · rintro identifier other name ⟨account, present, named⟩ ⟨second, presentOther, namedOther⟩
    exact valid.distinct identifier other account second present presentOther
      (named.trans namedOther.symm)
  · intro identifier present
    by_contra noneRefers
    push Not at noneRefers
    exact present (becomes.unused identifier noneRefers)

/-! ### Names that keep apart -/

/-- The name of an account after the references: the free name of its users, or its own. -/
def Store.NamedAfter (store : Store) (identifier name : String) : Prop :=
  ∃ account, store.accounts identifier = some account ∧
    ((store.Moves identifier name ∧ store.Free name) ∨
      (account.name = name ∧ ∀ second, store.Moves identifier second → ¬store.Free second))

/-- The loop after some references: accounts whose users all moved to a free name have
it, all others are as they were. -/
structure Store.Settling (store : Store) (visited : List String) (working : Working) : Prop where
  renamed : ∀ identifier ∈ visited, ∀ account name, store.accounts identifier = some account →
    store.Moves identifier name → store.Free name →
    ∃ now, working.accounts identifier = some (account.rename name now)
  kept : ∀ identifier,
    (identifier ∈ visited → ∀ name, store.Moves identifier name → ¬store.Free name) →
    working.accounts identifier = store.accounts identifier
  indexed : Indexes working.byName working.accounts
  assigned : ∀ identifier ∈ visited, ∀ name, store.Refers identifier name →
    working.assign identifier name = "" ∨ store.NamedAfter (working.assign identifier name) name
  untouched : ∀ identifier ∉ visited, ∀ name, working.assign identifier name = identifier

theorem Store.NamedAfter.known (after : store.NamedAfter identifier name) :
    store.accounts identifier ≠ none := by
  obtain ⟨account, present, -⟩ := after
  simp [present]

section Apart

variable {visited : List String} {working : Working} {identifier : String} {other name : String}
  {account : Account}

/-- An account of the new name of another account's users is not renamed. -/
theorem Store.NamesApart.namedAfter (apart : store.NamesApart) (moves : store.Moves identifier name)
    (different : other ≠ identifier) (named : store.Named other name) : store.NamedAfter other name := by
  obtain ⟨account, present, isNamed⟩ := named
  refine ⟨account, present, .inr ⟨isNamed, ?_⟩⟩
  intro second movesOther free
  have keepsAway := apart.apart other identifier account second name present movesOther free moves
    different.symm
  exact keepsAway.1 isNamed.symm

namespace Store.Settling

variable (settling : store.Settling visited working) (apart : store.NamesApart)
  (collected : Enumerates orders.collected store.inbounds)
include settling apart

theorem named_of_moves (moves : store.Moves identifier name)
    (different : other ≠ identifier) (found : working.accounts other = some account)
    (named : account.name = name) :
    store.Named other name := by
  by_cases untouched : other ∈ visited → ∀ second, store.Moves other second → ¬store.Free second
  · rw [settling.kept other untouched] at found
    exact ⟨account, found, named⟩
  · push Not at untouched
    obtain ⟨member, second, movesOther, free⟩ := untouched
    obtain ⟨before, present, -⟩ := movesOther.misnamed
    obtain ⟨now, renamed⟩ := settling.renamed other member before second present movesOther free
    rw [renamed] at found
    cases found
    have keepsAway := apart.apart other identifier before second name present movesOther free moves
      different.symm
    exact absurd named.symm keepsAway.2

include collected

variable (now) in
theorem visit
    (unvisited : identifier ∉ visited) (present : store.accounts identifier = some account) :
    let after := settleReference (store.usersIn orders.collected) now working identifier
    (∀ name, store.Moves identifier name → store.Free name →
      after.accounts identifier = some (account.rename name now)) ∧
    ((∀ name, store.Moves identifier name → ¬store.Free name) →
      after.accounts identifier = some account) ∧
    ∀ name, store.Refers identifier name →
      after.assign identifier name = "" ∨ store.NamedAfter (after.assign identifier name) name := by
  intro after
  have here : working.accounts identifier = some account := by
    rw [settling.kept identifier fun member => absurd member unvisited, present]
  have unassigned (name : String) : working.assign identifier name = identifier :=
    settling.untouched identifier unvisited name
  cases sole : soleName (referenceNames (store.usersIn orders.collected) identifier) with
  | none =>
      have stays (name : String) : ¬store.Moves identifier name := by
        intro moves
        have found := (soleName_references collected).2 ⟨moves.refers, moves.sole⟩
        rw [sole] at found
        cases found
      simp only [after, settleReference, here, sole, update_self]
      refine ⟨fun name moves => absurd moves (stays name), fun _ => trivial, fun name refers => ?_⟩
      by_cases same : name = account.name
      · rw [if_pos same]
        exact .inr ⟨account, present, .inr ⟨same.symm, fun second moves => absurd moves (stays second)⟩⟩
      · rw [if_neg same]
        exact .inl rfl
  | some name =>
      obtain ⟨refers, only⟩ := (soleName_references collected).1 sole
      by_cases same : name = account.name
      · have stays (other : String) : ¬store.Moves identifier other := by
          intro moves
          exact moves.not_named ⟨account, present, by rw [only other moves.refers, same]⟩
        simp only [after, settleReference, here, sole, if_pos same]
        refine ⟨fun other moves => absurd moves (stays other), fun _ => trivial, fun other refersOther => ?_⟩
        rw [unassigned, only other refersOther]
        exact .inr ⟨account, present, .inr ⟨same.symm, fun second moves => absurd moves (stays second)⟩⟩
      · have moves : store.Moves identifier name :=
          ⟨⟨account, present, fun equal => same equal.symm⟩, refers, only⟩
        cases named : working.byName name with
        | none =>
            have free : store.Free name := by
              intro other target
              obtain ⟨found, presentOther, ⟨-, free⟩ | ⟨isNamed, untouched⟩⟩ :=
                apart.namedAfter moves (fun same => moves.not_named (same ▸ target)) target
              · exact free other target
              · have still : working.accounts other = some found := by
                  rw [settling.kept other fun _ => untouched, presentOther]
                have taken := (settling.indexed name other).2 ⟨found, still, isNamed⟩
                rw [named] at taken
                cases taken
            simp only [after, settleReference, here, sole, if_neg same, named, update_self]
            refine ⟨?_, fun notFree => absurd free (notFree name moves), fun other refersOther => ?_⟩
            · intro other movesOther _
              rw [only other movesOther.refers]
            · rw [unassigned, only other refersOther]
              exact .inr ⟨account, present, .inl ⟨moves, free⟩⟩
        | some existing =>
            obtain ⟨found, presentExisting, isNamed⟩ := (settling.indexed name existing).1 named
            have different : existing ≠ identifier := by
              rintro rfl
              rw [here] at presentExisting
              cases presentExisting
              exact same isNamed.symm
            have target : store.Named existing name :=
              settling.named_of_moves apart moves different presentExisting isNamed
            simp only [after, settleReference, here, sole, if_neg same, named, update_self]
            refine ⟨?_, fun _ => trivial, fun other refersOther => ?_⟩
            · intro other movesOther free
              rw [only other movesOther.refers] at free
              exact absurd target (free existing)
            · rw [only other refersOther]
              exact .inr (apart.namedAfter moves different target)

variable (now) in
theorem step (unvisited : identifier ∉ visited)
    (known : store.accounts identifier ≠ none) :
    store.Settling (visited ++ [identifier])
      (settleReference (store.usersIn orders.collected) now working identifier) := by
  obtain ⟨account, present⟩ := Option.ne_none_iff_exists'.1 known
  obtain ⟨renames, keeps, assigns⟩ := settling.visit now apart collected unvisited present
  have isVisited {other : String} (different : other ≠ identifier)
      (member : other ∈ visited ++ [identifier]) : other ∈ visited := by
    simpa [different] using member
  refine ⟨?_, ?_, settleReference_settles.indexes settling.indexed, ?_, ?_⟩
  · intro other member found name presentOther moves free
    by_cases same : other = identifier
    · subst same
      rw [present] at presentOther
      cases presentOther
      exact ⟨now, renames name moves free⟩
    · rw [(settleReference_of_ne same).1]
      exact settling.renamed other (isVisited same member) found name presentOther moves free
  · intro other untouched
    by_cases same : other = identifier
    · subst same
      rw [present]
      exact keeps (untouched (by simp))
    · rw [(settleReference_of_ne same).1]
      exact settling.kept other fun member => untouched (List.mem_append_left _ member)
  · intro other member name refers
    by_cases same : other = identifier
    · subst same
      exact assigns name refers
    · rw [(settleReference_of_ne same).2]
      exact settling.assigned other (isVisited same member) name refers
  · intro other notIn name
    have different : other ≠ identifier := by
      rintro rfl
      simp at notIn
    rw [(settleReference_of_ne different).2]
    exact settling.untouched other (fun member => notIn (List.mem_append_left _ member)) name

theorem run {references : List String}
    (nodup : (visited ++ references).Nodup)
    (known : ∀ identifier ∈ references, store.accounts identifier ≠ none) :
    store.Settling (visited ++ references)
      (settleReferences (store.usersIn orders.collected) now working references) := by
  induction references generalizing visited working with
  | nil => simpa [settleReferences] using settling
  | cons identifier rest ih =>
      have unvisited : identifier ∉ visited := fun member =>
        (List.nodup_append.1 nodup).2.2 identifier member identifier (by simp) rfl
      have next := settling.step now apart collected unvisited (known identifier (by simp))
      have ran := ih next (by simpa using nodup)
        fun other member => known other (by simp [member])
      simpa [settleReferences] using ran

end Store.Settling

end Apart

/-! ### The result over all orders -/

section Result

variable {working : Working} {state : Assigning} {identifier name : String}

theorem Store.Settling.named_iff (valid : ValidAccounts store.accounts)
    (references : ∀ identifier, identifier ∈ orders.references ↔
      identifier ≠ "" ∧ ∃ user, store.Has user ∧ user.accountID = identifier)
    (settling : store.Settling orders.references working) :
    (∃ account, working.accounts identifier = some account ∧ account.name = name) ↔
      store.NamedAfter identifier name := by
  have visited {second : String} (moves : store.Moves identifier second) :
      identifier ∈ orders.references := (references identifier).2 (moves.referred valid)
  constructor
  · rintro ⟨account, found, named⟩
    by_cases untouched : ∀ second, store.Moves identifier second → ¬store.Free second
    · rw [settling.kept identifier fun _ => untouched] at found
      exact ⟨account, found, .inr ⟨named, untouched⟩⟩
    · push Not at untouched
      obtain ⟨second, moves, free⟩ := untouched
      obtain ⟨before, present, -⟩ := moves.misnamed
      obtain ⟨now, renamed⟩ := settling.renamed identifier (visited moves) before second present moves free
      rw [renamed] at found
      cases found
      cases named
      exact ⟨before, present, .inl ⟨moves, free⟩⟩
  · rintro ⟨account, present, ⟨moves, free⟩ | ⟨named, untouched⟩⟩
    · obtain ⟨now, renamed⟩ := settling.renamed identifier (visited moves) account name present moves free
      exact ⟨_, renamed, rfl⟩
    · exact ⟨account, by rw [settling.kept identifier fun _ => untouched, present], named⟩

theorem Store.namedAfter_of_refers (refers : store.Refers identifier name)
    (named : store.Named identifier name) : store.NamedAfter identifier name := by
  obtain ⟨account, present, isNamed⟩ := named
  refine ⟨account, present, .inr ⟨isNamed, ?_⟩⟩
  intro second moves
  exact absurd ⟨account, present, isNamed.trans (moves.sole name refers)⟩ moves.not_named

/-- What every order makes of a store whose names keep apart: users have accounts of
their names, and the old accounts have names that do not depend on the order. -/
structure Store.Outcome (store result : Store) (accounts : GoMap Account) : Prop where
  inbounds : ∀ tag, result.inbounds tag = none ↔ store.inbounds tag = none
  records : ∀ tag record, store.inbounds tag = some record →
    ∃ users, result.inbounds tag = some { record with users := users }
  places : ∀ tag index, result.userAt tag index = none ↔ store.userAt tag index = none
  users : ∀ tag index user, store.userAt tag index = some user →
    ∃ identifier account, result.userAt tag index = some { user with accountID := identifier } ∧
      accounts identifier = some account ∧ account.name = user.name
  valid : ∀ identifier account, accounts identifier = some account → account.name ≠ "" →
    account.check identifier = .ok ()
  distinct : ∀ identifier other account second, accounts identifier = some account →
    accounts other = some second → account.name = second.name → identifier = other
  named : ∀ identifier, store.accounts identifier ≠ none → ∀ name,
    (∃ account, accounts identifier = some account ∧ account.name = name) ↔
      store.NamedAfter identifier name
  used : ∀ identifier user, result.Has user → user.accountID = identifier →
    result.accounts identifier = accounts identifier
  unused : ∀ identifier, (∀ user, result.Has user → user.accountID ≠ identifier) →
    result.accounts identifier = none

theorem ensureAdminAccounts_outcome (apart : store.NamesApart) (of : orders.Of store)
    (fresh : FreshSource newID store.accounts)
    (succeeded : ensureAdminAccounts orders newID now store = .ok result) :
    ∃ accounts, store.Outcome result accounts := by
  obtain ⟨byName, state, valid, indexes, known, becomes⟩ := ensureAdminAccounts_eq_ok of fresh succeeded
  have start : store.Settling [] ⟨store.accounts, byName, fun identifier _ => identifier⟩ :=
    ⟨by simp, fun _ _ => rfl, indexes, by simp, fun _ _ _ => rfl⟩
  have settling : store.Settling orders.references (orders.settled store byName now) := by
    apply start.run apart of.collected (by simpa using of.nodup)
    intro identifier member
    obtain ⟨refers, user, has, rfl⟩ := (of.references identifier).1 member
    exact known user has refers
  have still {identifier : String} (old : store.accounts identifier ≠ none) :
      ∃ account, (orders.settled store byName now).accounts identifier = some account ∧
        state.accounts identifier = some account := by
    have there : (orders.settled store byName now).accounts identifier ≠ none :=
      fun absent => old ((settleReferences_settles.known identifier).1 absent)
    obtain ⟨account, found⟩ := Option.ne_none_iff_exists'.1 there
    exact ⟨account, found, becomes.extension.old identifier account found⟩
  have named (identifier : String) (old : store.accounts identifier ≠ none) (name : String) :
      (∃ account, state.accounts identifier = some account ∧ account.name = name) ↔
        store.NamedAfter identifier name := by
    obtain ⟨account, settled, found⟩ := still old
    rw [← settling.named_iff valid of.references, settled, found]
  refine ⟨state.accounts, becomes.inbounds, becomes.records, ?_, ?_, ?_, ?_, named, becomes.used, becomes.unused⟩
  · intro tag index
    refine ⟨fun absent => ?_, becomes.places tag index⟩
    cases found : store.userAt tag index with
    | none => rfl
    | some user =>
        obtain ⟨identifier, present, -⟩ := becomes.users tag index user found
        rw [absent] at present
        cases present
  · intro tag index user found
    obtain ⟨identifier, present, assigned⟩ := becomes.users tag index user found
    have has : store.Has user := has_iff_userAt.2 ⟨tag, index, found⟩
    rcases assigned with ⟨settled, rfl⟩ | ⟨-, account, there, isNamed⟩
    · have refers : user.accountID ≠ "" := by
        intro empty
        simp [Working.current, empty] at settled
      simp only [Working.current, if_neg refers] at settled present ⊢
      have visited := (of.references user.accountID).2 ⟨refers, user, has, rfl⟩
      rcases settling.assigned user.accountID visited user.name ⟨user, has, rfl, rfl⟩ with empty | after
      · exact absurd empty settled
      · obtain ⟨account, there, isNamed⟩ := (named _ after.known user.name).2 after
        exact ⟨_, account, present, there, isNamed⟩
    · exact ⟨identifier, account, present, there, isNamed⟩
  · intro identifier account found isNamed
    by_cases old : store.accounts identifier = none
    · obtain ⟨⟨number, -, generated⟩, user, now, rfl, same⟩ := becomes.extension.new identifier account
        found ((settleReferences_settles.known identifier).2 old)
      apply Account.check_eq_ok_iff.2
      refine ⟨(fresh.unused _ _ generated).1, rfl, same.symm ▸ isNamed, nofun, ?_⟩
      unfold Account.HasLimits newAccount
      dsimp only
      decide
    · obtain ⟨before, present⟩ := Option.ne_none_iff_exists'.1 old
      obtain ⟨second, settled, there⟩ := still old
      cases found.symm.trans there
      have passed := Account.check_eq_ok_iff.1 (valid.checked identifier before present)
      by_cases untouched : ∀ name, store.Moves identifier name → ¬store.Free name
      · rw [settling.kept identifier fun _ => untouched, present] at settled
        cases settled
        exact valid.checked identifier _ present
      · push Not at untouched
        obtain ⟨name, moves, free⟩ := untouched
        obtain ⟨user, has, refers, -⟩ := moves.refers
        have visited := (of.references identifier).2 ⟨passed.1, user, has, refers⟩
        obtain ⟨now, renamed⟩ := settling.renamed identifier visited before name present moves free
        rw [renamed] at settled
        cases settled
        exact Account.check_eq_ok_iff.2 ⟨passed.1, passed.2.1, isNamed, passed.2.2.2⟩
  · intro identifier other account second
    exact becomes.extension.indexed.unique

end Result

end Ensured

end SideraCore.Dashboard
