import SideraCore.Dashboard.Store
import SideraCore.Control.Except

/-!
Owns `ensureAdminAccounts`, the normalization that links every user of a store to
an account of its own name: the checks, the table of references, the loop that renames
accounts and moves users, and the loop that gives the remaining users accounts.

Every `range` over a map takes its order from a list, and the identifiers of new
accounts come from a source that may fail.
-/

namespace SideraCore.Dashboard

open Control Function

inductive AccountError where
  | invalidAccount (identifier : String)
  | invalidPolicy (identifier : String)
  | invalidLimits (identifier : String)
  | duplicateName (name : String)
  | missingAccount (identifier : String)
  | identifierSource
deriving DecidableEq, Repr

/-- The sum is one of `int64`. -/
def nextAdminRevision (current now : Int) : Int := max ((current + 1).bmod (2 ^ 64)) now

/-- The limits of an account that are not negative, and a period that fits. -/
def Account.HasLimits (account : Account) : Prop :=
  0 ≤ account.quotaBytes ∧ 0 ≤ account.expiresAt ∧ 0 ≤ account.maxIPs ∧ 0 ≤ account.resetDays ∧
    account.resetDays ≤ maxInt64 / dayMilliseconds ∧ 0 ≤ account.baseUploadBytes ∧
    0 ≤ account.baseDownloadBytes ∧ 0 ≤ account.lastOnline

instance (account : Account) : Decidable account.HasLimits := by
  unfold Account.HasLimits
  infer_instance

def Account.check (identifier : String) (account : Account) : Except AccountError Unit :=
  if identifier = "" ∨ account.id ≠ identifier ∨ account.name = "" then
    .error (.invalidAccount identifier)
  else if account.policyScope = none then .error (.invalidPolicy identifier)
  else if ¬account.HasLimits then .error (.invalidLimits identifier)
  else .ok ()

def indexAccounts (accounts : GoMap Account) :
    List String → GoMap String → Except AccountError (GoMap String)
  | [], byName => .ok byName
  | identifier :: rest, byName =>
      match accounts identifier with
      | none => indexAccounts accounts rest byName
      | some account => do
          account.check identifier
          if byName account.name ≠ none then .error (.duplicateName account.name)
          else indexAccounts accounts rest (update byName account.name (some identifier))

def checkReferences (accounts : GoMap Account) : List User → Except AccountError Unit
  | [] => .ok ()
  | user :: rest =>
      if user.accountID ≠ "" ∧ accounts user.accountID = none then
        .error (.missingAccount user.accountID)
      else checkReferences accounts rest

variable (users : List User) (working : Working)

def referenceNames (identifier : String) : List String :=
  (users.filter (·.accountID = identifier)).map (·.name)

def soleName : List String → Option String
  | [] => none
  | name :: rest => if rest.all (· = name) then some name else none

/-- The accounts while the references are worked through. `assign` is by the account
that users referred to when the references were collected, and by their name: the table
points to these users. -/
structure Working where
  accounts : GoMap Account
  byName : GoMap String
  assign : String → String → String

def Account.rename (account : Account) (name : String) (now : Int) : Account :=
  { account with
    name := name
    updatedAt := now
    revision := nextAdminRevision account.revision now }

def settleReference (now : Int) (working : Working) (identifier : String) :
    Working :=
  match working.accounts identifier with
  | none => working
  | some account =>
      match soleName (referenceNames users identifier) with
      | some name =>
          if name = account.name then working
          else
            match working.byName name with
            | none =>
                { working with
                  accounts := update working.accounts identifier
                    (some (account.rename name now))
                  byName := update (update working.byName account.name none) name
                    (some identifier) }
            | some existing =>
                { working with assign := update working.assign identifier fun _ => existing }
      | none =>
          { working with
            assign := update working.assign identifier fun name =>
              if name = account.name then identifier else "" }

def settleReferences (now : Int) (working : Working) (order : List String) :
    Working :=
  order.foldl (settleReference users now) working

def Working.current (user : User) : String :=
  if user.accountID = "" then "" else working.assign user.accountID user.name

/-- The accounts while the remaining users get theirs, and how many identifiers were
taken. -/
structure Assigning where
  accounts : GoMap Account
  byName : GoMap String
  issued : Nat

def newAccount (identifier : String) (user : User) (now : Int) : Account :=
  let createdAt := if user.createdAt = 0 then now else user.createdAt
  { id := identifier
    name := user.name
    policyScope := some .membershipLocal
    enabled := true
    quotaBytes := 0
    expiresAt := 0
    maxIPs := 0
    resetDays := 0
    baseUploadBytes := 0
    baseDownloadBytes := 0
    lastOnline := 0
    revision := nextAdminRevision 0 now
    createdAt := createdAt
    updatedAt := max user.updatedAt createdAt }

def assignUser (newID : Nat → Option String) (now : Int) (state : Assigning) (user : User) :
    Except AccountError (Assigning × String) :=
  if working.current user ≠ "" then .ok (state, working.current user)
  else
    match state.byName user.name with
    | some identifier => .ok (state, identifier)
    | none =>
        match newID state.issued with
        | none => .error .identifierSource
        | some identifier =>
            .ok
              ({ accounts := update state.accounts identifier
                  (some (newAccount identifier user now))
                 byName := update state.byName user.name (some identifier)
                 issued := state.issued + 1 },
                identifier)

def assignUsers (working : Working) (newID : Nat → Option String) (now : Int) :
    Assigning → List User → Except AccountError (Assigning × List User)
  | state, [] => .ok (state, [])
  | state, user :: rest => do
      let assigned ← assignUser working newID now state user
      let others ← assignUsers working newID now assigned.1 rest
      .ok (others.1, { user with accountID := assigned.2 } :: others.2)

def assignInbounds (working : Working) (newID : Nat → Option String) (now : Int) :
    Assigning → GoMap InboundRecord → List String → Except AccountError (Assigning × GoMap InboundRecord)
  | state, inbounds, [] => .ok (state, inbounds)
  | state, inbounds, tag :: rest =>
      match inbounds tag with
      | none => assignInbounds working newID now state inbounds rest
      | some record => do
          let assigned ← assignUsers working newID now state record.users
          assignInbounds working newID now assigned.1
            (update inbounds tag (some { record with users := assigned.2 })) rest

/-- The orders of the loops: over the accounts, the inbounds of the references, the
references, and the inbounds of the remaining users. -/
structure Orders where
  accounts : List String
  collected : List String
  references : List String
  assigned : List String

/-- The lists are orders in which these loops may visit the maps of the store. -/
structure Orders.Of (orders : Orders) (store : Store) : Prop where
  accounts : Enumerates orders.accounts store.accounts
  collected : Enumerates orders.collected store.inbounds
  assigned : Enumerates orders.assigned store.inbounds
  nodup : orders.references.Nodup
  references : ∀ identifier, identifier ∈ orders.references ↔
    identifier ≠ "" ∧ ∃ user, store.Has user ∧ user.accountID = identifier

def ensureAdminAccounts (orders : Orders) (newID : Nat → Option String) (now : Int) (store : Store) :
    Except AccountError Store := do
  let byName ← indexAccounts store.accounts orders.accounts fun _ => none
  let users := store.usersIn orders.collected
  checkReferences store.accounts users
  let working := settleReferences users now ⟨store.accounts, byName, fun identifier _ => identifier⟩
    orders.references
  let assigned ← assignInbounds working newID now ⟨working.accounts, working.byName, 0⟩ store.inbounds
    orders.assigned
  let remaining := { store with inbounds := assigned.2 }
  let used := (remaining.usersIn orders.assigned).map (·.accountID)
  .ok { remaining with
    accounts := fun identifier => if identifier ∈ used then assigned.1.accounts identifier else none }

variable {identifier name : String} {accounts : GoMap Account}

theorem Account.check_eq_ok_iff {account : Account} :
    account.check identifier = .ok () ↔
      identifier ≠ "" ∧ account.id = identifier ∧ account.name ≠ "" ∧ account.policyScope ≠ none ∧
        account.HasLimits := by
  unfold Account.check
  split_ifs with invalid policy limits
  · exact ⟨nofun, by tauto⟩
  · exact ⟨nofun, by tauto⟩
  · exact ⟨fun _ => by tauto, fun _ => rfl⟩
  · exact ⟨nofun, by tauto⟩

/-- Accounts that pass the first loop. -/
structure ValidAccounts (accounts : GoMap Account) : Prop where
  checked : ∀ identifier account, accounts identifier = some account →
    account.check identifier = .ok ()
  distinct : ∀ identifier other account second, accounts identifier = some account →
    accounts other = some second → account.name = second.name → identifier = other

def Indexes (byName : GoMap String) (accounts : GoMap Account) : Prop :=
  ∀ name identifier, byName name = some identifier ↔
    ∃ account, accounts identifier = some account ∧ account.name = name

section Valid

variable {accounts : GoMap Account} {identifier : String} {account : Account}

theorem ValidAccounts.identifier_ne (valid : ValidAccounts accounts)
    (present : accounts identifier = some account) : identifier ≠ "" :=
  (Account.check_eq_ok_iff.1 (valid.checked identifier account present)).1

theorem ValidAccounts.name_ne (valid : ValidAccounts accounts)
    (present : accounts identifier = some account) : account.name ≠ "" :=
  (Account.check_eq_ok_iff.1 (valid.checked identifier account present)).2.2.1

theorem Indexes.unique {byName : GoMap String} (indexed : Indexes byName accounts) {other : String}
    {second : Account} (present : accounts identifier = some account)
    (presentOther : accounts other = some second) (same : account.name = second.name) :
    identifier = other := by
  have first := (indexed account.name identifier).2 ⟨account, present, rfl⟩
  have also := (indexed account.name other).2 ⟨second, presentOther, same.symm⟩
  rw [first] at also
  exact Option.some.inj also

end Valid

theorem checkReferences_eq_ok_iff {users : List User} :
    checkReferences accounts users = .ok () ↔
      ∀ user ∈ users, user.accountID ≠ "" → accounts user.accountID ≠ none := by
  induction users with
  | nil => simp [checkReferences]
  | cons user rest ih =>
      unfold checkReferences
      split_ifs with missing
      · refine ⟨nofun, fun all => ?_⟩
        exact absurd missing.2 (all user (by simp) missing.1)
      · rw [ih]
        simp only [List.mem_cons, forall_eq_or_imp, iff_and_self]
        intro _ refers absent
        exact missing ⟨refers, absent⟩

theorem soleName_eq_some_iff {names : List String} :
    soleName names = some name ↔ name ∈ names ∧ ∀ other ∈ names, other = name := by
  cases names with
  | nil => simp [soleName]
  | cons first rest =>
      simp only [soleName]
      split_ifs with all
      · simp only [List.all_eq_true, decide_eq_true_eq] at all
        simp only [Option.some.injEq, List.mem_cons, forall_eq_or_imp]
        constructor
        · rintro rfl
          exact ⟨.inl rfl, rfl, all⟩
        · rintro ⟨-, same, -⟩
          exact same
      · simp only [List.mem_cons, forall_eq_or_imp, false_iff, not_and]
        intro _ same others
        apply all
        simp only [List.all_eq_true, decide_eq_true_eq]
        intro other member
        rw [others other member, same]

theorem mem_referenceNames {users : List User} :
    name ∈ referenceNames users identifier ↔
      ∃ user ∈ users, user.accountID = identifier ∧ user.name = name := by
  simp [referenceNames, and_assoc]

/-! ### The index while accounts are renamed and created -/

section Indexes

variable {accounts : GoMap Account} {byName : GoMap String} {identifier name : String}
  {account : Account}

theorem exists_named_update {found : Option Account} {owner other : String} :
    (∃ second, update accounts identifier found owner = some second ∧ second.name = other) ↔
      if owner = identifier then ∃ second, found = some second ∧ second.name = other
      else ∃ second, accounts owner = some second ∧ second.name = other := by
  rw [update_apply]
  split_ifs <;> rfl

theorem Indexes.insert (indexed : Indexes byName accounts) (unnamed : byName name = none)
    (absent : accounts identifier = none) (named : account.name = name) :
    Indexes (update byName name (some identifier))
      (update accounts identifier (some account)) := by
  intro other owner
  rw [exists_named_update, update_apply]
  split_ifs with same isNew isNew
  · simp [same, isNew, named]
  · rw [← indexed, same, unnamed]
    simp [Ne.symm isNew]
  · rw [indexed, isNew, absent]
    simp [named, Ne.symm same]
  · exact indexed other owner

theorem Indexes.rename (indexed : Indexes byName accounts) (present : accounts identifier = some account)
    (unnamed : byName name = none) (now : Int) :
    Indexes (update (update byName account.name none) name (some identifier))
      (update accounts identifier (some (account.rename name now))) := by
  have without : Indexes (update byName account.name none)
      (update accounts identifier none) := by
    intro other owner
    rw [exists_named_update, update_apply]
    split_ifs with same removed removed
    · simp
    · rw [← indexed, same, (indexed account.name identifier).2 ⟨account, present, rfl⟩]
      simp [Ne.symm removed]
    · rw [indexed, removed, present]
      simp [Ne.symm same]
    · exact indexed other owner
  have stillUnnamed : update byName account.name none name = none := by
    rw [update_apply, unnamed, ite_self]
  have inserted := without.insert stillUnnamed (update_self ..)
    (rfl : (account.rename name now).name = name)
  rwa [update_idem] at inserted

end Indexes

section Index

variable {accounts known : GoMap Account} {byName result : GoMap String} {order : List String}

theorem indexAccounts_spec (nodup : order.Nodup)
    (visited : ∀ other, known other = if other ∈ order then none else accounts other)
    (checked : ∀ other account, known other = some account → account.check other = .ok ())
    (indexed : Indexes byName known) :
    match indexAccounts accounts order byName with
    | .ok result => ValidAccounts accounts ∧ Indexes result accounts
    | .error _ => ¬ValidAccounts accounts := by
  induction order generalizing byName known with
  | nil =>
      obtain rfl : known = accounts := by
        funext other
        simpa using visited other
      exact ⟨⟨checked, fun _ _ _ _ => indexed.unique⟩, indexed⟩
  | cons identifier rest ih =>
      obtain ⟨notLater, nodup⟩ := List.nodup_cons.1 nodup
      have absent : known identifier = none := by simp [visited]
      have next (other : String) : update known identifier (accounts identifier) other =
          if other ∈ rest then none else accounts other := by
        by_cases same : other = identifier <;> simp [same, notLater, visited]
      cases present : accounts identifier with
      | none =>
          have same : accounts identifier = known identifier := present.trans absent.symm
          rw [same, update_eq_self] at next
          simp only [indexAccounts, present]
          exact ih nodup next checked indexed
      | some account =>
          rw [present] at next
          simp only [indexAccounts, present]
          cases passed : account.check identifier with
          | error problem =>
              intro valid
              rw [valid.checked identifier account present] at passed
              cases passed
          | ok _ =>
              dsimp only [bind, Except.bind]
              split_ifs with taken
              · intro valid
                obtain ⟨other, found⟩ := Option.ne_none_iff_exists'.1 taken
                obtain ⟨second, foundOther, named⟩ := (indexed _ _).1 found
                have listed := foundOther
                rw [visited, Option.ite_none_left_eq_some] at listed
                rw [← valid.distinct identifier other account second present listed.2 named.symm,
                  absent] at foundOther
                cases foundOther
              · apply ih nodup next _ (indexed.insert (not_not.1 taken) absent rfl)
                refine (forall_update_iff known fun other (found : Option Account) =>
                  ∀ second, found = some second → second.check other = .ok ()).2 ⟨?_, ?_⟩
                · rintro _ ⟨⟩
                  exact passed
                · exact fun other _ => checked other

theorem indexAccounts_enumerated (enumerated : Enumerates order accounts) :
    match indexAccounts accounts order (fun _ => none) with
    | .ok result => ValidAccounts accounts ∧ Indexes result accounts
    | .error _ => ¬ValidAccounts accounts := by
  apply @indexAccounts_spec _ (fun _ => none) _ _ enumerated.nodup
  · intro other
    split_ifs with listed
    · rfl
    · exact (not_not.1 (mt (enumerated.mem_iff other).2 listed)).symm
  · simp
  · exact fun _ _ => by simp

theorem indexAccounts_ok (enumerated : Enumerates order accounts)
    (succeeded : indexAccounts accounts order (fun _ => none) = .ok result) :
    ValidAccounts accounts ∧ Indexes result accounts := by
  have spec := indexAccounts_enumerated enumerated
  rwa [succeeded] at spec

theorem indexAccounts_succeeds (valid : ValidAccounts accounts) (enumerated : Enumerates order accounts) :
    ∃ result, indexAccounts accounts order (fun _ => none) = .ok result := by
  have spec := indexAccounts_enumerated enumerated
  split at spec
  · exact ⟨_, by assumption⟩
  · exact absurd valid spec

end Index

/-! ### Giving users their accounts -/

/-- The source gives identifiers that are not in use, and each of them once. -/
structure FreshSource (newID : Nat → Option String) (accounts : GoMap Account) : Prop where
  unused : ∀ number identifier, newID number = some identifier →
    identifier ≠ "" ∧ accounts identifier = none
  once : ∀ number other identifier, newID number = some identifier →
    newID other = some identifier → number = other

/-- The accounts after the references, and the new ones created since. -/
structure Assigning.Extends (state : Assigning) (newID : Nat → Option String)
    (accounts : GoMap Account) : Prop where
  indexed : Indexes state.byName state.accounts
  old : ∀ identifier account, accounts identifier = some account →
    state.accounts identifier = some account
  new : ∀ identifier account, state.accounts identifier = some account →
    accounts identifier = none → (∃ number < state.issued, newID number = some identifier) ∧
      ∃ user now, account = newAccount identifier user now ∧ user.name = account.name

theorem Assigning.extends_start {newID : Nat → Option String} {byName : GoMap String}
    (indexed : Indexes byName accounts) :
    Assigning.Extends ⟨accounts, byName, 0⟩ newID accounts := by
  refine ⟨indexed, fun _ _ found => found, fun identifier account found unknown => ?_⟩
  dsimp only at found
  rw [unknown] at found
  cases found

/-- The account of the user after the last loop: the one it has, or one of its name. -/
def Working.Assigned (accounts : GoMap Account) (user : User) (identifier : String) : Prop :=
  (working.current user ≠ "" ∧ identifier = working.current user) ∨
    (working.current user = "" ∧
      ∃ account, accounts identifier = some account ∧ account.name = user.name)

def Working.AssignsTo (accounts : GoMap Account) (user assigned : User) : Prop :=
  working.Assigned accounts user assigned.accountID ∧
    assigned = { user with accountID := assigned.accountID }

section Assign

variable {working : Working} {newID : Nat → Option String} {now : Int}

theorem Working.Assigned.mono {accounts later : GoMap Account} {user : User} {identifier : String}
    (kept : ∀ identifier account, accounts identifier = some account → later identifier = some account)
    (assigned : working.Assigned accounts user identifier) :
    working.Assigned later user identifier := by
  rcases assigned with settled | ⟨unsettled, account, found, named⟩
  · exact .inl settled
  · exact .inr ⟨unsettled, account, kept _ _ found, named⟩

variable {state after : Assigning} (fresh : FreshSource newID working.accounts)

include fresh

theorem assignUser_spec {user : User} {identifier : String} (extends' : state.Extends newID working.accounts)
    (succeeded : assignUser working newID now state user = .ok (after, identifier)) :
    after.Extends newID working.accounts ∧
      (∀ other account, state.accounts other = some account → after.accounts other = some account) ∧
      working.Assigned after.accounts user identifier := by
  unfold assignUser at succeeded
  split_ifs at succeeded with unsettled
  · cases succeeded
    exact ⟨extends', fun _ _ found => found, .inl ⟨unsettled, rfl⟩⟩
  · rw [not_not] at unsettled
    cases named : state.byName user.name with
    | some existing =>
        simp only [named, Except.ok.injEq, Prod.mk.injEq] at succeeded
        obtain ⟨rfl, rfl⟩ := succeeded
        exact ⟨extends', fun _ _ found => found,
          .inr ⟨unsettled, (extends'.indexed _ _).1 named⟩⟩
    | none =>
        cases generated : newID state.issued with
        | none => simp [named, generated] at succeeded
        | some created =>
            simp only [named, generated, Except.ok.injEq, Prod.mk.injEq] at succeeded
            obtain ⟨rfl, rfl⟩ := succeeded
            have absent : state.accounts created = none := by
              by_contra taken
              obtain ⟨account, found⟩ := Option.ne_none_iff_exists'.1 taken
              obtain ⟨⟨number, earlier, same⟩, -⟩ := extends'.new created account found
                (fresh.unused _ _ generated).2
              have equal := fresh.once number state.issued created same generated
              omega
            have kept : ∀ other account, state.accounts other = some account →
                update state.accounts created (some (newAccount created user now)) other =
                  some account := by
              intro other account found
              have different : other ≠ created := by
                rintro rfl
                rw [absent] at found
                cases found
              rw [update_of_ne different]
              exact found
            refine ⟨⟨extends'.indexed.insert named absent rfl, ?_, ?_⟩, kept,
              .inr ⟨unsettled, newAccount created user now, update_self .., rfl⟩⟩
            · intro other account found
              exact kept other account (extends'.old other account found)
            · intro other account found unknown
              by_cases isNew : other = created
              · rw [isNew] at found ⊢
                have same : account = newAccount created user now := by
                  dsimp only at found
                  rw [update_self] at found
                  exact (Option.some.inj found).symm
                exact ⟨⟨state.issued, Nat.lt_succ_self _, generated⟩, user, now, same,
                  by rw [same]; rfl⟩
              · have before : state.accounts other = some account := by
                  rw [← found]
                  exact (update_of_ne isNew ..).symm
                obtain ⟨⟨number, earlier, same⟩, rest⟩ := extends'.new other account before unknown
                exact ⟨⟨number, Nat.lt_succ_of_lt earlier, same⟩, rest⟩

theorem assignUsers_spec {users assigned : List User} (extends' : state.Extends newID working.accounts)
    (succeeded : assignUsers working newID now state users = .ok (after, assigned)) :
    after.Extends newID working.accounts ∧
      (∀ other account, state.accounts other = some account → after.accounts other = some account) ∧
      List.Forall₂ (working.AssignsTo after.accounts) users assigned := by
  induction users generalizing state assigned with
  | nil =>
      cases succeeded
      exact ⟨extends', fun _ _ found => found, .nil⟩
  | cons user rest ih =>
      obtain ⟨⟨next, identifier⟩, first, succeeded⟩ := bind_eq_ok_iff.1 succeeded
      obtain ⟨⟨last, others⟩, remaining, succeeded⟩ := bind_eq_ok_iff.1 succeeded
      cases succeeded
      obtain ⟨extendsNext, keptFirst, isAssigned⟩ := assignUser_spec fresh extends' first
      obtain ⟨extendsLast, keptRest, assignedRest⟩ := ih extendsNext remaining
      exact ⟨extendsLast, fun other account found => keptRest _ _ (keptFirst other account found),
        .cons ⟨isAssigned.mono keptRest, rfl⟩ assignedRest⟩

theorem assignInbounds_spec {inbounds result : GoMap InboundRecord} {tags : List String}
    (nodup : tags.Nodup) (extends' : state.Extends newID working.accounts)
    (succeeded : assignInbounds working newID now state inbounds tags = .ok (after, result)) :
    after.Extends newID working.accounts ∧
      (∀ other account, state.accounts other = some account → after.accounts other = some account) ∧
      (∀ tag ∉ tags, result tag = inbounds tag) ∧
      ∀ tag ∈ tags, ∀ record, inbounds tag = some record →
        ∃ users, result tag = some { record with users := users } ∧
          List.Forall₂ (working.AssignsTo after.accounts) record.users users := by
  induction tags generalizing state inbounds with
  | nil =>
      cases succeeded
      exact ⟨extends', fun _ _ found => found, fun _ _ => rfl, by simp⟩
  | cons tag rest ih =>
      obtain ⟨notLater, nodupRest⟩ := List.nodup_cons.1 nodup
      cases present : inbounds tag with
      | none =>
          simp only [assignInbounds, present] at succeeded
          obtain ⟨extendsLast, kept, others, visited⟩ := ih nodupRest extends' succeeded
          exact ⟨extendsLast, kept, fun other notIn => others other (List.not_mem_of_not_mem_cons notIn),
            List.forall_mem_cons.2 ⟨by simp [present], visited⟩⟩
      | some record =>
          simp only [assignInbounds, present] at succeeded
          obtain ⟨⟨next, users⟩, first, succeeded⟩ := bind_eq_ok_iff.1 succeeded
          obtain ⟨extendsNext, keptFirst, assignedFirst⟩ := assignUsers_spec fresh extends' first
          obtain ⟨extendsLast, keptRest, others, visited⟩ :=
            ih nodupRest extendsNext succeeded
          refine ⟨extendsLast, fun other account found => keptRest _ _ (keptFirst other account found),
            ?_, List.forall_mem_cons.2 ⟨?_, fun other later found present' => visited other later found ?_⟩⟩
          · intro other notIn
            rw [List.mem_cons, not_or] at notIn
            rw [others other notIn.2, update_of_ne notIn.1]
          · rw [present]
            rintro _ ⟨⟩
            refine ⟨users, ?_, ?_⟩
            · rw [others tag notLater, update_self]
            · refine assignedFirst.imp fun user assigned related => ?_
              exact ⟨related.1.mono keptRest, related.2⟩
          · rwa [update_of_ne (ne_of_mem_of_not_mem later notLater)]

end Assign

end SideraCore.Dashboard
