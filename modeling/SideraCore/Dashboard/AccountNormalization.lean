import SideraCore.Dashboard.AccountOrders

/-!
Owns the exact condition under which `ensureAdminAccounts` normalizes a store
whatever the iteration orders of its maps: what the condition gives in every
order, and the order that goes wrong whenever it fails.

The table of references is computed once. An account that is renamed meanwhile frees
one name and takes another, and both decide about the references that come later.
-/

namespace SideraCore.Dashboard

open Control Function

namespace Store

variable (store : Store)

/-- A user that refers to an account of its own name still does. -/
def Keeps (result : Store) : Prop :=
  ∀ tag index user, store.userAt tag index = some user →
    store.Named user.accountID user.name → result.accountAt tag index = some user.accountID

/-- Two normalizations of the store agree up to the identifiers of new accounts. -/
structure SameAssignment (left right : Store) : Prop where
  known : ∀ tag index first second, left.accountAt tag index = some first →
    right.accountAt tag index = some second →
    first = second ∨ (store.accounts first = none ∧ store.accounts second = none)
  shared : ∀ tag index other place,
    left.accountAt tag index = left.accountAt other place ↔
      right.accountAt tag index = right.accountAt other place

def Accepted : Prop :=
  ∃ orders newID now result, orders.Of store ∧ FreshSource newID store.accounts ∧
    ensureAdminAccounts orders newID now store = .ok result

/-- Every successful normalization establishes the account invariant, keeps the accounts
of the right name, is idempotent, and agrees with that of any other orders. -/
def NormalizedInAnyOrder : Prop :=
  ∀ orders newID now result, orders.Of store → FreshSource newID store.accounts →
    ensureAdminAccounts orders newID now store = .ok result →
    result.AccountsNormal ∧ store.Keeps result ∧
      (∀ again newID now, again.Of result →
        ensureAdminAccounts again newID now result = .ok result) ∧
      ∀ others newID now second, others.Of store → FreshSource newID store.accounts →
        ensureAdminAccounts others newID now store = .ok second →
        store.SameAssignment result second

end Store

/-! ### Names that keep apart are enough -/

section Enough

variable {store result second : Store} {accounts later : GoMap Account}

namespace Store.Outcome

section Outcome

variable (outcome : store.Outcome result accounts)
include outcome

theorem has {given : User} (has : result.Has given) :
    (∃ user, store.Has user ∧ given.name = user.name) ∧
      ∃ account, accounts given.accountID = some account ∧ account.name = given.name := by
  obtain ⟨tag, index, found⟩ := Store.has_iff_userAt.1 has
  cases before : store.userAt tag index with
  | none =>
      rw [(outcome.places tag index).2 before] at found
      cases found
  | some user =>
      obtain ⟨identifier, account, present, there, named⟩ := outcome.users tag index user before
      rw [found] at present
      cases present
      exact ⟨⟨user, Store.has_iff_userAt.2 ⟨tag, index, before⟩, rfl⟩, account, there, named⟩

theorem of_accounts {identifier : String} {account : Account}
    (present : result.accounts identifier = some account) :
    accounts identifier = some account ∧ ∃ user, result.Has user ∧ user.accountID = identifier := by
  by_cases used : ∃ user, result.Has user ∧ user.accountID = identifier
  · obtain ⟨user, has, refers⟩ := used
    rw [outcome.used identifier user has refers] at present
    exact ⟨present, user, has, refers⟩
  · push Not at used
    rw [outcome.unused identifier used] at present
    cases present

theorem normal : result.AccountsNormal := by
  refine ⟨?_, ?_, ?_⟩
  · intro user has
    obtain ⟨-, account, there, named⟩ := outcome.has has
    exact ⟨account, by rw [outcome.used _ user has rfl]; exact there, named⟩
  · rintro identifier other name ⟨account, present, named⟩ ⟨found, presentOther, namedOther⟩
    exact outcome.distinct identifier other account found (outcome.of_accounts present).1
      (outcome.of_accounts presentOther).1 (named.trans namedOther.symm)
  · intro identifier known
    obtain ⟨account, present⟩ := Option.ne_none_iff_exists'.1 known
    exact (outcome.of_accounts present).2

theorem validAccounts (apart : store.NamesApart) : ValidAccounts result.accounts := by
  refine ⟨?_, ?_⟩
  · intro identifier account present
    obtain ⟨there, given, has, rfl⟩ := outcome.of_accounts present
    obtain ⟨⟨user, hasUser, same⟩, found, foundThere, named⟩ := outcome.has has
    rw [there] at foundThere
    cases foundThere
    apply outcome.valid _ _ there
    rw [named, same]
    exact apart.named user hasUser
  · intro identifier other account found present presentOther
    exact outcome.distinct identifier other account found (outcome.of_accounts present).1
      (outcome.of_accounts presentOther).1

variable {tag : String} {index : Nat}

theorem userAt_of_namedAfter {user : User} (found : store.userAt tag index = some user)
    (after : store.NamedAfter user.accountID user.name) : result.userAt tag index = some user := by
  obtain ⟨account, there, isNamed⟩ := (outcome.named _ after.known user.name).2 after
  obtain ⟨identifier, other, present, thereOther, namedOther⟩ := outcome.users tag index user found
  have same := outcome.distinct identifier user.accountID other account thereOther there
    (namedOther.trans isNamed.symm)
  rw [same] at present
  exact present

theorem keeps : store.Keeps result := by
  intro tag index user found named
  have refers : store.Refers user.accountID user.name :=
    ⟨user, Store.has_iff_userAt.2 ⟨tag, index, found⟩, rfl, rfl⟩
  have present := outcome.userAt_of_namedAfter found (Store.namedAfter_of_refers refers named)
  simp [Store.accountAt, present]

/-- A record all of whose users keep their accounts is not touched. -/
theorem inbounds_of_namedAfter (all : ∀ index user, store.userAt tag index = some user →
      store.NamedAfter user.accountID user.name) : result.inbounds tag = store.inbounds tag := by
  cases present : store.inbounds tag with
  | none => exact (outcome.inbounds tag).2 present
  | some record =>
      obtain ⟨users, found⟩ := outcome.records tag record present
      have same : users = record.users := by
        apply List.ext_getElem?
        intro index
        have before : store.userAt tag index = record.users[index]? := by simp [Store.userAt, present]
        have after : result.userAt tag index = users[index]? := by simp [Store.userAt, found]
        rw [← before, ← after]
        cases at' : store.userAt tag index with
        | none => exact (outcome.places tag index).2 at'
        | some user => exact outcome.userAt_of_namedAfter at' (all index user at')
      rw [found, same]

theorem eq_of_known (another : store.Outcome second later) {first other name : String}
    {account found : Account} (known : store.accounts first ≠ none)
    (there : accounts first = some account) (named : account.name = name)
    (thereOther : later other = some found) (namedOther : found.name = name) : first = other := by
  have after := (outcome.named first known name).1 ⟨account, there, named⟩
  obtain ⟨also, thereAlso, namedAlso⟩ := (another.named first known name).2 after
  exact another.distinct first other also found thereAlso thereOther (namedAlso.trans namedOther.symm)

theorem accountAt {user : User} (found : store.userAt tag index = some user) :
    ∃ identifier account, result.accountAt tag index = some identifier ∧
      accounts identifier = some account ∧ account.name = user.name := by
  obtain ⟨identifier, account, present, there, named⟩ := outcome.users tag index user found
  exact ⟨identifier, account, by simp [Store.accountAt, present], there, named⟩

theorem accountAt_eq_none (absent : store.userAt tag index = none) :
    result.accountAt tag index = none := by
  simp [Store.accountAt, (outcome.places tag index).2 absent]

theorem accountAt_eq_iff (tag : String) (index : Nat) (other : String) (place : Nat) :
    result.accountAt tag index = result.accountAt other place ↔
      (store.userAt tag index).map (·.name) = (store.userAt other place).map (·.name) := by
  cases first : store.userAt tag index with
  | none =>
      cases last : store.userAt other place with
      | none => simp [outcome.accountAt_eq_none first, outcome.accountAt_eq_none last]
      | some user =>
          obtain ⟨identifier, account, given, -⟩ := outcome.accountAt last
          simp [outcome.accountAt_eq_none first, given]
  | some user =>
      obtain ⟨identifier, account, given, there, named⟩ := outcome.accountAt first
      cases last : store.userAt other place with
      | none => simp [outcome.accountAt_eq_none last, given]
      | some neighbour =>
          obtain ⟨also, found, givenAlso, thereAlso, namedAlso⟩ := outcome.accountAt last
          rw [given, givenAlso, Option.map_some, Option.map_some, Option.some.injEq, Option.some.injEq]
          constructor
          · rintro rfl
            rw [there] at thereAlso
            cases thereAlso
            exact named.symm.trans namedAlso
          · intro same
            exact outcome.distinct identifier also account found there thereAlso
              (named.trans (same.trans namedAlso.symm))

theorem sameAssignment (another : store.Outcome second later) : store.SameAssignment result second := by
  refine ⟨?_, ?_⟩
  · intro tag index first other given givenOther
    cases found : store.userAt tag index with
    | none =>
        rw [outcome.accountAt_eq_none found] at given
        cases given
    | some user =>
        obtain ⟨_, account, present, there, named⟩ := outcome.accountAt found
        obtain ⟨_, also, presentOther, thereOther, namedOther⟩ := another.accountAt found
        rw [given] at present
        rw [givenOther] at presentOther
        cases present
        cases presentOther
        by_cases known : store.accounts first = none
        · by_cases knownOther : store.accounts other = none
          · exact .inr ⟨known, knownOther⟩
          · exact .inl (another.eq_of_known outcome knownOther thereOther namedOther there named).symm
        · exact .inl (outcome.eq_of_known another known there named thereOther namedOther)
  · intro tag index other place
    rw [outcome.accountAt_eq_iff, another.accountAt_eq_iff]

end Outcome

end Store.Outcome

theorem Store.NamesApart.normalizedInAnyOrder (apart : store.NamesApart) :
    store.NormalizedInAnyOrder := by
  intro orders newID now result of fresh succeeded
  obtain ⟨accounts, outcome⟩ := ensureAdminAccounts_outcome apart of fresh succeeded
  refine ⟨outcome.normal, outcome.keeps, ?_, ?_⟩
  · intro again newID now ofResult
    exact ensureAdminAccounts_of_normal ofResult (outcome.validAccounts apart) outcome.normal
  · intro others newID now second ofOthers freshOthers succeededOthers
    obtain ⟨later, another⟩ := ensureAdminAccounts_outcome apart ofOthers freshOthers succeededOthers
    exact outcome.sameAssignment another

end Enough

/-! ### Runs that exist -/

section Runs

variable {store : Store} {orders : Orders} {newID : Nat → Option String} {now : Int}

theorem exists_references {tags : List String} (enumerated : Enumerates tags store.inbounds) :
    ∃ references : List String, references.Nodup ∧ ∀ identifier, identifier ∈ references ↔
      identifier ≠ "" ∧ ∃ user, store.Has user ∧ user.accountID = identifier := by
  refine ⟨(((store.usersIn tags).map (·.accountID)).dedup).filter (· ≠ ""),
    (List.nodup_dedup _).filter _, fun identifier => ?_⟩
  simp only [ne_eq, List.mem_filter, List.mem_dedup, List.mem_map, Store.mem_usersIn enumerated,
    decide_not, Bool.not_eq_eq_eq_not, Bool.not_true, decide_eq_false_iff_not]
  exact and_comm

/-- Identifiers that are longer than all in use. -/
theorem exists_freshSource {accounts : GoMap Account} {keys : List String}
    (enumerated : Enumerates keys accounts) :
    ∃ newID, FreshSource newID accounts ∧ ∀ number, newID number ≠ none := by
  refine ⟨fun number => some (String.ofList (List.replicate ((keys.map String.length).sum + 1 + number) 'x')),
    ⟨?_, ?_⟩, nofun⟩
  · rintro number identifier ⟨⟩
    refine ⟨?_, ?_⟩
    · intro empty
      have length := congrArg String.length empty
      simp at length
    · by_contra taken
      have member := (enumerated.mem_iff _).2 taken
      have bound := List.le_sum_of_mem (List.mem_map_of_mem (f := String.length) member)
      simp at bound
      omega
  · rintro number other identifier ⟨⟩ same
    have length := congrArg String.length (Option.some.inj same)
    simp at length
    omega

theorem assignUsers_succeeds (total : ∀ number, newID number ≠ none) {working : Working}
    (state : Assigning) (users : List User) :
    ∃ result, assignUsers working newID now state users = .ok result := by
  induction users generalizing state with
  | nil => exact ⟨_, rfl⟩
  | cons user rest ih =>
      have first : ∃ assigned, assignUser working newID now state user = .ok assigned := by
        obtain ⟨identifier, generated⟩ := Option.ne_none_iff_exists'.1 (total state.issued)
        unfold assignUser
        split_ifs
        · exact ⟨_, rfl⟩
        · cases state.byName user.name with
          | some existing => exact ⟨_, rfl⟩
          | none =>
              rw [generated]
              exact ⟨_, rfl⟩
      obtain ⟨assigned, first⟩ := first
      obtain ⟨others, remaining⟩ := ih assigned.1
      exact ⟨_, by rw [assignUsers, bind_of_eq_ok first, bind_of_eq_ok remaining]⟩

theorem assignInbounds_succeeds (total : ∀ number, newID number ≠ none) {working : Working}
    (state : Assigning) (inbounds : GoMap InboundRecord) (tags : List String) :
    ∃ result, assignInbounds working newID now state inbounds tags = .ok result := by
  induction tags generalizing state inbounds with
  | nil => exact ⟨_, rfl⟩
  | cons tag rest ih =>
      cases present : inbounds tag with
      | none =>
          simp only [assignInbounds, present]
          exact ih state inbounds
      | some record =>
          obtain ⟨assigned, first⟩ := @assignUsers_succeeds newID now total working state record.users
          simp only [assignInbounds, present]
          rw [bind_of_eq_ok first]
          exact ih _ _

/-- Every order of an accepted store has a run. -/
theorem ensureAdminAccounts_succeeds (of : orders.Of store) (valid : ValidAccounts store.accounts)
    (known : ∀ user, store.Has user → user.accountID ≠ "" → store.accounts user.accountID ≠ none)
    (total : ∀ number, newID number ≠ none) :
    ∃ result, ensureAdminAccounts orders newID now store = .ok result := by
  obtain ⟨byName, indexed⟩ := indexAccounts_succeeds valid of.accounts
  have checked : checkReferences store.accounts (store.usersIn orders.collected) = .ok () := by
    apply checkReferences_eq_ok_iff.2
    intro user member
    exact known user ((Store.mem_usersIn of.collected).1 member)
  unfold ensureAdminAccounts
  rw [bind_of_eq_ok indexed]
  rw [bind_of_eq_ok checked]
  obtain ⟨assigned, last⟩ := @assignInbounds_succeeds newID now total
    (orders.settled store byName now)
    ⟨(orders.settled store byName now).accounts, (orders.settled store byName now).byName, 0⟩
    store.inbounds orders.assigned
  exact ⟨_, bind_of_eq_ok last⟩

end Runs

/-! ### Orders that go wrong when names do not keep apart -/

def Orders.startWith (orders : Orders) (first second : String) : Orders :=
  { orders with references := first :: second :: (orders.references.erase first).erase second }

section Needed

variable {store : Store} {orders : Orders} {first second : String} {now : Int} {byName : GoMap String}

theorem Orders.Of.startWith (of : orders.Of store) (isFirst : first ∈ orders.references)
    (isSecond : second ∈ orders.references) (different : first ≠ second) :
    (orders.startWith first second).Of store := by
  refine ⟨of.accounts, of.collected, of.assigned, ?_, ?_⟩
  · have nodup := (of.nodup.erase first).erase second
    simp [Orders.startWith, different, nodup, of.nodup.mem_erase_iff,
      (of.nodup.erase first).mem_erase_iff]
  · intro identifier
    rw [← of.references identifier]
    simp only [Orders.startWith, List.mem_cons, of.nodup.mem_erase_iff,
      (of.nodup.erase first).mem_erase_iff]
    constructor
    · rintro (rfl | rfl | ⟨-, -, member⟩)
      · exact isFirst
      · exact isSecond
      · exact member
    · intro member
      tauto

theorem settled_startWith (of : orders.Of store) (identifier : String)
    (early : identifier = first ∨ identifier = second) :
    let start : Working := ⟨store.accounts, byName, fun identifier _ => identifier⟩
    let users := store.usersIn orders.collected
    let two := settleReference users now (settleReference users now start first) second
    ((orders.startWith first second).settled store byName now).accounts identifier =
        two.accounts identifier ∧
      ((orders.startWith first second).settled store byName now).assign identifier =
        two.assign identifier := by
  have notLater : identifier ∉ (orders.references.erase first).erase second := by
    rw [(of.nodup.erase first).mem_erase_iff, of.nodup.mem_erase_iff]
    tauto
  exact settleReferences_settles.others _ notLater

section Moves

variable {working : Working} {identifier name : String} {account : Account} {users : List User}

section

variable (here : working.accounts identifier = some account) (sole : soleName (referenceNames users identifier) = some name) (misnamed : name ≠ account.name)
include here sole misnamed

theorem settleReference_rename
    (free : working.byName name = none) :
    settleReference users now working identifier =
      { working with
        accounts := update working.accounts identifier (some (account.rename name now))
        byName := update (update working.byName account.name none) name
          (some identifier) } := by
  simp only [settleReference, here, sole, if_neg misnamed, free]

theorem settleReference_move
    {existing : String} (taken : working.byName name = some existing) :
    settleReference users now working identifier =
      { working with assign := update working.assign identifier fun _ => existing } := by
  simp only [settleReference, here, sole, if_neg misnamed, taken]

end

end Moves

variable {identifier name : String}

theorem Store.Moves.present (moves : store.Moves identifier name) :
    ∃ account, store.accounts identifier = some account ∧ name ≠ account.name := by
  obtain ⟨account, present, misnamed⟩ := moves.misnamed
  exact ⟨account, present, misnamed.symm⟩

theorem Store.Moves.soleName (of : orders.Of store) (moves : store.Moves identifier name) :
    soleName (referenceNames (store.usersIn orders.collected) identifier) = some name :=
  (soleName_references of.collected).2 ⟨moves.refers, moves.sole⟩

theorem byName_of_free (free : store.Free name) (indexes : Indexes byName store.accounts) :
    byName name = none := by
  by_contra taken
  obtain ⟨identifier, found⟩ := Option.ne_none_iff_exists'.1 taken
  exact free identifier ((indexes name identifier).1 found)

/-- Users that move to the name of an account which is then renamed. -/
theorem settled_chain (of : orders.Of store) (indexes : Indexes byName store.accounts) {account : Account}
    {name : String} (present : store.accounts second = some account) (moves : store.Moves second name)
    (free : store.Free name) (chained : store.Moves first account.name) :
    ((orders.startWith first second).settled store byName now).accounts second =
        some (account.rename name now) ∧
      ((orders.startWith first second).settled store byName now).assign first account.name = second := by
  obtain ⟨other, presentFirst, misnamedFirst⟩ := chained.present
  obtain ⟨found, presentSecond, misnamedSecond⟩ := moves.present
  rw [present] at presentSecond
  cases presentSecond
  have taken : byName account.name = some second := (indexes _ _).2 ⟨account, present, rfl⟩
  rw [(settled_startWith of second (.inr rfl)).1, (settled_startWith of first (.inl rfl)).2]
  rw [@settleReference_move _ ⟨store.accounts, byName, fun identifier _ => identifier⟩ _ _ _ _
    presentFirst (chained.soleName of) misnamedFirst _ taken]
  rw [@settleReference_rename _ ⟨_, _, _⟩ _ _ _ _ present (moves.soleName of) misnamedSecond
    (byName_of_free free indexes)]
  exact ⟨update_self .., by simp⟩

/-- Two accounts whose users move to one free name: the first takes it, and gets the
users of both. -/
theorem settled_rivals (of : orders.Of store) (indexes : Indexes byName store.accounts)
    (free : store.Free name) (moves : store.Moves first name) (rivals : store.Moves second name)
    (different : second ≠ first) :
    ((orders.startWith first second).settled store byName now).assign first name = first ∧
      ((orders.startWith first second).settled store byName now).assign second name = first := by
  obtain ⟨account, presentFirst, misnamedFirst⟩ := moves.present
  obtain ⟨other, presentSecond, misnamedSecond⟩ := rivals.present
  have still : update store.accounts first (some (account.rename name now)) second =
      some other := by
    rw [update_of_ne different, presentSecond]
  rw [(settled_startWith of first (.inl rfl)).2, (settled_startWith of second (.inr rfl)).2]
  rw [@settleReference_rename _ ⟨store.accounts, byName, fun identifier _ => identifier⟩ _ _ _ _
    presentFirst (moves.soleName of) misnamedFirst (byName_of_free free indexes)]
  rw [@settleReference_move _ ⟨_, _, _⟩ _ _ _ _ still (rivals.soleName of) misnamedSecond _
    (update_self ..)]
  exact ⟨by simp [update_of_ne different.symm], by simp⟩

theorem Store.Becomes.settled_user {working : Working} {newID : Nat → Option String} {result : Store}
    {state : Assigning} (becomes : store.Becomes working newID result state) {tag : String} {index : Nat}
    {user : User} (found : store.userAt tag index = some user) (refers : user.accountID ≠ "")
    (assigned : working.assign user.accountID user.name = identifier) (generated : identifier ≠ "") :
    result.userAt tag index = some { user with accountID := identifier } := by
  have current : working.current user = identifier := by
    rw [Working.current, if_neg refers, assigned]
  obtain ⟨given, present, settled⟩ := becomes.users tag index user found
  rcases settled with ⟨-, rfl⟩ | ⟨empty, -⟩
  · rw [present, current]
  · exact absurd (current.symm.trans empty) generated

theorem Store.Moves.user (moves : store.Moves identifier name) :
    ∃ tag index user, store.userAt tag index = some user ∧ user.accountID = identifier ∧
      user.name = name := by
  obtain ⟨user, has, refers, named⟩ := moves.refers
  obtain ⟨tag, index, found⟩ := Store.has_iff_userAt.1 has
  exact ⟨tag, index, user, found, refers, named⟩

theorem Store.AccountsNormal.exists_orders (normal : store.AccountsNormal)
    (valid : ∀ identifier, store.accounts identifier ≠ none → identifier ≠ "") {tags : List String}
    (enumerated : Enumerates tags store.inbounds) : ∃ orders : Orders, orders.Of store := by
  obtain ⟨references, nodup, mem⟩ := exists_references enumerated
  refine ⟨⟨references, tags, references, tags⟩, ⟨nodup, ?_⟩, enumerated, enumerated, nodup, mem⟩
  intro identifier
  rw [mem]
  constructor
  · rintro ⟨-, user, has, rfl⟩
    exact (normal.assigned user has).known
  · intro present
    exact ⟨valid identifier present, normal.referenced identifier present⟩

namespace Store.Accepted

variable (accepted : store.Accepted)
include accepted

theorem run {other : String} (moves : store.Moves first name)
    (movesSecond : store.Moves second other) (different : first ≠ second) :
    ∃ (orders : Orders) (newID : Nat → Option String) (result : Store) (byName : GoMap String)
        (state : Assigning), orders.Of store ∧ Indexes byName store.accounts ∧
      FreshSource newID store.accounts ∧ (orders.startWith first second).Of store ∧
      ensureAdminAccounts (orders.startWith first second) newID 0 store = .ok result ∧
      store.Becomes ((orders.startWith first second).settled store byName 0) newID result state := by
  obtain ⟨orders, source, now, before, of, fresh, succeeded⟩ := accepted
  obtain ⟨-, -, valid, -, known, -⟩ := ensureAdminAccounts_eq_ok of fresh succeeded
  obtain ⟨newID, fresh, total⟩ := exists_freshSource of.accounts
  have ofStart := of.startWith ((of.references first).2 (moves.referred valid))
    ((of.references second).2 (movesSecond.referred valid)) different
  obtain ⟨result, ran⟩ := ensureAdminAccounts_succeeds ofStart valid known total
  obtain ⟨byName, state, -, indexes, -, becomes⟩ := ensureAdminAccounts_eq_ok ofStart fresh ran
  exact ⟨orders, newID, result, byName, state, of, indexes, fresh, ofStart, ran, becomes⟩

theorem identifier_ne {account : Account}
    (present : store.accounts identifier = some account) : identifier ≠ "" := by
  obtain ⟨orders, newID, now, result, of, fresh, succeeded⟩ := accepted
  obtain ⟨-, -, valid, -⟩ := ensureAdminAccounts_eq_ok of fresh succeeded
  exact valid.identifier_ne present

variable (normalized : store.NormalizedInAnyOrder)
include normalized

theorem not_chained {account : Account} (present : store.accounts second = some account)
    (moves : store.Moves second name) (free : store.Free name) (different : first ≠ second) :
    ¬store.Moves first account.name := by
  intro chained
  obtain ⟨orders, newID, result, byName, state, of, indexes, fresh, ofStart, ran, becomes⟩ :=
    accepted.run chained moves different
  obtain ⟨renamed, assigned⟩ := @settled_chain _ _ _ _ 0 _ of indexes _ _ present moves free chained
  obtain ⟨tag, index, user, found, refers, named⟩ := chained.user
  obtain ⟨other, presentFirst, -⟩ := chained.present
  have given : result.userAt tag index = some { user with accountID := second } := by
    apply becomes.settled_user found
    · rw [refers]
      exact accepted.identifier_ne presentFirst
    · rw [refers, named]
      exact assigned
    · exact accepted.identifier_ne present
  have has : result.Has { user with accountID := second } := has_iff_userAt.2 ⟨tag, index, given⟩
  obtain ⟨last, lastPresent, lastNamed⟩ := (normalized _ _ _ _ ofStart fresh ran).1.assigned _ has
  rw [becomes.used second _ has rfl, becomes.extension.old _ _ renamed] at lastPresent
  cases lastPresent
  exact moves.not_named ⟨account, present, (lastNamed.trans named).symm⟩

theorem not_rivals (moves : store.Moves first name) (free : store.Free name) (different : first ≠ second) :
    ¬store.Moves second name := by
  intro rivals
  obtain ⟨tag, index, user, found, refers, named⟩ := moves.user
  obtain ⟨account, present, -⟩ := moves.present
  obtain ⟨other, presentSecond, -⟩ := rivals.present
  have moved {working : Working} {newID : Nat → Option String} {result : Store} {state : Assigning}
      (becomes : store.Becomes working newID result state) {target : String} (nonempty : target ≠ "")
      (assigned : working.assign first name = target) : result.accountAt tag index = some target := by
    have given := becomes.settled_user found (by rw [refers]; exact accepted.identifier_ne present)
      (by rw [refers, named]; exact assigned) nonempty
    simp [Store.accountAt, given]
  -- The user of the first account keeps it in one order and moves to the second in the other.
  obtain ⟨orders, newID, result, byName, state, of, indexes, fresh, ofStart, ran, becomes⟩ :=
    accepted.run moves rivals different
  obtain ⟨others, newID', result', byName', state', of', indexes', fresh', ofStart', ran', becomes'⟩ :=
    accepted.run rivals moves different.symm
  obtain ⟨-, -, -, agrees⟩ := normalized _ newID 0 result ofStart fresh ran
  rcases (agrees _ newID' 0 result' ofStart' fresh' ran').known tag index first second
    (moved becomes (accepted.identifier_ne present)
      (settled_rivals of indexes free moves rivals different.symm).1)
    (moved becomes' (accepted.identifier_ne presentSecond)
      (settled_rivals of' indexes' free rivals moves different).2) with same | ⟨absent, -⟩
  · exact different same
  · rw [present] at absent
    cases absent

theorem named {user : User} (has : store.Has user) : user.name ≠ "" := by
  obtain ⟨orders, newID, now, result, of, fresh, succeeded⟩ := id accepted
  obtain ⟨byName, state, valid, indexes, -, becomes⟩ := ensureAdminAccounts_eq_ok of fresh succeeded
  obtain ⟨normal, -, again, -⟩ := normalized orders newID now result of fresh succeeded
  have enumerated : Enumerates orders.assigned result.inbounds := by
    refine ⟨of.assigned.nodup, fun tag => ?_⟩
    rw [of.assigned.mem_iff, ne_eq, ne_eq, becomes.inbounds]
  have nonempty : ∀ identifier, result.accounts identifier ≠ none → identifier ≠ "" := by
    intro identifier known
    obtain ⟨given, hasGiven, refers⟩ := normal.referenced identifier known
    rw [becomes.used identifier given hasGiven refers] at known
    obtain ⟨account, present⟩ := Option.ne_none_iff_exists'.1 known
    by_cases new : store.accounts identifier = none
    · obtain ⟨⟨number, -, generated⟩, -⟩ := becomes.extension.new identifier account present
        ((settleReferences_settles.known _).2 new)
      exact (fresh.unused number identifier generated).1
    · obtain ⟨first, there⟩ := Option.ne_none_iff_exists'.1 new
      exact accepted.identifier_ne there
  obtain ⟨orders', of'⟩ := normal.exists_orders nonempty enumerated
  have fixed := again orders' (fun _ => none) 0 of'
  obtain ⟨_, _, validResult, -⟩ := ensureAdminAccounts_eq_ok of' ⟨by simp, by simp⟩ fixed
  obtain ⟨tag, index, found⟩ := has_iff_userAt.1 has
  obtain ⟨identifier, given, -⟩ := becomes.users tag index user found
  obtain ⟨account, present, named⟩ := normal.assigned _ (has_iff_userAt.2 ⟨tag, index, given⟩)
  rw [← show account.name = user.name from named]
  exact validResult.name_ne present

end Store.Accepted

end Needed

/-- Normalization is right in every order of the maps exactly for the stores whose
names keep apart. -/
theorem normalizedInAnyOrder_iff_namesApart (store : Store) (accepted : store.Accepted) :
    store.NormalizedInAnyOrder ↔ store.NamesApart := by
  refine ⟨fun normalized => ⟨?_, ?_⟩, Store.NamesApart.normalizedInAnyOrder⟩
  · intro user has
    exact accepted.named normalized has
  · intro identifier other account name second present moves free movesOther different
    refine ⟨?_, ?_⟩
    · rintro rfl
      exact accepted.not_chained normalized present moves free different movesOther
    · rintro rfl
      exact accepted.not_rivals normalized moves free different.symm movesOther

/-! ### A rename and a chain of renames -/

def plainAccount (identifier name : String) : Account :=
  { newAccount identifier
      { id := "", accountID := "", inbound := "", type := "", name := name, uuid := "", password := "",
        flow := "", alterID := 0, enabled := true, quotaBytes := 0, expiresAt := 0, maxIPs := 0,
        uploadBytes := 0, downloadBytes := 0, trafficGeneration := 0, createdAt := 0, updatedAt := 0 }
      0 with
    policyScope := some .accountGlobal }

def plainUser (identifier accountID name : String) : User :=
  { id := identifier, accountID := accountID, inbound := "in", type := "vless", name := name,
    uuid := "", password := "", flow := "", alterID := 0, enabled := true, quotaBytes := 0,
    expiresAt := 0, maxIPs := 0, uploadBytes := 0, downloadBytes := 0, trafficGeneration := 0,
    createdAt := 0, updatedAt := 0 }

def plainStore (accounts : List (String × Account)) (users : List User) : Store :=
  { accounts := fun identifier => accounts.lookup identifier
    inbounds := fun tag => if tag = "in" then some
      { type := "vless", authoritative := false, blockUUID := "", blockPassword := "", users := users,
        revision := 0, appliedRevision := 0 } else none
    servers := fun _ => none
    subscriptions := fun _ => none
    externalSubscriptions := fun _ => none }

theorem has_plainStore {accounts : List (String × Account)} {users : List User} {user : User} :
    (plainStore accounts users).Has user ↔ user ∈ users := by
  constructor
  · rintro ⟨tag, record, present, member⟩
    simp only [plainStore] at present
    split_ifs at present
    cases present
    exact member
  · intro member
    exact ⟨"in", _, rfl, member⟩

theorem enumerates_lookup {α : Type} {pairs : List (String × α)} (nodup : (pairs.map Prod.fst).Nodup) :
    Enumerates (pairs.map Prod.fst) fun key => pairs.lookup key := by
  refine ⟨nodup, fun key => ?_⟩
  induction pairs with
  | nil => simp
  | cons pair rest ih =>
      by_cases same : key = pair.1
      · simp [same]
      · have later := ih (List.nodup_cons.1 nodup).2
        simp [same, later]

theorem lookup_plainAccount {identifier : String} {account : Account}
    (found : [("1", plainAccount "1" "a")].lookup identifier = some account) :
    identifier = "1" ∧ account = plainAccount "1" "a" := by
  rw [List.lookup_cons] at found
  split at found
  · rename_i same
    exact ⟨by simpa using same, (Option.some.inj found).symm⟩
  · cases found

theorem plainAccount_valid {accounts : GoMap Account}
    (only : accounts = fun identifier => [("1", plainAccount "1" "a")].lookup identifier) :
    ValidAccounts accounts := by
  subst only
  refine ⟨?_, ?_⟩
  · intro identifier account present
    obtain ⟨rfl, rfl⟩ := lookup_plainAccount present
    decide
  · intro identifier other account second present presentOther _
    rw [(lookup_plainAccount present).1, (lookup_plainAccount presentOther).1]

def plainOrders (accounts : List (String × Account)) (users : List User) : Orders :=
  ⟨accounts.map Prod.fst, ["in"], users.map (·.accountID), ["in"]⟩

theorem plainOrders_of {accounts : List (String × Account)} {users : List User}
    (distinct : (accounts.map Prod.fst).Nodup) (nodup : (users.map (·.accountID)).Nodup)
    (refers : ∀ user ∈ users, user.accountID ≠ "") :
    (plainOrders accounts users).Of (plainStore accounts users) := by
  have tags : Enumerates ["in"] (plainStore accounts users).inbounds := by
    refine ⟨by simp, fun tag => ?_⟩
    simp [plainStore]
  refine ⟨enumerates_lookup distinct, tags, tags, nodup, ?_⟩
  intro identifier
  simp only [plainOrders, has_plainStore, List.mem_map]
  constructor
  · rintro ⟨user, member, rfl⟩
    exact ⟨refers user member, user, member, rfl⟩
  · exact And.right

def renamedStore : Store := plainStore [("1", plainAccount "1" "a")] [plainUser "u" "1" "b"]

theorem renamedStore_accepted : renamedStore.Accepted := by
  have succeeded : (ensureAdminAccounts
      (plainOrders [("1", plainAccount "1" "a")] [plainUser "u" "1" "b"]) (fun _ => none) 0
      renamedStore).isOk = true := by decide +kernel
  have of : (plainOrders [("1", plainAccount "1" "a")] [plainUser "u" "1" "b"]).Of renamedStore :=
    plainOrders_of (by decide) (by decide) (by decide)
  generalize ran : ensureAdminAccounts _ _ _ _ = outcome at succeeded
  cases outcome with
  | error problem => cases succeeded
  | ok result => exact ⟨_, _, _, result, of, ⟨by simp, by simp⟩, ran⟩

theorem renamedStore_namesApart : renamedStore.NamesApart := by
  refine ⟨?_, ?_⟩
  · intro user has
    rw [renamedStore, has_plainStore, List.mem_singleton] at has
    rw [has]
    decide
  · intro identifier other account name second _ moves _ movesOther different
    obtain ⟨user, has, refers, -⟩ := moves.refers
    obtain ⟨another, hasOther, refersOther, -⟩ := movesOther.refers
    rw [renamedStore, has_plainStore, List.mem_singleton] at has hasOther
    rw [hasOther, ← has, refers] at refersOther
    exact absurd refersOther.symm different

theorem renamedStore_normalized : renamedStore.Accepted ∧ renamedStore.NormalizedInAnyOrder :=
  ⟨renamedStore_accepted,
    (normalizedInAnyOrder_iff_namesApart renamedStore renamedStore_accepted).2 renamedStore_namesApart⟩

/-- The users of the first account have the name of the second, and those of the
second a new one. -/
def chainedAccounts : List (String × Account) :=
  [("1", plainAccount "1" "a"), ("2", plainAccount "2" "b")]

def chainedUsers : List User := [plainUser "u" "1" "b", plainUser "v" "2" "c"]

/-- The user named `b` ends at an account named `c`. -/
theorem chainedStore_misassigned :
    ∃ (orders : Orders) (newID : Nat → Option String) (result : Store),
      orders.Of (plainStore chainedAccounts chainedUsers) ∧
      FreshSource newID (plainStore chainedAccounts chainedUsers).accounts ∧
      ensureAdminAccounts orders newID 0 (plainStore chainedAccounts chainedUsers) = .ok result ∧
      ¬result.AccountsNormal := by
  have succeeded : ((ensureAdminAccounts (plainOrders chainedAccounts chainedUsers) (fun _ => none) 0
      (plainStore chainedAccounts chainedUsers)).toOption.map fun result =>
        (result.userAt "in" 0, (result.accounts "2").map (·.name))) =
      some (some (plainUser "u" "2" "b"), some "c") := by decide +kernel
  have of := @plainOrders_of chainedAccounts chainedUsers (by decide) (by decide) (by decide)
  generalize ran : ensureAdminAccounts _ _ _ _ = outcome at succeeded
  cases outcome with
  | error problem => cases succeeded
  | ok result =>
      simp only [Except.toOption, Option.map_some, Option.some.injEq, Prod.mk.injEq] at succeeded
      refine ⟨_, _, result, of, ⟨by simp, by simp⟩, ran, fun normal => ?_⟩
      obtain ⟨account, present, named⟩ :=
        normal.assigned _ (Store.has_iff_userAt.2 ⟨"in", 0, succeeded.1⟩)
      have isNamed := succeeded.2
      rw [show result.accounts "2" = some account from present, Option.map_some, named] at isNamed
      simp [plainUser] at isNamed

end SideraCore.Dashboard
