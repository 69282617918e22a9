import SideraCore.Dashboard.Apply

/-!
Owns the limit on the source addresses of an account: the first-seen times that
`aggregateAccountUsageLocked` merges from the memberships, and the rank by which
`adminSourceIPAllowed` admits an address.
-/

namespace SideraCore.Dashboard

/-- `adminSourceIPAllowed`, with the order in which `range` visits the addresses. -/
def adminSourceIPAllowed (maxIPs : Int) (sourceIP : String) (sourceSince : GoMap Int)
    (visited : List String) : Bool :=
  if maxIPs ≤ 0 ∨ visited.length ≤ maxIPs then true
  else
    match sourceSince sourceIP with
    | none => false
    | some connectedAt =>
        visited.countP (fun otherIP => (sourceSince otherIP).any fun otherConnectedAt =>
          otherConnectedAt < connectedAt ∨ otherConnectedAt = connectedAt ∧ otherIP < sourceIP) < maxIPs

def seen (sourceSince : GoMap Int) (address : String) : ℤ ×ₗ String :=
  toLex ((sourceSince address).getD 0, address)

variable {sourceSince : GoMap Int} {visited : List String} {maxIPs : Int}

theorem card_rank_lt {α β : Type} [DecidableEq α] [LinearOrder β] {place : α → β}
    (injective : place.Injective) (bound : Nat) (elements : Finset α) :
    (elements.filter fun element => (elements.filter (place · < place element)).card < bound).card =
      min bound elements.card := by
  induction elements using Finset.induction_on_max_value place with
  | empty => simp
  | insert greatest rest absent below ih =>
      have above (element) (member : element ∈ rest) : place element < place greatest :=
        (below element member).lt_of_ne fun same => absent (injective same ▸ member)
      -- The greatest element is above all others, and counts for none of them.
      have last : (insert greatest rest).filter (place · < place greatest) = rest := by
        rw [Finset.filter_insert, if_neg (lt_irrefl _), Finset.filter_true_of_mem above]
      have others : rest.filter (fun element =>
          ((insert greatest rest).filter (place · < place element)).card < bound) =
            rest.filter fun element => (rest.filter (place · < place element)).card < bound := by
        refine Finset.filter_congr fun element member => ?_
        rw [Finset.filter_insert, if_neg (above element member).not_gt]
      rw [Finset.filter_insert, last, others, Finset.card_insert_of_notMem absent]
      split
      · rw [Finset.card_insert_of_notMem fun member => absent (Finset.mem_of_mem_filter _ member), ih]
        omega
      · rw [ih]
        omega

/-- An address is admitted by its rank among those that are recorded. -/
theorem adminSourceIPAllowed_iff (order : Enumerates visited sourceSince) (limited : 0 < maxIPs)
    {address : String} (recorded : address ∈ visited) :
    adminSourceIPAllowed maxIPs address sourceSince visited ↔
      (visited.toFinset.filter (seen sourceSince · < seen sourceSince address)).card < maxIPs.toNat := by
  unfold adminSourceIPAllowed
  split
  · rename_i few
    refine iff_of_true rfl ?_
    have below : (visited.toFinset.filter (seen sourceSince · < seen sourceSince address)).card <
        visited.toFinset.card :=
      Finset.card_lt_card (Finset.filter_ssubset.2 ⟨address, List.mem_toFinset.2 recorded, lt_irrefl _⟩)
    rw [List.toFinset_card_of_nodup order.nodup] at below
    omega
  · obtain ⟨connectedAt, there⟩ := Option.ne_none_iff_exists'.1 ((order.mem_iff address).1 recorded)
    rw [there, decide_eq_true_iff,
      List.countP_congr (q := fun other => seen sourceSince other < seen sourceSince address),
      List.countP_eq_length_filter, ← List.toFinset_card_of_nodup (order.nodup.filter _),
      List.toFinset_filter]
    · simp only [decide_eq_true_eq]
      omega
    · intro other member
      obtain ⟨since, earlier⟩ := Option.ne_none_iff_exists'.1 ((order.mem_iff other).1 member)
      simp [seen, there, earlier, Prod.Lex.toLex_lt_toLex]

/-- What the inner loops of `aggregateAccountUsageLocked` visit for an account: the
active addresses of its users, in the orders of `addresses`. -/
def Store.visits (store : Store) (order : List String) (addresses : Nat → List String)
    (active : String → String → GoMap Int) (identifier : String) : List (String × Option Int) :=
  (store.members order identifier).zipIdx.flatMap fun visit =>
    (addresses visit.2).map fun address => (address, active visit.1.1 visit.1.2.name address)

def mergeSince (merged : GoMap Int) : String × Option Int → GoMap Int
  | (_, none) => merged
  | (address, some since) =>
      if (merged address).all (since < ·) then Function.update merged address (some since) else merged

def Store.accountSources (store : Store) (order : List String) (addresses : Nat → List String)
    (active : String → String → GoMap Int) (includeMembership : Bool) (identifier : String) : GoMap Int :=
  match store.accounts identifier with
  | none => fun _ => none
  | some account =>
      if !includeMembership ∧ account.policyScope ≠ some .accountGlobal then fun _ => none
      else (store.visits order addresses active identifier).foldl mergeSince fun _ => none

def By (time : Int) (since : Option Int) : Bool := since.any (· ≤ time)

theorem by_foldl_mergeSince (time : Int) (address : String) (visits : List (String × Option Int))
    (merged : GoMap Int) : By time (visits.foldl mergeSince merged address) =
      (By time (merged address) || visits.any fun visit => visit.1 == address && By time visit.2) := by
  induction visits generalizing merged with
  | nil => simp
  | cons visit rest ih =>
      obtain ⟨other, since⟩ := visit
      have step : By time (mergeSince merged (other, since) address) =
          (By time (merged address) || other == address && By time since) := by
        unfold mergeSince By
        cases since with
        | none => simp
        | some since =>
            cases before : merged other with
            | none => grind
            | some previous => grind
      rw [List.foldl_cons, ih, step, List.any_cons, Bool.or_assoc]

theorem eq_some_iff_isLeast {times : Set Int} {since : Option Int}
    (seenBy : ∀ time, By time since ↔ ∃ other ∈ times, other ≤ time) (time : Int) :
    since = some time ↔ IsLeast times time := by
  cases since with
  | none =>
      refine iff_of_false nofun fun least => ?_
      simpa [By] using (seenBy time).2 ⟨time, least.1, le_refl time⟩
  | some first =>
      have least : IsLeast times first := by
        obtain ⟨other, member, before⟩ := (seenBy first).1 (by simp [By])
        have below (later) (member : later ∈ times) : first ≤ later := by
          simpa [By] using (seenBy later).2 ⟨later, member, le_refl later⟩
        exact ⟨le_antisymm before (below other member) ▸ member, below⟩
      exact ⟨fun same => Option.some.inj same ▸ least, fun other => congrArg some (least.unique other)⟩

theorem mem_members {store : Store} {order : List String} (inbounds : Enumerates order store.inbounds)
    {identifier tag : String} {user : User} : (tag, user) ∈ store.members order identifier ↔
      ∃ record, store.inbounds tag = some record ∧ user ∈ record.users ∧ user.accountID = identifier := by
  have listed := inbounds.mem_iff tag
  cases there : store.inbounds tag with
  | none => simp_all [Store.members]
  | some record => simp_all [Store.members]

/-- **The limit admits the earliest addresses.** As many recorded addresses are allowed
as the limit lets in, and they come first by first-seen time and text; that time is the
least over the users of an account. -/
theorem source_limit_admits_earliest :
    (∀ (sourceSince : GoMap Int) (visited : List String) (maxIPs : Int),
      Enumerates visited sourceSince → 0 < maxIPs →
        (visited.filter (adminSourceIPAllowed maxIPs · sourceSince visited)).length =
          min maxIPs.toNat visited.length ∧
        ∀ admitted ∈ visited, ∀ refused ∈ visited,
          adminSourceIPAllowed maxIPs admitted sourceSince visited = true →
          adminSourceIPAllowed maxIPs refused sourceSince visited = false →
            seen sourceSince admitted < seen sourceSince refused) ∧
    ∀ (store : Store) (active : String → String → GoMap Int) (order : List String)
      (addresses : Nat → List String) (includeMembership : Bool) (identifier : String) (account : Account),
      Enumerates order store.inbounds →
      (∀ visit ∈ (store.members order identifier).zipIdx,
        Enumerates (addresses visit.2) (active visit.1.1 visit.1.2.name)) →
      store.accounts identifier = some account →
      (includeMembership ∨ account.policyScope = some .accountGlobal) →
        ∀ address time,
          store.accountSources order addresses active includeMembership identifier address = some time ↔
            IsLeast {since | ∃ tag record user, store.inbounds tag = some record ∧ user ∈ record.users ∧
              user.accountID = identifier ∧ active tag user.name address = some since} time := by
  constructor
  · intro sourceSince visited maxIPs order limited
    have admitted (address) (recorded : address ∈ visited) := adminSourceIPAllowed_iff order limited recorded
    constructor
    · rw [← List.toFinset_card_of_nodup (order.nodup.filter _), List.toFinset_filter,
        Finset.filter_congr fun address member => admitted address (List.mem_toFinset.1 member),
        card_rank_lt fun _ _ same => congrArg (fun place => (ofLex place).2) same,
        List.toFinset_card_of_nodup order.nodup]
    · intro first recorded second other isAdmitted isRefused
      by_contra later
      rw [← Bool.not_eq_true, admitted second other] at isRefused
      refine isRefused (lt_of_le_of_lt (Finset.card_le_card ?_) ((admitted first recorded).1 isAdmitted))
      exact Finset.monotone_filter_right _ fun third _ before => before.trans_le (not_lt.1 later)
  · intro store active order addresses includeMembership identifier account inbounds visited present counted
      address
    refine eq_some_iff_isLeast fun time => ?_
    simp only [Store.accountSources, present]
    rw [if_neg (by grind), by_foldl_mergeSince]
    simp only [By, Option.any_none, Bool.false_or, List.any_eq_true, Bool.and_eq_true, beq_iff_eq,
      Option.any_eq_true, decide_eq_true_eq]
    constructor
    · rintro ⟨visit, member, rfl, since, isSince, before⟩
      obtain ⟨⟨⟨tag, user⟩, place⟩, isMember, mapped⟩ := List.mem_flatMap.1 member
      obtain ⟨address, -, rfl⟩ := List.mem_map.1 mapped
      obtain ⟨record, there, listed, owner⟩ := (mem_members inbounds).1 (List.fst_mem_of_mem_zipIdx isMember)
      exact ⟨since, ⟨tag, record, user, there, listed, owner, isSince⟩, before⟩
    · rintro ⟨since, ⟨tag, record, user, there, listed, owner, isSince⟩, before⟩
      obtain ⟨place, isPlace⟩ := List.getElem?_of_mem ((mem_members inbounds).2 ⟨record, there, listed, owner⟩)
      have isMember := List.mk_mem_zipIdx_iff_getElem?.2 isPlace
      have known := ((visited _ isMember).mem_iff address).2 (by simp [isSince])
      exact ⟨_, List.mem_flatMap.2 ⟨_, isMember, List.mem_map.2 ⟨address, known, rfl⟩⟩, rfl, since, isSince,
        before⟩

/-- Two addresses and a limit of one; two users of an account at one address. -/
theorem source_limit_admits_first :
    let since : GoMap Int := fun address =>
      if address = "x" then some 1 else if address = "y" then some 2 else none
    let store := plainStore [("1", plainAccount "1" "n")] [plainUser "u" "1" "a", plainUser "v" "1" "b"]
    let active : String → String → GoMap Int := fun _ name address =>
      if address = "x" then some (if name = "a" then 5 else 3) else none
    (["y", "x"].filter (adminSourceIPAllowed 1 · since ["y", "x"])).length = 1 ∧
      seen since "x" < seen since "y" ∧
      store.accountSources ["in"] (fun _ => ["x"]) active false "1" "x" = some 3 ∧
      IsLeast {time | ∃ tag record user, store.inbounds tag = some record ∧ user ∈ record.users ∧
        user.accountID = "1" ∧ active tag user.name "x" = some time} 3 := by
  intro since store active
  have addresses : Enumerates ["y", "x"] since := by
    refine ⟨by decide, fun address => ?_⟩
    by_cases isX : address = "x" <;> simp [since, isX]
  have inbounds : Enumerates ["in"] store.inbounds := ⟨by decide, by simp [store, plainStore]⟩
  obtain ⟨limit, merged⟩ := source_limit_admits_earliest
  obtain ⟨admitted, earlier⟩ := limit since ["y", "x"] 1 addresses (by decide)
  have least := merged store active ["in"] (fun _ => ["x"]) false "1" _ inbounds
    (fun _ _ => ⟨by decide, by simp [active]⟩) rfl (.inr rfl) "x" 3
  have merges : store.accountSources ["in"] (fun _ => ["x"]) active false "1" "x" = some 3 := by
    decide +kernel
  exact ⟨admitted, earlier "x" (by decide) "y" (by decide) (by decide +kernel) (by decide +kernel), merges,
    least.1 merges⟩

end SideraCore.Dashboard
