import SideraCore.Dashboard.AccountNormalization

/-!
Owns `saveStoreNormalized` as the rest of the dashboard sees it: the accounts, the
subscription tokens and the server profiles are normalized in memory, and the
result is written. Each of its results says when a stage leaves the store alone.

A save that fails has already normalized the store in memory. Identifiers and
tokens come from `crypto/rand`, which does not fail.
-/

namespace SideraCore.Dashboard

open Function InboundRecord

def tokenDigit (character : Char) : Option Nat :=
  if 'A' ≤ character ∧ character ≤ 'Z' then some (character.toNat - 65)
  else if 'a' ≤ character ∧ character ≤ 'z' then some (character.toNat - 71)
  else if '0' ≤ character ∧ character ≤ '9' then some (character.toNat + 4)
  else if character = '-' then some 62
  else if character = '_' then some 63
  else none

/-- The canonical encodings of 32 bytes: of the last of 43 characters only four bits
count. -/
def validSubscriptionToken (token : String) : Bool :=
  token.toList.length = 43 && token.toList.all (fun character => (tokenDigit character).isSome) &&
    (token.toList.getLast?.bind tokenDigit).any (· % 4 = 0)

/-- The names of the users, sorted, whatever the order of the inbounds. -/
def Store.names (store : Store) (tags : List String) : List String :=
  ((store.usersIn tags).map (·.name)).dedup.mergeSort

/-- The loop over the sorted names; `draw` gives the first random token that is not
used. -/
def issueTokens (draw : List String → String) :
    List String → List String → GoMap String → GoMap String
  | [], _, subscriptions => subscriptions
  | name :: rest, used, subscriptions =>
      let token := (subscriptions name).getD ""
      if validSubscriptionToken token ∧ token ∉ used then
        issueTokens draw rest (token :: used) subscriptions
      else
        issueTokens draw rest (draw used :: used)
          (update subscriptions name (some (draw used)))

def keepNames (names : List String) (table : GoMap String) : GoMap String :=
  fun name => if name ∈ names then table name else none

def ensureSubscriptionTokens (draw : List String → String) (tags : List String) (store : Store) :
    Store :=
  { store with
    subscriptions := issueTokens draw (store.names tags) []
      (keepNames (store.names tags) store.subscriptions)
    externalSubscriptions := keepNames (store.names tags) store.externalSubscriptions }

def tokenSupply : Nat := 64 ^ 42

theorem tokenSupply_pos : 0 < tokenSupply := by
  exact Nat.pow_pos (by decide)

/-- Drawn tokens are valid and new, as long as there are new ones. -/
def TokenSource (draw : List String → String) : Prop :=
  ∀ used, used.length < tokenSupply → validSubscriptionToken (draw used) = true ∧ draw used ∉ used

/-- Exactly the users have tokens, valid and pairwise different, and only users have
external subscriptions. -/
structure Store.TokensInOrder (store : Store) : Prop where
  present : ∀ user, store.Has user → store.subscriptions user.name ≠ none
  known : ∀ name, store.subscriptions name ≠ none → ∃ user, store.Has user ∧ user.name = name
  valid : ∀ name token, store.subscriptions name = some token → validSubscriptionToken token = true
  distinct : ∀ name other token, store.subscriptions name = some token →
    store.subscriptions other = some token → name = other
  external : ∀ name, store.externalSubscriptions name ≠ none →
    ∃ user, store.Has user ∧ user.name = name

section Tokens

variable {draw : List String → String} {names used : List String} {subscriptions : GoMap String}
  {store : Store} {tags : List String}

theorem mem_names (order : Enumerates tags store.inbounds) {name : String} :
    name ∈ store.names tags ↔ ∃ user, store.Has user ∧ user.name = name := by
  simp only [Store.names, List.mem_mergeSort, List.mem_dedup, List.mem_map, Store.mem_usersIn order]

theorem names_nodup : (store.names tags).Nodup :=
  (List.mergeSort_perm _ _).nodup_iff.2 (List.nodup_dedup _)

theorem issueTokens_of_notMem {name : String} (absent : name ∉ names) :
    issueTokens draw names used subscriptions name = subscriptions name := by
  induction names generalizing used subscriptions with
  | nil => rfl
  | cons first rest ih =>
      rw [List.mem_cons, not_or] at absent
      simp only [issueTokens]
      split_ifs
      · exact ih absent.2
      · rw [ih absent.2, update_of_ne absent.1]

theorem issueTokens_eq_self_iff (source : TokenSource draw) (nodup : names.Nodup)
    (few : used.length + names.length ≤ tokenSupply) :
    issueTokens draw names used subscriptions = subscriptions ↔
      (∀ name ∈ names, ∃ token, subscriptions name = some token ∧
        validSubscriptionToken token = true ∧ token ∉ used) ∧ (names.map subscriptions).Nodup := by
  induction names generalizing used subscriptions with
  | nil => simp [issueTokens]
  | cons first rest ih =>
      obtain ⟨notLater, nodupRest⟩ := List.nodup_cons.1 nodup
      rw [List.length_cons] at few
      simp only [issueTokens]
      split_ifs with kept
      · have token : subscriptions first = some ((subscriptions first).getD "") := by
          cases present : subscriptions first with
          | none =>
              rw [present] at kept
              exact absurd kept.1 (by decide)
          | some token => rfl
        generalize (subscriptions first).getD "" = found at kept token
        rw [ih nodupRest (by rw [List.length_cons]; omega), List.forall_mem_cons,
          List.map_cons, List.nodup_cons, token, List.mem_map]
        constructor
        · rintro ⟨issued, apart⟩
          refine ⟨⟨⟨found, rfl, kept⟩, fun name later => ?_⟩, ?_, apart⟩
          · obtain ⟨other, present, valid, unused⟩ := issued name later
            exact ⟨other, present, valid, List.not_mem_of_not_mem_cons unused⟩
          · rintro ⟨name, later, same⟩
            obtain ⟨other, present, -, unused⟩ := issued name later
            rw [present, Option.some.injEq] at same
            exact unused (by simp [same])
        · rintro ⟨⟨-, issued⟩, different, apart⟩
          refine ⟨fun name later => ?_, apart⟩
          obtain ⟨other, present, valid, unused⟩ := issued name later
          refine ⟨other, present, valid, List.not_mem_cons_of_ne_of_not_mem ?_ unused⟩
          rintro rfl
          exact different ⟨name, later, present⟩
      · -- A token that is replaced is not the one that was there.
        refine iff_of_false ?_ ?_
        · intro unchanged
          have atFirst := congrFun unchanged first
          rw [issueTokens_of_notMem notLater, update_self] at atFirst
          rw [← atFirst, Option.getD_some] at kept
          exact kept (source used (by omega))
        · rintro ⟨issued, -⟩
          obtain ⟨token, present, valid, unused⟩ := issued first List.mem_cons_self
          rw [present, Option.getD_some] at kept
          exact kept ⟨valid, unused⟩

theorem keepNames_eq_self_iff {table : GoMap String} :
    keepNames names table = table ↔ ∀ name, table name ≠ none → name ∈ names := by
  constructor
  · intro same name present
    by_contra absent
    rw [← same] at present
    exact present (if_neg absent)
  · intro all
    funext name
    by_cases member : name ∈ names
    · exact if_pos member
    · have absent : table name = none := by
        by_contra present
        exact member (all name present)
      rw [absent]
      exact if_neg member

/-- Tokens stay as they are only where they are in order. -/
theorem ensureSubscriptionTokens_eq_self_iff (source : TokenSource draw)
    (order : Enumerates tags store.inbounds) (few : (store.names tags).length ≤ tokenSupply) :
    ensureSubscriptionTokens draw tags store = store ↔ store.TokensInOrder := by
  have keeps (unchanged : ensureSubscriptionTokens draw tags store = store) :
      keepNames (store.names tags) store.subscriptions = store.subscriptions := by
    rw [keepNames_eq_self_iff]
    intro name present
    by_contra absent
    have same := congrFun (congrArg Store.subscriptions unchanged) name
    simp only [ensureSubscriptionTokens] at same
    rw [issueTokens_of_notMem absent, keepNames, if_neg absent] at same
    exact present same.symm
  constructor
  · intro unchanged
    have kept := keeps unchanged
    have issued := congrArg Store.subscriptions unchanged
    have external := congrArg Store.externalSubscriptions unchanged
    simp only [ensureSubscriptionTokens] at issued external
    rw [kept, issueTokens_eq_self_iff source names_nodup (by simpa using few)] at issued
    rw [keepNames_eq_self_iff] at kept external
    refine ⟨?_, ?_, ?_, ?_, ?_⟩
    · intro user has
      obtain ⟨token, present, -⟩ := issued.1 user.name ((mem_names order).2 ⟨user, has, rfl⟩)
      simp [present]
    · intro name present
      exact (mem_names order).1 (kept name present)
    · intro name token present
      obtain ⟨other, presentOther, valid, -⟩ := issued.1 name (kept name (by simp [present]))
      rw [present, Option.some.injEq] at presentOther
      exact presentOther ▸ valid
    · intro name other token present presentOther
      exact List.inj_on_of_nodup_map issued.2 (kept name (by simp [present]))
        (kept other (by simp [presentOther])) (present.trans presentOther.symm)
    · intro name present
      exact (mem_names order).1 (external name present)
  · intro inOrder
    have kept : keepNames (store.names tags) store.subscriptions = store.subscriptions :=
      keepNames_eq_self_iff.2 fun name present => (mem_names order).2 (inOrder.known name present)
    have external : keepNames (store.names tags) store.externalSubscriptions =
        store.externalSubscriptions :=
      keepNames_eq_self_iff.2 fun name present => (mem_names order).2 (inOrder.external name present)
    have issued : issueTokens draw (store.names tags) [] store.subscriptions = store.subscriptions := by
      rw [issueTokens_eq_self_iff source names_nodup (by simpa using few)]
      have present (name : String) (member : name ∈ store.names tags) :
          ∃ token, store.subscriptions name = some token := by
        obtain ⟨user, has, rfl⟩ := (mem_names order).1 member
        exact Option.ne_none_iff_exists'.1 (inOrder.present user has)
      refine ⟨?_, ?_⟩
      · intro name member
        obtain ⟨token, found⟩ := present name member
        exact ⟨token, found, inOrder.valid name token found, by simp⟩
      · refine names_nodup.map_on fun name member other _ same => ?_
        obtain ⟨token, found⟩ := present name member
        exact inOrder.distinct name other token found (same ▸ found)
    unfold ensureSubscriptionTokens
    rw [kept, external, issued]

theorem Store.TokensInOrder.congr {other : Store} (inOrder : store.TokensInOrder)
    (inbounds : other.inbounds = store.inbounds)
    (subscriptions : other.subscriptions = store.subscriptions)
    (external : other.externalSubscriptions = store.externalSubscriptions) : other.TokensInOrder := by
  cases other
  subst inbounds subscriptions external
  exact ⟨inOrder.present, inOrder.known, inOrder.valid, inOrder.distinct, inOrder.external⟩

end Tokens

/-! ### Users inside server profiles -/

def blockedAdminServerUsers (type : String) (record : InboundRecord) : List (List (String × String)) :=
  let name := "__sidera_blocked__"
  if type ∈ ["socks", "http", "mixed", "naive", "openvpn-server"] then
    [[("username", name), ("password", record.blockPassword)]]
  else if type = "snell" then [[("name", name), ("userkey", record.blockPassword)]]
  else if type = "vmess" then [[("name", name), ("uuid", record.blockUUID)]]
  else if type = "vless" then [[("name", name), ("uuid", record.blockUUID)]]
  else if type = "tuic" then
    [[("name", name), ("uuid", record.blockUUID), ("password", record.blockPassword)]]
  else if type = "hysteria" then [[("name", name), ("auth_str", record.blockPassword)]]
  else [[("name", name), ("password", record.blockPassword)]]

/-- `replaceAdminServerUsers`; nothing if the configuration is not a JSON object. -/
abbrev ReplaceUsers := String → List (List (String × String)) → Option String

structure ObjectCodec where
  decode : String → Option (GoMap String)
  encode : GoMap String → String
  encodeUsers : List (List (String × String)) → String

/-- What was encoded decodes to an object of the same encoding, also with a member
replaced; members may come back compacted. -/
def ObjectCodec.Lawful (codec : ObjectCodec) : Prop :=
  ∀ object, ∃ compact, codec.decode (codec.encode object) = some compact ∧
    ∀ key text, codec.encode (update compact key text) =
      codec.encode (update object key text)

def replaceAdminServerUsers (codec : ObjectCodec) : ReplaceUsers := fun config users =>
  (codec.decode config).map fun object =>
    codec.encode (update object "users" (some (codec.encodeUsers users)))

variable (replace : ReplaceUsers)

def ReplaceUsers.Idempotent : Prop :=
  ∀ config users replaced, replace config users = some replaced → replace replaced users = some replaced

theorem replaceAdminServerUsers_idempotent {codec : ObjectCodec} (lawful : codec.Lawful) :
    ReplaceUsers.Idempotent (replaceAdminServerUsers codec) := by
  intro config users replaced isReplaced
  obtain ⟨object, -, rfl⟩ := Option.map_eq_some_iff.1 isReplaced
  obtain ⟨compact, decoded, same⟩ :=
    lawful (update object "users" (some (codec.encodeUsers users)))
  simp only [replaceAdminServerUsers, decoded, Option.map_some, same, update_idem]

def scrubProfile (inbounds : GoMap InboundRecord) (tag : String) (profile : ServerProfile) :
    Option ServerProfile :=
  if profile.deleted then some profile
  else
    match inbounds tag with
    | none => some profile
    | some record =>
        if record.authoritative then
          (replace profile.config (blockedAdminServerUsers profile.type record)).map fun config =>
            { profile with config := config }
        else some profile

def scrubProfiles (replace : ReplaceUsers) (inbounds : GoMap InboundRecord) :
    List String → GoMap ServerProfile → GoMap ServerProfile × Option String
  | [], servers => (servers, none)
  | tag :: rest, servers =>
      match servers tag with
      | none => scrubProfiles replace inbounds rest servers
      | some profile =>
          match scrubProfile replace inbounds tag profile with
          | none => (servers, some tag)
          | some scrubbed =>
              scrubProfiles replace inbounds rest (update servers tag (some scrubbed))

/-- Scrubbing leaves the profile of the tag alone: it fails at it or finds it scrubbed. -/
def ScrubKeeps (inbounds : GoMap InboundRecord) (servers : GoMap ServerProfile) (tag : String) : Prop :=
  ∀ profile, servers tag = some profile →
    scrubProfile replace inbounds tag profile = none ∨
      scrubProfile replace inbounds tag profile = some profile

section Scrub

variable {replace : ReplaceUsers} {inbounds : GoMap InboundRecord} {servers : GoMap ServerProfile}
  {tag : String} {order : List String}

theorem scrubProfiles_induction (holds : Option ServerProfile → Prop)
    (step : tag ∈ order → ∀ profile scrubbed, scrubProfile replace inbounds tag profile = some scrubbed →
      holds (some profile) → holds (some scrubbed)) (start : holds (servers tag)) :
    holds ((scrubProfiles replace inbounds order servers).1 tag) := by
  induction order generalizing servers with
  | nil => exact start
  | cons first rest ih =>
      have later := fun member => step (List.mem_cons_of_mem first member)
      unfold scrubProfiles
      cases present : servers first with
      | none => exact ih later start
      | some profile =>
          dsimp only
          cases result : scrubProfile replace inbounds first profile with
          | none => exact start
          | some scrubbed =>
              refine ih later ?_
              by_cases same : tag = first
              · subst same
                rw [update_self]
                exact step List.mem_cons_self profile scrubbed result (present ▸ start)
              · rwa [update_of_ne same]

theorem scrubProfiles_of_notMem (absent : tag ∉ order) :
    (scrubProfiles replace inbounds order servers).1 tag = servers tag :=
  scrubProfiles_induction (· = servers tag) (fun member => absurd member absent) rfl

theorem scrubProfiles_of_keeps (keeps : ScrubKeeps replace inbounds servers tag) :
    (scrubProfiles replace inbounds order servers).1 tag = servers tag := by
  refine scrubProfiles_induction (· = servers tag) (fun _ profile scrubbed result same => ?_) rfl
  rcases keeps profile same.symm with fails | unchanged
  · cases fails.symm.trans result
  · rw [← same, ← unchanged, result]

theorem scrubProfiles_eq_none_iff :
    (scrubProfiles replace inbounds order servers).1 tag = none ↔ servers tag = none :=
  scrubProfiles_induction (· = none ↔ servers tag = none) (fun _ _ _ _ same => by simpa using same) Iff.rfl

def InboundRecord.frame (record : InboundRecord) : Bool × String × String :=
  (record.authoritative, record.blockUUID, record.blockPassword)

variable {other : GoMap InboundRecord}

theorem scrubProfile_of_frame
    (same : (other tag).map frame = (inbounds tag).map frame)
    (profile : ServerProfile) :
    scrubProfile replace other tag profile = scrubProfile replace inbounds tag profile := by
  unfold scrubProfile
  cases present : inbounds tag with
  | none =>
      rw [present, Option.map_none, Option.map_eq_none_iff] at same
      rw [same]
  | some record =>
      rw [present] at same
      obtain ⟨found, presentOther, equal⟩ := Option.map_eq_some_iff.1 same
      simp only [frame, Prod.mk.injEq] at equal
      obtain ⟨authoritative, blockUUID, blockPassword⟩ := equal
      simp only [presentOther, blockedAdminServerUsers, authoritative, blockUUID, blockPassword]

theorem ScrubKeeps.of_frame (keeps : ScrubKeeps replace inbounds servers tag)
    (same : (other tag).map frame = (inbounds tag).map frame) :
    ScrubKeeps replace other servers tag := by
  intro profile present
  rw [scrubProfile_of_frame same]
  exact keeps profile present

def Scrubbable (replace : ReplaceUsers) (inbounds : GoMap InboundRecord)
    (servers : GoMap ServerProfile) : Prop :=
  ∀ tag profile, servers tag = some profile → scrubProfile replace inbounds tag profile ≠ none

theorem scrubProfiles_fails_iff (nodup : order.Nodup) :
    (scrubProfiles replace inbounds order servers).2 ≠ none ↔
      ∃ tag ∈ order, ∃ profile, servers tag = some profile ∧
        scrubProfile replace inbounds tag profile = none := by
  induction order generalizing servers with
  | nil => simp [scrubProfiles]
  | cons first rest ih =>
      obtain ⟨notLater, nodupRest⟩ := List.nodup_cons.1 nodup
      unfold scrubProfiles
      cases present : servers first with
      | none =>
          rw [ih nodupRest]
          simp [present]
      | some profile =>
          dsimp only
          cases scrubbed : scrubProfile replace inbounds first profile with
          | none => simp [present, scrubbed]
          | some result =>
              have others (tag : String) (member : tag ∈ rest) :
                  update servers first (some result) tag = servers tag :=
                update_of_ne (ne_of_mem_of_not_mem member notLater) _ _
              rw [ih nodupRest, List.exists_mem_cons_iff]
              simp only [present, Option.some.injEq, exists_eq_left', scrubbed, reduceCtorEq, false_or]
              exact exists_congr fun tag => and_congr_right fun member => by rw [others tag member]

/-- The profile that is visited first is scrubbed, whatever happens afterwards. -/
theorem scrubProfiles_first {profile scrubbed : ServerProfile} (notLater : tag ∉ order)
    (present : servers tag = some profile)
    (result : scrubProfile replace inbounds tag profile = some scrubbed) :
    (scrubProfiles replace inbounds (tag :: order) servers).1 tag = some scrubbed := by
  simp only [scrubProfiles, present, result]
  rw [scrubProfiles_of_notMem notLater, update_self]

end Scrub

/-- The file operations of a save succeed, or fail with the old or the new content in
place. -/
inductive WriteOutcome where
  | written
  | kept
  | replaced
deriving DecidableEq, Repr

structure SaveContext where
  orders : Orders
  newID : Nat → Option String
  now : Int
  draw : List String → String
  profiles : List String
  write : WriteOutcome

inductive SaveError where
  | accounts (error : AccountError)
  | profile (tag : String)
  | write
deriving DecidableEq, Repr

structure Saved where
  store : Store
  written : Option Store
  error : Option SaveError

def saveStore (context : SaveContext) (store : Store) : Saved :=
  match ensureAdminAccounts context.orders context.newID context.now store with
  | .error error => ⟨store, none, some (.accounts error)⟩
  | .ok accounts =>
      let tokens := ensureSubscriptionTokens context.draw context.orders.assigned accounts
      let scrubbed := scrubProfiles replace tokens.inbounds context.profiles tokens.servers
      let normalized := { tokens with servers := scrubbed.1 }
      match scrubbed.2 with
      | some tag => ⟨normalized, none, some (.profile tag)⟩
      | none =>
          match context.write with
          | .written => ⟨normalized, some normalized, none⟩
          | .kept => ⟨normalized, none, some .write⟩
          | .replaced => ⟨normalized, some normalized, some .write⟩

/-- A context in which the store can be saved: its orders visit the maps, and its
sources keep their promises. -/
structure SaveContext.Of (context : SaveContext) (store : Store) : Prop where
  orders : context.orders.Of store
  fresh : FreshSource context.newID store.accounts
  total : ∀ number, context.newID number ≠ none
  tokens : TokenSource context.draw
  few : (store.names context.orders.assigned).length ≤ tokenSupply
  profiles : Enumerates context.profiles store.servers

/-- The maps of the store are those of a running program: finite ones. -/
structure Store.Finite (store : Store) : Prop where
  accounts : ∃ keys, Enumerates keys store.accounts
  inbounds : ∃ keys, Enumerates keys store.inbounds ∧ (store.names keys).length ≤ tokenSupply
  servers : ∃ keys, Enumerates keys store.servers

/-! ### Contexts that exist -/

def tokenCharacter (digit : Fin 64) : Char :=
  if digit.val < 26 then Char.ofNat (digit.val + 65)
  else if digit.val < 52 then Char.ofNat (digit.val + 71)
  else if digit.val < 62 then Char.ofNat (digit.val - 4)
  else if digit.val = 62 then '-'
  else '_'

theorem tokenDigit_tokenCharacter (digit : Fin 64) : tokenDigit (tokenCharacter digit) = some digit.val := by
  revert digit
  decide

def digitToken (digits : Fin 42 → Fin 64) : String :=
  String.ofList ((List.ofFn digits).map tokenCharacter ++ ['A'])

theorem digitToken_valid (digits : Fin 42 → Fin 64) :
    validSubscriptionToken (digitToken digits) = true := by
  unfold digitToken
  have zero : tokenDigit 'A' = some 0 := rfl
  simp [validSubscriptionToken, tokenDigit_tokenCharacter, zero]

theorem digitToken_injective : Injective digitToken := by
  have characters : Injective tokenCharacter := by
    intro first second same
    have digits := congrArg tokenDigit same
    rw [tokenDigit_tokenCharacter, tokenDigit_tokenCharacter, Option.some.injEq] at digits
    exact Fin.ext digits
  intro first second same
  have lists := List.append_cancel_right (String.ofList_injective same)
  exact List.ofFn_injective (characters.list_map lists)

theorem exists_unused_token (used : List String) (few : used.length < tokenSupply) :
    ∃ token, validSubscriptionToken token = true ∧ token ∉ used := by
  by_contra all
  push Not at all
  have count : Fintype.card (Fin 42 → Fin 64) ≤ used.toFinset.card := by
    rw [← Fintype.card_coe]
    apply Fintype.card_le_of_injective fun digits : Fin 42 → Fin 64 =>
      (⟨digitToken digits, List.mem_toFinset.2 (all _ (digitToken_valid digits))⟩ : used.toFinset)
    intro first second same
    exact digitToken_injective (congrArg Subtype.val same)
  rw [Fintype.card_fun, Fintype.card_fin, Fintype.card_fin] at count
  have bound := used.toFinset_card_le
  unfold tokenSupply at few
  omega

theorem exists_tokenSource : ∃ draw, TokenSource draw := by
  choose draw law using fun used : {used : List String // used.length < tokenSupply} =>
    exists_unused_token used.1 used.2
  refine ⟨fun used => if few : used.length < tokenSupply then draw ⟨used, few⟩ else "", ?_⟩
  intro used few
  simp only [dif_pos few]
  exact law ⟨used, few⟩

section Contexts

variable {store : Store}

theorem Store.Finite.exists_orders (finite : store.Finite) :
    ∃ orders : Orders, orders.Of store ∧ (store.names orders.assigned).length ≤ tokenSupply := by
  obtain ⟨accounts, enumerated⟩ := finite.accounts
  obtain ⟨tags, inbounds, few⟩ := finite.inbounds
  obtain ⟨references, nodup, mem⟩ := exists_references inbounds
  exact ⟨⟨accounts, tags, references, tags⟩, ⟨enumerated, inbounds, inbounds, nodup, mem⟩, few⟩

theorem Enumerates.startWith {α : Type} {keys : List String} {map : GoMap α}
    (enumerated : Enumerates keys map) {first : String} (known : map first ≠ none) :
    Enumerates (first :: keys.erase first) map := by
  refine ⟨?_, fun key => ?_⟩
  · rw [List.nodup_cons, enumerated.nodup.mem_erase_iff]
    exact ⟨fun ⟨different, _⟩ => different rfl, enumerated.nodup.erase first⟩
  · rw [List.mem_cons, enumerated.nodup.mem_erase_iff, enumerated.mem_iff]
    constructor
    · rintro (rfl | ⟨-, present⟩)
      · exact known
      · exact present
    · intro present
      tauto

theorem Store.Finite.exists_context (finite : store.Finite) (write : WriteOutcome) :
    ∃ context : SaveContext, context.Of store ∧ context.write = write := by
  obtain ⟨orders, of, few⟩ := finite.exists_orders
  obtain ⟨newID, fresh, total⟩ := exists_freshSource of.accounts
  obtain ⟨draw, source⟩ := exists_tokenSource
  obtain ⟨profiles, enumerated⟩ := finite.servers
  exact ⟨⟨orders, newID, 0, draw, profiles, write⟩, ⟨of, fresh, total, source, few, enumerated⟩, rfl⟩

theorem SaveContext.Of.startWith {context : SaveContext} (of : context.Of store) {first : String}
    (known : store.servers first ≠ none) :
    ({ context with profiles := first :: context.profiles.erase first } : SaveContext).Of store :=
  ⟨of.orders, of.fresh, of.total, of.tokens, of.few, of.profiles.startWith known⟩

end Contexts

/-! ### What a save does to the store -/

section Saves

variable {replace : ReplaceUsers} {context : SaveContext} {store accounts : Store}

variable (replace) in
theorem saveStore_of_refused (of : context.Of store) (refused : ¬store.AccountsAccepted) :
    ∃ error, saveStore replace context store = ⟨store, none, some (.accounts error)⟩ := by
  unfold saveStore
  cases ensured : ensureAdminAccounts context.orders context.newID context.now store with
  | error error => exact ⟨error, rfl⟩
  | ok accounts =>
      obtain ⟨-, -, valid, -, known, -⟩ := ensureAdminAccounts_eq_ok of.orders of.fresh ensured
      exact absurd ⟨valid, known⟩ refused

def SaveContext.normalized (context : SaveContext) (replace : ReplaceUsers) (accounts : Store) : Store :=
  let tokens := ensureSubscriptionTokens context.draw context.orders.assigned accounts
  { tokens with
    servers := (scrubProfiles replace tokens.inbounds context.profiles tokens.servers).1 }

theorem saveStore_store (ensured : ensureAdminAccounts context.orders context.newID context.now store =
    .ok accounts) : (saveStore replace context store).store = context.normalized replace accounts := by
  simp only [saveStore, ensured, SaveContext.normalized]
  split
  · rfl
  · split <;> rfl

theorem saveStore_fails (failing : context.write ≠ .written) :
    (saveStore replace context store).error ≠ none := by
  unfold saveStore
  split
  · simp
  · dsimp only
    split
    · simp
    · split
      · contradiction
      · simp
      · simp

section Of

variable (of : context.Of store) (accepted : store.AccountsAccepted)
include of accepted

/-- A save of a normal store with its tokens in order only scrubs profiles. -/
theorem saveStore_store_of_normal (normal : store.AccountsNormal) (inOrder : store.TokensInOrder) :
    (saveStore replace context store).store =
      { store with
        servers := (scrubProfiles replace store.inbounds context.profiles store.servers).1 } := by
  have ensured := @ensureAdminAccounts_of_normal store context.orders context.newID context.now
    of.orders accepted.valid normal
  have tokens : ensureSubscriptionTokens context.draw context.orders.assigned store = store :=
    (ensureSubscriptionTokens_eq_self_iff of.tokens of.orders.assigned of.few).2 inOrder
  rw [saveStore_store ensured, SaveContext.normalized, tokens]

theorem normal_of_saveStore
    (accounts : (saveStore replace context store).store.accounts = store.accounts)
    (inbounds : (saveStore replace context store).store.inbounds = store.inbounds) :
    store.AccountsNormal := by
  obtain ⟨result, ensured⟩ := @ensureAdminAccounts_succeeds store context.orders context.newID
    context.now of.orders accepted.valid accepted.known of.total
  rw [saveStore_store ensured] at accounts inbounds
  obtain ⟨servers, subscriptions, external⟩ := ensureAdminAccounts_frame ensured
  have same : result = store := by
    cases store
    subst accounts inbounds servers subscriptions external
    rfl
  rw [same] at ensured
  exact ((ensureAdminAccounts_eq_self_iff of.orders of.fresh).1 ensured).2

theorem tokensInOrder_of_saveStore (normal : store.AccountsNormal)
    (subscriptions : (saveStore replace context store).store.subscriptions = store.subscriptions)
    (external : (saveStore replace context store).store.externalSubscriptions =
      store.externalSubscriptions) : store.TokensInOrder := by
  have ensured := @ensureAdminAccounts_of_normal store context.orders context.newID context.now
    of.orders accepted.valid normal
  rw [saveStore_store ensured] at subscriptions external
  apply (ensureSubscriptionTokens_eq_self_iff of.tokens of.orders.assigned of.few).1
  unfold ensureSubscriptionTokens
  rw [show issueTokens _ _ _ _ = _ from subscriptions, show keepNames _ _ = _ from external]

end Of

variable (replace) in
theorem saveStore_becomes (of : context.Of store) (accepted : store.AccountsAccepted) :
    ∃ result, ensureAdminAccounts context.orders context.newID context.now store = .ok result ∧
      (saveStore replace context store).store = context.normalized replace result ∧
      result.servers = store.servers ∧
      ∀ tag, (result.inbounds tag).map frame =
        (store.inbounds tag).map frame := by
  obtain ⟨result, ensured⟩ := @ensureAdminAccounts_succeeds store context.orders context.newID
    context.now of.orders accepted.valid accepted.known of.total
  obtain ⟨_, _, -, -, -, becomes⟩ := ensureAdminAccounts_eq_ok of.orders of.fresh ensured
  refine ⟨result, ensured, saveStore_store ensured, (ensureAdminAccounts_frame ensured).1, fun tag => ?_⟩
  cases present : store.inbounds tag with
  | none => rw [(becomes.inbounds tag).2 present]
  | some record =>
      obtain ⟨users, found⟩ := becomes.records tag record present
      rw [found]
      rfl

theorem saveStore_frames (of : context.Of store) (tag : String) :
    ((saveStore replace context store).store.inbounds tag).map frame =
      (store.inbounds tag).map frame := by
  by_cases accepted : store.AccountsAccepted
  · obtain ⟨result, -, saved, -, frames⟩ := saveStore_becomes replace of accepted
    rw [saved]
    exact frames tag
  · obtain ⟨error, saved⟩ := saveStore_of_refused replace of accepted
    rw [saved]

variable {tag : String}

section

variable (of : context.Of store)
include of

theorem saveStore_inbounds_eq_none :
    (saveStore replace context store).store.inbounds tag = none ↔ store.inbounds tag = none := by
  rw [← Option.map_eq_none_iff, saveStore_frames of, Option.map_eq_none_iff]

theorem saveStore_servers_first (accepted : store.AccountsAccepted)
    {profile scrubbed : ServerProfile} {later : List String} (first : context.profiles = tag :: later)
    (present : store.servers tag = some profile)
    (result : scrubProfile replace store.inbounds tag profile = some scrubbed) :
    (saveStore replace context store).store.servers tag = some scrubbed := by
  obtain ⟨ensured, -, saved, servers, frames⟩ := saveStore_becomes replace of accepted
  have nodup := of.profiles.nodup
  rw [first] at nodup
  rw [saved]
  simp only [SaveContext.normalized, first]
  apply scrubProfiles_first (List.nodup_cons.1 nodup).1
  · exact (congrFun servers tag).trans present
  · exact (scrubProfile_of_frame (frames tag) profile).trans result

theorem saveStore_servers_of_keeps
    (keeps : ScrubKeeps replace store.inbounds store.servers tag) :
    (saveStore replace context store).store.servers tag = store.servers tag := by
  by_cases accepted : store.AccountsAccepted
  · obtain ⟨result, -, saved, servers, frames⟩ := saveStore_becomes replace of accepted
    rw [saved]
    have kept := keeps.of_frame (frames tag)
    rw [← servers] at kept
    exact (scrubProfiles_of_keeps kept).trans (congrFun servers tag)
  · obtain ⟨error, saved⟩ := saveStore_of_refused replace of accepted
    rw [saved]

variable (replace) in
theorem saveStore_scrubs (accepted : store.AccountsAccepted) :
    ∃ result, ensureAdminAccounts context.orders context.newID context.now store = .ok result ∧
      ((scrubProfiles replace
        (ensureSubscriptionTokens context.draw context.orders.assigned result).inbounds context.profiles
        (ensureSubscriptionTokens context.draw context.orders.assigned result).servers).2 = none ↔
          Scrubbable replace store.inbounds store.servers) := by
  obtain ⟨result, ensured, -, servers, frames⟩ := saveStore_becomes replace of accepted
  refine ⟨result, ensured, ?_⟩
  rw [← not_iff_not, ← ne_eq, scrubProfiles_fails_iff of.profiles.nodup]
  simp only [ensureSubscriptionTokens, servers, scrubProfile_of_frame (frames _), Scrubbable, not_forall,
    not_not, exists_prop]
  constructor
  · rintro ⟨tag, -, profile, present, fails⟩
    exact ⟨tag, profile, present, fails⟩
  · rintro ⟨tag, profile, present, fails⟩
    exact ⟨tag, (of.profiles.mem_iff tag).2 (by simp [present]), profile, present, fails⟩

theorem saveStore_written_eq_none
    (fails : ¬Scrubbable replace store.inbounds store.servers) :
    (saveStore replace context store).written = none := by
  by_cases accepted : store.AccountsAccepted
  · obtain ⟨result, ensured, scrubs⟩ := saveStore_scrubs replace of accepted
    obtain ⟨stopped, atTag⟩ := Option.ne_none_iff_exists'.1 (mt scrubs.1 fails)
    simp only [saveStore, ensured, atTag]
  · obtain ⟨error, saved⟩ := saveStore_of_refused replace of accepted
    rw [saved]

/-- A successful write writes the store, unless accounts are refused or a profile cannot
be scrubbed. -/
theorem saveStore_writes (accepted : store.AccountsAccepted)
    (succeeds : context.write = .written) (scrubs : Scrubbable replace store.inbounds store.servers) :
    (saveStore replace context store).written = some (saveStore replace context store).store := by
  obtain ⟨result, ensured, finishes⟩ := saveStore_scrubs replace of accepted
  simp only [saveStore, ensured, finishes.2 scrubs, succeeds]

theorem saveStore_outcome (accepted : store.AccountsAccepted)
    (apart : store.NamesApart) :
    ∃ result accounts, store.Outcome result accounts ∧
      (saveStore replace context store).store.accounts = result.accounts ∧
      (saveStore replace context store).store.inbounds = result.inbounds := by
  obtain ⟨result, ensured, saved, -, -⟩ := saveStore_becomes replace of accepted
  obtain ⟨accounts, outcome⟩ := ensureAdminAccounts_outcome apart of.orders of.fresh ensured
  exact ⟨result, accounts, outcome, by rw [saved]; rfl, by rw [saved]; rfl⟩

theorem saveStore_inbounds_of_namedAfter (apart : store.NamesApart)
    (all : ∀ index user, store.userAt tag index = some user →
      store.NamedAfter user.accountID user.name) :
    (saveStore replace context store).store.inbounds tag = store.inbounds tag := by
  by_cases accepted : store.AccountsAccepted
  · obtain ⟨result, accounts, outcome, -, inbounds⟩ :=
      @saveStore_outcome replace context store of accepted apart
    rw [inbounds, outcome.inbounds_of_namedAfter all]
  · obtain ⟨error, saved⟩ := saveStore_of_refused replace of accepted
    rw [saved]

end

end Saves

section Finite

variable {store result : Store}

theorem names_length_le {tags later : List String} (before : Enumerates tags store.inbounds)
    (after : Enumerates later result.inbounds)
    (named : ∀ user, result.Has user → ∃ known, store.Has known ∧ known.name = user.name) :
    (result.names later).length ≤ (store.names tags).length := by
  have included : result.names later ⊆ store.names tags := by
    intro name member
    obtain ⟨user, has, rfl⟩ := (mem_names after).1 member
    obtain ⟨known, hasKnown, same⟩ := named user has
    exact (mem_names before).2 ⟨known, hasKnown, same⟩
  exact (names_nodup.subperm included).length_le

variable {α : Type} {map other : GoMap α} {keys : List String}

theorem exists_enumerates (keys : List String) (within : ∀ key, map key ≠ none → key ∈ keys) :
    ∃ keys, Enumerates keys map := by
  classical
  refine ⟨keys.dedup.filter fun key => map key ≠ none, (List.nodup_dedup _).filter _, fun key => ?_⟩
  rw [List.mem_filter, List.mem_dedup, decide_eq_true_eq]
  exact ⟨And.right, fun present => ⟨within key present, present⟩⟩

theorem Enumerates.of_agree (enumerated : Enumerates keys map) {changed : String}
    (agree : ∀ key, key ≠ changed → other key = map key) : ∃ keys, Enumerates keys other := by
  refine exists_enumerates (changed :: keys) fun key present => ?_
  by_cases isChanged : key = changed
  · exact isChanged ▸ List.mem_cons_self
  · rw [agree key isChanged] at present
    exact List.mem_cons_of_mem _ ((enumerated.mem_iff key).2 present)

theorem Enumerates.congr (enumerated : Enumerates keys map)
    (same : ∀ key, other key = none ↔ map key = none) : Enumerates keys other :=
  ⟨enumerated.nodup, fun key => (enumerated.mem_iff key).trans (not_congr (same key)).symm⟩

theorem saveStore_finite {replace : ReplaceUsers} {context : SaveContext} (of : context.Of store)
    (finite : store.Finite) : (saveStore replace context store).store.Finite := by
  by_cases accepted : store.AccountsAccepted
  · obtain ⟨accounts, ensured, saved, servers, -⟩ := saveStore_becomes replace of accepted
    obtain ⟨_, _, -, -, -, becomes⟩ := ensureAdminAccounts_eq_ok of.orders of.fresh ensured
    obtain ⟨tags, enumerated, few⟩ := finite.inbounds
    obtain ⟨profiles, listed⟩ := finite.servers
    have order : Enumerates tags accounts.inbounds := enumerated.congr becomes.inbounds
    rw [saved]
    refine ⟨?_, ⟨tags, order, ?_⟩, ⟨profiles, listed.congr fun tag => ?_⟩⟩
    · apply exists_enumerates ((accounts.usersIn tags).map (·.accountID))
      intro identifier present
      by_contra absent
      apply present
      apply becomes.unused identifier
      rintro user has rfl
      exact absent (List.mem_map_of_mem ((Store.mem_usersIn order).2 has))
    · refine (names_length_le enumerated order ?_).trans few
      intro user has
      obtain ⟨tag, index, found⟩ := Store.has_iff_userAt.1 has
      cases given : store.userAt tag index with
      | none =>
          rw [becomes.places tag index given] at found
          cases found
      | some known =>
          obtain ⟨identifier, assigned, -⟩ := becomes.users tag index known given
          rw [assigned] at found
          cases found
          exact ⟨known, Store.has_iff_userAt.2 ⟨tag, index, given⟩, rfl⟩
    · rw [← servers]
      exact scrubProfiles_eq_none_iff
  · obtain ⟨error, saved⟩ := saveStore_of_refused replace of accepted
    rw [saved]
    exact finite

end Finite

/-! ### A store with one user -/

/-- One account, whose user is on some inbounds. -/
structure Store.Lone (store : Store) : Prop where
  accounts : store.accounts = fun identifier => [("1", plainAccount "1" "a")].lookup identifier
  has : ∀ user, store.Has user ↔ user = plainUser "u" "1" "a"

def loneToken (name : String) : Option String := [("a", digitToken fun _ => 0)].lookup name

namespace Store.Lone

variable {store : Store} (lone : store.Lone)

include lone

theorem accepted : store.AccountsAccepted := by
  refine ⟨plainAccount_valid lone.accounts, fun user has _ => ?_⟩
  rw [(lone.has user).1 has, lone.accounts]
  nofun

theorem normal : store.AccountsNormal := by
  refine ⟨fun user has => ?_, ?_, fun identifier present => ?_⟩
  · rw [(lone.has user).1 has]
    exact ⟨plainAccount "1" "a", by rw [lone.accounts]; rfl, rfl⟩
  · rintro identifier other name ⟨account, present, -⟩ ⟨second, presentOther, -⟩
    rw [lone.accounts] at present presentOther
    rw [(lookup_plainAccount present).1, (lookup_plainAccount presentOther).1]
  · obtain ⟨account, found⟩ := Option.ne_none_iff_exists'.1 present
    rw [lone.accounts] at found
    rw [(lookup_plainAccount found).1]
    exact ⟨_, (lone.has _).2 rfl, rfl⟩

theorem tokensInOrder (subscriptions : store.subscriptions = loneToken)
    (external : ∀ name, store.externalSubscriptions name = none) : store.TokensInOrder := by
  have only {name token : String} (found : store.subscriptions name = some token) :
      name = "a" ∧ token = digitToken fun _ => 0 := by
    rw [subscriptions, loneToken, List.lookup_cons] at found
    split at found
    · rename_i same
      exact ⟨by simpa using same, (Option.some.inj found).symm⟩
    · cases found
  constructor
  case present =>
    intro user has
    rw [(lone.has user).1 has, subscriptions]
    nofun
  case known =>
    intro name present
    obtain ⟨token, found⟩ := Option.ne_none_iff_exists'.1 present
    exact ⟨_, (lone.has _).2 rfl, (only found).1.symm⟩
  case valid =>
    intro name token found
    rw [(only found).2]
    exact digitToken_valid _
  case distinct =>
    intro name other token found foundOther
    rw [(only found).1, (only foundOther).1]
  case external => exact fun name present => absurd (external name) present

end Store.Lone

end SideraCore.Dashboard
