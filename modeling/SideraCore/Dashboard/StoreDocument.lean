import SideraCore.Dashboard.AccountNormalization
import SideraCore.Dashboard.StoreFile

/-!
Owns the content of a dashboard store file and its two readers: `decodeAdminStore`
behind `adminAPI.loadStore`, which the dashboard manages its servers from, and
`dashboardstore.loadStore`, which the startup merge starts them from. Its result
says for which files the two read the same profiles.

The Go types of both share the profile fields: what fails to unmarshal for the one with
fewer fields fails for the other.
-/

namespace SideraCore.Dashboard

open Control Storage

/-! ### What a file holds -/

/-- `adminInboundStore` as decoded: its list may hold null users. -/
structure InboundDocument where
  type : String
  authoritative : Bool
  blockUUID : String
  blockPassword : String
  users : List (Option User)
  revision : Int
  appliedRevision : Int

/-- `adminStore` as decoded. A key of a map may hold null. -/
structure StoreDocument where
  version : Int
  accounts : GoMap (Option Account)
  inbounds : GoMap (Option InboundDocument)
  servers : GoMap (Option ServerProfile)
  subscriptions : GoMap String
  externalSubscriptions : GoMap String

structure StoredServer where
  kind : ServerKind
  type : String
  config : String
  revision : Int
  deleted : Bool
deriving DecidableEq, Repr

structure StoredStore where
  version : Int
  servers : GoMap (Option StoredServer)

/-- Not JSON of either shape, JSON that only fits the types of the profile reader, or a
document. A file that cannot be read is malformed. -/
inductive StoreContent where
  | malformed
  | profiles (stored : StoredStore)
  | document (document : StoreDocument)

def ServerProfile.stored (profile : ServerProfile) : StoredServer :=
  { kind := profile.kind
    type := profile.type
    config := profile.config
    revision := profile.revision
    deleted := profile.deleted }

def storedServers (servers : GoMap (Option ServerProfile)) : GoMap (Option StoredServer) :=
  fun tag => (servers tag).map (Option.map ServerProfile.stored)

/-! ### The reader of the dashboard -/

inductive DecodeError where
  | malformed
  | unsupportedVersion (version : Int)
  | nullInbound (tag : String)
  | nullUser (tag : String) (index : Nat)
  | account (error : AccountError)
deriving DecidableEq, Repr

/-- `adminStore` after decoding. Null servers are still in the table. -/
structure LoadedStore where
  store : Store
  servers : GoMap (Option ServerProfile)

/-- What decoding takes from outside the file: orders, identifiers of new accounts, and
the time. -/
structure DecodeContext where
  checked : StoreDocument → List String
  orders : StoreDocument → Orders
  newID : Nat → Option String
  now : Int

def storeVersion : Int := 6

def InboundDocument.record (document : InboundDocument) : InboundRecord :=
  { type := document.type
    authoritative := document.authoritative
    blockUUID := document.blockUUID
    blockPassword := document.blockPassword
    users := document.users.filterMap id
    revision := document.revision
    appliedRevision := document.appliedRevision }

def StoreDocument.store (document : StoreDocument) : Store :=
  { accounts := fun identifier => (document.accounts identifier).join
    inbounds := fun tag => (document.inbounds tag).join.map InboundDocument.record
    servers := fun tag => (document.servers tag).join
    subscriptions := document.subscriptions
    externalSubscriptions := document.externalSubscriptions }

def checkInbounds (inbounds : GoMap (Option InboundDocument)) : List String → Except DecodeError Unit
  | [] => .ok ()
  | tag :: rest =>
      match inbounds tag with
      | none => checkInbounds inbounds rest
      | some none => .error (.nullInbound tag)
      | some (some document) =>
          match document.users.findIdx? (·.isNone) with
          | some index => .error (.nullUser tag index)
          | none => checkInbounds inbounds rest

/-- `ensureAdminAccounts` on a table with null accounts fails at the first, if not
before. -/
def ensureDecodedAccounts (orders : Orders) (newID : Nat → Option String) (now : Int)
    (accounts : GoMap (Option Account)) (store : Store) : Except AccountError Store :=
  match orders.accounts.find? fun identifier => accounts identifier = some none with
  | none => ensureAdminAccounts orders newID now store
  | some null => do
      let _ ← indexAccounts store.accounts (orders.accounts.takeWhile (· ≠ null)) fun _ => none
      .error (.invalidAccount null)

variable (context : DecodeContext)

def decodeAdminStore : StoreContent → Except DecodeError LoadedStore
  | .malformed => .error .malformed
  | .profiles _ => .error .malformed
  | .document document =>
      if document.version < 1 ∨ storeVersion < document.version then
        .error (.unsupportedVersion document.version)
      else do
        checkInbounds document.inbounds (context.checked document)
        match ensureDecodedAccounts (context.orders document) context.newID context.now
          document.accounts document.store with
        | .error error => .error (.account error)
        | .ok store => .ok ⟨store, document.servers⟩

/-- Decoding as `adminAPI.loadStore` uses it: every error leads to the next candidate. -/
def DecodeContext.accepts (content : StoreContent) : Option LoadedStore :=
  (decodeAdminStore context content).toOption

def emptyStore : LoadedStore :=
  { store :=
      { accounts := fun _ => none
        inbounds := fun _ => none
        servers := fun _ => none
        subscriptions := fun _ => none
        externalSubscriptions := fun _ => none }
    servers := fun _ => none }

def loadAdminStore (disk : Disk Slot StoreContent) :
    Except (List Slot) LoadedStore :=
  (loadStore context.accepts disk).map (·.getD emptyStore)

/-! ### The reader of the startup merge -/

inductive ProfilesError where
  | malformed
  | unsupportedVersion (version : Int)
deriving DecidableEq, Repr

def StoreContent.stored : StoreContent → Option StoredStore
  | .malformed => none
  | .profiles stored => some stored
  | .document whole => some ⟨whole.version, storedServers whole.servers⟩

def decodeProfiles (content : StoreContent) : Except ProfilesError StoredStore :=
  match content.stored with
  | none => .error .malformed
  | some stored =>
      if stored.version ≠ 1 ∧ stored.version ≠ 2 ∧ stored.version ≠ 3 ∧ stored.version ≠ 4 ∧
          stored.version ≠ 5 ∧ stored.version ≠ storeVersion then
        .error (.unsupportedVersion stored.version)
      else .ok stored

/-- `dashboardstore.loadStore`: the backup is read only where there is no primary. -/
def loadProfiles (disk : Disk Slot StoreContent) : Except ProfilesError StoredStore :=
  match disk .primary with
  | some content => decodeProfiles content
  | none =>
      match disk .backup with
      | some content => decodeProfiles content
      | none => .ok ⟨0, fun _ => none⟩

/-! ### What the dashboard accepts -/

structure StoreDocument.Whole (document : StoreDocument) : Prop where
  inbounds : ∀ tag, document.inbounds tag ≠ some none
  users : ∀ tag inbound, document.inbounds tag = some (some inbound) → none ∉ inbound.users
  accounts : ∀ identifier, document.accounts identifier ≠ some none

/-- A known version, no null entries, valid accounts, and an account for every user that
names one. -/
structure StoreDocument.Consistent (document : StoreDocument) : Prop where
  version : 1 ≤ document.version ∧ document.version ≤ storeVersion
  whole : document.Whole
  accounts : document.store.AccountsAccepted

/-- The orders are those of the document's maps, and identifiers can be generated. -/
structure DecodeContext.Of (document : StoreDocument) : Prop where
  checked : Enumerates (context.checked document) document.inbounds
  accounts : Enumerates (context.orders document).accounts document.accounts
  orders : document.Whole → (context.orders document).Of document.store
  newID : ∀ number, context.newID number ≠ none

theorem checkInbounds_eq_ok_iff {inbounds : GoMap (Option InboundDocument)} {tags : List String} :
    checkInbounds inbounds tags = .ok () ↔ ∀ tag ∈ tags, inbounds tag ≠ some none ∧
      ∀ inbound, inbounds tag = some (some inbound) → none ∉ inbound.users := by
  induction tags with
  | nil => simp [checkInbounds]
  | cons tag rest ih =>
      rw [List.forall_mem_cons, ← ih]
      cases found : inbounds tag with
      | none => simp [checkInbounds, found]
      | some entry =>
          cases entry with
          | none => simp [checkInbounds, found]
          | some document =>
              cases null : document.users.findIdx? (·.isNone) with
              | some index =>
                  have member : none ∈ document.users := by
                    obtain ⟨inside, isNone, -⟩ := List.findIdx?_eq_some_iff_getElem.1 null
                    exact Option.isNone_iff_eq_none.1 isNone ▸ List.getElem_mem inside
                  simp [checkInbounds, found, null, member]
              | none =>
                  have absent : none ∉ document.users := fun member => by
                    simpa using List.findIdx?_eq_none_iff.1 null none member
                  simp [checkInbounds, found, null, absent]

section Accepted

variable {context} {document : StoreDocument} (of : context.Of document)
include of

theorem ensureDecodedAccounts_succeeds_iff (whole : ∀ tag, document.inbounds tag ≠ some none)
    (users : ∀ tag inbound, document.inbounds tag = some (some inbound) → none ∉ inbound.users) :
    (∃ store, ensureDecodedAccounts (context.orders document) context.newID context.now
      document.accounts document.store = .ok store) ↔
        (∀ identifier, document.accounts identifier ≠ some none) ∧ document.store.AccountsAccepted := by
  unfold ensureDecodedAccounts
  split
  · rename_i none
    have present (identifier : String) : document.accounts identifier ≠ some .none := by
      intro null
      have listed := (of.accounts.mem_iff identifier).2 (by simp [null])
      simpa [null] using List.find?_eq_none.1 none identifier listed
    have orders := of.orders ⟨whole, users, present⟩
    rw [and_iff_right present]
    constructor
    · rintro ⟨store, ensured⟩
      exact accountsAccepted_of_ensured orders ensured
    · exact fun accepted => ensureAdminAccounts_succeeds orders accepted.valid accepted.known of.newID
  · rename_i null found
    have isNull : document.accounts null = some none := by simpa using List.find?_some found
    refine iff_of_false ?_ fun both => both.1 null isNull
    rintro ⟨store, ensured⟩
    obtain ⟨_, -, ended⟩ := bind_eq_ok_iff.1 ensured
    cases ended

/-- The dashboard accepts the consistent documents. -/
theorem accepts_document_iff :
    (∃ loaded, context.accepts (.document document) = some loaded) ↔ document.Consistent := by
  simp only [DecodeContext.accepts, decodeAdminStore]
  split_ifs with version
  · refine iff_of_false (by simp [Except.toOption]) fun consistent => ?_
    obtain ⟨lower, upper⟩ := consistent.version
    omega
  · have known : 1 ≤ document.version ∧ document.version ≤ storeVersion := by omega
    cases checked : checkInbounds document.inbounds (context.checked document) with
    | error error =>
        refine iff_of_false (by simp [Except.toOption, bind, Except.bind]) fun consistent => ?_
        have passes := checkInbounds_eq_ok_iff.2 fun tag (_ : tag ∈ context.checked document) =>
          ⟨consistent.whole.inbounds tag, consistent.whole.users tag⟩
        rw [checked] at passes
        cases passes
    | ok _ =>
        have entries := checkInbounds_eq_ok_iff.1 checked
        have inbounds (tag : String) : document.inbounds tag ≠ some none := fun null =>
          (entries tag ((of.checked.mem_iff tag).2 (by simp [null]))).1 null
        have users (tag : String) (inbound : InboundDocument)
            (found : document.inbounds tag = some (some inbound)) : none ∉ inbound.users :=
          (entries tag ((of.checked.mem_iff tag).2 (by simp [found]))).2 inbound found
        have ensures := ensureDecodedAccounts_succeeds_iff of inbounds users
        have consistent : document.Consistent ↔
            (∀ identifier, document.accounts identifier ≠ some none) ∧ document.store.AccountsAccepted :=
          ⟨fun whole => ⟨whole.whole.accounts, whole.accounts⟩,
            fun both => ⟨known, ⟨inbounds, users, both.1⟩, both.2⟩⟩
        rw [consistent, ← ensures]
        cases ensureDecodedAccounts (context.orders document) context.newID context.now
          document.accounts document.store <;> simp [Except.toOption, bind, Except.bind]

end Accepted

/-- A content of a known version with the same tags, null where they are null, and
otherwise the same kind, type, configuration, revision and deletion mark. -/
def StoreContent.Lists (content : StoreContent) (servers : GoMap (Option ServerProfile)) : Prop :=
  match content with
  | .malformed => False
  | .profiles stored =>
      (1 ≤ stored.version ∧ stored.version ≤ storeVersion) ∧ stored.servers = storedServers servers
  | .document whole =>
      (1 ≤ whole.version ∧ whole.version ≤ storeVersion) ∧
        storedServers whole.servers = storedServers servers

def StoreContent.Consistent : StoreContent → Prop
  | .document whole => whole.Consistent
  | _ => False

section Agreement

variable {context : DecodeContext} {disk : Disk Slot StoreContent} {content : StoreContent}
  {loaded : LoadedStore}

theorem decodeProfiles_lists_iff {servers : GoMap (Option ServerProfile)} :
    (∃ stored, decodeProfiles content = .ok stored ∧ stored.servers = storedServers servers) ↔
      content.Lists servers := by
  have known (version : Int) : ¬(version ≠ 1 ∧ version ≠ 2 ∧ version ≠ 3 ∧ version ≠ 4 ∧ version ≠ 5 ∧
      version ≠ storeVersion) ↔ 1 ≤ version ∧ version ≤ storeVersion := by
    unfold storeVersion
    omega
  cases content with
  | malformed => simp [decodeProfiles, StoreContent.stored, StoreContent.Lists]
  | profiles stored | document whole =>
      simp only [decodeProfiles, StoreContent.stored, StoreContent.Lists, ← known]
      split_ifs with unknown <;> simp [unknown]

theorem decodeAdminStore_servers {document : StoreDocument}
    (decoded : decodeAdminStore context (.document document) = .ok loaded) :
    1 ≤ document.version ∧ document.version ≤ storeVersion ∧ loaded.servers = document.servers := by
  simp only [decodeAdminStore] at decoded
  split_ifs at decoded with version
  obtain ⟨_, _, decoded⟩ := bind_eq_ok_iff.1 decoded
  refine ⟨by omega, by omega, ?_⟩
  split at decoded
  · cases decoded
  · cases decoded
    rfl

theorem accepts_eq_some_iff :
    context.accepts content = some loaded ↔ decodeAdminStore context content = .ok loaded := by
  unfold DecodeContext.accepts
  cases decodeAdminStore context content <;> simp [Except.toOption]

theorem lists_of_accepts (accepted : context.accepts content = some loaded) :
    content.Lists loaded.servers := by
  rw [accepts_eq_some_iff] at accepted
  cases content with
  | malformed | profiles stored => cases accepted
  | document document =>
      obtain ⟨lower, upper, servers⟩ := decodeAdminStore_servers accepted
      rw [servers]
      exact ⟨⟨lower, upper⟩, rfl⟩

theorem loadAdminStore_eq_ok_iff :
    loadAdminStore context disk = .ok loaded ↔
      (∃ primary, disk .primary = some primary ∧ context.accepts primary = some loaded) ∨
      ((∀ primary, disk .primary = some primary → context.accepts primary = none) ∧
        ∃ backup, disk .backup = some backup ∧ context.accepts backup = some loaded) ∨
      (disk .primary = none ∧ disk .backup = none ∧ emptyStore = loaded) := by
  unfold loadAdminStore
  rw [loadStore_eq]
  cases disk .primary with
  | none =>
      cases disk .backup with
      | none => simp [Except.map]
      | some backup => cases accepted : context.accepts backup <;> simp [accepted, Except.map]
  | some primary =>
      cases disk .backup with
      | none => cases accepted : context.accepts primary <;> simp [accepted, Except.map]
      | some backup =>
          cases accepted : context.accepts primary with
          | some found => simp [accepted, Except.map]
          | none => cases other : context.accepts backup <;> simp [accepted, other, Except.map]

/-- The merge reads the profiles that the dashboard loads. -/
def ReadersAgree (context : DecodeContext) (disk : Disk Slot StoreContent) : Prop :=
  ∀ loaded, loadAdminStore context disk = .ok loaded →
    ∃ stored, loadProfiles disk = .ok stored ∧ stored.servers = storedServers loaded.servers

theorem accepts_eq_none_iff (of : ∀ document, content = .document document → context.Of document) :
    context.accepts content = none ↔ ¬content.Consistent := by
  cases content with
  | malformed | profiles stored => exact iff_of_true rfl id
  | document document =>
      rw [StoreContent.Consistent, ← accepts_document_iff (of document rfl), Option.eq_none_iff_forall_ne_some,
        not_exists]

theorem loadProfiles_of_primary {primary : StoreContent} (present : disk .primary = some primary) :
    loadProfiles disk = decodeProfiles primary := by
  simp only [loadProfiles, present]

/-- The readers agree if and only if there is no primary, or the primary is consistent, or
the backup is not, or the inconsistent primary lists the profiles of the backup. -/
theorem readersAgree_iff (context : DecodeContext) (disk : Disk Slot StoreContent)
    (of : ∀ slot document, disk slot = some (.document document) → context.Of document) :
    ReadersAgree context disk ↔
      ∀ primary, disk .primary = some primary → ¬primary.Consistent →
        ∀ backup, disk .backup = some (.document backup) → backup.Consistent →
          primary.Lists backup.servers := by
  have refuses {primary : StoreContent} (present : disk .primary = some primary) :
      context.accepts primary = none ↔ ¬primary.Consistent :=
    accepts_eq_none_iff fun document same => of .primary document (same ▸ present)
  constructor
  · intro agree primary present inconsistent backup presentBackup consistent
    obtain ⟨loaded, accepted⟩ := (accepts_document_iff (of .backup backup presentBackup)).2 consistent
    have servers := (decodeAdminStore_servers (accepts_eq_some_iff.1 accepted)).2.2
    rw [← decodeProfiles_lists_iff, ← loadProfiles_of_primary present, ← servers]
    apply agree loaded
    apply loadAdminStore_eq_ok_iff.2
    refine .inr (.inl ⟨?_, _, presentBackup, accepted⟩)
    intro other presentOther
    exact (refuses presentOther).2 (Option.some.inj (present.symm.trans presentOther) ▸ inconsistent)
  · intro condition loaded load
    rcases loadAdminStore_eq_ok_iff.1 load with
      ⟨primary, present, accepted⟩ | ⟨refused, backup, present, accepted⟩ | ⟨missing, missingBackup, rfl⟩
    · rw [loadProfiles_of_primary present]
      exact decodeProfiles_lists_iff.2 (lists_of_accepts accepted)
    · cases atPrimary : disk .primary with
      | none =>
          simp only [loadProfiles, atPrimary, present]
          exact decodeProfiles_lists_iff.2 (lists_of_accepts accepted)
      | some primary =>
          rw [loadProfiles_of_primary atPrimary, decodeProfiles_lists_iff]
          cases backup with
          | malformed | profiles stored => cases accepted
          | document document =>
              rw [(decodeAdminStore_servers (accepts_eq_some_iff.1 accepted)).2.2]
              exact condition primary atPrimary ((refuses atPrimary).1 (refused primary atPrimary)) document
                present ((accepts_document_iff (of .backup document present)).1 ⟨loaded, accepted⟩)
    · simp only [loadProfiles, missing, missingBackup]
      exact ⟨_, rfl, rfl⟩

end Agreement

/-! ### A primary that only one reader accepts -/

def sampleDocument (accounts : GoMap (Option Account)) (profile : ServerProfile) : StoreDocument :=
  { version := 6
    accounts := accounts
    inbounds := fun _ => none
    servers := fun tag => if tag = "in" then some (some profile) else none
    subscriptions := fun _ => none
    externalSubscriptions := fun _ => none }

def sampleProfile (revision : Int) : ServerProfile :=
  { kind := .inbound, type := "vless", config := "\x7b\x7d", advertise := "\x7b\x7d",
    revision := revision, appliedRevision := revision, deleted := false, createdAt := 0,
    updatedAt := 0 }

def nullAccount : GoMap (Option Account) := fun key => if key = "a" then some none else none

def inconsistentPrimary (revision : Int) : Disk Slot StoreContent
  | .primary => some (.document (sampleDocument nullAccount (sampleProfile revision)))
  | .backup => some (.document (sampleDocument (fun _ => none) (sampleProfile 1)))
  | .temporary => none

def sampleContext : DecodeContext :=
  { checked := fun _ => []
    orders := fun document => ⟨if (document.accounts "a").isSome then ["a"] else [], [], [], []⟩
    newID := fun _ => some "2"
    now := 0 }

theorem sampleContext_of (accounts : GoMap (Option Account))
    (only : accounts = nullAccount ∨ accounts = fun _ => none) (revision : Int) :
    sampleContext.Of (sampleDocument accounts (sampleProfile revision)) where
  checked := ⟨List.nodup_nil, by simp [sampleContext, sampleDocument]⟩
  accounts := by
    rcases only with rfl | rfl
    · exact ⟨List.nodup_singleton "a", by simp [sampleContext, sampleDocument, nullAccount]⟩
    · exact ⟨List.nodup_nil, by simp [sampleContext, sampleDocument]⟩
  orders := by
    intro whole
    rcases only with rfl | rfl
    · exact absurd rfl (whole.accounts "a")
    · refine ⟨⟨List.nodup_nil, ?_⟩, ⟨List.nodup_nil, ?_⟩, ⟨List.nodup_nil, ?_⟩, List.nodup_nil, ?_⟩ <;>
        simp [sampleContext, sampleDocument, StoreDocument.store, Store.Has]
  newID := by simp [sampleContext]

/-- With the backup's profile in both files the readers agree, though only the backup is
consistent. -/
theorem readersAgree_same_profile :
    ¬(StoreContent.document (sampleDocument nullAccount (sampleProfile 1))).Consistent ∧
      ReadersAgree sampleContext (inconsistentPrimary 1) := by
  refine ⟨fun consistent => consistent.whole.accounts "a" rfl, ?_⟩
  refine (readersAgree_iff sampleContext (inconsistentPrimary 1) fun slot document present => ?_).2 ?_
  · cases slot with
    | primary =>
        cases present
        exact sampleContext_of _ (.inl rfl) 1
    | backup =>
        cases present
        exact sampleContext_of _ (.inr rfl) 1
    | temporary => cases present
  · rintro primary ⟨⟩ - backup ⟨⟩ -
    exact ⟨by decide, rfl⟩

/-- The dashboard manages revision 1 of the profile, the merge starts revision 2. -/
theorem inconsistentPrimary_readers_differ :
    (∃ loaded, loadAdminStore sampleContext (inconsistentPrimary 2) = .ok loaded ∧
      storedServers loaded.servers "in" = some (some (sampleProfile 1).stored)) ∧
    ∃ stored, loadProfiles (inconsistentPrimary 2) = .ok stored ∧
      stored.servers "in" = some (some (sampleProfile 2).stored) := by
  refine ⟨?_, ⟨_, rfl, by decide +kernel⟩⟩
  have load : (loadAdminStore sampleContext (inconsistentPrimary 2)).toOption.map
      (fun loaded => storedServers loaded.servers "in") =
        some (some (some (sampleProfile 1).stored)) := by decide +kernel
  cases ran : loadAdminStore sampleContext (inconsistentPrimary 2) with
  | error error => simp [ran, Except.toOption] at load
  | ok loaded =>
      simp only [ran, Except.toOption, Option.map_some, Option.some.injEq] at load
      exact ⟨loaded, rfl, load⟩

end SideraCore.Dashboard
