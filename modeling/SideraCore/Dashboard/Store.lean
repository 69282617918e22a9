import Mathlib

/-!
Owns the dashboard store as the service keeps it in memory: accounts, inbound
records with their users, server profiles and subscription tokens.

A Go map is a partial function from its keys; the order in which a `range` visits
it is a list of its keys. Null inbounds and users are refused when a store is
decoded, so a store has none.
-/

namespace SideraCore.Dashboard

abbrev GoMap (α : Type) := String → Option α

/-- The keys of a map, in an order in which `range` may visit them. -/
structure Enumerates {α : Type} (keys : List String) (map : GoMap α) : Prop where
  nodup : keys.Nodup
  mem_iff : ∀ key, key ∈ keys ↔ map key ≠ none

def maxInt64 : Int := 2 ^ 63 - 1

def dayMilliseconds : Int := 24 * 60 * 60 * 1000

inductive PolicyScope where
  | membershipLocal
  | accountGlobal
deriving DecidableEq, Repr

/-- `adminAccount`. The scope is `none` for a text that is not one of the two. -/
structure Account where
  id : String
  name : String
  policyScope : Option PolicyScope
  enabled : Bool
  quotaBytes : Int
  expiresAt : Int
  maxIPs : Int
  resetDays : Int
  baseUploadBytes : Int
  baseDownloadBytes : Int
  lastOnline : Int
  revision : Int
  createdAt : Int
  updatedAt : Int
deriving DecidableEq, Repr

structure User where
  id : String
  accountID : String
  inbound : String
  type : String
  name : String
  uuid : String
  password : String
  flow : String
  alterID : Int
  enabled : Bool
  quotaBytes : Int
  expiresAt : Int
  maxIPs : Int
  uploadBytes : Int
  downloadBytes : Int
  trafficGeneration : Int
  createdAt : Int
  updatedAt : Int
deriving DecidableEq, Repr

structure InboundRecord where
  type : String
  authoritative : Bool
  blockUUID : String
  blockPassword : String
  users : List User
  revision : Int
  appliedRevision : Int
deriving DecidableEq, Repr

/-- The kinds of servers; a stored profile may name any other text. -/
inductive ServerKind where
  | inbound
  | endpoint
  | other (text : String)
deriving DecidableEq, Repr

/-- `adminServerStore`; `config` and `advertise` are the stored JSON texts. -/
structure ServerProfile where
  kind : ServerKind
  type : String
  config : String
  advertise : String
  revision : Int
  appliedRevision : Int
  deleted : Bool
  createdAt : Int
  updatedAt : Int
deriving DecidableEq, Repr

/-- `adminStore` without its version, which is fixed once it is decoded, and its settings. -/
structure Store where
  accounts : GoMap Account
  inbounds : GoMap InboundRecord
  servers : GoMap ServerProfile
  subscriptions : GoMap String
  externalSubscriptions : GoMap String

namespace Store

def userAt (store : Store) (tag : String) (index : Nat) : Option User :=
  (store.inbounds tag).bind fun record => record.users[index]?

def accountAt (store : Store) (tag : String) (index : Nat) : Option String :=
  (store.userAt tag index).map (·.accountID)

def Has (store : Store) (user : User) : Prop :=
  ∃ tag record, store.inbounds tag = some record ∧ user ∈ record.users

def usersIn (store : Store) (tags : List String) : List User :=
  tags.flatMap fun tag => ((store.inbounds tag).map (·.users)).getD []

theorem has_iff_userAt {store : Store} {user : User} :
    store.Has user ↔ ∃ tag index, store.userAt tag index = some user := by
  constructor
  · rintro ⟨tag, record, present, member⟩
    obtain ⟨index, found⟩ := List.mem_iff_getElem?.1 member
    exact ⟨tag, index, by simp [userAt, present, found]⟩
  · rintro ⟨tag, index, found⟩
    obtain ⟨record, present, at'⟩ := Option.bind_eq_some_iff.1 found
    exact ⟨tag, record, present, List.mem_of_getElem? at'⟩

theorem mem_usersIn {store : Store} {tags : List String} (order : Enumerates tags store.inbounds)
    {user : User} : user ∈ store.usersIn tags ↔ store.Has user := by
  simp only [usersIn, List.mem_flatMap]
  constructor
  · rintro ⟨tag, -, member⟩
    cases present : store.inbounds tag with
    | none => simp [present] at member
    | some record => exact ⟨tag, record, present, by simpa [present] using member⟩
  · rintro ⟨tag, record, present, member⟩
    exact ⟨tag, (order.mem_iff tag).2 (by simp [present]), by simpa [present] using member⟩

end Store

end SideraCore.Dashboard
