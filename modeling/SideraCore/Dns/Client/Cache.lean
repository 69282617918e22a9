import SideraCore.Experimental.DnsCache
import SideraCore.Dns.Client.Response

/-!
Owns the configuration of a started DNS client and its two caches: the key of
a cached response, the names it is saved under in the cache file, what a store
puts into each cache, and what a load serves from an entry at a point in time.

The wire format, the text of prefixes and the transports are parameters with
the behaviour their libraries document.
-/

namespace SideraCore.Dns

open Experimental

structure DnsCacheKey where
  question : Question
  transportTag : String
  clientSubnet : Prefix
deriving DecidableEq, Repr

structure Codec (Raw : Type) where
  pack : Msg → Option Raw
  unpack : Raw → Option Msg
  unpack_pack : ∀ message raw, pack message = some raw → unpack raw = some message

def nul : Char := Char.ofNat 0

/-- `netip.Prefix.String`: valid prefixes have distinct texts without `nul`. -/
structure PrefixText where
  text : Prefix → String
  injective : ∀ first second, first.isValid → second.isValid → text first = text second → first = second
  plain : ∀ subnet, subnet.isValid → nul ∉ (text subnet).toList

/-- A response, an error that carries a response code, or another error. -/
inductive TransportOutcome where
  | response (message : Msg)
  | rcodeError (rcode : Nat)
  | error
deriving DecidableEq, Repr

/-- A started `Client`, whose transports answer the n-th exchange with `exchange n`. -/
structure Client (Raw : Type) where
  disableCache : Bool
  disableExpire : Bool
  optimisticTimeout : Nat
  clientSubnet : Prefix
  /-- Whether `rdrc` is set. -/
  rdrc : Bool
  /-- Whether `dnsCache` is set; a client without it has a memory cache. -/
  dnsCache : Bool
  codec : Codec Raw
  prefixText : PrefixText
  exchange : Nat → DNSTransport → Msg → TransportOutcome

namespace Client

variable {Raw : Type} (client : Client Raw)

def persistentName (key : DnsCacheKey) : String :=
  if !key.clientSubnet.isValid then key.transportTag
  else key.transportTag ++ String.singleton nul ++ client.prefixText.text key.clientSubnet

def saveKey (key : DnsCacheKey) : SaveCacheKey :=
  ⟨client.persistentName key, key.question.name, key.question.qtype⟩

def effectiveClientSubnet (message : Msg) (options : DNSQueryOptions) : Prefix :=
  if options.clientSubnet.isValid then options.clientSubnet
  else if client.clientSubnet.isValid then client.clientSubnet
  else clientSubnetFromMessage message

def prepareExchangeMessage (message : Msg) (options : DNSQueryOptions) : Msg :=
  let clientSubnet :=
    if options.clientSubnet.isValid then options.clientSubnet else client.clientSubnet
  if clientSubnet.isValid then setClientSubnet message clientSubnet else message

end Client

/-- `int(duration.Seconds())`. From `2 ^ 24` seconds on, the `float64` sum rounds a
fraction close to one up. -/
def wholeSeconds (duration : Nat) : Nat :=
  let sec := duration / second
  let nsec := duration % second
  if (second - nsec) * 2 ^ 53 ≤ second * 2 ^ Nat.log2 sec then sec + 1 else sec

theorem wholeSeconds_eq {duration : Nat} (short : duration / second < 2 ^ 24) :
    wholeSeconds duration = duration / second := by
  refine if_neg (Nat.not_le.2 ?_)
  have fraction : 1 ≤ second - duration % second :=
    Nat.sub_pos_of_lt (Nat.mod_lt _ (by decide))
  have exponent : Nat.log2 (duration / second) ≤ 23 := by
    rcases Nat.eq_zero_or_pos (duration / second) with zero | positive
    · simp [zero]
    · exact Nat.le_of_lt_succ ((Nat.log2_lt positive.ne').2 short)
  calc second * 2 ^ Nat.log2 (duration / second) ≤ second * 2 ^ 23 :=
        Nat.mul_le_mul_left _ (Nat.pow_le_pow_right (by decide) exponent)
    _ < 1 * 2 ^ 53 := by decide
    _ ≤ (second - duration % second) * 2 ^ 53 := Nat.mul_le_mul_right _ fraction

theorem wholeSeconds_lt {duration : Nat} (short : duration / second < 2 ^ 53) :
    wholeSeconds duration * second < duration + second := by
  have whole := Nat.div_add_mod duration second
  rw [Nat.mul_comm] at whole
  unfold wholeSeconds
  dsimp only
  split
  · rename_i rounded
    have fraction : 0 < duration % second := by
      rw [Nat.pos_iff_ne_zero]
      intro none
      rw [none, Nat.sub_zero] at rounded
      have exponent : 53 ≤ Nat.log2 (duration / second) :=
        (Nat.pow_le_pow_iff_right (by decide)).1 (Nat.le_of_mul_le_mul_left rounded (by decide))
      have positive : duration / second ≠ 0 := by
        intro zero
        simp [zero] at exponent
      exact absurd ((Nat.log2_lt positive).2 short) (Nat.not_lt.2 exponent)
    rw [Nat.succ_mul]
    omega
  · omega

/-- An entry of the memory cache; one added without a lifetime does not expire. -/
structure MemoryEntry where
  message : Msg
  expireAt : Option Time
deriving DecidableEq, Repr

/-- The response, the seconds it has left, and whether it has expired. -/
structure LoadedResponse where
  response : Msg
  ttl : Nat
  isStale : Bool
deriving DecidableEq, Repr

namespace Client

variable {Raw : Type} (client : Client Raw)

def expiry (time : Time) (timeToLive : UInt32) : Time := time + timeToLive.toNat * second

def memoryEntry (time : Time) (message : Msg) (timeToLive : UInt32) : MemoryEntry :=
  ⟨message, if client.disableExpire then none else some (expiry time timeToLive)⟩

/-- The common end of `loadResponse` and `loadPersistentResponse`. -/
def serve (now expireAt : Time) (response : Msg) : Option LoadedResponse :=
  if expireAt < now then
    if 0 < client.optimisticTimeout ∧ now < expireAt + client.optimisticTimeout then
      some ⟨normalizeTTL response 1, 0, true⟩
    else none
  else
    let nowTTL := wholeSeconds (expireAt - now)
    some ⟨normalizeTTL response (UInt32.ofNat nowTTL), nowTTL, false⟩

def serveEntry (now : Time) (entry : MemoryEntry) : Option LoadedResponse :=
  match entry.expireAt with
  | none => some ⟨entry.message, 0, false⟩
  | some expireAt => client.serve now expireAt entry.message

def serveRaw (now : Time) (found : Raw × Time) : Option LoadedResponse :=
  (client.codec.unpack found.1).bind fun response =>
    if client.disableExpire then some ⟨response, 0, false⟩ else client.serve now found.2 response

/-! ### A sample client -/

def prefixNumber (subnet : Prefix) : Nat :=
  Nat.pair (match subnet.addr with
    | .invalid => 0
    | .v4 bits => 2 * bits.toNat + 1
    | .v6 bits => 2 * bits.toNat + 2) (subnet.bits.elim 0 (· + 1))

theorem prefixNumber_injective : Function.Injective prefixNumber := by
  rintro ⟨firstAddr, firstBits⟩ ⟨secondAddr, secondBits⟩ equal
  obtain ⟨addrs, lengths⟩ := Nat.pair_eq_pair.1 equal
  have sameBits : firstBits = secondBits := by
    cases firstBits <;> cases secondBits <;> simp at lengths <;> simp [lengths]
  have sameAddr : firstAddr = secondAddr := by
    cases firstAddr <;> cases secondAddr <;> simp at addrs <;>
      first | rfl | omega | exact congrArg _ (BitVec.eq_of_toNat_eq (by omega))
  rw [sameBits, sameAddr]

def unaryText : PrefixText where
  text := fun subnet => String.ofList (List.replicate (prefixNumber subnet) 'x')
  injective := fun first second _ _ equal => prefixNumber_injective (by
    simpa using congrArg List.length (String.ofList_injective equal))
  plain := fun subnet _ => by
    simp [nul]

/-- A client whose messages are packed as they are and whose transports fail. -/
def sample : Client Msg where
  disableCache := false
  disableExpire := false
  optimisticTimeout := 0
  clientSubnet := .zero
  rdrc := false
  dnsCache := true
  codec := ⟨some, some, fun _ _ equal => equal.symm⟩
  prefixText := unaryText
  exchange := fun _ _ _ => .error

end Client

end SideraCore.Dns
