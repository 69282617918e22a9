import SideraCore.Dns.Query

/-!
Owns what the DNS client does to messages: the lifetime of a response, its
rewriting before it is stored and returned, the client subnet of a request, and
the synthetic responses. Messages are values here: the source copies a message
before it changes one that is shared.

As in the message library, the version and the flags of EDNS lie in the TTL field of an
OPT record, the UDP size in its class.
-/

namespace SideraCore.Dns

namespace Msg

def records (message : Msg) : List RR := message.answer ++ message.ns ++ message.extra

def mapRecords (rewrite : RR → RR) (message : Msg) : Msg :=
  { message with
    answer := message.answer.map rewrite
    ns := message.ns.map rewrite
    extra := message.extra.map rewrite }

end Msg

variable (message : Msg) (question : Question) (name : String) (clientSubnet : Prefix) (response : Msg)

def extractNegativeTTL : Option UInt32 :=
  response.ns.findSome? fun record =>
    match record.data with
    | .soa minttl _ => some (if record.hdr.ttl < minttl then record.hdr.ttl else minttl)
    | _ => none

def lowerTimeToLive (timeToLive : UInt32) (record : RR) : UInt32 :=
  if record.hdr.rrtype = typeOPT then timeToLive
  else if timeToLive = 0 ∨ 0 < record.hdr.ttl ∧ record.hdr.ttl < timeToLive then record.hdr.ttl
  else timeToLive

def computeTimeToLive : UInt32 :=
  match if response.answer = [] then extractNegativeTTL response else none with
  | some soaTTL => soaTTL
  | none => response.records.foldl lowerTimeToLive 0

def RR.setTTL (timeToLive : UInt32) (record : RR) : RR :=
  if record.hdr.rrtype = typeOPT then record
  else { record with hdr := { record.hdr with ttl := timeToLive } }

def normalizeTTL (timeToLive : UInt32) : Msg :=
  response.mapRecords (RR.setTTL timeToLive)

/-! ### Rewriting by query options -/

def DomainStrategy.filteredHint : DomainStrategy → Option UInt16
  | .ipv4Only => some svcbIPv6Hint
  | .ipv6Only => some svcbIPv4Hint
  | _ => none

def RR.dropHint (key : UInt16) (record : RR) : RR :=
  match record.data with
  | .https priority target value =>
      { record with data := .https priority target (value.filter fun it => it.key ≠ key) }
  | _ => record

def filterHints (strategy : DomainStrategy) : Msg :=
  match if question.qtype = typeHTTPS then strategy.filteredHint else none with
  | none => response
  | some key => { response with answer := response.answer.map (RR.dropHint key) }

def applyResponseOptions (options : DNSQueryOptions) :
    Msg × UInt32 :=
  let filtered := filterHints question response options.strategy
  let timeToLive := options.rewriteTTL.getD (computeTimeToLive filtered)
  (normalizeTTL filtered timeToLive, timeToLive)

/-- `dns.Msg.IsEdns0`: the last OPT record of the additional section. -/
def Msg.isEdns0 : Option RR :=
  message.extra.reverse.find? fun record => record.hdr.rrtype = typeOPT

def RR.ednsVersion (record : RR) : UInt8 := (record.hdr.ttl >>> 16).toUInt8

def RR.ednsDo (record : RR) : Bool := record.hdr.ttl &&& 0x8000 = 0x8000

def Msg.setEdns0 (udpSize : UInt16) (isDo : Bool) : Msg :=
  { message with
    extra := message.extra ++
      [⟨⟨".", typeOPT, udpSize, if isDo then 0x8000 else 0⟩, .opt []⟩] }

def Msg.dropOPT : Msg :=
  { message with extra := message.extra.filter fun record => record.hdr.rrtype ≠ typeOPT }

/-- How `finishExchange` fits the OPT records of a response to the request. -/
def fitEdns (request response : Msg) : Msg :=
  match response.isEdns0 with
  | none => response
  | some responseOpt =>
      match request.isEdns0 with
      | none => response.dropOPT
      | some requestOpt =>
          if requestOpt.ednsVersion < responseOpt.ednsVersion then
            response.dropOPT.setEdns0 responseOpt.hdr.rrclass responseOpt.ednsDo
          else response

def stripDNSPadding : Msg :=
  { response with
    extra := response.extra.map fun record =>
      match record.data with
      | .opt options => { record with data := .opt (options.filter fun it => it.option ≠ edns0Padding) }
      | _ => record }

def fixedResponseStatus (rcode : Nat) : Msg where
  id := message.id
  response := true
  authoritative := true
  recursionDesired := true
  recursionAvailable := true
  rcode := rcode
  question := message.question
  answer := []
  ns := []
  extra := []

namespace Addr

def bytes : Nat → Nat → List UInt8
  | 0, _ => []
  | count + 1, value => bytes count (value / 256) ++ [UInt8.ofNat value]

def asSlice : Addr → IP
  | .invalid => []
  | .v4 bits => bytes 4 bits.toNat
  | .v6 bits => bytes 16 bits.toNat

theorem length_bytes (count value : Nat) : (bytes count value).length = count := by
  induction count generalizing value with
  | zero => rfl
  | succ count ih => simp [bytes, ih]

theorem bigEndian_bytes (count value : Nat) : bigEndian (bytes count value) = value % 256 ^ count := by
  induction count generalizing value with
  | zero => simp [bytes, bigEndian, Nat.mod_one]
  | succ count ih =>
      have last : bigEndian (bytes (count + 1) value) =
          bigEndian (bytes count (value / 256)) * 256 + value % 256 := by
        simp [bigEndian, bytes, List.foldl_append]
      rw [last, ih, Nat.pow_succ', Nat.mod_mul]
      omega

/-- The bytes of a valid address determine it. -/
theorem ofIP_asSlice {addr : Addr} (valid : addr.isValid = true) : ofIP addr.asSlice = addr := by
  cases addr with
  | invalid => cases valid
  | v4 bits =>
      have exact : bigEndian (bytes 4 bits.toNat) = bits.toNat :=
        (bigEndian_bytes 4 _).trans (Nat.mod_eq_of_lt bits.isLt)
      simp [ofIP, asSlice, length_bytes, exact]
  | v6 bits =>
      have exact : bigEndian (bytes 16 bits.toNat) = bits.toNat :=
        (bigEndian_bytes 16 _).trans (Nat.mod_eq_of_lt bits.isLt)
      simp [ofIP, asSlice, length_bytes, exact]

theorem asSlice_eq_nil {addr : Addr} : addr.asSlice = [] ↔ addr = .invalid := by
  constructor
  · intro empty
    have length := congrArg List.length empty
    cases addr with
    | invalid => rfl
    | v4 bits | v6 bits => simp [asSlice, length_bytes] at length
  · rintro rfl
    rfl

theorem asSlice_inj {addr other : Addr} : addr.asSlice = other.asSlice ↔ addr = other := by
  refine ⟨fun equal => ?_, congrArg asSlice⟩
  by_cases valid : addr.isValid = true
  · by_cases otherValid : other.isValid = true
    · rw [← ofIP_asSlice valid, equal, ofIP_asSlice otherValid]
    · obtain rfl : other = .invalid := by cases other <;> simp_all [isValid]
      exact asSlice_eq_nil.1 equal
  · obtain rfl : addr = .invalid := by cases addr <;> simp_all [isValid]
    exact (asSlice_eq_nil.1 equal.symm).symm

end Addr

def EDNS0.isSubnet : EDNS0 → Bool
  | .subnet .. => true
  | _ => false

def subnetOfOptions : List EDNS0 → Option Prefix
  | [] => none
  | .subnet _ sourceNetmask _ address :: _ =>
      some (if (Addr.ofIP address).isValid then Prefix.of (Addr.ofIP address) sourceNetmask.toNat
        else .zero)
  | _ :: rest => subnetOfOptions rest

def clientSubnetFromMessage : Prefix :=
  (message.extra.findSome? fun record =>
    match record.data with
    | .opt options => subnetOfOptions options
    | _ => none).getD .zero

/-- The search of `setClientSubnet`. A record that is no OPT record makes it forget
those before it. -/
def findSubnet : List RR → Nat → Option Nat → Option Nat × Option Nat
  | [], _, optRecord => (optRecord, none)
  | record :: rest, index, _ =>
      match record.data with
      | .opt options =>
          match options.findIdx? EDNS0.isSubnet with
          | some subnetOption => (some index, some subnetOption)
          | none => findSubnet rest (index + 1) (some index)
      | _ => findSubnet rest (index + 1) none

def subnetOption (sourceScope : UInt8) : EDNS0 :=
  .subnet (if clientSubnet.addr.is4 then 1 else 2) (UInt8.ofNat (clientSubnet.bits.getD 0)) sourceScope
    clientSubnet.addr.asSlice

def setSubnetOption (index : Option Nat) (options : List EDNS0) : List EDNS0 :=
  match index with
  | none => options ++ [subnetOption clientSubnet 0]
  | some index => options.modify index fun option =>
      match option with
      | .subnet _ _ sourceScope _ => subnetOption clientSubnet sourceScope
      | other => other

def setClientSubnet : Msg :=
  match findSubnet message.extra 0 none with
  | (none, option) =>
      { message with
        extra := message.extra ++ [⟨⟨".", typeOPT, 0, 0⟩, .opt (setSubnetOption clientSubnet option [])⟩] }
  | (some index, option) =>
      { message with
        extra := message.extra.modify index fun record =>
          match record.data with
          | .opt options => { record with data := .opt (setSubnetOption clientSubnet option options) }
          | _ => record }

/-- A cacheable request carries nothing besides its question, or one plain OPT record
with client subnets. -/
def isSimpleExtra : List RR → Bool
  | [] => true
  | [⟨hdr, .opt options⟩] =>
      hdr.rrtype = typeOPT && 0 < hdr.rrclass && hdr.ttl = 0 &&
        options.all fun it => it.option = edns0Subnet
  | _ => false

def isSimpleRequest : Bool :=
  message.question.length = 1 && message.ns.isEmpty && isSimpleExtra message.extra

def strategyRejects (strategy : DomainStrategy) : Bool :=
  question.qtype = typeA ∧ strategy = .ipv6Only ∨ question.qtype = typeAAAA ∧ strategy = .ipv4Only

/-- `dns.IsFqdn`: a final dot after an even number of backslashes. -/
def isFqdn : Bool :=
  match name.toList.reverse with
  | '.' :: rest => (rest.takeWhile fun character => character = '\\').length % 2 = 0
  | _ => false

def fqdnToDomain : String :=
  if isFqdn name then String.ofList name.toList.dropLast else name

def fqdn : String := if isFqdn name then name else name ++ "."

end SideraCore.Dns
