import SideraCore.Dns.Message

/-!
Owns the metadata a rule is matched against (`adapter.InboundContext`) and the
rule items.

Only the address items and the response items look past the connection; every other
item of the source is a predicate on it, represented by `RuleItem.connection`.
-/

namespace SideraCore.Rule

open Dns

structure Socksaddr where
  addr : Addr
  port : UInt16
  fqdn : String
deriving DecidableEq, Repr

/-- The fields of `adapter.InboundContext` that describe the connection or the query. -/
structure Connection where
  inbound : String
  ipVersion : UInt8
  network : String
  source : Socksaddr
  destination : Socksaddr
  user : String
  outbound : String
  protocol : String
  domain : String
  client : String
  destinationAddresses : List Addr
  queryType : UInt16
deriving DecidableEq, Repr

/-- `adapter.InboundContext`: the connection, the DNS responses, and the rule cache. A
missing key of `NamedDNSResponses` and a nil value read the same. -/
structure InboundContext extends Connection where
  dnsResponse : Option Msg
  namedDNSResponses : String → Option Msg
  destinationAddressMatchFromResponse : Bool
  ipCidrMatchSource : Bool
  ipCidrAcceptEmpty : Bool
  didMatch : Bool
  ignoreDestinationIPCIDRMatch : Bool

namespace InboundContext

def zero : InboundContext where
  inbound := ""
  ipVersion := 0
  network := ""
  source := ⟨.invalid, 0, ""⟩
  destination := ⟨.invalid, 0, ""⟩
  user := ""
  outbound := ""
  protocol := ""
  domain := ""
  client := ""
  destinationAddresses := []
  queryType := 0
  dnsResponse := none
  namedDNSResponses := fun _ => none
  destinationAddressMatchFromResponse := false
  ipCidrMatchSource := false
  ipCidrAcceptEmpty := false
  didMatch := false
  ignoreDestinationIPCIDRMatch := false

variable (metadata : InboundContext)

def resetRuleMatchCache : InboundContext :=
  { metadata with didMatch := false }

def resetRuleCache : InboundContext :=
  { metadata with ipCidrMatchSource := false, ipCidrAcceptEmpty := false }.resetRuleMatchCache

/-- The metadata matched before a lookup: conditions on the destination address
are left out. -/
def deferDestination : InboundContext :=
  { metadata with ignoreDestinationIPCIDRMatch := true }

def withResponse (response : Msg) : InboundContext :=
  { metadata with dnsResponse := some response, destinationAddressMatchFromResponse := true }

def dnsResponseAddressesForMatch : List Addr :=
  dnsResponseAddresses metadata.dnsResponse

end InboundContext

inductive ResponseSection where
  | answer
  | ns
  | extra
deriving DecidableEq, Repr

def ResponseSection.select : ResponseSection → Msg → List RR
  | .answer, message => message.answer
  | .ns, message => message.ns
  | .extra, message => message.extra

/-- The rule items. Address sets, the public-address test and the record tests come from
libraries and are arbitrary predicates here. -/
inductive RuleItem where
  | ipCIDR (ipSet : Addr → Bool) (isSource : Bool)
  | ipIsPrivate (isPublicAddr : Addr → Bool) (isSource : Bool)
  | ipAcceptAny
  | responseRCode (rcode : Nat)
  | responseRecord (section_ : ResponseSection) (records : List (RR → Bool))
  | connection (test : Connection → Bool)

namespace RuleItem

def matchIPCIDR (ipSet : Addr → Bool) (isSource : Bool) (metadata : InboundContext) : Bool :=
  if isSource || metadata.ipCidrMatchSource then
    ipSet metadata.source.addr
  else if metadata.destinationAddressMatchFromResponse then
    let addresses := metadata.dnsResponseAddressesForMatch
    if addresses.isEmpty then metadata.ipCidrAcceptEmpty else addresses.any ipSet
  else if metadata.destination.addr.isValid then
    ipSet metadata.destination.addr
  else if !metadata.destinationAddresses.isEmpty then
    metadata.destinationAddresses.any ipSet
  else
    metadata.ipCidrAcceptEmpty

def matchIPIsPrivate (isPublicAddr : Addr → Bool) (isSource : Bool) (metadata : InboundContext) :
    Bool :=
  if isSource then
    !isPublicAddr metadata.source.addr
  else if metadata.destinationAddressMatchFromResponse then
    metadata.dnsResponseAddressesForMatch.any fun address => !isPublicAddr address
  else if metadata.destination.addr.isValid then
    !isPublicAddr metadata.destination.addr
  else
    metadata.destinationAddresses.any fun address => !isPublicAddr address

def matchIPAcceptAny (metadata : InboundContext) : Bool :=
  if metadata.destinationAddressMatchFromResponse then
    !metadata.dnsResponseAddressesForMatch.isEmpty
  else
    !metadata.destinationAddresses.isEmpty

def matchResponseRecord (section_ : ResponseSection) (records : List (RR → Bool))
    (metadata : InboundContext) : Bool :=
  match metadata.dnsResponse with
  | none => false
  | some response => records.any fun expected => (section_.select response).any expected

def isMatch : RuleItem → InboundContext → Bool
  | .ipCIDR ipSet isSource, metadata => matchIPCIDR ipSet isSource metadata
  | .ipIsPrivate isPublicAddr isSource, metadata => matchIPIsPrivate isPublicAddr isSource metadata
  | .ipAcceptAny, metadata => matchIPAcceptAny metadata
  | .responseRCode rcode, metadata =>
      metadata.dnsResponse.any fun response => response.rcode == rcode
  | .responseRecord section_ records, metadata => matchResponseRecord section_ records metadata
  | .connection test, metadata => test metadata.toConnection

/-- The sniffed or queried domain, else the name in the destination. -/
def domainHost (connection : Connection) : String :=
  if connection.domain ≠ "" then connection.domain else connection.destination.fqdn

def domain (toLower : String → String) (matcher : String → Bool) : RuleItem :=
  .connection fun connection =>
    domainHost connection ≠ "" && matcher (toLower (domainHost connection))

def network (networks : List String) : RuleItem :=
  .connection fun connection => networks.contains connection.network

def port (isSource : Bool) (ports : List UInt16) : RuleItem :=
  .connection fun connection =>
    ports.contains (if isSource then connection.source.port else connection.destination.port)

def queryType (types : List UInt16) : RuleItem :=
  .connection fun connection => connection.queryType ≠ 0 && types.contains connection.queryType

def ipVersion (isIPv6 : Bool) : RuleItem :=
  .connection fun connection =>
    (connection.ipVersion ≠ 0 && (connection.ipVersion == 6) == isIPv6) ||
      (connection.destination.addr.isValid &&
        (match connection.destination.addr with | .v6 _ => true | _ => false) == isIPv6)

/-- The item reads the response itself, whatever `DestinationAddressMatchFromResponse`
says. -/
def readsResponse : RuleItem → Bool
  | .responseRCode _ => true
  | .responseRecord _ _ => true
  | _ => false

/-- `DidMatch` is bookkeeping: no item reads it. -/
@[simp] theorem isMatch_didMatch (item : RuleItem) (metadata : InboundContext) (didMatch : Bool) :
    item.isMatch { metadata with didMatch := didMatch } = item.isMatch metadata := by
  cases item <;> rfl

/-- No item reads the flag that defers destination addresses. -/
@[simp] theorem isMatch_ignoreDestinationIPCIDRMatch (item : RuleItem) (metadata : InboundContext)
    (ignore : Bool) :
    item.isMatch { metadata with ignoreDestinationIPCIDRMatch := ignore } = item.isMatch metadata := by
  cases item <;> rfl

end RuleItem

end SideraCore.Rule
