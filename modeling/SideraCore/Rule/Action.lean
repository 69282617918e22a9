import SideraCore.Dns.Query

/-!
Owns the actions of DNS rules as the running program holds them, the responses
that `reject` and `predefined` produce, and how route options change the options
of a query.
-/

namespace SideraCore.Rule

open Dns

structure RuleActionDNSRouteOptions where
  strategy : DomainStrategy
  timeout : Nat
  disableCache : Bool
  disableOptimisticCache : Bool
  rewriteTTL : Option UInt32
  clientSubnet : Prefix
deriving DecidableEq, Repr

def RuleActionDNSRouteOptions.zero : RuleActionDNSRouteOptions :=
  ⟨.asIs, 0, false, false, none, .zero⟩

inductive RejectMethod where
  | default
  | drop
  | reply
deriving DecidableEq, Repr

structure RuleActionReject where
  method : RejectMethod
  noDrop : Bool
deriving DecidableEq, Repr

structure RuleActionPredefined where
  rcode : Nat
  answer : List RR
  ns : List RR
  extra : List RR
deriving DecidableEq, Repr

inductive RuleAction where
  | dnsRoute (server : String) (speculative : Bool) (options : RuleActionDNSRouteOptions)
  | evaluate (server : String) (tag : String) (speculative : Bool)
      (options : RuleActionDNSRouteOptions)
  | respond
  | dnsRouteOptions (options : RuleActionDNSRouteOptions)
  | reject (action : RuleActionReject)
  | predefined (action : RuleActionPredefined)
deriving DecidableEq, Repr

/-- `rewriteRecords`: a wildcard owner that covers the question takes its name. -/
def rewriteRecords (records : List RR) (question : Question) : List RR :=
  records.map fun record =>
    if record.hdr.name.startsWith "*" && question.name.endsWith (record.hdr.name.drop 1).toString then
      { record with hdr := { record.hdr with name := question.name } }
    else
      record

/-- The first question of a message. Every query that reaches the rules has one. -/
def firstQuestion (message : Msg) : Question := message.question.headD ⟨"", 0, 0⟩

def RuleActionPredefined.response (action : RuleActionPredefined) (request : Msg) : Msg :=
  { Msg.zero with
    id := request.id
    response := true
    authoritative := true
    recursionDesired := true
    recursionAvailable := true
    rcode := action.rcode
    question := request.question
    answer := rewriteRecords action.answer (firstQuestion request)
    ns := rewriteRecords action.ns (firstQuestion request)
    extra := rewriteRecords action.extra (firstQuestion request) }

def dnsRefusedResponse (message : Msg) : Msg :=
  { Msg.zero with
    id := message.id
    rcode := rcodeRefused
    response := true
    question := [firstQuestion message] }

/-- A strategy is skipped: a rule with one forces legacy mode, where this function is
not used. -/
def applyDNSRouteOptions (options : DNSQueryOptions) (routeOptions : RuleActionDNSRouteOptions) :
    DNSQueryOptions where
  strategy := options.strategy
  lookupStrategy := options.lookupStrategy
  disableCache := options.disableCache || routeOptions.disableCache
  disableOptimisticCache := options.disableOptimisticCache || routeOptions.disableOptimisticCache
  rewriteTTL := routeOptions.rewriteTTL.orElse fun _ => options.rewriteTTL
  timeout := if routeOptions.timeout > 0 then routeOptions.timeout else options.timeout
  clientSubnet :=
    if routeOptions.clientSubnet.isValid then routeOptions.clientSubnet else options.clientSubnet

inductive DnsRouteStatus where
  | missing
  | skipped
  | resolved (transport : DNSTransport) (options : DNSQueryOptions)
deriving DecidableEq, Repr

def resolveDNSRoute (transports : DNSTransportManager) (server : String)
    (routeOptions : RuleActionDNSRouteOptions) (allowFakeIP : Bool) (options : DNSQueryOptions) :
    DnsRouteStatus :=
  match transports.transport server with
  | none => .missing
  | some transport =>
      if transport.isFakeIP && !allowFakeIP then
        .skipped
      else
        let applied := applyDNSRouteOptions options routeOptions
        .resolved transport
          (if transport.isFakeIP then { applied with disableCache := true } else applied)

end SideraCore.Rule
