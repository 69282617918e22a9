import SideraCore.Dns.Message

/-!
Owns what an exchange is asked with: transports as the transport manager hands
them out, and `adapter.DNSQueryOptions`. The explicitly requested transport of
the options is left out: with it set, no rule is evaluated.
-/

namespace SideraCore.Dns

inductive DomainStrategy where
  | asIs
  | preferIPv4
  | preferIPv6
  | ipv4Only
  | ipv6Only
deriving DecidableEq, Repr

/-- `adapter.DNSTransport`: its tag and whether `Type` is `fakeip`. -/
structure DNSTransport where
  tag : String
  isFakeIP : Bool
deriving DecidableEq, Repr

structure DNSTransportManager where
  transport : String → Option DNSTransport
  default : DNSTransport

structure DNSQueryOptions where
  strategy : DomainStrategy
  lookupStrategy : DomainStrategy
  disableCache : Bool
  disableOptimisticCache : Bool
  rewriteTTL : Option UInt32
  timeout : Nat
  clientSubnet : Prefix
deriving DecidableEq, Repr

def DNSQueryOptions.zero : DNSQueryOptions := ⟨.asIs, .asIs, false, false, none, 0, .zero⟩

def finalizeExchangeOptions (defaultDomainStrategy : DomainStrategy) (options : DNSQueryOptions) :
    DNSQueryOptions :=
  if options.strategy = .asIs then { options with strategy := defaultDomainStrategy } else options

end SideraCore.Dns
