import Mathlib

/-!
Owns DNS messages: addresses and prefixes, questions, resource records with
the record data the program looks into, and messages. It also owns the
addresses a response exposes for matching (`DNSResponseAddresses`).

Record data the program never looks into is kept as raw bytes. It does not own
the wire format.
-/

namespace SideraCore.Dns

/-- `net.IP`: raw address bytes, of any length. -/
abbrev IP := List UInt8

/-- `netip.Addr`, without zones. -/
inductive Addr where
  | invalid
  | v4 (bits : BitVec 32)
  | v6 (bits : BitVec 128)
deriving DecidableEq, Repr

namespace Addr

def isValid : Addr → Bool
  | .invalid => false
  | _ => true

def is4 : Addr → Bool
  | .v4 _ => true
  | _ => false

def bigEndian (bytes : List UInt8) : Nat := bytes.foldl (fun value byte => value * 256 + byte.toNat) 0

/-- `M.AddrFromIP`, that is `netip.AddrFromSlice`: 4 or 16 bytes, else invalid. -/
def ofIP (ip : IP) : Addr :=
  if ip.length = 4 then .v4 (BitVec.ofNat 32 (bigEndian ip))
  else if ip.length = 16 then .v6 (BitVec.ofNat 128 (bigEndian ip))
  else .invalid

/-- `netip.Addr.Unmap`: an IPv4-mapped IPv6 address becomes the IPv4 address. -/
def unmap : Addr → Addr
  | .v6 bits => if bits >>> 32 = 0xffff#128 then .v4 (bits.truncate 32) else .v6 bits
  | addr => addr

def bitLen : Addr → Nat
  | .invalid => 0
  | .v4 _ => 32
  | .v6 _ => 128

end Addr

/-- `netip.Prefix`. `bits = none` is the length `netip.PrefixFrom` stores when it does
not fit the address. -/
structure Prefix where
  addr : Addr
  bits : Option Nat
deriving DecidableEq, Repr

namespace Prefix

def zero : Prefix := ⟨.invalid, none⟩

def of (addr : Addr) (bits : Nat) : Prefix :=
  ⟨addr, if addr.isValid ∧ bits ≤ addr.bitLen then some bits else none⟩

def isValid (subnet : Prefix) : Bool := subnet.bits.isSome

end Prefix

/-! ### Types and codes -/

def typeA : UInt16 := 1
def typeAAAA : UInt16 := 28
def typeOPT : UInt16 := 41
def typeHTTPS : UInt16 := 65
def classINET : UInt16 := 1

def rcodeSuccess : Nat := 0
def rcodeFormatError : Nat := 1
def rcodeNameError : Nat := 3
def rcodeRefused : Nat := 5

/-! ### Records and messages -/

structure Question where
  name : String
  qtype : UInt16
  qclass : UInt16
deriving DecidableEq, Repr

/-- `dns.RR_Header`, without the wire length. -/
structure RRHeader where
  name : String
  rrtype : UInt16
  rrclass : UInt16
  ttl : UInt32
deriving DecidableEq, Repr

inductive SVCBKeyValue where
  | ipv4Hint (hint : List IP)
  | ipv6Hint (hint : List IP)
  | other (key : UInt16) (value : List UInt8)
deriving DecidableEq, Repr

def svcbIPv4Hint : UInt16 := 4
def svcbIPv6Hint : UInt16 := 6

def SVCBKeyValue.key : SVCBKeyValue → UInt16
  | .ipv4Hint _ => svcbIPv4Hint
  | .ipv6Hint _ => svcbIPv6Hint
  | .other key _ => key

def edns0Subnet : UInt16 := 8
def edns0Padding : UInt16 := 12

inductive EDNS0 where
  | subnet (family : UInt16) (sourceNetmask : UInt8) (sourceScope : UInt8) (address : IP)
  | padding (bytes : List UInt8)
  | other (code : UInt16) (bytes : List UInt8)
deriving DecidableEq, Repr

def EDNS0.option : EDNS0 → UInt16
  | .subnet .. => edns0Subnet
  | .padding _ => edns0Padding
  | .other code _ => code

inductive RData where
  | a (address : IP)
  | aaaa (address : IP)
  | https (priority : UInt16) (target : String) (value : List SVCBKeyValue)
  | svcb (priority : UInt16) (target : String) (value : List SVCBKeyValue)
  | soa (minttl : UInt32) (rest : List UInt8)
  | opt (options : List EDNS0)
  | other (bytes : List UInt8)
deriving DecidableEq, Repr

structure RR where
  hdr : RRHeader
  data : RData
deriving DecidableEq, Repr

structure Msg where
  id : UInt16
  response : Bool
  authoritative : Bool
  recursionDesired : Bool
  recursionAvailable : Bool
  rcode : Nat
  question : List Question
  answer : List RR
  ns : List RR
  extra : List RR
deriving DecidableEq, Repr

namespace Msg

def zero : Msg := ⟨0, false, false, false, false, 0, [], [], [], []⟩

end Msg

/-- The inner switch of `DNSResponseAddresses`, for one SVCB parameter. Only IPv4 hints
are unmapped. -/
def hintAddresses : SVCBKeyValue → List Addr
  | .ipv4Hint hint => (hint.map fun ip => (Addr.ofIP ip).unmap).filter Addr.isValid
  | .ipv6Hint hint => (hint.map Addr.ofIP).filter Addr.isValid
  | .other _ _ => []

def recordAddresses (record : RR) : List Addr :=
  match record.data with
  | .a address => [Addr.ofIP address].filter Addr.isValid
  | .aaaa address => [Addr.ofIP address].filter Addr.isValid
  | .https _ _ value => value.flatMap hintAddresses
  | _ => []

/-- `adapter.DNSResponseAddresses`: nothing unless the response succeeded. -/
def dnsResponseAddresses (response : Option Msg) : List Addr :=
  match response with
  | none => []
  | some message =>
      if message.rcode ≠ rcodeSuccess then [] else message.answer.flatMap recordAddresses

end SideraCore.Dns
