import SideraCore.Control.Except
import SideraCore.Rule.DnsRule
import SideraCore.Rule.Groups

/-!
Owns default route rules as far as domain, address, port and identity
conditions go: their options, the construction of their items with its error
paths, and the matching logic the documentation gives for them.

It does not own rule actions, logical rules and rule-sets.
-/

namespace SideraCore.Options

/-- `option.DefaultRule` with the action `route`. -/
structure DefaultRule where
  inbound : List String
  network : List String
  authUser : List String
  protocol : List String
  domain : List String
  domainSuffix : List String
  domainKeyword : List String
  domainRegex : List String
  sourceIPCIDR : List String
  ipCIDR : List String
  sourcePort : List UInt16
  sourcePortRange : List String
  port : List UInt16
  portRange : List String
  outbound : String
deriving DecidableEq, Repr

end SideraCore.Options

namespace SideraCore.Rule

open Dns Control

/-! ### What construction takes from libraries -/

/-- The domain matcher, regular expressions, `netip` and `strings.ToLower`. A domain
matcher accepts what one of its entries accepts. -/
structure MatcherLibrary where
  toLower : String → String
  matchDomain : String → String → Bool
  matchDomainSuffix : String → String → Bool
  compile : String → Except String (String → Bool)
  parsePrefix : String → Except String (Addr → Bool)
  parseAddr : String → Except String Addr

variable (library : MatcherLibrary) (connection : Connection) (text : String)

/-- One entry of an `ip_cidr` list. The error reported is that of `ParsePrefix`. -/
def MatcherLibrary.parseIPCIDR :
    Except String (Addr → Bool) :=
  match library.parsePrefix text with
  | .ok range => .ok range
  | .error problem =>
      match library.parseAddr text with
      | .ok address => .ok fun other => other == address
      | .error _ => .error problem

def parseUintDigits (text : String) : Nat → List Char → Except String Nat
  | value, [] => pure value
  | value, digit :: rest =>
      if !digit.isDigit then
        throw ("strconv.ParseUint: parsing " ++ text.quote ++ ": invalid syntax")
      else if 10 * value + (digit.toNat - '0'.toNat) ≥ 2 ^ 16 then
        throw ("strconv.ParseUint: parsing " ++ text.quote ++ ": value out of range")
      else
        parseUintDigits text (10 * value + (digit.toNat - '0'.toNat)) rest

def parseUint : Except String Nat :=
  if text = "" then throw "strconv.ParseUint: parsing \"\": invalid syntax"
  else parseUintDigits text 0 text.toList

variable {value : Nat}

theorem parseUintDigits_lt {text : String} {digits : List Char} {start : Nat} (small : start < 2 ^ 16)
    (parsed : parseUintDigits text start digits = .ok value) : value < 2 ^ 16 := by
  induction digits generalizing start with
  | nil =>
      have same : start = value := pure_eq_ok_iff.1 parsed
      omega
  | cons digit rest ih =>
      rw [parseUintDigits, ite_throw_eq_ok_iff, ite_throw_eq_ok_iff] at parsed
      apply ih _ parsed.2.2
      omega

theorem parseUint_lt {text : String} (parsed : parseUint text = .ok value) : value < 2 ^ 16 := by
  rw [parseUint, ite_throw_eq_ok_iff] at parsed
  exact parseUintDigits_lt (by decide) parsed.2

theorem le_ofDigitChars (digits : List Char) (start : Nat) :
    start ≤ Nat.ofDigitChars 10 digits start := by
  induction digits generalizing start with
  | nil => exact Nat.le_refl start
  | cons digit rest ih =>
      rw [Nat.ofDigitChars_cons]
      have later := ih (10 * start + (digit.toNat - '0'.toNat))
      omega

theorem parseUintDigits_eq (digits : List Char) (start : Nat)
    (decimal : ∀ digit ∈ digits, digit.isDigit = true)
    (small : Nat.ofDigitChars 10 digits start < 2 ^ 16) :
    parseUintDigits text start digits = .ok (Nat.ofDigitChars 10 digits start) := by
  induction digits generalizing start with
  | nil => rfl
  | cons digit rest ih =>
      rw [Nat.ofDigitChars_cons] at small ⊢
      have bound := le_ofDigitChars rest (10 * start + (digit.toNat - '0'.toNat))
      rw [parseUintDigits, if_neg, if_neg]
      · apply ih _ _ small
        intro later member
        exact decimal later (List.mem_cons_of_mem digit member)
      · omega
      · simp [decimal digit List.mem_cons_self]

theorem parseUint_repr (small : value < 2 ^ 16) : parseUint (Nat.repr value) = .ok value := by
  have written : (Nat.repr value).toList = Nat.toDigits 10 value := String.toList_ofList
  have read := parseUintDigits_eq (Nat.repr value) (Nat.toDigits 10 value) 0
    (fun digit member => Nat.isDigit_of_mem_toDigits (by decide) (by decide) member)
    (by rwa [Nat.ofDigitChars_ten_toDigits])
  have filled : Nat.repr value ≠ "" := by
    intro vacant
    rw [vacant] at written
    exact Nat.toDigits_ne_nil written.symm
  rw [parseUint, if_neg filled, written, read, Nat.ofDigitChars_ten_toDigits]

namespace RuleItem

def inbound (inbounds : List String) : RuleItem :=
  .connection fun connection => inbounds.contains connection.inbound

def authUser (users : List String) : RuleItem :=
  .connection fun connection => users.contains connection.user

def protocol (protocols : List String) : RuleItem :=
  .connection fun connection => protocols.contains connection.protocol

def domainKeyword (toLower : String → String) (keywords : List String) : RuleItem :=
  domain toLower fun host => keywords.any fun keyword => decide (keyword.toList <:+: host.toList)

def portRange (isSource : Bool) (ranges : List (UInt16 × UInt16)) : RuleItem :=
  .connection fun connection =>
    let port := if isSource then connection.source.port else connection.destination.port
    ranges.any fun range => range.1 ≤ port && port ≤ range.2

end RuleItem

def parseEach {α : Type} (parse : String → Except String α) (wrap : Nat → String → String)
    (texts : List String) : Except String (List α) :=
  texts.zipIdx.mapM fun entry => (parse entry.1).mapError (wrap entry.2)

def newDomainItem (domains domainSuffixes : List String) :
    Except String RuleItem := do
  if domains.contains "" then throw "domain: empty item is not allowed"
  if domainSuffixes.contains "" then throw "domain_suffix: empty item is not allowed"
  return .domain library.toLower fun host =>
    domains.any (library.matchDomain · host) || domainSuffixes.any (library.matchDomainSuffix · host)

def newDomainRegexItem (expressions : List String) :
    Except String RuleItem := do
  let matchers ← parseEach library.compile
    (fun index problem => cause problem s!"parse expression {index}") expressions
  return .domain library.toLower fun host => matchers.any fun matcher => matcher host

def newIPCIDRItem (isSource : Bool) (prefixStrings : List String) :
    Except String RuleItem := do
  let ranges ← parseEach library.parseIPCIDR
    (fun index problem => cause problem s!"parse [{index}]") prefixStrings
  return .ipCIDR (fun address => ranges.any fun range => range address) isSource

/-- One entry of `NewPortRangeItem`; a missing start is 0, a missing end the last port. -/
def parsePortRange (portRange : String) : Except String (UInt16 × UInt16) := do
  let start := portRange.toList.takeWhile (· ≠ ':')
  match portRange.toList.dropWhile (· ≠ ':') with
  | [] => throw ("bad port range: " ++ portRange)
  | _ :: «end» =>
      let badRange := fun problem => cause problem ("bad port range: " ++ portRange)
      let first ← if start = [] then pure 0 else (parseUint (.ofList start)).mapError badRange
      let last ← if «end» = [] then pure 0xFFFF else (parseUint (.ofList «end»)).mapError badRange
      return (.ofNat first, .ofNat last)

theorem parsePortRange_repr {first last : Nat} (firstSmall : first < 2 ^ 16)
    (lastSmall : last < 2 ^ 16) :
    parsePortRange (first.repr ++ ":" ++ last.repr) = .ok (.ofNat first, .ofNat last) := by
  have digits (value : Nat) : ∀ digit ∈ Nat.toDigits 10 value, (decide (digit ≠ ':')) = true := by
    intro digit member
    have decimal := Nat.isDigit_of_mem_toDigits (by decide) (by decide) member
    apply decide_eq_true
    rintro rfl
    exact absurd decimal (by decide)
  have written : (first.repr ++ ":" ++ last.repr).toList =
      Nat.toDigits 10 first ++ ':' :: Nat.toDigits 10 last := by
    simp [Nat.repr]
  have before : (first.repr ++ ":" ++ last.repr).toList.takeWhile (· ≠ ':') = Nat.toDigits 10 first := by
    rw [written, List.takeWhile_append_of_pos (digits first)]
    simp
  have after : (first.repr ++ ":" ++ last.repr).toList.dropWhile (· ≠ ':') =
      ':' :: Nat.toDigits 10 last := by
    rw [written, List.dropWhile_append_of_pos (digits first)]
    simp
  have readFirst := parseUint_repr firstSmall
  have readLast := parseUint_repr lastSmall
  unfold Nat.repr at readFirst readLast
  unfold parsePortRange
  simp only [before, after, if_neg Nat.toDigits_ne_nil, readFirst, readLast]
  rfl

def newPortRangeItem (isSource : Bool) (rangeList : List String) : Except String RuleItem := do
  let ranges ← rangeList.mapM parsePortRange
  return .portRange isSource ranges

def whenListed {α : Type} (entries : List α) (item : Except String RuleItem) :
    Except String (List RuleItem) :=
  if entries.isEmpty then pure [] else do return [← item]

def newDefaultRule (options : Options.DefaultRule) :
    Except String AbstractDefaultRule := do
  let inbound ← whenListed options.inbound (pure (.inbound options.inbound))
  let network ← whenListed options.network (pure (.network options.network))
  let authUser ← whenListed options.authUser (pure (.authUser options.authUser))
  let protocol ← whenListed options.protocol (pure (.protocol options.protocol))
  let domain ← whenListed (options.domain ++ options.domainSuffix)
    (newDomainItem library options.domain options.domainSuffix)
  let domainKeyword ← whenListed options.domainKeyword
    (pure (.domainKeyword library.toLower options.domainKeyword))
  let domainRegex ← whenListed options.domainRegex (newDomainRegexItem library options.domainRegex)
  let sourceIPCIDR ← whenListed options.sourceIPCIDR
    ((newIPCIDRItem library true options.sourceIPCIDR).mapError (cause · "source_ip_cidr"))
  let ipCIDR ← whenListed options.ipCIDR
    ((newIPCIDRItem library false options.ipCIDR).mapError (cause · "ipcidr"))
  let sourcePort ← whenListed options.sourcePort (pure (.port true options.sourcePort))
  let sourcePortRange ← whenListed options.sourcePortRange
    ((newPortRangeItem true options.sourcePortRange).mapError (cause · "source_port_range"))
  let port ← whenListed options.port (pure (.port false options.port))
  let portRange ← whenListed options.portRange
    ((newPortRangeItem false options.portRange).mapError (cause · "port_range"))
  return {
    items := inbound ++ network ++ authUser ++ protocol
    sourceAddressItems := sourceIPCIDR
    sourcePortItems := sourcePort ++ sourcePortRange
    destinationAddressItems := domain ++ domainKeyword ++ domainRegex
    destinationIPCIDRItems := ipCIDR
    destinationPortItems := port ++ portRange
    invert := false
    ruleSetItem := none }

/-! ### The documented matching logic -/

/-- The rule cache is reset and no DNS response is involved. -/
def Connection.routed : InboundContext :=
  { InboundContext.zero with toConnection := connection }

@[simp] theorem Connection.routed_ignoreDestinationIPCIDRMatch :
    connection.routed.ignoreDestinationIPCIDRMatch = false := rfl

@[simp] theorem Connection.routed_ipCidrMatchSource :
    connection.routed.ipCidrMatchSource = false := rfl

def Connection.destinationIPs : List Addr :=
  if connection.destination.addr.isValid then [connection.destination.addr]
  else connection.destinationAddresses

def MatcherLibrary.InRange (address : Addr) : Prop :=
  ∃ range, library.parseIPCIDR text = .ok range ∧ range address = true

def MatcherLibrary.Accepts (expression host : String) : Prop :=
  ∃ matcher, library.compile expression = .ok matcher ∧ matcher host = true

def OnHost (accepted : String → Prop) : Prop :=
  RuleItem.domainHost connection ≠ "" ∧ accepted (library.toLower (RuleItem.domainHost connection))

def MatchesPort (ports : List UInt16) (ranges : List String) (port : UInt16) : Prop :=
  port ∈ ports ∨
    ∃ text ∈ ranges, ∃ range, parsePortRange text = .ok range ∧ range.1 ≤ port ∧ port ≤ range.2

end SideraCore.Rule

namespace SideraCore.Options.DefaultRule

open Rule

variable (library : MatcherLibrary) (options : DefaultRule)

def HasDomain : Prop :=
  options.domain ++ options.domainSuffix ≠ [] ∨ options.domainKeyword ≠ [] ∨ options.domainRegex ≠ []

def AcceptsHost (host : String) : Prop :=
  (∃ entry ∈ options.domain, library.matchDomain entry host = true) ∨
    (∃ entry ∈ options.domainSuffix, library.matchDomainSuffix entry host = true) ∨
    (∃ keyword ∈ options.domainKeyword, keyword.toList <:+: host.toList) ∨
    ∃ expression ∈ options.domainRegex, library.Accepts expression host

def MatchesIP (connection : Connection) : Prop :=
  ∃ text ∈ options.ipCIDR, ∃ address ∈ connection.destinationIPs, library.InRange text address

def MatchesSourceIP (connection : Connection) :
    Prop :=
  ∃ text ∈ options.sourceIPCIDR, library.InRange text connection.source.addr

/-- The documented logic: domain and address conditions on the destination are one
disjunction, so are ports and port ranges; everything else is a conjunction. -/
@[mk_iff]
structure Matches (library : MatcherLibrary) (options : DefaultRule) (connection : Connection) :
    Prop where
  inbound : options.inbound ≠ [] → connection.inbound ∈ options.inbound
  network : options.network ≠ [] → connection.network ∈ options.network
  authUser : options.authUser ≠ [] → connection.user ∈ options.authUser
  protocol : options.protocol ≠ [] → connection.protocol ∈ options.protocol
  sourceAddress : options.sourceIPCIDR ≠ [] → options.MatchesSourceIP library connection
  sourcePort : options.sourcePort ≠ [] ∨ options.sourcePortRange ≠ [] →
    MatchesPort options.sourcePort options.sourcePortRange connection.source.port
  destinationAddress : options.HasDomain ∨ options.ipCIDR ≠ [] →
    OnHost library connection (options.AcceptsHost library) ∨ options.MatchesIP library connection
  destinationPort : options.port ≠ [] ∨ options.portRange ≠ [] →
    MatchesPort options.port options.portRange connection.destination.port

end SideraCore.Options.DefaultRule

namespace SideraCore.Rule

open Dns Control

variable {α : Type} {texts : List String} {library : MatcherLibrary} {item : RuleItem}

theorem mem_iff_of_parseEach {parse : String → Except String α} {wrap : Nat → String → String}
    {results : List α} (parsed : parseEach parse wrap texts = .ok results) (result : α) :
    result ∈ results ↔ ∃ text ∈ texts, parse text = .ok result := by
  rw [mem_iff_of_mapM_eq_ok parsed]
  simp only [mapError_eq_ok_iff]
  constructor
  · rintro ⟨entry, member, succeeded⟩
    exact ⟨entry.1, List.fst_mem_of_mem_zipIdx member, succeeded⟩
  · rintro ⟨text, member, succeeded⟩
    obtain ⟨index, bound, at_index⟩ := List.getElem_of_mem member
    refine ⟨(text, index), ?_, succeeded⟩
    rw [List.mk_mem_zipIdx_iff_getElem?, List.getElem?_eq_some_iff]
    exact ⟨bound, at_index⟩

theorem isMatch_domain (matcher : String → Bool) (connection : Connection) :
    (RuleItem.domain library.toLower matcher).isMatch connection.routed = true ↔
      OnHost library connection fun host => matcher host = true := by
  simp [RuleItem.domain, RuleItem.isMatch, OnHost, Connection.routed]

theorem isMatch_newDomainItem {domains suffixes : List String}
    (made : newDomainItem library domains suffixes = .ok item) (connection : Connection) :
    item.isMatch connection.routed = true ↔ OnHost library connection fun host =>
      (∃ entry ∈ domains, library.matchDomain entry host = true) ∨
        ∃ entry ∈ suffixes, library.matchDomainSuffix entry host = true := by
  simp only [newDomainItem, throw_bind] at made
  rw [ite_throw_eq_ok_iff, ite_throw_eq_ok_iff] at made
  obtain ⟨-, -, made⟩ := made
  rw [← pure_eq_ok_iff.1 made, isMatch_domain]
  simp

theorem isMatch_newDomainRegexItem {expressions : List String}
    (made : newDomainRegexItem library expressions = .ok item) (connection : Connection) :
    item.isMatch connection.routed = true ↔ OnHost library connection fun host =>
      ∃ expression ∈ expressions, library.Accepts expression host := by
  obtain ⟨matchers, parsed, made⟩ := bind_eq_ok_iff.1 made
  rw [← pure_eq_ok_iff.1 made, isMatch_domain]
  apply and_congr_right
  intro named
  simp only [List.any_eq_true]
  exact exists_mem_iff_of_mem_iff (mem_iff_of_parseEach parsed) _

variable {isSource : Bool} {entries : List α} {items : List RuleItem} {connection : Connection}

theorem exists_ipSet_of_newIPCIDRItem (made : newIPCIDRItem library isSource texts = .ok item) :
    ∃ ipSet, item = .ipCIDR ipSet isSource ∧
      ∀ address, ipSet address = true ↔ ∃ text ∈ texts, library.InRange text address := by
  obtain ⟨ranges, parsed, made⟩ := bind_eq_ok_iff.1 made
  refine ⟨_, (pure_eq_ok_iff.1 made).symm, ?_⟩
  intro address
  rw [List.any_eq_true]
  exact exists_mem_iff_of_mem_iff (mem_iff_of_parseEach parsed) _

theorem isMatch_newIPCIDRItem_source (made : newIPCIDRItem library true texts = .ok item)
    (connection : Connection) :
    item.isMatch connection.routed = true ↔
      ∃ text ∈ texts, library.InRange text connection.source.addr := by
  obtain ⟨ipSet, rfl, spec⟩ := exists_ipSet_of_newIPCIDRItem made
  rw [← spec]
  rfl

theorem isMatch_ipCIDR_destination (ipSet : Addr → Bool) (connection : Connection) :
    (RuleItem.ipCIDR ipSet false).isMatch connection.routed = connection.destinationIPs.any ipSet := by
  by_cases valid : connection.destination.addr.isValid = true
  · simp [RuleItem.isMatch, RuleItem.matchIPCIDR, Connection.routed, InboundContext.zero,
      Connection.destinationIPs, valid]
  · cases resolved : connection.destinationAddresses with
    | nil | cons first rest =>
        simp [RuleItem.isMatch, RuleItem.matchIPCIDR, Connection.routed, InboundContext.zero,
          Connection.destinationIPs, valid, resolved]

theorem isMatch_newIPCIDRItem_destination (made : newIPCIDRItem library false texts = .ok item)
    (connection : Connection) :
    item.isMatch connection.routed = true ↔
      ∃ text ∈ texts, ∃ address ∈ connection.destinationIPs, library.InRange text address := by
  obtain ⟨ipSet, rfl, spec⟩ := exists_ipSet_of_newIPCIDRItem made
  rw [isMatch_ipCIDR_destination]
  simp only [List.any_eq_true, spec]
  constructor
  · rintro ⟨address, destined, text, listed, inside⟩
    exact ⟨text, listed, address, destined, inside⟩
  · rintro ⟨text, listed, address, destined, inside⟩
    exact ⟨address, destined, text, listed, inside⟩

theorem isMatch_newPortRangeItem (made : newPortRangeItem isSource texts = .ok item)
    (connection : Connection) :
    item.isMatch connection.routed = true ↔
      MatchesPort [] texts
        (if isSource then connection.source.port else connection.destination.port) := by
  obtain ⟨ranges, parsed, made⟩ := bind_eq_ok_iff.1 made
  rw [← pure_eq_ok_iff.1 made]
  simp only [RuleItem.portRange, RuleItem.isMatch, List.any_eq_true, Bool.and_eq_true, decide_eq_true_eq,
    MatchesPort, List.not_mem_nil, false_or]
  exact exists_mem_iff_of_mem_iff (mem_iff_of_mapM_eq_ok parsed) _

/-! ### The whole rule -/

/-- None for the empty list, one for any other, and the item tests the condition. -/
def ItemsFor {α : Type} (entries : List α) (connection : Connection) (condition : Prop)
    (items : List RuleItem) : Prop :=
  (items = [] ↔ entries = []) ∧
    (matchAnyItem items connection.routed = true ↔ condition) ∧
    ((items.all fun item => item.isMatch connection.routed) = true ↔ (entries ≠ [] → condition))

theorem itemsFor_of_whenListed {item : Except String RuleItem} {condition : Prop}
    (made : whenListed entries item = .ok items)
    (spec : ∀ built, item = .ok built → (built.isMatch connection.routed = true ↔ condition))
    (vacant : entries = [] → ¬condition) : ItemsFor entries connection condition items := by
  by_cases listed : entries = []
  · rw [whenListed, if_pos (by simp [listed])] at made
    rw [← pure_eq_ok_iff.1 made]
    simp [ItemsFor, matchAnyItem, listed, vacant listed]
  · rw [whenListed, if_neg (by simpa using listed)] at made
    obtain ⟨built, succeeded, made⟩ := bind_eq_ok_iff.1 made
    rw [← pure_eq_ok_iff.1 made]
    simp [ItemsFor, matchAnyItem, listed, spec built succeeded]

theorem itemsFor_connection {test : Connection → Bool} {condition : Prop}
    (made : whenListed entries (pure (.connection test)) = .ok items)
    (spec : test connection = true ↔ condition) (vacant : entries = [] → ¬condition) :
    ItemsFor entries connection condition items := by
  apply itemsFor_of_whenListed made _ vacant
  intro built succeeded
  rw [← pure_eq_ok_iff.1 succeeded]
  exact spec

theorem matchAnyItem_append (first second : List RuleItem) (metadata : InboundContext) :
    matchAnyItem (first ++ second) metadata =
      (matchAnyItem first metadata || matchAnyItem second metadata) :=
  List.any_append

theorem mem_or_matchesPort (ports : List UInt16) (ranges : List String) (port : UInt16) :
    port ∈ ports ∨ MatchesPort [] ranges port ↔ MatchesPort ports ranges port := by
  simp [MatchesPort]

theorem forall_group_iff (holds : Group → Prop) :
    (∀ group, holds group) ↔
      holds .sourceAddress ∧ holds .sourcePort ∧ holds .destinationAddress ∧
        holds .destinationPort := by
  constructor
  · intro all
    exact ⟨all _, all _, all _, all _⟩
  · rintro ⟨sourceAddress, sourcePort, destinationAddress, destinationPort⟩ group
    cases group <;> assumption

/-- **A built rule follows the documented logic.** -/
theorem newDefaultRule_isMatch_iff {options : Options.DefaultRule} {rule : AbstractDefaultRule}
    (built : newDefaultRule library options = .ok rule) (connection : Connection) :
    rule.isMatch connection.routed = true ↔ options.Matches library connection := by
  simp only [newDefaultRule, bind_eq_ok_iff] at built
  obtain ⟨inbound, inboundMade, network, networkMade, authUser, authUserMade, protocol, protocolMade,
    domain, domainMade, keyword, keywordMade, regex, regexMade, sourceIP, sourceIPMade, ip, ipMade,
    sourcePort, sourcePortMade, sourceRange, sourceRangeMade, port, portMade, range, rangeMade,
    assembled⟩ := built
  have inboundItems : ItemsFor _ connection (connection.inbound ∈ options.inbound) inbound :=
    itemsFor_connection inboundMade (by simp) (by simp_all)
  have networkItems : ItemsFor _ connection (connection.network ∈ options.network) network :=
    itemsFor_connection networkMade (by simp) (by simp_all)
  have authUserItems : ItemsFor _ connection (connection.user ∈ options.authUser) authUser :=
    itemsFor_connection authUserMade (by simp) (by simp_all)
  have protocolItems : ItemsFor _ connection (connection.protocol ∈ options.protocol) protocol :=
    itemsFor_connection protocolMade (by simp) (by simp_all)
  have domainItems := itemsFor_of_whenListed domainMade
    (fun item made => isMatch_newDomainItem made connection) (by simp_all [OnHost])
  have keywordItems : ItemsFor _ connection
      (OnHost library connection fun host =>
        ∃ keyword ∈ options.domainKeyword, keyword.toList <:+: host.toList) keyword :=
    itemsFor_connection keywordMade (by simp [OnHost]) (by simp_all [OnHost])
  have regexItems := itemsFor_of_whenListed regexMade
    (fun item made => isMatch_newDomainRegexItem made connection) (by simp_all [OnHost])
  have sourceIPItems := itemsFor_of_whenListed sourceIPMade
    (fun item made => isMatch_newIPCIDRItem_source (mapError_eq_ok_iff.1 made) connection)
    (by simp_all)
  have ipItems := itemsFor_of_whenListed ipMade
    (fun item made => isMatch_newIPCIDRItem_destination (mapError_eq_ok_iff.1 made) connection)
    (by simp_all)
  have sourcePortItems : ItemsFor _ connection (connection.source.port ∈ options.sourcePort) sourcePort :=
    itemsFor_connection sourcePortMade (by simp) (by simp_all)
  have sourceRangeItems := itemsFor_of_whenListed sourceRangeMade
    (fun item made => isMatch_newPortRangeItem (mapError_eq_ok_iff.1 made) connection)
    (by simp_all [MatchesPort])
  have portItems : ItemsFor _ connection (connection.destination.port ∈ options.port) port :=
    itemsFor_connection portMade (by simp) (by simp_all)
  have rangeItems := itemsFor_of_whenListed rangeMade
    (fun item made => isMatch_newPortRangeItem (mapError_eq_ok_iff.1 made) connection)
    (by simp_all [MatchesPort])
  rw [← pure_eq_ok_iff.1 assembled, AbstractDefaultRule.isMatch, Option.map_none,
    RuleItems.isMatch_none_iff _ _ rfl, forall_group_iff]
  simp only [RuleItems.required_iff, RuleItems.satisfied, RuleItems.itemsMatch, RuleItems.groupItems, List.all_append,
    Bool.and_eq_true, matchAnyItem_append, Bool.or_eq_true, Connection.routed_ipCidrMatchSource,
    Connection.routed_ignoreDestinationIPCIDRMatch, Bool.not_false, Bool.true_and, Bool.and_false,
    Bool.false_eq_true, ↓reduceIte, List.append_nil, ne_eq, List.append_eq_nil_iff]
  simp only [inboundItems.2.2, networkItems.2.2, authUserItems.2.2, protocolItems.2.2, domainItems.2.1,
    keywordItems.2.1, regexItems.2.1, sourceIPItems.2.1, ipItems.2.1, sourcePortItems.2.1,
    sourceRangeItems.2.1, portItems.2.1, rangeItems.2.1, domainItems.1, keywordItems.1, regexItems.1,
    sourceIPItems.1, ipItems.1, sourcePortItems.1, sourceRangeItems.1, portItems.1, rangeItems.1]
  rw [Options.DefaultRule.matches_iff]
  simp only [OnHost, Options.DefaultRule.AcceptsHost, ← and_or_left, mem_or_matchesPort, ne_eq,
    not_and_or, and_assoc, or_assoc, Options.DefaultRule.HasDomain, Options.DefaultRule.MatchesIP,
    Options.DefaultRule.MatchesSourceIP, ↓reduceIte, Bool.false_eq_true]

end SideraCore.Rule
