import SideraCore.Config.XrayPorts

/-!
Owns the translation of Xray routing rules into default route rules, what a
condition of an Xray rule means, and how far the translation keeps that meaning.

It does not own decoding: a port condition arrives as the kind of JSON value it
is, and a field the translation only tests for presence as that test.
-/

namespace SideraCore.Config

open Rule Control Dns Options

def cutPrefix (start text : String) : Option String :=
  if start.toList.isPrefixOf text.toList then some (.ofList (text.toList.drop start.toList.length))
  else none

def hasPrefix (text start : String) : Bool := start.toList.isPrefixOf text.toList

theorem toList_prefix_iff {start text : String} :
    start.toList.isPrefixOf text.toList = true ↔ ∃ rest, text = start ++ rest := by
  rw [List.isPrefixOf_iff_prefix]
  constructor
  · rintro ⟨rest, whole⟩
    refine ⟨.ofList rest, String.toList_injective ?_⟩
    rw [String.toList_append, String.toList_ofList, whole]
  · rintro ⟨rest, rfl⟩
    rw [String.toList_append]
    exact List.prefix_append _ _

theorem cutPrefix_append (start rest : String) : cutPrefix start (start ++ rest) = some rest := by
  rw [cutPrefix, if_pos (toList_prefix_iff.2 ⟨rest, rfl⟩), String.toList_append, List.drop_left,
    String.ofList_toList]

theorem cutPrefix_eq_some_iff {start text rest : String} :
    cutPrefix start text = some rest ↔ text = start ++ rest := by
  constructor
  · intro cut
    have starts : start.toList.isPrefixOf text.toList = true := by
      by_contra apart
      rw [cutPrefix, if_neg apart] at cut
      cases cut
    obtain ⟨other, rfl⟩ := toList_prefix_iff.1 starts
    rw [Option.some.inj ((cutPrefix_append start other).symm.trans cut)]
  · rintro rfl
    exact cutPrefix_append start rest

structure XrayRoutingRule where
  type : String
  ruleTag : String
  outboundTag : String
  balancerTag : String
  domain : List String
  domains : Option (List String)
  ip : List String
  port : RawPort
  network : List String
  sourceIP : Option (List String)
  source : List String
  sourcePort : RawPort
  user : List String
  hasVLESSRoute : Bool
  inboundTag : List String
  protocols : List String
  attributes : List (String × String)
  localIP : List String
  hasLocalPort : Bool
  process : List String
  hasWebhook : Bool
deriving DecidableEq, Repr

namespace XrayRoutingRule

/-- The domain list in force: `domains` takes the place of `domain`. -/
def domainList (rule : XrayRoutingRule) : List String := rule.domains.getD rule.domain

def sourceList (rule : XrayRoutingRule) : List String := rule.sourceIP.getD rule.source

end XrayRoutingRule

inductive DomainRule where
  | full (name : String)
  | suffix (name : String)
  | keyword (text : String)
  | regex (expression : String)
deriving DecidableEq, Repr

namespace DomainRule

def full? : DomainRule → Option String
  | .full name => some name
  | _ => none

def suffix? : DomainRule → Option String
  | .suffix name => some name
  | _ => none

def keyword? : DomainRule → Option String
  | .keyword text => some text
  | _ => none

def regex? : DomainRule → Option String
  | .regex expression => some expression
  | _ => none

end DomainRule

open DomainRule

def dotless (substring : String) : Except String DomainRule :=
  if substring.toList.contains '.' then throw "substring in dotless rule must not contain a dot"
  else if substring = "" then pure (.regex "^[^.]*$")
  else pure (.regex ("^[^.]*" ++ substring ++ "[^.]*$"))

def parseDomain (domain : String) : Except String DomainRule :=
  if domain = "" then throw "empty domain rule"
  else if let some name := cutPrefix "full:" domain then pure (.full name)
  else if let some name := cutPrefix "domain:" domain then pure (.suffix name)
  else if let some text := cutPrefix "keyword:" domain then pure (.keyword text)
  else if let some expression := cutPrefix "regexp:" domain then pure (.regex expression)
  else if let some substring := cutPrefix "dotless:" domain then dotless substring
  else if hasPrefix domain "geosite:" || hasPrefix domain "ext:" then
    throw ("geodata domain rule is not implemented: " ++ domain)
  else pure (.keyword domain)

def xrayPrivatePrefixes : List String :=
  ["0.0.0.0/8", "10.0.0.0/8", "100.64.0.0/10", "127.0.0.0/8", "169.254.0.0/16", "172.16.0.0/12",
    "192.0.0.0/24", "192.0.2.0/24", "192.88.99.0/24", "192.168.0.0/16", "198.18.0.0/15",
    "198.51.100.0/24", "203.0.113.0/24", "224.0.0.0/3", "::/127", "fc00::/7", "fe80::/10", "ff00::/8"]

def translateIP (library : MatcherLibrary) (value : String) : Except String (List String) :=
  if hasPrefix value "!" then
    throw ("negated IP rules have no current Sidera equivalent: " ++ value)
  else if library.toLower value = "geoip:private" then pure xrayPrivatePrefixes
  else if hasPrefix (library.toLower value) "geoip:" || hasPrefix (library.toLower value) "ext:" then
    throw ("geodata IP rule is not implemented: " ++ value)
  else pure [value]

def appendIPMatch (library : MatcherLibrary) (values : List String) : Except String (List String) := do
  let translated ← values.mapM (translateIP library)
  return translated.flatten

def translateNetwork (library : MatcherLibrary) (item : String) : Except String String :=
  let network := library.toLower item
  if network ≠ "tcp" ∧ network ≠ "udp" then throw ("unsupported network: " ++ network)
  else pure network

/-- One turn of the loop over the users. A user that is empty or no valid expression is
skipped. -/
def translateUser (library : MatcherLibrary) (user : String) : Except String (Option String) :=
  if user = "" then pure none
  else
    match cutPrefix "regexp:" user with
    | some expression =>
        match library.compile expression with
        | .ok _ => throw "Xray regexp user rules have no current Sidera equivalent"
        | .error _ => pure none
    | none => pure (some user)

def translateUsers (library : MatcherLibrary) (users : List String) : Except String (List String) := do
  let translated ← users.mapM (translateUser library)
  if !users.isEmpty && translated.reduceOption.isEmpty then
    throw "Xray user rule has no translatable matchers"
  return translated.reduceOption

def XrayRoutingRule.hasUnsupported (rule : XrayRoutingRule) : Bool :=
  rule.ruleTag ≠ "" || rule.balancerTag ≠ "" || rule.hasVLESSRoute || !rule.attributes.isEmpty ||
    !rule.localIP.isEmpty || rule.hasLocalPort || !rule.process.isEmpty || rule.hasWebhook

def unconditional (outbound : String) : DefaultRule where
  inbound := []
  network := []
  authUser := []
  protocol := []
  domain := []
  domainSuffix := []
  domainKeyword := []
  domainRegex := []
  sourceIPCIDR := []
  ipCIDR := []
  sourcePort := []
  sourcePortRange := []
  port := []
  portRange := []
  outbound := outbound

def translateXrayRoutingRule (library : MatcherLibrary) (source : XrayRoutingRule) :
    Except String DefaultRule := do
  if source.type ≠ "" ∧ library.toLower source.type ≠ "field" then
    throw ("unsupported rule type: " ++ source.type)
  if source.hasUnsupported then throw "rule contains fields without a current Sidera equivalent"
  if source.outboundTag = "" then throw "outboundTag is required"
  let networks ← source.network.mapM (translateNetwork library)
  let users ← translateUsers library source.user
  let port ← (appendPortMatch source.port).mapError (cause · "port")
  let sourcePort ← (appendPortMatch source.sourcePort).mapError (cause · "sourcePort")
  let domains ← source.domainList.mapM parseDomain
  let ip ← (appendIPMatch library source.ip).mapError (cause · "ip")
  let sourceIP ← (appendIPMatch library source.sourceList).mapError (cause · "sourceIP")
  let result : DefaultRule := {
    inbound := source.inboundTag
    network := networks
    authUser := users
    protocol := source.protocols
    domain := domains.filterMap full?
    domainSuffix := domains.filterMap suffix?
    domainKeyword := domains.filterMap keyword?
    domainRegex := domains.filterMap regex?
    sourceIPCIDR := sourceIP
    ipCIDR := ip
    sourcePort := sourcePort.1
    sourcePortRange := sourcePort.2
    port := port.1
    portRange := port.2
    outbound := source.outboundTag }
  if result = unconditional source.outboundTag then throw "this rule has no effective fields"
  return result

/-! ### What an Xray rule means -/

inductive Condition where
  | inboundTag
  | network
  | protocol
  | user
  | port
  | sourcePort
  | domain
  | ip
  | source
deriving DecidableEq, Repr

def DomainRule.Accepts (library : MatcherLibrary) (host : String) : DomainRule → Prop
  | .full name => library.matchDomain name host = true
  | .suffix name => library.matchDomainSuffix name host = true
  | .keyword text => text.toList <:+: host.toList
  | .regex expression => library.Accepts expression host

/-- What a value of a domain condition can start with. -/
inductive DomainScheme where
  | full
  | domain
  | keyword
  | regexp
  | dotless
  | geosite
  | ext
deriving DecidableEq, Repr

namespace DomainScheme

def text : DomainScheme → String
  | full => "full:"
  | domain => "domain:"
  | keyword => "keyword:"
  | regexp => "regexp:"
  | dotless => "dotless:"
  | geosite => "geosite:"
  | ext => "ext:"

/-- The hosts a value stands for after its scheme. No rule that names geodata is
translated. -/
def Accepts (library : MatcherLibrary) (value host : String) : DomainScheme → Prop
  | full => library.matchDomain value host = true
  | domain => library.matchDomainSuffix value host = true
  | keyword => value.toList <:+: host.toList
  | regexp => library.Accepts value host
  | dotless => library.Accepts (if value = "" then "^[^.]*$" else "^[^.]*" ++ value ++ "[^.]*$") host
  | geosite => False
  | ext => False

end DomainScheme

/-- A value without a scheme is a part of the host. -/
def DomainMatches (library : MatcherLibrary) (value host : String) : Prop :=
  (∃ scheme : DomainScheme, ∃ rest, value = scheme.text ++ rest ∧ scheme.Accepts library rest host) ∨
    (∀ scheme : DomainScheme, ∀ rest, value ≠ scheme.text ++ rest) ∧ value.toList <:+: host.toList

def IPMatches (library : MatcherLibrary) (value : String) (address : Addr) : Prop :=
  if library.toLower value = "geoip:private" then ∃ range ∈ xrayPrivatePrefixes, library.InRange range address
  else library.InRange value address

def UserMatches (library : MatcherLibrary) (value user : String) : Prop :=
  (∃ expression, value = "regexp:" ++ expression ∧ library.Accepts expression user) ∨
    value ≠ "" ∧ (∀ expression, value ≠ "regexp:" ++ expression) ∧ value = user

namespace XrayRoutingRule

def Present (rule : XrayRoutingRule) : Condition → Prop
  | .inboundTag => rule.inboundTag ≠ []
  | .network => rule.network ≠ []
  | .protocol => rule.protocols ≠ []
  | .user => rule.user ≠ []
  | .port => rule.port ≠ .missing
  | .sourcePort => rule.sourcePort ≠ .missing
  | .domain => rule.domainList ≠ []
  | .ip => rule.ip ≠ []
  | .source => rule.sourceList ≠ []

def Holds (library : MatcherLibrary) (rule : XrayRoutingRule) (connection : Connection) :
    Condition → Prop
  | .inboundTag => connection.inbound ∈ rule.inboundTag
  | .network => ∃ value ∈ rule.network, library.toLower value = connection.network
  | .protocol => connection.protocol ∈ rule.protocols
  | .user => ∃ value ∈ rule.user, UserMatches library value connection.user
  | .port => rule.port.Contains connection.destination.port
  | .sourcePort => rule.sourcePort.Contains connection.source.port
  | .domain => OnHost library connection fun host =>
      ∃ value ∈ rule.domainList, DomainMatches library value host
  | .ip => ∃ value ∈ rule.ip, ∃ address ∈ connection.destinationIPs, IPMatches library value address
  | .source => ∃ value ∈ rule.sourceList, IPMatches library value connection.source.addr

/-- Xray's meaning of a rule: every condition it has holds. -/
def Matches (library : MatcherLibrary) (rule : XrayRoutingRule) (connection : Connection) : Prop :=
  ∀ condition, rule.Present condition → rule.Holds library connection condition

def OthersHold (library : MatcherLibrary) (rule : XrayRoutingRule) (connection : Connection) : Prop :=
  ∀ condition, condition ≠ .domain → condition ≠ .ip →
    rule.Present condition → rule.Holds library connection condition

end XrayRoutingRule

variable {library : MatcherLibrary}

theorem translateIP_spec {value : String} {entries : List String}
    (translated : translateIP library value = .ok entries) (address : Addr) :
    entries ≠ [] ∧ ((∃ text ∈ entries, library.InRange text address) ↔ IPMatches library value address) := by
  unfold translateIP at translated
  rw [ite_throw_eq_ok_iff] at translated
  obtain ⟨-, translated⟩ := translated
  unfold IPMatches
  by_cases listed : library.toLower value = "geoip:private"
  · rw [if_pos listed] at translated ⊢
    rw [← pure_eq_ok_iff.1 translated]
    exact ⟨by decide, Iff.rfl⟩
  · rw [if_neg listed, ite_throw_eq_ok_iff] at translated
    rw [if_neg listed, ← pure_eq_ok_iff.1 translated.2]
    simp

theorem appendIPMatch_spec {values entries : List String}
    (translated : appendIPMatch library values = .ok entries) :
    (entries ≠ [] ↔ values ≠ []) ∧
      ∀ address, (∃ text ∈ entries, library.InRange text address) ↔
        ∃ value ∈ values, IPMatches library value address := by
  obtain ⟨lists, visited, translated⟩ := bind_eq_ok_iff.1 translated
  rw [← pure_eq_ok_iff.1 translated]
  constructor
  · constructor
    · rintro filled rfl
      rw [(eq_nil_iff_of_mapM_eq_ok visited).2 rfl] at filled
      exact filled rfl
    · intro filled
      obtain ⟨value, member⟩ := List.exists_mem_of_ne_nil values filled
      obtain ⟨list, read⟩ := exists_of_mapM_eq_ok visited member
      have listed := (mem_iff_of_mapM_eq_ok visited list).2 ⟨value, member, read⟩
      rw [ne_eq, List.flatten_eq_nil_iff]
      intro vacant
      exact (translateIP_spec read .invalid).1 (vacant list listed)
  · intro address
    rw [exists_mem_iff_of_mem_iff fun _ => List.mem_flatten]
    exact exists_mem_iff_of_mapM_eq_ok visited fun _ _ read => (translateIP_spec read address).2

theorem translateNetwork_spec {networks values : List String}
    (translated : values.mapM (translateNetwork library) = .ok networks) (network : String) :
    network ∈ networks ↔ ∃ value ∈ values, library.toLower value = network := by
  have found : (∃ result ∈ networks, result = network) ↔
      ∃ value ∈ values, library.toLower value = network := by
    refine exists_mem_iff_of_mapM_eq_ok translated fun value result read => ?_
    rw [translateNetwork, ite_throw_eq_ok_iff] at read
    rw [pure_eq_ok_iff.1 read.2]
  simpa using found

theorem translateUser_spec {value : String} {entry : Option String}
    (translated : translateUser library value = .ok entry) (user : String) :
    entry = some user ↔ UserMatches library value user := by
  unfold translateUser at translated
  by_cases vacant : value = ""
  · rw [if_pos vacant] at translated
    rw [← pure_eq_ok_iff.1 translated]
    simp [UserMatches, vacant]
  · rw [if_neg vacant] at translated
    unfold UserMatches
    simp only [← cutPrefix_eq_some_iff]
    cases cut : cutPrefix "regexp:" value with
    | none =>
        simp only [cut] at translated
        rw [← pure_eq_ok_iff.1 translated]
        simp [vacant, ← cutPrefix_eq_some_iff, cut]
    | some expression =>
        simp only [cut] at translated
        cases compiled : library.compile expression with
        | ok matcher =>
            simp only [compiled] at translated
            cases translated
        | error problem =>
            simp only [compiled] at translated
            rw [← pure_eq_ok_iff.1 translated]
            simp [← cutPrefix_eq_some_iff, cut, MatcherLibrary.Accepts, compiled]

theorem translateUsers_spec {values users : List String}
    (translated : translateUsers library values = .ok users) :
    (users ≠ [] ↔ values ≠ []) ∧
      ∀ user, user ∈ users ↔ ∃ value ∈ values, UserMatches library value user := by
  obtain ⟨entries, visited, translated⟩ := bind_eq_ok_iff.1 translated
  simp only [throw_bind] at translated
  rw [ite_throw_eq_ok_iff] at translated
  obtain ⟨named, translated⟩ := translated
  rw [← pure_eq_ok_iff.1 translated]
  constructor
  · constructor
    · rintro filled rfl
      rw [(eq_nil_iff_of_mapM_eq_ok visited).2 rfl] at filled
      exact filled rfl
    · intro filled vacant
      simp [vacant, filled] at named
  · intro user
    rw [List.reduceOption_mem_iff,
      ← exists_mem_iff_of_mapM_eq_ok visited fun _ _ read => translateUser_spec read user]
    simp

theorem DomainScheme.texts_apart {scheme other : DomainScheme}
    (starts : scheme.text.toList <+: other.text.toList) : scheme = other := by
  cases scheme <;> cases other <;> first | rfl | exact absurd starts (by decide)

theorem DomainScheme.text_append_inj {scheme other : DomainScheme} {rest tail : String}
    (same : scheme.text ++ rest = other.text ++ tail) : scheme = other ∧ rest = tail := by
  have lists : scheme.text.toList ++ rest.toList = other.text.toList ++ tail.toList := by
    rw [← String.toList_append, same, String.toList_append]
  obtain rfl : scheme = other := by
    rcases List.prefix_or_prefix_of_prefix (List.prefix_append _ _) ⟨_, lists.symm⟩ with ours | theirs
    · exact texts_apart ours
    · exact (texts_apart theirs).symm
  exact ⟨rfl, String.toList_injective (List.append_cancel_left lists)⟩

/-- A value has one scheme at most. -/
theorem domainMatches_of_cutPrefix (scheme : DomainScheme) {value rest : String}
    (cut : cutPrefix scheme.text value = some rest) (host : String) :
    DomainMatches library value host ↔ scheme.Accepts library rest host := by
  obtain rfl := cutPrefix_eq_some_iff.1 cut
  constructor
  · rintro (⟨other, tail, same, accepts⟩ | ⟨plain, -⟩)
    · obtain ⟨rfl, rfl⟩ := DomainScheme.text_append_inj same
      exact accepts
    · exact absurd rfl (plain scheme rest)
  · intro accepts
    exact .inl ⟨scheme, rest, rfl, accepts⟩

theorem domainMatches_of_plain {value : String}
    (plain : ∀ (scheme : DomainScheme) rest, value ≠ scheme.text ++ rest) (host : String) :
    DomainMatches library value host ↔ value.toList <:+: host.toList := by
  constructor
  · rintro (⟨scheme, rest, named, -⟩ | ⟨-, inside⟩)
    · exact absurd named (plain scheme rest)
    · exact inside
  · intro inside
    exact .inr ⟨plain, inside⟩

theorem dotless_spec {substring : String} {entry : DomainRule} (read : dotless substring = .ok entry)
    (host : String) : entry.Accepts library host ↔ DomainScheme.dotless.Accepts library substring host := by
  rw [dotless, ite_throw_eq_ok_iff] at read
  obtain ⟨-, read⟩ := read
  unfold DomainScheme.Accepts
  split at read
  · rw [← pure_eq_ok_iff.1 read, if_pos ‹_›]
    rfl
  · rw [← pure_eq_ok_iff.1 read, if_neg ‹_›]
    rfl

theorem parseDomain_spec {value : String} {entry : DomainRule} (read : parseDomain value = .ok entry)
    (host : String) : entry.Accepts library host ↔ DomainMatches library value host := by
  unfold parseDomain at read
  rw [ite_throw_eq_ok_iff] at read
  obtain ⟨-, read⟩ := read
  split at read
  · rw [← pure_eq_ok_iff.1 read, domainMatches_of_cutPrefix .full ‹_›]
    rfl
  split at read
  · rw [← pure_eq_ok_iff.1 read, domainMatches_of_cutPrefix .domain ‹_›]
    rfl
  split at read
  · rw [← pure_eq_ok_iff.1 read, domainMatches_of_cutPrefix .keyword ‹_›]
    rfl
  split at read
  · rw [← pure_eq_ok_iff.1 read, domainMatches_of_cutPrefix .regexp ‹_›]
    rfl
  split at read
  · rw [dotless_spec read, domainMatches_of_cutPrefix .dotless ‹_›]
  rename_i _ full _ domain _ keyword _ regexp _ dotless
  rw [ite_throw_eq_ok_iff] at read
  obtain ⟨geodata, read⟩ := read
  rw [← pure_eq_ok_iff.1 read, domainMatches_of_plain]
  · rfl
  · rintro scheme rest rfl
    cases scheme with
    | full => exact full rest (cutPrefix_append _ rest)
    | domain => exact domain rest (cutPrefix_append _ rest)
    | keyword => exact keyword rest (cutPrefix_append _ rest)
    | regexp => exact regexp rest (cutPrefix_append _ rest)
    | dotless => exact dotless rest (cutPrefix_append _ rest)
    | geosite | ext =>
        apply geodata
        simp only [hasPrefix, Bool.or_eq_true, toList_prefix_iff]
        first | exact .inl ⟨rest, rfl⟩ | exact .inr ⟨rest, rfl⟩

theorem DomainRule.accepts_iff (library : MatcherLibrary) (host : String) (entry : DomainRule) :
    entry.Accepts library host ↔
      (∃ name, entry.full? = some name ∧ library.matchDomain name host = true) ∨
        (∃ name, entry.suffix? = some name ∧ library.matchDomainSuffix name host = true) ∨
        (∃ text, entry.keyword? = some text ∧ text.toList <:+: host.toList) ∨
        ∃ expression, entry.regex? = some expression ∧ library.Accepts expression host := by
  cases entry <;> simp [Accepts, full?, suffix?, keyword?, regex?]

theorem exists_exists_comm_congr {entries values : List String} {addresses : List Addr}
    {inEntry inValue : String → Addr → Prop}
    (same : ∀ address, (∃ text ∈ entries, inEntry text address) ↔ ∃ value ∈ values, inValue value address) :
    (∃ text ∈ entries, ∃ address ∈ addresses, inEntry text address) ↔
      ∃ value ∈ values, ∃ address ∈ addresses, inValue value address := by
  constructor
  · rintro ⟨text, listed, address, member, inside⟩
    obtain ⟨value, valued, holds⟩ := (same address).1 ⟨text, listed, inside⟩
    exact ⟨value, valued, address, member, holds⟩
  · rintro ⟨value, valued, address, member, inside⟩
    obtain ⟨text, listed, holds⟩ := (same address).2 ⟨value, valued, inside⟩
    exact ⟨text, listed, address, member, holds⟩

theorem XrayRoutingRule.othersHold_iff (library : MatcherLibrary) (rule : XrayRoutingRule)
    (connection : Connection) :
    rule.OthersHold library connection ↔
      ∀ condition ∈ [Condition.inboundTag, .network, .protocol, .user, .port, .sourcePort, .source],
        rule.Present condition → rule.Holds library connection condition := by
  apply forall_congr'
  intro condition
  cases condition <;> simp

section Translated

variable {library : MatcherLibrary} {source : XrayRoutingRule} {options : DefaultRule}

section Domains

variable {entries : List DomainRule} (visited : source.domainList.mapM parseDomain = .ok entries)
  (full : options.domain = entries.filterMap full?)
  (suffix : options.domainSuffix = entries.filterMap suffix?)
  (keyword : options.domainKeyword = entries.filterMap keyword?)
  (regex : options.domainRegex = entries.filterMap regex?)

include visited full suffix keyword regex

theorem acceptsHost_iff (host : String) :
    options.AcceptsHost library host ↔ ∃ value ∈ source.domainList, DomainMatches library value host := by
  unfold DefaultRule.AcceptsHost
  rw [full, suffix, keyword, regex]
  simp only [exists_mem_filterMap_iff]
  rw [← exists_or, ← exists_or, ← exists_or]
  simp only [← and_or_left, ← accepts_iff]
  exact exists_mem_iff_of_mapM_eq_ok visited fun _ _ read => parseDomain_spec read host

theorem hasDomain_iff : options.HasDomain ↔ source.domainList ≠ [] := by
  rw [ne_eq, ← eq_nil_iff_of_mapM_eq_ok visited]
  unfold DefaultRule.HasDomain
  rw [full, suffix, keyword, regex]
  cases entries with
  | nil => simp
  | cons entry rest =>
      cases entry <;> simp [full?, suffix?, keyword?, regex?]

end Domains

/-- **What the translated object means**: domain and address have become one
disjunction. -/
theorem translated_matches_iff (translated : translateXrayRoutingRule library source = .ok options)
    (connection : Connection) :
    options.Matches library connection ↔
      source.OthersHold library connection ∧
        (source.Present .domain ∨ source.Present .ip →
          source.Holds library connection .domain ∨ source.Holds library connection .ip) := by
  simp only [translateXrayRoutingRule, throw_bind] at translated
  rw [ite_throw_eq_ok_iff, ite_throw_eq_ok_iff, ite_throw_eq_ok_iff] at translated
  obtain ⟨-, -, -, translated⟩ := translated
  simp only [bind_eq_ok_iff, ite_throw_eq_ok_iff] at translated
  obtain ⟨networks, networksMade, users, usersMade, port, portMade, sourcePort, sourcePortMade, domains,
    domainsMade, ip, ipMade, sourceIP, sourceIPMade, -, assembled⟩ := translated
  have result := pure_eq_ok_iff.1 assembled
  have hasDomain := @hasDomain_iff source options _ domainsMade (by rw [← result]) (by rw [← result])
    (by rw [← result]) (by rw [← result])
  have accepts := @acceptsHost_iff library source options _ domainsMade (by rw [← result])
    (by rw [← result]) (by rw [← result]) (by rw [← result])
  subst result
  have ports := appendPortMatch_spec (mapError_eq_ok_iff.1 portMade) connection.destination.port
  have sourcePorts := appendPortMatch_spec (mapError_eq_ok_iff.1 sourcePortMade) connection.source.port
  have ips := appendIPMatch_spec (mapError_eq_ok_iff.1 ipMade)
  have sourceIPs := appendIPMatch_spec (mapError_eq_ok_iff.1 sourceIPMade)
  have network := imp_congr (not_congr (eq_nil_iff_of_mapM_eq_ok networksMade))
    (translateNetwork_spec networksMade connection.network)
  have user := imp_congr (translateUsers_spec usersMade).1
    ((translateUsers_spec usersMade).2 connection.user)
  have toPort := imp_congr ports.1 ports.2
  have fromPort := imp_congr sourcePorts.1 sourcePorts.2
  have fromAddress := imp_congr sourceIPs.1 (sourceIPs.2 connection.source.addr)
  -- The domain lists and the addresses are one condition of the object.
  have onHost : OnHost library connection _ ↔ source.Holds library connection .domain :=
    and_congr_right fun _ => accepts _
  have toAddress : _ ↔ source.Holds library connection .ip := exists_exists_comm_congr ips.2
  have destination := imp_congr (or_congr hasDomain ips.1) (or_congr onHost toAddress)
  rw [DefaultRule.matches_iff, XrayRoutingRule.othersHold_iff]
  simp only [List.forall_mem_cons, List.not_mem_nil, false_implies, implies_true, and_true]
  constructor
  · rintro ⟨inbound, inNetwork, ofUser, protocol, atAddress, atPort, atDestination, atToPort⟩
    exact ⟨⟨inbound, network.1 inNetwork, protocol, user.1 ofUser, toPort.1 atToPort, fromPort.1 atPort,
      fromAddress.1 atAddress⟩, destination.1 atDestination⟩
  · rintro ⟨⟨inbound, inNetwork, protocol, ofUser, atToPort, atPort, atAddress⟩, atDestination⟩
    exact ⟨inbound, network.2 inNetwork, user.2 ofUser, protocol, fromAddress.2 atAddress,
      fromPort.2 atPort, destination.2 atDestination, toPort.2 atToPort⟩

end Translated

theorem XrayRoutingRule.matches_iff (library : MatcherLibrary) (rule : XrayRoutingRule)
    (connection : Connection) :
    rule.Matches library connection ↔
      rule.OthersHold library connection ∧
        (rule.Present .domain → rule.Holds library connection .domain) ∧
        (rule.Present .ip → rule.Holds library connection .ip) := by
  constructor
  · intro all
    exact ⟨fun condition _ _ => all condition, all .domain, all .ip⟩
  · rintro ⟨others, domain, ip⟩ condition
    by_cases onDomain : condition = .domain
    · rw [onDomain]
      exact domain
    · by_cases onIP : condition = .ip
      · rw [onIP]
        exact ip
      · exact others condition onDomain onIP

theorem XrayRoutingRule.not_holds_of_absent {library : MatcherLibrary} {rule : XrayRoutingRule}
    {connection : Connection} :
    (¬rule.Present .domain → ¬rule.Holds library connection .domain) ∧
      (¬rule.Present .ip → ¬rule.Holds library connection .ip) := by
  constructor
  · intro absent
    have vacant : rule.domainList = [] := not_not.1 absent
    simp [Holds, OnHost, vacant]
  · intro absent
    have vacant : rule.ip = [] := not_not.1 absent
    simp [Holds, vacant]

/-- **Where the translation keeps the meaning**: unless the rule has a domain and an
address condition, all its others hold, and exactly one of the two does. Then Xray needs
both and the built rule one. -/
theorem translated_rule_agrees_iff {library : MatcherLibrary} {source : XrayRoutingRule}
    {options : DefaultRule} {rule : AbstractDefaultRule}
    (translated : translateXrayRoutingRule library source = .ok options)
    (built : newDefaultRule library options = .ok rule) (connection : Connection) :
    (rule.isMatch connection.routed = true ↔ source.Matches library connection) ↔
      (source.Present .domain → source.Present .ip → source.OthersHold library connection →
        (source.Holds library connection .domain ↔ source.Holds library connection .ip)) := by
  obtain ⟨noDomain, noIP⟩ := @XrayRoutingRule.not_holds_of_absent library source connection
  rw [newDefaultRule_isMatch_iff built, translated_matches_iff translated, XrayRoutingRule.matches_iff]
  by_cases others : source.OthersHold library connection
  · by_cases domain : source.Present .domain <;> by_cases ip : source.Present .ip
    · simp only [others, domain, ip, true_and, or_self, true_implies]
      tauto
    · simp [others, domain, ip, noIP ip]
    · simp [others, domain, ip, noDomain domain]
    · simp [others, domain, ip]
  · simp [others]

/-! ### A rule with a domain and an address -/

def sampleLibrary : MatcherLibrary where
  toLower := String.toLower
  matchDomain name host := name == host
  matchDomainSuffix _ _ := false
  compile _ := .error "unsupported"
  parsePrefix _ := .error "no '/'"
  parseAddr text := if text = "10.0.0.1" then .ok (.v4 0x0A000001) else .error "unable to parse IP"

def sampleRule : XrayRoutingRule where
  type := "field"
  ruleTag := ""
  outboundTag := "proxy"
  balancerTag := ""
  domain := ["full:example.com"]
  domains := none
  ip := ["10.0.0.1"]
  port := .text "443,8000-8080"
  network := ["TCP"]
  sourceIP := none
  source := []
  sourcePort := .missing
  user := []
  hasVLESSRoute := false
  inboundTag := []
  protocols := []
  attributes := []
  localIP := []
  hasLocalPort := false
  process := []
  hasWebhook := false

def sampleConnection (address : Addr) : Connection :=
  { InboundContext.zero.toConnection with
    network := "tcp", domain := "example.com", destination := ⟨address, 443, ""⟩ }

theorem sampleRule_built :
    ∃ options rule, translateXrayRoutingRule sampleLibrary sampleRule = .ok options ∧
      newDefaultRule sampleLibrary options = .ok rule ∧
        rule.isMatch (sampleConnection (.v4 0x08080808)).routed = true := by
  have taken : ((translateXrayRoutingRule sampleLibrary sampleRule).bind
      (newDefaultRule sampleLibrary ·)).toOption.map
        (fun rule => rule.isMatch (sampleConnection (.v4 0x08080808)).routed) = some true := by
    decide +kernel
  cases translated : translateXrayRoutingRule sampleLibrary sampleRule with
  | error problem =>
      rw [translated] at taken
      cases taken
  | ok options =>
      rw [translated] at taken
      cases built : newDefaultRule sampleLibrary options with
      | error problem =>
          simp only [Except.bind, built] at taken
          cases taken
      | ok rule =>
          simp only [Except.bind, built] at taken
          exact ⟨options, rule, rfl, built, Option.some.inj taken⟩

theorem sampleRule_agrees_iff :
    ∃ options rule, translateXrayRoutingRule sampleLibrary sampleRule = .ok options ∧
      newDefaultRule sampleLibrary options = .ok rule ∧
      ((rule.isMatch (sampleConnection (.v4 0x0A000001)).routed = true ↔
          sampleRule.Matches sampleLibrary (sampleConnection (.v4 0x0A000001))) ↔
        (sampleRule.Present .domain → sampleRule.Present .ip →
          sampleRule.OthersHold sampleLibrary (sampleConnection (.v4 0x0A000001)) →
          (sampleRule.Holds sampleLibrary (sampleConnection (.v4 0x0A000001)) .domain ↔
            sampleRule.Holds sampleLibrary (sampleConnection (.v4 0x0A000001)) .ip))) := by
  obtain ⟨options, rule, translated, built, -⟩ := sampleRule_built
  exact ⟨options, rule, translated, built, translated_rule_agrees_iff translated built _⟩

/-- The connection goes to the domain at another address: Xray's rule does not
take it, the built rule does. -/
theorem domain_matches_without_address :
    ∃ options rule, translateXrayRoutingRule sampleLibrary sampleRule = .ok options ∧
      newDefaultRule sampleLibrary options = .ok rule ∧
      rule.isMatch (sampleConnection (.v4 0x08080808)).routed = true ∧
      ¬sampleRule.Matches sampleLibrary (sampleConnection (.v4 0x08080808)) := by
  obtain ⟨options, rule, translated, built, taken⟩ := sampleRule_built
  refine ⟨options, rule, translated, built, taken, ?_⟩
  intro all
  obtain ⟨value, listed, address, destined, inside⟩ := all .ip (List.cons_ne_nil _ _)
  obtain rfl : value = "10.0.0.1" := List.mem_singleton.1 listed
  obtain rfl : address = .v4 0x08080808 := List.mem_singleton.1 destined
  rw [IPMatches, if_neg (by decide +kernel)] at inside
  obtain ⟨range, read, within⟩ := inside
  have elsewhere : (sampleLibrary.parseIPCIDR "10.0.0.1").toOption.map
      (fun range => range (.v4 0x08080808)) = some false := by
    decide +kernel
  rw [read] at elsewhere
  exact absurd (within.symm.trans (Option.some.inj elsewhere)) (by decide)

end SideraCore.Config
