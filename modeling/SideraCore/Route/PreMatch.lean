import SideraCore.Route.Packets

/-!
Owns the pre-matching of a flow (`PreMatch`), which walks the rules on its own
for the first packet of a flow, and its agreement with the walk that routes the
same packet (`matchRule`).
-/

namespace SideraCore.Route

open Dns Rule Concurrency Router Walk

/-! ### The verdict on a flow -/

/-- `PreMatchResult`. A flow without a destination keeps that of the packet. -/
inductive PreMatchResult where
  | «continue»
  | flow (outbound : Outbound) (destination : Option (Addr × UInt16)) (udpTimeout : Nat)
  | reject
  | drop
  | bypass
  | hijackDNS

def portProtocol (port : UInt16) : String :=
  if port = 53 then "dns" else if port = 123 then "ntp" else if port = 3478 then "stun"
  else if port = 443 then "quic" else ""

def protocolTimeout (protocol : String) : Nat :=
  if protocol = "dns" ∨ protocol = "ntp" ∨ protocol = "stun" then 10
  else if protocol = "quic" ∨ protocol = "dtls" then 30
  else 0

def flowTimeout (metadata : RouteContext) : Nat :=
  if metadata.network = "udp" then
    if metadata.udpTimeout > 0 then metadata.udpTimeout
    else protocolTimeout (if metadata.protocol = "" then portProtocol metadata.destination.port
      else metadata.protocol)
  else 0

/-- The loop over the selections of nested groups, which gives up after eight. -/
def Router.followGroups (router : Router) : Nat → Outbound → Option Outbound
  | 0, outbound => some outbound
  | turns + 1, outbound =>
      match outbound.now with
      | none => some outbound
      | some tag =>
          match router.outbound tag with
          | none => none
          | some selected => router.followGroups turns selected

def is4 : Addr → Bool
  | .v4 _ => true
  | _ => false

/-- A fake destination is replaced by the first resolved address of the packet's family. -/
def familyAddress (packetDestination : Socksaddr) (addresses : List Addr) : Option Addr :=
  (addresses.find? fun address => is4 address = is4 packetDestination.addr).filter Addr.isValid

def Router.flowTo (router : Router) (metadata : RouteContext) (packetDestination : Socksaddr)
    (outbound : Outbound) (verdict : String → Addr → FlowVerdict) : PreMatchResult :=
  match verdict metadata.network metadata.destination.addr with
  | .continue => .continue
  | .reject => .reject
  | .flow =>
      if router.isDomain metadata.destination then
        if !metadata.fakeIP then .continue
        else
          match familyAddress packetDestination metadata.destinationAddresses with
          | none => .reject
          | some address =>
              match verdict metadata.network address with
              | .continue => .continue
              | .reject => .reject
              | .flow =>
                  .flow outbound (some (address, metadata.destination.port)) (flowTimeout metadata)
      else if metadata.destination ≠ packetDestination then
        .flow outbound (some (metadata.destination.addr, metadata.destination.port)) (flowTimeout metadata)
      else .flow outbound none (flowTimeout metadata)

/-- `preMatchFlow`, given the outbound of the rule or the default one. -/
def Router.preMatchFlow (router : Router) (metadata : RouteContext) (packetDestination : Socksaddr)
    (start : Option Outbound) : PreMatchResult :=
  match start.bind (router.followGroups 8) with
  | none => .continue
  | some outbound =>
      if !outbound.networks.contains metadata.network then .continue
      else
        match outbound.preMatchFlow with
        | none => .continue
        | some verdict => router.flowTo metadata packetDestination outbound verdict

/-- A reject action in pre-matching; flooding turns the default method into a drop. -/
def rejectResult (flooding : Bool) (action : RuleActionReject) : PreMatchResult :=
  match action.method with
  | .drop => .drop
  | .reply => .reject
  | .default => if !action.noDrop && flooding then .drop else .reject

/-! ### The walk of pre-matching -/

section

variable (router : Router) (flooding : Bool) (firstPacket : List UInt8) (packetDestination : Socksaddr)

def Router.preMatchWalk : List RouteRule → RouteContext → PreMatchResult
  | [], metadata => router.preMatchFlow metadata packetDestination (some router.defaultOutbound)
  | rule :: rest, before =>
      let metadata := before.resetRuleCache
      if !rule.isMatch true metadata then preMatchWalk rest metadata
      else
        match rule.action with
        | .sniff action =>
            if metadata.network = "icmp" then preMatchWalk rest metadata
            else if metadata.network ≠ "udp" ∨ firstPacket = [] then .continue
            else if sniffSkip metadata || metadata.protocol ≠ "" then preMatchWalk rest metadata
            else if action.packetSniffers.isEmpty && !action.streamSniffers.isEmpty then
              preMatchWalk rest metadata
            else if metadata.snifferNames = action.snifferNames && metadata.sniffError.isSome then
              preMatchWalk rest metadata
            else
              let peeked := peek (router.packetSniffers action) metadata firstPacket
              if peeked.2 = some .needMoreData then .continue
              else
                preMatchWalk rest
                  (router.settleSniff action (peeked.1.sniffed action.snifferNames peeked.2) peeked.2)
        | .routeOptions options =>
            preMatchWalk rest (applyRouteOptionsOverride metadata options)
        | .route tag options =>
            router.preMatchFlow (applyRouteOptionsOverride metadata options) packetDestination
              (router.outbound tag)
        | .bypass tag options =>
            let overridden := applyRouteOptionsOverride metadata options
            if tag = "" then
              if router.isDomain overridden.destination || overridden.destination ≠ packetDestination then
                .continue
              else .bypass
            else router.preMatchFlow overridden packetDestination (router.outbound tag)
        | .reject action => rejectResult flooding action
        | .hijackDNS => if metadata.network ≠ "udp" then .continue else .hijackDNS
        | .resolve action =>
            match router.actionResolve metadata action with
            | .error _ => .reject
            | .ok resolved => preMatchWalk rest resolved
        | .direct => .continue

def Router.preMatch (metadata : RouteContext) : PreMatchResult :=
  match router.prepareMatchMetadata metadata with
  | .error _ => .continue
  | .ok prepared => router.preMatchWalk flooding firstPacket metadata.destination router.rules prepared

end

/-- The walk has selected a rule, or none, whose outbound comes to the given one through
its groups. -/
def Targets (router : Router) (walk : Walk PacketState) (outbound : Outbound) : Prop :=
  (walk.status = .walking ∧ router.followGroups 8 router.defaultOutbound = some outbound) ∨
    ∃ tag start, walk.status = .selected (.route tag) ∧ router.outbound tag = some start ∧
      router.followGroups 8 start = some outbound

/-- The destination of the walk is the address, or a domain resolved to it. -/
def Reaches (router : Router) (metadata : RouteContext) (destination : Addr × UInt16) : Prop :=
  metadata.destination.port = destination.2 ∧
    if router.isDomain metadata.destination then destination.1 ∈ metadata.destinationAddresses
    else metadata.destination.addr = destination.1

/-- A flow outbound refuses the address, or the fake destination has no resolved address
of the family. -/
def Refuses (router : Router) (packetDestination : Socksaddr) (metadata : RouteContext)
    (outbound : Outbound) : Prop :=
  ∃ verdict, outbound.preMatchFlow = some verdict ∧
    (verdict metadata.network metadata.destination.addr = .reject ∨
      (router.isDomain metadata.destination = true ∧ metadata.fakeIP = true ∧
        ∀ address, familyAddress packetDestination metadata.destinationAddresses = some address →
          verdict metadata.network address = .reject))

/-- What the result of pre-matching says about the walk of routing. -/
def Agrees (router : Router) (packetDestination : Socksaddr) (walk : Walk PacketState) :
    PreMatchResult → Prop
  | .continue => True
  | .flow outbound destination _ =>
      Targets router walk outbound ∧
        Reaches router walk.metadata (destination.getD (packetDestination.addr, packetDestination.port))
  | .reject =>
      (∃ error, walk.status = .failed error) ∨ (∃ action, walk.status = .selected (.reject action)) ∨
        ∃ outbound, Targets router walk outbound ∧ Refuses router packetDestination walk.metadata outbound
  | .drop => ∃ action, walk.status = .selected (.reject action)
  | .bypass => False
  | .hijackDNS => walk.status = .selected .hijackDNS

section

variable {router : Router} {packetDestination : Socksaddr} {walk : Walk PacketState}

theorem flowTo_agrees {outbound : Outbound} {verdict : String → Addr → FlowVerdict}
    (targets : Targets router walk outbound) (flows : outbound.preMatchFlow = some verdict) :
    Agrees router packetDestination walk
      (router.flowTo walk.metadata packetDestination outbound verdict) := by
  unfold flowTo
  cases first : verdict walk.metadata.network walk.metadata.destination.addr with
  | «continue» => trivial
  | reject => exact .inr (.inr ⟨outbound, targets, verdict, flows, .inl first⟩)
  | flow =>
      by_cases domain : router.isDomain walk.metadata.destination = true
      · cases fake : walk.metadata.fakeIP with
        | false => simp [domain, Agrees]
        | true =>
            cases found : familyAddress packetDestination walk.metadata.destinationAddresses with
            | none =>
                simp only [domain, ↓reduceIte, Bool.not_true, Bool.false_eq_true]
                refine .inr (.inr ⟨outbound, targets, verdict, flows, .inr ⟨domain, fake, ?_⟩⟩)
                intro address picked
                rw [found] at picked
                cases picked
            | some address =>
                simp only [domain, ↓reduceIte, Bool.not_true, Bool.false_eq_true]
                cases second : verdict walk.metadata.network address with
                | «continue» => trivial
                | reject =>
                    refine .inr (.inr ⟨outbound, targets, verdict, flows, .inr ⟨domain, fake, ?_⟩⟩)
                    intro other picked
                    rw [found] at picked
                    rw [← Option.some.inj picked]
                    exact second
                | flow =>
                    refine ⟨targets, rfl, ?_⟩
                    rw [if_pos domain]
                    obtain ⟨picked, -⟩ := Option.filter_eq_some_iff.1 found
                    exact List.mem_of_find?_eq_some picked
      · simp only [domain, Bool.false_eq_true, ↓reduceIte]
        by_cases moved : walk.metadata.destination = packetDestination
        · rw [if_neg (not_not.2 moved)]
          refine ⟨targets, ?_, ?_⟩
          · rw [moved]
            rfl
          · rw [if_neg domain, moved]
            rfl
        · rw [if_pos moved]
          refine ⟨targets, rfl, ?_⟩
          rw [if_neg domain]
          rfl

theorem preMatchFlow_agrees {start : Option Outbound}
    (selected : ∀ outbound, start.bind (router.followGroups 8) = some outbound →
      Targets router walk outbound) :
    Agrees router packetDestination walk (router.preMatchFlow walk.metadata packetDestination start) := by
  unfold preMatchFlow
  cases followed : start.bind (router.followGroups 8) with
  | none => trivial
  | some outbound =>
      dsimp only
      split
      · trivial
      · cases flows : outbound.preMatchFlow with
        | none => trivial
        | some verdict => exact flowTo_agrees (selected outbound followed) flows

theorem rejectResult_agrees {flooding : Bool} {action : RuleActionReject}
    (selected : walk.status = .selected (.reject action)) :
    Agrees router packetDestination walk (rejectResult flooding action) := by
  unfold rejectResult
  cases action.method with
  | drop => exact ⟨action, selected⟩
  | reply => exact .inr (.inl ⟨action, selected⟩)
  | default =>
      dsimp only
      split
      · exact ⟨action, selected⟩
      · exact .inr (.inl ⟨action, selected⟩)

end

/-! ### The two walks in step -/

/-- An address override meets no resolved addresses: routing drops them and pre-matching
keeps them. -/
def OverrideCondition (walk : Walk PacketState) : RouteAction → Prop
  | .route _ options => options.overrideAddress.isValid = true → walk.metadata.destinationAddresses = []
  | .routeOptions options =>
      options.overrideAddress.isValid = true → walk.metadata.destinationAddresses = []
  | .bypass _ options => options.overrideAddress.isValid = true → walk.metadata.destinationAddresses = []
  | _ => True

variable {metadata : RouteContext}

theorem applyRouteOptions_eq {options : RuleActionRouteOptions}
    (fresh : options.overrideAddress.isValid = true → metadata.destinationAddresses = []) :
    applyRouteOptions metadata options = applyRouteOptionsOverride metadata options := by
  unfold applyRouteOptions
  by_cases overrides : options.overrideAddress.isValid = true
  · rw [if_pos overrides, ← fresh overrides]
  · rw [if_neg overrides]

/-- Pre-matching has this metadata while routing is at this walk, which has read no
packet or holds the first. -/
structure InStep (packet : Packet) (metadata : RouteContext) (walk : Walk PacketState) : Prop where
  same : walk.metadata = metadata
  walking : walk.status = .walking
  network : metadata.network = "udp"
  finished : metadata.sniffError ≠ some .needMoreData
  packet : (walk.io.arrived = [] ∧ walk.io.buffers = [] ∧ ∃ rest, walk.io.conn = .packet packet :: rest) ∨
    ∃ index, walk.io.buffers = [⟨index, packet⟩]

theorem packetSniffSkipped_eq {action : RuleActionSniff} {metadata : RouteContext}
    (finished : metadata.sniffError ≠ some .needMoreData) :
    packetSniffSkipped action metadata =
      (sniffSkip metadata || metadata.protocol ≠ "" ||
        (action.packetSniffers.isEmpty && !action.streamSniffers.isEmpty) ||
        (metadata.snifferNames = action.snifferNames && metadata.sniffError.isSome)) := by
  unfold packetSniffSkipped sniffSettled
  cases known : metadata.sniffError with
  | none => simp
  | some error =>
      cases error with
      | needMoreData => exact absurd known finished
      | other => simp

theorem peekLoop_network (errors : List SniffError) (sniffers : List Sniffer) (metadata : RouteContext)
    (bytes : List UInt8) : (peekLoop errors sniffers metadata bytes).1.network = metadata.network := by
  induction sniffers generalizing errors metadata with
  | nil => rfl
  | cons sniffer rest ih =>
      unfold peekLoop
      split
      · rfl
      · exact ih _ _

theorem examine_eq {router : Router} {action : RuleActionSniff} {metadata : RouteContext}
    (finished : metadata.sniffError ≠ some .needMoreData) (bytes : List UInt8) :
    router.examine action metadata bytes =
      let peeked := peek (router.packetSniffers action) metadata bytes
      (peeked.1.sniffed action.snifferNames peeked.2, peeked.2) := by
  have fresh : quicMoreData action metadata = false := by
    simp [quicMoreData, finished]
  simp only [examine, fresh]
  rfl

theorem settleSniff_fields (router : Router) (action : RuleActionSniff) (metadata : RouteContext)
    (error : Option SniffError) :
    (router.settleSniff action metadata error).network = metadata.network ∧
      (router.settleSniff action metadata error).sniffError = metadata.sniffError := by
  unfold settleSniff overrideDestination
  cases error with
  | none =>
      dsimp only
      split <;> exact ⟨rfl, rfl⟩
  | some problem => exact ⟨rfl, rfl⟩

variable {router : Router}

/-- A sniff action whose packet does not need more data keeps the walks in step. -/
theorem sniff_inStep {packet : Packet} {walk : Walk PacketState} {action : RuleActionSniff}
    (inStep : InStep packet metadata walk) (unskipped : packetSniffSkipped action metadata = false)
    {sniffed : RouteContext} {error : Option SniffError}
    (peeked : peek (router.packetSniffers action) metadata packet.data = (sniffed, error))
    (settled : error ≠ some .needMoreData) :
    InStep packet (router.settleSniff action (sniffed.sniffed action.snifferNames error) error)
      (walk.perform router router.actionSniffPacket (.sniff action)) := by
  have verdict := @examine_eq router action metadata inStep.finished packet.data
  have network := peekLoop_network [] (router.packetSniffers action) metadata packet.data
  have fields := settleSniff_fields router action (sniffed.sniffed action.snifferNames error) error
  rw [show peekLoop [] _ metadata packet.data = (sniffed, error) from peeked] at network
  rw [peeked] at verdict
  have udp := fields.1.trans (network.trans inStep.network)
  have finished : (router.settleSniff action (sniffed.sniffed action.snifferNames error) error).sniffError ≠
      some .needMoreData := by
    rw [fields.2]
    exact settled
  have answered (index : Nat) : router.reexamine action metadata [⟨index, packet⟩] =
      (sniffed.sniffed action.snifferNames error, some error) := by
    unfold reexamine
    rw [verdict]
    cases error with
    | none => rfl
    | some problem =>
        cases problem with
        | needMoreData => exact absurd rfl settled
        | other => rfl
  have read (rest : List PacketEvent) :
      router.readPackets action metadata [] [] (.packet packet :: rest) =
        ⟨none, sniffed.sniffed action.snifferNames error, error, rest, [packet], [⟨0, packet⟩]⟩ := by
    unfold readPackets
    rw [verdict]
    cases error with
    | none => rfl
    | some problem =>
        cases problem with
        | needMoreData => exact absurd rfl settled
        | other => rfl
  obtain ⟨arrived, buffers, rest, conn⟩ | ⟨index, held⟩ := inStep.packet
  · simp only [perform, actionSniffPacket, inStep.same, unskipped, arrived, buffers, conn,
      reexamine, read, Bool.false_eq_true, ↓reduceIte]
    exact ⟨rfl, rfl, udp, finished, .inr ⟨0, rfl⟩⟩
  · simp only [perform, actionSniffPacket, inStep.same, unskipped, held, answered,
      Bool.false_eq_true, ↓reduceIte]
    exact ⟨rfl, rfl, udp, finished, .inr ⟨index, held⟩⟩

theorem foldl_step_done {ι : Type} {sniff : SniffOn ι} {walk : Walk ι} (done : walk.status ≠ .walking)
    (rules : List RouteRule) :
    rules.foldl (step router sniff) walk = walk := by
  induction rules with
  | nil => rfl
  | cons rule rest ih =>
      have stays : walk.step router sniff rule = walk := by
        unfold step
        cases status : walk.status with
        | walking => exact absurd status done
        | selected action | failed error => rfl
      rw [List.foldl_cons, stays, ih]

section

variable {router : Router} {flooding : Bool} {packet : Packet} {packetDestination : Socksaddr}

def OverridesMeet (router : Router) (walk : Walk PacketState) (rules : List RouteRule) : Prop :=
  (machine router router.actionSniffPacket).Meets
    (fun before rule => before.status = .walking →
      rule.isMatch false before.metadata.resetRuleCache = true →
        OverrideCondition { before with metadata := before.metadata.resetRuleCache } rule.action)
    walk rules

variable {metadata : RouteContext} {walk : Walk PacketState}

theorem select_agrees {tag : String} {options : RuleActionRouteOptions} (same : walk.metadata = metadata)
    (fresh : options.overrideAddress.isValid = true → walk.metadata.destinationAddresses = []) :
    Agrees router packetDestination
      { walk with
        metadata := applyRouteOptions walk.metadata options
        status := .selected (.route tag) }
      (router.preMatchFlow (applyRouteOptionsOverride metadata options) packetDestination
        (router.outbound tag)) := by
  rw [applyRouteOptions_eq fresh, same]
  apply preMatchFlow_agrees
  intro outbound followed
  obtain ⟨start, known, resolved⟩ := Option.bind_eq_some_iff.1 followed
  exact .inr ⟨tag, start, rfl, known, resolved⟩

theorem actionResolve_fields {next : RouteContext} {action : RuleActionResolve}
    (resolved : router.actionResolve metadata action = .ok next) :
    next.network = metadata.network ∧ next.sniffError = metadata.sniffError := by
  unfold actionResolve at resolved
  split at resolved
  · split at resolved
    · cases resolved
    · split at resolved
      · cases resolved
      · obtain rfl := Except.ok.inj resolved
        exact ⟨rfl, rfl⟩
  · obtain rfl := Except.ok.inj resolved
    exact ⟨rfl, rfl⟩

theorem sniff_agrees {rule : RouteRule} {rest : List RouteRule} {action : RuleActionSniff}
    (later : ∀ {nextMetadata : RouteContext} {next : Walk PacketState}, InStep packet nextMetadata next →
      OverridesMeet router next rest →
        Agrees router packetDestination (rest.foldl (step router router.actionSniffPacket) next)
          (router.preMatchWalk flooding packet.data packetDestination rest nextMetadata))
    (matched : rule.isMatch true metadata.resetRuleCache = true) (listed : rule.action = .sniff action)
    (inStep : InStep packet metadata.resetRuleCache walk)
    (remaining : OverridesMeet router (walk.perform router router.actionSniffPacket (.sniff action)) rest) :
    Agrees router packetDestination
      (rest.foldl (step router router.actionSniffPacket)
        (walk.perform router router.actionSniffPacket (.sniff action)))
      (router.preMatchWalk flooding packet.data packetDestination (rule :: rest) metadata) := by
  unfold preMatchWalk
  simp only [matched, listed, Bool.not_true, Bool.false_eq_true, ↓reduceIte]
  generalize metadata.resetRuleCache = metadata at inStep ⊢
  have skips := @packetSniffSkipped_eq action metadata inStep.finished
  have onSkip (skipped : packetSniffSkipped action metadata = true) :
      Agrees router packetDestination
        (rest.foldl (step router router.actionSniffPacket)
          (walk.perform router router.actionSniffPacket (.sniff action)))
        (router.preMatchWalk flooding packet.data packetDestination rest metadata) := by
    have unchanged : walk.perform router router.actionSniffPacket (.sniff action) = walk := by
      obtain ⟨routed, io, status⟩ := walk
      obtain rfl : routed = metadata := inStep.same
      obtain rfl : status = .walking := inStep.walking
      simp only [perform, actionSniffPacket, skipped, ↓reduceIte]
    rw [unchanged] at remaining ⊢
    exact later inStep remaining
  rw [if_neg (by simp [inStep.network])]
  split
  · trivial
  · split
    · rename_i early
      exact onSkip (by rw [skips, early]; simp)
    · split
      · rename_i streamOnly
        exact onSkip (by rw [skips, streamOnly]; simp)
      · split
        · rename_i repeated
          exact onSkip (by rw [skips, repeated]; simp)
        · split
          · trivial
          · rename_i settled
            apply later _ remaining
            exact sniff_inStep inStep (by rw [skips]; simp_all) rfl settled

/-- **The simulation.** While the walks are in step, the answer of pre-matching agrees
with the rest of the walk. -/
theorem preMatchWalk_agrees {rules : List RouteRule}
    (blind : ∀ rule ∈ rules, ∀ metadata, rule.isMatch true metadata = rule.isMatch false metadata)
    (named : ∀ rule ∈ rules, ∀ options, rule.action ≠ .bypass "" options)
    (inStep : InStep packet metadata walk) (meets : OverridesMeet router walk rules) :
    Agrees router packetDestination (rules.foldl (step router router.actionSniffPacket) walk)
      (router.preMatchWalk flooding packet.data packetDestination rules metadata) := by
  induction rules generalizing metadata walk with
  | nil =>
      have agrees : Agrees router packetDestination walk
          (router.preMatchFlow walk.metadata packetDestination (some router.defaultOutbound)) := by
        apply preMatchFlow_agrees
        intro outbound followed
        exact .inl ⟨inStep.walking, followed⟩
      rw [inStep.same] at agrees
      exact agrees
  | cons rule rest ih =>
      have later {nextMetadata : RouteContext} {next : Walk PacketState} :=
        @ih nextMetadata next (fun other member => blind other (List.mem_cons_of_mem _ member))
          fun other member => named other (List.mem_cons_of_mem _ member)
      obtain ⟨routed, io, status⟩ := walk
      obtain rfl : routed = metadata := inStep.same
      obtain rfl : status = .walking := inStep.walking
      have reset : InStep packet routed.resetRuleCache ⟨routed.resetRuleCache, io, .walking⟩ :=
        ⟨rfl, rfl, inStep.network, inStep.finished, inStep.packet⟩
      have condition := meets.1 rfl
      have remaining : OverridesMeet router
          (step router router.actionSniffPacket ⟨routed, io, .walking⟩ rule) rest := meets.2
      have sameVerdict := blind rule List.mem_cons_self routed.resetRuleCache
      rw [List.foldl_cons]
      by_cases matched : rule.isMatch false routed.resetRuleCache = true
      · have stepped : step router router.actionSniffPacket ⟨routed, io, .walking⟩ rule =
            perform router router.actionSniffPacket ⟨routed.resetRuleCache, io, .walking⟩
              rule.action :=
          if_pos matched
        rw [stepped] at remaining ⊢
        have condition := condition matched
        cases listed : rule.action
        case sniff action =>
            rw [listed] at remaining
            exact sniff_agrees later (sameVerdict.trans matched) listed reset remaining
        all_goals
          unfold preMatchWalk
          simp only [sameVerdict, matched, listed, Bool.not_true, Bool.false_eq_true, ↓reduceIte]
        case route tag options =>
            rw [listed] at condition
            rw [foldl_step_done (by simp [perform])]
            exact select_agrees rfl condition
        case bypass tag options =>
            have tagged : tag ≠ "" := by
              rintro rfl
              exact named rule List.mem_cons_self options listed
            rw [listed] at condition
            simp only [perform, if_neg tagged]
            rw [foldl_step_done (by simp)]
            exact select_agrees rfl condition
        case reject action =>
            rw [foldl_step_done (by simp [perform])]
            exact rejectResult_agrees rfl
        case hijackDNS =>
            rw [foldl_step_done (by simp [perform]), if_neg (not_not.2 reset.network)]
            rfl
        case direct => trivial
        case routeOptions options =>
            rw [listed] at condition remaining
            have same := applyRouteOptions_eq condition
            apply later _ remaining
            exact ⟨same, rfl, reset.network, reset.finished, reset.packet⟩
        case resolve action =>
            rw [listed] at remaining
            cases resolved : router.actionResolve routed.resetRuleCache action with
            | error problem =>
                simp only [perform, resolved]
                rw [foldl_step_done (by simp)]
                exact .inl ⟨problem, rfl⟩
            | ok next =>
                simp only [perform, resolved] at remaining ⊢
                obtain ⟨network, sniffError⟩ := actionResolve_fields resolved
                apply later _ remaining
                exact ⟨rfl, rfl, network.trans reset.network, sniffError ▸ reset.finished, reset.packet⟩
      · have stepped : step router router.actionSniffPacket ⟨routed, io, .walking⟩ rule =
            ⟨routed.resetRuleCache, io, .walking⟩ :=
          if_neg matched
        rw [stepped] at remaining ⊢
        have unmatched : rule.isMatch false routed.resetRuleCache = false := by simpa using matched
        unfold preMatchWalk
        simp only [sameVerdict, unmatched, Bool.not_false, ↓reduceIte]
        exact later reset remaining

end

theorem mapDestination_fields {mapped : RouteContext}
    (succeeded : router.mapDestination metadata = .ok mapped) :
    mapped.network = metadata.network ∧ mapped.sniffError = metadata.sniffError := by
  unfold mapDestination at succeeded
  split at succeeded
  · split at succeeded
    · cases succeeded
    · split at succeeded <;> obtain rfl := Except.ok.inj succeeded <;> exact ⟨rfl, rfl⟩
  · split at succeeded <;> obtain rfl := Except.ok.inj succeeded <;> exact ⟨rfl, rfl⟩

theorem prepareMatchMetadata_fields {prepared : RouteContext}
    (succeeded : router.prepareMatchMetadata metadata = .ok prepared) :
    prepared.network = metadata.network ∧ prepared.sniffError = metadata.sniffError := by
  unfold prepareMatchMetadata at succeeded
  cases mapped : router.mapDestination metadata with
  | error problem =>
      rw [mapped] at succeeded
      cases succeeded
  | ok next =>
      rw [mapped] at succeeded
      obtain rfl := Except.ok.inj succeeded
      have kept := mapDestination_fields mapped
      unfold RouteContext.setIPVersion
      split <;> exact kept

def flowOutbound : Outbound := ⟨"flow", ["udp"], none, some fun _ _ => .flow⟩

def fakeAddress : Addr := .v4 0xC6120001

def fakeRouter (rules : List RouteRule) : Router :=
  { plainRouter rules with
    fakeIPContains := fun address => address == fakeAddress
    fakeIPLookup := fun _ => some "example.com"
    defaultOutbound := flowOutbound }

def flowTo (address : Addr) : RouteContext :=
  { RouteContext.zero with network := "udp", destination := ⟨address, 443, ""⟩ }

namespace PreMatchResult

def isReject : PreMatchResult → Bool
  | .reject => true
  | .«continue» | .flow .. | .drop | .bypass | .hijackDNS => false

def flowTag : PreMatchResult → Option String
  | .flow outbound _ _ => some outbound.tag
  | .«continue» | .reject | .drop | .bypass | .hijackDNS => none

end PreMatchResult

end SideraCore.Route
