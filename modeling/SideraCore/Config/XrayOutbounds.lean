import SideraCore.Adapter.OutboundManager

/-!
Owns the translation of the outbounds of an Xray document and which of them an
instance built from it uses by default.

It does not own the settings of the protocols: their translation is a parameter,
and no result here depends on it. The other sections of a document set neither
outbounds nor endpoints nor the final outbound.
-/

namespace SideraCore.Config

open Control Rule Adapter

variable {σ δ : Type}

/-- `xrayOutbound`. `mux` tells whether the section enables it. -/
structure XrayOutbound (σ : Type) where
  protocol : String
  tag : String
  sendThrough : String
  hasProxySettings : Bool
  mux : Option Bool
  targetStrategy : String
  streamSettings : Option σ
  settings : σ

structure SettingsTranslation (σ δ : Type) where
  vless : σ → Option σ → Except String δ
  freedom : σ → Except String Unit
  blackhole : σ → Except String Unit
  wireGuard : σ → Except String δ

def unsupportedXrayField (field : String) : String :=
  "Xray field is not supported: " ++ field

def XrayOutbound.isWireGuard (source : XrayOutbound σ) : Bool :=
  source.protocol.toLower = "wireguard"

def translateXrayOutbound (translation : SettingsTranslation σ δ) (source : XrayOutbound σ) :
    Except String (Outbound δ) := do
  let protocol := source.protocol.toLower
  if protocol = "" then throw "missing protocol"
  if source.sendThrough ≠ "" then throw (unsupportedXrayField "sendThrough")
  if source.hasProxySettings then throw (unsupportedXrayField "proxySettings")
  if source.mux = some true then throw "Xray Mux.Cool cannot be translated to sing-mux"
  if source.targetStrategy.toLower ≠ "" ∧ source.targetStrategy.toLower ≠ "asis" then
    throw (unsupportedXrayField ("targetStrategy=" ++ source.targetStrategy))
  if protocol = "vless" then
    let converted ← translation.vless source.settings source.streamSettings
    return ⟨"vless", source.tag, some converted⟩
  else if protocol = "freedom" ∨ protocol = "direct" then
    if source.streamSettings.isSome then
      throw (unsupportedXrayField "streamSettings for direct outbound")
    translation.freedom source.settings
    return ⟨"direct", source.tag, none⟩
  else if protocol = "blackhole" ∨ protocol = "block" then
    if source.streamSettings.isSome then
      throw (unsupportedXrayField "streamSettings for block outbound")
    translation.blackhole source.settings
    return ⟨"block", source.tag, none⟩
  else throw ("unsupported Xray outbound protocol: " ++ source.protocol)

def translateXrayWireGuardEndpoint (translation : SettingsTranslation σ δ) (source : XrayOutbound σ) :
    Except String (Outbound δ) := do
  if source.tag = "" then throw "WireGuard outbound requires a tag"
  if source.sendThrough ≠ "" ∨ source.hasProxySettings ∨ source.streamSettings.isSome ∨
      source.mux.isSome then
    throw "unsupported Xray WireGuard outbound options"
  let converted ← translation.wireGuard source.settings
  return ⟨"wireguard", source.tag, some converted⟩

def translateOne (translation : SettingsTranslation σ δ) (source : XrayOutbound σ) :
    Except String (Outbound δ) :=
  if source.isWireGuard then translateXrayWireGuardEndpoint translation source
  else translateXrayOutbound translation source

/-- The outbound loop of `translateXray`; the order is that of the document. -/
def translateOutbounds (translation : SettingsTranslation σ δ) :
    Nat → List (XrayOutbound σ) → Except String (List (Outbound δ) × List (Outbound δ))
  | _, [] => pure ([], [])
  | index, source :: rest => do
      let converted ← (translateOne translation source).mapError (cause · s!"outbounds[{index}]")
      let later ← translateOutbounds translation (index + 1) rest
      if source.isWireGuard then return (later.1, converted :: later.2)
      else return (converted :: later.1, later.2)

def translateXray (translation : SettingsTranslation σ δ) (sources : List (XrayOutbound σ)) :
    Except String (OutboundOptions δ) := do
  let lists ← translateOutbounds translation 0 sources
  return ⟨lists.1, lists.2, ""⟩

/-! ### The default outbound -/

variable {translation : SettingsTranslation σ δ}

theorem translateXrayOutbound_type {source : XrayOutbound σ} {outbound : Outbound δ}
    (translated : translateXrayOutbound translation source = .ok outbound) :
    outbound.type ≠ "wireguard" := by
  simp only [translateXrayOutbound, throw_bind] at translated
  iterate 5 rw [ite_throw_eq_ok_iff] at translated
  obtain ⟨-, -, -, -, -, translated⟩ := translated
  split at translated
  · obtain ⟨converted, -, assembled⟩ := bind_eq_ok_iff.1 translated
    rw [← pure_eq_ok_iff.1 assembled]
    simp
  · split at translated
    · rw [ite_throw_eq_ok_iff] at translated
      obtain ⟨-, -, assembled⟩ := bind_eq_ok_iff.1 translated.2
      rw [← pure_eq_ok_iff.1 assembled]
      simp
    · split at translated
      · rw [ite_throw_eq_ok_iff] at translated
        obtain ⟨-, -, assembled⟩ := bind_eq_ok_iff.1 translated.2
        rw [← pure_eq_ok_iff.1 assembled]
        simp
      · cases translated

theorem translateXrayWireGuardEndpoint_type {source : XrayOutbound σ} {endpoint : Outbound δ}
    (translated : translateXrayWireGuardEndpoint translation source = .ok endpoint) :
    endpoint.type = "wireguard" := by
  simp only [translateXrayWireGuardEndpoint, throw_bind] at translated
  rw [ite_throw_eq_ok_iff, ite_throw_eq_ok_iff, bind_eq_ok_iff] at translated
  obtain ⟨-, -, converted, -, assembled⟩ := translated
  rw [← pure_eq_ok_iff.1 assembled]

theorem translateOutbounds_type {index : Nat} {sources : List (XrayOutbound σ)}
    {lists : List (Outbound δ) × List (Outbound δ)}
    (translated : translateOutbounds translation index sources = .ok lists) :
    ∀ outbound ∈ lists.1, outbound.type ≠ "wireguard" := by
  induction sources generalizing index lists with
  | nil =>
      rw [← pure_eq_ok_iff.1 translated]
      simp
  | cons source rest ih =>
      obtain ⟨converted, one, others⟩ := bind_eq_ok_iff.1 translated
      obtain ⟨later, others, assembled⟩ := bind_eq_ok_iff.1 others
      have native := ih others
      rw [mapError_eq_ok_iff, translateOne] at one
      by_cases wireGuard : source.isWireGuard = true
      · rw [if_pos wireGuard] at assembled
        rw [← pure_eq_ok_iff.1 assembled]
        exact native
      · rw [if_neg wireGuard] at one assembled
        rw [← pure_eq_ok_iff.1 assembled]
        intro outbound member
        cases member with
        | head => exact translateXrayOutbound_type one
        | tail _ member => exact native outbound member

/-- **The default is the translated first outbound exactly when that is not a
WireGuard one.** A WireGuard outbound becomes an endpoint, and nothing names it
as the final outbound. -/
theorem default_is_first_iff {translation : SettingsTranslation σ δ}
    {registry : Outbound δ → Except String Unit} {first : XrayOutbound σ} {rest : List (XrayOutbound σ)}
    {options : OutboundOptions δ} {running : Manager δ}
    (accepted : translateXray translation (first :: rest) = .ok options)
    (built : Manager.build registry options = .ok running) :
    (∃ translated, translateOne translation first = .ok translated ∧
        running.defaultOutbound = some (translated.named 0)) ↔
      first.isWireGuard = false := by
  obtain ⟨lists, translated, assembled⟩ := bind_eq_ok_iff.1 accepted
  have result := pure_eq_ok_iff.1 assembled
  have chosen := Manager.build_default (by rw [← result]) built
  have native := translateOutbounds_type translated
  obtain ⟨converted, one, others⟩ := bind_eq_ok_iff.1 translated
  obtain ⟨later, -, gathered⟩ := bind_eq_ok_iff.1 others
  rw [mapError_eq_ok_iff] at one
  rw [← result] at chosen
  by_cases wireGuard : first.isWireGuard = true
  · -- the default is a native outbound or the generated one, so its type tells them apart
    have endpoint : converted.type = "wireguard" := by
      rw [translateOne, if_pos wireGuard] at one
      exact translateXrayWireGuardEndpoint_type one
    have other : ∀ outbound, running.defaultOutbound = some outbound → outbound.type ≠ "wireguard" := by
      intro outbound selected
      rw [chosen] at selected
      rw [← Option.some.inj selected]
      cases listed : lists.1 with
      | nil => simp [Manager.generatedDirect]
      | cons head tail => exact native head (by simp [listed])
    constructor
    · intro ⟨same, read, selected⟩
      rw [one] at read
      cases read
      exact (other _ selected endpoint).elim
    · intro plain
      rw [plain] at wireGuard
      cases wireGuard
  · rw [if_neg wireGuard] at gathered
    rw [← pure_eq_ok_iff.1 gathered] at chosen
    constructor
    · intro _
      simpa using wireGuard
    · intro _
      exact ⟨converted, one, chosen⟩

/-! ### A document with one WireGuard outbound -/

def plainOutbound (protocol tag : String) : XrayOutbound Unit :=
  ⟨protocol, tag, "", false, none, "", none, ()⟩

def plainSettings : SettingsTranslation Unit Unit :=
  ⟨fun _ _ => pure (), fun _ => pure (), fun _ => pure (), fun _ => pure ()⟩

theorem default_is_first_vless :
    (∃ translated, translateOne plainSettings (plainOutbound "vless" "proxy") = .ok translated ∧
        (⟨"", [⟨"vless", "proxy", some ()⟩], some ⟨"vless", "proxy", some ()⟩⟩ : Manager Unit).defaultOutbound =
          some (translated.named 0)) ↔
      (plainOutbound "vless" "proxy").isWireGuard = false :=
  default_is_first_iff
    (show translateXray plainSettings [plainOutbound "vless" "proxy", plainOutbound "wireguard" "warp"] =
      .ok ⟨[⟨"vless", "proxy", some ()⟩], [⟨"wireguard", "warp", some ()⟩], ""⟩ from by decide +kernel)
    (show Manager.build (fun _ => pure ()) _ = _ from by decide +kernel)

/-- Everything goes through a direct outbound that the document does not have. -/
theorem wireGuard_alone_goes_direct :
    (translateXray plainSettings [plainOutbound "wireguard" "warp"] >>=
        Manager.build fun _ => pure ()) =
      .ok ⟨"", [Manager.generatedDirect], some Manager.generatedDirect⟩ ∧
    translateOne plainSettings (plainOutbound "wireguard" "warp") =
      .ok ⟨"wireguard", "warp", some ()⟩ := by
  decide +kernel

end SideraCore.Config
