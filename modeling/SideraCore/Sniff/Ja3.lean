import SideraCore.Control.Checked

/-!
Owns the parser of a TLS ClientHello (`ja3.Compute`): the record, the handshake
message and the loop over its extensions, with every check and every access of
the source in its order.

It can panic in the lists of supported versions and of signature algorithms, whose
lengths it does not compare with the extension they are in.
-/

namespace SideraCore.Sniff

open Control Control.Checked

section Numbers

variable {ε : Type}

def uint16 (bytes : List UInt8) (position : Nat) : Checked ε Nat := do
  let high ← index bytes position
  let low ← index bytes (position + 1)
  return 256 * high.toNat + low.toNat

def uint16s (bytes : List UInt8) : Nat → Nat → Checked ε (List Nat)
  | 0, _ => return []
  | count + 1, position => do
      let number ← uint16 bytes position
      let rest ← uint16s bytes count (position + 2)
      return number :: rest

variable {bytes : List UInt8} {position : Nat}

theorem uint16_eq_ok (inside : position + 1 < bytes.length) :
    (uint16 bytes position : Checked ε Nat) =
      .ok (256 * bytes[position].toNat + bytes[position + 1].toNat) := by
  have before : position < bytes.length := by omega
  simp only [uint16, index, List.getElem?_eq_getElem before, List.getElem?_eq_getElem inside]
  rfl

theorem uint16_returns (inside : position + 1 < bytes.length) :
    Returns (uint16 bytes position : Checked ε Nat) (· < 65536) := by
  rw [uint16_eq_ok inside]
  have highBound := bytes[position].toNat_lt
  have lowBound := bytes[position + 1].toNat_lt
  change _ < _
  omega

theorem uint16_eq_panic (outside : bytes.length ≤ position + 1) :
    (uint16 bytes position : Checked ε Nat) = .error .panic := by
  unfold uint16
  rw [bind_eq_error_iff]
  by_cases one : position < bytes.length
  · refine .inr ⟨bytes[position], index_eq_ok_iff.2 (List.getElem?_eq_getElem one), ?_⟩
    rw [index_eq_panic outside]
    rfl
  · exact .inl (index_eq_panic (by omega))

theorem uint16s_returns {count : Nat} (inside : count = 0 ∨ position + 2 * count ≤ bytes.length) :
    Returns (uint16s bytes count position : Checked ε (List Nat)) fun _ => True := by
  induction count generalizing position with
  | zero => trivial
  | succ count ih =>
      unfold uint16s
      apply returns_bind (uint16_returns (by omega))
      intro number _
      apply returns_bind (ih (by omega))
      intro rest _
      exact returns_pure trivial

theorem uint16s_eq_panic {count : Nat} (nonempty : 0 < count)
    (outside : bytes.length < position + 2 * count) :
    (uint16s bytes count position : Checked ε (List Nat)) = .error .panic := by
  induction count generalizing position with
  | zero => omega
  | succ count ih =>
      unfold uint16s
      rw [bind_eq_error_iff]
      by_cases inside : position + 1 < bytes.length
      · refine .inr ⟨_, uint16_eq_ok inside, ?_⟩
        rw [ih (by omega) (by omega)]
        rfl
      · exact .inl (uint16_eq_panic (by omega))

end Numbers

inductive ParseError where
  | length (check : Nat)
  | contentType
  | version (check : Nat)
  | handshakeType
  | sniType
deriving DecidableEq, Repr

/-- `ClientHello`, as far as the sniffer reads it. A Go string is its bytes. -/
structure ClientHello where
  version : Nat
  cipherSuites : List Nat
  extensions : List Nat
  ellipticCurves : List Nat
  ellipticCurvePF : List UInt8
  versions : List Nat
  signatureAlgorithms : List Nat
  serverName : List UInt8
deriving DecidableEq, Repr

def supportedVersion (version : Nat) : Bool :=
  version &&& 0xFFFC == 0x0300 || version == 0x0304

variable (segment hs payload exs : List UInt8)

/-- `parseSegment` up to the handshake message. Further records are ignored. -/
def recordBody : Checked ParseError (List UInt8) := do
  failIf (segment.length < 5) (.length 1)
  let contType ← index segment 0
  failIf (contType ≠ 22) .contentType
  let tlsRecordVersion ← uint16 segment 1
  failIf (¬supportedVersion tlsRecordVersion) (.version 1)
  let segmentLen ← uint16 segment 3
  failIf (segment.length - 5 < segmentLen) (.length 2)
  slice segment 5 (5 + segmentLen)

/-- `parseHandshake` up to the extensions: the fields before them, and their bytes. -/
def handshakeFields : Checked ParseError (ClientHello × List UInt8) := do
  failIf (hs.length < 6 + 32 + 1) (.length 3)
  let handshType ← index hs 0
  failIf (handshType ≠ 1) .handshakeType
  let high ← index hs 1
  let low ← uint16 hs 2
  failIf (hs.length - 4 ≠ 65536 * high.toNat + low) (.length 4)
  let tlsVersion ← uint16 hs 4
  failIf (¬supportedVersion tlsVersion) (.version 2)
  let sessionIDLen ← index hs 38
  failIf (hs.length < 39 + sessionIDLen.toNat) (.length 5)
  let cs ← slice hs (39 + sessionIDLen.toNat) hs.length
  failIf (cs.length < 2) (.length 6)
  let csLen ← uint16 cs 0
  failIf (cs.length < 2 + csLen + 1) (.length 7)
  let cipherSuites ← uint16s cs (csLen / 2) 2
  let compressMethodLen ← index cs (2 + csLen)
  failIf (cs.length < 2 + csLen + 1 + compressMethodLen.toNat) (.length 8)
  let exs ← slice cs (2 + csLen + 1 + compressMethodLen.toNat) cs.length
  return (⟨tlsVersion, cipherSuites, [], [], [], [], [], []⟩, exs)

/-- The extensions after their length. What follows the announced length is not cut off. -/
def extensionList : Checked ParseError (List UInt8) := do
  failIf (exs.length < 2) (.length 9)
  let exsLen ← uint16 exs 0
  failIf (exs.length - 2 < exsLen) (.length 10)
  slice exs 2 exs.length

def extensionHeader : Checked ParseError (Nat × List UInt8) := do
  failIf (exs.length < 4) (.length 11)
  let exType ← uint16 exs 0
  let exLen ← uint16 exs 2
  failIf (exs.length < 4 + exLen) (.length 12)
  let sex ← slice exs 4 (4 + exLen)
  return (exType, sex)

def parseExtension (hello : ClientHello) (exType : Nat) (sex : List UInt8) :
    Checked ParseError ClientHello :=
  match exType with
  | 0 => do
      failIf (sex.length < 5) (.length 13)
      let sniType ← index sex 2
      let sniLen ← uint16 sex 3
      failIf (sex.length - 5 ≠ sniLen) (.length 14)
      failIf (sniType ≠ 0) .sniType
      return { hello with serverName := sex.drop 5 }
  | 10 => do
      failIf (sex.length < 2) (.length 15)
      let ecsLen ← uint16 sex 0
      failIf (sex.length - 2 ≠ ecsLen) (.length 16)
      let ellipticCurves ← uint16s sex (ecsLen / 2) 2
      return { hello with ellipticCurves := ellipticCurves }
  | 11 => do
      failIf (sex.length < 1) (.length 17)
      let ecpfsLen ← index sex 0
      failIf (sex.length - 1 ≠ ecpfsLen.toNat) (.length 18)
      return { hello with ellipticCurvePF := sex.drop 1 }
  | 43 => do
      failIf (sex.length < 1) (.length 19)
      let versionsLen ← index sex 0
      -- `for i := 0; i < versionsLen; i += 2`
      let versions ← uint16s sex ((versionsLen.toNat + 1) / 2) 1
      return { hello with versions := hello.versions ++ versions }
  | 13 => do
      failIf (sex.length < 2) (.length 20)
      let ssaLen ← uint16 sex 0
      let signatureAlgorithms ← uint16s sex ((ssaLen + 1) / 2) 2
      return { hello with signatureAlgorithms := hello.signatureAlgorithms ++ signatureAlgorithms }
  | _ => return hello

/-- One turn of the loop over the extensions: the bytes left and the hello so far. -/
def extensionTurn (state : List UInt8 × ClientHello) :
    Checked ParseError ((List UInt8 × ClientHello) ⊕ ClientHello) :=
  if state.1 = [] then return .inr state.2
  else do
    let extension ← extensionHeader state.1
    let seen := { state.2 with extensions := state.2.extensions ++ [extension.1] }
    let hello ← parseExtension seen extension.1 extension.2
    -- `exs[4+exLen:]`, a sum of `uint16`
    let exs ← slice state.1 ((4 + extension.2.length) % 65536) state.1.length
    return .inl (exs, hello)

def parseExtensions (hello : ClientHello) (exs : List UInt8) : Checked ParseError ClientHello :=
  if exs.length = 0 then return hello
  else do
    let list ← extensionList exs
    iterate extensionTurn (list.length + 1) (list, hello)

def parseHandshake : Checked ParseError ClientHello := do
  let fields ← handshakeFields hs
  parseExtensions fields.1 fields.2

def parseSegment : Checked ParseError ClientHello := do
  let hs ← recordBody segment
  parseHandshake hs

def compute : Checked ParseError ClientHello := parseSegment payload

/-! ### Accesses within their bounds -/

theorem recordBody_returns :
    Returns (recordBody segment) fun hs => hs.length < 65536 := by
  unfold recordBody
  apply returns_failIf
  intro long
  apply returns_bind (returns_index (by omega))
  intro contType _
  apply returns_failIf
  intro _
  apply returns_bind (uint16_returns (by omega))
  intro tlsRecordVersion _
  apply returns_failIf
  intro _
  apply returns_bind (uint16_returns (by omega))
  intro segmentLen bounded
  apply returns_failIf
  intro complete
  apply Returns.weaken (returns_slice (by omega) (by omega))
  rintro hs rfl
  simp only [List.length_take, List.length_drop]
  omega

theorem handshakeFields_returns :
    Returns (handshakeFields hs) fun fields => fields.2.length ≤ hs.length := by
  unfold handshakeFields
  apply returns_failIf
  intro long
  apply returns_bind (returns_index (by omega))
  intro handshType _
  apply returns_failIf
  intro _
  apply returns_bind (returns_index (by omega))
  intro high _
  apply returns_bind (uint16_returns (by omega))
  intro low _
  apply returns_failIf
  intro _
  apply returns_bind (uint16_returns (by omega))
  intro tlsVersion _
  apply returns_failIf
  intro _
  apply returns_bind (returns_index (by omega))
  intro sessionIDLen _
  apply returns_failIf
  intro sessionFits
  apply returns_bind (returns_slice (by omega) (Nat.le_refl _))
  intro cs isRest
  have shorter : cs.length ≤ hs.length := by
    simp only [isRest, List.length_take, List.length_drop]
    omega
  apply returns_failIf
  intro counted
  apply returns_bind (uint16_returns (by omega))
  intro csLen _
  apply returns_failIf
  intro suitesFit
  apply returns_bind (uint16s_returns (by omega))
  intro cipherSuites _
  apply returns_bind (returns_index (by omega))
  intro compressMethodLen _
  apply returns_failIf
  intro methodsFit
  apply returns_bind (returns_slice (by omega) (Nat.le_refl _))
  intro exs isRest
  apply returns_pure
  simp only [isRest, List.length_take, List.length_drop]
  omega

theorem extensionList_returns :
    Returns (extensionList exs) fun list => list.length ≤ exs.length := by
  unfold extensionList
  apply returns_failIf
  intro long
  apply returns_bind (uint16_returns (by omega))
  intro exsLen _
  apply returns_failIf
  intro _
  apply Returns.weaken (returns_slice (by omega) (Nat.le_refl _))
  rintro list rfl
  simp only [List.length_take, List.length_drop]
  omega

theorem extensionHeader_returns :
    Returns (extensionHeader exs) fun extension => 4 + extension.2.length ≤ exs.length := by
  unfold extensionHeader
  apply returns_failIf
  intro long
  apply returns_bind (uint16_returns (by omega))
  intro exType _
  apply returns_bind (uint16_returns (by omega))
  intro exLen _
  apply returns_failIf
  intro complete
  apply returns_bind (returns_slice (by omega) (by omega))
  intro sex isContent
  apply returns_pure
  simp only [isContent, List.length_take, List.length_drop]
  omega

/-! ### Where the parser panics -/

/-- The list of versions or signature algorithms, read in pairs, ends within its
extension. -/
def listFits : Nat → List UInt8 → Bool
  | 43, count :: entries => 2 * ((count.toNat + 1) / 2) ≤ entries.length
  | 13, high :: low :: entries => 2 * ((256 * high.toNat + low.toNat + 1) / 2) ≤ entries.length
  | _, _ => true

variable {hello : ClientHello} {exType : Nat} {sex : List UInt8}

theorem parseExtension_returns (fits : listFits exType sex) :
    Returns (parseExtension hello exType sex) fun _ => True := by
  unfold parseExtension
  split
  · apply returns_failIf
    intro long
    apply returns_bind (returns_index (by omega))
    intro sniType _
    apply returns_bind (uint16_returns (by omega))
    intro sniLen _
    apply returns_failIf
    intro _
    apply returns_failIf
    intro _
    exact returns_pure trivial
  · apply returns_failIf
    intro long
    apply returns_bind (uint16_returns (by omega))
    intro ecsLen _
    apply returns_failIf
    intro _
    apply returns_bind (uint16s_returns (by omega))
    intro ellipticCurves _
    exact returns_pure trivial
  · apply returns_failIf
    intro long
    apply returns_bind (returns_index (by omega))
    intro ecpfsLen _
    apply returns_failIf
    intro _
    exact returns_pure trivial
  · cases sex with
    | nil => trivial
    | cons count entries =>
        have fits := of_decide_eq_true fits
        apply returns_failIf
        intro _
        apply returns_bind (returns_index (by simp))
        intro versionsLen atFirst
        cases atFirst
        apply returns_bind (uint16s_returns (by simp only [List.length_cons]; omega))
        intro versions _
        exact returns_pure trivial
  · cases sex with
    | nil => trivial
    | cons high rest =>
        cases rest with
        | nil => trivial
        | cons low entries =>
            have fits := of_decide_eq_true fits
            apply returns_failIf
            intro _
            rw [uint16_eq_ok (by simp)]
            apply returns_bind (uint16s_returns (by
              simp only [List.getElem_cons_zero, List.getElem_cons_succ, List.length_cons]; omega))
            intro signatureAlgorithms _
            exact returns_pure trivial
  · exact returns_pure trivial

theorem parseExtension_eq_panic (overrun : ¬listFits exType sex) :
    parseExtension hello exType sex = .error .panic := by
  unfold listFits at overrun
  split at overrun
  · rename_i count entries
    have overrun : entries.length < 2 * ((count.toNat + 1) / 2) :=
      Nat.not_le.1 fun fits => overrun (decide_eq_true fits)
    refine bind_eq_error_iff.2 (.inr ⟨(), failIf_eq_ok_iff.2 (by simp), ?_⟩)
    refine bind_eq_error_iff.2 (.inr ⟨count, rfl, ?_⟩)
    refine bind_eq_error_iff.2 (.inl (uint16s_eq_panic (by omega) ?_))
    simp only [List.length_cons]
    omega
  · rename_i high low entries
    have overrun : entries.length < 2 * ((256 * high.toNat + low.toNat + 1) / 2) :=
      Nat.not_le.1 fun fits => overrun (decide_eq_true fits)
    refine bind_eq_error_iff.2 (.inr ⟨(), failIf_eq_ok_iff.2 (by simp), ?_⟩)
    refine bind_eq_error_iff.2 (.inr ⟨_, uint16_eq_ok (by simp), ?_⟩)
    simp only [List.getElem_cons_zero, List.getElem_cons_succ]
    refine bind_eq_error_iff.2 (.inl (uint16s_eq_panic (by omega) ?_))
    simp only [List.length_cons]
    omega
  · exact absurd rfl overrun

variable {state : List UInt8 × ClientHello}

theorem length_of_extensionTurn {next : List UInt8 × ClientHello} (short : state.1.length < 65536)
    (turned : extensionTurn state = .ok (.inl next)) : next.1.length < state.1.length := by
  unfold extensionTurn at turned
  split at turned
  · cases turned
  simp only [Control.bind_eq_ok_iff, Control.pure_eq_ok_iff] at turned
  obtain ⟨extension, header, hello, -, exs, rest, same⟩ := turned
  have inside := (extensionHeader_returns state.1).of_eq_ok header
  have noWrap : (4 + extension.2.length) % 65536 = 4 + extension.2.length :=
    Nat.mod_eq_of_lt (by omega)
  rw [noWrap, slice_eq_ok inside (Nat.le_refl _)] at rest
  cases rest
  cases same
  simp only [List.length_take, List.length_drop]
  omega

/-- The list of the next extension ends within it. -/
def NextFits (state : List UInt8 × ClientHello) : Prop :=
  ∀ extension, extensionHeader state.1 = .ok extension → listFits extension.1 extension.2

theorem extensionTurn_returns (short : state.1.length < 65536) (fits : NextFits state) :
    Returns (extensionTurn state) fun _ => True := by
  unfold extensionTurn
  split
  · exact returns_pure trivial
  · apply returns_bind (extensionHeader_returns state.1).and_eq
    intro extension header
    apply returns_bind (parseExtension_returns (fits extension header.1))
    intro hello _
    apply returns_bind (returns_slice (by omega) (Nat.le_refl _))
    intro exs _
    exact returns_pure trivial

theorem extensionTurn_eq_panic (overrun : ¬NextFits state) : extensionTurn state = .error .panic := by
  simp only [NextFits, not_forall] at overrun
  obtain ⟨extension, header, overrun⟩ := overrun
  have more : state.1 ≠ [] := by
    intro exhausted
    rw [exhausted] at header
    cases header
  unfold extensionTurn
  rw [if_neg more, bind_eq_error_iff]
  exact .inr ⟨extension, header, bind_eq_error_iff.2 (.inl (parseExtension_eq_panic overrun))⟩

/-- Every list in the extensions that the loop comes to ends within its extension. -/
def ListsFit (hello : ClientHello) (list : List UInt8) : Prop :=
  ∀ state, Reaches extensionTurn (list, hello) state → NextFits state

section Loop

variable {hello : ClientHello} {list : List UInt8}

/-- The loop finishes, and panics exactly at a list that is longer than its extension. -/
theorem extensionLoop_stops (short : list.length < 65536) :
    iterate extensionTurn (list.length + 1) (list, hello) ≠ .error .unfinished ∧
      (iterate extensionTurn (list.length + 1) (list, hello) = .error .panic ↔
        ¬ListsFit hello list) := by
  have bounded : ∀ state, Reaches extensionTurn (list, hello) state → state.1.length < 65536 := by
    intro state reached
    apply reached.invariant (fun state => state.1.length < 65536) short
    intro state next bounded turned
    exact Nat.lt_trans (length_of_extensionTurn bounded turned) bounded
  apply @iterate_stops _ _ _ extensionTurn (list, hello) _ NextFits fun state => state.1.length
  · intro state reached fits
    exact extensionTurn_returns (bounded state reached) fits
  · intro state overrun
    exact extensionTurn_eq_panic overrun
  · intro state next reached turned
    exact length_of_extensionTurn (bounded state reached) turned
  · exact Nat.lt_succ_self _

theorem parseExtensions_stops {exs : List UInt8} (short : exs.length < 65536) :
    parseExtensions hello exs ≠ .error .unfinished ∧
      (parseExtensions hello exs = .error .panic ↔
        ∃ list, extensionList exs = .ok list ∧ ¬ListsFit hello list) := by
  unfold parseExtensions
  by_cases absent : exs.length = 0
  · rw [if_pos absent, List.length_eq_zero_iff.1 absent]
    refine ⟨nofun, nofun, ?_⟩
    rintro ⟨list, header, -⟩
    cases header
  · have returns := extensionList_returns exs
    rw [if_neg absent, ne_eq, returns.bind_eq_error_iff Stop.fatal_unfinished,
      returns.bind_eq_error_iff Stop.fatal_panic]
    have shorter : ∀ {list}, extensionList exs = .ok list → list.length < 65536 :=
      fun header => Nat.lt_of_le_of_lt (returns.of_eq_ok header) short
    constructor
    · rintro ⟨list, header, unfinished⟩
      exact (extensionLoop_stops (shorter header)).1 unfinished
    · apply exists_congr
      intro list
      apply and_congr_right
      intro header
      exact (extensionLoop_stops (shorter header)).2

end Loop

/-- The lists in the extensions that the parser of the record comes to fit. -/
def HelloFits : Prop :=
  ∀ hs fields list, recordBody payload = .ok hs → handshakeFields hs = .ok fields →
    extensionList fields.2 = .ok list → ListsFit fields.1 list

/-- The parser finishes, and panics exactly when a list that it comes to overruns its
extension. -/
theorem compute_stops :
    compute payload ≠ .error .unfinished ∧
      (compute payload = .error .panic ↔ ¬HelloFits payload) := by
  have record := recordBody_returns payload
  have short : ∀ {hs fields}, recordBody payload = .ok hs → handshakeFields hs = .ok fields →
      fields.2.length < 65536 := by
    intro hs fields segment handshake
    exact Nat.lt_of_le_of_lt ((handshakeFields_returns hs).of_eq_ok handshake)
      (record.of_eq_ok segment)
  have stops : ∀ stop : Stop ParseError, stop.Fatal → (compute payload = .error stop ↔
      ∃ hs, recordBody payload = .ok hs ∧ ∃ fields, handshakeFields hs = .ok fields ∧
        parseExtensions fields.1 fields.2 = .error stop) := by
    intro stop fatal
    unfold compute parseSegment parseHandshake
    rw [record.bind_eq_error_iff fatal]
    simp only [(handshakeFields_returns _).bind_eq_error_iff fatal]
  constructor
  · rw [ne_eq, stops _ Stop.fatal_unfinished]
    rintro ⟨hs, segment, fields, handshake, unfinished⟩
    exact (parseExtensions_stops (short segment handshake)).1 unfinished
  · rw [stops _ Stop.fatal_panic]
    constructor
    · rintro ⟨hs, segment, fields, handshake, panicked⟩ fits
      obtain ⟨list, header, overrun⟩ :=
        (parseExtensions_stops (short segment handshake)).2.1 panicked
      exact overrun (fits hs fields list segment handshake header)
    · intro overruns
      simp only [HelloFits, not_forall] at overruns
      obtain ⟨hs, fields, list, segment, handshake, header, overrun⟩ := overruns
      exact ⟨hs, segment, fields, handshake,
        (parseExtensions_stops (short segment handshake)).2.2 ⟨list, header, overrun⟩⟩

end SideraCore.Sniff
