import SideraCore.Sniff.Quic

/-!
Owns what QUIC sniffing makes of a hello whose bytes arrive in pieces: the pieces
of a hello, the calls for the packets of one flow, and the exact condition under
which the call for the packet that completes the hello, and no earlier one, reports
its server name.
-/

namespace SideraCore.Sniff

open Control Control.Checked Route Control
open Relation (ReflTransGen)

section Record

variable {fragments : List CryptoFragment} {body : List UInt8}

def announced (fragments : List CryptoFragment) : Nat := frameLen fragments % 65536

theorem recordBody_record :
    recordBody (record fragments body) =
      if body.length < announced fragments then .error (.error (.length 2))
      else .ok (body.take (announced fragments)) := by
  have number : 256 * (UInt8.ofNat (frameLen fragments / 256)).toNat +
      (UInt8.ofNat (frameLen fragments)).toNat = announced fragments := by
    simp only [UInt8.toNat_ofNat', announced]
    omega
  have isType : (index (record fragments body) 0 : Checked ParseError UInt8) = .ok 22 := rfl
  have isVersion : (uint16 (record fragments body) 1 : Checked ParseError Nat) = .ok 0x0303 := rfl
  have isLength : (uint16 (record fragments body) 3 : Checked ParseError Nat) =
      .ok (announced fragments) := by
    rw [← number]
    rfl
  have size : (record fragments body).length = body.length + 5 := rfl
  unfold recordBody
  rw [bind_of_eq_ok (failIf_eq_ok (by omega)), bind_of_eq_ok isType,
    bind_of_eq_ok (failIf_eq_ok (by decide)), bind_of_eq_ok isVersion,
    bind_of_eq_ok (failIf_eq_ok (by decide)), bind_of_eq_ok isLength]
  by_cases short : body.length < announced fragments
  · rw [failIf_eq_fail (by omega), error_bind, if_pos short]
  · rw [bind_of_eq_ok (failIf_eq_ok (by omega)), if_neg short,
      slice_eq_ok (by omega) (by omega), Nat.add_sub_cancel_left]
    rfl

end Record

variable {hello : List UInt8} {fragments : List CryptoFragment}

theorem length_of_handshakeFields {fields : ClientHello × List UInt8}
    (read : handshakeFields hello = .ok fields) :
    ∃ high low, 39 ≤ hello.length ∧ (index hello 1 : Checked ParseError UInt8) = .ok high ∧
      (uint16 hello 2 : Checked ParseError Nat) = .ok low ∧
        hello.length - 4 = 65536 * high.toNat + low := by
  unfold handshakeFields at read
  obtain ⟨_, long, read⟩ := bind_eq_ok_iff.1 read
  obtain ⟨handshType, -, read⟩ := bind_eq_ok_iff.1 read
  obtain ⟨_, -, read⟩ := bind_eq_ok_iff.1 read
  obtain ⟨high, isHigh, read⟩ := bind_eq_ok_iff.1 read
  obtain ⟨low, isLow, read⟩ := bind_eq_ok_iff.1 read
  obtain ⟨_, matched, -⟩ := bind_eq_ok_iff.1 read
  rw [failIf_eq_ok_iff] at long matched
  exact ⟨high, low, by omega, isHigh, isLow, by omega⟩

/-- A hello that is cut off does not parse. -/
theorem parseHandshake_take {fingerprint : ClientHello} (parsed : parseHandshake hello = .ok fingerprint)
    {count : Nat} (cut : count < hello.length) :
    ∃ problem, parseHandshake (hello.take count) = .error (.error problem) := by
  have unread : ∀ fields, handshakeFields (hello.take count) ≠ .ok fields := by
    intro fields read
    obtain ⟨whole, readWhole, -⟩ := bind_eq_ok_iff.1 parsed
    obtain ⟨high, low, -, isHigh, isLow, size⟩ := length_of_handshakeFields readWhole
    obtain ⟨otherHigh, otherLow, long, isOtherHigh, isOtherLow, otherSize⟩ :=
      length_of_handshakeFields read
    have counted : (hello.take count).length = count := List.length_take_of_le (Nat.le_of_lt cut)
    rw [index_take (by omega), isHigh] at isOtherHigh
    have sameLow : (uint16 (hello.take count) 2 : Checked ParseError Nat) = uint16 hello 2 := by
      unfold uint16
      rw [index_take (by omega), index_take (by omega)]
    rw [sameLow, isLow] at isOtherLow
    cases isOtherHigh
    cases isOtherLow
    omega
  obtain ⟨problem, failed⟩ := (handshakeFields_returns (hello.take count)).eq_fail unread
  refine ⟨problem, ?_⟩
  unfold parseHandshake
  rw [failed, error_bind]

/-! ### Pieces of a hello -/

/-- A fragment that carries bytes of the hello at their place. -/
def IsPiece (hello : List UInt8) (fragment : CryptoFragment) : Prop :=
  fragment.offset + fragment.length ≤ hello.length ∧
    fragment.payload = (hello.drop fragment.offset).take fragment.length

/-- The pieces that the search takes lead from the start of the hello to an index. -/
def Spans (fragments : List CryptoFragment) (index : Nat) : Prop :=
  ReflTransGen (Next fragments) 0 index

section Pieces

variable {hello : List UInt8} {fragments : List CryptoFragment}

theorem next_unique : Relator.RightUnique (Next fragments) := by
  rintro index next other ⟨fragment, found, moved⟩ ⟨otherFragment, otherFound, otherMoved⟩
  rw [found] at otherFound
  cases otherFound
  rw [moved, otherMoved]

theorem spans_iff_of_ended {reached index : Nat} (spans : Spans fragments reached)
    (ended : pieceAt fragments reached = none) (ends : pieceAt fragments index = none) :
    Spans fragments index ↔ index = reached := by
  constructor
  · intro other
    rcases ReflTransGen.total_of_right_unique next_unique spans other with later | later
    · rcases later.cases_head with same | ⟨next, ⟨fragment, found, -⟩, -⟩
      · exact same.symm
      · rw [ended] at found
        cases found
    · rcases later.cases_head with same | ⟨next, ⟨fragment, found, -⟩, -⟩
      · exact same
      · rw [ends] at found
        cases found
  · rintro rfl
    exact spans

/-- The search gets through to the end of the hello, and the lengths add up to its
length. -/
def MakesUp (hello : List UInt8) (fragments : List CryptoFragment) : Prop :=
  Spans fragments hello.length ∧ announced fragments = hello.length

variable (pieces : ∀ fragment ∈ fragments, IsPiece hello fragment)
include pieces

theorem assemble_pieces {turns : Nat} {body : List UInt8}
    (assembled : assemble turns fragments = .ok body) :
    ∃ reached, reached ≤ hello.length ∧ body = hello.take reached ∧ Spans fragments reached ∧
      pieceAt fragments reached = none := by
  obtain ⟨state, reached, last⟩ := reaches_of_iterate_eq_ok assembled
  have written : state.1 ≤ hello.length ∧ state.2 = hello.take state.1 := by
    apply reached.invariant (fun state => state.1 ≤ hello.length ∧ state.2 = hello.take state.1)
    · exact ⟨Nat.zero_le _, rfl⟩
    · intro state next before turned
      obtain ⟨fragment, found, moved⟩ := assembleTurn_next_iff.1 turned
      obtain ⟨member, atIndex⟩ := pieceAt_spec found
      obtain ⟨inside, carries⟩ := pieces fragment member
      rw [moved, before.2, carries, atIndex, ← List.take_add]
      rw [atIndex] at inside
      exact ⟨inside, rfl⟩
  have ended : pieceAt fragments state.1 = none := by
    cases found : pieceAt fragments state.1 with
    | none => rfl
    | some fragment =>
        rw [assembleTurn_of_piece found] at last
        cases last
  rw [assembleTurn_of_none ended] at last
  cases last
  exact ⟨state.1, written.1, written.2, reaches_index reached, ended⟩

theorem pieceAt_end (advances : Advances fragments) (spans : Spans fragments hello.length) :
    pieceAt fragments hello.length = none := by
  cases found : pieceAt fragments hello.length with
  | none => rfl
  | some fragment =>
      have moves := advances hello.length spans fragment found
      obtain ⟨member, atEnd⟩ := pieceAt_spec found
      have inside := (pieces fragment member).1
      omega

variable {fingerprint : ClientHello} (parsed : parseHandshake hello = .ok fingerprint)
  {turns : Nat} {body : List UInt8} (assembled : assemble turns fragments = .ok body)
include parsed assembled

theorem compute_of_makesUp (advances : Advances fragments) (makesUp : MakesUp hello fragments) :
    compute (record fragments body) = .ok fingerprint := by
  obtain ⟨reached, -, isBody, spans, ended⟩ := assemble_pieces pieces assembled
  have whole := (spans_iff_of_ended spans ended (pieceAt_end pieces advances makesUp.1)).1 makesUp.1
  rw [← whole, List.take_length] at isBody
  unfold compute parseSegment
  rw [recordBody_record, makesUp.2, isBody, if_neg (Nat.lt_irrefl _), List.take_length]
  exact parsed

theorem compute_of_not_makesUp (partly : ¬MakesUp hello fragments) :
    ∃ problem, compute (record fragments body) = .error (.error problem) := by
  obtain ⟨reached, inside, isBody, spans, -⟩ := assemble_pieces pieces assembled
  have size : body.length = reached := by
    rw [isBody]
    exact List.length_take_of_le inside
  unfold compute parseSegment
  rw [recordBody_record]
  by_cases short : body.length < announced fragments
  · rw [if_pos short]
    exact ⟨.length 2, rfl⟩
  · rw [if_neg short]
    have cut : announced fragments < hello.length := by
      by_contra long
      have whole : reached = hello.length := by omega
      exact partly ⟨whole ▸ spans, by omega⟩
    have taken : body.take (announced fragments) = hello.take (announced fragments) := by
      rw [isBody, List.take_take, Nat.min_eq_left (by omega)]
    rw [taken]
    exact parseHandshake_take parsed cut

end Pieces

/-! ### Calls of a flow -/

def Covers (hello : List UInt8) (fragments : List CryptoFragment) : Prop :=
  ∀ position < hello.length, ∃ fragment ∈ fragments,
    fragment.offset ≤ position ∧ position < fragment.offset + fragment.length

instance (hello : List UInt8) (fragments : List CryptoFragment) : Decidable (Covers hello fragments) :=
  inferInstanceAs (Decidable (∀ position < hello.length, ∃ fragment ∈ fragments,
    fragment.offset ≤ position ∧ position < fragment.offset + fragment.length))

theorem covered_of_spans {index : Nat} (spans : Spans fragments index) :
    ∀ position < index, ∃ fragment ∈ fragments,
      fragment.offset ≤ position ∧ position < fragment.offset + fragment.length ∧
        fragment.offset + fragment.length ≤ index := by
  induction spans with
  | refl =>
      intro position impossible
      exact absurd impossible (Nat.not_lt_zero position)
  | @tail index next _ moved ih =>
      obtain ⟨fragment, found, isNext⟩ := moved
      obtain ⟨member, atIndex⟩ := pieceAt_spec found
      intro position before
      by_cases earlier : position < index
      · obtain ⟨piece, isPiece, contains⟩ := ih position earlier
        exact ⟨piece, isPiece, contains.1, contains.2.1, by omega⟩
      · exact ⟨fragment, member, by omega, by omega, by omega⟩

theorem covers_of_spans (spans : Spans fragments hello.length) : Covers hello fragments := by
  intro position inside
  obtain ⟨fragment, member, contains⟩ := covered_of_spans spans position inside
  exact ⟨fragment, member, contains.1, contains.2.1⟩

/-! ### Flows without a byte that is sent twice -/

def contains (position : Nat) (fragment : CryptoFragment) : Bool :=
  fragment.offset ≤ position ∧ position < fragment.offset + fragment.length

def Disjoint (fragments : List CryptoFragment) : Prop :=
  fragments.Pairwise fun fragment other =>
    ∀ position, ¬(contains position fragment ∧ contains position other)

section Disjoint

variable {hello : List UInt8} {fragments : List CryptoFragment}

theorem advances_of_nonempty (nonempty : ∀ fragment ∈ fragments, 0 < fragment.length) :
    Advances fragments := by
  intro index _ fragment found
  exact nonempty fragment (pieceAt_spec found).1

variable {fragment : CryptoFragment}

theorem contains_iff {position : Nat} :
    contains position fragment ↔
      fragment.offset ≤ position ∧ position < fragment.offset + fragment.length := by
  simp [contains]

theorem length_eq_card (piece : IsPiece hello fragment) :
    fragment.length = ∑ position ∈ Finset.range hello.length, if contains position fragment then 1 else 0 := by
  have inside := piece.1
  have interval : (Finset.range hello.length).filter (contains · fragment) =
      Finset.Ico fragment.offset (fragment.offset + fragment.length) := by
    ext position
    simp only [Finset.mem_filter, Finset.mem_range, Finset.mem_Ico, contains_iff]
    omega
  rw [← Finset.card_filter, interval, Nat.card_Ico, Nat.add_sub_cancel_left]

theorem frameLen_eq_sum (pieces : ∀ fragment ∈ fragments, IsPiece hello fragment) :
    frameLen fragments =
      ∑ position ∈ Finset.range hello.length, fragments.countP (contains position) := by
  induction fragments with
  | nil => simp [frameLen]
  | cons fragment rest ih =>
      have first := length_eq_card (pieces fragment List.mem_cons_self)
      have others := ih fun other member =>
        pieces other (List.mem_cons_of_mem fragment member)
      simp only [List.countP_cons, Finset.sum_add_distrib, ← first, ← others]
      simp only [frameLen, List.map_cons, List.sum_cons]
      omega

variable (disjoint : Disjoint fragments)
include disjoint

theorem countP_contains_le (position : Nat) :
    fragments.countP (contains position) ≤ 1 := by
  induction fragments with
  | nil => exact Nat.zero_le 1
  | cons fragment rest ih =>
      obtain ⟨apart, disjoint⟩ := List.pairwise_cons.1 disjoint
      rw [List.countP_cons]
      by_cases here : contains position fragment
      · have nowhere : rest.countP (contains position) = 0 :=
          List.countP_eq_zero.2 fun other member there => apart other member position ⟨here, there⟩
        rw [nowhere, if_pos here]
      · rw [if_neg here]
        exact ih disjoint

theorem eq_of_contains {other : CryptoFragment} (member : fragment ∈ fragments)
    (otherMember : other ∈ fragments) {position : Nat}
    (here : contains position fragment) (there : contains position other) : fragment = other := by
  by_contra different
  have symmetric : Std.Symm fun fragment other =>
      ∀ position, ¬(contains position fragment ∧ contains position other) :=
    ⟨fun _ _ apart position both => apart position both.symm⟩
  exact List.Pairwise.forall disjoint member otherMember different position ⟨here, there⟩

variable (pieces : ∀ fragment ∈ fragments, IsPiece hello fragment)
  (covers : Covers hello fragments)
include pieces covers

theorem frameLen_of_disjoint : frameLen fragments = hello.length := by
  have once : ∀ position ∈ Finset.range hello.length, fragments.countP (contains position) = 1 := by
    intro position inside
    obtain ⟨fragment, member, within⟩ := covers position (Finset.mem_range.1 inside)
    have present : 0 < fragments.countP (contains position) :=
      List.countP_pos_iff.2 ⟨fragment, member, contains_iff.2 within⟩
    have most := countP_contains_le disjoint position
    omega
  rw [frameLen_eq_sum pieces, Finset.sum_congr rfl once]
  simp

/-- Disjoint pieces that cover the hello, in any order, are searched to its end. -/
theorem spans_of_disjoint (nonempty : ∀ fragment ∈ fragments, 0 < fragment.length) :
    Spans fragments hello.length := by
  obtain ⟨body, assembled⟩ :=
    assemble_finishes (advances_of_nonempty nonempty) (Nat.lt_succ_self fragments.length)
  obtain ⟨reached, inside, -, spans, ended⟩ := assemble_pieces pieces assembled
  by_cases whole : reached = hello.length
  · exact whole ▸ spans
  · -- the piece with the byte at the end of the search begins before it
    obtain ⟨fragment, member, within⟩ := covers reached (by omega)
    have before : fragment.offset < reached := by
      apply Nat.lt_of_le_of_ne within.1
      intro atEnd
      have missing := List.find?_eq_none.1 ended fragment member
      exact missing (beq_iff_eq.2 atEnd)
    -- and so it shares a byte with a piece that the search has taken
    obtain ⟨taken, isTaken, passed⟩ := covered_of_spans spans (reached - 1) (by omega)
    have same := eq_of_contains disjoint member isTaken
      (contains_iff.2 ⟨(by omega : fragment.offset ≤ reached - 1), by omega⟩)
      (contains_iff.2 ⟨passed.1, passed.2.1⟩)
    rw [same] at within
    omega

end Disjoint

variable (protection : Protection)

def carried (packet : List UInt8) : List CryptoFragment :=
  match initialFrames protection packet with
  | .ok frames => frames.2
  | .error _ => []

def Carries (hello packet : List UInt8) : Prop :=
  (∃ frames, initialFrames protection packet = .ok frames) ∧
    ∀ fragment ∈ carried protection packet, IsPiece hello fragment

def received (packets : List (List UInt8)) : List CryptoFragment :=
  packets.flatMap (carried protection)

/-- The calls for the packets of a flow, the newest first. The metadata is carried on. -/
def flow (protection : Protection) (turns : Nat) (metadata : RouteContext) :
    List (List UInt8) → Checked Empty (RouteContext × List (Option SniffError))
  | [] => return (metadata, [])
  | packet :: earlier => do
      let before ← flow protection turns metadata earlier
      let result ← quicClientHello protection turns before.1 packet
      return (before.1.write result.1, result.2 :: before.2)

theorem forall_suffix_cons {α : Type} {first : α} {rest : List α} {P : List α → Prop} :
    (∀ suffix, suffix <:+ first :: rest → P suffix) ↔
      P (first :: rest) ∧ ∀ suffix, suffix <:+ rest → P suffix := by
  simp only [List.suffix_cons_iff, or_imp, forall_and, forall_eq]

section Call

variable {protection : Protection} {hello : List UInt8} {fingerprint : ClientHello}
  {packet : List UInt8} {earlier : List (List UInt8)} {metadata : RouteContext} {turns : Nat}

theorem flow_cons {before : RouteContext × List (Option SniffError)} {result : Answer}
    (flowed : flow protection turns metadata earlier = .ok before)
    (called : quicClientHello protection turns before.1 packet = .ok result) :
    flow protection turns metadata (packet :: earlier) =
      .ok (before.1.write result.1, result.2 :: before.2) := by
  rw [flow, bind_of_eq_ok flowed, bind_of_eq_ok called]
  rfl

theorem received_cons : received protection (packet :: earlier) =
    carried protection packet ++ received protection earlier := rfl

theorem call_eq_sniffHello (carries : Carries protection hello packet)
    (keeps : metadata.sniffContext = received protection earlier) :
    ∃ frameTypeList, (frameTypeList = [] → carried protection packet = []) ∧
      quicClientHello protection turns metadata packet =
        sniffHello turns metadata frameTypeList (received protection (packet :: earlier)) := by
  obtain ⟨frames, framed⟩ := carries.1
  have same : carried protection packet = frames.2 := by
    simp only [carried, framed]
  refine ⟨frames.1, ?_, ?_⟩
  · intro bare
    rw [same, (initialFrames_result framed).2 bare]
  · rw [quicClientHello_of_frames framed, received_cons, same, keeps]

theorem pieces_of_carries {packets : List (List UInt8)}
    (carries : ∀ packet ∈ packets, Carries protection hello packet) :
    ∀ fragment ∈ received protection packets, IsPiece hello fragment := by
  intro fragment member
  obtain ⟨packet, inFlow, inPacket⟩ := List.mem_flatMap.1 member
  exact (carries packet inFlow).2 fragment inPacket

theorem covers_cons (covered : Covers hello (received protection earlier)) :
    Covers hello (received protection (packet :: earlier)) := by
  intro position inside
  obtain ⟨fragment, member, contains⟩ := covered position inside
  exact ⟨fragment, List.mem_append_right _ member, contains⟩

theorem search_of_call (carries : Carries protection hello packet)
    (keeps : metadata.sniffContext = received protection earlier) {result : Answer}
    (called : quicClientHello protection turns metadata packet = .ok result) :
    Advances (received protection (packet :: earlier)) ∧
      ∃ frameTypeList body, assemble turns (received protection (packet :: earlier)) = .ok body ∧
        answer metadata frameTypeList (received protection (packet :: earlier)) body = .ok result := by
  obtain ⟨frameTypeList, -, same⟩ := @call_eq_sniffHello _ _ _ earlier _ turns carries keeps
  rw [same] at called
  obtain ⟨body, assembled, answered⟩ := bind_eq_ok_iff.1 called
  refine ⟨?_, frameTypeList, body, assembled, answered⟩
  by_contra stalls
  rw [assemble_unfinished stalls turns] at assembled
  cases assembled

end Call

section Flow

variable {protection : Protection} {hello : List UInt8} {fingerprint : ClientHello}
  (parsed : parseHandshake hello = .ok fingerprint) {metadata : RouteContext}
  (fresh : metadata.sniffContext = []) {turns : Nat}
include parsed fresh

variable {packets : List (List UInt8)}

section

variable (carries : ∀ packet ∈ packets, Carries protection hello packet)
  (incomplete : ¬Covers hello (received protection packets))
include carries incomplete

omit fresh in
theorem compute_of_incomplete {body : List UInt8}
    (assembled : assemble turns (received protection packets) = .ok body) :
    ∃ problem, compute (record (received protection packets) body) = .error (.error problem) :=
  compute_of_not_makesUp (pieces_of_carries carries) parsed assembled fun makesUp =>
    incomplete (covers_of_spans makesUp.1)

/-- As long as bytes are missing, every call asks for more and keeps all pieces. -/
theorem flow_incomplete {after : RouteContext × List (Option SniffError)}
    (flowed : flow protection turns metadata packets = .ok after) :
    after.2 = List.replicate packets.length (some .needMoreData) ∧
      after.1.sniffContext = received protection packets ∧
        ∀ suffix, suffix <:+ packets → Advances (received protection suffix) := by
  induction packets generalizing after with
  | nil =>
      cases flowed
      refine ⟨rfl, fresh, ?_⟩
      intro suffix isSuffix
      rw [List.suffix_nil.1 isSuffix]
      intro index _ fragment found
      cases found
  | cons packet earlier ih =>
      obtain ⟨before, flowedBefore, rest⟩ := bind_eq_ok_iff.1 flowed
      obtain ⟨result, called, same⟩ := bind_eq_ok_iff.1 rest
      cases same
      have missing : ¬Covers hello (received protection earlier) := fun covered =>
        incomplete (covers_cons covered)
      obtain ⟨carriesNow, carriesBefore⟩ := List.forall_mem_cons.1 carries
      obtain ⟨asked, kept, advanced⟩ := ih carriesBefore missing flowedBefore
      obtain ⟨advances, frameTypeList, body, assembled, answered⟩ :=
        search_of_call carriesNow kept called
      obtain ⟨problem, failed⟩ := compute_of_incomplete parsed carries incomplete assembled
      rw [answer_of_error failed] at answered
      cases answered
      exact ⟨by rw [asked]; rfl, rfl, forall_suffix_cons.2 ⟨advances, advanced⟩⟩

theorem flow_returns
    (advances : ∀ suffix, suffix <:+ packets → Advances (received protection suffix))
    (enough : (received protection packets).length < turns) :
    ∃ after, flow protection turns metadata packets = .ok after := by
  induction packets with
  | nil => exact ⟨_, rfl⟩
  | cons packet earlier ih =>
      have missing : ¬Covers hello (received protection earlier) := fun covered =>
        incomplete (covers_cons covered)
      obtain ⟨carriesNow, carriesBefore⟩ := List.forall_mem_cons.1 carries
      obtain ⟨advancesNow, advancesBefore⟩ := forall_suffix_cons.1 advances
      have fewer : (received protection earlier).length < turns := by
        rw [received_cons, List.length_append] at enough
        omega
      obtain ⟨before, flowedBefore⟩ := ih carriesBefore missing advancesBefore fewer
      obtain ⟨-, kept, -⟩ := flow_incomplete parsed fresh carriesBefore missing flowedBefore
      obtain ⟨body, assembled⟩ := assemble_finishes advancesNow enough
      obtain ⟨problem, failed⟩ := compute_of_incomplete parsed carries incomplete assembled
      obtain ⟨frameTypeList, -, same⟩ := @call_eq_sniffHello _ _ _ earlier _ turns carriesNow kept
      rw [sniffHello_of_body assembled, answer_of_error failed] at same
      exact ⟨_, flow_cons flowedBefore same⟩

end

end Flow

/-- The call for the newest packet, and no earlier one, succeeds with the server name
of the hello. -/
def Reported (metadata : RouteContext) (fingerprint : ClientHello) (last : List UInt8)
    (earlier : List (List UInt8)) : Prop :=
  ∃ turns after, flow protection turns metadata (last :: earlier) = .ok after ∧
    after.2 = none :: List.replicate earlier.length (some .needMoreData) ∧
      after.1.domain = hostname fingerprint.serverName

section Reported

variable {hello : List UInt8} {fingerprint : ClientHello} {protection : Protection}
  {metadata : RouteContext} {last : List UInt8} {earlier : List (List UInt8)}
  (parsed : parseHandshake hello = .ok fingerprint) (fresh : metadata.sniffContext = [])
  (carries : ∀ packet ∈ last :: earlier, Carries protection hello packet)
  (incomplete : ¬Covers hello (received protection earlier))
include parsed fresh carries incomplete

theorem makesUp_of_reported (reported : Reported protection metadata fingerprint last earlier) :
    (∀ suffix, suffix <:+ last :: earlier → Advances (received protection suffix)) ∧
      MakesUp hello (received protection (last :: earlier)) := by
  obtain ⟨turns, after, flowed, answers, -⟩ := reported
  obtain ⟨before, flowedBefore, rest⟩ := bind_eq_ok_iff.1 flowed
  obtain ⟨result, called, same⟩ := bind_eq_ok_iff.1 rest
  cases same
  obtain ⟨carriesLast, carriesBefore⟩ := List.forall_mem_cons.1 carries
  obtain ⟨-, kept, advanced⟩ := flow_incomplete parsed fresh carriesBefore incomplete flowedBefore
  obtain ⟨advances, frameTypeList, body, assembled, answered⟩ :=
    search_of_call carriesLast kept called
  refine ⟨forall_suffix_cons.2 ⟨advances, advanced⟩, ?_⟩
  by_contra partly
  obtain ⟨problem, failed⟩ :=
    compute_of_not_makesUp (pieces_of_carries carries) parsed assembled partly
  rw [answer_of_error failed] at answered
  cases answered
  cases answers

theorem reported_of_makesUp (complete : Covers hello (received protection (last :: earlier)))
    (advances : ∀ suffix, suffix <:+ last :: earlier → Advances (received protection suffix))
    (makesUp : MakesUp hello (received protection (last :: earlier))) :
    Reported protection metadata fingerprint last earlier := by
  obtain ⟨carriesLast, carriesBefore⟩ := List.forall_mem_cons.1 carries
  obtain ⟨advancesNow, advancesBefore⟩ := forall_suffix_cons.1 advances
  have fewer : (received protection earlier).length <
      (received protection (last :: earlier)).length + 1 := by
    rw [received_cons, List.length_append]
    omega
  obtain ⟨before, flowedBefore⟩ :=
    flow_returns parsed fresh carriesBefore incomplete advancesBefore fewer
  obtain ⟨asked, kept, -⟩ := flow_incomplete parsed fresh carriesBefore incomplete flowedBefore
  obtain ⟨body, assembled⟩ := assemble_finishes advancesNow (Nat.lt_succ_self _)
  have computed :=
    compute_of_makesUp (pieces_of_carries carries) parsed assembled advancesNow makesUp
  obtain ⟨frameTypeList, bare, same⟩ := @call_eq_sniffHello _ _ _ earlier _
    ((received protection (last :: earlier)).length + 1) carriesLast kept
  -- the last packet brought bytes, so it has frames
  have framed : frameTypeList ≠ [] := by
    intro unframed
    apply incomplete
    rwa [received_cons, bare unframed] at complete
  obtain ⟨client, detected⟩ :=
    (@detectClient_returns before.1.client frameTypeList framed fingerprint).eq_ok
  rw [sniffHello_of_body assembled, answer_of_fingerprint computed, bind_of_eq_ok detected] at same
  refine ⟨_, _, flow_cons flowedBefore same, ?_, rfl⟩
  rw [asked]

omit parsed fresh carries incomplete in
theorem advances_of_suffix
    (nonempty : ∀ fragment ∈ received protection (last :: earlier), 0 < fragment.length) :
    ∀ suffix, suffix <:+ last :: earlier → Advances (received protection suffix) := by
  intro suffix isSuffix
  apply advances_of_nonempty
  intro fragment member
  obtain ⟨packet, inFlow, inPacket⟩ := List.mem_flatMap.1 member
  exact nonempty fragment (List.mem_flatMap.2 ⟨packet, isSuffix.subset inFlow, inPacket⟩)

/-- If no byte is sent twice, a hello of less than 2^16 bytes is reported whatever
the order of its pieces. -/
theorem reported_of_disjoint (complete : Covers hello (received protection (last :: earlier)))
    (short : hello.length < 65536)
    (nonempty : ∀ fragment ∈ received protection (last :: earlier), 0 < fragment.length)
    (disjoint : Disjoint (received protection (last :: earlier))) :
    Reported protection metadata fingerprint last earlier := by
  have pieces := pieces_of_carries carries
  apply reported_of_makesUp parsed fresh carries incomplete complete (advances_of_suffix nonempty)
  refine ⟨spans_of_disjoint disjoint pieces complete nonempty, ?_⟩
  rw [announced, frameLen_of_disjoint disjoint pieces complete]
  exact Nat.mod_eq_of_lt short

end Reported

/-- For every hello and every flow of pieces of it, whose last packet completes the
hello: the call for that packet, and no earlier one, reports the server name exactly
when no search comes to an empty piece, the pieces that the last search takes follow
each other to the end, and all lengths add up to that of the hello, modulo 2^16. -/
theorem hello_reported_iff {hello : List UInt8} {fingerprint : ClientHello}
    (parsed : parseHandshake hello = .ok fingerprint) (protection : Protection)
    (metadata : RouteContext) (fresh : metadata.sniffContext = []) (last : List UInt8)
    (earlier : List (List UInt8))
    (carries : ∀ packet ∈ last :: earlier, Carries protection hello packet)
    (incomplete : ¬Covers hello (received protection earlier))
    (complete : Covers hello (received protection (last :: earlier))) :
    Reported protection metadata fingerprint last earlier ↔
      (∀ suffix, suffix <:+ last :: earlier → Advances (received protection suffix)) ∧
        Spans (received protection (last :: earlier)) hello.length ∧
          frameLen (received protection (last :: earlier)) % 65536 = hello.length := by
  constructor
  · exact makesUp_of_reported parsed fresh carries incomplete
  · rintro ⟨advances, makesUp⟩
    exact reported_of_makesUp parsed fresh carries incomplete complete advances makesUp

def sampleHello : List UInt8 :=
  [1, 0, 0, 50, 3, 3] ++ List.replicate 32 0 ++
    [0, 0, 0, 0, 0, 10, 0, 0, 0, 6, 0, 4, 0, 0, 1, 97]

def sampleFingerprint : ClientHello := ⟨0x0303, [], [0], [], [], [], [], [97]⟩

def firstPart : List UInt8 := initialPacket ([0x06, 0, 20] ++ sampleHello.take 20)
def secondPart : List UInt8 := initialPacket ([0x06, 20, 34] ++ sampleHello.drop 20)

theorem firstPart_carried : (∃ frames, initialFrames transparent firstPart = .ok frames) ∧
    carried transparent firstPart = [⟨0, 20, sampleHello.take 20⟩] :=
  ⟨⟨([0x06], [⟨0, 20, sampleHello.take 20⟩]), by decide +kernel⟩, by decide +kernel⟩

theorem secondPart_carried : (∃ frames, initialFrames transparent secondPart = .ok frames) ∧
    carried transparent secondPart = [⟨20, 34, sampleHello.drop 20⟩] :=
  ⟨⟨([0x06], [⟨20, 34, sampleHello.drop 20⟩]), by decide +kernel⟩, by decide +kernel⟩

theorem firstPart_carries : Carries transparent sampleHello firstPart := by
  refine ⟨firstPart_carried.1, ?_⟩
  simp only [firstPart_carried.2, List.mem_singleton, forall_eq]
  exact ⟨by decide, rfl⟩

theorem secondPart_carries : Carries transparent sampleHello secondPart := by
  refine ⟨secondPart_carried.1, ?_⟩
  simp only [secondPart_carried.2, List.mem_singleton, forall_eq]
  exact ⟨by decide, rfl⟩

/-- In two packets that arrive in the wrong order, the hello is reported. -/
theorem swapped_hello_reported :
    Reported transparent .zero sampleFingerprint firstPart [secondPart] := by
  have carries : ∀ packet ∈ [firstPart, secondPart], Carries transparent sampleHello packet := by
    simp only [List.mem_cons, List.not_mem_nil, or_false, forall_eq_or_imp, forall_eq]
    exact ⟨firstPart_carries, secondPart_carries⟩
  have complete : Covers sampleHello (received transparent [firstPart, secondPart]) := by
    decide +kernel
  have nonempty : ∀ fragment ∈ received transparent [firstPart, secondPart], 0 < fragment.length := by
    decide +kernel
  have disjoint : Disjoint (received transparent [firstPart, secondPart]) := by
    simp only [received, List.flatMap_cons, List.flatMap_nil, firstPart_carried.2,
      secondPart_carried.2, Disjoint, List.cons_append, List.nil_append, List.pairwise_pair, contains_iff]
    omega
  refine (hello_reported_iff (by decide +kernel : parseHandshake sampleHello = .ok sampleFingerprint)
    transparent .zero rfl firstPart [secondPart] carries (by decide +kernel) complete).2 ?_
  exact ⟨advances_of_suffix nonempty,
    spans_of_disjoint disjoint (pieces_of_carries carries) complete nonempty, by decide +kernel⟩

/-- In two packets that arrive in order. -/
theorem reported_of_disjoint_parts :
    Reported transparent .zero sampleFingerprint secondPart [firstPart] := by
  refine @reported_of_disjoint sampleHello _ _ _ _ _ (by decide +kernel) rfl ?_ (by decide +kernel)
    (by decide +kernel) (by decide) (by decide +kernel) ?_
  · simp only [List.forall_mem_cons]
    exact ⟨secondPart_carries, firstPart_carries, nofun⟩
  · simp only [received, List.flatMap_cons, List.flatMap_nil, firstPart_carried.2,
      secondPart_carried.2, Disjoint, List.cons_append, List.nil_append, List.pairwise_pair, contains_iff]
    omega

/-- The first part arrives twice: all bytes are there, and no call reports the hello. -/
theorem retransmitted_hello_not_reported :
    Covers sampleHello (received transparent [secondPart, firstPart, firstPart]) ∧
      ¬Covers sampleHello (received transparent [firstPart, firstPart]) ∧
        ¬Reported transparent .zero sampleFingerprint secondPart [firstPart, firstPart] := by
  have incomplete : ¬Covers sampleHello (received transparent [firstPart, firstPart]) := by
    decide +kernel
  refine ⟨by decide +kernel, incomplete, ?_⟩
  intro reported
  have carries : ∀ packet ∈ [secondPart, firstPart, firstPart],
      Carries transparent sampleHello packet := by
    simp only [List.mem_cons, List.not_mem_nil, or_false, forall_eq_or_imp, forall_eq]
    exact ⟨secondPart_carries, firstPart_carries, firstPart_carries⟩
  have makesUp := makesUp_of_reported
    (by decide +kernel : parseHandshake sampleHello = .ok sampleFingerprint) rfl carries incomplete reported
  exact absurd makesUp.2.2 (by decide +kernel)

end SideraCore.Sniff
