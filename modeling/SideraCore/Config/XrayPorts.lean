import SideraCore.Rule.RouteRule

/-!
Owns the port conditions of Xray routing rules: their translation, their meaning, and
that the translation keeps it. The meaning is that of the text: terms with commas
between them, each a decimal number or two with a hyphen between them, and white
space anywhere around a number.
-/

namespace SideraCore.Config

open Rule Control

def isSpace (char : Char) : Bool :=
  let code := char.toNat
  (9 ≤ code && code ≤ 13) || code = 0x20 || code = 0x85 || code = 0xA0 || code = 0x1680 ||
    (0x2000 ≤ code && code ≤ 0x200A) || code = 0x2028 || code = 0x2029 || code = 0x202F ||
    code = 0x205F || code = 0x3000

def trimSpace (text : List Char) : List Char :=
  ((text.dropWhile isSpace).reverse.dropWhile isSpace).reverse

theorem mem_dropWhile_isSpace {char : Char} {text : List Char} (member : char ∈ text)
    (dark : isSpace char = false) : char ∈ text.dropWhile isSpace := by
  rw [← List.takeWhile_append_dropWhile (p := isSpace) (l := text), List.mem_append] at member
  refine member.resolve_left fun blank => ?_
  rw [List.mem_takeWhile_imp blank] at dark
  cases dark

theorem mem_trimSpace {char : Char} {text : List Char} (member : char ∈ text)
    (dark : isSpace char = false) : char ∈ trimSpace text := by
  have kept := mem_dropWhile_isSpace member dark
  exact List.mem_reverse.2 (mem_dropWhile_isSpace (List.mem_reverse.2 kept) dark)

/-- The JSON values of a port condition: none or `null`, a `uint16`, a string, or
another. -/
inductive RawPort where
  | missing
  | number (value : UInt16)
  | text (expression : String)
  | other
deriving DecidableEq, Repr

inductive PortItem where
  | single (value : Nat)
  | range (first last : Nat)
deriving DecidableEq, Repr

namespace PortItem

def port? : PortItem → Option UInt16
  | .single value => some (.ofNat value)
  | .range _ _ => none

def range? : PortItem → Option String
  | .single _ => none
  | .range first last => some (first.repr ++ ":" ++ last.repr)

end PortItem

def portItems (expression : String) : List (List Char) :=
  ((expression.toList.splitOn ',').map trimSpace).filter fun item => !item.isEmpty

def parsePortItem (item : List Char) : Except String PortItem :=
  if item.contains '-' then
    match item.splitOn '-' with
    | [start, finish] =>
        match parseUint (.ofList (trimSpace start)), parseUint (.ofList (trimSpace finish)) with
        | .ok first, .ok last =>
            if first = 0 ∨ last < first then throw ("invalid port range: " ++ .ofList item)
            else pure (.range first last)
        | _, _ => throw ("invalid port range: " ++ .ofList item)
    | _ => throw ("invalid port range: " ++ .ofList item)
  else
    match parseUint (.ofList item) with
    | .ok value =>
        if value = 0 then throw ("invalid port: " ++ .ofList item) else pure (.single value)
    | .error _ => throw ("invalid port: " ++ .ofList item)

def appendPortMatch : RawPort → Except String (List UInt16 × List String)
  | .missing => pure ([], [])
  | .number value => pure ([value], [])
  | .other => throw "port list must be a number or string"
  | .text expression => do
      let items ← (portItems expression).mapM parsePortItem
      if items.isEmpty then throw "empty port expression has no exact Sidera equivalent"
      return (items.filterMap PortItem.port?, items.filterMap PortItem.range?)

/-- A decimal number with white space around it. -/
def Denotes (text : List Char) (value : Nat) : Prop :=
  trimSpace text ≠ [] ∧ (∀ digit ∈ trimSpace text, digit.isDigit = true) ∧
    Nat.ofDigitChars 10 (trimSpace text) 0 = value

/-- A term of a port expression: one port, or a first and a last one. -/
def TermContains (term : List Char) (port : UInt16) : Prop :=
  Denotes term port.toNat ∨
    ∃ start finish first last, trimSpace term = start ++ '-' :: finish ∧ Denotes start first ∧
      Denotes finish last ∧ first ≤ port.toNat ∧ port.toNat ≤ last

def RawPort.Contains : RawPort → UInt16 → Prop
  | .number value, port => port = value
  | .text expression, port => ∃ term ∈ expression.toList.splitOn ',', TermContains term port
  | .missing, _ => False
  | .other, _ => False

section Numbers

variable {text : List Char} {value other : Nat}

theorem Denotes.unique (denotes : Denotes text value) (again : Denotes text other) : value = other :=
  denotes.2.2.symm.trans again.2.2

theorem Denotes.no_hyphen (denotes : Denotes text value) : '-' ∉ trimSpace text := by
  intro member
  cases denotes.2.1 '-' member

theorem Denotes.not_mem (denotes : Denotes text value) : '-' ∉ text :=
  fun member => denotes.no_hyphen (mem_trimSpace member (by decide))

theorem parseUintDigits_inv {source : String} {digits : List Char} {start : Nat}
    (parsed : parseUintDigits source start digits = .ok value) :
    (∀ digit ∈ digits, digit.isDigit = true) ∧ Nat.ofDigitChars 10 digits start = value := by
  induction digits generalizing start with
  | nil => exact ⟨by simp, pure_eq_ok_iff.1 parsed⟩
  | cons digit rest ih =>
      rw [parseUintDigits, ite_throw_eq_ok_iff, ite_throw_eq_ok_iff] at parsed
      obtain ⟨isDigit, -, parsed⟩ := parsed
      obtain ⟨decimal, read⟩ := ih parsed
      exact ⟨List.forall_mem_cons.2 ⟨by simpa using isDigit, decimal⟩, by rw [Nat.ofDigitChars_cons, read]⟩

theorem denotes_of_parseUint (parsed : parseUint (.ofList (trimSpace text)) = .ok value) :
    Denotes text value := by
  rw [parseUint, ite_throw_eq_ok_iff, String.toList_ofList] at parsed
  obtain ⟨filled, parsed⟩ := parsed
  exact ⟨fun blank => filled (by rw [blank]), parseUintDigits_inv parsed⟩

end Numbers

variable {term : List Char} {item : PortItem}

theorem parsePortItem_spec (parsed : parsePortItem (trimSpace term) = .ok item) :
    (∃ value < 2 ^ 16, item = .single value ∧ Denotes term value) ∨
      ∃ first < 2 ^ 16, ∃ last < 2 ^ 16, item = .range first last ∧ ∃ start finish,
        trimSpace term = start ++ '-' :: finish ∧ Denotes start first ∧ Denotes finish last := by
  unfold parsePortItem at parsed
  split at parsed
  · split at parsed
    · rename_i start finish divided
      split at parsed
      · rename_i first last firstParsed lastParsed
        rw [ite_throw_eq_ok_iff] at parsed
        have whole : trimSpace term = start ++ '-' :: finish := by
          rw [← @List.intercalate_splitOn _ (trimSpace term) _ _ '-', divided, List.intercalate_cons_cons,
            List.intercalate_singleton, List.append_assoc, List.singleton_append]
        right
        exact ⟨first, parseUint_lt firstParsed, last, parseUint_lt lastParsed,
          (pure_eq_ok_iff.1 parsed.2).symm, start, finish, whole, denotes_of_parseUint firstParsed,
          denotes_of_parseUint lastParsed⟩
      · cases parsed
    · cases parsed
  · split at parsed
    · rename_i value valueParsed
      rw [ite_throw_eq_ok_iff] at parsed
      left
      exact ⟨value, parseUint_lt valueParsed, (pure_eq_ok_iff.1 parsed.2).symm,
        denotes_of_parseUint valueParsed⟩
    · cases parsed

theorem single_termContains {value : Nat} (denotes : Denotes term value) (port : UInt16) :
    TermContains term port ↔ port.toNat = value := by
  constructor
  · rintro (single | ⟨start, finish, first, last, divided, -⟩)
    · exact single.unique denotes
    · refine absurd ?_ denotes.no_hyphen
      simp [divided]
  · rintro rfl
    exact .inl denotes

theorem range_termContains {start finish : List Char} {first last : Nat}
    (divided : trimSpace term = start ++ '-' :: finish) (left : Denotes start first)
    (right : Denotes finish last) (port : UInt16) :
    TermContains term port ↔ first ≤ port.toNat ∧ port.toNat ≤ last := by
  constructor
  · rintro (single | ⟨other, rest, least, most, again, denotes, denotesRest, bounds⟩)
    · refine absurd ?_ single.no_hyphen
      simp [divided]
    · -- there is one place to divide the term at
      obtain ⟨rfl, -, rfl⟩ :=
        (List.append_cons_inj_of_notMem left.not_mem right.not_mem).1 (divided.symm.trans again)
      rw [left.unique denotes, right.unique denotesRest]
      exact bounds
  · exact fun bounds => .inr ⟨start, finish, first, last, divided, left, right, bounds⟩

/-- The entry that a term becomes accepts the ports of the term. -/
theorem translated_iff_term (parsed : parsePortItem (trimSpace term) = .ok item) (port : UInt16) :
    (item.port? = some port ∨ ∃ entry, item.range? = some entry ∧
        ∃ range, parsePortRange entry = .ok range ∧ range.1 ≤ port ∧ port ≤ range.2) ↔
      TermContains term port := by
  obtain ⟨value, small, rfl, denotes⟩ |
    ⟨first, firstSmall, last, lastSmall, rfl, start, finish, divided, left, right⟩ :=
      parsePortItem_spec parsed
  · have read : (UInt16.ofNat value).toNat = value := UInt16.toNat_ofNat_of_lt small
    simp only [PortItem.port?, PortItem.range?, Option.some.injEq, reduceCtorEq, false_and,
      exists_false, or_false]
    rw [single_termContains denotes, ← UInt16.toNat_inj, read, eq_comm]
  · have readFirst : (UInt16.ofNat first).toNat = first := UInt16.toNat_ofNat_of_lt firstSmall
    have readLast : (UInt16.ofNat last).toNat = last := UInt16.toNat_ofNat_of_lt lastSmall
    simp only [PortItem.port?, PortItem.range?, Option.some.injEq, reduceCtorEq, false_or,
      exists_eq_left', parsePortRange_repr firstSmall lastSmall, Except.ok.injEq]
    rw [range_termContains divided left right, UInt16.le_iff_toNat_le, UInt16.le_iff_toNat_le, readFirst,
      readLast]

theorem TermContains.filled {port : UInt16} (contains : TermContains term port) : trimSpace term ≠ [] := by
  rcases contains with single | ⟨start, finish, first, last, divided, -⟩
  · exact single.1
  · simp [divided]

theorem exists_mem_filterMap_iff {α β : Type} (select : α → Option β) (list : List α)
    (holds : β → Prop) :
    (∃ result ∈ list.filterMap select, holds result) ↔
      ∃ element ∈ list, ∃ result, select element = some result ∧ holds result :=
  exists_mem_iff_of_mem_iff (fun _ => List.mem_filterMap) holds

/-- The terms that are left out are blank and contain no port. -/
theorem matchesPort_iff_contains {expression : String} {items : List PortItem}
    (parsed : (portItems expression).mapM parsePortItem = .ok items) (port : UInt16) :
    MatchesPort (items.filterMap PortItem.port?) (items.filterMap PortItem.range?) port ↔
      (RawPort.text expression).Contains port := by
  have listed_iff {part : List Char} : part ∈ portItems expression ↔
      (∃ term ∈ expression.toList.splitOn ',', trimSpace term = part) ∧ part ≠ [] := by
    simp [portItems]
  rw [MatchesPort, List.mem_filterMap, exists_mem_filterMap_iff, ← exists_or]
  simp only [← and_or_left]
  rw [exists_mem_iff_of_mem_iff (mem_iff_of_mapM_eq_ok parsed)]
  constructor
  · rintro ⟨part, listed, item, read, contains⟩
    obtain ⟨⟨term, member, rfl⟩, -⟩ := listed_iff.1 listed
    exact ⟨term, member, (translated_iff_term read port).1 contains⟩
  · rintro ⟨term, member, contains⟩
    have listed := listed_iff.2 ⟨⟨term, member, rfl⟩, contains.filled⟩
    obtain ⟨item, read⟩ := exists_of_mapM_eq_ok parsed listed
    exact ⟨_, listed, item, read, (translated_iff_term read port).2 contains⟩

/-- **A port condition matches exactly the ports of its expression.** -/
theorem appendPortMatch_spec {raw : RawPort} {ports : List UInt16 × List String}
    (translated : appendPortMatch raw = .ok ports) (port : UInt16) :
    (ports.1 ≠ [] ∨ ports.2 ≠ [] ↔ raw ≠ .missing) ∧
      (MatchesPort ports.1 ports.2 port ↔ raw.Contains port) := by
  cases raw with
  | missing | number value =>
      rw [← pure_eq_ok_iff.1 translated]
      simp [MatchesPort, RawPort.Contains]
  | other => cases translated
  | text expression =>
      obtain ⟨items, parsed, translated⟩ := bind_eq_ok_iff.1 translated
      simp only [throw_bind] at translated
      rw [ite_throw_eq_ok_iff] at translated
      obtain ⟨filled, translated⟩ := translated
      rw [← pure_eq_ok_iff.1 translated]
      constructor
      · obtain ⟨item, member⟩ := List.exists_mem_of_ne_nil items (by simpa using filled)
        simp only [ne_eq, reduceCtorEq, not_false_eq_true, iff_true]
        cases item with
        | single value => exact .inl (List.ne_nil_of_mem (List.mem_filterMap.2 ⟨_, member, rfl⟩))
        | range first last => exact .inr (List.ne_nil_of_mem (List.mem_filterMap.2 ⟨_, member, rfl⟩))
      · exact matchesPort_iff_contains parsed port

end SideraCore.Config
