import Nl6.Wire.VarBinds

/-! # The v1/v2c envelope readers

Four functions walk the envelope of a v1/v2c message: `getPDUType` and `parseIncomingRequest` step
leniently over fields they cannot read, `requestVarBindListPos` and `parseGetBulkParams` give up at
the first one. Each is total (`getPDUType_returns`, `parseIncomingRequest_spec`,
`requestVarBindListPos_spec`, `parseGetBulkParams_spec`).
-/

namespace Nl6

open Numeral Checked Ber

/-! ### The strict walkers -/

/-- The header of a field that must carry the given tag: its length and where its contents start. -/
def readField (data : Bytes) (pos : Int) (tag : UInt8) : Checked (Option (Int × Int)) := do
  if pos ≥ data.length then return none
  let first ← index data pos
  if first ≠ tag then return none
  let (length, newPos) ← parseLength data (pos + 1)
  if length < 0 then return none
  return some (length, newPos)

/-- The cursor behind a field that must carry the given tag. It may lie outside the buffer. -/
def skipField (data : Bytes) (pos : Int) (tag : UInt8) : Checked (Option Int) := do
  let some (length, newPos) ← readField data pos tag | return none
  return some (newPos + length)

/-- The first half of `requestVarBindListPos`: the offset of the PDU tag. -/
def requestPDUPos (data : Bytes) : Checked (Option Int) := do
  let some (_, pos) ← readField data 0 asn1Sequence | return none
  let some pos ← skipField data pos asn1Integer | return none
  let some pos ← skipField data pos asn1OctetString | return none
  if pos ≥ data.length then return none
  return some pos

/-- `requestVarBindListPos`: the offset of the variable-bindings list, and where the PDU's declared
length says it ends. -/
def requestVarBindListPos (data : Bytes) : Checked (Option (Int × Int)) := do
  let some pos ← requestPDUPos data | return none
  let (pduLen, newPos) ← parseLength data (pos + 1)
  if pduLen < 0 then return none
  let pduEnd := newPos + pduLen
  -- request-id, then the two integers of the PDU
  let some pos ← skipField data newPos asn1Integer | return none
  let some pos ← skipField data pos asn1Integer | return none
  let some pos ← skipField data pos asn1Integer | return none
  return some (pos, pduEnd)

/-- `parseAllOIDsFromRequest`: the names of the request, or nothing when its list is malformed. -/
def parseAllOIDsFromRequest (data : Bytes) : Checked (Option (List Bytes)) := do
  let some (pos, _) ← requestVarBindListPos data | return some []
  parseVarBindNames data pos

/-- A parameter of a GETBULK: what was read, unless it is missing or negative. -/
def natOr (default : Int) : Option Int → Int
  | some v => if v ≥ 0 then v else default
  | none => default

/-- `parseGetBulkParams`: non-repeaters and max-repetitions. Both containers bound what is read
inside them. -/
def parseGetBulkParams (data : Bytes) : Checked (Int × Int) := do
  let some (outerLen, pos) ← readField data 0 asn1Sequence | return (0, 10)
  if pos + outerLen > data.length then return (0, 10)
  let data ← slice data 0 (pos + outerLen)
  let some pos ← skipField data pos asn1Integer | return (0, 10)
  let some pos ← skipField data pos asn1OctetString | return (0, 10)
  let some (pduLen, pos) ← readField data pos asn1GetBulk | return (0, 10)
  if pos + pduLen > data.length then return (0, 10)
  let data ← slice data 0 (pos + pduLen)
  let some pos ← skipField data pos asn1Integer | return (0, 10)
  let some (nonRepLen, pos) ← readField data pos asn1Integer | return (0, 10)
  let nonRepeaters := natOr 0 (← parseBERInt data pos nonRepLen)
  let some (maxRepLen, pos) ← readField data (pos + nonRepLen) asn1Integer
    | return (nonRepeaters, 10)
  let maxRepetitions := natOr 10 (← parseBERInt data pos maxRepLen)
  return (nonRepeaters, maxRepetitions)

/-! ### The lenient walkers -/

/-- A field the lenient readers look into only if its tag stands at the cursor: what is found at its
length and contents, or what stands for a missing field. -/
def lenientField {α : Type} (data : Bytes) (pos : Int) (tag : UInt8) (missing : α)
    (found : Int → Int → Checked α) : Checked α := do
  if pos ≥ data.length then return missing
  let first ← index data pos
  if first ≠ tag then return missing
  let (length, newPos) ← parseLength data (pos + 1)
  found length newPos

/-- `getPDUType`'s step over the version. -/
def skipVersion (data : Bytes) (pos : Int) : Checked Int :=
  lenientField data pos asn1Integer pos fun length newPos =>
    .ok (if length > 0 then newPos + length else newPos)

/-- `getPDUType`'s step over the community. -/
def skipCommunity (data : Bytes) (pos : Int) : Checked Int :=
  lenientField data pos asn1OctetString pos fun length newPos =>
    .ok (if length ≥ 0 ∧ newPos + length ≤ data.length then newPos + length else newPos)

def getPDUType (data : Bytes) : Checked UInt8 := do
  if data.length < 10 then return asn1GetRequest
  let first ← index data 0
  if first ≠ asn1Sequence then return asn1GetRequest
  let (outerLen, pos) ← parseLength data 1
  if outerLen < 0 then return asn1GetRequest
  let pos ← skipVersion data pos
  let pos ← skipCommunity data pos
  if pos < data.length then index data pos else return asn1GetRequest

def servedPDUTag (tag : UInt8) : Bool :=
  tag = asn1GetRequest || tag = asn1GetNext || tag = asn1GetBulk || tag = asn1SetRequest

structure SNMPRequest where
  community : Bytes
  requestID : Int
  oid : Bytes
  version : Int
  communityParsed : Bool
  deriving DecidableEq, Repr

/-- What `parseIncomingRequest` starts from. -/
def SNMPRequest.initial : SNMPRequest :=
  ⟨ascii "public", 123, ascii ".1.3.6.1.2.1.1.1.0", 1, false⟩

/-- `parseIncomingRequest`'s reading of the version and of the request-id: the value, if an INTEGER
with a readable value stands there, and the cursor behind what was stepped over. -/
def readIntegerField (data : Bytes) (pos : Int) : Checked (Option Int × Int) :=
  lenientField data pos asn1Integer (none, pos) fun length newPos => do
    let value ← parseBERInt data newPos length
    return (value, if length > 0 then newPos + length else newPos)

/-- `parseIncomingRequest`'s reading of the community. -/
def readCommunityField (data : Bytes) (pos : Int) : Checked (Option Bytes × Int) :=
  lenientField data pos asn1OctetString (none, pos) fun length newPos => do
    if length ≥ 0 ∧ newPos + length ≤ data.length then
      let community ← slice data newPos (newPos + length)
      return (some community, newPos + length)
    else return (none, newPos)

/-- `parseIncomingRequest`'s step over error-status or error-index. -/
def skipStatusField (data : Bytes) (pos : Int) : Checked Int :=
  lenientField data pos asn1Integer pos fun length newPos =>
    .ok (if length ≥ 0 then newPos + length else pos + 1)

/-- `parseIncomingRequest`'s step into a SEQUENCE, if one stands there. -/
def enterSequence (data : Bytes) (pos : Int) : Checked (Option Int) := do
  if pos ≥ data.length then return none
  let tag ← index data pos
  if tag ≠ asn1Sequence then return none
  return some (pos + 1 + skipLength (← slice data (pos + 1) data.length))

/-- `parseIncomingRequest`'s reading of a name. -/
def readName (data : Bytes) (pos : Int) : Checked (Option Bytes) :=
  lenientField data pos asn1ObjectID none fun oidLen pos => do
    if oidLen > 0 ∧ pos + oidLen ≤ data.length then
      let oid ← decodeOID (← slice data pos (pos + oidLen))
      return if oid ≠ [] then some oid else none
    else return none

/-- `parseIncomingRequest`'s reading of the first name of the list. -/
def readFirstName (data : Bytes) (pos : Int) : Checked (Option Bytes) := do
  let some pos ← enterSequence data pos | return none
  let some pos ← enterSequence data pos | return none
  readName data pos

/-- `parseIncomingRequest` behind a served PDU tag. -/
def parseIncomingPDU (data : Bytes) (pos : Int) (req : SNMPRequest) : Checked SNMPRequest := do
  let (pduLen, pos) ← parseLength data pos
  if pduLen < 0 then return req
  let (requestID, pos) ← readIntegerField data pos
  let pos ← skipStatusField data pos
  let pos ← skipStatusField data pos
  let oid ← readFirstName data pos
  return { req with requestID := requestID.getD req.requestID, oid := oid.getD req.oid }

/-- The one place that takes the community from the datagram, and so the one that flags it. -/
def SNMPRequest.withCommunity (req : SNMPRequest) : Option Bytes → SNMPRequest
  | some community => { req with community, communityParsed := true }
  | none => req

def parseIncomingRequest (data : Bytes) : Checked SNMPRequest := do
  if data.length < 10 then return .initial
  let first ← index data 0
  if first ≠ asn1Sequence then return .initial
  let (outerLen, pos) ← parseLength data 1
  if outerLen < 0 then return .initial
  let (version, pos) ← readIntegerField data pos
  let req := { SNMPRequest.initial with version := version.getD SNMPRequest.initial.version }
  let (community, pos) ← readCommunityField data pos
  let req := req.withCommunity community
  if pos ≥ data.length then return req
  let tag ← index data pos
  if servedPDUTag tag then parseIncomingPDU data (pos + 1) req else return req

/-! ### Fields -/

section Fields

variable {pos : Int} {bytes contents data rest : Bytes} {tag : UInt8}

/-- **A field.** On every buffer the reader returns, and a header it reports is one. -/
theorem readField_spec (data : Bytes) (nonneg : 0 ≤ pos) (tag : UInt8) :
    Yields (readField data pos tag) fun result => ∀ length body, result = some (length, body) →
      0 ≤ length ∧ pos + 2 ≤ body ∧ body ≤ data.length ∧
      (∃ octets rest, IsLength octets length.toNat ∧ At data pos (tag :: (octets ++ rest)) ∧
        body = pos + 1 + octets.length) ∧
      (body + length ≤ data.length → ∃ contents bytes rest, (contents.length : Int) = length ∧
        IsTlv tag contents bytes ∧ At data pos (bytes ++ rest) ∧ At data body (contents ++ rest) ∧
        body + length = pos + bytes.length) := by
  rw [readField]
  refine .guard nofun fun inside => ?_
  obtain ⟨first, behind, here⟩ := At.of_lt nonneg (not_le.mp inside)
  refine (Yields.of_eq here.index).bind ?_
  rintro _ rfl
  refine .guard nofun fun tagged => ?_
  obtain rfl : first = tag := not_not.mp tagged
  refine (element_spec here).bind ?_
  rintro ⟨length, body⟩ ⟨onward, bodyInside, read⟩
  refine .guard nofun fun natural => .ok ?_
  rintro _ _ ⟨⟩
  obtain ⟨-, ⟨octets, rest, spelled, headerAt, rfl⟩, element⟩ := read.resolve_left (by omega)
  have positive := List.length_pos_iff.mpr spelled.ne_nil
  exact ⟨not_lt.mp natural, by omega, bodyInside, ⟨octets, rest, spelled, headerAt, rfl⟩, element⟩

theorem readField_at (here : At data pos (bytes ++ rest)) (element : IsTlv tag contents bytes) :
    ∃ body, readField data pos tag = .ok (some ((contents.length : Int), body)) ∧
      At data body (contents ++ rest) ∧ body + contents.length = pos + bytes.length := by
  obtain ⟨body, tagRead, lengthRead, onward, contentsAt, ends⟩ := element_at here element
  have total := contentsAt.length_eq
  have inside : ¬ pos ≥ data.length := by omega
  refine ⟨body, ?_, contentsAt, ends⟩
  simp [readField, inside, tagRead, lengthRead, not_lt.mpr]

theorem skipField_at (here : At data pos (bytes ++ rest)) (element : IsTlv tag contents bytes) :
    skipField data pos tag = .ok (some (pos + bytes.length)) := by
  obtain ⟨body, read, -, ends⟩ := readField_at here element
  simp [skipField, read, ends]

theorem skipField_spec (data : Bytes) (nonneg : 0 ≤ pos) (tag : UInt8) :
    Yields (skipField data pos tag) fun result => ∀ next, result = some next →
      pos + 2 ≤ next ∧ (next ≤ data.length → ∃ contents bytes rest, IsTlv tag contents bytes ∧
        At data pos (bytes ++ rest) ∧ next = pos + bytes.length) := by
  rw [skipField]
  refine (readField_spec data nonneg tag).andThen (.ok nofun) ?_
  rintro ⟨length, body⟩ read
  obtain ⟨natural, onward, -, -, element⟩ := read length body rfl
  refine .ok ?_
  rintro _ ⟨⟩
  refine ⟨by omega, fun fits => ?_⟩
  obtain ⟨contents, bytes, rest, -, isElement, bytesAt, -, ends⟩ := element fits
  exact ⟨contents, bytes, rest, isElement, bytesAt, ends⟩

/-- The header of a container is read whether or not the container fits the buffer. -/
theorem readField_header {octets : Bytes} {length : Nat}
    (here : At data pos (tag :: (octets ++ rest))) (spelled : IsLength octets length) :
    readField data pos tag = .ok (some ((length : Int), pos + 1 + octets.length)) := by
  have inside : ¬ pos ≥ data.length := not_le.mpr here.lt_length
  simp [readField, inside, here.index, parseLength_at here.step spelled, not_lt.mpr]

end Fields

/-! ### The message header -/

/-- What stands in front of the PDU of a v1/v2c message: the outer SEQUENCE's length, the version
and the community. -/
structure Header where
  outer : Bytes
  outerLength : Nat
  isOuter : IsLength outer outerLength
  version : Bytes
  versionBytes : Bytes
  isVersion : IsTlv asn1Integer version versionBytes
  community : Bytes
  communityBytes : Bytes
  isCommunity : IsTlv asn1OctetString community communityBytes

def Header.bytes (h : Header) : Bytes :=
  asn1Sequence :: (h.outer ++ (h.versionBytes ++ h.communityBytes))

def Header.versionPos (h : Header) : Int := 1 + h.outer.length

def Header.communityPos (h : Header) : Int := h.versionPos + h.versionBytes.length

def Header.pduPos (h : Header) : Int := h.communityPos + h.communityBytes.length

variable (h : Header) (rest : Bytes)

theorem Header.at_start :
    At (h.bytes ++ rest) 0 (asn1Sequence :: (h.outer ++ (h.versionBytes ++ (h.communityBytes ++ rest)))) := by
  have start := At.start (h.bytes ++ rest)
  simpa [Header.bytes] using start

theorem Header.at_version :
    At (h.bytes ++ rest) h.versionPos (h.versionBytes ++ (h.communityBytes ++ rest)) := by
  have moved := (h.at_start rest).step.advance
  simpa [versionPos] using moved

theorem Header.at_community :
    At (h.bytes ++ rest) h.communityPos (h.communityBytes ++ rest) :=
  (h.at_version rest).advance

theorem Header.at_pdu : At (h.bytes ++ rest) h.pduPos rest :=
  (h.at_community rest).advance

/-- The parts of a header, found one behind the other, make up a header. -/
theorem Header.of_at {data outer afterOuter version versionBytes afterVersion community communityBytes
    afterCommunity rest : Bytes} {outerLength : Nat} {versionPos communityPos pduPos : Int}
    (outerAt : At data 0 (asn1Sequence :: (outer ++ afterOuter))) (isOuter : IsLength outer outerLength)
    (versionPos_eq : versionPos = 0 + 1 + outer.length)
    (versionAt : At data versionPos (versionBytes ++ afterVersion))
    (isVersion : IsTlv asn1Integer version versionBytes)
    (communityPos_eq : communityPos = versionPos + versionBytes.length)
    (communityAt : At data communityPos (communityBytes ++ afterCommunity))
    (isCommunity : IsTlv asn1OctetString community communityBytes)
    (pduPos_eq : pduPos = communityPos + communityBytes.length) (pduAt : At data pduPos rest) :
    ∃ h : Header, data = h.bytes ++ rest ∧ pduPos = h.pduPos := by
  subst versionPos_eq communityPos_eq pduPos_eq
  have afterOuter_eq := outerAt.step.advance.unique versionAt
  have afterVersion_eq := versionAt.advance.unique communityAt
  have afterCommunity_eq := communityAt.advance.unique pduAt
  subst afterCommunity_eq afterVersion_eq afterOuter_eq
  refine ⟨⟨outer, outerLength, isOuter, version, versionBytes, isVersion, community, communityBytes,
    isCommunity⟩, ?_, ?_⟩
  · have whole := outerAt.drop_eq
    simpa [Header.bytes] using whole
  · simp only [Header.pduPos, Header.communityPos, Header.versionPos]
    ring

theorem requestPDUPos_at (tag : UInt8) :
    requestPDUPos (h.bytes ++ tag :: rest) = .ok (some h.pduPos) := by
  have outer := readField_header (h.at_start (tag :: rest)) h.isOuter
  have version := skipField_at (h.at_version (tag :: rest)) h.isVersion
  have community := skipField_at (h.at_community (tag :: rest)) h.isCommunity
  have inside : ¬ h.pduPos ≥ (h.bytes ++ tag :: rest).length :=
    not_le.mpr (h.at_pdu (tag :: rest)).lt_length
  change readField _ 0 _ = .ok (some (_, h.versionPos)) at outer
  change skipField _ h.versionPos _ = .ok (some h.communityPos) at version
  change skipField _ h.communityPos _ = .ok (some h.pduPos) at community
  simp only [requestPDUPos, outer, ok_bind, version, community, inside, ↓reduceIte, pure_eq_ok]

/-- **The walk to the PDU.** On every datagram the walker returns, and where it reports an offset
the datagram starts with a header that ends there. -/
theorem requestPDUPos_spec (data : Bytes) :
    Yields (requestPDUPos data) fun result => ∀ pos, result = some pos →
      ∃ (h : Header) (tag : UInt8) (rest : Bytes), data = h.bytes ++ tag :: rest ∧ pos = h.pduPos := by
  rw [requestPDUPos]
  refine (readField_spec data le_rfl asn1Sequence).andThen (.ok nofun) ?_
  rintro ⟨outerLength, body⟩ outerRead
  obtain ⟨outerNatural, outerOnward, -, ⟨outer, behind, isOuter, outerAt, rfl⟩, -⟩ :=
    outerRead outerLength body rfl
  refine (skipField_spec data (show (0 : Int) ≤ 0 + 1 + outer.length by omega) asn1Integer).andThen (.ok nofun) ?_
  rintro communityPos versionRead
  obtain ⟨versionOnward, versionElement⟩ := versionRead communityPos rfl
  refine (skipField_spec data (by omega) asn1OctetString).andThen (.ok nofun) ?_
  rintro pduPos communityRead
  obtain ⟨communityOnward, communityElement⟩ := communityRead pduPos rfl
  refine .guard nofun fun inside => .ok ?_
  rintro _ ⟨⟩
  obtain ⟨version, versionBytes, afterVersion, isVersion, versionAt, communityPos_eq⟩ :=
    versionElement (by omega)
  obtain ⟨community, communityBytes, afterCommunity, isCommunity, communityAt, pduPos_eq⟩ :=
    communityElement (by omega)
  obtain ⟨tag, rest, pduAt⟩ := At.of_lt (by omega) (not_le.mp inside)
  obtain ⟨h, split, here⟩ := Header.of_at outerAt isOuter rfl versionAt isVersion communityPos_eq
    communityAt isCommunity pduPos_eq pduAt
  exact ⟨h, tag, rest, split, here⟩

/-! ### The PDU up to its list -/

/-- A PDU up to its variable-bindings list: the tag, the declared length, the request-id and the two
integers behind it. -/
structure PduFront where
  tag : UInt8
  octets : Bytes
  length : Nat
  isLength : IsLength octets length
  requestID : Bytes
  requestIDBytes : Bytes
  isRequestID : IsTlv asn1Integer requestID requestIDBytes
  status : Bytes
  statusBytes : Bytes
  isStatus : IsTlv asn1Integer status statusBytes
  index : Bytes
  indexBytes : Bytes
  isIndex : IsTlv asn1Integer index indexBytes

def PduFront.integers (p : PduFront) : Bytes :=
  p.requestIDBytes ++ (p.statusBytes ++ p.indexBytes)

/-- The bytes of a PDU up to its list. -/
def PduFront.bytes (p : PduFront) : Bytes := p.tag :: (p.octets ++ p.integers)

/-- Where the contents of the PDU start. -/
def PduFront.bodyPos (p : PduFront) (pos : Int) : Int := pos + 1 + p.octets.length

def PduFront.listPos (p : PduFront) (pos : Int) : Int := p.bodyPos pos + p.integers.length

variable {data : Bytes} {pos : Int} (p : PduFront)

theorem skipIntegers_at (here : At data pos (p.integers ++ rest)) :
    skipField data pos asn1Integer = .ok (some (pos + p.requestIDBytes.length)) ∧
      skipField data (pos + p.requestIDBytes.length) asn1Integer =
        .ok (some (pos + p.requestIDBytes.length + p.statusBytes.length)) ∧
      skipField data (pos + p.requestIDBytes.length + p.statusBytes.length) asn1Integer =
        .ok (some (pos + p.integers.length)) := by
  have first : At data pos (p.requestIDBytes ++ (p.statusBytes ++ (p.indexBytes ++ rest))) := by
    simpa [PduFront.integers] using here
  have total : pos + (p.integers.length : Int) =
      pos + p.requestIDBytes.length + p.statusBytes.length + p.indexBytes.length := by
    simp only [PduFront.integers, List.length_append]
    push_cast
    ring
  rw [total]
  exact ⟨skipField_at first p.isRequestID, skipField_at first.advance p.isStatus,
    skipField_at first.advance.advance p.isIndex⟩

theorem IsTlv.two_le {tag : UInt8} {contents bytes : Bytes} (element : IsTlv tag contents bytes) :
    2 ≤ bytes.length := by
  obtain ⟨octets, spelled, rfl⟩ := element
  have := List.length_pos_iff.mpr spelled.ne_nil
  rw [List.length_cons, List.length_append]
  omega

/-- The declared length of the PDU is the length of what it holds. -/
def PduFront.Exact (p : PduFront) (list : Bytes) : Prop := p.length = p.integers.length + list.length

theorem PduFront.at_list : At (h.bytes ++ (p.bytes ++ rest)) (p.listPos h.pduPos) rest := by
  have pduBytes : p.bytes ++ rest = p.tag :: (p.octets ++ (p.integers ++ rest)) := by
    simp [PduFront.bytes]
  have here := h.at_pdu (p.bytes ++ rest)
  rw [pduBytes] at here ⊢
  exact here.step.advance.advance

variable {h p} in
theorem PduFront.Exact.message_length {list : Bytes} (exactLength : p.Exact list) :
    p.bodyPos h.pduPos + p.length = (h.bytes ++ (p.bytes ++ list)).length := by
  have total := (p.at_list h list).length_eq
  rw [total, exactLength, PduFront.listPos]
  push_cast
  ring

theorem PduFront.ten_le_message : 10 ≤ (h.bytes ++ (p.bytes ++ rest)).length := by
  have := IsTlv.two_le h.isCommunity
  have := IsTlv.two_le p.isRequestID
  have := IsTlv.two_le p.isStatus
  have := IsTlv.two_le p.isIndex
  simp only [Header.bytes, PduFront.bytes, PduFront.integers, List.length_append, List.length_cons]
  omega

theorem requestVarBindListPos_at :
    requestVarBindListPos (h.bytes ++ (p.bytes ++ rest)) =
      .ok (some (p.listPos h.pduPos, p.bodyPos h.pduPos + p.length)) := by
  have reached := requestPDUPos_at h (p.octets ++ (p.integers ++ rest)) p.tag
  have here := h.at_pdu (p.tag :: (p.octets ++ (p.integers ++ rest)))
  obtain ⟨first, second, third⟩ := skipIntegers_at rest p here.step.advance
  have same : p.bytes ++ rest = p.tag :: (p.octets ++ (p.integers ++ rest)) := by
    simp [PduFront.bytes]
  rw [same]
  simp only [requestVarBindListPos, reached, ok_bind, parseLength_at here.step p.isLength,
    Int.natCast_nonneg, not_lt.mpr, ↓reduceIte, first, second, third, pure_eq_ok]
  rfl

/-- **The walk to the list.** On every datagram the walker returns. Where it reports an offset the
datagram starts with a header; and if the offset is inside, with the whole front of a PDU. -/
theorem requestVarBindListPos_spec (data : Bytes) :
    Yields (requestVarBindListPos data) fun result => ∀ pos pduEnd, result = some (pos, pduEnd) →
      0 ≤ pos ∧ 0 ≤ pduEnd ∧
      (∃ (h : Header) (tag : UInt8) (rest : Bytes), data = h.bytes ++ tag :: rest) ∧
      (pos ≤ data.length → ∃ (h : Header) (p : PduFront) (rest : Bytes),
        data = h.bytes ++ (p.bytes ++ rest) ∧ pos = p.listPos h.pduPos ∧
          pduEnd = p.bodyPos h.pduPos + p.length) := by
  rw [requestVarBindListPos]
  refine (requestPDUPos_spec data).andThen (.ok nofun) ?_
  rintro pduPos reached
  obtain ⟨h, tag, rest, rfl, rfl⟩ := reached pduPos rfl
  have here := h.at_pdu (tag :: rest)
  have nonneg := here.nonneg
  refine (element_spec here).bind ?_
  rintro ⟨pduLen, body⟩ ⟨onward, bodyInside, read⟩
  refine .guard nofun fun natural => ?_
  obtain ⟨-, ⟨octets, behind, isLength, pduAt, rfl⟩, -⟩ := read.resolve_left (by omega)
  refine (skipField_spec _ (by omega) asn1Integer).andThen (.ok nofun) ?_
  rintro statusPos idRead
  obtain ⟨idOnward, idElement⟩ := idRead statusPos rfl
  refine (skipField_spec _ (by omega) asn1Integer).andThen (.ok nofun) ?_
  rintro indexPos statusRead
  obtain ⟨statusOnward, statusElement⟩ := statusRead indexPos rfl
  refine (skipField_spec _ (by omega) asn1Integer).andThen (.ok nofun) ?_
  rintro listPos indexRead
  obtain ⟨indexOnward, indexElement⟩ := indexRead listPos rfl
  refine .ok ?_
  rintro _ _ ⟨⟩
  refine ⟨by omega, by omega, ⟨h, tag, rest, rfl⟩, fun inside => ?_⟩
  obtain ⟨requestID, requestIDBytes, afterID, isRequestID, idAt, rfl⟩ := idElement (by omega)
  obtain ⟨status, statusBytes, afterStatus, isStatus, statusAt, rfl⟩ := statusElement (by omega)
  obtain ⟨index, indexBytes, afterIndex, isIndex, indexAt, rfl⟩ := indexElement inside
  have restEq := here.unique pduAt
  have behindEq := pduAt.step.advance.unique idAt
  have afterIDEq := idAt.advance.unique statusAt
  have afterStatusEq := statusAt.advance.unique indexAt
  subst afterStatusEq afterIDEq behindEq
  refine ⟨h, ⟨tag, octets, pduLen.toNat, isLength, requestID, requestIDBytes, isRequestID, status,
    statusBytes, isStatus, index, indexBytes, isIndex⟩, afterIndex, ?_, ?_, ?_⟩
  · rw [restEq]
    simp [PduFront.bytes, PduFront.integers]
  · simp only [PduFront.listPos, PduFront.bodyPos, PduFront.integers, List.length_append]
    push_cast
    ring
  · simp only [PduFront.bodyPos]
    omega

/-! ### The lenient steps on fields that are there -/

/-- What `parseBERInt` reports for content octets. -/
def integerValue (octets : Bytes) : Option Int :=
  if octets = [] ∨ 8 < (Octets.trimZeros octets).length then none else some (Octets.signed octets)

theorem parseBERInt_content {octets : Bytes} (here : At data pos (octets ++ rest)) :
    parseBERInt data pos octets.length = .ok (integerValue octets) := by
  by_cases empty : octets = []
  · simp [parseBERInt, integerValue, empty]
  · rw [parseBERInt_at here empty, integerValue]
    simp [empty]

section Lenient

variable {contents bytes : Bytes} {rest}

section

variable (here : At data pos (bytes ++ rest))

include here

theorem lenientField_at {α : Type} {tag : UInt8} {missing : α} {found : Int → Int → Checked α} (element : IsTlv tag contents bytes) :
    ∃ body, lenientField data pos tag missing found = found contents.length body ∧
      At data body (contents ++ rest) ∧ body + contents.length = pos + bytes.length ∧
      body + contents.length ≤ data.length := by
  obtain ⟨body, tagRead, lengthRead, onward, contentsAt, ends⟩ := element_at here element
  have total := contentsAt.length_eq
  rw [List.length_append] at total
  have inside : ¬ pos ≥ data.length := by omega
  refine ⟨body, ?_, contentsAt, ends, by omega⟩
  simp [lenientField, inside, tagRead, lengthRead]

theorem skipVersion_at (element : IsTlv asn1Integer contents bytes) :
    skipVersion data pos = .ok (pos + bytes.length) := by
  obtain ⟨body, found, -, ends, -⟩ := lenientField_at here element
  rw [skipVersion, found, Except.ok.injEq]
  split <;> omega

theorem skipCommunity_at
    (element : IsTlv asn1OctetString contents bytes) :
    skipCommunity data pos = .ok (pos + bytes.length) := by
  obtain ⟨body, found, -, ends, inside⟩ := lenientField_at here element
  rw [skipCommunity, found, if_pos ⟨by omega, inside⟩, ends]

theorem readIntegerField_at
    (element : IsTlv asn1Integer contents bytes) :
    readIntegerField data pos = .ok (integerValue contents, pos + bytes.length) := by
  obtain ⟨body, found, contentsAt, ends, -⟩ := lenientField_at here element
  rw [readIntegerField, found, parseBERInt_content rest contentsAt, ok_bind, pure_eq_ok,
    Except.ok.injEq, Prod.mk.injEq]
  refine ⟨rfl, ?_⟩
  split <;> omega

theorem readCommunityField_at
    (element : IsTlv asn1OctetString contents bytes) :
    readCommunityField data pos = .ok (some contents, pos + bytes.length) := by
  obtain ⟨body, found, contentsAt, ends, inside⟩ := lenientField_at here element
  rw [readCommunityField, found, if_pos ⟨by omega, inside⟩, contentsAt.slice, ok_bind, ends,
    pure_eq_ok]

theorem skipStatusField_at
    (element : IsTlv asn1Integer contents bytes) :
    skipStatusField data pos = .ok (pos + bytes.length) := by
  obtain ⟨body, found, -, ends, -⟩ := lenientField_at here element
  rw [skipStatusField, found, if_pos (by omega), ends]

theorem enterSequence_at
    (element : IsTlv asn1Sequence contents bytes) :
    ∃ body, enterSequence data pos = .ok (some body) ∧ At data body (contents ++ rest) := by
  obtain ⟨octets, spelled, rfl⟩ := element
  have head : At data pos (asn1Sequence :: (octets ++ (contents ++ rest))) := by
    simpa using here
  have inside : ¬ pos ≥ data.length := not_le.mpr head.lt_length
  refine ⟨pos + 1 + octets.length, ?_, head.step.advance⟩
  simp [enterSequence, inside, head.index, head.step.toEnd, skipLength_of_isLength spelled]

theorem readName_at {body : Bytes} {arcs : List Nat}
    (name : IsTlv asn1ObjectID body bytes) (decoded : decodeArcs body = some arcs) :
    readName data pos = .ok (some (dotted arcs)) := by
  obtain ⟨nameBody, found, bodyAt, -, inside⟩ := lenientField_at here name
  have nonempty : body ≠ [] := by
    rintro rfl
    simp [decodeArcs] at decoded
  have positive := List.length_pos_iff.mpr nonempty
  have someName : dotted arcs ≠ [] := by simpa using decodeArcs_ne_nil decoded
  rw [readName, found, if_pos ⟨by omega, inside⟩, bodyAt.slice, ok_bind, decodeOID_eq, decoded,
    Option.elim_some, ok_bind, if_pos someName, pure_eq_ok]

theorem readFirstName_at {bind : SnmpVarBind} {bindBytes more : Bytes} (list : IsTlv asn1Sequence (bindBytes ++ more) bytes)
    (binding : IsVarBind bind bindBytes) :
    readFirstName data pos = .ok (some bind.name) := by
  obtain ⟨listBody, entered, listAt⟩ := enterSequence_at here list
  obtain ⟨body, nameBytes, valueBytes, arcs, name, decoded, named, -, whole⟩ := binding
  rw [List.append_assoc] at listAt
  obtain ⟨bindBody, enteredBind, bindAt⟩ := enterSequence_at listAt whole
  rw [List.append_assoc] at bindAt
  simp [readFirstName, entered, enteredBind, readName_at bindAt name decoded, named]

end

end Lenient

/-! ### The lenient walkers on a message -/

theorem getPDUType_at (tag : UInt8) (long : 10 ≤ (h.bytes ++ tag :: rest).length) :
    getPDUType (h.bytes ++ tag :: rest) = .ok tag := by
  have start := h.at_start (tag :: rest)
  have outer := parseLength_at start.step h.isOuter
  have version := skipVersion_at (h.at_version (tag :: rest)) h.isVersion
  have community := skipCommunity_at (h.at_community (tag :: rest)) h.isCommunity
  have here := h.at_pdu (tag :: rest)
  change parseLength _ 1 = .ok (_, h.versionPos) at outer
  change skipVersion _ h.versionPos = .ok h.communityPos at version
  change skipCommunity _ h.communityPos = .ok h.pduPos at community
  simp only [getPDUType, not_lt.mpr long, ↓reduceIte, start.index, ok_bind, ne_eq, not_true_eq_false,
    outer, Int.natCast_nonneg, not_lt.mpr, version, community, here.lt_length, here.index]

theorem parseIncomingRequest_at (served : servedPDUTag p.tag = true) {name : Option Bytes}
    (first : readFirstName (h.bytes ++ (p.bytes ++ rest)) (p.listPos h.pduPos) = .ok name)
    (long : 10 ≤ (h.bytes ++ (p.bytes ++ rest)).length) :
    parseIncomingRequest (h.bytes ++ (p.bytes ++ rest)) = .ok
      { community := h.community
        requestID := (integerValue p.requestID).getD SNMPRequest.initial.requestID
        oid := name.getD SNMPRequest.initial.oid
        version := (integerValue h.version).getD SNMPRequest.initial.version
        communityParsed := true } := by
  have same : p.bytes ++ rest = p.tag :: (p.octets ++ (p.integers ++ rest)) := by
    simp [PduFront.bytes]
  have here : At (h.bytes ++ (p.bytes ++ rest)) h.pduPos (p.tag :: (p.octets ++ (p.integers ++ rest))) :=
    same ▸ h.at_pdu (p.bytes ++ rest)
  have body : At (h.bytes ++ (p.bytes ++ rest)) (p.bodyPos h.pduPos)
      (p.requestIDBytes ++ (p.statusBytes ++ (p.indexBytes ++ rest))) := by
    simpa [PduFront.integers, PduFront.bodyPos] using here.step.advance
  have listPos_eq : p.bodyPos h.pduPos + p.requestIDBytes.length + p.statusBytes.length +
      p.indexBytes.length = p.listPos h.pduPos := by
    simp only [PduFront.listPos, PduFront.integers, List.length_append]
    push_cast
    ring
  have start := h.at_start (p.bytes ++ rest)
  have outer := parseLength_at start.step h.isOuter
  have version := readIntegerField_at (h.at_version (p.bytes ++ rest)) h.isVersion
  have community := readCommunityField_at (h.at_community (p.bytes ++ rest)) h.isCommunity
  have pduLength := parseLength_at here.step p.isLength
  have requestID := readIntegerField_at body p.isRequestID
  have status := skipStatusField_at body.advance p.isStatus
  have index := skipStatusField_at body.advance.advance p.isIndex
  change parseLength _ 1 = .ok (_, h.versionPos) at outer
  change readIntegerField _ h.versionPos = .ok (_, h.communityPos) at version
  change readCommunityField _ h.communityPos = .ok (_, h.pduPos) at community
  change parseLength _ (h.pduPos + 1) = .ok (_, p.bodyPos h.pduPos) at pduLength
  rw [listPos_eq] at index
  have inside : ¬ h.pduPos ≥ (h.bytes ++ (p.bytes ++ rest)).length := not_le.mpr here.lt_length
  simp only [parseIncomingRequest, not_lt.mpr long, ↓reduceIte, start.index, ok_bind, ne_eq,
    not_true_eq_false, outer, Int.natCast_nonneg, not_lt.mpr, version, community, inside, here.index,
    SNMPRequest.withCommunity, served, parseIncomingPDU, pduLength, requestID, status, index, first,
    pure_eq_ok]

/-! ### Totality -/

section Totality

variable (data) (nonneg : 0 ≤ pos)
include nonneg

/-- A lenient field needs a postcondition for a missing field and for every length that can stand
there. -/
theorem lenientField_spec {α : Type} (tag : UInt8) {missing : α} {found : Int → Int → Checked α}
    {post : α → Prop} (whenMissing : post missing)
    (whenFound : ∀ length body, pos < body → body ≤ data.length →
      (0 ≤ length → body + length ≤ data.length → ∃ contents bytes rest,
        (contents.length : Int) = length ∧ IsTlv tag contents bytes ∧ At data pos (bytes ++ rest) ∧
          At data body (contents ++ rest)) → Yields (found length body) post) :
    Yields (lenientField data pos tag missing found) post := by
  rw [lenientField]
  refine .guard whenMissing fun inside => ?_
  obtain ⟨first, behind, here⟩ := At.of_lt nonneg (not_le.mp inside)
  refine (Yields.of_eq here.index).bind ?_
  rintro _ rfl
  refine .guard whenMissing fun tagged => ?_
  obtain rfl : first = tag := not_not.mp tagged
  refine (element_spec here).bind ?_
  rintro ⟨length, body⟩ ⟨onward, bodyInside, read⟩
  refine whenFound length body onward bodyInside fun natural fits => ?_
  obtain ⟨contents, bytes, rest, counted, element, bytesAt, contentsAt, -⟩ :=
    (read.resolve_left (by omega)).2.2 fits
  exact ⟨contents, bytes, rest, counted, element, bytesAt, contentsAt⟩

theorem skipVersion_spec : Yields (skipVersion data pos) (0 ≤ ·) :=
  lenientField_spec data nonneg _ nonneg fun length body onward _ _ => .ok (by split <;> omega)

theorem skipCommunity_spec : Yields (skipCommunity data pos) (0 ≤ ·) :=
  lenientField_spec data nonneg _ nonneg fun length body onward _ _ => .ok (by split <;> omega)

theorem readIntegerField_spec : Yields (readIntegerField data pos) (0 ≤ ·.2) := by
  refine lenientField_spec data nonneg _ nonneg fun length body onward _ _ => ?_
  refine (parseBERInt_spec data (by omega) length).bind fun value _ => .ok ?_
  split <;> omega

theorem readCommunityField_spec : Yields (readCommunityField data pos) fun (community, next) =>
    0 ≤ next ∧ ∀ octets ∈ community, ∃ bytes rest, IsTlv asn1OctetString octets bytes ∧
      At data pos (bytes ++ rest) := by
  refine lenientField_spec data nonneg _ ⟨nonneg, nofun⟩ fun length body onward _ element => ?_
  refine .ite (fun readable => ?_) fun _ => .ok ⟨by omega, nofun⟩
  obtain ⟨contents, bytes, rest, counted, isElement, bytesAt, contentsAt⟩ :=
    element readable.1 readable.2
  have sliced : slice data body (body + length) = .ok contents := counted ▸ contentsAt.slice
  refine (Yields.of_eq sliced).bind ?_
  rintro _ rfl
  refine .ok ⟨by omega, ?_⟩
  rintro _ ⟨⟩
  exact ⟨bytes, rest, isElement, bytesAt⟩

theorem skipStatusField_spec : Yields (skipStatusField data pos) (0 ≤ ·) :=
  lenientField_spec data nonneg _ nonneg fun length body onward _ _ => .ok (by split <;> omega)

theorem enterSequence_spec :
    Yields (enterSequence data pos) fun result => ∀ next, result = some next → 0 ≤ next := by
  rw [enterSequence]
  refine .guard nofun fun inside => ?_
  obtain ⟨tag, behind, here⟩ := At.of_lt nonneg (not_le.mp inside)
  refine (Yields.of_eq here.index).bind ?_
  rintro _ rfl
  refine .guard nofun fun _ => ?_
  refine (Yields.of_eq here.step.toEnd).bind ?_
  rintro _ rfl
  refine .ok ?_
  rintro _ ⟨⟩
  have := skipLength_nonneg behind
  omega

theorem readName_spec :
    Yields (readName data pos) fun result => ∀ oid, result = some oid → IsOID oid := by
  refine lenientField_spec data nonneg _ nofun fun length body onward _ _ => ?_
  refine .ite (fun readable => ?_) fun _ => .ok nofun
  refine (Yields.slice (by omega) (show body ≤ body + length by omega)
    readable.2).bind fun octets _ => ?_
  refine (Yields.of_eq (decodeOID_eq octets)).bind ?_
  rintro _ rfl
  refine .ok ?_
  cases decoded : decodeArcs octets with
  | none => simp
  | some arcs =>
    rintro oid found
    split at found
    · cases found
      exact isOID_of_decodeArcs decoded
    · exact absurd found nofun

theorem readFirstName_spec :
    Yields (readFirstName data pos) fun result => ∀ oid, result = some oid → IsOID oid := by
  rw [readFirstName]
  refine (enterSequence_spec data nonneg).andThen (.ok nofun) ?_
  rintro inner entered
  refine (enterSequence_spec data (entered inner rfl)).andThen (.ok nofun) ?_
  rintro name enteredBind
  exact readName_spec data (enteredBind name rfl)

end Totality

theorem getPDUType_returns (data : Bytes) : ∃ tag, getPDUType data = .ok tag := by
  suffices total : Yields (getPDUType data) fun _ => True by
    obtain ⟨tag, returned, -⟩ := total
    exact ⟨tag, returned⟩
  rw [getPDUType]
  refine .guard trivial fun long => ?_
  obtain ⟨first, behind, here⟩ := At.of_lt (le_refl 0) (show (0 : Int) < data.length by omega)
  refine (Yields.of_eq here.index).bind ?_
  rintro _ rfl
  refine .guard trivial fun _ => ?_
  refine (element_spec here).bind ?_
  rintro ⟨length, body⟩ ⟨onward, -⟩
  refine .guard trivial fun _ => ?_
  refine (skipVersion_spec data (by omega)).bind fun versionEnd versionNonneg => ?_
  refine (skipCommunity_spec data versionNonneg).bind fun pduPos pduNonneg => ?_
  refine .ite (fun inside => ?_) fun _ => .ok trivial
  exact (Yields.index pduNonneg inside).mono fun _ _ => trivial

/-- Version, community and request-id of a served message, whatever its list is. -/
theorem parseIncomingRequest_of_served (served : servedPDUTag p.tag = true) :
    ∃ oid, parseIncomingRequest (h.bytes ++ (p.bytes ++ rest)) = .ok
      { community := h.community
        requestID := (integerValue p.requestID).getD SNMPRequest.initial.requestID
        oid := oid
        version := (integerValue h.version).getD SNMPRequest.initial.version
        communityParsed := true } := by
  obtain ⟨name, first, -⟩ := readFirstName_spec (h.bytes ++ (p.bytes ++ rest))
    (p.at_list h rest).nonneg
  exact ⟨_, parseIncomingRequest_at h rest p served first (p.ten_le_message h rest)⟩

/-! ### Where the community is expected -/

/-- `parseIncomingRequest` and `getPDUType` step over the version alike. -/
theorem skipVersion_of_readIntegerField {value : Option Int} {next : Int}
    (read : readIntegerField data pos = .ok (value, next)) : skipVersion data pos = .ok next := by
  simp only [readIntegerField, skipVersion, lenientField, pure_eq_ok] at read ⊢
  split_ifs at read ⊢ with beyond
  · exact congrArg (Except.ok ∘ Prod.snd) (Except.ok.inj read)
  · obtain ⟨first, found, read⟩ := bind_eq_ok_iff.mp read
    rw [found, ok_bind]
    split_ifs at read ⊢ with tagged
    · exact congrArg (Except.ok ∘ Prod.snd) (Except.ok.inj read)
    · obtain ⟨⟨length, body⟩, lengthRead, read⟩ := bind_eq_ok_iff.mp read
      obtain ⟨value, -, read⟩ := bind_eq_ok_iff.mp read
      rw [lengthRead, ok_bind]
      exact congrArg (Except.ok ∘ Prod.snd) (Except.ok.inj read)

/-- The offset behind the version, where a v1/v2c message has its community. -/
def CommunityPos (data : Bytes) (pos : Int) : Prop :=
  ∃ outerLen versionPos, index data 0 = .ok asn1Sequence ∧
    parseLength data 1 = .ok (outerLen, versionPos) ∧ 0 ≤ outerLen ∧
      skipVersion data versionPos = .ok pos

/-- The datagram has an OCTET STRING with these octets where a v1/v2c message has its community. -/
def CarriesCommunity (data community : Bytes) : Prop :=
  ∃ pos bytes rest, CommunityPos data pos ∧ IsTlv asn1OctetString community bytes ∧
    At data pos (bytes ++ rest)

theorem initial_isOID : IsOID SNMPRequest.initial.oid :=
  ⟨[1, 3, 6, 1, 2, 1, 1, 1, 0], by decide, by decide, by decide⟩

theorem parseIncomingPDU_spec (data : Bytes) {pos : Int} (nonneg : 0 ≤ pos) (req : SNMPRequest) :
    Yields (parseIncomingPDU data pos req) fun result =>
      (IsOID req.oid → IsOID result.oid) ∧ result.community = req.community ∧
        result.communityParsed = req.communityParsed := by
  rw [parseIncomingPDU]
  refine (parseLength_spec data nonneg).bind ?_
  rintro ⟨pduLen, body⟩ ⟨onward, -⟩
  refine .guard ⟨id, rfl, rfl⟩ fun _ => ?_
  refine (readIntegerField_spec data (by omega)).bind ?_
  rintro ⟨requestID, statusPos⟩ statusNonneg
  refine (skipStatusField_spec data statusNonneg).bind fun indexPos indexNonneg => ?_
  refine (skipStatusField_spec data indexNonneg).bind fun listPos listNonneg => ?_
  refine (readFirstName_spec data listNonneg).bind fun name named => .ok ⟨?_, rfl, rfl⟩
  intro identified
  cases name with
  | none => exact identified
  | some oid => exact named oid rfl

/-- **The lenient request parser.** It returns on every datagram; the identifier it reports is one,
and a community it reports as parsed stands in the datagram. -/
theorem parseIncomingRequest_spec (data : Bytes) :
    Yields (parseIncomingRequest data) fun req => IsOID req.oid ∧
      (req.communityParsed = true → CarriesCommunity data req.community) := by
  rw [parseIncomingRequest]
  refine .guard ⟨initial_isOID, nofun⟩ fun long => ?_
  obtain ⟨first, behind, here⟩ := At.of_lt (le_refl 0) (show (0 : Int) < data.length by omega)
  refine (Yields.of_eq here.index).bind ?_
  rintro _ rfl
  refine .guard ⟨initial_isOID, nofun⟩ fun isSequence => ?_
  obtain ⟨⟨outerLen, versionPos⟩, outerRead, onward, -⟩ := element_spec here
  refine (Yields.of_eq outerRead).bind ?_
  rintro _ rfl
  refine .guard ⟨initial_isOID, nofun⟩ fun natural => ?_
  obtain ⟨⟨version, communityPos⟩, versionRead, communityNonneg⟩ :=
    readIntegerField_spec data (show 0 ≤ versionPos by omega)
  refine (Yields.of_eq versionRead).bind ?_
  rintro _ rfl
  refine (readCommunityField_spec data communityNonneg).bind ?_
  rintro ⟨community, pduPos⟩ ⟨pduNonneg, stands⟩
  obtain ⟨base, base_eq, unparsed, baseOID⟩ : ∃ base : SNMPRequest, base = { SNMPRequest.initial with
      version := version.getD SNMPRequest.initial.version } ∧ base.communityParsed = false ∧
        IsOID base.oid := ⟨_, rfl, rfl, initial_isOID⟩
  simp only [← base_eq]
  have good : IsOID (base.withCommunity community).oid ∧
      ((base.withCommunity community).communityParsed = true →
        CarriesCommunity data (base.withCommunity community).community) := by
    cases community with
    | none => exact ⟨baseOID, fun flagged => absurd (unparsed.symm.trans flagged) nofun⟩
    | some octets =>
      obtain ⟨bytes, rest, element, bytesAt⟩ := stands octets rfl
      refine ⟨baseOID, fun _ => ⟨communityPos, bytes, rest, ⟨outerLen, versionPos, ?_, outerRead,
        not_lt.mp natural, skipVersion_of_readIntegerField versionRead⟩, element, bytesAt⟩⟩
      rw [here.index, not_not.mp isSequence]
  refine .guard good fun inside => ?_
  refine (Yields.index pduNonneg (not_le.mp inside)).bind fun tag _ => ?_
  refine .ite (fun _ => ?_) fun _ => .ok good
  refine (parseIncomingPDU_spec data (by omega) _).mono ?_
  rintro result ⟨keeps, community_eq, parsed_eq⟩
  refine ⟨keeps good.1, fun flagged => ?_⟩
  rw [community_eq]
  exact good.2 (parsed_eq ▸ flagged)

/-! ### GETBULK parameters -/

theorem natOr_nonneg {default : Int} (nonneg : 0 ≤ default) (value : Option Int) :
    0 ≤ natOr default value := by
  cases value with
  | none => exact nonneg
  | some v =>
    rw [natOr]
    split <;> omega

/-- **The GETBULK parameters.** The reader returns on every datagram, with two naturals; they differ
from the defaults only for a datagram `getPDUType` takes for a GETBULK. -/
theorem parseGetBulkParams_spec (data : Bytes) :
    Yields (parseGetBulkParams data) fun (nonRepeaters, maxRepetitions) =>
      0 ≤ nonRepeaters ∧ 0 ≤ maxRepetitions ∧
      ((nonRepeaters, maxRepetitions) ≠ (0, 10) → getPDUType data = .ok asn1GetBulk) := by
  have defaults : (0 : Int) ≤ 0 ∧ (0 : Int) ≤ 10 ∧
      (((0 : Int), (10 : Int)) ≠ (0, 10) → getPDUType data = .ok asn1GetBulk) :=
    ⟨le_rfl, by norm_num, fun differ => absurd rfl differ⟩
  rw [parseGetBulkParams]
  refine (readField_spec data le_rfl asn1Sequence).andThen (Yields.ok defaults) ?_
  rintro ⟨outerLen, body⟩ outerRead
  obtain ⟨outerNatural, outerOnward, bodyInside, ⟨outer, behind, isOuter, outerAt, rfl⟩, -⟩ :=
    outerRead outerLen body rfl
  refine .guard defaults fun outerFits => ?_
  obtain ⟨message, sliced, split, messageLength⟩ :=
    (At.of_le (show 0 ≤ 0 + 1 + (outer.length : Int) + outerLen by omega) (not_lt.mp outerFits)).fromStart
  refine (Yields.of_eq sliced).bind ?_
  rintro _ rfl
  refine (skipField_spec message (show (0 : Int) ≤ 0 + 1 + outer.length by omega) asn1Integer).andThen (Yields.ok defaults) ?_
  rintro communityPos versionRead
  obtain ⟨versionOnward, versionElement⟩ := versionRead communityPos rfl
  refine (skipField_spec message (by omega) asn1OctetString).andThen (Yields.ok defaults) ?_
  rintro pduPos communityRead
  obtain ⟨communityOnward, communityElement⟩ := communityRead pduPos rfl
  refine (readField_spec message (by omega) asn1GetBulk).andThen (Yields.ok defaults) ?_
  rintro ⟨pduLen, pduBody⟩ pduRead
  obtain ⟨pduNatural, pduOnward, pduInside, ⟨pduOctets, pduBehind, isPdu, pduAt, -⟩, -⟩ :=
    pduRead pduLen pduBody rfl
  refine .guard defaults fun pduFits => ?_
  obtain ⟨pdu, pduSliced, pduSplit, pduLength⟩ :=
    (At.of_le (by omega) (not_lt.mp pduFits)).fromStart
  refine (Yields.of_eq pduSliced).bind ?_
  rintro _ rfl
  refine (skipField_spec pdu (by omega) asn1Integer).andThen (Yields.ok defaults) ?_
  rintro nonRepPos idRead
  obtain ⟨idOnward, -⟩ := idRead nonRepPos rfl
  refine (readField_spec pdu (by omega) asn1Integer).andThen (Yields.ok defaults) ?_
  rintro ⟨nonRepLen, nonRepBody⟩ nonRepRead
  obtain ⟨nonRepNatural, nonRepOnward, nonRepInside, -, -⟩ := nonRepRead nonRepLen nonRepBody rfl
  -- the walk came through a header to a GETBULK tag, and far enough to be ten bytes long
  have isGetBulk : getPDUType data = .ok asn1GetBulk := by
    obtain ⟨version, versionBytes, afterVersion, isVersion, versionAt, communityPos_eq⟩ :=
      versionElement (by omega)
    obtain ⟨community, communityBytes, afterCommunity, isCommunity, communityAt, pduPos_eq⟩ :=
      communityElement (by omega)
    have versionAt' := versionAt.extend split
    have communityAt' := communityAt.extend split
    have pduAt' := pduAt.extend split
    rw [List.append_assoc] at versionAt' communityAt'
    obtain ⟨h, whole, -⟩ := Header.of_at outerAt isOuter rfl versionAt' isVersion communityPos_eq
      communityAt' isCommunity pduPos_eq pduAt'
    have long : 10 ≤ data.length := by
      have messageSize := congrArg List.length split
      have pduSize := congrArg List.length pduSplit
      rw [List.length_append] at messageSize pduSize
      omega
    rw [whole] at long ⊢
    exact getPDUType_at h _ asn1GetBulk long
  refine (parseBERInt_spec pdu (by omega) nonRepLen).bind fun nonRep _ => ?_
  refine (readField_spec pdu (by omega) asn1Integer).andThen (Yields.ok ⟨natOr_nonneg le_rfl _, by norm_num, fun _ => isGetBulk⟩) ?_
  rintro ⟨maxRepLen, maxRepBody⟩ maxRepRead
  obtain ⟨maxRepNatural, maxRepOnward, -⟩ := maxRepRead maxRepLen maxRepBody rfl
  refine (parseBERInt_spec pdu (by omega) maxRepLen).bind fun maxRep _ => ?_
  exact .ok ⟨natOr_nonneg le_rfl _, natOr_nonneg (by norm_num) _, fun _ => isGetBulk⟩

end Nl6
