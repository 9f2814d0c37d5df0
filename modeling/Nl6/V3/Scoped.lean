import Nl6.V3.Message

/-! # The scoped-PDU readers

Four functions walk the contents of a scoped PDU. `extractOIDAndTypeFromScopedPDU` reads the kind of
request and its first name only, `scopedPDUVarBindListPos` finds the variable-bindings list and tells
a list that was never reached from a container that lies about its length, `parseSNMPv3GetBulkParams`
reads the two parameters of a GETBULK, and `extractRequestIDFromScopedPDU` the request-id.
-/

namespace Nl6

open Numeral Checked Ber

/-! ### The dispatcher's reader -/

/-- The header of a field that must carry the given tag and end in front of `stop`. -/
def fittingField (data : Bytes) (stop pos : Int) (tag : UInt8) : Checked (Option (Int × Int)) := do
  if pos ≥ stop then return none
  let first ← index data pos
  if first ≠ tag then return none
  let (n, newPos) ← parseLength data (pos + 1)
  if n < 0 ∨ newPos + n > stop then return none
  return some (n, newPos)

/-- `extractOIDAndTypeFromScopedPDU`: the first name and the PDU type, without the texts of its
errors. -/
def extractOIDAndTypeFromScopedPDU (scopedPDU : Bytes) : Checked (Option (Bytes × UInt8)) := do
  if scopedPDU.length < 10 then return none
  let some pos ← skipField scopedPDU 0 asn1OctetString | return none
  let some pos ← skipField scopedPDU pos asn1OctetString | return none
  if pos ≥ scopedPDU.length then return none
  let pduType ← index scopedPDU pos
  if !servedPDUTag pduType then return none
  let (_, pos) ← parseLength scopedPDU (pos + 1)
  let some pos ← skipField scopedPDU pos asn1Integer | return none
  let some pos ← skipField scopedPDU pos asn1Integer | return none
  let some pos ← skipField scopedPDU pos asn1Integer | return none
  let some pos ← enterField scopedPDU pos asn1Sequence | return none
  let some pos ← enterField scopedPDU pos asn1Sequence | return none
  let some (oidLen, pos) ← fittingField scopedPDU scopedPDU.length pos asn1ObjectID | return none
  let oid ← decodeOID (← slice scopedPDU pos (pos + oidLen))
  return if oid = [] then none else some (oid, pduType)

/-! ### The list walker -/

/-- What follows a step of the list walker. -/
def ListResult.andThen {α β : Type} (step : ListResult α) (next : α → Checked (ListResult β)) :
    Checked (ListResult β) :=
  match step with
  | .absent => .ok .absent
  | .malformed => .ok .malformed
  | .parsed result => next result

/-- A field of the walker that must end in front of `stop`: the cursor behind it. -/
def boundedField (data : Bytes) (stop pos : Int) (tag : UInt8) : Checked (ListResult Int) := do
  if pos ≥ stop then return .absent
  let first ← index data pos
  if first ≠ tag then return .absent
  let (n, newPos) ← parseLength data (pos + 1)
  if n < 0 then return .absent
  if n > stop - newPos then return .malformed
  return .parsed (newPos + n)

/-- The walker's step into the PDU, whatever its tag: the cursor behind the header and the end. -/
def enterPDU (data : Bytes) (pos : Int) : Checked (ListResult (Int × Int)) := do
  if pos ≥ data.length then return .absent
  let (pduLen, newPos) ← parseLength data (pos + 1)
  if pduLen < 0 then return .absent
  if pduLen > data.length - newPos then return .malformed
  return .parsed (newPos, newPos + pduLen)

/-- A list that stands at the cursor must end where the PDU does. -/
def listEndsAt (data : Bytes) (stop pos : Int) : Checked Bool := do
  if pos ≥ stop then return true
  let tag ← index data pos
  if tag ≠ asn1Sequence then return true
  let (listLen, afterLen) ← parseLength data (pos + 1)
  return ¬ (listLen ≥ 0 ∧ (listLen > stop - afterLen ∨ afterLen + listLen ≠ stop))

/-- `scopedPDUVarBindListPos`: the PDU's part of the buffer and the offset of the list in it. -/
def scopedPDUVarBindListPos (scopedPDU : Bytes) : Checked (ListResult (Bytes × Int)) := do
  let step ← boundedField scopedPDU scopedPDU.length 0 asn1OctetString
  step.andThen fun pos => do
  let step ← boundedField scopedPDU scopedPDU.length pos asn1OctetString
  step.andThen fun pos => do
  let step ← enterPDU scopedPDU pos
  step.andThen fun (pos, stop) => do
  let step ← boundedField scopedPDU stop pos asn1Integer
  step.andThen fun pos => do
  let step ← boundedField scopedPDU stop pos asn1Integer
  step.andThen fun pos => do
  let step ← boundedField scopedPDU stop pos asn1Integer
  step.andThen fun pos => do
  if ← listEndsAt scopedPDU stop pos then return .parsed (← slice scopedPDU 0 stop, pos)
  else return .malformed

def parseAllOIDsFromScopedPDU (scopedPDU : Bytes) : Checked (Option (List Bytes)) := do
  match ← scopedPDUVarBindListPos scopedPDU with
  | .absent => return some []
  | .malformed => return none
  | .parsed (bounded, pos) => parseVarBindNames bounded pos

def parseSetVarBindsFromScopedPDU (scopedPDU : Bytes) :
    Checked (ListResult (List SnmpVarBind × Bytes)) := do
  let step ← scopedPDUVarBindListPos scopedPDU
  step.andThen fun (bounded, pos) => parseVarBinds bounded pos

/-! ### The parameters of a GETBULK -/

def parseSNMPv3GetBulkParams (scopedPDU : Bytes) : Checked (Int × Int) := do
  let some (n, pos) ← fittingField scopedPDU scopedPDU.length 0 asn1OctetString | return (0, 10)
  let some (n, pos) ← fittingField scopedPDU scopedPDU.length (pos + n) asn1OctetString
    | return (0, 10)
  let some (pduLen, pos) ← fittingField scopedPDU scopedPDU.length (pos + n) asn1GetBulk
    | return (0, 10)
  let stop := pos + pduLen
  let some (reqLen, pos) ← fittingField scopedPDU stop pos asn1Integer | return (0, 10)
  let some (nrLen, pos) ← fittingField scopedPDU stop (pos + reqLen) asn1Integer | return (0, 10)
  let nonRepeaters := natOr 0 (← parseBERInt scopedPDU pos nrLen)
  let some (mrLen, pos) ← fittingField scopedPDU stop (pos + nrLen) asn1Integer
    | return (nonRepeaters, 10)
  let maxRepetitions := natOr 10 (← parseBERInt scopedPDU pos mrLen)
  return (nonRepeaters, maxRepetitions)

/-! ### The request-id -/

/-- `extractRequestIDFromScopedPDU`'s step over a context field, if one stands there. -/
def skipContextField (data : Bytes) (pos : Int) : Checked (Option Int) :=
  lenientField data pos asn1OctetString (some pos) fun length newPos =>
    .ok (if length < 0 then none else some (newPos + length))

def extractRequestIDFromScopedPDU (scopedPDU : Bytes) : Checked Int := do
  if scopedPDU.length < 10 then return 1
  let some pos ← skipContextField scopedPDU 0 | return 1
  let some pos ← skipContextField scopedPDU pos | return 1
  if pos ≥ scopedPDU.length then return 1
  let tag ← index scopedPDU pos
  if !servedPDUTag tag then return 1
  let (pduLen, pos) ← parseLength scopedPDU (pos + 1)
  if pduLen < 0 ∨ pos + pduLen > scopedPDU.length then return 1
  let stop := pos + pduLen
  if pos ≥ stop then return 1
  let first ← index scopedPDU pos
  if first ≠ asn1Integer then return 1
  let some (requestID, _) ← parseInteger (← slice scopedPDU 0 stop) pos | return 1
  return requestID

/-! ### Totality -/

section Totality

variable (data : Bytes) {stop pos : Int} (nonneg : 0 ≤ pos) (stopInside : stop ≤ data.length)

include nonneg stopInside

theorem fittingField_spec (tag : UInt8) :
    Yields (fittingField data stop pos tag) fun result => ∀ n body, result = some (n, body) →
      0 ≤ n ∧ pos ≤ body ∧ body + n ≤ stop := by
  rw [fittingField]
  refine .guard nofun fun inside => ?_
  refine (Yields.index nonneg (by omega)).bind fun first _ => ?_
  refine .guard nofun fun _ => ?_
  refine (parseLength_spec data (by omega)).bind ?_
  rintro ⟨n, body⟩ ⟨onward, -, -⟩
  refine .guard nofun fun fits => .ok ?_
  rintro _ _ ⟨⟩
  omega

theorem boundedField_spec (tag : UInt8) :
    Yields (boundedField data stop pos tag) fun step => ∀ next, step = .parsed next →
      pos ≤ next ∧ next ≤ stop := by
  rw [boundedField]
  refine .guard nofun fun inside => ?_
  refine (Yields.index nonneg (by omega)).bind fun first _ => ?_
  refine .guard nofun fun _ => ?_
  refine (parseLength_spec data (by omega)).bind ?_
  rintro ⟨n, body⟩ ⟨onward, -, -⟩
  refine .guard nofun fun natural => ?_
  refine .guard nofun fun fits => .ok ?_
  rintro _ ⟨⟩
  omega

theorem listEndsAt_spec : Yields (listEndsAt data stop pos) fun _ => True := by
  rw [listEndsAt]
  refine .guard trivial fun inside => ?_
  refine (Yields.index nonneg (by omega)).bind fun tag _ => ?_
  refine .guard trivial fun _ => ?_
  exact (parseLength_spec data (by omega)).bind fun _ _ => .ok trivial

omit stopInside in
theorem enterPDU_spec :
    Yields (enterPDU data pos) fun step => ∀ body stop, step = .parsed (body, stop) →
      0 ≤ body ∧ body ≤ stop ∧ stop ≤ data.length := by
  rw [enterPDU]
  refine .guard nofun fun inside => ?_
  refine (parseLength_spec data (by omega)).bind ?_
  rintro ⟨n, body⟩ ⟨onward, -, -⟩
  refine .guard nofun fun natural => ?_
  refine .guard nofun fun fits => .ok ?_
  rintro _ _ ⟨⟩
  omega

omit stopInside in
theorem skipContextField_spec :
    Yields (skipContextField data pos) fun result => ∀ next, result = some next → 0 ≤ next := by
  refine lenientField_spec data nonneg asn1OctetString ?_ fun length body onward _ _ => .ok ?_
  · rintro _ ⟨⟩
    exact nonneg
  · intro next same
    split at same
    · exact absurd same nofun
    · cases same
      omega

end Totality

/-- A step of the list walker, followed by the rest of the walk. -/
theorem Yields_andThen {α β : Type} {step : ListResult α} {next : α → Checked (ListResult β)}
    {post : ListResult β → Prop} (absent : post .absent) (malformed : post .malformed)
    (parsed : ∀ result, step = .parsed result → Yields (next result) post) :
    Yields (step.andThen next) post := by
  cases step with
  | absent => exact .ok absent
  | malformed => exact .ok malformed
  | parsed result => exact parsed result rfl

/-- **The list walker returns.** An offset it reports lies inside the PDU's part of the buffer. -/
theorem scopedPDUVarBindListPos_spec (scopedPDU : Bytes) :
    Yields (scopedPDUVarBindListPos scopedPDU) fun step => ∀ bounded pos,
      step = .parsed (bounded, pos) → 0 ≤ pos := by
  rw [scopedPDUVarBindListPos]
  refine (boundedField_spec scopedPDU le_rfl le_rfl asn1OctetString).bind fun step engineAt => ?_
  refine Yields_andThen nofun nofun fun pos same => ?_
  have nonneg := (engineAt pos same).1
  refine (boundedField_spec scopedPDU nonneg le_rfl asn1OctetString).bind fun step nameAt => ?_
  refine Yields_andThen nofun nofun fun pos' same => ?_
  refine (enterPDU_spec scopedPDU (nonneg.trans (nameAt pos' same).1)).bind fun step pduAt => ?_
  refine Yields_andThen nofun nofun ?_
  rintro ⟨body, stop⟩ same
  obtain ⟨bodyNonneg, -, stopInside⟩ := pduAt body stop same
  refine (boundedField_spec scopedPDU bodyNonneg stopInside asn1Integer).bind fun step idAt => ?_
  refine Yields_andThen nofun nofun fun statusPos same => ?_
  have statusNonneg := bodyNonneg.trans (idAt statusPos same).1
  refine (boundedField_spec scopedPDU statusNonneg stopInside asn1Integer).bind fun step statusAt => ?_
  refine Yields_andThen nofun nofun fun indexPos same => ?_
  have indexNonneg := statusNonneg.trans (statusAt indexPos same).1
  refine (boundedField_spec scopedPDU indexNonneg stopInside asn1Integer).bind fun step indexAt => ?_
  refine Yields_andThen nofun nofun fun listPos same => ?_
  obtain ⟨onward, ends⟩ := indexAt listPos same
  have listNonneg := indexNonneg.trans onward
  refine (listEndsAt_spec scopedPDU listNonneg stopInside).bind fun exactEnd _ => ?_
  refine .ite (fun _ => ?_) fun _ => .ok nofun
  refine (Yields.slice le_rfl (listNonneg.trans ends) stopInside).bind fun bounded _ => .ok ?_
  rintro _ _ ⟨⟩
  exact listNonneg

theorem parseSetVarBindsFromScopedPDU_spec (scopedPDU : Bytes) :
    Yields (parseSetVarBindsFromScopedPDU scopedPDU) fun result => ∀ binds contents,
      result = .parsed (binds, contents) → ∀ bind ∈ binds, IsOID bind.name := by
  refine (scopedPDUVarBindListPos_spec scopedPDU).bind fun step found => ?_
  refine Yields_andThen nofun nofun ?_
  rintro ⟨bounded, pos⟩ same
  refine (parseVarBinds_spec bounded (found bounded pos same)).mono fun result parsed => ?_
  intro binds contents read
  obtain ⟨-, -, -, -, bindings⟩ := parsed binds contents read
  exact bindings.isOID

theorem parseAllOIDsFromScopedPDU_spec (scopedPDU : Bytes) :
    Yields (parseAllOIDsFromScopedPDU scopedPDU) fun result => ∀ names, result = some names →
      ∀ name ∈ names, IsOID name := by
  rw [parseAllOIDsFromScopedPDU]
  refine (scopedPDUVarBindListPos_spec scopedPDU).bind ?_
  rintro (_ | _ | ⟨bounded, pos⟩) found
  · exact .ok (by rintro _ ⟨⟩ _ ⟨⟩)
  · exact .ok nofun
  · exact parseVarBindNames_spec bounded (found bounded pos rfl)

/-- **The parameters of a GETBULK.** The reader returns on every scoped PDU, with two naturals. -/
theorem parseSNMPv3GetBulkParams_spec (scopedPDU : Bytes) :
    Yields (parseSNMPv3GetBulkParams scopedPDU) fun (nonRepeaters, maxRepetitions) =>
      0 ≤ nonRepeaters ∧ 0 ≤ maxRepetitions := by
  rw [parseSNMPv3GetBulkParams]
  refine (fittingField_spec scopedPDU le_rfl le_rfl asn1OctetString).andThen (Yields.ok (by norm_num)) ?_
  rintro ⟨n, pos⟩ engineAt
  obtain ⟨natural, onward, fits⟩ := engineAt n pos rfl
  refine (fittingField_spec scopedPDU (by omega) le_rfl asn1OctetString).andThen (Yields.ok (by norm_num)) ?_
  rintro ⟨n', pos'⟩ nameAt
  obtain ⟨natural', onward', fits'⟩ := nameAt n' pos' rfl
  refine (fittingField_spec scopedPDU (by omega) le_rfl asn1GetBulk).andThen (Yields.ok (by norm_num)) ?_
  rintro ⟨pduLen, body⟩ pduAt
  obtain ⟨pduNatural, pduOnward, pduFits⟩ := pduAt pduLen body rfl
  refine (fittingField_spec scopedPDU (by omega) pduFits asn1Integer).andThen (Yields.ok (by norm_num)) ?_
  rintro ⟨reqLen, reqPos⟩ reqAt
  obtain ⟨reqNatural, reqOnward, reqFits⟩ := reqAt reqLen reqPos rfl
  refine (fittingField_spec scopedPDU (by omega) pduFits
    asn1Integer).bind ?_
  rintro (_ | ⟨nrLen, nrPos⟩) nrAt
  · exact .ok (by norm_num)
  obtain ⟨nrNatural, nrOnward, nrFits⟩ := nrAt nrLen nrPos rfl
  refine (parseBERInt_spec scopedPDU (by omega) nrLen).bind fun nonRepeaters _ => ?_
  have nonRepeatersNonneg := natOr_nonneg (le_refl 0) nonRepeaters
  refine (fittingField_spec scopedPDU (by omega) pduFits asn1Integer).andThen (Yields.ok ⟨nonRepeatersNonneg, by norm_num⟩) ?_
  rintro ⟨mrLen, mrPos⟩ mrAt
  obtain ⟨-, mrOnward, -⟩ := mrAt mrLen mrPos rfl
  refine (parseBERInt_spec scopedPDU (by omega) mrLen).bind fun maxRepetitions _ => ?_
  exact .ok ⟨nonRepeatersNonneg, natOr_nonneg (by norm_num) maxRepetitions⟩

/-- **The request-id reader returns** on every scoped PDU. -/
theorem extractRequestIDFromScopedPDU_returns (scopedPDU : Bytes) :
    Yields (extractRequestIDFromScopedPDU scopedPDU) fun _ => True := by
  rw [extractRequestIDFromScopedPDU]
  refine .guard trivial fun _ => ?_
  refine (skipContextField_spec scopedPDU le_rfl).andThen (.ok trivial) ?_
  rintro pos engineAt
  refine (skipContextField_spec scopedPDU (engineAt pos rfl)).andThen (.ok trivial) ?_
  rintro pos nameAt
  have nonneg := nameAt pos rfl
  refine .guard trivial fun inside => ?_
  refine (Yields.index nonneg (not_le.mp inside)).bind fun tag _ => ?_
  refine .guard trivial fun _ => ?_
  refine (parseLength_spec scopedPDU (by omega)).bind ?_
  rintro ⟨pduLen, body⟩ ⟨onward, -, -⟩
  refine .guard trivial fun fits => ?_
  refine .guard trivial fun nonempty => ?_
  refine (Yields.index (by omega) (by omega)).bind fun first _ => ?_
  refine .guard trivial fun _ => ?_
  refine (Yields.slice le_rfl (by omega) (by omega)).bind fun bounded _ => ?_
  refine (parseInteger_spec bounded (by omega)).bind ?_
  rintro (_ | ⟨requestID, next⟩) - <;> exact .ok trivial

/-- **The dispatcher's reader returns** on every scoped PDU, and a name it reports is an
identifier. -/
theorem extractOIDAndTypeFromScopedPDU_spec (scopedPDU : Bytes) :
    Yields (extractOIDAndTypeFromScopedPDU scopedPDU) fun result => ∀ oid pduType,
      result = some (oid, pduType) → IsOID oid ∧ servedPDUTag pduType = true := by
  rw [extractOIDAndTypeFromScopedPDU]
  refine .guard nofun fun _ => ?_
  refine (skipField_spec scopedPDU le_rfl asn1OctetString).andThen (.ok nofun) ?_
  rintro namePos engineAt
  have nameNonneg := (engineAt namePos rfl).1
  refine (skipField_spec scopedPDU (by omega) asn1OctetString).andThen (.ok nofun) ?_
  rintro pduPos nameAt
  have pduNonneg := (nameAt pduPos rfl).1
  refine .guard nofun fun inside => ?_
  refine (Yields.index (by omega) (not_le.mp inside)).bind fun pduType _ => ?_
  refine .guard nofun fun unserved => ?_
  have served : servedPDUTag pduType = true := by simpa using unserved
  refine (parseLength_spec scopedPDU (by omega)).bind ?_
  rintro ⟨pduLen, body⟩ ⟨onward, -, -⟩
  refine (skipField_spec scopedPDU (by omega) asn1Integer).andThen (.ok nofun) ?_
  rintro statusPos idAt
  have statusNonneg := (idAt statusPos rfl).1
  refine (skipField_spec scopedPDU (by omega) asn1Integer).andThen (.ok nofun) ?_
  rintro indexPos statusAt
  have indexNonneg := (statusAt indexPos rfl).1
  refine (skipField_spec scopedPDU (by omega) asn1Integer).andThen (.ok nofun) ?_
  rintro listPos indexAt
  have listNonneg := (indexAt listPos rfl).1
  refine (enterField_spec scopedPDU (by omega) asn1Sequence).andThen (.ok nofun) ?_
  rintro bindPos listAt
  refine (enterField_spec scopedPDU (listAt bindPos rfl) asn1Sequence).andThen (.ok nofun) ?_
  rintro oidPos bindAt
  refine (fittingField_spec scopedPDU (bindAt oidPos rfl) le_rfl asn1ObjectID).andThen (.ok nofun) ?_
  rintro ⟨oidLen, octetsPos⟩ oidAt
  obtain ⟨natural, oidOnward, fits⟩ := oidAt oidLen octetsPos rfl
  have oidNonneg := bindAt oidPos rfl
  refine (Yields.slice (by omega) (by omega) fits).bind fun octets _ => ?_
  refine (Yields.of_eq (decodeOID_eq octets)).bind ?_
  rintro _ rfl
  refine .ok fun oid tag same => ?_
  cases decoded : decodeArcs octets with
  | none => simp [decoded] at same
  | some arcs =>
    rw [decoded, Option.elim_some] at same
    split at same
    · exact absurd same nofun
    · cases same
      exact ⟨isOID_of_decodeArcs decoded, served⟩

/-! ### The readers on a well-formed scoped PDU -/

/-- What stands in front of the PDU in the contents of a scoped PDU. -/
structure ScopedContext where
  engineID : Bytes
  engineIDBytes : Bytes
  isEngineID : IsTlv asn1OctetString engineID engineIDBytes
  name : Bytes
  nameBytes : Bytes
  isName : IsTlv asn1OctetString name nameBytes

def ScopedContext.bytes (c : ScopedContext) : Bytes := c.engineIDBytes ++ c.nameBytes

def ScopedContext.pduPos (c : ScopedContext) : Int := 0 + c.engineIDBytes.length + c.nameBytes.length

section WellFormed

variable (c : ScopedContext) (p : PduFront) (list : Bytes) {bytes contents data rest : Bytes}
  {pos : Int}

theorem ScopedContext.at_engineID (rest : Bytes) :
    At (c.bytes ++ rest) 0 (c.engineIDBytes ++ (c.nameBytes ++ rest)) := by
  simpa [ScopedContext.bytes] using At.start (c.bytes ++ rest)

theorem ScopedContext.at_name (rest : Bytes) :
    At (c.bytes ++ rest) (0 + c.engineIDBytes.length) (c.nameBytes ++ rest) :=
  (c.at_engineID rest).advance

theorem ScopedContext.at_pdu (rest : Bytes) : At (c.bytes ++ rest) c.pduPos rest :=
  (c.at_name rest).advance

theorem PduFront.at_tag (rest : Bytes) :
    At (c.bytes ++ (p.bytes ++ rest)) c.pduPos (p.tag :: (p.octets ++ (p.integers ++ rest))) := by
  simpa [PduFront.bytes] using c.at_pdu (p.bytes ++ rest)

theorem PduFront.at_body (rest : Bytes) :
    At (c.bytes ++ (p.bytes ++ rest)) (p.bodyPos c.pduPos) (p.integers ++ rest) :=
  (p.at_tag c rest).step.advance

theorem PduFront.ten_le : ¬ (c.bytes ++ (p.bytes ++ list)).length < 10 := by
  have := IsTlv.two_le c.isEngineID
  have := IsTlv.two_le c.isName
  have := IsTlv.two_le p.isRequestID
  have := IsTlv.two_le p.isStatus
  have := IsTlv.two_le p.isIndex
  simp only [ScopedContext.bytes, PduFront.bytes, PduFront.integers, List.length_append,
    List.length_cons]
  omega

theorem PduFront.Exact.stop_eq {p : PduFront} {list : Bytes} (exactLength : p.Exact list) :
    p.bodyPos c.pduPos + p.length = (c.bytes ++ (p.bytes ++ list)).length := by
  have total := (p.at_body c list).length_eq
  have parts : (p.integers ++ list).length = p.integers.length + list.length := List.length_append
  rw [total, exactLength, parts]

theorem boundedField_at {tag : UInt8} {stop : Int} (here : At data pos (bytes ++ rest))
    (element : IsTlv tag contents bytes) (inside : pos + bytes.length ≤ stop) :
    boundedField data stop pos tag = .ok (.parsed (pos + bytes.length)) := by
  obtain ⟨body, tagRead, lengthRead, onward, -, ends⟩ := element_at here element
  have below : ¬ pos ≥ stop := by omega
  have fits : ¬ (contents.length : Int) > stop - body := by omega
  simp [boundedField, below, tagRead, lengthRead, not_lt.mpr, fits, ends]

theorem skipContextField_at (here : At data pos (bytes ++ rest))
    (element : IsTlv asn1OctetString contents bytes) :
    skipContextField data pos = .ok (some (pos + bytes.length)) := by
  obtain ⟨body, found, -, ends, -⟩ := lenientField_at here element
  rw [skipContextField, found, if_neg (by omega), ends]

theorem fittingField_at {tag : UInt8} {stop : Int} (here : At data pos (bytes ++ rest))
    (element : IsTlv tag contents bytes) (inside : pos + bytes.length ≤ stop) :
    ∃ body, fittingField data stop pos tag = .ok (some ((contents.length : Int), body)) ∧
      At data body (contents ++ rest) ∧ body + contents.length = pos + bytes.length := by
  obtain ⟨body, tagRead, lengthRead, onward, contentsAt, ends⟩ := element_at here element
  have below : ¬ pos ≥ stop := by omega
  have fits : ¬ ((contents.length : Int) < 0 ∨ body + contents.length > stop) := by omega
  refine ⟨body, ?_, contentsAt, ends⟩
  simp [fittingField, below, tagRead, lengthRead, fits]

theorem listEndsAt_at {list : Bytes} (here : At data pos (list ++ []))
    (isList : IsTlv asn1Sequence contents list) : listEndsAt data data.length pos = .ok true := by
  obtain ⟨after, tagRead, lengthRead, onward, -, stopsThere⟩ := element_at here isList
  have total := here.length_eq
  rw [List.append_nil] at total
  have inside : ¬ pos ≥ data.length := by omega
  have exactEnd : ¬ ((contents.length : Int) ≥ 0 ∧ ((contents.length : Int) > data.length - after ∨
      after + contents.length ≠ data.length)) := by omega
  simp only [listEndsAt, inside, ↓reduceIte, tagRead, ok_bind, ne_eq, not_true_eq_false, lengthRead,
    exactEnd, pure_eq_ok, decide_true, not_false_eq_true]

variable {c p list}

/-- The list walker reaches the list, and the PDU's part of the buffer is all of it. -/
theorem scopedPDUVarBindListPos_at (exactLength : p.Exact list)
    (isList : IsTlv asn1Sequence contents list) :
    scopedPDUVarBindListPos (c.bytes ++ (p.bytes ++ list)) =
      .ok (.parsed (c.bytes ++ (p.bytes ++ list), p.listPos c.pduPos)) := by
  have stops := exactLength.stop_eq c
  have body := p.at_body c list
  have idAt : At (c.bytes ++ (p.bytes ++ list)) (p.bodyPos c.pduPos)
      (p.requestIDBytes ++ (p.statusBytes ++ (p.indexBytes ++ list))) := by
    simpa [PduFront.integers] using body
  have listPos_eq : p.bodyPos c.pduPos + p.requestIDBytes.length + p.statusBytes.length +
      p.indexBytes.length = p.listPos c.pduPos := by
    simp only [PduFront.listPos, PduFront.integers, List.length_append]
    push_cast
    ring
  have listAt : At (c.bytes ++ (p.bytes ++ list)) (p.listPos c.pduPos) (list ++ []) := by
    rw [List.append_nil]
    exact body.advance
  have engineAt := c.at_engineID (p.bytes ++ list)
  have nameAt := c.at_name (p.bytes ++ list)
  have pduAt := p.at_tag c list
  generalize c.bytes ++ (p.bytes ++ list) = data at *
  have engine := boundedField_at engineAt c.isEngineID nameAt.le_length
  have name : boundedField data data.length (0 + c.engineIDBytes.length) asn1OctetString =
      .ok (.parsed c.pduPos) := boundedField_at nameAt c.isName pduAt.le_length
  have pdu : enterPDU data c.pduPos =
      .ok (.parsed (p.bodyPos c.pduPos, p.bodyPos c.pduPos + p.length)) := by
    have inside : ¬ c.pduPos ≥ data.length := not_le.mpr pduAt.lt_length
    have fits : ¬ (p.length : Int) > data.length - p.bodyPos c.pduPos := by omega
    have length : parseLength data (c.pduPos + 1) = .ok ((p.length : Int), p.bodyPos c.pduPos) :=
      parseLength_at pduAt.step p.isLength
    simp only [enterPDU, inside, ↓reduceIte, length, ok_bind, Int.natCast_nonneg, not_lt.mpr, fits,
      pure_eq_ok]
  rw [stops] at pdu
  have requestID := boundedField_at idAt p.isRequestID idAt.advance.le_length
  have status := boundedField_at idAt.advance p.isStatus idAt.advance.advance.le_length
  have index := boundedField_at idAt.advance.advance p.isIndex
    idAt.advance.advance.advance.le_length
  rw [listPos_eq] at index
  have ends := listEndsAt_at listAt isList
  simp only [scopedPDUVarBindListPos, engine, name, pdu, requestID, status, index, ends, ok_bind,
    ListResult.andThen, ↓reduceIte, (At.start data).toEnd, pure_eq_ok]

theorem parseSetVarBindsFromScopedPDU_at {binds : List SnmpVarBind} (exactLength : p.Exact list)
    (isList : IsTlv asn1Sequence contents list) (bindings : IsVarBinds binds contents) :
    parseSetVarBindsFromScopedPDU (c.bytes ++ (p.bytes ++ list)) = .ok (.parsed (binds, contents)) := by
  have listAt : At (c.bytes ++ (p.bytes ++ list)) (p.listPos c.pduPos) (list ++ []) := by
    rw [List.append_nil]
    exact (p.at_body c list).advance
  simp [parseSetVarBindsFromScopedPDU, scopedPDUVarBindListPos_at exactLength isList,
    ListResult.andThen, parseVarBinds_at listAt isList bindings]

/-- The request-id reader of this path takes the octets without a sign. -/
theorem extractRequestIDFromScopedPDU_at (exactLength : p.Exact list)
    (served : servedPDUTag p.tag = true) :
    extractRequestIDFromScopedPDU (c.bytes ++ (p.bytes ++ list)) =
      .ok (int64 (Octets.value p.requestID)) := by
  have long := p.ten_le c list
  have stops := exactLength.stop_eq c
  have engineAt := c.at_engineID (p.bytes ++ list)
  have nameAt := c.at_name (p.bytes ++ list)
  have pduAt := p.at_tag c list
  have idAt : At (c.bytes ++ (p.bytes ++ list)) (p.bodyPos c.pduPos)
      (p.requestIDBytes ++ (p.statusBytes ++ (p.indexBytes ++ list))) := by
    simpa [PduFront.integers] using p.at_body c list
  generalize c.bytes ++ (p.bytes ++ list) = data at *
  have engine := skipContextField_at engineAt c.isEngineID
  have name : skipContextField data (0 + c.engineIDBytes.length) = .ok (some c.pduPos) :=
    skipContextField_at nameAt c.isName
  have inside : ¬ c.pduPos ≥ data.length := not_le.mpr pduAt.lt_length
  have length : parseLength data (c.pduPos + 1) = .ok ((p.length : Int), p.bodyPos c.pduPos) :=
    parseLength_at pduAt.step p.isLength
  have fits : ¬ ((p.length : Int) < 0 ∨ (data.length : Int) > data.length) := by omega
  have nonempty : ¬ p.bodyPos c.pduPos ≥ data.length := by
    have := idAt.advance.le_length
    have := IsTlv.two_le p.isRequestID
    omega
  obtain ⟨-, tagRead, -⟩ := element_at idAt p.isRequestID
  simp only [extractRequestIDFromScopedPDU, long, ↓reduceIte, engine, name, ok_bind, inside,
    pduAt.index, served, Bool.not_true, Bool.false_eq_true, length, fits, stops, nonempty, tagRead,
    ne_eq, not_true_eq_false, (At.start data).toEnd, parseInteger_at idAt p.isRequestID, pure_eq_ok]

/-- The dispatcher's reader reports the first name of the list, whatever follows it. -/
theorem extractOIDAndTypeFromScopedPDU_at {bind : SnmpVarBind} {bindBytes more : Bytes}
    (served : servedPDUTag p.tag = true) (isList : IsTlv asn1Sequence (bindBytes ++ more) list)
    (binding : IsVarBind bind bindBytes) :
    extractOIDAndTypeFromScopedPDU (c.bytes ++ (p.bytes ++ list)) = .ok (some (bind.name, p.tag)) := by
  have long := p.ten_le c list
  have engineAt := c.at_engineID (p.bytes ++ list)
  have nameAt := c.at_name (p.bytes ++ list)
  have pduAt := p.at_tag c list
  have bodyAt := p.at_body c list
  generalize c.bytes ++ (p.bytes ++ list) = data at *
  have engine := skipField_at engineAt c.isEngineID
  have name : skipField data (0 + c.engineIDBytes.length) asn1OctetString = .ok (some c.pduPos) :=
    skipField_at nameAt c.isName
  have inside : ¬ c.pduPos ≥ data.length := not_le.mpr pduAt.lt_length
  have length : parseLength data (c.pduPos + 1) = .ok ((p.length : Int), p.bodyPos c.pduPos) :=
    parseLength_at pduAt.step p.isLength
  obtain ⟨requestID, status, index⟩ := skipIntegers_at list p bodyAt
  have listAt : At data (p.bodyPos c.pduPos + p.integers.length) (list ++ []) := by
    rw [List.append_nil]
    exact bodyAt.advance
  obtain ⟨bindPos, listEntered, bindAt⟩ := enterField_at listAt isList
  obtain ⟨octets, nameBytes, valueBytes, arcs, isName, decoded, named, -, isBind⟩ := binding
  rw [List.append_assoc] at bindAt
  obtain ⟨oidPos, bindEntered, oidAt⟩ := enterField_at bindAt isBind
  rw [List.append_assoc] at oidAt
  obtain ⟨octetsPos, oidRead, octetsAt, -⟩ := fittingField_at oidAt isName oidAt.advance.le_length
  have nonempty : dotted arcs ≠ [] := by
    obtain ⟨first, rest, rfl⟩ := List.exists_cons_of_ne_nil (decodeArcs_ne_nil decoded)
    simp
  simp only [extractOIDAndTypeFromScopedPDU, long, ↓reduceIte, engine, name, ok_bind, inside,
    pduAt.index, served, Bool.not_true, Bool.false_eq_true, length, requestID, status, index,
    listEntered, bindEntered, oidRead, octetsAt.slice, decodeOID_eq, decoded, Option.elim_some,
    nonempty, named, pure_eq_ok]

end WellFormed

end Nl6
