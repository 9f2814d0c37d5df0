import Nl6.Mib.Validate
import Nl6.Wire.Envelope

/-! # v1/v2c responses

`createVarbindResponse` frames the answer to a GET, GETNEXT or GETBULK. What depends on the kind of
request (what happens on overflow, which answers an SNMPv1 manager cannot represent, which names an
error echoes) is passed in as `VarbindResponseRules`. The size of a message is computed beside the
encoder, by `snmpMessageSizeFor`, before a binding is committed.
-/

namespace Nl6

open Numeral Checked

/-! ### Error statuses -/

def snmpErrNoError : Int := 0
def snmpErrTooBig : Int := 1
def snmpErrNoSuchName : Int := 2
def snmpErrBadValue : Int := 3
def snmpErrGenErr : Int := 5
def snmpErrNoAccess : Int := 6
def snmpErrWrongType : Int := 7
def snmpErrWrongLength : Int := 8
def snmpErrWrongEncoding : Int := 9
def snmpErrWrongValue : Int := 10
def snmpErrNoCreation : Int := 11
def snmpErrInconsistentValue : Int := 12
def snmpErrResourceUnavailable : Int := 13
def snmpErrCommitFailed : Int := 14
def snmpErrUndoFailed : Int := 15
def snmpErrAuthorizationError : Int := 16
def snmpErrNotWritable : Int := 17
def snmpErrInconsistentName : Int := 18

def snmpVersion1 : Int := 0

/-! ### Framing -/

/-- A Response-PDU: the three integers and the variable-bindings list. -/
def encodeResponsePDU (requestID errStatus errIndex : Int) (varBindList : Bytes) : Bytes :=
  encodeTLV asn1GetResponse (encodeInteger requestID ++ encodeInteger errStatus ++
    encodeInteger errIndex ++ encodeSequence varBindList)

def encodeGetResponseAt (req : SNMPRequest) (varBindList : Bytes) (errStatus errIndex : Int) : Bytes :=
  encodeSequence (encodeInteger req.version ++ encodeOctetString req.community ++
    encodeResponsePDU req.requestID errStatus errIndex varBindList)

def encodeGetResponse (req : SNMPRequest) (varBindList : Bytes) (errStatus : Int) : Bytes :=
  encodeGetResponseAt req varBindList errStatus 0

def lenBytesFor (n : Nat) : Nat := if n < 128 then 1 else if n < 256 then 2 else 3

def snmpMessageSizeFor (msgPrefix pduPrefix varBindLen : Nat) : Nat :=
  let vbSeq := 1 + lenBytesFor varBindLen + varBindLen
  let pduContents := pduPrefix + vbSeq
  let pdu := 1 + lenBytesFor pduContents + pduContents
  let msgContents := msgPrefix + pdu
  1 + lenBytesFor msgContents + msgContents

/-- The size of the message prefix: version and community. -/
def msgPrefixLen (req : SNMPRequest) : Nat :=
  (encodeInteger req.version).length + (encodeOctetString req.community).length

/-- The size of the PDU prefix: request-id, error-status and error-index of a success. -/
def pduPrefixLen (req : SNMPRequest) : Nat :=
  (encodeInteger req.requestID).length + (encodeInteger 0).length + (encodeInteger 0).length

/-! ### Rules -/

/-- `snmpOverflowRule`. The first one is the zero value and not a rule. -/
inductive OverflowRule where
  | unset
  | truncate
  | tooBig
  deriving DecidableEq, Repr

/-- `v1DiversionRule`. The first one is the zero value and not a rule. -/
inductive V1DiversionRule where
  | unset
  | nothing
  | sentinel
  | sentinelAndCounter64
  deriving DecidableEq, Repr

/-- `varbindResponseRules`. Without names to echo, the bindings' own are echoed. -/
structure VarbindResponseRules where
  overflow : OverflowRule
  v1Diversion : V1DiversionRule
  echoNames : Option (List Bytes)

/-- `resolveDefaults`: a field left unset becomes the strictest rule. -/
def VarbindResponseRules.resolveDefaults (rules : VarbindResponseRules) : VarbindResponseRules :=
  { rules with
    overflow := if rules.overflow = .unset then .tooBig else rules.overflow
    v1Diversion := if rules.v1Diversion = .unset then .sentinelAndCounter64 else rules.v1Diversion }

/-! ### The builder -/

def encodeBinding (binding : Bytes × Bytes) : Bytes :=
  encodeSequence (encodeOID binding.1 ++ encodeTypedValue binding.1 binding.2)

/-- Whether an SNMPv1 response cannot carry a binding, under a diversion rule. -/
def offends (rule : V1DiversionRule) (binding : Bytes × Bytes) : Bool :=
  isSNMPExceptionValue binding.2 ||
    (rule = .sentinelAndCounter64 && snmpTypeTag binding.1 = asn1Counter64)

/-- The names of an error response with NULL values. -/
def encodeEcho (names : List Bytes) : Bytes := names.flatMap fun name => encodeVarBind name encodeNull

/-- The sizing loop: the bindings that fit, and whether any had to be dropped. Under `truncate` the
first binding is emitted even when it does not fit. -/
def fillBindings (sizeFor : Nat → Nat) (maxSize : Int) (overflow : OverflowRule) :
    List (Bytes × Bytes) → Bytes → Bytes × Bool
  | [], varBindList => (varBindList, false)
  | binding :: rest, varBindList =>
    let varBinding := encodeBinding binding
    if sizeFor (varBindList.length + varBinding.length) > maxSize then
      (if varBindList = [] ∧ overflow = .truncate then varBindList ++ varBinding else varBindList,
        true)
    else fillBindings sizeFor maxSize overflow rest (varBindList ++ varBinding)

/-- The SNMPv1 diversion of `createVarbindResponse`: an error that echoes the request's names, at
the first binding v1 cannot carry. -/
def divertV1 (req : SNMPRequest) (rules : VarbindResponseRules) (bindings : List (Bytes × Bytes)) :
    Option Bytes :=
  if req.version = snmpVersion1 ∧ rules.v1Diversion ≠ .nothing then
    let names := rules.echoNames.getD (bindings.map Prod.fst)
    let names := if names.length ≠ bindings.length then [] else names
    (bindings.findIdx? (offends rules.v1Diversion)).map fun i =>
      encodeGetResponseAt req (encodeEcho names) snmpErrNoSuchName (i + 1)
  else none

/-- `createSNMPResponse`: a single binding, without a size bound. -/
def createSNMPResponse (req : SNMPRequest) (oid value : Bytes) : Bytes :=
  if req.version = snmpVersion1 ∧ isSNMPExceptionValue value then
    encodeGetResponseAt req (encodeVarBind oid encodeNull) snmpErrNoSuchName 1
  else encodeGetResponseAt req (encodeBinding (oid, value)) snmpErrNoError 0

/-- The part of `createVarbindResponse` behind the parsing of the request. -/
def frameBindings (maxSize : Int) (req : SNMPRequest) (rules : VarbindResponseRules)
    (bindings : List (Bytes × Bytes)) : Bytes :=
  match divertV1 req rules bindings with
  | some response => response
  | none =>
    let sizeFor := snmpMessageSizeFor (msgPrefixLen req) (pduPrefixLen req)
    let (varBindList, truncated) := fillBindings sizeFor maxSize rules.overflow bindings []
    if truncated ∧ rules.overflow = .tooBig then encodeGetResponse req [] snmpErrTooBig
    else encodeGetResponse req varBindList snmpErrNoError

def createVarbindResponse (maxSize : Int) (oids responses : List Bytes) (requestData : Bytes)
    (rules : VarbindResponseRules) : Checked Bytes := do
  let req ← parseIncomingRequest requestData
  if oids.length ≠ responses.length then
    return createSNMPResponse req (ascii ".1.3.6.1.2.1.1.1.0") (ascii "No data")
  return frameBindings maxSize req rules.resolveDefaults (oids.zip responses)

def getBulkRules : VarbindResponseRules := ⟨.truncate, .nothing, none⟩

def getRules : VarbindResponseRules := ⟨.tooBig, .sentinelAndCounter64, none⟩

/-- The rules of a GETNEXT: its bindings are successors, so the request's names are passed in. -/
def getNextRules (names : List Bytes) : VarbindResponseRules := ⟨.tooBig, .sentinel, some names⟩

def createGetBulkResponse (maxSize : Int) (oids responses : List Bytes) (requestData : Bytes) :
    Checked Bytes :=
  createVarbindResponse maxSize oids responses requestData getBulkRules

def createGetResponse (maxSize : Int) (oids responses : List Bytes) (requestData : Bytes) :
    Checked Bytes :=
  createVarbindResponse maxSize oids responses requestData getRules

def createGetNextResponse (maxSize : Int) (names oids responses : List Bytes) (requestData : Bytes) :
    Checked Bytes :=
  createVarbindResponse maxSize oids responses requestData (getNextRules names)

def createTooBigResponse (requestData : Bytes) : Checked Bytes := do
  return encodeGetResponse (← parseIncomingRequest requestData) [] snmpErrTooBig

/-! ### The builders return -/

/-- A response in the frame of its request: version, community and request-id are the request's. -/
def Answers (requestData response : Bytes) : Prop :=
  ∃ req varBindList errStatus errIndex, parseIncomingRequest requestData = .ok req ∧
    response = encodeGetResponseAt req varBindList errStatus errIndex

theorem frameBindings_eq (maxSize : Int) (req : SNMPRequest) (rules : VarbindResponseRules)
    (bindings : List (Bytes × Bytes)) :
    ∃ varBindList errStatus errIndex,
      frameBindings maxSize req rules bindings = encodeGetResponseAt req varBindList errStatus errIndex := by
  rw [frameBindings]
  cases diverted : divertV1 req rules bindings with
  | some response =>
    rw [divertV1] at diverted
    split_ifs at diverted
    obtain ⟨i, -, rfl⟩ := Option.map_eq_some_iff.mp diverted
    exact ⟨_, _, _, rfl⟩
  | none =>
    dsimp only
    split_ifs <;> exact ⟨_, _, _, rfl⟩

theorem createVarbindResponse_spec (maxSize : Int) (oids responses : List Bytes)
    (requestData : Bytes) (rules : VarbindResponseRules) :
    Yields (createVarbindResponse maxSize oids responses requestData rules)
      (Answers requestData) := by
  obtain ⟨req, parsed, -⟩ := parseIncomingRequest_spec requestData
  rw [createVarbindResponse]
  refine (Yields.of_eq parsed).bind ?_
  rintro _ rfl
  refine Yields.ite (fun _ => Yields.ok ?_) fun _ => Yields.ok ?_
  · rw [createSNMPResponse]
    split_ifs <;> exact ⟨req, _, _, _, parsed, rfl⟩
  · obtain ⟨varBindList, errStatus, errIndex, framed⟩ :=
      frameBindings_eq maxSize req rules.resolveDefaults (oids.zip responses)
    exact ⟨req, varBindList, errStatus, errIndex, parsed, framed⟩

theorem createTooBigResponse_spec (requestData : Bytes) :
    Yields (createTooBigResponse requestData) (Answers requestData) := by
  obtain ⟨req, parsed, -⟩ := parseIncomingRequest_spec requestData
  refine (Yields.of_eq parsed).bind ?_
  rintro _ rfl
  exact Yields.ok ⟨req, _, _, _, parsed, rfl⟩

end Nl6
