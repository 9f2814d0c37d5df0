import Nl6.Engine.Run
import Nl6.V3.Respond

/-! # The SNMP server of a device

`handleSingleRequest` classifies a datagram and hands it to the v1/v2c or the SNMPv3 dispatcher. Both
read the device; a SET may also write its interface-state engine. A handler is therefore a function
from a server and a datagram to an `Outcome`: the datagram sent back (empty when none is sent), the
engine afterwards and the events broadcast on the way.
-/

namespace Nl6

open Numeral Checked

/-! ### Servers -/

/-- `snmpSecurityLevel`. The first one is the zero value and not a level. -/
inductive SecurityLevel where
  | unset
  | noAuthNoPriv
  | authNoPriv
  | authPriv
  deriving DecidableEq, Repr

/-- The integer behind a level, which is what levels are compared by. -/
def SecurityLevel.rank : SecurityLevel → Nat
  | unset => 0
  | noAuthNoPriv => 1
  | authNoPriv => 2
  | authPriv => 3

structure SetAdmissionConfig where
  writeCommunity : Bytes
  minSecurityLevel : SecurityLevel

def SetAdmissionConfig.effectiveMinSecurityLevel (c : SetAdmissionConfig) : SecurityLevel :=
  if c.minSecurityLevel = .unset then .authNoPriv else c.minSecurityLevel

/-- What one request sees of `SNMPServer`: the device with the metric point of the request, the
SNMPv3 side, the policy for writes, the bound of a response, and the clock readings of the
assignments of a SET. -/
structure SNMPServer where
  device : Device
  point : MetricPoint
  v3 : SNMPv3Engine
  setAdmission : SetAdmissionConfig
  maxSNMPResponseSize : Int
  clock : Nat → Nat

/-- What a request leaves behind: the datagram sent, the interface-state engine and the events
broadcast. -/
structure Outcome where
  response : Bytes
  engine : Option InterfaceState
  events : List StateChange

namespace SNMPServer

variable (s : SNMPServer)

def interfaceState : Option InterfaceState := s.device.ifCycler.bind IfCounterCycler.state

/-- The outcome of a request that writes nothing. -/
def reply (response : Bytes) : Outcome := ⟨response, s.interfaceState, []⟩

/-! ### SET -/

end SNMPServer

/-- `writableObject`, without its reason. -/
structure WritableObject where
  column : Bytes
  tag : UInt8
  inRange : Int → Bool

def ifAdminStatusColumn : Bytes := ascii "1.3.6.1.2.1.2.2.1.7"

/-- The row of `ifAdminStatus`. -/
def ifAdminStatusRow : WritableObject where
  column := ifAdminStatusColumn
  tag := asn1Integer
  inRange v := decide ((adminUp : Int) ≤ v ∧ v ≤ adminTesting)

def writableColumns : List WritableObject := [ifAdminStatusRow]

/-- `strings.TrimPrefix(name, ".")`. -/
def trimDot (name : Bytes) : Bytes := if name.head? = some dot then name.tail else name

/-- `writableFor`: the first row whose column prefixes the name, and the suffix behind it. -/
def writableFor (name : Bytes) : Option (WritableObject × Bytes) :=
  let n := trimDot name
  writableColumns.findSome? fun w =>
    if n = w.column then some (w, [])
    else (afterPrefix (w.column ++ [dot]) n).map fun suffix => (w, suffix)

def instanceIndex (suffix : Bytes) : Option Int :=
  if suffix = [] ∨ dot ∈ suffix then none
  else
    let (n, parsed) := atoi suffix
    if parsed = false ∨ n ≤ 0 ∨ itoaInt n ≠ suffix then none else some n

structure SetVerdict where
  errStatus : Int
  errIndex : Int
  deriving DecidableEq, Repr

structure SetAction where
  column : Bytes
  ifIndex : Int
  value : Int
  deriving DecidableEq, Repr

/-- What deciding a SET leaves behind. -/
structure SetDecision where
  verdict : SetVerdict
  engine : Option InterfaceState
  events : List StateChange

def v1SetErrorStatus (v2 : Int) : Int :=
  if v2 ∈ [snmpErrNoAccess, snmpErrNotWritable, snmpErrNoCreation, snmpErrInconsistentName,
      snmpErrAuthorizationError] then snmpErrNoSuchName
  else if v2 ∈ [snmpErrWrongType, snmpErrWrongLength, snmpErrWrongEncoding, snmpErrWrongValue,
      snmpErrInconsistentValue] then snmpErrBadValue
  else if v2 ∈ [snmpErrResourceUnavailable, snmpErrCommitFailed, snmpErrUndoFailed] then snmpErrGenErr
  else v2

def createSetResponse (requestData echoed : Bytes) (verdict : SetVerdict) : Checked Bytes := do
  let req ← parseIncomingRequest requestData
  let errStatus :=
    if req.version = snmpVersion1 then v1SetErrorStatus verdict.errStatus else verdict.errStatus
  let errIndex := if errStatus = snmpErrNoError then 0 else verdict.errIndex
  return encodeGetResponseAt req echoed errStatus errIndex

namespace SNMPServer

variable (s : SNMPServer)

def ownsIfIndex (n : Int) : Bool :=
  match s.device.ifCycler with
  | none => false
  | some ic => ic.sortedIfIndexes.any fun i => (i : Int) = n

/-- The body of the loop of `validateSetBindings`: the action of a binding, or the error-status of
the first test it fails. -/
def checkSetBinding (b : SnmpVarBind) : Checked (Except Int SetAction) := do
  let some (row, suffix) := writableFor b.name | return .error snmpErrNotWritable
  if b.tag ≠ row.tag then return .error snmpErrWrongType
  let some v ← parseBERInt b.content 0 b.content.length | return .error snmpErrWrongEncoding
  if !row.inRange v then return .error snmpErrWrongValue
  let some n := (instanceIndex suffix).filter s.ownsIfIndex | return .error snmpErrNoCreation
  return .ok { column := row.column, ifIndex := n, value := v }

/-- `validateSetBindings`, from the binding with the given number on. -/
def validateSetBindings : Nat → List SnmpVarBind → Checked (Except SetVerdict (List SetAction))
  | _, [] => .ok (.ok [])
  | i, b :: binds => do
      match ← s.checkSetBinding b with
      | .error errStatus => return .error ⟨errStatus, i + 1⟩
      | .ok action =>
        let rest ← validateSetBindings (i + 1) binds
        return rest.map (action :: ·)

/-- `applySetActions`, from the action with the given number on: every event an assignment returns
is broadcast. -/
def applySetActions : Nat → Option InterfaceState → List SetAction → SetDecision
  | _, state, [] => ⟨⟨snmpErrNoError, 0⟩, state, []⟩
  | i, none, _ :: _ => ⟨⟨snmpErrGenErr, i + 1⟩, none, []⟩
  | i, some state, a :: actions =>
    if a.column ≠ ifAdminStatusColumn then ⟨⟨snmpErrGenErr, i + 1⟩, some state, []⟩
    else
      let (state, events) := state.applyAdminStatus a.ifIndex (a.value % 2 ^ 8) (s.clock i)
      let rest := applySetActions (i + 1) (some state) actions
      { rest with events := events ++ rest.events }

def decideSet (binds : List SnmpVarBind) : Checked SetDecision := do
  match ← s.validateSetBindings 0 binds with
  | .error verdict => return ⟨verdict, s.interfaceState, []⟩
  | .ok actions => return s.applySetActions 0 s.interfaceState actions

def handleSetRequest (requestData : Bytes) : Checked Outcome := do
  let some (pos, pduEnd) ← requestVarBindListPos requestData | return s.reply []
  if pduEnd > requestData.length ∨ pos > pduEnd then return s.reply []
  if !(← listEndsAt requestData pduEnd pos) then return s.reply []
  let .parsed (binds, echoed) ← parseVarBinds (← slice requestData 0 pduEnd) pos
    | return s.reply []
  let v ← s.decideSet binds
  return ⟨← createSetResponse requestData echoed v.verdict, v.engine, v.events⟩

/-- `handleSNMPv3Set`, for a message whose scoped PDU has been decrypted and unwrapped. -/
def handleSNMPv3Set (v3Msg : SNMPv3Message) : Checked Outcome := do
  let .parsed (binds, echoed) ← parseSetVarBindsFromScopedPDU v3Msg.scopedPDU | return s.reply []
  let v ← s.decideSet binds
  let errIndex := if v.verdict.errStatus = snmpErrNoError then 0 else v.verdict.errIndex
  let response ← s.v3.respondEncoded (s.v3.draws 0) echoed v.verdict.errStatus errIndex v3Msg
  return ⟨response.getD [], v.engine, v.events⟩

/-! ### Admission of writes -/

def securityLevelOf (flags : UInt8) : SecurityLevel :=
  if hasFlag flags snmpv3MsgFlagAuth && hasFlag flags snmpv3MsgFlagPriv then .authPriv
  else if hasFlag flags snmpv3MsgFlagAuth then .authNoPriv
  else .noAuthNoPriv

def admitSetV2c (req : SNMPRequest) : Bool :=
  let want := s.setAdmission.writeCommunity
  if want = [] then false
  else if !req.communityParsed then false
  else decide (req.community = want)

def admitSetV3 (v3Msg : SNMPv3Message) : Bool :=
  decide ((securityLevelOf v3Msg.globalData.msgFlags).rank ≥
    s.setAdmission.effectiveMinSecurityLevel.rank)

/-! ### GET, GETNEXT and GETBULK -/

def longestShippedCounter64Run : Int := 1152

def maxGetNextBindings : Int := s.maxSNMPResponseSize.tdiv minVarbindSize

/-- `newCounter64SkipBudget`. A budget below zero is an exhausted one. -/
def newCounter64SkipBudget : Nat := (s.maxGetNextBindings * longestShippedCounter64Run).toNat

/-- The condition of the skip loop. -/
def isCounter64 (oid : Bytes) : Bool := oid ≠ [] && snmpTypeTag oid = asn1Counter64

/-- The skip loop of `getNextBinding`: the binding it stops at and what is left of the budget. -/
def skipCounter64 : Nat → Bytes → Bytes → Checked (Bytes × Bytes × Nat)
  | 0, responseOID, response =>
    .ok (if isCounter64 responseOID then [] else responseOID, response, 0)
  | remaining + 1, responseOID, response =>
    if isCounter64 responseOID then do
      let (nextOID, next) ← s.device.findNextOIDWithServed s.point responseOID
        s.device.lldpServedOIDs
      if nextOID ≠ [] ∧ compareOIDs nextOID responseOID ≤ 0 then return ([], next, remaining)
      skipCounter64 remaining nextOID next
    else .ok (responseOID, response, remaining + 1)

/-- The skip of `getNextBinding`, made for SNMPv1 only. -/
def skipForVersion (version : Int) (budget : Nat) (responseOID response : Bytes) :
    Checked (Bytes × Bytes × Nat) :=
  if version = snmpVersion1 then s.skipCounter64 budget responseOID response
  else .ok (responseOID, response, budget)

/-- `getNextBinding`, with what is left of the budget. -/
def getNextBinding (requested : Bytes) (version : Int) (budget : Nat) : Checked (Binding × Nat) := do
  let (responseOID, response) ← s.device.findNextOIDWithServed s.point requested
    s.device.lldpServedOIDs
  let (responseOID, response, budget) ← s.skipForVersion version budget responseOID response
  return (if responseOID = [] then endOfMibPad requested else (responseOID, response), budget)

/-- `getNextBindingsForRequest`: the bindings draw from one budget. -/
def getNextBindingsForRequest (version : Int) : List Bytes → Nat → Checked (List Binding)
  | [], _ => .ok []
  | requested :: oids, budget => do
      let (binding, budget) ← s.getNextBinding requested version budget
      return binding :: (← getNextBindingsForRequest version oids budget)

/-- The names a request is answered for: with none, the one the request parser carries. -/
def orFallback (oids : List Bytes) (oid : Bytes) : List Bytes := if oids.length = 0 then [oid] else oids

/-- The GETNEXT branch of `handleSNMPv2cRequest`. -/
def handleGetNext (req : SNMPRequest) (requestData : Bytes) : Checked Bytes := do
  let some oids ← parseAllOIDsFromRequest requestData | return []
  let oids := orFallback oids req.oid
  if oids.length > s.maxGetNextBindings then createTooBigResponse requestData
  else
    let bindings ← s.getNextBindingsForRequest req.version oids s.newCounter64SkipBudget
    createGetNextResponse s.maxSNMPResponseSize oids (bindings.map Prod.fst) (bindings.map Prod.snd)
      requestData

def handleGetBulk (startOID requestData : Bytes) : Checked Bytes := do
  let (nonRepeaters, maxRepetitions) ← parseGetBulkParams requestData
  let some allOIDs ← parseAllOIDsFromRequest requestData | return []
  let bindings ← s.device.collectGetBulk s.point s.maxSNMPResponseSize (orFallback allOIDs startOID)
    nonRepeaters maxRepetitions
  createGetBulkResponse s.maxSNMPResponseSize (bindings.map Prod.fst) (bindings.map Prod.snd)
    requestData

/-- The GET branch of `handleSNMPv2cRequest`, with `handleGetRequestVarbinds`. -/
def handleGet (req : SNMPRequest) (requestData : Bytes) : Checked Bytes := do
  let some oids ← parseAllOIDsFromRequest requestData | return []
  let oids := orFallback oids req.oid
  createGetResponse s.maxSNMPResponseSize oids (oids.map (s.device.findResponseAt s.point)) requestData

def handleSNMPv2cRequest (requestData : Bytes) : Checked Outcome := do
  let req ← parseIncomingRequest requestData
  let pduType ← getPDUType requestData
  if pduType = asn1GetNext then return s.reply (← s.handleGetNext req requestData)
  else if pduType = asn1GetBulk then return s.reply (← s.handleGetBulk req.oid requestData)
  else if pduType = asn1SetRequest then
    if !s.admitSetV2c req then return s.reply [] else s.handleSetRequest requestData
  else return s.reply (← s.handleGet req requestData)

/-! ### SNMPv3 -/

/-- `handleSNMPv3GetBulk`, for a message whose scoped PDU has been decrypted and unwrapped. -/
def handleSNMPv3GetBulk (startOID : Bytes) (msg : SNMPv3Message) : Checked Bytes := do
  let (nonRepeaters, maxRepetitions) ← parseSNMPv3GetBulkParams msg.scopedPDU
  let some allOIDs ← parseAllOIDsFromScopedPDU msg.scopedPDU | return []
  let allOIDs := orFallback allOIDs startOID
  let (bindings, repeated) ← s.device.collectSNMPv3GetBulk s.point s.maxSNMPResponseSize allOIDs
    nonRepeaters maxRepetitions
  if !repeated && bindings.length = 0 then s.v3.createSNMPv3EmptyGetBulkResponse msg
  else s.v3.createSNMPv3GetBulkResponse s.maxSNMPResponseSize (← index allOIDs 0) bindings msg

/-- The unwrapping of a decrypted scoped PDU: the contents of its SEQUENCE. Without one, decryption
has failed. -/
def unwrapScopedPDU (decrypted : Option Bytes) : Checked (Option Bytes) := do
  let some decryptedPDU := decrypted | return none
  if decryptedPDU.length = 0 then return none
  let first ← index decryptedPDU 0
  if first ≠ asn1Sequence then return none
  let (contentLen, contentStart) ← parseLength decryptedPDU 1
  if contentLen < 0 ∨ contentStart + contentLen > decryptedPDU.length then return none
  return some (← slice decryptedPDU contentStart (contentStart + contentLen))

/-- What the security checks of `handleSNMPv3Request` make of a datagram: its answer, or the message
with its scoped PDU in the clear. -/
inductive Intake where
  | answered (response : Bytes)
  | admitted (msg : SNMPv3Message)
  deriving DecidableEq

/-- The decryption step of `handleSNMPv3Request`. -/
def decryptInbound (config : SNMPv3Config) (v3Msg : SNMPv3Message) : Checked Intake := do
  if !hasFlag v3Msg.globalData.msgFlags snmpv3MsgFlagPriv then return .admitted v3Msg
  if config.privProtocol = snmpv3PrivNone then
    return .answered (← s.v3.createSNMPv3ReportResponse oidUsmStatsUnsupportedSecLevels v3Msg)
  let decrypted ← s.v3.decryptScopedPDUAt config v3Msg.scopedPDU v3Msg.securityParams.privParams
    v3Msg.securityParams.authoritativeEngineBoots v3Msg.securityParams.authoritativeEngineTime
  match ← unwrapScopedPDU decrypted with
  | none => return .answered (← s.v3.createSNMPv3ReportResponse oidUsmStatsDecryptionErrors v3Msg)
  | some scopedPDU => return .admitted { v3Msg with scopedPDU }

/-- `handleSNMPv3Request` up to the decryption. -/
def intake (requestData : Bytes) : Checked Intake := do
  let some config := s.v3.activeConfig | return .answered []
  let some v3Msg ← parseSNMPv3Message requestData | return .answered []
  if !s.v3.validateSNMPv3Credentials v3Msg then
    return .answered (← s.v3.createSNMPv3ReportResponse oidUsmStatsUnknownUserNames v3Msg)
  if v3Msg.securityParams.userName = [] ∧ v3Msg.securityParams.authoritativeEngineID = [] then
    return .answered (← s.v3.createSNMPv3DiscoveryResponse v3Msg)
  match ← s.v3.authenticateInbound requestData v3Msg with
  | some reportOID =>
    return .answered (← s.v3.createSNMPv3ReportResponseSigned reportOID v3Msg
      (decide (reportOID = oidUsmStatsNotInTimeWindows)))
  | none => s.decryptInbound config v3Msg

/-- The binding an SNMPv3 GETNEXT is answered with. -/
def nextBindingV3 (oid : Bytes) : Checked Binding := do
  let (responseOID, response) ← s.device.findNextOID s.point oid
  return if responseOID = [] then endOfMibPad oid else (responseOID, response)

/-- `handleSNMPv3Request` behind the decryption. -/
def dispatchV3 (v3Msg : SNMPv3Message) : Checked Outcome := do
  let some (oid, pduType) ← extractOIDAndTypeFromScopedPDU v3Msg.scopedPDU | return s.reply []
  if pduType = asn1GetNext then
    let (responseOID, response) ← s.nextBindingV3 oid
    return s.reply ((← s.v3.createSNMPv3Response responseOID response v3Msg).getD [])
  else if pduType = asn1GetBulk then return s.reply (← s.handleSNMPv3GetBulk oid v3Msg)
  else if pduType = asn1SetRequest then
    if !s.admitSetV3 v3Msg then
      let signed := decide ((securityLevelOf v3Msg.globalData.msgFlags).rank ≥
        SecurityLevel.authNoPriv.rank)
      return s.reply (← s.v3.createSNMPv3ReportResponseSigned oidUsmStatsUnsupportedSecLevels v3Msg
        signed)
    else s.handleSNMPv3Set v3Msg
  else
    return s.reply ((← s.v3.createSNMPv3Response oid (s.device.findResponseAt s.point oid)
      v3Msg).getD [])

def handleSNMPv3Request (requestData : Bytes) : Checked Outcome := do
  match ← s.intake requestData with
  | .answered response => return s.reply response
  | .admitted v3Msg => s.dispatchV3 v3Msg

/-! ### Datagrams -/

def handleSingleRequest (requestData : Bytes) : Checked Outcome := do
  if ← isSNMPv3Request requestData then s.handleSNMPv3Request requestData
  else s.handleSNMPv2cRequest requestData

/-! ### A small server -/

/-- The server of a device with one interface, up. Writes need the community `rw` or an SNMPv3 user
`op` without further protection; the user is configured without authentication or privacy. -/
def oneInterface : SNMPServer where
  device :=
    { Device.ofStatic [] (by simp) with
      metricsCycler := some
        { cpuPoints := fun _ => 0, memUsed := fun _ => 0, memUsedPercent := fun _ => 0,
          tempPoints := fun _ => 0, memTotal := 0, gpuMetrics := []
          ifCounters := some
            { sortedIfIndexes := [1], live := fun _ _ _ => 0
              state := some
                { maxIfIndex := 1, slots := fun _ => packState operUpStatus adminUp 0
                  bootTimeUnixNs := 1000, parent := fun _ => none, children := fun _ => []
                  children_iff := InterfaceState.lone_children_iff }
              ascending := loneInterface.ascending
              inRange := loneInterface.inRange }
          ifCounters_state := by simp } }
  point := 0
  v3 :=
    { v3Config := some { enabled := true, username := ascii "op", privProtocol := snmpv3PrivNone }
      usm := { engineID := [0x80, 0, 0, 1], authKey := [], privKey := [], newHash := none,
               engineBoots := 1 }
      crypto :=
        { hmac := fun _ _ _ => List.replicate usmAuthParamsLen 0, hmac_length := by simp
          desEncrypt := fun _ _ data => data, desDecrypt := fun _ _ data => data
          aesEncrypt := fun _ _ data => data, aesDecrypt := fun _ _ data => data }
      receivedAt := 0
      draws := fun _ => ⟨0, List.replicate 8 0, rfl⟩ }
  setAdmission := { writeCommunity := ascii "rw", minSecurityLevel := .noAuthNoPriv }
  maxSNMPResponseSize := 1472
  clock := fun _ => 2000

end SNMPServer

end Nl6
