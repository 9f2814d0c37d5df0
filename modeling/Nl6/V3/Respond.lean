import Nl6.Agent.Bulk
import Nl6.V3.Scoped
import Nl6.V3.Usm
import Nl6.Wire.Respond

/-! # SNMPv3 responses

A response is a scoped PDU, encrypted when the request asked for privacy, in a message whose
authentication field is zeroed while it is assembled and filled in afterwards. A GETBULK response is
bounded by measurement: the longest front of its bindings that fits is found by bisection, each
candidate being assembled in full. Reports share one envelope and are signed or not.

Every builder returns, whatever the request was, and what it returns is a Response-PDU with the
request-id of the request (`SNMPv3Engine.respondWith_spec` and its siblings).
-/

namespace Nl6

open Numeral Checked

/-! ### Envelopes -/

def wrapInScopedPDU (engineID contextName pdu : Bytes) : Bytes :=
  encodeSequence (encodeOctetString engineID ++ encodeOctetString contextName ++ pdu)

def encodeUSMSecurityParameters (params : SNMPv3SecurityParams) : Bytes :=
  encodeSequence (encodeOctetString params.authoritativeEngineID ++
    encodeInteger params.authoritativeEngineBoots ++ encodeInteger params.authoritativeEngineTime ++
    encodeOctetString params.userName ++ encodeOctetString params.authParams ++
    encodeOctetString params.privParams)

/-- `encodeSNMPv3Message`. An encrypted scoped PDU is an OCTET STRING, a plain one stands as it
is. -/
def encodeSNMPv3Message (msg : SNMPv3Message) (usmParams : Bytes) : Bytes :=
  let globalContents := encodeInteger msg.globalData.msgID ++ encodeInteger msg.globalData.msgMaxSize ++
    encodeOctetString [msg.globalData.msgFlags] ++ encodeInteger msg.globalData.msgSecurityModel
  encodeSequence (encodeInteger msg.version ++ encodeSequence globalContents ++
    encodeOctetString usmParams ++
    (if hasFlag msg.globalData.msgFlags snmpv3MsgFlagPriv then encodeOctetString msg.scopedPDU
      else msg.scopedPDU))

namespace SNMPv3Engine

variable (engine : SNMPv3Engine)

/-! ### Encryption -/

def padData (data : Bytes) (blockSize : Nat) : Bytes :=
  let padding := blockSize - data.length % blockSize
  let padding := if padding = 0 then blockSize else padding
  data ++ List.replicate padding (UInt8.ofNat padding)

/-- `encryptDES`: the ciphertext and the salt. -/
def encryptDES (data salt : Bytes) : Checked (Option (Bytes × Bytes)) := do
  if engine.usm.privKey.length < 16 then return none
  let key ← slice engine.usm.privKey 0 8
  let preIV ← slice engine.usm.privKey 8 16
  let iv ← desIV salt preIV
  return some (engine.crypto.desEncrypt key iv (padData data 8), salt)

def encryptAES128At (data : Bytes) (boots engineTime : Int) (salt : Bytes) :
    Checked (Option (Bytes × Bytes)) := do
  if engine.usm.privKey.length < 16 then return none
  let key ← slice engine.usm.privKey 0 16
  return some (engine.crypto.aesEncrypt key (aesIV boots engineTime salt) data, salt)

def encryptScopedPDUAt (config : SNMPv3Config) (scopedPDU : Bytes) (boots engineTime : Int)
    (salt : Bytes) : Checked (Option (Bytes × Bytes)) :=
  if config.privProtocol = snmpv3PrivDES then engine.encryptDES scopedPDU salt
  else if config.privProtocol = snmpv3PrivAES128 then
    engine.encryptAES128At scopedPDU boots engineTime salt
  else .ok none

/-! ### Messages -/

/-- The privacy step of `wrapScopedPDUInV3MessageWith`: what is carried, and the parameters a peer
needs to decrypt it. -/
def carryScopedPDU (config : SNMPv3Config) (draw : Draw) (scopedPDU : Bytes) (msgFlags : UInt8) :
    Checked (Option (Bytes × Bytes)) :=
  if config.privProtocol ≠ snmpv3PrivNone ∧ hasFlag msgFlags snmpv3MsgFlagPriv then
    engine.encryptScopedPDUAt config scopedPDU engine.usm.engineBoots draw.engineTime draw.salt
  else .ok (some (scopedPDU, []))

/-- The message `wrapScopedPDUInV3MessageWith` assembles before it is authenticated. -/
def assembleMessage (draw : Draw) (carried privParams : Bytes) (msgID : Int) (msgFlags : UInt8)
    (userName authParams : Bytes) : Bytes :=
  let secParams : SNMPv3SecurityParams :=
    { authoritativeEngineID := engine.usm.engineID
      authoritativeEngineBoots := engine.usm.engineBoots
      authoritativeEngineTime := draw.engineTime
      userName := userName
      authParams := authParams
      privParams := privParams }
  encodeSNMPv3Message
    { version := snmpv3Version
      globalData :=
        { msgID := msgID
          msgMaxSize := 65507
          msgFlags := msgFlags
          msgSecurityModel := snmpv3SecurityModelUSM }
      securityParams := secParams
      scopedPDU := carried }
    (encodeUSMSecurityParameters secParams)

/-- `wrapScopedPDUInV3MessageWith`, without the texts of its errors. -/
def wrapScopedPDUInV3MessageWith (draw : Draw) (scopedPDU : Bytes) (msgID : Int) (msgFlags : UInt8)
    (userName : Bytes) : Checked (Option Bytes) := do
  let some config := engine.activeConfig | return none
  let some (carried, privParams) ← engine.carryScopedPDU config draw scopedPDU msgFlags | return none
  let authenticating : Bool := engine.usm.newHash.isSome && hasFlag msgFlags snmpv3MsgFlagAuth
  let authParams := if authenticating then usmZeroedAuthParams else []
  let msgBytes := engine.assembleMessage draw carried privParams msgID
    (msgFlags &&& ~~~snmpv3MsgFlagReport) userName authParams
  if authenticating then
    let some digest ← usmAuthDigest engine.crypto msgBytes engine.usm.authKey engine.usm.newHash
      | return none
    substituteAuthParams msgBytes digest
  else return some msgBytes

def wrapScopedPDUInV3Message (draw : Draw) (scopedPDU : Bytes) (requestMsg : SNMPv3Message) :
    Checked (Option Bytes) :=
  engine.wrapScopedPDUInV3MessageWith draw scopedPDU requestMsg.globalData.msgID
    requestMsg.globalData.msgFlags requestMsg.securityParams.userName

/-! ### Scoped PDUs -/

def createScopedPDUEncoded (varBinds : Bytes) (errStatus errIndex : Int)
    (requestMsg : SNMPv3Message) : Checked Bytes := do
  let requestID ← extractRequestIDFromScopedPDU requestMsg.scopedPDU
  return wrapInScopedPDU engine.usm.engineID [] (encodeResponsePDU requestID errStatus errIndex varBinds)

/-- A response around encoded bindings: `createScopedPDUEncoded` in its message. -/
def respondEncoded (draw : Draw) (varBinds : Bytes) (errStatus errIndex : Int)
    (requestMsg : SNMPv3Message) : Checked (Option Bytes) := do
  let scopedPDU ← engine.createScopedPDUEncoded varBinds errStatus errIndex requestMsg
  engine.wrapScopedPDUInV3Message draw scopedPDU requestMsg

/-- `createScopedPDUMulti`, over the bindings as pairs. -/
def createScopedPDUMulti (bindings : List Binding) (requestMsg : SNMPv3Message) : Checked Bytes :=
  engine.createScopedPDUEncoded (bindings.flatMap encodeBinding) snmpErrNoError 0 requestMsg

/-- A response of several bindings: `createScopedPDUMulti` in its message. -/
def respondWith (bindings : List Binding) (requestMsg : SNMPv3Message) : Checked (Option Bytes) := do
  let scopedPDU ← engine.createScopedPDUMulti bindings requestMsg
  engine.wrapScopedPDUInV3Message (engine.draws bindings.length) scopedPDU requestMsg

def createSNMPv3Response (oid value : Bytes) (requestMsg : SNMPv3Message) : Checked (Option Bytes) :=
  engine.respondWith [(oid, value)] requestMsg

/-! ### GETBULK responses -/

/-- The bisection of `largestFittingPrefix`: `lo` fits or is the floor, `hi` does not fit. -/
def bisectPrefix (limit : Int) (build : Int → Checked (Option Bytes)) :
    Nat → Int → Int → Bytes → Checked (Option Bytes)
  | 0, _, _, _ => .error .outOfFuel
  | fuel + 1, lo, hi, best =>
    if hi - lo > 1 then do
      let mid := lo + (hi - lo) / 2
      let some resp ← build mid | return none
      if resp.length ≤ limit then bisectPrefix limit build fuel mid hi resp
      else bisectPrefix limit build fuel lo mid best
    else .ok (some best)

def largestFittingPrefix (count limit : Int) (build : Int → Checked (Option Bytes)) :
    Checked (Option Bytes) := do
  if count ≤ 0 then return none
  let some full ← build count | return none
  if full.length ≤ limit ∨ count = 1 then return some full
  let some best ← build 1 | return none
  bisectPrefix limit build count.toNat 1 count best

def snmpV3MinMsgMaxSize : Int := 484

/-- The bound of a GETBULK response: the smaller of the datagram's and the requester's. -/
def responseLimit (maxSize : Int) (msg : SNMPv3Message) : Int :=
  if msg.globalData.msgMaxSize ≥ snmpV3MinMsgMaxSize ∧ msg.globalData.msgMaxSize < maxSize then
    msg.globalData.msgMaxSize
  else maxSize

def createSNMPv3EmptyGetBulkResponse (msg : SNMPv3Message) : Checked Bytes := do
  return (← engine.respondWith [] msg).getD []

def createSNMPv3GetBulkResponse (maxSize : Int) (requestedOID : Bytes) (bindings : List Binding)
    (msg : SNMPv3Message) : Checked Bytes := do
  if bindings.length = 0 then
    return (← engine.createSNMPv3Response requestedOID valueEndOfMibView msg).getD []
  let resp ← largestFittingPrefix bindings.length (responseLimit maxSize msg) fun n => do
    engine.respondWith (← slice bindings 0 n) msg
  return resp.getD []

/-! ### Reports -/

def v3ReportPDUTag : UInt8 := 0xA8

def createDiscoveryScopedPDU (oid value : Bytes) : Bytes :=
  wrapInScopedPDU engine.usm.engineID [] (encodeTLV v3ReportPDUTag (encodeInteger 1 ++
    encodeInteger 0 ++ encodeInteger 0 ++ encodeSequence (encodeBinding (oid, value))))

def reportFlags (sign : Bool) : UInt8 :=
  if sign then snmpv3MsgFlagReport ||| snmpv3MsgFlagAuth else snmpv3MsgFlagReport

def createSNMPv3ReportResponseSigned (reportOID : Bytes) (requestMsg : SNMPv3Message) (sign : Bool) :
    Checked Bytes := do
  if engine.activeConfig.isNone then return []
  let scopedPDU := engine.createDiscoveryScopedPDU reportOID (ascii "1")
  let sign : Bool := sign && engine.usm.newHash.isSome && decide (engine.usm.authKey.length > 0)
  let userName := if sign then requestMsg.securityParams.userName else []
  let authParams := if sign then usmZeroedAuthParams else []
  let msgBytes := engine.assembleMessage (engine.draws 0) scopedPDU [] requestMsg.globalData.msgID
    (reportFlags sign) userName authParams
  if sign then
    let digest ← usmAuthDigest engine.crypto msgBytes engine.usm.authKey engine.usm.newHash
    return (← substituteAuthParams msgBytes (digest.getD [])).getD []
  else return msgBytes

def createSNMPv3ReportResponse (reportOID : Bytes) (requestMsg : SNMPv3Message) : Checked Bytes :=
  engine.createSNMPv3ReportResponseSigned reportOID requestMsg false

def createSNMPv3DiscoveryResponse (requestMsg : SNMPv3Message) : Checked Bytes :=
  engine.createSNMPv3ReportResponse oidUsmStatsUnknownEngineIDs requestMsg

/-! ### The builders return -/

theorem encryptScopedPDUAt_returns (config : SNMPv3Config) (scopedPDU : Bytes)
    (boots engineTime : Int) {salt : Bytes} (saltLength : salt.length = 8) :
    Yields (engine.encryptScopedPDUAt config scopedPDU boots engineTime salt) fun _ => True := by
  rw [encryptScopedPDUAt]
  refine .ite (fun _ => ?_) fun _ => .ite (fun _ => ?_) fun _ => .ok trivial
  · rw [encryptDES]
    refine .guard trivial fun keyLength => ?_
    refine (Yields.slice le_rfl (by norm_num) (by omega)).bind fun key _ => ?_
    refine (Yields.slice (by norm_num) (by norm_num) (by omega)).bind fun preIV half => ?_
    exact (desIV_returns saltLength (by omega)).bind fun iv _ => .ok trivial
  · rw [encryptAES128At]
    refine .guard trivial fun keyLength => ?_
    exact (Yields.slice le_rfl (by norm_num) (by omega)).bind fun _ _ => .ok trivial

theorem wrapScopedPDUInV3Message_returns (draw : Draw) (scopedPDU : Bytes) (msg : SNMPv3Message) :
    Yields (engine.wrapScopedPDUInV3Message draw scopedPDU msg) fun _ => True := by
  rw [wrapScopedPDUInV3Message, wrapScopedPDUInV3MessageWith]
  cases engine.activeConfig with
  | none => exact .ok trivial
  | some config =>
    have carries : Yields (engine.carryScopedPDU config draw scopedPDU msg.globalData.msgFlags)
        fun _ => True := by
      rw [carryScopedPDU]
      exact .ite (fun _ => engine.encryptScopedPDUAt_returns config _ _ _ draw.salt_length)
        fun _ => .ok trivial
    refine carries.andThen (.ok trivial) ?_
    rintro ⟨carried, privParams⟩ -
    refine .ite (fun _ => ?_) fun _ => .ok trivial
    refine (usmAuthDigest_spec engine.crypto _ engine.usm.authKey engine.usm.newHash).andThen
      (.ok trivial) ?_
    rintro digest -
    exact substituteAuthParams_returns _ digest

/-- A response to an SNMPv3 message: a Response-PDU with the request-id its reader takes from the
scoped PDU, in the message's envelope. -/
def Answers (msg : SNMPv3Message) (response : Bytes) : Prop :=
  ∃ draw requestID varBinds errStatus errIndex,
    extractRequestIDFromScopedPDU msg.scopedPDU = .ok requestID ∧
    engine.wrapScopedPDUInV3Message draw (wrapInScopedPDU engine.usm.engineID []
      (encodeResponsePDU requestID errStatus errIndex varBinds)) msg = .ok (some response)

theorem respondEncoded_spec (draw : Draw) (varBinds : Bytes) (errStatus errIndex : Int)
    (msg : SNMPv3Message) :
    Yields (engine.respondEncoded draw varBinds errStatus errIndex msg) fun result =>
      ∀ response, result = some response → engine.Answers msg response := by
  obtain ⟨requestID, read, -⟩ := extractRequestIDFromScopedPDU_returns msg.scopedPDU
  rw [respondEncoded, createScopedPDUEncoded, read, ok_bind, pure_eq_ok, ok_bind]
  obtain ⟨result, wrapped, -⟩ := engine.wrapScopedPDUInV3Message_returns draw
    (wrapInScopedPDU engine.usm.engineID [] (encodeResponsePDU requestID errStatus errIndex varBinds))
    msg
  refine ⟨result, wrapped, ?_⟩
  rintro response rfl
  exact ⟨draw, requestID, varBinds, errStatus, errIndex, read, wrapped⟩

theorem respondWith_spec (bindings : List Binding) (msg : SNMPv3Message) :
    Yields (engine.respondWith bindings msg) fun result => ∀ response, result = some response →
      engine.Answers msg response :=
  engine.respondEncoded_spec _ _ _ _ msg

section Bisection

variable {count limit : Int} {build : Int → Checked (Option Bytes)} {post : Bytes → Prop}
  (builds : ∀ n, 0 ≤ n → n ≤ count →
    Yields (build n) fun result => ∀ response, result = some response → post response)

include builds

/-- The bisection ends within the width of its window, on a candidate. -/
theorem bisectPrefix_spec {fuel : Nat} {lo hi : Int} {best : Bytes} (candidate : post best)
    (low : 0 ≤ lo) (high : hi ≤ count) (enough : hi - lo ≤ fuel) (positive : 0 < fuel) :
    Yields (bisectPrefix limit build fuel lo hi best) fun result =>
      ∀ response, result = some response → post response := by
  induction fuel generalizing lo hi best with
  | zero => omega
  | succ fuel ih =>
    rw [bisectPrefix]
    refine .ite (fun wide => ?_) fun _ => .ok ?_
    · refine (builds _ (by omega) (by omega)).andThen (.ok nofun) ?_
      rintro resp built
      refine .ite (fun _ => ?_) fun _ => ?_
      · exact ih (built resp rfl) (by omega) high (by push_cast at enough; omega) (by omega)
      · exact ih candidate low (by omega) (by push_cast at enough; omega) (by omega)
    · rintro _ ⟨⟩
      exact candidate

theorem largestFittingPrefix_spec :
    Yields (largestFittingPrefix count limit build) fun result =>
      ∀ response, result = some response → post response := by
  rw [largestFittingPrefix]
  refine .guard nofun fun positive => ?_
  refine (builds count (by omega) le_rfl).andThen (.ok nofun) ?_
  rintro full built
  refine .ite (fun _ => .ok ?_) fun _ => ?_
  · rintro _ ⟨⟩
    exact built full rfl
  refine (builds 1 (by omega) (by omega)).andThen (.ok nofun) ?_
  rintro best floor
  exact bisectPrefix_spec builds (floor best rfl) (by omega) le_rfl (by omega) (by omega)

end Bisection

section Search

variable {count limit : Int} {build : Int → Checked (Option Bytes)} {output : Int → Bytes}
  (builds : ∀ n, 1 ≤ n → n ≤ count → build n = .ok (some (output n)))

include builds

/-- The bisection ends in front of a prefix that does not fit, on one that fits or on the floor. -/
theorem bisectPrefix_ends {fuel : Nat} {lo hi : Int} (low : 1 ≤ lo) (window : lo < hi)
    (high : hi ≤ count) (enough : hi - lo ≤ fuel) (fits : (output lo).length ≤ limit ∨ lo = 1)
    (exceeds : limit < (output hi).length) :
    ∃ m, bisectPrefix limit build fuel lo hi (output lo) = .ok (some (output m)) ∧
      1 ≤ m ∧ m < count ∧ ((output m).length ≤ limit ∨ m = 1) ∧
      limit < (output (m + 1)).length := by
  induction fuel generalizing lo hi with
  | zero => omega
  | succ fuel ih =>
    rw [bisectPrefix]
    by_cases wide : hi - lo > 1
    · have built := builds (lo + (hi - lo) / 2) (by omega) (by omega)
      simp only [if_pos wide, built, ok_bind]
      split_ifs with inside
      · exact ih (by omega) (by omega) high (by push_cast at enough; omega) (.inl inside) exceeds
      · exact ih low (by omega) (by omega) (by push_cast at enough; omega) fits (not_le.mp inside)
    · rw [if_neg wide]
      obtain rfl : hi = lo + 1 := by omega
      exact ⟨lo, rfl, low, by omega, fits, exceeds⟩

/-- **The search for the largest prefix.** With a builder that never fails and whose output does not
get shorter, the search returns what was built of the largest prefix within the limit, or of one
binding where no prefix is. -/
theorem largestFittingPrefix_greatest (positive : 1 ≤ count)
    (grows : ∀ m n, 1 ≤ m → m ≤ n → n ≤ count → (output m).length ≤ (output n).length) :
    ∃ m, largestFittingPrefix count limit build = .ok (some (output m)) ∧
      (IsGreatest {n | 1 ≤ n ∧ n ≤ count ∧ (output n).length ≤ limit} m ∨
        m = 1 ∧ ∀ n, 1 ≤ n → n ≤ count → limit < (output n).length) := by
  simp only [largestFittingPrefix, if_neg (not_le.mpr (Int.one_pos.trans_le positive)),
    builds count positive le_rfl, builds 1 le_rfl positive, ok_bind]
  by_cases fits : (output count).length ≤ limit
  · rw [if_pos (.inl fits)]
    exact ⟨count, rfl, .inl ⟨⟨positive, le_rfl, fits⟩, fun n inside => inside.2.1⟩⟩
  by_cases single : count = 1
  · subst single
    refine ⟨1, if_pos (.inr rfl), .inr ⟨rfl, fun n low high => ?_⟩⟩
    obtain rfl : n = 1 := by omega
    exact not_le.mp fits
  rw [if_neg (by tauto)]
  obtain ⟨m, returned, low, high, floor, exceeds⟩ := bisectPrefix_ends builds le_rfl
    (lt_of_le_of_ne positive (Ne.symm single)) le_rfl (show count - 1 ≤ count.toNat by omega)
    (.inr rfl) (not_le.mp fits)
  refine ⟨m, returned, ?_⟩
  -- What exceeds the limit at `m + 1` exceeds it from there on.
  have above : ∀ n, m < n → n ≤ count → limit < (output n).length := by
    intro n larger inside
    have := grows (m + 1) n (by omega) larger inside
    omega
  by_cases fits : (output m).length ≤ limit
  · refine .inl ⟨⟨low, high.le, fits⟩, fun n ⟨_, inside, short⟩ => ?_⟩
    exact not_lt.mp fun larger => absurd short (not_le.mpr (above n larger inside))
  · obtain rfl : m = 1 := floor.resolve_left fits
    refine .inr ⟨rfl, fun n first inside => ?_⟩
    rcases first.eq_or_lt with rfl | larger
    · exact not_le.mp fits
    · exact above n larger inside

end Search

/-- Of five prefixes of growing length, the search finds the third. -/
theorem largestFittingPrefix_greatest_third :
    ∃ m, largestFittingPrefix 5 6 (fun n => .ok (some (List.replicate (2 * n.toNat) 0))) =
        .ok (some (List.replicate (2 * m.toNat) 0)) ∧
      (IsGreatest {n : Int | 1 ≤ n ∧ n ≤ 5 ∧ (List.replicate (2 * n.toNat) (0 : UInt8)).length ≤
          (6 : Int)} m ∨
        m = 1 ∧ ∀ n : Int, 1 ≤ n → n ≤ 5 →
          (6 : Int) < (List.replicate (2 * n.toNat) (0 : UInt8)).length) :=
  largestFittingPrefix_greatest (fun _ _ _ => rfl) (by decide) fun m n _ below _ => by
    simp only [List.length_replicate]
    omega

theorem getD_answers {msg : SNMPv3Message} {result : Option Bytes}
    (answers : ∀ response, result = some response → engine.Answers msg response) :
    result.getD [] = [] ∨ engine.Answers msg (result.getD []) := by
  cases result with
  | none => exact .inl rfl
  | some response => exact .inr (answers response rfl)

theorem createSNMPv3EmptyGetBulkResponse_spec (msg : SNMPv3Message) :
    Yields (engine.createSNMPv3EmptyGetBulkResponse msg) fun response =>
      response = [] ∨ engine.Answers msg response :=
  (engine.respondWith_spec [] msg).bind fun _ answers => .ok (engine.getD_answers answers)

theorem createSNMPv3GetBulkResponse_spec (maxSize : Int) (requestedOID : Bytes)
    (bindings : List Binding) (msg : SNMPv3Message) :
    Yields (engine.createSNMPv3GetBulkResponse maxSize requestedOID bindings msg) fun response =>
      response = [] ∨ engine.Answers msg response := by
  rw [createSNMPv3GetBulkResponse]
  refine .ite (fun _ => ?_) fun _ => ?_
  · exact (engine.respondWith_spec _ msg).bind fun _ answers => .ok (engine.getD_answers answers)
  · refine (largestFittingPrefix_spec fun n nonneg inside => ?_).bind
      fun _ answers => .ok (engine.getD_answers answers)
    exact (Yields.slice le_rfl nonneg inside).bind fun part _ => engine.respondWith_spec part msg

theorem createSNMPv3ReportResponseSigned_returns (reportOID : Bytes) (msg : SNMPv3Message)
    (sign : Bool) :
    Yields (engine.createSNMPv3ReportResponseSigned reportOID msg sign) fun _ => True := by
  rw [createSNMPv3ReportResponseSigned]
  refine .guard trivial fun _ => ?_
  refine .ite (fun _ => ?_) fun _ => .ok trivial
  refine (usmAuthDigest_spec engine.crypto _ engine.usm.authKey engine.usm.newHash).bind fun _ _ => ?_
  exact (substituteAuthParams_returns _ _).bind fun _ _ => .ok trivial

end SNMPv3Engine

end Nl6
