import Nl6.Lib.Buffer
import Nl6.V3.Message

/-! # The user-based security model

What an SNMPv3 engine derives once (keys, engine identity) and the inbound checks it makes with it.
HMAC and the ciphers are arbitrary functions. The authentication field is found by walking the
structure of the message (`locateAuthParams`), and a digest is checked over the message with that
field zeroed: `usmVerifyAuthDigest_sound` says what a verified message satisfies, and
`authenticateInbound_sound` what an accepted one does.
-/

namespace Nl6

open Numeral Checked Ber Buffer

/-! ### Keys and primitives -/

inductive AuthHash where
  | md5
  | sha1
  deriving DecidableEq, Repr

def usmAuthParamsLen : Nat := 12

/-- The cryptographic primitives. A full HMAC is at least as long as what goes on the wire. -/
structure Crypto where
  hmac : AuthHash → (key message : Bytes) → Bytes
  hmac_length : ∀ newHash key message, usmAuthParamsLen ≤ (hmac newHash key message).length
  desEncrypt : (key iv padded : Bytes) → Bytes
  desDecrypt : (key iv encrypted : Bytes) → Bytes
  aesEncrypt : (key iv data : Bytes) → Bytes
  aesDecrypt : (key iv encrypted : Bytes) → Bytes

/-- `SNMPv3Config`, as far as the serve path reads it. -/
structure SNMPv3Config where
  enabled : Bool
  username : Bytes
  privProtocol : Int

def snmpv3PrivNone : Int := 0
def snmpv3PrivDES : Int := 1
def snmpv3PrivAES128 : Int := 2

/-- `usmServerState`: no hash without an authentication protocol. -/
structure UsmServerState where
  engineID : Bytes
  authKey : Bytes
  privKey : Bytes
  newHash : Option AuthHash
  engineBoots : Int

/-- What the assembly of one message takes from outside: the engine time it advertises and a random
salt. -/
structure Draw where
  engineTime : Int
  salt : Bytes
  salt_length : salt.length = 8

/-- What the SNMPv3 side of a server reads while it handles one request: its configuration, the
derived state and the engine time when the request is checked. A response is assembled at most once
for a number of bindings, and `draws` gives the clock and salt of that assembly. -/
structure SNMPv3Engine where
  v3Config : Option SNMPv3Config
  usm : UsmServerState
  crypto : Crypto
  receivedAt : Int
  draws : Nat → Draw

/-- The configuration, unless SNMPv3 is off. -/
def SNMPv3Engine.activeConfig (engine : SNMPv3Engine) : Option SNMPv3Config :=
  engine.v3Config.filter SNMPv3Config.enabled

/-! ### The authentication field -/

/-- `readTLV` of `locateAuthParams`: the tag and the bounds of the contents. -/
def readTLV (buf : Bytes) (pos : Int) : Checked (Option (UInt8 × Int × Int)) := do
  if pos < 0 ∨ pos ≥ buf.length then return none
  let tag ← index buf pos
  let (n, contentStart) ← parseLength buf (pos + 1)
  if n < 0 ∨ contentStart < 0 ∨ contentStart > buf.length ∨ n > buf.length - contentStart then
    return none
  return some (tag, contentStart, contentStart + n)

/-- `locateAuthParams`: offset and length of `msgAuthenticationParameters`. -/
def locateAuthParams (message : Bytes) : Checked (Option (Int × Int)) := do
  let some (_, pos, stop) ← readTLV message 0 | return none
  let contents ← slice message 0 stop
  -- version and msgGlobalData
  let some (_, _, pos) ← readTLV contents pos | return none
  let some (_, _, pos) ← readTLV contents pos | return none
  let some (_, secStart, secEnd) ← readTLV contents pos | return none
  let some (_, pos, usmEnd) ← readTLV (← slice message 0 secEnd) secStart | return none
  let params ← slice message 0 usmEnd
  -- engineID, boots, time and userName
  let some (_, _, pos) ← readTLV params pos | return none
  let some (_, _, pos) ← readTLV params pos | return none
  let some (_, _, pos) ← readTLV params pos | return none
  let some (_, _, pos) ← readTLV params pos | return none
  let some (tag, authStart, authEnd) ← readTLV params pos | return none
  return if tag ≠ asn1OctetString then none else some (authStart, authEnd - authStart)

/-- `copy(message[off:], src)` on a fresh copy of the message. -/
def overwriteFrom (message : Bytes) (off : Int) (src : Bytes) : Checked Bytes := do
  let _ ← slice message off message.length
  return copyAt message off.toNat src

/-! ### Digests -/

def usmZeroedAuthParams : Bytes := List.replicate usmAuthParamsLen 0

def usmAuthDigest (crypto : Crypto) (wholeMessage localizedAuthKey : Bytes)
    (newHash : Option AuthHash) : Checked (Option Bytes) := do
  let some newHash := newHash | return none
  if localizedAuthKey.length = 0 then return none
  return some (← slice (crypto.hmac newHash localizedAuthKey wholeMessage) 0 usmAuthParamsLen)

/-- `substituteAuthParams`, without the texts of its errors. -/
def substituteAuthParams (message digest : Bytes) : Checked (Option Bytes) := do
  if digest.length ≠ usmAuthParamsLen then return none
  let some (off, n) ← locateAuthParams message | return none
  if n ≠ usmAuthParamsLen then return none
  return some (← overwriteFrom message off digest)

def usmVerifyAuthDigest (crypto : Crypto) (wholeMessage claimed localizedAuthKey : Bytes)
    (newHash : Option AuthHash) : Checked Bool := do
  if claimed.length ≠ usmAuthParamsLen ∨ localizedAuthKey.length = 0 ∨ newHash = none then
    return false
  let some (off, n) ← locateAuthParams wholeMessage | return false
  if n ≠ usmAuthParamsLen then return false
  if (← slice wholeMessage off (off + n)) ≠ claimed then return false
  let zeroed ← overwriteFrom wholeMessage off usmZeroedAuthParams
  let want ← usmAuthDigest crypto zeroed localizedAuthKey newHash
  return want = some claimed

/-! ### Inbound checks -/

def usmTimeWindowSeconds : Int := 150

/-- `withinTimeWindow`, at an engine time. -/
def UsmServerState.withinTimeWindow (usm : UsmServerState) (engineTimeSeconds boots engineTime : Int) :
    Bool :=
  if boots ≠ usm.engineBoots then false
  else if engineTime < 0 ∨ engineTime > 2 ^ 32 - 1 then false
  else
    let delta := engineTime - engineTimeSeconds
    let delta := if delta < 0 then -delta else delta
    delta ≤ usmTimeWindowSeconds

def oidUsmStatsUnsupportedSecLevels : Bytes := ascii ".1.3.6.1.6.3.15.1.1.1.0"
def oidUsmStatsNotInTimeWindows : Bytes := ascii ".1.3.6.1.6.3.15.1.1.2.0"
def oidUsmStatsUnknownUserNames : Bytes := ascii ".1.3.6.1.6.3.15.1.1.3.0"
def oidUsmStatsUnknownEngineIDs : Bytes := ascii ".1.3.6.1.6.3.15.1.1.4.0"
def oidUsmStatsWrongDigests : Bytes := ascii ".1.3.6.1.6.3.15.1.1.5.0"
def oidUsmStatsDecryptionErrors : Bytes := ascii ".1.3.6.1.6.3.15.1.1.6.0"

def hasFlag (flags flag : UInt8) : Bool := flags &&& flag ≠ 0

/-- `authenticateInbound`: the counter to report, or nothing for a message that is accepted. -/
def SNMPv3Engine.authenticateInbound (engine : SNMPv3Engine) (requestData : Bytes)
    (msg : SNMPv3Message) : Checked (Option Bytes) := do
  if !hasFlag msg.globalData.msgFlags snmpv3MsgFlagAuth then
    if hasFlag msg.globalData.msgFlags snmpv3MsgFlagPriv then
      return some oidUsmStatsUnsupportedSecLevels
    return none
  if engine.usm.newHash = none ∨ engine.usm.authKey.length = 0 then
    return some oidUsmStatsUnsupportedSecLevels
  if !(← usmVerifyAuthDigest engine.crypto requestData msg.securityParams.authParams
      engine.usm.authKey engine.usm.newHash) then
    return some oidUsmStatsWrongDigests
  if !engine.usm.withinTimeWindow engine.receivedAt msg.securityParams.authoritativeEngineBoots
      msg.securityParams.authoritativeEngineTime then
    return some oidUsmStatsNotInTimeWindows
  return none

def SNMPv3Engine.validateSNMPv3Credentials (engine : SNMPv3Engine) (msg : SNMPv3Message) : Bool :=
  match engine.activeConfig with
  | none => false
  | some config =>
    if msg.securityParams.userName = [] ∧ msg.securityParams.authoritativeEngineID = [] ∧
        hasFlag msg.globalData.msgFlags snmpv3MsgFlagReport then true
    else if msg.securityParams.userName ≠ config.username then false
    else true

/-! ### Decryption -/

/-- The IV of the DES path: the salt and the second half of the key, octet by octet. -/
def desIV (salt preIV : Bytes) : Checked Bytes :=
  tabulate (fun i => do return (← index salt i) ^^^ (← index preIV i)) 8 0

def SNMPv3Engine.decryptDES (engine : SNMPv3Engine) (encryptedData privParams : Bytes) :
    Checked (Option Bytes) := do
  if privParams.length ≠ 8 then return none
  if engine.usm.privKey.length < 16 then return none
  let key ← slice engine.usm.privKey 0 8
  let preIV ← slice engine.usm.privKey 8 16
  let iv ← desIV privParams preIV
  if encryptedData.length = 0 ∨ encryptedData.length % 8 ≠ 0 then return none
  return some (engine.crypto.desDecrypt key iv encryptedData)

/-- A machine integer as the four octets the AES IV takes of it. -/
def fourOctets (n : Int) : Bytes :=
  [24, 16, 8, 0].map fun shift => UInt8.ofNat (n / 2 ^ shift % 2 ^ 8).toNat

def aesIV (boots engineTime : Int) (salt : Bytes) : Bytes :=
  fourOctets boots ++ fourOctets engineTime ++ salt

def SNMPv3Engine.decryptAES128At (engine : SNMPv3Engine) (encrypted privParams : Bytes)
    (boots engineTime : Int) : Checked (Option Bytes) := do
  if privParams.length ≠ 8 then return none
  if engine.usm.privKey.length < 16 then return none
  let key ← slice engine.usm.privKey 0 16
  return some (engine.crypto.aesDecrypt key (aesIV boots engineTime privParams) encrypted)

def SNMPv3Engine.decryptScopedPDUAt (engine : SNMPv3Engine) (config : SNMPv3Config)
    (encryptedPDU privParams : Bytes) (boots engineTime : Int) : Checked (Option Bytes) :=
  if config.privProtocol = snmpv3PrivNone then .ok (some encryptedPDU)
  else if config.privProtocol = snmpv3PrivDES then engine.decryptDES encryptedPDU privParams
  else if config.privProtocol = snmpv3PrivAES128 then
    engine.decryptAES128At encryptedPDU privParams boots engineTime
  else .ok none

/-! ### The walk to the field returns -/

theorem readTLV_spec (buf : Bytes) (pos : Int) :
    Yields (readTLV buf pos) fun result => ∀ tag start stop, result = some (tag, start, stop) →
      0 ≤ start ∧ start ≤ stop ∧ stop ≤ buf.length := by
  rw [readTLV]
  refine .guard nofun fun inside => ?_
  refine (Yields.index (by omega) (by omega)).bind fun tag _ => ?_
  refine (parseLength_spec buf (by omega)).bind ?_
  rintro ⟨n, start⟩ -
  refine .guard nofun fun fits => .ok ?_
  rintro _ _ _ ⟨⟩
  omega

theorem locateAuthParams_spec (message : Bytes) :
    Yields (locateAuthParams message) fun result => ∀ off n, result = some (off, n) →
      0 ≤ off ∧ 0 ≤ n ∧ off + n ≤ message.length := by
  rw [locateAuthParams]
  refine (readTLV_spec message 0).andThen (.ok nofun) ?_
  rintro ⟨_, pos, stop⟩ outer
  obtain ⟨startNonneg, ordered, stopInside⟩ := outer _ pos stop rfl
  refine (Yields.slice le_rfl (startNonneg.trans ordered) stopInside).bind fun contents counted => ?_
  refine (readTLV_spec contents pos).andThen (.ok nofun) ?_
  rintro ⟨_, _, pos⟩ -
  refine (readTLV_spec contents pos).andThen (.ok nofun) ?_
  rintro ⟨_, _, pos⟩ -
  refine (readTLV_spec contents pos).andThen (.ok nofun) ?_
  rintro ⟨_, secStart, secEnd⟩ security
  obtain ⟨secNonneg, secOrdered, secInside⟩ := security _ secStart secEnd rfl
  refine (Yields.slice le_rfl (secNonneg.trans secOrdered) (by omega)).bind fun section' sized => ?_
  refine (readTLV_spec section' secStart).andThen (.ok nofun) ?_
  rintro ⟨_, pos, usmEnd⟩ usm
  obtain ⟨usmNonneg, usmOrdered, usmInside⟩ := usm _ pos usmEnd rfl
  refine (Yields.slice le_rfl (usmNonneg.trans usmOrdered) (by omega)).bind fun params measured => ?_
  refine (readTLV_spec params pos).andThen (.ok nofun) ?_
  rintro ⟨_, _, pos⟩ -
  refine (readTLV_spec params pos).andThen (.ok nofun) ?_
  rintro ⟨_, _, pos⟩ -
  refine (readTLV_spec params pos).andThen (.ok nofun) ?_
  rintro ⟨_, _, pos⟩ -
  refine (readTLV_spec params pos).andThen (.ok nofun) ?_
  rintro ⟨_, _, pos⟩ -
  refine (readTLV_spec params pos).andThen (.ok nofun) ?_
  rintro ⟨tag, authStart, authEnd⟩ auth
  obtain ⟨authNonneg, authOrdered, authInside⟩ := auth tag authStart authEnd rfl
  refine .ok fun off n same => ?_
  split at same
  · exact absurd same nofun
  · cases same
    omega

theorem overwriteFrom_at {message old src rest : Bytes} {off : Int}
    (here : At message off (old ++ rest)) (same : src.length = old.length) :
    ∃ front, message = front ++ (old ++ rest) ∧ (front.length : Int) = off ∧
      overwriteFrom message off src = .ok (front ++ (src ++ rest)) := by
  obtain ⟨front, -, split, counted⟩ := here.fromStart
  have position : off.toNat = front.length := by omega
  refine ⟨front, split, counted, ?_⟩
  rw [overwriteFrom, here.toEnd, ok_bind, pure_eq_ok, position, split, copyAt_append _ _ same]

/-! ### Digests -/

theorem usmAuthDigest_spec (crypto : Crypto) (message key : Bytes) (newHash : Option AuthHash) :
    Yields (usmAuthDigest crypto message key newHash) fun result => ∀ digest,
      result = some digest → key ≠ [] ∧ ∃ hash, newHash = some hash ∧
        digest = (crypto.hmac hash key message).take usmAuthParamsLen := by
  cases newHash with
  | none => exact .ok nofun
  | some hash =>
    have enough := crypto.hmac_length hash key message
    have sliced := @slice_of_le _ (crypto.hmac hash key message) 0 usmAuthParamsLen le_rfl
      (by omega) (by omega)
    rw [usmAuthDigest]
    refine .guard nofun fun nonempty => ?_
    refine (Yields.of_eq sliced).bind ?_
    rintro _ rfl
    refine .ok ?_
    rintro _ ⟨⟩
    exact ⟨fun empty => nonempty (by rw [empty]; rfl), hash, rfl, rfl⟩

/-- The datagram carries, in its authentication field, the truncated HMAC of itself with that field
zeroed. -/
def CarriesDigest (crypto : Crypto) (newHash : Option AuthHash) (key message claimed : Bytes) : Prop :=
  key ≠ [] ∧ ∃ hash front rest, newHash = some hash ∧ message = front ++ (claimed ++ rest) ∧
    locateAuthParams message = .ok (some ((front.length : Int), (usmAuthParamsLen : Int))) ∧
    claimed = (crypto.hmac hash key (front ++ (usmZeroedAuthParams ++ rest))).take usmAuthParamsLen

/-- **Verification.** It returns on every datagram, and a digest that passes is the one the datagram
carries. -/
theorem usmVerifyAuthDigest_sound (crypto : Crypto) (message claimed key : Bytes)
    (newHash : Option AuthHash) :
    Yields (usmVerifyAuthDigest crypto message claimed key newHash) fun verified =>
      verified = true → CarriesDigest crypto newHash key message claimed := by
  rw [usmVerifyAuthDigest]
  refine .guard nofun fun usable => ?_
  have claimedLength : claimed.length = usmAuthParamsLen := by
    by_contra differs
    exact usable (.inl differs)
  obtain ⟨located, found, inside⟩ := locateAuthParams_spec message
  refine (Yields.of_eq found).bind ?_
  rintro _ rfl
  cases located with
  | none => exact .ok nofun
  | some field =>
    obtain ⟨off, n⟩ := field
    obtain ⟨nonneg, natural, fits⟩ := inside off n rfl
    refine .guard nofun fun sized => ?_
    obtain rfl : n = (usmAuthParamsLen : Int) := not_not.mp sized
    have sliced := slice_of_le nonneg (show off ≤ off + usmAuthParamsLen by omega) fits
    refine (Yields.of_eq sliced).bind ?_
    rintro _ rfl
    refine .guard nofun fun equal => ?_
    obtain ⟨rest, here⟩ := At.of_slice (sliced.trans (congrArg Except.ok (not_not.mp equal)))
    have zerosLength : usmZeroedAuthParams.length = claimed.length := by
      rw [claimedLength]
      exact List.length_replicate
    obtain ⟨front, split, counted, zeroed⟩ := overwriteFrom_at here zerosLength
    refine (Yields.of_eq zeroed).bind ?_
    rintro _ rfl
    refine (usmAuthDigest_spec crypto _ key newHash).bind fun want digest => .ok fun matches' => ?_
    obtain ⟨keyed, hash, hashed, same⟩ := digest claimed (of_decide_eq_true matches')
    exact ⟨keyed, hash, front, rest, hashed, split, by rw [found, counted], same⟩

/-- **Acceptance.** The inbound check returns on every message; one it accepts with the
authentication flag carries a verified digest and lies in the time window. -/
theorem authenticateInbound_sound (engine : SNMPv3Engine) (requestData : Bytes)
    (msg : SNMPv3Message) :
    Yields (engine.authenticateInbound requestData msg) fun refused => refused = none →
      hasFlag msg.globalData.msgFlags snmpv3MsgFlagAuth = true →
        CarriesDigest engine.crypto engine.usm.newHash engine.usm.authKey requestData
          msg.securityParams.authParams ∧
        engine.usm.withinTimeWindow engine.receivedAt msg.securityParams.authoritativeEngineBoots
          msg.securityParams.authoritativeEngineTime = true := by
  rw [SNMPv3Engine.authenticateInbound]
  refine .ite (fun unflagged => ?_) fun _ => ?_
  · have plain : hasFlag msg.globalData.msgFlags snmpv3MsgFlagAuth = false := by simpa using unflagged
    refine .guard nofun fun _ => .ok fun _ flagged => ?_
    rw [plain] at flagged
    exact absurd flagged nofun
  refine .guard nofun fun _ => ?_
  refine (usmVerifyAuthDigest_sound engine.crypto requestData msg.securityParams.authParams
    engine.usm.authKey engine.usm.newHash).bind fun verified carries => ?_
  refine .guard nofun fun passed => ?_
  refine .guard nofun fun inWindow => .ok fun _ _ => ?_
  exact ⟨carries (by simpa using passed), by simpa using inWindow⟩

theorem substituteAuthParams_returns (message digest : Bytes) :
    Yields (substituteAuthParams message digest) fun _ => True := by
  rw [substituteAuthParams]
  refine .guard trivial fun _ => ?_
  refine (locateAuthParams_spec message).andThen (.ok trivial) ?_
  rintro ⟨off, n⟩ inside
  obtain ⟨nonneg, natural, fits⟩ := inside off n rfl
  refine .guard trivial fun _ => ?_
  rw [overwriteFrom, (At.of_le nonneg (show off ≤ message.length by omega)).toEnd, ok_bind]
  exact .ok trivial

/-! ### Decryption returns -/

theorem desIV_returns {salt preIV : Bytes} (saltLength : salt.length = 8) (ivLength : preIV.length = 8) :
    Yields (desIV salt preIV) fun _ => True := by
  have each : ∀ i : Int, 0 ≤ i → i < 0 + (8 : Nat) →
      Yields (do return (← index salt i) ^^^ (← index preIV i)) fun _ => True := fun i low high =>
    (Yields.index low (by omega)).bind fun _ _ =>
      (Yields.index low (by omega)).bind fun _ _ => .ok trivial
  exact (Yields.tabulate each).mono fun _ _ => trivial

theorem decryptScopedPDUAt_returns (engine : SNMPv3Engine) (config : SNMPv3Config)
    (encryptedPDU privParams : Bytes) (boots engineTime : Int) :
    Yields (engine.decryptScopedPDUAt config encryptedPDU privParams boots engineTime)
      fun _ => True := by
  rw [SNMPv3Engine.decryptScopedPDUAt]
  refine .guard trivial fun _ => ?_
  refine .ite (fun _ => ?_) fun _ => .ite (fun _ => ?_) fun _ => .ok trivial
  · rw [SNMPv3Engine.decryptDES]
    refine .guard trivial fun saltLength => ?_
    refine .guard trivial fun keyLength => ?_
    refine (Yields.slice le_rfl (by norm_num) (by omega)).bind fun key _ => ?_
    refine (Yields.slice (by norm_num) (by norm_num) (by omega)).bind fun preIV half => ?_
    refine (desIV_returns (not_not.mp saltLength) (by omega)).bind fun iv _ => ?_
    exact .guard trivial fun _ => .ok trivial
  · rw [SNMPv3Engine.decryptAES128At]
    refine .guard trivial fun _ => ?_
    refine .guard trivial fun keyLength => ?_
    exact (Yields.slice le_rfl (by norm_num) (by omega)).bind fun _ _ => .ok trivial

end Nl6
