import Nl6.Wire.Envelope

/-! # The SNMPv3 message readers

`isSNMPv3Request` classifies a datagram. `parseSNMPv3Message` reads its global data, its security
parameters and the bytes of its scoped PDU. Security parameters that cannot be read to their end
keep the fields in front of the fault. Unlike `parseBERInt`, the integer reader of this path,
`parseInteger`, knows no sign: it shifts the octets into a machine word (`parseInteger_at`).

The readers return on every buffer (`isSNMPv3Request_returns`, `parseSNMPv3Message_returns`).
-/

namespace Nl6

open Numeral Checked Ber

/-! ### Messages -/

structure SNMPv3GlobalData where
  msgID : Int
  msgMaxSize : Int
  msgFlags : UInt8
  msgSecurityModel : Int
  deriving DecidableEq, Repr

structure SNMPv3SecurityParams where
  authoritativeEngineID : Bytes := []
  authoritativeEngineBoots : Int := 0
  authoritativeEngineTime : Int := 0
  userName : Bytes := []
  authParams : Bytes := []
  privParams : Bytes := []
  deriving DecidableEq, Repr

structure SNMPv3Message where
  version : Int
  globalData : SNMPv3GlobalData
  securityParams : SNMPv3SecurityParams
  scopedPDU : Bytes
  deriving DecidableEq, Repr

def snmpv3Version : Int := 3
def snmpv3MsgFlagAuth : UInt8 := 0x01
def snmpv3MsgFlagPriv : UInt8 := 0x02
def snmpv3MsgFlagReport : UInt8 := 0x04
def snmpv3SecurityModelUSM : Int := 3

/-! ### Fields -/

/-- The loop of `parseInteger`. The shift drops what leaves the machine word. -/
def shiftOctets (data : Bytes) : Nat → Int → Int → Checked Int
  | 0, _, value => .ok value
  | count + 1, pos, value => do
      let octet ← index data pos
      shiftOctets data count (pos + 1) (int64 (value * 256 + octet.toNat))

/-- The header of a field that must carry the given tag and end inside the buffer. -/
def readWhole (data : Bytes) (pos : Int) (tag : UInt8) : Checked (Option (Int × Int)) := do
  if pos ≥ data.length then return none
  let first ← index data pos
  if first ≠ tag then return none
  let (length, newPos) ← parseLength data (pos + 1)
  if length = -1 ∨ newPos + length > data.length then return none
  return some (length, newPos)

/-- `parseInteger`: the value and the cursor behind it. -/
def parseInteger (data : Bytes) (pos : Int) : Checked (Option (Int × Int)) := do
  let some (length, pos) ← readWhole data pos asn1Integer | return none
  let value ← shiftOctets data length.toNat pos 0
  return some (value, pos + length)

def parseOctetString (data : Bytes) (pos : Int) : Checked (Option (Bytes × Int)) := do
  let some (length, pos) ← readWhole data pos asn1OctetString | return none
  let value ← slice data pos (pos + length)
  return some (value, pos + length)

/-- The step over a tag and its length, whatever the length says. -/
def enterField (data : Bytes) (pos : Int) (tag : UInt8) : Checked (Option Int) := do
  if pos ≥ data.length then return none
  let first ← index data pos
  if first ≠ tag then return none
  let (_, newPos) ← parseLength data (pos + 1)
  return some newPos

/-! ### Messages -/

/-- `parseUSMSecurityParameters`: the fields read in front of the first fault. The one caller ignores
the error. -/
def parseUSMSecurityParameters (data : Bytes) : Checked SNMPv3SecurityParams := do
  let params : SNMPv3SecurityParams := {}
  if data.length = 0 then return params
  let first ← index data 0
  if first ≠ asn1Sequence then return params
  let (seqLen, pos) ← parseLength data 1
  if seqLen = -1 then return params
  let some (authoritativeEngineID, pos) ← parseOctetString data pos | return params
  let params := { params with authoritativeEngineID }
  let some (authoritativeEngineBoots, pos) ← parseInteger data pos | return params
  let params := { params with authoritativeEngineBoots }
  let some (authoritativeEngineTime, pos) ← parseInteger data pos | return params
  let params := { params with authoritativeEngineTime }
  let some (userName, pos) ← parseOctetString data pos | return params
  let params := { params with userName }
  let some (authParams, pos) ← parseOctetString data pos | return params
  let params := { params with authParams }
  let some (privParams, _) ← parseOctetString data pos | return params
  return { params with privParams }

/-- `parseSNMPv3Message`'s reading of the version: the cursor behind it, if it is version 3. -/
def readVersion3 (data : Bytes) (pos : Int) : Checked (Option Int) := do
  let some (versionLen, pos) ← readField data pos asn1Integer | return none
  let some v ← parseBERInt data pos versionLen | return none
  return if v ≠ snmpv3Version then none else some (pos + versionLen)

/-- `parseSNMPv3Message`'s reading of the flags. -/
def readMsgFlags (data : Bytes) (pos : Int) : Checked (Option (UInt8 × Int)) := do
  if pos ≥ data.length then return none
  let first ← index data pos
  if first ≠ asn1OctetString then return none
  let (flagsLen, pos) ← parseLength data (pos + 1)
  if flagsLen ≠ 1 then return none
  if pos ≥ data.length then return none
  let flags ← index data pos
  return some (flags, pos + 1)

/-- `parseSNMPv3Message`'s reading of the global data. -/
def readGlobalData (data : Bytes) (pos : Int) : Checked (Option (SNMPv3GlobalData × Int)) := do
  let some pos ← enterField data pos asn1Sequence | return none
  let some (msgID, pos) ← parseInteger data pos | return none
  let some (msgMaxSize, pos) ← parseInteger data pos | return none
  let some (msgFlags, pos) ← readMsgFlags data pos | return none
  let some (msgSecurityModel, pos) ← parseInteger data pos | return none
  return some ({ msgID, msgMaxSize, msgFlags, msgSecurityModel }, pos)

/-- `parseSNMPv3Message`'s reading of the security parameters. -/
def readSecurityParams (data : Bytes) (pos : Int) : Checked (Option (SNMPv3SecurityParams × Int)) := do
  if pos ≥ data.length then return none
  let first ← index data pos
  if first ≠ asn1OctetString then return none
  let (secParamsLen, pos) ← parseLength data (pos + 1)
  if secParamsLen = -1 then return none
  if secParamsLen > 0 then
    if pos + secParamsLen > data.length then return none
    let params ← parseUSMSecurityParameters (← slice data pos (pos + secParamsLen))
    return some (params, pos + secParamsLen)
  else return some ({}, pos)

/-- `parseSNMPv3Message`'s reading of the scoped PDU, encrypted or not. -/
def readScopedPDU (data : Bytes) (pos : Int) : Checked (Option Bytes) := do
  if pos ≥ data.length then return none
  let first ← index data pos
  if first = asn1OctetString ∨ first = asn1Sequence then
    let (pduLen, pos) ← parseLength data (pos + 1)
    if pduLen < 0 ∨ pos + pduLen > data.length then return none
    return some (← slice data pos (pos + pduLen))
  else return none

/-- `parseSNMPv3Message`, without the texts of its errors. -/
def parseSNMPv3Message (data : Bytes) : Checked (Option SNMPv3Message) := do
  if data.length < 20 then return none
  let some pos ← enterField data 0 asn1Sequence | return none
  let some pos ← readVersion3 data pos | return none
  let some (globalData, pos) ← readGlobalData data pos | return none
  let some (securityParams, pos) ← readSecurityParams data pos | return none
  let some scopedPDU ← readScopedPDU data pos | return none
  return some { version := snmpv3Version, globalData, securityParams, scopedPDU }

def isSNMPv3Request (data : Bytes) : Checked Bool := do
  if data.length < 10 then return false
  let first ← index data 0
  if first ≠ asn1Sequence then return false
  let (length, pos) ← parseLength data 1
  if length = -1 then return false
  let some (versionLen, pos) ← readField data pos asn1Integer | return false
  let v ← parseBERInt data pos versionLen
  return v = some snmpv3Version

/-! ### The field readers return -/

variable {data : Bytes} {pos : Int} {bytes contents rest : Bytes}

theorem readWhole_spec (data : Bytes) (nonneg : 0 ≤ pos) (tag : UInt8) :
    Yields (readWhole data pos tag) fun result => ∀ length body, result = some (length, body) →
      ∃ contents bytes rest, (contents.length : Int) = length ∧ IsTlv tag contents bytes ∧
        At data pos (bytes ++ rest) ∧ At data body (contents ++ rest) ∧
        body + length = pos + bytes.length := by
  rw [readWhole]
  refine .guard nofun fun inside => ?_
  obtain ⟨first, behind, here⟩ := At.of_lt nonneg (not_le.mp inside)
  refine (Yields.of_eq here.index).bind ?_
  rintro _ rfl
  refine .guard nofun fun tagged => ?_
  obtain rfl : first = tag := not_not.mp tagged
  refine (element_spec here).bind ?_
  rintro ⟨length, body⟩ ⟨-, -, read⟩
  refine .guard nofun fun whole => .ok ?_
  rintro _ _ ⟨⟩
  obtain ⟨-, -, element⟩ := read.resolve_left fun unread => whole (.inl unread)
  exact element (not_lt.mp fun overruns => whole (.inr overruns))

theorem readWhole_at {tag : UInt8} (here : At data pos (bytes ++ rest))
    (element : IsTlv tag contents bytes) :
    ∃ body, readWhole data pos tag = .ok (some ((contents.length : Int), body)) ∧
      At data body (contents ++ rest) ∧ body + contents.length = pos + bytes.length := by
  obtain ⟨body, tagRead, lengthRead, onward, contentsAt, ends⟩ := element_at here element
  have total := contentsAt.length_eq
  rw [List.length_append] at total
  have inside : ¬ pos ≥ data.length := by omega
  have whole : ¬ ((contents.length : Int) = -1 ∨ body + contents.length > data.length) := by omega
  refine ⟨body, ?_, contentsAt, ends⟩
  simp only [readWhole, inside, ↓reduceIte, tagRead, ok_bind, ne_eq, not_true_eq_false, lengthRead,
    whole, pure_eq_ok]

/-- The shifts compute the unsigned value, as far as the machine word keeps it. -/
theorem shiftOctets_at {octets : Bytes} (here : At data pos (octets ++ rest)) (front : Bytes) :
    shiftOctets data octets.length pos (int64 (Octets.value front)) =
      .ok (int64 (Octets.value (front ++ octets))) := by
  induction octets generalizing pos front with
  | nil => simp [shiftOctets]
  | cons octet octets ih =>
    have first : At data pos (octet :: (octets ++ rest)) := here
    have shifted : int64 (int64 (Octets.value front) * 256 + octet.toNat) =
        int64 (Octets.value (front ++ [octet])) := by
      rw [Octets.value_append_singleton, int64, int64, int64]
      push_cast
      rw [Int.add_bmod, Int.bmod_mul_bmod, ← Int.add_bmod]
    rw [List.length_cons, shiftOctets, first.index, ok_bind, shifted, ih first.step]
    simp

/-- **Reading an integer of this path.** The value is the unsigned reading of the octets, taken into
a machine word. -/
theorem parseInteger_at {octets : Bytes} (here : At data pos (bytes ++ rest))
    (element : IsTlv asn1Integer octets bytes) :
    parseInteger data pos = .ok (some (int64 (Octets.value octets), pos + bytes.length)) := by
  obtain ⟨body, read, contentsAt, ends⟩ := readWhole_at here element
  have shifted := shiftOctets_at contentsAt []
  rw [List.nil_append, Octets.value_nil] at shifted
  simp only [parseInteger, read, ok_bind, Int.toNat_natCast, pure_eq_ok, ends]
  rw [show (0 : Int) = int64 (0 : Nat) from rfl, shifted, ok_bind]

theorem parseInteger_spec (data : Bytes) (nonneg : 0 ≤ pos) :
    Yields (parseInteger data pos) fun result => ∀ value next, result = some (value, next) →
      ∃ octets bytes rest, IsTlv asn1Integer octets bytes ∧ At data pos (bytes ++ rest) ∧
        next = pos + bytes.length ∧ value = int64 (Octets.value octets) := by
  obtain ⟨_ | ⟨length, body⟩, read, whole⟩ := readWhole_spec data nonneg asn1Integer
  · rw [parseInteger, read, ok_bind]
    exact .ok nofun
  · obtain ⟨octets, bytes, rest, -, element, here, -, -⟩ := whole length body rfl
    rw [parseInteger_at here element]
    refine .ok fun value next same => ?_
    obtain ⟨rfl, rfl⟩ := Prod.mk.inj (Option.some.inj same)
    exact ⟨octets, bytes, rest, element, here, rfl, rfl⟩

theorem parseOctetString_at (here : At data pos (bytes ++ rest))
    (element : IsTlv asn1OctetString contents bytes) :
    parseOctetString data pos = .ok (some (contents, pos + bytes.length)) := by
  obtain ⟨body, read, contentsAt, ends⟩ := readWhole_at here element
  have sliced := contentsAt.slice
  rw [ends] at sliced
  simp [parseOctetString, read, ends, sliced]

theorem parseOctetString_spec (data : Bytes) (nonneg : 0 ≤ pos) :
    Yields (parseOctetString data pos) fun result => ∀ value next, result = some (value, next) →
      ∃ bytes rest, IsTlv asn1OctetString value bytes ∧ At data pos (bytes ++ rest) ∧
        next = pos + bytes.length := by
  obtain ⟨_ | ⟨length, body⟩, read, whole⟩ := readWhole_spec data nonneg asn1OctetString
  · rw [parseOctetString, read, ok_bind]
    exact .ok nofun
  · obtain ⟨contents, bytes, rest, -, element, here, -, -⟩ := whole length body rfl
    rw [parseOctetString_at here element]
    refine .ok ?_
    rintro _ _ ⟨⟩
    exact ⟨bytes, rest, element, here, rfl⟩

theorem enterField_spec (data : Bytes) (nonneg : 0 ≤ pos) (tag : UInt8) :
    Yields (enterField data pos tag) fun result => ∀ next, result = some next → 0 ≤ next := by
  rw [enterField]
  refine .guard nofun fun inside => ?_
  refine (Yields.index nonneg (not_le.mp inside)).bind fun first _ => ?_
  refine .guard nofun fun _ => ?_
  refine (parseLength_spec data (by omega)).bind ?_
  rintro ⟨length, next⟩ ⟨onward, -, -⟩
  refine .ok ?_
  rintro _ ⟨⟩
  omega

theorem enterField_at {tag : UInt8} (here : At data pos (bytes ++ rest))
    (element : IsTlv tag contents bytes) :
    ∃ body, enterField data pos tag = .ok (some body) ∧ At data body (contents ++ rest) := by
  obtain ⟨body, tagRead, lengthRead, onward, contentsAt, ends⟩ := element_at here element
  have total := contentsAt.length_eq
  have inside : ¬ pos ≥ data.length := by omega
  refine ⟨body, ?_, contentsAt⟩
  simp [enterField, inside, tagRead, lengthRead]

/-! ### The message readers return -/

/-- The cursor a reader reports can be read on from. -/
def Onward {α : Type} (result : Option (α × Int)) : Prop :=
  ∀ value next, result = some (value, next) → 0 ≤ next

theorem parseInteger_onward (nonneg : 0 ≤ pos) : Yields (parseInteger data pos) Onward := by
  refine (parseInteger_spec data nonneg).mono fun result read value next same => ?_
  obtain ⟨_, bytes, _, -, -, rfl, -⟩ := read value next same
  omega

theorem parseOctetString_onward (nonneg : 0 ≤ pos) : Yields (parseOctetString data pos) Onward := by
  refine (parseOctetString_spec data nonneg).mono fun result read value next same => ?_
  obtain ⟨bytes, _, -, -, rfl⟩ := read value next same
  omega

theorem parseUSMSecurityParameters_returns (data : Bytes) :
    Yields (parseUSMSecurityParameters data) fun _ => True := by
  rw [parseUSMSecurityParameters]
  refine .guard trivial fun nonempty => ?_
  refine (Yields.index le_rfl (by omega)).bind fun first _ => ?_
  refine .guard trivial fun _ => ?_
  refine (parseLength_spec data (by omega)).bind ?_
  rintro ⟨seqLen, pos⟩ ⟨onward, -, -⟩
  refine .guard trivial fun _ => ?_
  refine (parseOctetString_onward (by omega)).andThen (.ok trivial) ?_
  rintro ⟨engineID, pos⟩ engineAt
  refine (parseInteger_onward (engineAt _ _ rfl)).andThen (.ok trivial) ?_
  rintro ⟨boots, pos⟩ bootsAt
  refine (parseInteger_onward (bootsAt _ _ rfl)).andThen (.ok trivial) ?_
  rintro ⟨time, pos⟩ timeAt
  refine (parseOctetString_onward (timeAt _ _ rfl)).andThen (.ok trivial) ?_
  rintro ⟨userName, pos⟩ nameAt
  refine (parseOctetString_onward (nameAt _ _ rfl)).andThen (.ok trivial) ?_
  rintro ⟨authParams, pos⟩ authAt
  refine (parseOctetString_onward (authAt _ _ rfl)).bind ?_
  rintro (_ | ⟨privParams, pos⟩) - <;> exact .ok trivial

theorem readVersion3_returns (nonneg : 0 ≤ pos) :
    Yields (readVersion3 data pos) fun result => ∀ next, result = some next → 0 ≤ next := by
  rw [readVersion3]
  refine (readField_spec data nonneg asn1Integer).andThen (.ok nofun) ?_
  rintro ⟨length, body⟩ read
  obtain ⟨natural, onward, -, -, -⟩ := read length body rfl
  refine (parseBERInt_spec data (by omega) length).andThen (.ok nofun) ?_
  rintro v -
  refine .ok fun next same => ?_
  split at same
  · exact absurd same nofun
  · cases same
    omega

theorem readMsgFlags_returns (nonneg : 0 ≤ pos) : Yields (readMsgFlags data pos) Onward := by
  rw [readMsgFlags]
  refine .guard nofun fun inside => ?_
  refine (Yields.index nonneg (not_le.mp inside)).bind fun first _ => ?_
  refine .guard nofun fun _ => ?_
  refine (parseLength_spec data (by omega)).bind ?_
  rintro ⟨flagsLen, body⟩ ⟨onward, -, -⟩
  refine .guard nofun fun _ => ?_
  refine .guard nofun fun readable => ?_
  refine (Yields.index (by omega) (not_le.mp readable)).bind fun flags _ => .ok ?_
  rintro _ _ ⟨⟩
  omega

theorem readGlobalData_returns (nonneg : 0 ≤ pos) : Yields (readGlobalData data pos) Onward := by
  rw [readGlobalData]
  refine (enterField_spec data nonneg asn1Sequence).andThen (.ok nofun) ?_
  rintro pos entered
  refine (parseInteger_onward (entered _ rfl)).andThen (.ok nofun) ?_
  rintro ⟨msgID, pos⟩ idAt
  refine (parseInteger_onward (idAt _ _ rfl)).andThen (.ok nofun) ?_
  rintro ⟨msgMaxSize, pos⟩ sizeAt
  refine (readMsgFlags_returns (sizeAt _ _ rfl)).andThen (.ok nofun) ?_
  rintro ⟨msgFlags, pos⟩ flagsAt
  refine (parseInteger_onward (flagsAt _ _ rfl)).andThen (.ok nofun) ?_
  rintro ⟨msgSecurityModel, pos⟩ modelAt
  refine .ok ?_
  rintro _ _ ⟨⟩
  exact modelAt _ _ rfl

theorem readSecurityParams_returns (nonneg : 0 ≤ pos) :
    Yields (readSecurityParams data pos) Onward := by
  rw [readSecurityParams]
  refine .guard nofun fun inside => ?_
  refine (Yields.index nonneg (not_le.mp inside)).bind fun first _ => ?_
  refine .guard nofun fun _ => ?_
  refine (parseLength_spec data (by omega)).bind ?_
  rintro ⟨length, body⟩ ⟨onward, -, -⟩
  refine .guard nofun fun _ => ?_
  refine .ite (fun positive => ?_) fun _ => ?_
  · refine .guard nofun fun fits => ?_
    refine (Yields.slice (by omega) (by omega) (not_lt.mp fits)).bind fun part _ => ?_
    refine (parseUSMSecurityParameters_returns part).bind fun params _ => .ok ?_
    rintro _ _ ⟨⟩
    omega
  · refine .ok ?_
    rintro _ _ ⟨⟩
    omega

theorem readScopedPDU_returns (nonneg : 0 ≤ pos) :
    Yields (readScopedPDU data pos) fun _ => True := by
  rw [readScopedPDU]
  refine .guard trivial fun inside => ?_
  refine (Yields.index nonneg (not_le.mp inside)).bind fun first _ => ?_
  refine .ite (fun _ => ?_) fun _ => .ok trivial
  refine (parseLength_spec data (by omega)).bind ?_
  rintro ⟨pduLen, body⟩ ⟨onward, -, -⟩
  refine .guard trivial fun fits => ?_
  exact (Yields.slice (by omega) (by omega) (by omega)).bind fun _ _ => .ok trivial

/-- **Parsing a message returns.** On every datagram, without an access outside it. -/
theorem parseSNMPv3Message_returns (data : Bytes) :
    Yields (parseSNMPv3Message data) fun _ => True := by
  rw [parseSNMPv3Message]
  refine .guard trivial fun _ => ?_
  refine (enterField_spec data le_rfl asn1Sequence).andThen (.ok trivial) ?_
  rintro pos entered
  refine (readVersion3_returns (entered _ rfl)).andThen (.ok trivial) ?_
  rintro pos versionAt
  refine (readGlobalData_returns (versionAt _ rfl)).andThen (.ok trivial) ?_
  rintro ⟨globalData, pos⟩ globalAt
  refine (readSecurityParams_returns (globalAt _ _ rfl)).andThen (.ok trivial) ?_
  rintro ⟨securityParams, pos⟩ paramsAt
  refine (readScopedPDU_returns (paramsAt _ _ rfl)).bind ?_
  rintro (_ | scopedPDU) - <;> exact .ok trivial

theorem isSNMPv3Request_returns (data : Bytes) : Yields (isSNMPv3Request data) fun _ => True := by
  rw [isSNMPv3Request]
  refine .guard trivial fun long => ?_
  refine (Yields.index le_rfl (by omega)).bind fun first _ => ?_
  refine .guard trivial fun _ => ?_
  refine (parseLength_spec data (by omega)).bind ?_
  rintro ⟨length, pos⟩ ⟨onward, -, -⟩
  refine .guard trivial fun _ => ?_
  refine (readField_spec data (by omega) asn1Integer).andThen (.ok trivial) ?_
  rintro ⟨versionLen, body⟩ read
  obtain ⟨-, later, -, -, -⟩ := read versionLen body rfl
  exact (parseBERInt_spec data (by omega) versionLen).bind fun _ _ => .ok trivial

end Nl6
