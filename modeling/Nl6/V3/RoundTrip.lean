import Nl6.Agent.Server
import Nl6.Wire.RoundTrip

/-! # USM messages read back

`wrapScopedPDUInV3MessageWith` nests six levels of elements and fills the authentication field in
after the assembly. Two readers walk the result on their own: `parseSNMPv3Message` for its fields
and `locateAuthParams` for the offset of the authentication field.

The assembler keeps the field in a frame that does not depend on it (`Frames`), so the message with
the digest is the message assembled with the digest in the first place. `usm_message_reads_back`
says what the readers make of it. The flag byte is not checked against the configuration: a message
can claim a level it was not built at (`unconfigured_level_unprotected`).
-/

namespace Nl6

open Numeral Checked Ber Buffer

/-! ### Fields of a message -/

/-- A machine integer that is not negative. -/
def MachineNat (n : Int) : Prop := 0 ≤ n ∧ n < 2 ^ 63

section Fields

variable {data rest : Bytes} {pos : Int} (short : data.length < 2 ^ 31) {tag : UInt8}
  {contents : Bytes} {params : SNMPv3SecurityParams}

include short

theorem isTlv_of_at (here : At data pos (encodeTLV tag contents ++ rest)) :
    IsTlv tag contents (encodeTLV tag contents) := by
  have total := here.length_eq
  have nonneg := here.nonneg
  rw [List.length_append] at total
  exact isTlv_of_length_lt (by omega)

theorem parseInteger_encoded {n : Int} (natural : MachineNat n)
    (here : At data pos (encodeInteger n ++ rest)) :
    parseInteger data pos = .ok (some (n, pos + (encodeInteger n).length)) := by
  obtain ⟨low, high⟩ := natural
  have spelled : (Octets.value (integerOctets n) : Int) = n := by
    rw [integerOctets]
    split_ifs with zero positive
    · subst zero
      rfl
    · rw [value_positiveOctets]
      omega
    · omega
  rw [parseInteger_at here (isTlv_of_at short here), spelled, int64_of_range (by omega) high]

theorem parseOctetString_encoded {value : Bytes}
    (here : At data pos (encodeOctetString value ++ rest)) :
    parseOctetString data pos = .ok (some (value, pos + (encodeOctetString value).length)) :=
  parseOctetString_at here (isTlv_of_at short here)

theorem enterField_encoded (here : At data pos (encodeTLV tag contents ++ rest)) :
    ∃ body, enterField data pos tag = .ok (some body) ∧ At data body (contents ++ rest) :=
  enterField_at here (isTlv_of_at short here)

theorem readVersion3_encoded (here : At data pos (encodeInteger snmpv3Version ++ rest)) :
    readVersion3 data pos = .ok (some (pos + (encodeInteger snmpv3Version).length)) := by
  obtain ⟨body, read, contentsAt, ends⟩ := readField_at here (isTlv_of_at short here)
  have value : integerValue (integerOctets snmpv3Version) = some snmpv3Version := by decide
  have berRead := parseBERInt_content rest contentsAt
  rw [value] at berRead
  simp [readVersion3, read, berRead, ends]

theorem readMsgFlags_encoded {flags : UInt8}
    (here : At data pos (encodeOctetString [flags] ++ rest)) :
    readMsgFlags data pos = .ok (some (flags, pos + (encodeOctetString [flags]).length)) := by
  obtain ⟨body, tagRead, lengthRead, onward, contentsAt, ends⟩ :=
    element_at here (isTlv_of_at short here)
  have flagAt : At data body (flags :: rest) := contentsAt
  have readable := flagAt.lt_length
  have inside : ¬ pos ≥ data.length := by omega
  have inside' : ¬ body ≥ data.length := by omega
  have ends' : body + 1 = pos + (encodeOctetString [flags]).length := ends
  simp [readMsgFlags, inside, tagRead, lengthRead, inside', flagAt.index, ends']

omit short in
theorem readTLV_at {bytes : Bytes} (here : At data pos (bytes ++ rest))
    (element : IsTlv tag contents bytes) :
    ∃ body, readTLV data pos = .ok (some (tag, body, pos + bytes.length)) ∧
      At data body (contents ++ rest) ∧ body + contents.length = pos + bytes.length := by
  obtain ⟨body, tagRead, lengthRead, onward, contentsAt, ends⟩ := element_at here element
  have total := contentsAt.length_eq
  have nonneg := here.nonneg
  rw [List.length_append] at total
  have inside : ¬ (pos < 0 ∨ pos ≥ data.length) := by omega
  have fits : ¬ ((contents.length : Int) < 0 ∨ body < 0 ∨ body > data.length ∨
      (contents.length : Int) > data.length - body) := by omega
  refine ⟨body, ?_, contentsAt, ends⟩
  simp only [readTLV, inside, ↓reduceIte, tagRead, ok_bind, lengthRead, fits, pure_eq_ok]
  rw [ends]

def encodeGlobalData (globalData : SNMPv3GlobalData) : Bytes :=
  encodeSequence (encodeInteger globalData.msgID ++ encodeInteger globalData.msgMaxSize ++
    encodeOctetString [globalData.msgFlags] ++ encodeInteger globalData.msgSecurityModel)

theorem readGlobalData_encoded {globalData : SNMPv3GlobalData}
    (id : MachineNat globalData.msgID)
    (size : MachineNat globalData.msgMaxSize)
    (model : MachineNat globalData.msgSecurityModel)
    (here : At data pos (encodeGlobalData globalData ++ rest)) :
    readGlobalData data pos = .ok (some (globalData, pos + (encodeGlobalData globalData).length)) := by
  obtain ⟨body, entered, contentsAt⟩ := enterField_encoded short here
  simp only [List.append_assoc] at contentsAt
  have sizeAt := contentsAt.advance
  have flagsAt := sizeAt.advance
  have modelAt := flagsAt.advance
  have ends := modelAt.advance.length_eq
  have ends' := here.advance.length_eq
  simp only [readGlobalData, entered, ok_bind, parseInteger_encoded short id contentsAt,
    parseInteger_encoded short size sizeAt, readMsgFlags_encoded short flagsAt,
    parseInteger_encoded short model modelAt, pure_eq_ok]
  congr 3
  omega

omit short in
theorem parseUSMSecurityParameters_encoded
    (bounded : (encodeUSMSecurityParameters params).length < 2 ^ 31)
    (boots : MachineNat params.authoritativeEngineBoots)
    (time : MachineNat params.authoritativeEngineTime) :
    parseUSMSecurityParameters (encodeUSMSecurityParameters params) = .ok params := by
  have whole : At (encodeUSMSecurityParameters params) 0
      (encodeUSMSecurityParameters params ++ []) := by
    rw [List.append_nil]
    exact At.start _
  obtain ⟨body, tagRead, lengthRead, onward, contentsAt, ends⟩ :=
    element_at whole (isTlv_of_at bounded whole)
  simp only [List.append_assoc] at contentsAt
  have bootsAt := contentsAt.advance
  have timeAt := bootsAt.advance
  have nameAt := timeAt.advance
  have authAt := nameAt.advance
  have privAt := authAt.advance
  have nonempty : (encodeUSMSecurityParameters params).length ≠ 0 := by
    simp [encodeUSMSecurityParameters, encodeSequence, encodeTLV]
  have counted : ∀ contents : Bytes, (contents.length : Int) ≠ -1 := by omega
  rw [zero_add] at lengthRead
  simp only [parseUSMSecurityParameters, nonempty, ↓reduceIte, tagRead, ok_bind, ne_eq,
    not_true_eq_false, lengthRead, counted, parseOctetString_encoded bounded contentsAt,
    parseInteger_encoded bounded boots bootsAt,
    parseInteger_encoded bounded time timeAt, parseOctetString_encoded bounded nameAt,
    parseOctetString_encoded bounded authAt, parseOctetString_encoded bounded privAt, pure_eq_ok]

theorem readSecurityParams_encoded (boots : MachineNat params.authoritativeEngineBoots)
    (time : MachineNat params.authoritativeEngineTime)
    (here : At data pos (encodeOctetString (encodeUSMSecurityParameters params) ++ rest)) :
    readSecurityParams data pos = .ok (some (params,
      pos + (encodeOctetString (encodeUSMSecurityParameters params)).length)) := by
  obtain ⟨body, tagRead, lengthRead, onward, contentsAt, ends⟩ :=
    element_at here (isTlv_of_at short here)
  have total := contentsAt.length_eq
  have nonneg := contentsAt.nonneg
  rw [List.length_append] at total
  have inside : ¬ pos ≥ data.length := by omega
  have fits : ¬ body + (encodeUSMSecurityParameters params).length > data.length := by omega
  have positive : ((encodeUSMSecurityParameters params).length : Int) > 0 := by
    simp [encodeUSMSecurityParameters, encodeSequence, encodeTLV]
    omega
  have counted : ((encodeUSMSecurityParameters params).length : Int) ≠ -1 := by omega
  have bounded : (encodeUSMSecurityParameters params).length < 2 ^ 31 := by omega
  simp only [readSecurityParams, inside, ↓reduceIte, tagRead, ok_bind, ne_eq, not_true_eq_false,
    lengthRead, counted, positive, fits, contentsAt.slice,
    parseUSMSecurityParameters_encoded bounded boots time, pure_eq_ok]
  rw [ends]

theorem readScopedPDU_encoded (readable : tag = asn1OctetString ∨ tag = asn1Sequence)
    (here : At data pos (encodeTLV tag contents ++ rest)) :
    readScopedPDU data pos = .ok (some contents) := by
  obtain ⟨body, tagRead, lengthRead, onward, contentsAt, ends⟩ :=
    element_at here (isTlv_of_at short here)
  have total := contentsAt.length_eq
  rw [List.length_append] at total
  have inside : ¬ pos ≥ data.length := by omega
  have fits : ¬ ((contents.length : Int) < 0 ∨ body + contents.length > data.length) := by omega
  simp [readScopedPDU, inside, tagRead, readable, lengthRead, fits, contentsAt.slice]

end Fields

/-! ### Messages -/

/-- A message whose integers are machine integers and not negative. -/
structure SNMPv3Message.Encodable (msg : SNMPv3Message) : Prop where
  id : MachineNat msg.globalData.msgID
  size : MachineNat msg.globalData.msgMaxSize
  model : MachineNat msg.globalData.msgSecurityModel
  boots : MachineNat msg.securityParams.authoritativeEngineBoots
  time : MachineNat msg.securityParams.authoritativeEngineTime

def SNMPv3Message.encoded (msg : SNMPv3Message) : Bytes :=
  encodeSNMPv3Message msg (encodeUSMSecurityParameters msg.securityParams)

theorem length_encodeTLV_ge (tag : UInt8) (contents : Bytes) :
    contents.length + 2 ≤ (encodeTLV tag contents).length := by
  have spelled : 0 < (encodeLength contents.length).length := by
    rw [length_encodeLength]
    split <;> omega
  rw [length_encodeTLV, tlvSize]
  omega

section Messages

variable {msg : SNMPv3Message} {tag : UInt8} {contents : Bytes}
  (version : msg.version = snmpv3Version)
  (carried : (if hasFlag msg.globalData.msgFlags snmpv3MsgFlagPriv then
    encodeOctetString msg.scopedPDU else msg.scopedPDU) = encodeTLV tag contents)

include version carried

theorem SNMPv3Message.encoded_eq :
    msg.encoded = encodeSequence (encodeInteger snmpv3Version ++ (encodeGlobalData msg.globalData ++
      (encodeOctetString (encodeUSMSecurityParameters msg.securityParams) ++
        encodeTLV tag contents))) := by
  rw [encoded, encodeSNMPv3Message, version, carried]
  simp [encodeGlobalData]

theorem SNMPv3Message.twenty_le : 20 ≤ msg.encoded.length := by
  rw [encoded_eq version carried]
  refine le_trans ?_ (length_encodeTLV_ge _ _)
  have versionSize : 3 ≤ (encodeInteger snmpv3Version).length := by decide
  have idSize := length_encodeTLV_ge asn1Integer (integerOctets msg.globalData.msgID)
  have maxSize := length_encodeTLV_ge asn1Integer (integerOctets msg.globalData.msgMaxSize)
  have flagsSize : 3 ≤ (encodeOctetString [msg.globalData.msgFlags]).length :=
    length_encodeTLV_ge asn1OctetString [msg.globalData.msgFlags]
  have modelSize := length_encodeTLV_ge asn1Integer (integerOctets msg.globalData.msgSecurityModel)
  have globalSize : 11 ≤ (encodeGlobalData msg.globalData).length := by
    refine le_trans ?_ (length_encodeTLV_ge _ _)
    simp only [List.length_append, encodeInteger]
    omega
  have usmSize : 2 ≤ (encodeUSMSecurityParameters msg.securityParams).length :=
    le_trans (by omega) (length_encodeTLV_ge _ _)
  have paramsSize : 4 ≤ (encodeOctetString (encodeUSMSecurityParameters msg.securityParams)).length :=
    le_trans (by omega) (length_encodeTLV_ge _ _)
  simp only [List.length_append]
  omega

/-- **A message reads back.** The scoped PDU is read without its header, or as the octets the privacy
flag announces. -/
theorem parseSNMPv3Message_encoded (encodable : msg.Encodable)
    (short : msg.encoded.length < 2 ^ 31)
    (readable : tag = asn1OctetString ∨ tag = asn1Sequence) :
    parseSNMPv3Message msg.encoded = .ok (some { msg with scopedPDU := contents }) := by
  have long : ¬ msg.encoded.length < 20 := not_lt.mpr (SNMPv3Message.twenty_le version carried)
  have whole := At.start msg.encoded
  nth_rewrite 2 [SNMPv3Message.encoded_eq version carried] at whole
  rw [← List.append_nil (encodeSequence _)] at whole
  obtain ⟨body, entered, versionAt⟩ := enterField_encoded short whole
  rw [List.append_nil] at versionAt
  have globalAt := versionAt.advance
  have paramsAt := globalAt.advance
  have scopedAt := paramsAt.advance
  rw [← List.append_nil (encodeTLV _ _)] at scopedAt
  simp [parseSNMPv3Message, long, entered, readVersion3_encoded short versionAt,
    readGlobalData_encoded short encodable.id encodable.size encodable.model globalAt,
    readSecurityParams_encoded short encodable.boots encodable.time paramsAt,
    readScopedPDU_encoded short readable scopedAt, version]

/-- **The locator finds the field.** What stands at the offset is the authentication field, and behind
it the privacy field and the scoped PDU. -/
theorem locateAuthParams_encoded (short : msg.encoded.length < 2 ^ 31) :
    ∃ off, locateAuthParams msg.encoded =
        .ok (some (off, (msg.securityParams.authParams.length : Int))) ∧
      At msg.encoded off (msg.securityParams.authParams ++
        (encodeOctetString msg.securityParams.privParams ++ encodeTLV tag contents)) := by
  have whole := At.start msg.encoded
  nth_rewrite 2 [SNMPv3Message.encoded_eq version carried] at whole
  rw [← List.append_nil (encodeSequence _)] at whole
  obtain ⟨body, outer, versionAt, -⟩ := readTLV_at whole (isTlv_of_at short whole)
  obtain ⟨all, allRead, allSplit, -⟩ := whole.advance.fromStart
  obtain rfl : msg.encoded = all := by rwa [List.append_nil] at allSplit
  rw [List.append_nil] at versionAt
  have globalAt := versionAt.advance
  have paramsAt := globalAt.advance
  obtain ⟨_, versionRead, -, -⟩ := readTLV_at versionAt (isTlv_of_at short versionAt)
  obtain ⟨_, globalRead, -, -⟩ := readTLV_at globalAt (isTlv_of_at short globalAt)
  obtain ⟨secStart, paramsRead, usmAt, secEnds⟩ := readTLV_at paramsAt (isTlv_of_at short paramsAt)
  obtain ⟨front, frontRead, split, -⟩ := paramsAt.advance.fromStart
  have shorter : front.length < 2 ^ 31 := by
    rw [split, List.length_append] at short
    omega
  have usmInside := usmAt.restrict split
  rw [← List.append_nil (encodeUSMSecurityParameters _)] at usmInside
  obtain ⟨usmBody, usmRead, engineAt, -⟩ := readTLV_at usmInside (isTlv_of_at shorter usmInside)
  rw [secEnds] at usmRead
  simp only [List.append_assoc] at engineAt
  have bootsAt := engineAt.advance
  have timeAt := bootsAt.advance
  have nameAt := timeAt.advance
  have authAt := nameAt.advance
  obtain ⟨_, engineRead, -, -⟩ := readTLV_at engineAt (isTlv_of_at shorter engineAt)
  obtain ⟨_, bootsRead, -, -⟩ := readTLV_at bootsAt (isTlv_of_at shorter bootsAt)
  obtain ⟨_, timeRead, -, -⟩ := readTLV_at timeAt (isTlv_of_at shorter timeAt)
  obtain ⟨_, nameRead, -, -⟩ := readTLV_at nameAt (isTlv_of_at shorter nameAt)
  obtain ⟨off, authRead, fieldAt, ends⟩ := readTLV_at authAt (isTlv_of_at shorter authAt)
  refine ⟨off, ?_, ?_⟩
  · simp only [locateAuthParams, outer, ok_bind, allRead, versionRead, globalRead, paramsRead,
      frontRead, usmRead, engineRead, bootsRead, timeRead, nameRead, authRead, pure_eq_ok]
    rw [if_neg (not_not.mpr rfl), ← ends, add_sub_cancel_left]
  · have extended := fieldAt.extend split
    simpa using extended

end Messages

/-! ### The authentication field -/

theorem frames_encodeTLV {n : Nat} {rest : Bytes} {f : Bytes → Bytes} (tag : UInt8)
    (frames : Frames n rest f) : Frames n rest fun part => encodeTLV tag (f part) :=
  frames.headed fun length => tag :: encodeLength length

/-- The message with another authentication field. -/
def SNMPv3Message.withAuth (msg : SNMPv3Message) (authParams : Bytes) : SNMPv3Message :=
  { msg with securityParams := { msg.securityParams with authParams } }

/-- The authentication field stands in a frame that does not depend on it. -/
theorem SNMPv3Message.frames_encoded (msg : SNMPv3Message) (n : Nat) :
    Frames n (encodeOctetString msg.securityParams.privParams ++
        (if hasFlag msg.globalData.msgFlags snmpv3MsgFlagPriv then encodeOctetString msg.scopedPDU
          else msg.scopedPDU))
      fun authParams => (msg.withAuth authParams).encoded := by
  have field := frames_encodeTLV asn1OctetString (Frames.self (α := UInt8) n)
  have params := frames_encodeTLV asn1Sequence
    ((field.behind (encodeOctetString msg.securityParams.authoritativeEngineID ++
      encodeInteger msg.securityParams.authoritativeEngineBoots ++
      encodeInteger msg.securityParams.authoritativeEngineTime ++
      encodeOctetString msg.securityParams.userName)).before
      (encodeOctetString msg.securityParams.privParams))
  have message := frames_encodeTLV asn1Sequence
    (((frames_encodeTLV asn1OctetString params).behind
      (encodeInteger msg.version ++ encodeGlobalData msg.globalData)).before
      (if hasFlag msg.globalData.msgFlags snmpv3MsgFlagPriv then encodeOctetString msg.scopedPDU
        else msg.scopedPDU))
  exact message

theorem length_of_usmAuthDigest {crypto : Crypto} {message key digest : Bytes}
    {newHash : Option AuthHash}
    (digested : usmAuthDigest crypto message key newHash = .ok (some digest)) :
    digest.length = usmAuthParamsLen := by
  obtain ⟨result, returned, spec⟩ := usmAuthDigest_spec crypto message key newHash
  obtain rfl : some digest = result := Except.ok.inj (digested.symm.trans returned)
  obtain ⟨-, hash, -, rfl⟩ := spec digest rfl
  have enough := crypto.hmac_length hash key message
  rw [List.length_take]
  omega

theorem length_of_substituteAuthParams {message digest signed : Bytes}
    (substituted : substituteAuthParams message digest = .ok (some signed)) :
    signed.length = message.length := by
  rw [substituteAuthParams] at substituted
  split_ifs at substituted with unsized
  · cases substituted
  obtain ⟨located, found, substituted⟩ := bind_eq_ok_iff.mp substituted
  obtain ⟨result, read, inside⟩ := locateAuthParams_spec message
  obtain rfl : located = result := Except.ok.inj (found.symm.trans read)
  cases located with
  | none => cases substituted
  | some field =>
    obtain ⟨off, n⟩ := field
    obtain ⟨nonneg, natural, fits⟩ := inside off n rfl
    simp only at substituted
    split_ifs at substituted with misfit
    · cases substituted
    obtain ⟨written, overwritten, substituted⟩ := bind_eq_ok_iff.mp substituted
    obtain rfl := Option.some.inj (Except.ok.inj substituted)
    obtain ⟨_, -, overwritten⟩ := bind_eq_ok_iff.mp overwritten
    obtain rfl := Except.ok.inj overwritten
    exact length_copyAt (by omega) digest

section Authentication

variable {msg : SNMPv3Message} {tag : UInt8} {contents digest : Bytes}
  (version : msg.version = snmpv3Version)
  (carried : (if hasFlag msg.globalData.msgFlags snmpv3MsgFlagPriv then
    encodeOctetString msg.scopedPDU else msg.scopedPDU) = encodeTLV tag contents)
  (short : msg.encoded.length < 2 ^ 31)

include version carried short

/-- **Substitution.** Exchanging the authentication field in the bytes is exchanging it in the message,
and the locator finds the exchanged octets again. -/
theorem substituteAuthParams_encoded (zeroed : msg.securityParams.authParams.length = usmAuthParamsLen)
    (sized : digest.length = usmAuthParamsLen) :
    ∃ front rest, msg.encoded = front ++ (msg.securityParams.authParams ++ rest) ∧
      (msg.withAuth digest).encoded = front ++ (digest ++ rest) ∧
      substituteAuthParams msg.encoded digest = .ok (some (msg.withAuth digest).encoded) ∧
      locateAuthParams (msg.withAuth digest).encoded =
        .ok (some ((front.length : Int), (usmAuthParamsLen : Int))) := by
  obtain ⟨off, located, here⟩ := locateAuthParams_encoded version carried short
  obtain ⟨front, split, counted, written⟩ := overwriteFrom_at here (sized.trans zeroed.symm)
  have frames := msg.frames_encoded usmAuthParamsLen
  rw [carried] at frames
  have exchanged : (msg.withAuth digest).encoded =
      front ++ (digest ++ (encodeOctetString msg.securityParams.privParams ++
        encodeTLV tag contents)) :=
    frames.exchange zeroed sized split
  refine ⟨front, _, split, exchanged, ?_, ?_⟩
  · have same : ¬ digest.length ≠ usmAuthParamsLen := not_not.mpr sized
    have width : ¬ (msg.securityParams.authParams.length : Int) ≠ usmAuthParamsLen := by
      rw [zeroed]
      exact not_not.mpr rfl
    simp only [substituteAuthParams, same, ↓reduceIte, located, ok_bind, width, written, pure_eq_ok,
      exchanged]
  · have sameLength : (msg.withAuth digest).encoded.length = msg.encoded.length := by
      rw [exchanged, split]
      simp only [List.length_append, sized, zeroed]
    have version' : (msg.withAuth digest).version = snmpv3Version := version
    obtain ⟨off', located', here'⟩ := locateAuthParams_encoded version' carried (by omega)
    have field : (msg.withAuth digest).securityParams.authParams = digest := rfl
    have place : off' = front.length := by
      have there := here'.length_eq
      rw [exchanged, List.length_append, field] at there
      simp only [SNMPv3Message.withAuth] at there
      omega
    rw [located', place, field, sized]

/-- **Verification.** The digest of a message with its field zeroed verifies in its place. -/
theorem usmVerifyAuthDigest_encoded {crypto : Crypto} {key : Bytes} {newHash : Option AuthHash}
    (zeroed : msg.securityParams.authParams = usmZeroedAuthParams)
    (digested : usmAuthDigest crypto msg.encoded key newHash = .ok (some digest)) :
    usmVerifyAuthDigest crypto (msg.withAuth digest).encoded digest key newHash = .ok true := by
  have sized := length_of_usmAuthDigest digested
  have zeroLength : usmZeroedAuthParams.length = usmAuthParamsLen := List.length_replicate
  obtain ⟨front, rest, split, exchanged, -, located⟩ :=
    substituteAuthParams_encoded version carried short (zeroed ▸ zeroLength) sized
  obtain ⟨keyed, hash, hashed, -⟩ : key ≠ [] ∧ ∃ hash, newHash = some hash ∧
      digest = (crypto.hmac hash key msg.encoded).take usmAuthParamsLen := by
    obtain ⟨result, returned, spec⟩ := usmAuthDigest_spec crypto msg.encoded key newHash
    obtain rfl : some digest = result := Except.ok.inj (digested.symm.trans returned)
    exact spec digest rfl
  have usable : ¬ (digest.length ≠ usmAuthParamsLen ∨ key.length = 0 ∨ newHash = none) := by
    rw [hashed]
    simp [sized, keyed]
  have here : At (msg.withAuth digest).encoded front.length (digest ++ rest) := by
    rw [exchanged]
    exact At.append front _
  have field := here.slice
  rw [sized] at field
  obtain ⟨front', split', counted, written⟩ := overwriteFrom_at here (zeroLength.trans sized.symm)
  have same : front' = front := by
    refine (List.append_inj (split'.symm.trans exchanged) ?_).1
    exact_mod_cast counted
  have restored : front' ++ (usmZeroedAuthParams ++ rest) = msg.encoded := by
    rw [same, split, zeroed]
  simp only [usmVerifyAuthDigest, usable, ↓reduceIte, located, ok_bind, ne_eq, not_true_eq_false,
    field, written, restored, digested, pure_eq_ok, decide_true]

end Authentication

/-! ### Privacy -/

/-- The ciphers are invertible and keep the length, DES on whole blocks. -/
structure Crypto.Invertible (crypto : Crypto) : Prop where
  des_length : ∀ key iv padded, padded.length % 8 = 0 →
    (crypto.desEncrypt key iv padded).length = padded.length
  des_inverse : ∀ key iv padded, padded.length % 8 = 0 →
    crypto.desDecrypt key iv (crypto.desEncrypt key iv padded) = padded
  aes_length : ∀ key iv data, (crypto.aesEncrypt key iv data).length = data.length
  aes_inverse : ∀ key iv data, crypto.aesDecrypt key iv (crypto.aesEncrypt key iv data) = data

theorem padData_spec (data : Bytes) :
    ∃ padding, SNMPv3Engine.padData data 8 = data ++ padding ∧ (data ++ padding).length % 8 = 0 ∧
      0 < padding.length := by
  refine ⟨_, rfl, ?_, ?_⟩
  · simp only [List.length_append, List.length_replicate]
    split <;> omega
  · simp only [List.length_replicate]
    split <;> omega

section Decryption

variable {engine : SNMPv3Engine} (invertible : engine.crypto.Invertible)
  {scopedPDU carried privParams salt : Bytes} (saltLength : salt.length = 8)

include invertible saltLength

theorem decryptDES_encryptDES
    (encrypted : engine.encryptDES scopedPDU salt = .ok (some (carried, privParams))) :
    scopedPDU.length ≤ carried.length ∧ ∃ padding,
      engine.decryptDES carried privParams = .ok (some (scopedPDU ++ padding)) := by
  obtain ⟨padding, padded, blocks, positive⟩ := padData_spec scopedPDU
  rw [SNMPv3Engine.encryptDES] at encrypted
  split_ifs at encrypted with keyLength
  · cases encrypted
  obtain ⟨key, keyRead, encrypted⟩ := bind_eq_ok_iff.mp encrypted
  obtain ⟨preIV, preIVRead, encrypted⟩ := bind_eq_ok_iff.mp encrypted
  obtain ⟨iv, ivRead, encrypted⟩ := bind_eq_ok_iff.mp encrypted
  obtain ⟨rfl, rfl⟩ := Prod.mk.inj (Option.some.inj (Except.ok.inj encrypted))
  have kept := invertible.des_length key iv _ blocks
  have whole : ¬ ((engine.crypto.desEncrypt key iv (scopedPDU ++ padding)).length = 0 ∨
      (engine.crypto.desEncrypt key iv (scopedPDU ++ padding)).length % 8 ≠ 0) := by
    rw [kept, List.length_append] at *
    omega
  rw [padded]
  refine ⟨by rw [kept, List.length_append]; omega, padding, ?_⟩
  simp only [SNMPv3Engine.decryptDES, saltLength, ne_eq, not_true_eq_false, ↓reduceIte, keyLength,
    keyRead, preIVRead, ivRead, ok_bind, whole, invertible.des_inverse key iv _ blocks, pure_eq_ok]

theorem decryptAES128At_encryptAES128At {boots engineTime : Int}
    (encrypted : engine.encryptAES128At scopedPDU boots engineTime salt =
      .ok (some (carried, privParams))) :
    scopedPDU.length ≤ carried.length ∧ ∃ padding,
      engine.decryptAES128At carried privParams boots engineTime =
        .ok (some (scopedPDU ++ padding)) := by
  rw [SNMPv3Engine.encryptAES128At] at encrypted
  split_ifs at encrypted with keyLength
  · cases encrypted
  obtain ⟨key, keyRead, encrypted⟩ := bind_eq_ok_iff.mp encrypted
  obtain ⟨rfl, rfl⟩ := Prod.mk.inj (Option.some.inj (Except.ok.inj encrypted))
  refine ⟨(invertible.aes_length key _ scopedPDU).ge, [], ?_⟩
  simp [SNMPv3Engine.decryptAES128At, saltLength, keyLength, keyRead, invertible.aes_inverse]

/-- **Decryption.** What was encrypted decrypts to the scoped PDU, with padding behind it. -/
theorem decryptScopedPDUAt_encrypted {config : SNMPv3Config} {boots engineTime : Int}
    (configured : config.privProtocol ≠ snmpv3PrivNone)
    (encrypted : engine.encryptScopedPDUAt config scopedPDU boots engineTime salt =
      .ok (some (carried, privParams))) :
    scopedPDU.length ≤ carried.length ∧ ∃ padding,
      engine.decryptScopedPDUAt config carried privParams boots engineTime =
        .ok (some (scopedPDU ++ padding)) := by
  rw [SNMPv3Engine.encryptScopedPDUAt] at encrypted
  rw [SNMPv3Engine.decryptScopedPDUAt, if_neg configured]
  split_ifs at encrypted with des aes
  · rw [if_pos des]
    exact decryptDES_encryptDES invertible saltLength encrypted
  · rw [if_neg des, if_pos aes]
    exact decryptAES128At_encryptAES128At invertible saltLength encrypted
  · cases encrypted

end Decryption

theorem unwrapScopedPDU_padded {contents : Bytes} (short : (encodeSequence contents).length < 2 ^ 31)
    (padding : Bytes) :
    SNMPServer.unwrapScopedPDU (some (encodeSequence contents ++ padding)) = .ok (some contents) := by
  obtain ⟨body, tagRead, lengthRead, onward, contentsAt, -⟩ :=
    element_at (At.start (encodeSequence contents ++ padding)) (isTlv_of_length_lt short)
  have total := contentsAt.length_eq
  have nonempty : ¬ (encodeSequence contents ++ padding).length = 0 := by
    simp [encodeSequence, encodeTLV]
  have fits : ¬ ((contents.length : Int) < 0 ∨
      body + contents.length > (encodeSequence contents ++ padding).length) := by
    have padded : (contents ++ padding).length = contents.length + padding.length :=
      List.length_append
    omega
  rw [zero_add] at lengthRead
  simp only [SNMPServer.unwrapScopedPDU, nonempty, ↓reduceIte, tagRead, ok_bind, ne_eq,
    not_true_eq_false, lengthRead, fits, contentsAt.slice, pure_eq_ok]

/-! ### The round trip -/

theorem hasFlag_withoutReport {flag : UInt8} (other : ~~~snmpv3MsgFlagReport &&& flag = flag)
    (flags : UInt8) : hasFlag (flags &&& ~~~snmpv3MsgFlagReport) flag = hasFlag flags flag := by
  rw [hasFlag, hasFlag, UInt8.and_assoc, other]

namespace SNMPv3Engine

variable (engine : SNMPv3Engine)

/-- The message `wrapScopedPDUInV3MessageWith` assembles, with an authentication field. -/
def wrapped (draw : Draw) (carried privParams : Bytes) (msgID : Int) (msgFlags : UInt8)
    (userName authParams : Bytes) : SNMPv3Message where
  version := snmpv3Version
  globalData :=
    { msgID := msgID
      msgMaxSize := 65507
      msgFlags := msgFlags &&& ~~~snmpv3MsgFlagReport
      msgSecurityModel := snmpv3SecurityModelUSM }
  securityParams :=
    { authoritativeEngineID := engine.usm.engineID
      authoritativeEngineBoots := engine.usm.engineBoots
      authoritativeEngineTime := draw.engineTime
      userName := userName
      authParams := authParams
      privParams := privParams }
  scopedPDU := carried

variable {engine} {draw : Draw} {scopedPDU message userName : Bytes} {msgID : Int} {msgFlags : UInt8}

def authenticates (engine : SNMPv3Engine) (msgFlags : UInt8) : Bool :=
  engine.usm.newHash.isSome && hasFlag msgFlags snmpv3MsgFlagAuth

/-- **What is built.** The message assembled, with the digest of its zeroed self in its field if it is
authenticated. -/
theorem wrapScopedPDUInV3MessageWith_cases
    (built : engine.wrapScopedPDUInV3MessageWith draw scopedPDU msgID msgFlags userName =
      .ok (some message)) :
    ∃ config carried privParams, engine.activeConfig = some config ∧
      engine.carryScopedPDU config draw scopedPDU msgFlags = .ok (some (carried, privParams)) ∧
      (engine.authenticates msgFlags = true ∧ (∃ digest,
          usmAuthDigest engine.crypto (engine.wrapped draw carried privParams msgID msgFlags userName
            usmZeroedAuthParams).encoded engine.usm.authKey engine.usm.newHash =
              .ok (some digest) ∧
          substituteAuthParams (engine.wrapped draw carried privParams msgID msgFlags userName
            usmZeroedAuthParams).encoded digest = .ok (some message)) ∨
        engine.authenticates msgFlags = false ∧ message = (engine.wrapped draw carried privParams
          msgID msgFlags userName []).encoded) := by
  rw [wrapScopedPDUInV3MessageWith] at built
  cases active : engine.activeConfig with
  | none => simp [active] at built
  | some config =>
    simp only [active] at built
    obtain ⟨result, carries, built⟩ := bind_eq_ok_iff.mp built
    cases result with
    | none => simp at built
    | some pair =>
      obtain ⟨carried, privParams⟩ := pair
      refine ⟨config, carried, privParams, rfl, carries, ?_⟩
      cases flagged : engine.authenticates msgFlags with
      | false =>
        rw [authenticates] at flagged
        simp only [flagged, Bool.false_eq_true, if_false, pure_eq_ok] at built
        exact .inr ⟨rfl, (Option.some.inj (Except.ok.inj built)).symm⟩
      | true =>
        rw [authenticates] at flagged
        simp only [flagged, if_true] at built
        obtain ⟨digest, digested, built⟩ := bind_eq_ok_iff.mp built
        cases digest with
        | none => simp at built
        | some digest => exact .inl ⟨rfl, digest, digested, built⟩

theorem carryScopedPDU_element {config : SNMPv3Config} {contents carried privParams : Bytes}
    (carries : engine.carryScopedPDU config draw (encodeSequence contents) msgFlags =
      .ok (some (carried, privParams))) :
    ∃ tag body, (tag = asn1OctetString ∨ tag = asn1Sequence) ∧
      (if hasFlag (msgFlags &&& ~~~snmpv3MsgFlagReport) snmpv3MsgFlagPriv then
        encodeOctetString carried else carried) = encodeTLV tag body ∧
      body = if hasFlag msgFlags snmpv3MsgFlagPriv then carried else contents := by
  rw [hasFlag_withoutReport (by decide)]
  cases flagged : hasFlag msgFlags snmpv3MsgFlagPriv with
  | true => exact ⟨asn1OctetString, carried, .inl rfl, rfl, rfl⟩
  | false =>
    rw [carryScopedPDU, flagged] at carries
    simp only [Bool.false_eq_true, and_false, if_false] at carries
    obtain ⟨rfl, -⟩ := Prod.mk.inj (Option.some.inj (Except.ok.inj carries))
    exact ⟨asn1Sequence, contents, .inr rfl, rfl, rfl⟩

end SNMPv3Engine

/-- **Decryption and unwrapping.** What was carried at a level the engine is configured for is admitted
with the contents of the scoped PDU. -/
theorem decryptInbound_carried {s : SNMPServer} (invertible : s.v3.crypto.Invertible)
    {config : SNMPv3Config} {draw : Draw} {contents carried privParams : Bytes} {msgFlags : UInt8}
    {msg : SNMPv3Message}
    (carries : s.v3.carryScopedPDU config draw (encodeSequence contents) msgFlags =
      .ok (some (carried, privParams))) (short : carried.length < 2 ^ 31)
    (flags : msg.globalData.msgFlags = msgFlags &&& ~~~snmpv3MsgFlagReport)
    (priv : msg.securityParams.privParams = privParams)
    (boots : msg.securityParams.authoritativeEngineBoots = s.v3.usm.engineBoots)
    (time : msg.securityParams.authoritativeEngineTime = draw.engineTime)
    (body : msg.scopedPDU = if hasFlag msgFlags snmpv3MsgFlagPriv then carried else contents)
    (configured : hasFlag msgFlags snmpv3MsgFlagPriv = true → config.privProtocol ≠ snmpv3PrivNone) :
    s.decryptInbound config msg = .ok (.admitted { msg with scopedPDU := contents }) := by
  rw [SNMPServer.decryptInbound, flags, hasFlag_withoutReport (by decide)]
  cases flagged : hasFlag msgFlags snmpv3MsgFlagPriv with
  | false =>
    rw [flagged] at body
    subst body
    rfl
  | true =>
    rw [flagged] at body
    have protocol := configured flagged
    rw [SNMPv3Engine.carryScopedPDU, if_pos ⟨protocol, flagged⟩] at carries
    obtain ⟨shorter, padding, decrypted⟩ :=
      decryptScopedPDUAt_encrypted invertible draw.salt_length protocol carries
    simp [protocol, body, priv, boots, time, decrypted,
      unwrapScopedPDU_padded (shorter.trans_lt short)]

/-- A message built from the contents of a scoped PDU reads back as `msg`. -/
structure ReadsBack (s : SNMPServer) (draw : Draw) (contents : Bytes) (msgID : Int)
    (msgFlags : UInt8) (userName message : Bytes) (msg : SNMPv3Message) : Prop where
  parses : parseSNMPv3Message message = .ok (some msg)
  id : msg.globalData.msgID = msgID
  flags : msg.globalData.msgFlags = msgFlags &&& ~~~snmpv3MsgFlagReport
  engineID : msg.securityParams.authoritativeEngineID = s.v3.usm.engineID
  boots : msg.securityParams.authoritativeEngineBoots = s.v3.usm.engineBoots
  time : msg.securityParams.authoritativeEngineTime = draw.engineTime
  user : msg.securityParams.userName = userName
  /-- The digest verifies exactly if the AUTH bit is set and a protocol is configured. -/
  verifies : usmVerifyAuthDigest s.v3.crypto message msg.securityParams.authParams
    s.v3.usm.authKey s.v3.usm.newHash = .ok (s.v3.authenticates msgFlags)
  /-- The locator finds the twelve octets in which an authenticated message differs from the one
  assembled with a zeroed field. -/
  located : s.v3.authenticates msgFlags = true → ∃ config carried privParams front rest,
    s.v3.activeConfig = some config ∧
    s.v3.carryScopedPDU config draw (encodeSequence contents) msgFlags =
      .ok (some (carried, privParams)) ∧
    s.v3.assembleMessage draw carried privParams msgID (msgFlags &&& ~~~snmpv3MsgFlagReport) userName
      usmZeroedAuthParams = front ++ (usmZeroedAuthParams ++ rest) ∧
    message = front ++ (msg.securityParams.authParams ++ rest) ∧
    msg.securityParams.authParams.length = usmAuthParamsLen ∧
    locateAuthParams message = .ok (some ((front.length : Int), (usmAuthParamsLen : Int)))
  /-- The request handler recovers the contents, unless the PRIV bit asks for a privacy protocol that
  is not configured. -/
  decrypts : ∀ config, s.v3.activeConfig = some config →
    (hasFlag msgFlags snmpv3MsgFlagPriv = true → config.privProtocol ≠ snmpv3PrivNone) →
    s.decryptInbound config msg = .ok (.admitted { msg with scopedPDU := contents })

namespace SNMPv3Engine

variable {engine : SNMPv3Engine} {draw : Draw} {carried privParams userName authParams : Bytes}
  {msgID : Int} {msgFlags : UInt8}

theorem encodable_wrapped (id : MachineNat msgID) (boots : MachineNat engine.usm.engineBoots)
    (time : MachineNat draw.engineTime) :
    (engine.wrapped draw carried privParams msgID msgFlags userName authParams).Encodable :=
  ⟨id, ⟨by norm_num [wrapped], by norm_num [wrapped]⟩,
    ⟨by norm_num [wrapped, snmpv3SecurityModelUSM], by norm_num [wrapped, snmpv3SecurityModelUSM]⟩,
    boots, time⟩

theorem length_carried_le :
    carried.length ≤
      (engine.wrapped draw carried privParams msgID msgFlags userName authParams).encoded.length := by
  have inner : carried.length ≤
      (if hasFlag (msgFlags &&& ~~~snmpv3MsgFlagReport) snmpv3MsgFlagPriv then
        encodeOctetString carried else carried).length := by
    split
    · exact (Nat.le_add_right _ 2).trans (length_encodeTLV_ge asn1OctetString carried)
    · exact le_rfl
  refine le_trans ?_ (length_encodeTLV_ge _ _)
  rw [List.length_append]
  exact inner.trans ((Nat.le_add_left _ _).trans (Nat.le_add_right _ 2))

end SNMPv3Engine

/-- **USM messages read back.** For any contents of a scoped PDU, non-negative msgID, flag byte and user
name, with any HMAC and any invertible ciphers: a message that is built, if its length is one the
readers accept, parses to what it was built from, verifies, carries its digest where the locator
looks and decrypts to the contents, at every level that is configured. -/
theorem usm_message_reads_back (s : SNMPServer) (invertible : s.v3.crypto.Invertible) (draw : Draw)
    (contents : Bytes) (msgID : Int) (msgFlags : UInt8) (userName message : Bytes)
    (id : MachineNat msgID) (boots : MachineNat s.v3.usm.engineBoots)
    (time : MachineNat draw.engineTime)
    (built : s.v3.wrapScopedPDUInV3MessageWith draw (encodeSequence contents) msgID msgFlags userName =
      .ok (some message)) (short : message.length < 2 ^ 31) :
    ∃ msg, ReadsBack s draw contents msgID msgFlags userName message msg := by
  obtain ⟨config, carried, privParams, active, carries, level⟩ :=
    SNMPv3Engine.wrapScopedPDUInV3MessageWith_cases built
  obtain ⟨tag, body, readable, element, carriedBody⟩ := SNMPv3Engine.carryScopedPDU_element carries
  -- What both levels share: the parse of a message with some authentication field.
  have parses : ∀ authParams,
      (s.v3.wrapped draw carried privParams msgID msgFlags userName authParams).encoded.length <
        2 ^ 31 →
      parseSNMPv3Message (s.v3.wrapped draw carried privParams msgID msgFlags userName
        authParams).encoded = .ok (some { s.v3.wrapped draw carried privParams msgID msgFlags userName
          authParams with scopedPDU := body }) :=
    fun authParams bounded => parseSNMPv3Message_encoded rfl element
      (SNMPv3Engine.encodable_wrapped id boots time) bounded readable
  have decrypts : ∀ authParams, carried.length < 2 ^ 31 → ∀ other, s.v3.activeConfig = some other →
      (hasFlag msgFlags snmpv3MsgFlagPriv = true → other.privProtocol ≠ snmpv3PrivNone) →
      s.decryptInbound other { s.v3.wrapped draw carried privParams msgID msgFlags userName
        authParams with scopedPDU := body } =
        .ok (.admitted { s.v3.wrapped draw carried privParams msgID msgFlags userName
          authParams with scopedPDU := contents }) := by
    intro authParams bounded other also configured
    obtain rfl : config = other := Option.some.inj (active.symm.trans also)
    exact decryptInbound_carried invertible carries bounded rfl rfl rfl rfl carriedBody configured
  rcases level with ⟨authenticated, digest, digested, substituted⟩ | ⟨plain, rfl⟩
  · have sameLength := length_of_substituteAuthParams substituted
    have bounded : (s.v3.wrapped draw carried privParams msgID msgFlags userName
        usmZeroedAuthParams).encoded.length < 2 ^ 31 := by omega
    obtain ⟨front, rest, split, exchanged, signed, located⟩ :=
      substituteAuthParams_encoded rfl element bounded List.length_replicate
        (length_of_usmAuthDigest digested)
    obtain rfl : message =
        (s.v3.wrapped draw carried privParams msgID msgFlags userName digest).encoded :=
      Option.some.inj (Except.ok.inj (substituted.symm.trans signed))
    refine ⟨_, parses digest short, rfl, rfl, rfl, rfl, rfl, rfl, ?_, fun _ => ?_,
      decrypts digest (SNMPv3Engine.length_carried_le.trans_lt bounded)⟩
    · rw [authenticated]
      exact usmVerifyAuthDigest_encoded rfl element bounded rfl digested
    · exact ⟨config, carried, privParams, front, rest, active, carries, split, exchanged,
        length_of_usmAuthDigest digested, located⟩
  · refine ⟨_, parses [] short, rfl, rfl, rfl, rfl, rfl, rfl, ?_, fun authenticated => ?_,
      decrypts [] (SNMPv3Engine.length_carried_le.trans_lt short)⟩
    · rw [plain]
      rfl
    · rw [plain] at authenticated
      cases authenticated

/-- A scoped PDU without context and bindings. -/
def bareContents : Bytes := [0x04, 0x00, 0x04, 0x00, 0xA2, 0x00]

/-- A server that authenticates with SHA-1 and encrypts with DES. -/
def SNMPServer.authPriv : SNMPServer :=
  { oneInterface with
    v3 :=
      { oneInterface.v3 with
        v3Config := some { enabled := true, username := ascii "op", privProtocol := snmpv3PrivDES }
        usm := { engineID := [0x80, 0, 0, 1], authKey := [1], privKey := List.replicate 16 2,
                 newHash := some .sha1, engineBoots := 1 }
        crypto :=
          { hmac := fun _ key message => key ++ message ++ List.replicate usmAuthParamsLen 7
            hmac_length := by
              intros
              simp only [List.length_append, List.length_replicate]
              omega
            desEncrypt := fun _ _ data => data.reverse, desDecrypt := fun _ _ data => data.reverse
            aesEncrypt := fun _ _ data => data, aesDecrypt := fun _ _ data => data } } }

theorem usm_message_reads_back_authPriv :
    ∃ message, SNMPServer.authPriv.v3.wrapScopedPDUInV3MessageWith (SNMPServer.authPriv.v3.draws 0)
        (encodeSequence bareContents) 7 0x07 (ascii "op") = .ok (some message) ∧
      message.length < 2 ^ 31 ∧
      ∃ msg, ReadsBack SNMPServer.authPriv (SNMPServer.authPriv.v3.draws 0) bareContents 7 0x07
        (ascii "op") message msg := by
  have builds : (match SNMPServer.authPriv.v3.wrapScopedPDUInV3MessageWith
      (SNMPServer.authPriv.v3.draws 0) (encodeSequence bareContents) 7 0x07 (ascii "op") with
    | .ok (some message) => decide (message.length < 2 ^ 31)
    | .ok none | .error _ => false) = true := by decide +kernel
  split at builds
  · next message built =>
      have short : message.length < 2 ^ 31 := of_decide_eq_true builds
      have invertible : SNMPServer.authPriv.v3.crypto.Invertible :=
        ⟨fun _ _ _ _ => List.length_reverse, fun _ _ _ _ => List.reverse_reverse _,
          fun _ _ _ => rfl, fun _ _ _ => rfl⟩
      exact ⟨message, built, short, usm_message_reads_back SNMPServer.authPriv invertible _
        bareContents 7 0x07 (ascii "op") message ⟨by decide, by decide⟩ ⟨by decide, by decide⟩
        ⟨by decide, by decide⟩ built short⟩
  all_goals cases builds

/-- The flags ask for a level that is not configured: the AUTH bit without an authentication protocol,
and the PRIV bit without a privacy protocol. The message is built with the bit set, but it does not
verify, and the request handler does not recover the contents. -/
theorem unconfigured_level_unprotected :
    (∃ message msg, SNMPServer.oneInterface.v3.wrapScopedPDUInV3MessageWith
          (SNMPServer.oneInterface.v3.draws 0) (encodeSequence bareContents) 7 snmpv3MsgFlagAuth
          (ascii "op") = .ok (some message) ∧
        parseSNMPv3Message message = .ok (some msg) ∧
        hasFlag msg.globalData.msgFlags snmpv3MsgFlagAuth = true ∧
        usmVerifyAuthDigest SNMPServer.oneInterface.v3.crypto message msg.securityParams.authParams
          SNMPServer.oneInterface.v3.usm.authKey SNMPServer.oneInterface.v3.usm.newHash =
            .ok false) ∧
      ∃ message msg config, SNMPServer.oneInterface.v3.wrapScopedPDUInV3MessageWith
          (SNMPServer.oneInterface.v3.draws 0) (encodeSequence bareContents) 7 snmpv3MsgFlagPriv
          (ascii "op") = .ok (some message) ∧
        parseSNMPv3Message message = .ok (some msg) ∧
        SNMPServer.oneInterface.v3.activeConfig = some config ∧
        hasFlag msg.globalData.msgFlags snmpv3MsgFlagPriv = true ∧
        SNMPServer.oneInterface.decryptInbound config msg ≠
          .ok (.admitted { msg with scopedPDU := bareContents }) := by
  refine ⟨⟨[48, 51, 2, 1, 3, 48, 14, 2, 1, 7, 2, 3, 0, 255, 227, 4, 1, 1, 2, 1, 3, 4, 22, 48, 20, 4,
      4, 128, 0, 0, 1, 2, 1, 1, 2, 1, 0, 4, 2, 111, 112, 4, 0, 4, 0, 48, 6, 4, 0, 4, 0, 162, 0],
    ⟨3, ⟨7, 65507, 1, 3⟩, ⟨[0x80, 0, 0, 1], 1, 0, ascii "op", [], []⟩, bareContents⟩,
    by decide +kernel, by decide +kernel, by decide, by decide +kernel⟩,
    [48, 53, 2, 1, 3, 48, 14, 2, 1, 7, 2, 3, 0, 255, 227, 4, 1, 2, 2, 1, 3, 4, 22, 48, 20, 4, 4, 128,
      0, 0, 1, 2, 1, 1, 2, 1, 0, 4, 2, 111, 112, 4, 0, 4, 0, 4, 8, 48, 6, 4, 0, 4, 0, 162, 0],
    ⟨3, ⟨7, 65507, 2, 3⟩, ⟨[0x80, 0, 0, 1], 1, 0, ascii "op", [], []⟩,
      encodeSequence bareContents⟩,
    ⟨true, ascii "op", snmpv3PrivNone⟩,
    by decide +kernel, by decide +kernel, rfl, by decide, by decide +kernel⟩

end Nl6
