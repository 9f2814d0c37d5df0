import Nl6.Wire.Encoding
import Nl6.Wire.ReaderAgreement
import Nl6.Wire.Respond

/-! # Responses read back

A response is a message like a request, so the readers of `Nl6.Wire.Envelope` can take it apart
again: `encodeGetResponseAt_split` finds its fields and `parseAllOIDsFromRequest_encode` its names.
`RoundTrips` is what a truncated GETBULK response promises, and `getBulk_roundTrips_iff` says when it
keeps the promise. `lenBytesFor` stops at three length octets where `encodeLength` goes on to four,
so the size computed beside the encoder is too small from 65536 octets of message contents on.
-/

namespace Nl6

open Numeral Checked Ber

/-! ### Integers -/

/-- **An INTEGER reads back.** What `encodeInteger` writes for a 32-bit number, or for a natural one
of 63 bits, decodes to that number. -/
theorem integerValue_integerOctets {value : Int} (low : -2 ^ 31 ≤ value) (high : value < 2 ^ 63) :
    integerValue (integerOctets value) = some value := by
  have read (octets : Bytes) (nonempty : octets ≠ []) (short : octets.length ≤ 8)
      (spelled : Octets.signed octets = value) : integerValue octets = some value := by
    have trimmed := Octets.length_trimZeros_le octets
    rw [integerValue, if_neg, spelled]
    simp only [nonempty, false_or, not_lt]
    omega
  rw [integerOctets]
  split_ifs with zero positive
  · subst zero
    decide
  · refine read _ ?_ (length_positiveOctets_le (by omega)) ?_
    · intro empty
      have spelled := value_positiveOctets value.toNat
      rw [empty, Octets.value_nil] at spelled
      omega
    · rw [Octets.signed_of_nonneg (negative_positiveOctets _), value_positiveOctets]
      omega
  · have spelled := signed_negativeOctets low (show value < 0 by omega)
    refine read _ ?_ ((length_negativeOctets_le value).trans (by norm_num)) spelled
    intro empty
    rw [empty] at spelled
    simp [Octets.signed, Octets.negative] at spelled
    omega

/-! ### The fields of a response -/

def pduContents (req : SNMPRequest) (varBindList : Bytes) (errStatus errIndex : Int) : Bytes :=
  encodeInteger req.requestID ++ encodeInteger errStatus ++ encodeInteger errIndex ++
    encodeSequence varBindList

def messageContents (req : SNMPRequest) (varBindList : Bytes) (errStatus errIndex : Int) : Bytes :=
  encodeInteger req.version ++ encodeOctetString req.community ++
    encodeTLV asn1GetResponse (pduContents req varBindList errStatus errIndex)

theorem encodeGetResponseAt_eq (req : SNMPRequest) (varBindList : Bytes) (errStatus errIndex : Int) :
    encodeGetResponseAt req varBindList errStatus errIndex =
      encodeTLV asn1Sequence (messageContents req varBindList errStatus errIndex) := rfl

variable {tag : UInt8} {contents oid varBindList : Bytes} {req : SNMPRequest}
  {bindings : List (Bytes × Bytes)} {binds : List SnmpVarBind} {sizeFor : Nat → Nat} {maxSize : Int}
  {overflow : OverflowRule}

theorem isTlv_of_length_lt (bounded : (encodeTLV tag contents).length < 2 ^ 31) :
    IsTlv tag contents (encodeTLV tag contents) := by
  rw [length_encodeTLV] at bounded
  exact isTlv_encodeTLV tag ((lt_tlvSize _).trans bounded)

/-- **The fields of a response.** A message the readers can size is a header, a PDU front and a
list, and they carry what was encoded. -/
theorem encodeGetResponseAt_split {errStatus errIndex : Int}
    (bounded : (messageContents req varBindList errStatus errIndex).length < 2 ^ 31) :
    ∃ (h : Header) (p : PduFront), encodeGetResponseAt req varBindList errStatus errIndex =
        h.bytes ++ (p.bytes ++ encodeSequence varBindList) ∧
      h.version = integerOctets req.version ∧ h.community = req.community ∧
      p.tag = asn1GetResponse ∧ p.requestID = integerOctets req.requestID ∧
      p.status = integerOctets errStatus ∧ p.index = integerOctets errIndex ∧
      IsTlv asn1Sequence varBindList (encodeSequence varBindList) := by
  have outer : (messageContents req varBindList errStatus errIndex).length =
      (encodeInteger req.version).length + (encodeOctetString req.community).length +
        tlvSize (pduContents req varBindList errStatus errIndex).length := by
    simp only [messageContents, List.length_append, length_encodeTLV]
  have inner : (pduContents req varBindList errStatus errIndex).length =
      (encodeInteger req.requestID).length + (encodeInteger errStatus).length +
        (encodeInteger errIndex).length + (encodeSequence varBindList).length := by
    simp only [pduContents, List.length_append]
  have nested := lt_tlvSize (pduContents req varBindList errStatus errIndex).length
  have version : IsTlv asn1Integer (integerOctets req.version) (encodeInteger req.version) :=
    isTlv_of_length_lt (show (encodeInteger req.version).length < 2 ^ 31 by omega)
  have community : IsTlv asn1OctetString req.community (encodeOctetString req.community) :=
    isTlv_of_length_lt (show (encodeOctetString req.community).length < 2 ^ 31 by omega)
  have requestID : IsTlv asn1Integer (integerOctets req.requestID) (encodeInteger req.requestID) :=
    isTlv_of_length_lt (show (encodeInteger req.requestID).length < 2 ^ 31 by omega)
  have status : IsTlv asn1Integer (integerOctets errStatus) (encodeInteger errStatus) :=
    isTlv_of_length_lt (show (encodeInteger errStatus).length < 2 ^ 31 by omega)
  have index : IsTlv asn1Integer (integerOctets errIndex) (encodeInteger errIndex) :=
    isTlv_of_length_lt (show (encodeInteger errIndex).length < 2 ^ 31 by omega)
  have list : IsTlv asn1Sequence varBindList (encodeSequence varBindList) :=
    isTlv_of_length_lt (show (encodeSequence varBindList).length < 2 ^ 31 by omega)
  refine ⟨⟨_, _, isLength_encodeLength bounded, _, _, version, _, _, community⟩,
    ⟨asn1GetResponse, _, _, isLength_encodeLength
      (show (pduContents req varBindList errStatus errIndex).length < 2 ^ 31 by omega),
      _, _, requestID, _, _, status, _, _, index⟩, ?_, rfl, rfl, rfl, rfl, rfl, rfl, list⟩
  rw [encodeGetResponseAt_eq]
  simp [encodeTLV, Header.bytes, PduFront.bytes, PduFront.integers, messageContents, pduContents]

/-! ### The bindings of a response -/

theorem isVarBind_encodeVarBind (encodable : encodableAsOID oid = true)
    (bounded : (encodeVarBind oid (encodeTLV tag contents)).length < 2 ^ 31) :
    IsVarBind ⟨canonicalOID oid, tag, contents⟩ (encodeVarBind oid (encodeTLV tag contents)) := by
  obtain ⟨body, encoded⟩ := (encodableAsOID_iff oid).mp encodable
  have name : encodeOID oid = encodeTLV asn1ObjectID body := by rw [encodeOID, encoded]
  rw [encodeVarBind, name] at bounded ⊢
  have inside : (encodeTLV asn1ObjectID body ++ encodeTLV tag contents).length < 2 ^ 31 :=
    (lt_tlvSize _).trans (length_encodeTLV _ _ ▸ bounded)
  rw [List.length_append] at inside
  have value : IsTlv tag contents (encodeTLV tag contents) := isTlv_of_length_lt (by omega)
  exact ⟨body, _, _, oidArcs oid, isTlv_of_length_lt (by omega), (decodeArcs_oidBody encoded).1, rfl,
    value, isTlv_of_length_lt bounded⟩

def encodeBindings (bindings : List (Bytes × Bytes)) : Bytes := bindings.flatMap encodeBinding

def readBack (binding : Bytes × Bytes) (bind : SnmpVarBind) : Prop :=
  bind.name = canonicalOID binding.1 ∧
    (isSNMPExceptionValue binding.2 = false →
      bind.tag ≠ asn1NoSuchObject ∧ bind.tag ≠ asn1EndOfMibView) ∧
    (bind.tag = asn1Counter64 → snmpTypeTag binding.1 = asn1Counter64)

theorem isVarBinds_encodeBindings
    (encodable : ∀ binding ∈ bindings, encodableAsOID binding.1 = true)
    (bounded : (encodeBindings bindings).length < 2 ^ 31) :
    ∃ binds, IsVarBinds binds (encodeBindings bindings) ∧ List.Forall₂ readBack bindings binds := by
  induction bindings with
  | nil => exact ⟨[], .nil, .nil⟩
  | cons binding rest ih =>
    rw [encodeBindings, List.flatMap_cons, List.length_append] at bounded
    obtain ⟨binds, more, read⟩ := ih (fun b member => encodable b (List.mem_cons_of_mem _ member))
      (by rw [encodeBindings]; omega)
    obtain ⟨tag, contents, value, exceptions, counter⟩ :=
      encodeTypedValue_eq binding.1 binding.2
    have whole : encodeBinding binding = encodeVarBind binding.1 (encodeTLV tag contents) := by
      rw [encodeBinding, value, encodeVarBind]
    have first := isVarBind_encodeVarBind (encodable binding List.mem_cons_self)
      (show (encodeVarBind binding.1 (encodeTLV tag contents)).length < 2 ^ 31 by
        rw [← whole]
        omega)
    rw [encodeBindings, List.flatMap_cons, whole]
    exact ⟨_, .cons first more, .cons ⟨rfl, exceptions, counter⟩ read⟩

theorem parseAllOIDsFromRequest_at (h : Header) (p : PduFront) {list : Bytes}
    (isList : IsTlv asn1Sequence contents list) (bindings : IsVarBinds binds contents) :
    parseAllOIDsFromRequest (h.bytes ++ (p.bytes ++ list)) =
      .ok (some (binds.map SnmpVarBind.name)) := by
  have here : At (h.bytes ++ (p.bytes ++ list)) (p.listPos h.pduPos) (list ++ []) := by
    rw [List.append_nil]
    exact p.at_list h list
  have read := parseVarBinds_at here isList bindings
  simp [parseAllOIDsFromRequest, requestVarBindListPos_at h list p,
    parseVarBindNames_eq _ here.nonneg, read, ListResult.names]

/-- The names of a response read back, whatever its status. -/
theorem parseAllOIDsFromRequest_encode {errStatus errIndex : Int}
    (bindings : IsVarBinds binds varBindList)
    (bounded : (messageContents req varBindList errStatus errIndex).length < 2 ^ 31) :
    parseAllOIDsFromRequest (encodeGetResponseAt req varBindList errStatus errIndex) =
      .ok (some (binds.map SnmpVarBind.name)) := by
  obtain ⟨h, p, split, -, -, -, -, -, -, list⟩ := encodeGetResponseAt_split bounded
  rw [split]
  exact parseAllOIDsFromRequest_at h p list bindings

theorem isVarBinds_encodeEcho {names : List Bytes}
    (encodable : ∀ name ∈ names, encodableAsOID name = true)
    (bounded : (encodeEcho names).length < 2 ^ 31) :
    IsVarBinds (names.map fun name => ⟨canonicalOID name, asn1Null, []⟩) (encodeEcho names) := by
  induction names with
  | nil => exact .nil
  | cons name names ih =>
    obtain ⟨first, later⟩ := List.forall_mem_cons.mp encodable
    rw [encodeEcho, List.flatMap_cons, List.length_append] at bounded
    have null : encodeNull = encodeTLV asn1Null [] := by decide
    have binding := isVarBind_encodeVarBind first
      (show (encodeVarBind name (encodeTLV asn1Null [])).length < 2 ^ 31 by rw [← null]; omega)
    rw [encodeEcho, List.flatMap_cons]
    exact .cons binding (ih later (by rw [encodeEcho]; omega))

/-! ### Requests -/

/-- A PDU of the given kind, as a manager encodes it. -/
def PduFront.encoded (tag : UInt8) (requestID list : Bytes) (short : requestID.length < 128)
    (bounded : list.length < 2 ^ 30) : PduFront where
  tag
  octets := encodeLength ((encodeTLV asn1Integer requestID).length + 6 + list.length)
  length := (encodeTLV asn1Integer requestID).length + 6 + list.length
  isLength := isLength_encodeLength (by
    rw [length_encodeTLV, tlvSize, length_encodeLength, if_pos short]
    linarith)
  requestID
  requestIDBytes := encodeTLV asn1Integer requestID
  isRequestID := isTlv_encodeTLV asn1Integer (by linarith)
  status := [0]
  statusBytes := encodeInteger 0
  isStatus := isTlv_encodeTLV asn1Integer (by decide)
  index := [0]
  indexBytes := encodeInteger 0
  isIndex := isTlv_encodeTLV asn1Integer (by decide)

theorem PduFront.encoded_exact {requestID list : Bytes} (short : requestID.length < 128)
    (bounded : list.length < 2 ^ 30) :
    (PduFront.encoded tag requestID list short bounded).Exact list := by
  have zero : (encodeInteger 0).length = 3 := by decide
  simp [PduFront.Exact, PduFront.encoded, PduFront.integers, zero]

/-- The header in front of a PDU, as a manager encodes it. -/
def Header.encoded (version community : Bytes) (pduLength : Nat) (shortVersion : version.length < 128)
    (shortCommunity : community.length < 128) (bounded : pduLength < 2 ^ 30) : Header where
  outer := encodeLength (2 + version.length + (2 + community.length) + pduLength)
  outerLength := 2 + version.length + (2 + community.length) + pduLength
  isOuter := isLength_encodeLength (by omega)
  version
  versionBytes := encodeTLV asn1Integer version
  isVersion := isTlv_encodeTLV asn1Integer (by omega)
  community
  communityBytes := encodeTLV asn1OctetString community
  isCommunity := isTlv_encodeTLV asn1OctetString (by omega)

/-! ### Sizes -/

/-- The code's width of a length field is the encoder's, cut off at three octets. -/
theorem lenBytesFor_eq (n : Nat) : lenBytesFor n = min 3 (encodeLength n).length := by
  have one := (Octets.length_ofNat_le_iff n 1).trans (by rw [pow_one])
  have none := Octets.length_ofNat_le_iff n 0
  rw [lenBytesFor, length_encodeLength]
  split_ifs <;> omega

/-- The cut is felt from 65536 octets on. -/
theorem lenBytesFor_eq_iff (n : Nat) : lenBytesFor n = (encodeLength n).length ↔ n < 65536 := by
  have two := Octets.length_ofNat_le_iff n 2
  rw [lenBytesFor_eq, length_encodeLength]
  split_ifs <;> omega

/-- The size of a message's contents, given the sizes of its two prefixes and of its list. -/
def contentsSize (msgPrefix pduPrefix varBindLen : Nat) : Nat :=
  msgPrefix + tlvSize (pduPrefix + tlvSize varBindLen)

theorem length_messageContents (req : SNMPRequest) (varBindList : Bytes) :
    (messageContents req varBindList snmpErrNoError 0).length =
      contentsSize (msgPrefixLen req) (pduPrefixLen req) varBindList.length := by
  simp only [messageContents, pduContents, contentsSize, List.length_append, length_encodeTLV,
    encodeSequence, msgPrefixLen, pduPrefixLen, snmpErrNoError]

theorem length_encodeGetResponse (req : SNMPRequest) (varBindList : Bytes) :
    (encodeGetResponse req varBindList snmpErrNoError).length =
      tlvSize (contentsSize (msgPrefixLen req) (pduPrefixLen req) varBindList.length) := by
  rw [encodeGetResponse, encodeGetResponseAt_eq, length_encodeTLV, length_messageContents]

section Size

variable (msgPrefix pduPrefix : Nat)

theorem contentsSize_strictMono : StrictMono (contentsSize msgPrefix pduPrefix) := by
  intro m n lt
  have inner := Nat.add_lt_add_left (tlvSize_strictMono lt) pduPrefix
  exact Nat.add_lt_add_left (tlvSize_strictMono inner) msgPrefix

theorem cappedSize_le (n : Nat) : 1 + lenBytesFor n + n ≤ tlvSize n := by
  rw [lenBytesFor_eq, tlvSize]
  omega

theorem cappedSize_mono {m n : Nat} (le : m ≤ n) :
    1 + lenBytesFor m + m ≤ 1 + lenBytesFor n + n := by
  have wider := length_encodeLength_mono le
  rw [lenBytesFor_eq, lenBytesFor_eq]
  omega

theorem snmpMessageSizeFor_mono : Monotone (snmpMessageSizeFor msgPrefix pduPrefix) := by
  intro m n le
  have list := cappedSize_mono le
  have pdu := cappedSize_mono (Nat.add_le_add_left list pduPrefix)
  exact cappedSize_mono (Nat.add_le_add_left pdu msgPrefix)

theorem snmpMessageSizeFor_le (n : Nat) :
    ∃ contents ≤ contentsSize msgPrefix pduPrefix n,
      snmpMessageSizeFor msgPrefix pduPrefix n = 1 + lenBytesFor contents + contents := by
  refine ⟨_, ?_, rfl⟩
  have list := Nat.add_le_add_left (cappedSize_le n) pduPrefix
  have pdu := (cappedSize_mono list).trans (cappedSize_le _)
  exact Nat.add_le_add_left pdu msgPrefix

/-- **The computed size.** It is the size of the message exactly when the contents fit a two-octet
length, and too small otherwise. -/
theorem snmpMessageSizeFor_eq_iff (n : Nat) :
    snmpMessageSizeFor msgPrefix pduPrefix n = tlvSize (contentsSize msgPrefix pduPrefix n) ↔
      contentsSize msgPrefix pduPrefix n < 65536 := by
  constructor
  · intro same
    obtain ⟨contents, le, computed⟩ := snmpMessageSizeFor_le msgPrefix pduPrefix n
    refine (lenBytesFor_eq_iff _).mp ?_
    rw [computed, tlvSize] at same
    have wider := cappedSize_mono le
    have capped := lenBytesFor_eq (contentsSize msgPrefix pduPrefix n)
    omega
  · intro bounded
    have pduBounded := lt_tlvSize (pduPrefix + tlvSize n)
    have listBounded := lt_tlvSize n
    rw [contentsSize] at bounded
    have list := (lenBytesFor_eq_iff n).mpr (by omega)
    have pdu := (lenBytesFor_eq_iff (pduPrefix + tlvSize n)).mpr (by omega)
    have message := (lenBytesFor_eq_iff (contentsSize msgPrefix pduPrefix n)).mpr bounded
    rw [contentsSize] at message
    simp only [snmpMessageSizeFor, list, ← tlvSize.eq_1, pdu, message, contentsSize]

theorem snmpMessageSizeFor_le_tlvSize (n : Nat) :
    snmpMessageSizeFor msgPrefix pduPrefix n ≤ tlvSize (contentsSize msgPrefix pduPrefix n) := by
  obtain ⟨contents, le, computed⟩ := snmpMessageSizeFor_le msgPrefix pduPrefix n
  rw [computed]
  exact (cappedSize_mono le).trans (cappedSize_le _)

end Size

/-! ### The sizing loop -/

theorem encodeBinding_ne_nil (binding : Bytes × Bytes) : encodeBinding binding ≠ [] := by
  simp [encodeBinding, encodeSequence, encodeTLV]

def listSize (bindings : List (Bytes × Bytes)) (count : Nat) : Nat :=
  (encodeBindings (bindings.take count)).length

theorem listSize_mono (bindings : List (Bytes × Bytes)) : Monotone (listSize bindings) := by
  intro j k le
  rw [listSize, listSize, ← List.take_append_drop j (bindings.take k), List.take_take,
    Nat.min_eq_left le, encodeBindings, encodeBindings, List.flatMap_append, List.length_append]
  omega

theorem listSize_cons (binding : Bytes × Bytes) (rest : List (Bytes × Bytes)) (count : Nat) :
    listSize (binding :: rest) (count + 1) =
      (encodeBinding binding).length + listSize rest count := by
  simp [listSize, encodeBindings]

theorem length_encodeBinding_le (binding : Bytes × Bytes) (rest : List (Bytes × Bytes)) {count : Nat}
    (positive : 0 < count) : (encodeBinding binding).length ≤ listSize (binding :: rest) count := by
  obtain ⟨count, rfl⟩ := Nat.exists_eq_add_of_lt positive
  rw [listSize_cons]
  omega

/-- Behind a first binding the loop takes bindings as long as they fit. -/
theorem fillBindings_of_ne_nil (mono : Monotone sizeFor) {done : Bytes} (started : done ≠ []) :
    ∃ k ≤ bindings.length, fillBindings sizeFor maxSize overflow bindings done =
        (done ++ encodeBindings (bindings.take k), decide (k < bindings.length)) ∧
      (k ≠ 0 → sizeFor (done.length + listSize bindings k) ≤ maxSize) ∧
      ∀ j, k < j → j ≤ bindings.length → maxSize < sizeFor (done.length + listSize bindings j) := by
  induction bindings generalizing done with
  | nil => exact ⟨0, le_rfl, by simp [fillBindings, encodeBindings], by simp, fun j _ _ => by simp_all⟩
  | cons binding rest ih =>
    rw [fillBindings]
    split_ifs with tooBig empty
    · exact absurd empty.1 started
    · refine ⟨0, by simp, by simp [encodeBindings], by simp, fun j positive _ => ?_⟩
      have larger := mono (Nat.add_le_add_left (length_encodeBinding_le binding rest positive)
        done.length)
      omega
    · obtain ⟨k, inside, filled, fits, beyond⟩ :=
        @ih (done ++ encodeBinding binding) (by simp [started])
      refine ⟨k + 1, by simpa using inside, ?_, ?_, ?_⟩
      · rw [filled]
        simp [encodeBindings]
      · intro _
        rcases Nat.eq_zero_or_pos k with rfl | positive
        · simpa [listSize, encodeBindings] using not_lt.mp tooBig
        · rw [listSize_cons, ← Nat.add_assoc, ← List.length_append]
          exact fits (by omega)
      · intro j less le
        obtain ⟨j, rfl⟩ := Nat.exists_eq_add_of_lt (Nat.zero_lt_of_lt less)
        rw [List.length_cons] at le
        rw [listSize_cons, ← Nat.add_assoc, ← List.length_append]
        exact beyond (0 + j) (by omega) (by omega)

theorem fillBindings_whole {done : Bytes}
    (whole : (fillBindings sizeFor maxSize overflow bindings done).2 = false) :
    (fillBindings sizeFor maxSize overflow bindings done).1 = done ++ encodeBindings bindings := by
  induction bindings generalizing done with
  | nil => simp [fillBindings, encodeBindings]
  | cons binding rest ih =>
    rw [fillBindings] at whole ⊢
    split_ifs at whole ⊢ with tooBig
    rw [ih whole]
    simp [encodeBindings]

/-- `k` of `n` bindings are the most that fit, or the first alone where none does. -/
def LongestFit (size : Nat → Nat) (maxSize : Int) (n k : Nat) : Prop :=
  k ≤ n ∧ min 1 n ≤ k ∧ (size k ≤ maxSize ∨ k = min 1 n) ∧
    ∀ j, k < j → j ≤ n → maxSize < size j

/-- **The truncating loop.** It keeps the longest prefix that fits by the size it is given. -/
theorem fillBindings_truncate (mono : Monotone sizeFor) (maxSize : Int)
    (bindings : List (Bytes × Bytes)) :
    ∃ k truncated, fillBindings sizeFor maxSize .truncate bindings [] =
        (encodeBindings (bindings.take k), truncated) ∧
      LongestFit (sizeFor ∘ listSize bindings) maxSize bindings.length k := by
  cases bindings with
  | nil => exact ⟨0, false, rfl, le_rfl, le_rfl, Or.inr rfl, fun j _ _ => by simp_all⟩
  | cons binding rest =>
    rw [fillBindings]
    split_ifs with tooBig empty
    · refine ⟨1, true, by simp [encodeBindings], by simp, by simp, Or.inr (by simp), ?_⟩
      intro j more _
      have larger := mono (length_encodeBinding_le binding rest (show 0 < j by omega))
      rw [List.length_nil, Nat.zero_add] at tooBig
      rw [Function.comp_apply]
      omega
    · exact absurd ⟨rfl, rfl⟩ empty
    · obtain ⟨k, inside, filled, fits, beyond⟩ :=
        fillBindings_of_ne_nil mono (encodeBinding_ne_nil binding)
      refine ⟨k + 1, decide (k < rest.length), ?_, by simpa using inside, by simp, Or.inl ?_, ?_⟩
      · rw [List.nil_append, filled]
        simp [encodeBindings]
      · rw [Function.comp_apply, listSize_cons]
        rcases Nat.eq_zero_or_pos k with rfl | positive
        · simpa [listSize, encodeBindings] using not_lt.mp tooBig
        · exact fits (by omega)
      · intro j less le
        obtain ⟨j, rfl⟩ := Nat.exists_eq_add_of_lt (Nat.zero_lt_of_lt less)
        rw [List.length_cons] at le
        rw [Function.comp_apply, listSize_cons]
        exact beyond (0 + j) (by omega) (by omega)

/-! ### The round trip of a GETBULK response -/

/-- The exact size of the response with the first `k` bindings. -/
def responseSize (req : SNMPRequest) (bindings : List (Bytes × Bytes)) (k : Nat) : Nat :=
  (encodeGetResponse req (encodeBindings (bindings.take k)) snmpErrNoError).length

/-- What a GETBULK response promises: it carries the longest prefix of the bindings that fits, its
names read back, and its size is the computed one. -/
def RoundTrips (maxSize : Int) (request : Bytes) (bindings : List (Bytes × Bytes)) : Prop :=
  ∃ req message k, parseIncomingRequest request = .ok req ∧
    createVarbindResponse maxSize (bindings.map Prod.fst) (bindings.map Prod.snd) request
      getBulkRules = .ok message ∧
    message = encodeGetResponse req (encodeBindings (bindings.take k)) snmpErrNoError ∧
    LongestFit (responseSize req bindings) maxSize bindings.length k ∧
    parseAllOIDsFromRequest message =
      .ok (some ((bindings.take k).map fun binding => canonicalOID binding.1)) ∧
    snmpMessageSizeFor (msgPrefixLen req) (pduPrefixLen req)
      (encodeBindings (bindings.take k)).length = message.length

/-- The size of a container whose length field is cut off at three octets. -/
def cutSize (n : Nat) : Nat := 1 + min 3 (encodeLength n).length + n

/-- The size a message would have if none of its three outer length fields took more than three
octets. -/
def cutMessageSize (req : SNMPRequest) (varBindLen : Nat) : Nat :=
  cutSize (msgPrefixLen req + cutSize (pduPrefixLen req + cutSize varBindLen))

theorem snmpMessageSizeFor_eq (req : SNMPRequest) (n : Nat) :
    snmpMessageSizeFor (msgPrefixLen req) (pduPrefixLen req) n = cutMessageSize req n := by
  simp only [snmpMessageSizeFor, cutMessageSize, cutSize, lenBytesFor_eq]

/-- The response to a GETBULK, before the size of its prefix is compared with the encoder's. -/
theorem createVarbindResponse_getBulk (maxSize : Int) {request : Bytes}
    (parsed : parseIncomingRequest request = .ok req) (bindings : List (Bytes × Bytes)) :
    ∃ k, createVarbindResponse maxSize (bindings.map Prod.fst) (bindings.map Prod.snd) request
        getBulkRules = .ok (encodeGetResponse req (encodeBindings (bindings.take k)) snmpErrNoError) ∧
      LongestFit (cutMessageSize req ∘ listSize bindings) maxSize bindings.length k := by
  obtain ⟨k, truncated, filled, longest⟩ := fillBindings_truncate
    (snmpMessageSizeFor_mono (msgPrefixLen req) (pduPrefixLen req)) maxSize bindings
  have same : snmpMessageSizeFor (msgPrefixLen req) (pduPrefixLen req) = cutMessageSize req :=
    funext (snmpMessageSizeFor_eq req)
  have zipped : (bindings.map Prod.fst).zip (bindings.map Prod.snd) = bindings :=
    (List.zip_of_prod rfl rfl).symm
  refine ⟨k, ?_, same ▸ longest⟩
  simp [createVarbindResponse, parsed, zipped, frameBindings, divertV1, getBulkRules,
    VarbindResponseRules.resolveDefaults, filled]

theorem map_name_of_readBack (read : List.Forall₂ readBack bindings binds) :
    binds.map SnmpVarBind.name = bindings.map fun binding => canonicalOID binding.1 := by
  induction read with
  | nil => rfl
  | cons first _ ih => rw [List.map_cons, List.map_cons, first.1, ih]

theorem responseSize_eq (req : SNMPRequest) (bindings : List (Bytes × Bytes)) (k : Nat) :
    responseSize req bindings k =
      tlvSize (contentsSize (msgPrefixLen req) (pduPrefixLen req) (listSize bindings k)) := by
  rw [responseSize, length_encodeGetResponse, listSize]

section RoundTrip

variable {request : Bytes} (parsed : parseIncomingRequest request = .ok req)
include parsed

/-- A response that keeps its promise has contents below 65536 octets, and so has every prefix the
loop would have taken. -/
theorem contentsSize_lt_of_roundTrips (roundTrips : RoundTrips maxSize request bindings) {k : Nat}
    (inside : k ≤ bindings.length)
    (taken : k ≤ 1 ∨ cutMessageSize req (listSize bindings k) ≤ maxSize) :
    contentsSize (msgPrefixLen req) (pduPrefixLen req) (listSize bindings k) < 65536 := by
  obtain ⟨emitted, created, -, first, -, beyond⟩ :=
    createVarbindResponse_getBulk maxSize parsed bindings
  obtain ⟨req', message, sent, parsed', created', rfl, -, -, exact_size⟩ := roundTrips
  obtain rfl := Except.ok.inj (parsed.symm.trans parsed')
  -- the message pins the size of its contents
  have sameLength := congrArg List.length (Except.ok.inj (created.symm.trans created'))
  rw [length_encodeGetResponse, length_encodeGetResponse] at sameLength
  have sameContents := tlvSize_strictMono.injective sameLength
  rw [length_encodeGetResponse, snmpMessageSizeFor_eq_iff, ← sameContents] at exact_size
  have shorter : k ≤ emitted := by
    by_contra longer
    rcases taken with small | small
    · omega
    · have tooBig := beyond k (by omega) inside
      rw [Function.comp_apply] at tooBig
      omega
  exact ((contentsSize_strictMono _ _).monotone (listSize_mono bindings shorter)).trans_lt exact_size

/-- As long as the contents stay below 65536 octets, the computed sizes are exact. -/
theorem roundTrips_of_contentsSize_lt
    (encodable : ∀ binding ∈ bindings, encodableAsOID binding.1 = true)
    (bounded : ∀ k ≤ bindings.length,
      (k ≤ 1 ∨ cutMessageSize req (listSize bindings k) ≤ maxSize) →
        contentsSize (msgPrefixLen req) (pduPrefixLen req) (listSize bindings k) < 65536) :
    RoundTrips maxSize request bindings := by
  obtain ⟨emitted, created, inside, first, fits, beyond⟩ :=
    createVarbindResponse_getBulk maxSize parsed bindings
  have short : contentsSize (msgPrefixLen req) (pduPrefixLen req) (listSize bindings emitted) <
      65536 := by
    refine bounded emitted inside ?_
    rcases fits with fits | alone
    · exact Or.inr fits
    · exact Or.inl (by omega)
  have exact_size := (snmpMessageSizeFor_eq_iff _ _ _).mpr short
  have contents := length_messageContents req (encodeBindings (bindings.take emitted))
  rw [← listSize] at contents
  have listBounded : listSize bindings emitted < 65536 := by
    have list := lt_tlvSize (listSize bindings emitted)
    have pdu := lt_tlvSize (pduPrefixLen req + tlvSize (listSize bindings emitted))
    rw [contentsSize] at short
    omega
  obtain ⟨binds, varBinds, read⟩ := isVarBinds_encodeBindings
    (fun binding member => encodable binding (List.mem_of_mem_take member))
    (show (encodeBindings (bindings.take emitted)).length < 2 ^ 31 from
      listBounded.trans (by decide))
  refine ⟨req, _, emitted, parsed, created, rfl, ⟨inside, first, ?_, ?_⟩, ?_, ?_⟩
  · refine fits.imp_left fun fits => ?_
    rw [responseSize_eq, ← exact_size, snmpMessageSizeFor_eq]
    exact fits
  · intro j more le
    have tooBig := beyond j more le
    have computed := snmpMessageSizeFor_le_tlvSize (msgPrefixLen req) (pduPrefixLen req)
      (listSize bindings j)
    rw [Function.comp_apply, ← snmpMessageSizeFor_eq] at tooBig
    rw [responseSize_eq]
    omega
  · rw [encodeGetResponse, parseAllOIDsFromRequest_encode varBinds (by omega),
      map_name_of_readBack read]
  · rw [length_encodeGetResponse]
    exact exact_size

end RoundTrip

/-- **The GETBULK response round trip.** It holds exactly when the contents of the message stay below
65536 octets for the first binding alone and for every prefix that would fit the bound if no length
field took more than three octets. -/
theorem getBulk_roundTrips_iff (maxSize : Int) (request : Bytes) (bindings : List (Bytes × Bytes))
    (encodable : ∀ binding ∈ bindings, encodableAsOID binding.1 = true) :
    RoundTrips maxSize request bindings ↔
      ∀ req, parseIncomingRequest request = .ok req → ∀ k ≤ bindings.length,
        (k ≤ 1 ∨ cutMessageSize req (listSize bindings k) ≤ maxSize) →
          contentsSize (msgPrefixLen req) (pduPrefixLen req) (listSize bindings k) < 65536 := by
  constructor
  · intro roundTrips req parsed k inside taken
    exact contentsSize_lt_of_roundTrips parsed roundTrips inside taken
  · intro bounded
    obtain ⟨req, parsed, -⟩ := parseIncomingRequest_spec request
    exact roundTrips_of_contentsSize_lt parsed encodable (bounded req parsed)

/-- The answer to a request without content, at the end of the data. -/
theorem getBulk_roundTrips_short :
    RoundTrips 1472 [] [(ascii ".1.3.6.1.2.1.1.1.0", valueEndOfMibView)] := by
  refine (getBulk_roundTrips_iff 1472 [] _ (by decide +kernel)).mpr ?_
  intro req parsed k inside _
  obtain rfl : SNMPRequest.initial = req := Except.ok.inj parsed
  have small : ∀ k ≤ 1, contentsSize (msgPrefixLen .initial) (pduPrefixLen .initial)
      (listSize [(ascii ".1.3.6.1.2.1.1.1.0", valueEndOfMibView)] k) < 65536 := by
    decide +kernel
  exact small k inside

theorem encodeTypedValue_of_octetString {value : Bytes}
    (declared : snmpTypeTag oid = asn1OctetString) (long : 65536 ≤ value.length) :
    encodeTypedValue oid value = encodeTLV asn1OctetString value := by
  have plain : ∀ sentinel : Bytes, sentinel.length < 65536 → value ≠ sentinel := by
    rintro sentinel shorter rfl
    omega
  rw [encodeTypedValue, if_neg (plain _ (by decide)), if_neg (plain _ (by decide)), declared]
  rfl

theorem not_roundTrips_of_octetString {value : Bytes} (declared : snmpTypeTag oid = asn1OctetString)
    (long : 65536 ≤ value.length) : ¬ RoundTrips maxSize [] [(oid, value)] := by
  intro roundTrips
  have parsed : parseIncomingRequest [] = .ok SNMPRequest.initial := rfl
  have short := contentsSize_lt_of_roundTrips parsed roundTrips (k := 1) le_rfl (Or.inl le_rfl)
  have first : (encodeBinding (oid, value)).length ≤ listSize [(oid, value)] 1 :=
    length_encodeBinding_le _ _ Nat.one_pos
  simp only [encodeBinding, encodeTypedValue_of_octetString declared long, encodeSequence,
    length_encodeTLV, List.length_append] at first
  have octets := lt_tlvSize value.length
  have binding := lt_tlvSize ((encodeOID oid).length + tlvSize value.length)
  have list := lt_tlvSize (listSize [(oid, value)] 1)
  have pdu := lt_tlvSize (pduPrefixLen .initial + tlvSize (listSize [(oid, value)] 1))
  rw [contentsSize] at short
  omega

/-- An alias of 65536 octets is sent alone, and each of the three containers around it is one octet
longer than computed. -/
theorem getBulk_not_roundTrips_long :
    ¬ RoundTrips 1472 [] [(ascii ".1.3.6.1.2.1.31.1.1.1.18.1", List.replicate 65536 0x78)] :=
  not_roundTrips_of_octetString (by decide +kernel) List.length_replicate.ge

end Nl6
