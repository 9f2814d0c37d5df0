import Nl6.Lib.Ber
import Nl6.Mib.Validate
import Nl6.Wire.OidCodec

/-! # What the encoders emit

Every encoder emits one element (`isTlv_encodeTLV`), up to the size `parseLength` reads. The value of
a binding is an element as well, and its tag says which of the SNMPv1 and the SNMPv2 types it has
(`encodeTypedValue_eq`).
-/

namespace Nl6

open Numeral Ber

/-! ### Lengths -/

theorem length_encodeLength (n : Nat) :
    (encodeLength n).length = if n < 128 then 1 else 1 + (Octets.ofNat n).length := by
  rw [encodeLength]
  split
  · rfl
  · rw [List.length_cons, Nat.add_comm]

theorem length_encodeLength_mono {m n : Nat} (le : m ≤ n) :
    (encodeLength m).length ≤ (encodeLength n).length := by
  have shorter : (Octets.ofNat m).length ≤ (Octets.ofNat n).length :=
    (Octets.length_ofNat_le_iff m _).mpr
      (le.trans_lt ((Octets.length_ofNat_le_iff n _).mp le_rfl))
  rw [length_encodeLength, length_encodeLength]
  split_ifs <;> omega

theorem isLength_encodeLength {n : Nat} (bounded : n < 2 ^ 31) : IsLength (encodeLength n) n := by
  rw [encodeLength]
  split_ifs with small
  · have octet : (UInt8.ofNat n).toNat = n := by
      rw [UInt8.toNat_ofNat']
      omega
    have short := IsLength.short (show (UInt8.ofNat n).toNat < 128 by omega)
    rwa [octet] at short
  · have few : (Octets.ofNat n).length ≤ 4 := (Octets.length_ofNat_le_iff n 4).mpr (by omega)
    have counts : (UInt8.ofNat (0x80 + (Octets.ofNat n).length)).toNat =
        128 + (Octets.ofNat n).length := by
      rw [UInt8.toNat_ofNat']
      omega
    have long := IsLength.long counts (Octets.ofNat_ne_nil (show 0 < n by omega)) few
      (by rwa [Octets.value_ofNat])
    rwa [Octets.value_ofNat] at long

theorem isTlv_encodeTLV (tag : UInt8) {contents : Bytes} (bounded : contents.length < 2 ^ 31) :
    IsTlv tag contents (encodeTLV tag contents) :=
  ⟨encodeLength contents.length, isLength_encodeLength bounded, rfl⟩

/-- The size of an element with contents of a given size. -/
def tlvSize (n : Nat) : Nat := 1 + (encodeLength n).length + n

theorem length_encodeTLV (tag : UInt8) (contents : Bytes) :
    (encodeTLV tag contents).length = tlvSize contents.length := by
  rw [encodeTLV, tlvSize, List.length_cons, List.length_append]
  omega

theorem tlvSize_strictMono : StrictMono tlvSize := by
  intro m n lt
  have := length_encodeLength_mono lt.le
  rw [tlvSize, tlvSize]
  omega

theorem lt_tlvSize (n : Nat) : n < tlvSize n := by
  rw [tlvSize]
  omega

/-! ### Integers -/

theorem toNat_octetAt (value : Int) (position : Nat) :
    ((octetAt value position).toNat : Int) = value / 256 ^ position % 256 := by
  rw [octetAt, UInt8.toNat_ofNat']
  omega

theorem value_positiveOctets (value : Nat) : Octets.value (positiveOctets value) = value := by
  rw [positiveOctets]
  split_ifs
  · rw [Octets.value_cons, Octets.value_ofNat]
    simp
  · exact Octets.value_ofNat value

theorem negative_positiveOctets (value : Nat) : Octets.negative (positiveOctets value) = false := by
  rw [positiveOctets]
  split_ifs with top
  · rfl
  · simpa using top

theorem length_positiveOctets_le {value : Nat} (bounded : value < 2 ^ 63) :
    (positiveOctets value).length ≤ 8 := by
  have short := (Octets.length_ofNat_le_iff value 8).mpr (by omega)
  rw [positiveOctets]
  split_ifs with top
  · have half := Octets.half_le_value top
    rw [Octets.value_ofNat] at half
    have shorter : (Octets.ofNat value).length ≠ 8 := by
      intro full
      rw [full] at half
      omega
    rw [List.length_cons]
    omega
  · exact short

variable {octets text : Bytes}

/-- Octets that spell a negative number in two's complement are not padded. -/
theorem signed_padNegative {value : Int} (top : Octets.negative octets = true)
    (spelled : (Octets.value octets : Int) = value + 256 ^ octets.length) :
    Octets.signed (if Octets.negative octets then octets else 0xFF :: octets) = value := by
  rw [if_pos top, Octets.signed, if_pos top, spelled]
  ring

theorem signed_negativeOctets {value : Int} (low : -2 ^ 31 ≤ value) (high : value < 0) :
    Octets.signed (negativeOctets value) = value := by
  have zero := toNat_octetAt value 0
  have one := toNat_octetAt value 1
  have two := toNat_octetAt value 2
  have three := toNat_octetAt value 3
  apply signed_padNegative
  · split_ifs <;> rw [Octets.negative_cons, decide_eq_true_eq] <;> omega
  · split_ifs <;> simp [Octets.value] <;> omega

theorem length_negativeOctets_le (value : Int) : (negativeOctets value).length ≤ 5 := by
  unfold negativeOctets
  split_ifs <;> dsimp only <;> split_ifs <;> simp

/-! ### Values -/

theorem length_quad (parsed : parseQuad text = some octets) : octets.length = 4 := by
  rw [parseQuad] at parsed
  split at parsed
  · simp only [Option.bind_eq_bind, Option.bind_eq_some_iff, Option.pure_def,
      Option.some.injEq] at parsed
    obtain ⟨_, _, _, _, _, _, _, _, rfl⟩ := parsed
    rfl
  · exact absurd parsed nofun

theorem length_parseColons (parsed : parseColons text = some octets) : octets.length = 16 := by
  rw [parseColons] at parsed
  split at parsed
  · obtain ⟨groups, -, whole⟩ := Option.bind_eq_some_iff.mp parsed
    split_ifs at whole with counted
    exact Option.some.inj whole ▸ counted
  · split_ifs at parsed
    obtain ⟨front, -, behind⟩ := Option.bind_eq_some_iff.mp parsed
    obtain ⟨back, -, whole⟩ := Option.bind_eq_some_iff.mp behind
    split_ifs at whole with room
    cases whole
    simp only [List.length_append, List.length_replicate]
    omega

theorem length_parseIPTo4 (parsed : parseIPTo4 text = some octets) : octets.length = 4 := by
  rw [parseIPTo4] at parsed
  split at parsed
  · exact length_quad parsed
  · obtain ⟨all, read, mapped⟩ := Option.bind_eq_some_iff.mp parsed
    split_ifs at mapped
    cases mapped
    rw [List.length_drop, length_parseColons read]
  · exact absurd parsed nofun

theorem encodeOID_eq (oid : Bytes) : encodeOID oid = encodeTLV asn1ObjectID ((oidBody oid).getD []) := by
  rw [encodeOID]
  cases oidBody oid <;> rfl

/-- The tags a typed value can be sent under. -/
def valueTags : List UInt8 :=
  [asn1Integer, asn1OctetString, asn1ObjectID, asn1IPAddress, asn1Counter32, asn1Gauge32,
    asn1TimeTicks]

theorem encodeIPAddress_eq (text : Bytes) :
    ∃ tag ∈ valueTags, ∃ contents, encodeIPAddress text = encodeTLV tag contents := by
  rw [encodeIPAddress]
  cases parsed : parseIPTo4 text with
  | none => exact ⟨_, by decide, _, rfl⟩
  | some octets =>
    refine ⟨asn1IPAddress, by decide, octets, ?_⟩
    rw [encodeTLV, length_parseIPTo4 parsed]
    rfl

theorem encodeTyped32_eq {tag : UInt8} (declared : tag ∈ valueTags) (value : Bytes) :
    ∃ sent ∈ valueTags, ∃ contents, encodeTyped32 tag value = encodeTLV sent contents := by
  unfold encodeTyped32
  split
  · exact ⟨tag, declared, _, rfl⟩
  · split
    · exact ⟨tag, declared, _, rfl⟩
    · exact ⟨asn1OctetString, by decide, _, rfl⟩

/-- **A typed value.** It is one element; only a column declared Counter64 is sent as one. -/
theorem encodeTypedValueAtTag_eq (value : Bytes) (declared : UInt8) :
    ∃ tag, (tag ∈ valueTags ∨ tag = asn1Counter64 ∧ declared = asn1Counter64) ∧
      ∃ contents, encodeTypedValueAtTag value declared = encodeTLV tag contents := by
  rw [encodeTypedValueAtTag]
  split_ifs with octets oid address unsigned counter
  · exact ⟨asn1OctetString, Or.inl (by decide), value, rfl⟩
  · exact ⟨asn1ObjectID, Or.inl (by decide), _, encodeOID_eq value⟩
  · obtain ⟨tag, known, encoded⟩ := encodeIPAddress_eq value
    exact ⟨tag, Or.inl known, encoded⟩
  · have known : declared ∈ valueTags := by
      rcases unsigned with rfl | rfl | rfl <;> decide
    obtain ⟨tag, known, encoded⟩ := encodeTyped32_eq known value
    exact ⟨tag, Or.inl known, encoded⟩
  · split
    · exact ⟨asn1Counter64, Or.inr ⟨rfl, counter⟩, _, rfl⟩
    · exact ⟨asn1OctetString, Or.inl (by decide), _, rfl⟩
  · split
    · exact ⟨asn1Integer, Or.inl (by decide), _, rfl⟩
    · exact ⟨asn1OctetString, Or.inl (by decide), _, rfl⟩

/-- **The value of a binding.** It is one element. An exception's tag is sent for its sentinel only,
and Counter64 for a column that declares it only. -/
theorem encodeTypedValue_eq (oid value : Bytes) :
    ∃ tag contents, encodeTypedValue oid value = encodeTLV tag contents ∧
      (isSNMPExceptionValue value = false → tag ≠ asn1NoSuchObject ∧ tag ≠ asn1EndOfMibView) ∧
      (tag = asn1Counter64 → snmpTypeTag oid = asn1Counter64) := by
  rw [encodeTypedValue]
  split_ifs with ended missing
  · exact ⟨asn1EndOfMibView, [], rfl, by simp [isSNMPExceptionValue, ended],
      fun is => absurd is (by decide)⟩
  · exact ⟨asn1NoSuchObject, [], rfl, by simp [isSNMPExceptionValue, missing],
      fun is => absurd is (by decide)⟩
  · obtain ⟨tag, known, contents, encoded⟩ := encodeTypedValueAtTag_eq value (snmpTypeTag oid)
    rcases known with known | ⟨rfl, declared⟩
    · have plain : ∀ tag ∈ valueTags,
          tag ≠ asn1NoSuchObject ∧ tag ≠ asn1EndOfMibView ∧ tag ≠ asn1Counter64 := by
        decide +kernel
      obtain ⟨notMissing, notEnd, notCounter⟩ := plain tag known
      exact ⟨tag, contents, encoded, fun _ => ⟨notMissing, notEnd⟩, fun is => absurd is notCounter⟩
    · exact ⟨_, contents, encoded, fun _ => by decide, fun _ => declared⟩

end Nl6
