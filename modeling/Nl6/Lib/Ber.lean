import Nl6.Lib.Octets

/-! # Definite-length BER

The length octets and the tag-length-value elements of the Basic Encoding Rules, as relations
between bytes and what they denote. Lengths take at most four octets behind the count and are below
`2 ^ 31`.
-/

namespace Ber

/-- The octets spell a definite length, in the short or the long form. -/
inductive IsLength : Bytes → Nat → Prop where
  | short {first : UInt8} (small : first.toNat < 128) : IsLength [first] first.toNat
  | long {first : UInt8} {octets : Bytes} (counts : first.toNat = 128 + octets.length)
      (nonempty : octets ≠ []) (few : octets.length ≤ 4) (bounded : Octets.value octets < 2 ^ 31) :
      IsLength (first :: octets) (Octets.value octets)

theorem IsLength.ne_nil {octets : Bytes} {length : Nat} (spelled : IsLength octets length) :
    octets ≠ [] := by
  cases spelled <;> simp

/-- The bytes are one element with the given tag and contents. -/
def IsTlv (tag : UInt8) (contents bytes : Bytes) : Prop :=
  ∃ length, IsLength length contents.length ∧ bytes = tag :: (length ++ contents)

end Ber
