import Nl6.Trap.Appenders
import Nl6.Wire.RoundTrip

/-! # The range of the INTEGER codec

`encodeInteger` writes positive values octet by octet and negative ones by a ladder of four widths,
the last of which keeps 32 bits of the value and puts `FF` in front when they read as a positive
number. That is enough for the values of 33 bits and for no value below (`integer_roundTrips_iff`).
-/

namespace Nl6

open Numeral Checked Ber

/-- An integer survives its encoding: `parseBERInt` reads it back from the content octets, none of
these is redundant, and `appendInteger` emits the same bytes. -/
structure IntegerRoundTrips (value : Int) : Prop where
  reads : parseBERInt (integerOctets value) 0 (integerOctets value).length = .ok (some value)
  minimal : Octets.Minimal (integerOctets value)
  appended : ∀ dst, appendInteger dst value = dst ++ encodeInteger value

/-! ### Positive values -/

theorem minimal_positiveOctets {value : Nat} (positive : 0 < value) :
    Octets.Minimal (positiveOctets value) := by
  obtain ⟨first, rest, octets⟩ := List.exists_cons_of_ne_nil (Octets.ofNat_ne_nil positive)
  have significant := head_ofNat_ne_zero octets
  simp only [positiveOctets, octets, Octets.negative_cons]
  split_ifs with top
  · have high : 128 ≤ first.toNat := of_decide_eq_true top
    exact ⟨fun padded => by omega, fun ones => absurd ones.1 (by decide)⟩
  · have low : first.toNat < 128 := by simpa using top
    cases rest with
    | nil => trivial
    | cons second rest =>
      refine ⟨fun padded => significant padded.1, fun ones => ?_⟩
      rw [ones.1] at low
      exact absurd low (by decide)

/-! ### Negative values -/

section Negative

variable {value : Int}

theorem value_lowOctets (value : Int) :
    (Octets.value [octetAt value 3, octetAt value 2, octetAt value 1, octetAt value 0] : Int) =
      value % 2 ^ 32 := by
  have zero := toNat_octetAt value 0
  have one := toNat_octetAt value 1
  have two := toNat_octetAt value 2
  have three := toNat_octetAt value 3
  simp [Octets.value]
  omega

/-- The last width: the low 32 bits of the value, below zero. -/
theorem signed_lastWidth (value : Int) :
    let octets := [octetAt value 3, octetAt value 2, octetAt value 1, octetAt value 0]
    Octets.signed (if Octets.negative octets then octets else 0xFF :: octets) =
      value % 2 ^ 32 - 2 ^ 32 := by
  intro octets
  have low : (Octets.value octets : Int) = value % 2 ^ 32 := value_lowOctets value
  split_ifs with top
  · rw [Octets.signed, if_pos top, low]
    norm_num [octets]
  · have lead : Octets.negative (0xFF :: octets) = true := rfl
    rw [Octets.signed, if_pos lead, Octets.value_cons]
    push_cast
    rw [low]
    simp [octets]
    ring

theorem negativeOctets_of_lt (below : value < -8388608) :
    negativeOctets value =
      let octets := [octetAt value 3, octetAt value 2, octetAt value 1, octetAt value 0]
      if Octets.negative octets then octets else 0xFF :: octets := by
  have wide : ¬ -128 ≤ value ∧ ¬ -32768 ≤ value ∧ ¬ -8388608 ≤ value := by omega
  simp [negativeOctets, wide]

/-- A negative value reads back exactly if it has 33 bits. -/
theorem signed_negativeOctets_iff (negative : value < 0) :
    Octets.signed (negativeOctets value) = value ↔ -2 ^ 32 ≤ value := by
  by_cases low : -2 ^ 31 ≤ value
  · refine ⟨fun _ => ?_, fun _ => signed_negativeOctets low negative⟩
    omega
  · rw [negativeOctets_of_lt (by omega), signed_lastWidth]
    omega

theorem minimal_of_top {first second : UInt8} {rest : Bytes} (top : 128 ≤ first.toNat)
    (needed : first.toNat = 255 → second.toNat < 128) :
    Octets.Minimal (first :: second :: rest) := by
  refine ⟨fun padded => ?_, fun ones => ?_⟩
  · rw [padded.1] at top
    exact absurd top (by decide)
  · have low := needed (by rw [ones.1]; rfl)
    omega

theorem minimal_negativeOctets (low : -2 ^ 32 ≤ value) (negative : value < 0) :
    Octets.Minimal (negativeOctets value) := by
  have zero := toNat_octetAt value 0
  have one := toNat_octetAt value 1
  have two := toNat_octetAt value 2
  have three := toNat_octetAt value 3
  unfold negativeOctets
  by_cases byte : -128 ≤ value
  · rw [if_pos byte, if_pos (by rw [Octets.negative_cons, decide_eq_true_eq]; omega)]
    trivial
  rw [if_neg byte]
  by_cases word : -32768 ≤ value
  · rw [if_pos word, if_pos (by rw [Octets.negative_cons, decide_eq_true_eq]; omega)]
    exact minimal_of_top (by omega) (by omega)
  rw [if_neg word]
  by_cases triple : -8388608 ≤ value
  · rw [if_pos triple, if_pos (by rw [Octets.negative_cons, decide_eq_true_eq]; omega)]
    exact minimal_of_top (by omega) (by omega)
  rw [if_neg triple]
  dsimp only
  rw [Octets.negative_cons]
  split_ifs with top
  · exact minimal_of_top (of_decide_eq_true top) (by simp at top; omega)
  · exact minimal_of_top (by decide) fun _ => by simpa using top

end Negative

/-! ### The whole range -/

theorem parseBERInt_octets (octets : Bytes) :
    parseBERInt octets 0 octets.length = .ok (integerValue octets) := by
  have here : At octets 0 (octets ++ []) := by
    rw [List.append_nil]
    exact At.start octets
  exact parseBERInt_content [] here

theorem integerValue_negativeOctets (value : Int) :
    integerValue (negativeOctets value) = some (Octets.signed (negativeOctets value)) := by
  have short := length_negativeOctets_le value
  have trimmed := Octets.length_trimZeros_le (negativeOctets value)
  have nonempty : negativeOctets value ≠ [] := by
    unfold negativeOctets
    split_ifs <;> dsimp only <;> split_ifs <;> simp
  rw [integerValue, if_neg]
  simp only [nonempty, false_or, not_lt]
  omega

/-- **The range of INTEGER.** A 64-bit signed value survives its encoding exactly if it is not below
the values of 33 bits: below them only the low 32 bits are encoded. -/
theorem integer_roundTrips_iff (value : Int64) :
    IntegerRoundTrips value.toInt ↔ -2 ^ 32 ≤ value.toInt := by
  have below := value.toInt_lt
  constructor
  · rintro ⟨reads, -, -⟩
    by_cases negative : value.toInt < 0
    · have octets : integerOctets value.toInt = negativeOctets value.toInt := by
        rw [integerOctets, if_neg (by omega), if_neg (by omega)]
      rw [parseBERInt_octets, octets, integerValue_negativeOctets] at reads
      exact (signed_negativeOctets_iff negative).mp (Option.some.inj (Except.ok.inj reads))
    · omega
  · intro low
    refine ⟨?_, ?_, fun dst => appendInteger_eq dst (by omega)⟩
    · rw [parseBERInt_octets]
      by_cases narrow : -2 ^ 31 ≤ value.toInt
      · rw [integerValue_integerOctets narrow below]
      · rw [integerOctets, if_neg (by omega), if_neg (by omega), integerValue_negativeOctets,
          (signed_negativeOctets_iff (by omega)).mpr low]
    · rw [integerOctets]
      split_ifs with zero positive
      · trivial
      · exact minimal_positiveOctets (by omega)
      · exact minimal_negativeOctets low (by omega)

/-- A value of 34 bits is read back as another one, from four octets of which one would do. -/
theorem integer_truncated :
    encodeInteger (-2 ^ 32 - 1) = encodeTLV asn1Integer [0xFF, 0xFF, 0xFF, 0xFF] ∧
      parseBERInt [0xFF, 0xFF, 0xFF, 0xFF] 0 4 = .ok (some (-1)) ∧
      ¬ Octets.Minimal [0xFF, 0xFF, 0xFF, 0xFF] := by
  refine ⟨by decide, by decide, fun minimal => ?_⟩
  exact minimal.2 ⟨rfl, by decide⟩

end Nl6
