import Nl6.Trap.Fast
import Nl6.Wire.OidCodec

/-! # What the appenders append

Every appender of the allocation-free encoder adds to the buffer what the encoder of the same name
returns, `appendOID_eq` the degenerate form of a text it cannot represent included. A patched header
takes the place of the reserved one (`endTLV_eq`) and is the shortest one below 65536 octets
(`tlvHeader_eq`).
-/

namespace Nl6

open Numeral Buffer

/-! ### Lengths, integers and strings -/


theorem lengthOctets_eq (length : Nat) (filled : Bytes) :
    lengthOctets length filled = Octets.ofNat length ++ filled := by
  induction length using Nat.strong_induction_on generalizing filled with
  | _ length ih =>
    rw [lengthOctets]
    split
    · next zero =>
        subst zero
        simp
    · next positive =>
        have smaller : length / 256 < length := Nat.div_lt_self (by omega) (by decide)
        rw [ih _ smaller, Octets.ofNat_of_pos (show 0 < length by omega), List.append_assoc,
          List.singleton_append]

theorem appendLength_eq (dst : Bytes) (length : Nat) :
    appendLength dst length = dst ++ encodeLength length := by
  unfold appendLength encodeLength
  split
  · rfl
  · simp [lengthOctets_eq]

theorem appendLength_contents (dst : Bytes) (tag : UInt8) (contents : Bytes) :
    appendLength (dst ++ [tag]) contents.length ++ contents = dst ++ encodeTLV tag contents := by
  simp [appendLength_eq, encodeTLV]

variable {value : Nat}

theorem bigEndian_eq {width : Nat} (fits : value < 256 ^ width) :
    bigEndian width value =
      List.replicate (width - (Octets.ofNat value).length) 0 ++ Octets.ofNat value := by
  induction width generalizing value with
  | zero =>
    obtain rfl : value = 0 := by omega
    simp [bigEndian]
  | succ width ih =>
    rw [bigEndian, ih (by rw [pow_succ] at fits; omega)]
    rcases Nat.eq_zero_or_pos value with rfl | positive
    · simp [List.replicate_succ']
    · rw [Octets.ofNat_of_pos positive, List.length_append, List.length_singleton,
        Nat.add_sub_add_right, List.append_assoc]

theorem head_ofNat_ne_zero {first : UInt8} {rest : Bytes}
    (octets : Octets.ofNat value = first :: rest) : first ≠ 0 := by
  rintro rfl
  have shorter : value < 256 ^ rest.length := by
    have read := congrArg Octets.value octets
    rw [Octets.value_ofNat, Octets.value_cons] at read
    have bound := Octets.value_lt rest
    simp only [UInt8.toNat_zero, Nat.zero_mul, Nat.zero_add] at read
    omega
  have length := (Octets.length_ofNat_le_iff value rest.length).mpr shorter
  rw [octets, List.length_cons] at length
  omega

theorem firstNonzero_eq {first : UInt8} (nonzero : first ≠ 0) (front rest : Bytes)
    {zeros left : Nat} (enough : zeros ≤ left) :
    firstNonzero (front ++ (List.replicate zeros 0 ++ first :: rest)) left front.length =
      front.length + zeros := by
  induction zeros generalizing front left with
  | zero =>
    cases left with
    | zero => rfl
    | succ left =>
      rw [firstNonzero, if_neg]
      · rfl
      · simpa [List.getD_eq_getElem?_getD] using nonzero
  | succ zeros ih =>
    obtain ⟨left, rfl⟩ : ∃ less, left = less + 1 := ⟨left - 1, by omega⟩
    have here : (front ++ (List.replicate (zeros + 1) 0 ++ first :: rest)).getD front.length 0 =
        0 := by
      simp [List.getD_eq_getElem?_getD, List.replicate_succ]
    have step := @ih (front ++ [0]) left (by omega)
    rw [List.length_append, List.length_singleton, List.append_assoc] at step
    rw [firstNonzero, if_pos here]
    rw [List.replicate_succ]
    exact step.trans (by omega)

theorem positive_scratch (positive : 0 < value) (fits : value < 256 ^ 8) :
    let tmp := 0x00 :: bigEndian 8 value
    let start := firstNonzero tmp 7 1
    tmp.drop (if 128 ≤ (tmp.getD start 0).toNat then start - 1 else start) = positiveOctets value := by
  intro tmp start
  obtain ⟨first, rest, octets⟩ := List.exists_cons_of_ne_nil (Octets.ofNat_ne_nil positive)
  have short : (Octets.ofNat value).length ≤ 8 := (Octets.length_ofNat_le_iff value 8).mpr fits
  rw [octets, List.length_cons] at short
  obtain ⟨zeros, width⟩ : ∃ zeros, zeros + (rest.length + 1) = 8 := ⟨8 - (rest.length + 1), by omega⟩
  have scratch : tmp = List.replicate (zeros + 1) 0 ++ first :: rest := by
    have pad : 8 - (rest.length + 1) = zeros := by omega
    simp only [tmp, bigEndian_eq fits, octets, List.length_cons, pad, List.replicate_succ]
    rfl
  have found : start = zeros + 1 := by
    have skipped := firstNonzero_eq (head_ofNat_ne_zero octets) [0x00] rest
      (show zeros ≤ 7 by omega)
    simp only [start, scratch]
    exact skipped.trans (Nat.add_comm _ _)
  have lead : tmp.getD start 0 = first := by
    rw [found, scratch, List.getD_append_right _ _ _ _ (by simp)]
    simp
  have dropAll : tmp.drop (zeros + 1) = first :: rest := by
    rw [scratch]
    exact List.drop_left' (by simp)
  have dropPad : tmp.drop zeros = 0 :: first :: rest := by
    rw [scratch, List.replicate_succ', List.append_assoc]
    exact List.drop_left' (by simp)
  rw [lead, found, positiveOctets, octets, Octets.negative_cons]
  by_cases negative : 128 ≤ first.toNat
  · simp only [negative, if_true, decide_true, Nat.add_sub_cancel]
    exact dropPad
  · simp only [negative, if_false, decide_false, Bool.false_eq_true]
    exact dropAll

theorem appendInteger_eq (dst : Bytes) {value : Int} (fits : value < 2 ^ 64) :
    appendInteger dst value = dst ++ encodeInteger value := by
  unfold appendInteger encodeInteger integerOctets
  simp only [appendLength_contents]
  split
  · rfl
  · split
    · next positive =>
        rw [positive_scratch (by omega) (by omega)]
    · unfold negativeOctets
      generalize (if -128 ≤ value then [octetAt value 0]
        else if -32768 ≤ value then [octetAt value 1, octetAt value 0]
        else if -8388608 ≤ value then [octetAt value 2, octetAt value 1, octetAt value 0]
        else [octetAt value 3, octetAt value 2, octetAt value 1, octetAt value 0]) = body
      by_cases negative : Octets.negative body = true
      · simp [negative]
      · simp only [negative, Bool.false_eq_true, if_false]
        rw [← appendLength_contents]
        simp

theorem appendUnsigned32_eq (dst : Bytes) (tag : UInt8) (value : Nat) :
    appendUnsigned32 dst tag value = dst ++ encodeUnsigned32 tag value :=
  appendLength_contents _ _ _

theorem appendOctetString_eq (dst value : Bytes) :
    appendOctetString dst value = dst ++ encodeOctetString value :=
  appendLength_contents _ _ _

/-! ### Identifiers -/

theorem componentChunks_eq (value : Nat) (filled : Bytes) :
    componentChunks value filled = continued value ++ filled := by
  induction value using Nat.strong_induction_on generalizing filled with
  | _ value ih =>
    rw [componentChunks]
    split
    · next zero =>
        subst zero
        simp [continued]
    · next positive =>
        have smaller : value / 128 < value := Nat.div_lt_self (by omega) (by decide)
        rw [ih _ smaller, continued_of_pos (show 0 < value by omega), List.append_assoc,
          List.singleton_append]

theorem appendOIDComponent_eq (dst : Bytes) (value : Nat) :
    appendOIDComponent dst value = dst ++ encodeOIDComponent value := by
  unfold appendOIDComponent
  split
  · next short => rw [encodeOIDComponent, if_pos short]
  · next long => rw [componentChunks_eq, encodeOIDComponent_of_le (by omega)]

/-- The components of a text one after the other. -/
def appendOIDParts : List Bytes → Nat → Int → Bytes → Option Bytes
  | [], _, _, dst => some dst
  | component :: rest, idx, first, dst =>
    match appendOIDArc idx first dst component with
    | none => none
    | some (first, dst) => appendOIDParts rest (idx + 1) first dst

theorem appendOIDLoop_eq (text component : Bytes) (idx : Nat) (first : Int) (dst : Bytes) :
    appendOIDLoop text component idx first dst =
      appendOIDParts ((text.splitOn dot).modifyHead (component ++ ·)) idx first dst := by
  induction text generalizing component idx first dst with
  | nil =>
    simp only [appendOIDLoop, List.splitOn, List.splitOnP_nil, List.modifyHead, appendOIDParts,
      List.append_nil]
    cases appendOIDArc idx first dst component <;> rfl
  | cons c rest ih =>
    simp only [List.splitOn] at ih ⊢
    rw [appendOIDLoop, List.splitOnP_cons_eq_if_modifyHead]
    by_cases isDot : c = dot
    · simp only [isDot, if_true, beq_self_eq_true, List.modifyHead, List.append_nil, appendOIDParts]
      rcases appendOIDArc idx first dst component with _ | ⟨first, dst⟩
      · rfl
      · refine (ih [] (idx + 1) first dst).trans (congrArg (appendOIDParts · _ _ _) ?_)
        cases List.splitOnP (· == dot) rest <;> rfl
    · have other : (c == dot) = false := by simpa using isDot
      simp only [isDot, if_false, other, Bool.false_eq_true]
      rw [ih]
      congr 1
      cases List.splitOnP (· == dot) rest with
      | nil => rfl
      | cons part parts => simp [List.modifyHead]

theorem length_splitOn (text : Bytes) : (text.splitOn dot).length = 1 + text.count dot := by
  induction text with
  | nil => rfl
  | cons c rest ih =>
    simp only [List.splitOn] at ih ⊢
    rw [List.splitOnP_cons_eq_if_modifyHead, List.count_cons]
    split
    · rw [List.length_cons, ih]
      omega
    · rw [List.length_modifyHead, ih]
      omega

theorem legalOIDArcPair_nonneg {first second : Int} (legal : legalOIDArcPair first second = true) :
    ¬ first < 0 ∧ ¬ second < 0 := by
  unfold legalOIDArcPair at legal
  split at legal
  · cases legal
  · next bounded => exact ⟨fun neg => bounded (.inl neg), fun neg => bounded (.inr (.inl neg))⟩

theorem appendOIDArc_zero (first : Int) (dst component : Bytes) :
    appendOIDArc 0 first dst component =
      if (atoi component).2 = false ∨ (atoi component).1 < 0 then none
      else some ((atoi component).1, dst) := by
  simp [appendOIDArc]

theorem appendOIDArc_one (first : Int) (dst component : Bytes) :
    appendOIDArc 1 first dst component =
      if (atoi component).2 = false ∨ legalOIDArcPair first (atoi component).1 = false then none
      else some (first, dst ++ encodeOIDComponent (40 * first + (atoi component).1).toNat) := by
  cases legal : legalOIDArcPair first (atoi component).1 with
  | false => simp [appendOIDArc, legal]
  | true =>
    have nonneg := (legalOIDArcPair_nonneg legal).2
    simp [appendOIDArc, legal, nonneg, appendOIDComponent_eq]

theorem appendOIDArc_of_two_le {idx : Nat} (behind : 2 ≤ idx) (first : Int) (dst component : Bytes) :
    appendOIDArc idx first dst component =
      if (atoi component).2 = false ∨ (atoi component).1 < 0 ∨
          maxOIDSubIdentifier < (atoi component).1 then none
      else some (first, dst ++ encodeOIDComponent (atoi component).1.toNat) := by
  have notFirst : idx ≠ 0 := by omega
  have notSecond : idx ≠ 1 := by omega
  unfold appendOIDArc
  simp only [notFirst, notSecond, behind, true_and, if_false, appendOIDComponent_eq]
  split_ifs <;> first | rfl | tauto

theorem encodeOIDArcs_cons (part : Bytes) (parts : List Bytes) :
    encodeOIDArcs (part :: parts) =
      if (atoi part).2 = false ∨ (atoi part).1 < 0 ∨ maxOIDSubIdentifier < (atoi part).1 then none
      else (encodeOIDArcs parts).map (encodeOIDComponent (atoi part).1.toNat ++ ·) := rfl

theorem appendOIDParts_eq_arcs (parts : List Bytes) {idx : Nat} (behind : 2 ≤ idx) (first : Int)
    (dst : Bytes) :
    appendOIDParts parts idx first dst = (encodeOIDArcs parts).map (dst ++ ·) := by
  induction parts generalizing idx dst with
  | nil => simp [appendOIDParts, encodeOIDArcs]
  | cons part parts ih =>
    rw [appendOIDParts, appendOIDArc_of_two_le behind, encodeOIDArcs_cons]
    by_cases refused : (atoi part).2 = false ∨ (atoi part).1 < 0 ∨
        (maxOIDSubIdentifier : Int) < (atoi part).1
    · rw [if_pos refused, if_pos refused]
      rfl
    · rw [if_neg refused, if_neg refused, Option.map_map]
      refine (ih (by omega) _).trans (congrArg (Option.map · _) ?_)
      funext tail
      simp

theorem appendOIDParts_eq (dst : Bytes) (part1 part2 : Bytes) (parts : List Bytes) :
    appendOIDParts (part1 :: part2 :: parts) 0 0 dst =
      if (atoi part1).2 = false ∨ (atoi part2).2 = false ∨
          legalOIDArcPair (atoi part1).1 (atoi part2).1 = false then none
      else (encodeOIDArcs parts).map fun tail =>
        dst ++ (encodeOIDComponent (40 * (atoi part1).1 + (atoi part2).1).toNat ++ tail) := by
  rw [appendOIDParts, appendOIDArc_zero]
  by_cases first : (atoi part1).2 = false ∨ (atoi part1).1 < 0
  · have refused : (atoi part1).2 = false ∨ (atoi part2).2 = false ∨
        legalOIDArcPair (atoi part1).1 (atoi part2).1 = false := by
      rcases first with unparsed | negative
      · exact .inl unparsed
      · exact .inr (.inr (Bool.eq_false_iff.mpr fun legal =>
          (legalOIDArcPair_nonneg legal).1 negative))
    rw [if_pos first, if_pos refused]
  · rw [if_neg first]
    change appendOIDParts (part2 :: parts) 1 (atoi part1).1 dst = _
    rw [appendOIDParts, appendOIDArc_one]
    by_cases second : (atoi part2).2 = false ∨
        legalOIDArcPair (atoi part1).1 (atoi part2).1 = false
    · rw [if_pos second, if_pos (.inr second)]
    · have parsed : ¬ ((atoi part1).2 = false ∨ (atoi part2).2 = false ∨
          legalOIDArcPair (atoi part1).1 (atoi part2).1 = false) := by tauto
      rw [if_neg second, if_neg parsed]
      refine (appendOIDParts_eq_arcs parts le_rfl _ _).trans (congrArg (Option.map · _) ?_)
      funext tail
      rw [List.append_assoc]

theorem encodeLength_eq {length : Nat} (bounded : length < 65536) :
    encodeLength length =
      if length < 0x80 then [UInt8.ofNat length]
      else if length < 0x100 then [0x81, UInt8.ofNat length]
      else [0x82, UInt8.ofNat (length / 256), UInt8.ofNat length] := by
  have low : ∀ n : Nat, UInt8.ofNat (n % 256) = UInt8.ofNat n := fun n => by
    apply UInt8.toNat_inj.mp
    simp
  unfold encodeLength
  split_ifs with short one
  · rfl
  · have octets : Octets.ofNat length = [UInt8.ofNat length] := by
      rw [Octets.ofNat_of_pos (by omega), Nat.div_eq_of_lt one, Octets.ofNat_zero, low]
      rfl
    rw [octets]
    rfl
  · have octets : Octets.ofNat length = [UInt8.ofNat (length / 256), UInt8.ofNat length] := by
      rw [Octets.ofNat_of_pos (by omega), Octets.ofNat_of_pos (n := length / 256) (by omega),
        Nat.div_eq_of_lt (show length / 256 < 256 by omega), Octets.ofNat_zero, low, low]
      rfl
    rw [octets]
    rfl

theorem patchOIDLength_eq (dst body : Bytes) (bounded : body.length < 65536) :
    patchOIDLength (dst ++ ([asn1ObjectID] ++ ([0x00] ++ body))) (dst.length + 1) body.length =
      dst ++ encodeTLV asn1ObjectID body := by
  have marked : (dst ++ [asn1ObjectID]).length = dst.length + 1 := by simp
  have assoc : dst ++ encodeTLV asn1ObjectID body =
      (dst ++ [asn1ObjectID]) ++ (encodeLength body.length ++ body) := by
    simp [encodeTLV]
  rw [assoc, ← List.append_assoc dst, ← marked]
  unfold patchOIDLength
  split
  · next short =>
      have written := copyAt_append (dst ++ [asn1ObjectID]) body
        (show [UInt8.ofNat body.length].length = [(0x00 : UInt8)].length from rfl)
      rw [written, encodeLength, if_pos short]
  · next long =>
      have header : (if body.length < 0x100 then [0x81, UInt8.ofNat body.length]
          else [0x82, UInt8.ofNat (body.length / 256), UInt8.ofNat body.length] : Bytes) =
            encodeLength body.length := by
        rw [encodeLength_eq bounded, if_neg long]
      have rest : ((dst ++ [asn1ObjectID]) ++ ([0x00] ++ body)).drop
          ((dst ++ [asn1ObjectID]).length + 1) = body := by
        rw [← List.append_assoc]
        exact List.drop_left' (by simp)
      have room : 1 ≤ (encodeLength body.length).length := by
        rw [encodeLength, if_neg long]
        simp
      simp only [header, rest]
      obtain ⟨left, size, moved⟩ := copyAt_move_up ((dst ++ [asn1ObjectID]) ++ [0x00]) body
        (List.replicate ((encodeLength body.length).length - 1) 0)
      have start : (dst ++ [asn1ObjectID]).length + 1 + ((encodeLength body.length).length - 1) =
          ((dst ++ [asn1ObjectID]) ++ [0x00]).length +
            (List.replicate ((encodeLength body.length).length - 1) (0 : UInt8)).length := by
        simp
      have appended : (dst ++ [asn1ObjectID]) ++ ([0x00] ++ body) ++
          List.replicate ((encodeLength body.length).length - 1) 0 =
            ((dst ++ [asn1ObjectID]) ++ [0x00]) ++
              (body ++ List.replicate ((encodeLength body.length).length - 1) 0) := by
        simp
      have opened : ((dst ++ [asn1ObjectID]) ++ [0x00]) ++ (left ++ body) =
          (dst ++ [asn1ObjectID]) ++ (([0x00] ++ left) ++ body) := by
        simp
      rw [start, appended, moved, opened]
      refine copyAt_append _ _ ?_
      simp only [List.length_append, List.length_singleton, size, List.length_replicate]
      omega

/-- **`appendOID` appends what `encodeOID` returns**, the degenerate form included. -/
theorem appendOID_eq (dst oid : Bytes) : appendOID dst oid = dst ++ encodeOID oid := by
  unfold appendOID encodeOID oidBody encodeOIDParts
  set text := if oid.head? = some dot then oid.tail else oid
  have loop := appendOIDLoop_eq text [] 0 0 (dst ++ [asn1ObjectID] ++ [0x00])
  have keep : (text.splitOn dot).modifyHead ([] ++ ·) = text.splitOn dot := by
    cases text.splitOn dot <;> rfl
  rw [keep] at loop
  have count := length_splitOn text
  simp only [loop, ← count]
  rcases text.splitOn dot with _ | ⟨part1, _ | ⟨part2, parts⟩⟩
  · simp
  · simp
  · have enough : ¬ (part1 :: part2 :: parts).length < 2 := by simp
    rw [if_neg enough, appendOIDParts_eq]
    by_cases refused : (atoi part1).2 = false ∨ (atoi part2).2 = false ∨
        legalOIDArcPair (atoi part1).1 (atoi part2).1 = false
    · simp [refused]
    · simp only [refused, if_false]
      cases arcs : encodeOIDArcs parts with
      | none => simp
      | some tail =>
        simp only [Option.map_some]
        generalize encodeOIDComponent (40 * (atoi part1).1 + (atoi part2).1).toNat ++ tail = body
        have size : (dst ++ [asn1ObjectID] ++ [0x00] ++ body).length - (dst.length + 1 + 1) =
            body.length := by
          simp only [List.length_append, List.length_singleton]
          omega
        rw [size]
        by_cases large : maxOIDBodyBytes < body.length
        · rw [if_pos large, if_pos large]
        · rw [if_neg large, if_neg large, List.append_assoc, List.append_assoc]
          exact patchOIDLength_eq dst body (by unfold maxOIDBodyBytes at large; omega)

/-! ### Patched headers -/

theorem tlvHeader_eq (tag : UInt8) {length : Nat} (bounded : length < 65536) :
    tlvHeader tag length = tag :: encodeLength length := by
  rw [encodeLength_eq bounded, tlvHeader]
  split_ifs <;> rfl

theorem length_tlvHeader (tag : UInt8) (length : Nat) :
    2 ≤ (tlvHeader tag length).length ∧ (tlvHeader tag length).length ≤ tlvHdrReserve := by
  unfold tlvHeader tlvHdrReserve
  split_ifs <;> simp

/-- **`endTLV` puts a header in front of what was appended since `beginTLV`.** -/
theorem endTLV_eq (dst : Bytes) (tag : UInt8) (contents : Bytes) :
    endTLV ((beginTLV dst).1 ++ contents) (beginTLV dst).2 tag =
      dst ++ (tlvHeader tag contents.length ++ contents) := by
  have size : ((beginTLV dst).1 ++ contents).length - (beginTLV dst).2 - tlvHdrReserve =
      contents.length := by
    simp [beginTLV]
  obtain ⟨-, fits⟩ := length_tlvHeader tag contents.length
  unfold endTLV
  simp only [size]
  set hdr := tlvHeader tag contents.length
  -- the reserved octets are the place of the header and a gap
  have reserve : List.replicate tlvHdrReserve (0 : UInt8) =
      List.replicate hdr.length 0 ++ List.replicate (tlvHdrReserve - hdr.length) 0 := by
    rw [← List.replicate_add]
    congr 1
    omega
  have behind : ((beginTLV dst).1 ++ contents).drop ((beginTLV dst).2 + tlvHdrReserve) =
      contents := List.drop_left' (by simp [beginTLV])
  have closed : (if hdr.length < tlvHdrReserve then
      (copyAt ((beginTLV dst).1 ++ contents) ((beginTLV dst).2 + hdr.length)
        (((beginTLV dst).1 ++ contents).drop ((beginTLV dst).2 + tlvHdrReserve))).take
          (((beginTLV dst).1 ++ contents).length - (tlvHdrReserve - hdr.length))
      else (beginTLV dst).1 ++ contents) = dst ++ (List.replicate hdr.length 0 ++ contents) := by
    have whole : (beginTLV dst).1 ++ contents = (dst ++ List.replicate hdr.length 0) ++
        (List.replicate (tlvHdrReserve - hdr.length) 0 ++ contents) := by
      simp only [beginTLV, reserve, List.append_assoc]
    split
    · rw [behind, whole]
      have gap := take_copyAt_gap (dst ++ List.replicate hdr.length 0)
        (List.replicate (tlvHdrReserve - hdr.length) 0) contents
      have place : (beginTLV dst).2 + hdr.length = (dst ++ List.replicate hdr.length (0 : UInt8)).length := by
        simp [beginTLV]
      have rest : ((dst ++ List.replicate hdr.length 0) ++
          (List.replicate (tlvHdrReserve - hdr.length) 0 ++ contents)).length -
            (tlvHdrReserve - hdr.length) =
          (dst ++ List.replicate hdr.length (0 : UInt8)).length + contents.length := by
        simp only [List.length_append, List.length_replicate]
        omega
      rw [place, rest, gap, List.append_assoc]
    · next noGap =>
        have none_left : tlvHdrReserve - hdr.length = 0 := by omega
        rw [whole, none_left]
        simp
  rw [closed]
  exact copyAt_append dst contents (by simp)

end Nl6
