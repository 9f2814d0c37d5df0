import Nl6.Wire.Read

/-! # Object identifiers on the wire

`decodeOID` reads the contents of an OBJECT IDENTIFIER. `decodeOID_eq` reduces it to a pure reading
of the octets, and `decodeOID_oidBody` reads back what `encodeOID` writes: the dotted form of the
arcs, with the leading dot.
-/

namespace Nl6

open Numeral Checked

/-- The loops of `decodeOID`: the sub-identifiers, or nothing when the octets are malformed. The
state is the value of the sub-identifier begun, if any. -/
def readSubIDs : Option Nat → Bytes → Option (List Nat)
  | none, [] => some []
  | some _, [] => none
  | current, octet :: rest =>
    -- a sub-identifier is encoded minimally, so it never starts with 0x80
    if current = none ∧ octet = 0x80 then none
    else if maxOIDSubIdentifier / 128 < current.getD 0 then none
    else
      let value := current.getD 0 * 128 + octet.toNat % 128
      if octet < 0x80 then (readSubIDs none rest).map (value :: ·)
      else readSubIDs (some value) rest

/-- `decodeOID`: the dotted form, empty when the octets are no identifier. -/
def decodeOID (oidBytes : Bytes) : Checked Bytes := do
  if oidBytes = [] then return []
  match readSubIDs none oidBytes with
  | none => return []
  | some subIDs =>
    let head ← index subIDs 0
    let first := min (head / 40) 2
    let second := head - 40 * first
    let tail ← slice subIDs 1 subIDs.length
    return dotted (first :: second :: tail)

/-- The arcs a list of sub-identifiers stands for: the first one carries two. -/
def splitSubIDs : List Nat → List Nat
  | [] => []
  | head :: tail => min (head / 40) 2 :: (head - 40 * min (head / 40) 2) :: tail

/-- The arcs of the contents of an OBJECT IDENTIFIER. -/
def decodeArcs (oidBytes : Bytes) : Option (List Nat) :=
  if oidBytes = [] then none else (readSubIDs none oidBytes).map splitSubIDs

variable {current : Option Nat} {arcs : List Nat}

theorem readSubIDs_ne_nil {octets : Bytes} {subIDs : List Nat}
    (some_octets : current.isSome ∨ octets ≠ []) (read : readSubIDs current octets = some subIDs) :
    subIDs ≠ [] := by
  induction octets generalizing current with
  | nil =>
    cases current with
    | none => simp at some_octets
    | some value => simp [readSubIDs] at read
  | cons octet rest ih =>
    rw [readSubIDs] at read
    split_ifs at read with leading large last
    · obtain ⟨tail, -, rfl⟩ := Option.map_eq_some_iff.mp read
      simp
    · exact ih (.inl rfl) read

/-- **Decoding never leaves its operand.** The decoder returns, with the dotted form of the arcs. -/
theorem decodeOID_eq (oidBytes : Bytes) :
    decodeOID oidBytes = .ok ((decodeArcs oidBytes).elim [] dotted) := by
  by_cases empty : oidBytes = []
  · simp [decodeOID, decodeArcs, empty]
  cases read : readSubIDs none oidBytes with
  | none => simp [decodeOID, decodeArcs, empty, read]
  | some subIDs =>
    obtain ⟨head, tail, rfl⟩ :=
      List.exists_cons_of_ne_nil (readSubIDs_ne_nil (.inr empty) read)
    have behind : slice (head :: tail) 1 ((head :: tail).length : Int) = .ok tail :=
      ((At.start (head :: tail)).step).toEnd
    simp only [decodeOID, empty, ↓reduceIte, read, (At.start (head :: tail)).index, ok_bind, behind,
      pure_eq_ok, decodeArcs, Option.map_some, splitSubIDs, Option.elim_some]

theorem decodeArcs_ne_nil {oidBytes : Bytes} (decoded : decodeArcs oidBytes = some arcs) :
    arcs ≠ [] := by
  rw [decodeArcs] at decoded
  split_ifs at decoded with empty
  obtain ⟨subIDs, read, rfl⟩ := Option.map_eq_some_iff.mp decoded
  obtain ⟨head, tail, rfl⟩ := List.exists_cons_of_ne_nil (readSubIDs_ne_nil (.inr empty) read)
  simp [splitSubIDs]

theorem readSubIDs_le {octets : Bytes} {subIDs : List Nat}
    (read : readSubIDs current octets = some subIDs) : ∀ v ∈ subIDs, v ≤ maxOIDSubIdentifier := by
  induction octets generalizing current subIDs with
  | nil =>
    cases current with
    | none =>
      obtain rfl : [] = subIDs := Option.some.inj read
      simp
    | some value => simp [readSubIDs] at read
  | cons octet rest ih =>
    rw [readSubIDs] at read
    split_ifs at read with leading large last
    · obtain ⟨tail, readTail, rfl⟩ := Option.map_eq_some_iff.mp read
      rintro v (_ | ⟨_, member⟩)
      · simp only [maxOIDSubIdentifier] at large ⊢
        omega
      · exact ih readTail v member
    · exact ih read

theorem isOID_of_decodeArcs {oidBytes : Bytes} (decoded : decodeArcs oidBytes = some arcs) :
    IsOID (dotted arcs) := by
  refine ⟨arcs, decodeArcs_ne_nil decoded, ?_, rfl⟩
  rw [decodeArcs] at decoded
  split_ifs at decoded with empty
  obtain ⟨subIDs, read, rfl⟩ := Option.map_eq_some_iff.mp decoded
  have bounded := readSubIDs_le read
  intro arc member
  have limit : arc ≤ maxOIDSubIdentifier := by
    cases subIDs with
    | nil => simp [splitSubIDs] at member
    | cons head tail =>
      have headBound := bounded head (by simp)
      simp only [splitSubIDs, List.mem_cons] at member
      rcases member with rfl | rfl | member
      · simp only [maxOIDSubIdentifier]
        omega
      · omega
      · exact bounded arc (List.mem_cons_of_mem _ member)
  simp only [maxOIDSubIdentifier, arcLimit] at limit ⊢
  omega

/-! ### Reading back what the encoder writes -/

/-- The continuation octets of a number: its base-128 digits, highest first. -/
def continued (n : Nat) : Bytes :=
  (Nat.digits 128 n).reverse.map fun chunk => UInt8.ofNat (0x80 + chunk)

theorem continued_of_pos {n : Nat} (positive : 0 < n) :
    continued n = continued (n / 128) ++ [UInt8.ofNat (0x80 + n % 128)] := by
  rw [continued, Nat.digits_def' (by decide) positive]
  simp [continued]

theorem encodeOIDComponent_of_le {value : Nat} (large : 0x80 ≤ value) :
    encodeOIDComponent value = continued (value / 128) ++ [UInt8.ofNat (value % 128)] := by
  have long : ¬ value < 0x80 := by omega
  rw [encodeOIDComponent, if_neg long, Nat.digits_def' (by decide) (by omega)]
  rfl

private theorem readSubIDs_continued {n : Nat} (positive : 0 < n)
    (bounded : n ≤ maxOIDSubIdentifier / 128) (rest : Bytes) :
    readSubIDs none (continued n ++ rest) = readSubIDs (some n) rest := by
  induction n using Nat.strong_induction_on generalizing rest with
  | _ n ih =>
    have octet : (UInt8.ofNat (0x80 + n % 128)).toNat = 128 + n % 128 := by
      rw [UInt8.toNat_ofNat']
      omega
    have isLong : ¬ UInt8.ofNat (0x80 + n % 128) < 0x80 := by
      rw [lt_0x80_iff, octet]
      omega
    rw [continued_of_pos positive, List.append_assoc, List.singleton_append]
    by_cases small : n < 128
    · have none_before : continued (n / 128) = [] := by
        rw [Nat.div_eq_of_lt small]
        rfl
      have notPadding : ¬ UInt8.ofNat (0x80 + n % 128) = 0x80 := by
        intro same
        have := congrArg UInt8.toNat same
        rw [octet, show (0x80 : UInt8).toNat = 128 from rfl] at this
        omega
      rw [none_before, List.nil_append, readSubIDs]
      simp only [notPadding, and_false, ↓reduceIte, Option.getD_none, Nat.not_lt_zero, isLong, octet]
      congr 2
      omega
    · rw [ih (n / 128) (by omega) (by omega) (by omega), readSubIDs]
      have fits : ¬ maxOIDSubIdentifier / 128 < n / 128 := by omega
      simp only [reduceCtorEq, false_and, ↓reduceIte, Option.getD_some, fits, isLong, octet]
      congr 2
      omega

theorem readSubIDs_encodeOIDComponent {value : Nat} (bounded : value ≤ maxOIDSubIdentifier)
    (rest : Bytes) :
    readSubIDs none (encodeOIDComponent value ++ rest) =
      (readSubIDs none rest).map (value :: ·) := by
  by_cases small : value < 0x80
  · have octet : (UInt8.ofNat value).toNat = value := by
      rw [UInt8.toNat_ofNat']
      omega
    have isShort : UInt8.ofNat value < 0x80 := by rwa [lt_0x80_iff, octet]
    have notPadding : ¬ UInt8.ofNat value = 0x80 := by
      intro same
      rw [same] at isShort
      exact absurd isShort (by decide)
    rw [encodeOIDComponent, if_pos small, List.singleton_append, readSubIDs]
    have low : value % 128 = value := by omega
    simp only [notPadding, and_false, ↓reduceIte, Option.getD_none, Nat.not_lt_zero, isShort, octet,
      low, zero_mul, zero_add]
  · have octet : (UInt8.ofNat (value % 128)).toNat = value % 128 := by
      rw [UInt8.toNat_ofNat']
      omega
    have isShort : UInt8.ofNat (value % 128) < 0x80 := by
      rw [lt_0x80_iff, octet]
      omega
    have fits : value / 128 ≤ maxOIDSubIdentifier / 128 := Nat.div_le_div_right bounded
    rw [encodeOIDComponent_of_le (by omega), List.append_assoc, List.singleton_append,
      readSubIDs_continued (by omega) fits, readSubIDs]
    have whole : value / 128 * 128 + value % 128 % 128 = value := by omega
    simp only [reduceCtorEq, false_and, ↓reduceIte, Option.getD_some, not_lt.mpr fits, isShort,
      octet, whole]

theorem encodeOIDComponent_ne_nil (value : Nat) : encodeOIDComponent value ≠ [] := by
  by_cases small : value < 0x80
  · simp [encodeOIDComponent, small]
  · simp [encodeOIDComponent_of_le (not_lt.mp small)]

/-- The arc a part of an identifier's text denotes. -/
def partArc (part : Bytes) : Nat := (atoi part).1.toNat

/-- The arcs of an identifier's text, with or without the leading dot. -/
def oidArcs (oid : Bytes) : List Nat := (encodeOIDParts oid).map partArc

/-- The canonical text of an identifier: its arcs in decimal, each behind a dot. -/
def canonicalOID (oid : Bytes) : Bytes := dotted (oidArcs oid)

private theorem readSubIDs_encodeOIDArcs {parts : List Bytes} {tail : Bytes}
    (encoded : encodeOIDArcs parts = some tail) :
    readSubIDs none tail = some (parts.map partArc) := by
  induction parts generalizing tail with
  | nil =>
    obtain rfl : [] = tail := Option.some.inj encoded
    rfl
  | cons part parts ih =>
    obtain ⟨value, parsed, read⟩ : ∃ value parsed, atoi part = (value, parsed) := ⟨_, _, rfl⟩
    simp only [encodeOIDArcs, read] at encoded
    split_ifs at encoded with refused
    obtain ⟨more, encodedMore, rfl⟩ := Option.map_eq_some_iff.mp encoded
    have fits : value.toNat ≤ maxOIDSubIdentifier := by
      omega
    rw [readSubIDs_encodeOIDComponent fits, ih encodedMore, List.map_cons, partArc, read]
    rfl

private theorem splitSubIDs_of_legal {first second : Int} (legal : legalOIDArcPair first second = true)
    (tail : List Nat) :
    (40 * first + second).toNat ≤ maxOIDSubIdentifier ∧
      splitSubIDs ((40 * first + second).toNat :: tail) = first.toNat :: second.toNat :: tail := by
  rw [legalOIDArcPair] at legal
  split_ifs at legal with outside wide
  simp only [not_or, not_lt, not_and, decide_eq_true_eq] at outside wide legal
  refine ⟨by omega, ?_⟩
  have first_eq : min ((40 * first + second).toNat / 40) 2 = first.toNat := by omega
  rw [splitSubIDs, first_eq]
  congr 2
  omega

/-- **Round trip.** What `encodeOID` writes for a text it can represent decodes to the text's
canonical form. -/
theorem decodeArcs_oidBody {oid body : Bytes} (encoded : oidBody oid = some body) :
    decodeArcs body = some (oidArcs oid) ∧ body ≠ [] ∧ body.length ≤ maxOIDBodyBytes := by
  rw [oidBody] at encoded
  split at encoded
  · rename_i part1 part2 parts split
    obtain ⟨first, parsed1, read1⟩ : ∃ value parsed, atoi part1 = (value, parsed) := ⟨_, _, rfl⟩
    obtain ⟨second, parsed2, read2⟩ : ∃ value parsed, atoi part2 = (value, parsed) := ⟨_, _, rfl⟩
    simp only [read1, read2] at encoded
    split_ifs at encoded with refused
    cases encodedTail : encodeOIDArcs parts with
    | none => simp [encodedTail] at encoded
    | some tail =>
      simp only [encodedTail] at encoded
      split_ifs at encoded with large
      cases encoded
      simp only [not_or, Bool.not_eq_false] at refused
      obtain ⟨fits, pair⟩ := splitSubIDs_of_legal refused.2.2 (parts.map partArc)
      have nonempty : encodeOIDComponent (40 * first + second).toNat ++ tail ≠ [] := by
        simp [encodeOIDComponent_ne_nil]
      refine ⟨?_, nonempty, not_lt.mp large⟩
      rw [decodeArcs, if_neg nonempty, readSubIDs_encodeOIDComponent fits,
        readSubIDs_encodeOIDArcs encodedTail, Option.map_some, Option.map_some, pair, oidArcs,
        split, List.map_cons, List.map_cons, partArc, partArc, read1, read2]
  · exact absurd encoded nofun

theorem decodeOID_oidBody {oid body : Bytes} (encoded : oidBody oid = some body) :
    decodeOID body = .ok (canonicalOID oid) := by
  rw [decodeOID_eq, (decodeArcs_oidBody encoded).1, Option.elim_some, canonicalOID]

theorem encodableAsOID_iff (oid : Bytes) :
    encodableAsOID oid = true ↔ ∃ body, oidBody oid = some body := by
  rw [encodableAsOID, decide_eq_true_iff, encodeOID]
  cases encoded : oidBody oid with
  | none => simp
  | some body =>
    obtain ⟨first, rest, rfl⟩ := List.exists_cons_of_ne_nil (decodeArcs_oidBody encoded).2.1
    refine iff_of_true (fun degenerate => ?_) ⟨_, rfl⟩
    have short := congrArg List.length degenerate
    have octets : 0 < (encodeLength (first :: rest).length).length := by
      rw [encodeLength]
      split <;> simp
    simp only [encodeTLV, List.length_cons, List.length_append, List.length_nil] at short octets
    omega

/-- The parts of an identifier's text are its arcs in decimal, with and without the leading dot. -/
theorem encodeOIDParts_dotted (nonempty : arcs ≠ []) :
    encodeOIDParts (dotted arcs) = arcs.map itoa ∧
      encodeOIDParts (dotted arcs).tail = arcs.map itoa := by
  obtain ⟨first, rest, rfl⟩ := List.exists_cons_of_ne_nil nonempty
  have split : (itoa first ++ dotted rest).splitOn dot = (first :: rest).map itoa := by
    have parts := oidParts_dotted (first :: rest)
    simpa [oidParts] using parts
  have undotted : (itoa first ++ dotted rest).head? ≠ some dot := by
    intro starts
    obtain ⟨digit, more, same⟩ := List.exists_cons_of_ne_nil (itoa_ne_nil first)
    have isDigit := isDigit_of_mem_itoa (show digit ∈ itoa first by simp [same])
    rw [same, List.cons_append, List.head?_cons, Option.some.injEq] at starts
    exact absurd isDigit (by simp [starts])
  constructor
  · rw [encodeOIDParts, dotted_cons, List.head?_cons, if_pos rfl, List.tail_cons, split]
  · rw [encodeOIDParts, dotted_cons, List.tail_cons, if_neg undotted, split]

theorem map_partArc_itoa (bounded : ∀ arc ∈ arcs, arc < 2 ^ 63) :
    (arcs.map itoa).map partArc = arcs := by
  rw [List.map_map]
  refine List.map_congr_left (fun arc member => ?_) |>.trans (List.map_id _)
  rw [Function.comp_apply, partArc, atoi_itoa (bounded arc member)]
  rfl

theorem canonicalOID_dotted (nonempty : arcs ≠ []) (bounded : ∀ arc ∈ arcs, arc < 2 ^ 63) :
    canonicalOID (dotted arcs) = dotted arcs ∧ canonicalOID (dotted arcs).tail = dotted arcs := by
  obtain ⟨whole, tail⟩ := encodeOIDParts_dotted nonempty
  constructor
  · rw [canonicalOID, oidArcs, whole, map_partArc_itoa bounded]
  · rw [canonicalOID, oidArcs, tail, map_partArc_itoa bounded]

end Nl6
