import Nl6.Wire.Encoding

/-! # The identifier codec is a bijection

`encodeOID` and `decodeOID` are inverse to each other between the identifiers the encoder accepts
and the contents the decoder accepts. The contents are described without either function, by
`IsSubID`: a sub-identifier is a run of base-128 octets, highest first, in which exactly the last one
has no continuation bit and the first one is not a zero.
-/

namespace Nl6

open Numeral Checked

/-! ### Minimal base-128 -/

/-- One base-128 digit more. -/
def pushChunk (value : Nat) (octet : UInt8) : Nat := value * 128 + octet.toNat % 128

/-- The octets are the minimal base-128 form of a number. -/
def IsSubID (value : Nat) (octets : Bytes) : Prop :=
  ∃ front last, octets = front ++ [last] ∧ (∀ octet ∈ front, 0x80 ≤ octet.toNat) ∧
    last.toNat < 0x80 ∧ front.head? ≠ some 0x80 ∧ value = octets.foldl pushChunk 0

/-- The octets are one or more minimal sub-identifiers of at most 32 bits. -/
def MinimalSubIDs (octets : Bytes) : Prop :=
  ∃ runs : List (Nat × Bytes), runs ≠ [] ∧ octets = runs.flatMap Prod.snd ∧
    ∀ run ∈ runs, IsSubID run.1 run.2 ∧ run.1 ≤ 2 ^ 32 - 1

theorem le_foldl_pushChunk (octets : Bytes) (value : Nat) :
    value ≤ octets.foldl pushChunk value := by
  induction octets generalizing value with
  | nil => exact le_rfl
  | cons octet rest ih =>
    refine le_trans ?_ (ih (pushChunk value octet))
    rw [pushChunk]
    omega

variable {current : Option Nat} {octets : Bytes} {subIDs : List Nat}

theorem readSubIDs_run {front : Bytes} {last : UInt8} (rest : Bytes)
    (continues : ∀ octet ∈ front, 0x80 ≤ octet.toNat) (ends : last.toNat < 0x80)
    (leading : current = none → front.head? ≠ some 0x80)
    (bounded : (front ++ [last]).foldl pushChunk (current.getD 0) ≤ maxOIDSubIdentifier) :
    readSubIDs current (front ++ last :: rest) =
      (readSubIDs none rest).map ((front ++ [last]).foldl pushChunk (current.getD 0) :: ·) := by
  induction front generalizing current with
  | nil =>
    have notPadding : ¬ last = 0x80 := by
      rintro rfl
      exact absurd ends (by decide)
    have isShort : last < 0x80 := (lt_0x80_iff last).mpr ends
    rw [List.nil_append, List.foldl_cons, List.foldl_nil, pushChunk] at bounded
    have fits : ¬ maxOIDSubIdentifier / 128 < current.getD 0 := by omega
    rw [List.nil_append, readSubIDs]
    simp [notPadding, fits, isShort, pushChunk]
  | cons octet front ih =>
    have isLong : ¬ octet < 0x80 := by
      rw [lt_0x80_iff]
      exact not_lt.mpr (continues octet (by simp))
    have notPadding : ¬ (current = none ∧ octet = 0x80) := by
      rintro ⟨none_before, rfl⟩
      exact leading none_before rfl
    rw [List.cons_append, List.foldl_cons] at bounded
    have grows := le_foldl_pushChunk (front ++ [last]) (pushChunk (current.getD 0) octet)
    have fits : ¬ maxOIDSubIdentifier / 128 < current.getD 0 := by
      have step : current.getD 0 * 128 ≤ pushChunk (current.getD 0) octet := by
        rw [pushChunk]
        omega
      omega
    have moved := @ih (some (pushChunk (current.getD 0) octet))
      (fun o member => continues o (List.mem_cons_of_mem _ member)) (by simp) bounded
    rw [List.cons_append, readSubIDs]
    simp only [notPadding, ↓reduceIte, fits, isLong]
    exact moved

theorem readSubIDs_runs {runs : List (Nat × Bytes)}
    (minimal : ∀ run ∈ runs, IsSubID run.1 run.2 ∧ run.1 ≤ 2 ^ 32 - 1) :
    readSubIDs none (runs.flatMap Prod.snd) = some (runs.map Prod.fst) := by
  induction runs with
  | nil => rfl
  | cons run runs ih =>
    obtain ⟨⟨front, last, split, continues, ends, leading, value⟩, bounded⟩ :=
      minimal run (by simp)
    rw [split] at value
    have read := @readSubIDs_run none front last (runs.flatMap Prod.snd) continues ends
      (fun _ => leading) (by simpa [maxOIDSubIdentifier, ← value] using bounded)
    rw [List.flatMap_cons, split, List.append_assoc, List.singleton_append, read,
      ih fun r member => minimal r (List.mem_cons_of_mem _ member), List.map_cons, value]
    rfl

theorem continued_spec (n : Nat) : (∀ octet ∈ continued n, 0x80 ≤ octet.toNat) ∧
    (continued n).head? ≠ some 0x80 ∧ (continued n).foldl pushChunk 0 = n := by
  induction n using Nat.strong_induction_on with
  | _ n ih =>
    rcases Nat.eq_zero_or_pos n with rfl | positive
    · exact ⟨by simp [continued], by simp [continued], by simp [continued]⟩
    have octet : (UInt8.ofNat (0x80 + n % 128)).toNat = 128 + n % 128 := by
      rw [UInt8.toNat_ofNat']
      omega
    obtain ⟨continues, leading, value⟩ := ih (n / 128) (by omega)
    rw [continued_of_pos positive]
    refine ⟨?_, ?_, ?_⟩
    · intro o member
      rcases List.mem_append.mp member with member | member
      · exact continues o member
      · obtain rfl := List.mem_singleton.mp member
        omega
    · by_cases small : n < 128
      · have none_before : continued (n / 128) = [] := by
          rw [Nat.div_eq_of_lt small]
          rfl
        intro same
        rw [none_before, List.nil_append, List.head?_cons, Option.some.injEq] at same
        have := congrArg UInt8.toNat same
        rw [octet, show (0x80 : UInt8).toNat = 128 from rfl] at this
        omega
      · rw [continued_of_pos (show 0 < n / 128 by omega)] at leading ⊢
        simpa using leading
    · rw [List.foldl_append, value, List.foldl_cons, List.foldl_nil, pushChunk, octet]
      omega

theorem isSubID_encodeOIDComponent (value : Nat) : IsSubID value (encodeOIDComponent value) := by
  by_cases small : value < 0x80
  · have octet : (UInt8.ofNat value).toNat = value := by
      rw [UInt8.toNat_ofNat']
      omega
    refine ⟨[], UInt8.ofNat value, by rw [encodeOIDComponent, if_pos small]; rfl, by simp, by omega,
      by simp, ?_⟩
    rw [encodeOIDComponent, if_pos small, List.foldl_cons, List.foldl_nil, pushChunk, octet]
    omega
  · have octet : (UInt8.ofNat (value % 128)).toNat = value % 128 := by
      rw [UInt8.toNat_ofNat']
      omega
    obtain ⟨continues, leading, front⟩ := continued_spec (value / 128)
    rw [encodeOIDComponent_of_le (not_lt.mp small)]
    refine ⟨_, _, rfl, continues, by omega, leading, ?_⟩
    rw [List.foldl_append, front, List.foldl_cons, List.foldl_nil, pushChunk, octet]
    omega

/-! ### The reader inverts the encoder -/

/-- What is read was written by the encoder: the octets of the sub-identifier begun, and then those
of the sub-identifiers behind it. -/
theorem eq_flatMap_of_readSubIDs (begun : ∀ value ∈ current, 0 < value)
    (read : readSubIDs current octets = some subIDs) :
    current.elim [] continued ++ octets = subIDs.flatMap encodeOIDComponent := by
  induction octets generalizing current subIDs with
  | nil =>
    cases current with
    | none =>
      obtain rfl : [] = subIDs := Option.some.inj read
      rfl
    | some value => simp [readSubIDs] at read
  | cons octet rest ih =>
    have low := octet.toNat_lt
    rw [readSubIDs] at read
    split_ifs at read with leading large last
    · obtain ⟨tail, readTail, rfl⟩ := Option.map_eq_some_iff.mp read
      have short := (lt_0x80_iff octet).mp last
      have more : rest = tail.flatMap encodeOIDComponent := by
        simpa using @ih none tail (by simp) readTail
      have whole : current.elim [] continued ++ [octet] =
          encodeOIDComponent (current.getD 0 * 128 + octet.toNat % 128) := by
        cases current with
        | none =>
          have small : octet.toNat % 128 = octet.toNat := by omega
          simp [encodeOIDComponent, small, show octet.toNat < 128 by omega]
        | some value =>
          have positive := begun value rfl
          have digits : (value * 128 + octet.toNat % 128) / 128 = value ∧
              (value * 128 + octet.toNat % 128) % 128 = octet.toNat := by omega
          rw [Option.getD_some, encodeOIDComponent_of_le (by omega), digits.1, digits.2,
            UInt8.ofNat_toNat]
          rfl
      rw [List.flatMap_cons, ← whole, ← more, List.append_assoc, List.singleton_append]
    · have long : 128 ≤ octet.toNat := by
        rw [lt_0x80_iff] at last
        omega
      have positive : 0 < current.getD 0 * 128 + octet.toNat % 128 := by
        cases current with
        | none =>
          have nonzero : octet.toNat ≠ 128 := by
            intro same
            exact leading ⟨rfl, UInt8.toNat_inj.mp same⟩
          omega
        | some value =>
          have := begun value rfl
          rw [Option.getD_some]
          omega
      have followed := @ih (some (current.getD 0 * 128 + octet.toNat % 128)) subIDs
        (by rintro _ ⟨⟩; exact positive) read
      have digits : (current.getD 0 * 128 + octet.toNat % 128) / 128 = current.getD 0 ∧
          0x80 + (current.getD 0 * 128 + octet.toNat % 128) % 128 = octet.toNat := by omega
      have front : current.elim [] continued = continued (current.getD 0) := by
        cases current with
        | none => simp [continued]
        | some value => rfl
      rw [← followed, Option.elim_some, continued_of_pos positive, digits.1, digits.2,
        UInt8.ofNat_toNat, front, List.append_assoc, List.singleton_append]

theorem eq_flatMap_of_read (read : readSubIDs none octets = some subIDs) :
    octets = subIDs.flatMap encodeOIDComponent :=
  eq_flatMap_of_readSubIDs (by simp) read

/-! ### The bijection -/

theorem decodeArcs_eq_some_iff {arcs : List Nat} :
    decodeArcs octets = some arcs ↔
      ∃ subIDs, subIDs ≠ [] ∧ readSubIDs none octets = some subIDs ∧ splitSubIDs subIDs = arcs := by
  rw [decodeArcs]
  constructor
  · intro decoded
    split_ifs at decoded with empty
    obtain ⟨subIDs, read, split⟩ := Option.map_eq_some_iff.mp decoded
    exact ⟨subIDs, readSubIDs_ne_nil (.inr empty) read, read, split⟩
  · rintro ⟨subIDs, some_ids, read, rfl⟩
    have nonempty : octets ≠ [] := by
      rintro rfl
      exact some_ids (Option.some.inj read).symm
    rw [if_neg nonempty, read, Option.map_some]

theorem decodeOID_eq_ok_iff {oid : Bytes} (nonempty : oid ≠ []) :
    decodeOID octets = .ok oid ↔ ∃ arcs, decodeArcs octets = some arcs ∧ oid = dotted arcs := by
  rw [decodeOID_eq, Except.ok.injEq]
  cases decodeArcs octets with
  | none => simp [nonempty.symm]
  | some arcs => simp [eq_comm]

theorem splitSubIDs_injective {left right : List Nat}
    (same : splitSubIDs left = splitSubIDs right) : left = right := by
  cases left with
  | nil =>
    cases right with
    | nil => rfl
    | cons head tail => simp [splitSubIDs] at same
  | cons head tail =>
    cases right with
    | nil => simp [splitSubIDs] at same
    | cons head' tail' =>
      simp only [splitSubIDs, List.cons.injEq] at same
      obtain ⟨first, second, rfl⟩ := same
      congr 1
      omega

theorem encodeOIDArcs_itoa {arcs : List Nat} (bounded : ∀ arc ∈ arcs, arc ≤ maxOIDSubIdentifier) :
    encodeOIDArcs (arcs.map itoa) = some (arcs.flatMap encodeOIDComponent) := by
  induction arcs with
  | nil => rfl
  | cons arc arcs ih =>
    have inside := bounded arc (by simp)
    have accepted : ¬ (true = false ∨ (arc : Int) < 0 ∨ (maxOIDSubIdentifier : Int) < arc) := by
      simp only [reduceCtorEq, false_or]
      omega
    have below : arc < 2 ^ 63 := by
      simp only [maxOIDSubIdentifier] at inside
      omega
    rw [List.map_cons, encodeOIDArcs, atoi_itoa below]
    simp only [accepted, ↓reduceIte, ih fun a member => bounded a (List.mem_cons_of_mem _ member),
      Option.map_some, Int.toNat_natCast, List.flatMap_cons]

theorem legalOIDArcPair_split {head : Nat} (bounded : head ≤ maxOIDSubIdentifier) :
    legalOIDArcPair (min (head / 40) 2 : Nat) (head - 40 * min (head / 40) 2 : Nat) = true := by
  rw [legalOIDArcPair, if_neg (by omega), if_neg (by omega), decide_eq_true_iff]
  omega

theorem oidBody_splitSubIDs (nonempty : subIDs ≠ [])
    (bounded : ∀ v ∈ subIDs, v ≤ maxOIDSubIdentifier)
    (short : (subIDs.flatMap encodeOIDComponent).length ≤ maxOIDBodyBytes) :
    oidBody (dotted (splitSubIDs subIDs)) = some (subIDs.flatMap encodeOIDComponent) := by
  obtain ⟨head, tail, rfl⟩ := List.exists_cons_of_ne_nil nonempty
  have headBound := bounded head (by simp)
  have parts : encodeOIDParts (dotted (splitSubIDs (head :: tail))) =
      (splitSubIDs (head :: tail)).map itoa :=
    (encodeOIDParts_dotted (by simp [splitSubIDs])).1
  rw [oidBody, parts, splitSubIDs, List.map_cons, List.map_cons]
  have limits : min (head / 40) 2 < 2 ^ 63 ∧ head - 40 * min (head / 40) 2 < 2 ^ 63 := by
    simp only [maxOIDSubIdentifier] at headBound
    omega
  have pair : (40 * ((min (head / 40) 2 : Nat) : Int) +
      ((head - 40 * min (head / 40) 2 : Nat) : Int)).toNat = head := by omega
  simp only [atoi_itoa limits.1, atoi_itoa limits.2, legalOIDArcPair_split headBound,
    Bool.true_eq_false, or_self, ↓reduceIte,
    encodeOIDArcs_itoa fun a member => bounded a (List.mem_cons_of_mem _ member), pair]
  rw [List.flatMap_cons] at short ⊢
  rw [if_neg (not_lt.mpr short)]

theorem atoi_of_oidBody {oid body : Bytes} (encoded : oidBody oid = some body) :
    ∀ part ∈ encodeOIDParts oid, (atoi part).2 = true := by
  have arcs : ∀ {parts : List Bytes} {tail : Bytes}, encodeOIDArcs parts = some tail →
      ∀ part ∈ parts, (atoi part).2 = true := by
    intro parts
    induction parts with
    | nil => simp
    | cons first parts ih =>
      intro tail written
      simp only [encodeOIDArcs] at written
      split_ifs at written with refused
      obtain ⟨more, writtenMore, -⟩ := Option.map_eq_some_iff.mp written
      simp only [not_or, Bool.not_eq_false] at refused
      rintro part (_ | ⟨_, member⟩)
      · exact refused.1
      · exact ih writtenMore part member
  rw [oidBody] at encoded
  split at encoded
  · rename_i part1 part2 parts split
    simp only at encoded
    split_ifs at encoded with refused
    simp only [not_or, Bool.not_eq_false] at refused
    split at encoded
    · cases encoded
    · rename_i tail written
      rw [split]
      rintro part (_ | ⟨_, _ | ⟨_, member⟩⟩)
      · exact refused.1
      · exact refused.2.1
      · exact arcs written part member
  · cases encoded

theorem lt_of_atoi_itoa {n : Nat} (parsed : (atoi (itoa n)).2 = true) : n < 2 ^ 63 := by
  by_contra large
  have digits : ∀ c ∈ itoa n, isDigit c = true := fun c => isDigit_of_mem_itoa
  have all : (itoa n).all isDigit = true := List.all_eq_true.mpr digits
  have outside : ¬ (n : Int) < 2 ^ 63 := by exact_mod_cast large
  simp only [atoi, splitSign_of_digits digits, itoa_ne_nil, all, Bool.true_eq_false, or_self,
    ↓reduceIte, readDigits_itoa, outside, Bool.false_eq_true] at parsed

/-- **The identifier codec is a bijection.** Encoding inverts decoding on every content of at most
65535 octets, decoding inverts encoding on every list of arcs the encoder accepts, the decoder
accepts exactly the minimal base-128 contents, and no two contents decode to the same identifier. -/
theorem oid_codec_bijective :
    (∀ octets oid : Bytes, octets.length ≤ 65535 → oid ≠ [] → decodeOID octets = .ok oid →
      encodeOID oid = encodeTLV asn1ObjectID octets) ∧
    (∀ arcs : List Nat, 2 ≤ arcs.length → ∀ text ∈ [dotted arcs, (dotted arcs).tail],
      encodableAsOID text = true → ∃ content, encodeOID text = encodeTLV asn1ObjectID content ∧
        decodeOID content = .ok (dotted arcs)) ∧
    (∀ octets : Bytes, (∃ oid, oid ≠ [] ∧ decodeOID octets = .ok oid) ↔ MinimalSubIDs octets) ∧
    (∀ octets octets' oid : Bytes, oid ≠ [] → decodeOID octets = .ok oid →
      decodeOID octets' = .ok oid → octets = octets') := by
  refine ⟨?_, ?_, ?_, ?_⟩
  · intro octets oid short nonempty decoded
    obtain ⟨arcs, decodedArcs, rfl⟩ := (decodeOID_eq_ok_iff nonempty).mp decoded
    obtain ⟨subIDs, some_ids, read, rfl⟩ := decodeArcs_eq_some_iff.mp decodedArcs
    have whole := eq_flatMap_of_read read
    have body := oidBody_splitSubIDs some_ids (readSubIDs_le read) (whole ▸ short)
    rw [encodeOID, body, ← whole]
  · intro arcs two text spelled encodable
    have some_arcs : arcs ≠ [] := by
      rintro rfl
      simp at two
    obtain ⟨content, body⟩ := (encodableAsOID_iff text).mp encodable
    have parts : encodeOIDParts text = arcs.map itoa := by
      obtain ⟨dottedParts, tailParts⟩ := encodeOIDParts_dotted some_arcs
      simp only [List.mem_cons, List.not_mem_nil, or_false] at spelled
      rcases spelled with rfl | rfl
      · exact dottedParts
      · exact tailParts
    have bounded : ∀ arc ∈ arcs, arc < 2 ^ 63 := fun arc member =>
      lt_of_atoi_itoa (atoi_of_oidBody body _ (parts ▸ List.mem_map_of_mem member))
    refine ⟨content, by rw [encodeOID, body], ?_⟩
    rw [decodeOID_oidBody body, canonicalOID, oidArcs, parts, map_partArc_itoa bounded]
  · intro octets
    constructor
    · rintro ⟨oid, nonempty, decoded⟩
      obtain ⟨arcs, decodedArcs, -⟩ := (decodeOID_eq_ok_iff nonempty).mp decoded
      obtain ⟨subIDs, some_ids, read, -⟩ := decodeArcs_eq_some_iff.mp decodedArcs
      refine ⟨subIDs.map fun v => (v, encodeOIDComponent v), by simpa using some_ids, ?_, ?_⟩
      · rw [List.flatMap_map]
        exact eq_flatMap_of_read read
      · intro run member
        obtain ⟨v, inside, rfl⟩ := List.mem_map.mp member
        exact ⟨isSubID_encodeOIDComponent v, readSubIDs_le read v inside⟩
    · rintro ⟨runs, some_runs, rfl, minimal⟩
      have decoded := decodeArcs_eq_some_iff.mpr
        ⟨runs.map Prod.fst, by simpa using some_runs, readSubIDs_runs minimal, rfl⟩
      have nonempty : dotted (splitSubIDs (runs.map Prod.fst)) ≠ [] := by
        simpa using decodeArcs_ne_nil decoded
      exact ⟨_, nonempty, (decodeOID_eq_ok_iff nonempty).mpr ⟨_, decoded, rfl⟩⟩
  · intro octets octets' oid nonempty decoded decoded'
    obtain ⟨arcs, decodedArcs, rfl⟩ := (decodeOID_eq_ok_iff nonempty).mp decoded
    obtain ⟨arcs', decodedArcs', same⟩ := (decodeOID_eq_ok_iff nonempty).mp decoded'
    obtain rfl := dotted_injective same
    obtain ⟨subIDs, -, read, rfl⟩ := decodeArcs_eq_some_iff.mp decodedArcs
    obtain ⟨subIDs', -, read', split⟩ := decodeArcs_eq_some_iff.mp decodedArcs'
    obtain rfl := splitSubIDs_injective split
    rw [eq_flatMap_of_read read, eq_flatMap_of_read read']

end Nl6
