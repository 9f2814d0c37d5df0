import Nl6.Lib.Ber
import Nl6.Lib.Checked
import Nl6.Wire.Encode

/-! # The primitive readers

`parseLength`, `parseBERInt` and `skipLength` read untrusted bytes at a cursor. A specification
covers every buffer and every cursor (`parseLength_spec`, `parseBERInt_spec`), and an execution
lemma says what is read where the bytes are well formed (`parseLength_at`, `parseBERInt_at`), so
that the walkers above need not look inside.
-/

namespace Nl6

open Numeral Checked

/-! ### Lengths -/

/-- The accumulation loop of `parseLength`. It runs at most four times, so the 32-bit accumulator
does not wrap. -/
def accumulateLength (data : Bytes) : Nat → Int → Nat → Checked (Nat × Int)
  | 0, pos, acc => .ok (acc, pos)
  | count + 1, pos, acc => do
      let octet ← index data pos
      accumulateLength data count (pos + 1) (acc * 256 + octet.toNat)

/-- `parseLength`: the declared length, or `-1`, and the cursor behind what was read. -/
def parseLength (data : Bytes) (pos : Int) : Checked (Int × Int) := do
  if pos ≥ data.length then return (-1, pos)
  let first ← index data pos
  let pos := pos + 1
  if first < 0x80 then return (first.toNat, pos)
  let lengthBytes := first.toNat % 0x80
  if lengthBytes = 0 ∨ lengthBytes > 4 ∨ pos + lengthBytes > data.length then return (-1, pos)
  let (acc, pos) ← accumulateLength data lengthBytes pos 0
  if acc > 2 ^ 31 - 1 then return (-1, pos)
  return (acc, pos)

variable {data octets rest : Bytes} {pos : Int}

theorem accumulateLength_at (here : At data pos (octets ++ rest)) (front : Bytes) :
    accumulateLength data octets.length pos (Octets.value front) =
      .ok (Octets.value (front ++ octets), pos + octets.length) := by
  induction octets generalizing pos front with
  | nil => simp [accumulateLength]
  | cons octet octets ih =>
    have first : At data pos (octet :: (octets ++ rest)) := here
    rw [List.length_cons, accumulateLength, first.index, ok_bind,
      ← Octets.value_append_singleton, ih first.step (front ++ [octet])]
    simp only [List.append_assoc, List.singleton_append, Except.ok.injEq, Prod.mk.injEq, true_and]
    push_cast
    ring

theorem lt_0x80_iff (octet : UInt8) : octet < 0x80 ↔ octet.toNat < 128 :=
  UInt8.lt_iff_toNat_lt

theorem parseLength_at {length : Nat} (here : At data pos (octets ++ rest))
    (spelled : Ber.IsLength octets length) :
    parseLength data pos = .ok ((length : Int), pos + octets.length) := by
  cases spelled with
  | @short first small =>
    have head : At data pos (first :: rest) := here
    have inside : ¬ pos ≥ data.length := not_le.mpr head.lt_length
    simp [parseLength, inside, head.index, lt_0x80_iff, small]
  | @long first octets counts nonempty few bounded =>
    have head : At data pos (first :: (octets ++ rest)) := here
    have inside : ¬ pos ≥ data.length := not_le.mpr head.lt_length
    have isLong : ¬ first.toNat < 128 := by omega
    have count : first.toNat % 0x80 = octets.length := by omega
    have positive := List.length_pos_iff.mpr nonempty
    have fits : ¬ (octets.length = 0 ∨ octets.length > 4 ∨
        pos + 1 + octets.length > data.length) := by
      have total := head.step.length_eq
      rw [List.length_append] at total
      omega
    have small : ¬ Octets.value octets > 2 ^ 31 - 1 := by omega
    have read := accumulateLength_at head.step []
    rw [Octets.value_nil, List.nil_append] at read
    simp only [parseLength, inside, head.index, ok_bind, lt_0x80_iff, isLong, count, fits, read,
      small, ↓reduceIte, pure_eq_ok, List.length_cons, Except.ok.injEq, Prod.mk.injEq, true_and]
    push_cast
    ring

/-- **Reading a length.** Whatever the buffer, the reader returns; it either reports `-1` or has
read a well-formed length. The cursor never moves back, nor out of the buffer. -/
theorem parseLength_spec (data : Bytes) (nonneg : 0 ≤ pos) :
    Yields (parseLength data pos) fun (length, next) =>
      pos ≤ next ∧ (pos ≤ data.length → next ≤ data.length) ∧
      (length = -1 ∨ 0 ≤ length ∧ ∃ octets rest, Ber.IsLength octets length.toNat ∧
        At data pos (octets ++ rest) ∧ next = pos + octets.length) := by
  by_cases beyond : pos ≥ data.length
  · simp [parseLength, beyond]
  obtain ⟨first, rest, here⟩ := At.of_lt nonneg (not_le.mp beyond)
  by_cases isShort : first.toNat < 128
  · have spelled : Ber.IsLength [first] first.toNat := .short isShort
    have whole : At data pos ([first] ++ rest) := here
    rw [parseLength_at whole spelled]
    exact .ok ⟨by simp, fun _ => by simp; omega, Or.inr ⟨by omega, [first], rest,
      by simpa using spelled, here, rfl⟩⟩
  by_cases unreadable : first.toNat % 0x80 = 0 ∨ first.toNat % 0x80 > 4 ∨
      pos + 1 + (first.toNat % 0x80 : Nat) > data.length
  · simp only [parseLength, beyond, here.index, ok_bind, lt_0x80_iff, isShort, unreadable,
      ↓reduceIte, pure_eq_ok, Yields.ok_iff]
    exact ⟨by omega, fun _ => by omega, Or.inl trivial⟩
  · -- the octets the count announces are all there
    have total := here.step.length_eq
    have split : rest.take (first.toNat % 0x80) ++ rest.drop (first.toNat % 0x80) = rest :=
      List.take_append_drop _ _
    have counted : (rest.take (first.toNat % 0x80)).length = first.toNat % 0x80 := by
      rw [List.length_take]
      omega
    have behind : At data (pos + 1) (rest.take (first.toNat % 0x80) ++
        rest.drop (first.toNat % 0x80)) := split.symm ▸ here.step
    have read := accumulateLength_at behind []
    rw [counted, Octets.value_nil, List.nil_append] at read
    by_cases large : Octets.value (rest.take (first.toNat % 0x80)) > 2 ^ 31 - 1
    · simp only [parseLength, beyond, here.index, ok_bind, lt_0x80_iff, isShort, unreadable, read,
        large, ↓reduceIte, pure_eq_ok, Yields.ok_iff]
      exact ⟨by omega, fun _ => by omega, Or.inl trivial⟩
    · have octet := first.toNat_lt
      have spelled : Ber.IsLength (first :: rest.take (first.toNat % 0x80))
          (Octets.value (rest.take (first.toNat % 0x80))) :=
        .long (by omega) (List.ne_nil_of_length_pos (by omega)) (by omega) (by omega)
      have whole : At data pos ((first :: rest.take (first.toNat % 0x80)) ++
          rest.drop (first.toNat % 0x80)) := by
        rwa [List.cons_append, split]
      rw [parseLength_at whole spelled]
      refine .ok ⟨by omega, fun _ => ?_, Or.inr ⟨by omega, _, _, by simpa using spelled,
        whole, rfl⟩⟩
      rw [List.length_cons, counted]
      omega

theorem element_at {contents bytes : Bytes} {tag : UInt8} (here : At data pos (bytes ++ rest))
    (element : Ber.IsTlv tag contents bytes) :
    ∃ body, index data pos = .ok tag ∧ parseLength data (pos + 1) = .ok ((contents.length : Int), body) ∧
      pos < body ∧ At data body (contents ++ rest) ∧ body + contents.length = pos + bytes.length := by
  obtain ⟨octets, spelled, rfl⟩ := element
  have head : At data pos (tag :: (octets ++ (contents ++ rest))) := by
    simpa using here
  refine ⟨pos + 1 + octets.length, head.index, parseLength_at head.step spelled, by omega,
    head.step.advance, ?_⟩
  rw [List.length_cons, List.length_append]
  push_cast
  ring

/-- **Reading a header.** Behind any tag, either no length is read or the bytes from the tag on are
an element, as soon as the buffer holds its contents. -/
theorem element_spec {tag : UInt8} (here : At data pos (tag :: rest)) :
    Yields (parseLength data (pos + 1)) fun (length, body) =>
      pos < body ∧ body ≤ data.length ∧ (length = -1 ∨ 0 ≤ length ∧
        (∃ octets rest, Ber.IsLength octets length.toNat ∧ At data pos (tag :: (octets ++ rest)) ∧
          body = pos + 1 + octets.length) ∧
        (body + length ≤ data.length → ∃ contents bytes rest, (contents.length : Int) = length ∧
          Ber.IsTlv tag contents bytes ∧ At data pos (bytes ++ rest) ∧
          At data body (contents ++ rest) ∧ body + length = pos + bytes.length)) := by
  have nonneg := here.nonneg
  have inside := here.lt_length
  refine (parseLength_spec data (by omega)).mono ?_
  rintro ⟨length, body⟩ ⟨onward, bounded, read⟩
  refine ⟨by omega, bounded (by omega), read.imp_right ?_⟩
  rintro ⟨natural, octets, behind, spelled, follows, rfl⟩
  have tail := follows.unique here.step
  refine ⟨natural, ⟨octets, behind, spelled, by rwa [tail], rfl⟩, fun fits => ?_⟩
  have total := follows.length_eq
  rw [List.length_append] at total
  have contentsLength : (behind.take length.toNat).length = length.toNat := by
    rw [List.length_take]
    omega
  have bytesAt : At data pos ((tag :: (octets ++ behind.take length.toNat)) ++
      behind.drop length.toNat) := by
    simpa [← tail] using here
  refine ⟨behind.take length.toNat, _, behind.drop length.toNat, by omega,
    ⟨octets, by rwa [contentsLength], rfl⟩, bytesAt, ?_, ?_⟩
  · rw [List.take_append_drop]
    exact follows.advance
  · rw [List.length_cons, List.length_append, contentsLength]
    omega

/-- `skipLength`: how many length octets to step over. It cannot report a failure. -/
def skipLength (data : Bytes) : Int :=
  match data with
  | [] => 0
  | first :: _ => if first < 0x80 then 1 else 1 + (first.toNat % 0x80 : Nat)

/-- Over a well-formed length, `skipLength` and `parseLength` agree. -/
theorem skipLength_of_isLength {length : Nat} (spelled : Ber.IsLength octets length) (rest : Bytes) :
    skipLength (octets ++ rest) = octets.length := by
  cases spelled with
  | short small => simp [skipLength, lt_0x80_iff, small]
  | @long first octets counts nonempty few bounded =>
    have isLong : ¬ first.toNat < 128 := by omega
    have count : first.toNat % 128 = octets.length := by omega
    simp only [List.cons_append, skipLength, lt_0x80_iff, isLong, ↓reduceIte, count,
      List.length_cons]
    push_cast
    ring

theorem skipLength_nonneg (data : Bytes) : 0 ≤ skipLength data := by
  cases data with
  | nil => exact le_rfl
  | cons first rest =>
    rw [skipLength]
    split <;> omega

/-! ### Integers -/

/-- The loop of `parseBERInt` over leading zero octets that carry no sign. -/
def skipPadding (data : Bytes) (stop : Int) : Nat → Int → Checked Int
  | 0, _ => .error .outOfFuel
  | fuel + 1, start => do
      if start < stop - 1 then
        let first ← index data start
        if first = 0 then
          let second ← index data (start + 1)
          if second < 0x80 then skipPadding data stop fuel (start + 1) else return start
        else return start
      else return start

/-- The loop of `parseBERInt` over the octets behind the first significant one. -/
def accumulateInt (data : Bytes) : Nat → Int → Int → Checked Int
  | 0, _, v => .ok v
  | count + 1, pos, v => do
      let octet ← index data pos
      accumulateInt data count (pos + 1) (v * 256 + octet.toNat)

/-- `parseBERInt`: the two's complement value of the content octets, unless they are missing,
truncated or more than eight significant ones. -/
def parseBERInt (data : Bytes) (pos length : Int) : Checked (Option Int) := do
  if length ≤ 0 ∨ pos + length > data.length then return none
  let stop := pos + length
  let start ← skipPadding data stop length.toNat pos
  if stop - start > 8 then return none
  let first ← index data start
  let v ← accumulateInt data (stop - start - 1).toNat (start + 1) (Octets.signed [first])
  return some v

private theorem skipPadding_at {fuel : Nat} (here : At data pos (octets ++ rest))
    (nonempty : octets ≠ []) (enough : octets.length ≤ fuel) :
    ∃ start, skipPadding data (pos + octets.length) fuel pos = .ok start ∧
      At data start (Octets.trimZeros octets ++ rest) ∧
      start + (Octets.trimZeros octets).length = pos + octets.length := by
  induction octets using Octets.trimZeros.induct generalizing pos fuel with
  | case1 => exact absurd rfl nonempty
  | case2 last =>
    obtain ⟨fuel, rfl⟩ : ∃ k, fuel = k + 1 := ⟨fuel - 1, by simp at enough; omega⟩
    refine ⟨pos, ?_, here, rfl⟩
    simp [skipPadding]
  | case3 first second rest' padded ih =>
    obtain ⟨fuel, rfl⟩ : ∃ k, fuel = k + 1 := ⟨fuel - 1, by simp at enough; omega⟩
    have head : At data pos (first :: (second :: (rest' ++ rest))) := here
    have goesOn : pos < pos + ((first :: second :: rest').length : Int) - 1 := by simp; omega
    obtain ⟨start, returned, behind, counted⟩ :=
      ih head.step (by simp) (show (second :: rest').length ≤ fuel by simp at enough ⊢; omega)
    have same : pos + 1 + ((second :: rest').length : Int) =
        pos + (first :: second :: rest').length := by
      simp only [List.length_cons]
      push_cast
      ring
    rw [same] at returned counted
    refine ⟨start, ?_, ?_, ?_⟩
    · simp only [skipPadding, goesOn, ↓reduceIte, head.index, ok_bind, head.step.index, lt_0x80_iff,
        if_pos padded.1, if_pos padded.2, returned]
    · rwa [Octets.trimZeros, if_pos padded]
    · rwa [Octets.trimZeros, if_pos padded]
  | case4 first second rest' kept =>
    obtain ⟨fuel, rfl⟩ : ∃ k, fuel = k + 1 := ⟨fuel - 1, by simp at enough; omega⟩
    have head : At data pos (first :: (second :: (rest' ++ rest))) := here
    have goesOn : pos < pos + ((first :: second :: rest').length : Int) - 1 := by simp; omega
    refine ⟨pos, ?_, by rwa [Octets.trimZeros, if_neg kept], by rw [Octets.trimZeros, if_neg kept]⟩
    simp only [skipPadding, goesOn, ↓reduceIte, head.index, ok_bind, head.step.index, lt_0x80_iff]
    by_cases zero : first = 0
    · have signed : ¬ second.toNat < 128 := fun small => kept ⟨zero, small⟩
      simp [zero, signed]
    · simp [zero]

private theorem accumulateInt_at (here : At data pos (octets ++ rest)) {front : Bytes}
    (nonempty : front ≠ []) :
    accumulateInt data octets.length pos (Octets.signed front) =
      .ok (Octets.signed (front ++ octets)) := by
  induction octets generalizing pos front with
  | nil => simp [accumulateInt]
  | cons octet octets ih =>
    have first : At data pos (octet :: (octets ++ rest)) := here
    rw [List.length_cons, accumulateInt, first.index, ok_bind,
      ← Octets.signed_append_singleton nonempty, ih first.step (by simp)]
    simp

/-- Content octets are read at their declared width, padding apart. -/
theorem parseBERInt_at (here : At data pos (octets ++ rest)) (nonempty : octets ≠ []) :
    parseBERInt data pos octets.length =
      .ok (if 8 < (Octets.trimZeros octets).length then none else some (Octets.signed octets)) := by
  have positive := List.length_pos_iff.mpr nonempty
  have total := here.length_eq
  rw [List.length_append] at total
  have readable : ¬ ((octets.length : Int) ≤ 0 ∨ pos + octets.length > data.length) := by omega
  obtain ⟨start, skipped, behind, counted⟩ :=
    skipPadding_at here nonempty (show octets.length ≤ (octets.length : Int).toNat by simp)
  have width : pos + octets.length - start = (Octets.trimZeros octets).length := by omega
  obtain ⟨first, more, same⟩ := List.exists_cons_of_ne_nil (Octets.trimZeros_ne_nil nonempty)
  simp only [parseBERInt, readable, ↓reduceIte, skipped, ok_bind, width]
  by_cases wide : 8 < (Octets.trimZeros octets).length
  · have wide' : ((Octets.trimZeros octets).length : Int) > 8 := by omega
    simp [wide, wide']
  · have narrow : ¬ ((Octets.trimZeros octets).length : Int) > 8 := by omega
    have head : At data start (first :: (more ++ rest)) := by
      rwa [same] at behind
    have read := accumulateInt_at head.step (List.cons_ne_nil first [])
    have count : (((Octets.trimZeros octets).length : Int) - 1).toNat = more.length := by
      rw [same, List.length_cons]
      omega
    simp only [wide, narrow, ↓reduceIte, head.index, ok_bind, count, read, pure_eq_ok]
    rw [List.singleton_append, ← same, Octets.signed_trimZeros]

/-- **Reading an integer.** Whatever the buffer, the reader returns, and a value it reports is the
two's complement reading of the declared octets. -/
theorem parseBERInt_spec (data : Bytes) (nonneg : 0 ≤ pos) (length : Int) :
    Yields (parseBERInt data pos length) fun result => ∀ v ∈ result,
      ∃ octets rest, octets ≠ [] ∧ (octets.length : Int) = length ∧ At data pos (octets ++ rest) ∧
        v = Octets.signed octets := by
  by_cases unreadable : length ≤ 0 ∨ pos + length > data.length
  · simp [parseBERInt, unreadable]
  · have here := At.of_le nonneg (show pos ≤ data.length by omega)
    rw [← List.take_append_drop length.toNat (data.drop pos.toNat)] at here
    have counted : ((List.take length.toNat (data.drop pos.toNat)).length : Int) = length := by
      rw [List.length_take, List.length_drop]
      omega
    have nonempty : List.take length.toNat (data.drop pos.toNat) ≠ [] :=
      List.ne_nil_of_length_pos (by omega)
    have read := parseBERInt_at here nonempty
    rw [counted] at read
    rw [read]
    refine .ok fun v found => ⟨_, _, nonempty, counted, here, ?_⟩
    split at found
    · exact absurd found nofun
    · exact (Option.some.inj found).symm

end Nl6
