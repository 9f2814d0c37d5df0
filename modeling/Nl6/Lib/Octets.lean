import Nl6.Lib.Numeral

/-! # Big-endian octet strings

`Octets.value` reads an octet string as an unsigned big-endian number, `Octets.signed` in two's
complement, and `Octets.ofNat` is the shortest octet string of a number (`value_ofNat`,
`length_ofNat_le_iff`); `Octets.fixed` writes a number with a given width. Zero octets in front of a
positive number do not change what it reads as (`signed_cons_zero`), so `trimZeros` may drop them
(`signed_trimZeros`). An octet string is `Minimal` when nothing in front of it is redundant.
-/

namespace Octets

/-- The number an octet string spells, most significant octet first. -/
def value (octets : Bytes) : Nat := octets.foldl (fun v octet => v * 256 + octet.toNat) 0

/-- The shortest octet string of a number, empty for zero. -/
def ofNat (n : Nat) : Bytes := ((Nat.digits 256 n).map UInt8.ofNat).reverse

@[simp] theorem value_nil : value [] = 0 := rfl

theorem value_append_singleton (front : Bytes) (last : UInt8) :
    value (front ++ [last]) = value front * 256 + last.toNat := by
  simp [value]

theorem value_append (front back : Bytes) :
    value (front ++ back) = value front * 256 ^ back.length + value back := by
  induction back using List.reverseRecOn with
  | nil => simp
  | append_singleton back last ih =>
    rw [← List.append_assoc, value_append_singleton, ih, value_append_singleton,
      List.length_append, List.length_singleton, pow_succ]
    ring

theorem value_cons (first : UInt8) (rest : Bytes) :
    value (first :: rest) = first.toNat * 256 ^ rest.length + value rest := by
  have split := value_append [first] rest
  simpa [value] using split

theorem value_lt (octets : Bytes) : value octets < 256 ^ octets.length := by
  induction octets with
  | nil => simp
  | cons first rest ih =>
    have octet := first.toNat_lt
    rw [value_cons, List.length_cons, pow_succ]
    calc first.toNat * 256 ^ rest.length + value rest
        < first.toNat * 256 ^ rest.length + 256 ^ rest.length := by omega
      _ = (first.toNat + 1) * 256 ^ rest.length := by ring
      _ ≤ 256 * 256 ^ rest.length := Nat.mul_le_mul_right _ (by omega)
      _ = 256 ^ rest.length * 256 := by ring

@[simp] theorem ofNat_zero : ofNat 0 = [] := by simp [ofNat]

theorem ofNat_of_pos {n : Nat} (positive : 0 < n) :
    ofNat n = ofNat (n / 256) ++ [UInt8.ofNat (n % 256)] := by
  rw [ofNat, Nat.digits_def' (by decide) positive]
  simp [ofNat]

@[simp] theorem value_ofNat (n : Nat) : value (ofNat n) = n := by
  induction n using Nat.strong_induction_on with
  | _ n ih =>
    rcases Nat.eq_zero_or_pos n with rfl | positive
    · simp
    · rw [ofNat_of_pos positive, value_append_singleton, ih _ (by omega), UInt8.toNat_ofNat']
      omega

theorem ofNat_ne_nil {n : Nat} (positive : 0 < n) : ofNat n ≠ [] := by
  rw [ofNat_of_pos positive]
  simp

theorem length_ofNat_le_iff (n k : Nat) : (ofNat n).length ≤ k ↔ n < 256 ^ k := by
  rw [ofNat, List.length_reverse, List.length_map]
  exact Nat.digits_length_le_iff (by decide) n

/-! ### Fixed width -/

/-- The low octets of a number, as many as `width` says. -/
def fixed : Nat → Nat → Bytes
  | 0, _ => []
  | width + 1, n => fixed width (n / 256) ++ [UInt8.ofNat (n % 256)]

@[simp] theorem length_fixed (width n : Nat) : (fixed width n).length = width := by
  induction width generalizing n with
  | zero => rfl
  | succ width ih => rw [fixed, List.length_append, ih, List.length_singleton]

@[simp] theorem value_fixed (width n : Nat) : value (fixed width n) = n % 256 ^ width := by
  induction width generalizing n with
  | zero => simp [fixed, Nat.mod_one]
  | succ width ih =>
    have octet : (UInt8.ofNat (n % 256)).toNat = n % 256 := by
      rw [UInt8.toNat_ofNat']
      omega
    rw [fixed, value_append_singleton, ih, octet, pow_succ', Nat.mod_mul]
    ring

/-! ### Two's complement -/

/-- The top bit of the first octet is set. -/
def negative (octets : Bytes) : Bool := octets.head?.any fun first => 128 ≤ first.toNat

/-- The number an octet string spells in two's complement. -/
def signed (octets : Bytes) : Int :=
  if negative octets then (value octets : Int) - 256 ^ octets.length else value octets

/-- Dropping the zero octets in front that are not needed to keep the sign. -/
def trimZeros : Bytes → Bytes
  | [] => []
  | [last] => [last]
  | first :: second :: rest =>
    if first = 0 ∧ second.toNat < 128 then trimZeros (second :: rest)
    else first :: second :: rest

theorem negative_cons (first : UInt8) (rest : Bytes) :
    negative (first :: rest) = decide (128 ≤ first.toNat) := rfl

variable {octets : Bytes}

theorem signed_of_nonneg (positive : negative octets = false) : signed octets = value octets := by
  rw [signed, positive, if_neg Bool.false_ne_true]

theorem half_le_value (top : negative octets = true) : 256 ^ octets.length ≤ 2 * value octets := by
  cases octets with
  | nil => exact absurd top nofun
  | cons first rest =>
    have high : 128 ≤ first.toNat := of_decide_eq_true top
    rw [value_cons, List.length_cons, pow_succ]
    have scaled := Nat.mul_le_mul_right (256 ^ rest.length) high
    omega

theorem signed_append_singleton {front : Bytes} (nonempty : front ≠ []) (last : UInt8) :
    signed (front ++ [last]) = signed front * 256 + last.toNat := by
  obtain ⟨first, rest, rfl⟩ := List.exists_cons_of_ne_nil nonempty
  have same : negative ((first :: rest) ++ [last]) = negative (first :: rest) := rfl
  rw [signed, signed, same, value_append_singleton, List.length_append, List.length_singleton,
    pow_succ]
  split
  · push_cast
    ring
  · push_cast
    ring

theorem signed_cons_zero (positive : negative octets = false) :
    signed (0 :: octets) = signed octets := by
  have lead : negative (0 :: octets) = false := rfl
  rw [signed, signed, lead, positive, value_cons]
  simp

theorem signed_trimZeros (octets : Bytes) : signed (trimZeros octets) = signed octets := by
  induction octets using trimZeros.induct with
  | case1 => rfl
  | case2 last => rfl
  | case3 first second rest padded ih =>
    have positive : negative (second :: rest) = false := by
      rw [negative_cons]
      simpa using padded.2
    rw [trimZeros, if_pos padded, ih, padded.1, signed_cons_zero positive]
  | case4 first second rest kept => rw [trimZeros, if_neg kept]

theorem length_trimZeros_le (octets : Bytes) : (trimZeros octets).length ≤ octets.length := by
  induction octets using trimZeros.induct with
  | case1 => exact le_rfl
  | case2 last => exact le_rfl
  | case3 first second rest padded ih =>
    rw [trimZeros, if_pos padded]
    exact ih.trans (Nat.le_succ _)
  | case4 first second rest kept => rw [trimZeros, if_neg kept]

theorem trimZeros_of_negative (top : negative octets = true) : trimZeros octets = octets := by
  induction octets using trimZeros.induct with
  | case1 => rfl
  | case2 last => rfl
  | case3 first second rest padded ih =>
    rw [padded.1, negative_cons] at top
    exact absurd top (by decide)
  | case4 first second rest kept => rw [trimZeros, if_neg kept]

/-- No octet in front could be left out: the first nine bits are not all equal. -/
def Minimal : Bytes → Prop
  | [] => False
  | [_] => True
  | first :: second :: _ => ¬ (first = 0 ∧ second.toNat < 128) ∧ ¬ (first = 255 ∧ 128 ≤ second.toNat)

theorem trimZeros_ne_nil (nonempty : octets ≠ []) : trimZeros octets ≠ [] := by
  induction octets using trimZeros.induct with
  | case1 => exact absurd rfl nonempty
  | case2 last => exact nonempty
  | case3 first second rest padded ih =>
    rw [trimZeros, if_pos padded]
    exact ih (by simp)
  | case4 first second rest kept =>
    rw [trimZeros, if_neg kept]
    simp

end Octets
