import Mathlib

/-! # Decimal numerals and dotted sequences over byte strings

Byte strings, the decimal numerals inside them, and sequences of naturals written as `.a.b.c`.
`readDigits_itoa` and `atoi_itoa` read a printed numeral back, `dotted_injective` says that the
dotted form determines its sequence, and `dotted_dot_isPrefix_iff` turns a textual prefix test into
a prefix test on sequences.
-/

/-- A byte string. -/
abbrev Bytes : Type := List UInt8

namespace Numeral

/-- The bytes of an ASCII literal. -/
def ascii (text : String) : Bytes := text.toList.map fun c => UInt8.ofNat c.toNat

/-- The full stop. -/
def dot : UInt8 := 46

/-- The decimal digits `0` to `9`. -/
def isDigit (c : UInt8) : Bool := 48 ≤ c.toNat && c.toNat ≤ 57

/-- The value of a decimal digit. -/
def digitVal (c : UInt8) : Nat := c.toNat - 48

/-- The byte of a decimal digit. -/
def digit (n : Nat) : UInt8 := UInt8.ofNat (n.digitChar).toNat

/-- The decimal numeral of a natural number. -/
def itoa (n : Nat) : Bytes := (Nat.toDigits 10 n).map fun c => UInt8.ofNat c.toNat

/-- The value of a string of decimal digits, most significant first. -/
def readDigits (s : Bytes) : Nat := s.foldl (fun v c => v * 10 + digitVal c) 0

variable {n : Nat} {components : List Nat}

theorem digit_toNat (below : n < 10) : (digit n).toNat = 48 + n := by
  rw [digit, Nat.toNat_digitChar_of_lt_ten below]
  simp only [UInt8.toNat_ofNat']
  omega

@[simp] theorem isDigit_dot : isDigit dot = false := rfl

theorem isDigit_digit (below : n < 10) : isDigit (digit n) = true := by
  simp only [isDigit, digit_toNat below, Bool.and_eq_true, decide_eq_true_eq]
  omega

theorem digitVal_digit (below : n < 10) : digitVal (digit n) = n := by
  rw [digitVal, digit_toNat below]
  omega

theorem itoa_of_lt (below : n < 10) : itoa n = [digit n] := by
  simp [itoa, Nat.toDigits_of_lt_base below, digit]

theorem itoa_of_le (above : 10 ≤ n) : itoa n = itoa (n / 10) ++ [digit (n % 10)] := by
  simp [itoa, Nat.toDigits_of_base_le (by decide : 1 < 10) above, digit]

@[simp] theorem itoa_ne_nil (n : Nat) : itoa n ≠ [] := by
  simp only [itoa, ne_eq, List.map_eq_nil_iff]
  exact Nat.toDigits_ne_nil

theorem isDigit_of_mem_itoa {c : UInt8} (member : c ∈ itoa n) : isDigit c = true := by
  induction n using Nat.strong_induction_on with
  | _ n ih =>
    by_cases below : n < 10
    · rw [itoa_of_lt below, List.mem_singleton] at member
      exact member ▸ isDigit_digit below
    · rw [itoa_of_le (by omega), List.mem_append, List.mem_singleton] at member
      rcases member with member | rfl
      · exact ih (n / 10) (by omega) member
      · exact isDigit_digit (by omega)

theorem length_itoa_le {width : Nat} (below : n < 10 ^ width) (positive : 0 < width) :
    (itoa n).length ≤ width := by
  induction width generalizing n with
  | zero => omega
  | succ width ih =>
    by_cases small : n < 10
    · rw [itoa_of_lt small, List.length_singleton]
      omega
    · have above : 10 ≤ n := by omega
      have next : n / 10 < 10 ^ width := by
        omega
      have room : 0 < width := by
        by_contra none
        obtain rfl : width = 0 := by omega
        omega
      rw [itoa_of_le above, List.length_append, List.length_singleton]
      have := ih next room
      omega

theorem head?_itoa_ne_zero (positive : 0 < n) : (itoa n).head? ≠ some 48 := by
  induction n using Nat.strong_induction_on with
  | _ n ih =>
    by_cases below : n < 10
    · rw [itoa_of_lt below, List.head?_cons]
      intro same
      have value := digitVal_digit below
      rw [Option.some.inj same] at value
      exact positive.ne value
    · rw [itoa_of_le (by omega), List.head?_append_of_ne_nil _ (itoa_ne_nil _)]
      exact ih (n / 10) (by omega) (by omega)

theorem readDigits_append_singleton (s : Bytes) (c : UInt8) :
    readDigits (s ++ [c]) = readDigits s * 10 + digitVal c := by
  simp [readDigits, List.foldl_append]

@[simp] theorem readDigits_itoa (n : Nat) : readDigits (itoa n) = n := by
  induction n using Nat.strong_induction_on with
  | _ n ih =>
    by_cases below : n < 10
    · rw [itoa_of_lt below]
      simp [readDigits, digitVal_digit below]
    · rw [itoa_of_le (by omega), readDigits_append_singleton, ih (n / 10) (by omega),
        digitVal_digit (by omega)]
      omega

theorem itoa_injective : Function.Injective itoa := by
  intro m n same
  rw [← readDigits_itoa m, same, readDigits_itoa]

@[simp] theorem itoa_inj {m : Nat} : itoa m = itoa n ↔ m = n := itoa_injective.eq_iff

/-- The decimal numeral of an integer. -/
def itoaInt (n : Int) : Bytes :=
  if n < 0 then 45 :: itoa n.natAbs else itoa n.natAbs

@[simp] theorem itoaInt_ne_nil (n : Int) : itoaInt n ≠ [] := by
  by_cases negative : n < 0 <;> simp [itoaInt, negative]

/-! ### Reading signed decimal integers -/

/-- The sign of a numeral and the digits behind it. -/
def splitSign (s : Bytes) : Bool × Bytes :=
  match s with
  | [] => (false, [])
  | c :: rest => if c = 43 then (false, rest) else if c = 45 then (true, rest) else (false, s)

/-- Reading a signed 64-bit decimal integer: the value and whether the text was one. A numeral out
of range is clamped and reported as a failure. -/
def atoi (s : Bytes) : Int × Bool :=
  let (negative, body) := splitSign s
  if body = [] ∨ body.all isDigit = false then (0, false)
  else
    let value : Int := readDigits body
    if negative then
      if value ≤ 2 ^ 63 then (-value, true) else (-2 ^ 63, false)
    else
      if value < 2 ^ 63 then (value, true) else (2 ^ 63 - 1, false)

theorem splitSign_of_digits {s : Bytes} (digits : ∀ c ∈ s, isDigit c = true) :
    splitSign s = (false, s) := by
  cases s with
  | nil => rfl
  | cons c rest =>
    have first := digits c (by simp)
    have notPlus : c ≠ 43 := by rintro rfl; exact absurd first (by decide)
    have notMinus : c ≠ 45 := by rintro rfl; exact absurd first (by decide)
    simp [splitSign, notPlus, notMinus]

theorem atoi_itoa (below : n < 2 ^ 63) : atoi (itoa n) = ((n : Int), true) := by
  have digits : ∀ c ∈ itoa n, isDigit c = true := fun c => isDigit_of_mem_itoa
  have all : (itoa n).all isDigit = true := List.all_eq_true.mpr digits
  have inRange : (n : Int) < 2 ^ 63 := by exact_mod_cast below
  simp only [atoi, splitSign_of_digits digits, itoa_ne_nil, all, Bool.true_eq_false, or_self,
    ↓reduceIte, readDigits_itoa, inRange, Bool.false_eq_true]

/-! ### Dotted sequences -/

/-- The dotted form of a sequence, with a dot in front of every component. -/
def dotted (components : List Nat) : Bytes := components.flatMap fun n => dot :: itoa n

@[simp] theorem dotted_nil : dotted [] = [] := rfl

@[simp] theorem dotted_cons (n : Nat) (rest : List Nat) :
    dotted (n :: rest) = dot :: (itoa n ++ dotted rest) := by
  simp [dotted]

@[simp] theorem dotted_append (front rest : List Nat) :
    dotted (front ++ rest) = dotted front ++ dotted rest := by
  simp [dotted]

@[simp] theorem dotted_eq_nil : dotted components = [] ↔ components = [] := by
  cases components <;> simp

theorem takeWhile_itoa_dotted (n : Nat) (rest : List Nat) (tail : Bytes)
    (separated : rest ≠ [] ∨ tail = [] ∨ tail.head? = some dot) :
    (itoa n ++ (dotted rest ++ tail)).takeWhile isDigit = itoa n := by
  rw [List.takeWhile_append_of_pos fun c => isDigit_of_mem_itoa]
  have stops : (dotted rest ++ tail).takeWhile isDigit = [] := by
    cases rest with
    | cons m rest => simp
    | nil =>
      rcases separated with absurdity | rfl | headed
      · exact absurd rfl absurdity
      · rfl
      · cases tail with
        | nil => rfl
        | cons c tail =>
          obtain rfl : c = dot := by simpa using headed
          simp
  rw [stops, List.append_nil]

theorem takeWhile_itoa_append_dotted (n : Nat) (rest : List Nat) :
    (itoa n ++ dotted rest).takeWhile isDigit = itoa n := by
  simpa using takeWhile_itoa_dotted n rest [] (.inr (.inl rfl))

theorem itoa_append_dotted_inj {m : Nat} {left right : List Nat}
    (same : itoa m ++ dotted left = itoa n ++ dotted right) :
    m = n ∧ dotted left = dotted right := by
  have front := congrArg (List.takeWhile isDigit) same
  rw [takeWhile_itoa_append_dotted, takeWhile_itoa_append_dotted, itoa_inj] at front
  subst front
  exact ⟨rfl, List.append_cancel_left same⟩

theorem dotted_injective : Function.Injective dotted := by
  intro left
  induction left with
  | nil =>
    intro right same
    exact (dotted_eq_nil.mp (same ▸ dotted_nil : dotted right = [])).symm
  | cons m left ih =>
    intro right same
    cases right with
    | nil => simp at same
    | cons n right =>
      obtain ⟨rfl, tails⟩ := itoa_append_dotted_inj (List.cons_inj_right dot |>.mp same)
      rw [ih tails]

@[simp] theorem dotted_inj {left right : List Nat} : dotted left = dotted right ↔ left = right :=
  dotted_injective.eq_iff

private theorem dotted_dot_isPrefix_of {front : List Nat}
    (textual : dotted front ++ [dot] <+: dotted components) :
    ∃ n rest, components = front ++ n :: rest := by
  induction front generalizing components with
  | nil =>
    cases components with
    | nil => simp at textual
    | cons n rest => exact ⟨n, rest, rfl⟩
  | cons m front ih =>
    cases components with
    | nil => simp at textual
    | cons n rest =>
      obtain ⟨tail, whole⟩ := textual
      have body : itoa m ++ (dotted front ++ dot :: tail) = itoa n ++ dotted rest := by
        simpa using whole
      have heads := congrArg (List.takeWhile isDigit) body
      rw [takeWhile_itoa_dotted m front (dot :: tail) (.inr (.inr rfl)),
        takeWhile_itoa_append_dotted, itoa_inj] at heads
      subst heads
      have tails : dotted front ++ dot :: tail = dotted rest := List.append_cancel_left body
      obtain ⟨k, rest, rfl⟩ := ih ⟨tail, by simpa using tails⟩
      exact ⟨k, rest, rfl⟩

/-- **Textual prefixes.** A dotted form starts with another one and a dot exactly when its sequence
properly extends the other's. -/
theorem dotted_dot_isPrefix_iff {front : List Nat} :
    dotted front ++ [dot] <+: dotted components ↔ ∃ n rest, components = front ++ n :: rest := by
  refine ⟨dotted_dot_isPrefix_of, ?_⟩
  rintro ⟨n, rest, rfl⟩
  exact ⟨itoa n ++ dotted rest, by simp⟩

end Numeral
