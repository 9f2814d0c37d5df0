import Nl6.Lib.Store
import Nl6.Lib.Numeral

/-! # Object identifiers as text and their two comparisons

The agent keeps object identifiers as dotted strings and compares them in two ways: `compareOIDs`,
which scans both strings with a cursor, and `compareOIDsLexicographically`, which splits them and
parses every part. On identifiers whose arcs fit a machine integer both decide the lexicographic
order of the arc sequences: `compareOIDs_dotted` and `compareOIDsLexicographically_dotted`.
`oid_comparisons_one_order` says so for texts with and without the leading dot.
-/

namespace Nl6

open Numeral

/-- Arcs below this limit, and their successors, fit a machine integer. Every 32-bit arc does. -/
def arcLimit : Nat := 2 ^ 63 - 1

/-- A sequence of arcs that the comparisons read without overflow. -/
def Arcs (arcs : List Nat) : Prop := ∀ arc ∈ arcs, arc < arcLimit

/-- The canonical text of an object identifier: `.a.b.c`, with at least one arc. -/
def IsOID (oid : Bytes) : Prop := ∃ arcs, arcs ≠ [] ∧ Arcs arcs ∧ oid = dotted arcs

/-- Arithmetic of the 64-bit machine integer. -/
def int64 (n : Int) : Int := n.bmod (2 ^ 64)

theorem int64_of_range {n : Int} (low : -2 ^ 63 ≤ n) (high : n < 2 ^ 63) : int64 n = n := by
  rw [int64, Int.bmod_def]
  split <;> omega

instance (arcs : List Nat) : Decidable (Arcs arcs) :=
  inferInstanceAs (Decidable (∀ arc ∈ arcs, arc < arcLimit))

@[simp] theorem Arcs.nil : Arcs [] := by simp [Arcs]

theorem Arcs.cons_iff {arc : Nat} {arcs : List Nat} :
    Arcs (arc :: arcs) ↔ arc < arcLimit ∧ Arcs arcs := by
  simp [Arcs]

theorem Arcs.append_iff {front rest : List Nat} :
    Arcs (front ++ rest) ↔ Arcs front ∧ Arcs rest := by
  simp [Arcs, or_imp, forall_and]

/-! ### The scanning comparison -/

/-- The cursor of `compareOIDs`: the text it has not consumed and whether it is exhausted. -/
structure OidCursor where
  rest : Bytes
  done : Bool

/-- `newOIDCursor`: drop one leading dot; an empty text has no segments. -/
def newOIDCursor (oid : Bytes) : OidCursor :=
  let oid := if oid.head? = some dot then oid.tail else oid
  ⟨oid, oid = []⟩

/-- The inner loop of `next`: the value so far, whether every byte was a digit, and the text from
the first dot on. -/
def scanSegment : Bytes → Int → Bool → Int × Bool × Bytes
  | [], val, numeric => (val, numeric, [])
  | c :: rest, val, numeric =>
    if c = dot then (val, numeric, c :: rest)
    else if isDigit c then scanSegment rest (int64 (val * 10 + digitVal c)) numeric
    else scanSegment rest val false

/-- `next`: the value of the next segment, whether there was one, and the cursor behind it. A
segment that is empty or not numeric counts as zero. -/
def OidCursor.next (c : OidCursor) : Int × Bool × OidCursor :=
  if c.done then (0, false, c)
  else
    match scanSegment c.rest 0 true with
    | (val, numeric, rest) =>
      let val := if numeric = false ∨ rest.length = c.rest.length then 0 else val
      match rest with
      | _ :: rest => (val, true, ⟨rest, false⟩)
      | [] => (val, true, ⟨[], true⟩)

/-- The loop of `compareOIDs`. -/
def compareCursors : Nat → OidCursor → OidCursor → Int
  | 0, _, _ => 0
  | fuel + 1, c1, c2 =>
    match c1.next, c2.next with
    | (v1, ok1, c1), (v2, ok2, c2) =>
      if ok1 = false ∧ ok2 = false then 0
      else if v1 ≠ v2 then (if v1 < v2 then -1 else 1)
      else if ok1 ≠ ok2 then (if ok1 = false then -1 else 1)
      else compareCursors fuel c1 c2

/-- `compareOIDs`. Every round consumes a segment of both texts, so their lengths bound the loop. -/
def compareOIDs (oid1 oid2 : Bytes) : Int :=
  compareCursors (oid1.length + oid2.length + 1) (newOIDCursor oid1) (newOIDCursor oid2)

/-- The comparison of arc sequences, as the sign of a machine comparison. -/
def compareArcs (left right : List Nat) : Int :=
  if left < right then -1 else if left = right then 0 else 1

/-- The cursor in front of the given arcs. -/
def cursorOf : List Nat → OidCursor
  | [] => ⟨[], true⟩
  | arc :: arcs => ⟨itoa arc ++ dotted arcs, false⟩

theorem newOIDCursor_dotted (arcs : List Nat) : newOIDCursor (dotted arcs) = cursorOf arcs := by
  cases arcs with
  | nil => rfl
  | cons arc arcs => simp [newOIDCursor, cursorOf]

private theorem scanSegment_digits {digits rest : Bytes} {val : Nat}
    (numerals : ∀ c ∈ digits, isDigit c = true)
    (bounded : digits.foldl (fun v c => v * 10 + digitVal c) val < 2 ^ 63)
    (stops : rest = [] ∨ rest.head? = some dot) :
    scanSegment (digits ++ rest) val true =
      (((digits.foldl (fun v c => v * 10 + digitVal c) val : Nat) : Int), true, rest) := by
  induction digits generalizing val with
  | nil =>
    cases rest with
    | nil => rfl
    | cons c rest =>
      obtain rfl : c = dot := by simpa using stops
      simp [scanSegment]
  | cons c digits ih =>
    have numeral : isDigit c = true := numerals c (by simp)
    have notDot : c ≠ dot := by rintro rfl; simp at numeral
    have grows : ∀ (more : Bytes) (v : Nat),
        v ≤ more.foldl (fun v c => v * 10 + digitVal c) v := by
      intro more
      induction more with
      | nil => exact fun v => le_rfl
      | cons d more ihMore =>
        intro v
        exact le_trans (by omega) (ihMore (v * 10 + digitVal d))
    have fits : val * 10 + digitVal c < 2 ^ 63 := lt_of_le_of_lt (grows digits _) bounded
    have exact64 : int64 ((val : Int) * 10 + digitVal c) = ((val * 10 + digitVal c : Nat) : Int) := by
      rw [int64_of_range (by omega) (by exact_mod_cast fits)]
      rfl
    rw [List.cons_append, scanSegment]
    simp only [notDot, numeral, ↓reduceIte, exact64]
    exact ih (fun d member => numerals d (List.mem_cons_of_mem _ member)) bounded

theorem next_cursorOf_cons {arc : Nat} {arcs : List Nat} (bounded : arc < arcLimit) :
    (cursorOf (arc :: arcs)).next = ((arc : Int), true, cursorOf arcs) := by
  have value : (itoa arc).foldl (fun v c => v * 10 + digitVal c) 0 = arc := readDigits_itoa arc
  have scanned : scanSegment (itoa arc ++ dotted arcs) 0 true = ((arc : Int), true, dotted arcs) := by
    have fits : (itoa arc).foldl (fun v c => v * 10 + digitVal c) 0 < 2 ^ 63 := by
      simp only [arcLimit] at bounded
      omega
    have stops : dotted arcs = [] ∨ (dotted arcs).head? = some dot := by
      cases arcs <;> simp
    have scan := scanSegment_digits (fun c member => isDigit_of_mem_itoa member) fits stops
    rwa [value] at scan
  have shorter : (dotted arcs).length ≠ (itoa arc ++ dotted arcs).length := by
    have := List.length_pos_iff.mpr (itoa_ne_nil arc)
    rw [List.length_append]
    omega
  simp only [OidCursor.next, cursorOf, Bool.false_eq_true, ↓reduceIte, scanned,
    Bool.true_eq_false, shorter, or_self]
  cases arcs with
  | nil => rfl
  | cons next arcs => rfl

@[simp] theorem next_cursorOf_nil : (cursorOf []).next = (0, false, cursorOf []) := rfl

private theorem compareCursors_cursorOf {left right : List Nat} (leftBound : Arcs left)
    (rightBound : Arcs right) (fuel : Nat) (enough : left.length < fuel) :
    compareCursors fuel (cursorOf left) (cursorOf right) = compareArcs left right := by
  induction left generalizing right fuel with
  | nil =>
    obtain ⟨fuel, rfl⟩ : ∃ n, fuel = n + 1 := ⟨fuel - 1, by simp at enough; omega⟩
    cases right with
    | nil => simp [compareCursors, compareArcs]
    | cons arc right =>
      obtain ⟨bounded, -⟩ := Arcs.cons_iff.mp rightBound
      by_cases zero : arc = 0
      · subst zero
        simp [compareCursors, compareArcs, next_cursorOf_cons bounded]
      · simp [compareCursors, compareArcs, next_cursorOf_cons bounded, zero,
          Ne.symm (Int.natCast_ne_zero.mpr zero)]
  | cons arc left ih =>
    obtain ⟨fuel, rfl⟩ : ∃ n, fuel = n + 1 := ⟨fuel - 1, by omega⟩
    obtain ⟨bounded, leftBound⟩ := Arcs.cons_iff.mp leftBound
    cases right with
    | nil =>
      by_cases zero : arc = 0
      · subst zero
        simp [compareCursors, compareArcs, next_cursorOf_cons bounded]
      · have : ¬ (arc : Int) < 0 := by omega
        simp [compareCursors, compareArcs, next_cursorOf_cons bounded, zero, this]
    | cons other right =>
      obtain ⟨otherBounded, rightBound⟩ := Arcs.cons_iff.mp rightBound
      rw [compareCursors]
      simp only [next_cursorOf_cons bounded, next_cursorOf_cons otherBounded,
        Bool.true_eq_false, and_self, ↓reduceIte, ne_eq, not_true_eq_false]
      have inner := ih leftBound rightBound fuel (by simpa using enough)
      rcases lt_trichotomy arc other with lower | rfl | higher
      · have apart : (arc : Int) ≠ other := by omega
        have below : (arc : Int) < other := by omega
        simp [compareArcs, apart, below, List.cons_lt_cons_iff, lower]
      · simp only [not_true_eq_false, ↓reduceIte, inner]
        simp [compareArcs]
      · have apart : (arc : Int) ≠ other := by omega
        have above : ¬ (arc : Int) < other := by omega
        have notLower : ¬ arc < other := by omega
        have distinct : arc ≠ other := by omega
        simp [compareArcs, apart, above, List.cons_lt_cons_iff, notLower, distinct]

theorem two_mul_length_le (arcs : List Nat) : 2 * arcs.length ≤ (dotted arcs).length := by
  induction arcs with
  | nil => simp
  | cons arc arcs ih =>
    have digits := List.length_pos_iff.mpr (itoa_ne_nil arc)
    simp only [dotted_cons, List.length_cons, List.length_append]
    omega

/-- **The scanning comparison** decides the lexicographic order of the arcs. -/
theorem compareOIDs_dotted {left right : List Nat} (leftBound : Arcs left)
    (rightBound : Arcs right) :
    compareOIDs (dotted left) (dotted right) = compareArcs left right := by
  rw [compareOIDs, newOIDCursor_dotted, newOIDCursor_dotted]
  exact compareCursors_cursorOf leftBound rightBound _ (by have := two_mul_length_le left; omega)

section Signs

variable {left right : List Nat}

theorem compareArcs_neg : compareArcs left right < 0 ↔ left < right := by
  rw [compareArcs]
  split_ifs <;> simp_all

theorem compareArcs_eq_zero : compareArcs left right = 0 ↔ left = right := by
  rw [compareArcs]
  split_ifs with lower same
  · simpa using lower.ne
  · simpa using same
  · simpa using same

theorem compareArcs_pos : 0 < compareArcs left right ↔ right < left := by
  rw [compareArcs]
  split_ifs with lower same
  · simpa using lower.le
  · simp [same]
  · simpa using lt_of_le_of_ne (not_lt.mp lower) (Ne.symm same)

theorem compareOIDs_neg_iff (leftBound : Arcs left) (rightBound : Arcs right) :
    compareOIDs (dotted left) (dotted right) < 0 ↔ left < right := by
  rw [compareOIDs_dotted leftBound rightBound, compareArcs_neg]

theorem compareOIDs_pos_iff (leftBound : Arcs left) (rightBound : Arcs right) :
    0 < compareOIDs (dotted left) (dotted right) ↔ right < left := by
  rw [compareOIDs_dotted leftBound rightBound, compareArcs_pos]

theorem compareOIDs_nonpos_iff (leftBound : Arcs left) (rightBound : Arcs right) :
    compareOIDs (dotted left) (dotted right) ≤ 0 ↔ left ≤ right := by
  rw [← not_lt, compareOIDs_pos_iff leftBound rightBound, not_lt]

theorem compareOIDs_nonneg_iff (leftBound : Arcs left) (rightBound : Arcs right) :
    0 ≤ compareOIDs (dotted left) (dotted right) ↔ right ≤ left := by
  rw [← not_lt, compareOIDs_neg_iff leftBound rightBound, not_lt]

end Signs

/-! ### The splitting comparison -/

/-- The parts `compareOIDsLexicographically` splits a text into. -/
def oidParts (oid : Bytes) : List Bytes :=
  let s := if oid.head? = some dot then oid.tail else oid
  if s = [] then [] else s.splitOn dot

/-- A part's value; a missing or unparsable part counts as zero, an overlong one is clamped. -/
def partVal (parts : List Bytes) (i : Nat) : Int :=
  match parts[i]? with
  | some part => (atoi part).1
  | none => 0

def compareOIDsLexicographically (oid1 oid2 : Bytes) : Int :=
  let parts1 := oidParts oid1
  let parts2 := oidParts oid2
  let decided := (List.range (max parts1.length parts2.length)).findSome? fun i =>
    if partVal parts1 i < partVal parts2 i then some (-1)
    else if partVal parts1 i > partVal parts2 i then some 1
    else none
  match decided with
  | some sign => sign
  | none =>
    if parts1.length < parts2.length then -1
    else if parts1.length > parts2.length then 1
    else 0

private theorem intercalate_itoa (arc : Nat) (arcs : List Nat) :
    [dot].intercalate ((arc :: arcs).map itoa) = itoa arc ++ dotted arcs := by
  induction arcs generalizing arc with
  | nil => simp [List.intercalate]
  | cons next arcs ih =>
    have unfolded : [dot].intercalate ((arc :: next :: arcs).map itoa)
        = itoa arc ++ dot :: [dot].intercalate ((next :: arcs).map itoa) := by
      simp [List.intercalate]
    rw [unfolded, ih, dotted_cons]

theorem oidParts_dotted (arcs : List Nat) : oidParts (dotted arcs) = arcs.map itoa := by
  cases arcs with
  | nil => rfl
  | cons arc arcs =>
    have separated : ∀ part ∈ (arc :: arcs).map itoa, dot ∉ part := by
      intro part member inside
      obtain ⟨n, -, rfl⟩ := List.mem_map.mp member
      exact absurd (isDigit_of_mem_itoa inside) (by simp)
    have parts := List.splitOn_intercalate dot separated (by simp)
    rw [intercalate_itoa] at parts
    simp [oidParts, parts]

theorem partVal_map_itoa {arcs : List Nat} (bounded : Arcs arcs) (i : Nat) :
    partVal (arcs.map itoa) i = ((arcs[i]?.getD 0 : Nat) : Int) := by
  rw [partVal, List.getElem?_map]
  cases found : arcs[i]? with
  | none => rfl
  | some arc =>
    have inside : arc < arcLimit := bounded arc (List.mem_of_getElem? found)
    simp only [Option.map_some, Option.getD_some]
    rw [atoi_itoa (by simp only [arcLimit] at inside; omega)]

/-- The sign at the first position where two sequences, padded with zeros, differ. -/
private def firstDifference (left right : List Nat) : Option Int :=
  (List.range (max left.length right.length)).findSome? fun i =>
    if left[i]?.getD 0 < right[i]?.getD 0 then some (-1)
    else if left[i]?.getD 0 > right[i]?.getD 0 then some 1
    else none

private theorem firstDifference_cons (a b : Nat) (left right : List Nat) :
    firstDifference (a :: left) (b :: right) =
      (if a < b then some (-1) else if a > b then some 1 else none).or
        (firstDifference left right) := by
  rw [firstDifference, List.length_cons, List.length_cons, Nat.succ_max_succ,
    List.range_succ_eq_map, List.findSome?_cons, List.findSome?_map]
  simp only [List.getElem?_cons_zero, Option.getD_some]
  rcases lt_trichotomy a b with lower | rfl | higher
  · simp [lower]
  · simp only [lt_irrefl, ↓reduceIte, gt_iff_lt, Option.none_or]
    rfl
  · simp [higher, higher.not_gt]

private theorem firstDifference_nil_left (right : List Nat) (sign : Int)
    (decided : firstDifference [] right = some sign) : sign = -1 := by
  obtain ⟨i, -, found⟩ := List.exists_of_findSome?_eq_some decided
  simp only [List.getElem?_nil, Option.getD_none, gt_iff_lt, Nat.not_lt_zero, ↓reduceIte] at found
  split_ifs at found
  exact (Option.some.inj found).symm

private theorem firstDifference_nil_right (left : List Nat) (sign : Int)
    (decided : firstDifference left [] = some sign) : sign = 1 := by
  obtain ⟨i, -, found⟩ := List.exists_of_findSome?_eq_some decided
  simp only [List.getElem?_nil, Option.getD_none, gt_iff_lt, Nat.not_lt_zero, ↓reduceIte] at found
  split_ifs at found
  exact (Option.some.inj found).symm

private theorem firstDifference_spec (left right : List Nat) :
    (match firstDifference left right with
      | some sign => sign
      | none => if left.length < right.length then -1
          else if left.length > right.length then 1 else 0) = compareArcs left right := by
  induction left generalizing right with
  | nil =>
    cases right with
    | nil => rfl
    | cons b right =>
      have below : compareArcs [] (b :: right) = -1 := by simp [compareArcs]
      cases decided : firstDifference [] (b :: right) with
      | none => simp [below]
      | some sign => simp [below, firstDifference_nil_left _ _ decided]
  | cons a left ih =>
    cases right with
    | nil =>
      have above : compareArcs (a :: left) [] = 1 := by simp [compareArcs]
      cases decided : firstDifference (a :: left) [] with
      | none => simp [above]
      | some sign => simp [above, firstDifference_nil_right _ _ decided]
    | cons b right =>
      rw [firstDifference_cons]
      rcases lt_trichotomy a b with lower | rfl | higher
      · simp [compareArcs, lower, List.cons_lt_cons_iff]
      · simp only [lt_irrefl, ↓reduceIte, gt_iff_lt, Option.none_or, List.length_cons,
          Nat.add_lt_add_iff_right]
        rw [show compareArcs (a :: left) (a :: right) = compareArcs left right by
          simp [compareArcs]]
        exact ih right
      · simp [compareArcs, higher, higher.not_gt, higher.ne', List.cons_lt_cons_iff]

/-- **The splitting comparison** decides the same order on the same identifiers. -/
theorem compareOIDsLexicographically_dotted {left right : List Nat} (leftBound : Arcs left)
    (rightBound : Arcs right) :
    compareOIDsLexicographically (dotted left) (dotted right) = compareArcs left right := by
  rw [← firstDifference_spec]
  simp [compareOIDsLexicographically, oidParts_dotted, partVal_map_itoa leftBound,
    partVal_map_itoa rightBound, firstDifference]

/-! ### One order -/

/-- A dotted text of 32-bit arcs, with or without the leading dot. -/
def Spells (oid : Bytes) (arcs : List Nat) : Prop :=
  (∀ arc ∈ arcs, arc < 2 ^ 32) ∧
    (oid = dotted arcs ∨ dot :: oid = dotted arcs ∨ oid = [dot] ∧ arcs = [])

section Spells

variable {left right third : Bytes} {leftArcs rightArcs thirdArcs : List Nat}

theorem Spells.arcs (spells : Spells left leftArcs) : Arcs leftArcs :=
  fun arc member => (spells.1 arc member).trans (by decide)

theorem head_ne_dot {arc : Nat} {arcs : List Nat} (bare : dot :: left = dotted (arc :: arcs)) :
    left.head? ≠ some dot := by
  rw [dotted_cons, List.cons.injEq] at bare
  rw [bare.2]
  cases digits : itoa arc with
  | nil => exact absurd digits (itoa_ne_nil arc)
  | cons first rest =>
    intro same
    have digit := isDigit_of_mem_itoa (digits ▸ List.mem_cons_self : first ∈ itoa arc)
    obtain rfl : first = dot := Option.some.inj same
    exact nomatch digit

/-- Both comparisons read a text as they read its spelling with the dot. -/
theorem Spells.read (spells : Spells left leftArcs) :
    newOIDCursor left = newOIDCursor (dotted leftArcs) ∧ oidParts left = oidParts (dotted leftArcs) := by
  rcases spells.2 with rfl | bare | ⟨rfl, rfl⟩
  · exact ⟨rfl, rfl⟩
  · cases leftArcs with
    | nil => exact nomatch bare
    | cons arc arcs =>
      have first := head_ne_dot bare
      rw [← bare]
      simp [newOIDCursor, oidParts, first]
  · exact ⟨rfl, rfl⟩

theorem Spells.length_le (spells : Spells left leftArcs) : leftArcs.length ≤ left.length := by
  have long := two_mul_length_le leftArcs
  rcases spells.2 with rfl | bare | ⟨rfl, rfl⟩
  · omega
  · rw [← bare, List.length_cons] at long
    cases leftArcs with
    | nil => exact Nat.zero_le _
    | cons arc arcs =>
      rw [List.length_cons] at long ⊢
      omega
  · exact Nat.zero_le _

theorem Spells.compareOIDs_eq (spells : Spells left leftArcs) (other : Spells right rightArcs) :
    compareOIDs left right = compareArcs leftArcs rightArcs := by
  rw [compareOIDs, spells.read.1, other.read.1, newOIDCursor_dotted, newOIDCursor_dotted]
  exact compareCursors_cursorOf spells.arcs other.arcs _ (by have := spells.length_le; omega)

/-- **One order.** On the dotted texts of 32-bit arcs, both comparisons return the sign of the
lexicographic comparison of the arcs, in which a proper prefix comes first. So they agree, they form a
total preorder, and two texts are equivalent exactly if they have the same arcs. -/
theorem oid_comparisons_one_order (first : Spells left leftArcs) (second : Spells right rightArcs)
    (last : Spells third thirdArcs) :
    compareOIDsLexicographically left right = compareOIDs left right ∧
      (compareOIDs left right < 0 ↔ leftArcs < rightArcs) ∧
      (compareOIDs left right = 0 ↔ leftArcs = rightArcs) ∧
      (0 < compareOIDs left right ↔ rightArcs < leftArcs) ∧
      (compareOIDs left right ≤ 0 ∨ compareOIDs right left ≤ 0) ∧
      (compareOIDs left right ≤ 0 → compareOIDs right third ≤ 0 → compareOIDs left third ≤ 0) := by
  have splits : compareOIDsLexicographically left right = compareArcs leftArcs rightArcs := by
    rw [← compareOIDsLexicographically_dotted first.arcs second.arcs]
    simp only [compareOIDsLexicographically, first.read.2, second.read.2]
  have nonpos : ∀ {x y : Bytes} {xs ys : List Nat}, Spells x xs → Spells y ys →
      (compareOIDs x y ≤ 0 ↔ xs ≤ ys) := by
    intro x y xs ys spells other
    rw [spells.compareOIDs_eq other, ← not_lt, compareArcs_pos, not_lt]
  rw [nonpos first second, nonpos second first, nonpos second last, nonpos first last, splits,
    first.compareOIDs_eq second]
  exact ⟨rfl, compareArcs_neg, compareArcs_eq_zero, compareArcs_pos, le_total _ _, le_trans⟩

/-- A text without the leading dot, one of its extensions, and a text with a larger arc. -/
theorem oid_comparisons_one_order_prefix :
    compareOIDs (ascii "1.3.6") (ascii ".1.3.6.0") < 0 ∧
      compareOIDs (ascii ".1.3.6.0") (ascii ".1.3.10") < 0 := by
  have first : Spells (ascii "1.3.6") [1, 3, 6] := ⟨by decide, .inr (.inl (by decide +kernel))⟩
  have second : Spells (ascii ".1.3.6.0") [1, 3, 6, 0] := ⟨by decide, .inl (by decide +kernel)⟩
  have last : Spells (ascii ".1.3.10") [1, 3, 10] := ⟨by decide, .inl (by decide +kernel)⟩
  exact ⟨(oid_comparisons_one_order first second last).2.1.mpr (by decide),
    (oid_comparisons_one_order second last first).2.1.mpr (by decide)⟩

end Spells

/-! ### Sorting identifiers -/

/-- **Sorted identifiers.** Whatever the sort does with equal entries, sorting well-formed
identifiers by a comparison of their arcs lists them in ascending order of their arcs. -/
theorem sort_dotted (sorter : Sorter) (less : Bytes → Bytes → Bool) {oids : List Bytes}
    (realises : ∀ {left right : List Nat}, Arcs left → Arcs right →
      (less (dotted left) (dotted right) = true ↔ left < right))
    (identifiers : ∀ oid ∈ oids, IsOID oid) :
    ∃ arcs : List (List Nat), sorter.sort less oids = arcs.map dotted ∧
      arcs.Pairwise (· ≤ ·) ∧ ∀ oid ∈ arcs, oid ≠ [] ∧ Arcs oid := by
  have perm := sorter.perm less oids
  have inverse : ∀ arcs, Function.invFun dotted (dotted arcs) = arcs :=
    Function.leftInverse_invFun dotted_injective
  refine ⟨(sorter.sort less oids).map (Function.invFun dotted), ?_, ?_, ?_⟩
  · rw [List.map_map]
    refine (List.map_id _).symm.trans (List.map_congr_left ?_)
    intro oid member
    obtain ⟨arcs, -, -, rfl⟩ := identifiers oid (perm.mem_iff.mp member)
    simp [inverse]
  · rw [List.pairwise_map]
    refine sorter.sorted less (Function.invFun dotted) oids ?_
    intro first inside second also
    obtain ⟨left, -, leftBound, rfl⟩ := identifiers first inside
    obtain ⟨right, -, rightBound, rfl⟩ := identifiers second also
    rw [inverse, inverse]
    exact realises leftBound rightBound
  · intro oid member
    obtain ⟨text, listed, rfl⟩ := List.mem_map.mp member
    obtain ⟨arcs, nonempty, bounded, rfl⟩ := identifiers text (perm.mem_iff.mp listed)
    rw [inverse]
    exact ⟨nonempty, bounded⟩

end Nl6
