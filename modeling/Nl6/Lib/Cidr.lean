import Mathlib

/-! # Address prefixes

A prefix of an address names the block of addresses that agree with it on their leading bits. Two
blocks are disjoint or nested, so whether they overlap shows on the shorter of the two prefixes
(`overlaps_iff`). In a list of disjoint canonical prefixes that is sorted by address, each block ends
before the next begins (`pairwise_before`), and the block that holds an address, if there is one, is
the last that begins at or below it (`exists_contains_iff`).
-/

/-- A prefix of addresses of a given width. Bits behind the prefix may be set. -/
structure Cidr (width : Nat) where
  addr : Nat
  bits : Nat
  addr_lt : addr < 2 ^ width
  bits_le : bits ≤ width
  deriving DecidableEq

namespace Cidr

variable {width : Nat} {p q : Cidr width} {a : Nat}

/-- The number of addresses in the block. -/
def size (p : Cidr width) : Nat := 2 ^ (width - p.bits)

/-- The prefix without the bits behind it. -/
def masked (p : Cidr width) : Cidr width where
  addr := p.addr / p.size * p.size
  bits := p.bits
  addr_lt := (Nat.div_mul_le_self _ _).trans_lt p.addr_lt
  bits_le := p.bits_le

/-- An address agrees with the prefix on its leading bits. -/
def contains (p : Cidr width) (a : Nat) : Bool := a / p.size = p.addr / p.size

/-- Two prefixes agree on the leading bits of the shorter one. -/
def overlaps (p q : Cidr width) : Bool :=
  p = q || min p.bits q.bits = 0 ||
    p.addr / 2 ^ (width - min p.bits q.bits) = q.addr / 2 ^ (width - min p.bits q.bits)

theorem size_pos (p : Cidr width) : 0 < p.size := Nat.two_pow_pos _

theorem contains_eq_true : p.contains a = true ↔ a / p.size = p.addr / p.size := decide_eq_true_iff

theorem contains_self (p : Cidr width) : p.contains p.addr = true := contains_eq_true.mpr rfl

theorem contains_iff (canonical : p.masked = p) :
    p.contains a = true ↔ p.addr ≤ a ∧ a < p.addr + p.size := by
  have base : p.addr / p.size * p.size = p.addr := congrArg addr canonical
  rw [contains_eq_true, Nat.div_eq_iff p.size_pos, base]
  have positive := p.size_pos
  omega

theorem div_pow_of_div_pow {x y m n : Nat} (larger : m ≤ n) (same : x / 2 ^ m = y / 2 ^ m) :
    x / 2 ^ n = y / 2 ^ n := by
  obtain ⟨k, rfl⟩ := Nat.exists_eq_add_of_le larger
  rw [pow_add, ← Nat.div_div_eq_div_mul, ← Nat.div_div_eq_div_mul, same]

/-- Sharing an address shows on the leading bits of the shorter prefix. -/
theorem share_iff : (∃ a, p.contains a = true ∧ q.contains a = true) ↔
    p.addr / 2 ^ (width - min p.bits q.bits) = q.addr / 2 ^ (width - min p.bits q.bits) := by
  simp only [contains_eq_true, size]
  constructor
  · rintro ⟨a, inP, inQ⟩
    have first := div_pow_of_div_pow (Nat.sub_le_sub_left (min_le_left p.bits q.bits) width) inP
    have second := div_pow_of_div_pow (Nat.sub_le_sub_left (min_le_right p.bits q.bits) width) inQ
    exact first.symm.trans second
  · intro same
    -- The address of the longer prefix lies in both blocks.
    rcases le_total p.bits q.bits with shorter | shorter
    · rw [min_eq_left shorter] at same
      exact ⟨q.addr, same.symm, rfl⟩
    · rw [min_eq_right shorter] at same
      exact ⟨p.addr, rfl, same⟩

/-- **Overlap.** -/
theorem overlaps_iff :
    p.overlaps q = true ↔ ∃ a, p.contains a = true ∧ q.contains a = true := by
  rw [share_iff, overlaps, Bool.or_eq_true, Bool.or_eq_true, decide_eq_true_eq, decide_eq_true_eq,
    decide_eq_true_eq]
  constructor
  · rintro ((rfl | none) | same)
    · rfl
    · rw [none, Nat.sub_zero, Nat.div_eq_of_lt p.addr_lt, Nat.div_eq_of_lt q.addr_lt]
    · exact same
  · exact .inr

/-! ### Sorted lists of disjoint prefixes -/

/-- A block ends before another begins. -/
def Before (p q : Cidr width) : Prop := p.addr + p.size ≤ q.addr

theorem Before.trans {r : Cidr width} (first : Before p q) (second : Before q r) : Before p r := by
  unfold Before at *
  omega

theorem Before.not_overlaps (before : Before p q) (canonP : p.masked = p) (canonQ : q.masked = q) :
    p.overlaps q = false := by
  rw [← Bool.not_eq_true, overlaps_iff]
  rintro ⟨a, inP, inQ⟩
  rw [contains_iff canonP] at inP
  rw [contains_iff canonQ] at inQ
  unfold Before at before
  omega

theorem before_of_not_overlaps (canonical : p.masked = p) (ordered : p.addr ≤ q.addr)
    (apart : p.overlaps q = false) : Before p q := by
  by_contra within
  refine absurd ?_ (Bool.eq_false_iff.mp apart)
  exact overlaps_iff.mpr ⟨q.addr, (contains_iff canonical).mpr ⟨ordered, not_le.mp within⟩,
    q.contains_self⟩

/-- Comparing neighbours is enough in a list that is sorted by address. -/
theorem pairwise_before {ps : List (Cidr width)} (canonical : ∀ p ∈ ps, p.masked = p)
    (sorted : ps.Pairwise fun p q => p.addr ≤ q.addr)
    (neighbours : ps.IsChain fun p q => p.overlaps q = false) : ps.Pairwise Before := by
  have : Trans (@Before width) Before Before := ⟨Before.trans⟩
  rw [← List.isChain_iff_pairwise]
  induction ps with
  | nil => exact .nil
  | cons p ps ih =>
    cases ps with
    | nil => exact .singleton p
    | cons q ps =>
      obtain ⟨apart, rest⟩ := List.isChain_cons_cons.mp neighbours
      obtain ⟨above, sorted⟩ := List.pairwise_cons.mp sorted
      refine .cons_cons ?_ (ih (fun r mem => canonical r (List.mem_cons_of_mem _ mem)) sorted rest)
      exact before_of_not_overlaps (canonical p List.mem_cons_self)
        (above q List.mem_cons_self) apart

/-- **Lookup.** Of disjoint prefixes that are sorted by address only the first at or above an address
and the one before it can hold the address. -/
theorem exists_contains_iff {ps : List (Cidr width)} (canonical : ∀ p ∈ ps, p.masked = p)
    (apart : ps.Pairwise Before) (a : Nat) :
    (∃ p ∈ ps, p.contains a = true) ↔
      (∃ p ∈ (ps.dropWhile fun p => p.addr < a).head?, p.addr = a) ∨
        ∃ p ∈ (ps.takeWhile fun p => p.addr < a).getLast?, p.contains a = true := by
  have split : (ps.takeWhile fun p => p.addr < a) ++ (ps.dropWhile fun p => p.addr < a) = ps :=
    List.takeWhile_append_dropWhile
  have low : ∀ p ∈ ps.takeWhile fun p => p.addr < a, p.addr < a := by
    intro p mem
    have under := List.mem_takeWhile_imp mem
    exact of_decide_eq_true under
  have high : ∀ p ∈ (ps.dropWhile fun p => p.addr < a).head?, a ≤ p.addr := by
    intro p first
    have stops := List.head?_dropWhile_not (fun p : Cidr width => decide (p.addr < a)) ps
    rw [Option.mem_def.mp first] at stops
    simpa using stops
  generalize ps.takeWhile (fun p => p.addr < a) = front at split low
  generalize ps.dropWhile (fun p => p.addr < a) = back at split high
  subst split
  obtain ⟨inFront, inBack, -⟩ := List.pairwise_append.mp apart
  constructor
  · rintro ⟨p, mem, holds⟩
    have inside := (contains_iff (canonical p mem)).mp holds
    rcases List.mem_append.mp mem with before | behind
    · -- Anything behind it in the front would begin above its end, and so above the address.
      right
      obtain ⟨more, last, rfl⟩ : ∃ more last, front = more ++ [last] :=
        ⟨_, _, (List.dropLast_append_getLast (List.ne_nil_of_mem before)).symm⟩
      refine ⟨last, by simp, ?_⟩
      rcases List.mem_append.mp before with earlier | here
      · have ends := (List.pairwise_append.mp inFront).2.2 p earlier last (List.mem_singleton_self _)
        have below := low last (List.mem_append_right _ (List.mem_singleton_self _))
        unfold Before at ends
        omega
      · rw [← List.mem_singleton.mp here]
        exact holds
    · left
      cases back with
      | nil => exact nomatch behind
      | cons first rest =>
        have above := high first rfl
        refine ⟨first, rfl, ?_⟩
        rcases List.mem_cons.mp behind with rfl | later
        · omega
        · have ends := (List.pairwise_cons.mp inBack).1 p later
          unfold Before at ends
          omega
  · rintro (⟨p, first, rfl⟩ | ⟨p, last, holds⟩)
    · exact ⟨p, List.mem_append_right _ (List.mem_of_mem_head? first), p.contains_self⟩
    · exact ⟨p, List.mem_append_left _ (List.mem_of_mem_getLast? last), holds⟩

end Cidr
