import Nl6.Lib.Cidr
import Nl6.Lib.Numeral
import Nl6.Lib.Store
import Nl6.Lib.Successor

/-! # Participants named by address prefixes

A scenario may name its participants by IPv4 prefixes. `validatePrefixSelector` refuses a list with
an entry that is not canonical or with two entries that overlap, comparing neighbours after a sort;
`prefixMatchesLocked` finds the devices of the fleet that lie in one of the prefixes, with one binary
search for each. Both look at a single neighbour only, and `prefix_selection` says that this is
enough.

Addresses are read as `net/netip` reads them; the text of IPv6 addresses, which no accepted entry has,
is read by a parameter.
-/

namespace Nl6

open Numeral

/-! ### Addresses and their text -/

/-- `netip.Addr`. -/
inductive NetipAddr where
  | v4 (a : Fin (2 ^ 32))
  | v6 (a : Fin (2 ^ 128)) (zone : Bytes)
  deriving DecidableEq

/-- `Addr.Less`: by length, then by value, then by zone. -/
def NetipAddr.less : NetipAddr → NetipAddr → Bool
  | .v4 a, .v4 b => a < b
  | .v4 _, .v6 _ _ => true
  | .v6 _ _, .v4 _ => false
  | .v6 a zone, .v6 b zone' => a < b || (a = b && zone < zone')

/-- `netip.Prefix`. -/
inductive NetipPrefix where
  | v4 (p : Cidr 32)
  | v6 (p : Cidr 128)
  deriving DecidableEq

namespace NetipPrefix

def addr : NetipPrefix → NetipAddr
  | .v4 p => .v4 ⟨p.addr, p.addr_lt⟩
  | .v6 p => .v6 ⟨p.addr, p.addr_lt⟩ []

def contains : NetipPrefix → NetipAddr → Bool
  | .v4 p, .v4 a => p.contains a
  | .v6 p, .v6 a zone => zone = [] && p.contains a
  | _, _ => false

end NetipPrefix

/-- The loop of `parseIPv4Fields`: the byte before, the fields that are complete, the value and the
number of digits of the field under way, and the text that is left. -/
def parseIPv4Fields : Option UInt8 → List Nat → Nat → Nat → Bytes → Option (List Nat)
  | _, fields, val, _, [] => if fields.length < 3 then none else some (fields ++ [val])
  | before, fields, val, digLen, c :: rest =>
    if isDigit c then
      -- No leading zeros.
      if digLen = 1 ∧ val = 0 then none
      else if val * 10 + digitVal c > 255 then none
      else parseIPv4Fields (some c) fields (val * 10 + digitVal c) (digLen + 1) rest
    else if c = dot then
      if before = none ∨ rest = [] ∨ before = some dot then none
      else if fields.length = 3 then none
      else parseIPv4Fields (some c) (fields ++ [val]) 0 0 rest
    else none

/-- The address of four octets. -/
def addrFrom4 : List Nat → Option NetipAddr
  | [a, b, c, d] => some (.v4 (Fin.ofNat _ (a * 2 ^ 24 + b * 2 ^ 16 + c * 2 ^ 8 + d)))
  | _ => none

section Text

variable (parseIPv6 : Bytes → Option (Fin (2 ^ 128) × Bytes))

/-- `netip.ParseAddr`: the first of the characters `.`, `:` and `%` decides. -/
def parseAddr (s : Bytes) : Option NetipAddr :=
  match s.find? fun c => c = dot || c = 58 || c = 37 with
  | none => none
  | some c =>
    if c = dot then (parseIPv4Fields none [] 0 0 s).bind addrFrom4
    else if c = 58 then (parseIPv6 s).map fun (a, zone) => .v6 a zone
    else none

/-- The parts before and behind the last occurrence of a byte. -/
def splitLast (c : UInt8) : Bytes → Option (Bytes × Bytes)
  | [] => none
  | x :: rest =>
    match splitLast c rest with
    | some (front, back) => some (x :: front, back)
    | none => if x = c then some ([], rest) else none

/-- `netip.PrefixFrom`, for a length that has to be in range. -/
def prefixFrom (ip : NetipAddr) (bits : Int) : Option NetipPrefix :=
  match ip with
  | .v4 a => if h : 0 ≤ bits ∧ bits ≤ 32 then
      some (.v4 ⟨a, bits.toNat, a.isLt, by omega⟩) else none
  | .v6 a zone => if zone ≠ [] then none else if h : 0 ≤ bits ∧ bits ≤ 128 then
      some (.v6 ⟨a, bits.toNat, a.isLt, by omega⟩) else none

def parsePrefix (s : Bytes) : Option NetipPrefix :=
  match splitLast 47 s with
  | none => none
  | some (front, bitsStr) =>
    match parseAddr parseIPv6 front with
    | none => none
    | some ip =>
      -- `strconv.Atoi` alone would accept a sign and leading zeros.
      if 1 < bitsStr.length ∧ bitsStr.head?.all (fun c => c < 49 || 57 < c) then none
      else
        match atoi bitsStr with
        | (_, false) => none
        | (bits, true) => prefixFrom ip bits

end Text

/-- `Addr.String` of an IPv4 address. -/
def dottedQuad (a : Fin (2 ^ 32)) : Bytes :=
  itoa (a / 2 ^ 24) ++ dotted [a / 2 ^ 16 % 2 ^ 8, a / 2 ^ 8 % 2 ^ 8, a % 2 ^ 8]

/-! ### Reading addresses back -/

theorem parseIPv4Fields_octet {n : Nat} (octet : n < 256) (before : Option UInt8)
    (fields : List Nat) (rest : Bytes) :
    ∃ c digits, c ≠ dot ∧ parseIPv4Fields before fields 0 0 (itoa n ++ rest) =
      parseIPv4Fields (some c) fields n digits rest := by
  have apart : ∀ {m}, m < 10 → digit m ≠ dot := by
    intro m below same
    have digits := isDigit_digit below
    rw [same] at digits
    exact nomatch digits
  rcases Nat.lt_or_ge n 10 with one | two
  · refine ⟨digit n, 1, apart one, ?_⟩
    rw [itoa_of_lt one]
    simp only [List.singleton_append, parseIPv4Fields, isDigit_digit one, ↓reduceIte,
      digitVal_digit one, zero_ne_one, false_and]
    rw [if_neg (by omega)]
    simp
  · have low : n % 10 < 10 := Nat.mod_lt _ (by decide)
    rcases Nat.lt_or_ge n 100 with within | three
    · have high : n / 10 < 10 := by omega
      refine ⟨digit (n % 10), 2, apart low, ?_⟩
      rw [itoa_of_le two, itoa_of_lt high]
      simp only [List.cons_append, List.nil_append, parseIPv4Fields, isDigit_digit high,
        isDigit_digit low, ↓reduceIte, digitVal_digit high, digitVal_digit low, zero_ne_one,
        false_and]
      rw [if_neg (by omega), if_neg (by omega), if_neg (by omega)]
      congr 1
      omega
    · have middle : n / 10 % 10 < 10 := Nat.mod_lt _ (by decide)
      have high : n / 10 / 10 < 10 := by omega
      refine ⟨digit (n % 10), 3, apart low, ?_⟩
      rw [itoa_of_le two, itoa_of_le (by omega : 10 ≤ n / 10), itoa_of_lt high]
      simp only [List.cons_append, List.nil_append, parseIPv4Fields, isDigit_digit high,
        isDigit_digit middle, isDigit_digit low, ↓reduceIte, digitVal_digit high,
        digitVal_digit middle, digitVal_digit low, zero_ne_one, false_and]
      rw [if_neg (by omega), if_neg (by omega), if_neg (by omega), if_neg (by omega),
        if_neg (by omega)]
      congr 1
      omega

theorem parseIPv4Fields_dot {c : UInt8} (apart : c ≠ dot) {fields : List Nat} {val digits : Nat}
    (room : fields.length < 3) {rest : Bytes} (more : rest ≠ []) :
    parseIPv4Fields (some c) fields val digits (dot :: rest) =
      parseIPv4Fields (some dot) (fields ++ [val]) 0 0 rest := by
  have full : fields.length ≠ 3 := by omega
  simp [parseIPv4Fields, show isDigit dot = false by decide, apart, more, full]

theorem parseIPv4Fields_quad {a b c d : Nat} (first : a < 256) (second : b < 256)
    (third : c < 256) (fourth : d < 256) :
    parseIPv4Fields none [] 0 0 (itoa a ++ dotted [b, c, d]) = some [a, b, c, d] := by
  simp only [dotted_cons, dotted_nil, List.append_nil]
  obtain ⟨x, _, apart, octet⟩ := parseIPv4Fields_octet first none []
    (dot :: (itoa b ++ dot :: (itoa c ++ dot :: itoa d)))
  rw [octet, parseIPv4Fields_dot apart (by simp) (by simp)]
  obtain ⟨x, _, apart, octet⟩ := parseIPv4Fields_octet second (some dot) ([] ++ [a])
    (dot :: (itoa c ++ dot :: itoa d))
  rw [octet, parseIPv4Fields_dot apart (by simp) (by simp)]
  obtain ⟨x, _, apart, octet⟩ := parseIPv4Fields_octet third (some dot) ([] ++ [a] ++ [b])
    (dot :: itoa d)
  rw [octet, parseIPv4Fields_dot apart (by simp) (by simp)]
  obtain ⟨x, _, apart, octet⟩ := parseIPv4Fields_octet fourth (some dot) ([] ++ [a] ++ [b] ++ [c]) []
  rw [List.append_nil] at octet
  rw [octet]
  rfl

/-- **Dotted quads.** Every IPv4 address is read back from its text. -/
theorem parseAddr_dottedQuad (parseIPv6 : Bytes → Option (Fin (2 ^ 128) × Bytes))
    (a : Fin (2 ^ 32)) : parseAddr parseIPv6 (dottedQuad a) = some (.v4 a) := by
  have fields := parseIPv4Fields_quad (a := a / 2 ^ 24) (b := a / 2 ^ 16 % 2 ^ 8)
    (c := a / 2 ^ 8 % 2 ^ 8) (d := a % 2 ^ 8) (by omega) (by omega) (by omega) (by omega)
  have first : (dottedQuad a).find? (fun c => c = dot || c = 58 || c = 37) = some dot := by
    have digits : (itoa (a / 2 ^ 24)).find? (fun c => c = dot || c = 58 || c = 37) = none := by
      rw [List.find?_eq_none]
      intro c mem
      have digit := isDigit_of_mem_itoa mem
      rintro marks
      simp only [Bool.or_eq_true, decide_eq_true_eq] at marks
      rcases marks with (rfl | rfl) | rfl <;> exact nomatch digit
    rw [dottedQuad, List.find?_append, digits]
    rfl
  rw [parseAddr, first]
  simp only [↓reduceIte, dottedQuad, fields, Option.bind_some, addrFrom4, Option.some.injEq,
    NetipAddr.v4.injEq]
  apply Fin.ext
  simp only [Fin.ofNat]
  omega

theorem dottedQuad_injective : Function.Injective dottedQuad := by
  intro a b same
  have left := parseAddr_dottedQuad (fun _ => none) a
  rw [same, parseAddr_dottedQuad] at left
  exact (NetipAddr.v4.inj (Option.some.inj left)).symm

/-! ### `validatePrefixSelector` -/

def scenarioMaxPrefixes : Nat := 1024

/-- The refusals of `validatePrefixSelector`. -/
inductive PrefixError where
  | tooMany (entries : Nat)
  | invalid (raw : Bytes)
  | notIPv4 (raw : Bytes)
  | hostBits (raw : Bytes) (canonical : Cidr 32)
  | duplicate (raw : Bytes)
  | nested (raw container : Bytes)
  deriving DecidableEq

/-- A prefix beside the entry it was read from. -/
structure RawPrefix where
  p : Cidr 32
  raw : Bytes

section Selector

variable (parseIPv6 : Bytes → Option (Fin (2 ^ 128) × Bytes)) (sorter : Sorter)

def checkEntry (raw : Bytes) : Except PrefixError RawPrefix :=
  match parsePrefix parseIPv6 raw with
  | none => .error (.invalid raw)
  | some (.v6 _) => .error (.notIPv4 raw)
  | some (.v4 p) => if p ≠ p.masked then .error (.hostBits raw p.masked) else .ok ⟨p, raw⟩

/-- The entries one after the other, up to the first that is refused. -/
def checkEntries : List Bytes → Except PrefixError (List RawPrefix)
  | [] => .ok []
  | raw :: rest =>
    match checkEntry parseIPv6 raw with
    | .error refusal => .error refusal
    | .ok entry =>
      match checkEntries rest with
      | .error refusal => .error refusal
      | .ok entries => .ok (entry :: entries)

def checkNeighbours : List RawPrefix → Option PrefixError
  | prev :: cur :: rest =>
    if prev.p = cur.p then some (.duplicate cur.raw)
    else if prev.p.overlaps cur.p then some (.nested cur.raw prev.raw)
    else checkNeighbours (cur :: rest)
  | _ => none

/-- The order of the sort: by address, then by length. -/
def RawPrefix.less (a b : RawPrefix) : Bool :=
  a.p.addr < b.p.addr || (a.p.addr = b.p.addr && a.p.bits < b.p.bits)

/-- `validatePrefixSelector`; `none` if the list is accepted. -/
def validatePrefixSelector (participantsCIDR : List Bytes) : Option PrefixError :=
  if participantsCIDR.length = 0 then none
  else if participantsCIDR.length > scenarioMaxPrefixes then
    some (.tooMany participantsCIDR.length)
  else
    match checkEntries parseIPv6 participantsCIDR with
    | .error refusal => some refusal
    | .ok prefixes => checkNeighbours (sorter.sort RawPrefix.less prefixes)

/-! ### `prefixMatchesLocked` -/

/-- Whether a binary search ended on the prefix with a given address. -/
def foundAt (prefixes : List NetipPrefix) (i : Nat) (a : NetipAddr) : Checked Bool :=
  if i < prefixes.length then do
    let p ← Checked.index prefixes i
    return p.addr = a
  else return false

/-- One address against the sorted prefixes: `slices.BinarySearchFunc`, then the prefix it ends on
and the one before. -/
def inPrefixes (prefixes : List NetipPrefix) (a : NetipAddr) : Checked Bool := do
  let i ← Successor.search prefixes fun p => p.addr.less a
  let found ← foundAt prefixes i a
  if found then return true
  else if i > 0 then do
    let p ← Checked.index prefixes (i - 1)
    return p.contains a
  else return false

/-- The loop over the fleet. -/
def matchFleet (prefixes : List NetipPrefix) (participants : List Bytes) :
    List Bytes → Checked (List Bytes)
  | [] => .ok []
  | ip :: fleet =>
    if ip ∈ participants then matchFleet prefixes participants fleet
    else
      match parseAddr parseIPv6 ip with
      | none => matchFleet prefixes participants fleet
      | some a => do
          let inside ← inPrefixes prefixes a
          let rest ← matchFleet prefixes participants fleet
          return if inside then ip :: rest else rest

/-- The order of the result: by address; an address that cannot be read comes first. -/
def addressLess (a b : Bytes) : Bool :=
  match parseAddr parseIPv6 a, parseAddr parseIPv6 b with
  | some a, some b => a.less b
  | none, some _ => true
  | _, none => false

/-- `prefixMatchesLocked`. The fleet is listed in the order in which its map is visited. -/
def prefixMatchesLocked (participantsCIDR participants fleet : List Bytes) :
    Checked (List Bytes) := do
  if participantsCIDR.length = 0 then return []
  let prefixes := sorter.sort (fun a b : NetipPrefix => a.addr.less b.addr)
    (participantsCIDR.filterMap (parsePrefix parseIPv6))
  let matched ← matchFleet parseIPv6 prefixes participants fleet
  return sorter.sort (addressLess parseIPv6) matched

variable {parseIPv6 sorter} {raws : List Bytes} {entries : List RawPrefix} {ps : List (Cidr 32)}

/-! ### What is accepted -/

/-- An entry that is an IPv4 prefix without host bits. -/
def CanonicalEntry (parseIPv6 : Bytes → Option (Fin (2 ^ 128) × Bytes)) (raw : Bytes) : Prop :=
  ∃ p : Cidr 32, parsePrefix parseIPv6 raw = some (.v4 p) ∧ p.masked = p

/-- Two entries name a common address. -/
def OverlappingEntries (parseIPv6 : Bytes → Option (Fin (2 ^ 128) × Bytes)) (raw raw' : Bytes) :
    Prop :=
  ∃ p q : Cidr 32, parsePrefix parseIPv6 raw = some (.v4 p) ∧
    parsePrefix parseIPv6 raw' = some (.v4 q) ∧ ∃ a, p.contains a = true ∧ q.contains a = true

theorem checkEntry_eq_ok_iff {raw : Bytes} {entry : RawPrefix} :
    checkEntry parseIPv6 raw = .ok entry ↔
      entry.raw = raw ∧ parsePrefix parseIPv6 raw = some (.v4 entry.p) ∧
        entry.p.masked = entry.p := by
  obtain ⟨p, text⟩ := entry
  unfold checkEntry
  split
  · next unread => simp [unread]
  · next q read => simp [read]
  · next q read =>
      rw [read]
      split
      · next bits =>
          simp only [reduceCtorEq, Option.some.injEq, NetipPrefix.v4.injEq, false_iff]
          rintro ⟨-, rfl, canonical⟩
          exact bits canonical.symm
      · next canonical =>
          simp only [Except.ok.injEq, RawPrefix.mk.injEq, Option.some.injEq, NetipPrefix.v4.injEq]
          constructor
          · rintro ⟨rfl, rfl⟩
            exact ⟨rfl, rfl, (not_ne_iff.mp canonical).symm⟩
          · rintro ⟨rfl, rfl, -⟩
            exact ⟨rfl, rfl⟩

theorem checkEntries_eq_ok_iff :
    checkEntries parseIPv6 raws = .ok entries ↔
      entries.map (·.raw) = raws ∧ ∀ entry ∈ entries,
        parsePrefix parseIPv6 entry.raw = some (.v4 entry.p) ∧ entry.p.masked = entry.p := by
  induction raws generalizing entries with
  | nil =>
    simp only [checkEntries, Except.ok.injEq, List.map_eq_nil_iff]
    constructor
    · rintro rfl
      exact ⟨rfl, nofun⟩
    · rintro ⟨rfl, -⟩
      rfl
  | cons raw raws ih =>
    constructor
    · intro checked
      cases first : checkEntry parseIPv6 raw with
      | error refusal => simp [checkEntries, first] at checked
      | ok entry =>
        cases rest : checkEntries parseIPv6 raws with
        | error refusal => simp [checkEntries, first, rest] at checked
        | ok others =>
          simp only [checkEntries, first, rest, Except.ok.injEq] at checked
          subst checked
          obtain ⟨rfl, reads⟩ := checkEntry_eq_ok_iff.mp first
          obtain ⟨rfl, others⟩ := ih.mp rest
          exact ⟨rfl, List.forall_mem_cons.mpr ⟨reads, others⟩⟩
    · rintro ⟨texts, reads⟩
      cases entries with
      | nil => exact nomatch texts
      | cons entry entries =>
        obtain ⟨rfl, rfl⟩ := List.cons.inj texts
        obtain ⟨first, others⟩ := List.forall_mem_cons.mp reads
        have here := checkEntry_eq_ok_iff.mpr ⟨rfl, first⟩
        have rest := ih.mpr ⟨rfl, others⟩
        simp [checkEntries, here, rest]

theorem exists_checkEntries_iff :
    (∃ entries, checkEntries parseIPv6 raws = .ok entries) ↔
      ∀ raw ∈ raws, CanonicalEntry parseIPv6 raw := by
  constructor
  · rintro ⟨entries, checked⟩ raw mem
    obtain ⟨rfl, reads⟩ := checkEntries_eq_ok_iff.mp checked
    obtain ⟨entry, listed, rfl⟩ := List.mem_map.mp mem
    exact ⟨entry.p, reads entry listed⟩
  · intro canonical
    induction raws with
    | nil => exact ⟨[], rfl⟩
    | cons raw raws ih =>
      obtain ⟨⟨p, reads⟩, rest⟩ := List.forall_mem_cons.mp canonical
      obtain ⟨entries, checked⟩ := ih rest
      obtain ⟨rfl, others⟩ := checkEntries_eq_ok_iff.mp checked
      exact ⟨⟨p, raw⟩ :: entries, checkEntries_eq_ok_iff.mpr
        ⟨rfl, List.forall_mem_cons.mpr ⟨reads, others⟩⟩⟩

theorem checkNeighbours_eq_none_iff :
    checkNeighbours entries = none ↔
      entries.IsChain fun a b => a.p.overlaps b.p = false := by
  induction entries with
  | nil => exact iff_of_true rfl .nil
  | cons prev rest ih =>
    cases rest with
    | nil => exact iff_of_true rfl (.singleton prev)
    | cons cur rest =>
      rw [List.isChain_cons_cons, ← ih, checkNeighbours]
      by_cases same : prev.p = cur.p
      · have overlaps : prev.p.overlaps cur.p = true :=
          Cidr.overlaps_iff.mpr ⟨_, prev.p.contains_self, same ▸ prev.p.contains_self⟩
        rw [if_pos same, overlaps]
        simp
      · cases prev.p.overlaps cur.p <;> simp [same]

theorem overlaps_comm (p q : Cidr 32) : p.overlaps q = false → q.overlaps p = false := by
  rw [← Bool.not_eq_true, ← Bool.not_eq_true, Cidr.overlaps_iff, Cidr.overlaps_iff]
  rintro apart ⟨a, inQ, inP⟩
  exact apart ⟨a, inP, inQ⟩

theorem sorted_less (sorter : Sorter) (entries : List RawPrefix) :
    ((sorter.sort RawPrefix.less entries).map (·.p)).Pairwise fun p q => p.addr ≤ q.addr := by
  rw [List.pairwise_map]
  have ordered := sorter.sorted RawPrefix.less
    (fun entry : RawPrefix => toLex (entry.p.addr, entry.p.bits)) entries fun a _ b _ => by
      simp [RawPrefix.less, Prod.Lex.toLex_lt_toLex]
  refine ordered.imp fun {a b} below => ?_
  rw [Prod.Lex.toLex_le_toLex] at below
  omega

/-- **Neighbours.** Comparing neighbours after the sort finds every overlap. -/
theorem checkNeighbours_sort_iff (canonical : ∀ entry ∈ entries, entry.p.masked = entry.p) :
    checkNeighbours (sorter.sort RawPrefix.less entries) = none ↔
      entries.Pairwise fun a b => a.p.overlaps b.p = false := by
  have perm := sorter.perm RawPrefix.less entries
  have canonical' : ∀ p ∈ (sorter.sort RawPrefix.less entries).map (·.p), p.masked = p := by
    intro p mem
    obtain ⟨entry, listed, rfl⟩ := List.mem_map.mp mem
    exact canonical entry (perm.mem_iff.mp listed)
  rw [checkNeighbours_eq_none_iff, ← perm.pairwise_iff fun {a b} => overlaps_comm a.p b.p]
  constructor
  · intro neighbours
    have before := Cidr.pairwise_before canonical' (sorted_less sorter entries)
      ((List.isChain_map _).mpr neighbours)
    have apart : ((sorter.sort RawPrefix.less entries).map (·.p)).Pairwise
        fun p q => p.overlaps q = false :=
      before.imp_of_mem fun left right ends =>
        ends.not_overlaps (canonical' _ left) (canonical' _ right)
    exact List.pairwise_map.mp apart
  · exact List.Pairwise.isChain

theorem overlapping_iff {a b : RawPrefix}
    (left : parsePrefix parseIPv6 a.raw = some (.v4 a.p))
    (right : parsePrefix parseIPv6 b.raw = some (.v4 b.p)) :
    ¬ OverlappingEntries parseIPv6 a.raw b.raw ↔ a.p.overlaps b.p = false := by
  rw [← Bool.not_eq_true, Cidr.overlaps_iff, not_iff_not]
  constructor
  · rintro ⟨p, q, readsP, readsQ, shared⟩
    obtain rfl := NetipPrefix.v4.inj (Option.some.inj (left.symm.trans readsP))
    obtain rfl := NetipPrefix.v4.inj (Option.some.inj (right.symm.trans readsQ))
    exact shared
  · exact fun shared => ⟨a.p, b.p, left, right, shared⟩

/-- **Validation.** -/
theorem validatePrefixSelector_eq_none_iff :
    validatePrefixSelector parseIPv6 sorter raws = none ↔
      raws.length ≤ scenarioMaxPrefixes ∧ (∀ raw ∈ raws, CanonicalEntry parseIPv6 raw) ∧
        raws.Pairwise fun a b => ¬ OverlappingEntries parseIPv6 a b := by
  unfold validatePrefixSelector
  split
  · next empty =>
      obtain rfl := List.length_eq_zero_iff.mp empty
      exact iff_of_true rfl ⟨Nat.zero_le _, nofun, .nil⟩
  · split
    · next many => exact iff_of_false nofun fun accepted => absurd accepted.1 (not_le.mpr many)
    · next few =>
        rw [and_iff_right (not_lt.mp few), ← exists_checkEntries_iff]
        cases checked : checkEntries parseIPv6 raws with
        | error refusal => simp
        | ok entries =>
          obtain ⟨rfl, reads⟩ := checkEntries_eq_ok_iff.mp checked
          simp only [Except.ok.injEq, exists_eq', true_and]
          rw [checkNeighbours_sort_iff fun entry mem => (reads entry mem).2, List.pairwise_map]
          refine List.Pairwise.iff_of_mem fun {a b} left right => ?_
          exact (overlapping_iff (reads a left).1 (reads b right).1).symm

/-! ### What is matched -/

/-- The prefixes of an accepted list, in the order of the sort by address. -/
theorem exists_sorted_prefixes (accepted : validatePrefixSelector parseIPv6 sorter raws = none) :
    ∃ ps : List (Cidr 32),
      sorter.sort (fun a b : NetipPrefix => a.addr.less b.addr)
        (raws.filterMap (parsePrefix parseIPv6)) = ps.map .v4 ∧
      (∀ p, p ∈ ps ↔ ∃ raw ∈ raws, parsePrefix parseIPv6 raw = some (.v4 p)) ∧
      (∀ p ∈ ps, p.masked = p) ∧ ps.Pairwise Cidr.Before := by
  obtain ⟨-, canonical, apart⟩ := validatePrefixSelector_eq_none_iff.mp accepted
  obtain ⟨entries, checked⟩ := exists_checkEntries_iff.mpr canonical
  obtain ⟨rfl, reads⟩ := checkEntries_eq_ok_iff.mp checked
  have parsed : (entries.map (·.raw)).filterMap (parsePrefix parseIPv6) =
      entries.map fun entry => .v4 entry.p := by
    rw [List.filterMap_map, ← List.filterMap_eq_map]
    exact List.filterMap_congr fun entry mem => (reads entry mem).1
  have perm := sorter.perm (fun a b : NetipPrefix => a.addr.less b.addr)
    (entries.map fun entry => .v4 entry.p)
  obtain ⟨ps, listed, listing⟩ :
      ∃ ps : List (Cidr 32), ps.Perm (entries.map (·.p)) ∧
        sorter.sort (fun a b : NetipPrefix => a.addr.less b.addr)
          (entries.map fun entry => .v4 entry.p) = ps.map .v4 := by
    have mapped : (entries.map fun entry => NetipPrefix.v4 entry.p) =
        (entries.map (·.p)).map .v4 := by rw [List.map_map]; rfl
    rw [mapped] at perm ⊢
    obtain ⟨ps, same⟩ : sorter.sort (fun a b : NetipPrefix => a.addr.less b.addr)
        ((entries.map (·.p)).map .v4) ∈ Set.range (List.map NetipPrefix.v4) := by
      rw [Set.range_list_map]
      intro p mem
      obtain ⟨q, -, is⟩ := List.mem_map.mp (perm.mem_iff.mp mem)
      exact ⟨q, is⟩
    rw [← same] at perm
    exact ⟨ps, (List.map_perm_map_iff fun _ _ => NetipPrefix.v4.inj).mp perm, same.symm⟩
  have canonical' : ∀ p ∈ ps, p.masked = p := by
    intro p mem
    obtain ⟨entry, inside, rfl⟩ := List.mem_map.mp (listed.mem_iff.mp mem)
    exact (reads entry inside).2
  refine ⟨ps, by rw [parsed, listing], ?_, canonical', ?_⟩
  · intro p
    rw [listed.mem_iff]
    constructor
    · intro mem
      obtain ⟨entry, inside, rfl⟩ := List.mem_map.mp mem
      exact ⟨entry.raw, List.mem_map_of_mem inside, (reads entry inside).1⟩
    · rintro ⟨raw, mem, read⟩
      obtain ⟨entry, inside, rfl⟩ := List.mem_map.mp mem
      obtain rfl := NetipPrefix.v4.inj (Option.some.inj ((reads entry inside).1.symm.trans read))
      exact List.mem_map_of_mem inside
  · -- The sort puts them in the order of their addresses, and none of them overlap.
    refine Cidr.pairwise_before canonical' ?_ (List.Pairwise.isChain ?_)
    · have ordered := sorter.sorted (fun a b : NetipPrefix => a.addr.less b.addr)
        (fun p : NetipPrefix => match p with | .v4 p => p.addr | .v6 p => p.addr)
        (entries.map fun entry => .v4 entry.p) fun a left b right => by
          obtain ⟨a, -, rfl⟩ := List.mem_map.mp left
          obtain ⟨b, -, rfl⟩ := List.mem_map.mp right
          simp [NetipPrefix.addr, NetipAddr.less]
      rw [listing, List.pairwise_map] at ordered
      exact ordered
    · rw [listed.pairwise_iff fun {a b} => overlaps_comm a b, List.pairwise_map]
      rw [List.pairwise_map] at apart
      exact apart.imp_of_mem fun {a b} left right =>
        (overlapping_iff (reads a left).1 (reads b right).1).mp

theorem foundAt_front (front back : List (Cidr 32)) (a : Fin (2 ^ 32)) :
    foundAt ((front ++ back).map .v4) front.length (.v4 a) =
      .ok (decide (∃ p ∈ back.head?, p.addr = a)) := by
  unfold foundAt
  cases back with
  | nil => simp
  | cons p back =>
    have inside : front.length < ((front ++ p :: back).map NetipPrefix.v4).length := by simp
    have read : Checked.index ((front ++ p :: back).map NetipPrefix.v4) (front.length : Nat) =
        .ok (.v4 p) := Checked.index_of_getElem? (by omega) (by simp)
    rw [if_pos inside, read]
    simp [NetipPrefix.addr, Fin.ext_iff]

theorem index_front (front back : List (Cidr 32)) (last : Cidr 32) :
    Checked.index ((front ++ [last] ++ back).map NetipPrefix.v4)
      (((front ++ [last]).length : Int) - 1) = .ok (.v4 last) := by
  refine Checked.index_of_getElem? (by simp) ?_
  have place : (((front ++ [last]).length : Int) - 1).toNat = front.length := by simp
  rw [place]
  simp

/-- **Lookup.** One binary search decides whether an address lies in one of the prefixes. -/
theorem inPrefixes_eq (canonical : ∀ p ∈ ps, p.masked = p) (apart : ps.Pairwise Cidr.Before)
    (a : Fin (2 ^ 32)) :
    inPrefixes (ps.map .v4) (.v4 a) = .ok (decide (∃ p ∈ ps, p.contains a = true)) := by
  have below : ((fun p : NetipPrefix => p.addr.less (.v4 a)) ∘ NetipPrefix.v4) =
      fun p : Cidr 32 => decide (p.addr < a.val) := rfl
  have ordered : (ps.map NetipPrefix.v4).Pairwise fun p q =>
      q.addr.less (.v4 a) = true → p.addr.less (.v4 a) = true := by
    rw [List.pairwise_map]
    refine apart.imp fun {p q} ends under => ?_
    simp only [NetipPrefix.addr, NetipAddr.less, Fin.lt_def, decide_eq_true_eq] at under ⊢
    unfold Cidr.Before at ends
    omega
  have lookup := Cidr.exists_contains_iff canonical apart a.val
  have split : (ps.takeWhile fun p => p.addr < a.val) ++ (ps.dropWhile fun p => p.addr < a.val) =
      ps := List.takeWhile_append_dropWhile
  have search := Successor.search_eq ordered
  rw [List.takeWhile_map, List.length_map, below] at search
  generalize ps.takeWhile (fun p => p.addr < a.val) = front at split lookup search
  generalize ps.dropWhile (fun p => p.addr < a.val) = back at split lookup
  unfold inPrefixes
  rw [search, Checked.ok_bind]
  subst split
  rw [foundAt_front, Checked.ok_bind]
  by_cases here : ∃ p ∈ back.head?, p.addr = a
  · simp only [here, true_or, iff_true, decide_true, ↓reduceIte] at lookup ⊢
    simp only [lookup, decide_true]
    rfl
  · simp only [here, decide_false, Bool.false_eq_true, ↓reduceIte, false_or] at lookup ⊢
    simp only [lookup]
    rcases List.eq_nil_or_concat front with rfl | ⟨front, last, rfl⟩
    · simp
    · rw [List.concat_eq_append, if_pos (by simp), index_front]
      simp [NetipPrefix.contains]

/-- An address of the fleet lies in one of the prefixes of a list. -/
def Covered (parseIPv6 : Bytes → Option (Fin (2 ^ 128) × Bytes)) (raws : List Bytes) (ip : Bytes) :
    Prop :=
  ∃ a, ip = dottedQuad a ∧ ∃ raw ∈ raws, ∃ p : Cidr 32,
    parsePrefix parseIPv6 raw = some (.v4 p) ∧ p.contains a = true

theorem matchFleet_yields (canonical : ∀ p ∈ ps, p.masked = p) (apart : ps.Pairwise Cidr.Before)
    (participants : List Bytes) {fleet : List Bytes}
    (addresses : ∀ ip ∈ fleet, ∃ a, ip = dottedQuad a) :
    ∃ matched, matchFleet parseIPv6 (ps.map .v4) participants fleet = .ok matched ∧
      matched.Sublist fleet ∧ ∀ ip, ip ∈ matched ↔ ip ∈ fleet ∧ ip ∉ participants ∧
        ∃ a, ip = dottedQuad a ∧ ∃ p ∈ ps, p.contains a = true := by
  induction fleet with
  | nil => exact ⟨[], rfl, .slnil, by simp⟩
  | cons ip fleet ih =>
    obtain ⟨⟨a, address⟩, others⟩ := List.forall_mem_cons.mp addresses
    obtain ⟨matched, rest, sublist, members⟩ := ih others
    by_cases listed : ip ∈ participants
    · refine ⟨matched, by rw [matchFleet, if_pos listed, rest], sublist.cons _, fun ip' => ?_⟩
      rw [members, List.mem_cons]
      constructor
      · rintro ⟨inside, more⟩
        exact ⟨.inr inside, more⟩
      · rintro ⟨rfl | inside, unlisted, more⟩
        · exact absurd listed unlisted
        · exact ⟨inside, unlisted, more⟩
    · have read : parseAddr parseIPv6 ip = some (.v4 a) := by
        rw [address, parseAddr_dottedQuad]
      have covered : (∃ a, ip = dottedQuad a ∧ ∃ p ∈ ps, p.contains a = true) ↔
          ∃ p ∈ ps, p.contains a = true := by
        constructor
        · rintro ⟨a', same, holds⟩
          rw [dottedQuad_injective (address.symm.trans same)]
          exact holds
        · exact fun holds => ⟨a, address, holds⟩
      refine ⟨if ∃ p ∈ ps, p.contains a = true then ip :: matched else matched, ?_, ?_, ?_⟩
      · simp [matchFleet, listed, read, inPrefixes_eq canonical apart, rest]
      · split
        · exact sublist.cons_cons _
        · exact sublist.cons _
      · intro ip'
        split
        · next holds =>
            rw [List.mem_cons, List.mem_cons, members]
            constructor
            · rintro (rfl | ⟨inside, more⟩)
              · exact ⟨.inl rfl, listed, covered.mpr holds⟩
              · exact ⟨.inr inside, more⟩
            · rintro ⟨rfl | inside, more⟩
              · exact .inl rfl
              · exact .inr ⟨inside, more⟩
        · next misses =>
            rw [members, List.mem_cons]
            constructor
            · rintro ⟨inside, more⟩
              exact ⟨.inr inside, more⟩
            · rintro ⟨rfl | inside, unlisted, more⟩
              · exact absurd (covered.mp more) misses
              · exact ⟨inside, unlisted, more⟩

/-- **Matching.** -/
theorem prefixMatchesLocked_yields {participants fleet : List Bytes}
    (accepted : validatePrefixSelector parseIPv6 sorter raws = none) (once : fleet.Nodup)
    (addresses : ∀ ip ∈ fleet, ∃ a, ip = dottedQuad a) :
    ∃ matched, prefixMatchesLocked parseIPv6 sorter raws participants fleet = .ok matched ∧
      (∀ ip, ip ∈ matched ↔ ip ∈ fleet ∧ ip ∉ participants ∧ Covered parseIPv6 raws ip) ∧
      matched.Pairwise fun ip ip' => ∀ a b, ip = dottedQuad a → ip' = dottedQuad b → a < b := by
  by_cases empty : raws.length = 0
  · obtain rfl := List.length_eq_zero_iff.mp empty
    refine ⟨[], rfl, ?_, .nil⟩
    simp [Covered]
  · obtain ⟨ps, sorted, members, canonical, apart⟩ := exists_sorted_prefixes accepted
    obtain ⟨found, loops, sublist, kept⟩ :=
      @matchFleet_yields parseIPv6 ps canonical apart participants fleet addresses
    have perm := sorter.perm (addressLess parseIPv6) found
    have quads : ∀ ip ∈ found, ∃ a, ip = dottedQuad a := fun ip mem =>
      addresses ip (sublist.subset mem)
    refine ⟨sorter.sort (addressLess parseIPv6) found, ?_, ?_, ?_⟩
    · rw [prefixMatchesLocked, if_neg empty, sorted]
      simp only [loops]
      rfl
    · intro ip
      rw [perm.mem_iff, kept]
      refine and_congr_right fun _ => and_congr_right fun _ => ?_
      refine exists_congr fun a => and_congr_right fun _ => ?_
      constructor
      · rintro ⟨p, mem, holds⟩
        obtain ⟨raw, listed, read⟩ := (members p).mp mem
        exact ⟨raw, listed, p, read, holds⟩
      · rintro ⟨raw, listed, p, read, holds⟩
        exact ⟨p, (members p).mpr ⟨raw, listed, read⟩, holds⟩
    · -- The order is strict, since no address is listed twice.
      have ordered := sorter.sorted (addressLess parseIPv6)
        (fun ip => (parseAddr parseIPv6 ip).elim 0 (NetipAddr.rec (·.val) fun _ _ => 0)) found
        fun ip left ip' right => by
          obtain ⟨a, rfl⟩ := quads ip left
          obtain ⟨b, rfl⟩ := quads ip' right
          simp [addressLess, parseAddr_dottedQuad, NetipAddr.less]
      have distinct := perm.nodup_iff.mpr (sublist.nodup once)
      refine (ordered.and distinct).imp ?_
      rintro ip ip' ⟨below, apart⟩ a b rfl rfl
      simp only [parseAddr_dottedQuad] at below
      exact lt_of_le_of_ne below fun same => apart (congrArg dottedQuad same)

/-- **Prefix selection.** A list is accepted, within the cap, exactly when every entry is canonical
and no two entries have an address in common. For an accepted list the matches are the addresses of
the fleet that lie in one of the prefixes and are not listed, each once and in ascending order. -/
theorem prefix_selection (parseIPv6 : Bytes → Option (Fin (2 ^ 128) × Bytes)) (sorter : Sorter)
    (raws : List Bytes) :
    (validatePrefixSelector parseIPv6 sorter raws = none ↔
      raws.length ≤ scenarioMaxPrefixes ∧ (∀ raw ∈ raws, CanonicalEntry parseIPv6 raw) ∧
        raws.Pairwise fun a b => ¬ OverlappingEntries parseIPv6 a b) ∧
    (validatePrefixSelector parseIPv6 sorter raws = none →
      ∀ participants fleet : List Bytes, fleet.Nodup →
        (∀ ip ∈ fleet, ∃ a, ip = dottedQuad a) →
          ∃ matched, prefixMatchesLocked parseIPv6 sorter raws participants fleet = .ok matched ∧
            (∀ ip, ip ∈ matched ↔
              ip ∈ fleet ∧ ip ∉ participants ∧ Covered parseIPv6 raws ip) ∧
            matched.Pairwise fun ip ip' =>
              ∀ a b, ip = dottedQuad a → ip' = dottedQuad b → a < b) :=
  ⟨validatePrefixSelector_eq_none_iff, fun accepted _ _ once addresses =>
    prefixMatchesLocked_yields accepted once addresses⟩

/-- Two prefixes that touch, one device below, one inside each, and one that is listed itself. -/
theorem prefix_selection_touching :
    validatePrefixSelector (fun _ => none) Sorter.exchange
        [ascii "10.42.1.0/24", ascii "10.42.0.0/24"] = none ∧
      ∃ matched, prefixMatchesLocked (fun _ => none) Sorter.exchange
          [ascii "10.42.1.0/24", ascii "10.42.0.0/24"] [ascii "10.42.1.7"]
          [ascii "10.42.0.10", ascii "10.42.1.7", ascii "10.42.0.2", ascii "10.41.255.255"] =
            .ok matched ∧ ascii "10.42.0.2" ∈ matched := by
  have accepted : validatePrefixSelector (fun _ => none) Sorter.exchange
      [ascii "10.42.1.0/24", ascii "10.42.0.0/24"] = none := by decide +kernel
  have addresses : ∀ ip ∈ [ascii "10.42.0.10", ascii "10.42.1.7", ascii "10.42.0.2",
      ascii "10.41.255.255"], ∃ a, ip = dottedQuad a := by
    simp only [List.forall_mem_cons]
    exact ⟨⟨⟨170524682, by decide⟩, by decide +kernel⟩, ⟨⟨170524935, by decide⟩, by decide +kernel⟩,
      ⟨⟨170524674, by decide⟩, by decide +kernel⟩, ⟨⟨170524671, by decide⟩, by decide +kernel⟩,
      nofun⟩
  obtain ⟨matched, is, members, -⟩ := (prefix_selection (fun _ => none) Sorter.exchange
    [ascii "10.42.1.0/24", ascii "10.42.0.0/24"]).2 accepted [ascii "10.42.1.7"] _
    (by decide +kernel) addresses
  refine ⟨accepted, matched, is, (members _).mpr ⟨by decide +kernel, by decide +kernel,
    ⟨170524674, by decide⟩, by decide +kernel, ascii "10.42.0.0/24", by decide +kernel,
    ⟨170524672, 24, by decide, by decide⟩, by decide +kernel, by decide +kernel⟩⟩

end Selector

end Nl6
