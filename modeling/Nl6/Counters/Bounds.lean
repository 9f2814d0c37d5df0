import Nl6.Counters.Monotone

/-! # Roll-up bounds

`buildRollup` also seeds the octet bases: an aggregate starts at the sum of its members' bases, and
then a child at its share of its parent's base. A share is a rational and scaling by it rounds down.

At an instant after every transition no ledger reads ahead of that instant, so an interface serves
at most what its count is there. The count of a child is a share of what its parent serves and the
count of an aggregate the sum of what its members serve, whatever holds they went through.
-/

namespace Nl6

/-! ### Shares -/

/-- `uint64(float64(v) * share)`, on rationals. -/
def scaleBy (share : ℚ) (v : Nat) : Nat := ⌊(v : ℚ) * share⌋₊

theorem scaleBy_mono {share : ℚ} (nonneg : 0 ≤ share) : Monotone (scaleBy share) :=
  fun _ _ le => Nat.floor_le_floor (mul_le_mul_of_nonneg_right (Nat.cast_le.mpr le) nonneg)

/-- Shares of one whole that sum to at most one take at most the whole. -/
theorem sum_scaleBy_le {children : Finset Nat} {share : Nat → ℚ} (nonneg : ∀ c, 0 ≤ share c)
    (atMostOne : ∑ c ∈ children, share c ≤ 1) (v : Nat) :
    ∑ c ∈ children, scaleBy (share c) v ≤ v := by
  have rounded : ∑ c ∈ children, (scaleBy (share c) v : ℚ) ≤ ∑ c ∈ children, (v : ℚ) * share c :=
    Finset.sum_le_sum fun c _ => Nat.floor_le (mul_nonneg (Nat.cast_nonneg v) (nonneg c))
  have whole : ∑ c ∈ children, (v : ℚ) * share c ≤ v := by
    rw [← Finset.mul_sum]
    exact mul_le_of_le_one_right (Nat.cast_nonneg v) atMostOne
  exact_mod_cast rounded.trans whole

/-- The fraction of a parent its children may claim together. -/
def rollupShareCap : ℚ := 4 / 5

/-- `childShare`: the even split jittered by up to a fifth. `sum32` is the hash of the child's
ifIndex. -/
def childShare (sum32 : Nat → UInt32) (ifIndex n : Nat) : ℚ :=
  let u : ℚ := (sum32 ifIndex).toNat / 2 ^ 32 * 2 - 1
  rollupShareCap / n * (1 + 1 / 5 * u)

theorem childShare_bounds (sum32 : Nat → UInt32) (ifIndex n : Nat) :
    0 ≤ childShare sum32 ifIndex n ∧ childShare sum32 ifIndex n ≤ 24 / 25 * (1 / n) := by
  have low : (0 : ℚ) ≤ (sum32 ifIndex).toNat / 2 ^ 32 := by positivity
  have high : ((sum32 ifIndex).toNat : ℚ) / 2 ^ 32 ≤ 1 := by
    rw [div_le_one (by positivity)]
    exact_mod_cast (sum32 ifIndex).toNat_lt.le
  have even : (0 : ℚ) ≤ rollupShareCap / n := by unfold rollupShareCap; positivity
  refine ⟨mul_nonneg even (by linarith), ?_⟩
  calc childShare sum32 ifIndex n
      ≤ rollupShareCap / n * (6 / 5) := mul_le_mul_of_nonneg_left (by linarith) even
    _ = 24 / 25 * (1 / n) := by unfold rollupShareCap; ring

/-- The jittered shares of the children of one parent sum to at most 0.96. -/
theorem sum_childShare_le (sum32 : Nat → UInt32) (children : Finset Nat) :
    ∑ c ∈ children, childShare sum32 c children.card ≤ 24 / 25 := by
  calc ∑ c ∈ children, childShare sum32 c children.card
      ≤ ∑ _c ∈ children, 24 / 25 * (1 / (children.card : ℚ)) :=
        Finset.sum_le_sum fun c _ => (childShare_bounds sum32 c children.card).2
    _ ≤ 24 / 25 := by
        rw [Finset.sum_const, nsmul_eq_mul]
        rcases Nat.eq_zero_or_pos children.card with none | some
        · norm_num [none]
        · have positive : (0 : ℚ) < children.card := by exact_mod_cast some
          exact le_of_eq (by field_simp)

/-! ### Bases -/

/-- The octet bases, `baseInOctets` and `baseOutOctets`. -/
abbrev OctetBases : Type := Nat → Bool → Nat

/-- Seed one slot after the other; `seed` reads the bases as they are by then. -/
def seedSlots (seed : OctetBases → Nat → Bool → Nat) (slots : List Nat) (bases : OctetBases) :
    OctetBases :=
  slots.foldl (fun bases slot => Function.update bases slot (seed bases slot)) bases

/-- Where no slot is seeded from one that is seeded too, the order does not matter. -/
theorem seedSlots_apply {seed : OctetBases → Nat → Bool → Nat} {slots : List Nat}
    (seeded : Nat → Prop) (all : ∀ slot ∈ slots, seeded slot) {start bases : OctetBases}
    (independent : ∀ bases', (∀ i, ¬ seeded i → bases' i = start i) → seed bases' = seed start)
    (kept : ∀ i, ¬ seeded i → bases i = start i) (i : Nat) :
    seedSlots seed slots bases i = if i ∈ slots then seed start i else bases i := by
  induction slots generalizing bases with
  | nil => rfl
  | cons slot slots ih =>
    have here : seeded slot := all slot List.mem_cons_self
    have still : ∀ j, ¬ seeded j → Function.update bases slot (seed bases slot) j = start j := by
      intro j other
      have apart : j ≠ slot := fun same => other (same ▸ here)
      rw [Function.update_of_ne apart]
      exact kept j other
    have rest := ih (fun other mem => all other (List.mem_cons_of_mem _ mem)) still
    change seedSlots seed slots (Function.update bases slot (seed bases slot)) i = _
    rw [rest, independent bases kept]
    by_cases later : i ∈ slots
    · simp [later]
    · by_cases same : i = slot
      · simp [same]
      · simp [later, same]

/-- `seedAggregate`: the sum of the members' bases. -/
def seedAggregate (members : Nat → List Nat) (bases : OctetBases) (agg : Nat) (inbound : Bool) :
    Nat :=
  ((members agg).map fun m => bases m inbound).sum

/-- `seedChild`: the share of the parent's base. -/
def seedChild (counterParent : Nat → Option Nat) (share : Nat → ℚ) (bases : OctetBases) (c : Nat)
    (inbound : Bool) : Nat :=
  match counterParent c with
  | some p => scaleBy (share c) (bases p inbound)
  | none => bases c inbound

section BuildRollup

variable (maxIfIndex : Nat) (rollup : Rollup)

/-- The aggregates that sum members, in the order they are seeded. -/
def Rollup.aggregateSlots : List Nat :=
  (List.range' 1 maxIfIndex).filter fun agg => !(rollup.members agg).isEmpty

/-- The children that take a share, in the order they are seeded. -/
def Rollup.childSlots : List Nat :=
  (List.range' 1 maxIfIndex).filter fun c => (rollup.counterParent c).isSome

/-- The octet bases `buildRollup` leaves: the aggregates are seeded first, then the children. -/
def rollupBases (share : Nat → ℚ) (bases : OctetBases) : OctetBases :=
  seedSlots (seedChild rollup.counterParent share) (rollup.childSlots maxIfIndex)
    (seedSlots (seedAggregate rollup.members) (rollup.aggregateSlots maxIfIndex) bases)

variable {maxIfIndex rollup} {share : Nat → ℚ} {bases : OctetBases} {bases' : OctetBases}

theorem Rollup.mem_aggregateSlots {agg : Nat} :
    agg ∈ rollup.aggregateSlots maxIfIndex ↔
      (1 ≤ agg ∧ agg ≤ maxIfIndex) ∧ rollup.members agg ≠ [] := by
  simp only [aggregateSlots, List.mem_filter, List.mem_range'_1, Bool.not_eq_true',
    List.isEmpty_eq_false_iff]
  exact and_congr_left fun _ => by omega

theorem Rollup.mem_childSlots {c : Nat} :
    c ∈ rollup.childSlots maxIfIndex ↔
      (1 ≤ c ∧ c ≤ maxIfIndex) ∧ (rollup.counterParent c).isSome := by
  simp only [childSlots, List.mem_filter, List.mem_range'_1]
  exact and_congr_left fun _ => by omega

theorem seedAggregate_congr (same : ∀ i, ¬ rollup.members i ≠ [] → bases' i = bases i) :
    seedAggregate rollup.members bases' = seedAggregate rollup.members bases := by
  funext agg inbound
  refine congrArg List.sum (List.map_congr_left fun m mem => ?_)
  rw [same m (not_not.mpr (rollup.standalone_of_member mem).2)]

theorem seedChild_congr (same : ∀ i, ¬ (rollup.counterParent i).isSome → bases' i = bases i) :
    seedChild rollup.counterParent share bases' = seedChild rollup.counterParent share bases := by
  funext c inbound
  unfold seedChild
  cases parent : rollup.counterParent c with
  | none => exact congrFun (same c (by simp [parent])) inbound
  | some p =>
    have top : ¬ (rollup.counterParent p).isSome := by simp [(rollup.top_of_parent parent).1]
    exact congrArg (scaleBy (share c)) (congrFun (same p top) inbound)

theorem seedAggregates_apply (i : Nat) :
    seedSlots (seedAggregate rollup.members) (rollup.aggregateSlots maxIfIndex) bases i =
      if i ∈ rollup.aggregateSlots maxIfIndex then seedAggregate rollup.members bases i
      else bases i :=
  seedSlots_apply (fun i => rollup.members i ≠ [])
    (fun _ mem => (Rollup.mem_aggregateSlots.mp mem).2) (fun _ same => seedAggregate_congr same)
    (fun _ _ => rfl) i

theorem rollupBases_apply (i : Nat) :
    rollupBases maxIfIndex rollup share bases i =
      if i ∈ rollup.childSlots maxIfIndex then
        seedChild rollup.counterParent share
          (seedSlots (seedAggregate rollup.members) (rollup.aggregateSlots maxIfIndex) bases) i
      else seedSlots (seedAggregate rollup.members) (rollup.aggregateSlots maxIfIndex) bases i :=
  seedSlots_apply (fun i => (rollup.counterParent i).isSome)
    (fun _ mem => (Rollup.mem_childSlots.mp mem).2) (fun _ same => seedChild_congr same)
    (fun _ _ => rfl) i

theorem rollupBases_top {i : Nat} (top : rollup.counterParent i = none) :
    rollupBases maxIfIndex rollup share bases i =
      seedSlots (seedAggregate rollup.members) (rollup.aggregateSlots maxIfIndex) bases i := by
  rw [rollupBases_apply, if_neg]
  simp [Rollup.mem_childSlots, top]

theorem rollupBases_child {c p : Nat} (range : 1 ≤ c ∧ c ≤ maxIfIndex)
    (parent : rollup.counterParent c = some p) (inbound : Bool) :
    rollupBases maxIfIndex rollup share bases c inbound =
      scaleBy (share c) (rollupBases maxIfIndex rollup share bases p inbound) := by
  rw [rollupBases_top (rollup.top_of_parent parent).1, rollupBases_apply,
    if_pos (Rollup.mem_childSlots.mpr ⟨range, by simp [parent]⟩)]
  simp [seedChild, parent]

theorem rollupBases_aggregate {agg : Nat} (range : 1 ≤ agg ∧ agg ≤ maxIfIndex)
    (aggregate : rollup.members agg ≠ []) (inbound : Bool) :
    rollupBases maxIfIndex rollup share bases agg inbound =
      ((rollup.members agg).map fun m =>
        rollupBases maxIfIndex rollup share bases m inbound).sum := by
  have orphan : rollup.counterParent agg = none := by
    cases parent : rollup.counterParent agg with
    | none => rfl
    | some p => exact absurd (rollup.top_of_parent parent).2 aggregate
  rw [rollupBases_top orphan, seedAggregates_apply,
    if_pos (Rollup.mem_aggregateSlots.mpr ⟨range, aggregate⟩)]
  refine congrArg List.sum (List.map_congr_left fun m mem => ?_)
  obtain ⟨top, plain⟩ := rollup.standalone_of_member mem
  rw [rollupBases_top top, seedAggregates_apply, if_neg]
  simp [Rollup.mem_aggregateSlots, plain]

end BuildRollup

/-! ### What is served -/

section Served

variable {Time : Type} [LinearOrder Time]
variable {rollup : Rollup} {dials : Dials Time} {ledger : Ledger Time} {t : Time}

theorem rawDeltaAt_aggregate {agg : Nat} (aggregate : rollup.members agg ≠ []) (inbound : Bool) :
    rawDeltaAt rollup dials ledger inbound agg t =
      ((rollup.members agg).map fun m => servedDeltaAt rollup dials ledger inbound m t).sum := by
  simp [rawDeltaAt, rawDeltaFrom, aggregate]

variable [OrderBot Time]

theorem servedDeltaAt_le_rawDeltaAt (sound : Ledger.Sound rollup dials ledger t) (i : Nat)
    (inbound : Bool) :
    servedDeltaAt rollup dials ledger inbound i t ≤ rawDeltaAt rollup dials ledger inbound i t := by
  rw [servedDeltaAt_eq_reading]
  exact (Nat.sub_le _ _).trans (rawDeltaAt_mono i ((sound i inbound).toOrdered.instant_le le_rfl))

theorem servedDeltaAt_child_le (sound : Ledger.Sound rollup dials ledger t) {c p : Nat}
    (parent : rollup.counterParent c = some p) (inbound : Bool) :
    servedDeltaAt rollup dials ledger inbound c t ≤
      dials.scale c (servedDeltaAt rollup dials ledger inbound p t) := by
  refine (servedDeltaAt_le_rawDeltaAt sound c inbound).trans_eq ?_
  simp [rawDeltaAt, rawDeltaFrom, (rollup.top_of_parent parent).2, parent]

end Served

/-! ### The bounds -/

/-- The tables `buildRollup` is called with: no parent has a parent, and every interface they name
has a slot. -/
structure HierarchyTables (maxIfIndex : Nat) where
  parents : Nat → Option Nat
  members : Nat → List Nat
  oneLevel : OneLevelParents parents
  child_range : ∀ {c p : Nat}, parents c = some p →
    (1 ≤ c ∧ c ≤ maxIfIndex) ∧ 1 ≤ p ∧ p ≤ maxIfIndex
  member_range : ∀ {agg m : Nat}, m ∈ members agg → 1 ≤ m ∧ m ≤ maxIfIndex

namespace HierarchyTables

variable {maxIfIndex : Nat} (tables : HierarchyTables maxIfIndex)

/-- The children of `p`. -/
def children (p : Nat) : Finset Nat :=
  (Finset.Icc 1 maxIfIndex).filter fun c => tables.parents c = some p

/-- The children of `p` that take a share: those that declare a speed. -/
def sharers (ifSpeedBps : Nat → Nat) (p : Nat) : Finset Nat :=
  (tables.children p).filter fun c => ifSpeedBps c ≠ 0

/-- The hierarchy `buildRollup` records. -/
def rollup (ifSpeedBps : Nat → Nat) : Rollup :=
  buildRollup maxIfIndex tables.parents tables.members ifSpeedBps tables.oneLevel

variable {tables} {ifSpeedBps : Nat → Nat}

theorem mem_sharers {c p : Nat} :
    c ∈ tables.sharers ifSpeedBps p ↔ (tables.rollup ifSpeedBps).counterParent c = some p := by
  simp only [sharers, children, Finset.mem_filter, Finset.mem_Icc, rollup, buildRollup,
    rollupParent]
  by_cases still : ifSpeedBps c = 0
  · simp [still]
  · simp only [still, ne_eq, not_false_eq_true, and_true, if_false, and_iff_right_iff_imp]
    exact fun parent => (tables.child_range parent).1

theorem range_of_counterParent {c p : Nat}
    (parent : (tables.rollup ifSpeedBps).counterParent c = some p) :
    (1 ≤ c ∧ c ≤ maxIfIndex) ∧ 1 ≤ p ∧ p ≤ maxIfIndex := by
  have child := mem_sharers.mpr parent
  simp only [sharers, children, Finset.mem_filter] at child
  exact tables.child_range child.1.2

theorem range_of_mem {agg m : Nat} (mem : m ∈ (tables.rollup ifSpeedBps).members agg) :
    (1 ≤ agg ∧ agg ≤ maxIfIndex) ∧ m ≤ maxIfIndex := by
  obtain ⟨aggregate, claimed, usable⟩ := mem_rollupMembers mem
  have slot := List.mem_range'_1.mp (List.mem_of_mem_filter aggregate)
  exact ⟨by omega, (tables.member_range (List.mem_of_mem_filter usable)).2⟩

/-- The `share` table: each child's `childShare` among the children of its parent. -/
def shares (tables : HierarchyTables maxIfIndex) (ifSpeedBps : Nat → Nat) (sum32 : Nat → UInt32)
    (c : Nat) : ℚ :=
  match (tables.rollup ifSpeedBps).counterParent c with
  | some p => childShare sum32 c (tables.sharers ifSpeedBps p).card
  | none => 0

theorem shares_nonneg (sum32 : Nat → UInt32) (c : Nat) : 0 ≤ tables.shares ifSpeedBps sum32 c := by
  unfold shares
  split
  · exact (childShare_bounds sum32 c _).1
  · exact le_rfl

theorem sum_shares_le (sum32 : Nat → UInt32) (p : Nat) :
    ∑ c ∈ tables.sharers ifSpeedBps p, tables.shares ifSpeedBps sum32 c ≤ 1 := by
  have each : ∀ c ∈ tables.sharers ifSpeedBps p, tables.shares ifSpeedBps sum32 c =
      childShare sum32 c (tables.sharers ifSpeedBps p).card := by
    intro c child
    simp [shares, mem_sharers.mp child]
  rw [Finset.sum_congr rfl each]
  exact (sum_childShare_le sum32 _).trans (by norm_num)

end HierarchyTables

/-- A cycler as far as octets go: standalone dials that never fall, rational shares of which those
of one parent's children sum to at most one, and the bases before `buildRollup`. -/
structure OctetCycler (Time : Type) [LinearOrder Time] where
  maxIfIndex : Nat
  known : Nat → Bool
  ifSpeedBps : Nat → Nat
  tables : HierarchyTables maxIfIndex
  share : Nat → ℚ
  share_nonneg : ∀ c, 0 ≤ share c
  sum_share_le : ∀ p, ∑ c ∈ tables.sharers ifSpeedBps p, share c ≤ 1
  deltaOctetsAt : Nat → Bool → Time → Nat
  deltaOctetsAt_mono : ∀ i inbound, Monotone (deltaOctetsAt i inbound)
  initBases : OctetBases

namespace OctetCycler

variable {Time : Type} [LinearOrder Time] (cycler : OctetCycler Time)

def layout : CounterLayout :=
  ⟨cycler.maxIfIndex, cycler.known, cycler.tables.rollup cycler.ifSpeedBps⟩

def dials : Dials Time where
  deltaOctetsAt := cycler.deltaOctetsAt
  scale c := scaleBy (cycler.share c)
  deltaOctetsAt_mono := cycler.deltaOctetsAt_mono
  scale_mono c := scaleBy_mono (cycler.share_nonneg c)

/-- The octet bases after `buildRollup`. -/
def bases : OctetBases :=
  rollupBases cycler.maxIfIndex cycler.layout.rollup cycler.share cycler.initBases

/-- The octets an interface serves, before the counter wraps: its base and its delta. -/
def octets (ledger : Ledger Time) (t : Time) (i : Nat) (inbound : Bool) : Nat :=
  let deltas := heldDeltasAt cycler.layout cycler.dials ledger i t
  cycler.bases i inbound + if inbound then deltas.1 else deltas.2

variable {cycler} {ledger : Ledger Time} {t : Time}

theorem octets_eq {i : Nat} (slot : i ≤ cycler.maxIfIndex) (inbound : Bool) :
    cycler.octets ledger t i inbound =
      cycler.bases i inbound +
        servedDeltaAt cycler.layout.rollup cycler.dials ledger inbound i t := by
  have inside : ¬ cycler.layout.maxIfIndex < i := not_lt.mpr slot
  unfold octets heldDeltasAt
  rw [if_neg inside]
  cases inbound <;> rfl

theorem sum_octets_members {agg : Nat} (aggregate : cycler.layout.rollup.members agg ≠ [])
    (inbound : Bool) :
    ((cycler.layout.rollup.members agg).map fun m => cycler.octets ledger t m inbound).sum =
      cycler.bases agg inbound +
        rawDeltaAt cycler.layout.rollup cycler.dials ledger inbound agg t := by
  obtain ⟨m, mem⟩ := List.exists_mem_of_ne_nil _ aggregate
  have each : (cycler.layout.rollup.members agg).map (fun m => cycler.octets ledger t m inbound) =
      (cycler.layout.rollup.members agg).map fun m => cycler.bases m inbound +
        servedDeltaAt cycler.layout.rollup cycler.dials ledger inbound m t :=
    List.map_congr_left fun m mem => octets_eq (HierarchyTables.range_of_mem mem).2 inbound
  rw [each, List.sum_map_add, rawDeltaAt_aggregate aggregate]
  exact congrArg (· + _)
    (rollupBases_aggregate (HierarchyTables.range_of_mem mem).1 aggregate inbound).symm

variable [OrderBot Time]

theorem octets_child_le
    (sound : Ledger.Sound cycler.layout.rollup cycler.dials ledger t) {c p : Nat}
    (parent : cycler.layout.rollup.counterParent c = some p) (inbound : Bool) :
    cycler.octets ledger t c inbound ≤
      scaleBy (cycler.share c) (cycler.bases p inbound) +
        scaleBy (cycler.share c)
          (servedDeltaAt cycler.layout.rollup cycler.dials ledger inbound p t) := by
  have range := HierarchyTables.range_of_counterParent parent
  rw [octets_eq range.1.2]
  exact Nat.add_le_add (rollupBases_child range.1 parent inbound).le
    (servedDeltaAt_child_le sound parent inbound)

theorem sum_octets_sharers_le
    (sound : Ledger.Sound cycler.layout.rollup cycler.dials ledger t) (p : Nat) (inbound : Bool) :
    ∑ c ∈ cycler.tables.sharers cycler.ifSpeedBps p, cycler.octets ledger t c inbound ≤
      cycler.octets ledger t p inbound := by
  rcases (cycler.tables.sharers cycler.ifSpeedBps p).eq_empty_or_nonempty with none | ⟨c, child⟩
  · simp [none]
  have slot := (HierarchyTables.range_of_counterParent (HierarchyTables.mem_sharers.mp child)).2.2
  rw [octets_eq slot]
  calc ∑ c ∈ cycler.tables.sharers cycler.ifSpeedBps p, cycler.octets ledger t c inbound
      ≤ ∑ c ∈ cycler.tables.sharers cycler.ifSpeedBps p,
          (scaleBy (cycler.share c) (cycler.bases p inbound) +
            scaleBy (cycler.share c)
              (servedDeltaAt cycler.layout.rollup cycler.dials ledger inbound p t)) :=
        Finset.sum_le_sum fun c child =>
          octets_child_le sound (HierarchyTables.mem_sharers.mp child) inbound
    _ ≤ _ := by
        rw [Finset.sum_add_distrib]
        exact Nat.add_le_add (sum_scaleBy_le cycler.share_nonneg (cycler.sum_share_le p) _)
          (sum_scaleBy_le cycler.share_nonneg (cycler.sum_share_le p) _)

theorem octets_aggregate_le
    (sound : Ledger.Sound cycler.layout.rollup cycler.dials ledger t) {agg : Nat}
    (aggregate : cycler.layout.rollup.members agg ≠ []) (inbound : Bool) :
    (ledger agg = none → cycler.octets ledger t agg inbound =
        ((cycler.layout.rollup.members agg).map fun m => cycler.octets ledger t m inbound).sum) ∧
      cycler.octets ledger t agg inbound ≤
        ((cycler.layout.rollup.members agg).map fun m => cycler.octets ledger t m inbound).sum := by
  obtain ⟨m, mem⟩ := List.exists_mem_of_ne_nil _ aggregate
  rw [sum_octets_members aggregate, octets_eq (HierarchyTables.range_of_mem mem).1.2]
  refine ⟨fun never => ?_, Nat.add_le_add_left (servedDeltaAt_le_rawDeltaAt sound agg inbound) _⟩
  rw [servedDeltaAt_eq, never]
  rfl

/-- An interface that declares no speed carries no traffic: its base is zero and its dial stands. -/
def SpeedlessStill (cycler : OctetCycler Time) : Prop :=
  ∀ i, cycler.ifSpeedBps i = 0 → ∀ inbound, cycler.initBases i inbound = 0 ∧
    ∀ t, cycler.deltaOctetsAt i inbound t = 0

theorem octets_speedless (still : cycler.SpeedlessStill) {c p : Nat}
    (parent : cycler.tables.parents c = some p) (speedless : cycler.ifSpeedBps c = 0)
    (inbound : Bool) : cycler.octets ledger t c inbound = 0 := by
  obtain ⟨noBase, noDelta⟩ := still c speedless inbound
  have orphan : cycler.layout.rollup.counterParent c = none := by
    simp [layout, HierarchyTables.rollup, buildRollup, rollupParent, speedless]
  have plain : cycler.layout.rollup.members c = [] := by
    refine List.eq_nil_iff_forall_not_mem.mpr fun m mem => ?_
    rw [(rollupMembers_spec mem).1] at parent
    cases parent
  have base : cycler.bases c inbound = 0 := by
    unfold bases
    rw [rollupBases_top orphan, seedAggregates_apply, if_neg]
    · exact noBase
    · simp [Rollup.mem_aggregateSlots, plain]
  have raw : rawDeltaAt cycler.layout.rollup cycler.dials ledger inbound c = fun _ => 0 := by
    funext s
    simp [rawDeltaAt, rawDeltaFrom, plain, orphan, dials, noDelta]
  rw [octets_eq (cycler.tables.child_range parent).1.2, base, servedDeltaAt_eq_reading, raw]
  simp [Hold.reading]

theorem sound_foldl_reconcileHoldAt (oper : Nat → Nat) {calls : List (OperCall Time)}
    (sorted : (calls.map OperCall.now).Pairwise (· ≤ ·)) (after : ∀ call ∈ calls, call.now ≤ t) :
    Ledger.Sound cycler.layout.rollup cycler.dials
      (calls.foldl (reconcileHoldAt cycler.layout cycler.dials) (seedHolds cycler.layout oper))
      t := by
  have instants :
      (calls.map CounterStep.oper).map CounterStep.instant = calls.map OperCall.now := by
    rw [List.map_map]
    rfl
  have seeded : Ledger.Sound cycler.layout.rollup cycler.dials (seedHolds cycler.layout oper) ⊥ :=
    sound_seedHolds oper ⊥
  rw [← instants] at sorted
  obtain ⟨last, sound, least⟩ := (run_spec seeded sorted fun _ _ => bot_le).1
  have upTo : last ≤ t := by
    refine least t bot_le fun step mem => ?_
    obtain ⟨call, called, rfl⟩ := List.mem_map.mp mem
    exact after call called
  rw [runLedger, List.foldl_map] at sound
  exact fun i inbound => (sound i inbound).raise upTo fun _ _ => le_rfl

end OctetCycler

/-- **Roll-up bounds.** For every one-level hierarchy, with any standalone dials that never fall and
any shares of which those of one parent's children sum to at most one, after any run of transitions
at non-decreasing instants and at every instant from the last of them on: the children of one parent
serve together at most what it serves, and an aggregate serves what its members serve together while
it has never been held, and at most that otherwise. A child that declares no speed takes no share;
it may be counted among the children where such an interface carries no traffic. -/
theorem rollup_bounds {Time : Type} [LinearOrder Time] [OrderBot Time] (cycler : OctetCycler Time)
    (oper : Nat → Nat) (calls : List (OperCall Time))
    (sorted : (calls.map OperCall.now).Pairwise (· ≤ ·)) (t : Time)
    (after : ∀ call ∈ calls, call.now ≤ t) (inbound : Bool) :
    let ledger : Ledger Time :=
      calls.foldl (reconcileHoldAt cycler.layout cycler.dials) (seedHolds cycler.layout oper)
    (∀ p, ∑ c ∈ cycler.tables.sharers cycler.ifSpeedBps p, cycler.octets ledger t c inbound ≤
        cycler.octets ledger t p inbound) ∧
      (cycler.SpeedlessStill → ∀ p,
        ∑ c ∈ cycler.tables.children p, cycler.octets ledger t c inbound ≤
          cycler.octets ledger t p inbound) ∧
      ∀ agg, cycler.layout.rollup.members agg ≠ [] →
        (ledger agg = none → cycler.octets ledger t agg inbound =
            ((cycler.layout.rollup.members agg).map
              fun m => cycler.octets ledger t m inbound).sum) ∧
          cycler.octets ledger t agg inbound ≤
            ((cycler.layout.rollup.members agg).map
              fun m => cycler.octets ledger t m inbound).sum := by
  intro ledger
  have sound : Ledger.Sound cycler.layout.rollup cycler.dials ledger t :=
    OctetCycler.sound_foldl_reconcileHoldAt oper sorted after
  have shared := fun p => OctetCycler.sum_octets_sharers_le sound p inbound
  refine ⟨shared, fun still p => ?_, fun agg aggregate =>
    OctetCycler.octets_aggregate_le sound aggregate inbound⟩
  have all : ∑ c ∈ cycler.tables.sharers cycler.ifSpeedBps p, cycler.octets ledger t c inbound =
      ∑ c ∈ cycler.tables.children p, cycler.octets ledger t c inbound := by
    refine Finset.sum_subset (Finset.filter_subset _ _) fun c child noShare => ?_
    have speedless : cycler.ifSpeedBps c = 0 := by
      by_contra speed
      exact noShare (Finset.mem_filter.mpr ⟨child, speed⟩)
    exact OctetCycler.octets_speedless still (Finset.mem_filter.mp child).2 speedless inbound
  exact all ▸ shared p

/-- A port with one subinterface and an aggregate of two further ports. -/
def bayTables : HierarchyTables 5 where
  parents := bayParents
  members := bayMembers
  oneLevel := oneLevel_bayParents
  child_range := by
    intro c p parent
    unfold bayParents at parent
    split at parent
    · next child =>
        cases parent
        omega
    · cases parent
  member_range := by
    intro agg m mem
    unfold bayMembers at mem
    split at mem
    · rcases List.mem_pair.mp mem with rfl | rfl <;> omega
    · exact absurd mem List.not_mem_nil

def bayCycler : OctetCycler Nat where
  maxIfIndex := 5
  known _ := true
  ifSpeedBps _ := 8
  tables := bayTables
  share := bayTables.shares (fun _ => 8) fun _ => 0
  share_nonneg := HierarchyTables.shares_nonneg _
  sum_share_le := HierarchyTables.sum_shares_le _
  deltaOctetsAt _ _ t := t
  deltaOctetsAt_mono _ _ _ _ le := le
  initBases _ _ := 100

/-- The subinterface goes down, its port flaps, and the aggregate goes down and stays so. -/
def bayFlaps : List (OperCall Nat) := [⟨2, 2, 10⟩, ⟨1, 2, 20⟩, ⟨1, 1, 30⟩, ⟨3, 2, 40⟩]

theorem rollup_bounds_bay :
    (bayFlaps.map OperCall.now).Pairwise (· ≤ ·) ∧ (∀ call ∈ bayFlaps, call.now ≤ 50) ∧
      bayCycler.layout.rollup.members 3 ≠ [] ∧
      ∑ c ∈ bayCycler.tables.sharers bayCycler.ifSpeedBps 1,
          bayCycler.octets (bayFlaps.foldl (reconcileHoldAt bayCycler.layout bayCycler.dials)
            (seedHolds bayCycler.layout fun _ => 1)) 50 c true ≤
        bayCycler.octets (bayFlaps.foldl (reconcileHoldAt bayCycler.layout bayCycler.dials)
          (seedHolds bayCycler.layout fun _ => 1)) 50 1 true :=
  ⟨by decide, by decide, by decide,
    (rollup_bounds bayCycler (fun _ => 1) bayFlaps (by decide) 50 (by decide) true).1 1⟩

end Nl6
