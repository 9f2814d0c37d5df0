import Nl6.Counters.Monotone
import Nl6.Mib.Cycler
import Nl6.Mib.Resources
import Nl6.Wire.Encode

/-! # The interface hierarchy

`interfaceParents` makes the parent table of a device from the names of its interfaces and from its
ifStackTable. A child of a child is to be dropped, so that the table has one level, and everything
that follows it up relies on that: the cascade of the state engine and the recursion of a counter
read. But only interfaces with a name are looked at when children are dropped, so a chain of stack
rows between interfaces without an ifDescr row stays (`interfaceParents_oneLevel_iff`), and a cycle of
them makes every read of their counters recurse for ever (`stacked_cycle_recurses`).
-/

namespace Nl6

open Numeral

/-! ### Names -/

/-- The ifDescr rows of a device: the interfaces that have one, in ascending order, and their texts. -/
structure IfDescrs where
  idxs : List Nat
  name : Nat → Bytes
  ascending : idxs.Pairwise (· < ·)
  positive : ∀ idx ∈ idxs, 0 < idx

/-- The text in front of the last dot and the text behind it. -/
def cutLastDot (s : Bytes) : Option (Bytes × Bytes) :=
  let behind := (s.reverse.takeWhile (· ≠ dot)).reverse
  if behind.length = s.length then none else some (s.take (s.length - behind.length - 1), behind)

/-- `splitSubinterfaceName`: the parent's name and the unit, if the unit is a canonical number of 32
bits. -/
def splitSubinterfaceName (name : Bytes) : Option (Bytes × Bytes) :=
  match cutLastDot name with
  | none => none
  | some (parent, suffix) =>
    if parent = [] then none
    else
      match parseUint 32 suffix with
      | none => none
      | some v => if itoa v ≠ suffix then none else some (parent, suffix)

namespace IfDescrs

variable (names : IfDescrs)

/-- The loop that fills `byName`: of two interfaces with a name the lower one has it. -/
def byName : Bytes → Option Nat :=
  names.idxs.foldl (fun table idx =>
    if (table (names.name idx)).isNone ∧ names.name idx ≠ [] then
      Function.update table (names.name idx) (some idx)
    else table) fun _ => none

/-- The parent an interface has by its name. -/
def namedParent (idx : Nat) : Option Nat :=
  if idx ∈ names.idxs then
    match splitSubinterfaceName (names.name idx) with
    | none => none
    | some (parent, _) =>
      match names.byName parent with
      | none => none
      | some pIdx => if pIdx ≠ idx then some pIdx else none
  else none

/-- What an interface lies on, by its name or else by its stack row. -/
def lowerLayer (stacked : Nat → Option Nat) (idx : Nat) : Option Nat :=
  match names.namedParent idx with
  | some p => some p
  | none => stacked idx

end IfDescrs

/-- `interfaceParents`: an interface with a name whose parent is itself a child is dropped. -/
def interfaceParents (names : IfDescrs) (stacked : Nat → Option Nat) (idx : Nat) : Option Nat :=
  match names.lowerLayer stacked idx with
  | none => none
  | some p =>
    if idx ∈ names.idxs ∧ (names.lowerLayer stacked p).isSome then none else some p

/-! ### The stack table -/

def ifStackStatusPrefix : Bytes := ascii "1.3.6.1.2.1.31.1.2.1.3."

/-- The interfaces of a device. -/
structure KnownIfIndexes where
  has : Int → Bool
  positive : ∀ idx, has idx = true → 0 < idx

/-- The row of ifStackStatus an entry is, if it is an active one: the higher and the lower layer. -/
def stackRow (known : KnownIfIndexes) (e : SNMPResource) : Option (Nat × Int) :=
  let key := if e.oid.head? = some dot then e.oid.tail else e.oid
  match afterPrefix ifStackStatusPrefix key with
  | none => none
  | some rest =>
    match cutDot rest with
    | (_, none) => none
    | (hs, some ls) =>
      match atoi hs, atoi ls with
      | (h, true), (l, true) =>
        if e.response ≠ ascii "1" ∨ known.has h = false ∨ l = 0 ∨ h = l then none
        else some (h.toNat, l)
      | _, _ => none

/-- The maps that `readStackLayers` fills. -/
structure StackRows where
  lower : Nat → List Nat
  rows : Nat → Nat
  seen : List (Nat × Int)

/-- The loop of `readStackLayers` over the entries of a resource file. -/
def readStackRow (known : KnownIfIndexes) (maps : StackRows) (e : SNMPResource) : StackRows :=
  match stackRow known e with
  | none => maps
  | some (h, l) =>
    if (h, l) ∈ maps.seen then maps
    else
      { lower := if known.has l then Function.update maps.lower h (maps.lower h ++ [l.toNat])
          else maps.lower
        rows := Function.update maps.rows h (maps.rows h + 1)
        seen := (h, l) :: maps.seen }

structure StackLayers where
  parents : Nat → Option Nat
  members : Nat → List Nat

/-- `readStackLayers`: the interfaces with one row, which resolves, and those with two or more lower
layers. -/
def readStackLayers (entries : List SNMPResource) (known : KnownIfIndexes) : StackLayers :=
  let maps := entries.foldl (readStackRow known) ⟨fun _ => [], fun _ => 0, []⟩
  { parents := fun h =>
      match maps.lower h with
      | [l] => if 2 ≤ maps.rows h then none else some l
      | _ => none
    members := fun h => if 2 ≤ (maps.lower h).length then maps.lower h else [] }

/-! ### One level -/

/-- An interface without a name lies on nothing that is a child: either nothing is below its lower
layer, or the lower layer has a name and lies on something that lies on something in turn. -/
def NamelessOnTop (names : IfDescrs) (stacked : Nat → Option Nat) : Prop :=
  ∀ h l, h ∉ names.idxs → stacked h = some l → ∀ m, names.lowerLayer stacked l = some m →
    l ∈ names.idxs ∧ (names.lowerLayer stacked m).isSome

theorem IfDescrs.lowerLayer_of_notMem {names : IfDescrs} (stacked : Nat → Option Nat) {idx : Nat}
    (nameless : idx ∉ names.idxs) : names.lowerLayer stacked idx = stacked idx := by
  rw [lowerLayer, namedParent, if_neg nameless]

variable {names : IfDescrs} {stacked : Nat → Option Nat}

theorem interfaceParents_eq_some_iff {c p : Nat} :
    interfaceParents names stacked c = some p ↔ names.lowerLayer stacked c = some p ∧
      (c ∈ names.idxs → names.lowerLayer stacked p = none) := by
  rw [interfaceParents]
  cases below : names.lowerLayer stacked c with
  | none => simp
  | some q =>
    simp only [Option.some.injEq]
    split_ifs with nested
    · refine iff_of_false nofun ?_
      rintro ⟨rfl, top⟩
      rw [top nested.1] at nested
      exact absurd nested.2 nofun
    · rw [Option.some.injEq]
      refine ⟨?_, And.left⟩
      rintro rfl
      exact ⟨rfl, fun named => Option.not_isSome_iff_eq_none.mp fun child => nested ⟨named, child⟩⟩

/-- **One level.** No interface is both a child and a parent exactly if no interface without a name
lies on a child. -/
theorem interfaceParents_oneLevel_iff :
    OneLevelParents (interfaceParents names stacked) ↔ NamelessOnTop names stacked := by
  constructor
  · intro oneLevel h l nameless row m below
    have child : interfaceParents names stacked h = some l := by
      refine interfaceParents_eq_some_iff.mpr ⟨?_, fun named => absurd named nameless⟩
      rw [names.lowerLayer_of_notMem stacked nameless, row]
    by_contra kept
    have alsoChild : interfaceParents names stacked l = some m := by
      refine interfaceParents_eq_some_iff.mpr ⟨below, fun named => ?_⟩
      exact Option.not_isSome_iff_eq_none.mp fun child => kept ⟨named, child⟩
    rw [oneLevel h l child] at alsoChild
    exact absurd alsoChild nofun
  · intro onTop c p child
    obtain ⟨below, top⟩ := interfaceParents_eq_some_iff.mp child
    refine Option.eq_none_iff_forall_ne_some.mpr fun m alsoChild => ?_
    obtain ⟨further, alsoTop⟩ := interfaceParents_eq_some_iff.mp alsoChild
    by_cases named : c ∈ names.idxs
    · rw [top named] at further
      exact absurd further nofun
    · rw [names.lowerLayer_of_notMem stacked named] at below
      obtain ⟨pNamed, deeper⟩ := onTop c p named below m further
      rw [alsoTop pNamed] at deeper
      exact absurd deeper nofun

/-! ### The recursion of a read -/

/-- The tables that `buildRollup` fills, of any parent table. -/
structure RollupTables where
  counterParent : Nat → Option Nat
  members : Nat → List Nat

/-- What `buildRollup` fills the tables with. -/
def rollupTables (maxIfIndex : Nat) (parents : Nat → Option Nat) (members : Nat → List Nat)
    (ifSpeedBps : Nat → Nat) : RollupTables :=
  ⟨rollupParent parents ifSpeedBps, rollupMembers parents members maxIfIndex⟩

section Recursion

variable {Time : Type} [LinearOrder Time]

/-- `heldDeltaFor`, with `raw` for the interface's `rawDeltaAt`, which may not return. -/
def heldDeltaWithin (raw : Time → Option Nat) (h : Option (CounterHold Time)) (t : Time)
    (inbound : Bool) : Option Nat :=
  match h with
  | none => raw t
  | some h => (raw (h.clampedInstant t)).map fun d =>
    if d < h.skipped inbound then 0 else d - h.skipped inbound

/-- `rawDeltaAt`, with `served` for `servedDeltaAt`. -/
def rawDeltaWithin (tables : RollupTables) (dials : Dials Time)
    (served : Nat → Time → Option Nat) (inbound : Bool) (i : Nat) (t : Time) : Option Nat :=
  if tables.members i ≠ [] then ((tables.members i).mapM fun m => served m t).map List.sum
  else match tables.counterParent i with
    | some p => (served p t).map (dials.scale i)
    | none => some (dials.deltaOctetsAt i inbound t)

/-- `servedDeltaAt`; `none` if the recursion is not done after `depth` calls of itself. -/
def servedDeltaCalls (tables : RollupTables) (dials : Dials Time) (ledger : Ledger Time)
    (inbound : Bool) : Nat → Nat → Time → Option Nat
  | 0, _, _ => none
  | depth + 1, i, t =>
    heldDeltaWithin
      (rawDeltaWithin tables dials (servedDeltaCalls tables dials ledger inbound depth) inbound i)
      (ledger i) t inbound

def ReadsReturn (tables : RollupTables) (dials : Dials Time) (ledger : Ledger Time) : Prop :=
  ∀ inbound i t, ∃ depth v, servedDeltaCalls tables dials ledger inbound depth i t = some v

theorem mapM_of_some {α β : Type} {f : α → Option β} {g : α → β} {xs : List α}
    (each : ∀ x ∈ xs, f x = some (g x)) : xs.mapM f = some (xs.map g) := by
  induction xs with
  | nil => rfl
  | cons x xs ih =>
    obtain ⟨first, later⟩ := List.forall_mem_cons.mp each
    rw [List.mapM_cons, first, ih later]
    rfl

variable {dials : Dials Time} {ledger : Ledger Time} {inbound : Bool}

theorem heldDeltaWithin_some (raw : Time → Nat) (h : Option (CounterHold Time)) (t : Time) :
    heldDeltaWithin (fun t => some (raw t)) h t inbound = some (heldDeltaFor raw h t inbound) := by
  cases h with
  | none => rfl
  | some h => simp [heldDeltaWithin, heldDeltaFor, CounterHold.underflows]

theorem rawDeltaWithin_some {rollup : Rollup} {served : Nat → Time → Nat}
    {calls : Nat → Time → Option Nat} {i : Nat} {t : Time}
    (returned : ∀ z ∈ rollup.sources i, calls z t = some (served z t)) :
    rawDeltaWithin ⟨rollup.counterParent, rollup.members⟩ dials calls inbound i t =
      some (rawDeltaFrom rollup dials served inbound i t) := by
  unfold rawDeltaWithin rawDeltaFrom
  unfold Rollup.sources at returned
  by_cases aggregate : rollup.members i ≠ []
  · rw [if_pos aggregate] at returned
    rw [if_pos aggregate, if_pos aggregate, mapM_of_some returned]
    rfl
  · rw [if_neg aggregate] at returned
    rw [if_neg aggregate, if_neg aggregate]
    cases parent : rollup.counterParent i with
    | none => simp only [parent]
    | some p => simp [parent, returned p (by simp [parent])]

/-- With a table of one level, the recursion is done after as many calls as the interface is high, and
returns what the counters are modelled to serve. -/
theorem servedDeltaCalls_eq (rollup : Rollup) {depth i : Nat} (enough : rollup.height i < depth)
    (t : Time) :
    servedDeltaCalls ⟨rollup.counterParent, rollup.members⟩ dials ledger inbound depth i t =
      some (servedDeltaWithin rollup dials ledger inbound depth i t) := by
  induction depth generalizing i t with
  | zero => omega
  | succ depth ih =>
    have raw (u : Time) : rawDeltaWithin ⟨rollup.counterParent, rollup.members⟩ dials
        (servedDeltaCalls ⟨rollup.counterParent, rollup.members⟩ dials ledger inbound depth) inbound
          i u =
        some (rawDeltaFrom rollup dials (servedDeltaWithin rollup dials ledger inbound depth)
          inbound i u) := by
      refine rawDeltaWithin_some fun z mem => ih ?_ u
      have lower := Rollup.height_lt_of_mem_sources mem
      omega
    rw [servedDeltaCalls, funext raw, heldDeltaWithin_some, servedDeltaWithin]

theorem readsReturn_of_oneLevel {maxIfIndex : Nat} {parents : Nat → Option Nat}
    {members : Nat → List Nat} {ifSpeedBps : Nat → Nat} (oneLevel : OneLevelParents parents) :
    ReadsReturn (rollupTables maxIfIndex parents members ifSpeedBps) dials ledger := by
  intro inbound i t
  have height := (buildRollup maxIfIndex parents members ifSpeedBps oneLevel).height_le i
  exact ⟨3, _, servedDeltaCalls_eq (buildRollup maxIfIndex parents members ifSpeedBps oneLevel)
    (Nat.lt_succ_of_le height) t⟩

end Recursion

/-- **The hierarchy has one level and reads return** exactly if no interface without an ifDescr row is
stacked on a child. For all names, all contents of ifStackTable and all sets of interfaces. -/
theorem hierarchy_oneLevel_iff (Time : Type) [LinearOrder Time] (names : IfDescrs)
    (entries : List SNMPResource) (known : KnownIfIndexes) :
    let layers := readStackLayers entries known
    let parents := interfaceParents names layers.parents
    ((∀ idx c p, parents c = some idx → parents idx ≠ some p) ∧
      ∀ maxIfIndex ifSpeedBps (dials : Dials Time) ledger,
        ReadsReturn (rollupTables maxIfIndex parents layers.members ifSpeedBps) dials ledger) ↔
    NamelessOnTop names layers.parents := by
  intro layers parents
  have flat : (∀ idx c p, parents c = some idx → parents idx ≠ some p) ↔ OneLevelParents parents := by
    constructor
    · exact fun apart c p child => Option.eq_none_iff_forall_ne_some.mpr fun m => apart p c m child
    · intro oneLevel idx c p child alsoChild
      rw [oneLevel c idx child] at alsoChild
      exact absurd alsoChild nofun
  rw [flat, ← interfaceParents_oneLevel_iff]
  refine ⟨And.left, fun oneLevel => ⟨oneLevel, fun _ _ _ _ => readsReturn_of_oneLevel oneLevel⟩⟩

/-! ### Two interfaces that lie on each other -/

def nameless : IfDescrs := ⟨[], fun _ => [], .nil, nofun⟩

/-- The stack rows of two interfaces, each the lower layer of the other. -/
def mutualRows : List SNMPResource :=
  [⟨ascii ".1.3.6.1.2.1.31.1.2.1.3.1.2", ascii "1"⟩, ⟨ascii ".1.3.6.1.2.1.31.1.2.1.3.2.1", ascii "1"⟩]

def twoInterfaces : KnownIfIndexes := ⟨fun idx => idx = 1 || idx = 2, by simp⟩

def mutualParents : Nat → Option Nat :=
  interfaceParents nameless (readStackLayers mutualRows twoInterfaces).parents

/-- The tables of the two, of the same speed. -/
def mutualTables : RollupTables :=
  rollupTables 2 mutualParents (readStackLayers mutualRows twoInterfaces).members fun _ => 1000

/-- Each of the two is child and parent of the other, and a read of either never returns. -/
theorem stacked_cycle_recurses :
    mutualParents 1 = some 2 ∧ mutualParents 2 = some 1 ∧
      ∀ depth, servedDeltaCalls mutualTables secondDials (fun _ => none) true depth 1 0 = none ∧
        servedDeltaCalls mutualTables secondDials (fun _ => none) true depth 2 0 = none := by
  have first : mutualTables.members 1 = [] ∧ mutualTables.counterParent 1 = some 2 := by decide
  have second : mutualTables.members 2 = [] ∧ mutualTables.counterParent 2 = some 1 := by decide
  refine ⟨by decide, by decide, fun depth => ?_⟩
  -- each call of one interface makes a call of the other
  induction depth with
  | zero => exact ⟨rfl, rfl⟩
  | succ depth ih =>
    constructor
    · simp [servedDeltaCalls, heldDeltaWithin, rawDeltaWithin, first, ih.2]
    · simp [servedDeltaCalls, heldDeltaWithin, rawDeltaWithin, second, ih.1]

end Nl6
