import Nl6.Lib.Hold
import Nl6.Engine.State

/-! # Octet counters: roll-up and hold ledger

A standalone interface counts octets on a dial, a function of the time since the counters started. A
child counts a share of what its parent serves, an aggregate the sum of what its members serve, and
every interface serves its count through its own hold ledger, which follows the derived operational
status.

`buildRollup` turns the parent table and the aggregate table into a `Rollup`, whose fields say that
a read goes through at most child, aggregate and member. The dials and the scaling by a share are
`Dials`: any monotone functions. Interfaces are named by their index, so the slot of `ifIndex` in the
source is `ifIndex` here.
-/

namespace Nl6

/-! ### The roll-up tables -/

/-- The counter hierarchy. `counterParent` and `members` are the tables of the source, with `none`
and `[]` for an interface that has no parent or sums no members. -/
structure Rollup where
  counterParent : Nat → Option Nat
  members : Nat → List Nat
  standalone_of_member : ∀ {agg m : Nat}, m ∈ members agg → counterParent m = none ∧ members m = []
  top_of_parent : ∀ {c p : Nat}, counterParent c = some p → counterParent p = none ∧ members c = []

def OneLevelParents (parents : Nat → Option Nat) : Prop :=
  ∀ c p, parents c = some p → parents p = none

section BuildRollup

variable (parents : Nat → Option Nat) (members : Nat → List Nat)

/-- The members of `agg` that no earlier aggregate claimed and that have neither a parent nor members
of their own. -/
def usableMembers (claimed : Nat → Option Nat) (agg : Nat) : List Nat :=
  (members agg).filter fun m => (claimed m).isNone && (parents m).isNone && (members m).isEmpty

/-- The loop of `buildRollup` over the aggregates. -/
def claimMembers : List Nat → (Nat → Option Nat) → (Nat → List Nat) → Nat → List Nat
  | [], _, table => table
  | agg :: rest, claimed, table =>
    let ms := usableMembers parents members claimed agg
    if ms.length < 2 then claimMembers rest claimed table
    else claimMembers rest (fun m => if m ∈ ms then some agg else claimed m)
      (Function.update table agg ms)

/-- The aggregates without a parent, in ascending order. -/
def aggregates (maxIfIndex : Nat) : List Nat :=
  (List.range' 1 maxIfIndex).filter fun agg => !(members agg).isEmpty && (parents agg).isNone

/-- The aggregates that sum members, with the members they sum. -/
def rollupMembers (maxIfIndex : Nat) : Nat → List Nat :=
  claimMembers parents members (aggregates parents members maxIfIndex) (fun _ => none) fun _ => []

/-- A child that declares no speed takes no share. -/
def rollupParent (ifSpeedBps : Nat → Nat) (c : Nat) : Option Nat :=
  if ifSpeedBps c = 0 then none else parents c

variable {parents members}

/-- What the loop puts into the table is what was usable when its aggregate had its turn. -/
theorem mem_claimMembers {aggs : List Nat} {claimed : Nat → Option Nat} {table : Nat → List Nat}
    {agg m : Nat} (mem : m ∈ claimMembers parents members aggs claimed table agg) :
    m ∈ table agg ∨ agg ∈ aggs ∧ ∃ claimed, m ∈ usableMembers parents members claimed agg := by
  induction aggs generalizing claimed table with
  | nil => exact .inl mem
  | cons next rest ih =>
    simp only [claimMembers] at mem
    split at mem
    · exact (ih mem).imp_right fun usable => ⟨List.mem_cons_of_mem _ usable.1, usable.2⟩
    · rcases ih mem with member | ⟨later, usable⟩
      · by_cases same : agg = next
        · subst same
          rw [Function.update_self] at member
          exact .inr ⟨List.mem_cons_self, claimed, member⟩
        · rw [Function.update_of_ne same] at member
          exact .inl member
      · exact .inr ⟨List.mem_cons_of_mem _ later, usable⟩

theorem mem_rollupMembers {maxIfIndex agg m : Nat}
    (mem : m ∈ rollupMembers parents members maxIfIndex agg) :
    agg ∈ aggregates parents members maxIfIndex ∧
      ∃ claimed, m ∈ usableMembers parents members claimed agg :=
  (mem_claimMembers mem).resolve_left List.not_mem_nil

/-- What an aggregate sums has no parent and no members, and the aggregate itself has no parent. -/
theorem rollupMembers_spec {maxIfIndex agg m : Nat}
    (mem : m ∈ rollupMembers parents members maxIfIndex agg) :
    parents agg = none ∧ members agg ≠ [] ∧ parents m = none ∧ members m = [] := by
  obtain ⟨aggregate, claimed, usable⟩ := mem_rollupMembers mem
  simp only [aggregates, List.mem_filter, Bool.and_eq_true, Bool.not_eq_true',
    List.isEmpty_eq_false_iff, Option.isNone_iff_eq_none] at aggregate
  simp only [usableMembers, List.mem_filter, Bool.and_eq_true, Option.isNone_iff_eq_none,
    List.isEmpty_iff] at usable
  exact ⟨aggregate.2.2, aggregate.2.1, usable.2.1.2, usable.2.2⟩

/-- `buildRollup`, over a parent table of one level. -/
def buildRollup (maxIfIndex : Nat) (parents : Nat → Option Nat) (members : Nat → List Nat)
    (ifSpeedBps : Nat → Nat) (oneLevel : OneLevelParents parents) : Rollup where
  counterParent := rollupParent parents ifSpeedBps
  members := rollupMembers parents members maxIfIndex
  standalone_of_member := by
    intro agg m mem
    obtain ⟨-, -, orphan, plain⟩ := rollupMembers_spec mem
    refine ⟨by simp [rollupParent, orphan], List.eq_nil_iff_forall_not_mem.mpr fun k member => ?_⟩
    exact (rollupMembers_spec member).2.1 plain
  top_of_parent := by
    intro c p child
    have parent : parents c = some p := by
      unfold rollupParent at child
      split at child
      · cases child
      · exact child
    refine ⟨by simp [rollupParent, oneLevel c p parent],
      List.eq_nil_iff_forall_not_mem.mpr fun k member => ?_⟩
    rw [(rollupMembers_spec member).1] at parent
    cases parent

end BuildRollup

namespace Rollup

variable (rollup : Rollup)

/-- The interfaces a count is composed from; a standalone interface has none. -/
def sources (i : Nat) : List Nat :=
  if rollup.members i ≠ [] then rollup.members i else (rollup.counterParent i).toList

/-- How many interfaces a read of `i` can go through after `i`. -/
def height (i : Nat) : Nat :=
  if rollup.members i ≠ [] then 1 else if (rollup.counterParent i).isSome then 2 else 0

variable {rollup}

theorem height_lt_of_mem_sources {i z : Nat} (mem : z ∈ rollup.sources i) :
    rollup.height z < rollup.height i := by
  unfold sources at mem
  split at mem
  · next aggregate =>
      obtain ⟨orphan, plain⟩ := rollup.standalone_of_member mem
      simp [height, aggregate, orphan, plain]
  · next plain =>
      obtain ⟨top, -⟩ := rollup.top_of_parent (Option.mem_toList.mp mem)
      have child : rollup.counterParent i = some z := Option.mem_toList.mp mem
      simp only [height, plain, if_false, child, Option.isSome_some, if_true, top,
        Option.isSome_none, Bool.false_eq_true]
      split <;> omega

theorem height_le (i : Nat) : rollup.height i ≤ 2 := by
  unfold height
  split <;> [omega; (split <;> omega)]

theorem induction_sources {P : Nat → Prop} (step : ∀ i, (∀ z ∈ rollup.sources i, P z) → P i)
    (i : Nat) : P i := by
  induction h : rollup.height i using Nat.strong_induction_on generalizing i with
  | _ height ih =>
    subst h
    exact step i fun z mem => ih _ (height_lt_of_mem_sources mem) z rfl

end Rollup

/-! ### Counts -/

/-- The octet dial of every interface in both directions, and the scaling of a parent's count to the
share of a child. -/
structure Dials (Time : Type) [LinearOrder Time] where
  deltaOctetsAt : Nat → Bool → Time → Nat
  scale : Nat → Nat → Nat
  deltaOctetsAt_mono : ∀ i inbound, Monotone (deltaOctetsAt i inbound)
  scale_mono : ∀ i, Monotone (scale i)

/-- `counterHold`: the hold ledger of one interface. -/
structure CounterHold (Time : Type) extends Span Time where
  skippedIn : Nat
  skippedOut : Nat

/-- The `hold` table: `none` until the interface is first held. -/
abbrev Ledger (Time : Type) : Type := Nat → Option (CounterHold Time)

variable {Time : Type} [LinearOrder Time]

namespace CounterHold

def skipped (h : CounterHold Time) (inbound : Bool) : Nat :=
  if inbound then h.skippedIn else h.skippedOut

/-- The instant `heldDeltaFor` reads at. -/
def clampedInstant (h : CounterHold Time) (t : Time) : Time :=
  let t := if h.down && decide (h.downAt < t) then h.downAt else t
  if t < h.upAt then h.upAt else t

/-- The test of the branch of `heldDeltaFor` that serves zero. -/
def underflows (raw : Time → Nat) (h : CounterHold Time) (t : Time) (inbound : Bool) : Bool :=
  raw (h.clampedInstant t) < h.skipped inbound

end CounterHold

/-- `heldDeltaFor`, with `raw` for the interface's `rawDeltaAt`. -/
def heldDeltaFor (raw : Time → Nat) (h : Option (CounterHold Time)) (t : Time) (inbound : Bool) :
    Nat :=
  match h with
  | none => raw t
  | some h =>
    if h.underflows raw t inbound then 0 else raw (h.clampedInstant t) - h.skipped inbound

section Counts

variable (rollup : Rollup) (dials : Dials Time)

/-- One level of `rawDeltaAt`, with `served` for `servedDeltaAt`. -/
def rawDeltaFrom (served : Nat → Time → Nat) (inbound : Bool) (i : Nat) (t : Time) : Nat :=
  if rollup.members i ≠ [] then ((rollup.members i).map fun m => served m t).sum
  else match rollup.counterParent i with
    | some p => dials.scale i (served p t)
    | none => dials.deltaOctetsAt i inbound t

/-- The recursion of `servedDeltaAt` through `rawDeltaAt`, at most `depth` interfaces deep. -/
def servedDeltaWithin (ledger : Ledger Time) (inbound : Bool) : Nat → Nat → Time → Nat
  | 0, _, _ => 0
  | depth + 1, i, t =>
    heldDeltaFor (rawDeltaFrom rollup dials (servedDeltaWithin ledger inbound depth) inbound i)
      (ledger i) t inbound

/-- `servedDeltaAt`: a read goes through a child, an aggregate and a member at most. -/
def servedDeltaAt (ledger : Ledger Time) (inbound : Bool) (i : Nat) (t : Time) : Nat :=
  servedDeltaWithin rollup dials ledger inbound 3 i t

def rawDeltaAt (ledger : Ledger Time) (inbound : Bool) (i : Nat) (t : Time) : Nat :=
  rawDeltaFrom rollup dials (servedDeltaAt rollup dials ledger inbound) inbound i t

variable {rollup dials} {ledger : Ledger Time} {inbound : Bool}

theorem rawDeltaFrom_congr {served served' : Nat → Time → Nat} {i : Nat} {t u : Time}
    (instant : rollup.sources i = [] → t = u)
    (same : ∀ z ∈ rollup.sources i, served z t = served' z u) :
    rawDeltaFrom rollup dials served inbound i t = rawDeltaFrom rollup dials served' inbound i u := by
  unfold rawDeltaFrom
  unfold Rollup.sources at same instant
  split
  · next aggregate =>
      rw [if_pos aggregate] at same
      exact congrArg List.sum (List.map_congr_left same)
  · next plain =>
      rw [if_neg plain] at same instant
      cases parent : rollup.counterParent i with
      | none => rw [instant (by simp [parent])]
      | some p => exact congrArg _ (same p (by simp [parent]))

theorem servedDeltaWithin_succ {depth i : Nat} (enough : rollup.height i < depth) (t : Time) :
    servedDeltaWithin rollup dials ledger inbound (depth + 1) i t =
      servedDeltaWithin rollup dials ledger inbound depth i t := by
  induction depth generalizing i t with
  | zero => omega
  | succ depth ih =>
    simp only [servedDeltaWithin]
    congr 1
    funext s
    refine rawDeltaFrom_congr (fun _ => rfl) fun z mem => ?_
    exact ih (by have := Rollup.height_lt_of_mem_sources mem; omega) s

theorem servedDeltaAt_eq (i : Nat) (t : Time) :
    servedDeltaAt rollup dials ledger inbound i t =
      heldDeltaFor (rawDeltaAt rollup dials ledger inbound i) (ledger i) t inbound := by
  have height := rollup.height_le i
  exact (servedDeltaWithin_succ (show rollup.height i < 3 by omega) t).symm

end Counts

/-! ### Following the operational status -/

/-- The interfaces of a cycler and their hierarchy. -/
structure CounterLayout where
  maxIfIndex : Nat
  known : Nat → Bool
  rollup : Rollup

/-- A call of `reconcileHoldAt`: the interface, the operational status the engine derives for it, and
the instant sampled. -/
structure OperCall (Time : Type) where
  ifIndex : Int
  oper : Nat
  now : Time

/-- `heldDeltasAt` while no ledger entry is being written. -/
def heldDeltasAt (layout : CounterLayout) (dials : Dials Time) (ledger : Ledger Time) (i : Nat)
    (t : Time) : Nat × Nat :=
  if layout.maxIfIndex < i then (dials.deltaOctetsAt i true t, dials.deltaOctetsAt i false t)
  else (servedDeltaAt layout.rollup dials ledger true i t,
    servedDeltaAt layout.rollup dials ledger false i t)

variable [OrderBot Time]

/-- The ledger entry `reconcileHoldAt` leaves behind, with `raw` for the interface's `rawDeltaAt`.
The instant zero of the cycler is the least instant. -/
def reconciled (raw : Bool → Time → Nat) (h : Option (CounterHold Time)) (up : Bool) (t : Time) :
    Option (CounterHold Time) :=
  match up, h with
  | true, none => none
  | true, some h =>
    if h.down then
      let t := if t < h.downAt then h.downAt else t
      some {
        down := false, downAt := ⊥, upAt := t
        skippedIn := h.skippedIn + raw true t - raw true h.downAt
        skippedOut := h.skippedOut + raw false t - raw false h.downAt }
    else some h
  | false, none => some { down := true, downAt := t, upAt := ⊥, skippedIn := 0, skippedOut := 0 }
  | false, some h => if h.down then some h else some { h with down := true, downAt := t }

/-- The interfaces `reconcileHoldAt` keeps a ledger for. -/
def CounterLayout.keeps (layout : CounterLayout) (ifIndex : Int) : Prop :=
  1 ≤ ifIndex ∧ ifIndex ≤ layout.maxIfIndex ∧ layout.known ifIndex.toNat = true

instance (layout : CounterLayout) (ifIndex : Int) : Decidable (layout.keeps ifIndex) :=
  inferInstanceAs (Decidable (_ ∧ _ ∧ _))

def reconcileHoldAt (layout : CounterLayout) (dials : Dials Time) (ledger : Ledger Time)
    (call : OperCall Time) : Ledger Time :=
  if layout.keeps call.ifIndex then
    let i := call.ifIndex.toNat
    Function.update ledger i
      (reconciled (fun inbound => rawDeltaAt layout.rollup dials ledger inbound i) (ledger i)
        (call.oper = operUpStatus) call.now)
  else ledger

/-- `seedHolds`: a hold opened at the start for every known interface that is not up. -/
def seedHolds (layout : CounterLayout) (oper : Nat → Nat) : Ledger Time := fun i =>
  if layout.known i && oper i != operUpStatus then
    some { down := true, downAt := ⊥, upAt := ⊥, skippedIn := 0, skippedOut := 0 }
  else none

end Nl6
