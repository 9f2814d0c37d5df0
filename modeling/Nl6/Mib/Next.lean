import Nl6.Lib.Successor
import Nl6.Mib.Device

/-! # The GETNEXT path

`findNextOIDWithServed` merges five sources of objects: it takes a precomputed static neighbour when
each dynamic source tests clear of the gap, falls back to the device's own scalars and the LLDP
snapshot when the resource file is empty, and otherwise compares one candidate per source.

Whatever path it takes, the value it reports passes the two overrides; `overrideIfHC_eq` and
`overrideLLDP_eq` read them as a precedence of the live sources.
-/

namespace Nl6

open Numeral Successor

/-- `lldpNextFromServed`: binary search in the snapshot. -/
def lldpNextFromServed (served : List KvOID) (currentOID : Bytes) : Checked (Bytes × Bytes) := do
  let lo ← search served fun kv => decide (compareOIDs kv.oid currentOID ≤ 0)
  if lo < served.length then
    let kv ← Checked.index served lo
    .ok (kv.oid, kv.val)
  else .ok ([], [])

namespace Device

variable (d : Device) (p : MetricPoint)

/-- `overrideIfHC`: the live counter replaces a static value. -/
def overrideIfHC (oid staticResp : Bytes) : Bytes :=
  match d.ifCycler with
  | none => staticResp
  | some counters =>
    if !(IfMibTable.textPrefix .ifTable).isPrefixOf oid &&
        !(IfMibTable.textPrefix .ifXTable).isPrefixOf oid then staticResp
    else if counters.getDynamic oid ≠ [] then counters.getDynamic oid
    else staticResp

/-- `overrideLLDP`: the provider's value replaces a static one. -/
def overrideLLDP (oid staticResp : Bytes) : Bytes :=
  if !isLLDPOID oid && !isIfAliasOID oid then staticResp
  else if d.lldp.lldpGet oid ≠ [] then d.lldp.lldpGet oid
  else staticResp

/-- The precomputed static neighbour with its value. -/
def precomputedNext (currentOID : Bytes) : Option (Bytes × Bytes) := do
  let nextOID ← d.resources.oidNextMap.load currentOID
  let response ← d.resources.oidIndex.load nextOID
  if nextOID ≠ [] then some (nextOID, response) else none

/-- The metric objects leave the gap between two objects clear. -/
def metricsClear (currentOID nextOID : Bytes) : Bool :=
  let oids := d.metricOIDs.getSortedMetricOIDs
  match oids.head?, oids.getLast? with
  | some first, some last =>
    compareOIDs nextOID first ≤ 0 || compareOIDs currentOID last ≥ 0
  | _, _ => true

/-- The interface rows leave the gap between two objects clear. -/
def ifCyclerClear (currentOID nextOID : Bytes) : Bool :=
  match d.ifCycler with
  | none => true
  | some counters =>
    counters.sortedIfIndexes = [] || compareOIDs nextOID counters.firstDynOID ≤ 0 ||
      compareOIDs currentOID counters.lastDynOID ≥ 0

/-- The next provider object lies beyond the gap. -/
def lldpClear (lldpNextOID nextOID : Bytes) : Bool :=
  lldpNextOID = [] || compareOIDs lldpNextOID nextOID > 0

/-- `consider` of the fallback: a closer object above the current one replaces the best. -/
def consider (currentOID : Bytes) (best next : Bytes × Bytes) : Bytes × Bytes :=
  if compareOIDs next.1 currentOID > 0 ∧ (best.1 = [] ∨ compareOIDs next.1 best.1 < 0) then next
  else best

/-- The fallback without static objects. -/
def nextWithoutStatic (currentOID : Bytes) (lldpNext : Bytes × Bytes) : Bytes × Bytes :=
  let best := consider currentOID ([], []) (sysNameOID, d.cachedSysName)
  let best := consider currentOID best (sysLocationOID, d.cachedSysLocation)
  let best := if lldpNext.1 ≠ [] then consider currentOID best lldpNext else best
  if best.1 = [] then ([], valueEndOfMibView) else (best.1, d.overrideLLDP best.1 best.2)

/-- The static candidate: the precomputed neighbour, or the result of a binary search. -/
def staticCandidate (currentOID : Bytes) : Checked (List (Bytes × Bytes)) := do
  let sortedOIDs := d.resources.sortedOIDs
  let left ← search sortedOIDs fun oid => decide (compareOIDs oid currentOID ≤ 0)
  match d.precomputedNext currentOID with
  | some next => .ok [next]
  | none =>
    if left < sortedOIDs.length then
      let staticOID ← Checked.index sortedOIDs left
      if staticOID ≠ sysNameOID ∧ staticOID ≠ sysLocationOID then
        .ok ((d.resources.oidIndex.load staticOID).toList.map fun response =>
          (staticOID, response))
      else .ok []
    else .ok []

/-- The candidate of a scalar the device keeps itself. -/
def scalarCandidate (currentOID oid value : Bytes) : List (Bytes × Bytes) :=
  if compareOIDs oid currentOID > 0 then [(oid, value)] else []

/-- The first metric object above the current one that has a value. -/
def metricCandidate (currentOID : Bytes) : List (Bytes × Bytes) :=
  match d.metricsCycler with
  | none => []
  | some cycler =>
    (d.metricOIDs.getSortedMetricOIDs.find? fun oid =>
      decide (compareOIDs oid currentOID > 0) &&
        decide (d.metricOIDs.getMetricValue cycler oid p ≠ [])).toList.map fun oid =>
          (oid, d.metricOIDs.getMetricValue cycler oid p)

/-- The next interface row. -/
def cyclerCandidate (currentOID : Bytes) : Checked (List (Bytes × Bytes)) :=
  match d.ifCycler with
  | none => .ok []
  | some counters =>
    if counters.sortedIfIndexes = [] then .ok []
    else do
      let next ← counters.nextDynamicOID currentOID
      .ok (if next.1 ≠ [] then [next] else [])

/-- The smallest candidate, its value overridden by the live sources. -/
def smallestCandidate : List (Bytes × Bytes) → Bytes × Bytes
  | [] => ([], valueEndOfMibView)
  | first :: rest =>
    let next := firstMin (fun a b => decide (compareOIDs a.1 b.1 < 0)) first rest
    (next.1, d.overrideLLDP next.1 (d.overrideIfHC next.1 next.2))

/-- The slow path of `findNextOIDWithServed`. -/
def nextFromCandidates (currentOID : Bytes) (lldpNext : Bytes × Bytes) :
    Checked (Bytes × Bytes) := do
  let static ← d.staticCandidate currentOID
  let cycler ← d.cyclerCandidate currentOID
  .ok (d.smallestCandidate (static ++ scalarCandidate currentOID sysNameOID d.cachedSysName ++
    scalarCandidate currentOID sysLocationOID d.cachedSysLocation ++
    d.metricCandidate p currentOID ++ cycler ++ (if lldpNext.1 ≠ [] then [lldpNext] else [])))

/-- What `findNextOIDWithServed` does when the precomputed neighbour cannot be returned at once. -/
def nextOnSlowPath (currentOID : Bytes) (lldpNext : Bytes × Bytes) : Checked (Bytes × Bytes) :=
  if d.resources.sortedOIDs = [] then .ok (d.nextWithoutStatic currentOID lldpNext)
  else d.nextFromCandidates p currentOID lldpNext

def findNextOIDWithServed (currentOID : Bytes) (lldpServed : List KvOID) :
    Checked (Bytes × Bytes) := do
  let lldpNext ← lldpNextFromServed lldpServed currentOID
  match d.precomputedNext currentOID with
  | some (nextOID, response) =>
    if d.metricsClear currentOID nextOID && d.ifCyclerClear currentOID nextOID &&
        lldpClear lldpNext.1 nextOID then
      .ok (nextOID, d.overrideLLDP nextOID (d.overrideIfHC nextOID response))
    else d.nextOnSlowPath p currentOID lldpNext
  | none => d.nextOnSlowPath p currentOID lldpNext

/-- `findNextOID`: the walk step with a snapshot of its own. -/
def findNextOID (currentOID : Bytes) : Checked (Bytes × Bytes) :=
  d.findNextOIDWithServed p currentOID d.lldpServedOIDs

/-! ### The overrides -/

theorem overrideIfHC_eq (oid staticResp : Bytes) :
    d.overrideIfHC oid staticResp =
      if d.cyclerValue oid ≠ [] then d.cyclerValue oid else staticResp := by
  rw [overrideIfHC, cyclerValue]
  cases d.ifCycler with
  | none => simp
  | some counters =>
    by_cases outside : (!(IfMibTable.textPrefix .ifTable).isPrefixOf oid &&
        !(IfMibTable.textPrefix .ifXTable).isPrefixOf oid) = true
    · have silent : counters.getDynamic oid = [] := by
        simp only [Bool.and_eq_true, Bool.not_eq_true'] at outside
        simp [IfCounterCycler.getDynamic, splitTable, afterPrefix, outside.1, outside.2]
      simp [outside, silent]
    · simp [outside]

theorem overrideLLDP_eq (oid staticResp : Bytes) :
    d.overrideLLDP oid staticResp =
      if d.lldpValue oid ≠ [] then d.lldpValue oid else staticResp := by
  rw [overrideLLDP, lldpValue]
  by_cases inside : (isLLDPOID oid || isIfAliasOID oid) = true
  · have kept : ¬ (!isLLDPOID oid && !isIfAliasOID oid) = true := by
      simpa [Bool.or_eq_true, imp_iff_not_or] using inside
    simp [kept, inside]
  · have skipped : (!isLLDPOID oid && !isIfAliasOID oid) = true := by
      simpa [Bool.or_eq_true] using inside
    simp [skipped, inside]

/-- The value a walk reports for an object it took from a source. -/
def resolve (oid value : Bytes) : Bytes := d.overrideLLDP oid (d.overrideIfHC oid value)

theorem lldp_disjoint_cycler {arcs : List Nat} (linked : arcs ∈ d.rows .lldp) :
    arcs ∉ d.rows .cycler := by
  rintro ⟨counters, -, c, listed, -, i, -, same⟩
  have column : ∀ c ∈ ifCyclerColumns, c.col ≠ 18 := by decide
  obtain ⟨table, col⟩ := c
  cases (d.lldp.row_of_lldpGet_ne_nil linked.1 linked.2).2.shape with
  | inl root =>
    obtain ⟨n, rest, rfl⟩ := root
    cases table <;> simp [rowArcs, IfMibTable.arcs, lldpRootArcs] at same
  | inr port =>
    obtain ⟨n, rfl⟩ := port
    cases table with
    | ifTable => simp [rowArcs, IfMibTable.arcs, ifAliasArcs] at same
    | ifXTable =>
      simp only [rowArcs, IfMibTable.arcs, ifAliasArcs, List.cons_append, List.nil_append,
        List.cons.injEq, true_and] at same
      exact column _ listed same.1.symm

theorem scalars_not_cycler : sysNameArcs ∉ d.rows .cycler ∧ sysLocationArcs ∉ d.rows .cycler := by
  constructor <;> rintro ⟨counters, -, ⟨table, col⟩, -, -, i, -, same⟩ <;> cases table <;>
    simp [rowArcs, IfMibTable.arcs, sysNameArcs, sysLocationArcs] at same

theorem scalars_not_lldp : sysNameArcs ∉ d.rows .lldp ∧ sysLocationArcs ∉ d.rows .lldp := by
  constructor <;> intro linked <;>
    rcases (d.lldp.row_of_lldpGet_ne_nil linked.1 linked.2).2.shape with ⟨n, rest, same⟩ | ⟨n, same⟩ <;>
    simp [sysNameArcs, sysLocationArcs, lldpRootArcs, ifAliasArcs] at same

theorem scalars_not_static :
    sysNameArcs ∉ d.rows .static ∧ sysLocationArcs ∉ d.rows .static := by
  obtain ⟨listed, view⟩ := d.resources_view
  have listed_iff : ∀ arcs, arcs ∈ d.rows .static ↔ arcs ∈ listed := fun arcs => by
    change dotted arcs ∈ d.resources.sortedOIDs ↔ _
    rw [view.sorted_eq, List.mem_map_of_injective dotted_injective]
  rw [listed_iff, listed_iff]
  exact ⟨view.no_sysName, view.no_sysLocation⟩

end Device

end Nl6
