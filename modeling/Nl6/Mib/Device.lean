import Nl6.Mib.LldpServed
import Nl6.Mib.Metrics

/-! # The device and the GET path

`Device` collects what the SNMP agent of one device reads: the indexed resource file, the two
scalars the device keeps itself, the metric objects of its type, the interface counters and the
links. `findResponseAt` answers a GET. The objects it has a value for are the device's served
objects (`Device.served`), and `mem_served_iff` splits them by the source that owns them.
-/

namespace Nl6

open Numeral

/-- The RFC 3416 exception for an object outside the view. -/
def valueNoSuchObject : Bytes := ascii "noSuchObject"

/-- The RFC 3416 exception for the end of the view. -/
def valueEndOfMibView : Bytes := ascii "endOfMibView"

/-- What the agent of one device reads. The resource file names objects by identifiers. -/
structure Device where
  sorter : Sorter
  snmp : List SNMPResource
  identifiers : ∀ oid ∈ staticKeys snmp, IsOID oid
  ip : Option (UInt8 × UInt8 × UInt8 × UInt8)
  cachedSysName : Bytes
  cachedSysLocation : Bytes
  metricOIDs : MetricTable
  metricsCycler : Option MetricsCycler
  linkView : LinkView

namespace Device

variable (d : Device) (p : MetricPoint)

def resources : DeviceResources := buildResourceIndexes d.sorter d.snmp

/-- The published interface counters. -/
def ifCycler : Option IfCounterCycler := d.metricsCycler.bind MetricsCycler.ifCounters

/-- The LLDP provider of the device. -/
def lldp : LldpContext where
  toLinkView := d.linkView
  self := ⟨d.ip, d.cachedSysName, d.resources.oidIndex, d.ifCycler.bind IfCounterCycler.state⟩

/-- `lldpServedOIDs`: the snapshot a request takes. -/
def lldpServedOIDs : List KvOID := d.lldp.buildLLDPServedOIDs d.sorter

/-- The reading of a metric object, empty without a cycler. -/
def metricValue (oid : Bytes) : Bytes :=
  match d.metricsCycler with
  | some cycler => d.metricOIDs.getMetricValue cycler oid p
  | none => []

/-- The interface counter or status under an object, empty without counters. -/
def cyclerValue (oid : Bytes) : Bytes :=
  match d.ifCycler with
  | some counters => counters.getDynamic oid
  | none => []

/-- The LLDP or alias value under an object, empty outside the two ranges. -/
def lldpValue (oid : Bytes) : Bytes :=
  if isLLDPOID oid || isIfAliasOID oid then d.lldp.lldpGet oid else []

/-- The value GET has for an object: the first source that owns it, in order of precedence. -/
def findValue (oid : Bytes) : Option Bytes :=
  if oid = sysLocationOID then some d.cachedSysLocation
  else if oid = sysNameOID then some d.cachedSysName
  else if d.metricValue p oid ≠ [] then some (d.metricValue p oid)
  else if d.cyclerValue oid ≠ [] then some (d.cyclerValue oid)
  else if d.lldpValue oid ≠ [] then some (d.lldpValue oid)
  else d.resources.oidIndex.load oid

def findResponseAt (oid : Bytes) : Bytes := (d.findValue p oid).getD valueNoSuchObject

/-- The objects the device serves on GET. -/
def served : Set (List Nat) := {arcs | Arcs arcs ∧ (d.findValue p (dotted arcs)).isSome}

end Device

/-! ### The sources of served objects -/

/-- Where a served object's value comes from, in the order a walk lists its candidates. -/
inductive Source where
  | static
  | sysName
  | sysLocation
  | metric
  | cycler
  | lldp
  deriving DecidableEq, Repr

namespace Device

variable (d : Device) (p : MetricPoint) {arcs : List Nat}

/-- The objects a source owns. -/
def rows : Source → Set (List Nat)
  | .static => {arcs | dotted arcs ∈ d.resources.sortedOIDs}
  | .sysName => {sysNameArcs}
  | .sysLocation => {sysLocationArcs}
  | .metric => {arcs | d.metricsCycler.isSome ∧ dotted arcs ∈ d.metricOIDs.getSortedMetricOIDs}
  | .cycler => {arcs | ∃ counters ∈ d.ifCycler, arcs ∈ counters.rows}
  | .lldp => {arcs | Arcs arcs ∧ d.lldp.lldpGet (dotted arcs) ≠ []}

/-- The value a source has for an object it owns. -/
def sourceValue : Source → Bytes → Bytes
  | .static, oid => (d.resources.oidIndex.load oid).getD []
  | .sysName, _ => d.cachedSysName
  | .sysLocation, _ => d.cachedSysLocation
  | .metric, oid => d.metricValue p oid
  | .cycler, oid => d.cyclerValue oid
  | .lldp, oid => d.lldp.lldpGet oid

theorem resources_view : ∃ arcs, StaticView d.resources arcs :=
  buildResourceIndexes_view d.sorter d.snmp d.identifiers

theorem metricValue_ne_nil_iff (arcs : List Nat) :
    d.metricValue p (dotted arcs) ≠ [] ↔ arcs ∈ d.rows .metric := by
  change _ ↔ d.metricsCycler.isSome = true ∧ dotted arcs ∈ d.metricOIDs.getSortedMetricOIDs
  rw [metricValue]
  cases d.metricsCycler with
  | none => simp
  | some cycler => simp [d.metricOIDs.getMetricValue_ne_nil_iff cycler]

theorem cyclerValue_ne_nil_iff (bounded : Arcs arcs) :
    d.cyclerValue (dotted arcs) ≠ [] ↔ arcs ∈ d.rows .cycler := by
  change _ ↔ ∃ counters ∈ d.ifCycler, arcs ∈ counters.rows
  rw [cyclerValue]
  cases d.ifCycler with
  | none => simp
  | some counters => simp [counters.getDynamic_ne_nil_iff bounded]

theorem lldpValue_eq (bounded : Arcs arcs) :
    d.lldpValue (dotted arcs) = d.lldp.lldpGet (dotted arcs) := by
  rw [lldpValue]
  by_cases answered : d.lldp.lldpGet (dotted arcs) = []
  · simp [answered]
  · have inRange := (d.lldp.row_of_lldpGet_ne_nil bounded answered).2.inRange
    simp [inRange]

theorem lldpValue_ne_nil_iff (bounded : Arcs arcs) :
    d.lldpValue (dotted arcs) ≠ [] ↔ arcs ∈ d.rows .lldp := by
  rw [d.lldpValue_eq bounded]
  exact ⟨fun answered => ⟨bounded, answered⟩, And.right⟩

theorem index_isSome_iff (arcs : List Nat) :
    (d.resources.oidIndex.load (dotted arcs)).isSome ↔ arcs ∈ d.rows .static := by
  obtain ⟨listed, view⟩ := d.resources_view
  exact view.index_isSome (dotted arcs)

theorem rows_bounded {source : Source} (owned : arcs ∈ d.rows source) : arcs ≠ [] ∧ Arcs arcs := by
  cases source with
  | static =>
    obtain ⟨listed, view⟩ := d.resources_view
    have member : dotted arcs ∈ d.resources.sortedOIDs := owned
    rw [view.sorted_eq, List.mem_map_of_injective dotted_injective] at member
    exact view.bounded arcs member
  | sysName =>
    obtain rfl : arcs = sysNameArcs := owned
    exact ⟨by decide, sysNameArcs_bounded⟩
  | sysLocation =>
    obtain rfl : arcs = sysLocationArcs := owned
    exact ⟨by decide, sysLocationArcs_bounded⟩
  | metric =>
    obtain ⟨listed, same, -, bounded⟩ := d.metricOIDs.getSortedMetricOIDs_spec
    have member := owned.2
    rw [same, List.mem_map_of_injective dotted_injective] at member
    exact bounded arcs member
  | cycler =>
    obtain ⟨counters, -, c, listed, -, i, known, rfl⟩ := owned
    exact ⟨by simp [rowArcs], counters.rowArcs_bounded listed known⟩
  | lldp => exact (d.lldp.row_of_lldpGet_ne_nil owned.1 owned.2).2.bounded

private theorem finite_dotted (oids : List Bytes) : {arcs | dotted arcs ∈ oids}.Finite :=
  Set.Finite.preimage dotted_injective.injOn (List.finite_toSet oids)

theorem rows_finite (source : Source) : (d.rows source).Finite := by
  cases source with
  | static => exact finite_dotted _
  | sysName => exact Set.finite_singleton _
  | sysLocation => exact Set.finite_singleton _
  | metric => exact (finite_dotted _).subset fun arcs owned => owned.2
  | cycler =>
    cases present : d.ifCycler with
    | none =>
      refine Set.finite_empty.subset ?_
      rintro arcs ⟨counters, listed, -⟩
      simp [present] at listed
    | some counters =>
      refine (List.finite_toSet (ifCyclerColumns.flatMap fun c =>
        counters.sortedIfIndexes.map (rowArcs c))).subset ?_
      rintro arcs ⟨other, listed, c, column, -, i, known, rfl⟩
      obtain rfl : counters = other := by simpa [present] using listed
      exact List.mem_flatMap.mpr ⟨c, column, List.mem_map_of_mem known⟩
  | lldp =>
    obtain ⟨listed, -, -, -, complete⟩ := d.lldp.served_spec d.sorter
    exact (List.finite_toSet listed).subset fun arcs owned => complete arcs owned.1 owned.2

/-- **What GET serves.** An object has a value exactly when one of the sources owns it. -/
theorem mem_served_iff : arcs ∈ d.served p ↔ ∃ source, arcs ∈ d.rows source := by
  constructor
  · rintro ⟨bounded, found⟩
    rw [findValue] at found
    split_ifs at found with isLocation isName isMetric isCounter isLink
    · exact ⟨.sysLocation, dotted_inj.mp (isLocation.trans sysLocationOID_eq)⟩
    · exact ⟨.sysName, dotted_inj.mp (isName.trans sysNameOID_eq)⟩
    · exact ⟨.metric, (d.metricValue_ne_nil_iff p arcs).mp isMetric⟩
    · exact ⟨.cycler, (d.cyclerValue_ne_nil_iff bounded).mp isCounter⟩
    · exact ⟨.lldp, (d.lldpValue_ne_nil_iff bounded).mp isLink⟩
    · exact ⟨.static, (d.index_isSome_iff arcs).mp found⟩
  · rintro ⟨source, owned⟩
    have bounded := (d.rows_bounded owned).2
    refine ⟨bounded, ?_⟩
    rw [findValue]
    split_ifs with isLocation isName isMetric isCounter isLink
    · rfl
    · rfl
    · rfl
    · rfl
    · rfl
    · cases source with
      | static => exact (d.index_isSome_iff arcs).mpr owned
      | sysName => exact absurd (congrArg dotted owned) (sysNameOID_eq ▸ isName)
      | sysLocation => exact absurd (congrArg dotted owned) (sysLocationOID_eq ▸ isLocation)
      | metric => exact absurd ((d.metricValue_ne_nil_iff p arcs).mpr owned) isMetric
      | cycler => exact absurd ((d.cyclerValue_ne_nil_iff bounded).mpr owned) isCounter
      | lldp => exact absurd ((d.lldpValue_ne_nil_iff bounded).mpr owned) isLink

theorem served_finite : (d.served p).Finite := by
  have cover : d.served p ⊆ ⋃ source ∈ ({.static, .sysName, .sysLocation, .metric, .cycler, .lldp} :
      Finset Source), d.rows source := by
    intro arcs present
    obtain ⟨source, owned⟩ := (d.mem_served_iff p).mp present
    refine Set.mem_biUnion (x := source) ?_ owned
    cases source <;> simp
  exact (Set.Finite.biUnion (Finset.finite_toSet _) fun source _ => d.rows_finite source).subset cover

/-! ### Devices given by their static objects -/

/-- A device that serves static objects and its own two scalars only. -/
def ofStatic (rows : List (List Nat × Bytes)) (wellFormed : ∀ row ∈ rows, row.1 ≠ [] ∧ Arcs row.1) :
    Device where
  sorter := Sorter.exchange
  snmp := rows.map fun row => ⟨dotted row.1, row.2⟩
  identifiers := by
    intro oid member
    obtain ⟨resource, listed, rfl⟩ := List.mem_map.mp (List.mem_filter.mp member).1
    obtain ⟨row, inside, rfl⟩ := List.mem_map.mp listed
    refine ⟨row.1, (wellFormed row inside).1, (wellFormed row inside).2, ?_⟩
    obtain ⟨first, rest, same⟩ := List.exists_cons_of_ne_nil (wellFormed row inside).1
    rw [same, dotted_cons]
    rfl
  ip := none
  cachedSysName := ascii "device"
  cachedSysLocation := ascii "rack"
  metricOIDs := MetricTable.empty
  metricsCycler := none
  linkView :=
    { links := [], findDeviceByIP := fun _ => none, ports_nodup := List.nodup_nil,
      ports_range := by simp }

end Device

end Nl6
