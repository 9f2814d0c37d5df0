import Nl6.Mib.Cycler

/-! # Cycling metrics

A device type may name processor, memory, temperature and GPU objects whose values cycle through a
hundred precomputed points. `MetricTable` is the type's table of such objects,
`getSortedMetricOIDs` its cached key list and `getMetricValue` the value of one of them;
`getMetricValue_ne_nil_iff` says which objects have one, and `getSortedMetricOIDs_spec` reads the
cached list as a strictly ascending list of arc sequences.
-/

namespace Nl6

open Numeral

inductive MetricOIDType where
  | cpuPercent
  | memUsed
  | memFree
  | memTotal
  | memUsedPct
  | temperature
  | gpuUtil
  | gpuMemUsed
  | gpuMemTotal
  | gpuTemp
  | gpuPower
  | gpuFanSpeed
  | gpuClockSM
  | gpuClockMem
  deriving DecidableEq, Repr

/-- An index into the precomputed points, as `metricsPointAt` returns it. -/
abbrev MetricPoint : Type := Fin 100

structure GPUMetrics where
  gpuUtil : MetricPoint → Int
  gpuMemUsed : MetricPoint → Int
  gpuMemTotal : Int
  gpuTemp : MetricPoint → Int
  gpuPower : MetricPoint → Int
  gpuFanSpeed : MetricPoint → Int
  gpuClockSM : MetricPoint → Int
  gpuClockMem : MetricPoint → Int

/-- `MetricsCycler`. The rounded floating-point quotient of `GetMemUsedPercent` is a point array of
its own. Interface counters are published together with the engine they read status from. -/
structure MetricsCycler where
  cpuPoints : MetricPoint → Int
  memUsed : MetricPoint → Int
  memUsedPercent : MetricPoint → Int
  tempPoints : MetricPoint → Int
  memTotal : Int
  gpuMetrics : List GPUMetrics
  ifCounters : Option IfCounterCycler
  ifCounters_state : ∀ counters ∈ ifCounters, counters.state.isSome

namespace MetricsCycler

variable (c : MetricsCycler) (p : MetricPoint)

def getMemFree : Bytes :=
  let free := c.memTotal - c.memUsed p
  itoaInt (if free < 0 then 0 else free)

/-- The shape all GPU getters share: a reading of the indexed GPU, `0` outside the list. -/
def getGPU (gpuIndex : Int) (reading : GPUMetrics → Int) : Bytes :=
  if gpuIndex < 0 ∨ (c.gpuMetrics.length : Int) ≤ gpuIndex then ascii "0"
  else
    match c.gpuMetrics[gpuIndex.toNat]? with
    | some gpu => itoaInt (reading gpu)
    | none => ascii "0"

/-- `parseGPUIndexFromOID`: the last component, `0` when it is no number. -/
def parseGPUIndexFromOID (oid : Bytes) : Int :=
  let parsed := atoi ((oid.splitOn dot).getLast?.getD [])
  if parsed.2 then parsed.1 else 0

/-- The getter `getMetricValue` selects for a metric type. -/
def value (oid : Bytes) : MetricOIDType → Bytes
  | .cpuPercent => itoaInt (c.cpuPoints p)
  | .memUsed => itoaInt (c.memUsed p)
  | .memFree => c.getMemFree p
  | .memTotal => itoaInt c.memTotal
  | .memUsedPct => itoaInt (c.memUsedPercent p)
  | .temperature => itoaInt (c.tempPoints p)
  | .gpuUtil => c.getGPU (parseGPUIndexFromOID oid) fun gpu => gpu.gpuUtil p
  | .gpuMemUsed => c.getGPU (parseGPUIndexFromOID oid) fun gpu => gpu.gpuMemUsed p
  | .gpuMemTotal => c.getGPU (parseGPUIndexFromOID oid) GPUMetrics.gpuMemTotal
  | .gpuTemp => c.getGPU (parseGPUIndexFromOID oid) fun gpu => gpu.gpuTemp p
  | .gpuPower => c.getGPU (parseGPUIndexFromOID oid) fun gpu => gpu.gpuPower p
  | .gpuFanSpeed => c.getGPU (parseGPUIndexFromOID oid) fun gpu => gpu.gpuFanSpeed p
  | .gpuClockSM => c.getGPU (parseGPUIndexFromOID oid) fun gpu => gpu.gpuClockSM p
  | .gpuClockMem => c.getGPU (parseGPUIndexFromOID oid) fun gpu => gpu.gpuClockMem p

theorem getGPU_ne_nil (gpuIndex : Int) (reading : GPUMetrics → Int) :
    c.getGPU gpuIndex reading ≠ [] := by
  unfold getGPU
  split
  · decide
  · split
    · exact itoaInt_ne_nil _
    · decide

theorem value_ne_nil (oid : Bytes) (type : MetricOIDType) : c.value p oid type ≠ [] := by
  cases type with
  | memFree => exact itoaInt_ne_nil _
  | cpuPercent | memUsed | memTotal | memUsedPct | temperature => exact itoaInt_ne_nil _
  | _ => exact c.getGPU_ne_nil _ _

end MetricsCycler

/-- The metric objects of a device type: a map, so each identifier once. -/
structure MetricTable where
  entries : List (Bytes × MetricOIDType)
  nodup : (entries.map Prod.fst).Nodup
  identifiers : ∀ entry ∈ entries, IsOID entry.1

namespace MetricTable

variable (table : MetricTable)

/-- The table of a device type without metric objects. -/
def empty : MetricTable where
  entries := []
  nodup := List.nodup_nil
  identifiers := by simp

/-- `GetSortedMetricOIDs`: the keys, exchange-sorted once at start-up. -/
def getSortedMetricOIDs : List Bytes :=
  Sorter.exchange.sort (fun a b => decide (compareOIDs b a > 0)) (table.entries.map Prod.fst)

/-- `getMetricValue`: the reading of a metric object, empty for any other object. -/
def getMetricValue (cycler : MetricsCycler) (oid : Bytes) (p : MetricPoint) : Bytes :=
  match table.entries.lookup oid with
  | some type => cycler.value p oid type
  | none => []

theorem getMetricValue_ne_nil_iff (cycler : MetricsCycler) (oid : Bytes) (p : MetricPoint) :
    table.getMetricValue cycler oid p ≠ [] ↔ oid ∈ table.getSortedMetricOIDs := by
  rw [getSortedMetricOIDs, (Sorter.exchange.perm _ _).mem_iff]
  have listed : oid ∈ table.entries.map Prod.fst ↔ (table.entries.lookup oid).isSome := by
    rw [List.lookup_isSome_iff]
    simp
  rw [listed, getMetricValue]
  cases found : table.entries.lookup oid with
  | none => simp
  | some type => simp [cycler.value_ne_nil p oid type]

/-- The cached key list, read as arcs: strictly ascending, each a well-formed identifier. -/
theorem getSortedMetricOIDs_spec :
    ∃ arcs : List (List Nat), table.getSortedMetricOIDs = arcs.map dotted ∧
      arcs.Pairwise (· < ·) ∧ ∀ oid ∈ arcs, oid ≠ [] ∧ Arcs oid := by
  have keys : ∀ oid ∈ table.entries.map Prod.fst, IsOID oid := by
    intro oid member
    obtain ⟨entry, listed, rfl⟩ := List.mem_map.mp member
    exact table.identifiers entry listed
  obtain ⟨arcs, same, ordered, bounded⟩ := sort_dotted Sorter.exchange
    (fun a b => decide (compareOIDs b a > 0))
    (fun leftBound rightBound => by
      rw [decide_eq_true_eq, gt_iff_lt, compareOIDs_pos_iff rightBound leftBound]) keys
  have distinct : (arcs.map dotted).Nodup :=
    same ▸ (Sorter.exchange.perm _ _).nodup_iff.mpr table.nodup
  refine ⟨arcs, same, ?_, bounded⟩
  refine (ordered.and (List.Nodup.of_map dotted distinct)).imp ?_
  rintro left right ⟨below, apart⟩
  exact lt_of_le_of_ne below apart

end MetricTable

end Nl6
