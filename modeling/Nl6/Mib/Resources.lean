import Nl6.Lib.Store
import Nl6.Oid.Compare

/-! # The static object index

`buildResourceIndexes` turns the SNMP entries of a resource file into the three tables the agent
walks: `oidIndex`, `sortedOIDs` and `oidNextMap`. `StaticView` is the reading of these tables as an
ordered list of arc sequences, and `buildResourceIndexes_view` establishes it for every sort that
meets its contract; in particular for one that reorders the copies of a repeated entry.
-/

namespace Nl6

open Numeral

/-- One SNMP entry of a resource file. -/
structure SNMPResource where
  oid : Bytes
  response : Bytes
  deriving DecidableEq, Repr

/-- The indexed static objects of a device type. -/
structure DeviceResources where
  snmp : List SNMPResource
  oidIndex : Store Bytes Bytes
  sortedOIDs : List Bytes
  oidNextMap : Store Bytes Bytes

/-- The scalar `sysName.0`, served from the device and never from its resource file. -/
def sysNameOID : Bytes := ascii ".1.3.6.1.2.1.1.5.0"

/-- The scalar `sysLocation.0`, served from the device and never from its resource file. -/
def sysLocationOID : Bytes := ascii ".1.3.6.1.2.1.1.6.0"

/-- The arcs of `sysName.0`. -/
def sysNameArcs : List Nat := [1, 3, 6, 1, 2, 1, 1, 5, 0]

/-- The arcs of `sysLocation.0`. -/
def sysLocationArcs : List Nat := [1, 3, 6, 1, 2, 1, 1, 6, 0]

theorem sysNameOID_eq : sysNameOID = dotted sysNameArcs := by decide

theorem sysLocationOID_eq : sysLocationOID = dotted sysLocationArcs := by decide

theorem sysNameArcs_bounded : Arcs sysNameArcs := by decide

theorem sysLocationArcs_bounded : Arcs sysLocationArcs := by decide

/-- `normaliseResourceOID`: give an entry's key the leading dot. -/
def normaliseResourceOID (oid : Bytes) : Bytes :=
  match oid with
  | [] => []
  | c :: _ => if c = dot then oid else dot :: oid

/-- The comparison both sorts of `buildResourceIndexes` use. -/
def lexicographicallyLess (oid1 oid2 : Bytes) : Bool :=
  decide (compareOIDsLexicographically oid1 oid2 < 0)

/-- `buildResourceIndexes`. The two scalars the device serves itself are left out of the tables. -/
def buildResourceIndexes (sorter : Sorter) (snmp : List SNMPResource) : DeviceResources :=
  let snmp := sorter.sort (fun a b => lexicographicallyLess a.oid b.oid) snmp
  let indexed := (snmp.map fun resource => (normaliseResourceOID resource.oid, resource.response))
    |>.filter fun entry => entry.1 ≠ sysNameOID ∧ entry.1 ≠ sysLocationOID
  let sortedOIDs := sorter.sort lexicographicallyLess (indexed.map Prod.fst)
  { snmp
    oidIndex := Store.empty.storeAll indexed
    sortedOIDs
    oidNextMap := Store.neighbours sortedOIDs }

/-- The keys a resource file contributes, normalised and in file order. -/
def staticKeys (snmp : List SNMPResource) : List Bytes :=
  (snmp.map fun resource => normaliseResourceOID resource.oid).filter fun oid =>
    oid ≠ sysNameOID ∧ oid ≠ sysLocationOID

/-- The tables of a device type read as an ordered list of arc sequences. -/
structure StaticView (resources : DeviceResources) (arcs : List (List Nat)) : Prop where
  sorted_eq : resources.sortedOIDs = arcs.map dotted
  ordered : arcs.Pairwise (· ≤ ·)
  bounded : ∀ oid ∈ arcs, oid ≠ [] ∧ Arcs oid
  no_sysName : sysNameArcs ∉ arcs
  no_sysLocation : sysLocationArcs ∉ arcs
  index_isSome : ∀ oid, (resources.oidIndex.load oid).isSome ↔ oid ∈ resources.sortedOIDs
  next_eq : resources.oidNextMap = Store.neighbours resources.sortedOIDs

theorem lexicographicallyLess_dotted {left right : List Nat} (leftBound : Arcs left)
    (rightBound : Arcs right) :
    lexicographicallyLess (dotted left) (dotted right) = true ↔ left < right := by
  rw [lexicographicallyLess, decide_eq_true_eq,
    compareOIDsLexicographically_dotted leftBound rightBound, compareArcs_neg]

theorem staticKeys_perm (sorter : Sorter) (snmp : List SNMPResource) :
    (buildResourceIndexes sorter snmp).sortedOIDs.Perm (staticKeys snmp) := by
  refine (sorter.perm _ _).trans ?_
  rw [List.filter_map, List.map_map, staticKeys, List.filter_map]
  exact ((sorter.perm _ _).filter _).map _

/-- **The index is faithful.** Whatever order the sort leaves equal entries in, the tables list
exactly the file's keys in ascending order of their arcs. -/
theorem buildResourceIndexes_view (sorter : Sorter) (snmp : List SNMPResource)
    (identifiers : ∀ oid ∈ staticKeys snmp, IsOID oid) :
    ∃ arcs, StaticView (buildResourceIndexes sorter snmp) arcs := by
  have perm := staticKeys_perm sorter snmp
  obtain ⟨arcs, same, ordered, bounded⟩ := sort_dotted sorter lexicographicallyLess
    (fun leftBound rightBound => lexicographicallyLess_dotted leftBound rightBound)
    (fun oid member => identifiers oid (perm.mem_iff.mp
      ((sorter.perm lexicographicallyLess _).mem_iff.mpr member)))
  have apart : ∀ oid ∈ (buildResourceIndexes sorter snmp).sortedOIDs,
      oid ≠ sysNameOID ∧ oid ≠ sysLocationOID := by
    intro oid member
    have kept := (List.mem_filter.mp (perm.mem_iff.mp member)).2
    simpa using kept
  refine ⟨arcs, same, ordered, bounded, ?_, ?_, ?_, rfl⟩
  · intro member
    refine (apart (dotted sysNameArcs) ?_).1 sysNameOID_eq.symm
    exact (congrArg _ same).mpr (List.mem_map_of_mem member)
  · intro member
    refine (apart (dotted sysLocationArcs) ?_).2 sysLocationOID_eq.symm
    exact (congrArg _ same).mpr (List.mem_map_of_mem member)
  · intro oid
    rw [show (buildResourceIndexes sorter snmp).oidIndex = Store.empty.storeAll _ from rfl,
      Store.load_storeAll_isSome]
    exact (sorter.perm lexicographicallyLess _).mem_iff.symm

end Nl6
