import Nl6.Lib.Lex
import Nl6.Lib.Successor
import Nl6.Engine.State
import Nl6.Oid.Compare

/-! # The dynamic interface rows

`IfCounterCycler` serves the counter columns of ifTable and ifXTable and, with a state engine, the
three status columns. `getDynamic` answers one object; `nextDynamicOID` is the successor query of a
walk. Its answer is right everywhere except between the two tables: an object behind ifTable and
not behind the ifXTable entry is sent to the end of the walk although every ifXTable row is above
it. `nextDynamicOID_isNext` and `nextDynamicOID_between` are the two halves of that statement.
-/

namespace Nl6

open Numeral

/-- The two tables the cycler owns columns of. -/
inductive IfMibTable where
  | ifTable
  | ifXTable
  deriving DecidableEq, Repr

/-- The arcs of a table's entry object. -/
def IfMibTable.arcs : IfMibTable → List Nat
  | .ifTable => [1, 3, 6, 1, 2, 1, 2, 2, 1]
  | .ifXTable => [1, 3, 6, 1, 2, 1, 31, 1, 1, 1]

/-- `ifTablePrefix` and `ifXTablePrefix`. -/
def IfMibTable.textPrefix : IfMibTable → Bytes
  | .ifTable => ascii ".1.3.6.1.2.1.2.2.1."
  | .ifXTable => ascii ".1.3.6.1.2.1.31.1.1.1."

structure CyclerColumn where
  table : IfMibTable
  col : Nat
  deriving DecidableEq, Repr

/-- `ifCyclerColumns`, in walk order. -/
def ifCyclerColumns : List CyclerColumn :=
  [7, 8, 9, 10, 11, 13, 14, 16, 17, 19, 20].map (CyclerColumn.mk .ifTable) ++
    [2, 3, 4, 5, 6, 7, 8, 9, 10, 11, 12, 13].map (CyclerColumn.mk .ifXTable)

/-- `isStateCol`: the columns only a state engine can answer. -/
def isStateCol (c : CyclerColumn) : Bool :=
  c.table = .ifTable && (c.col = 7 || c.col = 8 || c.col = 9)

/-- `IfCounterCycler`, evaluated at one instant: `live` is the value behind a counter column before
it is cut to the column's width. -/
structure IfCounterCycler where
  sortedIfIndexes : List Nat
  live : IfMibTable → Nat → Nat → Nat
  state : Option InterfaceState
  ascending : sortedIfIndexes.Pairwise (· < ·)
  inRange : ∀ i ∈ sortedIfIndexes, 1 ≤ i ∧ i ≤ 65535

/-- The object of a row: table entry, column, interface. -/
def rowArcs (c : CyclerColumn) (ifIndex : Nat) : List Nat := c.table.arcs ++ [c.col, ifIndex]

/-- The text `prefix + Itoa(col) + "." + Itoa(ifIndex)`. -/
def rowOID (c : CyclerColumn) (ifIndex : Nat) : Bytes :=
  c.table.textPrefix ++ itoa c.col ++ dot :: itoa ifIndex

/-- The text in front of the first dot and, if there is one, the text behind it. -/
def cutDot (s : Bytes) : Bytes × Option Bytes :=
  (s.takeWhile (· ≠ dot), (match s.dropWhile (· ≠ dot) with | [] => none | _ :: rest => some rest))

/-- The text behind a prefix. -/
def afterPrefix (front s : Bytes) : Option Bytes :=
  if front.isPrefixOf s then some (s.drop front.length) else none

/-- The table an object lies in and the text behind the table's prefix. -/
def splitTable (oid : Bytes) : Option (IfMibTable × Bytes) :=
  match afterPrefix (IfMibTable.textPrefix .ifXTable) oid with
  | some suffix => some (.ifXTable, suffix)
  | none => (afterPrefix (IfMibTable.textPrefix .ifTable) oid).map fun suffix => (.ifTable, suffix)

def adminEnumString (v : Nat) : Bytes := if v < adminUp ∨ v > adminTesting then itoa 0 else itoa v

def operEnumString (v : Nat) : Bytes :=
  if v < operUpStatus ∨ v > operLowerLayerDn then itoa 0 else itoa v

namespace IfCounterCycler

variable (ic : IfCounterCycler)

/-- `GetDynamicAt` behind its parse: the value of a column of a known interface. -/
def columnValue (table : IfMibTable) (col : Int) (ifIndex : Nat) : Bytes :=
  let u32 := itoa (ic.live table col.toNat ifIndex % 2 ^ 32)
  let u64 := itoa (ic.live table col.toNat ifIndex % 2 ^ 64)
  match table, ic.state with
  | .ifXTable, _ =>
    if 2 ≤ col ∧ col ≤ 5 then u32
    else if 6 ≤ col ∧ col ≤ 13 then u64
    else []
  | .ifTable, some state =>
    if col = 7 then adminEnumString (state.adminStatus ifIndex)
    else if col = 8 then operEnumString (state.operStatus ifIndex)
    else if col = 9 then
      if state.lastChangeNs ifIndex = lastChangeRewindSentinel ∨
          state.lastChangeNs ifIndex ≤ state.bootTimeUnixNs then itoa 0
      else itoa ((state.lastChangeNs ifIndex - state.bootTimeUnixNs) / 10000000)
    else if col ∈ [10, 11, 13, 14, 16, 17, 19, 20] then u32
    else []
  | .ifTable, none => if col ∈ [10, 11, 13, 14, 16, 17, 19, 20] then u32 else []

/-- `GetDynamic`: the value of an object the cycler owns, else the empty text. -/
def getDynamic (oid : Bytes) : Bytes :=
  match splitTable oid with
  | none => []
  | some (table, suffix) =>
    match cutDot suffix with
    | (_, none) => []
    | (column, some row) =>
      if column = [] ∨ row = [] then []
      else
        match atoi column, atoi row with
        | (col, true), (ifIndex, true) =>
          if ifIndex < 1 ∨ ifIndex.toNat ∉ ic.sortedIfIndexes then []
          else ic.columnValue table col ifIndex.toNat
        | _, _ => []

/-- `firstDynOID`: the first column's first row. -/
def firstDynOID : Bytes :=
  match ic.sortedIfIndexes.head? with
  | some first => rowOID ⟨.ifTable, 7⟩ first
  | none => []

/-- `lastDynOID`: the last column's last row. -/
def lastDynOID : Bytes :=
  match ic.sortedIfIndexes.getLast? with
  | some last => rowOID ⟨.ifXTable, 13⟩ last
  | none => []

/-- The tail of `emitFromColumn`: a row the cycler cannot answer ends the walk. -/
def emitRow (c : CyclerColumn) (ifIndex : Nat) : Bytes × Bytes :=
  if ic.getDynamic (rowOID c ifIndex) = [] then ([], [])
  else (rowOID c ifIndex, ic.getDynamic (rowOID c ifIndex))

/-- `emitFromColumn`: without a state engine the status columns are skipped. -/
def emitFromColumn (colIdx ifIndex : Nat) : Checked (Bytes × Bytes) :=
  match ic.state with
  | none =>
    match (ifCyclerColumns.drop colIdx).dropWhile isStateCol with
    | [] => .ok ([], [])
    | c :: _ => .ok (ic.emitRow c ifIndex)
  | some _ => do
      let c ← Checked.index ifCyclerColumns colIdx
      .ok (ic.emitRow c ifIndex)

/-- The first owned row from a column on. -/
def emitFirst (colIdx : Nat) : Checked (Bytes × Bytes) := do
  let first ← Checked.index ic.sortedIfIndexes 0
  ic.emitFromColumn colIdx first

end IfCounterCycler

/-- Where a requested object stands inside its table. `pastCol` marks a row that cannot be ordered
against the column's rows. -/
structure RowPosition where
  col : Int
  ifIndex : Int
  pastCol : Bool

/-- The parse of the text behind a table prefix; `none` when it names no column. -/
def parseRowPosition (suffix : Bytes) : Option RowPosition :=
  match cutDot suffix with
  | (column, some row) =>
    if column = [] then none
    else
      match atoi column with
      | (_, false) => none
      | (col, true) =>
        let row := (cutDot row).1
        if row = [] then some ⟨col, 0, false⟩
        else
          match atoi row with
          | (_, false) => some ⟨col, 0, true⟩
          | (idx, true) => if idx < 0 then some ⟨col, 0, true⟩ else some ⟨col, idx, false⟩
  | (column, none) =>
    if column = [] then none
    else
      match atoi column with
      | (_, false) => none
      | (col, true) => some ⟨col, 0, false⟩

/-- The first owned column at or behind the requested one. -/
def locateColumn (table : IfMibTable) (col : Int) : Option Nat :=
  ifCyclerColumns.findIdx? fun tc =>
    match table, tc.table with
    | .ifXTable, .ifTable => false
    | .ifTable, .ifXTable => true
    | _, _ => decide (col ≤ tc.col)

/-- The tail of `NextDynamicOID`, once a column is chosen: the next interface of the object's own
column, else the first row of a later column. -/
def IfCounterCycler.nextFromColumn (ic : IfCounterCycler) (table : IfMibTable)
    (position : RowPosition) (colIdx : Nat) : Checked (Bytes × Bytes) := do
  let chosen ← Checked.index ifCyclerColumns colIdx
  if chosen.table = table ∧ (chosen.col : Int) = position.col then
    if ic.state.isNone ∧ isStateCol chosen then ic.emitFirst colIdx
    else if position.pastCol then
      if colIdx + 1 ≥ ifCyclerColumns.length then .ok ([], []) else ic.emitFirst (colIdx + 1)
    else
      let pos ← Successor.search ic.sortedIfIndexes fun i =>
        decide ((i : Int) < int64 (position.ifIndex + 1))
      if pos < ic.sortedIfIndexes.length then
        let ifIndex ← Checked.index ic.sortedIfIndexes pos
        ic.emitFromColumn colIdx ifIndex
      else if colIdx + 1 ≥ ifCyclerColumns.length then .ok ([], [])
      else ic.emitFirst (colIdx + 1)
  else ic.emitFirst colIdx

/-- `NextDynamicOID`: the next object the cycler owns, or two empty texts. -/
def IfCounterCycler.nextDynamicOID (ic : IfCounterCycler) (currentOID : Bytes) :
    Checked (Bytes × Bytes) :=
  if ic.sortedIfIndexes = [] then .ok ([], [])
  else
    match splitTable currentOID with
    | none =>
      if compareOIDs currentOID ic.firstDynOID < 0 then ic.emitFirst 0 else .ok ([], [])
    | some (table, suffix) =>
      match parseRowPosition suffix with
      | none =>
        match ifCyclerColumns.findIdx? fun tc => tc.table = table with
        | some i => ic.emitFirst i
        | none => .ok ([], [])
      | some position =>
        match locateColumn table position.col with
        | none => .ok ([], [])
        | some colIdx => ic.nextFromColumn table position colIdx

end Nl6
