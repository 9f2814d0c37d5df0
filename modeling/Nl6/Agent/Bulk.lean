import Nl6.Mib.Walk

/-! # The collection loops of GETBULK

`handleGetBulk` and `handleSNMPv3GetBulk` collect their bindings in two separately written double
loops. Each column keeps a cursor and a latch; a latched column is padded with its requested name.
The SNMPv3 loop also refuses a successor that does not advance, and with a single column it stops
where the other one pads.

Neither loop faults on any device (`collectGetBulk_returns`, `collectSNMPv3GetBulk_returns`), and on
a device whose successors advance they collect the same bindings up to that stop
(`getBulk_collections_agree`).
-/

namespace Nl6

open Numeral Checked

def minVarbindSize : Int := 15

/-- `clampBulkWalk`, under a bound for the size of a response. -/
def clampBulkWalk (maxSize maxRepetitions columns : Int) : Int :=
  let columns := if columns < 1 then 1 else columns
  let ceiling := (maxSize.tdiv minVarbindSize).tdiv columns + 1
  if maxRepetitions > ceiling then ceiling else maxRepetitions

/-- A parameter of a request, below zero as zero. -/
def atLeastZero (n : Int) : Int := if n < 0 then 0 else n

/-- How many of the names are non-repeaters. -/
def nonRepeaterCount (nonRepeaters : Int) (columns : Nat) : Int :=
  if atLeastZero nonRepeaters > columns then columns else atLeastZero nonRepeaters

/-- A response binding: a name and its value. -/
abbrev Binding := Bytes × Bytes

/-- The end of the view under a requested name. -/
def endOfMibPad (name : Bytes) : Binding := (name, valueEndOfMibView)

/-- The two arrays of a repeater loop: the cursor of each column, and whether it has latched. -/
structure BulkCursors where
  currentOIDs : List Bytes
  endOfMib : List Bool

/-- The state a repeater loop starts from. -/
def BulkCursors.initial (repeaterCols : List Bytes) : BulkCursors :=
  ⟨repeaterCols, repeaterCols.map fun _ => false⟩

theorem nonRepeaterCount_nonneg (nonRepeaters : Int) (columns : Nat) :
    0 ≤ nonRepeaterCount nonRepeaters columns := by
  rw [nonRepeaterCount, atLeastZero]
  split_ifs <;> omega

theorem nonRepeaterCount_le (nonRepeaters : Int) (columns : Nat) :
    nonRepeaterCount nonRepeaters columns ≤ columns := by
  rw [nonRepeaterCount, atLeastZero]
  split_ifs <;> omega

theorem slice_repeaters (allOIDs : List Bytes) (nonRepeaters : Int) :
    slice allOIDs (nonRepeaterCount nonRepeaters allOIDs.length) allOIDs.length =
      .ok (allOIDs.drop (nonRepeaterCount nonRepeaters allOIDs.length).toNat) :=
  (At.of_le (nonRepeaterCount_nonneg _ _) (nonRepeaterCount_le _ _)).toEnd

namespace Device

variable (d : Device) (p : MetricPoint) {cursors : BulkCursors} {oid : Bytes}

/-! ### The v1/v2c loops -/

/-- The body of the inner loop of `handleGetBulk`: the binding of one column. -/
def bulkColumn (col : Int) (startCol : Bytes) (cursors : BulkCursors) :
    Checked (Binding × BulkCursors) := do
  if ← index cursors.endOfMib col then return (endOfMibPad startCol, cursors)
  let currentOID ← index cursors.currentOIDs col
  let (nextOID, nextVal) ← d.findNextOIDWithServed p currentOID d.lldpServedOIDs
  if nextOID = [] ∨ nextVal = valueEndOfMibView then
    return (endOfMibPad startCol,
      { cursors with endOfMib := ← assign cursors.endOfMib col true })
  return ((nextOID, nextVal),
    { cursors with currentOIDs := ← assign cursors.currentOIDs col nextOID })

/-- The inner loop of `handleGetBulk`. -/
def bulkColumns : Int → List Bytes → BulkCursors → Checked (List Binding × BulkCursors)
  | _, [], cursors => .ok ([], cursors)
  | col, startCol :: repeaterCols, cursors => do
      let (binding, cursors) ← d.bulkColumn p col startCol cursors
      let (rest, cursors) ← bulkColumns (col + 1) repeaterCols cursors
      return (binding :: rest, cursors)

/-- The outer loop of `handleGetBulk`. -/
def bulkRepetitions (repeaterCols : List Bytes) : Nat → BulkCursors → Checked (List Binding)
  | 0, _ => .ok []
  | reps + 1, cursors => do
      let (row, cursors) ← d.bulkColumns p 0 repeaterCols cursors
      return row ++ (← bulkRepetitions repeaterCols reps cursors)

def bulkNonRepeater (oid : Bytes) : Checked Binding := do
  let (nextOID, nextVal) ← d.findNextOIDWithServed p oid d.lldpServedOIDs
  return if nextOID = [] then endOfMibPad oid else (nextOID, nextVal)

/-- What `handleGetBulk` collects for the names of a request. -/
def collectGetBulk (maxSize : Int) (allOIDs : List Bytes) (nonRepeaters maxRepetitions : Int) :
    Checked (List Binding) := do
  let cap := nonRepeaterCount nonRepeaters allOIDs.length
  let responses ← tabulate (fun i => do d.bulkNonRepeater p (← index allOIDs i)) cap.toNat 0
  let repeaterCols ← slice allOIDs cap allOIDs.length
  if repeaterCols = [] ∨ atLeastZero maxRepetitions = 0 then return responses
  let maxRepetitions := clampBulkWalk maxSize (atLeastZero maxRepetitions) repeaterCols.length
  let repeated ← d.bulkRepetitions p repeaterCols maxRepetitions.toNat (.initial repeaterCols)
  return responses ++ repeated

/-! ### The SNMPv3 loops -/

/-- `bulkStep`: the successor, unless the column is at the end of its view. -/
def bulkStep (currentOID : Bytes) : Checked (Option Binding) := do
  let (nextOID, response) ← d.findNextOIDWithServed p currentOID d.lldpServedOIDs
  if nextOID = [] ∨ response = valueEndOfMibView then return none
  if compareOIDsLexicographically nextOID currentOID ≤ 0 then return none
  return some (nextOID, response)

/-- The body of the inner loop of `handleSNMPv3GetBulk`: the binding of one column, and whether it
is more than a pad. -/
def bulkColumnV3 (col : Int) (startCol : Bytes) (cursors : BulkCursors) :
    Checked (Binding × Bool × BulkCursors) := do
  if ← index cursors.endOfMib col then return (endOfMibPad startCol, false, cursors)
  let currentOID ← index cursors.currentOIDs col
  match ← d.bulkStep p currentOID with
  | none =>
    return (endOfMibPad startCol, false,
      { cursors with endOfMib := ← assign cursors.endOfMib col true })
  | some next =>
    return (next, true,
      { cursors with currentOIDs := ← assign cursors.currentOIDs col next.1 })

/-- The inner loop of `handleSNMPv3GetBulk`. -/
def bulkColumnsV3 : Int → List Bytes → BulkCursors → Checked (List Binding × Bool × BulkCursors)
  | _, [], cursors => .ok ([], false, cursors)
  | col, startCol :: repeaterCols, cursors => do
      let (binding, produced, cursors) ← d.bulkColumnV3 p col startCol cursors
      let (rest, more, cursors) ← bulkColumnsV3 (col + 1) repeaterCols cursors
      return (binding :: rest, produced || more, cursors)

/-- The outer loop of `handleSNMPv3GetBulk`. A single column is not padded: its first end of the
view is answered once, a later one ends the loop. -/
def bulkRepetitionsV3 (repeaterCols : List Bytes) : Nat → Nat → BulkCursors → Checked (List Binding)
  | _, 0, _ => .ok []
  | rep, reps + 1, cursors => do
      let singleColumn : Bool := repeaterCols.length = 1
      let (row, produced, cursors) ← d.bulkColumnsV3 p 0 repeaterCols cursors
      if !produced && decide (rep > 0) && singleColumn then return []
      if !produced && singleColumn then return row
      return row ++ (← bulkRepetitionsV3 repeaterCols (rep + 1) reps cursors)

def bulkNonRepeaterV3 (oid : Bytes) : Checked Binding := do
  match ← d.bulkStep p oid with
  | none => return endOfMibPad oid
  | some next => return next

/-- What `handleSNMPv3GetBulk` collects for the names of a request, and whether it entered the
repeater loop. -/
def collectSNMPv3GetBulk (maxSize : Int) (allOIDs : List Bytes) (nonRepeaters maxRepetitions : Int) :
    Checked (List Binding × Bool) := do
  let nonRep := nonRepeaterCount nonRepeaters allOIDs.length
  let responses ← tabulate (fun i => do d.bulkNonRepeaterV3 p (← index allOIDs i)) nonRep.toNat 0
  let repeaterCols ← slice allOIDs nonRep allOIDs.length
  if repeaterCols = [] ∨ atLeastZero maxRepetitions = 0 then return (responses, false)
  let maxRepetitions := clampBulkWalk maxSize (atLeastZero maxRepetitions) repeaterCols.length
  let repeated ← d.bulkRepetitionsV3 p repeaterCols 0 maxRepetitions.toNat (.initial repeaterCols)
  return (responses ++ repeated, true)

/-! ### The loops return -/

/-- The cursors of `n` columns, each at an object. -/
structure Tracks (n : Nat) (cursors : BulkCursors) : Prop where
  cursorCount : cursors.currentOIDs.length = n
  latchCount : cursors.endOfMib.length = n
  identifiers : ∀ oid ∈ cursors.currentOIDs, IsOID oid

theorem tracks_initial {repeaterCols : List Bytes} (named : ∀ oid ∈ repeaterCols, IsOID oid) :
    Tracks repeaterCols.length (.initial repeaterCols) :=
  ⟨rfl, by simp [BulkCursors.initial], named⟩

theorem Tracks.latch {n : Nat} (tracks : Tracks n cursors) (i : Nat) :
    Tracks n { cursors with endOfMib := cursors.endOfMib.set i true } :=
  ⟨tracks.cursorCount, by rw [List.length_set, tracks.latchCount], tracks.identifiers⟩

theorem Tracks.move {n : Nat} (tracks : Tracks n cursors) (i : Nat) (named : IsOID oid) :
    Tracks n { cursors with currentOIDs := cursors.currentOIDs.set i oid } := by
  refine ⟨by rw [List.length_set, tracks.cursorCount], tracks.latchCount, fun other inside => ?_⟩
  rcases List.mem_or_eq_of_mem_set inside with old | rfl
  · exact tracks.identifiers other old
  · exact named

theorem Tracks.inside {n : Nat} (tracks : Tracks n cursors) {col : Int} (inside : col < n) :
    col < cursors.endOfMib.length ∧ col < cursors.currentOIDs.length := by
  rw [tracks.latchCount, tracks.cursorCount]
  exact ⟨inside, inside⟩

variable {d} {p}

theorem findNextOID_returns (named : IsOID oid) :
    Yields (d.findNextOIDWithServed p oid d.lldpServedOIDs) fun (nextOID, nextVal) =>
      nextOID = [] ∧ nextVal = valueEndOfMibView ∨ IsOID nextOID := by
  obtain ⟨arcs, -, bounded, rfl⟩ := named
  obtain ⟨consulted, choice, -, chooses, result⟩ := d.findNextOID_spec p bounded
  refine ⟨_, result, ?_⟩
  cases choice with
  | none => exact .inl ⟨rfl, rfl⟩
  | some chosen =>
    obtain ⟨-, -, -, owned, -⟩ := chooses.owner chosen.1 chosen.2 rfl
    obtain ⟨nonempty, rowBound⟩ := d.rows_bounded owned.1
    exact .inr ⟨chosen.2, nonempty, rowBound, rfl⟩

theorem bulkStep_returns (named : IsOID oid) :
    Yields (d.bulkStep p oid) fun step => ∀ next, step = some next → IsOID next.1 := by
  rw [bulkStep]
  refine (findNextOID_returns named).bind ?_
  rintro ⟨nextOID, response⟩ found
  refine .guard nofun fun goesOn => ?_
  refine .guard nofun fun _ => .ok ?_
  rintro _ ⟨⟩
  exact found.resolve_left fun ended => goesOn (.inl ended.1)

section Column

variable {n : Nat} {cursors : BulkCursors} (tracks : Tracks n cursors) {col : Int}
  (nonneg : 0 ≤ col) (inside : col < n)

include tracks nonneg inside

theorem bulkColumn_returns (startCol : Bytes) :
    Yields (d.bulkColumn p col startCol cursors) fun (_, after) => Tracks n after := by
  obtain ⟨latchInside, cursorInside⟩ := tracks.inside inside
  rw [bulkColumn]
  refine (Yields.index nonneg latchInside).bind fun latched _ => ?_
  refine .guard tracks fun _ => ?_
  refine (Yields.index nonneg cursorInside).bind fun currentOID read => ?_
  have named := tracks.identifiers currentOID (List.mem_of_getElem? read)
  refine (findNextOID_returns named).bind ?_
  rintro ⟨nextOID, nextVal⟩ found
  refine .ite (fun _ => ?_) fun goesOn => ?_
  · refine (Yields.of_eq (assign_of_lt nonneg latchInside true)).bind ?_
    rintro _ rfl
    exact .ok (tracks.latch _)
  · refine (Yields.of_eq (assign_of_lt nonneg cursorInside nextOID)).bind ?_
    rintro _ rfl
    exact .ok (tracks.move _ (found.resolve_left fun ended => goesOn (.inl ended.1)))

theorem bulkColumnV3_returns (startCol : Bytes) :
    Yields (d.bulkColumnV3 p col startCol cursors) fun (_, _, after) => Tracks n after := by
  obtain ⟨latchInside, cursorInside⟩ := tracks.inside inside
  rw [bulkColumnV3]
  refine (Yields.index nonneg latchInside).bind fun latched _ => ?_
  refine .guard tracks fun _ => ?_
  refine (Yields.index nonneg cursorInside).bind fun currentOID read => ?_
  have named := tracks.identifiers currentOID (List.mem_of_getElem? read)
  refine (bulkStep_returns named).bind ?_
  rintro (_ | next) found
  · refine (Yields.of_eq (assign_of_lt nonneg latchInside true)).bind ?_
    rintro _ rfl
    exact .ok (tracks.latch _)
  · refine (Yields.of_eq (assign_of_lt nonneg cursorInside next.1)).bind ?_
    rintro _ rfl
    exact .ok (tracks.move _ (found next rfl))

end Column

section Rows

variable {n : Nat} {cursors : BulkCursors} {repeaterCols : List Bytes}

theorem bulkColumns_returns (tracks : Tracks n cursors) {col : Int} (nonneg : 0 ≤ col)
    (inside : col + repeaterCols.length ≤ n) :
    Yields (d.bulkColumns p col repeaterCols cursors) fun (row, after) =>
      row.length = repeaterCols.length ∧ Tracks n after := by
  induction repeaterCols generalizing col cursors with
  | nil => exact .ok ⟨rfl, tracks⟩
  | cons startCol repeaterCols ih =>
    rw [List.length_cons] at inside
    rw [bulkColumns]
    refine (bulkColumn_returns tracks nonneg (by omega) startCol).bind ?_
    rintro ⟨binding, after⟩ moved
    refine (ih moved (by omega) (by omega)).bind ?_
    rintro ⟨rest, last⟩ ⟨counted, tracked⟩
    exact .ok ⟨by rw [List.length_cons, List.length_cons, counted], tracked⟩

theorem bulkColumnsV3_returns (tracks : Tracks n cursors) {col : Int} (nonneg : 0 ≤ col)
    (inside : col + repeaterCols.length ≤ n) :
    Yields (d.bulkColumnsV3 p col repeaterCols cursors) fun (row, _, after) =>
      row.length = repeaterCols.length ∧ Tracks n after := by
  induction repeaterCols generalizing col cursors with
  | nil => exact .ok ⟨rfl, tracks⟩
  | cons startCol repeaterCols ih =>
    rw [List.length_cons] at inside
    rw [bulkColumnsV3]
    refine (bulkColumnV3_returns tracks nonneg (by omega) startCol).bind ?_
    rintro ⟨binding, produced, after⟩ moved
    refine (ih moved (by omega) (by omega)).bind ?_
    rintro ⟨rest, more, last⟩ ⟨counted, tracked⟩
    exact .ok ⟨by rw [List.length_cons, List.length_cons, counted], tracked⟩

theorem bulkRepetitions_returns (tracks : Tracks repeaterCols.length cursors) (reps : Nat) :
    Yields (d.bulkRepetitions p repeaterCols reps cursors) fun _ => True := by
  induction reps generalizing cursors with
  | zero => exact .ok trivial
  | succ reps ih =>
    rw [bulkRepetitions]
    refine (bulkColumns_returns tracks le_rfl (by omega)).bind ?_
    rintro ⟨row, after⟩ ⟨-, tracked⟩
    exact (ih tracked).bind fun _ _ => .ok trivial

theorem bulkRepetitionsV3_returns (tracks : Tracks repeaterCols.length cursors) (rep reps : Nat) :
    Yields (d.bulkRepetitionsV3 p repeaterCols rep reps cursors) fun _ => True := by
  induction reps generalizing cursors rep with
  | zero => exact .ok trivial
  | succ reps ih =>
    rw [bulkRepetitionsV3]
    refine (bulkColumnsV3_returns tracks le_rfl (by omega)).bind ?_
    rintro ⟨row, produced, after⟩ ⟨-, tracked⟩
    refine .guard trivial fun _ => ?_
    refine .guard trivial fun _ => ?_
    exact (ih tracked (rep + 1)).bind fun _ _ => .ok trivial

end Rows

section Requests

variable {allOIDs : List Bytes}

theorem nonRepeaters_returns {answer : Bytes → Checked Binding}
    (returns : ∀ oid ∈ allOIDs, Yields (answer oid) fun _ => True) (nonRepeaters : Int) :
    Yields (tabulate (fun i => do answer (← index allOIDs i))
      (nonRepeaterCount nonRepeaters allOIDs.length).toNat 0) fun responses =>
        responses.length = (nonRepeaterCount nonRepeaters allOIDs.length).toNat := by
  have bounded := nonRepeaterCount_le nonRepeaters allOIDs.length
  have each : ∀ i, 0 ≤ i → i < 0 + ((nonRepeaterCount nonRepeaters allOIDs.length).toNat : Int) →
      Yields (do answer (← index allOIDs i)) fun _ => True := fun i low high =>
    (Yields.index low (by omega)).bind fun oid read => returns oid (List.mem_of_getElem? read)
  exact (Yields.tabulate each).mono fun _ => And.left

variable (named : ∀ oid ∈ allOIDs, IsOID oid)

include named

theorem bulkNonRepeater_returns {oid : Bytes} (inside : oid ∈ allOIDs) :
    Yields (d.bulkNonRepeater p oid) fun _ => True :=
  (findNextOID_returns (named oid inside)).bind fun _ _ => .ok trivial

theorem bulkNonRepeaterV3_returns {oid : Bytes} (inside : oid ∈ allOIDs) :
    Yields (d.bulkNonRepeaterV3 p oid) fun _ => True := by
  rw [bulkNonRepeaterV3]
  refine (bulkStep_returns (named oid inside)).bind ?_
  rintro (_ | next) - <;> exact .ok trivial

/-- **Collecting returns.** For all names, non-repeaters and max-repetitions, no index or slice
expression of the v1/v2c loops leaves its operand. -/
theorem collectGetBulk_returns (maxSize nonRepeaters maxRepetitions : Int) :
    Yields (d.collectGetBulk p maxSize allOIDs nonRepeaters maxRepetitions) fun _ => True := by
  rw [collectGetBulk]
  refine (nonRepeaters_returns (fun _ => bulkNonRepeater_returns named) nonRepeaters).bind ?_
  intro responses _
  rw [slice_repeaters, ok_bind]
  refine .guard trivial fun _ => ?_
  refine (bulkRepetitions_returns (tracks_initial fun oid inside => ?_) _).bind fun _ _ =>
    Yields.ok trivial
  exact named oid (List.mem_of_mem_drop inside)

theorem collectSNMPv3GetBulk_returns (maxSize nonRepeaters maxRepetitions : Int) :
    Yields (d.collectSNMPv3GetBulk p maxSize allOIDs nonRepeaters maxRepetitions) fun _ => True := by
  rw [collectSNMPv3GetBulk]
  refine (nonRepeaters_returns (fun _ => bulkNonRepeaterV3_returns named) nonRepeaters).bind ?_
  intro responses _
  rw [slice_repeaters, ok_bind]
  refine .guard trivial fun _ => ?_
  refine (bulkRepetitionsV3_returns (tracks_initial fun oid inside => ?_) _ _).bind fun _ _ =>
    Yields.ok trivial
  exact named oid (List.mem_of_mem_drop inside)

end Requests

/-! ### Parity -/

/-- Every successor the device reports lies strictly above the object it follows, and its value is
not the sentinel for the end of the view. -/
def Advances (d : Device) (p : MetricPoint) : Prop :=
  ∀ oid nextOID nextVal, IsOID oid →
    d.findNextOIDWithServed p oid d.lldpServedOIDs = .ok (nextOID, nextVal) → nextOID ≠ [] →
      compareOIDs oid nextOID < 0 ∧ nextVal ≠ valueEndOfMibView

/-- The bindings of a single column up to its first pad, which stays only as the first of them. -/
def uptoFirstPad : List Binding → List Binding
  | [] => []
  | binding :: rest =>
    if binding.2 = valueEndOfMibView then [binding]
    else binding :: rest.takeWhile fun later => later.2 ≠ valueEndOfMibView

/-- Successors advance where the resource file lists its greatest key once and no source holds the
sentinel. -/
theorem advances_of_values (listedOnce : d.GreatestListedOnce)
    (ordinary : ∀ source, ∀ row ∈ d.rows source,
      d.resolve (dotted row) (d.sourceValue p source (dotted row)) ≠ valueEndOfMibView) :
    d.Advances p := by
  rintro _ nextOID nextVal ⟨arcs, -, bounded, rfl⟩ found present
  obtain ⟨choice, result, answered⟩ :=
    step_advances (greatestListedOnce_iff.mp listedOnce) p bounded
  cases choice with
  | none => exact absurd (congrArg Prod.fst (Except.ok.inj (found.symm.trans result))) present
  | some chosen =>
    obtain ⟨owned, above⟩ := answered chosen.1 chosen.2 rfl
    cases found.symm.trans result
    exact ⟨(compareOIDs_neg_iff bounded (d.rows_bounded owned).2).mpr above,
      ordinary chosen.1 chosen.2 owned⟩

section Parity

variable (advances : d.Advances p)

include advances

/-- Where successors advance, the guard of `bulkStep` passes each of them. -/
theorem bulkStep_of_advances {oid : Bytes} (named : IsOID oid) :
    ∃ nextOID nextVal,
      d.findNextOIDWithServed p oid d.lldpServedOIDs = .ok (nextOID, nextVal) ∧
      (nextOID ≠ [] → nextVal ≠ valueEndOfMibView) ∧
      d.bulkStep p oid = .ok (if nextOID = [] then none else some (nextOID, nextVal)) := by
  obtain ⟨⟨nextOID, nextVal⟩, found, answered⟩ := @findNextOID_returns d p oid named
  refine ⟨nextOID, nextVal, found, fun present => (advances _ _ _ named found present).2, ?_⟩
  rw [bulkStep, found, ok_bind]
  by_cases absent : nextOID = []
  · simp [absent]
  · obtain ⟨above, ordinary⟩ := advances _ _ _ named found absent
    obtain ⟨next, -, nextBound, rfl⟩ := answered.resolve_left fun ended => absent ended.1
    obtain ⟨arcs, -, bounded, rfl⟩ := named
    have passes : ¬ compareOIDsLexicographically (dotted next) (dotted arcs) ≤ 0 := by
      rw [compareOIDsLexicographically_dotted nextBound bounded, not_le, compareArcs_pos]
      exact (compareOIDs_neg_iff bounded nextBound).mp above
    simp [absent, ordinary, or_self, passes]

theorem bulkNonRepeaterV3_of_advances {oid : Bytes} (named : IsOID oid) :
    d.bulkNonRepeaterV3 p oid = d.bulkNonRepeater p oid := by
  obtain ⟨nextOID, nextVal, found, -, step⟩ := bulkStep_of_advances advances named
  rw [bulkNonRepeaterV3, step, bulkNonRepeater, found, ok_bind, ok_bind]
  by_cases absent : nextOID = [] <;> simp only [absent, ↓reduceIte]

section Row

variable {n : Nat} {cursors : BulkCursors} (tracks : Tracks n cursors) {col : Int} (nonneg : 0 ≤ col)

include tracks nonneg

/-- Both bodies produce the same binding, which is a pad exactly when nothing was produced. -/
theorem bulkColumnV3_of_advances (inside : col < n) (startCol : Bytes) :
    ∃ binding after, d.bulkColumn p col startCol cursors = .ok (binding, after) ∧
      d.bulkColumnV3 p col startCol cursors =
        .ok (binding, decide (binding.2 ≠ valueEndOfMibView), after) ∧ Tracks n after := by
  obtain ⟨latchInside, cursorInside⟩ := tracks.inside inside
  obtain ⟨⟨binding, after⟩, returned, tracked⟩ :=
    @bulkColumn_returns d p n cursors tracks col nonneg inside startCol
  refine ⟨binding, after, returned, ?_, tracked⟩
  obtain ⟨latched, -, latchRead⟩ := index_of_lt nonneg latchInside
  obtain ⟨currentOID, found, cursorRead⟩ := index_of_lt nonneg cursorInside
  have named := tracks.identifiers currentOID (List.mem_of_getElem? found)
  obtain ⟨nextOID, nextVal, next, ordinary, step⟩ := bulkStep_of_advances advances named
  simp only [bulkColumn, latchRead, ok_bind, cursorRead, next,
    assign_of_lt nonneg latchInside, assign_of_lt nonneg cursorInside] at returned
  simp only [bulkColumnV3, latchRead, ok_bind, cursorRead, step]
  by_cases ended : latched = true
  · simp only [ended, ↓reduceIte, pure_eq_ok] at returned ⊢
    cases returned
    simp [endOfMibPad]
  by_cases absent : nextOID = []
  · simp only [ended, absent, true_or, ↓reduceIte, pure_eq_ok, assign_of_lt nonneg latchInside,
      ok_bind] at returned ⊢
    cases returned
    simp [endOfMibPad]
  · simp only [ended, absent, ordinary absent, or_self, ↓reduceIte, pure_eq_ok,
      assign_of_lt nonneg cursorInside, ok_bind] at returned ⊢
    cases returned
    simp [ordinary absent]

/-- **One repetition.** Both inner loops fill the same row, which produced something exactly when it
is not all pads. -/
theorem bulkColumnsV3_of_advances {repeaterCols : List Bytes}
    (inside : col + repeaterCols.length ≤ n) :
    ∃ row after, d.bulkColumns p col repeaterCols cursors = .ok (row, after) ∧
      d.bulkColumnsV3 p col repeaterCols cursors =
        .ok (row, row.any fun binding => binding.2 ≠ valueEndOfMibView, after) ∧
      row.length = repeaterCols.length ∧ Tracks n after := by
  induction repeaterCols generalizing col cursors with
  | nil => exact ⟨[], cursors, rfl, rfl, rfl, tracks⟩
  | cons startCol repeaterCols ih =>
    rw [List.length_cons] at inside
    obtain ⟨binding, moved, first, firstV3, movedTracks⟩ :=
      bulkColumnV3_of_advances advances tracks nonneg (by omega) startCol
    obtain ⟨row, after, rest, restV3, counted, tracked⟩ :=
      ih movedTracks (show 0 ≤ col + 1 by omega) (by omega)
    refine ⟨binding :: row, after, ?_, ?_, by rw [List.length_cons, counted, List.length_cons],
      tracked⟩
    · simp [bulkColumns, first, rest]
    · simp [bulkColumnsV3, firstV3, restV3, List.any_cons]

end Row

section Runs

variable {repeaterCols : List Bytes} {cursors : BulkCursors}

/-- Without exactly one column, the outer loops collect the same rows. -/
theorem bulkRepetitionsV3_of_many (tracks : Tracks repeaterCols.length cursors)
    (many : repeaterCols.length ≠ 1) (rep reps : Nat) :
    d.bulkRepetitionsV3 p repeaterCols rep reps cursors =
      d.bulkRepetitions p repeaterCols reps cursors := by
  induction reps generalizing cursors rep with
  | zero => rfl
  | succ reps ih =>
    obtain ⟨row, after, filled, filledV3, -, tracked⟩ :=
      bulkColumnsV3_of_advances advances tracks le_rfl (zero_add _).le
    simp [bulkRepetitionsV3, bulkRepetitions, filled, filledV3, many, ih tracked]

/-- A single column: the SNMPv3 loop collects what the other one does up to the first pad, which is
left out from the second repetition on. -/
theorem bulkRepetitionsV3_of_single (tracks : Tracks repeaterCols.length cursors)
    (single : repeaterCols.length = 1) (rep reps : Nat) :
    ∃ repeated, d.bulkRepetitions p repeaterCols reps cursors = .ok repeated ∧
      d.bulkRepetitionsV3 p repeaterCols rep reps cursors =
        .ok (if rep = 0 then uptoFirstPad repeated
          else repeated.takeWhile fun binding => binding.2 ≠ valueEndOfMibView) := by
  induction reps generalizing cursors rep with
  | zero => exact ⟨[], rfl, by split_ifs <;> rfl⟩
  | succ reps ih =>
    obtain ⟨row, after, filled, filledV3, counted, tracked⟩ :=
      bulkColumnsV3_of_advances advances tracks le_rfl (zero_add _).le
    obtain ⟨binding, rfl⟩ := List.length_eq_one_iff.mp (counted.trans single)
    obtain ⟨repeated, run, runV3⟩ := ih tracked (rep + 1)
    refine ⟨[binding] ++ repeated, ?_, ?_⟩
    · simp [bulkRepetitions, filled, run]
    simp only [bulkRepetitionsV3, filledV3, ok_bind, runV3]
    by_cases pad : binding.2 = valueEndOfMibView <;> by_cases start : rep = 0
    · simp [pad, single, start, uptoFirstPad]
    · simp [pad, single, start, Nat.pos_of_ne_zero start]
    · simp [pad, start, uptoFirstPad]
    · simp [pad, start]

end Runs

end Parity

/-- How many of the requested names are repeater columns. -/
def repeaterCount (names : List Bytes) (nonRepeaters : Int) : Nat :=
  names.length - (nonRepeaterCount nonRepeaters names.length).toNat

/-- **GETBULK parity.** On a device whose successors advance and whose values are not the sentinel,
both versions collect the same bindings, except that with exactly one repeater column SNMPv3 stops at
the first pad of that column, keeping it only as the column's first repetition. -/
theorem getBulk_collections_agree (d : Device) (p : MetricPoint) (advances : d.Advances p)
    (names : List Bytes) (named : ∀ name ∈ names, IsOID name)
    (maxSize nonRepeaters maxRepetitions : Int) :
    ∃ front repeated entered,
      front.length = (nonRepeaterCount nonRepeaters names.length).toNat ∧
      d.collectGetBulk p maxSize names nonRepeaters maxRepetitions = .ok (front ++ repeated) ∧
      d.collectSNMPv3GetBulk p maxSize names nonRepeaters maxRepetitions =
        .ok (front ++ if repeaterCount names nonRepeaters = 1 then uptoFirstPad repeated
          else repeated, entered) := by
  obtain ⟨front, answered, counted⟩ := nonRepeaters_returns
    (fun _ inside => @bulkNonRepeater_returns d p names named _ inside) nonRepeaters
  have answeredV3 : tabulate (fun i => do d.bulkNonRepeaterV3 p (← index names i))
      (nonRepeaterCount nonRepeaters names.length).toNat 0 = .ok front := by
    rw [← answered]
    refine tabulate_congr fun i low high => ?_
    have bounded := nonRepeaterCount_le nonRepeaters names.length
    obtain ⟨name, found, read⟩ := index_of_lt low (show i < names.length by omega)
    rw [read, ok_bind, ok_bind]
    exact bulkNonRepeaterV3_of_advances advances (named name (List.mem_of_getElem? found))
  rw [collectGetBulk, collectSNMPv3GetBulk, answered, answeredV3]
  simp only [ok_bind, slice_repeaters]
  generalize columns : names.drop (nonRepeaterCount nonRepeaters names.length).toNat = repeaterCols
  have counts : repeaterCount names nonRepeaters = repeaterCols.length := by
    rw [repeaterCount, ← columns, List.length_drop]
  have tracks : Tracks repeaterCols.length (.initial repeaterCols) := tracks_initial fun oid inside =>
    named oid (List.mem_of_mem_drop (columns ▸ inside))
  by_cases noLoop : repeaterCols = [] ∨ atLeastZero maxRepetitions = 0
  · refine ⟨front, [], false, counted, ?_, ?_⟩
    · simp [noLoop]
    · simp [noLoop, uptoFirstPad, ite_self]
  simp only [noLoop, ↓reduceIte]
  generalize (clampBulkWalk maxSize (atLeastZero maxRepetitions) repeaterCols.length).toNat = reps
  rw [counts]
  by_cases single : repeaterCols.length = 1
  · obtain ⟨repeated, run, runV3⟩ := bulkRepetitionsV3_of_single advances tracks single 0 reps
    refine ⟨front, repeated, true, counted, ?_, ?_⟩
    · rw [run, ok_bind, pure_eq_ok]
    · rw [runV3, ok_bind, pure_eq_ok, if_pos single, if_pos rfl]
  · obtain ⟨repeated, run, -⟩ := @bulkRepetitions_returns d p _ repeaterCols tracks reps
    refine ⟨front, repeated, true, counted, ?_, ?_⟩
    · rw [run, ok_bind, pure_eq_ok]
    · rw [bulkRepetitionsV3_of_many advances tracks single, run, ok_bind, pure_eq_ok, if_neg single]

theorem servicesOnly_wellFormed : ∀ row ∈ [([1, 3, 6, 1, 2, 1, 1, 7, 0], ascii "72")],
    row.1 ≠ [] ∧ Arcs row.1 := by decide

/-- A device with `sysServices.0` in its resource file. -/
def servicesOnly : Device := ofStatic _ servicesOnly_wellFormed

theorem servicesOnly_advances : servicesOnly.Advances 0 := by
  refine advances_of_values ?_ fun source row owned => ?_
  · have keys : staticKeys servicesOnly.snmp = [dotted [1, 3, 6, 1, 2, 1, 1, 7, 0]] := by decide
    intro oid listed _
    rw [keys] at listed ⊢
    obtain rfl := List.mem_singleton.mp listed
    exact List.count_singleton_self
  · cases source with
    | static =>
      have sorted : servicesOnly.resources.sortedOIDs = [dotted [1, 3, 6, 1, 2, 1, 1, 7, 0]] := by
        decide +kernel
      have listed : dotted row ∈ servicesOnly.resources.sortedOIDs := owned
      rw [List.mem_singleton.mp listed]
      decide +kernel
    | sysName =>
      obtain rfl : row = sysNameArcs := owned
      decide +kernel
    | sysLocation =>
      obtain rfl : row = sysLocationArcs := owned
      decide +kernel
    | metric => exact absurd owned.1 (by simp [servicesOnly, ofStatic])
    | cycler =>
      obtain ⟨counters, published, -⟩ := owned
      exact absurd published (by simp [servicesOnly, ofStatic, ifCycler])
    | lldp => exact absurd rfl (servicesOnly.lldp.row_of_lldpGet_ne_nil owned.1 owned.2).1

/-- A single column that reaches the end of the view within three repetitions. -/
theorem getBulk_collections_agree_at_end :
    servicesOnly.Advances 0 ∧ ∃ front repeated entered, front.length = 0 ∧
      servicesOnly.collectGetBulk 0 1472 [dotted [1, 3, 6, 1, 2, 1, 1, 6, 0]] 0 3 =
        .ok (front ++ repeated) ∧
      servicesOnly.collectSNMPv3GetBulk 0 1472 [dotted [1, 3, 6, 1, 2, 1, 1, 6, 0]] 0 3 =
        .ok (front ++ uptoFirstPad repeated, entered) :=
  ⟨servicesOnly_advances, getBulk_collections_agree servicesOnly 0 servicesOnly_advances
    [dotted [1, 3, 6, 1, 2, 1, 1, 6, 0]]
    (List.forall_mem_singleton.mpr ⟨[1, 3, 6, 1, 2, 1, 1, 6, 0], by decide, by decide, rfl⟩) 1472 0 3⟩

end Device

end Nl6
