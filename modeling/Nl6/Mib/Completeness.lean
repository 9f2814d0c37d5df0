import Nl6.Mib.NextSpec

/-! # Completeness of GETNEXT

A walk step should return the least served object above the request. `NothingSkipped` is the exact
condition under which it does, `findNextOIDWithServed_returns_next_iff` the equivalence. The
condition names the four ways a step loses objects: a neighbour table that maps an object to itself,
a precomputed neighbour beyond one of the device's own scalars, a device without static objects that
consults neither metrics nor interface rows, and a request between the two interface tables.
-/

namespace Nl6

open Numeral Successor

namespace Device

variable (d : Device) (p : MetricPoint)

/-- A step answers with a given object, or reports the end of the view. -/
def Reports (result : Checked (Bytes × Bytes)) : Option (List Nat) → Prop
  | some next => ∃ value, result = .ok (dotted next, value)
  | none => result = .ok ([], valueEndOfMibView)

/-- The sources left when the interface rows are not consulted. -/
def withoutCycler : List Source := [.static, .sysName, .sysLocation, .metric, .lldp]

/-- The conditions under which a step at an object skips no served object. -/
structure NothingSkipped (arcs : List Nat) : Prop where
  advances : ¬ d.Loops arcs
  neighbour : ∀ next, d.resources.oidNextMap.load (dotted arcs) = some (dotted next) →
    d.Clear arcs next → (arcs < sysNameArcs → next ≤ sysNameArcs) ∧
      (arcs < sysLocationArcs → next ≤ sysLocationArcs)
  withoutStatic : d.resources.sortedOIDs = [] →
    ∀ row ∈ d.rows .metric ∪ d.rows .cycler, arcs < row →
      ∃ other ∈ union d.rows scalarsAndLinks, arcs < other ∧ other ≤ row
  between : d.resources.sortedOIDs ≠ [] → IfCounterCycler.BetweenTables arcs →
    ∀ row ∈ d.rows .cycler, arcs < row →
      ∃ other ∈ union d.rows withoutCycler, arcs < other ∧ other ≤ row

variable {d} {arcs : List Nat} {next row : List Nat} {consulted : List Source}
  {choice : Option (Source × List Nat)}

/-! ### The clear tests -/

theorem Clear.metric (bounded : Arcs arcs) (nextBound : Arcs next) (clear : d.Clear arcs next)
    (owned : row ∈ d.rows .metric) (higher : arcs < row) : next ≤ row := by
  obtain ⟨listed, same, ascending, wellFormed⟩ := d.metricOIDs.getSortedMetricOIDs_spec
  have member : row ∈ listed := by
    have := owned.2
    rwa [same, List.mem_map_of_injective dotted_injective] at this
  have tested := clear.1
  rw [metricsClear, same, List.head?_map, List.getLast?_map] at tested
  have sorted : listed.Pairwise (· ≤ ·) := ascending.imp le_of_lt
  obtain ⟨first, leads⟩ : ∃ first, listed.head? = some first :=
    Option.isSome_iff_exists.mp (by simpa using List.ne_nil_of_mem member)
  obtain ⟨last, ends⟩ : ∃ last, listed.getLast? = some last :=
    Option.isSome_iff_exists.mp (by simpa using List.ne_nil_of_mem member)
  simp only [leads, ends, Option.map_some, Bool.or_eq_true, decide_eq_true_eq, ge_iff_le,
    compareOIDs_nonpos_iff nextBound (wellFormed first (List.mem_of_mem_head? leads)).2,
    compareOIDs_nonneg_iff bounded (wellFormed last (List.mem_of_getLast? ends)).2] at tested
  rcases tested with before | behind
  · exact before.trans (head?_le sorted leads row member)
  · exact absurd (behind.trans_lt higher) (le_getLast? sorted ends row member).not_gt

theorem Clear.cycler (bounded : Arcs arcs) (nextBound : Arcs next) (clear : d.Clear arcs next)
    (owned : row ∈ d.rows .cycler) (higher : arcs < row) : next ≤ row := by
  obtain ⟨counters, present, c, column, -, i, known, rfl⟩ := owned
  obtain ⟨first, leads⟩ : ∃ first, counters.sortedIfIndexes.head? = some first :=
    Option.isSome_iff_exists.mp (by simpa using List.ne_nil_of_mem known)
  obtain ⟨last, ends⟩ : ∃ last, counters.sortedIfIndexes.getLast? = some last :=
    Option.isSome_iff_exists.mp (by simpa using List.ne_nil_of_mem known)
  have sorted : counters.sortedIfIndexes.Pairwise (· ≤ ·) := counters.ascending.imp le_of_lt
  have firstBound := counters.rowArcs_bounded
    (by decide : (⟨.ifTable, 7⟩ : CyclerColumn) ∈ ifCyclerColumns) (List.mem_of_mem_head? leads)
  have lastBound := counters.rowArcs_bounded
    (by decide : (⟨.ifXTable, 13⟩ : CyclerColumn) ∈ ifCyclerColumns) (List.mem_of_getLast? ends)
  have nonempty : counters.sortedIfIndexes ≠ [] := List.ne_nil_of_mem known
  have tested := clear.2.1
  simp only [ifCyclerClear, Option.mem_def.mp present, nonempty, decide_false, Bool.false_or,
    IfCounterCycler.firstDynOID, IfCounterCycler.lastDynOID, leads, ends,
    rowOID_eq, Bool.or_eq_true, decide_eq_true_eq, ge_iff_le,
    compareOIDs_nonpos_iff nextBound firstBound, compareOIDs_nonneg_iff bounded lastBound] at tested
  rcases tested with before | behind
  · exact before.trans (IfCounterCycler.firstRow_le column (head?_le sorted leads i known))
  · exact absurd (behind.trans_lt higher)
      (IfCounterCycler.le_lastRow column (le_getLast? sorted ends i known)).not_gt

/-- A clear gap holds no object of a dynamic source. -/
theorem Clear.le {source : Source} (bounded : Arcs arcs) (nextBound : Arcs next)
    (clear : d.Clear arcs next) (dynamic : source ∈ [Source.metric, .cycler, .lldp])
    (owned : row ∈ d.rows source) (higher : arcs < row) : next ≤ row := by
  simp only [List.mem_cons, List.not_mem_nil, or_false] at dynamic
  rcases dynamic with rfl | rfl | rfl
  · exact clear.metric bounded nextBound owned higher
  · exact clear.cycler bounded nextBound owned higher
  · exact (clear.2.2 row owned higher).le

/-! ### What a step covers -/

theorem load_of_empty (arcs : List Nat) (empty : d.resources.sortedOIDs = []) :
    d.resources.oidNextMap.load (dotted arcs) = none := by
  obtain ⟨listed, view⟩ := d.resources_view
  rw [view.next_eq, empty]
  rfl

/-- Every served object above the request is at or above one of the consulted ones. -/
def Covers (d : Device) (arcs : List Nat) (consulted : List Source) : Prop :=
  ∀ source, ∀ row ∈ d.rows source, arcs < row →
    ∃ other ∈ union d.rows consulted, arcs < other ∧ other ≤ row

theorem covers_of_mem {source : Source} (listed : source ∈ consulted) (owned : row ∈ d.rows source)
    (higher : arcs < row) : ∃ other ∈ union d.rows consulted, arcs < other ∧ other ≤ row :=
  ⟨row, ⟨source, listed, owned⟩, higher, le_rfl⟩

/-- The neighbour a step returns at once is the static successor of the request. -/
theorem isNext_of_stored (advances : ¬ d.Loops arcs)
    (stored : d.resources.oidNextMap.load (dotted arcs) = some (dotted next)) :
    IsNext (d.rows .static) arcs (some next) := by
  obtain ⟨other, same, owned, atLeast, least, -⟩ := d.oidNextMap_spec stored
  obtain rfl := dotted_inj.mp same
  have apart : arcs ≠ next := by
    rintro rfl
    exact advances stored
  exact ⟨⟨owned, lt_of_le_of_ne atLeast apart⟩, fun row inside => least row inside.1 inside.2⟩

private theorem covers_neighbour_iff (bounded : Arcs arcs) (advances : ¬ d.Loops arcs)
    (stored : d.resources.oidNextMap.load (dotted arcs) = some (dotted next))
    (clear : d.Clear arcs next) : d.Covers arcs [.static] ↔ d.NothingSkipped arcs := by
  have isNext := isNext_of_stored advances stored
  have nextBound := (d.rows_bounded isNext.1.1).2
  have viaNext : ∀ row, next ≤ row →
      ∃ other ∈ union d.rows [.static], arcs < other ∧ other ≤ row := fun row below =>
    ⟨next, ⟨.static, by simp, isNext.1.1⟩, isNext.1.2, below⟩
  have least : ∀ row, (∃ other ∈ union d.rows [.static], arcs < other ∧ other ≤ row) →
      next ≤ row := by
    rintro row ⟨other, ⟨source, listed, owned⟩, higher, below⟩
    rw [List.mem_singleton.mp listed] at owned
    exact (isNext.2 ⟨owned, higher⟩).trans below
  constructor
  · intro covers
    refine ⟨advances, ?_, ?_, ?_⟩
    · intro other alsoStored _
      obtain rfl := dotted_inj.mp (Option.some.inj (alsoStored.symm.trans stored))
      exact ⟨fun higher => least _ (covers .sysName sysNameArcs rfl higher),
        fun higher => least _ (covers .sysLocation sysLocationArcs rfl higher)⟩
    · intro empty
      simp [load_of_empty arcs empty] at stored
    · intro _ _ row owned higher
      exact ⟨next, ⟨.static, by simp [withoutCycler], isNext.1.1⟩, isNext.1.2,
        clear.cycler bounded nextBound owned higher⟩
  · intro nothingSkipped source row owned higher
    have scalars := nothingSkipped.neighbour next stored clear
    refine viaNext row ?_
    cases source with
    | static => exact isNext.2 ⟨owned, higher⟩
    | sysName => exact (show row = sysNameArcs from owned) ▸ scalars.1 (owned ▸ higher)
    | sysLocation => exact (show row = sysLocationArcs from owned) ▸ scalars.2 (owned ▸ higher)
    | metric | cycler | lldp => exact clear.le bounded nextBound (by simp) owned higher

private theorem covers_withoutStatic_iff (empty : d.resources.sortedOIDs = []) :
    d.Covers arcs scalarsAndLinks ↔ d.NothingSkipped arcs := by
  have unstored := load_of_empty arcs empty
  constructor
  · intro covers
    refine ⟨fun loops => ?_, fun next stored => ?_, fun _ row owned higher => ?_,
      fun nonempty => absurd empty nonempty⟩
    · simp [Loops, unstored] at loops
    · simp [unstored] at stored
    · rcases owned with owned | owned
      · exact covers .metric row owned higher
      · exact covers .cycler row owned higher
  · intro nothingSkipped source row owned higher
    cases source with
    | static =>
      change dotted row ∈ d.resources.sortedOIDs at owned
      simp [empty] at owned
    | metric => exact nothingSkipped.withoutStatic empty row (.inl owned) higher
    | cycler => exact nothingSkipped.withoutStatic empty row (.inr owned) higher
    | sysName | sysLocation | lldp => exact covers_of_mem (by simp [scalarsAndLinks]) owned higher

/-- A step covers all served objects exactly under the conditions of `NothingSkipped`. -/
theorem covers_iff (bounded : Arcs arcs) (advances : ¬ d.Loops arcs)
    (consults : d.Consults arcs consulted) : d.Covers arcs consulted ↔ d.NothingSkipped arcs := by
  cases consults with
  | neighbour next stored clear => exact covers_neighbour_iff bounded advances stored clear
  | withoutStatic empty => exact covers_withoutStatic_iff empty
  | between nonempty blocked between =>
    constructor
    · intro covers
      refine ⟨advances, fun next stored clear => absurd clear (blocked next stored),
        fun empty => absurd empty nonempty, fun _ _ row owned higher => ?_⟩
      exact covers .cycler row owned higher
    · intro nothingSkipped source row owned higher
      cases source with
      | cycler => exact nothingSkipped.between nonempty between row owned higher
      | static | sysName | sysLocation | metric | lldp =>
        exact covers_of_mem (by simp) owned higher
  | all nonempty blocked notBetween =>
    refine iff_of_true (fun source row owned higher => ?_) ?_
    · exact covers_of_mem (by cases source <;> simp) owned higher
    · exact ⟨advances, fun next stored clear => absurd clear (blocked next stored),
        fun empty => absurd empty nonempty, fun _ between => absurd between notBetween⟩

/-! ### Exactness -/

/-- Away from the loop, a choice is the successor over the consulted sources. -/
theorem Chooses.isNext (chooses : d.Chooses arcs consulted choice) (advances : ¬ d.Loops arcs) :
    IsNext (union d.rows consulted) arcs (choice.map Prod.snd) := by
  refine isNext_iff_isFirst.mpr ?_
  have same : union (d.above arcs) consulted = {key | key ∈ union d.rows consulted ∧ arcs < key} := by
    ext key
    constructor
    · rintro ⟨source, listed, owned, higher⟩
      exact ⟨⟨source, listed, owned⟩, higher.resolve_right fun looped => advances looped.2.2⟩
    · rintro ⟨⟨source, listed, owned⟩, higher⟩
      exact ⟨source, listed, owned, Or.inl higher⟩
  exact same ▸ chooses.least

theorem mem_static_of_loops (loops : d.Loops arcs) : arcs ∈ d.rows .static := by
  obtain ⟨next, same, owned, -⟩ := d.oidNextMap_spec loops
  rwa [dotted_inj.mp same]

theorem le_of_loops (loops : d.Loops arcs) : ∀ row ∈ d.rows .static, row ≤ arcs := by
  obtain ⟨next, same, -, -, -, greatest⟩ := d.oidNextMap_spec loops
  exact greatest (dotted_inj.mp same).symm

theorem Chooses.eq_of_loops (chooses : d.Chooses arcs consulted choice)
    (consults : d.Consults arcs consulted) (loops : d.Loops arcs) :
    ∃ source, choice = some (source, arcs) := by
  have listed : Source.static ∈ consulted := by
    cases consults with
    | neighbour | between | all => simp
    | withoutStatic empty => simp [Loops, load_of_empty arcs empty] at loops
  have member : arcs ∈ union (d.above arcs) consulted :=
    ⟨.static, listed, mem_static_of_loops loops, Or.inr ⟨rfl, rfl, loops⟩⟩
  cases choice with
  | none =>
    have empty : union (d.above arcs) consulted = ∅ := chooses.least
    simp [empty] at member
  | some chosen =>
    obtain ⟨source, a⟩ := chosen
    obtain ⟨⟨_, _, _, atLeast⟩, least⟩ := chooses.least
    rcases atLeast with higher | ⟨-, rfl, -⟩
    · exact absurd (least member) higher.not_ge
    · exact ⟨source, rfl⟩

theorem reports_report_iff {answer : Option (List Nat)}
    (named : ∀ source a, choice = some (source, a) → a ≠ []) (answered : ∀ a ∈ answer, a ≠ []) :
    Reports (.ok (d.report p choice)) answer ↔ answer = choice.map Prod.snd := by
  cases choice with
  | none =>
    cases answer with
    | none => simp [Reports, report]
    | some next => simpa [Reports, report] using (answered next rfl)
  | some chosen =>
    obtain ⟨source, a⟩ := chosen
    cases answer with
    | none => simpa [Reports, report] using fun empty => absurd empty (named source a rfl)
    | some next => simp [Reports, report, dotted_inj, eq_comm]

/-- **GETNEXT completeness.** A step returns the least served object above the request, and reports
the end of the view exactly when there is none, if and only if none of the conditions of
`NothingSkipped` fails. -/
theorem findNextOIDWithServed_returns_next_iff (d : Device) (p : MetricPoint) {arcs : List Nat}
    (requested : Arcs arcs) :
    (∃ answer, IsNext (d.served p) arcs answer ∧
      Reports (d.findNextOIDWithServed p (dotted arcs) d.lldpServedOIDs) answer) ↔
        d.NothingSkipped arcs := by
  obtain ⟨consulted, choice, consults, chooses, result⟩ := d.findNextOID_spec p requested
  rw [findNextOID] at result
  rw [result]
  have named : ∀ source a, choice = some (source, a) → a ≠ [] := fun source a chosen => by
    obtain ⟨-, -, -, owned, -⟩ := chooses.owner source a chosen
    exact (d.rows_bounded owned.1).1
  have answered : ∀ answer, IsNext (d.served p) arcs answer → ∀ a ∈ answer, a ≠ [] := by
    rintro _ isNext a rfl
    obtain ⟨source, owned⟩ := (d.mem_served_iff p).mp isNext.1.1
    exact (d.rows_bounded owned).1
  by_cases loops : d.Loops arcs
  · obtain ⟨source, rfl⟩ := chooses.eq_of_loops consults loops
    refine iff_of_false ?_ fun nothingSkipped => nothingSkipped.advances loops
    rintro ⟨answer, isNext, reports⟩
    rw [reports_report_iff p named (answered answer isNext)] at reports
    subst reports
    exact lt_irrefl arcs isNext.1.2
  · have isNext := chooses.isNext loops
    have subset : union d.rows consulted ⊆ d.served p := by
      rintro key ⟨source, -, owned⟩
      exact (d.mem_served_iff p).mpr ⟨source, owned⟩
    rw [← covers_iff requested loops consults]
    constructor
    · rintro ⟨answer, isAnswer, reports⟩
      rw [reports_report_iff p named (answered answer isAnswer)] at reports
      subst reports
      intro source row owned higher
      exact (isNext.answers_iff subset).mp isAnswer row
        ((d.mem_served_iff p).mpr ⟨source, owned⟩) higher
    · intro covers
      have isAnswer : IsNext (d.served p) arcs (choice.map Prod.snd) := by
        refine (isNext.answers_iff subset).mpr fun row served higher => ?_
        obtain ⟨source, owned⟩ := (d.mem_served_iff p).mp served
        exact covers source row owned higher
      exact ⟨_, isAnswer, (reports_report_iff p named (answered _ isAnswer)).mpr rfl⟩

/-- A walk from the last static object before the device's own scalars returns the one behind them. -/
theorem findNextOIDWithServed_skips_sysName :
    let d := ofStatic [([1, 3, 6, 1, 2, 1, 1, 4, 0], ascii "contact"),
      ([1, 3, 6, 1, 2, 1, 1, 7, 0], ascii "72")] (by decide)
    ¬ ∃ answer, IsNext (d.served 0) [1, 3, 6, 1, 2, 1, 1, 4, 0] answer ∧
      Reports (d.findNextOIDWithServed 0 (dotted [1, 3, 6, 1, 2, 1, 1, 4, 0]) d.lldpServedOIDs)
        answer := by
  intro d
  have result : d.findNextOIDWithServed 0 (dotted [1, 3, 6, 1, 2, 1, 1, 4, 0]) d.lldpServedOIDs =
      .ok (dotted [1, 3, 6, 1, 2, 1, 1, 7, 0], ascii "72") := by decide +kernel
  rw [result]
  rintro ⟨answer, isNext, reports⟩
  cases answer with
  | none => simp [Reports] at reports
  | some next =>
    obtain ⟨value, same⟩ := reports
    obtain rfl := dotted_inj.mp (Prod.mk.inj (Except.ok.inj same)).1
    have served : sysNameArcs ∈ d.served 0 := (d.mem_served_iff 0).mpr ⟨.sysName, rfl⟩
    exact absurd (isNext.2 ⟨served, by decide⟩) (by decide)

theorem findNextOIDWithServed_returns_next_at_end :
    let d := ofStatic [([1, 3, 6, 1, 2, 1, 1, 7, 0], ascii "72")] (by decide)
    Arcs [1, 3, 6, 1, 2, 1, 1, 7, 0] ∧
      ∃ answer, IsNext (d.served 0) [1, 3, 6, 1, 2, 1, 1, 7, 0] answer ∧
        Reports (d.findNextOIDWithServed 0 (dotted [1, 3, 6, 1, 2, 1, 1, 7, 0]) d.lldpServedOIDs)
          answer := by
  intro d
  have unstored : d.resources.oidNextMap.load (dotted [1, 3, 6, 1, 2, 1, 1, 7, 0]) = none := by
    decide +kernel
  refine ⟨by decide, (findNextOIDWithServed_returns_next_iff d 0 (by decide)).mpr ⟨?_, ?_, ?_, ?_⟩⟩
  · intro loops
    exact absurd (unstored.symm.trans loops) nofun
  · intro next stored
    exact absurd (unstored.symm.trans stored) nofun
  · intro empty
    have nonempty : d.resources.sortedOIDs ≠ [] := by decide +kernel
    exact absurd empty nonempty
  · rintro - - row ⟨counters, none, -⟩
    exact absurd none (by simp [d, ifCycler, ofStatic])

end Device

end Nl6
