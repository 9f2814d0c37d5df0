import Nl6.Mib.Completeness

/-! # Agreement of GET and GETNEXT on values

GET resolves an object owned by several sources by a fixed precedence, a walk by the order of its
candidates and two overrides. The two differ on metric objects only: GET prefers the metric reading
to every other source, a walk prefers the link provider, the interface rows and the static index to
it. `findNextOIDWithServed_value_iff` says exactly when no walk step shows the difference.
-/

namespace Nl6

open Numeral Successor

namespace Device

variable (d : Device) (p : MetricPoint) {arcs row : List Nat} {consulted : List Source}
  {source : Source}

/-- The values under a metric object that other sources own as well are all the metric reading. -/
structure OverlapsAgree (metric : List Nat) : Prop where
  lldp : metric ∈ d.rows .lldp →
    d.lldp.lldpGet (dotted metric) = d.metricValue p (dotted metric)
  cycler : d.resources.sortedOIDs ≠ [] → metric ∈ d.rows .cycler →
    d.cyclerValue (dotted metric) = d.metricValue p (dotted metric)
  static : metric ∉ d.rows .lldp → metric ∉ d.rows .cycler →
    ∀ value, d.resources.oidIndex.load (dotted metric) = some value →
      value = d.metricValue p (dotted metric)

/-- An object below another one with no served object in between, from which a walk moves on. -/
structure DirectlyBelow (arcs above : List Nat) : Prop where
  bounded : Arcs arcs
  below : arcs < above
  advances : ¬ d.Loops arcs
  adjacent : ∀ row ∈ d.served p, arcs < row → above ≤ row

/-! ### Precedence -/

theorem resolve_eq (bounded : Arcs arcs) (value : Bytes) :
    d.resolve (dotted arcs) value =
      if d.lldp.lldpGet (dotted arcs) ≠ [] then d.lldp.lldpGet (dotted arcs)
      else if d.cyclerValue (dotted arcs) ≠ [] then d.cyclerValue (dotted arcs)
      else value := by
  rw [resolve, overrideLLDP_eq, overrideIfHC_eq, d.lldpValue_eq bounded]

theorem resolve_of_lldp (linked : arcs ∈ d.rows .lldp) (value : Bytes) :
    d.resolve (dotted arcs) value = d.lldp.lldpGet (dotted arcs) := by
  rw [d.resolve_eq linked.1, if_pos linked.2]

theorem resolve_of_cycler (counted : arcs ∈ d.rows .cycler) (value : Bytes) :
    d.resolve (dotted arcs) value = d.cyclerValue (dotted arcs) := by
  have bounded := (d.rows_bounded counted).2
  have silent : d.lldp.lldpGet (dotted arcs) = [] := by
    by_contra answered
    exact d.lldp_disjoint_cycler ⟨bounded, answered⟩ counted
  rw [d.resolve_eq bounded]
  simp [silent, (d.cyclerValue_ne_nil_iff bounded).mpr counted]

theorem resolve_of_neither (bounded : Arcs arcs) (unlinked : arcs ∉ d.rows .lldp)
    (uncounted : arcs ∉ d.rows .cycler) (value : Bytes) :
    d.resolve (dotted arcs) value = value := by
  have silent : d.lldp.lldpGet (dotted arcs) = [] := by
    by_contra answered
    exact unlinked ⟨bounded, answered⟩
  have idle : d.cyclerValue (dotted arcs) = [] := by
    by_contra answered
    exact uncounted ((d.cyclerValue_ne_nil_iff bounded).mp answered)
  rw [d.resolve_eq bounded]
  simp [silent, idle]

theorem findResponseAt_sysName : d.findResponseAt p (dotted sysNameArcs) = d.cachedSysName := by
  have apart : sysNameOID ≠ sysLocationOID := by decide
  rw [← sysNameOID_eq]
  simp [findResponseAt, findValue, apart]

theorem findResponseAt_sysLocation :
    d.findResponseAt p (dotted sysLocationArcs) = d.cachedSysLocation := by
  rw [← sysLocationOID_eq]
  simp [findResponseAt, findValue]

section Others

variable {d} {arcs : List Nat} (notName : arcs ≠ sysNameArcs) (notLocation : arcs ≠ sysLocationArcs)

include notName notLocation

private theorem findResponseAt_eq (bounded : Arcs arcs) :
    d.findResponseAt p (dotted arcs) =
      if d.metricValue p (dotted arcs) ≠ [] then d.metricValue p (dotted arcs)
      else if d.cyclerValue (dotted arcs) ≠ [] then d.cyclerValue (dotted arcs)
      else if d.lldp.lldpGet (dotted arcs) ≠ [] then d.lldp.lldpGet (dotted arcs)
      else (d.resources.oidIndex.load (dotted arcs)).getD valueNoSuchObject := by
  have otherName : dotted arcs ≠ sysNameOID := by rwa [sysNameOID_eq, ne_eq, dotted_inj]
  have otherLocation : dotted arcs ≠ sysLocationOID := by
    rwa [sysLocationOID_eq, ne_eq, dotted_inj]
  rw [findResponseAt, findValue, if_neg otherLocation, if_neg otherName, d.lldpValue_eq bounded]
  split_ifs <;> rfl

theorem findResponseAt_of_metric (owned : arcs ∈ d.rows .metric) :
    d.findResponseAt p (dotted arcs) = d.metricValue p (dotted arcs) := by
  rw [findResponseAt_eq p notName notLocation (d.rows_bounded owned).2,
    if_pos ((d.metricValue_ne_nil_iff p arcs).mpr owned)]

/-- Where no metric is involved, a walk reports what GET answers. -/
theorem resolve_eq_findResponseAt {source : Source} (noMetric : arcs ∉ d.rows .metric)
    (owned : arcs ∈ d.rows source) :
    d.resolve (dotted arcs) (d.sourceValue p source (dotted arcs)) =
      d.findResponseAt p (dotted arcs) := by
  have bounded := (d.rows_bounded owned).2
  have unmeasured : d.metricValue p (dotted arcs) = [] := by
    by_contra answered
    exact noMetric ((d.metricValue_ne_nil_iff p arcs).mp answered)
  rw [findResponseAt_eq p notName notLocation bounded, d.resolve_eq bounded]
  by_cases counted : arcs ∈ d.rows .cycler
  · have answered := (d.cyclerValue_ne_nil_iff bounded).mpr counted
    have silent : d.lldp.lldpGet (dotted arcs) = [] := by
      by_contra linked
      exact d.lldp_disjoint_cycler ⟨bounded, linked⟩ counted
    simp [unmeasured, answered, silent]
  · have idle : d.cyclerValue (dotted arcs) = [] := by
      by_contra answered
      exact counted ((d.cyclerValue_ne_nil_iff bounded).mp answered)
    by_cases linked : d.lldp.lldpGet (dotted arcs) = []
    · simp only [unmeasured, idle, linked, ne_eq, not_true_eq_false, ↓reduceIte]
      cases source with
      | static =>
        obtain ⟨value, indexed⟩ :=
          Option.isSome_iff_exists.mp ((d.index_isSome_iff arcs).mpr owned)
        simp [sourceValue, indexed]
      | sysName => exact absurd owned notName
      | sysLocation => exact absurd owned notLocation
      | metric => exact absurd owned noMetric
      | cycler => exact absurd owned counted
      | lldp => exact absurd linked owned.2
    · simp [unmeasured, idle, linked]

end Others

/-! ### Objects a walk enters -/

variable {d} {arcs : List Nat}

/-- Below every object lies one with nothing served in between, unless a loop is in the way. -/
theorem exists_directlyBelow {start : List Nat} (bounded : Arcs start) (below : start < row)
    (noLoop : ∀ a, a = start ∨ a ∈ d.served p ∧ start < a → a < row → ¬ d.Loops a) :
    ∃ arcs, d.DirectlyBelow p arcs row := by
  let lower : Set (List Nat) := {a | (a = start ∨ a ∈ d.served p ∧ start < a) ∧ a < row}
  have finite : lower.Finite := by
    refine ((d.served_finite p).insert start).subset ?_
    rintro a ⟨rfl | ⟨present, -⟩, -⟩
    · exact Set.mem_insert _ _
    · exact Set.mem_insert_of_mem _ present
  obtain ⟨greatest, ⟨place, under⟩, maximal⟩ :=
    Set.exists_max_image lower id finite ⟨start, Or.inl rfl, below⟩
  refine ⟨greatest, ?_, under, noLoop greatest place under, ?_⟩
  · rcases place with rfl | ⟨present, -⟩
    · exact bounded
    · exact present.1
  · intro other present higher
    by_contra inGap
    have atStart : start ≤ greatest := by
      rcases place with rfl | ⟨-, above⟩
      · exact le_rfl
      · exact above.le
    have listed : other ∈ lower := ⟨Or.inr ⟨present, atStart.trans_lt higher⟩, not_le.mp inGap⟩
    exact absurd (maximal other listed) higher.not_ge

/-- Every object a step answers with is entered from directly below. -/
theorem Chooses.entered (bounded : Arcs arcs)
    (chooses : d.Chooses arcs consulted (some (source, row))) (consults : d.Consults arcs consulted) :
    ∃ arcs, d.DirectlyBelow p arcs row := by
  by_cases loops : d.Loops arcs
  · obtain ⟨_, same⟩ := chooses.eq_of_loops consults loops
    obtain ⟨-, rfl⟩ := Prod.mk.inj (Option.some.inj same)
    have below : [] < row := by
      obtain ⟨first, rest, rfl⟩ :=
        List.exists_cons_of_ne_nil (d.rows_bounded (mem_static_of_loops loops)).1
      exact List.nil_lt_cons first rest
    refine exists_directlyBelow p Arcs.nil below fun a _ below alsoLoops => ?_
    exact absurd (le_of_loops alsoLoops row (mem_static_of_loops loops)) below.not_ge
  · have isNext := chooses.isNext loops
    refine exists_directlyBelow p bounded isNext.1.2 ?_
    rintro a (rfl | ⟨-, higher⟩) below alsoLoops
    · exact loops alsoLoops
    · have listed : Source.static ∈ consulted := by
        cases consults with
        | neighbour | between | all => simp
        | withoutStatic empty => simp [Loops, load_of_empty a empty] at alsoLoops
      exact absurd (isNext.2 ⟨⟨.static, listed, mem_static_of_loops alsoLoops⟩, higher⟩)
        below.not_ge

/-! ### Agreement -/

theorem Chooses.idxOf_le (chooses : d.Chooses arcs consulted (some (source, row))) (other : Source)
    (owned : row ∈ d.above arcs other) : consulted.idxOf source ≤ consulted.idxOf other := by
  obtain ⟨front, back, rfl, -, strict⟩ := chooses.owner source row rfl
  have absent : other ∉ front := fun listed => strict other listed owned
  rw [List.idxOf_append_of_notMem absent]
  by_cases early : source ∈ front
  · rw [List.idxOf_append_of_mem early]
    exact (List.idxOf_lt_length_iff.mpr early).le.trans (Nat.le_add_right _ _)
  · rw [List.idxOf_append_of_notMem early, List.idxOf_cons_self]
    omega

private theorem Consults.static_first (consults : d.Consults arcs consulted) :
    ∀ source ∈ consulted, .static ∈ consulted →
      consulted.idxOf source ≤ consulted.idxOf .static → source = .static := by
  cases consults <;> decide

private theorem Consults.scalars_before_metric (consults : d.Consults arcs consulted) :
    ∀ scalar ∈ [Source.sysName, .sysLocation],
      .metric ∈ consulted → consulted.idxOf scalar < consulted.idxOf .metric := by
  cases consults <;> decide

theorem Chooses.of_static (chooses : d.Chooses arcs consulted (some (source, row)))
    (consults : d.Consults arcs consulted) (static : row ∈ d.rows .static) : source = .static := by
  obtain ⟨front, back, listed, ⟨-, place⟩, -⟩ := chooses.owner source row rfl
  have consulted_static : Source.static ∈ consulted := by
    cases consults with
    | neighbour | between | all => simp
    | withoutStatic empty =>
      change dotted row ∈ d.resources.sortedOIDs at static
      simp [empty] at static
  rcases place with higher | ⟨same, -⟩
  · exact consults.static_first source (by simp [listed]) consulted_static
      (chooses.idxOf_le .static ⟨static, Or.inl higher⟩)
  · exact same

theorem Chooses.not_metric (consults : d.Consults arcs consulted) (scalar : Source)
    (known : scalar ∈ [Source.sysName, .sysLocation]) (owned : row ∈ d.rows scalar) :
    ¬ d.Chooses arcs consulted (some (.metric, row)) := by
  intro chooses
  obtain ⟨front, back, listed, ⟨-, place⟩, -⟩ := chooses.owner .metric row rfl
  have higher : arcs < row := place.resolve_right fun looped => nomatch looped.1
  exact absurd (chooses.idxOf_le scalar ⟨owned, Or.inl higher⟩)
    (consults.scalars_before_metric scalar known (by simp [listed])).not_ge

theorem Chooses.of_sysName (chooses : d.Chooses arcs consulted (some (source, sysNameArcs)))
    (consults : d.Consults arcs consulted) : source = .sysName := by
  obtain ⟨-, -, -, ⟨owned, -⟩, -⟩ := chooses.owner source _ rfl
  cases source with
  | static => exact absurd owned d.scalars_not_static.1
  | sysName => rfl
  | sysLocation => exact absurd owned (by decide : sysNameArcs ≠ sysLocationArcs)
  | metric => exact absurd chooses (Chooses.not_metric consults .sysName (by simp) rfl)
  | cycler => exact absurd owned d.scalars_not_cycler.1
  | lldp => exact absurd owned d.scalars_not_lldp.1

theorem Chooses.of_sysLocation (chooses : d.Chooses arcs consulted (some (source, sysLocationArcs)))
    (consults : d.Consults arcs consulted) : source = .sysLocation := by
  obtain ⟨-, -, -, ⟨owned, -⟩, -⟩ := chooses.owner source _ rfl
  cases source with
  | static => exact absurd owned d.scalars_not_static.2
  | sysName => exact absurd owned (by decide : sysLocationArcs ≠ sysNameArcs)
  | sysLocation => rfl
  | metric => exact absurd chooses (Chooses.not_metric consults .sysLocation (by simp) rfl)
  | cycler => exact absurd owned d.scalars_not_cycler.2
  | lldp => exact absurd owned d.scalars_not_lldp.2

theorem Chooses.static_ne_nil (chooses : d.Chooses arcs consulted (some (source, row)))
    (consults : d.Consults arcs consulted) (notName : row ≠ sysNameArcs)
    (notLocation : row ≠ sysLocationArcs) (unlinked : row ∉ d.rows .lldp) :
    d.resources.sortedOIDs ≠ [] := by
  cases consults with
  | neighbour next stored clear =>
    intro empty
    simp [load_of_empty arcs empty] at stored
  | between nonempty => exact nonempty
  | all nonempty => exact nonempty
  | withoutStatic empty =>
    obtain ⟨front, back, listed, ⟨owned, -⟩, -⟩ := chooses.owner source row rfl
    have member : source ∈ scalarsAndLinks := by simp [listed]
    simp only [scalarsAndLinks, List.mem_cons, List.not_mem_nil, or_false] at member
    rcases member with rfl | rfl | rfl
    · exact absurd owned notName
    · exact absurd owned notLocation
    · exact absurd owned unlinked

/-- If a step reports the reading of a metric object, the overlaps under it agree. -/
theorem overlapsAgree_of_resolve (chooses : d.Chooses arcs consulted (some (source, row)))
    (consults : d.Consults arcs consulted) (bounded : Arcs row)
    (reported : d.resolve (dotted row) (d.sourceValue p source (dotted row)) =
      d.metricValue p (dotted row)) : d.OverlapsAgree p row where
  lldp linked := (d.resolve_of_lldp linked _).symm.trans reported
  cycler _ counted := (d.resolve_of_cycler counted _).symm.trans reported
  static unlinked uncounted value indexed := by
    have static : row ∈ d.rows .static := (d.index_isSome_iff row).mp (by simp [indexed])
    rw [d.resolve_of_neither bounded unlinked uncounted, chooses.of_static consults static] at reported
    simpa [sourceValue, indexed] using reported

/-- Under agreeing overlaps, a step that answers with a metric object reports its reading. -/
theorem resolve_of_overlapsAgree (notName : row ≠ sysNameArcs) (notLocation : row ≠ sysLocationArcs)
    (chooses : d.Chooses arcs consulted (some (source, row))) (consults : d.Consults arcs consulted)
    (metric : row ∈ d.rows .metric) (agree : d.OverlapsAgree p row) :
    d.resolve (dotted row) (d.sourceValue p source (dotted row)) =
      d.metricValue p (dotted row) := by
  obtain ⟨-, -, -, ⟨owned, -⟩, -⟩ := chooses.owner source row rfl
  by_cases linked : row ∈ d.rows .lldp
  · rw [d.resolve_of_lldp linked, agree.lldp linked]
  by_cases counted : row ∈ d.rows .cycler
  · rw [d.resolve_of_cycler counted]
    exact agree.cycler (chooses.static_ne_nil consults notName notLocation linked) counted
  rw [d.resolve_of_neither (d.rows_bounded metric).2 linked counted]
  cases source with
  | static =>
    obtain ⟨value, indexed⟩ := Option.isSome_iff_exists.mp ((d.index_isSome_iff row).mpr owned)
    simpa [sourceValue, indexed] using agree.static linked counted value indexed
  | sysName => exact absurd owned notName
  | sysLocation => exact absurd owned notLocation
  | metric => rfl
  | cycler => exact absurd owned counted
  | lldp => exact absurd owned linked

theorem overlapsAgree_of_empty (empty : d.resources.sortedOIDs = []) (unlinked : row ∉ d.rows .lldp) :
    d.OverlapsAgree p row where
  lldp linked := absurd linked unlinked
  cycler nonempty := absurd empty nonempty
  static _ _ value indexed := by
    have static : dotted row ∈ d.resources.sortedOIDs :=
      (d.index_isSome_iff row).mp (by simp [indexed])
    simp [empty] at static

/-- A step from directly below a metric object consults a source that owns it, unless the device
has no static objects and no link row for it. -/
theorem DirectlyBelow.answered (directly : d.DirectlyBelow p arcs row)
    (owned : row ∈ d.rows .metric) (consults : d.Consults arcs consulted) :
    d.resources.sortedOIDs = [] ∧ row ∉ d.rows .lldp ∨ row ∈ union d.rows consulted := by
  cases consults with
  | neighbour next stored clear =>
    have isNext := isNext_of_stored directly.advances stored
    have nextBound := (d.rows_bounded isNext.1.1).2
    have same : next = row := le_antisymm
      (clear.metric directly.bounded nextBound owned directly.below)
      (directly.adjacent next ((d.mem_served_iff p).mpr ⟨.static, isNext.1.1⟩) isNext.1.2)
    exact .inr ⟨.static, by simp, same ▸ isNext.1.1⟩
  | withoutStatic empty =>
    by_cases linked : row ∈ d.rows .lldp
    · exact .inr ⟨.lldp, by simp [scalarsAndLinks], linked⟩
    · exact .inl ⟨empty, linked⟩
  | between | all => exact .inr ⟨.metric, by simp, owned⟩

/-- A step from directly below an object it consults a source for answers with that object. -/
theorem DirectlyBelow.chosen {choice : Option (Source × List Nat)}
    (directly : d.DirectlyBelow p arcs row) (chooses : d.Chooses arcs consulted choice)
    (member : row ∈ union d.rows consulted) : ∃ source, choice = some (source, row) := by
  have isNext := chooses.isNext directly.advances
  have expected : IsNext (union d.rows consulted) arcs (some row) := by
    refine ⟨⟨member, directly.below⟩, ?_⟩
    rintro key ⟨⟨source, -, owned⟩, higher⟩
    exact directly.adjacent key ((d.mem_served_iff p).mpr ⟨source, owned⟩) higher
  obtain ⟨⟨source, a⟩, rfl, rfl⟩ := Option.map_eq_some_iff.mp (isNext.unique expected)
  exact ⟨source, rfl⟩

/-- **GET and GETNEXT agree on values** exactly when every metric object a walk can enter has one
value in all the sources that own it. -/
theorem findNextOIDWithServed_value_iff (d : Device) (p : MetricPoint) :
    (∀ arcs, Arcs arcs → ∀ n v,
      d.findNextOIDWithServed p (dotted arcs) d.lldpServedOIDs = .ok (n, v) → n ≠ [] →
        v = d.findResponseAt p n) ↔
      ∀ metric ∈ d.rows .metric, metric ≠ sysNameArcs → metric ≠ sysLocationArcs →
        (∃ arcs, d.DirectlyBelow p arcs metric) → d.OverlapsAgree p metric := by
  constructor
  · intro agrees metric owned notName notLocation entered
    obtain ⟨arcs, directly⟩ := entered
    obtain ⟨consulted, choice, consults, chooses, result⟩ := d.findNextOID_spec p directly.bounded
    rcases directly.answered p owned consults with ⟨empty, unlinked⟩ | member
    · exact overlapsAgree_of_empty p empty unlinked
    · obtain ⟨source, rfl⟩ := directly.chosen p chooses member
      refine overlapsAgree_of_resolve p chooses consults (d.rows_bounded owned).2 ?_
      rw [← findResponseAt_of_metric p notName notLocation owned]
      exact agrees arcs directly.bounded _ _ result (by simpa using (d.rows_bounded owned).1)
  · intro agree arcs bounded n v result named
    obtain ⟨consulted, choice, consults, chooses, described⟩ := d.findNextOID_spec p bounded
    rw [findNextOID, result] at described
    cases choice with
    | none => exact absurd (Prod.mk.inj (Except.ok.inj described)).1 named
    | some chosen =>
      obtain ⟨source, row⟩ := chosen
      obtain ⟨rfl, rfl⟩ := Prod.mk.inj (Except.ok.inj described)
      obtain ⟨-, -, -, ⟨owned, -⟩, -⟩ := chooses.owner source row rfl
      by_cases isName : row = sysNameArcs
      · subst isName
        rw [chooses.of_sysName consults, findResponseAt_sysName,
          d.resolve_of_neither sysNameArcs_bounded d.scalars_not_lldp.1 d.scalars_not_cycler.1]
        rfl
      by_cases isLocation : row = sysLocationArcs
      · subst isLocation
        rw [chooses.of_sysLocation consults, findResponseAt_sysLocation,
          d.resolve_of_neither sysLocationArcs_bounded d.scalars_not_lldp.2
            d.scalars_not_cycler.2]
        rfl
      by_cases metric : row ∈ d.rows .metric
      · rw [findResponseAt_of_metric p isName isLocation metric]
        exact resolve_of_overlapsAgree p isName isLocation chooses consults metric
          (agree row metric isName isLocation (chooses.entered p bounded consults))
      · exact resolve_eq_findResponseAt p isName isLocation metric owned

/-- A processor load that is both in the resource file and a metric: a walk answers from the file,
GET with the reading. -/
theorem findNextOIDWithServed_value_differs :
    let cycler : MetricsCycler :=
      { cpuPoints := fun _ => 5, memUsed := fun _ => 0, memUsedPercent := fun _ => 0,
        tempPoints := fun _ => 0, memTotal := 0, gpuMetrics := [], ifCounters := none,
        ifCounters_state := by simp }
    let load : List Nat := [1, 3, 6, 1, 2, 1, 25, 3, 3, 1, 2, 1]
    let d : Device :=
      { ofStatic [(load, ascii "99")] (by decide) with
        metricOIDs :=
          { entries := [(dotted load, .cpuPercent)], nodup := List.nodup_singleton _,
            identifiers := by simpa using ⟨load, by decide, by decide, rfl⟩ }
        metricsCycler := some cycler }
    Arcs [1, 3, 6, 1, 2, 1, 25] ∧
      d.findNextOIDWithServed 0 (dotted [1, 3, 6, 1, 2, 1, 25]) d.lldpServedOIDs =
        .ok (dotted load, ascii "99") ∧ d.findResponseAt 0 (dotted load) = ascii "5" := by
  decide +kernel

end Device

end Nl6
