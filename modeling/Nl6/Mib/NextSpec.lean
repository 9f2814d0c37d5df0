import Nl6.Mib.Next

/-! # The GETNEXT path, read by sources

Each candidate of a walk step is the successor of the request in one source. `Consults` lists the
sources a step takes candidates from, and `findNextOID_spec` describes every path of
`findNextOIDWithServed` by them: the answer is the least object of the consulted sources above the
request, with the value of the first source that owns it. `Loops` is the one exception to "above": a
static object whose precomputed neighbour is itself.
-/

namespace Nl6

open Numeral Successor

namespace Device

variable (d : Device) (p : MetricPoint) {arcs : List Nat} {next : Source → Option (List Nat)}
  {consulted : List Source} {lldpNext : Option (List Nat)}

/-- The candidate texts of a source whose successor is known. -/
def entry (source : Source) (next : Option (List Nat)) : List (Bytes × Bytes) :=
  next.toList.map fun arcs => (dotted arcs, d.sourceValue p source (dotted arcs))

/-! ### One candidate per source -/

theorem lldpNextFromServed_spec (bounded : Arcs arcs) :
    ∃ next, IsNext (d.rows .lldp) arcs next ∧
      lldpNextFromServed d.lldpServedOIDs (dotted arcs) =
        .ok ((d.entry p .lldp next).head?.getD ([], [])) := by
  obtain ⟨listed, same, ordered, sound, complete⟩ := d.lldp.served_spec d.sorter
  obtain ⟨next, isNext, found⟩ := exists_isNext_find?
    (fun a => KvOID.mk (dotted a) (d.lldp.lldpGet (dotted a)))
    (fun kv => !decide (compareOIDs kv.oid (dotted arcs) ≤ 0)) ordered fun a member => by
      rw [Bool.not_eq_true', decide_eq_false_iff_not,
        compareOIDs_nonpos_iff (sound a member).2.1 bounded, not_le]
  have rows_eq : d.rows .lldp = {a | a ∈ listed} := by
    ext a
    exact ⟨fun owned => complete a owned.1 owned.2,
      fun member => ⟨(sound a member).2.1, (sound a member).2.2⟩⟩
  refine ⟨next, rows_eq ▸ isNext, ?_⟩
  rw [lldpNextFromServed, lldpServedOIDs, same, search_bind, found]
  · cases next <;> rfl
  · rw [List.pairwise_map]
    refine ordered.imp_of_mem ?_
    intro a b inside also le
    simp only [decide_eq_true_eq, compareOIDs_nonpos_iff (sound a inside).2.1 bounded,
      compareOIDs_nonpos_iff (sound b also).2.1 bounded]
    exact le.trans

/-- The neighbour table sends an object to itself. -/
def Loops (arcs : List Nat) : Prop :=
  d.resources.oidNextMap.load (dotted arcs) = some (dotted arcs)

/-- The keys of a source a step may answer with: those above the request and, in the neighbour
table's loop, the request itself. -/
def above (arcs : List Nat) (source : Source) : Set (List Nat) :=
  {a | a ∈ d.rows source ∧ (arcs < a ∨ source = .static ∧ a = arcs ∧ d.Loops arcs)}

theorem above_of_advances {source : Source} (advances : source = .static → ¬ d.Loops arcs)
    {next : Option (List Nat)} (isNext : IsNext (d.rows source) arcs next) :
    IsFirst (d.above arcs source) next := by
  have same : d.above arcs source = {a | a ∈ d.rows source ∧ arcs < a} := by
    ext a
    refine and_congr_right fun _ => or_iff_left ?_
    rintro ⟨isStatic, -, loops⟩
    exact advances isStatic loops
  rw [same]
  exact isNext_iff_isFirst.mp isNext

theorem above_of_dynamic (source : Source) (dynamic : source ≠ .static) {next : Option (List Nat)}
    (isNext : IsNext (d.rows source) arcs next) : IsFirst (d.above arcs source) next :=
  d.above_of_advances (fun static => absurd static dynamic) isNext

/-- The neighbour table read on arcs: the next static object or, behind the greatest, itself. -/
theorem oidNextMap_spec {nextOID : Bytes}
    (stored : d.resources.oidNextMap.load (dotted arcs) = some nextOID) :
    ∃ next, nextOID = dotted next ∧ next ∈ d.rows .static ∧ arcs ≤ next ∧
      (∀ row ∈ d.rows .static, arcs < row → next ≤ row) ∧
      (next = arcs → ∀ row ∈ d.rows .static, row ≤ arcs) := by
  obtain ⟨listed, view⟩ := d.resources_view
  have inverse : ∀ arcs, Function.invFun dotted (dotted arcs) = arcs :=
    Function.leftInverse_invFun dotted_injective
  have ordered : d.resources.sortedOIDs.Pairwise fun a b =>
      Function.invFun dotted a ≤ Function.invFun dotted b := by
    rw [view.sorted_eq, List.pairwise_map]
    simpa only [inverse] using view.ordered
  have faithful : ∀ a ∈ d.resources.sortedOIDs, ∀ b ∈ d.resources.sortedOIDs,
      Function.invFun dotted a = Function.invFun dotted b → a = b := by
    rw [view.sorted_eq]
    intro a inside b also same
    obtain ⟨left, -, rfl⟩ := List.mem_map.mp inside
    obtain ⟨right, -, rfl⟩ := List.mem_map.mp also
    rw [inverse, inverse] at same
    rw [same]
  obtain ⟨member, atLeast, least, greatest⟩ := Store.neighbours_eq_some ordered faithful stored
  have listedAs := member
  rw [view.sorted_eq] at listedAs
  obtain ⟨next, -, rfl⟩ := List.mem_map.mp listedAs
  simp only [inverse] at atLeast least greatest
  refine ⟨next, rfl, member, atLeast, fun row owned => ?_, fun same row owned => ?_⟩
  · simpa only [inverse] using least (dotted row) owned
  · simpa only [inverse] using greatest same (dotted row) owned

/-- The precomputed neighbour is absent or the least static object a step may answer with. -/
theorem precomputedNext_spec (arcs : List Nat) :
    (d.resources.oidNextMap.load (dotted arcs) = none ∧ d.precomputedNext (dotted arcs) = none) ∨
      ∃ next, d.resources.oidNextMap.load (dotted arcs) = some (dotted next) ∧
        d.precomputedNext (dotted arcs) =
          some (dotted next, d.sourceValue p .static (dotted next)) ∧
        IsFirst (d.above arcs .static) (some next) := by
  cases stored : d.resources.oidNextMap.load (dotted arcs) with
  | none => exact .inl ⟨rfl, by simp [precomputedNext, stored]⟩
  | some nextOID =>
    obtain ⟨next, rfl, owned, atLeast, least, -⟩ := d.oidNextMap_spec stored
    obtain ⟨response, indexed⟩ := Option.isSome_iff_exists.mp ((d.index_isSome_iff next).mpr owned)
    refine Or.inr ⟨next, rfl, ?_, ⟨owned, ?_⟩, ?_⟩
    · simp [precomputedNext, stored, indexed, sourceValue, (d.rows_bounded owned).1]
    · rcases atLeast.eq_or_lt with rfl | above
      · exact .inr ⟨rfl, rfl, stored⟩
      · exact .inl above
    · rintro key ⟨present, higher | ⟨-, rfl, loops⟩⟩
      · exact least key present higher
      · exact (dotted_inj.mp (Option.some.inj (stored.symm.trans loops))).le

theorem staticCandidate_spec (bounded : Arcs arcs) :
    ∃ next, IsFirst (d.above arcs .static) next ∧
      d.staticCandidate (dotted arcs) = .ok (d.entry p .static next) := by
  obtain ⟨listed, view⟩ := d.resources_view
  have below : d.resources.sortedOIDs.Pairwise fun a b =>
      decide (compareOIDs b (dotted arcs) ≤ 0) = true →
        decide (compareOIDs a (dotted arcs) ≤ 0) = true := by
    rw [view.sorted_eq, List.pairwise_map]
    refine view.ordered.imp_of_mem ?_
    intro a b inside also le
    simp only [decide_eq_true_eq, compareOIDs_nonpos_iff (view.bounded a inside).2 bounded,
      compareOIDs_nonpos_iff (view.bounded b also).2 bounded]
    exact le.trans
  rcases d.precomputedNext_spec p arcs with ⟨unstored, absent⟩ | ⟨next, stored, pre, isFirst⟩
  · obtain ⟨next, isNext, found⟩ := exists_isNext_find? dotted
      (fun oid => !decide (compareOIDs oid (dotted arcs) ≤ 0)) view.ordered fun a member => by
        rw [Bool.not_eq_true', decide_eq_false_iff_not,
          compareOIDs_nonpos_iff (view.bounded a member).2 bounded, not_le]
    have rows_eq : d.rows .static = {a | a ∈ listed} := by
      ext a
      change dotted a ∈ d.resources.sortedOIDs ↔ _
      rw [view.sorted_eq, List.mem_map_of_injective dotted_injective]
      rfl
    rw [← rows_eq] at isNext
    refine ⟨next, d.above_of_advances (fun _ loops => ?_) isNext, ?_⟩
    · simp [Loops, unstored] at loops
    rw [staticCandidate]
    simp only [absent]
    rw [search_bind below, view.sorted_eq, found]
    cases next with
    | none => rfl
    | some next =>
      have owned := isNext.1.1
      obtain ⟨response, indexed⟩ :=
        Option.isSome_iff_exists.mp ((d.index_isSome_iff next).mpr owned)
      have notName : dotted next ≠ sysNameOID := fun same =>
        d.scalars_not_static.1 (dotted_inj.mp (same.trans sysNameOID_eq) ▸ owned)
      have notLocation : dotted next ≠ sysLocationOID := fun same =>
        d.scalars_not_static.2 (dotted_inj.mp (same.trans sysLocationOID_eq) ▸ owned)
      simp [notName, notLocation, indexed, entry, sourceValue]
  · refine ⟨some next, isFirst, ?_⟩
    rw [staticCandidate, search_eq below]
    simp [pre, entry]

theorem scalarCandidate_spec {scalar : List Nat} (bounded : Arcs arcs) (scalarBound : Arcs scalar)
    (value : Bytes) :
    ∃ next, IsNext {scalar} arcs next ∧ scalarCandidate (dotted arcs) (dotted scalar) value =
      next.toList.map fun a => (dotted a, value) := by
  rw [scalarCandidate]
  simp only [gt_iff_lt, compareOIDs_pos_iff scalarBound bounded]
  by_cases above : arcs < scalar
  · refine ⟨some scalar, ⟨⟨rfl, above⟩, fun key inside => inside.1.ge⟩, by simp [above]⟩
  · refine ⟨none, ?_, by simp [above]⟩
    rintro key rfl
    exact above

theorem metricCandidate_spec (bounded : Arcs arcs) :
    ∃ next, IsNext (d.rows .metric) arcs next ∧
      d.metricCandidate p (dotted arcs) = d.entry p .metric next := by
  cases present : d.metricsCycler with
  | none =>
    refine ⟨none, ?_, by simp [metricCandidate, present, entry]⟩
    rintro key ⟨served, -⟩
    simp [present] at served
  | some cycler =>
    obtain ⟨listed, same, ascending, wellFormed⟩ := d.metricOIDs.getSortedMetricOIDs_spec
    obtain ⟨next, isNext, found⟩ := exists_isNext_find? dotted
      (fun oid => decide (compareOIDs oid (dotted arcs) > 0) &&
        decide (d.metricOIDs.getMetricValue cycler oid p ≠ []))
      (ascending.imp le_of_lt) fun a member => by
        rw [Bool.and_eq_true, decide_eq_true_eq, gt_iff_lt, decide_eq_true_eq,
          compareOIDs_pos_iff (wellFormed a member).2 bounded,
          d.metricOIDs.getMetricValue_ne_nil_iff, same]
        exact and_iff_left (List.mem_map_of_mem member)
    have rows_eq : d.rows .metric = {a | a ∈ listed} := by
      ext a
      change d.metricsCycler.isSome = true ∧ dotted a ∈ d.metricOIDs.getSortedMetricOIDs ↔ _
      rw [same, List.mem_map_of_injective dotted_injective, present]
      simp
    refine ⟨next, rows_eq ▸ isNext, ?_⟩
    simp only [metricCandidate, present]
    rw [same, found]
    cases next <;> simp [entry, sourceValue, metricValue, present]

theorem cyclerCandidate_spec (bounded : Arcs arcs)
    (notBetween : ¬ IfCounterCycler.BetweenTables arcs) :
    ∃ next, IsNext (d.rows .cycler) arcs next ∧
      d.cyclerCandidate (dotted arcs) = .ok (d.entry p .cycler next) := by
  cases present : d.ifCycler with
  | none =>
    refine ⟨none, ?_, by simp [cyclerCandidate, present, entry]⟩
    rintro key ⟨counters, listed, -⟩
    simp [present] at listed
  | some counters =>
    have rows_eq : d.rows .cycler = counters.rows := by
      ext a
      change (∃ counters ∈ d.ifCycler, a ∈ counters.rows) ↔ _
      simp [present]
    obtain ⟨next, isNext, found⟩ := counters.nextDynamicOID_isNext bounded notBetween
    rw [rows_eq]
    by_cases empty : counters.sortedIfIndexes = []
    · refine ⟨none, ?_, by simp [cyclerCandidate, present, empty, entry]⟩
      rintro key ⟨c, -, -, i, known, -⟩
      simp [empty] at known
    · refine ⟨next, isNext, ?_⟩
      simp only [cyclerCandidate, present, empty, ↓reduceIte, found, Checked.ok_bind]
      cases next with
      | none => rfl
      | some a =>
        have owned : a ∈ d.rows .cycler := rows_eq ▸ isNext.1.1
        simp [IfCounterCycler.answer, entry, sourceValue, cyclerValue, present,
          (d.rows_bounded owned).1]

theorem cyclerCandidate_between (bounded : Arcs arcs) (between : IfCounterCycler.BetweenTables arcs)
    :
    d.cyclerCandidate (dotted arcs) = .ok [] := by
  rw [cyclerCandidate]
  cases d.ifCycler with
  | none => rfl
  | some counters =>
    simp [counters.nextDynamicOID_between bounded between, Checked.ok_bind, ite_self]

/-! ### Merging the candidates -/

/-- The answer of a step that chose an object of a source. -/
def report : Option (Source × List Nat) → Bytes × Bytes
  | none => ([], valueEndOfMibView)
  | some (source, arcs) =>
    (dotted arcs, d.resolve (dotted arcs) (d.sourceValue p source (dotted arcs)))

private def text (candidate : Source × List Nat) : Bytes × Bytes :=
  (dotted candidate.2, d.sourceValue p candidate.1 (dotted candidate.2))

private theorem map_text_candidates (next : Source → Option (List Nat)) (consulted : List Source) :
    (candidates next consulted).map (d.text p) =
      consulted.flatMap fun source => d.entry p source (next source) := by
  induction consulted with
  | nil => rfl
  | cons source rest ih =>
    rw [List.flatMap_cons, ← ih, candidates, List.filterMap_cons]
    cases next source <;> rfl

private theorem text_less {a b : Source × List Nat} (leftBound : Arcs a.2) (rightBound : Arcs b.2) :
    decide (compareOIDs (d.text p a).1 (d.text p b).1 < 0) = decide (a.2 < b.2) := by
  rw [Bool.eq_iff_iff, decide_eq_true_iff, decide_eq_true_iff]
  exact compareOIDs_neg_iff leftBound rightBound

private theorem firstMin_text {first : Source × List Nat} {rest : List (Source × List Nat)}
    (bounded : ∀ c ∈ first :: rest, Arcs c.2) :
    ∃ choice ∈ first :: rest, merged (first :: rest) = some choice ∧
      firstMin (fun a b => decide (compareOIDs a.1 b.1 < 0)) (d.text p first)
        (rest.map (d.text p)) = d.text p choice := by
  refine ⟨_, merged_mem rfl, rfl, firstMin_map first rest fun a inside b also => ?_⟩
  exact (d.text_less p (bounded a inside) (bounded b also)).trans (decide_eq_decide.mpr Iff.rfl)

theorem smallestCandidate_eq {all : List (Source × List Nat)} (bounded : ∀ c ∈ all, Arcs c.2) :
    d.smallestCandidate (all.map (d.text p)) = d.report p (merged all) := by
  cases all with
  | nil => rfl
  | cons first rest =>
    obtain ⟨choice, -, found, same⟩ := d.firstMin_text p bounded
    rw [found, List.map_cons, smallestCandidate, same]
    rfl

private theorem foldl_consider {currentOID : Bytes} (best : Bytes × Bytes)
    (rest : List (Bytes × Bytes)) (named : ∀ c ∈ best :: rest, c.1 ≠ [])
    (higher : ∀ c ∈ rest, compareOIDs c.1 currentOID > 0) :
    rest.foldl (consider currentOID) best =
      firstMin (fun a b => decide (compareOIDs a.1 b.1 < 0)) best rest := by
  induction rest generalizing best with
  | nil => rfl
  | cons next rest ih =>
    have step : consider currentOID best next =
        if decide (compareOIDs next.1 best.1 < 0) = true then next else best := by
      simp [consider, higher next (by simp), named best (by simp)]
    rw [List.foldl_cons, step, ih]
    · rfl
    · intro c listed
      refine named c ?_
      split_ifs at listed <;> simp only [List.mem_cons] at listed ⊢ <;> tauto
    · exact fun c listed => higher c (List.mem_cons_of_mem _ listed)

private theorem consider_scalar (currentOID : Bytes) (best : Bytes × Bytes) (oid value : Bytes) :
    consider currentOID best (oid, value) =
      (scalarCandidate currentOID oid value).foldl (consider currentOID) best := by
  by_cases higher : compareOIDs oid currentOID > 0
  · simp [scalarCandidate, higher]
  · simp [scalarCandidate, higher, consider]

/-- The sources the fallback without static objects consults. -/
def scalarsAndLinks : List Source := [.sysName, .sysLocation, .lldp]

private theorem not_cycler_of_union (owned : ∃ source ∈ scalarsAndLinks, arcs ∈ d.rows source) :
    arcs ∉ d.rows .cycler := by
  obtain ⟨source, listed, owned⟩ := owned
  simp only [scalarsAndLinks, List.mem_cons, List.not_mem_nil, or_false] at listed
  rcases listed with rfl | rfl | rfl
  · rw [show arcs = sysNameArcs from owned]
    exact d.scalars_not_cycler.1
  · rw [show arcs = sysLocationArcs from owned]
    exact d.scalars_not_cycler.2
  · exact d.lldp_disjoint_cycler owned

theorem nextWithoutStatic_eq (bounded : Arcs arcs)
    (isNext : ∀ source ∈ scalarsAndLinks, IsNext (d.rows source) arcs (next source))
    (nameEntry : scalarCandidate (dotted arcs) sysNameOID d.cachedSysName =
      d.entry p .sysName (next .sysName))
    (locationEntry : scalarCandidate (dotted arcs) sysLocationOID d.cachedSysLocation =
      d.entry p .sysLocation (next .sysLocation)) :
    d.nextWithoutStatic (dotted arcs) ((d.entry p .lldp (next .lldp)).head?.getD ([], [])) =
      d.report p (merged (candidates next scalarsAndLinks)) := by
  have listed : ∀ c ∈ candidates next scalarsAndLinks,
      c.1 ∈ scalarsAndLinks ∧ c.2 ∈ d.rows c.1 ∧ arcs < c.2 := by
    rintro ⟨source, a⟩ member
    obtain ⟨known, found⟩ := mem_candidates.mp member
    have own := isNext source known
    rw [found] at own
    exact ⟨known, own.1⟩
  have folded : d.nextWithoutStatic (dotted arcs)
      ((d.entry p .lldp (next .lldp)).head?.getD ([], [])) =
        let best := ((candidates next scalarsAndLinks).map (d.text p)).foldl
          (consider (dotted arcs)) ([], [])
        if best.1 = [] then ([], valueEndOfMibView) else (best.1, d.overrideLLDP best.1 best.2) := by
    rw [map_text_candidates, nextWithoutStatic]
    simp only [scalarsAndLinks, List.flatMap_cons, List.flatMap_nil, List.append_nil,
      List.foldl_append, consider_scalar, nameEntry, locationEntry]
    cases found : next .lldp with
    | none => rfl
    | some a =>
      have own := isNext .lldp (by simp [scalarsAndLinks])
      rw [found] at own
      simp [entry, (d.rows_bounded own.1.1).1]
  rw [folded]
  cases all : candidates next scalarsAndLinks with
  | nil => rfl
  | cons first rest =>
    rw [all] at listed
    have bounds : ∀ c ∈ first :: rest, Arcs c.2 := fun c member =>
      (d.rows_bounded (listed c member).2.1).2
    have named : ∀ c ∈ (first :: rest).map (d.text p), c.1 ≠ [] := by
      intro c member
      obtain ⟨candidate, inside, rfl⟩ := List.mem_map.mp member
      simpa [text] using (d.rows_bounded (listed candidate inside).2.1).1
    have higher : ∀ c ∈ (first :: rest).map (d.text p), compareOIDs c.1 (dotted arcs) > 0 := by
      intro c member
      obtain ⟨candidate, inside, rfl⟩ := List.mem_map.mp member
      exact (compareOIDs_pos_iff (bounds candidate inside) bounded).mpr
        (listed candidate inside).2.2
    obtain ⟨choice, inside, found, same⟩ := d.firstMin_text p bounds
    have start : consider (dotted arcs) ([], []) (d.text p first) = d.text p first := by
      simp [consider, higher (d.text p first) (by simp)]
    rw [List.map_cons] at named higher
    have best := foldl_consider (d.text p first) (rest.map (d.text p)) named fun c member =>
      higher c (List.mem_cons_of_mem _ member)
    have silent : d.cyclerValue (dotted choice.2) = [] := by
      by_contra answered
      exact d.not_cycler_of_union ⟨choice.1, (listed choice inside).1, (listed choice inside).2.1⟩
        ((d.cyclerValue_ne_nil_iff (bounds choice inside)).mp answered)
    rw [List.map_cons, List.foldl_cons, start, best, same, found]
    simp [text, report, resolve, overrideIfHC_eq, silent,
      (d.rows_bounded (listed choice inside).2.1).1]

/-! ### The paths of a step -/

/-- The dynamic sources test clear of the gap between an object and its static neighbour. -/
def Clear (arcs next : List Nat) : Prop :=
  d.metricsClear (dotted arcs) (dotted next) = true ∧
    d.ifCyclerClear (dotted arcs) (dotted next) = true ∧
    ∀ row ∈ d.rows .lldp, arcs < row → next < row

/-- No precomputed neighbour may be returned at once. -/
def Blocked (arcs : List Nat) : Prop :=
  ∀ next, d.resources.oidNextMap.load (dotted arcs) = some (dotted next) → ¬ d.Clear arcs next

/-- The sources a step at an object takes candidates from. -/
inductive Consults (arcs : List Nat) : List Source → Prop where
  | neighbour (next : List Nat)
      (stored : d.resources.oidNextMap.load (dotted arcs) = some (dotted next))
      (clear : d.Clear arcs next) : Consults arcs [.static]
  | withoutStatic (empty : d.resources.sortedOIDs = []) : Consults arcs scalarsAndLinks
  | between (nonempty : d.resources.sortedOIDs ≠ []) (blocked : d.Blocked arcs)
      (between : IfCounterCycler.BetweenTables arcs) :
      Consults arcs [.static, .sysName, .sysLocation, .metric, .lldp]
  | all (nonempty : d.resources.sortedOIDs ≠ []) (blocked : d.Blocked arcs)
      (notBetween : ¬ IfCounterCycler.BetweenTables arcs) :
      Consults arcs [.static, .sysName, .sysLocation, .metric, .cycler, .lldp]

/-- A choice among the consulted sources: the least object, from the first source that owns it. -/
structure Chooses (arcs : List Nat) (consulted : List Source)
    (choice : Option (Source × List Nat)) : Prop where
  least : IsFirst (union (d.above arcs) consulted) (choice.map Prod.snd)
  owner : ∀ source a, choice = some (source, a) →
    ∃ front back, consulted = front ++ source :: back ∧ a ∈ d.above arcs source ∧
      ∀ other ∈ front, a ∉ d.above arcs other

theorem chooses_merged
    (exact_each : ∀ source ∈ consulted, IsFirst (d.above arcs source) (next source)) :
    d.Chooses arcs consulted (merged (candidates next consulted)) where
  least := merged_isFirst exact_each
  owner := fun _ _ found => merged_first exact_each found

theorem lldpClear_iff {next : List Nat} (nextBound : Arcs next)
    (isNext : IsNext (d.rows .lldp) arcs lldpNext) :
    lldpClear ((d.entry p .lldp lldpNext).head?.getD ([], [])).1 (dotted next) = true ↔
      ∀ row ∈ d.rows .lldp, arcs < row → next < row := by
  cases lldpNext with
  | none => simpa [entry, lldpClear] using fun row owned higher => absurd higher (isNext row owned)
  | some first =>
    have wellFormed := d.rows_bounded isNext.1.1
    have apart : ¬ dotted first = [] := by simpa using wellFormed.1
    simp only [lldpClear, entry, Option.toList_some, List.map_cons, List.map_nil, List.head?_cons,
      Option.getD_some, apart, decide_false, Bool.false_or, decide_eq_true_eq, gt_iff_lt,
      compareOIDs_pos_iff wellFormed.2 nextBound]
    constructor
    · exact fun beyond row owned higher => beyond.trans_le (isNext.2 ⟨owned, higher⟩)
    · exact fun beyond => beyond first isNext.1.1 isNext.1.2

private theorem smallestCandidate_chooses
    (exact_each : ∀ source ∈ consulted, IsFirst (d.above arcs source) (next source)) :
    d.smallestCandidate (consulted.flatMap fun source => d.entry p source (next source)) =
      d.report p (merged (candidates next consulted)) := by
  rw [← map_text_candidates]
  refine d.smallestCandidate_eq p ?_
  rintro ⟨source, a⟩ member
  obtain ⟨known, found⟩ := mem_candidates.mp member
  have own := exact_each source known
  rw [found] at own
  exact (d.rows_bounded own.1.1).2

/-- The slow path merges the candidates of every source, or of all but the interface rows. -/
theorem nextFromCandidates_spec (bounded : Arcs arcs) (nonempty : d.resources.sortedOIDs ≠ [])
    (blocked : d.Blocked arcs) (linkNext : IsNext (d.rows .lldp) arcs lldpNext) :
    ∃ consulted choice, d.Consults arcs consulted ∧ d.Chooses arcs consulted choice ∧
      d.nextFromCandidates p (dotted arcs) ((d.entry p .lldp lldpNext).head?.getD ([], [])) =
        .ok (d.report p choice) := by
  obtain ⟨static, isStatic, staticEntry⟩ := d.staticCandidate_spec p bounded
  obtain ⟨name, isName, nameEntry⟩ :=
    scalarCandidate_spec bounded sysNameArcs_bounded d.cachedSysName
  obtain ⟨location, isLocation, locationEntry⟩ :=
    scalarCandidate_spec bounded sysLocationArcs_bounded d.cachedSysLocation
  obtain ⟨metric, isMetric, metricEntry⟩ := d.metricCandidate_spec p bounded
  rw [← sysNameOID_eq] at nameEntry
  rw [← sysLocationOID_eq] at locationEntry
  have linkEntry : (if ((d.entry p .lldp lldpNext).head?.getD ([], [])).1 ≠ [] then
      [(d.entry p .lldp lldpNext).head?.getD ([], [])] else []) = d.entry p .lldp lldpNext := by
    cases lldpNext with
    | none => rfl
    | some a => simp [entry, (d.rows_bounded linkNext.1.1).1]
  by_cases between : IfCounterCycler.BetweenTables arcs
  · let next (source : Source) : Option (List Nat) :=
      source.casesOn static name location metric none lldpNext
    have exact_each : ∀ source ∈ [Source.static, .sysName, .sysLocation, .metric, .lldp],
        IsFirst (d.above arcs source) (next source) := by
      rw [List.forall_mem_cons, List.forall_mem_cons, List.forall_mem_cons, List.forall_mem_cons,
        List.forall_mem_singleton]
      exact ⟨isStatic, d.above_of_dynamic .sysName (by decide) isName,
        d.above_of_dynamic .sysLocation (by decide) isLocation,
        d.above_of_dynamic .metric (by decide) isMetric,
        d.above_of_dynamic .lldp (by decide) linkNext⟩
    refine ⟨_, _, .between nonempty blocked between, d.chooses_merged exact_each, ?_⟩
    rw [← d.smallestCandidate_chooses p exact_each, nextFromCandidates, staticEntry,
      d.cyclerCandidate_between bounded between, nameEntry, locationEntry, metricEntry, linkEntry]
    simp only [Checked.ok_bind, List.flatMap_cons, List.flatMap_nil, List.append_nil,
      List.append_assoc]
    rfl
  · obtain ⟨cycler, isCycler, cyclerEntry⟩ := d.cyclerCandidate_spec p bounded between
    let next (source : Source) : Option (List Nat) :=
      source.casesOn static name location metric cycler lldpNext
    have exact_each : ∀ source ∈ [Source.static, .sysName, .sysLocation, .metric, .cycler, .lldp],
        IsFirst (d.above arcs source) (next source) := by
      rw [List.forall_mem_cons, List.forall_mem_cons, List.forall_mem_cons, List.forall_mem_cons,
        List.forall_mem_cons, List.forall_mem_singleton]
      exact ⟨isStatic, d.above_of_dynamic .sysName (by decide) isName,
        d.above_of_dynamic .sysLocation (by decide) isLocation,
        d.above_of_dynamic .metric (by decide) isMetric,
        d.above_of_dynamic .cycler (by decide) isCycler,
        d.above_of_dynamic .lldp (by decide) linkNext⟩
    refine ⟨_, _, .all nonempty blocked between, d.chooses_merged exact_each, ?_⟩
    rw [← d.smallestCandidate_chooses p exact_each, nextFromCandidates, staticEntry, cyclerEntry,
      nameEntry, locationEntry, metricEntry, linkEntry]
    simp only [Checked.ok_bind, List.flatMap_cons, List.flatMap_nil, List.append_nil,
      List.append_assoc]
    rfl

/-- **A walk step, read by sources.** Whatever path the step takes, it ends without a fault in the
least object of the sources it consults, or at the end of the view when they have none. -/
theorem findNextOID_spec (bounded : Arcs arcs) :
    ∃ consulted choice, d.Consults arcs consulted ∧ d.Chooses arcs consulted choice ∧
      d.findNextOID p (dotted arcs) = .ok (d.report p choice) := by
  obtain ⟨lldpNext, linkNext, linkEntry⟩ := d.lldpNextFromServed_spec p bounded
  rw [findNextOID, findNextOIDWithServed, linkEntry, Checked.ok_bind]
  have slow : d.Blocked arcs → ∃ consulted choice, d.Consults arcs consulted ∧
      d.Chooses arcs consulted choice ∧
      d.nextOnSlowPath p (dotted arcs) ((d.entry p .lldp lldpNext).head?.getD ([], [])) =
        .ok (d.report p choice) := by
    intro blocked
    rw [nextOnSlowPath]
    by_cases empty : d.resources.sortedOIDs = []
    · rw [if_pos empty]
      obtain ⟨name, isName, nameEntry⟩ :=
        scalarCandidate_spec bounded sysNameArcs_bounded d.cachedSysName
      obtain ⟨location, isLocation, locationEntry⟩ :=
        scalarCandidate_spec bounded sysLocationArcs_bounded d.cachedSysLocation
      let next : Source → Option (List Nat)
        | .sysName => name
        | .sysLocation => location
        | .lldp => lldpNext
        | _ => none
      have isNext : ∀ source ∈ scalarsAndLinks, IsNext (d.rows source) arcs (next source) := by
        rw [scalarsAndLinks, List.forall_mem_cons, List.forall_mem_cons, List.forall_mem_singleton]
        exact ⟨isName, isLocation, linkNext⟩
      refine ⟨_, _, .withoutStatic empty, d.chooses_merged fun source listed =>
        d.above_of_dynamic source ?_ (isNext source listed), congrArg Except.ok
          (d.nextWithoutStatic_eq p bounded isNext nameEntry locationEntry)⟩
      rintro rfl
      simp [scalarsAndLinks] at listed
    · rw [if_neg empty]
      exact d.nextFromCandidates_spec p bounded empty blocked linkNext
  rcases d.precomputedNext_spec p arcs with ⟨unstored, absent⟩ | ⟨next, stored, pre, isFirst⟩
  · rw [absent]
    refine slow fun next stored => ?_
    simp [unstored] at stored
  · rw [pre]
    have clear_iff := d.lldpClear_iff p (d.rows_bounded isFirst.1.1).2 linkNext
    by_cases clear : d.Clear arcs next
    · have passed : (d.metricsClear (dotted arcs) (dotted next) &&
          d.ifCyclerClear (dotted arcs) (dotted next) &&
          lldpClear ((d.entry p .lldp lldpNext).head?.getD ([], [])).1 (dotted next)) = true := by
        rw [Bool.and_eq_true, Bool.and_eq_true, clear_iff, and_assoc]
        exact clear
      have exact_each : ∀ source ∈ [Source.static],
          IsFirst (d.above arcs source) ((fun _ => some next) source) := by
        simpa using isFirst
      refine ⟨_, _, .neighbour next stored clear, d.chooses_merged exact_each, ?_⟩
      simp only [passed, ↓reduceIte]
      rfl
    · have failed : ¬ (d.metricsClear (dotted arcs) (dotted next) &&
          d.ifCyclerClear (dotted arcs) (dotted next) &&
          lldpClear ((d.entry p .lldp lldpNext).head?.getD ([], [])).1 (dotted next)) = true := by
        rw [Bool.and_eq_true, Bool.and_eq_true, clear_iff, and_assoc]
        exact clear
      simp only [failed, Bool.false_eq_true, ↓reduceIte]
      refine slow fun other alsoStored => ?_
      rwa [dotted_inj.mp (Option.some.inj (alsoStored.symm.trans stored))]

end Device

end Nl6
