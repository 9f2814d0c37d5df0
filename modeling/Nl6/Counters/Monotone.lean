import Nl6.Counters.Rollup

/-! # Counters never run backwards

Every entry of the hold ledger is a `Hold` on the interface's own count, but that count is composed
from what other interfaces serve, and their entries are rewritten while this one is kept. A call of
`reconcileHoldAt` only raises what is served at the instants already past (`reconcileHoldAt_spec`),
and with that the totals skipped against older entries stay covered by the counts of the newer ones.
-/

namespace Nl6

variable {Time : Type} [LinearOrder Time]

namespace CounterHold

/-- The source clamps twice; together the clamps are the instant of the span. -/
theorem clampedInstant_eq (h : CounterHold Time) (t : Time) : h.clampedInstant t = h.instant t := by
  unfold clampedInstant Span.instant
  cases h.down with
  | false =>
    simp only [Bool.false_and, Bool.false_eq_true, if_false]
    exact (max_def_lt t h.upAt).symm
  | true =>
    have lower : (if h.downAt < t then h.downAt else t) = min t h.downAt := by
      rw [min_comm]
      exact (min_def_lt h.downAt t).symm
    simp only [Bool.true_and, decide_eq_true_eq, if_true, lower]
    exact (max_def_lt _ h.upAt).symm

variable [OrderBot Time]

/-- One direction of a ledger entry as a hold; an interface without an entry was never held. -/
def toHold (entry : Option (CounterHold Time)) (inbound : Bool) : Hold Time :=
  match entry with
  | none => Hold.never
  | some h => ⟨h.toSpan, h.skipped inbound⟩

def span (entry : Option (CounterHold Time)) : Span Time :=
  match entry with
  | none => Span.never
  | some h => h.toSpan

theorem toHold_toSpan (entry : Option (CounterHold Time)) (inbound : Bool) :
    (toHold entry inbound).toSpan = span entry := by
  cases entry <;> rfl

end CounterHold

open CounterHold

section Served

variable {rollup : Rollup} {dials : Dials Time} {ledger : Ledger Time} {inbound : Bool}

theorem rawDeltaFrom_le {served served' : Nat → Time → Nat} {i : Nat} {t u : Time} (before : t ≤ u)
    (higher : ∀ z ∈ rollup.sources i, served z t ≤ served' z u) :
    rawDeltaFrom rollup dials served inbound i t ≤
      rawDeltaFrom rollup dials served' inbound i u := by
  unfold rawDeltaFrom
  unfold Rollup.sources at higher
  split
  · next aggregate =>
      rw [if_pos aggregate] at higher
      exact List.sum_le_sum higher
  · next plain =>
      rw [if_neg plain] at higher
      cases parent : rollup.counterParent i with
      | none => exact dials.deltaOctetsAt_mono i inbound before
      | some p => exact dials.scale_mono i (higher p (by simp [parent]))

theorem servedDeltaAt_update {x : Nat} {entry : Option (CounterHold Time)} {i : Nat}
    (below : rollup.height i < rollup.height x) :
    servedDeltaAt rollup dials (Function.update ledger x entry) inbound i =
      servedDeltaAt rollup dials ledger inbound i := by
  induction i using rollup.induction_sources with
  | step i ih =>
    funext t
    have other : i ≠ x := by
      rintro rfl
      exact lt_irrefl _ below
    rw [servedDeltaAt_eq, servedDeltaAt_eq, Function.update_of_ne other]
    congr 1
    funext s
    refine rawDeltaFrom_congr (fun _ => rfl) fun z mem => ?_
    rw [ih z mem ((Rollup.height_lt_of_mem_sources mem).trans below)]

theorem rawDeltaAt_update (x : Nat) (entry : Option (CounterHold Time)) :
    rawDeltaAt rollup dials (Function.update ledger x entry) inbound x =
      rawDeltaAt rollup dials ledger inbound x := by
  funext t
  refine rawDeltaFrom_congr (fun _ => rfl) fun z mem => ?_
  rw [servedDeltaAt_update (Rollup.height_lt_of_mem_sources mem)]

variable [OrderBot Time]

theorem heldDeltaFor_eq_reading (raw : Time → Nat) (entry : Option (CounterHold Time)) (t : Time)
    (inbound : Bool) : heldDeltaFor raw entry t inbound = (toHold entry inbound).reading raw t := by
  cases entry with
  | none => exact (Hold.reading_never t).symm
  | some h =>
    simp only [heldDeltaFor, underflows, clampedInstant_eq, decide_eq_true_eq]
    change _ = raw (h.instant t) - h.skipped inbound
    split <;> omega

theorem servedDeltaAt_eq_reading (i : Nat) (t : Time) :
    servedDeltaAt rollup dials ledger inbound i t =
      (toHold (ledger i) inbound).reading (rawDeltaAt rollup dials ledger inbound i) t :=
  (servedDeltaAt_eq i t).trans (heldDeltaFor_eq_reading _ _ _ _)

theorem servedDeltaAt_mono (i : Nat) : Monotone (servedDeltaAt rollup dials ledger inbound i) := by
  induction i using rollup.induction_sources with
  | step i ih =>
    intro t u before
    rw [servedDeltaAt_eq_reading, servedDeltaAt_eq_reading]
    exact Hold.reading_mono _ (fun s v le => rawDeltaFrom_le le fun z mem => ih z mem le) before

theorem rawDeltaAt_mono (i : Nat) : Monotone (rawDeltaAt rollup dials ledger inbound i) :=
  fun _ _ le => rawDeltaFrom_le le fun z _ => servedDeltaAt_mono z le

end Served

/-! ### The invariant of the ledger -/

section Reconcile

variable [OrderBot Time] {layout : CounterLayout} {dials : Dials Time} {ledger : Ledger Time}
  {now : Time} {entry : Option (CounterHold Time)}

/-- Every entry is a sound hold on the count of its interface. -/
def Ledger.Sound (rollup : Rollup) (dials : Dials Time) (ledger : Ledger Time) (now : Time) : Prop :=
  ∀ i inbound, (toHold (ledger i) inbound).Sound (rawDeltaAt rollup dials ledger inbound i) now

/-- Nothing served at an instant up to `now` is lowered. -/
def Ledger.Raises (rollup : Rollup) (dials : Dials Time) (now : Time)
    (ledger ledger' : Ledger Time) : Prop :=
  ∀ i inbound, ∀ t ≤ now,
    servedDeltaAt rollup dials ledger inbound i t ≤ servedDeltaAt rollup dials ledger' inbound i t

theorem Ledger.Sound.ordered {rollup : Rollup} (sound : Ledger.Sound rollup dials ledger now)
    (i : Nat) : (span (ledger i)).Ordered now := by
  have ordered := (sound i true).toOrdered
  rwa [toHold_toSpan] at ordered

theorem sound_seedHolds (oper : Nat → Nat) (now : Time) :
    Ledger.Sound layout.rollup dials (seedHolds layout oper) now := by
  intro i inbound
  unfold seedHolds
  split
  · refine ⟨⟨bot_le, bot_le, fun _ => bot_le⟩, ?_⟩
    cases inbound <;> exact Nat.zero_le _
  · exact Hold.sound_never _ _

theorem toHold_reconciled (raw : Bool → Time → Nat) (past : (span entry).downAt ≤ now)
    (up inbound : Bool) :
    toHold (reconciled raw entry up now) inbound =
      (toHold entry inbound).follow (raw inbound) up now := by
  cases entry with
  | none => cases up <;> cases inbound <;> rfl
  | some h =>
    have notEarlier : ¬ now < h.downAt := not_lt.mpr past
    cases up <;> cases down : h.down <;> cases inbound <;>
      simp [reconciled, toHold, Hold.follow, Hold.opened, Hold.closed, Span.opened, Span.closedAt,
        skipped, down, notEarlier]

variable {rollup : Rollup}

/-- Opening or closing one hold raises what every interface serves and keeps every
other hold sound: its skipped total was covered by a count that has not been lowered. -/
theorem Ledger.Sound.update {later : Time} (sound : Ledger.Sound rollup dials ledger now)
    (le : now ≤ later) {x : Nat} {up : Bool} (step : ∀ inbound, toHold entry inbound =
      (toHold (ledger x) inbound).follow (rawDeltaAt rollup dials ledger inbound x) up later) :
    Ledger.Sound rollup dials (Function.update ledger x entry) later ∧
      Ledger.Raises rollup dials later ledger (Function.update ledger x entry) := by
  have raises : Ledger.Raises rollup dials later ledger (Function.update ledger x entry) := by
    intro i inbound
    induction i using rollup.induction_sources with
    | step i ih =>
      intro t past
      rw [servedDeltaAt_eq_reading, servedDeltaAt_eq_reading]
      have here := (sound i inbound).raise le fun _ _ => le_rfl
      by_cases same : i = x
      · subst same
        rw [Function.update_self, rawDeltaAt_update, step]
        exact here.reading_le_follow (rawDeltaAt_mono i) up past
      · rw [Function.update_of_ne same]
        exact Hold.reading_le_reading here.toOrdered
          (fun s before => rawDeltaFrom_le le_rfl fun z mem => ih z mem s before) past
  refine ⟨fun i inbound => ?_, raises⟩
  by_cases same : i = x
  · subst same
    rw [Function.update_self, rawDeltaAt_update, step]
    exact ((sound i inbound).raise le fun _ _ => le_rfl).follow (rawDeltaAt_mono i) up
  · rw [Function.update_of_ne same]
    exact (sound i inbound).raise le fun s before =>
      rawDeltaFrom_le le_rfl fun z _ => raises z inbound s before

/-- **One call of `reconcileHoldAt`.** At an instant not before the earlier ones it keeps the ledger
sound and raises what is served. -/
theorem reconcileHoldAt_spec (sound : Ledger.Sound layout.rollup dials ledger now)
    {call : OperCall Time} (le : now ≤ call.now) :
    Ledger.Sound layout.rollup dials (reconcileHoldAt layout dials ledger call) call.now ∧
      Ledger.Raises layout.rollup dials call.now ledger
        (reconcileHoldAt layout dials ledger call) := by
  unfold reconcileHoldAt
  split
  · exact sound.update le fun inbound => toHold_reconciled
      (fun inbound => rawDeltaAt layout.rollup dials ledger inbound call.ifIndex.toNat)
      ((sound.ordered _).downAt_le.trans le) _ inbound
  · exact ⟨fun i inbound => (sound i inbound).raise le fun _ _ => le_rfl,
      fun _ _ _ _ => le_rfl⟩

end Reconcile

/-! ### Runs -/

/-- A step of a run: a transition reconciles the ledger, a read asks for an interface's counts. -/
inductive CounterStep (Time : Type) where
  | oper (call : OperCall Time)
  | read (ifIndex : Nat) (t : Time)

structure CounterRead where
  ifIndex : Nat
  inDelta : Nat
  outDelta : Nat

def CounterStep.instant : CounterStep Time → Time
  | .oper call => call.now
  | .read _ t => t

variable [OrderBot Time] (layout : CounterLayout) (dials : Dials Time)

def stepLedger (ledger : Ledger Time) : CounterStep Time → Ledger Time
  | .oper call => reconcileHoldAt layout dials ledger call
  | .read _ _ => ledger

def runLedger (ledger : Ledger Time) (steps : List (CounterStep Time)) : Ledger Time :=
  steps.foldl (stepLedger layout dials) ledger

def runReads : Ledger Time → List (CounterStep Time) → List CounterRead
  | _, [] => []
  | ledger, .oper call :: steps => runReads (reconcileHoldAt layout dials ledger call) steps
  | ledger, .read i t :: steps =>
    ⟨i, (heldDeltasAt layout dials ledger i t).1, (heldDeltasAt layout dials ledger i t).2⟩ ::
      runReads ledger steps

variable {layout dials} {ledger : Ledger Time} {now : Time} {steps : List (CounterStep Time)}

theorem heldDeltasAt_le {ledger' : Ledger Time} {i : Nat} {t u : Time} (before : t ≤ u)
    (raises : Ledger.Raises layout.rollup dials t ledger ledger') :
    (heldDeltasAt layout dials ledger i t).1 ≤ (heldDeltasAt layout dials ledger' i u).1 ∧
      (heldDeltasAt layout dials ledger i t).2 ≤ (heldDeltasAt layout dials ledger' i u).2 := by
  unfold heldDeltasAt
  split
  · exact ⟨dials.deltaOctetsAt_mono i true before, dials.deltaOctetsAt_mono i false before⟩
  · exact ⟨(raises i true t le_rfl).trans (servedDeltaAt_mono i before),
      (raises i false t le_rfl).trans (servedDeltaAt_mono i before)⟩

/-- A run keeps the ledger sound, at no later instant than its steps are, and what is read in it is at
least what was served before it. -/
theorem run_spec (sound : Ledger.Sound layout.rollup dials ledger now)
    (sorted : (steps.map CounterStep.instant).Pairwise (· ≤ ·))
    (later : ∀ step ∈ steps, now ≤ step.instant) :
    (∃ last, Ledger.Sound layout.rollup dials (runLedger layout dials ledger steps) last ∧
        ∀ t, now ≤ t → (∀ step ∈ steps, step.instant ≤ t) → last ≤ t) ∧
      ∀ read ∈ runReads layout dials ledger steps, ∀ t ≤ now,
        (heldDeltasAt layout dials ledger read.ifIndex t).1 ≤ read.inDelta ∧
          (heldDeltasAt layout dials ledger read.ifIndex t).2 ≤ read.outDelta := by
  induction steps generalizing ledger now with
  | nil => exact ⟨⟨now, sound, fun _ le _ => le⟩, fun read mem => absurd mem List.not_mem_nil⟩
  | cons step steps ih =>
    rw [List.map_cons, List.pairwise_cons] at sorted
    have here : now ≤ step.instant := later step List.mem_cons_self
    have rest : ∀ other ∈ steps, step.instant ≤ other.instant :=
      fun other mem => sorted.1 _ (List.mem_map_of_mem mem)
    cases step with
    | oper call =>
      obtain ⟨kept, raises⟩ := reconcileHoldAt_spec sound here
      obtain ⟨⟨last, lastSound, least⟩, reads⟩ := ih kept sorted.2 rest
      refine ⟨⟨last, lastSound, fun t _ upTo => least t (upTo _ List.mem_cons_self)
        fun other mem => upTo other (List.mem_cons_of_mem _ mem)⟩, fun read mem t past => ?_⟩
      have through := reads read mem t (past.trans here)
      have raised := heldDeltasAt_le (i := read.ifIndex) (le_refl t)
        fun i inbound s before => raises i inbound s (before.trans (past.trans here))
      exact ⟨raised.1.trans through.1, raised.2.trans through.2⟩
    | read i u =>
      have kept : Ledger.Sound layout.rollup dials ledger u :=
        fun i inbound => (sound i inbound).raise here fun _ _ => le_rfl
      obtain ⟨⟨last, lastSound, least⟩, reads⟩ := ih kept sorted.2 rest
      refine ⟨⟨last, lastSound, fun t _ upTo => least t (upTo _ List.mem_cons_self)
        fun other mem => upTo other (List.mem_cons_of_mem _ mem)⟩, fun read mem t past => ?_⟩
      rcases List.mem_cons.mp mem with rfl | mem
      · exact heldDeltasAt_le (past.trans here) fun _ _ _ _ => le_rfl
      · exact reads read mem t (past.trans here)

theorem runReads_pairwise (sound : Ledger.Sound layout.rollup dials ledger now)
    (sorted : (steps.map CounterStep.instant).Pairwise (· ≤ ·))
    (later : ∀ step ∈ steps, now ≤ step.instant) :
    (runReads layout dials ledger steps).Pairwise fun first second =>
      first.ifIndex = second.ifIndex →
        first.inDelta ≤ second.inDelta ∧ first.outDelta ≤ second.outDelta := by
  induction steps generalizing ledger now with
  | nil => exact List.Pairwise.nil
  | cons step steps ih =>
    rw [List.map_cons, List.pairwise_cons] at sorted
    have here : now ≤ step.instant := later step List.mem_cons_self
    have rest : ∀ other ∈ steps, step.instant ≤ other.instant :=
      fun other mem => sorted.1 _ (List.mem_map_of_mem mem)
    cases step with
    | oper call => exact ih (reconcileHoldAt_spec sound here).1 sorted.2 rest
    | read i u =>
      have kept : Ledger.Sound layout.rollup dials ledger u :=
        fun i inbound => (sound i inbound).raise here fun _ _ => le_rfl
      refine List.Pairwise.cons (fun read mem same => ?_) (ih kept sorted.2 rest)
      have served := (run_spec kept sorted.2 rest).2 read mem u le_rfl
      rw [← same] at served
      exact served

/-- A sound ledger never takes the branch that serves zero. -/
theorem underflows_eq_false (sound : Ledger.Sound layout.rollup dials ledger now) {i : Nat}
    {h : CounterHold Time} (entry : ledger i = some h) (t : Time) (inbound : Bool) :
    h.underflows (rawDeltaAt layout.rollup dials ledger inbound i) t inbound = false := by
  have covered := (sound i inbound).skipped_le (rawDeltaAt_mono i) t
  rw [entry] at covered
  unfold underflows
  rw [clampedInstant_eq, decide_eq_false_iff_not]
  exact not_lt.mpr covered

/-- **Counters never run backwards.** Over every hierarchy `buildRollup` makes of a one-level parent
table, with any monotone dials and scalings, from the ledger seeded at the start and along every run
of transitions and reads at non-decreasing instants: a later read of an interface returns at least
what an earlier one did, and no ledger entry ever holds more than the count it is subtracted from. -/
theorem counters_never_run_backwards (maxIfIndex : Nat) (known : Nat → Bool)
    (parents : Nat → Option Nat) (members : Nat → List Nat) (ifSpeedBps : Nat → Nat)
    (oneLevel : OneLevelParents parents) (dials : Dials Time) (oper : Nat → Nat)
    (steps : List (CounterStep Time))
    (sorted : (steps.map CounterStep.instant).Pairwise (· ≤ ·)) :
    let layout : CounterLayout :=
      ⟨maxIfIndex, known, buildRollup maxIfIndex parents members ifSpeedBps oneLevel⟩
    let seeded : Ledger Time := seedHolds layout oper
    ((runReads layout dials seeded steps).Pairwise fun first second =>
        first.ifIndex = second.ifIndex →
          first.inDelta ≤ second.inDelta ∧ first.outDelta ≤ second.outDelta) ∧
      ∀ done, done <+: steps → ∀ i h, runLedger layout dials seeded done i = some h →
        ∀ t inbound, h.underflows
          (rawDeltaAt layout.rollup dials (runLedger layout dials seeded done) inbound i) t inbound =
            false := by
  intro layout seeded
  have sound : Ledger.Sound layout.rollup dials seeded ⊥ := sound_seedHolds oper ⊥
  refine ⟨runReads_pairwise sound sorted fun _ _ => bot_le, ?_⟩
  intro done before i h entry t inbound
  obtain ⟨last, kept, -⟩ := (run_spec sound (sorted.sublist (before.sublist.map _))
    fun _ _ => bot_le).1
  exact underflows_eq_false kept entry t inbound

/-- A port with one subinterface, and an aggregate of two further ports. -/
def bayParents : Nat → Option Nat := fun i => if i = 2 then some 1 else none

def bayMembers : Nat → List Nat := fun i => if i = 3 then [4, 5] else []

theorem oneLevel_bayParents : OneLevelParents bayParents := by
  intro c p parent
  unfold bayParents at parent ⊢
  split at parent
  · cases parent
    rfl
  · cases parent

/-- Dials that count one octet per instant; a child takes half. -/
def secondDials : Dials Nat where
  deltaOctetsAt _ _ t := t
  scale _ v := v / 2
  deltaOctetsAt_mono _ _ _ _ le := le
  scale_mono _ _ _ le := Nat.div_le_div_right le

theorem counters_never_run_backwards_bay :
    ([CounterStep.oper ⟨2, 2, 10⟩, .read 2 15, .oper ⟨1, 2, 20⟩, .oper ⟨1, 1, 30⟩,
        .read 2 35].map CounterStep.instant).Pairwise (· ≤ ·) ∧
      (runReads ⟨5, fun _ => true, buildRollup 5 bayParents bayMembers (fun _ => 1)
          oneLevel_bayParents⟩ secondDials (seedHolds ⟨5, fun _ => true,
            buildRollup 5 bayParents bayMembers (fun _ => 1) oneLevel_bayParents⟩ fun _ => 1)
          [CounterStep.oper ⟨2, 2, 10⟩, .read 2 15, .oper ⟨1, 2, 20⟩, .oper ⟨1, 1, 30⟩,
            .read 2 35]).Pairwise fun first second =>
        first.ifIndex = second.ifIndex →
          first.inDelta ≤ second.inDelta ∧ first.outDelta ≤ second.outDelta :=
  ⟨by decide, (counters_never_run_backwards 5 (fun _ => true) bayParents bayMembers (fun _ => 1)
    oneLevel_bayParents secondDials (fun _ => 1) _ (by decide)).1⟩

end Nl6
