import Nl6.Counters.Monotone
import Nl6.Engine.Replay

/-! # Whether a held counter stands still

A hold clamps the instant of a read and stores no value, so what a held interface serves is computed
anew from the entries of its sources. Closing its own hold leaves the value where it was, and so
does a source that is held or released across the clamped instant. A source that leaves and returns
while the hold is open moves it: its new entry reads every earlier instant as the instant of its
return, and the traffic it carried until it left is counted in.

`Disturbs` is that case, in terms of the instants alone, and `held_counter_still_iff` says that a
held counter stands still, whatever the dials are, exactly along the schedules without it.
-/

namespace Nl6

open CounterHold

variable {Time : Type} [LinearOrder Time]

/-! ### What a read of an interface touches -/

section Reads

variable (rollup : Rollup) (spans : Nat → Span Time)

/-- The count of `i` at the instant `t` is composed from what `y` serves at the instant `u`. -/
inductive Reads : Nat → Time → Nat → Time → Prop
  | direct {i y : Nat} {t : Time} : y ∈ rollup.sources i → Reads i t y t
  | through {i z y : Nat} {t u : Time} :
      z ∈ rollup.sources i → Reads z ((spans z).instant t) y u → Reads i t y u

/-- Some dial that the count of `i` rests on is read at a later instant for `u` than for `t`: there
was an interface up in between. -/
inductive Carries : Nat → Time → Time → Prop
  | dial {i : Nat} {t u : Time} : rollup.sources i = [] → t < u → Carries i t u
  | source {i z : Nat} {t u : Time} :
      z ∈ rollup.sources i → Carries z ((spans z).instant t) ((spans z).instant u) → Carries i t u

variable {rollup spans} {t u : Time}

theorem Reads.height_lt {i y : Nat} (reads : Reads rollup spans i t y u) :
    rollup.height y < rollup.height i := by
  induction reads with
  | direct mem => exact Rollup.height_lt_of_mem_sources mem
  | through mem _ ih => exact ih.trans (Rollup.height_lt_of_mem_sources mem)

theorem Reads.instant_le {now : Time} {i y : Nat} (ordered : ∀ i, (spans i).Ordered now)
    (reads : Reads rollup spans i t y u) (past : t ≤ now) : u ≤ now := by
  induction reads with
  | direct _ => exact past
  | through _ _ ih => exact ih ((ordered _).instant_le past)

theorem rawDeltaFrom_lt {dials : Dials Time} {inbound : Bool} {served served' : Nat → Time → Nat}
    {i z : Nat} (strict : StrictMono (dials.scale i)) (mem : z ∈ rollup.sources i)
    (higher : ∀ z ∈ rollup.sources i, served z t ≤ served' z u) (moved : served z t < served' z u) :
    rawDeltaFrom rollup dials served inbound i t <
      rawDeltaFrom rollup dials served' inbound i u := by
  unfold rawDeltaFrom
  unfold Rollup.sources at higher mem
  split
  · next aggregate =>
      rw [if_pos aggregate] at higher mem
      exact List.sum_lt_sum _ _ higher ⟨z, mem, moved⟩
  · next plain =>
      rw [if_neg plain, Option.mem_toList] at mem
      rw [mem]
      exact strict moved

end Reads

variable [OrderBot Time]

/-! ### The spans of a schedule -/

def Ledger.spans (ledger : Ledger Time) (i : Nat) : Span Time := span (ledger i)

def stepSpans (layout : CounterLayout) (spans : Nat → Span Time) (call : OperCall Time) :
    Nat → Span Time :=
  if layout.keeps call.ifIndex then
    let i := call.ifIndex.toNat
    Function.update spans i ((spans i).follow (call.oper = operUpStatus) call.now)
  else spans

/-- The spans after a schedule: they depend on the instants and the statuses, not on the dials. -/
def scheduleSpans (layout : CounterLayout) (spans : Nat → Span Time) (calls : List (OperCall Time)) :
    Nat → Span Time :=
  calls.foldl (stepSpans layout) spans

def reconcileAll (layout : CounterLayout) (dials : Dials Time) (ledger : Ledger Time)
    (calls : List (OperCall Time)) : Ledger Time :=
  calls.foldl (reconcileHoldAt layout dials) ledger

section Schedule

variable {layout : CounterLayout} {dials : Dials Time} {ledger : Ledger Time} {now : Time}

theorem spans_reconcileHoldAt (sound : Ledger.Sound layout.rollup dials ledger now)
    {call : OperCall Time} (le : now ≤ call.now) :
    (reconcileHoldAt layout dials ledger call).spans = stepSpans layout ledger.spans call := by
  funext i
  unfold reconcileHoldAt stepSpans
  split
  · by_cases same : i = call.ifIndex.toNat
    · subst same
      simp only [Ledger.spans, Function.update_self]
      rw [← toHold_toSpan _ true, toHold_reconciled _ ((sound.ordered _).downAt_le.trans le) _ true,
        Hold.follow_toSpan, toHold_toSpan]
    · simp only [Ledger.spans, Function.update_of_ne same]
  · rfl

/-- Along a schedule at non-decreasing instants the ledger stays sound, and its spans are those of
the schedule. -/
theorem reconcileAll_spec {calls : List (OperCall Time)}
    (sound : Ledger.Sound layout.rollup dials ledger now)
    (sorted : (calls.map OperCall.now).Pairwise (· ≤ ·)) (later : ∀ call ∈ calls, now ≤ call.now) :
    ∃ last, (∀ next, now ≤ next → (∀ call ∈ calls, call.now ≤ next) → last ≤ next) ∧
      Ledger.Sound layout.rollup dials (reconcileAll layout dials ledger calls) last ∧
      (reconcileAll layout dials ledger calls).spans = scheduleSpans layout ledger.spans calls := by
  induction calls generalizing ledger now with
  | nil => exact ⟨now, fun next le _ => le, sound, rfl⟩
  | cons call calls ih =>
    rw [List.map_cons, List.pairwise_cons] at sorted
    have here := later call List.mem_cons_self
    obtain ⟨last, bound, kept, spans⟩ := ih (reconcileHoldAt_spec sound here).1 sorted.2
      fun other mem => sorted.1 _ (List.mem_map_of_mem mem)
    refine ⟨last, fun next _ all => ?_, kept, ?_⟩
    · exact bound next (all call List.mem_cons_self)
        fun other mem => all other (List.mem_cons_of_mem call mem)
    · rw [spans_reconcileHoldAt sound here] at spans
      exact spans

end Schedule

/-- The call closes a hold of an interface that `x`, being held, is composed from, and that interface
had carried traffic between the instant `x` reads it at and the instant it left. -/
def Disturbs (layout : CounterLayout) (spans : Nat → Span Time) (x : Nat) (call : OperCall Time) :
    Prop :=
  let y := call.ifIndex.toNat
  layout.keeps call.ifIndex ∧ call.oper = operUpStatus ∧ (spans y).down = true ∧
    ∃ t, Reads layout.rollup spans x (spans x).downAt y t ∧
      Carries layout.rollup spans y ((spans y).instant t) (spans y).downAt

/-- No call of the schedule disturbs `x` while it is held. -/
def Undisturbed (layout : CounterLayout) (spans : Nat → Span Time) (calls : List (OperCall Time))
    (x : Nat) : Prop :=
  ∀ before call after, calls = before ++ call :: after →
    (scheduleSpans layout spans before x).down = true →
      ¬ Disturbs layout (scheduleSpans layout spans before) x call

/-- The reads of `x` between the opening and the closing of a hold return one value, and that is the
value at the instant the hold is closed. `before` is the schedule up to a first read, `during` the
calls from there to a second one. -/
def StandsStill (layout : CounterLayout) (dials : Dials Time) (ledger : Ledger Time)
    (calls : List (OperCall Time)) (x : Nat) : Prop :=
  ∀ before during after, calls = before ++ during ++ after →
    (∀ done, done <+: during →
      ((reconcileAll layout dials ledger (before ++ done)).spans x).down = true) →
    ∀ inbound t, ((reconcileAll layout dials ledger before).spans x).downAt ≤ t →
      let value := servedDeltaAt layout.rollup dials (reconcileAll layout dials ledger before)
        inbound x t
      (∀ u, t ≤ u → servedDeltaAt layout.rollup dials
          (reconcileAll layout dials ledger (before ++ during)) inbound x u = value) ∧
        ∀ call rest, after = call :: rest →
          ((reconcileAll layout dials ledger (before ++ during ++ [call])).spans x).down = false →
            servedDeltaAt layout.rollup dials
              (reconcileAll layout dials ledger (before ++ during ++ [call])) inbound x call.now =
                value

/-! ### What rewriting an entry moves -/

section Update

variable {rollup : Rollup} {dials : Dials Time} {ledger : Ledger Time} {now : Time}
  {inbound : Bool} {entry : Option (CounterHold Time)} {i : Nat} {t u : Time}

theorem servedDeltaAt_eq_sub (i : Nat) (t : Time) :
    servedDeltaAt rollup dials ledger inbound i t =
      rawDeltaAt rollup dials ledger inbound i ((ledger.spans i).instant t) -
        (toHold (ledger i) inbound).skipped := by
  rw [servedDeltaAt_eq_reading, Hold.reading, toHold_toSpan]
  rfl

theorem rawDeltaAt_update_eq {y : Nat} (same : ∀ u, Reads rollup ledger.spans i t y u →
      servedDeltaAt rollup dials (Function.update ledger y entry) inbound y u =
        servedDeltaAt rollup dials ledger inbound y u) :
    rawDeltaAt rollup dials (Function.update ledger y entry) inbound i t =
      rawDeltaAt rollup dials ledger inbound i t := by
  induction i using rollup.induction_sources generalizing t with
  | step i ih =>
    refine rawDeltaFrom_congr (fun _ => rfl) fun z mem => ?_
    by_cases here : z = y
    · subst here
      exact same t (.direct mem)
    · have kept : (Function.update ledger y entry) z = ledger z := Function.update_of_ne here _ _
      have inner := ih z mem fun u reads => same u (.through mem reads)
      rw [Ledger.spans] at inner
      rw [servedDeltaAt_eq_sub, servedDeltaAt_eq_sub, Ledger.spans, Ledger.spans, kept, inner]

theorem rawDeltaAt_update_lt {y : Nat} (strict : ∀ i, StrictMono (dials.scale i))
    (sound : Ledger.Sound rollup dials ledger now)
    (raises : Ledger.Raises rollup dials now ledger (Function.update ledger y entry))
    (reads : Reads rollup ledger.spans i t y u) (past : t ≤ now)
    (moved : servedDeltaAt rollup dials ledger inbound y u <
      servedDeltaAt rollup dials (Function.update ledger y entry) inbound y u) :
    rawDeltaAt rollup dials ledger inbound i t <
      rawDeltaAt rollup dials (Function.update ledger y entry) inbound i t := by
  induction reads with
  | direct mem =>
    exact rawDeltaFrom_lt (strict _) mem (fun z _ => raises z inbound _ past) moved
  | @through i z y t u mem reads ih =>
    refine rawDeltaFrom_lt (strict i) mem (fun z _ => raises z inbound t past) ?_
    have other : z ≠ y := by
      rintro rfl
      exact lt_irrefl _ reads.height_lt
    have higher := ih raises ((sound.ordered z).instant_le past) moved
    have covered := (sound z inbound).skipped_le (rawDeltaAt_mono z) t
    rw [toHold_toSpan] at covered
    rw [servedDeltaAt_eq_sub, servedDeltaAt_eq_sub, Ledger.spans, Ledger.spans,
      Function.update_of_ne other]
    exact Nat.sub_lt_sub_right covered higher

theorem rawDeltaAt_eq_of_not_carries (dials : Dials Time) (inbound : Bool) (before : t ≤ u)
    (idle : ¬ Carries rollup ledger.spans i t u) :
    rawDeltaAt rollup dials ledger inbound i t = rawDeltaAt rollup dials ledger inbound i u := by
  induction i using rollup.induction_sources generalizing t u with
  | step i ih =>
    refine rawDeltaFrom_congr (fun standalone => ?_) fun z mem => ?_
    · exact before.antisymm (not_lt.mp fun earlier => idle (.dial standalone earlier))
    · rw [servedDeltaAt_eq_sub, servedDeltaAt_eq_sub]
      rw [ih z mem (Span.instant_mono _ before) fun carries => idle (.source mem carries)]

/-- Dials that move once, at `edge`; a child takes all of its parent's count. -/
def edgeDials (edge : Time) : Dials Time where
  deltaOctetsAt _ _ t := if edge ≤ t then 1 else 0
  scale _ v := v
  deltaOctetsAt_mono := by
    intro _ _ t u before
    by_cases past : edge ≤ t
    · simp [past, past.trans before]
    · simp [past]
  scale_mono _ := monotone_id

/-- With traffic in between, some dials tell the instants apart. -/
theorem Carries.exists_edge {spans : Nat → Span Time} (carries : Carries rollup spans i t u) :
    ∃ edge, ∀ ledger : Ledger Time, ledger.spans = spans →
      (∃ now, Ledger.Sound rollup (edgeDials edge) ledger now) → ∀ inbound,
        rawDeltaAt rollup (edgeDials edge) ledger inbound i t <
          rawDeltaAt rollup (edgeDials edge) ledger inbound i u := by
  induction carries with
  | @dial i t u standalone earlier =>
    refine ⟨u, fun ledger _ _ inbound => ?_⟩
    have plain : rollup.members i = [] ∧ rollup.counterParent i = none := by
      unfold Rollup.sources at standalone
      split at standalone
      · contradiction
      · next plain => exact ⟨not_not.mp plain, Option.toList_eq_nil_iff.mp standalone⟩
    simp [rawDeltaAt, rawDeltaFrom, plain, edgeDials, earlier]
  | @source i z t u mem carries ih =>
    obtain ⟨edge, moved⟩ := ih
    refine ⟨edge, fun ledger spans sound inbound => ?_⟩
    have before : t ≤ u := le_of_not_ge fun later =>
      not_lt_of_ge (rawDeltaAt_mono z (Span.instant_mono _ later)) (moved ledger spans sound inbound)
    obtain ⟨now, sound⟩ := sound
    refine rawDeltaFrom_lt (fun _ _ less => less) mem
      (fun z _ => servedDeltaAt_mono z before) ?_
    rw [servedDeltaAt_eq_reading, servedDeltaAt_eq_reading]
    refine (sound z inbound).reading_lt_reading (rawDeltaAt_mono z) ?_
    rw [toHold_toSpan]
    subst spans
    exact moved ledger rfl ⟨now, sound⟩ inbound

end Update

/-! ### One call while a counter is held -/

section Step

variable {layout : CounterLayout} {dials : Dials Time} {ledger : Ledger Time} {now : Time}
  {inbound : Bool} {call : OperCall Time} {x : Nat}

theorem servedDeltaAt_reconcileHoldAt (sound : Ledger.Sound layout.rollup dials ledger now)
    (le : now ≤ call.now) (keeps : layout.keeps call.ifIndex) (inbound : Bool) (t : Time) :
    servedDeltaAt layout.rollup dials (reconcileHoldAt layout dials ledger call) inbound
        call.ifIndex.toNat t =
      ((toHold (ledger call.ifIndex.toNat) inbound).follow
        (rawDeltaAt layout.rollup dials ledger inbound call.ifIndex.toNat)
        (call.oper = operUpStatus) call.now).reading
          (rawDeltaAt layout.rollup dials ledger inbound call.ifIndex.toNat) t := by
  rw [reconcileHoldAt, if_pos keeps, servedDeltaAt_eq_reading, Function.update_self,
    rawDeltaAt_update, toHold_reconciled _ ((sound.ordered _).downAt_le.trans le)]

/-- Since its hold was opened an interface serves its count at that instant. -/
theorem servedDeltaAt_of_held (sound : Ledger.Sound layout.rollup dials ledger now)
    (held : (ledger.spans x).down = true) {t : Time} (since : (ledger.spans x).downAt ≤ t) :
    servedDeltaAt layout.rollup dials ledger inbound x t =
      rawDeltaAt layout.rollup dials ledger inbound x (ledger.spans x).downAt -
        (toHold (ledger x) inbound).skipped := by
  have clamped : (ledger.spans x).instant t = (ledger.spans x).downAt :=
    (sound.ordered x).instant_of_down held since
  rw [servedDeltaAt_eq_sub, clamped]

/-- A call that does not disturb a held interface keeps its count at the instant it was held. -/
theorem rawDeltaAt_reconcileHoldAt (sound : Ledger.Sound layout.rollup dials ledger now)
    (le : now ≤ call.now) (calm : ¬ Disturbs layout ledger.spans x call) :
    rawDeltaAt layout.rollup dials (reconcileHoldAt layout dials ledger call) inbound x
        (ledger.spans x).downAt =
      rawDeltaAt layout.rollup dials ledger inbound x (ledger.spans x).downAt := by
  by_cases keeps : layout.keeps call.ifIndex
  · rw [reconcileHoldAt, if_pos keeps]
    refine rawDeltaAt_update_eq fun u reads => ?_
    have past : u ≤ call.now := reads.instant_le (fun i => (sound.ordered i).mono le)
      ((sound.ordered x).downAt_le.trans le)
    have here := servedDeltaAt_reconcileHoldAt sound le keeps inbound u
    rw [reconcileHoldAt, if_pos keeps] at here
    rw [here, servedDeltaAt_eq_reading]
    have kept := (sound call.ifIndex.toNat inbound).raise le fun _ _ => le_rfl
    by_cases closing : decide (call.oper = operUpStatus) = true ∧
        (toHold (ledger call.ifIndex.toNat) inbound).down = true
    · have down : (ledger.spans call.ifIndex.toNat).down = true := by
        rw [Ledger.spans, ← toHold_toSpan _ inbound]
        exact closing.2
      have idle : ¬ Carries layout.rollup ledger.spans call.ifIndex.toNat
          ((ledger.spans call.ifIndex.toNat).instant u) (ledger.spans call.ifIndex.toNat).downAt :=
        fun carries => calm ⟨keeps, of_decide_eq_true closing.1, down, u, reads, carries⟩
      have same := rawDeltaAt_eq_of_not_carries dials inbound
        ((sound.ordered call.ifIndex.toNat).instant_le_downAt down u) idle
      rw [Hold.follow, if_pos closing.1, if_pos closing.2,
        kept.reading_closed closing.2 (rawDeltaAt_mono _) past, Hold.reading, toHold_toSpan]
      exact congrArg (· - _) same.symm
    · exact Hold.reading_follow closing past
  · rw [reconcileHoldAt, if_neg keeps]

theorem entry_of_held (held : (ledger.spans x).down = true)
    (still : ((reconcileHoldAt layout dials ledger call).spans x).down = true) :
    reconcileHoldAt layout dials ledger call x = ledger x := by
  unfold Ledger.spans at held still
  by_cases keeps : layout.keeps call.ifIndex
  · rw [reconcileHoldAt, if_pos keeps] at still ⊢
    by_cases same : x = call.ifIndex.toNat
    · subst same
      rw [Function.update_self] at still ⊢
      cases entry : ledger call.ifIndex.toNat with
      | none =>
        rw [entry] at held
        cases held
      | some h =>
        rw [entry] at held still
        have down : h.down = true := held
        generalize decide (call.oper = operUpStatus) = up at still ⊢
        cases up with
        | true =>
          simp only [reconciled, down, if_true, span] at still
          cases still
        | false => simp [reconciled, down]
    · exact Function.update_of_ne same _ _
  · rw [reconcileHoldAt, if_neg keeps]

/-- A call that leaves an interface held, and does not disturb it, leaves what it serves. -/
theorem servedDeltaAt_still (sound : Ledger.Sound layout.rollup dials ledger now)
    (le : now ≤ call.now) (held : (ledger.spans x).down = true)
    (still : ((reconcileHoldAt layout dials ledger call).spans x).down = true)
    (calm : ¬ Disturbs layout ledger.spans x call) {t : Time}
    (since : (ledger.spans x).downAt ≤ t) :
    servedDeltaAt layout.rollup dials (reconcileHoldAt layout dials ledger call) inbound x t =
      servedDeltaAt layout.rollup dials ledger inbound x t := by
  have entry := entry_of_held held still
  have spans : (reconcileHoldAt layout dials ledger call).spans x = ledger.spans x := by
    rw [Ledger.spans, entry, Ledger.spans]
  rw [servedDeltaAt_of_held sound held since,
    servedDeltaAt_of_held (reconcileHoldAt_spec sound le).1 still (by rw [spans]; exact since),
    spans, entry, rawDeltaAt_reconcileHoldAt sound le calm]

/-- Closing the hold of an interface raises what a held interface composed from it serves, if the
counts at the two instants differ. -/
theorem servedDeltaAt_lt_of_moved (strict : ∀ i, StrictMono (dials.scale i))
    (sound : Ledger.Sound layout.rollup dials ledger now) (le : now ≤ call.now)
    (keeps : layout.keeps call.ifIndex) (up : call.oper = operUpStatus)
    (down : (ledger.spans call.ifIndex.toNat).down = true) (held : (ledger.spans x).down = true)
    {u : Time} (reads : Reads layout.rollup ledger.spans x (ledger.spans x).downAt
      call.ifIndex.toNat u)
    (moved : rawDeltaAt layout.rollup dials ledger inbound call.ifIndex.toNat
        ((ledger.spans call.ifIndex.toNat).instant u) <
      rawDeltaAt layout.rollup dials ledger inbound call.ifIndex.toNat
        (ledger.spans call.ifIndex.toNat).downAt) :
    (reconcileHoldAt layout dials ledger call).spans x = ledger.spans x ∧
      servedDeltaAt layout.rollup dials ledger inbound x (ledger.spans x).downAt <
        servedDeltaAt layout.rollup dials (reconcileHoldAt layout dials ledger call) inbound x
          (ledger.spans x).downAt := by
  have other : x ≠ call.ifIndex.toNat := by
    rintro rfl
    exact lt_irrefl _ reads.height_lt
  have kept := fun i => (sound i inbound).raise le fun _ _ => le_rfl
  have pastX : (ledger.spans x).downAt ≤ call.now := (sound.ordered x).downAt_le.trans le
  have past : u ≤ call.now := reads.instant_le (fun i => (sound.ordered i).mono le) pastX
  -- the interface of the call serves more at `u` than it did
  have raised : servedDeltaAt layout.rollup dials ledger inbound call.ifIndex.toNat u <
      servedDeltaAt layout.rollup dials (reconcileHoldAt layout dials ledger call) inbound
        call.ifIndex.toNat u := by
    have holdDown : (toHold (ledger call.ifIndex.toNat) inbound).down = true := by
      rw [toHold_toSpan]
      exact down
    have covered := (kept call.ifIndex.toNat).skipped_le (rawDeltaAt_mono _) u
    rw [servedDeltaAt_reconcileHoldAt sound le keeps, Hold.follow, if_pos (decide_eq_true up),
      if_pos holdDown, (kept _).reading_closed holdDown (rawDeltaAt_mono _) past,
      servedDeltaAt_eq_reading, Hold.reading]
    rw [toHold_toSpan] at covered ⊢
    exact Nat.sub_lt_sub_right covered moved
  have raises := (reconcileHoldAt_spec sound le).2
  have entry : reconcileHoldAt layout dials ledger call x = ledger x := by
    rw [reconcileHoldAt, if_pos keeps, Function.update_of_ne other]
  have spans : (reconcileHoldAt layout dials ledger call).spans x = ledger.spans x := by
    rw [Ledger.spans, entry, Ledger.spans]
  refine ⟨spans, ?_⟩
  rw [servedDeltaAt_of_held sound held le_rfl,
    servedDeltaAt_of_held (reconcileHoldAt_spec sound le).1 (spans ▸ held) (spans ▸ le_rfl), spans,
    entry]
  rw [reconcileHoldAt, if_pos keeps] at raises raised ⊢
  refine Nat.sub_lt_sub_right ?_ (rawDeltaAt_update_lt strict
    (fun i inbound => (sound i inbound).raise le fun _ _ => le_rfl) raises reads pastX raised)
  have covered := (kept x).skipped_le (rawDeltaAt_mono x) (ledger.spans x).downAt
  rw [toHold_toSpan] at covered
  have clamped : (span (ledger x)).instant (ledger.spans x).downAt = (ledger.spans x).downAt :=
    (sound.ordered x).instant_of_down held le_rfl
  rwa [clamped] at covered

theorem servedDeltaAt_closed (sound : Ledger.Sound layout.rollup dials ledger now)
    (le : now ≤ call.now) (held : (ledger.spans x).down = true)
    (released : ((reconcileHoldAt layout dials ledger call).spans x).down = false) :
    servedDeltaAt layout.rollup dials (reconcileHoldAt layout dials ledger call) inbound x call.now =
      servedDeltaAt layout.rollup dials ledger inbound x call.now := by
  have keeps : layout.keeps call.ifIndex := by
    by_contra never
    rw [reconcileHoldAt, if_neg never, held] at released
    cases released
  have same : x = call.ifIndex.toNat := by
    by_contra other
    rw [reconcileHoldAt, if_pos keeps, Ledger.spans, Function.update_of_ne other] at released
    rw [Ledger.spans, released] at held
    cases held
  subst same
  have down : (toHold (ledger call.ifIndex.toNat) inbound).down = true := by
    have spans := toHold_toSpan (ledger call.ifIndex.toNat) inbound
    rw [spans]
    exact held
  have up : decide (call.oper = operUpStatus) = true := by
    by_contra notUp
    rw [spans_reconcileHoldAt sound le, stepSpans, if_pos keeps] at released
    simp [Span.follow, notUp, held] at released
  have kept := (sound call.ifIndex.toNat inbound).raise le fun _ _ => le_rfl
  rw [servedDeltaAt_reconcileHoldAt sound le keeps, Hold.follow, if_pos up, if_pos down,
    kept.reading_closed down (rawDeltaAt_mono _) le_rfl,
    servedDeltaAt_of_held sound held ((sound.ordered _).downAt_le.trans le)]
  have spans := toHold_toSpan (ledger call.ifIndex.toNat) inbound
  rw [spans]
  rfl

end Step

/-! ### Schedules -/

section Main

variable {layout : CounterLayout} {dials : Dials Time} {ledger : Ledger Time} {x : Nat}
  {after before calls : List (OperCall Time)} {call : OperCall Time}

theorem reconcileAll_concat (calls : List (OperCall Time)) (call : OperCall Time) :
    reconcileAll layout dials ledger (calls ++ [call]) =
      reconcileHoldAt layout dials (reconcileAll layout dials ledger calls) call := by
  simp [reconcileAll]

theorem sound_before (sound : Ledger.Sound layout.rollup dials ledger ⊥)
    (sorted : ((before ++ call :: after).map OperCall.now).Pairwise (· ≤ ·)) :
    ∃ last ≤ call.now,
      Ledger.Sound layout.rollup dials (reconcileAll layout dials ledger before) last ∧
        (reconcileAll layout dials ledger before).spans =
          scheduleSpans layout ledger.spans before := by
  rw [List.map_append, List.pairwise_append] at sorted
  obtain ⟨last, bound, spec⟩ := reconcileAll_spec sound sorted.1 fun _ _ => bot_le
  refine ⟨last, bound _ bot_le fun other mem => ?_, spec⟩
  exact sorted.2.2 _ (List.mem_map_of_mem mem) _ (by simp)

/-- Along an undisturbed schedule a held counter stands still. -/
theorem standsStill_of_undisturbed (sound : Ledger.Sound layout.rollup dials ledger ⊥)
    (sorted : (calls.map OperCall.now).Pairwise (· ≤ ·))
    (calm : Undisturbed layout ledger.spans calls x) : StandsStill layout dials ledger calls x := by
  intro before during after split held inbound t since
  -- the value is kept over each call of `during`, taken from the left
  have kept : ∀ u, t ≤ u → servedDeltaAt layout.rollup dials
      (reconcileAll layout dials ledger (before ++ during)) inbound x u =
        servedDeltaAt layout.rollup dials (reconcileAll layout dials ledger before) inbound x t ∧
      ((reconcileAll layout dials ledger (before ++ during)).spans x).downAt ≤ u := by
    induction during using List.reverseRecOn generalizing after with
    | nil =>
      intro u later
      rw [List.append_nil]
      have here := held [] List.nil_prefix
      rw [List.append_nil] at here
      obtain ⟨last, -, kept, -⟩ := reconcileAll_spec sound
        (sorted.sublist ((by simp [split] : before.Sublist calls).map _)) fun _ _ => bot_le
      exact ⟨by rw [servedDeltaAt_of_held kept here (since.trans later),
        servedDeltaAt_of_held kept here since], since.trans later⟩
    | append_singleton during call ih =>
      intro u later
      obtain ⟨same, past⟩ := ih (call :: after) (by simp [split])
        (fun done isPrefix => held done (isPrefix.trans (List.prefix_append _ _))) u later
      have shape : calls = (before ++ during) ++ call :: after := by simp [split]
      obtain ⟨last, le, kept, spans⟩ := sound_before sound (shape ▸ sorted)
      have here := held during (List.prefix_append _ _)
      have still := held (during ++ [call]) (List.prefix_refl _)
      rw [← List.append_assoc, reconcileAll_concat] at still ⊢
      have quiet := calm (before ++ during) call after shape (by rw [← spans]; exact here)
      rw [← spans] at quiet
      refine ⟨(servedDeltaAt_still kept le here still quiet past).trans same, ?_⟩
      rw [Ledger.spans, entry_of_held here still]
      exact past
  refine ⟨fun u later => (kept u later).1, fun call rest next released => ?_⟩
  have shape : calls = (before ++ during) ++ call :: rest := by simp [split, next]
  obtain ⟨last, le, kept', -⟩ := sound_before sound (shape ▸ sorted)
  have here := held during (List.prefix_refl _)
  rw [reconcileAll_concat] at released ⊢
  rw [servedDeltaAt_closed kept' le here released]
  rw [servedDeltaAt_of_held kept' here ((kept'.ordered x).downAt_le.trans le),
    ← servedDeltaAt_of_held kept' here (kept t le_rfl).2]
  exact (kept t le_rfl).1

/-- Nothing disturbs an interface that counts on its own dial. -/
theorem undisturbed_of_standalone {spans : Nat → Span Time} (calls : List (OperCall Time))
    (standalone : layout.rollup.sources x = []) : Undisturbed layout spans calls x := by
  rintro before call after - - ⟨-, -, -, u, reads, -⟩
  cases reads with
  | direct mem => simp [standalone] at mem
  | through mem _ => simp [standalone] at mem

/-- A call that disturbs a held interface moves what it serves, for some dials. -/
theorem not_standsStill_of_disturbs (oper : Nat → Nat)
    (sorted : (calls.map OperCall.now).Pairwise (· ≤ ·)) (split : calls = before ++ call :: after)
    (held : (scheduleSpans layout (seedHolds layout oper : Ledger Time).spans before x).down = true)
    (disturbs : Disturbs layout
      (scheduleSpans layout (seedHolds layout oper : Ledger Time).spans before) x call) :
    ∃ dials : Dials Time, ¬ StandsStill layout dials (seedHolds layout oper) calls x := by
  obtain ⟨keeps, up, down, u, reads, carries⟩ := disturbs
  obtain ⟨edge, moved⟩ := carries.exists_edge
  refine ⟨edgeDials edge, fun still => ?_⟩
  have seeded : Ledger.Sound layout.rollup (edgeDials edge) (seedHolds layout oper) ⊥ :=
    sound_seedHolds oper ⊥
  obtain ⟨last, le, sound, spans⟩ := sound_before seeded (split ▸ sorted)
  have apart := moved _ spans ⟨last, sound⟩ true
  rw [← spans] at held down reads apart
  obtain ⟨same, raised⟩ := servedDeltaAt_lt_of_moved (fun _ => strictMono_id) sound le keeps up down
    held reads apart
  rw [← reconcileAll_concat] at same raised
  refine raised.ne ((still before [call] after (by simp [split]) (fun done isPrefix => ?_) true _
    le_rfl).1 _ le_rfl).symm
  rcases List.prefix_cons_iff.mp isPrefix with rfl | ⟨rest, rfl, isNil⟩
  · rw [List.append_nil]
    exact held
  · rw [List.prefix_nil.mp isNil, same]
    exact held

/-- **When a held counter stands still.** Whatever the dials and the scalings are, all reads of an
interface while it is held return one value, which is also its value when the hold is closed: exactly
along the schedules in which no interface it is composed from leaves, having carried traffic since
the instant the held interface reads it at, and returns while the hold is open. A standalone
interface is composed from none. -/
theorem held_counter_still_iff (maxIfIndex : Nat) (known : Nat → Bool)
    (parents : Nat → Option Nat) (members : Nat → List Nat) (ifSpeedBps : Nat → Nat)
    (oneLevel : OneLevelParents parents) (oper : Nat → Nat) (calls : List (OperCall Time))
    (sorted : (calls.map OperCall.now).Pairwise (· ≤ ·)) (x : Nat) :
    let layout : CounterLayout :=
      ⟨maxIfIndex, known, buildRollup maxIfIndex parents members ifSpeedBps oneLevel⟩
    (∀ dials : Dials Time, StandsStill layout dials (seedHolds layout oper) calls x) ↔
      Undisturbed layout (seedHolds layout oper : Ledger Time).spans calls x := by
  intro layout
  constructor
  · intro still before call after split held disturbs
    obtain ⟨dials, moves⟩ := not_standsStill_of_disturbs oper sorted split held disturbs
    exact moves (still dials)
  · intro calm dials
    exact standsStill_of_undisturbed (sound_seedHolds oper ⊥) sorted calm

end Main

/-- A unit is shut, then the port under it goes down and comes back. -/
def bounce : List (OperCall Nat) :=
  [⟨2, operDown, 10⟩, ⟨1, operDown, 20⟩, ⟨1, operUpStatus, 30⟩]

/-- The port and the unit of a two-interface device. -/
def unitLayout : CounterLayout :=
  ⟨2, fun _ => true, buildRollup 2 bayParents (fun _ => []) (fun _ => 1) oneLevel_bayParents⟩

theorem held_counter_still_port :
    (bounce.map OperCall.now).Pairwise (· ≤ ·) ∧ ∀ dials : Dials Nat,
      StandsStill unitLayout dials (seedHolds unitLayout fun _ => operUpStatus) bounce 1 :=
  ⟨by decide, (held_counter_still_iff 2 (fun _ => true) bayParents (fun _ => []) (fun _ => 1)
    oneLevel_bayParents (fun _ => operUpStatus) bounce (by decide) 1).mpr
      (undisturbed_of_standalone bounce (by decide))⟩

/-- The unit stays shut while the port bounces: the engine reports exactly the calls of `bounce`. The
unit's counter reads 5 before and 10 after, while its hold is open. -/
theorem held_counter_moves_with_port :
    (((InterfaceState.portWithUnit.run [(.applyAdminStatus 2 2, 1010), (.setLinkState 1 2, 1020),
        (.setLinkState 1 1, 1030)]).2.filter (·.changed = .operStatus)).map fun event =>
          ((event.ifIndex : Int), event.oper)) =
        bounce.map (fun call => (call.ifIndex, call.oper)) ∧
      servedDeltaAt unitLayout.rollup secondDials (reconcileAll unitLayout secondDials
        (seedHolds unitLayout fun _ => operUpStatus) (bounce.take 1)) true 2 15 = 5 ∧
      servedDeltaAt unitLayout.rollup secondDials (reconcileAll unitLayout secondDials
        (seedHolds unitLayout fun _ => operUpStatus) bounce) true 2 35 = 10 ∧
      ¬ StandsStill unitLayout secondDials (seedHolds unitLayout fun _ => operUpStatus) bounce 2 := by
  have first : servedDeltaAt unitLayout.rollup secondDials (reconcileAll unitLayout secondDials
      (seedHolds unitLayout fun _ => operUpStatus) (bounce.take 1)) true 2 15 = 5 := by decide
  have second : servedDeltaAt unitLayout.rollup secondDials (reconcileAll unitLayout secondDials
      (seedHolds unitLayout fun _ => operUpStatus) bounce) true 2 35 = 10 := by decide
  refine ⟨by decide, first, second, fun still => ?_⟩
  have held : ∀ n ≤ 2, ((reconcileAll unitLayout secondDials
      (seedHolds unitLayout fun _ => operUpStatus)
        (bounce.take 1 ++ (bounce.drop 1).take n)).spans 2).down = true := by decide
  have kept := (still (bounce.take 1) (bounce.drop 1) [] rfl (fun done isPrefix => ?_) true 15
    (by decide)).1 35 (by decide)
  · rw [List.take_append_drop, first, second] at kept
    cases kept
  · rw [List.prefix_iff_eq_take.mp isPrefix]
    exact held _ isPrefix.length_le

end Nl6
