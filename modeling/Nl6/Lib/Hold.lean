import Mathlib

/-! # Holding a meter

A meter is a monotone function of time. A hold freezes what is read from it without storing the
reading: the instant of a read is clamped to the span the meter was on, and what the meter counted
over the completed holds is subtracted.

`Span` is the part of a hold that depends on the instants alone: whether a hold is open, when it was
opened, and when the last one was closed. `Hold` adds the total to subtract. `Hold.Sound` is the
invariant under which the subtraction is exact; opening and closing keep it, and neither lowers a
reading at an instant already past.
-/

/-- When a meter was last held and last released. -/
structure Span (Time : Type) where
  down : Bool
  downAt : Time
  upAt : Time

/-- A span with the total counted over the completed holds. -/
structure Hold (Time : Type) extends Span Time where
  skipped : Nat

variable {Time : Type} [LinearOrder Time]

namespace Span

/-- The instant a read at `t` is taken at: not after an open hold, not before the last release. -/
def instant (span : Span Time) (t : Time) : Time :=
  max (if span.down then min t span.downAt else t) span.upAt

theorem instant_mono (span : Span Time) : Monotone span.instant := by
  intro t u before
  refine max_le_max ?_ le_rfl
  split
  · exact min_le_min_right _ before
  · exact before

theorem upAt_le_instant (span : Span Time) (t : Time) : span.upAt ≤ span.instant t := le_max_right _ _

/-- Open a hold; the last release is carried over. -/
def opened (span : Span Time) (now : Time) : Span Time := ⟨true, now, span.upAt⟩

/-- Before a hold is opened, the instants of reads are the same with and without it. -/
theorem instant_opened {span : Span Time} {t now : Time} (up : span.down = false) (past : t ≤ now) :
    (span.opened now).instant t = span.instant t := by
  simp [instant, opened, up, min_eq_left past]

/-- The order of the instants of a span, none of them after `now`. -/
structure Ordered (span : Span Time) (now : Time) : Prop where
  downAt_le : span.downAt ≤ now
  upAt_le : span.upAt ≤ now
  upAt_le_downAt : span.down = true → span.upAt ≤ span.downAt

variable {span : Span Time} {now later t : Time}

theorem Ordered.mono (ordered : span.Ordered now) (le : now ≤ later) : span.Ordered later :=
  ⟨ordered.downAt_le.trans le, ordered.upAt_le.trans le, ordered.upAt_le_downAt⟩

theorem Ordered.instant_le (ordered : span.Ordered now) (past : t ≤ now) : span.instant t ≤ now := by
  refine max_le ?_ ordered.upAt_le
  split
  · exact (min_le_left _ _).trans past
  · exact past

theorem Ordered.instant_of_down (ordered : span.Ordered now) (down : span.down = true)
    (since : span.downAt ≤ t) : span.instant t = span.downAt := by
  simp [instant, down, min_eq_right since, ordered.upAt_le_downAt down]

theorem Ordered.instant_le_downAt (ordered : span.Ordered now) (down : span.down = true) (t : Time) :
    span.instant t ≤ span.downAt := by
  simp [instant, down, ordered.upAt_le_downAt down]

theorem Ordered.opened (ordered : span.Ordered now) : (span.opened now).Ordered now :=
  ⟨le_rfl, ordered.upAt_le, fun _ => ordered.upAt_le⟩

variable [OrderBot Time]

/-- The span of a meter that was never held. -/
def never : Span Time := ⟨false, ⊥, ⊥⟩

/-- The span of a meter whose hold was closed at `now`. -/
def closedAt (now : Time) : Span Time := ⟨false, ⊥, now⟩

@[simp] theorem instant_never (t : Time) : (never : Span Time).instant t = t := by
  simp [instant, never]

/-- Open or close a hold, as far as the meter is not yet so. -/
def follow (span : Span Time) (up : Bool) (now : Time) : Span Time :=
  if up then (if span.down then closedAt now else span)
  else if span.down then span else span.opened now

theorem instant_closedAt (now t : Time) : (closedAt now).instant t = max t now := by
  simp [instant, closedAt]

theorem ordered_never (now : Time) : (never : Span Time).Ordered now :=
  ⟨bot_le, bot_le, fun down => by cases down⟩

theorem ordered_closedAt (now : Time) : (closedAt now).Ordered now :=
  ⟨bot_le, le_rfl, fun down => by cases down⟩

end Span

namespace Hold

variable {meter raised : Time → Nat} {hold : Hold Time} {now later t : Time}

/-- What is read at `t` through a hold. -/
def reading (hold : Hold Time) (meter : Time → Nat) (t : Time) : Nat :=
  meter (hold.instant t) - hold.skipped

theorem reading_mono (hold : Hold Time) (rises : Monotone meter) : Monotone (hold.reading meter) :=
  fun _ _ before => Nat.sub_le_sub_right (rises (hold.instant_mono before)) _

/-- The invariant of a hold: its instants are in order, and what was skipped had been counted when
the last hold was closed. -/
structure Sound (hold : Hold Time) (meter : Time → Nat) (now : Time) : Prop
    extends hold.toSpan.Ordered now where
  covered : hold.skipped ≤ meter hold.upAt

/-- The subtraction of a reading is exact. -/
theorem Sound.skipped_le (sound : hold.Sound meter now) (rises : Monotone meter) (t : Time) :
    hold.skipped ≤ meter (hold.instant t) :=
  sound.covered.trans (rises (hold.upAt_le_instant t))

/-- A meter that reads at least as much up to now keeps the invariant. -/
theorem Sound.raise (sound : hold.Sound meter now) (le : now ≤ later)
    (higher : ∀ s ≤ later, meter s ≤ raised s) : hold.Sound raised later :=
  ⟨sound.toOrdered.mono le, sound.covered.trans (higher _ (sound.upAt_le.trans le))⟩

theorem reading_le_reading (ordered : hold.Ordered now) (higher : ∀ s ≤ now, meter s ≤ raised s)
    (past : t ≤ now) : hold.reading meter t ≤ hold.reading raised t :=
  Nat.sub_le_sub_right (higher _ (ordered.instant_le past)) _

theorem Sound.reading_lt_reading (sound : hold.Sound meter now) (rises : Monotone meter) {s : Time}
    (moved : meter (hold.instant s) < meter (hold.instant t)) :
    hold.reading meter s < hold.reading meter t := by
  have exact_ := sound.skipped_le rises s
  unfold reading
  omega

/-- Open a hold. -/
def opened (hold : Hold Time) (now : Time) : Hold Time :=
  { hold with toSpan := hold.toSpan.opened now }

theorem reading_opened (up : hold.down = false) (past : t ≤ now) :
    (hold.opened now).reading meter t = hold.reading meter t := by
  unfold reading
  rw [show (hold.opened now).instant t = hold.instant t from Span.instant_opened up past]
  rfl

theorem Sound.opened (sound : hold.Sound meter now) : (hold.opened now).Sound meter now :=
  ⟨sound.toOrdered.opened, sound.covered⟩

variable [OrderBot Time]

/-- The hold of a meter that was never held. -/
def never : Hold Time := ⟨Span.never, 0⟩

@[simp] theorem reading_never (t : Time) : (never : Hold Time).reading meter t = meter t := by
  simp [reading, never]

theorem sound_never (meter : Time → Nat) (now : Time) : (never : Hold Time).Sound meter now :=
  ⟨Span.ordered_never now, Nat.zero_le _⟩

/-- Close a hold: what the meter counted meanwhile is skipped from now on. -/
def closed (hold : Hold Time) (meter : Time → Nat) (now : Time) : Hold Time :=
  ⟨Span.closedAt now, hold.skipped + meter now - meter hold.downAt⟩

section Closed

variable (down : hold.down = true) (sound : hold.Sound meter now) (rises : Monotone meter)

include sound down rises

/-- Up to the instant it is closed, a closed hold reads what the meter had counted at its opening,
at whatever instant it is asked for. -/
theorem Sound.reading_closed (past : t ≤ now) :
    (hold.closed meter now).reading meter t = meter hold.downAt - hold.skipped := by
  have frozen : meter hold.downAt ≤ meter now := rises sound.downAt_le
  have covered : hold.skipped ≤ meter hold.downAt :=
    sound.covered.trans (rises (sound.upAt_le_downAt down))
  have clamped : (hold.closed meter now).instant t = now := by
    rw [show (hold.closed meter now).instant t = max t now from Span.instant_closedAt _ _,
      max_eq_right past]
  unfold reading
  rw [clamped]
  simp only [closed]
  omega

theorem Sound.reading_le_closed (past : t ≤ now) :
    hold.reading meter t ≤ (hold.closed meter now).reading meter t := by
  rw [sound.reading_closed down rises past]
  exact Nat.sub_le_sub_right (rises (sound.instant_le_downAt down t)) _

theorem Sound.closed : (hold.closed meter now).Sound meter now := by
  refine ⟨Span.ordered_closedAt _, ?_⟩
  have covered : hold.skipped ≤ meter hold.downAt :=
    sound.covered.trans (rises (sound.upAt_le_downAt down))
  change hold.skipped + meter now - meter hold.downAt ≤ meter now
  omega

end Closed

/-- Open or close the hold, as far as it is not yet so. -/
def follow (hold : Hold Time) (meter : Time → Nat) (up : Bool) (now : Time) : Hold Time :=
  if up then (if hold.down then hold.closed meter now else hold)
  else if hold.down then hold else hold.opened now

theorem follow_toSpan (hold : Hold Time) (meter : Time → Nat) (up : Bool) (now : Time) :
    (hold.follow meter up now).toSpan = hold.toSpan.follow up now := by
  unfold follow Span.follow
  split <;> split <;> rfl

theorem Sound.follow (sound : hold.Sound meter now) (rises : Monotone meter) (up : Bool) :
    (hold.follow meter up now).Sound meter now := by
  unfold Hold.follow
  split <;> split
  · next down => exact sound.closed down rises
  · exact sound
  · exact sound
  · exact sound.opened

/-- Unless it closes the hold, following the meter's status keeps the readings at instants past. -/
theorem reading_follow {up : Bool} (kept : ¬ (up = true ∧ hold.down = true)) (past : t ≤ now) :
    (hold.follow meter up now).reading meter t = hold.reading meter t := by
  unfold follow
  cases up with
  | true => rw [if_pos rfl, if_neg fun down => kept ⟨rfl, down⟩]
  | false =>
    rw [if_neg Bool.false_ne_true]
    split
    · rfl
    · next up => exact reading_opened (Bool.eq_false_iff.mpr up) past

theorem Sound.reading_le_follow (sound : hold.Sound meter now) (rises : Monotone meter) (up : Bool)
    (past : t ≤ now) : hold.reading meter t ≤ (hold.follow meter up now).reading meter t := by
  by_cases closing : up = true ∧ hold.down = true
  · rw [Hold.follow, if_pos closing.1, if_pos closing.2]
    exact sound.reading_le_closed closing.2 rises past
  · exact (reading_follow closing past).ge

end Hold
