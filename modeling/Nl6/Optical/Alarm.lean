import Mathlib.Algebra.Order.Monoid.Defs
import Mathlib.Data.Bool.Basic
import Nl6.Lib.Numeral

/-! # Optical alarms

`optical_alarm.go`: two latches watch the OSNR of a channel. SD is the predictive alarm, SF the
service-affecting one, with a threshold that is not higher. Each latch publishes a change once it has
soaked. Both latches see the same signal, so whatever SF waits for, SD has waited for at least as
long, and the other way round when they clear (`Nested`).
-/

namespace Nl6

inductive OpticalCondition
  | sd
  | sf
  deriving DecidableEq, Repr

/-- The raise lines and how far the signal has to recover above them. -/
structure OpticalAlarmLimits (K : Type*) [AddCommMonoid K] [LinearOrder K] where
  sdThreshold : K
  sfThreshold : K
  hysteresis : K
  nested : sfThreshold ≤ sdThreshold
  positive : 0 < hysteresis

/-- `alarmLatch`: what has been published, and a candidate change with the instant it began. -/
structure AlarmLatch where
  raised : Bool := false
  pending : Bool := false
  since : Int := 0
  hasSince : Bool := false
  deriving DecidableEq, Repr

/-- `OpticalAlarmEvent`. -/
structure OpticalAlarmEvent (K : Type*) where
  deviceIP : Bytes
  component : Bytes
  condition : OpticalCondition
  raised : Bool
  osnrDB : K
  at' : Int
  deriving DecidableEq, Repr

/-- `opticalAlarmEntry`: one channel with its two latches. -/
structure OpticalAlarmEntry where
  deviceIP : Bytes
  component : Bytes
  sd : AlarmLatch := {}
  sf : AlarmLatch := {}
  deriving DecidableEq, Repr

section Model

variable {K : Type*} [AddCommMonoid K] [LinearOrder K]

def OpticalAlarmLimits.threshold (limits : OpticalAlarmLimits K) : OpticalCondition → K
  | .sd => limits.sdThreshold
  | .sf => limits.sfThreshold

/-- What the signal asks for: the alarm, its end, or nothing in the dead band between the two. -/
def OpticalAlarmLimits.want (limits : OpticalAlarmLimits K) (c : OpticalCondition) (osnr : K) :
    Option Bool :=
  if osnr < limits.threshold c then some true
  else if osnr > limits.threshold c + limits.hysteresis then some false
  else none

/-- `evaluate`: whether a transition is to be published, and the latch afterwards. -/
def AlarmLatch.evaluate (l : AlarmLatch) (wanted : Option Bool) (now soak : Int) :
    Bool × AlarmLatch :=
  match wanted with
  | none => (false, { l with pending := l.raised, hasSince := false })
  | some want =>
    if want = l.raised then (false, { l with pending := want, hasSince := false })
    else
      let l := if !l.hasSince || l.pending != want then
          { l with pending := want, since := now, hasSince := true }
        else l
      if now - l.since < soak then (false, l)
      else (true, { l with raised := want, hasSince := false })

/-- `evaluateAt`; there is no reading for a component without a slot, nor when the OSNR is not a
number. -/
def OpticalAlarmEntry.evaluateAt (limits : OpticalAlarmLimits K) (soak : Int)
    (a : OpticalAlarmEntry) (now : Int) (reading : Option K) :
    List (OpticalAlarmEvent K) × OpticalAlarmEntry :=
  match reading with
  | none => ([], a)
  | some osnr =>
    let sd := a.sd.evaluate (limits.want .sd osnr) now soak
    let sf := a.sf.evaluate (limits.want .sf osnr) now soak
    let emit := fun (c : OpticalCondition) (raised : Bool) =>
      (⟨a.deviceIP, a.component, c, raised, osnr, now⟩ : OpticalAlarmEvent K)
    ((if sd.1 && !a.sd.raised then [emit .sd true] else []) ++
      (if sf.1 && !a.sf.raised then [emit .sf true] else []) ++
      (if sf.1 && a.sf.raised then [emit .sf false] else []) ++
      (if sd.1 && a.sd.raised then [emit .sd false] else []),
     { a with sd := sd.2, sf := sf.2 })

/-- What is published, and the channel afterwards, when observations are made one after another. -/
def OpticalAlarmEntry.observe (limits : OpticalAlarmLimits K) (soak : Int)
    (a : OpticalAlarmEntry) (history : List (Int × K)) :
    List (OpticalAlarmEvent K) × OpticalAlarmEntry :=
  history.foldl (fun s o =>
    let r := s.2.evaluateAt limits soak o.1 (some o.2)
    (s.1 ++ r.1, r.2)) ([], a)

end Model

/-! ### One latch -/

namespace AlarmLatch

variable {l : AlarmLatch} {wanted : Option Bool} {now soak : Int}

/-- A candidate is the opposite of what is published. -/
def Opposed (l : AlarmLatch) : Prop := l.hasSince = true → l.pending = !l.raised

/-- When the candidate began, if there is one, or begins now. -/
def start (l : AlarmLatch) (now : Int) : Int := if l.hasSince then l.since else now

theorem evaluate_stays (other : wanted ≠ some (!l.raised)) :
    l.evaluate wanted now soak = (false, { l with pending := l.raised, hasSince := false }) := by
  match wanted with
  | none => rfl
  | some want =>
    obtain rfl : want = l.raised := by
      by_contra differ
      exact other (congrArg some (Bool.eq_not.mpr differ))
    rw [evaluate, if_pos rfl]

theorem evaluate_turns (opposed : l.Opposed) :
    l.evaluate (some (!l.raised)) now soak =
      if now - l.start now < soak then (false, ⟨l.raised, !l.raised, l.start now, true⟩)
      else (true, ⟨!l.raised, !l.raised, l.start now, false⟩) := by
  obtain ⟨raised, pending, since, hasSince⟩ := l
  cases hasSince with
  | false => simp [evaluate, start]
  | true =>
    obtain rfl : pending = !raised := opposed rfl
    simp [evaluate, start]

end AlarmLatch

/-! ### Two latches on one signal -/

/-- SF is never ahead of SD on the way in, nor behind it on the way out. -/
structure Nested (sd sf : AlarmLatch) : Prop where
  raised : sf.raised = true → sd.raised = true
  raising : sf.hasSince = true → sf.raised = false →
    sd.raised = true ∨ sd.hasSince = true ∧ sd.since ≤ sf.since
  clearing : sd.hasSince = true → sd.raised = true →
    sf.raised = false ∨ sf.hasSince = true ∧ sf.since ≤ sd.since

section Channel

variable {K : Type*} [AddCommMonoid K] [LinearOrder K]
  {limits : OpticalAlarmLimits K} {soak now : Int} {osnr : K} {c : OpticalCondition}

theorem want_sd_of_sf [IsOrderedAddMonoid K] :
    (limits.want .sf osnr = some true → limits.want .sd osnr = some true) ∧
      (limits.want .sd osnr = some false → limits.want .sf osnr = some false) := by
  have raise := limits.nested
  have clear : limits.sfThreshold + limits.hysteresis ≤
    limits.sdThreshold + limits.hysteresis := add_le_add_left raise _
  simp only [OpticalAlarmLimits.want, OpticalAlarmLimits.threshold]
  grind

theorem Nested.evaluate [IsOrderedAddMonoid K] {sd sf : AlarmLatch} (nested : Nested sd sf)
    (sdOpposed : sd.Opposed) (sfOpposed : sf.Opposed)
    (sdPast : sd.hasSince = true → sd.since ≤ now) (sfPast : sf.hasSince = true → sf.since ≤ now) :
    Nested (sd.evaluate (limits.want .sd osnr) now soak).2
      (sf.evaluate (limits.want .sf osnr) now soak).2 := by
  obtain ⟨raises, clears⟩ := @want_sd_of_sf _ _ _ limits osnr _
  obtain ⟨raised, raising, clearing⟩ := nested
  by_cases sdTurns : limits.want .sd osnr = some (!sd.raised)
  · rw [sdTurns, AlarmLatch.evaluate_turns sdOpposed]
    by_cases sfTurns : limits.want .sf osnr = some (!sf.raised)
    · rw [sfTurns, AlarmLatch.evaluate_turns sfOpposed]
      simp only [AlarmLatch.start]
      constructor <;> grind
    · rw [AlarmLatch.evaluate_stays sfTurns]
      constructor <;> grind
  · rw [AlarmLatch.evaluate_stays sdTurns]
    by_cases sfTurns : limits.want .sf osnr = some (!sf.raised)
    · rw [sfTurns, AlarmLatch.evaluate_turns sfOpposed]
      constructor <;> grind
    · rw [AlarmLatch.evaluate_stays sfTurns]
      constructor <;> grind

/-! ### One channel over time -/

/-- The signal lies on the far side of the alarm's line: below it to raise, above the margin to
clear. -/
def OpticalAlarmLimits.Beyond (limits : OpticalAlarmLimits K) (c : OpticalCondition)
    (raised : Bool) (osnr : K) : Prop :=
  if raised then osnr < limits.threshold c else limits.threshold c + limits.hysteresis < osnr

theorem OpticalAlarmLimits.beyond_of_want {raised : Bool}
    (wants : limits.want c osnr = some raised) : limits.Beyond c raised osnr := by
  rw [want] at wants
  rw [Beyond]
  grind

/-- From an observation at the instant `since` on, all observations were beyond the line.
Observations at one instant are told apart by their order. -/
def Throughout (limits : OpticalAlarmLimits K) (c : OpticalCondition) (raised : Bool) (since : Int)
    (history : List (Int × K)) : Prop :=
  ∃ before first window, history = before ++ first :: window ∧ first.1 = since ∧
    ∀ o ∈ first :: window, limits.Beyond c raised o.2

theorem Throughout.since_mem {history : List (Int × K)} {raised : Bool} {since : Int}
    (holds : Throughout limits c raised since history) : ∃ o ∈ history, o.1 = since := by
  obtain ⟨before, first, window, rfl, is, -⟩ := holds
  exact ⟨first, by simp, is⟩

namespace AlarmLatch

variable {l : AlarmLatch} {history : List (Int × K)}

/-- A candidate has held ever since it began. -/
def Soaking (limits : OpticalAlarmLimits K) (c : OpticalCondition) (history : List (Int × K))
    (l : AlarmLatch) : Prop :=
  l.hasSince = true → l.pending = (!l.raised) ∧ Throughout limits c (!l.raised) l.since history

theorem Soaking.start (soaking : l.Soaking limits c history)
    (wants : limits.want c osnr = some (!l.raised)) :
    Throughout limits c (!l.raised) (l.start now) (history ++ [(now, osnr)]) := by
  have beyond := OpticalAlarmLimits.beyond_of_want wants
  rw [AlarmLatch.start]
  split_ifs with has
  · obtain ⟨-, before, first, window, rfl, is, held⟩ := soaking has
    refine ⟨before, first, window ++ [(now, osnr)], by simp, is, ?_⟩
    rw [← List.cons_append, List.forall_mem_append]
    exact ⟨held, by simpa using beyond⟩
  · exact ⟨history, (now, osnr), [], rfl, rfl, by simpa using beyond⟩

/-- One observation: the latch goes on soaking, and turns over only after the soak time. -/
theorem Soaking.evaluate (soaking : l.Soaking limits c history) :
    let next := l.evaluate (limits.want c osnr) now soak
    next.2.Soaking limits c (history ++ [(now, osnr)]) ∧ next.2.raised = (next.1 ^^ l.raised) ∧
      (next.1 = true → ∃ since ≤ now - soak,
        Throughout limits c (!l.raised) since (history ++ [(now, osnr)])) := by
  by_cases wants : limits.want c osnr = some (!l.raised)
  · have held : Throughout limits c (!l.raised) (l.start now) (history ++ [(now, osnr)]) :=
      soaking.start wants
    rw [wants, evaluate_turns fun has => (soaking has).1]
    split_ifs with early
    · exact ⟨fun _ => ⟨rfl, held⟩, by simp, nofun⟩
    · exact ⟨nofun, by simp, fun _ => ⟨_, by omega, held⟩⟩
  · rw [evaluate_stays wants]
    exact ⟨nofun, by simp, nofun⟩

end AlarmLatch

namespace OpticalAlarmEntry

variable {a : OpticalAlarmEntry} {history : List (Int × K)}

def latch (a : OpticalAlarmEntry) : OpticalCondition → AlarmLatch
  | .sd => a.sd
  | .sf => a.sf

/-- What has been published of one condition: raises and clears in their order. -/
def reports (c : OpticalCondition) (events : List (OpticalAlarmEvent K)) : List Bool :=
  (events.filter (·.condition = c)).map (·.raised)

theorem latch_evaluateAt : (a.evaluateAt limits soak now (some osnr)).2.latch c =
    ((a.latch c).evaluate (limits.want c osnr) now soak).2 := by
  cases c <;> rfl

/-- An observation publishes what its latches say, and each condition at most once. -/
theorem reports_evaluateAt : reports c (a.evaluateAt limits soak now (some osnr)).1 =
    if ((a.latch c).evaluate (limits.want c osnr) now soak).1 then [!(a.latch c).raised] else [] := by
  simp only [evaluateAt, reports]
  cases c <;> simp only [latch] <;> split_ifs <;> simp_all

/-- Within one observation SD is raised before SF, and SF cleared before SD. -/
theorem evaluateAt_order :
    ((a.evaluateAt limits soak now (some osnr)).1.map fun ev => (ev.condition, ev.raised)).Sublist
      [(.sd, true), (.sf, true), (.sf, false), (.sd, false)] := by
  simp only [evaluateAt, List.map_append]
  change List.Sublist _ ([_] ++ [_] ++ [_] ++ [_])
  refine ((List.Sublist.append ?_ ?_).append ?_).append ?_
  all_goals
    split_ifs <;> simp

/-- What holds of a channel after a history of observations. -/
structure Sound (limits : OpticalAlarmLimits K) (history : List (Int × K))
    (told : List (OpticalAlarmEvent K) × OpticalAlarmEntry) : Prop where
  soaking : ∀ c, (told.2.latch c).Soaking limits c history
  nested : Nested told.2.sd told.2.sf
  alternate : ∀ c (i : Nat) b, (reports c told.1)[i]? = some b → b = decide (i % 2 = 0)
  latest : ∀ c, (told.2.latch c).raised = decide ((reports c told.1).length % 2 = 1)

theorem Sound.evaluateAt [IsOrderedAddMonoid K]
    {told : List (OpticalAlarmEvent K) × OpticalAlarmEntry} (sound : Sound limits history told)
    (past : ∀ o ∈ history, o.1 ≤ now) :
    Sound limits (history ++ [(now, osnr)])
      (told.1 ++ (told.2.evaluateAt limits soak now (some osnr)).1,
        (told.2.evaluateAt limits soak now (some osnr)).2) := by
  have earlier : ∀ c, (told.2.latch c).hasSince = true → (told.2.latch c).since ≤ now := by
    intro c has
    obtain ⟨o, mem, is⟩ := (sound.soaking c has).2.since_mem
    exact is ▸ past o mem
  have reported : ∀ c, reports c (told.1 ++ (told.2.evaluateAt limits soak now (some osnr)).1) =
      reports c told.1 ++ if ((told.2.latch c).evaluate (limits.want c osnr) now soak).1 then
        [!(told.2.latch c).raised] else [] := by
    intro c
    rw [← reports_evaluateAt]
    simp [reports]
  refine ⟨fun c => ?_, ?_, fun c i b => ?_, fun c => ?_⟩
  · rw [latch_evaluateAt]
    exact (sound.soaking c).evaluate.1
  · exact sound.nested.evaluate (fun has => (sound.soaking .sd has).1)
      (fun has => (sound.soaking .sf has).1) (earlier .sd) (earlier .sf)
  · rw [reported, List.getElem?_append]
    have before := sound.alternate c i b
    have latest := sound.latest c
    grind
  · rw [latch_evaluateAt, reported, List.length_append, (sound.soaking c).evaluate.2.1]
    have latest := sound.latest c
    grind

theorem observe_append (o : Int × K) :
    a.observe limits soak (history ++ [o]) =
      ((a.observe limits soak history).1 ++
        ((a.observe limits soak history).2.evaluateAt limits soak o.1 (some o.2)).1,
       ((a.observe limits soak history).2.evaluateAt limits soak o.1 (some o.2)).2) := by
  simp [observe]

theorem sound_observe [IsOrderedAddMonoid K] (deviceIP component : Bytes)
    (ordered : history.Pairwise fun o later => o.1 ≤ later.1) :
    Sound limits history (observe limits soak ⟨deviceIP, component, {}, {}⟩ history) := by
  induction history using List.reverseRecOn with
  | nil =>
    refine ⟨?_, ⟨nofun, nofun, nofun⟩, nofun, ?_⟩
    all_goals
      rintro (_ | _)
    · exact nofun
    · exact nofun
    · rfl
    · rfl
  | append_singleton history o ih =>
    obtain ⟨before, -, past⟩ := List.pairwise_append.mp ordered
    rw [observe_append]
    exact (ih before).evaluateAt fun earlier mem => past earlier mem o (List.mem_singleton_self o)

/-- **Escalation.** Whatever is observed of a channel, its alarms stay nested and every condition is
raised and cleared in turn. What one observation publishes comes in the order of the escalation, and
each of it has held since an observation that lies at least the soak time back. -/
theorem alarms_escalate [IsOrderedAddMonoid K] (limits : OpticalAlarmLimits K) (soak : Int)
    (deviceIP component : Bytes) (history : List (Int × K))
    (ordered : history.Pairwise fun o later => o.1 ≤ later.1) :
    let channel := observe limits soak ⟨deviceIP, component, {}, {}⟩
    ((channel history).2.sf.raised = true → (channel history).2.sd.raised = true) ∧
      (∀ c (i : Nat) b, (reports c (channel history).1)[i]? = some b → b = decide (i % 2 = 0)) ∧
      ∀ before o after, history = before ++ o :: after →
        ∃ events, (channel (before ++ [o])).1 = (channel before).1 ++ events ∧
          (events.map fun ev => (ev.condition, ev.raised)).Sublist
            [(.sd, true), (.sf, true), (.sf, false), (.sd, false)] ∧
          ∀ ev ∈ events, ∃ since ≤ o.1 - soak,
            Throughout limits ev.condition ev.raised since (before ++ [o]) := by
  intro channel
  have sound : Sound limits history (channel history) := sound_observe deviceIP component ordered
  refine ⟨sound.nested.raised, sound.alternate, ?_⟩
  rintro before o after rfl
  have earlier : Sound limits before (channel before) :=
    sound_observe deviceIP component (List.pairwise_append.mp ordered).1
  refine ⟨_, congrArg Prod.fst (observe_append o), evaluateAt_order, fun ev mem => ?_⟩
  have reported : ev.raised ∈ reports ev.condition _ :=
    List.mem_map_of_mem (List.mem_filter.mpr ⟨mem, by simp⟩)
  rw [reports_evaluateAt] at reported
  split_ifs at reported with turned
  · rw [List.mem_singleton.mp reported]
    exact (earlier.soaking ev.condition).evaluate.2.2 turned
  · exact nomatch reported

/-- A channel that fails, and recovers after a second. -/
theorem alarms_escalate_recovery :
    let limits : OpticalAlarmLimits ℤ := ⟨20, 10, 1, by decide, by decide⟩
    let told := observe limits 1 ⟨[], [], {}, {}⟩ [(0, 5), (1, 5), (2, 30), (3, 30)]
    (told.1.map fun ev => (ev.condition, ev.raised)) =
        [(.sd, true), (.sf, true), (.sf, false), (.sd, false)] ∧
      (told.2.sf.raised = true → told.2.sd.raised = true) := by
  intro limits told
  exact ⟨by decide, (alarms_escalate limits 1 [] [] [(0, 5), (1, 5), (2, 30), (3, 30)]
    (by decide)).1⟩

end OpticalAlarmEntry

end Channel
end Nl6
