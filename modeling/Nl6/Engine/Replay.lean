import Nl6.Engine.Run

/-! # The event log of the state engine

A listener that starts from the statuses of an engine and applies every event it is told sees the
engine: `event_log_exact`. The stored time of the last change moves exactly when the derived status
does: `lastChange_exact`. Both are runs of `InterfaceState.steps`.
-/

namespace Nl6

/-- What a listener knows: the operational and administrative status of every interface. -/
@[ext] structure Statuses where
  oper : Int → Nat
  admin : Int → Nat

namespace Statuses

/-- A listener is told an event. -/
def apply (known : Statuses) (event : StateChange) : Statuses :=
  match event.changed with
  | .operStatus => { known with oper := Function.update known.oper event.ifIndex event.oper }
  | .adminStatus => { known with admin := Function.update known.admin event.ifIndex event.admin }

/-- A listener is told a log. -/
def replay (known : Statuses) (events : List StateChange) : Statuses := events.foldl apply known

theorem replay_append (known : Statuses) (front back : List StateChange) :
    known.replay (front ++ back) = (known.replay front).replay back :=
  List.foldl_append

/-- What a listener knows about an interface is decided by the events about it. -/
theorem replay_at (known : Statuses) (events : List StateChange) (i : Int) :
    (known.replay events).oper i = (known.replay (eventsOf i events)).oper i ∧
      (known.replay events).admin i = (known.replay (eventsOf i events)).admin i := by
  have local_ : ∀ (left right : Statuses) (events : List StateChange),
      left.oper i = right.oper i → left.admin i = right.admin i →
        (left.replay events).oper i = (right.replay (eventsOf i events)).oper i ∧
          (left.replay events).admin i = (right.replay (eventsOf i events)).admin i := by
    intro left right events
    induction events generalizing left right with
    | nil => exact fun oper admin => ⟨oper, admin⟩
    | cons event events ih =>
      intro oper admin
      rw [eventsOf_cons]
      by_cases about : (event.ifIndex : Int) = i
      · rw [if_pos about]
        refine ih (left.apply event) (right.apply event) ?_ ?_
        · cases changed : event.changed <;> simp [apply, changed, about, oper]
        · cases changed : event.changed <;> simp [apply, changed, about, admin]
      · rw [if_neg about]
        refine ih (left.apply event) right ?_ ?_
        · cases changed : event.changed <;> simp [apply, changed, Ne.symm about, oper]
        · cases changed : event.changed <;> simp [apply, changed, Ne.symm about, admin]
  exact local_ known known events rfl rfl

theorem oper_replay_of_admin {known : Statuses} {events : List StateChange}
    (admin : ∀ event ∈ events, event.changed = .adminStatus) :
    (known.replay events).oper = known.oper := by
  induction events generalizing known with
  | nil => rfl
  | cons event events ih =>
    have first := admin event (by simp)
    have rest := @ih (known.apply event) fun e member => admin e (List.mem_cons_of_mem _ member)
    rw [replay, List.foldl_cons, ← replay, rest, apply, first]

end Statuses

namespace InterfaceState

variable {s next : InterfaceState} {call : Call} {nowNs : Nat} {events : List StateChange}

/-- The statuses an engine serves. -/
def statuses (s : InterfaceState) : Statuses := ⟨s.operStatus, s.adminStatus⟩

theorem Steps.toNat_of_moved (steps : s.Steps call nowNs next events) {i : Int}
    (moved : s.adminStatus i ≠ next.adminStatus i ∨ s.operStatus i ≠ next.operStatus i) :
    (i.toNat : Int) = i := by
  have reported : ∃ event ∈ eventsOf i events, event.ifIndex = i.toNat := by
    rw [steps.events i]
    rcases moved with moved | moved
    · exact ⟨s.reports next i .adminStatus nowNs, by simp [moved], rfl⟩
    · exact ⟨s.reports next i .operStatus nowNs, by simp [moved], rfl⟩
  obtain ⟨event, member, index⟩ := reported
  have about := (List.mem_filter.mp member).2
  rwa [decide_eq_true_iff, index] at about

/-- One call told to a listener that knows the engine. -/
theorem Steps.replay (steps : s.Steps call nowNs next events) :
    s.statuses.replay events = next.statuses := by
  have moved : ∀ i, (s.statuses.replay events).oper i = next.operStatus i ∧
      (s.statuses.replay events).admin i = next.adminStatus i := by
    intro i
    rw [(Statuses.replay_at _ _ i).1, (Statuses.replay_at _ _ i).2, steps.events i]
    by_cases admin : s.adminStatus i = next.adminStatus i <;>
      by_cases oper : s.operStatus i = next.operStatus i
    · simp [admin, oper, Statuses.replay, statuses]
    · have index := steps.toNat_of_moved (.inr oper)
      simp [admin, oper, Statuses.replay, Statuses.apply, reports, statuses, index]
    · have index := steps.toNat_of_moved (.inl admin)
      simp [admin, oper, Statuses.replay, Statuses.apply, reports, statuses, index]
    · have index := steps.toNat_of_moved (.inr oper)
      simp [admin, oper, Statuses.replay, Statuses.apply, reports, statuses, index]
  exact Statuses.ext (funext fun i => (moved i).1) (funext fun i => (moved i).2)

/-- An event of a call reports a status that moved, and a listener that has been told the events
before it knows the operational status it names as the previous one. -/
theorem Steps.of_event (steps : s.Steps call nowNs next events) {front back : List StateChange}
    {event : StateChange} (split : events = front ++ event :: back) :
    (event.changed = .adminStatus →
      s.adminStatus event.ifIndex ≠ next.adminStatus event.ifIndex) ∧
    (event.changed = .operStatus → s.operStatus event.ifIndex ≠ next.operStatus event.ifIndex ∧
      event.prevOper = (s.statuses.replay front).oper event.ifIndex) := by
  have about := steps.events event.ifIndex
  rw [split, eventsOf_append, eventsOf_cons, if_pos rfl] at about
  have member : event ∈ eventsOf event.ifIndex front ++ event :: eventsOf event.ifIndex back := by
    simp
  rw [about, List.mem_append, List.mem_ite_nil_right, List.mem_ite_nil_right, List.mem_singleton,
    List.mem_singleton] at member
  constructor
  · intro isAdmin
    rcases member with ⟨moved, -⟩ | ⟨-, same⟩
    · exact moved
    · rw [same] at isAdmin
      exact absurd isAdmin nofun
  · intro isOper
    rcases member with ⟨-, same⟩ | ⟨moved, same⟩
    · rw [same] at isOper
      exact absurd isOper nofun
    · refine ⟨moved, ?_⟩
      rw [if_pos moved] at about
      have adminOnly : ∀ earlier ∈ (if s.adminStatus event.ifIndex ≠ next.adminStatus event.ifIndex
          then [s.reports next event.ifIndex .adminStatus nowNs] else []),
            earlier.changed = .adminStatus := by
        intro earlier member
        obtain ⟨-, member⟩ := List.mem_ite_nil_right.mp member
        rw [List.mem_singleton.mp member]
        rfl
      -- the operational event comes last, so only the administrative one can stand in front of it
      have before : ∀ earlier ∈ eventsOf event.ifIndex front, earlier.changed = .adminStatus := by
        rcases List.eq_nil_or_concat (eventsOf event.ifIndex back) with none_behind | ⟨more, last, behind⟩
        · rw [none_behind] at about
          rw [(List.append_inj' about rfl).1]
          exact adminOnly
        · rw [behind, List.concat_eq_append, ← List.cons_append, ← List.append_assoc] at about
          have early : event ∈ eventsOf event.ifIndex front ++ event :: more := by simp
          rw [(List.append_inj' about rfl).1] at early
          rw [adminOnly event early] at isOper
          exact absurd isOper nofun
      rw [(Statuses.replay_at _ front _).1, Statuses.oper_replay_of_admin before, same]
      rfl

/-! ### Runs -/

theorem run_cons (s : InterfaceState) (call : Call) (nowNs : Nat) (rest : List (Call × Nat)) :
    s.run ((call, nowNs) :: rest) = (((s.step call nowNs).1.run rest).1,
      (s.step call nowNs).2 ++ ((s.step call nowNs).1.run rest).2) := rfl

theorem OneLevel.run (oneLevel : s.OneLevel) (calls : List (Call × Nat)) :
    (s.run calls).1.OneLevel ∧ (s.run calls).1.bootTimeUnixNs = s.bootTimeUnixNs := by
  induction calls generalizing s with
  | nil => exact ⟨oneLevel, rfl⟩
  | cons first rest ih =>
    have steps := s.steps oneLevel first.1 first.2
    obtain ⟨level, boot⟩ := ih steps.oneLevel
    exact ⟨level, boot.trans steps.bootTime⟩

/-- The log of a run, told to a listener that knows the engine it started from. -/
theorem OneLevel.replay_run (oneLevel : s.OneLevel) (calls : List (Call × Nat)) :
    s.statuses.replay (s.run calls).2 = (s.run calls).1.statuses := by
  induction calls generalizing s with
  | nil => rfl
  | cons first rest ih =>
    have steps := s.steps oneLevel first.1 first.2
    rw [run_cons, Statuses.replay_append, steps.replay, ih steps.oneLevel]

/-- Every operational event of a run names the status the listener has reached. -/
theorem OneLevel.prevOper_run (oneLevel : s.OneLevel) (calls : List (Call × Nat))
    {front back : List StateChange} {event : StateChange}
    (split : (s.run calls).2 = front ++ event :: back) (isOper : event.changed = .operStatus) :
    event.prevOper = (s.statuses.replay front).oper event.ifIndex := by
  induction calls generalizing s front with
  | nil => simp [InterfaceState.run] at split
  | cons first rest ih =>
    have steps := s.steps oneLevel first.1 first.2
    rw [run_cons] at split
    rcases List.append_eq_append_iff.mp split with ⟨more, frontEq, restEq⟩ | ⟨more, eventsEq, restEq⟩
    · rw [frontEq, Statuses.replay_append, steps.replay]
      exact ih steps.oneLevel restEq
    · cases more with
      | nil =>
        rw [List.append_nil] at eventsEq
        rw [← eventsEq, steps.replay]
        exact @ih _ steps.oneLevel [] restEq.symm
      | cons head more =>
        obtain ⟨rfl, -⟩ := List.cons.inj restEq
        exact ((steps.of_event eventsEq).2 isOper).2

/-- **The event log is exact.** Whatever calls are made on an engine with one level of
subinterfaces, its events replayed onto the statuses it started from give the statuses it ends with;
every operational event names the status reached before it; every event reports a status that moved;
and a call changes the stored link and administrative status of the interface it names only. -/
theorem event_log_exact (s : InterfaceState) (oneLevel : s.OneLevel) (calls : List (Call × Nat)) :
    s.statuses.replay (s.run calls).2 = (s.run calls).1.statuses ∧
    (∀ front event back, (s.run calls).2 = front ++ event :: back →
      event.changed = .operStatus →
        event.prevOper = (s.statuses.replay front).oper event.ifIndex) ∧
    ∀ before call nowNs after, calls = before ++ (call, nowNs) :: after →
      ∀ mid next events, mid = (s.run before).1 → (next, events) = mid.step call nowNs →
        (∀ event ∈ events,
          (event.changed = .operStatus →
            mid.operStatus event.ifIndex ≠ next.operStatus event.ifIndex) ∧
          (event.changed = .adminStatus →
            mid.adminStatus event.ifIndex ≠ next.adminStatus event.ifIndex)) ∧
        ∀ i, i ≠ call.ifIndex →
          next.linkState i = mid.linkState i ∧ next.adminStatus i = mid.adminStatus i := by
  refine ⟨oneLevel.replay_run calls, fun front event back => oneLevel.prevOper_run calls, ?_⟩
  rintro before call nowNs after - mid next events rfl stepped
  have steps := (s.run before).1.steps (oneLevel.run before).1 call nowNs
  rw [← stepped] at steps
  constructor
  · intro event member
    obtain ⟨front, back, split⟩ := List.append_of_mem member
    obtain ⟨admin, oper⟩ := steps.of_event split
    exact ⟨fun isOper => (oper isOper).1, admin⟩
  · intro i other
    have kept := steps.levels i
    rw [if_neg fun named => other named.1.symm, Prod.mk.injEq] at kept
    exact kept

/-- A port and a unit on it, both up. -/
def portWithUnit : InterfaceState :=
  setParents
    { maxIfIndex := 2
      slots := fun _ => packState operUpStatus adminUp 0
      bootTimeUnixNs := 1000
      parent := fun _ => none
      children := fun _ => []
      children_iff := by simp }
    fun c => if c = 2 then some 1 else none

theorem oneLevel_portWithUnit : portWithUnit.OneLevel := by
  refine oneLevel_setParents _ fun c p parent => ?_
  split_ifs at parent
  cases parent
  rfl

/-- Shutting the port reports the port twice and the unit once. -/
theorem event_log_exact_portWithUnit :
    ((portWithUnit.run [(.applyAdminStatus 1 2, 1005)]).2.map fun event =>
        (event.ifIndex, event.changed, event.prevOper, event.oper)) =
      [(1, .adminStatus, 1, 2), (1, .operStatus, 1, 2), (2, .operStatus, 1, 7)] ∧
    portWithUnit.statuses.replay (portWithUnit.run [(.applyAdminStatus 1 2, 1005)]).2 =
      (portWithUnit.run [(.applyAdminStatus 1 2, 1005)]).1.statuses :=
  ⟨by decide, (event_log_exact portWithUnit oneLevel_portWithUnit _).1⟩

/-! ### The time of the last change -/

/-- Whether a call moves the derived status of an interface. -/
def moves (s : InterfaceState) (i : Int) (call : Call × Nat) : Prop :=
  (s.step call.1 call.2).1.operStatus i ≠ s.operStatus i

/-- A clock reading the engine can store. -/
def InClockRange (s : InterfaceState) (nowNs : Nat) : Prop :=
  s.bootTimeUnixNs ≤ nowNs ∧ nowNs - s.bootTimeUnixNs < 2 ^ 58

theorem OneLevel.stamp_step (oneLevel : s.OneLevel) {call : Call × Nat}
    (inRange : s.InClockRange call.2) (i : Int) :
    (s.moves i call →
      (s.step call.1 call.2).1.storedChange i = call.2 - s.bootTimeUnixNs) ∧
    (¬ s.moves i call → (s.step call.1 call.2).1.storedChange i = s.storedChange i) := by
  have stamp := (s.steps oneLevel call.1 call.2).stamp i
  have reading : wallRelNs call.2 s.bootTimeUnixNs = call.2 - s.bootTimeUnixNs := by
    rw [wallRelNs, if_neg (not_lt.mpr inRange.1), Nat.mod_eq_of_lt inRange.2]
  rw [reading] at stamp
  constructor
  · intro moved
    rw [stamp, if_pos (Ne.symm moved)]
  · intro still
    rw [stamp, if_neg (not_not.mpr (not_not.mp still).symm)]

theorem run_concat (s : InterfaceState) (calls : List (Call × Nat)) (last : Call × Nat) :
    (s.run (calls ++ [last])).1 = ((s.run calls).1.step last.1 last.2).1 := by
  induction calls generalizing s with
  | nil => rfl
  | cons first rest ih => exact ih (s.step first.1 first.2).1

/-- The stored time behind a run is that of the last call that moved the status. -/
theorem OneLevel.storedChange_run (oneLevel : s.OneLevel) {calls : List (Call × Nat)}
    (clock : ∀ call ∈ calls, s.InClockRange call.2) (i : Int) :
    (∃ k call, calls[k]? = some call ∧ (s.run (calls.take k)).1.moves i call ∧
        (s.run calls).1.storedChange i = call.2 - s.bootTimeUnixNs ∧
        ∀ l later, k < l → calls[l]? = some later → ¬ (s.run (calls.take l)).1.moves i later) ∨
      ((∀ k call, calls[k]? = some call → ¬ (s.run (calls.take k)).1.moves i call) ∧
        (s.run calls).1.storedChange i = s.storedChange i) := by
  induction calls using List.reverseRecOn with
  | nil => exact .inr ⟨by simp, rfl⟩
  | append_singleton calls last ih =>
    obtain ⟨level, boot⟩ := oneLevel.run calls
    have inRange : (s.run calls).1.InClockRange last.2 := by
      rw [InClockRange, boot]
      exact clock last (by simp)
    obtain ⟨whenMoved, whenStill⟩ := level.stamp_step inRange i
    rw [boot] at whenMoved
    have here : (calls ++ [last])[calls.length]? = some last := by simp
    have front : ∀ k < calls.length,
        (calls ++ [last])[k]? = calls[k]? ∧ (calls ++ [last]).take k = calls.take k := by
      intro k inside
      exact ⟨List.getElem?_append_left inside, List.take_append_of_le_length inside.le⟩
    have atEnd : (calls ++ [last]).take calls.length = calls := List.take_left
    rw [run_concat]
    by_cases moved : (s.run calls).1.moves i last
    · refine Or.inl ⟨calls.length, last, here, by rwa [atEnd], whenMoved moved, ?_⟩
      intro l later beyond found
      have := (List.getElem?_eq_some_iff.mp found).1
      rw [List.length_append, List.length_singleton] at this
      omega
    · rw [whenStill moved]
      rcases ih fun call member => clock call (by simp [member]) with
        ⟨k, call, found, moves, stored, later⟩ | ⟨still, stored⟩
      · have inside := (List.getElem?_eq_some_iff.mp found).1
        refine Or.inl ⟨k, call, (front k inside).1.trans found, ?_, stored, ?_⟩
        · rwa [(front k inside).2]
        · intro l later' beyond found'
          rcases Nat.lt_or_ge l calls.length with inside' | outside
          · rw [(front l inside').1] at found'
            rw [(front l inside').2]
            exact later l later' beyond found'
          · have bound := (List.getElem?_eq_some_iff.mp found').1
            rw [List.length_append, List.length_singleton] at bound
            obtain rfl : l = calls.length := by omega
            obtain rfl := Option.some.inj (here.symm.trans found')
            rwa [atEnd]
      · refine Or.inr ⟨?_, stored⟩
        intro k call found
        rcases Nat.lt_or_ge k calls.length with inside | outside
        · rw [(front k inside).1] at found
          rw [(front k inside).2]
          exact still k call found
        · have bound := (List.getElem?_eq_some_iff.mp found).1
          rw [List.length_append, List.length_singleton] at bound
          obtain rfl : k = calls.length := by omega
          obtain rfl := Option.some.inj (here.symm.trans found)
          rwa [atEnd]

/-- **The time of the last change.** Under a clock that does not step behind boot and stays within 58
bits, a call changes the stored time of an interface only if it moves its derived status, and then
to the call's clock reading. After a run the stored time is that of the last call that moved the
status, or the one the run started with, which is boot for a seeded slot. -/
theorem lastChange_exact (s : InterfaceState) (oneLevel : s.OneLevel) (calls : List (Call × Nat))
    (clock : ∀ call ∈ calls, s.InClockRange call.2) (i : Int) :
    (∀ k call mid next, calls[k]? = some call → mid = (s.run (calls.take k)).1 →
      next = (mid.step call.1 call.2).1 →
        (next.storedChange i ≠ mid.storedChange i → next.operStatus i ≠ mid.operStatus i) ∧
        (next.operStatus i ≠ mid.operStatus i →
          next.storedChange i = call.2 - s.bootTimeUnixNs)) ∧
    ((∃ k call, calls[k]? = some call ∧ (s.run (calls.take k)).1.moves i call ∧
        (s.run calls).1.storedChange i = call.2 - s.bootTimeUnixNs ∧
        ∀ l later, k < l → calls[l]? = some later → ¬ (s.run (calls.take l)).1.moves i later) ∨
      ((∀ k call, calls[k]? = some call → ¬ (s.run (calls.take k)).1.moves i call) ∧
        (s.run calls).1.storedChange i = s.storedChange i)) := by
  refine ⟨?_, oneLevel.storedChange_run clock i⟩
  rintro k call mid next found rfl rfl
  obtain ⟨level, boot⟩ := oneLevel.run (calls.take k)
  have inRange : (s.run (calls.take k)).1.InClockRange call.2 := by
    rw [InClockRange, boot]
    exact clock call (List.mem_of_getElem? found)
  obtain ⟨whenMoved, whenStill⟩ := level.stamp_step inRange i
  rw [boot] at whenMoved
  exact ⟨fun restamped => by_contra fun still => restamped (whenStill still), whenMoved⟩

/-- The unit is stamped with the port's transition. -/
theorem lastChange_exact_portWithUnit :
    (portWithUnit.run [(.applyAdminStatus 1 2, 1005), (.setLinkState 2 2, 1009)]).1.storedChange 2 =
      9 ∧
    ∀ k call mid next, [(Call.applyAdminStatus 1 2, 1005), (.setLinkState 2 2, 1009)][k]? = some call →
      mid = (portWithUnit.run
        ([(Call.applyAdminStatus 1 2, 1005), (.setLinkState 2 2, 1009)].take k)).1 →
      next = (mid.step call.1 call.2).1 →
        (next.storedChange 2 ≠ mid.storedChange 2 → next.operStatus 2 ≠ mid.operStatus 2) ∧
        (next.operStatus 2 ≠ mid.operStatus 2 →
          next.storedChange 2 = call.2 - portWithUnit.bootTimeUnixNs) :=
  ⟨by decide, (lastChange_exact portWithUnit oneLevel_portWithUnit _ (by
    rintro call (_ | ⟨_, _ | ⟨_, ⟨⟩⟩⟩) <;> exact ⟨by decide, by decide⟩) 2).1⟩

end InterfaceState

end Nl6
