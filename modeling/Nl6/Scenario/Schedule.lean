import Nl6.Lib.Threads
import Nl6.Scenario.Controller

/-! # Scheduled starts

A scheduled start is a timer whose callback has captured the generation of its schedule. The callback
of a timer that has fired may wait for the mutex while arms and other schedules come and go, and goes
on only if its generation is still the current one.

A run is a sequence of methods and callbacks in the order in which they get the mutex, timers that
fire, and changes that others make to the fleet and its exporters. Beside the state it keeps a log of
what succeeded, the latest first. `withdrawn_schedules` says that a start from a timer has its own
schedule in the log, with nothing in between that withdraws it. The generation counter has 64 bits in
the source and is a natural number here.
-/

namespace Nl6

variable {P : Platform}

/-! ### What the methods do to the schedule -/

namespace ScenarioState

/-- The pending schedule, its generation and the timers. -/
def schedule (s : ScenarioState P) : Option Nat × Option Instant × Nat × List (Timer Unit) :=
  (s.controller.startTimer, s.controller.scheduledAt, s.controller.scheduleGen, s.timers)

theorem detachAll_schedule (s : ScenarioState P) (ips : List Bytes) :
    (s.detachAll ips).schedule = s.schedule := by
  induction ips generalizing s with
  | nil => rfl
  | cons ip rest ih =>
    unfold detachAll
    split
    · exact ih s
    · exact ih _

theorem installOne_schedule (prevLedgers : List (Bytes × Nat)) (s : ScenarioState P) (ip : Bytes)
    (dev : ScenarioDevice) : (installOne prevLedgers s ip dev).schedule = s.schedule := by
  simp only [installOne]
  split <;> rfl

theorem installListed_schedule (prevLedgers : List (Bytes × Nat)) (s : ScenarioState P)
    (ips : List Bytes) : (installListed prevLedgers s ips).schedule = s.schedule := by
  induction ips generalizing s with
  | nil => rfl
  | cons ip rest ih =>
    unfold installListed
    split
    · exact ih _
    · exact (ih _).trans (installOne_schedule ..)

theorem installMatched_schedule (prevLedgers : List (Bytes × Nat)) (s : ScenarioState P)
    (ips : List Bytes) : (installMatched prevLedgers s ips).schedule = s.schedule := by
  induction ips generalizing s with
  | nil => rfl
  | cons ip rest ih =>
    unfold installMatched
    split
    · exact ih s
    · exact (ih _).trans (installOne_schedule ..)

theorem prune_schedule (s : ScenarioState P) (registered : Nat)
    (parts : List (Bytes × ScenarioPart)) :
    (s.prune registered parts).1.schedule = s.schedule := by
  induction parts generalizing s registered with
  | nil => rfl
  | cons entry rest ih =>
    obtain ⟨ip, part⟩ := entry
    simp only [prune]
    split
    · exact ih _ _
    · split
      · exact ih _ _
      · exact ih _ _

theorem drive_schedule (s : ScenarioState P) (parts : List (Bytes × ScenarioPart)) :
    (s.drive parts).schedule = s.schedule := by
  induction parts generalizing s with
  | nil => rfl
  | cons entry rest ih =>
    obtain ⟨ip, part⟩ := entry
    unfold drive
    split
    · exact ih _
    · exact ih s

variable {s : ScenarioState P}

theorem transitionLocked_schedule {to' : ScenarioPhase} {now : Instant} {c : ScenarioController P}
    (moves : s.controller.transitionLocked to' now = .ok c) :
    ({ s with controller := c } : ScenarioState P).schedule = s.schedule := by
  unfold ScenarioController.transitionLocked at moves
  split_ifs at moves
  all_goals
    obtain rfl := Except.ok.inj moves
    rfl

variable (s)

theorem launch_schedule (choice : StartChoice) :
    (s.launch choice).1.schedule = s.schedule := by
  unfold launch
  split
  · rfl
  · next c moves =>
      have same := transitionLocked_schedule moves
      split
      · exact same
      · change ScenarioState.schedule (if c.spec.protocol.isFlow = true then
          drive { s with controller := c } c.parts else { s with controller := c }) = _
        split
        · exact (drive_schedule ..).trans same
        · exact same

theorem startLockedLabelled_schedule (choice : StartChoice) :
    (s.startLockedLabelled choice).1.schedule = s.schedule := by
  simp only [startLockedLabelled]
  split
  · rfl
  · split
    · rfl
    · split
      · rfl
      · split
        · rfl
        · split
          · exact prune_schedule ..
          · split
            · exact prune_schedule ..
            · exact (launch_schedule ..).trans (prune_schedule ..)

theorem withdraw_schedule {s s' : ScenarioState P} (same : s'.schedule = s.schedule) :
    s'.withdraw.schedule = s.withdraw.schedule := by
  simp only [schedule, Prod.mk.injEq] at same
  obtain ⟨timer, at', gen, timers⟩ := same
  unfold withdraw
  rw [timer]
  cases s.controller.startTimer with
  | none => simp only [schedule, timer, at', gen, timers]
  | some g => simp only [schedule, gen, timers]

theorem rebuild_schedule (prefixMatches : List Bytes) :
    (s.rebuild prefixMatches).schedule = s.withdraw.schedule := by
  simp only [rebuild]
  rw [detachAll_schedule, installMatched_schedule, installListed_schedule]
  rfl

/-- **Arming.** An arm that is refused changes nothing; one that succeeds withdraws the schedule. -/
theorem armReadiness_cases (now : Instant) :
    (∃ err, s.armReadiness now = (s, .error err)) ∨
      (s.armReadiness now).1.schedule = s.withdraw.schedule ∧
        ∃ readiness, (s.armReadiness now).2 = .ok readiness := by
  simp only [armReadiness]
  split
  · exact .inl ⟨_, rfl⟩
  · split
    · exact .inl ⟨_, rfl⟩
    · split
      · exact .inl ⟨_, rfl⟩
      · next c moves =>
          refine .inr ⟨?_, _, rfl⟩
          rw [rebuild_schedule, withdraw_schedule (transitionLocked_schedule moves)]

theorem finishLabelled_cases (to' : ScenarioPhase) (now : Instant) :
    (∃ err, s.finishLabelled to' now = (s, some err)) ∨
      (s.finishLabelled to' now).1.schedule = s.withdraw.schedule ∧
        (s.finishLabelled to' now).2 = none := by
  simp only [finishLabelled]
  split
  · exact .inl ⟨_, rfl⟩
  · next c moves =>
      refine .inr ⟨?_, rfl⟩
      rw [detachAll_schedule, ← withdraw_schedule (transitionLocked_schedule moves)]
      rfl

theorem cancel_cases (now : Instant) :
    (∃ err, s.cancel now = (s, some err)) ∨
      (s.cancel now).1.schedule = s.withdraw.schedule ∧ (s.cancel now).2 = none := by
  simp only [cancel]
  split
  · exact .inl ⟨_, rfl⟩
  · next c moves =>
      refine .inr ⟨?_, rfl⟩
      rw [detachAll_schedule, withdraw_schedule (transitionLocked_schedule moves)]

/-- A schedule is accepted only where there is none, and gets a generation of its own. -/
theorem scheduleStart_cases (at' : Instant) :
    (∃ err, s.scheduleStart at' = (s, some err)) ∨
      (s.scheduleStart at').1.schedule =
        (some (s.controller.scheduleGen + 1), some at', s.controller.scheduleGen + 1,
          s.timers ++ [⟨s.controller.scheduleGen + 1, at', false, ()⟩]) ∧
        (s.scheduleStart at').2 = none := by
  simp only [scheduleStart]
  split
  · exact .inl ⟨_, rfl⟩
  · split
    · exact .inl ⟨_, rfl⟩
    · split
      · exact .inl ⟨_, rfl⟩
      · split
        · exact .inl ⟨_, rfl⟩
        · exact .inr ⟨rfl, rfl⟩

/-- The callback of a stale timer does nothing; that of the current one starts the scenario, or gives
the schedule up. -/
theorem startScheduled_cases (gen : Nat) (choice : StartChoice) :
    gen ≠ s.controller.scheduleGen ∧ s.startScheduled gen choice = s ∨
      gen = s.controller.scheduleGen ∧
        ((s.startScheduled gen choice).schedule = s.schedule ∨
          (s.startScheduled gen choice).schedule =
            (none, none, s.controller.scheduleGen + 1, s.timers)) := by
  have kept := startLockedLabelled_schedule s choice
  unfold startScheduled
  split
  · next stale => exact .inl ⟨stale, rfl⟩
  · next current =>
      obtain rfl := not_ne_iff.mp current
      refine .inr ⟨rfl, ?_⟩
      split
      · next after starts =>
          rw [starts] at kept
          exact .inl kept
      · next after err fails =>
          rw [fails] at kept
          simp only [schedule, Prod.mk.injEq] at kept
          obtain ⟨-, -, gen, timers⟩ := kept
          rw [gen, if_pos rfl]
          refine .inr ?_
          simp only [schedule, timers]

end ScenarioState

/-! ### Runs -/

/-- What has succeeded. A start from a timer counts when it enters the running phase, also if it is
rolled back then. -/
inductive ScenarioEvent where
  | armed
  | scheduled (gen : Nat)
  | started
  | timerStarted (gen : Nat)
  | finished
  | canceled
  deriving DecidableEq, Repr

def ScenarioEvent.withdraws : ScenarioEvent → Bool
  | .armed | .scheduled _ | .finished | .canceled => true
  | .started | .timerStarted _ => false

/-- A scenario with the log of what has succeeded, the latest first. -/
structure ScenarioSystem (P : Platform) where
  state : ScenarioState P
  log : List ScenarioEvent

/-- What can happen: a method gets the mutex, a timer fires, its callback gets the mutex, or others
change the fleet and the slots of its exporters. -/
inductive ScenarioAction where
  | armReadiness (now : Instant)
  | scheduleStart (at' : Instant)
  | start (choice : ScenarioState.StartChoice)
  | stop (now : Instant)
  | abort (now : Instant)
  | cancel (now : Instant)
  | fire (index now : Nat)
  | callback (index : Nat) (choice : ScenarioState.StartChoice)
  | others (fleet : Fleet)

namespace ScenarioSystem

variable {sys next : ScenarioSystem P} {log : List ScenarioEvent} {event : ScenarioEvent}
  {state : ScenarioState P}

def noted (log : List ScenarioEvent) (succeeded : Bool) (event : ScenarioEvent) :
    List ScenarioEvent :=
  if succeeded then event :: log else log

/-- The log of transitions has grown. -/
def entered (before after : ScenarioState P) : Bool :=
  before.controller.transitions.length < after.controller.transitions.length

/-- A method or callback that ends the scenario. -/
def ended (sys : ScenarioSystem P) (result : ScenarioState P × Option TransitionError)
    (event : ScenarioEvent) : ScenarioSystem P :=
  ⟨result.1, noted sys.log result.2.isNone event⟩

def step (sys : ScenarioSystem P) : ScenarioAction → Option (ScenarioSystem P)
  | .armReadiness now =>
    let result := sys.state.armReadiness now
    some ⟨result.1, noted sys.log result.2.isOk .armed⟩
  | .scheduleStart at' =>
    let result := sys.state.scheduleStart at'
    let event := ScenarioEvent.scheduled result.1.controller.scheduleGen
    some ⟨result.1, noted sys.log result.2.isNone event⟩
  | .start choice =>
    let state := (sys.state.startLockedLabelled choice).1
    some ⟨state, noted sys.log (entered sys.state state) .started⟩
  | .stop now => some (sys.ended (sys.state.finishLabelled .stopped now) .finished)
  | .abort now => some (sys.ended (sys.state.finishLabelled .aborted now) .finished)
  | .cancel now => some (sys.ended (sys.state.cancel now) .canceled)
  | .fire index now =>
    (Timer.fire sys.state.timers index now).map fun timers =>
      { sys with state := { sys.state with timers } }
  | .callback index choice =>
    (Timer.take sys.state.timers index).map fun (t, timers) =>
      let taken := { sys.state with timers }
      let state := taken.startScheduled t.gen choice
      ⟨state, noted sys.log (entered taken state) (.timerStarted t.gen)⟩
  | .others fleet => some { sys with state := { sys.state with fleet } }

/-- A schedule is in the log, and nothing later withdraws it. -/
def Justified (log : List ScenarioEvent) (gen : Nat) : Prop :=
  ∃ between front, log = between ++ .scheduled gen :: front ∧ ∀ e ∈ between, e.withdraws = false

/-- What holds of the schedule and the log. -/
structure Sound (sys : ScenarioSystem P) : Prop where
  dated : Timer.Dated sys.state.controller.scheduleGen sys.state.timers
  live : ∀ t ∈ sys.state.timers, t.gen = sys.state.controller.scheduleGen →
    sys.state.controller.startTimer = some t.gen ∧ Justified sys.log t.gen
  past : ∀ gen older, ScenarioEvent.timerStarted gen :: older <:+ sys.log → Justified older gen

theorem Justified.cons {gen : Nat} (justified : Justified log gen)
    (harmless : event.withdraws = false) : Justified (event :: log) gen := by
  obtain ⟨between, front, rfl, quiet⟩ := justified
  exact ⟨event :: between, front, rfl, List.forall_mem_cons.mpr ⟨harmless, quiet⟩⟩

/-- What the log says stays true when something is noted. -/
theorem past_noted (succeeded : Bool) (event : ScenarioEvent)
    (past : ∀ gen older, ScenarioEvent.timerStarted gen :: older <:+ log → Justified older gen)
    (new : succeeded = true → ∀ gen, event = .timerStarted gen → Justified log gen) :
    ∀ gen older, ScenarioEvent.timerStarted gen :: older <:+ noted log succeeded event →
      Justified older gen := by
  intro gen older suffix
  unfold noted at suffix
  split at suffix
  · next yes =>
      rcases List.suffix_cons_iff.mp suffix with whole | inner
      · obtain ⟨rfl, rfl⟩ := List.cons.inj whole
        exact new yes gen rfl
      · exact past gen older inner
  · exact past gen older suffix

theorem Sound.withdraw (sound : sys.Sound)
    (withdrawn : state.schedule = sys.state.withdraw.schedule) :
    Timer.Dated state.controller.scheduleGen state.timers ∧
      ∀ t ∈ state.timers, t.gen ≠ state.controller.scheduleGen := by
  unfold ScenarioState.withdraw at withdrawn
  cases pending : sys.state.controller.startTimer with
  | none =>
    simp only [pending, ScenarioState.schedule, Prod.mk.injEq] at withdrawn
    obtain ⟨-, -, gen, timers⟩ := withdrawn
    rw [gen, timers]
    refine ⟨sound.dated, fun t mem current => ?_⟩
    exact nomatch pending.symm.trans (sound.live t mem current).1
  | some g =>
    simp only [pending, ScenarioState.schedule, Prod.mk.injEq] at withdrawn
    obtain ⟨-, -, gen, timers⟩ := withdrawn
    rw [gen, timers]
    refine ⟨(sound.dated.stop g).succ, fun t mem => ?_⟩
    exact ((sound.dated.stop g).lt_succ t mem).ne

theorem Sound.keep (sound : sys.Sound) {succeeded : Bool}
    (same : state.schedule = sys.state.schedule) (harmless : event.withdraws = false)
    (manual : ∀ gen, event ≠ .timerStarted gen) : Sound ⟨state, noted sys.log succeeded event⟩ := by
  simp only [ScenarioState.schedule, Prod.mk.injEq] at same
  obtain ⟨timer, -, gen, timers⟩ := same
  refine ⟨?_, ?_, past_noted succeeded event sound.past fun _ gen is => absurd is (manual gen)⟩
  · simp only [gen, timers]
    exact sound.dated
  · simp only [gen, timers, timer]
    intro t mem current
    obtain ⟨pending, justified⟩ := sound.live t mem current
    refine ⟨pending, ?_⟩
    unfold noted
    split
    · exact justified.cons harmless
    · exact justified

theorem Sound.drop (sound : sys.Sound) (withdrawn : state.schedule = sys.state.withdraw.schedule)
    (manual : ∀ gen, event ≠ .timerStarted gen) : Sound ⟨state, noted sys.log true event⟩ := by
  obtain ⟨dated, none⟩ := sound.withdraw withdrawn
  refine ⟨dated, fun t mem current => absurd current (none t mem), ?_⟩
  exact past_noted true event sound.past fun _ gen is => absurd is (manual gen)

theorem Sound.ended (sound : sys.Sound) {result : ScenarioState P × Option TransitionError}
    (manual : ∀ gen, event ≠ .timerStarted gen) (cases : (∃ err, result = (sys.state, some err)) ∨
      result.1.schedule = sys.state.withdraw.schedule ∧ result.2 = none) :
    (sys.ended result event).Sound := by
  unfold ScenarioSystem.ended
  rcases cases with ⟨err, rfl⟩ | ⟨withdrawn, succeeded⟩
  · exact sound
  · rw [succeeded]
    exact sound.drop withdrawn manual

/-- **Steps.** -/
theorem Sound.sound_step {action : ScenarioAction} (sound : sys.Sound)
    (steps : sys.step action = some next) : next.Sound := by
  cases action with
  | armReadiness now =>
    cases steps
    rcases sys.state.armReadiness_cases now with ⟨err, refused⟩ | ⟨withdrawn, readiness, armed⟩
    · rw [refused]
      exact sound
    · rw [armed]
      exact sound.drop withdrawn fun _ => nofun
  | scheduleStart at' =>
    cases steps
    rcases sys.state.scheduleStart_cases at' with ⟨err, refused⟩ | ⟨scheduled, accepted⟩
    · rw [refused]
      exact sound
    · rw [accepted]
      simp only [ScenarioState.schedule, Prod.mk.injEq] at scheduled
      obtain ⟨timer, -, gen, timers⟩ := scheduled
      refine ⟨?_, ?_, past_noted true _ sound.past fun _ _ => nofun⟩
      · simp only [gen, timers]
        exact sound.dated.succ.append sound.dated.lt_succ rfl
      · simp only [gen, timers, timer]
        intro t mem current
        rw [current]
        exact ⟨rfl, [], sys.log, rfl, nofun⟩
  | start choice =>
    cases steps
    exact sound.keep (sys.state.startLockedLabelled_schedule choice) rfl fun _ => nofun
  | stop now =>
    cases steps
    exact sound.ended (fun _ => nofun) (sys.state.finishLabelled_cases .stopped now)
  | abort now =>
    cases steps
    exact sound.ended (fun _ => nofun) (sys.state.finishLabelled_cases .aborted now)
  | cancel now =>
    cases steps
    exact sound.ended (fun _ => nofun) (sys.state.cancel_cases now)
  | fire index now =>
    obtain ⟨timers, fires, rfl⟩ := Option.map_eq_some_iff.mp steps
    refine ⟨sound.dated.fire fires, ?_, sound.past⟩
    intro u mem current
    obtain ⟨t, old, same, -⟩ := Timer.mem_of_fire fires mem
    rw [← same] at current ⊢
    exact sound.live t old current
  | callback index choice =>
    obtain ⟨⟨t, timers⟩, takes, rfl⟩ := Option.map_eq_some_iff.mp steps
    have dated := sound.dated.take takes
    have mem := Timer.mem_of_take takes
    dsimp only
    rcases ScenarioState.startScheduled_cases { sys.state with timers } t.gen choice with
      ⟨-, unchanged⟩ | ⟨current, outcome⟩
    · -- A stale callback.
      rw [unchanged]
      have nothing : entered ({ sys.state with timers } : ScenarioState P)
          { sys.state with timers } = false := decide_eq_false (lt_irrefl _)
      rw [nothing]
      exact ⟨dated, fun u inside => sound.live u (Timer.subset_of_take takes inside), sound.past⟩
    · have older := sound.dated.lt_of_take takes current
      have justified := (sound.live t mem current).2
      have past := past_noted (entered { sys.state with timers }
        (ScenarioState.startScheduled { sys.state with timers } t.gen choice))
        (.timerStarted t.gen) sound.past fun _ gen is => by
          rw [← ScenarioEvent.timerStarted.inj is]
          exact justified
      rcases outcome with same | released
      · simp only [ScenarioState.schedule, Prod.mk.injEq] at same
        obtain ⟨-, -, gen, rest⟩ := same
        refine ⟨?_, ?_, past⟩
        · simp only [gen, rest]
          exact dated
        · simp only [gen, rest]
          exact fun u inside is => absurd is (older u inside).ne
      · simp only [ScenarioState.schedule, Prod.mk.injEq] at released
        obtain ⟨-, -, gen, rest⟩ := released
        refine ⟨?_, ?_, past⟩
        · simp only [gen, rest]
          exact dated.succ
        · simp only [gen, rest]
          exact fun u inside is => absurd is (dated.lt_succ u inside).ne
  | others fleet =>
    cases steps
    exact ⟨sound.dated, sound.live, sound.past⟩

/-- `Submit` on a new controller. -/
def submit (id : String) (spec : ScenarioSpec P) (fleet : Fleet) (now : Instant) :
    ScenarioSystem P where
  state :=
    { controller :=
        { id, spec
          phase := .submitted
          transitions := [(.submitted, now)]
          startTimer := none
          scheduledAt := none
          scheduleGen := 0
          parts := []
          ledgers := []
          ledgerSeq := 0
          excluded := []
          excludedByReason := []
          emitting := false }
      timers := []
      fleet }
  log := []

theorem submit_sound (id : String) (spec : ScenarioSpec P) (fleet : Fleet) (now : Instant) :
    (submit id spec fleet now).Sound where
  dated := ⟨nofun, List.nodup_nil⟩
  live := nofun
  past _ _ suffix := nomatch List.suffix_nil.mp suffix

/-- **Scheduled starts that were withdrawn.** In every run of a submitted scenario, a start from a
timer has its schedule in the log, and no arm, schedule, finish or cancellation succeeded in between.
At most one timer can still start the scenario, and it is the pending one. An arm that is refused
changes nothing. -/
theorem withdrawn_schedules {id : String} {spec : ScenarioSpec P} {fleet : Fleet} {now : Instant}
    {actions : List ScenarioAction} {last : ScenarioSystem P}
    (runs : Runs.run step (submit id spec fleet now) actions = some last) :
    (∀ gen older, ScenarioEvent.timerStarted gen :: older <:+ last.log → Justified older gen) ∧
      last.state.timers.countP (·.gen = last.state.controller.scheduleGen) ≤ 1 ∧
      (∀ t ∈ last.state.timers, t.gen = last.state.controller.scheduleGen →
        last.state.controller.startTimer = some t.gen) ∧
      ∀ now err, (last.state.armReadiness now).2 = .error err →
        (last.state.armReadiness now).1 = last.state := by
  have sound : last.Sound :=
    Runs.always (fun _ _ _ sound steps => sound.sound_step steps) (submit_sound id spec fleet now)
      runs
  refine ⟨sound.past, sound.dated.countP_le_one, fun t mem is => (sound.live t mem is).1, ?_⟩
  intro now err refused
  rcases last.state.armReadiness_cases now with ⟨_, same⟩ | ⟨-, readiness, armed⟩
  · rw [same]
  · exact nomatch armed.symm.trans refused

/-- One device with a trap exporter, listed by the scenario. The scenario is armed, scheduled, armed
again and scheduled again; the callback of the first timer comes late and does nothing, that of the
second starts the scenario. -/
theorem withdrawn_schedules_late :
    ∃ (P : Platform) (spec : ScenarioSpec P) (fleet : Fleet) (actions : List ScenarioAction)
      (last : ScenarioSystem P), Runs.run step (submit "one" spec fleet 0) actions = some last ∧
        last.log = [.timerStarted 3, .scheduled 3, .armed, .scheduled 1, .armed] ∧
        last.state.controller.phase = .running ∧
        Justified [.scheduled 3, .armed, .scheduled 1, .armed] 3 := by
  let P : Platform := ⟨fun _ => none, Sorter.exchange, fun _ _ _ => none, fun _ _ _ => 1, 5⟩
  let spec : ScenarioSpec P := ⟨.snmpTrap, [Numeral.ascii "10.42.0.1"], [], none, 1, 60, by decide +kernel⟩
  let fleet : Fleet := ⟨[(Numeral.ascii "10.42.0.1", ⟨none, some none, none, none⟩)], by decide +kernel, by
    simp only [List.map_cons, List.map_nil, List.forall_mem_cons]
    exact ⟨⟨⟨170524673, by decide⟩, by decide +kernel⟩, nofun⟩⟩
  let actions : List ScenarioAction := [.armReadiness 0, .scheduleStart 5, .fire 0 6,
    .armReadiness 7, .scheduleStart 9, .fire 1 9, .callback 0 ⟨9, true, true⟩,
    .callback 0 ⟨9, true, true⟩]
  have outcome : (Runs.run step (submit "one" spec fleet 0) actions).map
      (fun last => (last.log, last.state.controller.phase)) =
        some ([.timerStarted 3, .scheduled 3, .armed, .scheduled 1, .armed], .running) := by
    decide +kernel
  obtain ⟨last, runs, seen⟩ := Option.map_eq_some_iff.mp outcome
  obtain ⟨log, running⟩ := Prod.mk.inj seen
  refine ⟨P, spec, fleet, actions, last, runs, log, running, ?_⟩
  refine (withdrawn_schedules runs).1 3 _ ?_
  rw [log]

end ScenarioSystem

end Nl6
