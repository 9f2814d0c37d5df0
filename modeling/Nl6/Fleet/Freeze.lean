import Nl6.Lib.Numeral
import Nl6.Lib.Threads

/-! # The frozen fleet

A running scenario freezes the fleet (`freezeFleet`), and no device is created or deleted until it
lets go. A create batch publishes `isCreatingDevices` before it checks the freeze, and `freezeFleet`
reads the flag in the critical section in which it takes hold: whichever comes first, the other one
sees it. The flag has one writer at a time, the holder of `createBatchGate`.
-/

namespace Nl6

/-- Where the holder of `createBatchGate` has arrived. -/
inductive CreateGate where
  | free
  /-- `ReloadResources` takes the gate as well. -/
  | reloading
  | entered
  /-- The flag is stored, and the freeze not checked yet. -/
  | published
  | creating
  | refused
  /-- The deferred reset of the flag has run. -/
  | returned
  deriving DecidableEq

/-- The devices by their ids, a number for each `*DeviceSimulator`, and who may change them. -/
structure Roster where
  devices : Bytes → Option Nat
  fleetFrozenBy : List Bytes
  isCreatingDevices : Bool
  gate : CreateGate

/-- The sections under `sm.mu`, the entry of a batch or of a reload, and what the holder of the gate
does: its next step, an early refusal, a device that it adds. -/
inductive FleetAction where
  | freezeFleet (scenarioID : Bytes)
  | unfreezeFleet (scenarioID : Bytes)
  | deleteDevice (id : Bytes)
  | deleteAllDevices
  | tryEnter (reload : Bool)
  | advance
  | refuse
  | create (id : Bytes) (device : Nat)
  deriving DecidableEq

namespace Roster

def freezeFleet (s : Roster) (scenarioID : Bytes) : Option Roster :=
  if s.isCreatingDevices then none
  else some { s with fleetFrozenBy := scenarioID :: s.fleetFrozenBy }

def deleteDevice (s : Roster) (id : Bytes) : Option Roster :=
  if s.fleetFrozenBy ≠ [] ∨ (s.devices id).isNone then none
  else some { s with devices := Function.update s.devices id none }

def deleteAllDevices (s : Roster) : Option Roster :=
  if s.fleetFrozenBy ≠ [] then none else some { s with devices := fun _ => none }

/-- `createDevicesWithOptionsLocked` around the creation, and what its wrapper defers. -/
def advance (s : Roster) : Option Roster :=
  match s.gate with
  | .free => none
  | .entered => some { s with isCreatingDevices := true, gate := .published }
  | .published => some { s with gate := if s.fleetFrozenBy = [] then .creating else .refused }
  | .creating | .refused => some { s with isCreatingDevices := false, gate := .returned }
  | .reloading | .returned => some { s with gate := .free }

def step (s : Roster) : FleetAction → Option Roster
  | .freezeFleet scenarioID => some ((s.freezeFleet scenarioID).getD s)
  | .unfreezeFleet scenarioID =>
    some { s with fleetFrozenBy := s.fleetFrozenBy.filter (· ≠ scenarioID) }
  | .deleteDevice id => some ((s.deleteDevice id).getD s)
  | .deleteAllDevices => some (s.deleteAllDevices.getD s)
  | .tryEnter reload =>
    if s.gate = .free then some { s with gate := if reload then .reloading else .entered } else none
  | .advance => s.advance
  | .refuse => if s.gate = .entered then some { s with gate := .free } else none
  | .create id device =>
    if s.gate = .creating then some { s with devices := Function.update s.devices id (some device) }
    else none

def initial : Roster := ⟨fun _ => none, [], false, .free⟩

/-- The flag says how far the holder of the gate is, and no batch creates in a frozen fleet. -/
structure Sound (s : Roster) : Prop where
  flag : s.isCreatingDevices = true ↔
    s.gate = .published ∨ s.gate = .creating ∨ s.gate = .refused
  exclusive : s.gate = .creating → s.fleetFrozenBy = []

variable {s s' : Roster} {action : FleetAction} {scenarioID : Bytes}

theorem Sound.step (sound : s.Sound) (steps : s.step action = some s') : s'.Sound := by
  obtain ⟨flag, exclusive⟩ := sound
  cases action with
  | freezeFleet | deleteDevice | deleteAllDevices =>
    cases steps
    constructor <;> grind [freezeFleet, deleteDevice, deleteAllDevices]
  | unfreezeFleet =>
    cases steps
    exact ⟨flag, fun creating => by simp [exclusive creating]⟩
  | advance | tryEnter | refuse | create =>
    constructor <;> grind [Roster.step, advance]

/-- Nothing but the release by the scenario itself ends its hold, and until then no step touches the
devices. -/
theorem Sound.frozen (sound : s.Sound) (held : scenarioID ∈ s.fleetFrozenBy)
    (other : action ≠ .unfreezeFleet scenarioID) (steps : s.step action = some s') :
    scenarioID ∈ s'.fleetFrozenBy ∧ s'.devices = s.devices := by
  have frozen : s.fleetFrozenBy ≠ [] := List.ne_nil_of_mem held
  cases action with
  | freezeFleet | unfreezeFleet =>
    cases steps
    grind [freezeFleet]
  | deleteDevice | deleteAllDevices =>
    cases steps
    simp [deleteDevice, deleteAllDevices, frozen, held]
  | advance | tryEnter | refuse => grind [Roster.step, advance]
  | create id device =>
    simp only [Roster.step] at steps
    split at steps
    · next creating => exact absurd (sound.exclusive creating) frozen
    · exact nomatch steps

theorem creating_step (creates : s.gate = .creating) (other : action ≠ .advance)
    (steps : s.step action = some s') : s'.gate = .creating := by
  cases action with
  | advance => exact absurd rfl other
  | _ => grind [Roster.step, freezeFleet, deleteDevice, deleteAllDevices]

/-- **A frozen fleet does not change** from a successful freeze to the release by the same scenario,
and a batch past its freeze check makes every freeze fail until it has returned. -/
theorem frozen_fleet_unchanged {front : List FleetAction}
    (reaches : Runs.run step initial front = some s) :
    (∀ scenarioID frozen back last, s.freezeFleet scenarioID = some frozen →
      Runs.Along step (fun _ action => action ≠ .unfreezeFleet scenarioID) frozen back →
      Runs.run step frozen back = some last → last.devices = frozen.devices) ∧
    ∀ back last, s.gate = .creating →
      Runs.Along step (fun _ action => action ≠ .advance) s back →
      Runs.run step s back = some last → ∀ scenarioID, last.freezeFleet scenarioID = none := by
  have sound : s.Sound := Runs.always (fun _ _ _ sound steps => Sound.step sound steps)
    ⟨by simp [initial], by simp [initial]⟩ reaches
  constructor
  · intro scenarioID frozen back last freezes along runs
    let Held (t : Roster) := t.Sound ∧ scenarioID ∈ t.fleetFrozenBy ∧ t.devices = frozen.devices
    have begins : Held frozen := by
      refine ⟨sound.step (?_ : s.step (.freezeFleet scenarioID) = _), ?_, rfl⟩
      all_goals grind [Roster.step, freezeFleet]
    refine (Runs.invariant (fun t action next (now : Held t) other steps => ?_) begins along runs).2.2
    obtain ⟨holds, kept⟩ := now.1.frozen now.2.1 other steps
    exact ⟨now.1.step steps, holds, kept.trans now.2.2⟩
  · intro back last creates along runs scenarioID
    obtain ⟨ends, creates⟩ := Runs.invariant
      (fun t action next (now : t.Sound ∧ t.gate = .creating) other steps =>
        ⟨now.1.step steps, creating_step now.2 other steps⟩) ⟨sound, creates⟩ along runs
    exact if_pos (ends.flag.mpr (.inr (.inl creates)))

theorem frozen_fleet_unchanged_shared :
    (∃ frozen last, initial.freezeFleet [1] = some frozen ∧
      Runs.run step frozen [.unfreezeFleet [2], .deleteAllDevices] = some last ∧
      last.devices = frozen.devices) ∧
    ∃ s, Runs.run step initial [.tryEnter false, .advance, .advance] = some s ∧
      s.freezeFleet [1] = none :=
  ⟨⟨_, _, rfl, rfl, (@frozen_fleet_unchanged initial [] rfl).1 [1] _
    [.unfreezeFleet [2], .deleteAllDevices] _ rfl (by decide) rfl⟩,
    _, rfl, (@frozen_fleet_unchanged _ [.tryEnter false, .advance, .advance] rfl).2 [] _ rfl
      trivial rfl [1]⟩

end Roster

end Nl6
