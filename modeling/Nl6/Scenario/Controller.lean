import Nl6.Lib.Timers
import Nl6.Scenario.Gate
import Nl6.Scenario.Prefixes

/-! # The scenario controller

A scenario is armed, started at once or at a scheduled time, and stopped, aborted or cancelled.
Every method of `ScenarioController` holds the controller's mutex from its first statement to its
last, so here a method is a function from the state before it to the state after it, with its result;
what it reads of the rest of the process (the clock, whether the fleet can be frozen, whether a
scheduler can be built) is an argument.

Arming resolves the participants against the fleet, installs a participation handle on the exporter of
each of them by a compare-and-swap, and releases the handles of an earlier arm that it did not
install again. A map is a list of entries, visited in that order.
-/

namespace Nl6

/-! ### The fleet as a scenario sees it -/

inductive ScenarioProtocol where
  | syslog
  | netflow9
  | ipfix
  | gnmiDialout
  | snmpTrap
  | sflow
  | netflow5
  deriving DecidableEq, Repr

namespace ScenarioProtocol

def name : ScenarioProtocol → String
  | .syslog => "syslog"
  | .netflow9 => "netflow9"
  | .ipfix => "ipfix"
  | .gnmiDialout => "gnmi-dialout"
  | .snmpTrap => "snmp-trap"
  | .sflow => "sflow"
  | .netflow5 => "netflow5"

/-- `isFlowScenarioProtocol`. -/
def isFlow : ScenarioProtocol → Bool
  | .netflow9 | .ipfix | .sflow | .netflow5 => true
  | .syslog | .gnmiDialout | .snmpTrap => false

end ScenarioProtocol

/-- `scenarioPart`: the scenario that owns the handle, and the ledger it counts in. -/
structure ScenarioPart where
  owner : String
  ledger : Nat
  deriving DecidableEq, Repr

/-- What a scenario reads and writes of a flow exporter; `profile` stands for its flow profile and
timeouts. -/
structure FlowHandle where
  protocol : ScenarioProtocol
  profile : Nat
  scenPart : Option ScenarioPart
  scenDriven : Bool
  concurrentOverride : Int
  deriving DecidableEq, Repr

/-- The exporters of a device, each with its slot for a handle, and whether the dial-out stream is
established. -/
structure ScenarioDevice where
  flowExporter : Option FlowHandle
  trapExporter : Option (Option ScenarioPart)
  gnmiDialoutExporter : Option (Bool × Option ScenarioPart)
  syslogExporter : Option (Option ScenarioPart)
  deriving DecidableEq, Repr

/-- `devicesByIP`: its keys are distinct canonical dotted quads. -/
structure Fleet where
  devices : List (Bytes × ScenarioDevice)
  once : (devices.map (·.1)).Nodup
  addresses : ∀ ip ∈ devices.map (·.1), ∃ a, ip = dottedQuad a

namespace Fleet

def device (fleet : Fleet) (ip : Bytes) : Option ScenarioDevice := fleet.devices.lookup ip

theorem keys_map (devices : List (Bytes × ScenarioDevice)) (ip : Bytes) (dev : ScenarioDevice) :
    (devices.map fun entry => if entry.1 = ip then (entry.1, dev) else entry).map (·.1) =
      devices.map (·.1) := by
  rw [List.map_map]
  refine List.map_congr_left fun entry _ => ?_
  simp only [Function.comp_apply]
  split <;> rfl

def write (fleet : Fleet) (ip : Bytes) (dev : ScenarioDevice) : Fleet where
  devices := fleet.devices.map fun entry => if entry.1 = ip then (entry.1, dev) else entry
  once := by
    rw [keys_map]
    exact fleet.once
  addresses := by
    rw [keys_map]
    exact fleet.addresses

end Fleet

/-- What the libraries and the flow engine contribute: the reading of IPv6 addresses, the sort, and
the arithmetic of flow pacing. -/
structure Platform where
  parseIPv6 : Bytes → Option (Fin (2 ^ 128) × Bytes)
  sorter : Sorter
  /-- `flowRateReachable` of a profile at a rate and a sweep interval: why it is not, and a hint. -/
  flowRateReachable : Nat → ℚ → Int → Option (String × String)
  /-- `flowPacingTarget`. -/
  flowPacingTarget : Nat → ℚ → Int → Int
  /-- `effectiveFlowTickInterval`. -/
  effectiveFlowTickInterval : Int

variable {P : Platform}

/-- `Scenario`, with the part of its validation that arming relies on. -/
structure ScenarioSpec (P : Platform) where
  protocol : ScenarioProtocol
  participants : List Bytes
  participantsCIDR : List Bytes
  expectParticipants : Option Int
  rate : ℚ
  window : Int
  valid : validatePrefixSelector P.parseIPv6 P.sorter participantsCIDR = none

def scenarioMaxParticipants : Nat := 100000

/-- `scenarioFlowTickInterval`: a twentieth of the window, if that is shorter, and no shorter than
50 ms. -/
def scenarioFlowTickInterval (fleet window : Int) : Int :=
  let interval := if window > 0 ∧ window / 20 < fleet then window / 20 else fleet
  if interval < 50000000 then 50000000 else interval

/-- `prefixMatchesLocked`, which returns for a validated scenario. -/
def ScenarioSpec.prefixMatches (spec : ScenarioSpec P) (fleet : Fleet) : List Bytes :=
  match prefixMatchesLocked P.parseIPv6 P.sorter spec.participantsCIDR spec.participants
      (fleet.devices.map (·.1)) with
  | .ok matched => matched
  | .error _ => []

/-! ### Handles -/

/-- `claimScenPart`: a free slot or one of the same owner takes the handle; otherwise the holder. -/
def claimScenPart (slot : Option ScenarioPart) (part : ScenarioPart) :
    Except String ScenarioPart :=
  match slot with
  | none => .ok part
  | some cur => if cur.owner = part.owner then .ok part else .error cur.owner

def releaseScenPart (slot : Option ScenarioPart) (owner : String) : Option ScenarioPart :=
  match slot with
  | none => none
  | some cur => if cur.owner ≠ owner then some cur else none

/-- A claim as `installScenPart` reports it. -/
def claim (slot : Option ScenarioPart) (part : ScenarioPart) :
    Except (String × String) ScenarioPart :=
  match claimScenPart slot part with
  | .ok part => .ok part
  | .error holder => .error ("device claimed by scenario " ++ holder,
      "stop or delete scenario " ++ holder ++ ", or exclude this device from this scenario")

namespace ScenarioSpec

/-- `installScenPart`: the device afterwards, and why the handle was not installed. -/
def installScenPart (spec : ScenarioSpec P) (dev : ScenarioDevice) (part : ScenarioPart) :
    ScenarioDevice × Option (String × String) :=
  match spec.protocol with
  | .netflow9 | .ipfix | .sflow | .netflow5 =>
    match dev.flowExporter with
    | none => (dev, some ("device has no " ++ spec.protocol.name ++ " flow exporter",
        "enable flow export with protocol " ++ spec.protocol.name ++
          " (seed flag or per-device flow block)"))
    | some fe =>
      if fe.protocol ≠ spec.protocol then
        (dev, some ("device has no " ++ spec.protocol.name ++ " flow exporter",
          "enable flow export with protocol " ++ spec.protocol.name ++
            " (seed flag or per-device flow block)"))
      else
        let sweep := scenarioFlowTickInterval P.effectiveFlowTickInterval spec.window
        match P.flowRateReachable fe.profile spec.rate sweep with
        | some refusal => (dev, some refusal)
        | none =>
          match claim fe.scenPart part with
          | .error refusal => (dev, some refusal)
          | .ok part =>
            ({ dev with
              flowExporter := some
                { fe with
                  scenPart := some part
                  concurrentOverride :=
                    P.flowPacingTarget fe.profile spec.rate sweep } }, none)
  | .snmpTrap =>
    match dev.trapExporter with
    | none => (dev, some ("device has no snmp trap exporter",
        "enable trap export on the device (seed flag or per-device traps block)"))
    | some slot =>
      match claim slot part with
      | .error refusal => (dev, some refusal)
      | .ok part => ({ dev with trapExporter := some (some part) }, none)
  | .gnmiDialout =>
    match dev.gnmiDialoutExporter with
    | none => (dev, some ("device has no gnmi dial-out exporter",
        "enable gNMI dial-out on the device (seed flag or per-device gnmi_dialout block)"))
    | some (live, slot) =>
      if live = false then
        (dev, some ("gnmi dial-out stream not established (collector unreachable?)",
          "ensure the dial-out collector is reachable, then re-arm"))
      else
        match claim slot part with
        | .error refusal => (dev, some refusal)
        | .ok part => ({ dev with gnmiDialoutExporter := some (live, some part) }, none)
  | .syslog =>
    match dev.syslogExporter with
    | none => (dev, some ("device has no syslog exporter",
        "enable syslog export on the device (seed flag or per-device block)"))
    | some slot =>
      match claim slot part with
      | .error refusal => (dev, some refusal)
      | .ok part => ({ dev with syslogExporter := some (some part) }, none)

/-- `scenPartSlot`: the slot a scenario competes for. -/
def scenPartSlot (spec : ScenarioSpec P) (dev : ScenarioDevice) : Option (Option ScenarioPart) :=
  match spec.protocol with
  | .netflow9 | .ipfix | .sflow | .netflow5 =>
    match dev.flowExporter with
    | none => none
    | some fe => if fe.protocol = spec.protocol then some fe.scenPart else none
  | .snmpTrap => dev.trapExporter
  | .gnmiDialout => dev.gnmiDialoutExporter.map (·.2)
  | .syslog => dev.syslogExporter

/-- `claimOwner`; `none` for the empty string. -/
def claimOwner (spec : ScenarioSpec P) (dev : ScenarioDevice) : Option String :=
  (spec.scenPartSlot dev).join.map (·.owner)

/-- `detachScenPart`: a handle is released by its owner only, from whatever flow exporter holds it;
a flow exporter is handed back to the fleet first. -/
def detachScenPart (spec : ScenarioSpec P) (owner : String) (dev : ScenarioDevice) :
    ScenarioDevice :=
  match spec.protocol with
  | .netflow9 | .ipfix | .sflow | .netflow5 =>
    match dev.flowExporter with
    | none => dev
    | some fe =>
      let fe := if fe.scenPart.any (·.owner = owner) then
        { fe with scenDriven := false, concurrentOverride := 0 } else fe
      { dev with
        flowExporter := some { fe with scenPart := releaseScenPart fe.scenPart owner } }
  | .snmpTrap =>
    { dev with trapExporter := dev.trapExporter.map (releaseScenPart · owner) }
  | .gnmiDialout =>
    { dev with gnmiDialoutExporter :=
        dev.gnmiDialoutExporter.map fun (live, slot) => (live, releaseScenPart slot owner) }
  | .syslog =>
    { dev with syslogExporter := dev.syslogExporter.map (releaseScenPart · owner) }

def selectorSummary (spec : ScenarioSpec P) : String :=
  if spec.participantsCIDR.length = 0 then toString spec.participants.length
  else toString spec.participants.length ++ " explicit + " ++
    toString spec.participantsCIDR.length ++ " prefixes"

end ScenarioSpec

/-! ### The controller -/

structure ExcludedParticipant where
  device : Bytes
  reason : String
  remediationHint : String
  deriving DecidableEq, Repr

/-- `scenarioMaxExcludedRows` and `scenarioExcludedArmRows`. -/
def scenarioMaxExcludedRows : Nat := 1000

@[inherit_doc scenarioMaxExcludedRows]
def scenarioExcludedArmRows : Nat := 900

/-- `ScenarioController`. A timer is named by the generation its callback has captured; ledgers are
named by numbers, `ledgerSeq` of which were given out. -/
structure ScenarioController (P : Platform) where
  id : String
  spec : ScenarioSpec P
  phase : ScenarioPhase
  transitions : List (ScenarioPhase × Instant)
  startTimer : Option Nat
  scheduledAt : Option Instant
  scheduleGen : Nat
  parts : List (Bytes × ScenarioPart)
  ledgers : List (Bytes × Nat)
  ledgerSeq : Nat
  excluded : List ExcludedParticipant
  excludedByReason : List (String × Nat)
  emitting : Bool

/-- The refusals of `transitionLocked`. -/
inductive TransitionError where
  | terminal (phase : ScenarioPhase)
  | invalid (from' to' : ScenarioPhase)
  deriving DecidableEq, Repr

/-- The transitions that change the phase. -/
def ScenarioPhase.mayBecome : ScenarioPhase → ScenarioPhase → Bool
  | .submitted, .armed => true
  | .armed, .running | .armed, .canceled => true
  | .running, .stopped | .running, .aborted => true
  | _, _ => false

/-- `expectationDiagnosis`; `none` for the empty string. -/
def expectationDiagnosis (expected : Option Int) (armed excludedTotal : Nat) : Option String :=
  match expected with
  | none => none
  | some want =>
    if want = armed then none
    else
      let found := "expected " ++ toString want ++ " participants, " ++ toString armed ++ " armed: "
      if (armed : Int) > want then
        some (found ++ toString (armed - want) ++ " more than declared — the fleet holds " ++
          "devices the selectors match but the expectation does not account for")
      else if excludedTotal = 0 then
        some (found ++ toString (want - armed) ++ " missing and nothing was excluded — the " ++
          "selectors matched fewer live devices than expected (check prefix sizes in " ++
          "participants_cidr, and the fleet itself)")
      else
        some (found ++ toString (want - armed) ++ " missing, " ++ toString excludedTotal ++
          " excluded — see excluded_by_reason for the causes")

def setEntry {α : Type} (key : Bytes) (value : α) (map : List (Bytes × α)) : List (Bytes × α) :=
  map.filter (fun entry => entry.1 ≠ key) ++ [(key, value)]

def deleteEntry {α : Type} (key : Bytes) (map : List (Bytes × α)) : List (Bytes × α) :=
  map.filter fun entry => entry.1 ≠ key

namespace ScenarioController

/-- `transitionLocked`. Re-entry of a phase that is not terminal is accepted and changes nothing. -/
def transitionLocked (c : ScenarioController P) (to' : ScenarioPhase) (now : Instant) :
    Except TransitionError (ScenarioController P) :=
  if c.phase = to' then
    if c.phase.isTerminal then .error (.terminal c.phase) else .ok c
  else if c.phase.mayBecome to' then
    .ok { c with phase := to', transitions := c.transitions ++ [(to', now)] }
  else .error (.invalid c.phase to')

def recordExcluded (c : ScenarioController P) (device : Bytes) (refusal : String × String)
    (rowBudget : Nat) : ScenarioController P :=
  { c with
    excludedByReason :=
      match c.excludedByReason.lookup refusal.1 with
      | none => c.excludedByReason ++ [(refusal.1, 1)]
      | some n => c.excludedByReason.map fun entry =>
        if entry.1 = refusal.1 then (entry.1, n + 1) else entry
    excluded :=
      if c.excluded.length < rowBudget then c.excluded ++ [⟨device, refusal.1, refusal.2⟩]
      else c.excluded }

/-- `sumReasonCounts`. -/
def excludedTotal (c : ScenarioController P) : Nat := (c.excludedByReason.map (·.2)).sum

end ScenarioController

/-- The controller, its timers that have not run their callbacks, and the fleet. -/
structure ScenarioState (P : Platform) where
  controller : ScenarioController P
  timers : List (Timer Unit)
  fleet : Fleet

namespace ScenarioState

/-- Withdraw a pending scheduled start, as `ArmReadiness`, `finishLabelled` and `Cancel` do. -/
def withdraw (s : ScenarioState P) : ScenarioState P :=
  match s.controller.startTimer with
  | none => s
  | some gen =>
    { s with
      controller :=
        { s.controller with
          startTimer := none
          scheduledAt := none
          scheduleGen := s.controller.scheduleGen + 1 }
      timers := Timer.stop gen s.timers }

/-- Release the handles of some participants on the devices that exist. -/
def detachAll (s : ScenarioState P) : List Bytes → ScenarioState P
  | [] => s
  | ip :: rest =>
    match s.fleet.device ip with
    | none => s.detachAll rest
    | some dev =>
      { s with
        fleet := s.fleet.write ip
          (s.controller.spec.detachScenPart s.controller.id dev) }.detachAll rest

/-! ### `ArmReadiness` -/

inductive ArmError where
  | overCap (resolved : Nat)
  | claimed (conflicts : List (Bytes × String))
  | transition (err : TransitionError)
  deriving DecidableEq, Repr

structure ArmReadiness where
  phase : ScenarioPhase
  armed : Nat
  excluded : List ExcludedParticipant
  excludedTotal : Nat
  excludedByReason : List (String × Nat)
  scheduleCancelled : Bool
  expected : Int
  mismatch : Option String
  deriving DecidableEq, Repr

/-- Install the handle of one participant. A ledger of an earlier arm is carried forward. -/
def installOne (prevLedgers : List (Bytes × Nat)) (s : ScenarioState P) (ip : Bytes)
    (dev : ScenarioDevice) : ScenarioState P :=
  let c := s.controller
  let (led, seq) := match prevLedgers.lookup ip with
    | some led => (led, c.ledgerSeq)
    | none => (c.ledgerSeq, c.ledgerSeq + 1)
  let c := { c with ledgerSeq := seq }
  let part : ScenarioPart := ⟨c.id, led⟩
  match c.spec.installScenPart dev part with
  | (_, some refusal) =>
    { s with controller := c.recordExcluded ip refusal scenarioExcludedArmRows }
  | (dev, none) =>
    { s with
      controller :=
        { c with parts := setEntry ip part c.parts, ledgers := setEntry ip led c.ledgers }
      fleet := s.fleet.write ip dev }

/-- The loop over the listed participants. -/
def installListed (prevLedgers : List (Bytes × Nat)) : ScenarioState P → List Bytes → ScenarioState P
  | s, [] => s
  | s, ip :: rest =>
    match s.fleet.device ip with
    | none =>
      let c := s.controller.recordExcluded ip ("device not found",
        "create the device before arming, or remove it from the scenario")
        scenarioExcludedArmRows
      installListed prevLedgers { s with controller := c } rest
    | some dev => installListed prevLedgers (installOne prevLedgers s ip dev) rest

/-- The loop over the devices that a prefix matched. -/
def installMatched (prevLedgers : List (Bytes × Nat)) :
    ScenarioState P → List Bytes → ScenarioState P
  | s, [] => s
  | s, ip :: rest =>
    match s.fleet.device ip with
    | none => installMatched prevLedgers s rest
    | some dev => installMatched prevLedgers (installOne prevLedgers s ip dev) rest

/-- `conflictingClaimsLocked`. -/
def conflictingClaims (s : ScenarioState P) (ips : List Bytes) : List (Bytes × String) :=
  ips.filterMap fun ip =>
    match s.fleet.device ip with
    | none => none
    | some dev =>
      match s.controller.spec.claimOwner dev with
      | none => none
      | some holder => if holder ≠ "" ∧ holder ≠ s.controller.id then some (ip, holder) else none

/-- The number of live devices that the selectors resolve to, if that is above the ceiling. It is
counted only if a prefix has matched. -/
def overCap (s : ScenarioState P) (prefixMatches : List Bytes) : Option Nat :=
  if prefixMatches.length > 0 then
    let explicitHits := s.controller.spec.participants.countP fun ip => (s.fleet.device ip).isSome
    let resolved := explicitHits + prefixMatches.length
    if resolved > scenarioMaxParticipants then some resolved else none
  else none

/-- What an arm does once it was admitted: the pending schedule is withdrawn, the derived view is
rebuilt, and the handles it did not install again are released. -/
def rebuild (s : ScenarioState P) (prefixMatches : List Bytes) : ScenarioState P :=
  let s := s.withdraw
  let prevParts := s.controller.parts
  let prevLedgers := s.controller.ledgers
  let s := { s with
    controller :=
      { s.controller with parts := [], ledgers := [], excluded := [], excludedByReason := [] } }
  let s := installListed prevLedgers s s.controller.spec.participants
  let s := installMatched prevLedgers s prefixMatches
  s.detachAll ((prevParts.map (·.1)).filter fun ip => (s.controller.parts.lookup ip).isNone)

def armReadiness (s : ScenarioState P) (now : Instant) :
    ScenarioState P × Except ArmError ArmReadiness :=
  let hadSchedule := s.controller.scheduledAt.isSome
  let prefixMatches := s.controller.spec.prefixMatches s.fleet
  match s.overCap prefixMatches with
  | some resolved => (s, .error (.overCap resolved))
  | none =>
    let conflicts := s.conflictingClaims (s.controller.spec.participants ++ prefixMatches)
    if conflicts.length > 0 then (s, .error (.claimed conflicts))
    else
      match s.controller.transitionLocked .armed now with
      | .error err => (s, .error (.transition err))
      | .ok c =>
        let s := { s with controller := c }.rebuild prefixMatches
        let armed := s.controller.parts.length
        let expected := s.controller.spec.expectParticipants
        (s, .ok
          { phase := s.controller.phase
            armed
            excluded := s.controller.excluded
            excludedTotal := s.controller.excludedTotal
            excludedByReason := s.controller.excludedByReason
            scheduleCancelled := hadSchedule && s.controller.scheduledAt.isNone
            expected := expected.getD 0
            mismatch := expectationDiagnosis expected armed s.controller.excludedTotal })

/-! ### Start -/

/-- What a start depends on beside the state: the clock, whether `freezeFleet` succeeds, and whether
the scheduler can be built. -/
structure StartChoice where
  now : Instant
  freezes : Bool
  builds : Bool
  deriving DecidableEq, Repr

inductive StartError where
  | armFirst (phase : ScenarioPhase)
  | noneArmed (selectors : String)
  | expectation (diagnosis : String)
  | freeze
  | allDeleted
  | transition (err : TransitionError)
  | scheduler
  deriving DecidableEq, Repr

/-- Participants that are gone or whose handle cannot be installed again are dropped; the others are
counted. -/
def prune : ScenarioState P → Nat → List (Bytes × ScenarioPart) → ScenarioState P × Nat
  | s, registered, [] => (s, registered)
  | s, registered, (ip, part) :: rest =>
    let c := s.controller
    let dropped := { c with parts := deleteEntry ip c.parts, ledgers := deleteEntry ip c.ledgers }
    match s.fleet.device ip with
    | none =>
      let c := dropped.recordExcluded ip ("device deleted between arm and start",
        "re-arm the scenario after the fleet is stable") scenarioMaxExcludedRows
      prune { s with controller := c } registered rest
    | some dev =>
      match c.spec.installScenPart dev part with
      | (dev, none) => prune { s with fleet := s.fleet.write ip dev } (registered + 1) rest
      | (dev, some refusal) =>
        prune
          { s with
            controller := dropped.recordExcluded ip refusal scenarioMaxExcludedRows
            fleet := s.fleet.write ip (c.spec.detachScenPart c.id dev) } registered rest

/-- `startScenarioFlowTicker` marks the participants as driven by the scenario. -/
def drive : ScenarioState P → List (Bytes × ScenarioPart) → ScenarioState P
  | s, [] => s
  | s, (ip, _) :: rest =>
    match s.fleet.device ip with
    | some dev =>
      let dev := { dev with
        flowExporter := dev.flowExporter.map fun fe => { fe with scenDriven := true } }
      drive { s with fleet := s.fleet.write ip dev } rest
    | none => drive s rest

/-- The start once the fleet is frozen and the participants are pruned. -/
def launch (s : ScenarioState P) (choice : StartChoice) : ScenarioState P × Option StartError :=
  match s.controller.transitionLocked .running choice.now with
  | .error err => (s, some (.transition err))
  | .ok c =>
    if c.spec.protocol = .syslog ∧ choice.builds = false then
      -- `rollbackStartLocked`: the phase is restored, the log of transitions is not.
      ({ s with controller := { c with phase := .armed } }, some .scheduler)
    else
      let s := { s with controller := c }
      let s := if c.spec.protocol.isFlow then s.drive c.parts else s
      ({ s with controller := { s.controller with emitting := true } }, none)

def startLockedLabelled (s : ScenarioState P) (choice : StartChoice) :
    ScenarioState P × Option StartError :=
  let c := s.controller
  if c.phase ≠ .armed then (s, some (.armFirst c.phase))
  else if c.parts.length = 0 then (s, some (.noneArmed c.spec.selectorSummary))
  else
    match expectationDiagnosis c.spec.expectParticipants c.parts.length c.excludedTotal with
    | some diagnosis => (s, some (.expectation diagnosis))
    | none =>
      if choice.freezes = false then (s, some .freeze)
      else
        let (s, registered) := s.prune 0 c.parts
        if registered = 0 then (s, some .allDeleted)
        else
          match expectationDiagnosis c.spec.expectParticipants registered
              s.controller.excludedTotal with
          | some diagnosis => (s, some (.expectation diagnosis))
          | none => s.launch choice

/-! ### Schedules -/

/-- The refusals of `ScheduleStart`. -/
inductive ScheduleError where
  | armFirst (phase : ScenarioPhase)
  | noneArmed (selectors : String)
  | expectation (diagnosis : String)
  | already (scheduledAt : Option Instant)
  deriving DecidableEq, Repr

def scheduleStart (s : ScenarioState P) (at' : Instant) : ScenarioState P × Option ScheduleError :=
  let c := s.controller
  if c.phase ≠ .armed then (s, some (.armFirst c.phase))
  else if c.parts.length = 0 then (s, some (.noneArmed c.spec.selectorSummary))
  else
    match expectationDiagnosis c.spec.expectParticipants c.parts.length c.excludedTotal with
    | some diagnosis => (s, some (.expectation diagnosis))
    | none =>
      if c.startTimer.isSome then (s, some (.already c.scheduledAt))
      else
        let gen := c.scheduleGen + 1
        ({ s with
          controller :=
            { c with scheduledAt := some at', scheduleGen := gen, startTimer := some gen }
          timers := s.timers ++ [⟨gen, at', false, ()⟩] }, none)

/-- `startScheduled`, for the schedule of a generation. -/
def startScheduled (s : ScenarioState P) (gen : Nat) (choice : StartChoice) : ScenarioState P :=
  if gen ≠ s.controller.scheduleGen then s
  else
    match s.startLockedLabelled choice with
    | (s, none) => s
    | (s, some _) =>
      if gen = s.controller.scheduleGen then
        { s with
          controller :=
            { s.controller with
              startTimer := none
              scheduledAt := none
              scheduleGen := s.controller.scheduleGen + 1 } }
      else s

/-! ### The end of a scenario -/

/-- `finishLabelled`, for `Stop` and `Abort`: the joins, the drain barrier and the report are left
out. -/
def finishLabelled (s : ScenarioState P) (to' : ScenarioPhase) (now : Instant) :
    ScenarioState P × Option TransitionError :=
  match s.controller.transitionLocked to' now with
  | .error err => (s, some err)
  | .ok c =>
    let s := { s with controller := c }.withdraw
    let s := { s with controller := { s.controller with emitting := false } }
    (s.detachAll (s.controller.parts.map (·.1)), none)

def cancel (s : ScenarioState P) (now : Instant) : ScenarioState P × Option TransitionError :=
  match s.controller.transitionLocked .canceled now with
  | .error err => (s, some err)
  | .ok c =>
    let s := { s with controller := c }.withdraw
    (s.detachAll (s.controller.parts.map (·.1)), none)

end ScenarioState

end Nl6
