import Nl6.Engine.Run
import Nl6.Lib.Program

/-! # Interface-state requests over REST

`mutateInterfaceState` is the body of the oper-status and admin-status handlers: it looks the
interface up, writes the leaf, broadcasts what moved, and for a timed request schedules an
auto-revert. `scheduleAutoRevert` counts the reverts of a device against a cap, takes the place of
the pending revert of the same leaf, and starts a goroutine. The functions are programs over the
requests they make of the manager, the state engines and each other's timers; what several of them
do at once is the subject of `Nl6.Engine.Reverts`.

Here a request has the manager to itself. The cap is checked after the leaf was written, so a request
that is refused there has already taken effect: `refused_iff`.
-/

namespace Nl6

open Program

structure StateSnapshot where
  oper : Nat
  link : Nat
  admin : Nat
  lastChangeNs : Nat
  found : Bool
  deriving DecidableEq, Repr

def InterfaceState.snapshot (s : InterfaceState) (ifIndex : Int) : StateSnapshot :=
  match s.slotOf ifIndex with
  | none => ⟨0, 0, 0, 0, false⟩
  | some slot =>
    ⟨s.oper slot, (s.fields slot).1, (s.fields slot).2.1, s.lastChangeNs ifIndex, true⟩

structure RevertKey where
  ip : String
  ifIndex : Int
  isOper : Bool
  deriving DecidableEq, Repr

/-- The call of the engine that writes a leaf. -/
def RevertKey.call (key : RevertKey) (value : Nat) : Call :=
  if key.isOper then .setLinkState key.ifIndex value else .applyAdminStatus key.ifIndex value

def maxRevertTimersPerDevice : Int := 100

/-- The errors of `mutateInterfaceState`. -/
inductive IfStateError where
  /-- `ErrIfStateDeviceNotFound`. -/
  | deviceNotFound
  | noMetricsCycler (ip : String)
  | noStateEngine (ip : String)
  /-- `ErrIfStateIfIndexInvalid`. -/
  | ifIndexInvalid (ifIndex : Int) (valid : List Int)
  /-- `ErrIfStateRevertCapExceeded`. -/
  | revertCapExceeded
  deriving DecidableEq, Repr

def ifStatusName : Nat → String
  | 1 => "UP"
  | 2 => "DOWN"
  | 3 => "TESTING"
  | 4 => "UNKNOWN"
  | 5 => "DORMANT"
  | 6 => "NOT_PRESENT"
  | 7 => "LOWER_LAYER_DOWN"
  | v => toString v

structure StateChangeOutcome where
  link : String
  operStatus : String
  adminStatus : String
  masked : Bool
  deriving DecidableEq, Repr

/-- The zero `stateChangeOutcome`. -/
def StateChangeOutcome.zero : StateChangeOutcome := ⟨"", "", "", false⟩

/-- What a request reads of the counters of a device: the interfaces it knows, and whether there is
a state engine. -/
structure IfCounters where
  ifIndices : List Int
  hasState : Bool
  deriving DecidableEq, Repr

/-- What a request reads of a device. -/
structure ApiDevice where
  metricsCycler : Option (Option IfCounters)
  deriving DecidableEq, Repr

/-! ### The programs -/

/-- What the functions ask of the manager, the engines and the timers. -/
inductive IfStateOp where
  /-- `FindDeviceByIP`, with the pointers that lead to the engine. -/
  | findDevice (ip : String)
  | snapshot (ip : String) (ifIndex : Int)
  | setLinkState (ip : String) (ifIndex : Int) (newLink : Nat)
  | applyAdminStatus (ip : String) (ifIndex : Int) (target : Nat)
  | broadcast (ip : String) (event : StateChange)
  /-- `revertCounterFor(ip).Add`. -/
  | addCount (ip : String) (delta : Int)
  /-- A new `revertTimer`, its timer running. -/
  | newTimer (key : RevertKey) (delay : Int)
  /-- `sm.revertTimers.Swap`. -/
  | swap (key : RevertKey) (rt : Nat)
  /-- `rt.timer.Stop()`. -/
  | stopTimer (rt : Nat)
  /-- `rt.done.Store(true)`. -/
  | storeDone (rt : Nat)
  | closeStop (rt : Nat)
  /-- The `go` statement. -/
  | start (key : RevertKey) (rt revertTo : Nat)
  /-- The `select` of the goroutine: whether the timer was chosen. -/
  | select (rt : Nat)
  /-- `rt.done.CompareAndSwap(false, true)`. -/
  | compareAndSwap (rt : Nat)
  /-- `sm.revertTimers.CompareAndDelete`. -/
  | compareAndDelete (key : RevertKey) (rt : Nat)
  /-- `close(rt.finished)`. -/
  | finish (rt : Nat)
  /-- The keys a `sm.revertTimers.Range` visits. -/
  | range
  /-- The value a `Range` finds at a key. -/
  | load (key : RevertKey)
  /-- The call returns. -/
  | returns
  deriving DecidableEq

@[reducible] def IfStateOp.Reply : IfStateOp → Type
  | .findDevice _ => Option ApiDevice
  | .snapshot _ _ => StateSnapshot
  | .setLinkState _ _ _ => InterfaceState.LinkMutation × List StateChange
  | .applyAdminStatus _ _ _ => List StateChange
  | .addCount _ _ => Int
  | .newTimer _ _ => Nat
  | .swap _ _ | .load _ => Option Nat
  | .select _ | .compareAndSwap _ => Bool
  | .range => List RevertKey
  | .broadcast _ _ | .stopTimer _ | .storeDone _ | .closeStop _ | .start _ _ _
  | .compareAndDelete _ _ | .finish _ | .returns => Unit

def ifStateRequests : Requests := ⟨IfStateOp, IfStateOp.Reply⟩

abbrev IfStating (α : Type) : Type := Program ifStateRequests α

namespace IfStating

def request (op : IfStateOp) : IfStating op.Reply := perform (ι := ifStateRequests) op

def broadcastAll (ip : String) : List StateChange → IfStating Unit
  | [] => return ()
  | event :: rest => do
      request (.broadcast ip event)
      broadcastAll ip rest

/-- The mutation that a request and its revert have in common. -/
def writeLeaf (key : RevertKey) (value : Nat) : IfStating Unit := do
  if key.isOper then
    let (res, events) ← request (.setLinkState key.ip key.ifIndex value)
    if res = .movedVisible then broadcastAll key.ip events else return ()
  else
    let events ← request (.applyAdminStatus key.ip key.ifIndex value)
    broadcastAll key.ip events

/-- Cancel the revert that a new one has taken the place of. -/
def supersede : Option Nat → IfStating Unit
  | none => return ()
  | some old => do
      request (.stopTimer old)
      request (.storeDone old)
      request (.closeStop old)

/-- `scheduleAutoRevert` below the cap. -/
def registerRevert (key : RevertKey) (revertTo : Nat) (delay : Int) :
    IfStating (Option IfStateError) := do
  let rt ← request (.newTimer key delay)
  let prev ← request (.swap key rt)
  supersede prev
  request (.start key rt revertTo)
  return none

def scheduleAutoRevert (key : RevertKey) (revertTo : Nat) (delay : Int) :
    IfStating (Option IfStateError) := do
  let count ← request (.addCount key.ip 1)
  if count > maxRevertTimersPerDevice then
    let _ ← request (.addCount key.ip (-1))
    return some .revertCapExceeded
  else registerRevert key revertTo delay

/-- The outcome a request reports. -/
def outcomeOf (isOper : Bool) (post : StateSnapshot) : StateChangeOutcome where
  link := ifStatusName post.link
  operStatus := ifStatusName post.oper
  adminStatus := ifStatusName post.admin
  masked := isOper && (post.admin ≠ adminUp || post.oper ≠ deriveOper post.admin post.link)

/-- `mutateInterfaceState` of an interface that was found. -/
def mutateKnown (key : RevertKey) (target : UInt8) (revertAfter : Int) :
    IfStating (StateChangeOutcome × Option IfStateError) := do
  let snap ← request (.snapshot key.ip key.ifIndex)
  -- The link, not the derived status: the revert restores what was stored.
  let preSnap := if key.isOper then snap.link else snap.admin
  writeLeaf key target.toNat
  let post ← request (.snapshot key.ip key.ifIndex)
  let outcome := outcomeOf key.isOper post
  if revertAfter > 0 then
    let err ← scheduleAutoRevert key preSnap revertAfter
    return (outcome, err)
  else return (outcome, none)

/-- `mutateInterfaceState` once the device was looked up. -/
def mutateOn (key : RevertKey) (target : UInt8) (revertAfter : Int) :
    Option ApiDevice → IfStating (StateChangeOutcome × Option IfStateError)
  | none => return (.zero, some .deviceNotFound)
  | some ⟨none⟩ => return (.zero, some (.noMetricsCycler key.ip))
  | some ⟨some none⟩ => return (.zero, some (.noStateEngine key.ip))
  | some ⟨some (some ic)⟩ =>
    if ic.hasState then
      if key.ifIndex ∈ ic.ifIndices then mutateKnown key target revertAfter
      else
        return (.zero, some (.ifIndexInvalid key.ifIndex (ic.ifIndices.mergeSort (· ≤ ·))))
    else return (.zero, some (.noStateEngine key.ip))

def mutateInterfaceState (key : RevertKey) (target : UInt8) (revertAfter : Int) :
    IfStating (StateChangeOutcome × Option IfStateError) := do
  let device ← request (.findDevice key.ip)
  mutateOn key target revertAfter device

def exitRevert (key : RevertKey) (rt : Nat) : IfStating Unit := do
  let _ ← request (.addCount key.ip (-1))
  request (.compareAndDelete key rt)
  request (.finish rt)

/-- The goroutine of `scheduleAutoRevert`. -/
def autoRevert (key : RevertKey) (rt revertTo : Nat) : IfStating Unit := do
  let fired ← request (.select rt)
  if fired then
    let won ← request (.compareAndSwap rt)
    if won then
      writeLeaf key revertTo
      exitRevert key rt
    else exitRevert key rt
  else
    request (.storeDone rt)
    exitRevert key rt

/-- The visits of `cancelAutoRevertsForDevice`. -/
def cancelEntries (ip : String) : List RevertKey → IfStating Unit
  | [] => return ()
  | key :: rest => do
      match ← request (.load key) with
      | none => cancelEntries ip rest
      | some rt =>
        if key.ip = ip then
          request (.stopTimer rt)
          request (.storeDone rt)
          request (.closeStop rt)
          request (.compareAndDelete key rt)
          cancelEntries ip rest
        else cancelEntries ip rest

def cancelAutoRevertsForDevice (ip : String) : IfStating Unit := do
  let keys ← request .range
  cancelEntries ip keys

end IfStating

/-! ### The shared state -/

/-- `revertTimer`. `halted` says that its timer was stopped before the deadline, `stopped` that its
`stop` channel is closed. -/
structure RevertTimer where
  key : RevertKey
  deadline : Int
  halted : Bool
  stopped : Bool
  done : Bool
  finished : Bool
  deriving DecidableEq, Repr

/-- What the state leaves open: the clock, the branch a `select` takes when both are ready, and the
order of a `Range`. -/
structure IfStateChoice where
  now : Nat
  timer : Bool
  keys : List RevertKey

/-- The part of the manager that the functions work on. `engines` are the state engines of the
devices, `counts` the reverts counted per device, `entries` the map `revertTimers`, `started` the
goroutines that have not run yet. -/
structure IfStateStore where
  devices : String → Option ApiDevice
  engines : String → InterfaceState
  counts : String → Int
  entries : RevertKey → Option Nat
  timers : List RevertTimer
  started : List (RevertKey × Nat × Nat)
  broadcasts : List (String × StateChange)

namespace IfStateStore

def onTimer (s : IfStateStore) (rt : Nat) (change : RevertTimer → RevertTimer) : IfStateStore :=
  { s with timers := s.timers.modify rt change }

/-- Write a leaf; the events are left to the caller. -/
def mutated (s : IfStateStore) (ip : String) (engine : InterfaceState) : IfStateStore :=
  { s with engines := Function.update s.engines ip engine }

/-- Serve a request; `none` if it has to wait. -/
def serve (s : IfStateStore) (op : IfStateOp) (choice : IfStateChoice) :
    Option (IfStateStore × op.Reply) :=
  match op with
  | .findDevice ip => some (s, s.devices ip)
  | .snapshot ip ifIndex => some (s, (s.engines ip).snapshot ifIndex)
  | .setLinkState ip ifIndex newLink =>
    let (res, engine, events) := (s.engines ip).setLinkState ifIndex newLink choice.now
    some (s.mutated ip engine, (res, events))
  | .applyAdminStatus ip ifIndex target =>
    let (engine, events) := (s.engines ip).applyAdminStatus ifIndex target choice.now
    some (s.mutated ip engine, events)
  | .broadcast ip event => some ({ s with broadcasts := s.broadcasts ++ [(ip, event)] }, ())
  | .addCount ip delta =>
    some ({ s with counts := Function.update s.counts ip (s.counts ip + delta) },
      s.counts ip + delta)
  | .newTimer key delay =>
    some ({ s with
      timers := s.timers ++ [⟨key, choice.now + delay, false, false, false, false⟩] },
      s.timers.length)
  | .swap key rt =>
    some ({ s with entries := Function.update s.entries key (some rt) }, s.entries key)
  | .stopTimer rt =>
    some (s.onTimer rt fun t => { t with halted := t.halted || choice.now < t.deadline }, ())
  | .storeDone rt => some (s.onTimer rt fun t => { t with done := true }, ())
  | .closeStop rt => some (s.onTimer rt fun t => { t with stopped := true }, ())
  | .start key rt revertTo =>
    some ({ s with started := s.started ++ [(key, rt, revertTo)] }, ())
  | .select rt =>
    match s.timers[rt]? with
    | none => none
    | some t =>
      if choice.timer then
        if t.deadline ≤ choice.now ∧ t.halted = false then some (s, true) else none
      else if t.stopped then some (s, false) else none
  | .compareAndSwap rt =>
    match s.timers[rt]? with
    | none => none
    | some t =>
      if t.done then some (s, false)
      else some (s.onTimer rt fun t => { t with done := true }, true)
  | .compareAndDelete key rt =>
    if s.entries key = some rt then
      some ({ s with entries := Function.update s.entries key none }, ())
    else some (s, ())
  | .finish rt => some (s.onTimer rt fun t => { t with finished := true }, ())
  | .range =>
    -- Every key that is in the map is visited.
    if s.timers.all fun t => s.entries t.key = none || t.key ∈ choice.keys then
      some (s, choice.keys)
    else none
  | .load key => some (s, s.entries key)
  | .returns => some (s, ())

/-- A request on its own. -/
abbrev exec {α : Type} (choose : Nat → IfStateChoice) (n : Nat) (s : IfStateStore)
    (p : IfStating α) : Option (Nat × IfStateStore × α) :=
  Program.exec (ι := ifStateRequests) serve choose n s p

/-- The state once a leaf was written and the events were broadcast. -/
def called (s : IfStateStore) (ip : String) (call : Call) (nowNs : Nat) : IfStateStore :=
  { s with
    engines := Function.update s.engines ip ((s.engines ip).step call nowNs).1
    broadcasts := s.broadcasts ++ ((s.engines ip).step call nowNs).2.map fun e => (ip, e) }

end IfStateStore

/-! ### What a write moves -/

namespace InterfaceState

theorem setLinkState_events (s : InterfaceState) {ifIndex newLink : Int} {nowNs : Nat}
    (hidden : (s.setLinkState ifIndex newLink nowNs).1 ≠ .movedVisible) :
    (s.setLinkState ifIndex newLink nowNs).2.2 = [] := by
  unfold setLinkState at hidden ⊢
  cases slot : s.slotOf ifIndex with
  | none => rfl
  | some slot =>
    simp only [slot] at hidden ⊢
    split_ifs at hidden ⊢
    · rfl
    · rfl
    · rfl
    · exact absurd rfl hidden

theorem cascadeChildren_stored (s : InterfaceState) (wasParent nowParent atNs relNs : Nat)
    (listed : List (Fin s.maxIfIndex)) (slots : Fin s.maxIfIndex → Nat) (c : Fin s.maxIfIndex) :
    let after := slotFields ((s.cascadeChildren wasParent nowParent atNs relNs listed slots).1 c)
    after.1 = (slotFields (slots c)).1 ∧ after.2.1 = (slotFields (slots c)).2.1 := by
  induction listed generalizing slots with
  | nil => exact ⟨rfl, rfl⟩
  | cons child rest ih =>
    simp only [cascadeChildren]
    split_ifs
    · exact ih slots
    · obtain ⟨link, admin⟩ := ih (Function.update slots child
        (packState (slotFields (slots child)).1 (slotFields (slots child)).2.1 relNs))
      rw [link, admin]
      by_cases here : c = child
      · rw [here, Function.update_self,
          slotFields_packState relNs (validFields_slotFields (slots child))]
        exact ⟨rfl, rfl⟩
      · rw [Function.update_of_ne here]
        exact ⟨rfl, rfl⟩

theorem write_stored (s : InterfaceState) {slot : Fin s.maxIfIndex} {link admin nowNs : Nat}
    (valid : ValidFields link admin) :
    let next := (s.write slot link admin nowNs).1
    next.linkState (slot + 1) = link ∧ next.adminStatus (slot + 1) = admin := by
  have stored : ∀ slots : Fin s.maxIfIndex → Nat,
      (slotFields (slots slot)).1 = link ∧ (slotFields (slots slot)).2.1 = admin →
        ({ s with slots } : InterfaceState).linkState (slot + 1) = link ∧
          ({ s with slots } : InterfaceState).adminStatus (slot + 1) = admin := by
    intro slots same
    have here : ({ s with slots } : InterfaceState).slotOf ((slot : Int) + 1) = some slot :=
      slotOf_eq_some.mpr rfl
    simp only [linkState, adminStatus, here]
    exact same
  have packed : ∀ relNs, (slotFields (Function.update s.slots slot (packState link admin relNs)
      slot)).1 = link ∧ (slotFields (Function.update s.slots slot (packState link admin relNs)
        slot)).2.1 = admin := by
    intro relNs
    rw [Function.update_self, slotFields_packState relNs valid]
    exact ⟨rfl, rfl⟩
  by_cases still : s.oper slot = deriveChildOper admin link (s.parentOper slot)
  · simp only [write, ne_eq, still, not_true_eq_false, ↓reduceIte]
    exact stored _ (packed _)
  · simp only [write, ne_eq, still, not_false_eq_true, ↓reduceIte]
    apply stored
    obtain ⟨sameLink, sameAdmin⟩ := s.cascadeChildren_stored _ _ _ _ (s.children slot) _ slot
    rw [sameLink, sameAdmin]
    exact packed _

/-- A call has something to write: the engine has the interface, the value is in range and the leaf
does not hold it yet. -/
def wouldWrite (s : InterfaceState) (call : Call) : Prop :=
  ∃ slot, s.slotOf call.ifIndex = some slot ∧
    call.writes (s.fields slot).1 (s.fields slot).2.1 ≠ ((s.fields slot).1, (s.fields slot).2.1)

theorem step_of_not_wouldWrite {s : InterfaceState} {call : Call} (still : ¬ s.wouldWrite call)
    (nowNs : Nat) : s.step call nowNs = (s, []) := by
  rw [step_eq]
  cases found : s.slotOf call.ifIndex with
  | none => rfl
  | some slot =>
    have same : call.writes (s.fields slot).1 (s.fields slot).2.1 =
        ((s.fields slot).1, (s.fields slot).2.1) := by
      by_contra writes
      exact still ⟨slot, found, writes⟩
    exact if_pos same

theorem step_ne_of_wouldWrite {s : InterfaceState} {call : Call} (would : s.wouldWrite call)
    (nowNs : Nat) : (s.step call nowNs).1 ≠ s := by
  obtain ⟨slot, found, writes⟩ := would
  rw [step_eq, found]
  simp only [if_neg writes]
  intro unchanged
  have valid : ValidFields (s.fields slot).1 (s.fields slot).2.1 := validFields_slotFields _
  obtain ⟨link, admin⟩ := @write_stored s slot _ _ nowNs (call.validFields_writes valid)
  have here : s.slotOf ((slot : Int) + 1) = some slot := slotOf_eq_some.mpr rfl
  rw [unchanged] at link admin
  simp only [linkState, adminStatus, here] at link admin
  exact writes (Prod.ext link.symm admin.symm)

end InterfaceState

/-! ### A request on its own -/

namespace IfStateStore

variable {choose : Nat → IfStateChoice} {n : Nat} {s : IfStateStore} {key : RevertKey}

theorem exec_broadcastAll (ip : String) (events : List StateChange) :
    exec choose n s (IfStating.broadcastAll ip events) =
      some (n + events.length,
        { s with broadcasts := s.broadcasts ++ events.map fun e => (ip, e) }, ()) := by
  induction events generalizing n s with
  | nil =>
    rw [List.map_nil, List.append_nil]
    rfl
  | cons event rest ih =>
    refine (ih (n := n + 1)
      (s := { s with broadcasts := s.broadcasts ++ [(ip, event)] })).trans ?_
    simp [Nat.add_assoc, Nat.add_comm 1]

theorem exec_writeLeaf (value : Nat) :
    ∃ n', exec choose n s (IfStating.writeLeaf key value) =
      some (n', s.called key.ip (key.call value) (choose n).now, ()) := by
  cases leaf : key.isOper with
  | false =>
    have begins : exec choose n s (IfStating.writeLeaf key value) =
        exec choose (n + 1)
          (s.mutated key.ip
            ((s.engines key.ip).applyAdminStatus key.ifIndex value (choose n).now).1)
          (IfStating.broadcastAll key.ip
            ((s.engines key.ip).applyAdminStatus key.ifIndex value (choose n).now).2) := by
      rw [IfStating.writeLeaf, leaf]
      rfl
    have ends : key.call value = .applyAdminStatus key.ifIndex value := by
      rw [RevertKey.call, leaf]
      rfl
    rw [begins, exec_broadcastAll, ends]
    exact ⟨_, rfl⟩
  | true =>
    have begins : exec choose n s (IfStating.writeLeaf key value) =
        exec choose (n + 1)
          (s.mutated key.ip
            ((s.engines key.ip).setLinkState key.ifIndex value (choose n).now).2.1)
          (if ((s.engines key.ip).setLinkState key.ifIndex value (choose n).now).1 =
              .movedVisible then
            IfStating.broadcastAll key.ip
              ((s.engines key.ip).setLinkState key.ifIndex value (choose n).now).2.2
          else return ()) := by
      rw [IfStating.writeLeaf, leaf]
      rfl
    have ends : key.call value = .setLinkState key.ifIndex value := by
      rw [RevertKey.call, leaf]
      rfl
    rw [begins, ends]
    split_ifs with visible
    · rw [exec_broadcastAll]
      exact ⟨_, rfl⟩
    · refine ⟨n + 1, ?_⟩
      have silent := (s.engines key.ip).setLinkState_events visible
      simp only [called, InterfaceState.step, silent, List.map_nil, List.append_nil]
      rfl

/-- A request gets past its look-ups: the device has a state engine and knows the interface. -/
def finds (s : IfStateStore) (key : RevertKey) : Bool :=
  match s.devices key.ip with
  | some ⟨some (some ic)⟩ => ic.hasState && key.ifIndex ∈ ic.ifIndices
  | _ => false

theorem exec_mutateInterfaceState (target : UInt8) (revertAfter : Int) :
    exec choose n s (IfStating.mutateInterfaceState key target revertAfter) =
      exec choose (n + 1) s (IfStating.mutateOn key target revertAfter (s.devices key.ip)) := rfl

theorem exec_not_found (missing : s.finds key = false) (target : UInt8) (revertAfter : Int) :
    ∃ outcome err, exec choose n s (IfStating.mutateInterfaceState key target revertAfter) =
      some (n + 1, s, outcome, some err) := by
  rw [exec_mutateInterfaceState]
  unfold finds at missing
  match s.devices key.ip, missing with
  | none, _ => exact ⟨_, _, rfl⟩
  | some ⟨none⟩, _ => exact ⟨_, _, rfl⟩
  | some ⟨some none⟩, _ => exact ⟨_, _, rfl⟩
  | some ⟨some (some ic)⟩, missing =>
    simp only [Bool.and_eq_false_imp, decide_eq_false_iff_not] at missing
    simp only [IfStating.mutateOn]
    by_cases engine : ic.hasState = true
    · rw [if_pos engine, if_neg (missing engine)]
      exact ⟨_, _, rfl⟩
    · rw [if_neg engine]
      exact ⟨_, _, rfl⟩

theorem exec_found (found : s.finds key = true) (target : UInt8) (revertAfter : Int) :
    exec choose n s (IfStating.mutateInterfaceState key target revertAfter) =
      exec choose (n + 1) s (IfStating.mutateKnown key target revertAfter) := by
  rw [exec_mutateInterfaceState]
  unfold finds at found
  match s.devices key.ip, found with
  | some ⟨some (some ic)⟩, found =>
    obtain ⟨engine, known⟩ := Bool.and_eq_true_iff.mp found
    rw [IfStating.mutateOn, if_pos engine, if_pos (of_decide_eq_true known)]

/-- A request writes its leaf first, and schedules the revert then. -/
theorem exec_mutateKnown (target : UInt8) (revertAfter : Int) :
    ∃ n' outcome revertTo,
      exec choose n s (IfStating.mutateKnown key target revertAfter) =
        exec choose n' (s.called key.ip (key.call target.toNat) (choose (n + 1)).now)
          (if revertAfter > 0 then do
            let err ← IfStating.scheduleAutoRevert key revertTo revertAfter
            return (outcome, err)
          else return (outcome, none)) := by
  obtain ⟨n', written⟩ := @exec_writeLeaf choose (n + 1) s key target.toNat
  let snap := (s.engines key.ip).snapshot key.ifIndex
  let next := s.called key.ip (key.call target.toNat) (choose (n + 1)).now
  refine ⟨n' + 1, IfStating.outcomeOf key.isOper ((next.engines key.ip).snapshot key.ifIndex),
    if key.isOper then snap.link else snap.admin, ?_⟩
  exact exec_bind written _

theorem exec_schedule_full (full : maxRevertTimersPerDevice ≤ s.counts key.ip) (revertTo : Nat)
    (delay : Int) :
    exec choose n s (IfStating.scheduleAutoRevert key revertTo delay) =
      some (n + 2, s, some .revertCapExceeded) := by
  have exceeds : s.counts key.ip + 1 > maxRevertTimersPerDevice := by omega
  have begins : exec choose n s (IfStating.scheduleAutoRevert key revertTo delay) =
      exec choose (n + 1)
        { s with counts := Function.update s.counts key.ip (s.counts key.ip + 1) }
        (if s.counts key.ip + 1 > maxRevertTimersPerDevice then do
          let _ ← IfStating.request (.addCount key.ip (-1))
          return some .revertCapExceeded
        else IfStating.registerRevert key revertTo delay) := rfl
  have back : ({ s with
      counts := Function.update (Function.update s.counts key.ip (s.counts key.ip + 1)) key.ip
        (Function.update s.counts key.ip (s.counts key.ip + 1) key.ip + -1) } : IfStateStore) =
      s := by
    rw [Function.update_self, Function.update_idem, Int.add_neg_cancel_right,
      Function.update_eq_self]
  rw [begins, if_pos exceeds]
  exact congrArg (fun s => some (n + 2, s, some IfStateError.revertCapExceeded)) back

theorem exec_schedule_room (room : s.counts key.ip < maxRevertTimersPerDevice) (revertTo : Nat)
    (delay : Int) :
    ∃ n' s', exec choose n s (IfStating.scheduleAutoRevert key revertTo delay) =
      some (n', s', none) := by
  have fits : ¬ s.counts key.ip + 1 > maxRevertTimersPerDevice := by omega
  have begins : exec choose n s (IfStating.scheduleAutoRevert key revertTo delay) =
      exec choose (n + 1)
        { s with counts := Function.update s.counts key.ip (s.counts key.ip + 1) }
        (if s.counts key.ip + 1 > maxRevertTimersPerDevice then do
          let _ ← IfStating.request (.addCount key.ip (-1))
          return some .revertCapExceeded
        else IfStating.registerRevert key revertTo delay) := rfl
  let counted : IfStateStore :=
    { s with counts := Function.update s.counts key.ip (s.counts key.ip + 1) }
  let timer : RevertTimer := ⟨key, (choose (n + 1)).now + delay, false, false, false, false⟩
  have registers : exec choose (n + 1) counted (IfStating.registerRevert key revertTo delay) =
      exec choose (n + 3)
        { counted with
          timers := s.timers ++ [timer]
          entries := Function.update s.entries key (some s.timers.length) }
        (do
          IfStating.supersede (s.entries key)
          IfStating.request (.start key s.timers.length revertTo)
          return none) := rfl
  rw [begins, if_neg fits, registers]
  cases s.entries key with
  | none => exact ⟨_, _, rfl⟩
  | some old => exact ⟨_, _, rfl⟩

/-- **Refused requests.** A request returns, and one that returns an error has changed nothing,
exactly if it was refused by its look-ups or had nothing to write. -/
theorem refused_iff (choose : Nat → IfStateChoice) (s : IfStateStore) (key : RevertKey)
    (target : UInt8) (revertAfter : Int) :
    ∃ n s' outcome err,
      exec choose 0 s (IfStating.mutateInterfaceState key target revertAfter) =
        some (n, s', outcome, err) ∧
      (err ≠ none →
        (s' = s ↔ ¬ (s.finds key = true ∧ (s.engines key.ip).wouldWrite (key.call target.toNat)))) := by
  cases found : s.finds key with
  | false =>
    obtain ⟨outcome, err, refused⟩ :=
      @exec_not_found choose 0 s key found target revertAfter
    exact ⟨_, _, _, _, refused, fun _ => iff_of_true rfl (fun reached => nomatch reached.1)⟩
  | true =>
    obtain ⟨n', outcome, revertTo, known⟩ :=
      @exec_mutateKnown choose 1 s key target revertAfter
    rw [exec_found found, known]
    generalize written : s.called key.ip (key.call target.toNat) (choose 2).now = next
    by_cases timed : revertAfter > 0
    · rw [if_pos timed]
      by_cases full : maxRevertTimersPerDevice ≤ next.counts key.ip
      · refine ⟨n' + 2, next, outcome, some .revertCapExceeded, ?_, fun _ => ?_⟩
        · exact exec_bind (exec_schedule_full full revertTo revertAfter) _
        · rw [← written]
          simp only [true_and]
          constructor
          · intro unchanged moving
            have engine := congrFun (congrArg engines unchanged) key.ip
            simp only [called, Function.update_self] at engine
            exact InterfaceState.step_ne_of_wouldWrite moving _ engine
          · intro still
            rw [called, InterfaceState.step_of_not_wouldWrite still, Function.update_eq_self,
              List.map_nil, List.append_nil]
      · obtain ⟨n'', s', registered⟩ := @exec_schedule_room choose n' next key
          (lt_of_not_ge full) revertTo revertAfter
        refine ⟨n'', s', outcome, none, ?_, fun refused => absurd rfl refused⟩
        exact exec_bind registered _
    · rw [if_neg timed]
      exact ⟨n', next, outcome, none, rfl, fun refused => absurd rfl refused⟩

/-- One interface that is up, on a device with a given number of pending reverts. -/
def oneInterface (pending : Int) : IfStateStore where
  devices ip := if ip = "10.0.0.1" then some ⟨some (some ⟨[1], true⟩)⟩ else none
  engines _ :=
    { maxIfIndex := 1
      slots := fun _ => packState operUpStatus adminUp 0
      bootTimeUnixNs := 0
      parent := fun _ => none
      children := fun _ => []
      children_iff := by simp }
  counts ip := if ip = "10.0.0.1" then pending else 0
  entries _ := none
  timers := []
  started := []
  broadcasts := []

/-- Nothing else goes on, and the clock stands still. -/
def undisturbed : Nat → IfStateChoice := fun _ => ⟨5, true, []⟩

theorem refused_iff_unknownDevice :
    ∃ n s' outcome,
      exec undisturbed 0 (oneInterface 0)
        (IfStating.mutateInterfaceState ⟨"10.0.0.2", 1, true⟩ 2 60000000000) =
          some (n, s', outcome, some .deviceNotFound) ∧ s' = oneInterface 0 := by
  obtain ⟨n, s', outcome, err, returned, unchanged⟩ :=
    refused_iff undisturbed (oneInterface 0) ⟨"10.0.0.2", 1, true⟩ 2 60000000000
  have evaluated : exec undisturbed 0 (oneInterface 0)
      (IfStating.mutateInterfaceState ⟨"10.0.0.2", 1, true⟩ 2 60000000000) =
        some (1, oneInterface 0, .zero, some .deviceNotFound) := rfl
  obtain ⟨rfl, rfl, rfl, rfl⟩ := returned
  refine ⟨_, _, _, evaluated, (unchanged (Option.some_ne_none _)).mpr ?_⟩
  rintro ⟨found, -⟩
  exact absurd found (by decide)

/-- **A refused request that took effect.** On a device at its cap the request is answered with an
error, and the link is down and an event was broadcast. -/
theorem refused_request_moves_link :
    ∃ n s' outcome,
      exec undisturbed 0 (oneInterface maxRevertTimersPerDevice)
        (IfStating.mutateInterfaceState ⟨"10.0.0.1", 1, true⟩ 2 60000000000) =
          some (n, s', outcome, some .revertCapExceeded) ∧
      ((oneInterface maxRevertTimersPerDevice).engines "10.0.0.1").linkState 1 = operUpStatus ∧
      (s'.engines "10.0.0.1").linkState 1 = operDown ∧ s'.broadcasts.length = 1 := by
  refine ⟨_, _, _, rfl, ?_⟩
  decide

end IfStateStore

end Nl6
