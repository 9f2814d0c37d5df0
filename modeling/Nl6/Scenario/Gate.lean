import Nl6.Flow.Datagram
import Nl6.Lib.Program
import Nl6.Oid.Compare

/-! # The scenario gate

A load-test scenario silences a device outside its window and counts what the device sends inside it.
Every exporter goes through the same check before it fires (scenario_gate.go): the participation
handle is loaded, `decide` looks at the published gate, the drain barrier admits the fire, and the
outcome is added to one of the counters of the participant's ledger.

The exporters are programs over the requests of `exporterRequests`: whatever they share with other
goroutines (the handle, the gate, the barrier, the counters, the pending INFORMs, clocks and the
socket) is a request, so that the same definition is run on its own and as one of several threads.
-/

namespace Nl6

open Program (Keeps)

/-- An instant, in nanoseconds since the zero time. -/
abbrev Instant : Type := Nat

inductive ScenarioPhase where
  | submitted
  | armed
  | running
  | stopped
  | canceled
  | aborted
  deriving DecidableEq, Repr

/-- `isTerminalPhase`. -/
def ScenarioPhase.isTerminal : ScenarioPhase → Bool
  | .stopped | .canceled | .aborted => true
  | .submitted | .armed | .running => false

/-- Which path attempts a fire. -/
inductive FireSource where
  | background
  | scenario
  | stateDriven
  | onDemand
  deriving DecidableEq, Repr

/-- The published gate. A gate without a window has the zero time for both bounds; a window is never
empty, since a scenario's window is validated to be positive. -/
structure GateState where
  phase : ScenarioPhase
  t0 : Instant
  t1 : Instant
  window : t1 = 0 ∨ t0 < t1
  deriving DecidableEq

/-- What the gate says to a fire. -/
inductive GateDecision where
  | proceed
  | suppressCounted
  | suppressSilent
  deriving DecidableEq, Repr

def scenarioSubWindowCount : Nat := 10

/-- The counters of a ledger that the funnels add to. -/
inductive Counter where
  | emitted
  | inWindow
  | drain
  | suppressedPreWindow
  | sendFailures
  | dropped
  | backgroundSuppressed
  | informsOriginated
  | subWindow (index : Fin scenarioSubWindowCount)
  deriving DecidableEq

/-- The counters an exporter keeps for itself. -/
inductive ExporterStat where
  | sent
  | sendFailures
  deriving DecidableEq, Repr

/-- What is handed to a socket. -/
inductive Pdu where
  | syslog (message : Bytes)
  | trap (message : Bytes)
  | flow (datagram : Datagram)
  deriving DecidableEq

/-- How many records of a scenario's ledger a socket write carries. -/
def Pdu.records : Pdu → Nat
  | .syslog _ | .trap _ => 1
  | .flow datagram => datagram.flowRecords.length

/-- How a socket write ended, and when. -/
structure WriteReturn where
  ok : Bool
  returned : Instant
  deriving DecidableEq, Repr

inductive ExporterOp where
  /-- Is the exporter shutting down? -/
  | closing
  /-- Is a participation handle installed? -/
  | loadPart
  /-- Is the fleet muted outside of scenarios? -/
  | fidelitySilent
  /-- Read the clock. -/
  | now
  /-- Read the wall clock that is stamped into datagrams. -/
  | wallClock
  | loadGate
  /-- `drainGate.admit`. -/
  | admitFire
  /-- The two halves of `drainGate.leave`. -/
  | wgDone
  | inflightDown
  | add (counter : Counter) (n : Nat)
  | stat (counter : ExporterStat)
  /-- Does the template resolve? -/
  | resolve
  /-- Is a stream to the collector open? -/
  | streamLive
  /-- Does the message encode, and to what? -/
  | encode
  | nextRequestID
  | registerPending (reqID : UInt32) (pdu : Bytes)
  /-- Take an INFORM that was never written back from the pending ones. -/
  | undoPending (reqID : UInt32)
  | write (pdu : Pdu)
  deriving DecidableEq

/-- The replies to the requests of an exporter. -/
@[reducible] def ExporterOp.Reply : ExporterOp → Type
  | .closing | .loadPart | .fidelitySilent | .admitFire | .resolve | .streamLive => Bool
  | .now => Instant
  | .wallClock => Int
  | .loadGate => Option GateState
  | .encode => Option Bytes
  | .nextRequestID => UInt32
  | .write _ => WriteReturn
  | .wgDone | .inflightDown | .add _ _ | .stat _ | .registerPending _ _ | .undoPending _ => Unit

abbrev exporterRequests : Requests := ⟨ExporterOp, ExporterOp.Reply⟩

/-- The replies where no participation handle is installed and nothing goes wrong. -/
def calmReplies : (op : ExporterOp) → op.Reply
  | .closing | .loadPart | .fidelitySilent | .admitFire => false
  | .resolve | .streamLive => true
  | .now => (0 : Nat)
  | .wallClock => (0 : Int)
  | .loadGate => none
  | .encode => some []
  | .nextRequestID => (1 : UInt32)
  | .write _ => ⟨true, 0⟩
  | .wgDone | .inflightDown | .add _ _ | .stat _ | .registerPending _ _ | .undoPending _ => ()

abbrev Exporter (α : Type) : Type := Program exporterRequests α

abbrev ExporterEvent : Type := exporterRequests.Event

/-- What a published gate says to a fire that is not a background fire. -/
def GateState.decision (gate : GateState) (src : FireSource) (t : Instant) : GateDecision :=
  match gate.phase with
  | .armed => if src = .scenario then .suppressSilent else .suppressCounted
  | .running => if t < gate.t1 then .proceed else .suppressSilent
  | .submitted | .stopped | .canceled | .aborted => .suppressSilent

namespace Exporter

def request (op : ExporterOp) : Exporter op.Reply := Program.perform (ι := exporterRequests) op

def add (counter : Counter) (n : Nat) : Exporter Unit := request (.add counter n)

def leave : Exporter Unit := do
  request .wgDone
  request .inflightDown

def fidelityMutesBackground (src : FireSource) : Exporter Bool := do
  let silent ← request .fidelitySilent
  return silent && (src == .background || src == .stateDriven)

def decide (src : FireSource) (t : Instant) : Exporter GateDecision := do
  match ← request .loadGate with
  | none => return .suppressSilent
  | some gate =>
    if src = .background then
      add .backgroundSuppressed 1
      return .suppressSilent
    else return gate.decision src t

end Exporter

/-- `time.Time.Sub`, which saturates. -/
def durationBetween (later earlier : Instant) : Int :=
  max (min ((later : Int) - earlier) (2 ^ 63 - 1)) (-2 ^ 63)

/-- `subWindowIndex`: the tenth of the window an instant falls in, clamped at both ends; `none` for a
window without extent. -/
def subWindowIndex (gate : GateState) (t : Instant) : Option (Fin scenarioSubWindowCount) :=
  let span := durationBetween gate.t1 gate.t0
  if span ≤ 0 then none
  else
    let off := max (durationBetween t gate.t0) 0
    let index := (int64 (off * scenarioSubWindowCount)).tdiv span
    some ⟨min index.toNat (scenarioSubWindowCount - 1), by unfold scenarioSubWindowCount; omega⟩

namespace Exporter

/-- `scenarioPart.classify`: whether an instant is in the window, and in which tenth of it. -/
def classify (t : Instant) : Exporter (Bool × Option (Fin scenarioSubWindowCount)) := do
  match ← request .loadGate with
  | none => return (false, none)
  | some gate => return if t < gate.t1 then (true, subWindowIndex gate t) else (false, none)

def addSubWindow (index : Option (Fin scenarioSubWindowCount)) (n : Nat) : Exporter Unit :=
  match index with
  | none => return ()
  | some index => add (.subWindow index) n

/-- `scenarioPart.bucketFor`: the counter for one record whose write returned. -/
def bucketFor (t : Instant) : Exporter Counter := do
  let (inWindow, index) ← classify t
  if inWindow then
    addSubWindow index 1
    return .inWindow
  else return .drain

def bucketFlowBatch (t : Instant) (n : Nat) : Exporter Unit := do
  let (inWindow, index) ← classify t
  if inWindow then
    addSubWindow index n
    add .inWindow n
  else add .drain n

/-! ### The requests of the pieces -/

section Requests

variable {P : ExporterOp → Prop}

theorem decide_only (loads : P .loadGate) {src : FireSource}
    (counts : src = .background → P (.add .backgroundSuppressed 1)) (t : Instant) :
    Keeps (.only P) () (Exporter.decide src t) fun _ _ => True := by
  refine ⟨loads, fun gate => ?_⟩
  cases gate with
  | none => trivial
  | some gate =>
    split_ifs with background
    · exact ⟨counts background, fun _ => trivial⟩
    · trivial

theorem classify_only (loads : P .loadGate) (t : Instant) :
    Keeps (.only P) () (classify t) fun _ _ => True := by
  refine ⟨loads, fun gate => ?_⟩
  cases gate <;> trivial

theorem addSubWindow_only (adds : ∀ counter n, P (.add counter n))
    (index : Option (Fin scenarioSubWindowCount)) (n : Nat) :
    Keeps (.only P) () (addSubWindow index n) fun _ _ => True := by
  cases index with
  | none => trivial
  | some index => exact ⟨adds _ _, fun _ => trivial⟩

end Requests

end Exporter

end Nl6
