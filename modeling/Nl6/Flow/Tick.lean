import Nl6.Flow.Encoders
import Nl6.Scenario.Gate

/-! # A tick of a flow exporter

`FlowExporter.Tick` (flow_exporter.go): the gate of a scenario first, then four loops that share the
buffer, the sequence number and the statistics. The flow loop paginates the expired records, the
counters loop sends the sFlow counter samples, and the two table loops send the interface option table
and the application table.

The flow cache is outside of the model: the records it has expired are an argument of the tick, as are
the snapshots of the counter sources. Each loop runs for as many turns as its records allow; a tick
whose loops had not ended by then would be `none`.
-/

namespace Nl6

/-- What an exporter is configured with, and what it carries from tick to tick. -/
structure FlowExporter where
  encoder : FlowEncoder
  domainID : UInt32
  subAgentID : UInt32 := 0
  startTime : Instant
  templateInterval : Int
  concurrentFlows : Int
  optionShape : Option FlowOptionShape := none
  optionIfaces : List FlowOptionIface := []
  seqNo : UInt32 := 0
  lastTempl : Option Instant := none
  deriving DecidableEq, Repr

/-- `minLinkMTU`: no smaller MTU can be configured. -/
def minLinkMTU : Nat := 576

/-- What a tick finds: the records the cache expired, one snapshot for each counter source, and the
MTU that the datagram budget is derived from. -/
structure TickInput where
  now : Instant
  expired : List FlowRecord
  snapshots : List (List CounterRecord) := []
  mtu : Nat
  mtu_valid : minLinkMTU ≤ mtu
  collectorIPv4 : Bool := true
  connected : Bool := true
  deriving DecidableEq, Repr

structure FlowTickStats where
  packetsSent : Nat := 0
  bytesSent : Nat := 0
  recordsSent : Nat := 0
  sendFailures : Nat := 0
  lastTemplateMs : Int := 0
  deriving DecidableEq, Repr

def udpHeaderBytes : Nat := 8
def ipv4HeaderBytes : Nat := 20
def ipv6HeaderBytes : Nat := 40

/-- `flowPayloadBudget`, which the pooled buffer is cut to. -/
def TickInput.budget (input : TickInput) : Nat :=
  input.mtu - (if input.collectorIPv4 then ipv4HeaderBytes else ipv6HeaderBytes) - udpHeaderBytes

theorem TickInput.le_budget (input : TickInput) : 528 ≤ input.budget := by
  have valid := input.mtu_valid
  unfold minLinkMTU at valid
  unfold TickInput.budget ipv4HeaderBytes ipv6HeaderBytes udpHeaderBytes
  split <;> omega

def unixMilli (t : Instant) : Int := ((t : Int) - 62135596800 * 10 ^ 9) / 10 ^ 6

namespace FlowExporter

/-- The uptime that is stamped into datagrams. -/
def uptimeMs (fe : FlowExporter) (now : Instant) : UInt32 :=
  UInt32.ofInt ((durationBetween now fe.startTime).tdiv (10 ^ 6))

/-- A template is due: none was sent, or the last one is too old. -/
def templateDue (fe : FlowExporter) (now : Instant) : Bool :=
  match fe.lastTempl with
  | none => true
  | some last => decide (fe.templateInterval ≤ durationBetween now last)

/-- The sampling rate that sFlow claims. -/
def samplingRate (fe : FlowExporter) : UInt32 :=
  let rate := UInt32.ofInt (fe.concurrentFlows * syntheticSamplingRateMultiplier)
  if rate = 0 then 1 else rate

end FlowExporter

namespace FlowTickStats

/-- Account for a datagram whose write returned. -/
def sent (stats : FlowTickStats) (size records : Nat) : FlowTickStats :=
  { stats with
    packetsSent := stats.packetsSent + 1
    bytesSent := stats.bytesSent + size
    recordsSent := stats.recordsSent + records }

/-- Account for records or datagrams that were not sent. -/
def failed (stats : FlowTickStats) (n : Nat) : FlowTickStats :=
  { stats with sendFailures := stats.sendFailures + n }

/-- Account for a datagram by the outcome of its write. -/
def wrote (stats : FlowTickStats) (ok : Bool) (size records : Nat) : FlowTickStats :=
  if ok then stats.sent size records else stats.failed 1

end FlowTickStats

/-- The octets in front of the records, with the template when it is due. -/
def FlowEncoder.overhead (encoder : FlowEncoder) (template : Bool) : Nat :=
  encoder.packetSizes.1 + if template then encoder.packetSizes.2.1 else 0

/-- The number of records a batch of the flow loop may have, from the sizes the encoder states; zero
if not even one fits. -/
def FlowEncoder.batchCapacity (encoder : FlowEncoder) (overhead length : Nat) : Nat :=
  let perRec := if 0 < encoder.maxRecordSize then encoder.maxRecordSize else encoder.packetSizes.2.2
  if overhead + perRec ≤ length then
    let fit := (length - overhead) / perRec
    let padded := if 0 < fit ∧ length < overhead + fit * perRec + encoder.trailingPadBytes fit then
      fit - 1 else fit
    if 0 < encoder.maxRecordsPerDatagram ∧ encoder.maxRecordsPerDatagram < padded then
      encoder.maxRecordsPerDatagram
    else padded
  else 0

structure FlowLoop where
  seqNo : UInt32
  lastTempl : Option Instant
  stats : FlowTickStats
  expired : List FlowRecord
  sendTemplate : Bool
  deriving DecidableEq, Repr

/-- What a table loop and the counters loop work on. -/
structure RowLoop (Row : Type) where
  seqNo : UInt32
  stats : FlowTickStats
  remaining : List Row
  deriving DecidableEq, Repr

namespace FlowExporter

open Exporter
open Program (Keeps)

variable (fe : FlowExporter) (input : TickInput)

/-- What an encoder is handed. -/
def exportHeader (seqNo : UInt32) (wall : Int) : ExportHeader :=
  ⟨fe.domainID, seqNo, fe.uptimeMs input.now, wall⟩

def encodeBatch (h : ExportHeader) (batch : List FlowRecord) (template : Bool) : Encoded :=
  match fe.encoder with
  | .netflow5 => encodeNetFlow5 h batch input.budget
  | .netflow9 => encodeNetFlow9 h batch template input.budget
  | .ipfix => encodeIPFIX h batch template input.budget
  | .ipfixAVC catalog => (encodeMeasured catalog h batch template input.budget).map (·.datagram)
  | .sflow => encodeFlowDatagram h fe.subAgentID fe.samplingRate batch input.budget

/-- The ledger of a participant after a datagram with `n` records. The instant is the tick's. -/
def countBatch (scenActive : Bool) (now : Instant) (ok : Bool) (n : Nat) : Exporter Unit :=
  if scenActive && n != 0 then do
    add .emitted n
    if ok then bucketFlowBatch now n else add .sendFailures n
  else return ()

/-- The ledger of a participant after records that fit no datagram. -/
def countOversize (scenActive : Bool) (n : Nat) : Exporter Unit :=
  if scenActive then do
    add .emitted n
    add .sendFailures n
  else return ()

/-- The ledger of a participant whose records the gate withholds. -/
def countSuppressed (n : Nat) : Exporter Unit :=
  if 0 < n then add .backgroundSuppressed n else return ()

/-- The ledger of a participant whose records the drain barrier refuses. -/
def countRefused (n : Nat) : Exporter Unit :=
  if 0 < n then do
    add .emitted n
    add .dropped n
  else return ()

theorem countSuppressed_only {P : ExporterOp → Prop} {n : Nat}
    (adds : P (.add .backgroundSuppressed n)) :
    Keeps (.only P) () (countSuppressed n) fun _ _ => True := by
  unfold countSuppressed
  split_ifs
  · exact ⟨adds, fun _ => trivial⟩
  · trivial

theorem countRefused_only {P : ExporterOp → Prop} {n : Nat} (counts : P (.add .emitted n))
    (drops : P (.add .dropped n)) : Keeps (.only P) () (countRefused n) fun _ _ => True := by
  unfold countRefused
  split_ifs
  · exact ⟨counts, fun _ => ⟨drops, fun _ => trivial⟩⟩
  · trivial

def afterWrite (loop : FlowLoop) (ok : Bool) (d : Datagram) (batch rest : List FlowRecord) :
    FlowLoop :=
  let stats := loop.stats.wrote ok d.size batch.length
  let seqNo := loop.seqNo + UInt32.ofNat (fe.encoder.seqIncrement batch.length)
  if loop.sendTemplate then
    ⟨seqNo, some input.now, { stats with lastTemplateMs := unixMilli input.now }, rest, false⟩
  else ⟨seqNo, loop.lastTempl, stats, rest, false⟩

/-- Write a datagram of the flow loop with its batch of records, account for it and go on. -/
def sendBatch (scenActive : Bool) (loop : FlowLoop) (d : Datagram) (batch rest : List FlowRecord) :
    Exporter (Turn FlowLoop) := do
  let write ← request (.write (.flow d))
  countBatch scenActive input.now write.ok batch.length
  let next := fe.afterWrite input loop write.ok d batch rest
  return if rest.isEmpty then .stop next else .again next

/-- A turn of the flow loop with an encoder that measures its records. -/
def measuredTurn (catalog : List AvcApplication) (scenActive : Bool) (loop : FlowLoop) :
    Exporter (Turn FlowLoop) := do
  let wall ← request .wallClock
  match encodeMeasured catalog (fe.exportHeader input loop.seqNo wall) loop.expired loop.sendTemplate
      input.budget with
  | .error _ => return .stop loop
  | .ok answer =>
    let rest := loop.expired.drop answer.consumed
    if 0 < answer.dropped then
      -- The first record fits no datagram: it is a send failure, and nothing was written for it.
      countOversize scenActive answer.dropped
      let next := { loop with stats := loop.stats.failed answer.dropped, expired := rest }
      return if rest.isEmpty && !loop.sendTemplate then .stop next else .again next
    else
      match answer.datagram with
      | none => return .stop { loop with expired := rest }
      | some d => fe.sendBatch input scenActive loop d (loop.expired.take answer.consumed) rest

/-- How many records the loop takes for a datagram. -/
def capacity (template : Bool) : Nat :=
  fe.encoder.batchCapacity (fe.encoder.overhead template) input.budget

/-- Encode a batch that was taken off the records, and send it. -/
def encodeAndSend (scenActive : Bool) (loop : FlowLoop) (batch rest : List FlowRecord) :
    Exporter (Turn FlowLoop) := do
  let wall ← request .wallClock
  match fe.encodeBatch input (fe.exportHeader input loop.seqNo wall) batch loop.sendTemplate with
  | .error _ | .ok none => return .stop { loop with expired := rest }
  | .ok (some d) => fe.sendBatch input scenActive loop d batch rest

/-- A turn of the flow loop with an encoder whose records have a known size. -/
def batchTurn (scenActive : Bool) (loop : FlowLoop) : Exporter (Turn FlowLoop) :=
  let batch := loop.expired.take (fe.capacity input loop.sendTemplate)
  let rest := loop.expired.drop (fe.capacity input loop.sendTemplate)
  if batch.isEmpty && !loop.sendTemplate then return .stop loop
  else fe.encodeAndSend input scenActive loop batch rest

def flowTurn (scenActive : Bool) (loop : FlowLoop) : Exporter (Turn FlowLoop) :=
  match fe.encoder with
  | .ipfixAVC catalog => fe.measuredTurn input catalog scenActive loop
  | .netflow5 | .netflow9 | .ipfix | .sflow => fe.batchTurn input scenActive loop

/-- More turns than the flow loop can make. -/
def flowFuel (expired : List FlowRecord) : Nat := 2 * expired.length + 2

def flowLoop (scenActive : Bool) (expired : List FlowRecord) (sendTemplate : Bool) :
    Exporter (Option FlowLoop) :=
  Program.iterate (fe.flowTurn input scenActive) (flowFuel expired)
    ⟨fe.seqNo, fe.lastTempl, {}, expired, sendTemplate⟩

/-- A turn of the counters loop. Unlike in the other loops, the datagram counts as sent however the
write ended. -/
def counterTurn (loop : RowLoop CounterRecord) : Exporter (Turn (RowLoop CounterRecord)) := do
  let maxBatch := (input.budget - sflowDatagramHeaderSize - sflowCountersSampleHeaderSize) /
    sflowMaxCountersSampleSize
  if loop.remaining.isEmpty || maxBatch < 1 then return .stop loop
  else
    let rest := loop.remaining.drop maxBatch
    let wall ← request .wallClock
    match encodeCounterDatagram (fe.exportHeader input loop.seqNo wall) fe.subAgentID
        (loop.remaining.take maxBatch) input.budget with
    | .error _ | .ok none => return .stop { loop with remaining := rest }
    | .ok (some d) =>
      let _ ← request (.write (.flow d))
      return .again ⟨loop.seqNo + 1, loop.stats.sent d.size 0, rest⟩

def counterLoop (loop : RowLoop CounterRecord) : Exporter (Option (RowLoop CounterRecord)) :=
  match fe.encoder with
  | .sflow => Program.iterate (fe.counterTurn input) (loop.remaining.length + 1) loop
  | .netflow5 | .netflow9 | .ipfix | .ipfixAVC _ => return some loop

def tableTurn {Row : Type}
    (encode : ExportHeader → List Row → Nat → Except BufferTooSmall (Option Datagram × Nat))
    (loop : RowLoop Row) : Exporter (Turn (RowLoop Row)) := do
  if loop.remaining.isEmpty then return .stop loop
  else
    let wall ← request .wallClock
    match encode (fe.exportHeader input loop.seqNo wall) loop.remaining input.budget with
    | .error _ | .ok (none, _) | .ok (some _, 0) => return .stop loop
    | .ok (some d, consumed + 1) =>
      let write ← request (.write (.flow d))
      return .again ⟨loop.seqNo + UInt32.ofNat (fe.encoder.seqIncrement (consumed + 1)),
        loop.stats.wrote write.ok d.size 0, loop.remaining.drop (consumed + 1)⟩

def tableLoop {Row : Type}
    (encode : ExportHeader → List Row → Nat → Except BufferTooSmall (Option Datagram × Nat))
    (loop : RowLoop Row) : Exporter (Option (RowLoop Row)) :=
  Program.iterate (fe.tableTurn input encode) (loop.remaining.length + 1) loop

/-- The interface option table rides the cadence of the templates. -/
def optionsLoop (due : Bool) (seqNo : UInt32) (stats : FlowTickStats) :
    Exporter (Option (RowLoop FlowOptionIface)) :=
  match fe.optionShape, fe.encoder.encodeOptions with
  | some shape, some encode =>
    if due then fe.tableLoop input (fun h => encode h shape) ⟨seqNo, stats, fe.optionIfaces⟩
    else return some ⟨seqNo, stats, []⟩
  | _, _ => return some ⟨seqNo, stats, []⟩

/-- The application table rides the cadence of the templates. -/
def appTableLoop (due : Bool) (seqNo : UInt32) (stats : FlowTickStats) :
    Exporter (Option (RowLoop AvcApplication)) :=
  match fe.encoder with
  | .ipfixAVC catalog =>
    if due then fe.tableLoop input encodeAppTable ⟨seqNo, stats, catalog⟩
    else return some ⟨seqNo, stats, []⟩
  | .netflow5 | .netflow9 | .ipfix | .sflow => return some ⟨seqNo, stats, []⟩

/-- The four loops, one after the other. -/
def emit (scenActive : Bool) (expired : List FlowRecord) (sendTemplate : Bool) :
    Exporter (Option (FlowExporter × FlowTickStats)) := do
  match ← fe.flowLoop input scenActive expired sendTemplate with
  | none => return none
  | some flow =>
    match ← fe.counterLoop input ⟨flow.seqNo, flow.stats, input.snapshots.flatten⟩ with
    | none => return none
    | some counters =>
      match ← fe.optionsLoop input sendTemplate counters.seqNo counters.stats with
      | none => return none
      | some options =>
        match ← fe.appTableLoop input sendTemplate options.seqNo options.stats with
        | none => return none
        | some apps =>
          let after := { fe with seqNo := apps.seqNo, lastTempl := flow.lastTempl }
          return some (after, apps.stats)

/-- Emit what is left of a tick whose flow records are withheld. -/
def emitWithheld (sendTemplate : Bool) : Exporter (Option (FlowExporter × FlowTickStats)) :=
  if !sendTemplate && input.snapshots.isEmpty then return some (fe, {})
  else fe.emit input false [] sendTemplate

/-- A tick of a participant: what the gate says, and the drain barrier around what is emitted. -/
def tickGated (sendTemplate : Bool) : Exporter (Option (FlowExporter × FlowTickStats)) := do
  match ← Exporter.decide .scenario input.now with
  | .suppressSilent | .suppressCounted =>
    countSuppressed input.expired.length
    fe.emitWithheld input sendTemplate
  | .proceed =>
    let admitted ← request .admitFire
    if !admitted then
      countRefused input.expired.length
      fe.emitWithheld input sendTemplate
    else
      let result ← fe.emit input true input.expired sendTemplate
      leave
      return result

def tick : Exporter (Option (FlowExporter × FlowTickStats)) := do
  if !input.connected then return some (fe, {})
  else
    let sendTemplate := fe.templateDue input.now
    if input.expired.isEmpty && !sendTemplate then return some (fe, {})
    else
      let part ← request .loadPart
      if !part then
        let muted ← fidelityMutesBackground .background
        if muted then return some (fe, {})
        else fe.emit input false input.expired sendTemplate
      else fe.tickGated input sendTemplate

def runTicks : FlowExporter → List TickInput → Exporter (Option FlowExporter)
  | fe, [] => return some fe
  | fe, input :: inputs => do
      match ← fe.tick input with
      | none => return none
      | some (next, _) => next.runTicks inputs

end FlowExporter

end Nl6
