import Nl6.Flow.Datagram

/-! # What an encoder puts into a buffer

The encoders of flow_exporter.go's `FlowEncoder` interface. Each is asked to fill a buffer of a given
length: it refuses (an error), has nothing to send (`none`, the source's `n == 0`), or answers with a
datagram. How many of the records it is handed it takes is its own calculation; the exporter's loop
makes a second one, and `Nl6.Flow.Pagination` is about the two agreeing.
-/

namespace Nl6

open Octets

/-- The buffer is too small: how long it is and how long it had to be. -/
structure BufferTooSmall where
  length : Nat
  needed : Nat
  deriving DecidableEq, Repr

/-- The answer of an encoder; `none` stands for nothing to send. -/
abbrev Encoded : Type := Except BufferTooSmall (Option Datagram)

inductive FlowEncoder where
  | netflow5
  | netflow9
  | ipfix
  | ipfixAVC (catalog : List AvcApplication)
  | sflow
  deriving DecidableEq, Repr

/-! ### Sizes and rules -/

def nf9DataPadBytes (n : Nat) : Nat := padTo4 (nf9DataFlowSetHdrSize + n * nf9RecordSize)

def ipfixDataPadBytes (n : Nat) : Nat := padTo4 (ipfixDataSetHdrSize + n * ipfixRecordSize)

/-- `avcWorstCaseRecordSize`: the longest host and the longest URI of the catalog. -/
def avcWorstCaseRecordSize (catalog : List AvcApplication) : Nat :=
  let longest (texts : List Bytes) (extra : Nat) : Nat :=
    (texts.map fun text => text.length + extra).foldl max 0
  ipfixRecordSize + 4 +
    ipfixVarLenSize (avcHostPrefix.length + longest (catalog.flatMap (·.hosts)) 0) +
    ipfixVarLenSize (longest (catalog.flatMap (·.uris)) 3)

namespace FlowEncoder

/-- `PacketSizes`: header and set header, template, and record. -/
def packetSizes : FlowEncoder → Nat × Nat × Nat
  | .netflow5 => (netFlow5HeaderLen, 0, netFlow5RecordLen)
  | .netflow9 => (nf9HeaderSize + 4, nf9TemplFlowSetSize, nf9RecordSize)
  | .ipfix => (ipfixHeaderSize + 4, ipfixTemplSetSize, ipfixRecordSize)
  | .ipfixAVC _ => (ipfixHeaderSize + ipfixDataSetHdrSize, ipfixAVCTemplateSetBytes.length, 0)
  | .sflow => (sflowDatagramHeaderSize, 0, sflowMaxFlowSampleSize)

/-- `SeqIncrement`: what the sequence number advances by after a packet of that many records. -/
def seqIncrement : FlowEncoder → Nat → Nat
  | .netflow5, n | .ipfix, n | .ipfixAVC _, n => n
  | .netflow9, _ | .sflow, _ => 1

/-- `MaxRecordSize`: zero for records of a fixed size. -/
def maxRecordSize : FlowEncoder → Nat
  | .netflow5 | .netflow9 | .ipfix => 0
  | .ipfixAVC catalog => avcWorstCaseRecordSize catalog
  | .sflow => sflowMaxFlowSampleSize

/-- `TrailingPadBytes`: the padding behind that many records. -/
def trailingPadBytes : FlowEncoder → Nat → Nat
  | .netflow9, n => nf9DataPadBytes n
  | .ipfix, n => ipfixDataPadBytes n
  | .netflow5, _ | .ipfixAVC _, _ | .sflow, _ => 0

/-- `MaxRecordsPerDatagram`: a limit on the number of records, zero for none. -/
def maxRecordsPerDatagram : FlowEncoder → Nat
  | .netflow5 => netFlow5MaxRecords
  | .netflow9 | .ipfix | .ipfixAVC _ | .sflow => 0

end FlowEncoder

/-! ### Flow data -/

/-- `NetFlow5Encoder.EncodePacket`: records that are not IPv4 are left out. -/
def encodeNetFlow5 (h : ExportHeader) (records : List FlowRecord) (length : Nat) : Encoded :=
  let filtered := records.filter fun r => decide r.IsIPv4
  if filtered.isEmpty then .ok none
  else
    let filtered := if netFlow5MaxRecords < filtered.length then filtered.take netFlow5MaxRecords
      else filtered
    let needed := netFlow5HeaderLen + filtered.length * netFlow5RecordLen
    if length < needed then .error ⟨length, needed⟩ else .ok (some (.netflow5 h filtered))

/-- `EncodePacket` of the two protocols with a template and records of one size: the records are cut
to what fits together with the padding. -/
def encodeTemplated (headerSize templSize recordSize : Nat) (pad : Nat → Nat)
    (make : Bool → List FlowRecord → Datagram) (records : List FlowRecord) (template : Bool)
    (length : Nat) : Encoded :=
  if records.isEmpty && !template then .ok none
  else
    let overhead := headerSize + 4 + if template then templSize else 0
    if length < overhead then .error ⟨length, overhead⟩
    else
      let minOne := overhead + recordSize + pad 1
      if length < minOne ∧ 0 < records.length then .error ⟨length, minOne⟩
      else
        let fit := (length - overhead) / recordSize
        let maxRecords := if 0 < fit ∧ length < overhead + fit * recordSize + pad fit then fit - 1
          else fit
        .ok (some (make template (if maxRecords < records.length then records.take maxRecords
          else records)))

/-- `NetFlow9Encoder.EncodePacket`. -/
def encodeNetFlow9 (h : ExportHeader) : List FlowRecord → Bool → Nat → Encoded :=
  encodeTemplated nf9HeaderSize nf9TemplFlowSetSize nf9RecordSize nf9DataPadBytes (.netflow9 h)

/-- `IPFIXEncoder.EncodePacket`. -/
def encodeIPFIX (h : ExportHeader) : List FlowRecord → Bool → Nat → Encoded :=
  encodeTemplated ipfixHeaderSize ipfixTemplSetSize ipfixRecordSize ipfixDataPadBytes (.ipfix h)

def encodeFlowDatagram (h : ExportHeader) (subAgentID samplingRate : UInt32)
    (records : List FlowRecord) (length : Nat) : Encoded :=
  if records.isEmpty then .ok none
  else if length < sflowDatagramHeaderSize + sflowMaxFlowSampleSize then
    .error ⟨length, sflowDatagramHeaderSize + sflowMaxFlowSampleSize⟩
  else
    let maxRecs := (length - sflowDatagramHeaderSize) / sflowMaxFlowSampleSize
    .ok (some (.sflow h subAgentID samplingRate
      (if maxRecs < records.length then records.take maxRecs else records)))

/-! ### Measured flow data -/

/-- `putIPFIXVarLenParts` into the room that is left: `none` if the value does not fit, or fits no
length field. -/
def putIPFIXVarLen (room : Nat) (value : Bytes) : Option Bytes :=
  if 0xFFFF < value.length ∨ room < ipfixVarLenSize value.length then none
  else some (varLenField value)

/-- `IPFIXAVCEncoder.encodeRecord` into the room that is left. -/
def encodeAVCRecord (catalog : List AvcApplication) (deviceStartMs : Int) (room : Nat)
    (r : FlowRecord) : Option Bytes :=
  if room < ipfixRecordSize + 4 then none
  else
    let fixedPart := encodeIPFIXRecord deviceStartMs r ++ fixed 4 (avcAppID catalog r).toNat
    match putIPFIXVarLen (room - fixedPart.length) (avcHostPrefix ++ avcHost catalog r) with
    | none => none
    | some host =>
      match putIPFIXVarLen (room - fixedPart.length - host.length) (avcURIStats catalog r) with
      | none => none
      | some uri => some (fixedPart ++ host ++ uri)

/-- The loop of `EncodeMeasured`: how many leading records fit behind `pos`, leaving three octets for
the padding. -/
def measure (catalog : List AvcApplication) (deviceStartMs : Int) (length : Nat) :
    Nat → List FlowRecord → Nat
  | _, [] => 0
  | pos, r :: rest =>
    if length - 3 < pos then 0
    else
      match encodeAVCRecord catalog deviceStartMs (length - 3 - pos) r with
      | none => 0
      | some image => measure catalog deviceStartMs length (pos + image.length) rest + 1

/-- The answer of `EncodeMeasured`: a datagram, the records it consumed, and the records it dropped
because they fit no datagram. -/
structure Measured where
  datagram : Option Datagram
  consumed : Nat
  dropped : Nat
  deriving DecidableEq, Repr

def encodeMeasured (catalog : List AvcApplication) (h : ExportHeader) (records : List FlowRecord)
    (template : Bool) (length : Nat) : Except BufferTooSmall Measured :=
  if records.isEmpty && !template then .ok ⟨none, 0, 0⟩
  else
    let overhead := ipfixHeaderSize + if template then ipfixAVCTemplateSetBytes.length else 0
    if length < overhead then .error ⟨length, overhead⟩
    else if records.isEmpty then .ok ⟨some (.ipfixAVC catalog h template []), 0, 0⟩
    else if length < overhead + ipfixDataSetHdrSize then
      .error ⟨length, overhead + ipfixDataSetHdrSize⟩
    else
      let consumed := measure catalog h.deviceStartMs length (overhead + ipfixDataSetHdrSize) records
      if consumed = 0 then
        -- The record fits no empty datagram, or has to wait for one without a template.
        if !template then .ok ⟨none, 1, 1⟩
        else .ok ⟨some (.ipfixAVC catalog h template []), 0, 0⟩
      else .ok ⟨some (.ipfixAVC catalog h template (records.take consumed)), consumed, 0⟩

/-! ### Option tables -/

/-- `EncodeOptionsDatagram` of both protocols, and `EncodeAppTableDatagram` with the slack it keeps
for the padding: as many leading records as fit, or an error if not even one does. -/
def encodeTable {Row : Type} (overhead recSize slack : Nat) (make : List Row → Datagram)
    (rows : List Row) (length : Nat) : Except BufferTooSmall (Option Datagram × Nat) :=
  if rows.isEmpty then .ok (none, 0)
  else if length < overhead + recSize + slack then .error ⟨length, overhead + recSize + slack⟩
  else
    let consumed := min rows.length ((length - overhead - slack) / recSize)
    .ok (some (make (rows.take consumed)), consumed)

/-- `NetFlow9Encoder.EncodeOptionsDatagram`. -/
def encodeNetFlow9Options (h : ExportHeader) (shape : FlowOptionShape) :
    List FlowOptionIface → Nat → Except BufferTooSmall (Option Datagram × Nat) :=
  encodeTable (nf9HeaderSize + (nf9OptionsTemplate shape).length + 4) (optionRecSize shape) 0
    (.netflow9Options h shape)

/-- `IPFIXEncoder.EncodeOptionsDatagram`. -/
def encodeIPFIXOptions (h : ExportHeader) (shape : FlowOptionShape) :
    List FlowOptionIface → Nat → Except BufferTooSmall (Option Datagram × Nat) :=
  encodeTable (ipfixHeaderSize + (ipfixOptionsTemplate shape).length + 4) (optionRecSize shape) 0
    (.ipfixOptions h shape)

/-- `IPFIXAVCEncoder.EncodeAppTableDatagram`. -/
def encodeAppTable (h : ExportHeader) :
    List AvcApplication → Nat → Except BufferTooSmall (Option Datagram × Nat) :=
  encodeTable (ipfixHeaderSize + ipfixAppTableTemplateSetBytes.length + ipfixDataSetHdrSize)
    ipfixAppTableRecSize 3 (.appTable h)

/-- The encoders that emit an interface option table (`flowOptionsEncoder`). -/
def FlowEncoder.encodeOptions : FlowEncoder → Option (ExportHeader → FlowOptionShape →
    List FlowOptionIface → Nat → Except BufferTooSmall (Option Datagram × Nat))
  | .netflow9 => some encodeNetFlow9Options
  | .ipfix | .ipfixAVC _ => some encodeIPFIXOptions
  | .netflow5 | .sflow => none

/-! ### Counter samples -/

/-- Octets of a counter record in its sample. -/
def counterRecordSize (record : CounterRecord) : Nat :=
  8 + (record.body.length + padTo4 record.body.length)

/-- The records of a group that fit, and the position behind them. One that does not fit is dropped,
and smaller ones behind it may still fit. -/
def fitRecords (length : Nat) : Nat → List CounterRecord → List CounterRecord × Nat
  | pos, [] => ([], pos)
  | pos, record :: rest =>
    if length < pos + counterRecordSize record then fitRecords length pos rest
    else
      let later := fitRecords length (pos + counterRecordSize record) rest
      (record :: later.1, later.2)

/-- The samples that are emitted: a group without room for its header, or of whose records none fits,
is left out. -/
def fitSamples (length : Nat) :
    Nat → List (UInt32 × List CounterRecord) → List (UInt32 × List CounterRecord)
  | _, [] => []
  | pos, group :: rest =>
    if length < pos + sflowCountersSampleHeaderSize then fitSamples length pos rest
    else
      let fit := fitRecords length (pos + sflowCountersSampleHeaderSize) group.2
      if fit.1.isEmpty then fitSamples length pos rest
      else (group.1, fit.1) :: fitSamples length fit.2 rest

/-- The records by source, in the order in which the sources first appear. -/
def groupBySource (records : List CounterRecord) : List (UInt32 × List CounterRecord) :=
  (records.map (·.sourceID)).eraseDups.map fun id => (id, records.filter (·.sourceID == id))

def encodeCounterDatagram (h : ExportHeader) (subAgentID : UInt32) (records : List CounterRecord)
    (length : Nat) : Encoded :=
  if records.isEmpty then .ok none
  else if length < sflowDatagramHeaderSize + sflowMaxCountersSampleSize then
    .error ⟨length, sflowDatagramHeaderSize + sflowMaxCountersSampleSize⟩
  else
    let samples := fitSamples length sflowDatagramHeaderSize (groupBySource records)
    if samples.isEmpty then .ok none else .ok (some (.sflowCounters h subAgentID samples))

end Nl6
