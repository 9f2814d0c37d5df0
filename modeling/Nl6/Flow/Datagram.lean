import Nl6.Lib.Octets

/-! # Flow records and the datagrams that carry them

What the flow encoders put on the wire (netflow5.go, netflow9.go, ipfix.go, ipfix_avc.go, sflow.go).
An encoder fills a buffer from its front and patches the length fields afterwards; here a datagram is
what it was filled with (`Datagram`), and `Datagram.bytes` is the wire image, field by field in the
order in which the encoder writes it. Which records an encoder takes for a given buffer is the subject
of `Nl6.Flow.Encoders`.

The sizes the encoders calculate with are the lengths of these images (`length_encodeNF9Record` and
its siblings), and the sequence number stands where each protocol has it (`Datagram.wireSeqNo_eq`).
-/

namespace Nl6

open Octets

/-! ### Records -/

/-- `net.IP.To4`: the four octets of an IPv4 address, also of one in its 16-octet form. -/
def to4 (ip : Bytes) : Option Bytes :=
  if ip.length = 4 then some ip
  else if ip.length = 16 ∧ ip.take 12 = [0, 0, 0, 0, 0, 0, 0, 0, 0, 0, 0xff, 0xff] then
    some (ip.drop 12)
  else none

/-- The address as the encoders write it: zero for anything that is not IPv4. -/
def addr4 (ip : Bytes) : Bytes := (to4 ip).getD [0, 0, 0, 0]

/-- Application reference of a record: 1-based indices into a catalog, 0 for none. -/
structure AvcRef where
  app : UInt16 := 0
  host : UInt16 := 0
  uri : UInt16 := 0
  deriving DecidableEq, Repr

structure FlowRecord where
  srcIP : Bytes
  dstIP : Bytes
  nextHop : Bytes := []
  srcPort : UInt16 := 0
  dstPort : UInt16 := 0
  protocol : UInt8 := 0
  tcpFlags : UInt8 := 0
  toS : UInt8 := 0
  bytes : UInt64 := 0
  packets : UInt32 := 0
  startMs : UInt32 := 0
  endMs : UInt32 := 0
  inIface : UInt16 := 0
  outIface : UInt16 := 0
  srcAS : UInt16 := 0
  dstAS : UInt16 := 0
  srcMask : UInt8 := 0
  dstMask : UInt8 := 0
  avc : AvcRef := {}
  deriving DecidableEq, Repr

/-- Both ends of the flow are IPv4. -/
def FlowRecord.IsIPv4 (r : FlowRecord) : Prop := (to4 r.srcIP).isSome ∧ (to4 r.dstIP).isSome

instance (r : FlowRecord) : Decidable r.IsIPv4 := inferInstanceAs (Decidable (_ ∧ _))

/-- An interface in the option table. -/
structure FlowOptionIface where
  ifIndex : UInt32
  name : Bytes
  deriving DecidableEq, Repr

/-- Where the ifIndex of an option record lives. -/
inductive FlowOptionShape where
  | ifScoped
  | systemScoped
  deriving DecidableEq, Repr

/-- An application of an NBAR2 catalog, as the encoder reads it. -/
structure AvcApplication where
  id : UInt32
  name : Bytes
  description : Bytes
  hosts : List Bytes
  uris : List Bytes
  deriving DecidableEq, Repr

/-- A counter payload of a counter source. -/
structure CounterRecord where
  format : UInt32
  sourceID : UInt32
  body : Bytes
  deriving DecidableEq, Repr

/-- What the encoders are handed besides records: identity, sequence number, uptime and a reading of
the wall clock in nanoseconds since 1970. -/
structure ExportHeader where
  domainID : UInt32
  seqNo : UInt32
  uptimeMs : UInt32
  wall : Int
  deriving DecidableEq, Repr

/-- `binary.BigEndian.PutUint16` and its siblings, of a signed number that is converted first. -/
def putInt (width : Nat) (n : Int) : Bytes := fixed width (n % 256 ^ width).toNat

@[simp] theorem length_putInt (width : Nat) (n : Int) : (putInt width n).length = width :=
  length_fixed _ _

/-- The padding of a set of `n` octets to a four-octet boundary. -/
def padTo4 (n : Nat) : Nat := if n % 4 = 0 then 0 else 4 - n % 4

def zeros (n : Nat) : Bytes := List.replicate n 0

@[simp] theorem length_zeros (n : Nat) : (zeros n).length = n := List.length_replicate

/-- `putFixedString`: truncated or filled up with zeros to the width of the field. -/
def putFixedString (text : Bytes) (width : Nat) : Bytes :=
  text.take width ++ zeros (width - text.length)

theorem length_to4 {ip quad : Bytes} (isV4 : to4 ip = some quad) : quad.length = 4 := by
  unfold to4 at isV4
  split_ifs at isV4 with four mapped
  · cases isV4
    exact four
  · cases isV4
    rw [List.length_drop, mapped.1]

@[simp] theorem length_addr4 (ip : Bytes) : (addr4 ip).length = 4 := by
  unfold addr4
  cases isV4 : to4 ip with
  | none => rfl
  | some quad => exact length_to4 isV4

/-! ### NetFlow v5 -/

def netFlow5MaxRecords : Nat := 30
def netFlow5HeaderLen : Nat := 24
def netFlow5RecordLen : Nat := 48
def netFlow5ASTrans : UInt16 := 23456

/-- An AS number that does not fit its field is sent as AS_TRANS. -/
def clampASN (asn : UInt32) : UInt16 :=
  if asn.toNat > 0xFFFF then netFlow5ASTrans else asn.toUInt16

/-- `NetFlow5Encoder.encodeRecord`. -/
def encodeNF5Record (r : FlowRecord) : Bytes :=
  addr4 r.srcIP ++ addr4 r.dstIP ++ addr4 r.nextHop ++
  fixed 2 r.inIface.toNat ++ fixed 2 r.outIface.toNat ++
  fixed 4 r.packets.toNat ++ fixed 4 (min r.bytes.toNat 0xFFFFFFFF) ++
  fixed 4 r.startMs.toNat ++ fixed 4 r.endMs.toNat ++
  fixed 2 r.srcPort.toNat ++ fixed 2 r.dstPort.toNat ++
  [0, r.tcpFlags, r.protocol, r.toS] ++
  fixed 2 (clampASN r.srcAS.toUInt32).toNat ++ fixed 2 (clampASN r.dstAS.toUInt32).toNat ++
  [r.srcMask, r.dstMask] ++ fixed 2 0

@[simp] theorem length_encodeNF5Record (r : FlowRecord) : (encodeNF5Record r).length = 48 := by
  simp [encodeNF5Record]

/-! ### NetFlow v9 -/

def nf9HeaderSize : Nat := 20
def nf9DataFlowSetHdrSize : Nat := 4
def nf9RecordSize : Nat := 46
def nf9TemplFlowSetSize : Nat := 84
def nf9TemplateID : Nat := 256
def nf9OptionsTemplateID : Nat := 257
def flowOptionStringLen : Nat := 32

/-- Field types and lengths of the data template. -/
def nf9Fields : List (Nat × Nat) :=
  [(1, 4), (2, 4), (4, 1), (5, 1), (6, 1), (7, 2), (8, 4), (9, 1), (10, 2), (11, 2), (12, 4),
    (13, 1), (14, 2), (15, 4), (16, 2), (17, 2), (21, 4), (22, 4), (61, 1)]

def fieldSpecs (fields : List (Nat × Nat)) : Bytes :=
  fields.flatMap fun field => fixed 2 field.1 ++ fixed 2 field.2

/-- `buildNF9Template`. -/
def nf9TemplateBytes : Bytes :=
  fixed 2 0 ++ fixed 2 (4 + 4 + nf9Fields.length * 4) ++ fixed 2 nf9TemplateID ++
  fixed 2 nf9Fields.length ++ fieldSpecs nf9Fields

/-- The first sixteen fields, which NetFlow v9 and IPFIX records have in common. -/
def encodeCommonFields (r : FlowRecord) : Bytes :=
  fixed 4 (min r.bytes.toNat 0xFFFFFFFF) ++ fixed 4 r.packets.toNat ++
  [r.protocol, r.toS, r.tcpFlags] ++
  fixed 2 r.srcPort.toNat ++ addr4 r.srcIP ++ [r.srcMask] ++ fixed 2 r.inIface.toNat ++
  fixed 2 r.dstPort.toNat ++ addr4 r.dstIP ++ [r.dstMask] ++ fixed 2 r.outIface.toNat ++
  addr4 r.nextHop ++ fixed 2 r.srcAS.toNat ++ fixed 2 r.dstAS.toNat

def encodeNF9Record (r : FlowRecord) : Bytes :=
  encodeCommonFields r ++ fixed 4 r.endMs.toNat ++ fixed 4 r.startMs.toNat ++ [0]

@[simp] theorem length_encodeCommonFields (r : FlowRecord) :
    (encodeCommonFields r).length = 37 := by
  simp [encodeCommonFields]

@[simp] theorem length_encodeNF9Record (r : FlowRecord) : (encodeNF9Record r).length = 46 := by
  simp [encodeNF9Record]

/-- A set or FlowSet: identifier, length, contents, and padding to a four-octet boundary. -/
def dataSet (id : Nat) (contents : Bytes) : Bytes :=
  let length := 4 + contents.length
  fixed 2 id ++ fixed 2 (length + padTo4 length) ++ contents ++ zeros (padTo4 length)

@[simp] theorem length_dataSet (id : Nat) (contents : Bytes) :
    (dataSet id contents).length = 4 + contents.length + padTo4 (4 + contents.length) := by
  simp only [dataSet, List.length_append, length_fixed, length_zeros]

/-- The record of an interface under a shape of the NetFlow v9 option table. -/
def nf9OptionRecord (shape : FlowOptionShape) (ifc : FlowOptionIface) : Bytes :=
  match shape with
  | .ifScoped => fixed 4 ifc.ifIndex.toNat ++ putFixedString ifc.name flowOptionStringLen ++
      putFixedString ifc.name flowOptionStringLen
  | .systemScoped => fixed 4 0 ++ fixed 4 ifc.ifIndex.toNat ++
      putFixedString ifc.name flowOptionStringLen

/-- `buildNF9OptionsTemplate` for a shape: scope length and option length in octets. -/
def nf9OptionsTemplate (shape : FlowOptionShape) : Bytes :=
  let scope : List (Nat × Nat) := match shape with
    | .ifScoped => [(2, 4)]
    | .systemScoped => [(1, 4)]
  let options : List (Nat × Nat) := match shape with
    | .ifScoped => [(82, flowOptionStringLen), (83, flowOptionStringLen)]
    | .systemScoped => [(10, 4), (83, flowOptionStringLen)]
  dataSet 1 (fixed 2 nf9OptionsTemplateID ++ fixed 2 4 ++ fixed 2 (options.length * 4) ++
    fieldSpecs scope ++ fieldSpecs options)

/-- The NetFlow v9 packet header. -/
def nf9Header (count : Nat) (h : ExportHeader) : Bytes :=
  fixed 2 9 ++ fixed 2 count ++ fixed 4 h.uptimeMs.toNat ++ putInt 4 (h.wall / 10 ^ 9) ++
  fixed 4 h.seqNo.toNat ++ fixed 4 h.domainID.toNat

/-! ### IPFIX -/

def ipfixHeaderSize : Nat := 16
def ipfixDataSetHdrSize : Nat := 4
def ipfixRecordSize : Nat := 54
def ipfixTemplSetSize : Nat := 84
def ipfixTemplateID : Nat := 256
def ipfixOptionsTemplateID : Nat := 257

/-- Information elements and lengths of the data template. -/
def ipfixFields : List (Nat × Nat) :=
  [(1, 4), (2, 4), (4, 1), (5, 1), (6, 1), (7, 2), (8, 4), (9, 1), (10, 2), (11, 2), (12, 4),
    (13, 1), (14, 2), (15, 4), (16, 2), (17, 2), (152, 8), (153, 8), (61, 1)]

/-- `buildIPFIXTemplateSet`. -/
def ipfixTemplateSetBytes : Bytes :=
  fixed 2 2 ++ fixed 2 (4 + 4 + ipfixFields.length * 4) ++ fixed 2 ipfixTemplateID ++
  fixed 2 ipfixFields.length ++ fieldSpecs ipfixFields

/-- Milliseconds since 1970. -/
def ExportHeader.nowMs (h : ExportHeader) : Int := h.wall / 10 ^ 6

/-- When the device started, in milliseconds since 1970. -/
def ExportHeader.deviceStartMs (h : ExportHeader) : Int := max (h.nowMs - h.uptimeMs.toNat) 0

def encodeIPFIXRecord (deviceStartMs : Int) (r : FlowRecord) : Bytes :=
  encodeCommonFields r ++ putInt 8 (deviceStartMs + r.startMs.toNat) ++
  putInt 8 (deviceStartMs + r.endMs.toNat) ++ [0]

@[simp] theorem length_encodeIPFIXRecord (start : Int) (r : FlowRecord) :
    (encodeIPFIXRecord start r).length = 54 := by
  simp [encodeIPFIXRecord]

/-- An IPFIX message: the header states the length of the whole. -/
def ipfixMessage (exportTime : Int) (h : ExportHeader) (sets : Bytes) : Bytes :=
  fixed 2 10 ++ fixed 2 (ipfixHeaderSize + sets.length) ++ putInt 4 exportTime ++
  fixed 4 h.seqNo.toNat ++ fixed 4 h.domainID.toNat ++ sets

/-- The record of an interface under a shape of the IPFIX option table. -/
def ipfixOptionRecord (domainID : UInt32) (shape : FlowOptionShape) (ifc : FlowOptionIface) :
    Bytes :=
  match shape with
  | .ifScoped => fixed 4 ifc.ifIndex.toNat ++ putFixedString ifc.name flowOptionStringLen ++
      putFixedString ifc.name flowOptionStringLen
  | .systemScoped => fixed 4 domainID.toNat ++ fixed 4 ifc.ifIndex.toNat ++
      putFixedString ifc.name flowOptionStringLen

/-- `buildIPFIXOptionsTemplateSet` for a shape: field count with the scope, and scope count. -/
def ipfixOptionsTemplate (shape : FlowOptionShape) : Bytes :=
  let scope : List (Nat × Nat) := match shape with
    | .ifScoped => [(10, 4)]
    | .systemScoped => [(149, 4)]
  let options : List (Nat × Nat) := match shape with
    | .ifScoped => [(82, flowOptionStringLen), (83, flowOptionStringLen)]
    | .systemScoped => [(10, 4), (83, flowOptionStringLen)]
  dataSet 3 (fixed 2 ipfixOptionsTemplateID ++ fixed 2 (1 + options.length) ++ fixed 2 1 ++
    fieldSpecs scope ++ fieldSpecs options)

/-- Octets of one option data record. -/
def optionRecSize (shape : FlowOptionShape) : Nat :=
  match shape with
  | .ifScoped => 4 + 2 * flowOptionStringLen
  | .systemScoped => 4 + 4 + flowOptionStringLen

/-! ### IPFIX with application visibility -/

def ipfixAVCTemplateID : Nat := 258
def ipfixAppTableTemplateID : Nat := 259
def ipfixApplicationNameLen : Nat := 24
def ipfixApplicationDescriptionLen : Nat := 55
def ipfixAppTableRecSize : Nat := 4 + ipfixApplicationNameLen + ipfixApplicationDescriptionLen

/-- The octets in front of every HTTP host. -/
def avcHostPrefix : Bytes := [0x03, 0x00, 0x00, 0x50, 0x34, 0x02]

/-- `buildIPFIXAVCTemplateSet`: the plain fields, the application, and the two enterprise fields of
variable length. -/
def ipfixAVCTemplateSetBytes : Bytes :=
  let specs := fieldSpecs ipfixFields ++ fieldSpecs [(95, 4)] ++
    (fixed 2 (0x8000 + 12235) ++ fixed 2 0xFFFF ++ fixed 4 9) ++
    (fixed 2 (0x8000 + 9357) ++ fixed 2 0xFFFF ++ fixed 4 9)
  fixed 2 2 ++ fixed 2 (4 + 4 + specs.length) ++ fixed 2 ipfixAVCTemplateID ++
  fixed 2 (ipfixFields.length + 3) ++ specs

/-- `avcCatalog.App`: the application at a 1-based index. -/
def avcApp (catalog : List AvcApplication) (index : UInt16) : Option AvcApplication :=
  if index = 0 then none else catalog[index.toNat - 1]?

/-- The string at a 1-based index, empty for none. -/
def avcString (texts : List Bytes) (index : UInt16) : Bytes :=
  if index = 0 then [] else (texts[index.toNat - 1]?).getD []

/-- `uriStatsValue`, with the count 1 that every record carries. -/
def uriStatsValue (uri : Bytes) : Bytes := uri ++ [0, 0, 1]

/-- The application a record names; 0 if it names none. -/
def avcAppID (catalog : List AvcApplication) (r : FlowRecord) : UInt32 :=
  ((avcApp catalog r.avc.app).map (·.id)).getD 0

def avcHost (catalog : List AvcApplication) (r : FlowRecord) : Bytes :=
  ((avcApp catalog r.avc.app).map fun app => avcString app.hosts r.avc.host).getD []

/-- The URI statistics of a record; empty if it names no URI. -/
def avcURIStats (catalog : List AvcApplication) (r : FlowRecord) : Bytes :=
  match avcApp catalog r.avc.app with
  | none => []
  | some app =>
    if 0 < r.avc.uri.toNat ∧ r.avc.uri.toNat ≤ app.uris.length then
      uriStatsValue (avcString app.uris r.avc.uri)
    else []

/-- A variable-length field: its length in one octet, or in three from 255 on. -/
def varLenField (value : Bytes) : Bytes :=
  (if value.length < 255 then [UInt8.ofNat value.length] else 255 :: fixed 2 value.length) ++ value

/-- Octets of a variable-length field. -/
def ipfixVarLenSize (n : Nat) : Nat := if n < 255 then 1 + n else 3 + n

@[simp] theorem length_varLenField (value : Bytes) :
    (varLenField value).length = ipfixVarLenSize value.length := by
  unfold varLenField ipfixVarLenSize
  split_ifs
  · simp
    omega
  · simp
    omega

/-- The wire image of a record with its application fields. -/
def avcRecord (catalog : List AvcApplication) (deviceStartMs : Int) (r : FlowRecord) : Bytes :=
  encodeIPFIXRecord deviceStartMs r ++ fixed 4 (avcAppID catalog r).toNat ++
  varLenField (avcHostPrefix ++ avcHost catalog r) ++ varLenField (avcURIStats catalog r)

/-- `buildIPFIXAppTableTemplateSet`. -/
def ipfixAppTableTemplateSetBytes : Bytes :=
  dataSet 3 (fixed 2 ipfixAppTableTemplateID ++ fixed 2 3 ++ fixed 2 1 ++
    fieldSpecs [(95, 4), (96, ipfixApplicationNameLen), (94, ipfixApplicationDescriptionLen)])

def appTableRecord (app : AvcApplication) : Bytes :=
  fixed 4 app.id.toNat ++ putFixedString app.name ipfixApplicationNameLen ++
  putFixedString app.description ipfixApplicationDescriptionLen

/-! ### sFlow -/

def sflowDatagramHeaderSize : Nat := 28
def sflowCountersSampleHeaderSize : Nat := 20
def sflowMaxFlowSampleSize : Nat := 128
def sflowMaxCountersSampleSize : Nat := 256
def syntheticSamplingRateMultiplier : Nat := 10

def sflowHeader (h : ExportHeader) (subAgentID : UInt32) (numSamples : Nat) : Bytes :=
  fixed 4 5 ++ fixed 4 1 ++ fixed 4 h.domainID.toNat ++ fixed 4 subAgentID.toNat ++
  fixed 4 h.seqNo.toNat ++ fixed 4 h.uptimeMs.toNat ++ fixed 4 numSamples

/-- The transport header that is made up for a record. -/
def transportHeader (r : FlowRecord) : Bytes :=
  if r.protocol = 17 then
    fixed 2 r.srcPort.toNat ++ fixed 2 r.dstPort.toNat ++ fixed 2 8 ++ fixed 2 0
  else if r.protocol = 6 then
    fixed 2 r.srcPort.toNat ++ fixed 2 r.dstPort.toNat ++ fixed 4 0 ++ fixed 4 0 ++
    [0x50, r.tcpFlags] ++ fixed 2 0xFFFF ++ fixed 2 0 ++ fixed 2 0
  else []

def encodeIPv4Header (r : FlowRecord) : Bytes :=
  [0x45, r.toS] ++ fixed 2 (20 + (transportHeader r).length) ++ fixed 2 0 ++ fixed 2 0x4000 ++
  [64, r.protocol] ++ fixed 2 0 ++ addr4 r.srcIP ++ addr4 r.dstIP ++ transportHeader r

/-- The frame length a sampled header claims. -/
def frameLength (r : FlowRecord) : Nat :=
  if r.bytes = 0 then 20 + 8 else min r.bytes.toNat 0xFFFFFFFF

def encodeSampledHeader (r : FlowRecord) : Bytes :=
  let header := encodeIPv4Header r
  let body := fixed 4 11 ++ fixed 4 (frameLength r) ++ fixed 4 0 ++ fixed 4 header.length ++ header ++
    zeros (padTo4 header.length)
  fixed 4 1 ++ fixed 4 body.length ++ body

def encodeFlowSample (samplePool samplingRate : UInt32) (r : FlowRecord) : Bytes :=
  let body := fixed 4 0 ++ fixed 4 r.inIface.toNat ++ fixed 4 samplingRate.toNat ++
    fixed 4 samplePool.toNat ++ fixed 4 0 ++ fixed 4 r.inIface.toNat ++ fixed 4 r.outIface.toNat ++
    fixed 4 1 ++ encodeSampledHeader r
  fixed 4 1 ++ fixed 4 body.length ++ body

/-- The samples of a datagram; the pool counts the packets of the records before. -/
def encodeFlowSamples (samplingRate : UInt32) : UInt32 → List FlowRecord → Bytes
  | _, [] => []
  | samplePool, r :: rest =>
    encodeFlowSample samplePool samplingRate r ++
      encodeFlowSamples samplingRate (samplePool + r.packets) rest

def counterRecordBytes (record : CounterRecord) : Bytes :=
  fixed 4 record.format.toNat ++ fixed 4 record.body.length ++ record.body ++
  zeros (padTo4 record.body.length)

def countersSample (seqNo : UInt32) (sample : UInt32 × List CounterRecord) : Bytes :=
  let body := fixed 4 seqNo.toNat ++ fixed 4 sample.1.toNat ++ fixed 4 sample.2.length ++
    sample.2.flatMap counterRecordBytes
  fixed 4 2 ++ fixed 4 body.length ++ body

theorem length_encodeFlowSample_le (samplePool samplingRate : UInt32) (r : FlowRecord) :
    (encodeFlowSample samplePool samplingRate r).length ≤ sflowMaxFlowSampleSize := by
  have transport : (transportHeader r).length = 8 ∨ (transportHeader r).length = 20 ∨
      (transportHeader r).length = 0 := by
    unfold transportHeader
    split_ifs <;> simp
  have header : (encodeIPv4Header r).length = 20 + (transportHeader r).length := by
    simp only [encodeIPv4Header, List.length_append, length_fixed, length_addr4, List.length_cons,
      List.length_nil]
  have aligned : padTo4 (encodeIPv4Header r).length = 0 := by
    rw [header, padTo4, if_pos (by omega)]
  simp only [encodeFlowSample, encodeSampledHeader, List.length_append, length_fixed, length_zeros,
    aligned, sflowMaxFlowSampleSize]
  omega

theorem length_encodeFlowSamples_le (samplingRate samplePool : UInt32) (records : List FlowRecord) :
    (encodeFlowSamples samplingRate samplePool records).length ≤
      sflowMaxFlowSampleSize * records.length := by
  induction records generalizing samplePool with
  | nil => simp [encodeFlowSamples]
  | cons r rest ih =>
    have first := length_encodeFlowSample_le samplePool samplingRate r
    have others := ih (samplePool + r.packets)
    rw [encodeFlowSamples, List.length_append, List.length_cons, Nat.mul_succ]
    omega

/-! ### Datagrams -/

inductive Datagram where
  | netflow5 (header : ExportHeader) (records : List FlowRecord)
  | netflow9 (header : ExportHeader) (template : Bool) (records : List FlowRecord)
  | netflow9Options (header : ExportHeader) (shape : FlowOptionShape) (ifaces : List FlowOptionIface)
  | ipfix (header : ExportHeader) (template : Bool) (records : List FlowRecord)
  | ipfixOptions (header : ExportHeader) (shape : FlowOptionShape) (ifaces : List FlowOptionIface)
  | ipfixAVC (catalog : List AvcApplication) (header : ExportHeader) (template : Bool)
      (records : List FlowRecord)
  | appTable (header : ExportHeader) (apps : List AvcApplication)
  | sflow (header : ExportHeader) (subAgentID samplingRate : UInt32) (records : List FlowRecord)
  | sflowCounters (header : ExportHeader) (subAgentID : UInt32)
      (samples : List (UInt32 × List CounterRecord))
  deriving DecidableEq, Repr

namespace Datagram

/-- A part of a datagram that is only there on request. -/
def optional (present : Bool) (part : Bytes) : Bytes := if present then part else []

/-- A data set, unless there are no records for it. -/
def recordSet (id : Nat) (records : List FlowRecord) (encode : FlowRecord → Bytes) : Bytes :=
  optional (!records.isEmpty) (dataSet id (records.flatMap encode))

/-- The wire image. -/
def bytes : Datagram → Bytes
  | .netflow5 h records =>
    fixed 2 5 ++ fixed 2 records.length ++ fixed 4 h.uptimeMs.toNat ++
    putInt 4 (h.wall / 10 ^ 9) ++ fixed 4 (h.wall % 10 ^ 9).toNat ++ fixed 4 h.seqNo.toNat ++
    [0, 0] ++ fixed 2 0 ++ records.flatMap encodeNF5Record
  | .netflow9 h template records =>
    nf9Header (records.length + template.toNat) h ++ optional template nf9TemplateBytes ++
    recordSet nf9TemplateID records encodeNF9Record
  | .netflow9Options h shape ifaces =>
    nf9Header (1 + ifaces.length) h ++ nf9OptionsTemplate shape ++
    dataSet nf9OptionsTemplateID (ifaces.flatMap (nf9OptionRecord shape))
  | .ipfix h template records =>
    ipfixMessage (h.nowMs.tdiv 1000) h (optional template ipfixTemplateSetBytes ++
      recordSet ipfixTemplateID records (encodeIPFIXRecord h.deviceStartMs))
  | .ipfixOptions h shape ifaces =>
    ipfixMessage (h.wall / 10 ^ 9) h (ipfixOptionsTemplate shape ++
      dataSet ipfixOptionsTemplateID (ifaces.flatMap (ipfixOptionRecord h.domainID shape)))
  | .ipfixAVC catalog h template records =>
    ipfixMessage (h.nowMs.tdiv 1000) h (optional template ipfixAVCTemplateSetBytes ++
      recordSet ipfixAVCTemplateID records (avcRecord catalog h.deviceStartMs))
  | .appTable h apps =>
    ipfixMessage (h.wall / 10 ^ 9) h (ipfixAppTableTemplateSetBytes ++
      dataSet ipfixAppTableTemplateID (apps.flatMap appTableRecord))
  | .sflow h subAgentID samplingRate records =>
    sflowHeader h subAgentID records.length ++ encodeFlowSamples samplingRate 0 records
  | .sflowCounters h subAgentID samples =>
    sflowHeader h subAgentID samples.length ++ samples.flatMap (countersSample h.seqNo)

/-- The number of octets on the wire. -/
def size (d : Datagram) : Nat := d.bytes.length

def flowRecords : Datagram → List FlowRecord
  | .netflow5 _ records | .netflow9 _ _ records | .ipfix _ _ records | .ipfixAVC _ _ _ records
  | .sflow _ _ _ records => records
  | .netflow9Options .. | .ipfixOptions .. | .appTable .. | .sflowCounters .. => []

/-- How many data records a datagram carries: flow records, option data records and records of the
application table. Templates and counter samples are none. -/
def dataRecords : Datagram → Nat
  | .netflow5 _ records | .netflow9 _ _ records | .ipfix _ _ records | .ipfixAVC _ _ _ records
  | .sflow _ _ _ records => records.length
  | .netflow9Options _ _ ifaces | .ipfixOptions _ _ ifaces => ifaces.length
  | .appTable _ apps => apps.length
  | .sflowCounters .. => 0

/-- What the encoder was handed. -/
def header : Datagram → ExportHeader
  | .netflow5 h _ | .netflow9 h _ _ | .netflow9Options h _ _ | .ipfix h _ _ | .ipfixOptions h _ _
  | .ipfixAVC _ h _ _ | .appTable h _ | .sflow h _ _ _ | .sflowCounters h _ _ => h

/-- Where the protocol has its sequence number. -/
def seqNoOffset : Datagram → Nat
  | .netflow5 .. => 16
  | .netflow9 .. | .netflow9Options .. => 12
  | .ipfix .. | .ipfixOptions .. | .ipfixAVC .. | .appTable .. => 8
  | .sflow .. | .sflowCounters .. => 16

/-- The sequence number as a collector reads it off the wire. -/
def wireSeqNo (d : Datagram) : Nat := value ((d.bytes.drop d.seqNoOffset).take 4)

theorem value_field {front back whole : Bytes} {offset : Nat} {n : UInt32}
    (split : whole = front ++ (fixed 4 n.toNat ++ back)) (here : front.length = offset) :
    value ((whole.drop offset).take 4) = n.toNat := by
  have field : (fixed 4 n.toNat ++ back).take 4 = fixed 4 n.toNat := by
    rw [List.take_append_of_le_length (by simp)]
    exact List.take_of_length_le (by simp)
  rw [split, ← here, List.drop_left, field, value_fixed]
  exact Nat.mod_eq_of_lt n.toNat_lt

theorem wireSeqNo_eq (d : Datagram) : d.wireSeqNo = d.header.seqNo.toNat := by
  have nf9 (count : Nat) (h : ExportHeader) (rest : Bytes) :
      value (((nf9Header count h ++ rest).drop 12).take 4) = h.seqNo.toNat :=
    value_field (by simp only [nf9Header, List.append_assoc]; rw [← List.append_assoc,
      ← List.append_assoc, ← List.append_assoc]) (by simp)
  have ipfix (time : Int) (h : ExportHeader) (sets : Bytes) :
      value (((ipfixMessage time h sets).drop 8).take 4) = h.seqNo.toNat :=
    value_field (by simp only [ipfixMessage, List.append_assoc]; rw [← List.append_assoc,
      ← List.append_assoc]) (by simp)
  have sflow (h : ExportHeader) (sub : UInt32) (count : Nat) (rest : Bytes) :
      value (((sflowHeader h sub count ++ rest).drop 16).take 4) = h.seqNo.toNat :=
    value_field (by simp only [sflowHeader, List.append_assoc]; rw [← List.append_assoc,
      ← List.append_assoc, ← List.append_assoc]) (by simp)
  cases d with
  | netflow5 h records =>
    refine value_field (by simp only [bytes, List.append_assoc]; rw [← List.append_assoc,
      ← List.append_assoc, ← List.append_assoc, ← List.append_assoc]; rfl) (by simp [seqNoOffset])
  | netflow9 h template records => 
      simp only [wireSeqNo, bytes, List.append_assoc]
      exact nf9 _ _ _
  | netflow9Options h shape ifaces =>
    simp only [wireSeqNo, bytes, List.append_assoc]
    exact nf9 _ _ _
  | ipfix h template records => exact ipfix _ _ _
  | ipfixOptions h shape ifaces => exact ipfix _ _ _
  | ipfixAVC catalog h template records => exact ipfix _ _ _
  | appTable h apps => exact ipfix _ _ _
  | sflow h subAgentID samplingRate records => exact sflow _ _ _ _
  | sflowCounters h subAgentID samples => exact sflow _ _ _ _

end Datagram

end Nl6
