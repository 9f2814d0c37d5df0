import Nl6.Flow.Tick

/-! # The exporter and its encoders agree on the size of a batch

The flow loop takes a batch off the expired records before the encoder sees it, so an encoder that
then takes fewer loses records that are already counted. The loop and each encoder calculate the
number of records in a datagram from the same sizes but in separate places: what the loop allows
(`FlowEncoder.batchCapacity`) the encoder takes whole, and the datagram stays within the buffer
(`FlowExporter.encodeBatch_spec`). The encoder that measures its records decides alone
(`encodeMeasured_spec`): it leaves a record for the next datagram, or drops it when it fits none.
-/

namespace Nl6

open Octets

theorem padTo4_le (n : Nat) : padTo4 n ≤ 3 := by
  unfold padTo4
  split <;> omega

theorem length_flatMap_const {encode : FlowRecord → Bytes} {size : Nat}
    (each : ∀ r, (encode r).length = size) (records : List FlowRecord) :
    (records.flatMap encode).length = records.length * size := by
  induction records with
  | nil => simp
  | cons r rest ih =>
    rw [List.flatMap_cons, List.length_append, each, ih, List.length_cons, Nat.succ_mul,
      Nat.add_comm]

/-! ### Sizes -/

theorem length_nf9TemplateBytes : nf9TemplateBytes.length = nf9TemplFlowSetSize := rfl

theorem length_ipfixTemplateSetBytes : ipfixTemplateSetBytes.length = ipfixTemplSetSize := rfl

namespace Datagram

theorem size_netflow5 (h : ExportHeader) (records : List FlowRecord) :
    (netflow5 h records).size = netFlow5HeaderLen + records.length * netFlow5RecordLen := by
  simp only [size, bytes, List.length_append, length_fixed, length_putInt,
    length_flatMap_const length_encodeNF5Record, List.length_cons, List.length_nil,
    netFlow5HeaderLen, netFlow5RecordLen]

theorem length_optional_recordSet (template : Bool) (image : Bytes) (id : Nat)
    (encode : FlowRecord → Bytes) (records : List FlowRecord) :
    (optional template image ++ recordSet id records encode).length =
      (if template then image.length else 0) +
        if records.isEmpty then 0
        else 4 + (records.flatMap encode).length + padTo4 (4 + (records.flatMap encode).length) := by
  cases template <;> cases records <;> simp [optional, recordSet, -List.flatMap_cons]

theorem size_netflow9_le (h : ExportHeader) (template : Bool) (records : List FlowRecord) :
    (netflow9 h template records).size ≤
      nf9HeaderSize + 4 + (if template then nf9TemplFlowSetSize else 0) +
        records.length * nf9RecordSize + nf9DataPadBytes records.length := by
  have parts := length_optional_recordSet template nf9TemplateBytes nf9TemplateID
    encodeNF9Record records
  have header : (nf9Header (records.length + template.toNat) h).length = 20 := by
    simp [nf9Header]
  simp only [size, bytes, List.append_assoc, List.length_append] at parts ⊢
  rw [header, parts, length_nf9TemplateBytes, length_flatMap_const length_encodeNF9Record]
  unfold nf9HeaderSize nf9DataPadBytes nf9DataFlowSetHdrSize nf9RecordSize
  cases records <;> simp only [List.isEmpty_nil, List.isEmpty_cons, ↓reduceIte,
    Bool.false_eq_true] <;> omega

theorem length_ipfixMessage (time : Int) (h : ExportHeader) (sets : Bytes) :
    (ipfixMessage time h sets).length = ipfixHeaderSize + sets.length := by
  simp only [ipfixMessage, List.length_append, length_fixed, length_putInt, ipfixHeaderSize]

theorem size_ipfix_le (h : ExportHeader) (template : Bool) (records : List FlowRecord) :
    (ipfix h template records).size ≤
      ipfixHeaderSize + 4 + (if template then ipfixTemplSetSize else 0) +
        records.length * ipfixRecordSize + ipfixDataPadBytes records.length := by
  rw [size, bytes, length_ipfixMessage, length_optional_recordSet, length_ipfixTemplateSetBytes,
    length_flatMap_const (length_encodeIPFIXRecord h.deviceStartMs)]
  unfold ipfixHeaderSize ipfixDataPadBytes ipfixDataSetHdrSize ipfixRecordSize
  cases records <;> simp only [List.isEmpty_nil, List.isEmpty_cons, ↓reduceIte,
    Bool.false_eq_true] <;> omega

theorem size_sflow_le (h : ExportHeader) (subAgentID samplingRate : UInt32)
    (records : List FlowRecord) :
    (sflow h subAgentID samplingRate records).size ≤
      sflowDatagramHeaderSize + sflowMaxFlowSampleSize * records.length := by
  have samples := length_encodeFlowSamples_le samplingRate 0 records
  simp only [size, bytes, sflowHeader, List.length_append, length_fixed,
    sflowDatagramHeaderSize]
  omega

theorem size_ipfixAVC_le (catalog : List AvcApplication) (h : ExportHeader) (template : Bool)
    (records : List FlowRecord) :
    (ipfixAVC catalog h template records).size ≤
      ipfixHeaderSize + (if template then ipfixAVCTemplateSetBytes.length else 0) +
        ipfixDataSetHdrSize + (records.flatMap (avcRecord catalog h.deviceStartMs)).length + 3 := by
  have padding := padTo4_le (4 + (records.flatMap (avcRecord catalog h.deviceStartMs)).length)
  rw [size, bytes, length_ipfixMessage, length_optional_recordSet]
  unfold ipfixDataSetHdrSize
  split <;> split <;> omega

end Datagram

/-! ### Records of a known size -/

variable {length : Nat} {records : List FlowRecord}

/-- The number of records that fit with their padding. Leaving one out makes room for the padding of
the others. -/
theorem fit_with_padding (pad : Nat → Nat) {overhead size n : Nat} (large : 4 ≤ size)
    (small : ∀ k, pad k ≤ 3) (room : overhead + size ≤ length) (few : n ≤
      let fit := (length - overhead) / size
      if 0 < fit ∧ length < overhead + fit * size + pad fit then fit - 1 else fit) :
    overhead + n * size + pad n ≤ length := by
  have fits : (length - overhead) / size * size ≤ length - overhead := Nat.div_mul_le_self _ _
  dsimp only at few
  generalize (length - overhead) / size = fit at few fits
  have padding := small n
  rcases Nat.eq_zero_or_pos n with rfl | positive
  · omega
  split_ifs at few with full
  · have fewer : (n + 1) * size ≤ fit * size := Nat.mul_le_mul_right size (by omega)
    rw [Nat.succ_mul] at fewer
    omega
  · rcases Nat.lt_or_ge n fit with below | reached
    · have fewer : (n + 1) * size ≤ fit * size := Nat.mul_le_mul_right size below
      rw [Nat.succ_mul] at fewer
      omega
    · have same : n = fit := by omega
      subst same
      omega

theorem encodeTemplated_of_le {headerSize templSize recordSize : Nat} {pad : Nat → Nat}
    {make : Bool → List FlowRecord → Datagram} {template : Bool}
    (something : records ≠ [] ∨ template = true)
    (room : headerSize + 4 + (if template then templSize else 0) + recordSize + pad 1 ≤ length)
    (few : records.length ≤
      let overhead := headerSize + 4 + if template then templSize else 0
      let fit := (length - overhead) / recordSize
      if 0 < fit ∧ length < overhead + fit * recordSize + pad fit then fit - 1 else fit) :
    encodeTemplated headerSize templSize recordSize pad make records template length =
      .ok (some (make template records)) := by
  have asked : (records.isEmpty && !template) = false := by
    rcases something with records | template
    · simp [List.isEmpty_iff, records]
    · simp [template]
  unfold encodeTemplated
  rw [asked, if_neg Bool.false_ne_true]
  dsimp only at few ⊢
  rw [if_neg (by omega), if_neg (by omega), if_neg (Nat.not_lt.mpr few)]

theorem FlowEncoder.batchCapacity_le {encoder : FlowEncoder} {overhead n : Nat}
    (oneSize : encoder.maxRecordSize = 0) (unlimited : encoder.maxRecordsPerDatagram = 0)
    (few : n ≤ encoder.batchCapacity overhead length) :
    n ≤
      let fit := (length - overhead) / encoder.packetSizes.2.2
      if 0 < fit ∧ length < overhead + fit * encoder.packetSizes.2.2 + encoder.trailingPadBytes fit
      then fit - 1 else fit := by
  unfold FlowEncoder.batchCapacity at few
  simp only [oneSize, unlimited, lt_irrefl, false_and, ↓reduceIte] at few
  split_ifs at few with room full
  · exact few.trans_eq (if_pos full).symm
  · exact few.trans_eq (if_neg full).symm
  · omega

namespace FlowExporter

variable {fe : FlowExporter} {input : TickInput}

/-- The encoder does not measure its records. -/
def Sized (fe : FlowExporter) : Prop := ∀ catalog, fe.encoder ≠ .ipfixAVC catalog

theorem capacity_pos (sized : fe.Sized) (input : TickInput) (template : Bool) :
    0 < fe.capacity input template := by
  have budget := input.le_budget
  unfold capacity
  cases coded : fe.encoder with
  | ipfixAVC catalog => exact absurd coded (sized catalog)
  | _ =>
    cases template <;>
      simp only [FlowEncoder.overhead, FlowEncoder.batchCapacity, FlowEncoder.maxRecordSize,
        FlowEncoder.packetSizes, FlowEncoder.trailingPadBytes, FlowEncoder.maxRecordsPerDatagram,
        netFlow5HeaderLen, netFlow5RecordLen, netFlow5MaxRecords, nf9HeaderSize,
        nf9TemplFlowSetSize, nf9RecordSize, ipfixHeaderSize, ipfixTemplSetSize, ipfixRecordSize,
        sflowDatagramHeaderSize, sflowMaxFlowSampleSize, lt_irrefl, ↓reduceIte,
        false_and, Bool.false_eq_true, Nat.reduceAdd, Nat.reduceLT] <;>
      split_ifs <;> omega

/-- **The encoder takes the batch.** A batch within the capacity of the loop is encoded whole, in a
datagram within the budget; an encoder without templates has nothing to send for an empty batch. -/
theorem encodeBatch_spec (sized : fe.Sized) {batch : List FlowRecord} {template : Bool}
    (h : ExportHeader) (something : batch ≠ [] ∨ template = true)
    (ipv4 : ∀ r ∈ batch, r.IsIPv4)
    (few : batch.length ≤ fe.capacity input template) :
    (batch = [] ∧ fe.encodeBatch input h batch template = .ok none) ∨
      ∃ d, fe.encodeBatch input h batch template = .ok (some d) ∧ d.flowRecords = batch ∧
        d.dataRecords = batch.length ∧ d.header = h ∧ d.size ≤ input.budget := by
  have budget := input.le_budget
  unfold capacity at few
  cases coded : fe.encoder with
  | ipfixAVC catalog => exact absurd coded (sized catalog)
  | netflow5 =>
    rcases batch with - | ⟨first, rest⟩
    · exact .inl ⟨rfl, by simp [encodeBatch, coded, encodeNetFlow5]⟩
    right
    have all : (first :: rest).filter (fun r => decide r.IsIPv4) = first :: rest :=
      List.filter_eq_self.mpr fun r member => decide_eq_true (ipv4 r member)
    simp only [coded, FlowEncoder.overhead, FlowEncoder.batchCapacity, FlowEncoder.maxRecordSize,
      FlowEncoder.packetSizes, FlowEncoder.trailingPadBytes, FlowEncoder.maxRecordsPerDatagram,
      netFlow5HeaderLen, netFlow5RecordLen, netFlow5MaxRecords, lt_irrefl, ite_self,
      ↓reduceIte] at few
    have counted : (first :: rest).length ≤ netFlow5MaxRecords := by
      unfold netFlow5MaxRecords
      split_ifs at few <;> omega
    have room : netFlow5HeaderLen + (first :: rest).length * netFlow5RecordLen ≤ input.budget := by
      unfold netFlow5HeaderLen netFlow5RecordLen
      split_ifs at few <;> omega
    refine ⟨.netflow5 h (first :: rest), ?_, rfl, rfl, rfl, ?_⟩
    · rw [encodeBatch, coded]
      rw [encodeNetFlow5, all, List.isEmpty_cons, if_neg Bool.false_ne_true,
        if_neg (Nat.not_lt.mpr counted), if_neg (Nat.not_lt.mpr room)]
    · rw [Datagram.size_netflow5]
      exact room
  | netflow9 =>
    right
    rw [coded] at few
    have needed : FlowEncoder.netflow9.overhead template + nf9RecordSize + nf9DataPadBytes 1 ≤
        input.budget := by
      cases template <;> exact le_trans (by decide) budget
    have fits := FlowEncoder.batchCapacity_le rfl rfl few
    refine ⟨.netflow9 h template batch, ?_, rfl, rfl, rfl, ?_⟩
    · rw [encodeBatch, coded]
      exact encodeTemplated_of_le something needed fits
    · exact (Datagram.size_netflow9_le h template batch).trans
        (fit_with_padding nf9DataPadBytes (by decide) (fun k => padTo4_le _)
          (le_trans (Nat.le_add_right _ _) needed) fits)
  | ipfix =>
    right
    rw [coded] at few
    have needed : FlowEncoder.ipfix.overhead template + ipfixRecordSize + ipfixDataPadBytes 1 ≤
        input.budget := by
      cases template <;> exact le_trans (by decide) budget
    have fits := FlowEncoder.batchCapacity_le rfl rfl few
    refine ⟨.ipfix h template batch, ?_, rfl, rfl, rfl, ?_⟩
    · rw [encodeBatch, coded]
      exact encodeTemplated_of_le something needed fits
    · exact (Datagram.size_ipfix_le h template batch).trans
        (fit_with_padding ipfixDataPadBytes (by decide) (fun k => padTo4_le _)
          (le_trans (Nat.le_add_right _ _) needed) fits)
  | sflow =>
    rcases batch with - | ⟨first, rest⟩
    · exact .inl ⟨rfl, by simp [encodeBatch, coded, encodeFlowDatagram]⟩
    right
    simp only [coded, FlowEncoder.overhead, FlowEncoder.batchCapacity, FlowEncoder.maxRecordSize,
      FlowEncoder.packetSizes, FlowEncoder.trailingPadBytes, FlowEncoder.maxRecordsPerDatagram,
      sflowDatagramHeaderSize, sflowMaxFlowSampleSize, lt_irrefl, ite_self, false_and,
      ↓reduceIte] at few
    have counted : (first :: rest).length ≤
        (input.budget - sflowDatagramHeaderSize) / sflowMaxFlowSampleSize := by
      unfold sflowDatagramHeaderSize sflowMaxFlowSampleSize
      split_ifs at few <;> omega
    refine ⟨.sflow h fe.subAgentID fe.samplingRate (first :: rest), ?_, rfl, rfl, rfl, ?_⟩
    · rw [encodeBatch, coded]
      rw [encodeFlowDatagram, List.isEmpty_cons, if_neg Bool.false_ne_true,
        if_neg (Nat.not_lt.mpr (le_trans (by decide) budget))]
      dsimp only
      rw [if_neg (Nat.not_lt.mpr counted)]
    · refine (Datagram.size_sflow_le h fe.subAgentID fe.samplingRate (first :: rest)).trans ?_
      have room := (Nat.le_div_iff_mul_le (by decide)).mp counted
      rw [Nat.mul_comm]
      unfold sflowDatagramHeaderSize at room ⊢
      omega

end FlowExporter

/-! ### Records that are measured -/

/-- A record fits into the room, and its texts into their length fields. -/
def AvcFits (catalog : List AvcApplication) (room : Nat) (r : FlowRecord) : Prop :=
  (avcHostPrefix ++ avcHost catalog r).length ≤ 0xFFFF ∧ (avcURIStats catalog r).length ≤ 0xFFFF ∧
    ipfixRecordSize + 4 + ipfixVarLenSize (avcHostPrefix ++ avcHost catalog r).length +
      ipfixVarLenSize (avcURIStats catalog r).length ≤ room

instance (catalog : List AvcApplication) (room : Nat) (r : FlowRecord) :
    Decidable (AvcFits catalog room r) :=
  inferInstanceAs (Decidable (_ ∧ _ ∧ _))

theorem AvcFits.mono {catalog : List AvcApplication} {room more : Nat} {r : FlowRecord}
    (fits : AvcFits catalog room r) (le : room ≤ more) : AvcFits catalog more r :=
  ⟨fits.1, fits.2.1, fits.2.2.trans le⟩

theorem length_avcRecord (catalog : List AvcApplication) (deviceStartMs : Int) (r : FlowRecord) :
    (avcRecord catalog deviceStartMs r).length =
      ipfixRecordSize + 4 + ipfixVarLenSize (avcHostPrefix ++ avcHost catalog r).length +
        ipfixVarLenSize (avcURIStats catalog r).length := by
  simp only [avcRecord, List.length_append, length_encodeIPFIXRecord, length_fixed,
    length_varLenField, ipfixRecordSize]

theorem encodeAVCRecord_eq (catalog : List AvcApplication) (deviceStartMs : Int) (room : Nat)
    (r : FlowRecord) :
    encodeAVCRecord catalog deviceStartMs room r =
      if AvcFits catalog room r then some (avcRecord catalog deviceStartMs r) else none := by
  have front : (encodeIPFIXRecord deviceStartMs r ++ fixed 4 (avcAppID catalog r).toNat).length =
      ipfixRecordSize + 4 := by
    simp [ipfixRecordSize]
  unfold encodeAVCRecord putIPFIXVarLen
  dsimp only
  rw [front]
  by_cases fits : AvcFits catalog room r
  · rw [if_pos fits]
    obtain ⟨host, uri, all⟩ := fits
    rw [if_neg (by omega), if_neg (by omega)]
    dsimp only
    rw [length_varLenField, if_neg (by omega), avcRecord]
  · rw [if_neg fits]
    split_ifs with small full
    · rfl
    · rfl
    · dsimp only
      rw [length_varLenField, if_pos]
      unfold AvcFits at fits
      omega

section Measure

variable (catalog : List AvcApplication) (deviceStartMs : Int) {length : Nat}

theorem measure_cons {pos : Nat} (behind : pos ≤ length - 3) (r : FlowRecord)
    (rest : List FlowRecord) :
    measure catalog deviceStartMs length pos (r :: rest) =
      if AvcFits catalog (length - 3 - pos) r then
        measure catalog deviceStartMs length
          (pos + (avcRecord catalog deviceStartMs r).length) rest + 1
      else 0 := by
  rw [measure, if_neg (Nat.not_lt.mpr behind), encodeAVCRecord_eq]
  split_ifs <;> rfl

theorem measure_spec {pos : Nat} (behind : pos ≤ length - 3) (records : List FlowRecord) :
    let taken := records.take (measure catalog deviceStartMs length pos records)
    (∀ r ∈ taken, AvcFits catalog (length - 3 - pos) r) ∧
      pos + (taken.flatMap (avcRecord catalog deviceStartMs)).length ≤ length - 3 := by
  induction records generalizing pos with
  | nil => simpa [measure] using behind
  | cons r rest ih =>
    rw [measure_cons catalog deviceStartMs behind]
    split_ifs with fits
    · have wide := fits.2.2
      rw [← length_avcRecord catalog deviceStartMs r] at wide
      obtain ⟨each, all⟩ := @ih (pos + (avcRecord catalog deviceStartMs r).length) (by omega)
      dsimp only at each all ⊢
      rw [List.take_succ_cons, List.flatMap_cons, List.length_append, ← Nat.add_assoc]
      refine ⟨fun s member => ?_, all⟩
      rcases List.mem_cons.mp member with rfl | member
      · exact fits
      · exact (each s member).mono (by omega)
    · simpa using behind

theorem measure_le (pos : Nat) (records : List FlowRecord) :
    measure catalog deviceStartMs length pos records ≤ records.length := by
  induction records generalizing pos with
  | nil => simp [measure]
  | cons r rest ih =>
    rw [measure]
    split_ifs with full
    · exact Nat.zero_le _
    · cases encodeAVCRecord catalog deviceStartMs (length - 3 - pos) r with
      | none => exact Nat.zero_le _
      | some image => exact Nat.succ_le_succ (ih _)

end Measure

/-- The room for a record in a datagram without a template. -/
def avcRoom (length : Nat) : Nat := length - (ipfixHeaderSize + ipfixDataSetHdrSize + 3)

/-- **The measuring encoder.** It drops the first record only if that fits no datagram, and only in a
turn without a template; otherwise it answers with a datagram within the buffer that has exactly the
records it consumed, of which there may be none only if it has the template. -/
theorem encodeMeasured_spec (catalog : List AvcApplication) (h : ExportHeader) {template : Bool}
    (wide : 528 ≤ length) (something : records ≠ [] ∨ template = true) :
    (template = false ∧ (∃ r rest, records = r :: rest ∧ ¬ AvcFits catalog (avcRoom length) r) ∧
        encodeMeasured catalog h records template length = .ok ⟨none, 1, 1⟩) ∨
      ∃ n, n ≤ records.length ∧ (n = 0 → template = true) ∧
        (∀ r ∈ records.take n, AvcFits catalog (avcRoom length) r) ∧
        (Datagram.ipfixAVC catalog h template (records.take n)).size ≤ length ∧
        encodeMeasured catalog h records template length =
          .ok ⟨some (.ipfixAVC catalog h template (records.take n)), n, 0⟩ := by
  have asked : (records.isEmpty && !template) = false := by
    rcases something with records | template
    · simp [List.isEmpty_iff, records]
    · simp [template]
  have short : ipfixHeaderSize + (if template then ipfixAVCTemplateSetBytes.length else 0) +
      ipfixDataSetHdrSize ≤ 124 := by
    cases template <;> decide
  unfold encodeMeasured
  rw [asked, if_neg Bool.false_ne_true]
  dsimp only
  rw [if_neg (by omega)]
  rcases records with - | ⟨first, rest⟩
  · -- Only the template.
    refine .inr ⟨0, le_rfl, fun _ => something.resolve_left (by simp), by simp, ?_, by simp⟩
    have size := Datagram.size_ipfixAVC_le catalog h template []
    simp only [List.take_nil, List.flatMap_nil, List.length_nil] at size ⊢
    omega
  rw [List.isEmpty_cons, if_neg Bool.false_ne_true, if_neg (by omega)]
  generalize place : ipfixHeaderSize + (if template then ipfixAVCTemplateSetBytes.length else 0) +
    ipfixDataSetHdrSize = pos at short
  have behind : pos ≤ length - 3 := by omega
  obtain ⟨each, all⟩ := measure_spec catalog h.deviceStartMs behind (first :: rest)
  have fewer := @measure_le catalog h.deviceStartMs length pos (first :: rest)
  generalize counted : measure catalog h.deviceStartMs length pos (first :: rest) = n
    at each all fewer
  have size := Datagram.size_ipfixAVC_le catalog h template ((first :: rest).take n)
  have sent : (∀ r ∈ (first :: rest).take n, AvcFits catalog (avcRoom length) r) ∧
      (Datagram.ipfixAVC catalog h template ((first :: rest).take n)).size ≤ length :=
    ⟨fun r member => (each r member).mono (by unfold avcRoom; omega), by omega⟩
  split_ifs with none alone
  · refine .inl ⟨by simpa using alone, ⟨first, rest, rfl, fun fits => ?_⟩, rfl⟩
    have room : avcRoom length = length - 3 - pos := by
      have bare : template = false := by simpa using alone
      rw [← place, bare]
      unfold avcRoom
      simp only [Bool.false_eq_true, ↓reduceIte]
      omega
    rw [measure_cons catalog h.deviceStartMs behind, if_pos (room ▸ fits)] at counted
    omega
  · exact .inr ⟨n, fewer, fun _ => by simpa using alone, sent.1, sent.2, by rw [none]; rfl⟩
  · exact .inr ⟨n, fewer, fun zero => absurd zero none, sent.1, sent.2, rfl⟩

end Nl6
