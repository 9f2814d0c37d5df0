import Nl6.Flow.Progress

/-! # Sequence numbers

A collector finds lost datagrams by their sequence numbers: in IPFIX and NetFlow v5 they count data
records, in NetFlow v9 and sFlow datagrams. The four loops of a tick advance one counter, by rules that
depend on the encoder. Over any number of ticks, and however the writes end, every datagram has the
number that the rule of its protocol gives it (`FlowExporter.runTicks_numbered`).
-/

namespace Nl6

open Program (Keeps)

def FlowEncoder.countedBefore (encoder : FlowEncoder) (before : List Datagram) : Nat :=
  match encoder with
  | .netflow5 | .ipfix | .ipfixAVC _ => (before.map (·.dataRecords)).sum
  | .netflow9 | .sflow => before.length

theorem FlowEncoder.countedBefore_concat (encoder : FlowEncoder) (before : List Datagram)
    (d : Datagram) : encoder.countedBefore (before ++ [d]) =
      encoder.countedBefore before + encoder.seqIncrement d.dataRecords := by
  cases encoder <;> simp [countedBefore, seqIncrement]

/-- The datagrams have the numbers of their protocol, and so will the next one. -/
structure Numbered (encoder : FlowEncoder) (w : List Written) (seqNo : UInt32) : Prop where
  next : seqNo.toNat = encoder.countedBefore (w.map (·.1)) % 2 ^ 32
  each : ∀ front written, front ++ [written] <+: w →
    written.1.header.seqNo.toNat = encoder.countedBefore (front.map (·.1)) % 2 ^ 32

namespace Numbered

variable {encoder : FlowEncoder} {w : List Written} {seqNo : UInt32}

theorem concat (numbered : Numbered encoder w seqNo) {d : Datagram} (write : WriteReturn)
    (header : d.header.seqNo = seqNo) :
    Numbered encoder (w ++ [(d, write)])
      (seqNo + UInt32.ofNat (encoder.seqIncrement d.dataRecords)) := by
  refine ⟨?_, fun front written here => ?_⟩
  · rw [UInt32.toNat_add, UInt32.toNat_ofNat', numbered.next, List.map_append, List.map_singleton,
      FlowEncoder.countedBefore_concat, ← Nat.add_mod]
  · rcases List.prefix_concat_iff.mp here with whole | earlier
    · obtain ⟨rfl, same⟩ := List.append_inj' whole rfl
      cases same
      rw [header]
      exact numbered.next
    · exact numbered.each front written earlier

theorem step {p q : Progress} (numbered : Numbered encoder p.written p.seqNo)
    (step : Progress.Step encoder True p q) : Numbered encoder q.written q.seqNo := by
  cases step with
  | data write records ms header data counted =>
    have after := numbered.concat write header
    rwa [counted trivial] at after
  | counters write sflow header =>
    subst sflow
    exact numbered.concat write header
  | oversize => exact numbered

theorem steps {p q : Progress} (numbered : Numbered encoder p.written p.seqNo)
    (steps : Progress.Steps encoder True p q) : Numbered encoder q.written q.seqNo := by
  induction steps with
  | refl => exact numbered
  | tail _ step ih => exact ih.step step

end Numbered

namespace FlowExporter

theorem runTicks_keeps {fe : FlowExporter} {inputs : List TickInput} {w : List Written}
    (ipv4 : ∀ input ∈ inputs, ∀ r ∈ input.expired, r.IsIPv4)
    (numbered : Numbered fe.encoder w fe.seqNo) :
    Keeps wire w (fe.runTicks inputs) fun w' result =>
      ∃ last, result = some last ∧ Numbered fe.encoder w' last.seqNo := by
  induction inputs generalizing fe w with
  | nil => exact ⟨fe, rfl, numbered⟩
  | cons input inputs ih =>
    have all : True → ∀ r ∈ input.expired, r.IsIPv4 := fun _ => ipv4 input List.mem_cons_self
    refine (tick_keeps all).fst.bind ?_
    rintro w' - ⟨handed, after, stats, rfl, continues, steps⟩
    have coded : after.encoder = fe.encoder := by rw [continues]
    rw [← coded]
    refine ih (fun input member => ipv4 input (List.mem_cons_of_mem _ member)) ?_
    rw [coded]
    exact numbered.steps steps

/-- **Sequence numbers follow the rule of the protocol.** In every run of ticks of a new exporter, the
number on the wire is, modulo 2³², the number of data records in the datagrams that were handed to the
socket before (IPFIX, NetFlow v5), or the number of these datagrams (NetFlow v9, sFlow). -/
theorem runTicks_numbered (fe : FlowExporter) (fresh : fe.seqNo = 0) (inputs : List TickInput)
    (ipv4 : ∀ input ∈ inputs, ∀ r ∈ input.expired, r.IsIPv4)
    (environment : List ExporterEvent → (op : ExporterOp) → op.Reply) (past : List ExporterEvent) :
    ∃ events last, (fe.runTicks inputs).run environment past = (events, some last) ∧
      ∀ front d write, front ++ [(d, write)] <+: events.filterMap flowWrite →
        d.wireSeqNo = fe.encoder.countedBefore (front.map (·.1)) % 2 ^ 32 := by
  have start : Numbered fe.encoder [] fe.seqNo := by
    refine ⟨?_, fun front written here => ?_⟩
    · rw [fresh]
      cases fe.encoder <;> rfl
    · simp at here
  obtain ⟨last, returned, numbered⟩ := (runTicks_keeps ipv4 start).of_run environment past
  change Numbered _ ((Monitor.collect flowWrite).after [] _) _ at numbered
  rw [Monitor.after_collect, List.nil_append] at numbered
  refine ⟨_, last, Prod.ext rfl returned, fun front d write here => ?_⟩
  rw [d.wireSeqNo_eq]
  exact numbered.each front (d, write) here

/-- Two ticks of an IPFIX exporter with one record each. -/
theorem runTicks_numbered_ipfix :
    let fe : FlowExporter := ⟨.ipfix, 1, 0, 0, 60 * 10 ^ 9, 10, none, [], 0, none⟩
    let r : FlowRecord := { srcIP := [10, 0, 0, 1], dstIP := [10, 0, 0, 2] }
    let input : TickInput := { now := 10 ^ 9, expired := [r], mtu := 576, mtu_valid := by decide }
    fe.seqNo = 0 ∧ (∀ tick ∈ [input, input], ∀ r ∈ tick.expired, r.IsIPv4) ∧
      ∃ events last,
        (fe.runTicks [input, input]).run (fun _ => calmReplies) [] = (events, some last) ∧
        ∀ front d write, front ++ [(d, write)] <+: events.filterMap flowWrite →
          d.wireSeqNo = (front.map (·.1.dataRecords)).sum % 2 ^ 32 := by
  intro fe r input
  have ipv4 : ∀ tick ∈ [input, input], ∀ r ∈ tick.expired, r.IsIPv4 := by decide
  obtain ⟨events, last, returned, numbered⟩ :=
    runTicks_numbered fe rfl [input, input] ipv4 (fun _ => calmReplies) []
  refine ⟨rfl, ipv4, events, last, returned, fun front d write here => ?_⟩
  have number := numbered front d write here
  rwa [FlowEncoder.countedBefore, List.map_map] at number

end FlowExporter

end Nl6
