import Nl6.Flow.Turns

/-! # What a tick does to the socket, the sequence number and the statistics

The four loops of a tick share the sequence number and the statistics. `Progress.Step` lists what any
of them does to these, and `FlowExporter.tick_keeps` says that a tick is a sequence of such steps: what
is true of one step is true of every tick.
-/

namespace Nl6

open Program (Keeps)
open Exporter

/-- How far a tick has come. -/
structure Progress where
  seqNo : UInt32
  stats : FlowTickStats
  written : List Written
  /-- Records that fit no datagram. -/
  oversized : Nat

namespace Progress

/-- What the loops do. The number of records that a datagram is counted for is the number in it where
all records are IPv4. -/
inductive Step (encoder : FlowEncoder) (ipv4 : Prop) : Progress → Progress → Prop where
  /-- A datagram of records, accounted for by the outcome of its write. -/
  | data {p : Progress} {d : Datagram} (write : WriteReturn) {n : Nat} (records : Nat) (ms : Int)
      (numbered : d.header.seqNo = p.seqNo) (data : d.isCounters = false)
      (counted : ipv4 → d.dataRecords = n) :
      Step encoder ipv4 p
        ⟨p.seqNo + UInt32.ofNat (encoder.seqIncrement n),
          { p.stats.wrote write.ok d.size records with lastTemplateMs := ms },
          p.written ++ [(d, write)], p.oversized⟩
  /-- A datagram of counter samples, accounted for as sent. -/
  | counters {p : Progress} {d : Datagram} (write : WriteReturn) (sflow : encoder = .sflow)
      (numbered : d.header.seqNo = p.seqNo) (counters : d.isCounters = true) :
      Step encoder ipv4 p
        ⟨p.seqNo + 1, p.stats.sent d.size 0, p.written ++ [(d, write)], p.oversized⟩
  /-- A record that fits no datagram. -/
  | oversize {p : Progress} :
      Step encoder ipv4 p ⟨p.seqNo, p.stats.failed 1, p.written, p.oversized + 1⟩

abbrev Steps (encoder : FlowEncoder) (ipv4 : Prop) : Progress → Progress → Prop :=
  Relation.ReflTransGen (Step encoder ipv4)

end Progress

namespace FlowExporter

open Progress (Steps)

variable {fe : FlowExporter} {input : TickInput} {scenActive : Bool} {good : FlowRecord → Prop}
  {K : Type} {N : Monitor exporterRequests K} {inv : K → Prop} {w : List Written} {k : K}
  {ipv4 : Prop} {expired : List FlowRecord} {sendTemplate : Bool} {Row : Type}

theorem countP_oversized_eq_zero {records : List FlowRecord}
    (fit : ∀ r ∈ records, fe.oversized input r = false) :
    records.countP (fe.oversized input) = 0 :=
  List.countP_eq_zero.mpr fun r member => by simp [fit r member]

theorem steps_of_move (w : List Written) {loop : FlowLoop} {wrote : Option Written}
    {result : Turn FlowLoop} (all : ipv4 → ∀ r ∈ loop.expired, r.IsIPv4) (n : Nat)
    (move : FlowMove fe input loop wrote result) :
    ∃ m, Steps fe.encoder ipv4 ⟨loop.seqNo, loop.stats, w, n⟩
        ⟨result.state.seqNo, result.state.stats, w ++ wrote.toList, n + m⟩ ∧
      loop.expired.countP (fe.oversized input) =
        m + result.state.expired.countP (fe.oversized input) := by
  cases move with
  | @sent batch rest d write split carries progress fit =>
    obtain ⟨ms, stats⟩ := fe.afterWrite_stats input loop write.ok d batch rest
    have counted (holds : ipv4) : d.dataRecords = batch.length :=
      (carries.whole fun r member =>
        all holds r (split ▸ List.mem_append_left rest member)).2.1
    refine ⟨0, .single ?_, ?_⟩
    · rw [FlowLoop.turn_state, stats, afterWrite_seqNo]
      exact .data write batch.length ms carries.numbered carries.data counted
    · rw [FlowLoop.turn_state, afterWrite_expired, split, List.countP_append,
        countP_oversized_eq_zero fit]
  | @oversize r rest split large =>
    refine ⟨1, .single ?_, ?_⟩
    · rw [FlowLoop.turn_state, Option.toList_none, List.append_nil]
      exact .oversize
    · rw [FlowLoop.turn_state, split, List.countP_cons_of_pos large, Nat.add_comm]
  | @nothing rest suffix done fit =>
    refine ⟨0, ?_, ?_⟩
    · rw [Option.toList_none, List.append_nil]
      exact .refl
    · rw [countP_oversized_eq_zero fit]
      exact ((Nat.zero_add _).trans
        (countP_oversized_eq_zero fun r member => fit r (suffix.subset member))).symm

theorem flowLoop_steps (watches : Watches input scenActive good N inv)
    (all : ipv4 → ∀ r ∈ expired, r.IsIPv4) (known : ∀ r ∈ expired, good r) (holds : inv k) :
    Keeps (wire.both N) (w, k) (fe.flowLoop input scenActive expired sendTemplate)
      fun l result => ∃ last, result = some last ∧ inv l.2 ∧
        Steps fe.encoder ipv4 ⟨fe.seqNo, {}, w, 0⟩
          ⟨last.seqNo, last.stats, l.1, expired.countP (fe.oversized input)⟩ := by
  refine (flowLoop_keeps watches
    (fun l loop => loop.expired <:+ expired ∧ ∃ n, Steps fe.encoder ipv4 ⟨fe.seqNo, {}, w, 0⟩
      ⟨loop.seqNo, loop.stats, l, n⟩ ∧
      n + loop.expired.countP (fe.oversized input) = expired.countP (fe.oversized input))
    ?_ known holds ⟨List.suffix_rfl, 0, .refl, Nat.zero_add _⟩).mono ?_
  · rintro l loop wrote result ⟨suffix, n, steps, total⟩ move
    obtain ⟨m, more, split⟩ := steps_of_move l
      (fun holds r member => all holds r (suffix.subset member)) n move
    exact ⟨move.suffix.trans suffix, n + m, steps.trans more, by omega⟩
  · rintro l result ⟨last, returned, holds, ⟨-, n, steps, total⟩, -, fit⟩
    rw [countP_oversized_eq_zero fit, Nat.add_zero] at total
    rw [total] at steps
    exact ⟨last, returned, holds, steps⟩

/-! ### Counter samples and tables -/

theorem encodeCounterDatagram_numbered {h : ExportHeader} {subAgentID : UInt32}
    {records : List CounterRecord} {length : Nat} {d : Datagram}
    (encoded : encodeCounterDatagram h subAgentID records length = .ok (some d)) :
    d.header = h ∧ d.isCounters = true ∧ d.flowRecords = [] := by
  unfold encodeCounterDatagram at encoded
  dsimp only at encoded
  split_ifs at encoded <;> cases encoded
  exact ⟨rfl, rfl, rfl⟩

theorem counterTurn_keeps (watches : Watches input scenActive good N inv)
    (coded : fe.encoder = .sflow) (n : Nat) {loop : RowLoop CounterRecord} (holds : inv k) :
    Keeps (wire.both N) (w, k) (fe.counterTurn input loop) fun l result =>
      inv l.2 ∧ Steps fe.encoder ipv4 ⟨loop.seqNo, loop.stats, w, n⟩
        ⟨result.state.seqNo, result.state.stats, l.1, n⟩ ∧
      ∀ next, result = .again next → next.remaining.length < loop.remaining.length := by
  unfold counterTurn
  dsimp only
  split_ifs with idle
  · exact ⟨holds, .refl, fun _ again => nomatch again⟩
  rw [Bool.or_eq_true, not_or, decide_eq_true_iff, List.isEmpty_iff] at idle
  refine wallClock_keeps watches holds fun wall k' holds => ?_
  split
  · exact ⟨holds, .refl, fun _ again => nomatch again⟩
  · exact ⟨holds, .refl, fun _ again => nomatch again⟩
  · next d encoded =>
      obtain ⟨header, counters, empty⟩ := encodeCounterDatagram_numbered encoded
      obtain ⟨permitted, kept⟩ := watches.other k' d holds empty
      refine ⟨⟨trivial, permitted⟩, fun write => ⟨kept write, .single ?_, ?_⟩⟩
      · exact .counters write coded (by rw [header]; rfl) counters
      · intro next again
        cases again
        rw [List.length_drop]
        have some := List.length_pos_of_ne_nil idle.1
        omega

/-- What the encoders of tables have in common: a datagram with as many rows as it consumed. -/
def Tabulates {Row : Type}
    (encode : ExportHeader → List Row → Nat → Except BufferTooSmall (Option Datagram × Nat)) :
    Prop :=
  ∀ h rows length d n, encode h rows length = .ok (some d, n) →
    d.header = h ∧ d.isCounters = false ∧ d.flowRecords = [] ∧ d.dataRecords = n

theorem tabulates_encodeTable {overhead recSize slack : Nat}
    (make : ExportHeader → List Row → Datagram)
    (made : ∀ h rows, (make h rows).header = h ∧ (make h rows).isCounters = false ∧
      (make h rows).flowRecords = [] ∧ (make h rows).dataRecords = rows.length) :
    Tabulates fun h => encodeTable overhead recSize slack (make h) := by
  intro h rows length d n encoded
  unfold encodeTable at encoded
  dsimp only at encoded
  split_ifs at encoded <;> cases encoded
  obtain ⟨header, data, empty, count⟩ := made h
    (rows.take (min rows.length ((length - overhead - slack) / recSize)))
  refine ⟨header, data, empty, count.trans ?_⟩
  rw [List.length_take]
  omega

theorem tableTurn_keeps (watches : Watches input scenActive good N inv)
    {encode : ExportHeader → List Row → Nat → Except BufferTooSmall (Option Datagram × Nat)}
    (tabulates : Tabulates encode) (n : Nat) {loop : RowLoop Row} (holds : inv k) :
    Keeps (wire.both N) (w, k) (fe.tableTurn input encode loop) fun l result =>
      inv l.2 ∧ Steps fe.encoder ipv4 ⟨loop.seqNo, loop.stats, w, n⟩
        ⟨result.state.seqNo, result.state.stats, l.1, n⟩ ∧
      ∀ next, result = .again next → next.remaining.length < loop.remaining.length := by
  unfold tableTurn
  split_ifs with idle
  · exact ⟨holds, .refl, fun _ again => nomatch again⟩
  rw [List.isEmpty_iff] at idle
  refine wallClock_keeps watches holds fun wall k' holds => ?_
  split
  · exact ⟨holds, .refl, fun _ again => nomatch again⟩
  · exact ⟨holds, .refl, fun _ again => nomatch again⟩
  · exact ⟨holds, .refl, fun _ again => nomatch again⟩
  · next d consumed encoded =>
      obtain ⟨header, data, empty, count⟩ := tabulates _ _ _ _ _ encoded
      obtain ⟨permitted, kept⟩ := watches.other k' d holds empty
      refine ⟨⟨trivial, permitted⟩, fun write => ⟨kept write, .single ?_, ?_⟩⟩
      · exact .data write 0 (loop.stats.wrote write.ok d.size 0).lastTemplateMs
          (by rw [header]; rfl) data fun _ => count
      · intro next again
        cases again
        rw [List.length_drop]
        have some := List.length_pos_of_ne_nil idle
        omega

/-- A loop over rows whose turns make steps and shorten what remains. -/
theorem rowLoop_keeps {body : RowLoop Row → Exporter (Turn (RowLoop Row))} {encoder : FlowEncoder}
    {n : Nat} (turn : ∀ w k loop, inv k → Keeps (wire.both N) (w, k) (body loop) fun l result =>
      inv l.2 ∧ Steps encoder ipv4 ⟨loop.seqNo, loop.stats, w, n⟩
        ⟨result.state.seqNo, result.state.stats, l.1, n⟩ ∧
      ∀ next, result = .again next → next.remaining.length < loop.remaining.length)
    {loop : RowLoop Row} (holds : inv k) :
    Keeps (wire.both N) (w, k) (Program.iterate body (loop.remaining.length + 1) loop)
      fun l result => ∃ last, result = some last ∧ inv l.2 ∧
        Steps encoder ipv4 ⟨loop.seqNo, loop.stats, w, n⟩ ⟨last.seqNo, last.stats, l.1, n⟩ := by
  refine Keeps.iterate (fun l now => inv l.2 ∧ Steps encoder ipv4 ⟨loop.seqNo, loop.stats, w, n⟩
    ⟨now.seqNo, now.stats, l.1, n⟩) (fun now => now.remaining.length)
    (fun l now before => ?_) ⟨holds, .refl⟩ (Nat.lt_succ_self _)
  refine (turn l.1 l.2 now before.1).mono ?_
  rintro l' result ⟨holds, steps, shorter⟩
  cases result with
  | again next => exact ⟨⟨holds, before.2.trans steps⟩, shorter next rfl⟩
  | stop last => exact ⟨holds, before.2.trans steps⟩

theorem counterLoop_keeps (watches : Watches input scenActive good N inv) (ipv4 : Prop) (n : Nat)
    (loop : RowLoop CounterRecord) (holds : inv k) :
    Keeps (wire.both N) (w, k) (fe.counterLoop input loop) fun l result =>
      ∃ last, result = some last ∧ inv l.2 ∧
        Steps fe.encoder ipv4 ⟨loop.seqNo, loop.stats, w, n⟩ ⟨last.seqNo, last.stats, l.1, n⟩ := by
  unfold counterLoop
  split
  · next coded =>
      exact rowLoop_keeps (fun w k loop holds => counterTurn_keeps watches coded n holds) holds
  all_goals exact ⟨loop, rfl, holds, .refl⟩

theorem encodeOptions_tabulates {encode : ExportHeader → FlowOptionShape → List FlowOptionIface →
    Nat → Except BufferTooSmall (Option Datagram × Nat)} (shape : FlowOptionShape)
    (found : fe.encoder.encodeOptions = some encode) : Tabulates fun h => encode h shape := by
  cases coded : fe.encoder <;> rw [coded] at found <;> cases found
  · exact tabulates_encodeTable (fun h => .netflow9Options h shape) fun _ _ => ⟨rfl, rfl, rfl, rfl⟩
  · exact tabulates_encodeTable (fun h => .ipfixOptions h shape) fun _ _ => ⟨rfl, rfl, rfl, rfl⟩
  · exact tabulates_encodeTable (fun h => .ipfixOptions h shape) fun _ _ => ⟨rfl, rfl, rfl, rfl⟩

theorem optionsLoop_keeps (watches : Watches input scenActive good N inv) (ipv4 : Prop) (n : Nat)
    (due : Bool) (seqNo : UInt32) (stats : FlowTickStats) (holds : inv k) :
    Keeps (wire.both N) (w, k) (fe.optionsLoop input due seqNo stats) fun l result =>
      ∃ last, result = some last ∧ inv l.2 ∧
        Steps fe.encoder ipv4 ⟨seqNo, stats, w, n⟩ ⟨last.seqNo, last.stats, l.1, n⟩ := by
  unfold optionsLoop
  split
  · next shape encode _ found =>
      split_ifs
      · exact rowLoop_keeps (fun w k loop holds =>
          tableTurn_keeps watches (encodeOptions_tabulates shape found) n holds) holds
      · exact ⟨_, rfl, holds, .refl⟩
  · exact ⟨_, rfl, holds, .refl⟩

theorem appTableLoop_keeps (watches : Watches input scenActive good N inv) (ipv4 : Prop) (n : Nat)
    (due : Bool) (seqNo : UInt32) (stats : FlowTickStats) (holds : inv k) :
    Keeps (wire.both N) (w, k) (fe.appTableLoop input due seqNo stats) fun l result =>
      ∃ last, result = some last ∧ inv l.2 ∧
        Steps fe.encoder ipv4 ⟨seqNo, stats, w, n⟩ ⟨last.seqNo, last.stats, l.1, n⟩ := by
  unfold appTableLoop
  split
  · next catalog _ =>
      split_ifs
      · exact rowLoop_keeps (fun w k loop holds => tableTurn_keeps watches
          (tabulates_encodeTable .appTable fun _ _ => ⟨rfl, rfl, rfl, rfl⟩) n holds) holds
      · exact ⟨_, rfl, holds, .refl⟩
  all_goals exact ⟨_, rfl, holds, .refl⟩

/-! ### The whole tick -/

/-- The exporter is the same but for what it carries from tick to tick. -/
def Continues (fe after : FlowExporter) : Prop :=
  after = { fe with seqNo := after.seqNo, lastTempl := after.lastTempl }

/-- **The four loops** return, and are steps of progress. -/
theorem emit_keeps (watches : Watches input scenActive good N inv)
    (all : ipv4 → ∀ r ∈ expired, r.IsIPv4) (known : ∀ r ∈ expired, good r) (holds : inv k) :
    Keeps (wire.both N) (w, k) (fe.emit input scenActive expired sendTemplate)
      fun l result => ∃ after stats, result = some (after, stats) ∧ fe.Continues after ∧ inv l.2 ∧
        Steps fe.encoder ipv4 ⟨fe.seqNo, {}, w, 0⟩
          ⟨after.seqNo, stats, l.1, expired.countP (fe.oversized input)⟩ := by
  refine (flowLoop_steps watches all known holds).bind ?_
  rintro ⟨w₁, k₁⟩ - ⟨flow, rfl, holds, steps₁⟩
  refine (counterLoop_keeps watches ipv4 (expired.countP (fe.oversized input)) _ holds).bind ?_
  rintro ⟨w₂, k₂⟩ - ⟨counters, rfl, holds, steps₂⟩
  refine (optionsLoop_keeps watches ipv4 (expired.countP (fe.oversized input)) _ _ _ holds).bind ?_
  rintro ⟨w₃, k₃⟩ - ⟨options, rfl, holds, steps₃⟩
  refine (appTableLoop_keeps watches ipv4 (expired.countP (fe.oversized input)) _ _ _ holds).bind ?_
  rintro ⟨w₄, k₄⟩ - ⟨apps, rfl, holds, steps₄⟩
  exact ⟨_, _, rfl, rfl, holds, ((steps₁.trans steps₂).trans steps₃).trans steps₄⟩

/-- The four loops keep the invariant of a monitor that watches them. -/
theorem emit_inv (watches : Watches input scenActive good N inv) (known : ∀ r ∈ expired, good r)
    (holds : inv k) :
    Keeps N k (fe.emit input scenActive expired sendTemplate) fun k' _ => inv k' := by
  have kept : Keeps (wire.both N) ([], k) (fe.emit input scenActive expired sendTemplate) _ :=
    emit_keeps watches (fun impossible : False => impossible.elim) known holds
  exact kept.snd.mono fun k' _ ⟨_, _, _, _, _, holds, _⟩ => holds

/-- Whether the records of a tick are handed to the flow loop. An exporter without a handle asks whether
the fleet is muted, and a participant asks the drain barrier. -/
def handsOver : ExporterEvent → Option Bool
  | ⟨.fidelitySilent, silent⟩ => some !silent
  | ⟨.admitFire, admitted⟩ => some admitted
  | _ => none

/-- Collects the datagrams of a tick, and whether its records are handed over. -/
def tickMonitor : Monitor exporterRequests (List Written × List Bool) :=
  wire.both (.collect handsOver)

/-- A request that the monitor of a tick does not see. -/
def Unseen : ExporterOp → Prop
  | .write _ | .fidelitySilent | .admitFire => False
  | _ => True

theorem tickMonitor_ignores (l : List Written × List Bool) (op : ExporterOp) (unseen : Unseen op) :
    tickMonitor.permits l op ∧ ∀ reply, tickMonitor.advance l op reply = l := by
  refine ⟨⟨trivial, trivial⟩, fun reply => ?_⟩
  cases op with
  | write | fidelitySilent | admitFire => exact unseen.elim
  | _ => exact Prod.ext (List.append_nil _) (List.append_nil _)

theorem handsOver_ignores (handed : List Bool) (op : ExporterOp) (silent : Bookkeeping op) :
    (Monitor.collect handsOver).permits handed op ∧
      ∀ reply, (Monitor.collect handsOver).advance handed op reply = handed := by
  refine ⟨trivial, fun reply => ?_⟩
  cases op with
  | wallClock | loadGate | add => exact List.append_nil _
  | _ => exact silent.elim

theorem watches_handsOver (handed : List Bool) :
    Watches input scenActive (fun _ => True) (.collect handsOver) (· = handed) where
  wallClock k same := ⟨trivial, fun _ => (List.append_nil k).trans same⟩
  oversize k same :=
    ((countOversize_only scenActive 1).frame (handsOver_ignores k)).mono
      fun _ _ unchanged => unchanged.1.trans same
  batch k seqNo d records same _ _ := by
    refine ⟨trivial, fun write => ?_⟩
    have unchanged : (Monitor.collect handsOver).advance k (.write (.flow d)) write = k :=
      List.append_nil k
    rw [unchanged]
    exact ((countBatch_only _ _ _ _).frame (handsOver_ignores k)).mono
      fun _ _ unchanged => unchanged.1.trans same
  other k d same _ := ⟨trivial, fun _ => (List.append_nil k).trans same⟩

/-- What a tick establishes, from the datagrams `w` before it on. -/
def Ticked (fe : FlowExporter) (input : TickInput) (ipv4 : Prop) (w : List Written)
    (l : List Written × List Bool) (result : Option (FlowExporter × FlowTickStats)) : Prop :=
  ∃ after stats, result = some (after, stats) ∧ fe.Continues after ∧
    Steps fe.encoder ipv4 ⟨fe.seqNo, {}, w, 0⟩
      ⟨after.seqNo, stats, l.1,
        if l.2 = [true] then input.expired.countP (fe.oversized input) else 0⟩

theorem ticked_idle (ipv4 : Prop) : Ticked fe input ipv4 w (w, []) (some (fe, {})) :=
  ⟨fe, {}, rfl, rfl, .refl⟩

theorem emit_ticked (scenActive : Bool) (all : ipv4 → ∀ r ∈ input.expired, r.IsIPv4) :
    Keeps tickMonitor (w, [true]) (fe.emit input scenActive input.expired sendTemplate)
      (Ticked fe input ipv4 w) := by
  refine (emit_keeps (watches_handsOver [true]) all (fun _ _ => trivial) rfl).mono ?_
  rintro l result ⟨after, stats, returned, continues, handed, steps⟩
  exact ⟨after, stats, returned, continues, by rw [if_pos handed]; exact steps⟩

theorem emitWithheld_ticked {handed : List Bool} (withheld : handed ≠ [true]) (ipv4 : Prop) :
    Keeps tickMonitor (w, handed) (fe.emitWithheld input sendTemplate) (Ticked fe input ipv4 w) := by
  unfold emitWithheld
  split_ifs
  · exact ⟨fe, {}, rfl, rfl, by rw [if_neg withheld]⟩
  · refine (emit_keeps (watches_handsOver handed) (fun _ : ipv4 => List.forall_mem_nil _)
      (fun _ _ => trivial) rfl).mono ?_
    rintro l result ⟨after, stats, returned, continues, same, steps⟩
    refine ⟨after, stats, returned, continues, ?_⟩
    rw [if_neg (by rw [same]; exact withheld)]
    exact steps

theorem tickGated_ticked (all : ipv4 → ∀ r ∈ input.expired, r.IsIPv4) :
    Keeps tickMonitor (w, []) (fe.tickGated input sendTemplate) (Ticked fe input ipv4 w) := by
  refine ((decide_only trivial (fun _ => trivial) input.now).frame (tickMonitor_ignores _)).bind ?_
  rintro - decision ⟨rfl, -⟩
  have withheld : Keeps tickMonitor (w, []) (countSuppressed input.expired.length >>=
      fun _ => fe.emitWithheld input sendTemplate) (Ticked fe input ipv4 w) := by
    refine ((countSuppressed_only trivial).frame (tickMonitor_ignores _)).bind ?_
    rintro - - ⟨rfl, -⟩
    exact emitWithheld_ticked (by simp) ipv4
  cases decision with
  | suppressSilent => exact withheld
  | suppressCounted => exact withheld
  | proceed =>
    refine ⟨⟨trivial, trivial⟩, fun admitted => ?_⟩
    change Keeps _ (w ++ [], [] ++ [admitted]) (if !admitted then _ else _) _
    rw [List.append_nil, List.nil_append]
    cases admitted with
    | false =>
      refine ((countRefused_only trivial trivial).frame (tickMonitor_ignores _)).bind ?_
      rintro - - ⟨rfl, -⟩
      exact emitWithheld_ticked (by simp) ipv4
    | true =>
      have left : Keeps (.only Unseen) () leave fun _ _ => True :=
        ⟨trivial, fun _ => ⟨trivial, fun _ => trivial⟩⟩
      refine (emit_ticked true all).bind fun l result ticked => ?_
      refine (left.frame (tickMonitor_ignores l)).bind fun l' _ same => ?_
      rw [same.1]
      exact ticked

/-- **A tick** returns, and is a sequence of steps of progress. -/
theorem tick_keeps (all : ipv4 → ∀ r ∈ input.expired, r.IsIPv4) :
    Keeps tickMonitor (w, []) (fe.tick input) (Ticked fe input ipv4 w) := by
  unfold tick
  dsimp only
  split_ifs with away idle
  · exact ticked_idle ipv4
  · exact ticked_idle ipv4
  · refine ⟨⟨trivial, trivial⟩, fun part => ?_⟩
    change Keeps _ (w ++ [], [] ++ []) (if !part then _ else _) _
    rw [List.append_nil, List.append_nil]
    cases part with
    | true => exact tickGated_ticked all
    | false =>
      refine ⟨⟨trivial, trivial⟩, fun silent => ?_⟩
      change Keeps _ (w ++ [], [] ++ [!silent]) (if silent && true then _ else _) _
      rw [List.append_nil, List.nil_append]
      cases silent with
      | true => exact ⟨fe, {}, rfl, rfl, by rw [if_neg (by simp)]⟩
      | false => exact emit_ticked false all

end FlowExporter

end Nl6
