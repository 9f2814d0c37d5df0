import Nl6.Flow.Progress

/-! # The statistics of a tick

A tick reports what it sent and what the kernel refused. `FlowTickStats` keeps the two apart, so that a
collector that is down can be seen. Three of the four loops do so. The counters loop takes every
datagram for sent, whatever the outcome of the write: the statistics are right exactly if no datagram of
counter samples was refused (`FlowExporter.tick_stats_iff`).
-/

namespace Nl6

open Program (Keeps)

/-- The write of the datagram succeeded, or the exporter does not look. -/
def takenForSent (written : Written) : Bool := written.2.ok || written.1.isCounters

/-- The statistics as the loops keep them. -/
structure Booked (w : List Written) (oversized : Nat) (stats : FlowTickStats) : Prop where
  packetsSent : stats.packetsSent = w.countP takenForSent
  bytesSent : stats.bytesSent = ((w.filter takenForSent).map (·.1.size)).sum
  sendFailures : stats.sendFailures = w.countP (fun written => !takenForSent written) + oversized

namespace Booked

variable {encoder : FlowEncoder} {ipv4 : Prop} {p q : Progress}

theorem step (booked : Booked p.written p.oversized p.stats)
    (step : Progress.Step encoder ipv4 p q) : Booked q.written q.oversized q.stats := by
  obtain ⟨packets, bytes, failures⟩ := booked
  cases step with
  | data write records ms numbered data counted =>
    cases ok : write.ok <;>
      constructor <;>
      simp [FlowTickStats.wrote, FlowTickStats.sent, FlowTickStats.failed, takenForSent, data, ok,
        packets, bytes, failures]
    omega
  | counters write sflow numbered counters =>
    constructor <;> simp [FlowTickStats.sent, takenForSent, counters, packets, bytes, failures]
  | oversize =>
    constructor <;> simp [FlowTickStats.failed, packets, bytes, failures]
    omega

theorem steps (booked : Booked p.written p.oversized p.stats)
    (steps : Progress.Steps encoder ipv4 p q) : Booked q.written q.oversized q.stats := by
  induction steps with
  | refl => exact booked
  | tail _ step ih => exact ih.step step

end Booked

/-- The statistics as they are documented: datagrams that reached the kernel and their octets, and
datagrams that it refused, with the records that fit no datagram. -/
structure FlowTickStats.Honest (stats : FlowTickStats) (w : List Written) (oversized : Nat) :
    Prop where
  packetsSent : stats.packetsSent = w.countP (·.2.ok)
  bytesSent : stats.bytesSent = ((w.filter (·.2.ok)).map (·.1.size)).sum
  sendFailures : stats.sendFailures = w.countP (fun written => !written.2.ok) + oversized

/-- What the loops keep is honest exactly if they are right about what was sent. -/
theorem Booked.honest_iff {w : List Written} {oversized : Nat} {stats : FlowTickStats}
    (booked : Booked w oversized stats) :
    stats.Honest w oversized ↔
      ∀ written ∈ w, written.1.isCounters = true → written.2.ok = true := by
  constructor
  · intro honest written member counters
    have counts : w.countP takenForSent = w.countP (·.2.ok) :=
      booked.packetsSent.symm.trans honest.packetsSent
    -- Of what is taken for sent, nothing is left beside what was sent.
    have right : (w.filter (·.2.ok)).countP takenForSent = w.countP (·.2.ok) := by
      rw [List.countP_filter]
      exact List.countP_congr fun written _ => by simpa [takenForSent] using Or.inl
    rw [List.countP_eq_countP_filter_add w takenForSent (·.2.ok), right] at counts
    have none := List.countP_eq_zero.mp (Nat.add_eq_left.mp counts) written
    by_contra failed
    rw [Bool.not_eq_true] at failed
    exact none (List.mem_filter.mpr ⟨member, by simp [failed]⟩) (by simp [takenForSent, counters])
  · intro right
    have same (written : Written) (member : written ∈ w) :
        takenForSent written = written.2.ok := by
      have ok := right written member
      unfold takenForSent
      cases counters : written.1.isCounters with
      | false => rw [Bool.or_false]
      | true => rw [ok counters, Bool.true_or]
    refine ⟨?_, ?_, ?_⟩
    · rw [booked.packetsSent]
      exact List.countP_congr fun written member => by rw [same written member]
    · rw [booked.bytesSent, List.filter_congr same]
    · rw [booked.sendFailures]
      congr 1
      exact List.countP_congr fun written member => by rw [same written member]

namespace FlowExporter

theorem tickMonitor_after (events : List ExporterEvent) :
    tickMonitor.after ([], []) events =
      (events.filterMap flowWrite, events.filterMap handsOver) := by
  rw [tickMonitor, wire, Monitor.after_both, Monitor.after_collect, Monitor.after_collect,
    List.nil_append, List.nil_append]

/-- The records of a tick that fit no datagram, if the records are handed to the flow loop at all. -/
def oversizeDropped (fe : FlowExporter) (input : TickInput) (events : List ExporterEvent) : Nat :=
  if events.filterMap handsOver = [true] then input.expired.countP (fe.oversized input) else 0

/-- **The statistics of a tick** are honest if and only if the write of no datagram with counter samples
fails. -/
theorem tick_stats_iff (fe : FlowExporter) (input : TickInput)
    (environment : List ExporterEvent → (op : ExporterOp) → op.Reply) (past : List ExporterEvent) :
    ∃ events after stats, (fe.tick input).run environment past = (events, some (after, stats)) ∧
      (stats.Honest (events.filterMap flowWrite) (fe.oversizeDropped input events) ↔
        ∀ d write, (d, write) ∈ events.filterMap flowWrite → d.isCounters = true →
          write.ok = true) := by
  have kept : Keeps tickMonitor ([], []) (fe.tick input) (Ticked fe input False []) :=
    tick_keeps fun impossible => impossible.elim
  obtain ⟨after, stats, returned, -, steps⟩ := kept.of_run environment past
  have start : Booked [] 0 {} := ⟨rfl, rfl, rfl⟩
  have booked := start.steps steps
  rw [tickMonitor_after] at booked
  refine ⟨_, after, stats, Prod.ext rfl returned, booked.honest_iff.trans ?_⟩
  exact Prod.forall

/-- The replies of an environment in which every write fails. -/
def refusedReplies (op : ExporterOp) : op.Reply :=
  match op with
  | .write _ => ⟨false, 0⟩
  | op => calmReplies op

def counterExporter : FlowExporter := ⟨.sflow, 0x0A000001, 0, 0, 60 * 10 ^ 9, 10, none, [], 0, none⟩

def counterTick : TickInput :=
  { now := 10 ^ 9, expired := [], snapshots := [[⟨1, 1, [0, 0, 0, 1]⟩]], mtu := 576,
    mtu_valid := by decide }

/-- A datagram of counter samples that was refused is reported as sent, and not as refused. -/
theorem tick_stats_refused :
    let run := (counterExporter.tick counterTick).run (fun _ => refusedReplies) []
    run.2.map (fun result => (result.2.packetsSent, result.2.sendFailures)) = some (1, 0) ∧
      (run.1.filterMap flowWrite).map (·.2.ok) = [false] ∧
      ∀ after stats, run.2 = some (after, stats) →
        ¬ stats.Honest (run.1.filterMap flowWrite)
          (counterExporter.oversizeDropped counterTick run.1) := by
  intro run
  have reported : run.2.map (fun result => (result.2.packetsSent, result.2.sendFailures)) =
      some (1, 0) := rfl
  refine ⟨reported, rfl, fun after stats returned honest => ?_⟩
  rw [returned] at reported
  have sent : (run.1.filterMap flowWrite).countP (·.2.ok) = 0 := rfl
  have counted := honest.packetsSent
  rw [sent] at counted
  simp [counted] at reported

end FlowExporter

end Nl6
