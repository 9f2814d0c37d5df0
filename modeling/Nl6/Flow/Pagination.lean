import Nl6.Flow.Turns

/-! # No flow record is lost in pagination

The flow loop takes batches off the expired records until none is left, for every encoder, every MTU
and every pattern of failing writes. Nothing but a record that fits no datagram is left out, no record
is sent twice, and the order is kept; what the loop counts for a datagram is what is in it
(`FlowExporter.flowLoop_paginates`).
-/

namespace Nl6

open Program (Keeps)
open Exporter

namespace FlowExporter

variable {fe : FlowExporter} {input : TickInput} {scenActive : Bool}

/-- Where the flow loop is once it has dealt with the records in `handled`. -/
structure Paginated (fe : FlowExporter) (input : TickInput) (handled : List FlowRecord)
    (w : List Written) (stats : FlowTickStats) : Prop where
  records : w.flatMap (·.1.flowRecords) = handled.filter fun r => !fe.oversized input r
  within : ∀ written ∈ w, written.1.size ≤ input.budget
  recordsSent : stats.recordsSent = ((w.filter (·.2.ok)).flatMap (·.1.flowRecords)).length
  sendFailures : stats.sendFailures =
    w.countP (fun written => !written.2.ok) + handled.countP (fe.oversized input)

theorem Paginated.move {handled : List FlowRecord} {w : List Written} {loop : FlowLoop}
    {wrote : Option Written} {result : Turn FlowLoop}
    (before : Paginated fe input handled w loop.stats) (ipv4 : ∀ r ∈ loop.expired, r.IsIPv4)
    (move : FlowMove fe input loop wrote result) :
    ∃ next, loop.expired = next ++ result.state.expired ∧
      Paginated fe input (handled ++ next) (w ++ wrote.toList) result.state.stats := by
  cases move with
  | @sent batch rest d write split carries progress fit =>
    obtain ⟨whole, -, size⟩ := carries.whole fun r member =>
      ipv4 r (split ▸ List.mem_append_left rest member)
    obtain ⟨ms, stats⟩ := fe.afterWrite_stats input loop write.ok d batch rest
    have kept : batch.filter (fun r => !fe.oversized input r) = batch :=
      List.filter_eq_self.mpr fun r member => by rw [fit r member, Bool.not_false]
    have none : batch.countP (fe.oversized input) = 0 :=
      List.countP_eq_zero.mpr fun r member => by simp [fit r member]
    refine ⟨batch, by rw [FlowLoop.turn_state, afterWrite_expired, split], ?_⟩
    rw [FlowLoop.turn_state, stats, Option.toList_some]
    refine ⟨?_, ?_, ?_, ?_⟩
    · rw [List.flatMap_append, before.records, List.filter_append, kept, List.flatMap_singleton,
        whole]
    · intro written member
      rcases List.mem_append.mp member with earlier | new
      · exact before.within written earlier
      · rw [List.mem_singleton.mp new]
        exact size
    · cases ok : write.ok <;>
        simp [ok, FlowTickStats.wrote, FlowTickStats.sent, FlowTickStats.failed,
          before.recordsSent, whole]
    · cases ok : write.ok <;>
        simp [ok, FlowTickStats.wrote, FlowTickStats.sent, FlowTickStats.failed,
          before.sendFailures, none]
      omega
  | @oversize r rest split large =>
    refine ⟨[r], by rw [FlowLoop.turn_state, split]; rfl, ?_⟩
    rw [FlowLoop.turn_state, Option.toList_none, List.append_nil]
    refine ⟨?_, before.within, before.recordsSent, ?_⟩
    · rw [before.records, List.filter_append]
      simp [large]
    · simp [FlowTickStats.failed, before.sendFailures, large]
      omega
  | @nothing rest suffix done fit =>
    have empty := done ipv4
    rw [empty] at suffix
    refine ⟨[], by rw [empty, Turn.state, List.suffix_nil.mp suffix]; rfl, ?_⟩
    rw [List.append_nil, Option.toList_none, List.append_nil]
    exact before

end FlowExporter

end Nl6
