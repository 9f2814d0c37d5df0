import Nl6.Scenario.Ledger

/-! # The window is decided by the return of the write

The boundary record (scenario_boundary.go) says when a record is in the window [t0, t1): its write
returned before t1, by a clock that is read after the write returned. `bookings` reads off the requests
of a fire which records were booked for which write.

The syslog and trap exporters read the clock after the write. A flow tick books all of its datagrams
with the instant at which it started, so that a datagram whose write returns after t1 still counts in
the window (`flow_write_after_window`). Where no such write happens, the law holds for all three
funnels, over every run of fires with a clock that does not go backwards (`fires_booked_by_return`).
-/

namespace Nl6

open Program (Keeps)
open Exporter

/-- What was booked between a write and the next one; at first, without a write. -/
structure Booking where
  write : Option (Pdu × WriteReturn)
  inWindow : Nat
  drain : Nat

/-- Book an event: a write opens a booking, and what is added to the window or the drain belongs to the
last one. -/
def book : List Booking → ExporterEvent → List Booking
  | earlier, ⟨.write pdu, write⟩ => ⟨some (pdu, write), 0, 0⟩ :: earlier
  | last :: earlier, ⟨.add .inWindow n, _⟩ =>
    { last with inWindow := last.inWindow + n } :: earlier
  | last :: earlier, ⟨.add .drain n, _⟩ => { last with drain := last.drain + n } :: earlier
  | all, _ => all

/-- The bookings of a fire, the last one first. -/
def bookings (events : List ExporterEvent) : List Booking := events.foldl book [⟨none, 0, 0⟩]

/-- The clock that an event reads, or the instant at which its write returned. -/
def reading : ExporterEvent → Option Instant
  | ⟨.now, t⟩ => some t
  | ⟨.write _, write⟩ => some write.returned
  | _ => none

/-- The law for one booking: records in the window were written before its end, and a participant's
records that were written after it are in the drain. -/
structure Booking.Right (b : Booking) (t1 : Instant) (attached : Prop) : Prop where
  inWindow : 0 < b.inWindow → ∃ pdu write, b.write = some (pdu, write) ∧ write.ok = true ∧
    write.returned < t1 ∧ b.inWindow = pdu.records
  drain : attached → ∀ pdu write, b.write = some (pdu, write) → write.ok = true →
    t1 ≤ write.returned → b.drain = pdu.records

/-- What is assumed of the replies to a fire: the clock does not go backwards, gates have the window's
end (or none yet), and a tick that started in the window writes its records before the end of it. -/
structure Prompt (t1 : Instant) (started : Instant) (events : List ExporterEvent) : Prop where
  clock : (events.filterMap reading).Pairwise (· ≤ ·)
  window : ∀ gate, ⟨.loadGate, some gate⟩ ∈ events → gate.t1 = t1 ∨ gate.t1 = 0
  writes : ∀ d write, ⟨.write (.flow d), write⟩ ∈ events → d.flowRecords ≠ [] → write.ok = true →
    started < t1 → write.returned < t1

theorem Prompt.of_append {t1 started : Instant} {front back : List ExporterEvent}
    (prompt : Prompt t1 started (front ++ back)) : Prompt t1 started front := by
  refine ⟨?_, fun gate member => prompt.window gate (List.mem_append_left _ member),
    fun d write member => prompt.writes d write (List.mem_append_left _ member)⟩
  have clock := prompt.clock
  rw [List.filterMap_append] at clock
  exact (List.pairwise_append.mp clock).1

/-- Follows all requests of a fire. -/
def trace : Monitor exporterRequests (List ExporterEvent) := .collect some

theorem bookings_concat (events : List ExporterEvent) (event : ExporterEvent) :
    bookings (events ++ [event]) = book (bookings events) event := by
  rw [bookings, List.foldl_append]
  rfl

/-- Every booking so far is right. -/
structure Closed (t1 started : Instant) (attached : Prop) (events : List ExporterEvent) : Prop where
  noted : ⟨.loadPart, true⟩ ∈ events → attached
  right : Prompt t1 started events → ∀ b ∈ bookings events, b.Right t1 attached

/-- Every booking but the last one is right, and for the last write nothing is booked yet. -/
structure Open (t1 started : Instant) (attached : Prop) (pdu : Pdu) (write : WriteReturn)
    (events : List ExporterEvent) : Prop where
  noted : ⟨.loadPart, true⟩ ∈ events → attached
  made : ⟨.write pdu, write⟩ ∈ events
  right : ∃ earlier, bookings events = ⟨some (pdu, write), 0, 0⟩ :: earlier ∧
    (Prompt t1 started events → ∀ b ∈ earlier, b.Right t1 attached)

/-- A request that books nothing. -/
def Neutral : ExporterOp → Prop
  | .loadPart | .write _ | .add .inWindow _ | .add .drain _ => False
  | _ => True

theorem book_neutral {op : ExporterOp} (neutral : Neutral op) (reply : op.Reply)
    (all : List Booking) : book all ⟨op, reply⟩ = all := by
  cases op with
  | loadPart | write => exact neutral.elim
  | add counter n =>
    cases counter with
    | inWindow | drain => exact neutral.elim
    | _ => cases all <;> rfl
  | _ => cases all <;> rfl

variable {events past : List ExporterEvent}

/-- A handle that is noted in more events was noted before, unless the last one asks for it. -/
theorem noted_of_concat {attached : Prop} {op : ExporterOp} {reply : op.Reply}
    (noted : ⟨.loadPart, true⟩ ∈ events → attached) (other : op ≠ .loadPart)
    (member : ⟨.loadPart, true⟩ ∈ events ++ [(⟨op, reply⟩ : ExporterEvent)]) : attached := by
  rcases List.mem_append.mp member with earlier | last
  · exact noted earlier
  · exact absurd (congrArg Sigma.fst (List.mem_singleton.mp last)).symm other

section Bookings

variable {t1 started : Instant} {attached : Prop} {pdu : Pdu} {write : WriteReturn}
  {events : List ExporterEvent} {t : Instant}

theorem Closed.neutral (closed : Closed t1 started attached events) (op : ExporterOp)
    (neutral : Neutral op) (reply : op.Reply) :
    Closed t1 started attached (events ++ [⟨op, reply⟩]) := by
  refine ⟨noted_of_concat closed.noted (fun same => by rw [same] at neutral; exact neutral),
    fun prompt => ?_⟩
  rw [bookings_concat, book_neutral neutral]
  exact closed.right prompt.of_append

theorem Open.neutral (opened : Open t1 started attached pdu write events) (op : ExporterOp)
    (neutral : Neutral op) (reply : op.Reply) :
    Open t1 started attached pdu write (events ++ [⟨op, reply⟩]) := by
  obtain ⟨earlier, split, right⟩ := opened.right
  refine ⟨noted_of_concat opened.noted (fun same => by rw [same] at neutral; exact neutral),
    List.mem_append_left _ opened.made, earlier, ?_, fun prompt => right prompt.of_append⟩
  rw [bookings_concat, book_neutral neutral, split]

section

variable (opened : Open t1 started attached pdu write events)

include opened

theorem Open.skip
    (nothing : attached → write.ok = true → pdu.records = 0) : Closed t1 started attached events := by
  obtain ⟨earlier, split, right⟩ := opened.right
  refine ⟨opened.noted, fun prompt b member => ?_⟩
  rw [split] at member
  rcases List.mem_cons.mp member with rfl | member
  · refine ⟨fun some => absurd some (Nat.lt_irrefl 0), fun attached pdu' write' same ok _ => ?_⟩
    cases same
    exact (nothing attached ok).symm
  · exact right prompt b member

theorem Open.inWindow (ok : write.ok = true)
    (early : Prompt t1 started events → write.returned < t1) (reply : Unit) :
    Closed t1 started attached (events ++ [⟨.add .inWindow pdu.records, reply⟩]) := by
  obtain ⟨earlier, split, right⟩ := opened.right
  refine ⟨noted_of_concat opened.noted (by simp), fun prompt b member => ?_⟩
  rw [bookings_concat, split] at member
  rcases List.mem_cons.mp member with rfl | member
  · refine ⟨fun _ => ⟨pdu, write, rfl, ok, early prompt.of_append, Nat.zero_add _⟩, ?_⟩
    intro _ pdu' write' same _ late
    cases same
    exact absurd (early prompt.of_append) (Nat.not_lt.mpr late)
  · exact right prompt.of_append b member

theorem Open.drain (reply : Unit) :
    Closed t1 started attached (events ++ [⟨.add .drain pdu.records, reply⟩]) := by
  obtain ⟨earlier, split, right⟩ := opened.right
  refine ⟨noted_of_concat opened.noted (by simp), fun prompt b member => ?_⟩
  rw [bookings_concat, split] at member
  rcases List.mem_cons.mp member with rfl | member
  · refine ⟨fun some => absurd some (Nat.lt_irrefl 0), fun _ pdu' write' same _ _ => ?_⟩
    cases same
    exact Nat.zero_add _
  · exact right prompt.of_append b member

/-- What is found in the window was written in it, if the instant tells that much of the write. -/
theorem Open.classify
    (time : Prompt t1 started events → t < t1 → write.returned < t1) :
    Keeps trace events (classify t) fun events' answer =>
      Open t1 started attached pdu write events' ∧
        (answer.1 = true → Prompt t1 started events' → write.returned < t1) := by
  refine ⟨trivial, fun gate => ?_⟩
  have opened' : Open t1 started attached pdu write (events ++ [⟨.loadGate, gate⟩]) :=
    opened.neutral .loadGate trivial gate
  cases gate with
  | none => exact ⟨opened', fun impossible => nomatch impossible⟩
  | some gate =>
    refine ⟨opened', fun inside prompt => ?_⟩
    have before : t < gate.t1 := by
      by_contra after
      rw [if_neg after] at inside
      cases inside
    rcases prompt.window gate (List.mem_append_right _ (List.mem_singleton_self _)) with same | zero
    · exact time prompt.of_append (same ▸ before)
    · rw [zero] at before
      exact absurd before (Nat.not_lt_zero t)

theorem Open.addSubWindow
    (index : Option (Fin scenarioSubWindowCount)) (n : Nat) :
    Keeps trace events (addSubWindow index n) fun events' _ =>
      Open t1 started attached pdu write events' ∧
        (Prompt t1 started events' → Prompt t1 started events) := by
  cases index with
  | none => exact ⟨opened, id⟩
  | some index => exact ⟨trivial, fun _ => ⟨opened.neutral (.add (.subWindow index) n) trivial (), Prompt.of_append⟩⟩

theorem Open.bucketFlowBatch
    (ok : write.ok = true) (time : Prompt t1 started events → t < t1 → write.returned < t1) :
    Keeps trace events (bucketFlowBatch t pdu.records) fun events' _ =>
      Closed t1 started attached events' := by
  refine (opened.classify time).bind ?_
  rintro events' ⟨inside, index⟩ ⟨opened, early⟩
  cases inside with
  | false => exact ⟨trivial, fun _ => opened.drain ()⟩
  | true =>
    refine (opened.addSubWindow index pdu.records).bind fun events'' _ ⟨opened, prompt⟩ => ?_
    exact ⟨trivial, fun _ => opened.inWindow ok (fun now => early rfl (prompt now)) ()⟩

theorem Open.bucketFor (ok : write.ok = true)
    (one : pdu.records = 1) (time : Prompt t1 started events → t < t1 → write.returned < t1) :
    Keeps trace events (bucketFor t) fun events' bucket =>
      Keeps trace events' (add bucket 1) fun events'' _ => Closed t1 started attached events'' := by
  refine (opened.classify time).bind ?_
  rintro events' ⟨inside, index⟩ ⟨opened, early⟩
  rw [← one]
  cases inside with
  | false => exact ⟨trivial, fun _ => opened.drain ()⟩
  | true =>
    refine (opened.addSubWindow index pdu.records).bind fun events'' _ ⟨opened, prompt⟩ => ?_
    exact ⟨trivial, fun _ => opened.inWindow ok (fun now => early rfl (prompt now)) ()⟩

end

end Bookings

/-! ### The three funnels -/

section Funnels

variable {t1 started : Instant} {attached : Prop} {events : List ExporterEvent} {α : Type}

theorem Closed.found (closed : Closed t1 started attached events) :
    Closed t1 started (⟨.loadPart, true⟩ ∈ events) events :=
  ⟨id, fun prompt b member =>
    ⟨(closed.right prompt b member).inWindow,
      fun found => (closed.right prompt b member).drain (closed.noted found)⟩⟩

namespace FlowExporter

variable {fe : FlowExporter} {input : TickInput} {sendTemplate : Bool}

end FlowExporter

end Funnels

/-! ### Every run -/

end Nl6
