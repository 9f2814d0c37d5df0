import Nl6.Flow.Capacity

/-! # What a turn of the loops can do

`FlowMove` says once what a turn of the flow loop does to the records, the sequence number and the
socket, for every encoder and every outcome of the write. The properties of pagination, of sequence
numbers and of the statistics are then inductions over such moves.

The turns are followed by two monitors side by side. `wire` collects the datagrams that are handed to
the socket. The other one is open: a property that is about the ledger of a participant brings its own
and states what it needs of it as `Watches`.
-/

namespace Nl6

open Program (Keeps)
open Exporter

/-- A datagram that was handed to the socket, with the outcome. -/
abbrev Written : Type := Datagram × WriteReturn

/-- The datagram an event hands to the socket. -/
def flowWrite : ExporterEvent → Option Written
  | ⟨.write (.flow d), reply⟩ => some (d, reply)
  | _ => none

/-- Collects the datagrams that are handed to the socket. -/
def wire : Monitor exporterRequests (List Written) := .collect flowWrite

/-- A request that neither writes nor passes a gate. -/
def Bookkeeping : ExporterOp → Prop
  | .wallClock | .loadGate | .add _ _ => True
  | _ => False

theorem wire_ignores (w : List Written) (op : ExporterOp) (silent : Bookkeeping op) :
    wire.permits w op ∧ ∀ reply, wire.advance w op reply = w := by
  refine ⟨trivial, fun reply => ?_⟩
  cases op with
  | wallClock | loadGate | add => exact List.append_nil w
  | _ => exact silent.elim

/-! ### Counting writes nothing -/

theorem add_only (counter : Counter) (n : Nat) :
    Keeps (.only Bookkeeping) () (add counter n) fun _ _ => True := ⟨trivial, fun _ => trivial⟩

theorem bucketFlowBatch_only (t : Instant) (n : Nat) :
    Keeps (.only Bookkeeping) () (bucketFlowBatch t n) fun _ _ => True := by
  refine (classify_only trivial t).bind fun _ answer _ => ?_
  obtain ⟨inWindow, index⟩ := answer
  cases inWindow with
  | false => exact add_only _ n
  | true => exact (addSubWindow_only (fun _ _ => trivial) index n).bind fun _ _ _ => add_only _ n

namespace FlowExporter

theorem countBatch_only (scenActive : Bool) (now : Instant) (ok : Bool) (n : Nat) :
    Keeps (.only Bookkeeping) () (countBatch scenActive now ok n) fun _ _ => True := by
  unfold countBatch
  split_ifs
  · exact (add_only _ n).bind fun _ _ _ => bucketFlowBatch_only now n
  · exact (add_only _ n).bind fun _ _ _ => add_only _ n
  · trivial

theorem countOversize_only (scenActive : Bool) (n : Nat) :
    Keeps (.only Bookkeeping) () (countOversize scenActive n) fun _ _ => True := by
  unfold countOversize
  split_ifs
  · exact (add_only _ n).bind fun _ _ _ => add_only _ n
  · trivial

end FlowExporter

/-! ### Moves of the flow loop -/

def Datagram.isCounters : Datagram → Bool
  | .sflowCounters .. => true
  | _ => false

/-- The record fits no datagram. Only the encoder that measures its records knows such records. -/
def FlowExporter.oversized (fe : FlowExporter) (input : TickInput) (r : FlowRecord) : Bool :=
  match fe.encoder with
  | .ipfixAVC catalog => !decide (AvcFits catalog (avcRoom input.budget) r)
  | .netflow5 | .netflow9 | .ipfix | .sflow => false

/-- A datagram for a batch of records. NetFlow v5 has no place for addresses that are not IPv4, so it
is only a batch of IPv4 records that is sure to be whole. -/
structure TickInput.Carries (input : TickInput) (seqNo : UInt32) (d : Datagram)
    (batch : List FlowRecord) : Prop where
  numbered : d.header.seqNo = seqNo
  data : d.isCounters = false
  whole : (∀ r ∈ batch, r.IsIPv4) →
    d.flowRecords = batch ∧ d.dataRecords = batch.length ∧ d.size ≤ input.budget

/-- How the flow loop goes on once it has `rest` left. -/
def FlowLoop.turn (next : FlowLoop) : Turn FlowLoop :=
  if next.expired.isEmpty then .stop next else .again next

/-- What a turn of the flow loop does: the datagram it hands to the socket, and how it goes on. -/
inductive FlowMove (fe : FlowExporter) (input : TickInput) (loop : FlowLoop) :
    Option Written → Turn FlowLoop → Prop where
  /-- A datagram with a batch from the front of the records. -/
  | sent {batch rest : List FlowRecord} {d : Datagram} {write : WriteReturn}
      (split : loop.expired = batch ++ rest) (carries : input.Carries loop.seqNo d batch)
      (progress : batch = [] → loop.sendTemplate = true)
      (fit : ∀ r ∈ batch, fe.oversized input r = false) :
      FlowMove fe input loop (some (d, write)) (fe.afterWrite input loop write.ok d batch rest).turn
  /-- The first record fits no datagram. -/
  | oversize {r : FlowRecord} {rest : List FlowRecord} (split : loop.expired = r :: rest)
      (large : fe.oversized input r = true) :
      FlowMove fe input loop none
        ({ loop with stats := loop.stats.failed 1, expired := rest } : FlowLoop).turn
  /-- Nothing to send. Records that are not IPv4 can be left. -/
  | nothing {rest : List FlowRecord} (suffix : rest <:+ loop.expired)
      (done : (∀ r ∈ loop.expired, r.IsIPv4) → loop.expired = [])
      (fit : ∀ r ∈ loop.expired, fe.oversized input r = false) :
      FlowMove fe input loop none (.stop { loop with expired := rest })

@[simp] theorem FlowExporter.afterWrite_expired (fe : FlowExporter) (input : TickInput)
    (loop : FlowLoop) (ok : Bool) (d : Datagram) (batch rest : List FlowRecord) :
    (fe.afterWrite input loop ok d batch rest).expired = rest := by
  unfold FlowExporter.afterWrite
  split <;> rfl

@[simp] theorem FlowExporter.afterWrite_seqNo (fe : FlowExporter) (input : TickInput)
    (loop : FlowLoop) (ok : Bool) (d : Datagram) (batch rest : List FlowRecord) :
    (fe.afterWrite input loop ok d batch rest).seqNo =
      loop.seqNo + UInt32.ofNat (fe.encoder.seqIncrement batch.length) := by
  unfold FlowExporter.afterWrite
  split <;> rfl

/-- A write moves the statistics as its outcome says; a template only adds its time. -/
theorem FlowExporter.afterWrite_stats (fe : FlowExporter) (input : TickInput) (loop : FlowLoop)
    (ok : Bool) (d : Datagram) (batch rest : List FlowRecord) :
    ∃ ms, (fe.afterWrite input loop ok d batch rest).stats =
      { loop.stats.wrote ok d.size batch.length with lastTemplateMs := ms } := by
  unfold FlowExporter.afterWrite
  split
  · exact ⟨unixMilli input.now, rfl⟩
  · exact ⟨_, rfl⟩

namespace FlowLoop

@[simp] theorem turn_state (next : FlowLoop) : next.turn.state = next := by
  unfold turn
  split <;> rfl

theorem expired_of_turn_stop {next last : FlowLoop} (stopped : next.turn = .stop last) :
    last.expired = [] := by
  unfold turn at stopped
  split_ifs at stopped with empty
  cases stopped
  exact List.isEmpty_iff.mp empty

/-- The variant of the flow loop. A turn without records can only send a template. -/
def weight (loop : FlowLoop) : Nat := 2 * loop.expired.length + loop.sendTemplate.toNat

end FlowLoop

namespace FlowMove

variable {fe : FlowExporter} {input : TickInput} {loop : FlowLoop} {wrote : Option Written}
  {result : Turn FlowLoop}

theorem suffix (move : FlowMove fe input loop wrote result) :
    result.state.expired <:+ loop.expired := by
  cases move with
  | sent split => 
      rw [FlowLoop.turn_state, FlowExporter.afterWrite_expired, split]
      exact List.suffix_append _ _
  | oversize split =>
    rw [FlowLoop.turn_state, split]
    exact List.suffix_cons _ _
  | nothing suffix => exact suffix

/-- A loop that stops has sent every IPv4 record or dropped it, and leaves none that fits no
datagram. -/
theorem stopped (move : FlowMove fe input loop wrote result) {last : FlowLoop}
    (stop : result = .stop last) :
    ((∀ r ∈ loop.expired, r.IsIPv4) → last.expired = []) ∧
      ∀ r ∈ last.expired, fe.oversized input r = false := by
  cases move with
  | sent | oversize =>
    have empty := FlowLoop.expired_of_turn_stop stop
    rw [empty]
    exact ⟨fun _ => rfl, fun r member => nomatch member⟩
  | nothing suffix done fit =>
    cases stop
    refine ⟨fun ipv4 => ?_, fun r member => fit r (suffix.subset member)⟩
    rw [done ipv4] at suffix
    exact List.suffix_nil.mp suffix

theorem weight_lt (move : FlowMove fe input loop wrote result) {next : FlowLoop}
    (again : result = .again next) : next.weight < loop.weight := by
  have state : result.state = next := by rw [again]; rfl
  cases move with
  | @sent batch rest d write split carries progress fit =>
    rw [FlowLoop.turn_state] at state
    have left : next.sendTemplate = false := by
      rw [← state, FlowExporter.afterWrite]
      split <;> rfl
    have records : next.expired = rest := by rw [← state, FlowExporter.afterWrite_expired]
    unfold FlowLoop.weight
    rw [left, records, split, List.length_append]
    rcases batch with - | ⟨r, batch⟩
    · simp [progress rfl]
    · simp only [List.length_cons, Bool.toNat_false]
      omega
  | @oversize r rest split large =>
    rw [FlowLoop.turn_state] at state
    unfold FlowLoop.weight
    rw [← state, split, List.length_cons]
    dsimp only
    omega
  | nothing => cases again

end FlowMove

/-- What a monitor `N` with the invariant `inv` has to know about the requests of the four loops:
datagrams of good records are counted in a way that keeps the invariant. -/
structure Watches {K : Type} (input : TickInput) (scenActive : Bool) (good : FlowRecord → Prop)
    (N : Monitor exporterRequests K) (inv : K → Prop) : Prop where
  wallClock : ∀ k, inv k → N.permits k .wallClock ∧ ∀ wall, inv (N.advance k .wallClock wall)
  oversize : ∀ k, inv k → Keeps N k (FlowExporter.countOversize scenActive 1) fun k' _ => inv k'
  batch : ∀ k seqNo d records, inv k → (∀ r ∈ records, good r) → input.Carries seqNo d records →
    N.permits k (.write (.flow d)) ∧ ∀ write,
      Keeps N (N.advance k (.write (.flow d)) write)
        (FlowExporter.countBatch scenActive input.now write.ok records.length) fun k' _ => inv k'
  other : ∀ k d, inv k → d.flowRecords = [] →
    N.permits k (.write (.flow d)) ∧ ∀ write, inv (N.advance k (.write (.flow d)) write)

namespace FlowExporter

variable {fe : FlowExporter} {input : TickInput} {scenActive : Bool} {good : FlowRecord → Prop}
  {K : Type} {N : Monitor exporterRequests K} {inv : K → Prop} {w : List Written} {k : K}
  {batch rest : List FlowRecord} {d : Datagram} {loop : FlowLoop}

theorem encodeBatch_numbered {h : ExportHeader} {template : Bool}
    (encoded : fe.encodeBatch input h batch template = .ok (some d)) (sized : fe.Sized) :
    d.header = h ∧ d.isCounters = false := by
  unfold encodeBatch at encoded
  cases coded : fe.encoder with
  | ipfixAVC catalog => exact absurd coded (sized catalog)
  | netflow5 =>
    rw [coded] at encoded
    simp only [encodeNetFlow5] at encoded
    split_ifs at encoded <;> cases encoded <;> exact ⟨rfl, rfl⟩
  | netflow9 =>
    rw [coded] at encoded
    simp only [encodeNetFlow9, encodeTemplated] at encoded
    split_ifs at encoded <;> cases encoded <;> exact ⟨rfl, rfl⟩
  | ipfix =>
    rw [coded] at encoded
    simp only [encodeIPFIX, encodeTemplated] at encoded
    split_ifs at encoded <;> cases encoded <;> exact ⟨rfl, rfl⟩
  | sflow =>
    rw [coded] at encoded
    simp only [encodeFlowDatagram] at encoded
    split_ifs at encoded <;> cases encoded <;> exact ⟨rfl, rfl⟩

theorem oversized_of_sized (sized : fe.Sized) (r : FlowRecord) : fe.oversized input r = false := by
  unfold oversized
  split
  · next catalog coded => exact absurd coded (sized catalog)
  · rfl
  · rfl
  · rfl
  · rfl

theorem sendBatch_keeps (watches : Watches input scenActive good N inv) (holds : inv k)
    (carries : input.Carries loop.seqNo d batch) (known : ∀ r ∈ batch, good r) :
    Keeps (wire.both N) (w, k) (fe.sendBatch input scenActive loop d batch rest)
      fun l result => inv l.2 ∧ ∃ write, l.1 = w ++ [(d, write)] ∧
        result = (fe.afterWrite input loop write.ok d batch rest).turn := by
  obtain ⟨permitted, counted⟩ := watches.batch k _ d batch holds known carries
  have seen : Keeps wire w (fe.sendBatch input scenActive loop d batch rest) fun l result =>
      ∃ write, l = w ++ [(d, write)] ∧
        result = (fe.afterWrite input loop write.ok d batch rest).turn := by
    refine ⟨trivial, fun write => ?_⟩
    refine ((countBatch_only scenActive input.now write.ok batch.length).frame
      (wire_ignores _)).bind fun l _ same => ?_
    refine ⟨write, same.1, ?_⟩
    rw [FlowLoop.turn, afterWrite_expired]
  have kept : Keeps N k (fe.sendBatch input scenActive loop d batch rest) fun k' _ => inv k' :=
    ⟨permitted, fun write => (counted write).bind fun k' _ holds => holds⟩
  exact (seen.both kept).mono fun l result both => ⟨both.2, both.1⟩

theorem carries_of_encodeBatch (sized : fe.Sized) {seqNo : UInt32} {wall : Int} {template : Bool}
    (something : batch ≠ [] ∨ template = true) (few : batch.length ≤ fe.capacity input template)
    (encoded : fe.encodeBatch input (fe.exportHeader input seqNo wall) batch template =
      .ok (some d)) : input.Carries seqNo d batch := by
  have numbered := encodeBatch_numbered encoded sized
  refine ⟨by rw [numbered.1]; rfl, numbered.2, fun ipv4 => ?_⟩
  obtain ⟨-, none⟩ | ⟨d', encoded', records, count, -, size⟩ :=
    encodeBatch_spec sized (fe.exportHeader input seqNo wall) something ipv4 few
  · rw [none] at encoded
    cases encoded
  · rw [encoded'] at encoded
    cases encoded
    exact ⟨records, count, size⟩

section

variable (watches : Watches input scenActive good N inv)

include watches

theorem wallClock_keeps {α : Type}
    {next : Int → Exporter α} {post : List Written × K → α → Prop} (holds : inv k)
    (rest : ∀ wall k', inv k' → Keeps (wire.both N) (w, k') (next wall) post) :
    Keeps (wire.both N) (w, k) (request .wallClock >>= next) post := by
  obtain ⟨permitted, kept⟩ := watches.wallClock k holds
  refine ⟨⟨trivial, permitted⟩, fun wall => ?_⟩
  have same : wire.advance w .wallClock wall = w := (wire_ignores w .wallClock trivial).2 wall
  change Keeps (wire.both N) (wire.advance w .wallClock wall, _) _ _
  rw [same]
  exact rest wall _ (kept wall)

theorem encodeAndSend_keeps (sized : fe.Sized)
    (holds : inv k) (split : loop.expired = batch ++ rest) (known : ∀ r ∈ batch, good r)
    (something : batch ≠ [] ∨ loop.sendTemplate = true)
    (few : batch.length ≤ fe.capacity input loop.sendTemplate)
    (whole : batch = [] → loop.expired = []) :
    Keeps (wire.both N) (w, k) (fe.encodeAndSend input scenActive loop batch rest)
      fun l result => inv l.2 ∧ ∃ wrote : Option Written, l.1 = w ++ wrote.toList ∧
        FlowMove fe input loop wrote result := by
  have fit (r : FlowRecord) : fe.oversized input r = false := oversized_of_sized sized r
  refine wallClock_keeps watches holds fun wall k' holds => ?_
  have done (unsent : ∀ d, fe.encodeBatch input (fe.exportHeader input loop.seqNo wall) batch
      loop.sendTemplate ≠ .ok (some d)) (ipv4 : ∀ r ∈ loop.expired, r.IsIPv4) :
      loop.expired = [] := by
    obtain ⟨none, -⟩ | ⟨d, encoded, -⟩ := encodeBatch_spec sized
      (fe.exportHeader input loop.seqNo wall) something
      (fun r member => ipv4 r (split ▸ List.mem_append_left rest member)) few
    · exact whole none
    · exact absurd encoded (unsent d)
  have suffix : rest <:+ loop.expired := split ▸ List.suffix_append batch rest
  split
  · next failed =>
      exact ⟨holds, none, (List.append_nil w).symm,
        .nothing suffix (done fun d encoded => by rw [failed] at encoded; cases encoded)
          fun r _ => fit r⟩
  · next nothing =>
      exact ⟨holds, none, (List.append_nil w).symm,
        .nothing suffix (done fun d encoded => by rw [nothing] at encoded; cases encoded)
          fun r _ => fit r⟩
  · next d encoded =>
      have carries := carries_of_encodeBatch sized something few encoded
      refine (sendBatch_keeps watches holds carries known).mono ?_
      rintro l result ⟨holds, write, same, rfl⟩
      exact ⟨holds, some (d, write), same,
        .sent split carries (fun none => something.resolve_left (absurd none)) fun r _ => fit r⟩

theorem batchTurn_keeps (sized : fe.Sized)
    (holds : inv k) (known : ∀ r ∈ loop.expired, good r) :
    Keeps (wire.both N) (w, k) (fe.batchTurn input scenActive loop) fun l result =>
      inv l.2 ∧ ∃ wrote : Option Written, l.1 = w ++ wrote.toList ∧
        FlowMove fe input loop wrote result := by
  have positive := capacity_pos sized input loop.sendTemplate
  have whole (none : loop.expired.take (fe.capacity input loop.sendTemplate) = []) :
      loop.expired = [] :=
    (List.take_eq_nil_iff.mp none).resolve_left (by omega)
  unfold batchTurn
  dsimp only
  split_ifs with idle
  · rw [Bool.and_eq_true, List.isEmpty_iff] at idle
    exact ⟨holds, none, (List.append_nil w).symm, .nothing List.suffix_rfl
      (fun _ => whole idle.1) fun r _ => oversized_of_sized sized r⟩
  · refine encodeAndSend_keeps watches sized holds (List.take_append_drop _ _).symm
      (fun r member => known r (List.mem_of_mem_take member)) ?_ (List.length_take_le _ _) whole
    by_contra neither
    rw [not_or, not_not] at neither
    exact idle (by rw [neither.1]; simpa using neither.2)

theorem measuredTurn_keeps
    {catalog : List AvcApplication} (coded : fe.encoder = .ipfixAVC catalog) (holds : inv k)
    (known : ∀ r ∈ loop.expired, good r) :
    Keeps (wire.both N) (w, k) (fe.measuredTurn input catalog scenActive loop) fun l result =>
      inv l.2 ∧ ∃ wrote : Option Written, l.1 = w ++ wrote.toList ∧
        FlowMove fe input loop wrote result := by
  have oversized_iff (r : FlowRecord) :
      fe.oversized input r = !decide (AvcFits catalog (avcRoom input.budget) r) := by
    rw [oversized, coded]
  refine wallClock_keeps watches holds fun wall k' holds => ?_
  by_cases idle : loop.expired = [] ∧ loop.sendTemplate = false
  · have answer : encodeMeasured catalog (fe.exportHeader input loop.seqNo wall) loop.expired
        loop.sendTemplate input.budget = .ok ⟨none, 0, 0⟩ := by
      simp [encodeMeasured, idle.1, idle.2]
    rw [answer]
    refine ⟨holds, none, (List.append_nil w).symm, .nothing (List.drop_suffix 0 _)
      (fun _ => idle.1) fun r member => ?_⟩
    rw [idle.1] at member
    cases member
  have something : loop.expired ≠ [] ∨ loop.sendTemplate = true := by
    by_contra neither
    rw [not_or, not_not, Bool.not_eq_true] at neither
    exact idle neither
  obtain ⟨bare, ⟨r, rest, split, large⟩, answer⟩ | ⟨n, -, alone, fits, size, answer⟩ :=
    encodeMeasured_spec catalog (fe.exportHeader input loop.seqNo wall) input.le_budget something
  · rw [answer]
    dsimp only
    rw [if_pos Nat.one_pos, split, List.drop_one, List.tail_cons, bare, Bool.not_false,
      Bool.and_true]
    have counted := ((countOversize_only scenActive 1).frame (wire_ignores w)).both
      (watches.oversize k' holds)
    refine counted.bind fun l _ both => ⟨both.2, none, ?_, ?_⟩
    · rw [both.1.1, Option.toList_none, List.append_nil]
    · rw [← bare]
      exact .oversize split (by rw [oversized_iff, decide_eq_false large, Bool.not_false])
  · rw [answer]
    dsimp only
    rw [if_neg (Nat.lt_irrefl 0)]
    have carries : input.Carries loop.seqNo (.ipfixAVC catalog (fe.exportHeader input loop.seqNo
        wall) loop.sendTemplate (loop.expired.take n)) (loop.expired.take n) :=
      ⟨rfl, rfl, fun _ => ⟨rfl, rfl, size⟩⟩
    refine (sendBatch_keeps watches holds carries
      fun r member => known r (List.mem_of_mem_take member)).mono ?_
    rintro l result ⟨holds, write, same, rfl⟩
    refine ⟨holds, some (_, write), same, .sent (List.take_append_drop n _).symm carries ?_ ?_⟩
    · intro none
      by_contra bare
      rcases List.take_eq_nil_iff.mp none with zero | nil
      · exact bare (alone zero)
      · exact idle ⟨nil, by simpa using bare⟩
    · intro r member
      rw [oversized_iff, decide_eq_true (fits r member), Bool.not_true]

/-- **A turn of the flow loop**, for every encoder. -/
theorem flowTurn_keeps (holds : inv k)
    (known : ∀ r ∈ loop.expired, good r) :
    Keeps (wire.both N) (w, k) (fe.flowTurn input scenActive loop) fun l result =>
      inv l.2 ∧ ∃ wrote : Option Written, l.1 = w ++ wrote.toList ∧
        FlowMove fe input loop wrote result := by
  unfold flowTurn
  cases coded : fe.encoder with
  | ipfixAVC catalog => exact measuredTurn_keeps watches coded holds known
  | _ => exact batchTurn_keeps watches (fun catalog same => by simp [coded] at same) holds known

end

/-- **The flow loop** ends. What every move keeps of the datagrams and the state of the loop holds at
its end, with no record left that it could have sent. -/
theorem flowLoop_keeps (watches : Watches input scenActive good N inv) {expired : List FlowRecord}
    {sendTemplate : Bool} (inv' : List Written → FlowLoop → Prop)
    (move : ∀ w loop wrote result, inv' w loop → FlowMove fe input loop wrote result →
      inv' (w ++ wrote.toList) result.state)
    (known : ∀ r ∈ expired, good r) (holds : inv k)
    (start : inv' w ⟨fe.seqNo, fe.lastTempl, {}, expired, sendTemplate⟩) :
    Keeps (wire.both N) (w, k) (fe.flowLoop input scenActive expired sendTemplate)
      fun l result => ∃ last, result = some last ∧ inv l.2 ∧ inv' l.1 last ∧
        ((∀ r ∈ expired, r.IsIPv4) → last.expired = []) ∧
        ∀ r ∈ last.expired, fe.oversized input r = false := by
  refine Keeps.iterate (fun l loop => inv l.2 ∧ inv' l.1 loop ∧ loop.expired <:+ expired)
    FlowLoop.weight (fun l loop before => ?_) ⟨holds, start, List.suffix_rfl⟩ ?_
  · obtain ⟨holds, inside, suffix⟩ := before
    refine (flowTurn_keeps watches holds fun r member => known r (suffix.subset member)).mono ?_
    rintro l' result ⟨holds', wrote, same, moved⟩
    have after := move l.1 loop wrote result inside moved
    rw [← same] at after
    cases result with
    | again next => exact ⟨⟨holds', after, moved.suffix.trans suffix⟩, moved.weight_lt rfl⟩
    | stop last =>
      obtain ⟨done, fit⟩ := moved.stopped rfl
      exact ⟨holds', after, fun ipv4 => done fun r member => ipv4 r (suffix.subset member), fit⟩
  · unfold FlowLoop.weight flowFuel
    cases sendTemplate <;> simp only [Bool.toNat_false, Bool.toNat_true] <;> omega

end FlowExporter

end Nl6
