import Nl6.Scenario.Ledger

/-! # Pending INFORMs

An exporter in INFORM mode keeps every INFORM until the collector acknowledges it, its retries are
used up, or newer ones push it out (trap_exporter.go). The entries, their order and the counters are
only touched inside of `pendingMu`, so each critical section is one operation here. `Booked` is what
the comments call the invariant of the counters, with the order and the capacity; every operation
keeps it, registration if the request-id is not in use.
-/

namespace Nl6

/-- `pendingInform`, and which fire originated it. -/
structure PendingInform where
  reqID : UInt32
  pdu : Bytes
  sentAt : Instant
  deadline : Instant
  retries : Nat
  fire : Nat
  deriving DecidableEq, Repr

structure InformOptions where
  informTimeout : Nat
  informRetries : Nat
  pendingCap : Nat
  cap_pos : 0 < pendingCap

/-- The state of an exporter of INFORMs. The entries of `pending` are listed as they were inserted.

Beside the fields of the exporter it is recorded how many request-ids were issued, how many had been
issued when a request-id was issued last, and how often the INFORM of each fire was handed to the
socket. -/
structure InformState where
  nextReqID : UInt32
  pending : List PendingInform
  pendingOrder : List UInt32
  originated : Nat
  acked : Nat
  failed : Nat
  dropped : Nat
  issued : Nat
  issuedAt : UInt32 → Nat
  transmissions : Nat → Nat

namespace InformState

def initial : InformState where
  nextReqID := 0
  pending := []
  pendingOrder := []
  originated := 0
  acked := 0
  failed := 0
  dropped := 0
  issued := 0
  issuedAt _ := 0
  transmissions _ := 0

/-- `e.pending[reqID]`. -/
def lookup (s : InformState) (reqID : UInt32) : Option PendingInform :=
  s.pending.find? (·.reqID = reqID)

/-- `delete(e.pending, reqID)`. -/
def delete (pending : List PendingInform) (reqID : UInt32) : List PendingInform :=
  pending.filter (·.reqID ≠ reqID)

/-- `nextRequestID`, which skips zero. -/
def nextRequestID (s : InformState) : InformState × UInt32 :=
  let next := s.nextReqID + 1
  let id := if next = 0 then next + 1 else next
  ({ s with
    nextReqID := id
    issued := s.issued + 1
    issuedAt := Function.update s.issuedAt id s.issued }, id)

/-- Drop the oldest entries until there is room for one more. -/
def makeRoom (cap : Nat) : List UInt32 → InformState → InformState
  | [], s => { s with pendingOrder := [] }
  | oldest :: order, s =>
    if s.pending.length < cap then { s with pendingOrder := oldest :: order }
    else if (s.lookup oldest).isSome then
      makeRoom cap order
        { s with pending := delete s.pending oldest, dropped := s.dropped + 1 }
    else makeRoom cap order s

def registerPending (options : InformOptions) (s : InformState) (fire : Nat) (reqID : UInt32)
    (pdu : Bytes) (now : Instant) : InformState :=
  let p : PendingInform := ⟨reqID, pdu, now, now + options.informTimeout, 0, fire⟩
  let s := s.makeRoom options.pendingCap s.pendingOrder
  { s with
    pending := delete s.pending reqID ++ [p]
    pendingOrder := s.pendingOrder ++ [reqID]
    originated := s.originated + 1 }

/-- Take an entry out of `pending` and `pendingOrder`, if it is still there, and count why. -/
def takeOut (count : InformState → InformState) (s : InformState) (reqID : UInt32) : InformState :=
  if (s.lookup reqID).isSome then
    count { s with
      pending := delete s.pending reqID
      -- `removeFromOrder` strips the first occurrence.
      pendingOrder := s.pendingOrder.erase reqID }
  else s

def resolveAck : InformState → UInt32 → InformState :=
  takeOut fun s => { s with acked := s.acked + 1 }

/-- The critical section of `checkPending` for an entry without retries left. -/
def failPending : InformState → UInt32 → InformState :=
  takeOut fun s => { s with failed := s.failed + 1 }

/-- The critical section of `fireWithCtx` after a write that failed: the origination is taken back. -/
def undoPending : InformState → UInt32 → InformState :=
  takeOut fun s => { s with originated := s.originated - 1 }

/-- The entries past their deadline, with retries left and without. -/
def overdue (options : InformOptions) (s : InformState) (now : Instant) :
    List UInt32 × List UInt32 :=
  let late := s.pending.filter fun p => p.deadline ≤ now
  ((late.filter fun p => p.retries < options.informRetries).map (·.reqID),
    (late.filter fun p => options.informRetries ≤ p.retries).map (·.reqID))

/-- An entry that is sent once more. -/
def retried (options : InformOptions) (now : Instant) (p : PendingInform) : PendingInform :=
  { p with retries := p.retries + 1, sentAt := now, deadline := now + options.informTimeout }

/-- The critical section of `checkPending` for an entry with retries left: the entry to send. -/
def retryPending (options : InformOptions) (s : InformState) (reqID : UInt32) (now : Instant) :
    InformState × Option PendingInform :=
  match s.lookup reqID with
  | none => (s, none)
  | some p =>
    ({ s with pending := s.pending.map fun q =>
        if q.reqID = reqID then retried options now q else q },
      some (retried options now p))

/-- The INFORM of a fire was handed to the socket. -/
def transmit (s : InformState) (fire : Nat) : InformState :=
  { s with transmissions := Function.update s.transmissions fire (s.transmissions fire + 1) }

/-! ### The accounts -/

def ids (s : InformState) : List UInt32 := s.pending.map (·.reqID)

/-- The invariant of the counters: every INFORM that was originated is pending, acknowledged, failed
or dropped. The order lists the pending request-ids as they were inserted, none of them twice, and
there are no more than there is room for. -/
structure Booked (options : InformOptions) (s : InformState) : Prop where
  sum : s.pending.length + s.acked + s.failed + s.dropped = s.originated
  order : s.pendingOrder = s.ids
  distinct : s.ids.Nodup
  room : s.pending.length ≤ options.pendingCap

theorem booked_initial (options : InformOptions) : Booked options initial :=
  ⟨rfl, rfl, List.nodup_nil, Nat.zero_le _⟩

variable {reqID : UInt32} {pending : List PendingInform}

theorem lookup_eq_some {s : InformState} {p : PendingInform} (found : s.lookup reqID = some p) :
    p ∈ s.pending ∧ p.reqID = reqID :=
  ⟨List.mem_of_find?_eq_some found, by simpa using List.find?_some found⟩

theorem lookup_isSome_iff (s : InformState) (reqID : UInt32) :
    (s.lookup reqID).isSome = true ↔ reqID ∈ s.ids := by
  simp [lookup, ids, List.find?_isSome]

theorem map_delete (distinct : (pending.map (·.reqID)).Nodup) (reqID : UInt32) :
    (delete pending reqID).map (·.reqID) = (pending.map (·.reqID)).erase reqID := by
  rw [distinct.erase_eq_filter, List.filter_map]
  congr 1
  refine List.filter_congr fun p _ => ?_
  simp [bne, beq_eq_decide]

theorem length_delete (distinct : (pending.map (·.reqID)).Nodup)
    (mem : reqID ∈ pending.map (·.reqID)) : (delete pending reqID).length + 1 = pending.length := by
  have lengths := congrArg List.length (map_delete distinct reqID)
  rw [List.length_map, List.length_erase_of_mem mem, List.length_map] at lengths
  have positive := List.length_pos_of_mem mem
  rw [List.length_map] at positive
  omega

theorem delete_of_not_mem (unused : reqID ∉ pending.map (·.reqID)) :
    delete pending reqID = pending := by
  refine List.filter_eq_self.mpr fun p mem => ?_
  have other : p.reqID ≠ reqID := fun same => unused (same ▸ List.mem_map_of_mem mem)
  simpa using other

section Operations

variable {options : InformOptions} {s : InformState} {count : InformState → InformState}

/-- Making room drops the oldest entries and counts them. -/
theorem makeRoom_spec {cap : Nat} (positive : 0 < cap) {order : List UInt32} (lists : order = s.ids)
    (distinct : s.ids.Nodup) :
    ∃ gone kept, s.pending = gone ++ kept ∧ kept.length < cap ∧
      s.makeRoom cap order =
        { s with
          pending := kept
          pendingOrder := kept.map (·.reqID)
          dropped := s.dropped + gone.length } := by
  induction order generalizing s with
  | nil =>
    have empty : s.pending = [] := List.map_eq_nil_iff.mp lists.symm
    refine ⟨[], [], empty, positive, ?_⟩
    rw [makeRoom, ← empty]
    simp [empty]
  | cons oldest order ih =>
    obtain ⟨p, pending, split⟩ : ∃ p pending, s.pending = p :: pending := by
      cases listed : s.pending with
      | nil => rw [ids, listed] at lists; exact nomatch lists
      | cons p pending => exact ⟨p, pending, rfl⟩
    rw [ids, split, List.map_cons] at lists distinct
    obtain ⟨first, rest⟩ := List.cons.inj lists
    rw [makeRoom]
    split
    · next roomy =>
        refine ⟨[], s.pending, rfl, roomy, ?_⟩
        rw [split, List.map_cons, lists]
        rfl
    · have found : (s.lookup oldest).isSome = true := by
        rw [lookup_isSome_iff, ids, split, List.map_cons, first]
        exact List.mem_cons_self
      have left : delete s.pending oldest = pending := by
        have head : delete [p] oldest = [] := by simp [delete, first]
        have tail : delete pending oldest = pending :=
          delete_of_not_mem (first ▸ (List.nodup_cons.mp distinct).1)
        rw [split, ← List.singleton_append, delete, List.filter_append]
        exact congrArg₂ _ head tail
      rw [if_pos found, left]
      obtain ⟨gone, kept, parts, roomy, result⟩ :=
        ih (s := { s with pending := pending, dropped := s.dropped + 1 }) rest
          (List.nodup_cons.mp distinct).2
      refine ⟨p :: gone, kept, ?_, roomy, ?_⟩
      · rw [split, List.cons_append]
        exact congrArg (p :: ·) parts
      · rw [result, List.length_cons]
        simp only [InformState.mk.injEq, true_and, and_true]
        omega

theorem Booked.registerPending_eq (booked : Booked options s) {reqID : UInt32}
    (unused : reqID ∉ s.ids) (fire : Nat) (pdu : Bytes) (now : Instant) :
    ∃ gone kept, s.pending = gone ++ kept ∧ kept.length < options.pendingCap ∧
      s.registerPending options fire reqID pdu now =
        { s with
          pending := kept ++ [⟨reqID, pdu, now, now + options.informTimeout, 0, fire⟩]
          pendingOrder := kept.map (·.reqID) ++ [reqID]
          dropped := s.dropped + gone.length
          originated := s.originated + 1 } := by
  obtain ⟨gone, kept, split, roomy, result⟩ :=
    makeRoom_spec options.cap_pos booked.order booked.distinct
  refine ⟨gone, kept, split, roomy, ?_⟩
  have absent : reqID ∉ kept.map (·.reqID) := by
    intro mem
    refine unused ?_
    rw [ids, split, List.map_append]
    exact List.mem_append_right _ mem
  simp only [registerPending, result, delete_of_not_mem absent]

/-- Registration keeps the accounts, if the request-id is not in use. -/
theorem Booked.registerPending (booked : Booked options s) {reqID : UInt32}
    (unused : reqID ∉ s.ids) (fire : Nat) (pdu : Bytes) (now : Instant) :
    Booked options (s.registerPending options fire reqID pdu now) := by
  obtain ⟨gone, kept, split, roomy, result⟩ := booked.registerPending_eq unused fire pdu now
  have counts := booked.sum
  have distinct := booked.distinct
  rw [ids, split, List.map_append] at distinct unused
  rw [split, List.length_append] at counts
  rw [result]
  refine ⟨?_, by simp [ids], ?_, ?_⟩
  · rw [List.length_append, List.length_singleton]
    change kept.length + 1 + s.acked + s.failed + (s.dropped + gone.length) = s.originated + 1
    omega
  · rw [ids, List.map_append]
    refine (List.nodup_append.mp distinct).2.1.append (List.nodup_singleton _) ?_
    intro id mem same
    obtain rfl : id = reqID := List.mem_singleton.mp same
    exact unused (List.mem_append_right _ mem)
  · rw [List.length_append, List.length_singleton]
    omega

/-- An INFORM that is no longer pending is counted in another column, or not as originated. -/
structure Tallies (count : InformState → InformState) : Prop where
  only : ∀ s, count s = { s with
    acked := (count s).acked
    failed := (count s).failed
    originated := (count s).originated }
  sum : ∀ s, 0 < s.originated → (count s).acked + (count s).failed + s.originated =
    s.acked + s.failed + 1 + (count s).originated

theorem tallies_acked : Tallies fun s => { s with acked := s.acked + 1 } :=
  ⟨fun _ => rfl, fun s _ => by dsimp only; omega⟩

theorem tallies_failed : Tallies fun s => { s with failed := s.failed + 1 } :=
  ⟨fun _ => rfl, fun s _ => by dsimp only; omega⟩

theorem tallies_undone : Tallies fun s => { s with originated := s.originated - 1 } :=
  ⟨fun _ => rfl, fun s _ => by dsimp only; omega⟩

/-- Taking an entry out keeps the accounts. -/
theorem Booked.takeOut (booked : Booked options s) (tallies : Tallies count) (reqID : UInt32) :
    Booked options (s.takeOut count reqID) := by
  unfold InformState.takeOut
  split
  · next found =>
      have mem := (lookup_isSome_iff s reqID).mp found
      have shorter := length_delete booked.distinct mem
      have counts := booked.sum
      have moved := tallies.sum { s with
        pending := delete s.pending reqID
        pendingOrder := s.pendingOrder.erase reqID } (by dsimp only; omega)
      have ids : (delete s.pending reqID).map (·.reqID) = s.ids.erase reqID :=
        map_delete booked.distinct reqID
      rw [tallies.only]
      dsimp only at moved
      refine ⟨?_, ?_, ?_, ?_⟩
      · dsimp only
        omega
      · exact (congrArg (·.erase reqID) booked.order).trans ids.symm
      · exact (congrArg List.Nodup ids).mpr (booked.distinct.erase reqID)
      · have := booked.room
        dsimp only
        omega
  · exact booked

theorem takeOut_rest (tallies : Tallies count) (s : InformState) (reqID : UInt32) :
    (s.takeOut count reqID).pending.Sublist s.pending ∧
      (s.takeOut count reqID).nextReqID = s.nextReqID ∧
      (s.takeOut count reqID).issued = s.issued ∧
      (s.takeOut count reqID).issuedAt = s.issuedAt ∧
      (s.takeOut count reqID).transmissions = s.transmissions := by
  unfold InformState.takeOut
  split
  · rw [tallies.only]
    exact ⟨List.filter_sublist, rfl, rfl, rfl, rfl⟩
  · exact ⟨.refl _, rfl, rfl, rfl, rfl⟩

theorem Booked.congr {s' : InformState} (booked : Booked options s) (ids : s'.ids = s.ids)
    (order : s'.pendingOrder = s.pendingOrder) (originated : s'.originated = s.originated)
    (acked : s'.acked = s.acked) (failed : s'.failed = s.failed) (dropped : s'.dropped = s.dropped) :
    Booked options s' := by
  have length : s'.pending.length = s.pending.length := by
    have lengths := congrArg List.length ids
    rwa [InformState.ids, InformState.ids, List.length_map, List.length_map] at lengths
  refine ⟨?_, ?_, ids ▸ booked.distinct, length ▸ booked.room⟩
  · rw [length, acked, failed, dropped, originated]
    exact booked.sum
  · rw [order, ids]
    exact booked.order

theorem ids_retryPending (s : InformState) (reqID : UInt32) (now : Instant) :
    (s.retryPending options reqID now).1.ids = s.ids := by
  unfold retryPending
  split
  · rfl
  · rw [ids, ids, List.map_map]
    refine List.map_congr_left fun p _ => ?_
    dsimp only [Function.comp]
    split <;> rfl

theorem Booked.retryPending (booked : Booked options s) (reqID : UInt32) (now : Instant) :
    Booked options (s.retryPending options reqID now).1 := by
  refine booked.congr (ids_retryPending s reqID now) ?_ ?_ ?_ ?_ ?_
  all_goals
    unfold InformState.retryPending
    split <;> rfl

end Operations

end InformState

end Nl6
