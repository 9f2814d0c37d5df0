import Nl6.Scenario.Gate
import Nl6.Trap.Reference

/-! # The syslog, trap and gNMI funnels

Every syslog message and every notification of a device goes through one function of its exporter
(syslog_exporter.go and trap_exporter.go, `fireWithSourceLabelled`), which carries the gate check of
the scenario subsystem, and then through `fireWithCtx`, which resolves, encodes and writes. The two are
written separately in the source and differ in their exits: only the syslog exporter distinguishes a
write that failed because the exporter is closing, and only a trap exporter takes a request-id and
keeps pending INFORMs.
-/

namespace Nl6

inductive FireError where
  | resolve
  | encode
  | write
  deriving DecidableEq, Repr

namespace Exporter

/-- Add to a counter of the ledger, if the exporter takes part. -/
def addIf (part : Bool) (counter : Counter) (n : Nat) : Exporter Unit :=
  if part then add counter n else return ()

/-- Account for a record that was not sent. -/
def countFailure (part : Bool) : Exporter Unit := do
  request (.stat .sendFailures)
  addIf part .sendFailures 1

/-- `SyslogExporter.fireWithCtx`. -/
def syslogFireWithCtx (part : Bool) : Exporter (Option FireError) := do
  let resolved ← request .resolve
  if !resolved then
    countFailure part
    return some .resolve
  else
    match ← request .encode with
    | none =>
      countFailure part
      return some .encode
    | some message =>
      let write ← request (.write (.syslog message))
      if !write.ok then
        -- A write that fails because the exporter is closing is a drop, not a send failure.
        let closing ← request .closing
        if closing then
          addIf part .dropped 1
          return none
        else
          countFailure part
          return some .write
      else
        request (.stat .sent)
        if part then
          let t ← request .now
          let bucket ← bucketFor t
          add bucket 1
          return none
        else return none

/-- What both funnels do with a fire of a participant: the gate, the barrier, and the fire itself.
`refused` is what the funnel returns without firing. -/
def fireGated {α : Type} (src : FireSource) (refused : α) (fire : Exporter α) : Exporter α := do
  let t ← request .now
  match ← decide src t with
  | .suppressSilent => return refused
  | .suppressCounted =>
    add .emitted 1
    add .suppressedPreWindow 1
    return refused
  | .proceed =>
    let admitted ← request .admitFire
    if !admitted then
      add .emitted 1
      add .dropped 1
      return refused
    else
      add .emitted 1
      let result ← fire
      leave
      return result

/-- `fireWithSourceLabelled` of both exporters. -/
def fireWithSource {α : Type} (src : FireSource) (refused : α) (fireWithCtx : Bool → Exporter α) :
    Exporter α := do
  let closing ← request .closing
  if closing then return refused
  else
    let part ← request .loadPart
    if !part then
      -- A scenario fire without a handle is a straggler of a scenario that was torn down.
      if src = .scenario then return refused
      else
        let muted ← fidelityMutesBackground src
        if muted then return refused else fireWithCtx false
    else fireGated src refused (fireWithCtx true)

/-- `SyslogExporter.fireWithSource`. -/
def syslogFireWithSource (src : FireSource) : Exporter (Option FireError) :=
  fireWithSource src none syslogFireWithCtx

def onInform (mode : TrapMode) (action : Exporter Unit) : Exporter Unit :=
  if mode = .inform then action else return ()

/-- `TrapExporter.fireWithCtx`; the result is the request-id, zero if nothing was sent. -/
def trapFireWithCtx (mode : TrapMode) (part : Bool) : Exporter UInt32 := do
  let resolved ← request .resolve
  if !resolved then
    countFailure part
    return 0
  else
    let reqID ← request .nextRequestID
    match ← request .encode with
    | none =>
      countFailure part
      return 0
    | some pdu =>
      -- Registered before the write, so that no acknowledgement can come too early.
      onInform mode (request (.registerPending reqID pdu))
      let write ← request (.write (.trap pdu))
      if !write.ok then
        onInform mode (request (.undoPending reqID))
        countFailure part
        return 0
      else
        request (.stat .sent)
        if part then
          let t ← request .now
          let bucket ← bucketFor t
          add bucket 1
          onInform mode (add .informsOriginated 1)
          return reqID
        else return reqID

/-- `TrapExporter.fireWithSource`. -/
def trapFireWithSource (mode : TrapMode) (src : FireSource) : Exporter UInt32 :=
  fireWithSource src 0 (trapFireWithCtx mode)

/-- `GnmiDialoutExporter.scenarioGate` with the `leave` that its caller defers: whether a notification
that was produced at `t` is handed to the stream. It is counted when it is produced. -/
def gnmiScenarioGate (t : Instant) : Exporter Bool := do
  let part ← request .loadPart
  if !part then
    let muted ← fidelityMutesBackground .background
    return !muted
  else
    match ← decide .scenario t with
    | .suppressSilent | .suppressCounted =>
      add .backgroundSuppressed 1
      return false
    | .proceed =>
      let admitted ← request .admitFire
      if !admitted then
        add .emitted 1
        add .dropped 1
        return false
      else
        add .emitted 1
        let live ← request .streamLive
        if !live then
          add .sendFailures 1
          leave
          return false
        else
          let bucket ← bucketFor t
          add bucket 1
          leave
          return true

/-! ### Rules for a fire -/

section Rules

open Program (Keeps)

theorem countFailure_only {P : ExporterOp → Prop} (counts : P (.stat .sendFailures))
    (adds : P (.add .sendFailures 1)) (part : Bool) :
    Keeps (.only P) () (countFailure part) fun _ _ => True := by
  refine ⟨counts, fun _ => ?_⟩
  cases part with
  | false => trivial
  | true => exact ⟨adds, fun _ => trivial⟩

/-- The requests of a fire in front of its write, and after a write that failed. -/
def Prepares : ExporterOp → Prop
  | .closing | .resolve | .encode | .nextRequestID | .registerPending _ _ | .undoPending _ => True
  | _ => False

/-- What a monitor grants the fire of a record: it is `ready` until its write has succeeded, `sent`
then, and `done` when the record is accounted for. -/
structure FireRules {L : Type} (M : Monitor exporterRequests L) (part : Bool) (pdu : Bytes → Pdu)
    (ready sent done : L → Prop) : Prop where
  prepares : ∀ l op, Prepares op → ready l → M.permits l op ∧ ∀ reply, ready (M.advance l op reply)
  writes : ∀ l message, ready l → M.permits l (.write (pdu message)) ∧ ∀ write : WriteReturn,
    (if write.ok then sent else ready) (M.advance l (.write (pdu message)) write)
  fails : ∀ l, ready l → Keeps M l (countFailure part) fun l' _ => done l'
  drops : ∀ l, ready l → Keeps M l (addIf part .dropped 1) fun l' _ => done l'
  counts : ∀ l, sent l → M.permits l (.stat .sent) ∧
    ∀ reply, sent (M.advance l (.stat .sent) reply)
  skips : part = false → ∀ l, sent l → done l
  books : part = true → ∀ l, sent l → ∀ {α : Type} (next : Exporter α),
    (∀ l', done l' → Keeps M l' next fun l'' _ => done l'') →
      Keeps M l (do
        let t ← request .now
        let bucket ← bucketFor t
        add bucket 1
        next) fun l' _ => done l'
  originates : part = true → ∀ l, done l → Keeps M l (add .informsOriginated 1) fun l' _ => done l'

variable {L : Type} {M : Monitor exporterRequests L} {part : Bool} {ready sent done : L → Prop}
  {l : L}

theorem FireRules.syslog (rules : FireRules M part .syslog ready sent done) (holds : ready l) :
    Keeps M l (syslogFireWithCtx part) fun l' _ => done l' := by
  have failed (l : L) (holds : ready l) (error : FireError) :
      Keeps M l (countFailure part >>= fun _ => return some error) fun l' _ => done l' :=
    (rules.fails l holds).bind fun _ _ done => done
  obtain ⟨may, after⟩ := rules.prepares l .resolve trivial holds
  refine ⟨may, fun resolved => ?_⟩
  have holds := after resolved
  cases resolved with
  | false => exact failed _ holds _
  | true =>
    obtain ⟨may, after⟩ := rules.prepares _ .encode trivial holds
    refine ⟨may, fun encoded => ?_⟩
    have holds := after encoded
    cases encoded with
    | none => exact failed _ holds _
    | some message =>
      obtain ⟨may, after⟩ := rules.writes _ message holds
      refine ⟨may, fun write => ?_⟩
      have holds := after write
      obtain ⟨ok, returned⟩ := write
      cases ok with
      | false =>
        obtain ⟨may, after⟩ := rules.prepares _ .closing trivial holds
        refine ⟨may, fun closing => ?_⟩
        have holds := after closing
        cases closing with
        | false => exact failed _ holds _
        | true => exact (rules.drops _ holds).bind fun _ _ done => done
      | true =>
        obtain ⟨may, after⟩ := rules.counts _ holds
        refine ⟨may, fun counted => ?_⟩
        cases part with
        | false => exact rules.skips rfl _ (after counted)
        | true => exact rules.books rfl _ (after counted) _ fun _ done => done

theorem FireRules.request {pdu : Bytes → Pdu} (rules : FireRules M part pdu ready sent done)
    (op : ExporterOp) (prepares : Prepares op) (holds : ready l) :
    Keeps M l (request op) fun l' _ => ready l' :=
  rules.prepares l op prepares holds

theorem onInform_keeps (mode : TrapMode) {action : Exporter Unit}
    (keeps : Keeps M l action fun l' _ => ready l') (holds : ready l) :
    Keeps M l (onInform mode action) fun l' _ => ready l' := by
  unfold onInform
  split_ifs
  · exact keeps
  · exact holds

theorem FireRules.trap (rules : FireRules M part .trap ready sent done) (mode : TrapMode)
    (holds : ready l) : Keeps M l (trapFireWithCtx mode part) fun l' _ => done l' := by
  have failed (l : L) (holds : ready l) :
      Keeps M l (countFailure part >>= fun _ => return (0 : UInt32)) fun l' _ => done l' :=
    (rules.fails l holds).bind fun _ _ done => done
  obtain ⟨may, after⟩ := rules.prepares l .resolve trivial holds
  refine ⟨may, fun resolved => ?_⟩
  have holds := after resolved
  cases resolved with
  | false => exact failed _ holds
  | true =>
    obtain ⟨may, after⟩ := rules.prepares _ .nextRequestID trivial holds
    refine ⟨may, fun reqID => ?_⟩
    obtain ⟨may, after⟩ := rules.prepares _ .encode trivial (after reqID)
    refine ⟨may, fun encoded => ?_⟩
    have holds := after encoded
    cases encoded with
    | none => exact failed _ holds
    | some pdu =>
      refine (onInform_keeps mode (rules.request (.registerPending reqID pdu) trivial holds)
        holds).bind fun l _ holds => ?_
      obtain ⟨may, after⟩ := rules.writes l pdu holds
      refine ⟨may, fun write => ?_⟩
      have holds := after write
      obtain ⟨ok, returned⟩ := write
      cases ok with
      | false =>
        exact (onInform_keeps mode (rules.request (.undoPending reqID) trivial holds)
          holds).bind fun l _ holds => failed l holds
      | true =>
        obtain ⟨may, after⟩ := rules.counts _ holds
        refine ⟨may, fun counted => ?_⟩
        cases part with
        | false => exact rules.skips rfl _ (after counted)
        | true =>
          refine rules.books rfl _ (after counted) _ fun l done => ?_
          exact (onInform_keeps mode (rules.originates rfl l done) done).bind fun _ _ done => done

end Rules

end Exporter

end Nl6
