import Nl6.Trap.Inform

/-! # Fires and the retry loop of an exporter of INFORMs

The fires are the programs of the trap funnel, and a sweep of the retry loop is `Sweep.checkPending`.
Two monitors follow them, so that what the exporter owes at any time is a matter of its state, of how
far each fire has come (`FireStage`) and of what the sweep has collected (`SweepStage`).

`Identified` says which request-ids are in use, and `Budgeted` how often each INFORM can still be
sent. For each thing that a fire, the reader or the retry loop can do there is a lemma that it keeps
them.
-/

namespace Nl6

open Program (Keeps perform)
open Exporter

/-! ### The retry loop -/

/-- The requests of the retry loop. -/
inductive SweepOp where
  | closing
  | now
  /-- Collect the request-ids past their deadline: those to retry and those to fail. -/
  | scan (now : Instant)
  | fail (reqID : UInt32)
  /-- Wait for a token of the rate limiter. -/
  | wait
  | retry (reqID : UInt32) (now : Instant)
  | write (inform : PendingInform)
  | stat (counter : ExporterStat)
  deriving DecidableEq

@[reducible] def SweepOp.Reply : SweepOp → Type
  | .closing | .wait | .write _ => Bool
  | .now => Instant
  | .scan _ => List UInt32 × List UInt32
  | .retry _ _ => Option PendingInform
  | .fail _ | .stat _ => Unit

abbrev sweepRequests : Requests := ⟨SweepOp, SweepOp.Reply⟩

abbrev Sweep (α : Type) : Type := Program sweepRequests α

namespace Sweep

def request (op : SweepOp) : Sweep op.Reply := perform (ι := sweepRequests) op

def failAll : List UInt32 → Sweep Unit
  | [] => return ()
  | reqID :: toFail => do
      request (.fail reqID)
      failAll toFail

def retryAll (now : Instant) : List UInt32 → Sweep Unit
  | [] => return ()
  | reqID :: toRetry => do
      let closing ← request .closing
      if closing then return ()
      else
        let granted ← request .wait
        if !granted then return ()
        else
          match ← request (.retry reqID now) with
          -- Acknowledged between the scan and the retry.
          | none => retryAll now toRetry
          | some inform =>
            let sent ← request (.write inform)
            request (.stat (if sent then .sent else .sendFailures))
            retryAll now toRetry

def checkPending : Sweep Unit := do
  let closing ← request .closing
  if closing then return ()
  else
    let now ← request .now
    let (toRetry, toFail) ← request (.scan now)
    failAll toFail
    retryAll now toRetry

end Sweep

/-- What the retry loop has collected and not yet retried, and the INFORM it is about to write. -/
structure SweepStage where
  due : List UInt32
  inflight : Option PendingInform

def sweeps : Monitor sweepRequests SweepStage where
  permits stage op :=
    match op with
    | .retry reqID _ => stage.inflight = none ∧ ∃ rest, stage.due = reqID :: rest
    | .write inform => stage.inflight = some inform
    | .scan _ => stage.inflight = none
    | _ => True
  advance stage op reply :=
    match op, reply with
    | .scan _, found => { stage with due := found.1 }
    | .retry _ _, inform => ⟨stage.due.tail, inform⟩
    | .write _, _ => { stage with inflight := none }
    | _, _ => stage

namespace Sweep

theorem failAll_keeps (stage : SweepStage) (toFail : List UInt32) :
    Keeps sweeps stage (failAll toFail) fun stage' _ => stage' = stage := by
  induction toFail with
  | nil => exact rfl
  | cons reqID toFail ih => exact ⟨trivial, fun _ => ih⟩

theorem retryAll_keeps (now : Instant) (toRetry : List UInt32) :
    Keeps sweeps ⟨toRetry, none⟩ (retryAll now toRetry) fun _ _ => True := by
  induction toRetry with
  | nil => trivial
  | cons reqID toRetry ih =>
    refine ⟨trivial, fun closing => ?_⟩
    cases closing with
    | true => trivial
    | false =>
      refine ⟨trivial, fun granted => ?_⟩
      cases granted with
      | false => trivial
      | true =>
        refine ⟨⟨rfl, toRetry, rfl⟩, fun found => ?_⟩
        cases found with
        | none => exact ih
        | some inform => exact ⟨rfl, fun _ => ⟨trivial, fun _ => ih⟩⟩

theorem checkPending_keeps : Keeps sweeps ⟨[], none⟩ checkPending fun _ _ => True := by
  refine ⟨trivial, fun closing => ?_⟩
  cases closing with
  | true => trivial
  | false =>
    refine ⟨trivial, fun now => ⟨rfl, fun found => ?_⟩⟩
    refine (failAll_keeps ⟨found.1, none⟩ found.2).bind ?_
    rintro stage _ rfl
    exact retryAll_keeps now found.1

end Sweep

/-! ### Fires -/

/-- How far a fire has come with its INFORM. -/
inductive FireStage where
  /-- It has no request-id yet. -/
  | fresh
  /-- It has one, and has not registered the INFORM. -/
  | issued (reqID : UInt32)
  /-- It could not encode the INFORM. -/
  | lapsed
  /-- The INFORM is registered and not written yet. -/
  | registered (reqID : UInt32)
  /-- The write has returned. -/
  | written (reqID : UInt32)
  deriving DecidableEq

namespace FireStage

def issuedID : FireStage → Option UInt32
  | .issued reqID => some reqID
  | _ => none

/-- The INFORM was never registered. -/
def isEarly : FireStage → Bool
  | .fresh | .issued _ | .lapsed => true
  | .registered _ | .written _ => false

/-- The write of the fire is still to come. -/
def unwritten : FireStage → Bool
  | .fresh | .issued _ | .registered _ => true
  | .lapsed | .written _ => false

end FireStage

def informs : Monitor exporterRequests FireStage where
  permits stage op :=
    match op with
    | .nextRequestID => stage = .fresh
    | .registerPending reqID _ => stage = .issued reqID
    | .write _ => ∃ reqID, stage = .registered reqID
    | .undoPending reqID => stage = .written reqID
    | _ => True
  advance stage op reply :=
    match op, reply, stage with
    | .nextRequestID, reqID, _ => .issued reqID
    | .encode, none, .issued _ => .lapsed
    | .registerPending reqID _, _, _ => .registered reqID
    | .write _, _, .registered reqID => .written reqID
    | _, _, stage => stage

/-- A request that has nothing to do with an INFORM. -/
def Uninvolved : ExporterOp → Prop
  | .nextRequestID | .encode | .registerPending _ _ | .write _ | .undoPending _ => False
  | _ => True

theorem informs_ignores (stage : FireStage) (op : ExporterOp) (uninvolved : Uninvolved op) :
    informs.permits stage op ∧ ∀ reply, informs.advance stage op reply = stage := by
  cases op with
  | nextRequestID | encode | registerPending | write | undoPending => exact uninvolved.elim
  | _ => exact ⟨trivial, fun _ => rfl⟩

/-- A part of a fire that has nothing to do with its INFORM. -/
theorem keeps_of_uninvolved {α : Type} {p : Exporter α} {post : α → Prop}
    (only : Keeps (.only Uninvolved) () p fun _ => post) (stage : FireStage) :
    Keeps informs stage p fun stage' result => stage' = stage ∧ post result :=
  only.frame (informs_ignores stage)

theorem bucketFor_uninvolved (t : Instant) :
    Keeps (.only Uninvolved) () (bucketFor t) fun _ _ => True := by
  refine (classify_only trivial t).bind ?_
  rintro _ ⟨inWindow, index⟩ -
  cases inWindow with
  | false => trivial
  | true => exact (addSubWindow_only (fun _ _ => trivial) index 1).bind fun _ _ _ => trivial

theorem trapFireWithCtx_informs (part : Bool) :
    Keeps informs .fresh (trapFireWithCtx .inform part) fun _ _ => True := by
  have counted : ∀ stage, Keeps informs stage (countFailure part >>= fun _ => return 0)
      fun _ (_ : UInt32) => True :=
    fun stage => (keeps_of_uninvolved (countFailure_only trivial trivial part) stage).bind
      fun _ _ _ => trivial
  refine ⟨trivial, fun resolved => ?_⟩
  cases resolved with
  | false => exact counted .fresh
  | true =>
    refine ⟨rfl, fun reqID => ⟨trivial, fun encoded => ?_⟩⟩
    cases encoded with
    | none => exact counted .lapsed
    | some pdu =>
      refine ⟨rfl, fun _ => ⟨⟨reqID, rfl⟩, fun write => ?_⟩⟩
      obtain ⟨ok, returned⟩ := write
      cases ok with
      | false => exact ⟨rfl, fun _ => counted (.written reqID)⟩
      | true =>
        refine ⟨trivial, fun _ => ?_⟩
        cases part with
        | false => trivial
        | true =>
          refine ⟨trivial, fun t => ?_⟩
          refine (keeps_of_uninvolved (bucketFor_uninvolved t) _).bind ?_
          rintro _ bucket ⟨rfl, -⟩
          exact ⟨trivial, fun _ => ⟨trivial, fun _ => trivial⟩⟩

theorem trapFire_informs (src : FireSource) :
    Keeps informs .fresh (Fire.trap .inform src).program fun _ _ => True := by
  suffices fires : Keeps informs .fresh (trapFireWithSource .inform src) fun _ _ => True from
    fires.bind fun _ _ _ => trivial
  refine ⟨trivial, fun closing => ?_⟩
  cases closing with
  | true => trivial
  | false =>
    refine ⟨trivial, fun part => ?_⟩
    cases part with
    | false =>
      split_ifs
      · trivial
      · refine ⟨trivial, fun silent => ?_⟩
        change Keeps informs .fresh (if _ then _ else _) _
        split_ifs
        · trivial
        · exact trapFireWithCtx_informs false
    | true =>
      refine ⟨trivial, fun t => ?_⟩
      refine (keeps_of_uninvolved (decide_only trivial (fun _ => trivial) t) .fresh).bind ?_
      rintro _ decision ⟨rfl, -⟩
      cases decision with
      | suppressSilent => trivial
      | suppressCounted => exact ⟨trivial, fun _ => ⟨trivial, fun _ => trivial⟩⟩
      | proceed =>
        refine ⟨trivial, fun admitted => ?_⟩
        cases admitted with
        | false => exact ⟨trivial, fun _ => ⟨trivial, fun _ => trivial⟩⟩
        | true =>
          refine ⟨trivial, fun _ => ?_⟩
          refine (trapFireWithCtx_informs true).bind fun stage _ _ => ?_
          exact ⟨trivial, fun _ => ⟨trivial, fun _ => trivial⟩⟩

/-! ### Request-ids -/

/-- How many request-ids there are. -/
def requestIDs : Nat := 2 ^ 32 - 1

/-- The request-ids in the order in which they are issued. -/
def requestID (index : Nat) : UInt32 := UInt32.ofNat (index % requestIDs + 1)

def lastRequestID : Nat → UInt32
  | 0 => 0
  | issued + 1 => requestID issued

theorem toNat_requestID (index : Nat) : (requestID index).toNat = index % requestIDs + 1 := by
  have below : index % requestIDs < requestIDs := Nat.mod_lt _ (by decide)
  rw [requestID, UInt32.toNat_ofNat']
  unfold requestIDs at below ⊢
  omega

/-- Request-ids issued less than a round apart are different. -/
theorem requestID_ne {i j : Nat} (before : i < j) (within : j - i < requestIDs) :
    requestID i ≠ requestID j := by
  intro same
  have values := congrArg UInt32.toNat same
  rw [toNat_requestID, toNat_requestID] at values
  have congruent : i ≡ j [MOD requestIDs] := by
    unfold Nat.ModEq
    omega
  have divides := (Nat.modEq_iff_dvd' before.le).mp congruent
  exact absurd (Nat.le_of_dvd (by omega) divides) (by omega)

theorem requestID_succ (issued : Nat) :
    (let next := lastRequestID issued + 1
      if next = 0 then next + 1 else next) = requestID issued := by
  have modulus : requestIDs = 4294967295 := rfl
  have value : (lastRequestID issued + 1).toNat =
      if issued % requestIDs = 0 ∧ issued ≠ 0 then 0 else issued % requestIDs + 1 := by
    cases issued with
    | zero => rfl
    | succ issued =>
      rw [lastRequestID, UInt32.toNat_add, toNat_requestID]
      have below : issued % requestIDs < requestIDs := Nat.mod_lt _ (by decide)
      have next : (issued + 1) % requestIDs =
          if issued % requestIDs + 1 = requestIDs then 0 else issued % requestIDs + 1 := by
        rw [Nat.add_mod_eq_ite]
        rw [Nat.mod_eq_of_lt (by decide : 1 < requestIDs)]
        split_ifs <;> omega
      simp only [UInt32.toNat_one]
      split_ifs at next ⊢ <;> omega
  apply UInt32.toNat_inj.mp
  rw [toNat_requestID]
  by_cases zero : lastRequestID issued + 1 = 0
  · rw [zero, UInt32.toNat_zero] at value
    rw [if_pos zero, zero]
    split_ifs at value with around
    rw [around.1]
    rfl
  · rw [if_neg zero, value, if_neg]
    intro around
    rw [if_pos around] at value
    exact zero (UInt32.toNat_inj.mp value)

/-! ### Which request-ids are in use -/

/-- How far each fire has come. -/
abbrev Stages : Type := Nat → Option FireStage

theorem issued_of_update {stages : Stages} {stage : FireStage} {f g : Nat} {reqID : UInt32}
    (other : stage.issuedID = none)
    (here : Function.update stages f (some stage) g = some (.issued reqID)) :
    stages g = some (.issued reqID) := by
  by_cases self : g = f
  · rw [self, Function.update_self] at here
    cases here
    exact nomatch other
  · rwa [Function.update_of_ne self] at here

/-- The accounts hold, and the request-ids under way are different and less than a round old. -/
structure Identified (options : InformOptions) (s : InformState) (stages : Stages) : Prop where
  booked : s.Booked options
  last : s.nextReqID = lastRequestID s.issued
  single : ∀ f g reqID, stages f = some (.issued reqID) → stages g = some (.issued reqID) → f = g
  unused : ∀ f reqID, stages f = some (.issued reqID) → reqID ∉ s.ids
  dated : ∀ reqID, (reqID ∈ s.ids ∨ ∃ f, stages f = some (.issued reqID)) →
    s.issuedAt reqID < s.issued ∧ reqID = requestID (s.issuedAt reqID)

namespace Identified

variable {options : InformOptions} {s s' : InformState} {stages : Stages}
  (identified : Identified options s stages)

include identified

theorem shrink {stages' : Stages}
    (booked : s'.Booked options) (last : s'.nextReqID = s.nextReqID) (issued : s'.issued = s.issued)
    (issuedAt : s'.issuedAt = s.issuedAt) (ids : ∀ reqID ∈ s'.ids, reqID ∈ s.ids)
    (fewer : ∀ f reqID, stages' f = some (.issued reqID) → stages f = some (.issued reqID)) :
    Identified options s' stages' where
  booked := booked
  last := by rw [last, issued, identified.last]
  single f g reqID here there :=
    identified.single f g reqID (fewer f reqID here) (fewer g reqID there)
  unused f reqID here among := identified.unused f reqID (fewer f reqID here) (ids reqID among)
  dated reqID used := by
    rw [issued, issuedAt]
    exact identified.dated reqID
      (used.imp (ids reqID) fun ⟨f, here⟩ => ⟨f, fewer f reqID here⟩)

theorem issue {f : Nat}
    (outlived : ∀ reqID, (reqID ∈ s.ids ∨ ∃ g, stages g = some (.issued reqID)) →
      s.issued - s.issuedAt reqID < requestIDs) :
    Identified options s.nextRequestID.1
      (Function.update stages f (some (.issued s.nextRequestID.2))) := by
  have new : s.nextRequestID.2 = requestID s.issued := by
    rw [InformState.nextRequestID, identified.last]
    exact requestID_succ s.issued
  have other : ∀ reqID, (reqID ∈ s.ids ∨ ∃ g, stages g = some (.issued reqID)) →
      reqID ≠ requestID s.issued := by
    intro reqID used
    obtain ⟨before, same⟩ := identified.dated reqID used
    rw [same]
    exact requestID_ne before (outlived reqID used)
  have split : ∀ g reqID, Function.update stages f (some (.issued s.nextRequestID.2)) g =
      some (.issued reqID) → (g = f ∧ reqID = requestID s.issued) ∨
        (g ≠ f ∧ stages g = some (.issued reqID)) := by
    intro g reqID here
    by_cases self : g = f
    · subst self
      rw [Function.update_self, new] at here
      exact .inl ⟨rfl, (FireStage.issued.inj (Option.some.inj here)).symm⟩
    · rw [Function.update_of_ne self] at here
      exact .inr ⟨self, here⟩
  refine ⟨identified.booked.congr rfl rfl rfl rfl rfl rfl, new, ?_, ?_, ?_⟩
  · intro g h reqID here there
    rcases split g reqID here with ⟨self, fresh⟩ | ⟨-, old⟩
    · rcases split h reqID there with ⟨self', -⟩ | ⟨-, old'⟩
      · rw [self, self']
      · exact absurd fresh (other reqID (.inr ⟨h, old'⟩))
    · rcases split h reqID there with ⟨-, fresh⟩ | ⟨-, old'⟩
      · exact absurd fresh (other reqID (.inr ⟨g, old⟩))
      · exact identified.single g h reqID old old'
  · intro g reqID here among
    rcases split g reqID here with ⟨-, fresh⟩ | ⟨-, old⟩
    · exact absurd fresh (other reqID (.inl among))
    · exact identified.unused g reqID old among
  · intro reqID used
    change Function.update s.issuedAt s.nextRequestID.2 s.issued reqID < s.issued + 1 ∧
      reqID = requestID (Function.update s.issuedAt s.nextRequestID.2 s.issued reqID)
    rw [new]
    by_cases fresh : reqID = requestID s.issued
    · rw [fresh, Function.update_self]
      exact ⟨Nat.lt_succ_self _, rfl⟩
    · rw [Function.update_of_ne fresh]
      have old : reqID ∈ s.ids ∨ ∃ g, stages g = some (.issued reqID) := by
        refine used.imp_right fun ⟨g, here⟩ => ?_
        rcases split g reqID here with ⟨-, same⟩ | ⟨-, old⟩
        · exact absurd same fresh
        · exact ⟨g, old⟩
      obtain ⟨before, same⟩ := identified.dated reqID old
      exact ⟨before.trans (Nat.lt_succ_self _), same⟩

theorem register {f : Nat} {reqID : UInt32}
    (holds : stages f = some (.issued reqID)) (pdu : Bytes) (now : Instant) :
    Identified options (s.registerPending options f reqID pdu now)
      (Function.update stages f (some (.registered reqID))) := by
  have unused := identified.unused f reqID holds
  obtain ⟨gone, kept, parts, -, result⟩ :=
    identified.booked.registerPending_eq unused f pdu now
  have ids : ∀ other ∈ (s.registerPending options f reqID pdu now).ids,
      other ∈ s.ids ∨ other = reqID := by
    intro other mem
    rw [result, InformState.ids, List.map_append] at mem
    rcases List.mem_append.mp mem with old | new
    · refine .inl ?_
      rw [InformState.ids, parts, List.map_append]
      exact List.mem_append_right _ old
    · exact .inr (List.mem_singleton.mp new)
  have before : ∀ g other, Function.update stages f (some (.registered reqID)) g =
      some (.issued other) → stages g = some (.issued other) := fun _ _ => issued_of_update rfl
  have issued : (s.registerPending options f reqID pdu now).issued = s.issued := by rw [result]
  have issuedAt : (s.registerPending options f reqID pdu now).issuedAt = s.issuedAt := by
    rw [result]
  refine ⟨identified.booked.registerPending unused f pdu now, ?_, ?_, ?_, ?_⟩
  · rw [issued, result]
    exact identified.last
  · intro g h other here there
    exact identified.single g h other (before g other here) (before h other there)
  · intro g other here among
    rcases ids other among with pending | same
    · exact identified.unused g other (before g other here) pending
    · subst same
      obtain rfl := identified.single g f other (before g other here) holds
      rw [Function.update_self] at here
      cases here
  · intro other used
    rw [issued, issuedAt]
    rcases used with among | ⟨g, here⟩
    · rcases ids other among with pending | same
      · exact identified.dated other (.inl pending)
      · subst same
        exact identified.dated other (.inr ⟨f, holds⟩)
    · exact identified.dated other (.inr ⟨g, before g other here⟩)

theorem takeOut {count : InformState → InformState}
    (tallies : InformState.Tallies count) (reqID : UInt32) :
    Identified options (s.takeOut count reqID) stages := by
  obtain ⟨pending, last, issued, issuedAt, -⟩ := InformState.takeOut_rest tallies s reqID
  exact identified.shrink (identified.booked.takeOut tallies reqID) last issued issuedAt
    (fun _ mem => (pending.map _).subset mem) fun _ _ => id

theorem retry (reqID : UInt32) (now : Instant) :
    Identified options (s.retryPending options reqID now).1 stages := by
  refine identified.shrink (identified.booked.retryPending reqID now) ?_ ?_ ?_ (fun id mem => ?_)
    fun _ _ => id
  iterate 3
    · unfold InformState.retryPending
      split <;> rfl
  · rwa [InformState.ids_retryPending] at mem

end Identified

/-! ### How often an INFORM is sent -/

def writesLeft : Option FireStage → Nat
  | some stage => if stage.unwritten then 1 else 0
  | none => 0

/-- The writes of the INFORM of a fire that the retry loop is committed to. -/
def rewritesLeft (inflight : Option PendingInform) (f : Nat) : Nat :=
  if inflight.map (·.fire) = some f then 1 else 0

/-- The INFORM of a fire was never registered. -/
def Early (stages : Stages) (f : Nat) : Prop :=
  ∀ stage, stages f = some stage → stage.isEarly = true

theorem Early.of_update {stages : Stages} {stage : FireStage} {f g : Nat}
    (early : Early (Function.update stages f (some stage)) g) (late : stage.isEarly = false) :
    g ≠ f ∧ Early stages g := by
  have other : g ≠ f := by
    rintro rfl
    exact absurd ((early _ (Function.update_self ..)).symm.trans late) (by simp)
  exact ⟨other, fun stage same => early stage (by rwa [Function.update_of_ne other])⟩

/-- Every INFORM keeps to its retries, with the writes counted that are still to come: a pending one
to those that are counted in its entry. -/
structure Budgeted (options : InformOptions) (s : InformState) (stages : Stages)
    (sweep : SweepStage) : Prop where
  fires : (s.pending.map (·.fire)).Nodup
  early : ∀ f, Early stages f → s.transmissions f = 0 ∧ (∀ p ∈ s.pending, p.fire ≠ f) ∧
    rewritesLeft sweep.inflight f = 0
  spent : ∀ f, s.transmissions f + writesLeft (stages f) + rewritesLeft sweep.inflight f ≤
    1 + options.informRetries
  entries : ∀ p ∈ s.pending, s.transmissions p.fire + writesLeft (stages p.fire) +
    rewritesLeft sweep.inflight p.fire ≤ 1 + p.retries ∧ p.retries ≤ options.informRetries
  distinct : sweep.due.Nodup
  due : ∀ reqID ∈ sweep.due, 0 < options.informRetries ∧
    ∀ p ∈ s.pending, p.reqID = reqID → p.retries < options.informRetries

namespace Budgeted

variable {options : InformOptions} {s s' : InformState} {stages : Stages} {sweep sweep' : SweepStage}
  {f : Nat} {reqID : UInt32} (budgeted : Budgeted options s stages sweep)

include budgeted

theorem shrink {stages' : Stages}
    (pending : s'.pending.Sublist s.pending) (transmissions : s'.transmissions = s.transmissions)
    (early : ∀ f, Early stages' f → Early stages f)
    (writes : ∀ f, writesLeft (stages' f) ≤ writesLeft (stages f))
    (rewrites : ∀ f, rewritesLeft sweep'.inflight f ≤ rewritesLeft sweep.inflight f)
    (due : sweep'.due.Sublist sweep.due) : Budgeted options s' stages' sweep' where
  fires := budgeted.fires.sublist (pending.map _)
  early f isEarly := by
    obtain ⟨none, elsewhere, idle⟩ := budgeted.early f (early f isEarly)
    rw [transmissions]
    exact ⟨none, fun p mem => elsewhere p (pending.subset mem),
      Nat.le_zero.mp ((rewrites f).trans_eq idle)⟩
  spent f := by
    rw [transmissions]
    have := budgeted.spent f
    have := writes f
    have := rewrites f
    omega
  entries p mem := by
    rw [transmissions]
    have := budgeted.entries p (pending.subset mem)
    have := writes p.fire
    have := rewrites p.fire
    omega
  distinct := budgeted.distinct.sublist due
  due reqID mem := by
    obtain ⟨some, left⟩ := budgeted.due reqID (due.subset mem)
    exact ⟨some, fun p among => left p (pending.subset among)⟩

theorem advance {stage stage' : FireStage}
    (pending : s'.pending.Sublist s.pending) (transmissions : s'.transmissions = s.transmissions)
    (here : stages f = some stage) (early : stage'.isEarly = true → stage.isEarly = true)
    (writes : stage'.unwritten = true → stage.unwritten = true) :
    Budgeted options s' (Function.update stages f (some stage')) sweep := by
  refine budgeted.shrink pending transmissions (fun g isEarly => ?_) (fun g => ?_)
    (fun _ => le_rfl) (.refl _)
  · by_cases self : g = f
    · subst self
      intro other same
      obtain rfl := Option.some.inj (here.symm.trans same)
      exact early (isEarly stage' (Function.update_self ..))
    · intro other same
      exact isEarly other (by rwa [Function.update_of_ne self])
  · by_cases self : g = f
    · subst self
      rw [Function.update_self, here]
      unfold writesLeft
      dsimp only
      split_ifs with left before
      · exact le_rfl
      · exact absurd (writes left) before
      · exact Nat.zero_le _
      · exact le_rfl
    · rw [Function.update_of_ne self]

theorem begin (unborn : stages f = none) :
    Budgeted options s (Function.update stages f (some .fresh)) sweep := by
  have isEarly : Early stages f := fun stage same => nomatch unborn.symm.trans same
  obtain ⟨none, elsewhere, idle⟩ := budgeted.early f isEarly
  refine ⟨budgeted.fires, fun g early => ?_, fun g => ?_, fun p mem => ?_, budgeted.distinct,
    budgeted.due⟩
  · by_cases self : g = f
    · subst self
      exact ⟨none, elsewhere, idle⟩
    · refine budgeted.early g fun stage same => early stage ?_
      rwa [Function.update_of_ne self]
  · by_cases self : g = f
    · subst self
      rw [Function.update_self, none, idle]
      exact Nat.le_add_right 1 _
    · rw [Function.update_of_ne self]
      exact budgeted.spent g
  · rw [Function.update_of_ne (elsewhere p mem)]
    exact budgeted.entries p mem

theorem register (booked : s.Booked options)
    (holds : stages f = some (.issued reqID)) (unused : reqID ∉ s.ids) (pdu : Bytes) (now : Instant)
    :
    Budgeted options (s.registerPending options f reqID pdu now)
      (Function.update stages f (some (.registered reqID))) sweep := by
  obtain ⟨gone, kept, parts, -, result⟩ := booked.registerPending_eq unused f pdu now
  have isEarly : Early stages f := by
    intro stage same
    obtain rfl := Option.some.inj (holds.symm.trans same)
    rfl
  obtain ⟨none, elsewhere, idle⟩ := budgeted.early f isEarly
  have old : ∀ p ∈ kept, p ∈ s.pending := fun p mem => parts ▸ List.mem_append_right _ mem
  have writes : ∀ g, writesLeft (Function.update stages f (some (.registered reqID)) g) =
      writesLeft (stages g) := by
    intro g
    by_cases self : g = f
    · subst self
      rw [Function.update_self, holds]
      rfl
    · rw [Function.update_of_ne self]
  rw [result]
  refine ⟨?_, fun g early => ?_, fun g => ?_, fun p mem => ?_, budgeted.distinct, ?_⟩
  · have fires := budgeted.fires
    rw [parts, List.map_append] at fires
    rw [List.map_append]
    refine (List.nodup_append.mp fires).2.1.append (List.nodup_singleton _) ?_
    intro g mem same
    obtain rfl : g = f := List.mem_singleton.mp same
    obtain ⟨p, among, fire⟩ := List.mem_map.mp mem
    exact elsewhere p (old p among) fire
  · obtain ⟨other, before⟩ := early.of_update rfl
    obtain ⟨nothing, absent, quiet⟩ := budgeted.early g before
    refine ⟨nothing, fun p mem => ?_, quiet⟩
    rcases List.mem_append.mp mem with kept | new
    · exact absent p (old p kept)
    · rw [List.mem_singleton.mp new]
      exact other.symm
  · rw [writes]
    exact budgeted.spent g
  · rw [writes]
    rcases List.mem_append.mp mem with kept | new
    · exact budgeted.entries p (old p kept)
    · rw [List.mem_singleton.mp new]
      rw [none, idle, holds]
      exact ⟨le_rfl, Nat.zero_le _⟩
  · intro id mem
    obtain ⟨some, left⟩ := budgeted.due id mem
    refine ⟨some, fun p among same => ?_⟩
    rcases List.mem_append.mp among with kept | new
    · exact left p (old p kept) same
    · rw [List.mem_singleton.mp new]
      exact some

theorem transmit
    (holds : stages f = some (.registered reqID)) :
    Budgeted options (s.transmit f) (Function.update stages f (some (.written reqID))) sweep := by
  have total : ∀ g, (s.transmit f).transmissions g +
      writesLeft (Function.update stages f (some (.written reqID)) g) =
        s.transmissions g + writesLeft (stages g) := by
    intro g
    unfold InformState.transmit
    dsimp only
    by_cases self : g = f
    · subst self
      rw [Function.update_self, Function.update_self, holds]
      rfl
    · rw [Function.update_of_ne self, Function.update_of_ne self]
  refine ⟨budgeted.fires, fun g early => ?_, fun g => ?_, fun p mem => ?_, budgeted.distinct,
    budgeted.due⟩
  · obtain ⟨other, before⟩ := early.of_update rfl
    obtain ⟨nothing, absent, quiet⟩ := budgeted.early g before
    refine ⟨?_, absent, quiet⟩
    unfold InformState.transmit
    dsimp only
    rw [Function.update_of_ne other]
    exact nothing
  · rw [total]
    exact budgeted.spent g
  · rw [total]
    exact budgeted.entries p mem

theorem retransmit {inform : PendingInform}
    (holds : sweep.inflight = some inform) :
    Budgeted options (s.transmit inform.fire) stages { sweep with inflight := none } := by
  have total : ∀ g, (s.transmit inform.fire).transmissions g + writesLeft (stages g) +
      rewritesLeft none g =
        s.transmissions g + writesLeft (stages g) + rewritesLeft sweep.inflight g := by
    intro g
    unfold InformState.transmit rewritesLeft
    dsimp only
    rw [holds]
    by_cases self : g = inform.fire
    · subst self
      simp
      omega
    · rw [Function.update_of_ne self]
      simp [Ne.symm self]
  refine ⟨budgeted.fires, fun g early => ?_, fun g => ?_, fun p mem => ?_, budgeted.distinct,
    budgeted.due⟩
  · obtain ⟨nothing, absent, quiet⟩ := budgeted.early g early
    have other : g ≠ inform.fire := by
      rintro rfl
      rw [holds] at quiet
      exact absurd quiet (by simp [rewritesLeft])
    refine ⟨?_, absent, rfl⟩
    unfold InformState.transmit
    dsimp only
    rw [Function.update_of_ne other]
    exact nothing
  · rw [total]
    exact budgeted.spent g
  · rw [total]
    exact budgeted.entries p mem

theorem retry {rest : List UInt32}
    (idle : sweep.inflight = none) (head : sweep.due = reqID :: rest) (distinct : s.ids.Nodup)
    (now : Instant) :
    Budgeted options (s.retryPending options reqID now).1 stages
      ⟨rest, (s.retryPending options reqID now).2⟩ := by
  have sublist : rest.Sublist sweep.due := head ▸ List.sublist_cons_self reqID rest
  have absent : reqID ∉ rest := (List.nodup_cons.mp (head ▸ budgeted.distinct)).1
  unfold InformState.retryPending
  cases found : s.lookup reqID with
  | none =>
    refine budgeted.shrink (.refl _) rfl (fun _ => id) (fun _ => le_rfl)
      (fun f => ?_) sublist
    rw [idle]
  | some p =>
    obtain ⟨mem, isID⟩ := InformState.lookup_eq_some found
    obtain ⟨positive, left⟩ := budgeted.due reqID (head ▸ List.mem_cons_self)
    have retriesLeft := left p mem isID
    -- The only entry under the request-id is the one that was found.
    have only : ∀ q ∈ s.pending, q.reqID = reqID → q = p := fun q among same =>
      List.inj_on_of_nodup_map distinct among mem (same.trans isID.symm)
    have fireOnly : ∀ q ∈ s.pending, q.fire = p.fire → q = p := fun q among same =>
      List.inj_on_of_nodup_map budgeted.fires among mem same
    have rewrites : ∀ f, rewritesLeft (some (InformState.retried options now p)) f =
        if f = p.fire then 1 else 0 := by
      intro f
      simp [rewritesLeft, InformState.retried, eq_comm]
    have idle' : ∀ f, rewritesLeft sweep.inflight f = 0 := by
      intro f
      rw [idle]
      rfl
    have entry : ∀ q' ∈ s.pending.map (fun q =>
        if q.reqID = reqID then InformState.retried options now q else q),
        (q' = InformState.retried options now p) ∨ (q' ∈ s.pending ∧ q'.reqID ≠ reqID) := by
      intro q' among
      obtain ⟨q, old, rfl⟩ := List.mem_map.mp among
      split
      · next same => exact .inl (by rw [only q old same])
      · next other => exact .inr ⟨old, other⟩
    have spentHere := budgeted.entries p mem
    refine ⟨?_, fun f early => ?_, fun f => ?_, fun q' among => ?_,
      budgeted.distinct.sublist sublist, fun id later => ?_⟩
    · have same : (s.pending.map fun q =>
          if q.reqID = reqID then InformState.retried options now q else q).map (·.fire) =
            s.pending.map (·.fire) := by
        rw [List.map_map]
        refine List.map_congr_left fun q _ => ?_
        dsimp only [Function.comp]
        split <;> rfl
      exact same ▸ budgeted.fires
    · obtain ⟨nothing, elsewhere, -⟩ := budgeted.early f early
      refine ⟨nothing, fun q' among => ?_, ?_⟩
      · rcases entry q' among with rfl | ⟨old, -⟩
        · exact elsewhere p mem
        · exact elsewhere q' old
      · rw [rewrites, if_neg (elsewhere p mem).symm]
    · have spent := budgeted.spent f
      rw [idle'] at spent
      rw [rewrites]
      by_cases here : f = p.fire
      · subst here
        rw [if_pos rfl]
        dsimp only
        omega
      · rw [if_neg here]
        exact spent
    · rw [rewrites]
      rcases entry q' among with rfl | ⟨old, other⟩
      · change s.transmissions p.fire + writesLeft (stages p.fire) +
          (if p.fire = p.fire then 1 else 0) ≤ 1 + (p.retries + 1) ∧
            p.retries + 1 ≤ options.informRetries
        rw [if_pos rfl]
        omega
      · have before := budgeted.entries q' old
        rw [idle'] at before
        rw [if_neg fun same => other (fireOnly q' old same ▸ isID)]
        exact before
    · obtain ⟨_, left'⟩ := budgeted.due id (sublist.subset later)
      refine ⟨positive, fun q' among same => ?_⟩
      rcases entry q' among with rfl | ⟨old, -⟩
      · exact absurd (same.symm.trans isID ▸ later) absent
      · exact left' q' old same

theorem scan {now : Instant} {toRetry : List UInt32}
    (distinct : s.ids.Nodup) (found : toRetry.Perm (s.overdue options now).1) :
    Budgeted options s stages { sweep with due := toRetry } := by
  have sublist : (s.overdue options now).1.Sublist s.ids :=
    (List.filter_sublist.trans List.filter_sublist).map _
  refine ⟨budgeted.fires, budgeted.early, budgeted.spent, budgeted.entries,
    found.nodup_iff.mpr (distinct.sublist sublist), fun reqID mem => ?_⟩
  obtain ⟨p, late, rfl⟩ := List.mem_map.mp (found.subset mem)
  obtain ⟨passed, left⟩ := List.mem_filter.mp late
  have pending := (List.mem_filter.mp passed).1
  have retriesLeft : p.retries < options.informRetries := of_decide_eq_true left
  refine ⟨by omega, fun q among same => ?_⟩
  rw [List.inj_on_of_nodup_map distinct among pending same]
  exact retriesLeft

theorem takeOut {count : InformState → InformState}
    (tallies : InformState.Tallies count) (reqID : UInt32) :
    Budgeted options (s.takeOut count reqID) stages sweep := by
  obtain ⟨pending, -, -, -, transmissions⟩ := InformState.takeOut_rest tallies s reqID
  exact budgeted.shrink pending transmissions (fun _ => id) (fun _ => le_rfl) (fun _ => le_rfl)
    (.refl _)

end Budgeted

end Nl6
