import Nl6.Flow.Progress
import Nl6.Scenario.Funnels

/-! # The ledger identity

The counters of a participant are added to in a dozen places of three funnels. Every fire that is
counted in `emitted` ends in exactly one of the five outcomes, and every record in the window is in one
of its tenths: `LedgerEntry.Balanced`. A fire in between owes the ledger an outcome (`LedgerEntry.Owes`). No fire
returns owing (`fires_balanced`).
-/

namespace Nl6

open Program (Keeps)
open Exporter

abbrev LedgerEntry : Type := Counter → Nat

namespace LedgerEntry

def add (l : LedgerEntry) (counter : Counter) (n : Nat) : LedgerEntry :=
  fun c => l c + if c = counter then n else 0

variable {counter : Counter}

theorem add_of_ne (l : LedgerEntry) {c : Counter} (other : c ≠ counter) (n : Nat) :
    l.add counter n c = l c := by
  rw [add, if_neg other, Nat.add_zero]

def outcomes (l : LedgerEntry) : Nat :=
  l .inWindow + l .drain + l .suppressedPreWindow + l .sendFailures + l .dropped

/-- The records in the tenths of the window. -/
def subWindows (l : LedgerEntry) : Nat := ∑ index, l (.subWindow index)

/-- A ledger in which `n` records have no outcome yet, and `m` records of the window are in a tenth of
it already. -/
structure Owes (l : LedgerEntry) (n m : Nat) : Prop where
  emitted : l .emitted = l.outcomes + n
  subWindows : l.subWindows = l .inWindow + m

abbrev Balanced (l : LedgerEntry) : Prop := l.Owes 0 0

theorem subWindows_add (l : LedgerEntry) (counter : Counter) (n : Nat) :
    (l.add counter n).subWindows =
      l.subWindows + match counter with
        | .subWindow _ => n
        | _ => 0 := by
  unfold subWindows add
  rw [Finset.sum_add_distrib]
  cases counter <;> simp


variable {l : LedgerEntry} {n m : Nat}

theorem Owes.emit (balanced : l.Balanced) (n : Nat) : (l.add .emitted n).Owes n 0 := by
  obtain ⟨emitted, tenths⟩ := balanced
  constructor
  · simp [add, outcomes] at emitted ⊢
    omega
  · rw [subWindows_add]
    simpa [add] using tenths

theorem Owes.settle (owes : l.Owes n 0)
    (outcome : counter ∈ [.drain, .suppressedPreWindow, .sendFailures, .dropped]) :
    (l.add counter n).Balanced := by
  obtain ⟨emitted, tenths⟩ := owes
  simp only [List.mem_cons, List.not_mem_nil, or_false] at outcome
  rcases outcome with rfl | rfl | rfl | rfl <;>
  · constructor
    · simp [add, outcomes] at emitted ⊢
      omega
    · rw [subWindows_add]
      simpa [add] using tenths

theorem Owes.tenth (owes : l.Owes n 0) (index : Fin scenarioSubWindowCount) :
    (l.add (.subWindow index) n).Owes n n := by
  obtain ⟨emitted, tenths⟩ := owes
  constructor
  · simpa [add, outcomes] using emitted
  · rw [subWindows_add]
    simp [add, tenths]

theorem Owes.inWindow (owes : l.Owes n n) : (l.add .inWindow n).Balanced := by
  obtain ⟨emitted, tenths⟩ := owes
  constructor
  · simp [add, outcomes] at emitted ⊢
    omega
  · rw [subWindows_add]
    simp [add, tenths]

theorem Owes.beside (owes : l.Owes n m)
    (beside : counter ∈ [.backgroundSuppressed, .informsOriginated]) (k : Nat) :
    (l.add counter k).Owes n m := by
  obtain ⟨emitted, tenths⟩ := owes
  simp only [List.mem_cons, List.not_mem_nil, or_false] at beside
  rcases beside with rfl | rfl <;>
  · constructor
    · simpa [add, outcomes] using emitted
    · rw [subWindows_add]
      simpa [add] using tenths

end LedgerEntry

/-- A counter of the identity, or a tenth of the window. -/
def Counter.inIdentity : Counter → Bool
  | .backgroundSuppressed | .informsOriginated => false
  | _ => true

/-- What a fire added so far, and whether it is behind the drain barrier. A fire that takes no part in a
scenario is `muted`: a background fire, and one that found no handle. -/
structure Account where
  total : LedgerEntry
  muted : Bool
  admitted : Bool

namespace Account

/-- Nothing was added to the counters of the identity. -/
def Untouched (a : Account) : Prop := ∀ counter, counter.inIdentity = true → a.total counter = 0

/-- The fire is not behind the barrier. It owes nothing, and has added nothing if it is muted. -/
structure Settled (a : Account) : Prop where
  balanced : a.total.Balanced
  untouched : a.muted = true → a.Untouched
  left : a.admitted = false

/-- Before anything was added. -/
def fresh (muted : Bool) : Account := ⟨fun _ => 0, muted, false⟩

theorem settled_fresh (muted : Bool) : (fresh muted).Settled :=
  ⟨⟨rfl, by simp [fresh, LedgerEntry.subWindows]⟩, fun _ _ _ => rfl, rfl⟩

/-- The fire has counted `n` records and owes their outcome. -/
structure Owing (a : Account) (n : Nat) (admitted : Bool) : Prop where
  owes : a.total.Owes n 0
  heard : a.muted = false
  barrier : a.admitted = admitted

end Account

/-- The outcomes that only a fire behind the barrier has. -/
def Counter.behindBarrier : Counter → Bool
  | .inWindow | .drain | .sendFailures => true
  | _ => false

/-- Follows the ledger, whether a handle was found, and the barrier: a fire that was refused has not
tried to send, and one that was admitted leaves when it owes nothing. -/
def accounts : Monitor exporterRequests Account where
  permits a op :=
    match op with
    | .add counter _ => counter.behindBarrier = true → a.admitted = true
    | .admitFire => a.admitted = false
    | .wgDone => a.admitted = true ∧ a.total.Balanced
    | _ => True
  advance a op reply :=
    match op, reply with
    | .add counter n, _ => { a with total := a.total.add counter n }
    | .loadPart, false => { a with muted := true }
    | .admitFire, admitted => { a with admitted := admitted }
    | .wgDone, _ => { a with admitted := false }
    | _, _ => a

/-- A request that does not touch the ledger or the barrier. -/
def Unbooked : ExporterOp → Prop
  | .add _ _ | .loadPart | .admitFire | .wgDone => False
  | _ => True

theorem accounts_ignores (a : Account) (op : ExporterOp) (unbooked : Unbooked op) :
    accounts.permits a op ∧ ∀ reply, accounts.advance a op reply = a := by
  cases op with
  | add | loadPart | admitFire | wgDone => exact unbooked.elim
  | _ => exact ⟨trivial, fun _ => rfl⟩

/-! ### The buckets -/

theorem subWindowIndex_of_lt {gate : GateState} {t : Instant} (inside : t < gate.t1) :
    ∃ index, subWindowIndex gate t = some index := by
  have extent : 0 < durationBetween gate.t1 gate.t0 := by
    rcases gate.window with zero | window
    · rw [zero] at inside
      exact absurd inside (Nat.not_lt_zero t)
    · have ordered : (gate.t0 : Int) < gate.t1 := Int.ofNat_lt.mpr window
      unfold durationBetween
      omega
  unfold subWindowIndex
  rw [if_neg (by omega)]
  exact ⟨_, rfl⟩

theorem classify_keeps (a : Account) (t : Instant) :
    Keeps accounts a (classify t) fun a' answer =>
      a' = a ∧ (answer = (false, none) ∨ ∃ index, answer = (true, some index)) := by
  refine ⟨trivial, fun gate => ?_⟩
  cases gate with
  | none => exact ⟨rfl, .inl rfl⟩
  | some gate =>
    change _ ∧ ((if t < gate.t1 then _ else _) = _ ∨ ∃ index, (if t < gate.t1 then _ else _) = _)
    split_ifs with inside
    · obtain ⟨index, found⟩ := subWindowIndex_of_lt inside
      exact ⟨rfl, .inr ⟨index, by rw [found]⟩⟩
    · exact ⟨rfl, .inl rfl⟩

namespace Account

variable {a : Account} {n : Nat}

/-- A fire that is heard and owes nothing. -/
structure Clear (a : Account) (admitted : Bool) : Prop where
  balanced : a.total.Balanced
  heard : a.muted = false
  barrier : a.admitted = admitted

theorem Clear.settled (clear : a.Clear false) : a.Settled :=
  ⟨clear.balanced, fun muted => absurd muted (by simp [clear.heard]), clear.barrier⟩

theorem Clear.emit {admitted : Bool} (clear : a.Clear admitted) (n : Nat) :
    Keeps accounts a (add .emitted n) fun a' _ => a'.Owing n admitted :=
  ⟨Bool.false_ne_true.elim, fun _ => ⟨clear.balanced.emit n, clear.heard, clear.barrier⟩⟩

/-- The outcome of a fire, of which some are open to a fire behind the barrier only. -/
theorem Owing.settle {admitted : Bool} (owing : a.Owing n admitted) {counter : Counter}
    (outcome : counter ∈ [.drain, .suppressedPreWindow, .sendFailures, .dropped])
    (allowed : counter.behindBarrier = true → admitted = true) :
    Keeps accounts a (add counter n) fun a' _ => a'.Clear admitted :=
  ⟨fun behind => owing.barrier.trans (allowed behind),
    fun _ => ⟨owing.owes.settle outcome, owing.heard, owing.barrier⟩⟩

theorem Clear.pass (clear : a.Clear false) (n : Nat) {counter : Counter}
    (outcome : counter ∈ [.suppressedPreWindow, .dropped]) :
    Keeps accounts a (do add .emitted n; add counter n) fun a' _ => a'.Clear false := by
  refine (clear.emit n).bind fun _ _ owing => ?_
  simp only [List.mem_cons, List.not_mem_nil, or_false] at outcome
  rcases outcome with rfl | rfl <;>
  exact owing.settle (by simp) fun behind => nomatch behind

theorem Owing.inWindow (owing : a.Owing n true) (index : Fin scenarioSubWindowCount) :
    Keeps accounts a (do addSubWindow (some index) n; add .inWindow n) fun a' _ => a'.Clear true :=
  ⟨Bool.false_ne_true.elim, fun _ => ⟨fun _ => owing.barrier, fun _ =>
    ⟨(owing.owes.tenth index).inWindow, owing.heard, owing.barrier⟩⟩⟩

theorem Owing.bucketFlowBatch (owing : a.Owing n true) (t : Instant) :
    Keeps accounts a (bucketFlowBatch t n) fun a' _ => a'.Clear true := by
  refine (classify_keeps a t).bind ?_
  rintro a' answer ⟨rfl, rfl | ⟨index, rfl⟩⟩
  · exact owing.settle (by simp) fun _ => rfl
  · exact owing.inWindow index

theorem Owing.bucketFor (owing : a.Owing 1 true) (t : Instant) :
    Keeps accounts a (bucketFor t) fun a' bucket =>
      Keeps accounts a' (add bucket 1) fun a' _ => a'.Clear true := by
  refine (classify_keeps a t).bind ?_
  rintro a' answer ⟨rfl, rfl | ⟨index, rfl⟩⟩
  · exact owing.settle (by simp) fun _ => rfl
  · exact owing.inWindow index

theorem Clear.leave (clear : a.Clear true) :
    Keeps accounts a Exporter.leave fun a' _ => a'.Clear false :=
  ⟨⟨clear.barrier, clear.balanced⟩, fun _ => ⟨trivial, fun _ =>
    ⟨clear.balanced, clear.heard, rfl⟩⟩⟩

end Account

/-! ### The syslog, trap and gNMI funnels -/

theorem unbooked_of_prepares {op : ExporterOp} (prepares : Prepares op) : Unbooked op := by
  cases op with
  | closing | resolve | encode | nextRequestID | registerPending | undoPending => trivial
  | _ => exact prepares.elim

/-- A participant's fire books one outcome for the record it has counted. -/
theorem owing_rules (pdu : Bytes → Pdu) :
    FireRules accounts true pdu (·.Owing 1 true) (·.Owing 1 true) (·.Clear true) where
  prepares a op prepares owing := by
    obtain ⟨may, same⟩ := accounts_ignores a op (unbooked_of_prepares prepares)
    refine ⟨may, fun reply => ?_⟩
    rw [same reply]
    exact owing
  writes _ _ owing := ⟨trivial, fun write => by split_ifs <;> exact owing⟩
  fails _ owing := ⟨trivial, fun _ => owing.settle (by simp) fun _ => rfl⟩
  drops _ owing := owing.settle (by simp) fun _ => rfl
  counts _ owing := ⟨trivial, fun _ => owing⟩
  skips detached := nomatch detached
  books _ _ owing _ _ rest := ⟨trivial, fun t => (owing.bucketFor t).bind fun _ _ counted =>
    counted.bind fun a' _ => rest a'⟩
  originates _ _ clear := ⟨Bool.false_ne_true.elim, fun _ =>
    ⟨clear.balanced.beside (by simp) 1, clear.heard, clear.barrier⟩⟩

/-- A fire without a handle books nothing. -/
theorem unbooked_rules (pdu : Bytes → Pdu) :
    FireRules (.only Unbooked) false pdu (fun _ => True) (fun _ => True) fun _ => True where
  prepares _ _ prepares _ := ⟨(unbooked_of_prepares prepares), fun _ => trivial⟩
  writes _ _ _ := ⟨trivial, fun write => by split_ifs <;> trivial⟩
  fails _ _ := ⟨trivial, fun _ => trivial⟩
  drops _ _ := trivial
  counts _ _ := ⟨trivial, fun _ => trivial⟩
  skips _ _ := id
  books attached := nomatch attached
  originates attached := nomatch attached

variable {a : Account}

theorem decide_background (settled : a.Settled) (t : Instant) :
    Keeps accounts a (Exporter.decide .background t) fun a' decision =>
      decision = .suppressSilent ∧ a'.Settled := by
  refine ⟨trivial, fun gate => ?_⟩
  cases gate with
  | none => exact ⟨rfl, settled⟩
  | some gate =>
    refine ⟨Bool.false_ne_true.elim, fun _ =>
      ⟨rfl, settled.balanced.beside (by simp) 1, ?_, settled.left⟩⟩
    intro muted counter identity
    have other : counter ≠ .backgroundSuppressed := by
      rintro rfl
      cases identity
    exact (a.total.add_of_ne other 1).trans (settled.untouched muted counter identity)

/-- A fire behind the gate: only a fire that is not a background fire gets to the ledger. -/
theorem fireGated_settles {α : Type} (src : FireSource) (refused : α) {fire : Exporter α}
    (fires : ∀ a : Account, a.Owing 1 true → Keeps accounts a fire fun a' _ => a'.Clear true)
    (settled : a.Settled) (heard : src ≠ .background → a.muted = false) :
    Keeps accounts a (fireGated src refused fire) fun a' _ => a'.Settled := by
  refine ⟨trivial, fun t => ?_⟩
  by_cases background : src = .background
  · subst background
    refine (decide_background settled t).bind ?_
    rintro a' - ⟨rfl, settled⟩
    exact settled
  have clear : a.Clear false := ⟨settled.balanced, heard background, settled.left⟩
  refine ((decide_only trivial (absurd · background) t).frame (accounts_ignores a)).bind ?_
  rintro a' decision ⟨rfl, -⟩
  cases decision with
  | suppressSilent => exact settled
  | suppressCounted => exact (clear.pass 1 (by simp)).bind fun _ _ clear => clear.settled
  | proceed =>
    refine ⟨clear.barrier, fun admitted => ?_⟩
    cases admitted with
    | false =>
      have clear : Account.Clear { a' with admitted := false } false :=
        ⟨clear.balanced, clear.heard, rfl⟩
      exact (clear.pass 1 (by simp)).bind fun _ _ clear => clear.settled
    | true =>
      have clear : Account.Clear { a' with admitted := true } true :=
        ⟨clear.balanced, clear.heard, rfl⟩
      exact (clear.emit 1).bind fun _ _ owing => (fires _ owing).bind fun _ _ clear =>
        clear.leave.bind fun _ _ clear => clear.settled

theorem fireWithSource_settles {α : Type} (src : FireSource) (refused : α)
    {fireWithCtx : Bool → Exporter α}
    (fires : ∀ a : Account, a.Owing 1 true →
      Keeps accounts a (fireWithCtx true) fun a' _ => a'.Clear true)
    (unbooked : Keeps (.only Unbooked) () (fireWithCtx false) fun _ _ => True) :
    Keeps accounts (.fresh (src = .background)) (fireWithSource src refused fireWithCtx)
      fun a' _ => a'.Settled := by
  refine ⟨trivial, fun closing => ?_⟩
  cases closing with
  | true => exact Account.settled_fresh _
  | false =>
    refine ⟨trivial, fun part => ?_⟩
    cases part with
    | false =>
      split_ifs
      · exact Account.settled_fresh true
      · refine ⟨trivial, fun silent => ?_⟩
        change Keeps accounts (.fresh true) (if _ then _ else _) _
        split_ifs
        · exact Account.settled_fresh true
        · refine (unbooked.frame (accounts_ignores _)).mono fun a' _ same => ?_
          rw [same.1]
          exact Account.settled_fresh true
    | true =>
      exact fireGated_settles src refused fires (Account.settled_fresh _)
        fun other => decide_eq_false other

/-- The gNMI funnel counts a notification when it is produced. -/
theorem gnmiScenarioGate_settles (t : Instant) :
    Keeps accounts (.fresh false) (gnmiScenarioGate t) fun a' _ => a'.Settled := by
  refine ⟨trivial, fun part => ?_⟩
  cases part with
  | false => exact ⟨trivial, fun _ => Account.settled_fresh true⟩
  | true =>
    have clear : (Account.fresh false).Clear false :=
      ⟨(Account.settled_fresh false).balanced, rfl, rfl⟩
    have suppressed : Keeps accounts (.fresh false) (add .backgroundSuppressed 1)
        fun a' _ => a'.Settled :=
      ⟨Bool.false_ne_true.elim, fun _ =>
        Account.Clear.settled ⟨clear.balanced.beside (by simp) 1, rfl, rfl⟩⟩
    refine ((decide_only trivial nofun t).frame (accounts_ignores _)).bind ?_
    rintro a' decision ⟨rfl, -⟩
    cases decision with
    | suppressSilent => exact suppressed.bind fun _ _ settled => settled
    | suppressCounted => exact suppressed.bind fun _ _ settled => settled
    | proceed =>
      refine ⟨rfl, fun admitted => ?_⟩
      cases admitted with
      | false => exact (clear.pass 1 (by simp)).bind fun _ _ clear => clear.settled
      | true =>
        have clear : Account.Clear ⟨fun _ => 0, false, true⟩ true := ⟨clear.balanced, rfl, rfl⟩
        refine (clear.emit 1).bind fun a _ owing => ⟨trivial, fun live => ?_⟩
        cases live with
        | false =>
          exact (owing.settle (by simp) fun _ => rfl).bind fun _ _ clear =>
            clear.leave.bind fun _ _ clear => clear.settled
        | true =>
          exact (owing.bucketFor t).bind fun _ _ counted => counted.bind fun _ _ clear =>
            clear.leave.bind fun _ _ clear => clear.settled

/-! ### The flow funnel -/

/-- Without a handle, and for a participant whose records are withheld, a tick books nothing. -/
theorem watches_unbooked (input : TickInput) (inv : Account → Prop) :
    Watches input false (fun _ => True) accounts inv where
  wallClock _ holds := ⟨trivial, fun _ => holds⟩
  oversize _ holds := holds
  batch _ _ _ _ holds _ _ := ⟨trivial, fun _ => holds⟩
  other _ _ holds _ := ⟨trivial, fun _ => holds⟩

/-- A participant books every datagram and every record that fits none. -/
theorem watches_clear (input : TickInput) :
    Watches input true (fun _ => True) accounts (·.Clear true) where
  wallClock _ clear := ⟨trivial, fun _ => clear⟩
  oversize _ clear := (clear.emit 1).bind fun _ _ owing => owing.settle (by simp) fun _ => rfl
  batch a _ d records clear _ _ := by
    refine ⟨trivial, fun write => ?_⟩
    unfold FlowExporter.countBatch
    split_ifs
    · exact (clear.emit _).bind fun _ _ owing => owing.bucketFlowBatch input.now
    · exact (clear.emit _).bind fun _ _ owing => owing.settle (by simp) fun _ => rfl
    · exact clear
  other _ _ clear _ := ⟨trivial, fun _ => clear⟩

namespace FlowExporter

variable {fe : FlowExporter} {input : TickInput} {sendTemplate : Bool} {a : Account}

theorem emitWithheld_settles (settled : a.Settled) :
    Keeps accounts a (fe.emitWithheld input sendTemplate) fun a' _ => a'.Settled := by
  unfold emitWithheld
  split_ifs
  · exact settled
  · exact emit_inv (watches_unbooked input Account.Settled) (fun _ _ => trivial) settled

theorem tickGated_settles (clear : a.Clear false) :
    Keeps accounts a (fe.tickGated input sendTemplate) fun a' _ => a'.Settled := by
  have withheld : Keeps accounts a (countSuppressed input.expired.length >>=
      fun _ => fe.emitWithheld input sendTemplate) fun a' _ => a'.Settled := by
    unfold countSuppressed
    split_ifs
    · refine ⟨Bool.false_ne_true.elim, fun _ => emitWithheld_settles ?_⟩
      exact Account.Clear.settled ⟨clear.balanced.beside (by simp) _, clear.heard, clear.barrier⟩
    · exact emitWithheld_settles clear.settled
  have refused : Keeps accounts { a with admitted := false } (countRefused input.expired.length)
      fun a' _ => a'.Clear false := by
    have clear : Account.Clear { a with admitted := false } false :=
      ⟨clear.balanced, clear.heard, rfl⟩
    unfold countRefused
    split_ifs
    · exact clear.pass _ (by simp)
    · exact clear
  refine ((decide_only trivial nofun input.now).frame (accounts_ignores a)).bind ?_
  rintro a' decision ⟨rfl, -⟩
  cases decision with
  | suppressSilent => exact withheld
  | suppressCounted => exact withheld
  | proceed =>
    refine ⟨clear.barrier, fun admitted => ?_⟩
    cases admitted with
    | false => exact refused.bind fun _ _ clear => emitWithheld_settles clear.settled
    | true =>
      have clear : Account.Clear { a' with admitted := true } true :=
        ⟨clear.balanced, clear.heard, rfl⟩
      exact (emit_inv (watches_clear input) (fun _ _ => trivial) clear).bind
        fun _ _ clear => clear.leave.bind fun _ _ clear => clear.settled

theorem tick_settles (fe : FlowExporter) (input : TickInput) :
    Keeps accounts (.fresh false) (fe.tick input) fun a' _ => a'.Settled := by
  unfold tick
  dsimp only
  split_ifs
  · exact Account.settled_fresh false
  · exact Account.settled_fresh false
  · refine ⟨trivial, fun part => ?_⟩
    cases part with
    | true => exact tickGated_settles ⟨(Account.settled_fresh false).balanced, rfl, rfl⟩
    | false =>
      refine ⟨trivial, fun silent => ?_⟩
      cases silent with
      | true => exact Account.settled_fresh true
      | false =>
        exact emit_inv (watches_unbooked input Account.Settled) (fun _ _ => trivial)
          (Account.settled_fresh true)

end FlowExporter

/-! ### Whole fires -/

/-- A whole fire: a syslog message, a notification, or a tick of a flow exporter. -/
inductive Fire where
  | syslog (src : FireSource)
  | trap (mode : TrapMode) (src : FireSource)
  | flow (fe : FlowExporter) (input : TickInput)

namespace Fire

def program : Fire → Exporter Unit
  | .syslog src => do let _ ← syslogFireWithSource src
  | .trap mode src => do let _ ← trapFireWithSource mode src
  | .flow fe input => do let _ ← fe.tick input

/-- A fire from the background; a tick of a flow exporter without a handle is one by having none. -/
def isBackground : Fire → Bool
  | .syslog src | .trap _ src => src = .background
  | .flow _ _ => false

theorem program_settles (fire : Fire) :
    Keeps accounts (.fresh fire.isBackground) fire.program fun a' _ => a'.Settled := by
  cases fire with
  | syslog src =>
    exact (fireWithSource_settles src none (fun _ => (owing_rules .syslog).syslog)
      ((unbooked_rules .syslog).syslog trivial)).bind fun _ _ settled => settled
  | trap mode src =>
    exact (fireWithSource_settles src 0 (fun _ => (owing_rules .trap).trap mode)
      ((unbooked_rules .trap).trap mode trivial)).bind fun _ _ settled => settled
  | flow fe input => exact (fe.tick_settles input).bind fun _ _ settled => settled

end Fire

def runFires (environment : List ExporterEvent → (op : ExporterOp) → op.Reply) :
    List ExporterEvent → List Fire → List (Fire × List ExporterEvent)
  | _, [] => []
  | past, fire :: fires =>
    let events := (fire.program.run environment past).1
    (fire, events) :: runFires environment (past ++ events) fires

/-- What the events of a fire add to the counters. -/
def added : List ExporterEvent → LedgerEntry
  | [], _ => 0
  | ⟨.add counter n, _⟩ :: events, c => (if c = counter then n else 0) + added events c
  | _ :: events, c => added events c

/-- No handle was installed. -/
def unattached (events : List ExporterEvent) : Prop := ⟨.loadPart, false⟩ ∈ events

theorem accounts_after (a : Account) (events : List ExporterEvent) :
    (accounts.after a events).total = (fun c => a.total c + added events c) ∧
      ((accounts.after a events).muted = true ↔ a.muted = true ∨ unattached events) := by
  induction events generalizing a with
  | nil => simp [added, unattached]
  | cons event events ih =>
    obtain ⟨op, reply⟩ := event
    obtain ⟨total, muted⟩ := ih (accounts.advance a op reply)
    rw [Monitor.after_cons, total, muted]
    cases op with
    | add counter n =>
      refine ⟨funext fun c => ?_, by simp [accounts, unattached]⟩
      simp only [accounts, added, LedgerEntry.add]
      omega
    | loadPart => cases reply <;> simp [accounts, added, unattached]
    | _ => simp [accounts, added, unattached]

/-- **The ledger identity.** In every sequence of whole fires, with any gate, barrier, outcomes and
records, what a fire adds to `emitted` is what it adds to the five outcomes, and what it adds to the
window it adds to the tenths of the window. A background fire and a fire that found no handle add
nothing to any of these. -/
theorem fires_balanced (fires : List Fire)
    (environment : List ExporterEvent → (op : ExporterOp) → op.Reply) (past : List ExporterEvent) :
    ∀ fire events, (fire, events) ∈ runFires environment past fires →
      added events .emitted = added events .inWindow + added events .drain +
        added events .suppressedPreWindow + added events .sendFailures + added events .dropped ∧
      ∑ index, added events (.subWindow index) = added events .inWindow ∧
      (fire.isBackground = true ∨ unattached events →
        ∀ counter, counter.inIdentity = true → added events counter = 0) := by
  induction fires generalizing past with
  | nil => exact fun _ _ member => nomatch member
  | cons first fires ih =>
    intro fire events member
    rcases List.mem_cons.mp member with here | later
    · cases here
      obtain ⟨⟨emitted, tenths⟩, untouched, -⟩ := first.program_settles.of_run environment past
      obtain ⟨total, muted⟩ := accounts_after (.fresh first.isBackground)
        (first.program.run environment past).1
      have ledger : (accounts.after (.fresh first.isBackground)
          (first.program.run environment past).1).total =
            added (first.program.run environment past).1 := by
        rw [total]
        exact funext fun c => Nat.zero_add _
      rw [ledger] at emitted tenths
      refine ⟨emitted, tenths, fun silent counter identity => ?_⟩
      rw [← ledger]
      exact untouched (muted.mpr silent) counter identity
    · exact ih _ fire events later

def participantReplies : (op : ExporterOp) → op.Reply
  | .loadPart | .admitFire => true
  | .loadGate => some ⟨.running, 0, 10, .inr (by decide)⟩
  | op => calmReplies op

theorem fires_balanced_inWindow :
    let events := ((Fire.syslog .onDemand).program.run (fun _ => participantReplies) []).1
    added events .inWindow = 1 ∧ added events .emitted = added events .inWindow +
      added events .drain + added events .suppressedPreWindow + added events .sendFailures +
        added events .dropped :=
  ⟨by decide, (fires_balanced [.syslog .onDemand] (fun _ => participantReplies) [] _ _
    List.mem_cons_self).1⟩

end Nl6
