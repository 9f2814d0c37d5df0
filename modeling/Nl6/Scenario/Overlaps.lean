import Nl6.Lib.Threads
import Nl6.Scenario.Controller

/-! # The disclosure of overlaps

Scenarios of one protocol that emit at the same time contend for one rate limiter, and the report of
each names the others. A start publishes its own `emitting` flag first. It then reads the flags of its
peers, which it finds in the lock-free snapshot of the registry, and enters itself and each peer that
emits into each other's sets. No start takes the mutex of another scenario.

Starts and finishes hold the mutex of their own scenario, so a controller carries the place at which
its call has arrived, and every access to what others can see is a step of its own. A scenario is
known by its number, which `s-%06d` renders. Which scenarios a submission reaps, and in which order
the snapshot lists them, is left open. A start that is refused or rolled back changes nothing.

Of two scenarios that both emit, one still has the other to read or to enter, or each is in the set
of the other: that is the invariant behind `overlaps_disclosed`.
-/

namespace Nl6

/-- What a snapshot of the registry has of a controller: its number, and its protocol, which never
changes. -/
abbrev ScenarioRef : Type := Nat × ScenarioProtocol

/-- Where the call that holds the mutex of a controller has arrived. -/
inductive CallStage where
  /-- No start or finish is under way. -/
  | idle
  /-- The phase is running, and the flag is not stored yet. -/
  | running
  /-- The flag is stored, and the snapshot is not loaded yet. -/
  | stored
  /-- `runningPeers`: the references not yet looked at, and the peers found so far. -/
  | scanning (todo peers : List ScenarioRef)
  /-- `noteOverlapsLocked`: the peers still to be linked. -/
  | linking (todo : List ScenarioRef)
  /-- The scenario is in the set of this peer, and the peer not yet in its own. -/
  | half (peer : ScenarioRef) (todo : List ScenarioRef)
  /-- The phase is terminal, and the flag still stored. -/
  | finishing
  deriving DecidableEq, Repr

/-- A start is in progress. -/
def CallStage.starting : CallStage → Bool
  | .idle | .finishing => false
  | _ => true

structure OverlapController where
  protocol : ScenarioProtocol
  phase : ScenarioPhase
  emitting : Bool
  overlaps : List Nat
  stage : CallStage

/-- `newScenarioController`; the protocol is set by `Submit`. -/
def OverlapController.new : OverlapController := ⟨.syslog, .submitted, false, [], .idle⟩

/-- The controllers by their numbers; those above `scenarioSeq` are not submitted yet. -/
structure OverlapState where
  scenarioSeq : Nat
  controller : Nat → OverlapController
  scenarioSnap : List ScenarioRef

/-- What can happen: a submission publishes a snapshot with the new scenario and some of the others, a
deletion one with some of them, a scenario is armed or canceled, a start or a finish enters its phase,
or such a call makes its next access. -/
inductive OverlapAction where
  | submitScenario (protocol : ScenarioProtocol) (snap : List ScenarioRef)
  | deleteScenario (snap : List ScenarioRef)
  | arm (id : Nat)
  | cancel (id : Nat)
  | start (id : Nat)
  | finish (id : Nat) (aborts : Bool)
  | advance (id : Nat)

namespace OverlapState

variable {s s' : OverlapState} {id : Nat}

def update (s : OverlapState) (id : Nat) (f : OverlapController → OverlapController) :
    OverlapState :=
  { s with controller := Function.update s.controller id (f (s.controller id)) }

/-- A method enters a phase, with the mutex in its hands. -/
def change (s : OverlapState) (id : Nat) (to' : ScenarioPhase) (stage : CallStage) :
    Option OverlapState :=
  if (s.controller id).stage = .idle ∧ (s.controller id).phase.mayBecome to' ∧
      id ≤ s.scenarioSeq then
    some (s.update id ({ · with phase := to', stage }))
  else none

/-- Enter a scenario into the set of another. -/
def enter (s : OverlapState) (owner other : Nat) : OverlapState :=
  s.update owner fun c => { c with overlaps := other :: c.overlaps }

def goto (s : OverlapState) (id : Nat) (stage : CallStage) : OverlapState :=
  s.update id ({ · with stage })

/-- The next access of the call at a controller. -/
def advance (s : OverlapState) (id : Nat) : Option OverlapState :=
  match (s.controller id).stage with
  | .idle => none
  | .running => some (s.update id ({ · with emitting := true, stage := .stored }))
  | .stored => some (s.goto id (.scanning s.scenarioSnap []))
  | .scanning (peer :: todo) peers =>
    if peer.1 = id ∨ (s.controller peer.1).emitting = false ∨
        peer.2 ≠ (s.controller id).protocol then
      some (s.goto id (.scanning todo peers))
    else some (s.goto id (.scanning todo (peers ++ [peer])))
  | .scanning [] peers => some (s.goto id (.linking peers))
  | .linking (peer :: todo) => some ((s.enter peer.1 id).goto id (.half peer todo))
  | .half peer todo => some ((s.enter id peer.1).goto id (.linking todo))
  | .linking [] => some (s.goto id .idle)
  | .finishing => some (s.update id ({ · with emitting := false, stage := .idle }))

def step (s : OverlapState) : OverlapAction → Option OverlapState
  | .submitScenario protocol snap =>
    let new := s.scenarioSeq + 1
    if (new, protocol) ∈ snap ∧ ∀ c ∈ snap, c = (new, protocol) ∨ c ∈ s.scenarioSnap then
      some { s.update new ({ · with protocol }) with scenarioSeq := new, scenarioSnap := snap }
    else none
  | .deleteScenario snap =>
    if ∀ c ∈ snap, c ∈ s.scenarioSnap then some { s with scenarioSnap := snap } else none
  | .arm id => s.change id .armed .idle
  | .cancel id => s.change id .canceled .idle
  | .start id => s.change id .running .running
  | .finish id aborts => s.change id (if aborts then .aborted else .stopped) .finishing
  | .advance id => s.advance id

/-- No scenario was submitted yet. -/
def initial : OverlapState := ⟨0, fun _ => .new, []⟩

/-! ### The invariant -/

/-- The reference to a controller. -/
def ref (s : OverlapState) (id : Nat) : ScenarioRef := (id, (s.controller id).protocol)

/-- Each is in the set of the other. -/
def Linked (s : OverlapState) (a b : Nat) : Prop :=
  b ∈ (s.controller a).overlaps ∧ a ∈ (s.controller b).overlaps

/-- Two registered scenarios of one protocol that both emit. -/
structure Contend (s : OverlapState) (a b : Nat) : Prop where
  distinct : a ≠ b
  protocol : (s.controller a).protocol = (s.controller b).protocol
  registered : s.ref a ∈ s.scenarioSnap ∧ s.ref b ∈ s.scenarioSnap
  emitting : (s.controller a).emitting = true ∧ (s.controller b).emitting = true

end OverlapState

/-- A start has still to read the flag of a peer, or to be linked with it. -/
def CallStage.Awaits (peer : ScenarioRef) : CallStage → Prop
  | .idle | .finishing => False
  | .running | .stored => True
  | .scanning todo peers => peer ∈ todo ∨ peer ∈ peers
  | .linking todo => peer ∈ todo
  | .half current todo => peer = current ∨ peer ∈ todo

/-- The peer that a start is about to enter into the set of its own scenario. -/
def CallStage.pending : CallStage → Option Nat
  | .half peer _ => some peer.1
  | _ => none

theorem CallStage.not_awaits {stage : CallStage} (returned : stage.starting = false)
    (peer : ScenarioRef) : ¬ stage.Awaits peer := by
  cases stage with
  | idle | finishing => exact id
  | running | stored | scanning _ _ | linking _ | half _ _ => exact nomatch returned

theorem CallStage.pending_of_not_starting {stage : CallStage} (returned : stage.starting = false) :
    stage.pending = none := by
  cases stage with
  | half peer todo => exact nomatch returned
  | idle | running | stored | scanning _ _ | linking _ | finishing => rfl

namespace OverlapState

variable {s s' : OverlapState} {id : Nat} {a b : Nat} {β : Type} {stage : CallStage}

/-- What holds in every state of a run. -/
structure Sound (s : OverlapState) : Prop where
  new : ∀ id, s.scenarioSeq < id →
    (s.controller id).stage = .idle ∧ (s.controller id).emitting = false
  half : ∀ a b, (s.controller a).stage.pending = some b → a ∈ (s.controller b).overlaps
  pairs : ∀ a b, s.Contend a b → s.Linked a b ∨ (s.controller a).stage.Awaits (s.ref b) ∨
    (s.controller b).stage.Awaits (s.ref a)
  symmetric : ∀ a b, b ∈ (s.controller a).overlaps →
    a ∈ (s.controller b).overlaps ∨ (s.controller b).stage.pending = some a

theorem Linked.symm (linked : s.Linked a b) : s.Linked b a := ⟨linked.2, linked.1⟩

theorem Contend.symm (contend : s.Contend a b) : s.Contend b a :=
  ⟨contend.distinct.symm, contend.protocol.symm, contend.registered.symm, contend.emitting.symm⟩

theorem Sound.le_of_emitting (sound : s.Sound) (emits : (s.controller id).emitting = true) :
    id ≤ s.scenarioSeq := by
  by_contra above
  exact nomatch (sound.new id (Nat.lt_of_not_le above)).2.symm.trans emits

/-- The invariant holds again, and nothing has left a set of overlaps. -/
structure Onward (s s' : OverlapState) : Prop where
  sound : s'.Sound
  overlaps : ∀ id, (s.controller id).overlaps ⊆ (s'.controller id).overlaps

/-! ### One controller moves -/

/-- A step of the call at one controller: the others stay where they are, and nothing leaves a set of
overlaps. -/
structure Moves (s s' : OverlapState) (id : Nat) : Prop where
  seq : s'.scenarioSeq = s.scenarioSeq
  snap : s'.scenarioSnap = s.scenarioSnap
  protocol : ∀ other, (s'.controller other).protocol = (s.controller other).protocol
  others : ∀ other ≠ id, (s'.controller other).stage = (s.controller other).stage ∧
    (s'.controller other).emitting = (s.controller other).emitting
  overlaps : ∀ other, (s.controller other).overlaps ⊆ (s'.controller other).overlaps

theorem Moves.ref (moves : s.Moves s' id) (other : Nat) : s'.ref other = s.ref other :=
  congrArg (Prod.mk other) (moves.protocol other)

theorem Moves.linked (moves : s.Moves s' id) (linked : s.Linked a b) : s'.Linked a b :=
  ⟨moves.overlaps a linked.1, moves.overlaps b linked.2⟩

theorem Moves.contend (moves : s.Moves s' id) (contend : s'.Contend a b)
    (emitsA : (s.controller a).emitting = true) (emitsB : (s.controller b).emitting = true) :
    s.Contend a b := by
  refine ⟨contend.distinct, ?_, ?_, emitsA, emitsB⟩
  · rw [← moves.protocol a, ← moves.protocol b]
    exact contend.protocol
  · rw [← moves.ref a, ← moves.ref b, ← moves.snap]
    exact contend.registered

/-- **Steps of a call.** What the call at one controller has to see to. -/
theorem Sound.move (sound : s.Sound) (moves : s.Moves s' id) (known : id ≤ s.scenarioSeq)
    (emits : (s'.controller id).emitting = true → (s.controller id).emitting = true ∨
      ∀ peer, (s'.controller id).stage.Awaits peer)
    (awaits : ∀ peer, s.Contend id peer → (s.controller id).stage.Awaits (s.ref peer) →
      (s'.controller id).stage.Awaits (s.ref peer) ∨ s'.Linked id peer)
    (half : ∀ peer, (s'.controller id).stage.pending = some peer → id ∈ (s'.controller peer).overlaps)
    (entered : ∀ a b, b ∈ (s'.controller a).overlaps → b ∈ (s.controller a).overlaps ∨
      a ∈ (s'.controller b).overlaps ∨ (s'.controller b).stage.pending = some a)
    (completed : ∀ peer, (s.controller id).stage.pending = some peer →
      (s'.controller id).stage.pending = some peer ∨ peer ∈ (s'.controller id).overlaps) :
    s.Onward s' := by
  -- Where a pair has contended before, its debt is still there or has been paid.
  have pair : ∀ other, s'.Contend id other → s'.Linked id other ∨
      (s'.controller id).stage.Awaits (s'.ref other) ∨
        (s'.controller other).stage.Awaits (s'.ref id) := by
    intro other contend
    rw [moves.ref other, moves.ref id]
    have away := (moves.others other contend.distinct.symm)
    rcases emits contend.emitting.1 with before | all
    · have contended := moves.contend contend before (away.2 ▸ contend.emitting.2)
      rcases sound.pairs id other contended with linked | own | theirs
      · exact .inl (moves.linked linked)
      · rcases awaits other contended own with still | linked
        · exact .inr (.inl still)
        · exact .inl linked
      · exact .inr (.inr (away.1 ▸ theirs))
    · exact .inr (.inl (all _))
  refine ⟨⟨fun other above => ?_, fun a b is => ?_, fun a b contend => ?_, fun a b mem => ?_⟩,
    moves.overlaps⟩
  · rw [moves.seq] at above
    have away := moves.others other (by omega)
    rw [away.1, away.2]
    exact sound.new other above
  · by_cases here : a = id
    · rw [here] at is ⊢
      exact half b is
    · rw [(moves.others a here).1] at is
      exact moves.overlaps b (sound.half a b is)
  · by_cases hereA : a = id
    · rw [hereA] at contend ⊢
      exact pair b contend
    · by_cases hereB : b = id
      · rw [hereB] at contend ⊢
        rcases pair a contend.symm with linked | own | theirs
        · exact .inl linked.symm
        · exact .inr (.inr own)
        · exact .inr (.inl theirs)
      · have awayA := moves.others a hereA
        have awayB := moves.others b hereB
        rw [moves.ref, moves.ref, awayA.1, awayB.1]
        have contended := moves.contend contend (awayA.2 ▸ contend.emitting.1)
          (awayB.2 ▸ contend.emitting.2)
        rcases sound.pairs a b contended with linked | awaits
        · exact .inl (moves.linked linked)
        · exact .inr awaits
  · rcases entered a b mem with before | now
    · rcases sound.symmetric a b before with linked | is
      · exact .inl (moves.overlaps b linked)
      · by_cases here : b = id
        · rw [here] at is ⊢
          exact (completed a is).symm
        · rw [← (moves.others b here).1] at is
          exact .inr is
    · exact now

theorem controller_update (s : OverlapState) (id other : Nat)
    (f : OverlapController → OverlapController) :
    (s.update id f).controller other =
      if other = id then f (s.controller id) else s.controller other := by
  simp only [update, Function.update_apply]

theorem controller_update_self (s : OverlapState) (id : Nat)
    (f : OverlapController → OverlapController) :
    (s.update id f).controller id = f (s.controller id) :=
  (controller_update s id id f).trans (if_pos rfl)

/-- A field that an update does not touch. -/
theorem field_update (field : OverlapController → β) (s : OverlapState) (id other : Nat)
    (f : OverlapController → OverlapController) (kept : ∀ c, field (f c) = field c) :
    field ((s.update id f).controller other) = field (s.controller other) := by
  rw [controller_update]
  split
  · next same => rw [kept, same]
  · rfl

theorem field_goto (field : OverlapController → β) (s : OverlapState) (id other : Nat)
    (stage : CallStage) (kept : ∀ c : OverlapController, field { c with stage } = field c) :
    field ((s.goto id stage).controller other) = field (s.controller other) :=
  field_update field s id other _ kept

theorem field_enter (field : OverlapController → β) (s : OverlapState) (owner new other : Nat)
    (kept : ∀ (c : OverlapController) overlaps, field { c with overlaps } = field c) :
    field ((s.enter owner new).controller other) = field (s.controller other) :=
  field_update field s owner other _ fun c => kept c _

/-- A step that touches no set of overlaps, and neither begins nor completes a link. -/
theorem Sound.turn (sound : s.Sound) (known : id ≤ s.scenarioSeq)
    (f : OverlapController → OverlapController) (protocol : ∀ c, (f c).protocol = c.protocol)
    (overlaps : ∀ c, (f c).overlaps = c.overlaps)
    (emits : (f (s.controller id)).emitting = true → (s.controller id).emitting = true ∨
      ∀ peer, (f (s.controller id)).stage.Awaits peer)
    (awaits : ∀ peer, s.Contend id peer → (s.controller id).stage.Awaits (s.ref peer) →
      (f (s.controller id)).stage.Awaits (s.ref peer))
    (before : (s.controller id).stage.pending = none)
    (after : (f (s.controller id)).stage.pending = none) : s.Onward (s.update id f) := by
  have sets := fun other => field_update (·.overlaps) s id other f overlaps
  have moves : s.Moves (s.update id f) id := by
    refine ⟨rfl, rfl, fun other => field_update (·.protocol) s id other f protocol, ?_, ?_⟩
    · intro other away
      rw [controller_update, if_neg away]
      exact ⟨rfl, rfl⟩
    · intro other
      rw [sets]
      exact .refl _
  refine sound.move moves known ?_ ?_ ?_ ?_ fun peer is => nomatch before.symm.trans is
  · rw [controller_update_self]
    exact emits
  · rw [controller_update_self]
    exact fun peer contend owes => .inl (awaits peer contend owes)
  · rw [controller_update_self]
    exact fun peer is => nomatch after.symm.trans is
  · intro a b mem
    rw [sets] at mem
    exact .inl mem

theorem overlaps_link (s : OverlapState) (id owner other a : Nat) (stage : CallStage) :
    (((s.enter owner other).goto id stage).controller a).overlaps =
      if a = owner then other :: (s.controller owner).overlaps else (s.controller a).overlaps := by
  rw [field_goto (·.overlaps) _ id a stage fun _ => rfl, enter, controller_update]
  split <;> rfl

theorem mem_link (s : OverlapState) (id owner other : Nat) (stage : CallStage) :
    other ∈ (((s.enter owner other).goto id stage).controller owner).overlaps := by
  rw [overlaps_link, if_pos rfl]
  exact List.mem_cons_self

theorem subset_link (s : OverlapState) (id owner other a : Nat) (stage : CallStage) :
    (s.controller a).overlaps ⊆ (((s.enter owner other).goto id stage).controller a).overlaps := by
  rw [overlaps_link]
  split
  · next same =>
      rw [same]
      exact List.subset_cons_self _ _
  · exact .refl _

/-- A step that enters a scenario into a set, as part of a link that the call at a controller makes. -/
theorem Sound.link (sound : s.Sound) (known : id ≤ s.scenarioSeq) {owner other : Nat}
    (awaits : ∀ peer, s.Contend id peer → (s.controller id).stage.Awaits (s.ref peer) →
      stage.Awaits (s.ref peer) ∨ ((s.enter owner other).goto id stage).Linked id peer)
    (half : ∀ peer, stage.pending = some peer →
      id ∈ (((s.enter owner other).goto id stage).controller peer).overlaps)
    (entered : owner ∈ (((s.enter owner other).goto id stage).controller other).overlaps ∨
      other = id ∧ stage.pending = some owner)
    (completed : ∀ peer, (s.controller id).stage.pending = some peer →
      peer ∈ (((s.enter owner other).goto id stage).controller id).overlaps) :
    s.Onward ((s.enter owner other).goto id stage) := by
  have here : (((s.enter owner other).goto id stage).controller id).stage = stage := by
    rw [goto, controller_update_self]
  have emitting : ∀ a, (((s.enter owner other).goto id stage).controller a).emitting =
      (s.controller a).emitting := by
    intro a
    rw [field_goto (·.emitting) _ id a stage fun _ => rfl,
      field_enter (·.emitting) s owner other a fun _ _ => rfl]
  have moves : s.Moves ((s.enter owner other).goto id stage) id := by
    refine ⟨rfl, rfl, fun a => ?_, fun a away => ⟨?_, emitting a⟩, fun a => subset_link ..⟩
    · rw [field_goto (·.protocol) _ id a stage fun _ => rfl,
        field_enter (·.protocol) s owner other a fun _ _ => rfl]
    · rw [goto, controller_update, if_neg away, field_enter (·.stage) s owner other a fun _ _ => rfl]
  refine sound.move moves known (fun emits => .inl (emitting id ▸ emits)) ?_ ?_ ?_
    fun peer is => .inr (completed peer is)
  · rw [here]
    exact awaits
  · rw [here]
    exact half
  · intro a b mem
    rw [overlaps_link] at mem
    split at mem
    · next same =>
        rcases List.mem_cons.mp mem with rfl | old
        · rw [same]
          rcases entered with linked | ⟨own, is⟩
          · exact .inr (.inl linked)
          · obtain rfl := own
            rw [here]
            exact .inr (.inr is)
        · rw [same]
          exact .inl old
    · exact .inl mem

theorem Sound.le_of_busy (sound : s.Sound) (busy : (s.controller id).stage ≠ .idle) :
    id ≤ s.scenarioSeq := by
  by_contra above
  exact busy (sound.new id (Nat.lt_of_not_le above)).1

/-- A call goes on to a stage in which it still awaits those it has awaited. -/
theorem Sound.goto (sound : s.Sound) (known : id ≤ s.scenarioSeq)
    (awaits : ∀ peer, s.Contend id peer → (s.controller id).stage.Awaits (s.ref peer) →
      stage.Awaits (s.ref peer)) (before : (s.controller id).stage.pending = none)
    (after : stage.pending = none) : s.Onward (s.goto id stage) :=
  sound.turn known _ (fun _ => rfl) (fun _ => rfl) .inl awaits before after

theorem Sound.change {to' : ScenarioPhase} (sound : s.Sound) (after : stage.pending = none)
    (changes : s.change id to' stage = some s') : s.Onward s' := by
  simp only [OverlapState.change] at changes
  split at changes
  · next free =>
      cases changes
      refine sound.turn free.2.2 _ (fun _ => rfl) (fun _ => rfl) .inl ?_ ?_ after
      · rw [free.1]
        exact fun _ _ => False.elim
      · rw [free.1]
        rfl
  · exact nomatch changes

/-- **The accesses of a call.** -/
theorem Sound.advance (sound : s.Sound) (advances : s.advance id = some s') : s.Onward s' := by
  have known : id ≤ s.scenarioSeq := by
    refine sound.le_of_busy fun idle => ?_
    rw [OverlapState.advance, idle] at advances
    exact nomatch advances
  unfold OverlapState.advance at advances
  split at advances
  · exact nomatch advances
  · next stage =>
      cases advances
      exact sound.turn known _ (fun _ => rfl) (fun _ => rfl) (fun _ => .inr fun _ => trivial)
        (fun _ _ _ => trivial) (by rw [stage]; rfl) rfl
  · next stage =>
      cases advances
      refine sound.goto known ?_ (by rw [stage]; rfl) rfl
      exact fun peer contend _ => .inl contend.registered.2
  · next peer todo peers stage =>
      split at advances
      · next skipped =>
          cases advances
          refine sound.goto known ?_ (by rw [stage]; rfl) rfl
          rw [stage]
          rintro other contend (waits | found)
          · rcases List.mem_cons.mp waits with rfl | later
            · rcases skipped with own | silent | differs
              · exact absurd own.symm contend.distinct
              · exact nomatch silent.symm.trans contend.emitting.2
              · exact absurd contend.protocol.symm differs
            · exact .inl later
          · exact .inr found
      · cases advances
        refine sound.goto known ?_ (by rw [stage]; rfl) rfl
        rw [stage]
        rintro other contend (waits | found)
        · rcases List.mem_cons.mp waits with rfl | later
          · exact .inr (by simp)
          · exact .inl later
        · exact .inr (List.mem_append_left _ found)
  · next peers stage =>
      cases advances
      refine sound.goto known ?_ (by rw [stage]; rfl) rfl
      rw [stage]
      exact fun peer _ waits => waits.resolve_left List.not_mem_nil
  · next peer todo stage =>
      cases advances
      refine sound.link known ?_ ?_ (.inr ⟨rfl, rfl⟩) ?_
      · rw [stage]
        intro other _ waits
        rcases List.mem_cons.mp waits with now | later
        · exact .inl (.inl now)
        · exact .inl (.inr later)
      · rintro _ ⟨⟩
        exact mem_link ..
      · rw [stage]
        exact nofun
  · next peer todo stage =>
      cases advances
      have entered : id ∈ (s.controller peer.1).overlaps :=
        sound.half id peer.1 (by rw [stage]; rfl)
      refine sound.link known ?_ nofun (.inl (subset_link _ _ _ _ _ _ entered)) ?_
      · rw [stage]
        rintro other - (now | later)
        · obtain rfl : other = peer.1 := congrArg Prod.fst now
          exact .inr ⟨mem_link .., subset_link _ _ _ _ _ _ entered⟩
        · exact .inl later
      · rw [stage]
        rintro _ ⟨⟩
        exact mem_link ..
  · next stage =>
      cases advances
      refine sound.goto known ?_ (by rw [stage]; rfl) rfl
      rw [stage]
      exact fun peer _ waits => absurd waits List.not_mem_nil
  · next stage =>
      cases advances
      exact sound.turn known _ (fun _ => rfl) (fun _ => rfl) nofun
        (by rw [stage]; exact fun _ _ => False.elim) (by rw [stage]; rfl) rfl

/-- A submission sets the protocol of a scenario that has done nothing yet. -/
theorem Sound.submit (sound : s.Sound) {protocol : ScenarioProtocol} {snap : List ScenarioRef}
    (publishes : ∀ c ∈ snap, c = (s.scenarioSeq + 1, protocol) ∨ c ∈ s.scenarioSnap) :
    s.Onward { s.update (s.scenarioSeq + 1) ({ · with protocol }) with
      scenarioSeq := s.scenarioSeq + 1
      scenarioSnap := snap } := by
  let f : OverlapController → OverlapController := ({ · with protocol })
  have stage := fun id => field_update (·.stage) s (s.scenarioSeq + 1) id f fun _ => rfl
  have emitting := fun id => field_update (·.emitting) s (s.scenarioSeq + 1) id f fun _ => rfl
  have overlaps := fun id => field_update (·.overlaps) s (s.scenarioSeq + 1) id f fun _ => rfl
  -- What a scenario that emits is known by was there before.
  have before : ∀ id, ((s.update (s.scenarioSeq + 1) f).controller id).emitting = true →
      (s.update (s.scenarioSeq + 1) f).ref id ∈ snap →
        (s.update (s.scenarioSeq + 1) f).ref id = s.ref id ∧ s.ref id ∈ s.scenarioSnap := by
    intro id emits mem
    rw [emitting] at emits
    have old : id ≠ s.scenarioSeq + 1 := by
      have known := sound.le_of_emitting emits
      omega
    have same : (s.update (s.scenarioSeq + 1) f).ref id = s.ref id := by
      simp only [ref]
      rw [controller_update, if_neg old]
    refine ⟨same, ?_⟩
    rw [same] at mem
    rcases publishes _ mem with new | listed
    · exact absurd (congrArg Prod.fst new) old
    · exact listed
  refine ⟨⟨fun id above => ?_, fun a b is => ?_, fun a b contend => ?_, fun a b mem => ?_⟩,
    fun id => ?_⟩
  · have above : s.scenarioSeq < id := by
      simp only at above
      omega
    exact ⟨(stage id).trans (sound.new id above).1, (emitting id).trans (sound.new id above).2⟩
  · exact (overlaps b).symm ▸ sound.half a b ((congrArg _ (stage a)).symm.trans is)
  · obtain ⟨refA, listedA⟩ := before a contend.emitting.1 contend.registered.1
    obtain ⟨refB, listedB⟩ := before b contend.emitting.2 contend.registered.2
    have contended : s.Contend a b := by
      refine ⟨contend.distinct, ?_, ⟨listedA, listedB⟩, ?_, ?_⟩
      · exact (congrArg Prod.snd refA).symm.trans (contend.protocol.trans (congrArg Prod.snd refB))
      · exact (emitting a).symm.trans contend.emitting.1
      · exact (emitting b).symm.trans contend.emitting.2
    have pair := sound.pairs a b contended
    rw [← refA, ← refB, ← stage a, ← stage b, Linked, ← overlaps a, ← overlaps b] at pair
    exact pair
  · have pair := sound.symmetric a b ((overlaps a) ▸ mem)
    rw [← stage b, ← overlaps b] at pair
    exact pair
  · exact (overlaps id).symm ▸ .refl _

/-- **Steps.** -/
theorem Sound.sound_step {action : OverlapAction} (sound : s.Sound)
    (steps : s.step action = some s') : s.Onward s' := by
  cases action with
  | submitScenario protocol snap =>
    simp only [step] at steps
    split at steps
    · next publishes =>
        cases steps
        exact sound.submit publishes.2
    · exact nomatch steps
  | deleteScenario snap =>
    simp only [step] at steps
    split at steps
    · next publishes =>
        cases steps
        refine ⟨⟨sound.new, sound.half, fun a b contend => ?_, sound.symmetric⟩,
          fun _ => .refl _⟩
        exact sound.pairs a b { contend with
          registered := ⟨publishes _ contend.registered.1, publishes _ contend.registered.2⟩ }
    · exact nomatch steps
  | arm id => exact sound.change rfl steps
  | cancel id => exact sound.change rfl steps
  | start id => exact sound.change rfl steps
  | finish id aborts => exact sound.change rfl steps
  | advance id => exact sound.advance steps

theorem initial_sound : initial.Sound :=
  ⟨fun _ _ => ⟨rfl, rfl⟩, nofun, fun _ _ contend => (nomatch contend.emitting.1), nofun⟩

/-- **The disclosure of overlaps.** If the starts of two registered scenarios of one protocol have
both returned and both still emit, each is in the set of the other from then on. While no start is in
progress, the relation is symmetric. -/
theorem overlaps_disclosed {front back : List OverlapAction} {mid last : OverlapState}
    (reaches : Runs.run step initial front = some mid) (goes : Runs.run step mid back = some last) :
    (∀ a b, mid.Contend a b → (mid.controller a).stage.starting = false →
      (mid.controller b).stage.starting = false → last.Linked a b) ∧
    ((∀ id, (last.controller id).stage.starting = false) →
      ∀ a b, b ∈ (last.controller a).overlaps → a ∈ (last.controller b).overlaps) := by
  have kept : ∀ s action s', Sound s → s.step action = some s' → s'.Sound :=
    fun _ _ _ sound steps => (sound.sound_step steps).sound
  have midSound := Runs.always kept initial_sound reaches
  have lastSound := Runs.always kept midSound goes
  refine ⟨fun a b contend returnedA returnedB => ?_, fun none a b mem => ?_⟩
  · have linked : mid.Linked a b := by
      rcases midSound.pairs a b contend with linked | waits | waits
      · exact linked
      · exact absurd waits (CallStage.not_awaits returnedA _)
      · exact absurd waits (CallStage.not_awaits returnedB _)
    have stays : ∀ (s : OverlapState) action s', s.Sound ∧ s.Linked a b → s.step action = some s' →
        s'.Sound ∧ s'.Linked a b := by
      rintro s action s' ⟨sound, inA, inB⟩ steps
      obtain ⟨sound', grows⟩ := sound.sound_step steps
      exact ⟨sound', grows a inA, grows b inB⟩
    exact (Runs.always stays ⟨midSound, linked⟩ goes).2
  · rcases lastSound.symmetric a b mem with linked | half
    · exact linked
    · rw [CallStage.pending_of_not_starting (none b)] at half
      exact nomatch half

/-- Two syslog scenarios start at once: the first reads the flag of the second before that is stored,
and is found by the second. -/
theorem overlaps_disclosed_at_once :
    ∃ front last, Runs.run step initial front = some last ∧ last.Contend 1 2 ∧ last.Linked 1 2 := by
  let front : List OverlapAction := [.submitScenario .syslog [(1, .syslog)],
    .submitScenario .syslog [(2, .syslog), (1, .syslog)], .arm 1, .arm 2, .start 1, .start 2,
    .advance 1, .advance 1, .advance 1, .advance 2, .advance 1, .advance 1, .advance 1,
    .advance 2, .advance 2, .advance 2, .advance 2, .advance 2, .advance 2, .advance 2]
  have outcome : (Runs.run step initial front).map (fun last =>
      ((last.ref 1 ∈ last.scenarioSnap ∧ last.ref 2 ∈ last.scenarioSnap : Bool),
        ((last.controller 1).protocol, (last.controller 2).protocol),
        ((last.controller 1).emitting, (last.controller 2).emitting),
        ((last.controller 1).stage.starting, (last.controller 2).stage.starting))) =
      some (true, (.syslog, .syslog), (true, true), (false, false)) := by decide +kernel
  obtain ⟨last, runs, seen⟩ := Option.map_eq_some_iff.mp outcome
  simp only [Prod.mk.injEq, decide_eq_true_eq] at seen
  obtain ⟨registered, ⟨first, second⟩, emitting, returned, returned'⟩ := seen
  have contend : last.Contend 1 2 := ⟨by decide, first.trans second.symm, registered, emitting⟩
  refine ⟨front, last, runs, contend, ?_⟩
  exact (@overlaps_disclosed front [] last last runs rfl).1 1 2 contend returned returned'

end OverlapState

end Nl6
