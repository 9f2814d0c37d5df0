import Nl6.Lib.Threads
import Nl6.Trap.InformStages

/-! # The INFORMs of an exporter over whole runs

Any number of fires register, write and roll back their INFORMs while acknowledgements come in and
the one retry loop sweeps the pending entries. `inform_accounts` says that the accounts hold between
any two critical sections, and that no INFORM is sent more often than the retries allow.

Request-ids come around again after `2^32 - 1` of them. What has to be outlived is not only the time
that an INFORM is pending but also the time between the issue of its request-id and its
registration: a fire that is overtaken in between replaces the entry of another one
(`overtaken_fire_loses_entry`).
-/

namespace Nl6

open Program (Keeps)

/-! ### The exporter -/

/-- Serve a request of a fire. What does not concern its INFORM, and whether the write succeeds, is
chosen by `replies`. -/
def InformState.serve (options : InformOptions) (s : InformState) (fire : Nat) (op : ExporterOp)
    (replies : (op : ExporterOp) → op.Reply) : Option (InformState × op.Reply) :=
  match op with
  | .nextRequestID => some s.nextRequestID
  | .registerPending reqID pdu =>
    some (s.registerPending options fire reqID pdu (replies .now), ())
  | .undoPending reqID => some (s.undoPending reqID, ())
  | .write pdu =>
    let result : WriteReturn := replies (.write pdu)
    some (if result.ok then s.transmit fire else s, result)
  | op => some (s, replies op)

/-- Serve a request of the retry loop. A map is scanned in any order. -/
def InformState.serveSweep (options : InformOptions) (s : InformState) (op : SweepOp)
    (replies : (op : SweepOp) → op.Reply) : Option (InformState × op.Reply) :=
  match op with
  | .scan now =>
    let found : List UInt32 × List UInt32 := replies (.scan now)
    let late := s.overdue options now
    if found.1.isPerm late.1 && found.2.isPerm late.2 then some (s, found) else none
  | .fail reqID => some (s.failPending reqID, ())
  | .retry reqID now => some (s.retryPending options reqID now)
  | .write inform =>
    let sent : Bool := replies (.write inform)
    some (if sent then s.transmit inform.fire else s, sent)
  | op => some (s, replies op)

abbrev FirePool : Type := Pool exporterRequests Nat FireStage Unit InformState

/-- An exporter of INFORMs: the fires, which are numbered as they begin, and the retry loop. -/
structure InformSystem where
  fires : FirePool
  sweep : Thread sweepRequests Unit SweepStage Unit

inductive InformAction where
  /-- A fire begins. -/
  | fire (src : FireSource)
  /-- A fire makes its next request. -/
  | advance (index : Nat) (replies : (op : ExporterOp) → op.Reply)
  /-- The reader gets an acknowledgement. -/
  | ack (reqID : UInt32)
  /-- The ticker of the retry loop starts a sweep. -/
  | tick
  /-- The sweep makes its next request. -/
  | sweep (replies : (op : SweepOp) → op.Reply)

namespace InformSystem

def initial : InformSystem where
  fires := ⟨InformState.initial, []⟩
  sweep := ⟨(), ⟨[], none⟩, .ret ()⟩

abbrev state (sys : InformSystem) : InformState := sys.fires.shared

def step (options : InformOptions) (sys : InformSystem) : InformAction → Option InformSystem
  | .fire src =>
    some { sys with
      fires := sys.fires.spawn sys.fires.threads.length .fresh (Fire.trap .inform src).program }
  | .advance index replies =>
    (sys.fires.advance informs (InformState.serve options) index replies).map fun fires =>
      { sys with fires := fires }
  | .ack reqID =>
    some { sys with fires := { sys.fires with shared := sys.state.resolveAck reqID } }
  | .tick =>
    -- There is one retry loop, which sweeps again when the last sweep is over.
    if sys.sweep.result.isSome then some { sys with sweep := ⟨(), ⟨[], none⟩, Sweep.checkPending⟩ }
    else none
  | .sweep replies =>
    match sys.sweep.advance sweeps (fun s _ => s.serveSweep options) sys.state replies with
    | none => none
    | some (state, sweep) => some ⟨{ sys.fires with shared := state }, sweep⟩

/-- The request-ids of the INFORMs that are under way: issued and not registered yet, or pending. -/
def openIDs (sys : InformSystem) : List UInt32 :=
  sys.fires.threads.filterMap (·.seen.issuedID) ++ sys.state.ids

def asksForID (t : Thread exporterRequests Nat FireStage Unit) : Bool :=
  match t.rest with
  | .ask .nextRequestID _ => true
  | _ => false

/-- The action is the issue of a request-id. -/
def issues (sys : InformSystem) : InformAction → Bool
  | .advance index _ =>
    match sys.fires.threads[index]? with
    | some t => asksForID t
    | none => false
  | _ => false

/-- A request-id is issued when a whole round of them has been issued since that of an INFORM which
is still under way. -/
def overtakes (sys : InformSystem) (action : InformAction) : Bool :=
  sys.issues action && sys.openIDs.any fun reqID =>
    requestIDs ≤ sys.state.issued - sys.state.issuedAt reqID

end InformSystem

/-! ### Every run -/

namespace InformSystem

/-- How far each fire of the exporter has come. -/
def stages (sys : InformSystem) : Stages := fun f => (sys.fires.threads[f]?).map (·.seen)

/-- What holds between any two critical sections. -/
structure Sound (options : InformOptions) (sys : InformSystem) : Prop where
  follows : sys.fires.Follows informs fun _ _ => True
  sweeping : Keeps sweeps sys.sweep.seen sys.sweep.rest fun _ _ => True
  numbered : ∀ (f : Nat) t, sys.fires.threads[f]? = some t → t.tag = f
  identified : Identified options sys.state sys.stages
  budgeted : Budgeted options sys.state sys.stages sys.sweep.seen

variable {options : InformOptions} {sys next : InformSystem} {s : InformState}
  {action : InformAction}

theorem sound_initial (options : InformOptions) : Sound options initial where
  follows _ mem := absurd mem List.not_mem_nil
  sweeping := trivial
  numbered _ _ found := nomatch found
  identified :=
    { booked := InformState.booked_initial options
      last := rfl
      single := fun _ _ _ here => nomatch here
      unused := fun _ _ here => nomatch here
      dated := fun _ used => used.elim (fun among => nomatch among) fun ⟨_, here⟩ => nomatch here }
  budgeted :=
    { fires := List.nodup_nil
      early := fun _ _ => ⟨rfl, fun _ mem => absurd mem List.not_mem_nil, rfl⟩
      spent := fun _ => Nat.zero_le _
      entries := fun _ mem => nomatch mem
      distinct := List.nodup_nil
      due := fun _ mem => nomatch mem }

/-- The acknowledgements, the failures and the other operations of the reader and the retry loop
leave the fires where they are. -/
theorem Sound.withState {sweep : Thread sweepRequests Unit SweepStage Unit}
    (sound : Sound options sys) (sweeping : Keeps sweeps sweep.seen sweep.rest fun _ _ => True)
    (identified : Identified options s sys.stages)
    (budgeted : Budgeted options s sys.stages sweep.seen) :
    Sound options ⟨{ sys.fires with shared := s }, sweep⟩ :=
  ⟨sound.follows, sweeping, sound.numbered, identified, budgeted⟩

section Exchange

variable {front back : List (Thread exporterRequests Nat FireStage Unit)}
  {t t' : Thread exporterRequests Nat FireStage Unit}

theorem getElem?_exchange (f : Nat) :
    (front ++ t' :: back)[f]? =
      if f = front.length then some t' else (front ++ t :: back)[f]? := by
  have exchanged : front ++ t' :: back = (front ++ t :: back).set front.length t' := by simp
  rw [exchanged, List.getElem?_set]
  simp [eq_comm]

/-- A fire goes on: what is left to show is about the stages alone. -/
theorem Sound.exchange (sound : Sound options sys) (threads : sys.fires.threads = front ++ t :: back)
    (tag : t'.tag = t.tag) (follows : Pool.Follows informs (fun _ _ => True) ⟨s, front ++ t' :: back⟩)
    (identified : Identified options s
      (Function.update sys.stages front.length (some t'.seen)))
    (budgeted : Budgeted options s (Function.update sys.stages front.length (some t'.seen))
      sys.sweep.seen) : Sound options { sys with fires := ⟨s, front ++ t' :: back⟩ } := by
  have same : stages { sys with fires := ⟨s, front ++ t' :: back⟩ } =
      Function.update sys.stages front.length (some t'.seen) := by
    funext f
    rw [Function.update_apply]
    unfold stages
    rw [threads, getElem?_exchange (t := t) f]
    split_ifs <;> rfl
  refine ⟨follows, sound.sweeping, fun f u found => ?_, same ▸ identified, same ▸ budgeted⟩
  rw [getElem?_exchange (t := t) f] at found
  split_ifs at found with here
  · cases found
    exact tag.trans (sound.numbered f t (by simp [threads, here]))
  · exact sound.numbered f u (threads ▸ found)

end Exchange

theorem Sound.fire (sound : Sound options sys) (src : FireSource) :
    Sound options { sys with
      fires := sys.fires.spawn sys.fires.threads.length .fresh
        (Fire.trap .inform src).program } := by
  have unborn : sys.stages sys.fires.threads.length = none := by
    simp [stages]
  have grown : stages { sys with
      fires := sys.fires.spawn sys.fires.threads.length .fresh (Fire.trap .inform src).program } =
      Function.update sys.stages sys.fires.threads.length (some .fresh) := by
    funext f
    by_cases new : f = sys.fires.threads.length
    · subst new
      rw [Function.update_self]
      simp [stages, Pool.spawn]
    · rw [Function.update_of_ne new]
      unfold stages Pool.spawn
      rcases Nat.lt_or_gt_of_ne new with old | beyond
      · rw [List.getElem?_append_left old]
      · rw [List.getElem?_eq_none (by simp; omega), List.getElem?_eq_none beyond.le]
  refine ⟨sound.follows.spawn (trapFire_informs src), sound.sweeping, fun f t found => ?_, ?_, ?_⟩
  · unfold Pool.spawn at found
    by_cases old : f < sys.fires.threads.length
    · rw [List.getElem?_append_left old] at found
      exact sound.numbered f t found
    · rw [List.getElem?_append_right (by omega)] at found
      obtain ⟨below, same⟩ := List.getElem?_eq_some_iff.mp found
      rw [List.length_singleton] at below
      rw [← same, List.getElem_singleton]
      dsimp only
      omega
  · rw [grown]
    exact sound.identified.shrink sound.identified.booked rfl rfl rfl (fun _ => id)
      fun _ _ => issued_of_update rfl
  · rw [grown]
    exact sound.budgeted.begin unborn

/-- What the INFORMs under way have to outlive when a request-id is issued. -/
theorem outlived_of_not_overtakes (issues : sys.issues action = true)
    (outlived : sys.overtakes action = false) (reqID : UInt32)
    (used : reqID ∈ sys.state.ids ∨ ∃ f, sys.stages f = some (.issued reqID)) :
    sys.state.issued - sys.state.issuedAt reqID < requestIDs := by
  have mem : reqID ∈ sys.openIDs := by
    rcases used with pending | ⟨f, here⟩
    · exact List.mem_append_right _ pending
    · refine List.mem_append_left _ (List.mem_filterMap.mpr ?_)
      obtain ⟨t, found, seen⟩ := Option.map_eq_some_iff.mp here
      exact ⟨t, List.mem_of_getElem? found, by rw [seen]; rfl⟩
  rw [overtakes, issues, Bool.true_and, List.any_eq_false] at outlived
  have := outlived reqID mem
  simpa using this

/-- **A fire goes on.** Only the issue of a request-id asks something of the run. -/
theorem Sound.advance (sound : Sound options sys) {index : Nat}
    {replies : (op : ExporterOp) → op.Reply} {fires : FirePool}
    (outlived : sys.overtakes (.advance index replies) = false)
    (advances : sys.fires.advance informs (InformState.serve options) index replies =
      some fires) : Sound options { sys with fires := fires } := by
  have follows := sound.follows.advance advances
  obtain ⟨front, t, back, op, resume, s, reply, threads, rfl, asks, served, rfl⟩ :=
    Pool.advance_cases advances
  have found : sys.fires.threads[front.length]? = some t := by simp [threads]
  have tag : t.tag = front.length := sound.numbered _ t found
  have permitted : informs.permits t.seen op := by
    have keeps := sound.follows t (by simp [threads])
    rw [asks] at keeps
    exact keeps.1
  have here : sys.stages front.length = some t.seen := by simp [stages, found]
  have identified := sound.identified
  have budgeted := sound.budgeted
  have unchanged (same : informs.advance t.seen op reply = t.seen) : Function.update sys.stages
      front.length (some (informs.advance t.seen op reply)) = sys.stages := by
    rw [same, ← here]
    exact Function.update_eq_self _ _
  suffices kept : Identified options s (Function.update sys.stages front.length
        (some (informs.advance t.seen op reply))) ∧
      Budgeted options s (Function.update sys.stages front.length
        (some (informs.advance t.seen op reply))) sys.sweep.seen from
    sound.exchange threads rfl follows kept.1 kept.2
  cases op with
  | nextRequestID =>
    cases served
    have fresh : t.seen = .fresh := permitted
    have issues : sys.issues (.advance front.length replies) = true := by
      simp only [InformSystem.issues, found, asksForID, asks]
    rw [fresh] at here
    exact ⟨identified.issue (outlived_of_not_overtakes issues outlived),
      budgeted.advance (.refl _) rfl here (fun _ => rfl) fun _ => rfl⟩
  | encode =>
    cases served
    by_cases lapses : replies .encode = none ∧ ∃ reqID, t.seen = .issued reqID
    · obtain ⟨none, reqID, issued⟩ := lapses
      rw [issued] at here
      rw [none, issued]
      exact ⟨identified.shrink identified.booked rfl rfl rfl (fun _ => id)
          fun _ _ => issued_of_update rfl,
        budgeted.advance (.refl _) rfl here (fun _ => rfl) fun left => nomatch left⟩
    · rw [unchanged]
      · exact ⟨identified, budgeted⟩
      simp only [not_and, not_exists] at lapses
      cases encoded : replies .encode with
      | some pdu => rfl
      | none =>
        cases stage : t.seen with
        | issued reqID => exact absurd stage (lapses encoded reqID)
        | _ => rfl
  | registerPending reqID pdu =>
    cases served
    have issued : t.seen = .issued reqID := permitted
    rw [issued] at here
    rw [tag]
    exact ⟨identified.register here pdu (replies .now),
      budgeted.register identified.booked here (identified.unused _ reqID here) pdu (replies .now)⟩
  | write pdu =>
    obtain ⟨reqID, registered⟩ := permitted
    rw [registered] at here ⊢
    cases served
    split
    · refine ⟨identified.shrink (identified.booked.congr rfl rfl rfl rfl rfl rfl) rfl rfl rfl
        (fun _ => id) fun _ _ => issued_of_update rfl, ?_⟩
      rw [tag]
      exact budgeted.transmit here
    · exact ⟨identified.shrink identified.booked rfl rfl rfl (fun _ => id)
          fun _ _ => issued_of_update rfl,
        budgeted.advance (.refl _) rfl here (fun left => nomatch left)
          fun left => nomatch left⟩
  | undoPending reqID =>
    cases served
    rw [unchanged rfl]
    exact ⟨identified.takeOut InformState.tallies_undone reqID,
      budgeted.takeOut InformState.tallies_undone reqID⟩
  | closing | loadPart | fidelitySilent | now | wallClock | loadGate | admitFire | wgDone
  | inflightDown | add | stat | resolve | streamLive =>
    cases served
    rw [unchanged rfl]
    exact ⟨identified, budgeted⟩

/-- **The retry loop goes on.** -/
theorem Sound.sweep (sound : Sound options sys) {replies : (op : SweepOp) → op.Reply}
    {sweep : Thread sweepRequests Unit SweepStage Unit}
    (advances : sys.sweep.advance sweeps (fun s _ => s.serveSweep options) sys.state replies =
      some (s, sweep)) : Sound options ⟨{ sys.fires with shared := s }, sweep⟩ := by
  obtain ⟨op, resume, reply, asks, served, rfl⟩ := Thread.advance_cases advances
  have keeps := sound.sweeping
  rw [asks] at keeps
  obtain ⟨permitted, further⟩ := keeps
  have identified := sound.identified
  have budgeted := sound.budgeted
  have distinct := identified.booked.distinct
  cases op with
  | scan now =>
    simp only [InformState.serveSweep] at served
    split at served
    · next perm =>
        cases served
        obtain ⟨found, -⟩ := Bool.and_eq_true_iff.mp perm
        exact sound.withState (further _) identified
          (budgeted.scan distinct (List.isPerm_iff.mp found))
    · exact nomatch served
  | fail reqID =>
    obtain ⟨rfl, rfl⟩ := Prod.mk.inj (Option.some.inj served)
    exact sound.withState (further _) (identified.takeOut InformState.tallies_failed reqID)
      (budgeted.takeOut InformState.tallies_failed reqID)
  | retry reqID now =>
    obtain ⟨idle, rest, head⟩ := permitted
    obtain ⟨rfl, rfl⟩ := Prod.mk.inj (Option.some.inj served)
    refine sound.withState (further _) ?_ ?_
    · exact identified.retry reqID now
    · have moved := budgeted.retry idle head distinct now
      rwa [show rest = sys.sweep.seen.due.tail by rw [head]; rfl] at moved
  | write inform =>
    cases served
    split
    · refine sound.withState (further _) ?_ (budgeted.retransmit permitted)
      exact identified.shrink (identified.booked.congr rfl rfl rfl rfl rfl rfl) rfl rfl rfl
        (fun _ => id) fun _ _ => id
    · refine sound.withState (further _) identified ?_
      exact budgeted.shrink (.refl _) rfl (fun _ => id) (fun _ => le_rfl)
        (fun _ => Nat.zero_le _) (.refl _)
  | closing | now | wait | stat =>
    cases served
    exact sound.withState (further _) identified budgeted

theorem Sound.step (sound : Sound options sys) (outlived : sys.overtakes action = false)
    (steps : step options sys action = some next) : Sound options next := by
  cases action with
  | fire src =>
    cases steps
    exact sound.fire src
  | advance index replies =>
    obtain ⟨fires, advances, rfl⟩ := Option.map_eq_some_iff.mp steps
    exact sound.advance outlived advances
  | ack reqID =>
    cases steps
    exact sound.withState sound.sweeping
      (sound.identified.takeOut InformState.tallies_acked reqID)
      (sound.budgeted.takeOut InformState.tallies_acked reqID)
  | tick =>
    simp only [InformSystem.step] at steps
    split at steps
    · cases steps
      refine sound.withState Sweep.checkPending_keeps sound.identified ?_
      exact sound.budgeted.shrink (.refl _) rfl (fun _ => id) (fun _ => le_rfl)
        (fun _ => Nat.zero_le _) (List.nil_sublist _)
    · exact nomatch steps
  | sweep replies =>
    simp only [InformSystem.step] at steps
    split at steps
    · exact nomatch steps
    · next s sweep advances =>
        cases steps
        exact sound.sweep advances

/-- **INFORM accounting.** In every run in which less than a round of request-ids is issued from the
issue of that of an INFORM until the INFORM is no longer pending: every INFORM that was originated is
pending, acknowledged, failed or dropped, no more are pending than there is room for, the order lists
the pending request-ids as they were inserted, each once, and no INFORM was sent more often than once
and for each of its retries. -/
theorem inform_accounts (options : InformOptions) {actions : List InformAction}
    {last : InformSystem} (runs : Runs.run (step options) initial actions = some last)
    (outlived : Runs.Along (step options) (fun sys action => sys.overtakes action = false) initial
      actions) :
    last.state.pending.length + last.state.acked + last.state.failed + last.state.dropped =
        last.state.originated ∧
      last.state.pending.length ≤ options.pendingCap ∧
      last.state.pendingOrder = last.state.pending.map (·.reqID) ∧
      last.state.pendingOrder.Nodup ∧
      ∀ fire, last.state.transmissions fire ≤ 1 + options.informRetries := by
  have sound : Sound options last :=
    Runs.invariant (fun _ _ _ sound outlived steps => sound.step outlived steps)
      (sound_initial options) outlived runs
  obtain ⟨sum, order, distinct, room⟩ := sound.identified.booked
  refine ⟨sum, room, order, order ▸ distinct, fun fire => ?_⟩
  have := sound.budgeted.spent fire
  omega

/-! ### A round of request-ids -/

/-- An exporter with room for two. -/
def twoPending : InformOptions := ⟨5, 0, 2, by decide⟩

/-- A whole fire of an exporter that takes part in no scenario: the write succeeds. -/
def wholeFire (index : Nat) : List InformAction :=
  .fire .onDemand :: List.replicate 9 (.advance index calmReplies)

theorem inform_accounts_acked :
    ∃ last, Runs.run (step twoPending) initial
        (wholeFire 0 ++ wholeFire 1 ++ wholeFire 2 ++ [.ack 3, .ack 3]) = some last ∧
      last.state.dropped = 1 ∧ last.state.acked = 1 ∧
      last.state.pending.length + last.state.acked + last.state.failed + last.state.dropped =
        last.state.originated := by
  have outlived : Runs.Along (step twoPending) (fun sys action => sys.overtakes action = false)
      initial (wholeFire 0 ++ wholeFire 1 ++ wholeFire 2 ++ [.ack 3, .ack 3]) := by
    decide +kernel
  have reached : (match Runs.run (step twoPending) initial
        (wholeFire 0 ++ wholeFire 1 ++ wholeFire 2 ++ [.ack 3, .ack 3]) with
      | some last => decide (last.state.dropped = 1 ∧ last.state.acked = 1)
      | none => false) = true := by
    decide +kernel
  split at reached
  · next last runs =>
      obtain ⟨dropped, acked⟩ := of_decide_eq_true reached
      exact ⟨last, runs, dropped, acked, (inform_accounts twoPending runs outlived).1⟩
  · exact nomatch reached

/-- No request-id is issued while an INFORM is pending. -/
abbrev IssuesAlone (sys : InformSystem) (action : InformAction) : Prop :=
  sys.issues action = true → sys.state.pending = []

section Solo

variable {options : InformOptions} {replies : (op : ExporterOp) → op.Reply} {s s' : InformState}
  {front back : List (Thread exporterRequests Nat FireStage Unit)}
  {t t' : Thread exporterRequests Nat FireStage Unit}
  {sweep : Thread sweepRequests Unit SweepStage Unit}

theorem run_solo {n : Nat}
    (solo : Thread.advances informs (InformState.serve options) replies n s t = some (s', t')) :
    Runs.run (step options) ⟨⟨s, front ++ t :: back⟩, sweep⟩
      (List.replicate n (.advance front.length replies)) =
        some ⟨⟨s', front ++ t' :: back⟩, sweep⟩ := by
  induction n generalizing s t with
  | zero =>
    cases solo
    rfl
  | succ n ih =>
    simp only [Thread.advances] at solo
    split at solo
    · exact nomatch solo
    · next shared moved advances =>
        simp only [List.replicate_succ, Runs.run, step, Pool.advance_at, advances,
          Option.map_some]
        exact ih solo

theorem along_solo {n : Nat}
    (empty : ∀ k < n, ∀ s' t', Thread.advances informs (InformState.serve options) replies k s t =
      some (s', t') → asksForID t' = true → s'.pending = []) :
    Runs.Along (step options) IssuesAlone ⟨⟨s, front ++ t :: back⟩, sweep⟩
      (List.replicate n (.advance front.length replies)) := by
  induction n generalizing s t with
  | zero => trivial
  | succ n ih =>
    have here : (front ++ t :: back)[front.length]? = some t := by
      rw [List.getElem?_append_right le_rfl, Nat.sub_self]
      rfl
    simp only [List.replicate_succ, Runs.Along, step, Pool.advance_at]
    refine ⟨fun issued => ?_, ?_⟩
    · simp only [issues, here] at issued
      exact empty 0 (Nat.zero_lt_succ n) s t rfl issued
    · cases advances : t.advance informs (InformState.serve options) s replies with
      | none => trivial
      | some moved =>
        simp only [Option.map_some]
        refine ih fun k below s' t' solo => empty (k + 1) (Nat.succ_lt_succ below) s' t' ?_
        simp only [Thread.advances, advances]
        exact solo

end Solo

/-- The replies to a fire whose INFORM cannot be encoded. -/
def lapsingReplies : (op : ExporterOp) → op.Reply
  | .encode => none
  | op => calmReplies op

/-- A fire that takes a request-id and comes to nothing. -/
def lapsingFire (index : Nat) : List InformAction :=
  .fire .onDemand :: List.replicate 7 (.advance index lapsingReplies)

/-- Fires that come to nothing, one after the other. -/
def lapsingFires (index : Nat) : Nat → List InformAction
  | 0 => []
  | n + 1 => lapsingFire index ++ lapsingFires (index + 1) n

/-- The state after request-ids were issued. -/
def issueMany : Nat → InformState → InformState
  | 0, s => s
  | n + 1, s => issueMany n s.nextRequestID.1

theorem advances_lapsing (options : InformOptions) (s : InformState) (index : Nat) :
    Thread.advances informs (InformState.serve options) lapsingReplies 7 s
      ⟨index, .fresh, (Fire.trap .inform .onDemand).program⟩ =
        some (s.nextRequestID.1, ⟨index, .lapsed, .ret ()⟩) := rfl

theorem lapsing_empty (empty : s.pending = []) (index : Nat) :
    ∀ k < 7, ∀ s' t', Thread.advances informs (InformState.serve options)
      lapsingReplies k s ⟨index, .fresh, (Fire.trap .inform .onDemand).program⟩ = some (s', t') →
        asksForID t' = true → s'.pending = [] := by
  intro k below s' t' solo _
  interval_cases k
  all_goals
    cases solo
    exact empty

theorem lapsingFires_spec (n : Nat) (empty : s.pending = [])
    (threads : List (Thread exporterRequests Nat FireStage Unit))
    (sweep : Thread sweepRequests Unit SweepStage Unit) :
    (∃ more, more.length = n ∧
      Runs.run (step options) ⟨⟨s, threads⟩, sweep⟩ (lapsingFires threads.length n) =
        some ⟨⟨issueMany n s, threads ++ more⟩, sweep⟩) ∧
    Runs.Along (step options) IssuesAlone ⟨⟨s, threads⟩, sweep⟩
      (lapsingFires threads.length n) := by
  induction n generalizing s threads with
  | zero => exact ⟨⟨[], rfl, by rw [List.append_nil]; rfl⟩, trivial⟩
  | succ n ih =>
    obtain ⟨⟨more, count, runs⟩, along⟩ := ih (s := s.nextRequestID.1) empty
      (threads ++ [⟨threads.length, .lapsed, .ret ()⟩])
    rw [List.length_append, List.length_singleton] at runs along
    have first : Runs.run (step options) ⟨⟨s, threads⟩, sweep⟩ (lapsingFire threads.length) =
        some ⟨⟨s.nextRequestID.1, threads ++ [⟨threads.length, .lapsed, .ret ()⟩]⟩, sweep⟩ :=
      run_solo (advances_lapsing options s threads.length)
    refine ⟨⟨⟨threads.length, .lapsed, .ret ()⟩ :: more, ?_, ?_⟩, ?_⟩
    · rw [List.length_cons, count]
    · rw [lapsingFires, Runs.run_append, first]
      rw [List.append_assoc] at runs
      exact runs
    · refine Runs.along_append ⟨(fun none => nomatch none), ?_⟩ first along
      exact along_solo (lapsing_empty empty threads.length)

theorem issueMany_eq (n : Nat) (last : s.nextReqID = lastRequestID s.issued) :
    (issueMany n s).issued = s.issued + n ∧
      (issueMany n s).nextReqID = lastRequestID (s.issued + n) ∧
      ∃ issuedAt, issueMany n s =
        { s with
          nextReqID := (issueMany n s).nextReqID
          issued := (issueMany n s).issued
          issuedAt := issuedAt } := by
  induction n generalizing s with
  | zero => exact ⟨rfl, last, s.issuedAt, rfl⟩
  | succ n ih =>
    have next : s.nextRequestID.1.nextReqID = lastRequestID s.nextRequestID.1.issued := by
      rw [InformState.nextRequestID, last]
      exact requestID_succ s.issued
    obtain ⟨issued, nextReqID, issuedAt, rest⟩ := ih next
    have count : s.nextRequestID.1.issued = s.issued + 1 := rfl
    rw [count] at issued nextReqID
    refine ⟨?_, ?_, issuedAt, ?_⟩
    · rw [issueMany, issued]
      omega
    · rw [issueMany, nextReqID, Nat.add_right_comm, Nat.add_assoc]
    · rw [issueMany]
      exact rest

/-- The first fire of an exporter, after it was issued its request-id. -/
def overtakenFire : Thread exporterRequests Nat FireStage Unit :=
  match Thread.advances informs (InformState.serve twoPending) calmReplies 5 .initial
      ⟨0, .fresh, (Fire.trap .inform .onDemand).program⟩ with
  | some (_, t) => t
  | none => ⟨0, .fresh, .ret ()⟩

/-- A fire takes the first request-id and is held up before it registers its INFORM. All other
request-ids are issued, the first one comes around, and both fires register. -/
def overtaking : List InformAction :=
  (.fire .onDemand :: List.replicate 5 (.advance 0 calmReplies)) ++
    (lapsingFires 1 (requestIDs - 1) ++
      ((.fire .onDemand :: List.replicate 7 (.advance requestIDs calmReplies)) ++
        List.replicate 2 (.advance 0 calmReplies)))

theorem advances_registering (s : InformState) (index : Nat) :
    ∃ t, Thread.advances informs (InformState.serve twoPending) calmReplies 7 s
      ⟨index, .fresh, (Fire.trap .inform .onDemand).program⟩ =
        some (s.nextRequestID.1.registerPending twoPending index s.nextRequestID.2 [] 0, t) :=
  ⟨_, rfl⟩

theorem registering_empty (empty : s.pending = []) (index : Nat) :
    ∀ k < 7, ∀ s' t', Thread.advances informs (InformState.serve twoPending) calmReplies k s
      ⟨index, .fresh, (Fire.trap .inform .onDemand).program⟩ = some (s', t') →
        asksForID t' = true → s'.pending = [] := by
  intro k below s' t' solo _
  interval_cases k
  all_goals
    cases solo
    exact empty

theorem advances_overtaken (s : InformState) :
    ∃ t, Thread.advances informs (InformState.serve twoPending) calmReplies 2 s overtakenFire =
      some (s.registerPending twoPending 0 1 [] 0, t) :=
  ⟨_, rfl⟩

theorem overtaken_asks_nothing (s : InformState) :
    ∀ k < 2, ∀ s' t', Thread.advances informs (InformState.serve twoPending) calmReplies k s
      overtakenFire = some (s', t') → asksForID t' = true → s'.pending = [] := by
  intro k below s' t' solo asks
  interval_cases k
  all_goals
    cases solo
    exact nomatch asks

/-- **The accounts are lost** without a single request-id being issued while an INFORM is pending:
two INFORMs were originated, one is pending, and the order lists its request-id twice. -/
theorem overtaken_fire_loses_entry :
    ∃ last, Runs.run (step twoPending) initial overtaking = some last ∧
      Runs.Along (step twoPending) IssuesAlone initial overtaking ∧
      last.state.originated = 2 ∧ last.state.pending.length = 1 ∧ last.state.acked = 0 ∧
      last.state.failed = 0 ∧ last.state.dropped = 0 ∧ last.state.pendingOrder = [1, 1] := by
  -- The first fire is held up.
  have held : Thread.advances informs (InformState.serve twoPending) calmReplies 5 .initial
      ⟨0, .fresh, (Fire.trap .inform .onDemand).program⟩ =
        some (issueMany 1 .initial, overtakenFire) := rfl
  have first : Runs.run (step twoPending) initial
      (.fire .onDemand :: List.replicate 5 (.advance 0 calmReplies)) =
        some ⟨⟨issueMany 1 .initial, [overtakenFire]⟩, initial.sweep⟩ :=
    @run_solo _ _ _ _ [] [] _ _ _ _ held
  have firstAlone : Runs.Along (step twoPending) IssuesAlone initial
      (.fire .onDemand :: List.replicate 5 (.advance 0 calmReplies)) := by
    refine ⟨(fun none => nomatch none), @along_solo _ _ _ [] [] _ _ _ fun k below => ?_⟩
    exact registering_empty rfl 0 k (by omega)
  -- All other request-ids are issued.
  obtain ⟨⟨more, count, lapse⟩, lapseAlone⟩ := @lapsingFires_spec twoPending
    (issueMany 1 .initial) (requestIDs - 1) rfl [overtakenFire] initial.sweep
  obtain ⟨issued, last, issuedAt, fields⟩ :=
    issueMany_eq (requestIDs - 1) (s := issueMany 1 .initial) rfl
  generalize issueMany (requestIDs - 1) (issueMany 1 .initial) = s at lapse issued last fields
  have empty : s.pending = [] := by rw [fields]; rfl
  have again : s.nextRequestID.2 = 1 := by
    have round : (issueMany 1 InformState.initial).issued + (requestIDs - 1) = requestIDs := rfl
    change (let next := s.nextReqID + 1; if next = 0 then next + 1 else next) = 1
    rw [last]
    exact (requestID_succ requestIDs).trans (by decide)
  -- The last fire gets the request-id of the first one.
  obtain ⟨t, registers⟩ := advances_registering s requestIDs
  have position : (overtakenFire :: more).length = requestIDs := by
    rw [List.length_cons, count]
    rfl
  have second : Runs.run (step twoPending) ⟨⟨s, overtakenFire :: more⟩, initial.sweep⟩
      (.fire .onDemand :: List.replicate 7 (.advance requestIDs calmReplies)) =
        some ⟨⟨s.nextRequestID.1.registerPending twoPending requestIDs s.nextRequestID.2 [] 0,
          (overtakenFire :: more) ++ [t]⟩, initial.sweep⟩ := by
    rw [← position] at registers ⊢
    exact run_solo registers
  have secondAlone : Runs.Along (step twoPending) IssuesAlone
      ⟨⟨s, overtakenFire :: more⟩, initial.sweep⟩
      (.fire .onDemand :: List.replicate 7 (.advance requestIDs calmReplies)) := by
    rw [← position]
    exact ⟨(fun none => nomatch none), along_solo (registering_empty empty _)⟩
  -- Both register.
  obtain ⟨t', overwrites⟩ := advances_overtaken
    (s.nextRequestID.1.registerPending twoPending requestIDs s.nextRequestID.2 [] 0)
  have third := @run_solo _ _ _ _ [] (more ++ [t]) _ _ initial.sweep _ overwrites
  have thirdAlone := @along_solo _ _ _ [] (more ++ [t]) _ initial.sweep _
    (overtaken_asks_nothing
      (s.nextRequestID.1.registerPending twoPending requestIDs s.nextRequestID.2 [] 0))
  refine ⟨⟨⟨InformState.registerPending twoPending
    (s.nextRequestID.1.registerPending twoPending requestIDs s.nextRequestID.2 [] 0) 0 1 [] 0,
      t' :: (more ++ [t])⟩, initial.sweep⟩, ?_, ?_, ?_⟩
  · rw [List.length_singleton, List.singleton_append] at lapse
    rw [overtaking, Runs.run_append, first, Option.bind_some, Runs.run_append, lapse,
      Option.bind_some, Runs.run_append, second, Option.bind_some]
    exact third
  · exact Runs.along_append firstAlone first (Runs.along_append lapseAlone lapse
      (Runs.along_append secondAlone second thirdAlone))
  · rw [again]
    obtain ⟨nextReqID, pending, order, originated, acked, failed, dropped, _, _, transmissions⟩ := s
    obtain ⟨-, rfl, rfl, rfl, rfl, rfl, rfl, -, -, rfl⟩ := fields
    exact ⟨rfl, rfl, rfl, rfl, rfl, rfl⟩

end InformSystem

end Nl6
