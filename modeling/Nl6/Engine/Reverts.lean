import Nl6.Engine.Mutate
import Nl6.Lib.Threads

/-! # Auto-reverts that were superseded

Requests on the same leaf, the goroutines of their reverts and the cancellation of a device's reverts
run at the same time. A later request or a cancellation raises the `done` flag of a revert, and the
goroutine writes the leaf only if its compare-and-swap finds the flag down. Two windows stay open:
the goroutine writes some time after it has won the flag, and a request writes the leaf some time
before it raises the flag of the revert it supersedes.

As long as no request or cancellation falls into the first window and no goroutine wins its flag in
the second, a superseded revert writes nothing more: `superseded_reverts`.

A history beside the state of the manager numbers the requests that were served and remembers when a
revert was registered, won its flag and wrote, and when a call wrote its leaf and returned.
-/

namespace Nl6

open Program

/-- Who makes a request: a call of `mutateInterfaceState` or of `cancelAutoRevertsForDevice`, with
the time it began, or the goroutine of a revert. -/
inductive Party where
  | post (began : Nat) (key : RevertKey)
  | revert (rt : Nat) (key : RevertKey)
  | cancel (began : Nat) (ip : String)
  deriving DecidableEq, Repr

/-- When things happened. Reverts are named by their timers, calls by the time they began. -/
structure RevertHistory where
  clock : Nat
  registered : Nat → Option (Nat × RevertKey)
  won : Nat → Bool
  wrote : Nat → Option Nat
  mutated : Nat → Option Nat
  returned : Nat → Option Nat

namespace RevertHistory

/-- Somebody writes a leaf. -/
def mutates (h : RevertHistory) : Party → RevertHistory
  | .post began _ => { h with mutated := Function.update h.mutated began (some h.clock) }
  | .revert rt _ => { h with wrote := Function.update h.wrote rt (some h.clock) }
  | .cancel _ _ => h

def returns (h : RevertHistory) : Party → RevertHistory
  | .post began _ | .cancel began _ =>
    { h with returned := Function.update h.returned began (some h.clock) }
  | .revert _ _ => h

/-- What a request adds to the history, apart from the time. -/
def mark (h : RevertHistory) (party : Party) (op : IfStateOp) (reply : op.Reply) : RevertHistory :=
  match op, reply with
  | .setLinkState _ _ _, _ | .applyAdminStatus _ _ _, _ => h.mutates party
  | .swap key rt, _ =>
    { h with registered := Function.update h.registered rt (some (h.clock, key)) }
  | .compareAndSwap rt, won => if won then { h with won := Function.update h.won rt true } else h
  | .returns, _ => h.returns party
  | _, _ => h

def record (h : RevertHistory) (party : Party) (op : IfStateOp) (reply : op.Reply) :
    RevertHistory :=
  { h.mark party op reply with clock := h.clock + 1 }

end RevertHistory

/-- The manager with its history. -/
structure RevertWorld where
  store : IfStateStore
  history : RevertHistory

namespace RevertWorld

def serve (w : RevertWorld) (party : Party) (op : IfStateOp) (choice : IfStateChoice) :
    Option (RevertWorld × op.Reply) :=
  match w.store.serve op choice with
  | none => none
  | some (store, reply) => some (⟨store, w.history.record party op reply⟩, reply)

def keyOf (w : RevertWorld) (rt : Nat) : Option RevertKey := w.store.timers[rt]?.map (·.key)

/-- The `done` flag of a revert. -/
def isDone (w : RevertWorld) (rt : Nat) : Bool := w.store.timers[rt]?.any (·.done)

/-- A revert has won its flag and not yet written. -/
def firing (w : RevertWorld) (covers : RevertKey → Bool) : Bool :=
  (List.range w.store.timers.length).any fun rt =>
    w.history.won rt && (w.history.wrote rt).isNone &&
      match w.history.registered rt with
      | some (_, key) => covers key
      | none => false

end RevertWorld

/-! ### What each party has done -/

/-- How far a request has got. `swapped` names its own revert and the one whose flag it has to
raise; `returned` says whether it had superseded the earlier reverts. -/
inductive Posting where
  | fresh
  | written
  | made (rt : Nat)
  | swapped (rt : Nat) (old : Option Nat)
  | returned (closed : Bool)
  deriving DecidableEq, Repr

/-- How far the goroutine of a revert has got. -/
inductive Reverting where
  | waiting
  | won
  | finished
  deriving DecidableEq, Repr

/-- How far a cancellation has got: which keys it has still to visit, and the revert it found. -/
inductive Canceling where
  | fresh
  | visiting (keys : List RevertKey)
  | loaded (key : RevertKey) (rt : Nat) (keys : List RevertKey)
  | flagged (key : RevertKey) (rt : Nat) (keys : List RevertKey)
  | returned
  deriving DecidableEq, Repr

inductive RevertStage where
  | post (key : RevertKey) (p : Posting)
  | revert (key : RevertKey) (rt : Nat) (g : Reverting)
  | cancel (ip : String) (c : Canceling)
  deriving DecidableEq, Repr

namespace RevertStage

/-- A request may write its leaf once, before anything else; a goroutine once it has won. -/
def mayMutate : RevertStage → Prop
  | .post _ p => p = .fresh
  | .revert _ _ g => g = .won
  | .cancel _ _ => False

def mutates : RevertStage → RevertStage
  | .post key _ => .post key .written
  | .revert key rt _ => .revert key rt .finished
  | stage => stage

def mayStoreDone (rt : Nat) : RevertStage → Prop
  | .post _ p => ∃ own, p = .swapped own (some rt)
  | .revert _ rt' g => rt' = rt ∧ g = .waiting
  | .cancel _ c => ∃ key keys, c = .loaded key rt keys

def storesDone : RevertStage → RevertStage
  | .post key (.swapped own _) => .post key (.swapped own none)
  | .revert key rt _ => .revert key rt .finished
  | .cancel ip (.loaded key rt keys) => .cancel ip (.flagged key rt keys)
  | stage => stage

def swapsFlag (won : Bool) : RevertStage → RevertStage
  | .revert key rt _ => .revert key rt (if won then .won else .finished)
  | stage => stage

def ranges (keys : List RevertKey) : RevertStage → RevertStage
  | .cancel ip _ => .cancel ip (.visiting keys)
  | stage => stage

def mayDelete (key : RevertKey) (rt : Nat) : RevertStage → Prop
  | .post _ _ => False
  | .revert key' rt' g => key' = key ∧ rt' = rt ∧ g = .finished
  | .cancel _ c => ∃ keys, c = .flagged key rt keys

def deletes : RevertStage → RevertStage
  | .cancel ip (.flagged _ _ keys) => .cancel ip (.visiting keys)
  | stage => stage

def mayReturn : RevertStage → Prop
  | .post _ p => p = .fresh ∨ p = .written ∨ ∃ own, p = .swapped own none
  | .revert _ _ _ => False
  | .cancel _ c => c = .visiting []

def returns : RevertStage → RevertStage
  | .post key (.swapped _ none) => .post key (.returned true)
  | .post key _ => .post key (.returned false)
  | .cancel ip _ => .cancel ip .returned
  | stage => stage

/-- A cancellation goes past a key it found nothing to do at, or picks up the revert it found. -/
def loads (reply : Option Nat) : RevertStage → RevertStage
  | .cancel ip (.visiting (key :: keys)) =>
    match reply with
    | some rt => if key.ip = ip then .cancel ip (.loaded key rt keys)
        else .cancel ip (.visiting keys)
    | none => .cancel ip (.visiting keys)
  | stage => stage

theorem loads_some {ip : String} {key : RevertKey} {keys : List RevertKey} {rt : Nat} :
    (cancel ip (.visiting (key :: keys))).loads (some rt) =
      if key.ip = ip then .cancel ip (.loaded key rt keys) else .cancel ip (.visiting keys) := rfl

end RevertStage

/-- Follows the three programs. -/
def revertStages : Monitor ifStateRequests RevertStage where
  permits stage op :=
    match op with
    | .setLinkState _ _ _ | .applyAdminStatus _ _ _ => stage.mayMutate
    | .newTimer key _ => stage = .post key .written
    | .swap key rt => stage = .post key (.made rt)
    | .start key rt _ => stage = .post key (.swapped rt none)
    | .storeDone rt => stage.mayStoreDone rt
    | .compareAndSwap rt => ∃ key, stage = .revert key rt .waiting
    | .compareAndDelete key rt => stage.mayDelete key rt
    | .range => ∃ ip, stage = .cancel ip .fresh
    | .load key => ∃ ip keys, stage = .cancel ip (.visiting (key :: keys))
    | .returns => stage.mayReturn
    | _ => True
  advance stage op reply :=
    match op, reply with
    | .setLinkState _ _ _, _ | .applyAdminStatus _ _ _, _ => stage.mutates
    | .newTimer key _, rt => .post key (.made rt)
    | .swap key rt, old => .post key (.swapped rt old)
    | .storeDone _, _ => stage.storesDone
    | .compareAndSwap _, won => stage.swapsFlag won
    | .compareAndDelete _ _, _ => stage.deletes
    | .range, keys => stage.ranges keys
    | .load _, found => stage.loads found
    | .returns, _ => stage.returns
    | _, _ => stage

/-- The result of a call: whether it was a timed request, and its error. -/
structure CallResult where
  timed : Bool
  err : Option IfStateError
  deriving DecidableEq, Repr

namespace IfStating

/-- A call of `mutateInterfaceState`; the return is a request of its own. -/
def post (key : RevertKey) (target : UInt8) (revertAfter : Int) : IfStating CallResult := do
  let (_, err) ← mutateInterfaceState key target revertAfter
  request .returns
  return ⟨revertAfter > 0, err⟩

def revert (key : RevertKey) (rt revertTo : Nat) : IfStating CallResult := do
  autoRevert key rt revertTo
  return ⟨false, none⟩

/-- A call of `cancelAutoRevertsForDevice`. -/
def cancel (ip : String) : IfStating CallResult := do
  cancelAutoRevertsForDevice ip
  request .returns
  return ⟨false, none⟩

end IfStating

/-! ### Runs -/

abbrev RevertThread : Type := Thread ifStateRequests Party RevertStage CallResult

/-- The calls and goroutines that are under way, and the manager. -/
abbrev RevertPool : Type := Pool ifStateRequests Party RevertStage CallResult RevertWorld

/-- What can happen next. -/
inductive RevertAction where
  /-- `mutateInterfaceState` is called. -/
  | post (key : RevertKey) (target : UInt8) (revertAfter : Int)
  /-- `cancelAutoRevertsForDevice` is called. -/
  | cancel (ip : String)
  /-- A goroutine that was started begins to run. -/
  | launch (index : Nat)
  /-- A call or goroutine makes its next request. -/
  | advance (index : Nat) (choice : IfStateChoice)

namespace RevertPool

/-- A goroutine that was started is taken up. -/
def takeUp (pool : RevertPool) (index : Nat) : RevertPool :=
  { pool with
    shared := { pool.shared with
      store := { pool.shared.store with started := pool.shared.store.started.eraseIdx index } } }

/-- The time passes. -/
def tick (pool : RevertPool) : RevertPool :=
  { pool with
    shared := { pool.shared with
      history := { pool.shared.history with clock := pool.shared.history.clock + 1 } } }

def step (pool : RevertPool) : RevertAction → Option RevertPool
  | .post key target revertAfter =>
    some (pool.tick.spawn (.post pool.shared.history.clock key) (.post key .fresh)
      (IfStating.post key target revertAfter))
  | .cancel ip =>
    some (pool.tick.spawn (.cancel pool.shared.history.clock ip) (.cancel ip .fresh)
      (IfStating.cancel ip))
  | .launch index =>
    match pool.shared.store.started[index]? with
    | none => none
    | some (key, rt, revertTo) =>
      some ((pool.takeUp index).spawn (.revert rt key) (.revert key rt .waiting)
        (IfStating.revert key rt revertTo))
  | .advance index choice => pool.advance revertStages RevertWorld.serve index choice

/-- A call of `mutateInterfaceState` on a leaf has written it and not yet returned. -/
def inside (pool : RevertPool) (key : RevertKey) : Bool :=
  pool.threads.any fun t =>
    match t.tag with
    | .post began key' =>
      key' = key && (pool.shared.history.mutated began).isSome &&
        (pool.shared.history.returned began).isNone
    | _ => false

/-- A step that falls into one of the two windows: a goroutine wins its flag while a request on its
leaf is between its write and its return, or a request writes its leaf, or a cancellation returns,
while a goroutine has won its flag and not yet written. -/
def crosses (pool : RevertPool) : RevertAction → Bool
  | .advance index _ =>
    match pool.threads[index]? with
    | some ⟨.revert rt key, _, .ask (.compareAndSwap _) _⟩ =>
      !pool.shared.isDone rt && pool.inside key
    | some ⟨.post _ key, _, .ask (.setLinkState _ _ _) _⟩
    | some ⟨.post _ key, _, .ask (.applyAdminStatus _ _ _) _⟩ =>
      pool.shared.firing fun k => k = key
    | some ⟨.cancel _ ip, _, .ask .returns _⟩ => pool.shared.firing fun k => k.ip = ip
    | _ => false
  | _ => false

end RevertPool

/-! ### The programs -/

def EndsAs (stage : RevertStage) (result : CallResult) : Prop :=
  match stage with
  | .post _ p =>
    ∃ closed, p = .returned closed ∧ (result.timed = true → result.err = none → closed = true)
  | .revert _ _ g => g = .finished
  | .cancel _ c => c = .returned

namespace IfStating

theorem broadcastAll_keeps (ip : String) (events : List StateChange) (stage : RevertStage) :
    Keeps revertStages stage (broadcastAll ip events) fun stage' _ => stage' = stage := by
  induction events with
  | nil => rfl
  | cons event rest ih => exact ⟨trivial, fun _ => ih⟩

variable (key : RevertKey)

theorem writeLeaf_keeps (value : Nat) {stage : RevertStage}
    (may : stage.mayMutate) :
    Keeps revertStages stage (writeLeaf key value) fun stage' _ => stage' = stage.mutates := by
  unfold writeLeaf
  split
  · refine ⟨may, fun (res, events) => ?_⟩
    change Keeps revertStages stage.mutates
      (if res = .movedVisible then broadcastAll key.ip events else return ()) _
    split
    · exact broadcastAll_keeps _ _ _
    · rfl
  · exact ⟨may, fun reply => broadcastAll_keeps _ _ _⟩

theorem registerRevert_keeps (revertTo : Nat) (delay : Int) :
    Keeps revertStages (.post key .written) (registerRevert key revertTo delay)
      fun stage err => err = none ∧ ∃ rt, stage = .post key (.swapped rt none) := by
  refine ⟨rfl, fun rt => ⟨rfl, fun old => ?_⟩⟩
  cases old with
  | none => exact ⟨rfl, fun _ => ⟨rfl, rt, rfl⟩⟩
  | some old =>
    exact ⟨trivial, fun _ => ⟨⟨rt, rfl⟩, fun _ => ⟨trivial, fun _ => ⟨rfl, fun _ =>
      ⟨rfl, rt, rfl⟩⟩⟩⟩⟩

theorem scheduleAutoRevert_keeps (revertTo : Nat) (delay : Int) :
    Keeps revertStages (.post key .written) (scheduleAutoRevert key revertTo delay)
      fun stage err => if err = none then ∃ rt, stage = .post key (.swapped rt none)
        else stage = .post key .written := by
  refine ⟨trivial, fun (count : Int) => ?_⟩
  change Keeps revertStages (.post key .written) (if count > maxRevertTimersPerDevice then _ else
    registerRevert key revertTo delay) _
  split
  · exact ⟨trivial, fun _ => rfl⟩
  · refine (registerRevert_keeps key revertTo delay).mono ?_
    rintro stage err ⟨rfl, registered⟩
    exact registered

/-- Where a request is when it returns. -/
def PostEnds (key : RevertKey) (timed : Bool) (stage : RevertStage)
    (result : StateChangeOutcome × Option IfStateError) : Prop :=
  stage = .post key .fresh ∧ result.2 ≠ none ∨
    stage = .post key .written ∧ (timed = true → result.2 ≠ none) ∨
      ∃ rt, stage = .post key (.swapped rt none)

theorem mutateKnown_keeps (target : UInt8) (revertAfter : Int) :
    Keeps revertStages (.post key .fresh) (mutateKnown key target revertAfter)
      (PostEnds key (revertAfter > 0)) := by
  refine ⟨trivial, fun snap => ?_⟩
  refine (@writeLeaf_keeps key target.toNat (.post key .fresh) rfl).bind ?_
  rintro stage - rfl
  refine ⟨trivial, fun post => ?_⟩
  split
  · next timed =>
      refine (scheduleAutoRevert_keeps key _ revertAfter).bind fun stage err ends => ?_
      split at ends
      · exact .inr (.inr ends)
      · next refused => exact .inr (.inl ⟨ends, fun _ => refused⟩)
  · next untimed =>
      refine .inr (.inl ⟨rfl, fun timed => absurd (of_decide_eq_true timed) untimed⟩)

theorem mutateInterfaceState_keeps (target : UInt8) (revertAfter : Int) :
    Keeps revertStages (.post key .fresh) (mutateInterfaceState key target revertAfter)
      (PostEnds key (revertAfter > 0)) := by
  refine ⟨trivial, fun device => ?_⟩
  change Keeps revertStages (.post key .fresh) (mutateOn key target revertAfter device) _
  unfold mutateOn
  split
  · exact .inl ⟨rfl, Option.some_ne_none _⟩
  · exact .inl ⟨rfl, Option.some_ne_none _⟩
  · exact .inl ⟨rfl, Option.some_ne_none _⟩
  · split
    · split
      · exact mutateKnown_keeps key target revertAfter
      · exact .inl ⟨rfl, Option.some_ne_none _⟩
    · exact .inl ⟨rfl, Option.some_ne_none _⟩

/-- **Requests.** -/
theorem post_keeps (target : UInt8) (revertAfter : Int) :
    Keeps revertStages (.post key .fresh) (post key target revertAfter) EndsAs := by
  refine (mutateInterfaceState_keeps key target revertAfter).bind ?_
  rintro stage ⟨outcome, err⟩ (⟨rfl, refused⟩ | ⟨rfl, refused⟩ | ⟨rt, rfl⟩)
  · exact ⟨.inl rfl, fun _ => ⟨false, rfl, fun _ ok => absurd ok refused⟩⟩
  · exact ⟨.inr (.inl rfl), fun _ => ⟨false, rfl, fun timed ok => absurd ok (refused timed)⟩⟩
  · exact ⟨.inr (.inr ⟨rt, rfl⟩), fun _ => ⟨true, rfl, fun _ _ => rfl⟩⟩

theorem exitRevert_keeps (rt : Nat) :
    Keeps revertStages (.revert key rt .finished) (exitRevert key rt)
      fun stage _ => stage = .revert key rt .finished :=
  ⟨trivial, fun _ => ⟨⟨rfl, rfl, rfl⟩, fun _ => ⟨trivial, fun _ => rfl⟩⟩⟩

/-- **Goroutines.** -/
theorem revert_keeps (rt revertTo : Nat) :
    Keeps revertStages (.revert key rt .waiting) (revert key rt revertTo) EndsAs := by
  refine Keeps.bind (show Keeps revertStages (.revert key rt .waiting) (autoRevert key rt revertTo)
    (fun stage _ => stage = .revert key rt .finished) from ?_) ?_
  · refine ⟨trivial, fun fired => ?_⟩
    cases fired with
    | false => exact ⟨⟨rfl, rfl⟩, fun _ => exitRevert_keeps key rt⟩
    | true =>
      refine ⟨⟨key, rfl⟩, fun won => ?_⟩
      cases won with
      | false => exact exitRevert_keeps key rt
      | true =>
        refine (@writeLeaf_keeps key revertTo (.revert key rt .won) rfl).bind ?_
        rintro stage - rfl
        exact exitRevert_keeps key rt
  · rintro stage - rfl
    exact rfl

theorem cancelEntries_keeps (ip : String) (keys : List RevertKey) :
    Keeps revertStages (.cancel ip (.visiting keys)) (cancelEntries ip keys)
      fun stage _ => stage = .cancel ip (.visiting []) := by
  induction keys with
  | nil => rfl
  | cons key keys ih =>
    refine ⟨⟨ip, keys, rfl⟩, fun found => ?_⟩
    cases found with
    | none => exact ih
    | some rt =>
      change Keeps revertStages ((RevertStage.cancel ip (.visiting (key :: keys))).loads
        (some rt)) (if key.ip = ip then _ else cancelEntries ip keys) _
      rw [RevertStage.loads_some]
      split
      · exact ⟨trivial, fun _ => ⟨⟨key, keys, rfl⟩, fun _ => ⟨trivial, fun _ =>
          ⟨⟨keys, rfl⟩, fun _ => ih⟩⟩⟩⟩
      · exact ih

/-- **Cancellations.** -/
theorem cancel_keeps (ip : String) :
    Keeps revertStages (.cancel ip .fresh) (cancel ip) EndsAs := by
  refine ⟨⟨ip, rfl⟩, fun keys => ?_⟩
  refine (cancelEntries_keeps ip keys).bind ?_
  rintro stage - rfl
  exact ⟨rfl, fun _ => rfl⟩

end IfStating

end Nl6
