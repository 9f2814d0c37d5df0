import Nl6.Engine.Reverts

/-! # Why a superseded revert writes nothing more

A call that has superseded the earlier reverts of a leaf leaves a trace in the map: whatever the map
holds for the leaf from then on was registered after the call began (`RevertWorld.Renewed`). A revert
whose flag is still down is in the map, or a request has taken its place and is about to raise the
flag (`RevertPool.Sound.pending`). So a goroutine that wins its flag was registered after every call
that has returned, unless it wins in the window of a request.

`RevertWorld.Fits` says this for each call and goroutine, by how far it has got, and `Later` says
what the requests of one of them may change for the others.
-/

namespace Nl6

open Program

namespace RevertWorld

/-- A revert was registered for a leaf. -/
def Holds (w : RevertWorld) (rt : Nat) (key : RevertKey) : Prop :=
  ∃ r, w.history.registered rt = some (r, key)

/-- The reverts that were registered before a call began and have won their flag have written before
a given time. -/
def Quiet (w : RevertWorld) (covers : RevertKey → Prop) (began bound : Nat) : Prop :=
  ∀ rt r key, w.history.registered rt = some (r, key) → covers key → r < began →
    w.history.won rt = true → ∃ x, w.history.wrote rt = some x ∧ x < bound

/-- The reverts in the map were registered after a call began. -/
def Renewed (w : RevertWorld) (covers : RevertKey → Prop) (began : Nat) : Prop :=
  ∀ key rt, covers key → w.store.entries key = some rt →
    ∃ r, w.history.registered rt = some (r, key) ∧ began < r

/-- The same of a single leaf, apart from one revert. -/
def Replaced (w : RevertWorld) (began : Nat) (key : RevertKey) (rt : Nat) : Prop :=
  ∀ rt', w.store.entries key = some rt' →
    rt' = rt ∨ ∃ r, w.history.registered rt' = some (r, key) ∧ began < r

/-- A request has written its leaf, and no earlier revert has written since. -/
def Wrote (w : RevertWorld) (began : Nat) (key : RevertKey) : Prop :=
  w.history.returned began = none ∧
    ∃ m, w.history.mutated began = some m ∧ w.Quiet (· = key) began m

def PostFits (w : RevertWorld) (began : Nat) (key : RevertKey) : Posting → Prop
  | .fresh => w.history.mutated began = none ∧ w.history.returned began = none
  | .written => w.Wrote began key
  | .made rt => w.Wrote began key ∧ w.history.registered rt = none ∧ w.keyOf rt = some key
  | .swapped rt old =>
    w.Wrote began key ∧ w.Renewed (· = key) began ∧ w.Holds rt key ∧
      ∀ o, old = some o → w.Holds o key
  | .returned closed => closed = true →
      (∃ m, w.history.mutated began = some m ∧ w.Quiet (· = key) began m) ∧
        w.Renewed (· = key) began

def RevertFits (w : RevertWorld) (rt : Nat) : Reverting → Prop
  | .waiting => True
  | .won => w.history.won rt = true ∧ w.history.wrote rt = none
  | .finished => w.isDone rt = true

def CancelFits (w : RevertWorld) (began : Nat) (ip : String) : Canceling → Prop
  | .fresh => True
  | .visiting keys => w.Renewed (fun k => k.ip = ip ∧ k ∉ keys) began
  | .loaded key rt keys =>
    w.Renewed (fun k => k.ip = ip ∧ k ∉ key :: keys) began ∧ w.Holds rt key ∧
      w.Replaced began key rt
  | .flagged key rt keys =>
    w.Renewed (fun k => k.ip = ip ∧ k ∉ key :: keys) began ∧ w.Holds rt key ∧
      w.Replaced began key rt ∧ w.isDone rt = true
  | .returned =>
    (∃ e, w.history.returned began = some e ∧ w.Quiet (fun k => k.ip = ip) began e) ∧
      w.Renewed (fun k => k.ip = ip) began

/-- What holds of a call or goroutine, by how far it has got. -/
def Fits (w : RevertWorld) : Party → RevertStage → Prop
  | .post began key, .post key' p => key' = key ∧ began < w.history.clock ∧ w.PostFits began key p
  | .revert rt key, .revert key' rt' g => key' = key ∧ rt' = rt ∧ w.Holds rt key ∧ w.RevertFits rt g
  | .cancel began ip, .cancel ip' c => ip' = ip ∧ began < w.history.clock ∧ w.CancelFits began ip c
  | _, _ => False

end RevertWorld

/-! ### Tokens -/

/-- What only one call or goroutine has: its own number, a revert it has made and not yet
registered, and the right to write that comes with a flag it has won. -/
inductive RevertToken where
  | call (began : Nat)
  | make (rt : Nat)
  | fire (rt : Nat)
  deriving DecidableEq, Repr

def Party.tokens : Party → List RevertToken
  | .post began _ | .cancel began _ => [.call began]
  | .revert _ _ => []

def RevertStage.tokens : RevertStage → List RevertToken
  | .post _ (.made rt) => [.make rt]
  | .revert _ rt .won => [.fire rt]
  | _ => []

def RevertThread.tokens (t : RevertThread) : List RevertToken := t.seen.tokens ++ t.tag.tokens

/-- A request is about to raise the flag of a revert it has taken the place of. -/
def RevertStage.Raises (key : RevertKey) (rt : Nat) (stage : RevertStage) : Prop :=
  ∃ own, stage = .post key (.swapped own (some rt))

variable {key : RevertKey} {rt : Nat}

@[simp] theorem RevertStage.raises_post {key' : RevertKey} {p : Posting} :
    (RevertStage.post key' p).Raises key rt ↔ key' = key ∧ ∃ own, p = .swapped own (some rt) := by
  simp [RevertStage.Raises]

@[simp] theorem RevertStage.raises_revert {key' : RevertKey} {i : Nat} {g : Reverting} :
    ¬ (RevertStage.revert key' i g).Raises key rt := by
  simp [RevertStage.Raises]

@[simp] theorem RevertStage.raises_cancel {ip : String} {c : Canceling} :
    ¬ (RevertStage.cancel ip c).Raises key rt := by
  simp [RevertStage.Raises]

/-- The leaves whose earlier reverts a call has an eye on. -/
def RevertStage.Watches (covers : RevertKey → Prop) : RevertStage → Prop
  | .post key p => covers = (· = key) ∧ p ≠ .fresh ∧ p ≠ .returned false
  | .revert _ _ _ => False
  | .cancel ip c => covers = (fun k => k.ip = ip) ∧ c = .returned

namespace RevertWorld

/-! ### What a request may change for the others -/

variable {w w' : RevertWorld} {covers : RevertKey → Prop} {began bound : Nat} {rt : Nat}
  {key : RevertKey} {party : Party} {stage : RevertStage} {p : Posting}

/-- What every request leaves in place. -/
structure Later (w w' : RevertWorld) : Prop where
  clock : w'.history.clock = w.history.clock + 1
  keyOf : ∀ rt key, w.keyOf rt = some key → w'.keyOf rt = some key
  isDone : ∀ rt, w.isDone rt = true → w'.isDone rt = true
  kept : ∀ rt x, w.history.registered rt = some x → w'.history.registered rt = some x
  new : ∀ rt x, w'.history.registered rt = some x →
    w.history.registered rt = some x ∨ x.1 = w.history.clock
  won : ∀ rt, w.history.won rt = true → w'.history.won rt = true
  entries : ∀ key rt, w'.store.entries key = some rt → w.store.entries key = some rt ∨
    w'.history.registered rt = some (w.history.clock, key)

theorem Holds.later (holds : w.Holds rt key) (later : Later w w') : w'.Holds rt key := by
  obtain ⟨r, registered⟩ := holds
  exact ⟨r, later.kept rt _ registered⟩

theorem Renewed.later (renewed : w.Renewed covers began) (later : Later w w')
    (earlier : began < w.history.clock) : w'.Renewed covers began := by
  intro key rt covered entry
  rcases later.entries key rt entry with old | new
  · obtain ⟨r, registered, after⟩ := renewed key rt covered old
    exact ⟨r, later.kept rt _ registered, after⟩
  · exact ⟨_, new, earlier⟩

theorem Replaced.later (replaced : w.Replaced began key rt) (later : Later w w')
    (earlier : began < w.history.clock) : w'.Replaced began key rt := by
  intro rt' entry
  rcases later.entries key rt' entry with old | new
  · rcases replaced rt' old with same | ⟨r, registered, after⟩
    · exact .inl same
    · exact .inr ⟨r, later.kept rt' _ registered, after⟩
  · exact .inr ⟨_, new, earlier⟩

/-- Nobody wins a flag and nobody writes. -/
theorem Quiet.later (quiet : w.Quiet covers began bound) (later : Later w w')
    (won : w'.history.won = w.history.won) (wrote : w'.history.wrote = w.history.wrote)
    (earlier : began < w.history.clock) : w'.Quiet covers began bound := by
  intro rt r key registered covered before wins
  rw [won] at wins
  rw [wrote]
  rcases later.new rt _ registered with old | new
  · exact quiet rt r key old covered before wins
  · simp only at new
    omega

/-- A change that leaves alone what a call or goroutine relies on. -/
structure Spares (w w' : RevertWorld) (party : Party) (stage : RevertStage) : Prop
    extends Later w w' where
  calls : ∀ began, RevertToken.call began ∈ party.tokens →
    w'.history.mutated began = w.history.mutated began ∧
      w'.history.returned began = w.history.returned began
  makes : ∀ rt, RevertToken.make rt ∈ stage.tokens → w.history.registered rt = none →
    w'.history.registered rt = none
  fires : ∀ rt, RevertToken.fire rt ∈ stage.tokens → w.history.wrote rt = none →
    w'.history.wrote rt = none
  quiet : ∀ began covers bound, RevertToken.call began ∈ party.tokens →
    began < w.history.clock → stage.Watches covers → w.Quiet covers began bound →
      w'.Quiet covers began bound

/-- A request at which nobody wins a flag, writes a leaf or returns. -/
structure Calm (w w' : RevertWorld) : Prop extends Later w w' where
  sameWon : w'.history.won = w.history.won
  wrote : w'.history.wrote = w.history.wrote
  mutated : w'.history.mutated = w.history.mutated
  returned : w'.history.returned = w.history.returned

theorem Calm.spares (calm : Calm w w')
    (makes : ∀ rt, RevertToken.make rt ∈ stage.tokens → w.history.registered rt = none →
      w'.history.registered rt = none) : Spares w w' party stage where
  toLater := calm.toLater
  calls := by simp [calm.mutated, calm.returned]
  makes := makes
  fires := by simp [calm.wrote]
  quiet _ _ _ _ earlier _ quiet := quiet.later calm.toLater calm.sameWon calm.wrote earlier

theorem Wrote.calm (written : w.Wrote began key) (calm : Calm w w')
    (earlier : began < w.history.clock) : w'.Wrote began key := by
  obtain ⟨under, m, mutated, quiet⟩ := written
  rw [Wrote, calm.mutated, calm.returned]
  exact ⟨under, m, mutated, quiet.later calm.toLater calm.sameWon calm.wrote earlier⟩

theorem Wrote.spared (wrote : w.Wrote began key)
    (spares : Spares w w' (.post began key) (.post key p)) (earlier : began < w.history.clock)
    (watches : (RevertStage.post key p).Watches (· = key)) : w'.Wrote began key := by
  obtain ⟨under, m, mutated, quiet⟩ := wrote
  obtain ⟨sameMutated, sameReturned⟩ := spares.calls began List.mem_cons_self
  refine ⟨sameReturned.trans under, m, sameMutated.trans mutated, ?_⟩
  exact spares.quiet _ _ _ List.mem_cons_self earlier watches quiet

theorem PostFits.spared (fits : w.PostFits began key p)
    (spares : Spares w w' (.post began key) (.post key p)) (earlier : began < w.history.clock) :
    w'.PostFits began key p := by
  obtain ⟨sameMutated, sameReturned⟩ := spares.calls began List.mem_cons_self
  cases p with
  | fresh => exact ⟨sameMutated.trans fits.1, sameReturned.trans fits.2⟩
  | written => exact Wrote.spared fits spares earlier ⟨rfl, nofun, nofun⟩
  | made rt =>
    obtain ⟨wrote, unregistered, key⟩ := fits
    exact ⟨wrote.spared spares earlier ⟨rfl, nofun, nofun⟩,
      spares.makes rt (List.mem_singleton_self _) unregistered, spares.keyOf rt _ key⟩
  | swapped rt old =>
    obtain ⟨wrote, renewed, own, earlierOne⟩ := fits
    exact ⟨wrote.spared spares earlier ⟨rfl, nofun, nofun⟩,
      renewed.later spares.toLater earlier, own.later spares.toLater,
      fun o is => (earlierOne o is).later spares.toLater⟩
  | returned closed =>
    intro is
    obtain ⟨⟨m, mutated, quiet⟩, renewed⟩ := fits is
    refine ⟨⟨m, sameMutated.trans mutated, ?_⟩, renewed.later spares.toLater earlier⟩
    exact spares.quiet _ _ _ List.mem_cons_self earlier ⟨rfl, nofun, by rw [is]; nofun⟩ quiet

theorem RevertFits.spared {g : Reverting} (fits : w.RevertFits rt g)
    (spares : Spares w w' (.revert rt key) (.revert key rt g)) : w'.RevertFits rt g := by
  cases g with
  | waiting => trivial
  | won =>
    exact ⟨spares.won rt fits.1, spares.fires rt (List.mem_singleton_self _) fits.2⟩
  | finished => exact spares.isDone rt fits

theorem CancelFits.spared {ip : String} {c : Canceling} (fits : w.CancelFits began ip c)
    (spares : Spares w w' (.cancel began ip) (.cancel ip c)) (earlier : began < w.history.clock) :
    w'.CancelFits began ip c := by
  have later := spares.toLater
  cases c with
  | fresh => trivial
  | visiting keys => exact Renewed.later fits later earlier
  | loaded key rt keys =>
    obtain ⟨renewed, holds, replaced⟩ := fits
    exact ⟨renewed.later later earlier, holds.later later, replaced.later later earlier⟩
  | flagged key rt keys =>
    obtain ⟨renewed, holds, replaced, done⟩ := fits
    exact ⟨renewed.later later earlier, holds.later later, replaced.later later earlier,
      later.isDone rt done⟩
  | returned =>
    obtain ⟨⟨e, returned, quiet⟩, renewed⟩ := fits
    obtain ⟨-, sameReturned⟩ := spares.calls began List.mem_cons_self
    refine ⟨⟨e, sameReturned.trans returned, ?_⟩, renewed.later later earlier⟩
    exact spares.quiet _ _ _ List.mem_cons_self earlier ⟨rfl, rfl⟩ quiet

/-- **The others.** -/
theorem Fits.spared (fits : w.Fits party stage) (spares : Spares w w' party stage) :
    w'.Fits party stage := by
  have clock := spares.clock
  match party, stage, fits, spares with
  | .post began key, .post key' p, ⟨same, earlier, fits⟩, spares =>
    subst same
    exact ⟨rfl, by omega, fits.spared spares earlier⟩
  | .revert rt key, .revert key' rt' g, ⟨same, same', holds, fits⟩, spares =>
    subst same same'
    exact ⟨rfl, rfl, holds.later spares.toLater, fits.spared spares⟩
  | .cancel began ip, .cancel ip' c, ⟨same, earlier, fits⟩, spares =>
    subst same
    exact ⟨rfl, by omega, fits.spared spares earlier⟩

theorem Fits.post (fits : w.Fits party (.post key p)) :
    ∃ began, party = .post began key ∧ began < w.history.clock ∧ w.PostFits began key p := by
  cases party with
  | post began key' =>
    obtain ⟨rfl, earlier, fits⟩ := fits
    exact ⟨began, rfl, earlier, fits⟩
  | revert => exact fits.elim
  | cancel => exact fits.elim

theorem Fits.revert {g : Reverting} (fits : w.Fits party (.revert key rt g)) :
    party = .revert rt key ∧ w.Holds rt key ∧ w.RevertFits rt g := by
  cases party with
  | post => exact fits.elim
  | revert rt' key' =>
    obtain ⟨rfl, rfl, holds, fits⟩ := fits
    exact ⟨rfl, holds, fits⟩
  | cancel => exact fits.elim

theorem Fits.cancel {ip : String} {c : Canceling} (fits : w.Fits party (.cancel ip c)) :
    ∃ began, party = .cancel began ip ∧ began < w.history.clock ∧ w.CancelFits began ip c := by
  cases party with
  | post => exact fits.elim
  | revert => exact fits.elim
  | cancel began ip' =>
    obtain ⟨rfl, earlier, fits⟩ := fits
    exact ⟨began, rfl, earlier, fits⟩

/-! ### The manager -/

/-- What holds of the manager and its history. -/
structure Sound (w : RevertWorld) : Prop where
  entries : ∀ key rt, w.store.entries key = some rt → w.keyOf rt = some key ∧ w.Holds rt key
  done : ∀ rt, w.history.won rt = true → w.isDone rt = true
  past : ∀ rt x, w.history.wrote rt = some x →
    w.history.won rt = true ∧ x < w.history.clock
  dated : ∀ rt x, w.history.registered rt = some x →
    x.1 < w.history.clock ∧ rt < w.store.timers.length
  started : ∀ e ∈ w.store.started, w.Holds e.2.1 e.1
  future : ∀ b, w.history.clock ≤ b → w.history.mutated b = none ∧ w.history.returned b = none

/-- A request that changes nothing of interest. -/
structure Same (w w' : RevertWorld) : Prop where
  entries : w'.store.entries = w.store.entries
  started : ∀ e ∈ w'.store.started, e ∈ w.store.started ∨ w.Holds e.2.1 e.1
  timers : w'.store.timers.length = w.store.timers.length
  keyOf : w'.keyOf = w.keyOf
  isDone : ∀ rt, w.isDone rt = true → w'.isDone rt = true
  history : w'.history = { w.history with clock := w.history.clock + 1 }

theorem Same.later (same : Same w w') : Later w w' where
  clock := by rw [same.history]
  keyOf := by simp [same.keyOf]
  isDone := same.isDone
  kept := by simp [same.history]
  new := by
    intro rt x registered
    rw [same.history] at registered
    exact .inl registered
  won := by simp [same.history]
  entries := by
    intro key rt entry
    rw [same.entries] at entry
    exact .inl entry

theorem Same.calm (same : Same w w') : Calm w w' where
  toLater := same.later
  sameWon := by rw [same.history]
  wrote := by rw [same.history]
  mutated := by rw [same.history]
  returned := by rw [same.history]

theorem Same.spares (same : Same w w') (party : Party) (stage : RevertStage) :
    Spares w w' party stage :=
  same.calm.spares fun _ _ unregistered => by rw [same.history]; exact unregistered

/-- The manager stays sound when reverts and entries are added. -/
theorem Sound.calm (sound : w.Sound) (calm : Calm w w')
    (entries : ∀ key rt, w'.store.entries key = some rt →
      w.store.entries key = some rt ∨ w'.keyOf rt = some key ∧ w'.Holds rt key)
    (started : ∀ e ∈ w'.store.started, e ∈ w.store.started ∨ w.Holds e.2.1 e.1)
    (placed : ∀ rt x, w'.history.registered rt = some x → rt < w'.store.timers.length) :
    w'.Sound where
  entries := by
    intro key rt entry
    rcases entries key rt entry with old | new
    · obtain ⟨keyed, holds⟩ := sound.entries key rt old
      exact ⟨calm.keyOf rt key keyed, holds.later calm.toLater⟩
    · exact new
  done := by
    intro rt won
    rw [calm.sameWon] at won
    exact calm.isDone rt (sound.done rt won)
  past := by
    intro rt x wrote
    rw [calm.wrote] at wrote
    rw [calm.sameWon, calm.clock]
    exact ⟨(sound.past rt x wrote).1, Nat.lt_succ_of_lt (sound.past rt x wrote).2⟩
  dated := by
    intro rt x registered
    refine ⟨?_, placed rt x registered⟩
    rw [calm.clock]
    rcases calm.new rt x registered with old | new
    · exact Nat.lt_succ_of_lt (sound.dated rt x old).1
    · rw [new]
      exact Nat.lt_succ_self _
  started := by
    intro e mem
    rcases started e mem with old | new
    · exact (sound.started e old).later calm.toLater
    · exact new.later calm.toLater
  future := by
    intro b after
    rw [calm.clock] at after
    rw [calm.mutated, calm.returned]
    exact sound.future b (Nat.le_of_succ_le after)

theorem Sound.same (sound : w.Sound) (same : Same w w') : w'.Sound := by
  refine sound.calm same.calm (by rw [same.entries]; exact fun _ _ => .inl) same.started ?_
  intro rt x registered
  rw [same.history] at registered
  rw [same.timers]
  exact (sound.dated rt x registered).2

end RevertWorld

/-- The requests that change nothing of interest, whoever makes them. -/
def IfStateOp.isIdle : IfStateOp → Bool
  | .findDevice _ | .snapshot _ _ | .broadcast _ _ | .addCount _ _ | .stopTimer _ | .closeStop _
  | .select _ | .finish _ | .range | .load _ => true
  | _ => false

/-- The requests that write a leaf. -/
def IfStateOp.isWrite : IfStateOp → Bool
  | .setLinkState _ _ _ | .applyAdminStatus _ _ _ => true
  | _ => false

namespace RevertWorld

variable {w w' : RevertWorld} {party : Party} {choice : IfStateChoice}
  {change : RevertTimer → RevertTimer} {op : IfStateOp} {rt : Nat} {reply : Unit} {key : RevertKey}

theorem map_modify {β : Type} {f : RevertTimer → β} (same : ∀ t, f (change t) = f t)
    (timers : List RevertTimer) (rt i : Nat) :
    (timers.modify rt change)[i]?.map f = timers[i]?.map f := by
  rw [List.getElem?_modify]
  cases timers[i]? with
  | none => rfl
  | some t => by_cases here : rt = i <;> simp [here, same]

theorem any_modify (kept : ∀ t, t.done = true → (change t).done = true) (timers : List RevertTimer)
    (rt i : Nat) (up : timers[i]?.any (·.done) = true) :
    (timers.modify rt change)[i]?.any (·.done) = true := by
  rw [List.getElem?_modify]
  cases here : timers[i]? with
  | none =>
    rw [here] at up
    exact nomatch up
  | some t =>
    rw [here] at up
    split_ifs
    · exact kept t up
    · exact up

theorem serve_eq {reply : op.Reply} (served : w.serve party op choice = some (w', reply)) :
    w.store.serve op choice = some (w'.store, reply) ∧
      w'.history = w.history.record party op reply := by
  unfold serve at served
  split at served
  · exact nomatch served
  · next store reply' inner =>
      cases served
      exact ⟨inner, rfl⟩

theorem same_of_timers {store : IfStateStore}
    (entries : store.entries = w.store.entries)
    (started : store.started = w.store.started)
    (length : store.timers.length = w.store.timers.length)
    (keys : ∀ i : Nat, store.timers[i]?.map (·.key) = w.store.timers[i]?.map (·.key))
    (flags : ∀ i : Nat, w.store.timers[i]?.any (·.done) = true →
      store.timers[i]?.any (·.done) = true) :
    Same w ⟨store, { w.history with clock := w.history.clock + 1 }⟩ where
  entries := entries
  started := fun _ mem => .inl (started ▸ mem)
  timers := length
  keyOf := funext keys
  isDone := flags
  history := rfl

theorem same_onTimer (rt : Nat) (keys : ∀ t, (change t).key = t.key)
    (flags : ∀ t, t.done = true → (change t).done = true) :
    Same w ⟨w.store.onTimer rt change, { w.history with clock := w.history.clock + 1 }⟩ :=
  same_of_timers rfl rfl (List.length_modify _ _ _) (map_modify keys _ rt) (any_modify flags _ rt)

theorem serve_idle {reply : op.Reply} (idle : op.isIdle = true)
    (served : w.serve party op choice = some (w', reply)) : Same w w' := by
  obtain ⟨inner, history⟩ := serve_eq served
  have timed : w.history.record party op reply =
      { w.history with clock := w.history.clock + 1 } := by
    cases op <;> first | rfl | exact nomatch idle
  obtain ⟨store, history'⟩ := w'
  simp only at inner history
  subst history
  rw [timed]
  have refl : ∀ {store : IfStateStore}, store.timers = w.store.timers →
      store.entries = w.store.entries → store.started = w.store.started →
        Same w ⟨store, { w.history with clock := w.history.clock + 1 }⟩ := by
    intro store timers entries started
    exact same_of_timers entries started (by rw [timers]) (by simp [timers])
      (by rw [timers]; exact fun _ => id)
  cases op with
  | findDevice | snapshot | broadcast | addCount | load =>
    obtain ⟨rfl, -⟩ := Prod.mk.inj (Option.some.inj inner)
    exact refl rfl rfl rfl
  | stopTimer rt | closeStop rt | finish rt =>
    obtain ⟨rfl, -⟩ := Prod.mk.inj (Option.some.inj inner)
    exact same_onTimer rt (fun _ => rfl) fun _ => id
  | select rt =>
    simp only [IfStateStore.serve] at inner
    split at inner
    · exact nomatch inner
    · split_ifs at inner
      all_goals
        obtain ⟨rfl, -⟩ := Prod.mk.inj (Option.some.inj inner)
        exact refl rfl rfl rfl
  | range =>
    simp only [IfStateStore.serve] at inner
    split_ifs at inner
    obtain ⟨rfl, -⟩ := Prod.mk.inj (Option.some.inj inner)
    exact refl rfl rfl rfl
  | _ => exact nomatch idle

theorem serve_storeDone (served : w.serve party (.storeDone rt) choice = some (w', reply)) :
    Same w w' ∧ (rt < w.store.timers.length → w'.isDone rt = true) := by
  obtain ⟨inner, history⟩ := serve_eq served
  obtain ⟨store, -⟩ := Prod.mk.inj (Option.some.inj inner)
  obtain ⟨store', history'⟩ := w'
  simp only at store history
  subst store history
  refine ⟨same_onTimer rt (fun _ => rfl) fun _ _ => rfl, fun below => ?_⟩
  simp only [isDone, IfStateStore.onTimer, List.getElem?_modify, if_pos,
    List.getElem?_eq_getElem below]
  rfl

theorem serve_start {revertTo : Nat} (holds : w.Holds rt key)
    (served : w.serve party (.start key rt revertTo) choice = some (w', reply)) : Same w w' := by
  obtain ⟨inner, history⟩ := serve_eq served
  obtain ⟨store, -⟩ := Prod.mk.inj (Option.some.inj inner)
  obtain ⟨store', history'⟩ := w'
  simp only at store history
  subst store history
  refine ⟨rfl, ?_, rfl, rfl, fun _ => id, rfl⟩
  intro e mem
  rcases List.mem_append.mp mem with old | new
  · exact .inl old
  · rw [List.mem_singleton.mp new]
    exact .inr holds

theorem serve_lost (served : w.serve party (.compareAndSwap rt) choice = some (w', false)) :
    Same w w' ∧ w.isDone rt = true := by
  obtain ⟨inner, history⟩ := serve_eq served
  simp only [IfStateStore.serve] at inner
  split at inner
  · exact nomatch inner
  · next timer found =>
      split_ifs at inner with up
      · obtain ⟨store, -⟩ := Prod.mk.inj (Option.some.inj inner)
        obtain ⟨store', history'⟩ := w'
        simp only at store history
        subst store history
        refine ⟨⟨rfl, fun _ => .inl, rfl, rfl, fun _ => id, rfl⟩, ?_⟩
        rw [isDone, found]
        exact up
      · exact nomatch (Prod.mk.inj (Option.some.inj inner)).2

theorem serve_won (served : w.serve party (.compareAndSwap rt) choice = some (w', true)) :
    w.isDone rt = false ∧ w'.isDone rt = true ∧
      ∃ store, w' = ⟨store, { w.history with
        won := Function.update w.history.won rt true
        clock := w.history.clock + 1 }⟩ ∧
        Same w ⟨store, { w.history with clock := w.history.clock + 1 }⟩ := by
  obtain ⟨inner, history⟩ := serve_eq served
  simp only [IfStateStore.serve] at inner
  split at inner
  · exact nomatch inner
  · next timer found =>
      split_ifs at inner with up
      · exact nomatch (Prod.mk.inj (Option.some.inj inner)).2
      · obtain ⟨store, -⟩ := Prod.mk.inj (Option.some.inj inner)
        obtain ⟨store', history'⟩ := w'
        simp only at store history
        subst store history
        refine ⟨?_, ?_, _, rfl, same_onTimer rt (fun _ => rfl) fun _ _ => rfl⟩
        · rw [isDone, found]
          exact Bool.eq_false_iff.mpr up
        · simp only [isDone, IfStateStore.onTimer, List.getElem?_modify, if_pos, found]
          rfl

theorem serve_compareAndDelete
    (served : w.serve party (.compareAndDelete key rt) choice = some (w', reply)) :
    w'.store.timers = w.store.timers ∧ w'.store.started = w.store.started ∧
      w'.history = { w.history with clock := w.history.clock + 1 } ∧
      (∀ key' i, w'.store.entries key' = some i →
        w.store.entries key' = some i ∧ ¬(key' = key ∧ i = rt)) ∧
      ∀ key' i, w.store.entries key' = some i → w'.store.entries key' = some i ∨ i = rt := by
  obtain ⟨inner, history⟩ := serve_eq served
  simp only [IfStateStore.serve] at inner
  split_ifs at inner with here
  · obtain ⟨store, -⟩ := Prod.mk.inj (Option.some.inj inner)
    rw [← store]
    refine ⟨rfl, rfl, history, ?_, ?_⟩
    · intro key' i entry
      simp only [Function.update_apply] at entry
      split_ifs at entry with same
      exact ⟨entry, fun both => same both.1⟩
    · intro key' i entry
      by_cases same : key' = key
      · subst same
        exact .inr (Option.some.inj (entry.symm.trans here))
      · exact .inl ((Function.update_of_ne same _ _).trans entry)
  · obtain ⟨store, -⟩ := Prod.mk.inj (Option.some.inj inner)
    rw [← store]
    refine ⟨rfl, rfl, history, ?_, fun _ _ => .inl⟩
    intro key' i entry
    refine ⟨entry, ?_⟩
    rintro ⟨rfl, rfl⟩
    exact here entry

theorem serve_returns {began : Nat} (served : w.serve party .returns choice = some (w', reply))
    (call : w.history.returns party = { w.history with
      returned := Function.update w.history.returned began (some w.history.clock) }) :
    w' = ⟨w.store, { w.history with
      mutated := w.history.mutated
      returned := Function.update w.history.returned began (some w.history.clock)
      clock := w.history.clock + 1 }⟩ := by
  obtain ⟨inner, history⟩ := serve_eq served
  obtain ⟨store, -⟩ := Prod.mk.inj (Option.some.inj inner)
  obtain ⟨store', history'⟩ := w'
  simp only at store history
  subst store history
  change RevertWorld.mk w.store { w.history.returns party with clock := w.history.clock + 1 } = _
  rw [call]

theorem serve_write {reply : op.Reply} (writes : op.isWrite = true)
    (served : w.serve party op choice = some (w', reply)) :
    ∃ store, Same w ⟨store, { w.history with clock := w.history.clock + 1 }⟩ ∧
      w' = ⟨store, { w.history.mutates party with clock := w.history.clock + 1 }⟩ := by
  obtain ⟨inner, history⟩ := serve_eq served
  obtain ⟨store', history'⟩ := w'
  simp only at inner history
  subst history
  cases op with
  | setLinkState | applyAdminStatus =>
    obtain ⟨is, -⟩ := Prod.mk.inj (Option.some.inj inner)
    refine ⟨store', ?_, rfl⟩
    rw [← is]
    exact ⟨rfl, fun _ => .inl, rfl, rfl, fun _ => id, rfl⟩
  | _ => exact nomatch writes

theorem keyOf_lt (keyed : w.keyOf rt = some key) : rt < w.store.timers.length := by
  obtain ⟨timer, found, -⟩ := Option.map_eq_some_iff.mp keyed
  exact (List.getElem?_eq_some_iff.mp found).1

theorem isDone_lt (done : w.isDone rt = true) : rt < w.store.timers.length := by
  by_contra beyond
  rw [isDone, List.getElem?_eq_none (not_lt.mp beyond)] at done
  exact nomatch done

theorem serve_newTimer {delay : Int}
    (served : w.serve party (.newTimer key delay) choice = some (w', rt)) :
    rt = w.store.timers.length ∧ w'.store.timers.length = rt + 1 ∧ w'.keyOf rt = some key ∧
      w'.store.entries = w.store.entries ∧ w'.store.started = w.store.started ∧
      w'.history.registered = w.history.registered ∧ Calm w w' := by
  obtain ⟨inner, history⟩ := serve_eq served
  obtain ⟨store, rfl⟩ := Prod.mk.inj (Option.some.inj inner)
  have kept : ∀ i < w.store.timers.length, w'.store.timers[i]? = w.store.timers[i]? := by
    intro i below
    rw [← store]
    exact List.getElem?_append_left below
  refine ⟨rfl, ?_, ?_, ?_, ?_, by rw [history]; rfl, ?_⟩
  · rw [← store, List.length_append, List.length_singleton]
  · rw [keyOf, ← store, List.getElem?_concat_length]
    rfl
  · rw [← store]
  · rw [← store]
  · rw [← store] at kept
    refine ⟨⟨by rw [history]; rfl, ?_, ?_, ?_, ?_, ?_, ?_⟩, ?_, ?_, ?_, ?_⟩
    · intro i key' keyed
      rw [keyOf, ← store, kept i (keyOf_lt keyed)]
      exact keyed
    · intro i done
      rw [isDone, ← store, kept i (isDone_lt done)]
      exact done
    · rw [history]
      exact fun _ _ => id
    · rw [history]
      exact fun _ _ => .inl
    · rw [history]
      exact fun _ => id
    · rw [← store]
      exact fun _ _ => .inl
    all_goals
      rw [history]
      rfl

/-- Nobody is between winning a flag and writing. -/
theorem quiet_of_not_firing (sound : w.Sound) {covers : RevertKey → Bool} (began : Nat)
    (calm : w.firing covers = false) :
    w.Quiet (fun key => covers key = true) began w.history.clock := by
  intro rt r key registered covered _ won
  have below := (sound.dated rt _ registered).2
  have here := List.any_eq_false.mp calm rt (List.mem_range.mpr below)
  rw [registered] at here
  simp only [won, covered, Bool.true_and, Bool.and_true, Bool.not_eq_true,
    Option.isNone_eq_false_iff] at here
  obtain ⟨x, wrote⟩ := Option.isSome_iff_exists.mp here
  exact ⟨x, wrote, (sound.past rt x wrote).2⟩

end RevertWorld

/-! ### The pool -/

namespace RevertPool

open RevertWorld

variable {pool next : RevertPool} {front back : List RevertThread} {t : RevertThread}

structure Sound (pool : RevertPool) : Prop where
  world : pool.shared.Sound
  follows : Pool.Follows revertStages EndsAs pool
  fits : ∀ t ∈ pool.threads, pool.shared.Fits t.tag t.seen
  once : (pool.threads.flatMap RevertThread.tokens).Nodup
  pending : ∀ rt key, pool.shared.Holds rt key →
    pool.shared.isDone rt = true ∨ pool.shared.store.entries key = some rt ∨
      ∃ t ∈ pool.threads, t.seen.Raises key rt

/-- One thread goes on to another stage, and the others are spared. -/
structure Moves (pool : RevertPool) (front back : List RevertThread) (t : RevertThread)
    (w' : RevertWorld) (seen' : RevertStage) : Prop where
  world : w'.Sound
  own : w'.Fits t.tag seen'
  others : ∀ u ∈ front ++ back, pool.shared.Spares w' u.tag u.seen
  once : ((front ++ { t with seen := seen' } :: back).flatMap RevertThread.tokens).Nodup
  pending : ∀ rt key, w'.Holds rt key → w'.isDone rt = true ∨ w'.store.entries key = some rt ∨
    seen'.Raises key rt ∨ ∃ u ∈ front ++ back, u.seen.Raises key rt

variable {w' : RevertWorld} {seen' : RevertStage} {rest' : IfStating CallResult}

theorem mem_threads {u : RevertThread} (threads : pool.threads = front ++ t :: back)
    (other : u ∈ front ++ back) : u ∈ pool.threads := by
  rw [threads]
  rcases List.mem_append.mp other with before | behind
  · exact List.mem_append_left _ before
  · exact List.mem_append_right _ (List.mem_cons_of_mem _ behind)

theorem Sound.exchange (sound : pool.Sound) (threads : pool.threads = front ++ t :: back)
    (moves : pool.Moves front back t w' seen')
    (follows : Pool.Follows revertStages EndsAs ⟨w', front ++ ⟨t.tag, seen', rest'⟩ :: back⟩) :
    Sound ⟨w', front ++ ⟨t.tag, seen', rest'⟩ :: back⟩ where
  world := moves.world
  follows := follows
  fits := by
    intro u mem
    rcases List.mem_append.mp mem with before | here
    · have other := List.mem_append_left back before
      exact (sound.fits u (mem_threads threads other)).spared (moves.others u other)
    · rcases List.mem_cons.mp here with rfl | behind
      · exact moves.own
      · have other := List.mem_append_right front behind
        exact (sound.fits u (mem_threads threads other)).spared (moves.others u other)
  once := Pool.tokens_sublist moves.once (.refl _)
  pending := by
    intro rt key holds
    rcases moves.pending rt key holds with done | entry | raises | ⟨u, mem, raises⟩
    · exact .inl done
    · exact .inr (.inl entry)
    · exact .inr (.inr ⟨_, List.mem_append_right _ List.mem_cons_self, raises⟩)
    · exact .inr (.inr ⟨u, mem_threads rfl mem, raises⟩)

section Moving

variable (sound : pool.Sound) (threads : pool.threads = front ++ t :: back)
include sound threads

/-- The reverts whose flag is down, seen from one thread. -/
theorem Sound.pending_split {rt : Nat} {key : RevertKey} (holds : pool.shared.Holds rt key) :
    pool.shared.isDone rt = true ∨ pool.shared.store.entries key = some rt ∨
      t.seen.Raises key rt ∨ ∃ u ∈ front ++ back, u.seen.Raises key rt := by
  rcases sound.pending rt key holds with done | entry | ⟨u, mem, raises⟩
  · exact .inl done
  · exact .inr (.inl entry)
  · rw [threads] at mem
    rcases List.mem_append.mp mem with before | here
    · exact .inr (.inr (.inr ⟨u, List.mem_append_left _ before, raises⟩))
    · rcases List.mem_cons.mp here with rfl | behind
      · exact .inr (.inr (.inl raises))
      · exact .inr (.inr (.inr ⟨u, List.mem_append_right _ behind, raises⟩))

/-- A step at which only the history of the calls grows. -/
theorem Sound.marks_step (world : w'.Sound) (own : w'.Fits t.tag seen')
    (others : ∀ u ∈ front ++ back, pool.shared.Spares w' u.tag u.seen)
    (registered : w'.history.registered = pool.shared.history.registered)
    (entries : w'.store.entries = pool.shared.store.entries)
    (isDone : ∀ rt, pool.shared.isDone rt = true → w'.isDone rt = true)
    (tokens : seen'.tokens.Sublist t.seen.tokens)
    (raises : ∀ key rt, t.seen.Raises key rt → seen'.Raises key rt ∨ w'.isDone rt = true) :
    pool.Moves front back t w' seen' := by
  refine ⟨world, own, others, ?_, ?_⟩
  · have once := sound.once
    rw [threads] at once
    exact Pool.tokens_sublist once (tokens.append_right _)
  · intro rt key holds
    have held : pool.shared.Holds rt key := by
      obtain ⟨r, at'⟩ := holds
      rw [registered] at at'
      exact ⟨r, at'⟩
    rw [entries]
    rcases sound.pending_split threads held with done | entry | raising | others
    · exact .inl (isDone rt done)
    · exact .inr (.inl entry)
    · rcases raises key rt raising with still | done
      · exact .inr (.inr (.inl still))
      · exact .inl done
    · exact .inr (.inr (.inr others))

/-- A step that changes nothing of interest in the manager. -/
theorem Sound.same_step (same : Same pool.shared w') (own : w'.Fits t.tag seen')
    (tokens : seen'.tokens = t.seen.tokens)
    (raises : ∀ key rt, t.seen.Raises key rt → seen'.Raises key rt ∨ w'.isDone rt = true) :
    pool.Moves front back t w' seen' := by
  refine sound.marks_step threads (sound.world.same same) own
    (fun u _ => same.spares u.tag u.seen) (by rw [same.history]) same.entries same.isDone ?_ raises
  rw [tokens]

end Moving

end RevertPool

end Nl6
