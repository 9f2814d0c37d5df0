import Nl6.Lib.Timers
import Nl6.Lib.Threads

/-! # The runtime switch of fleet silence

Fleet silence is one flag with at most one pending revert. `setFidelity` writes the flag and, for a
timed request, arms a timer that restores an earlier value. The function and the timer's callback
each run under one mutex, so a run is a sequence of their bodies. A timer may fire at any time after
its deadline, and its callback may get the mutex arbitrarily late, after other requests.

A request supersedes the pending revert. Which value the new revert restores depends on the
direction of the request: one that keeps the flag inherits the target, one that changes it captures
the value it changes. `From.throughout_iff` says exactly when this leads back to the value from
before the first request. The generation counter has 64 bits in the source and is a natural number here.
-/

namespace Nl6

/-- What the callback of a revert has captured: the value to restore and the number of the request
that armed it. The source reads the number only through the generation. -/
structure FidelityRevert where
  restore : Bool
  request : Nat
  deriving DecidableEq, Repr

/-- `fidelitySilent`, `fidelityTransitions` and `fidelityRevert`. A timer is named by the generation
its callback has captured. -/
structure Fidelity where
  silent : Bool
  transitions : Nat
  timer : Option Nat
  restore : Bool
  deadline : Option Nat
  gen : Nat
  deriving DecidableEq, Repr

structure FidelitySnapshot where
  inForce : Bool
  pending : Bool
  deadline : Option Nat
  revertTo : Bool
  deriving DecidableEq, Repr

namespace Fidelity

def cancelFidelityRevertLocked (f : Fidelity) (timers : List (Timer FidelityRevert)) :
    Fidelity × List (Timer FidelityRevert) :=
  ({ f with timer := none, deadline := none, gen := f.gen + 1 },
    match f.timer with
    | none => timers
    | some gen => Timer.stop gen timers)

/-- `fidelityTransitions` after the value in force was stored: only a change counts. -/
def counted (transitions : Nat) (previous silent : Bool) : Nat :=
  if previous ≠ silent then transitions + 1 else transitions

/-- `setFidelity`: the variables and the timers after the request, and the snapshot it returns. -/
def setFidelity (f : Fidelity) (timers : List (Timer FidelityRevert)) (request : Nat)
    (silent : Bool) (d : Int) (now : Nat) :
    Fidelity × List (Timer FidelityRevert) × FidelitySnapshot :=
  let hadPending := f.timer.isSome
  let (f, timers) := f.cancelFidelityRevertLocked timers
  let sameDirection := hadPending && silent == f.silent
  let restore := if sameDirection then f.restore else f.silent
  let transitions := counted f.transitions f.silent silent
  if d ≤ 0 then
    -- A standing change: there is nothing left to return to.
    ({ f with silent, transitions, restore := silent }, timers,
      { inForce := silent, pending := false, deadline := none, revertTo := false })
  else
    let deadline := now + d.toNat
    ({ f with silent, transitions, restore, deadline := some deadline, timer := some f.gen },
      timers ++ [⟨f.gen, deadline, false, ⟨restore, request⟩⟩],
      { inForce := silent, pending := true, deadline := some deadline, revertTo := restore })

/-- The callback of a revert, once it holds the mutex. -/
def revert (f : Fidelity) (t : Timer FidelityRevert) : Fidelity :=
  if f.gen ≠ t.gen then f
  else
    { f with
      transitions := counted f.transitions f.silent t.captured.restore
      silent := t.captured.restore
      timer := none
      deadline := none }

end Fidelity

/-- The switch with the timers of its reverts. The last three fields record the history of the
requests: how many there were, the value in force before the timed requests that are still pending,
and what these asked for. No function of the source reads them. -/
structure FidelitySystem where
  switch : Fidelity
  timers : List (Timer FidelityRevert)
  requests : Nat
  standing : Bool
  chain : List Bool
  deriving DecidableEq, Repr

/-- What can happen: a request, a timer that fires, and a callback that gets the mutex. -/
inductive FidelityAction where
  | set (silent : Bool) (d : Int) (now : Nat)
  | fire (index now : Nat)
  | revert (index : Nat)
  deriving DecidableEq, Repr

namespace FidelitySystem

/-- No revert is pending. -/
abbrev Settled (s : FidelitySystem) : Prop := s.switch.timer = none

def step (s : FidelitySystem) : FidelityAction → Option FidelitySystem
  | .set silent d now =>
    let (switch, timers, _) :=
      s.switch.setFidelity s.timers (s.requests + 1) silent d now
    some
      { switch, timers
        requests := s.requests + 1
        standing := if s.Settled then s.switch.silent else s.standing
        chain := (if s.Settled then [] else s.chain) ++ [silent] }
  | .fire index now => (Timer.fire s.timers index now).map fun timers => { s with timers }
  | .revert index =>
    (Timer.take s.timers index).map fun (t, timers) =>
      { s with switch := s.switch.revert t, timers }

/-- How often a run changes the value in force. -/
def changes (s : FidelitySystem) : List FidelityAction → Nat
  | [] => 0
  | action :: rest =>
    match s.step action with
    | none => 0
    | some next =>
      (if next.switch.silent ≠ s.switch.silent then 1 else 0) + next.changes rest

/-- A chain of timed requests leads back to the value from before it: its last request asks for the
other value, or all of them ask for this one. -/
def Unwinds (standing : Bool) (chain : List Bool) : Prop :=
  chain.getLast? = some standing → ∀ asked ∈ chain, asked = standing

instance (standing : Bool) (chain : List Bool) : Decidable (Unwinds standing chain) :=
  inferInstanceAs (Decidable (_ → _))

/-- What holds between the switch, its timers and the recorded history. -/
structure Sound (s : FidelitySystem) : Prop where
  dated : Timer.Dated s.switch.gen s.timers
  numbered : ∀ t ∈ s.timers, t.gen + s.requests = s.switch.gen + t.captured.request
  idle : s.Settled → ∀ t ∈ s.timers, t.gen < s.switch.gen
  awaited : ∀ gen, s.switch.timer = some gen → gen = s.switch.gen ∧
    (∃ t ∈ s.timers, t.gen = gen) ∧ ∀ t ∈ s.timers, t.gen = gen →
      t.captured.restore = s.switch.restore
  target : ¬ s.Settled → s.chain.getLast? = some s.switch.silent ∧
    (s.switch.restore = s.standing ↔ Unwinds s.standing s.chain)

/-! ### One action -/

section Steps

variable {s next : FidelitySystem} {silent : Bool} {d : Int} {now index : Nat}
  {timers : List (Timer FidelityRevert)}

theorem mem_cancel {f : Fidelity} {t : Timer FidelityRevert}
    (mem : t ∈ (f.cancelFidelityRevertLocked timers).2) : t ∈ timers := by
  unfold Fidelity.cancelFidelityRevertLocked at mem
  cases pending : f.timer with
  | none =>
    rw [pending] at mem
    exact mem
  | some gen =>
    rw [pending] at mem
    exact List.mem_of_mem_filter mem

theorem dated_cancel {f : Fidelity} (dated : Timer.Dated f.gen timers) :
    Timer.Dated (f.gen + 1) (f.cancelFidelityRevertLocked timers).2 := by
  unfold Fidelity.cancelFidelityRevertLocked
  cases f.timer with
  | none => exact dated.succ
  | some gen => exact (dated.stop gen).succ

/-- The value a request's revert restores. -/
def target (s : FidelitySystem) (silent : Bool) : Bool :=
  if s.switch.timer.isSome && silent == s.switch.silent then s.switch.restore
  else s.switch.silent

theorem target_of_settled (settled : s.Settled) : s.target silent = s.switch.silent := by
  rw [target, settled]
  rfl

theorem target_of_turn (turn : silent ≠ s.switch.silent) : s.target silent = s.switch.silent := by
  rw [target, beq_false_of_ne turn, Bool.and_false]
  rfl

theorem target_of_same (pending : ¬ s.Settled) : s.target s.switch.silent = s.switch.restore := by
  rw [target, Option.isSome_iff_ne_none.mpr pending, beq_self_eq_true]
  rfl

/-- **A timed request.** -/
theorem step_set_timed (timed : 0 < d) :
    s.step (.set silent d now) =
      let deadline := now + d.toNat
      some
        { switch :=
            { silent
              transitions :=
                Fidelity.counted s.switch.transitions s.switch.silent silent
              timer := some (s.switch.gen + 1)
              restore := s.target silent
              deadline := some deadline
              gen := s.switch.gen + 1 }
          timers := (s.switch.cancelFidelityRevertLocked s.timers).2 ++
            [⟨s.switch.gen + 1, deadline, false, ⟨s.target silent, s.requests + 1⟩⟩]
          requests := s.requests + 1
          standing := if s.Settled then s.switch.silent else s.standing
          chain := (if s.Settled then [] else s.chain) ++ [silent] } := by
  have positive : ¬ d ≤ 0 := by omega
  simp only [step, Fidelity.setFidelity, if_neg positive]
  rfl

/-- **An untimed request** leaves nothing pending. -/
theorem step_set_untimed (untimed : d ≤ 0) :
    s.step (.set silent d now) =
      some
        { switch :=
            { silent
              transitions :=
                Fidelity.counted s.switch.transitions s.switch.silent silent
              timer := none
              restore := silent
              deadline := none
              gen := s.switch.gen + 1 }
          timers := (s.switch.cancelFidelityRevertLocked s.timers).2
          requests := s.requests + 1
          standing := if s.Settled then s.switch.silent else s.standing
          chain := (if s.Settled then [] else s.chain) ++ [silent] } := by
  simp only [step, Fidelity.setFidelity, if_pos untimed]
  rfl

theorem step_fire (fires : s.step (.fire index now) = some next) :
    ∃ timers, Timer.fire s.timers index now = some timers ∧ next = { s with timers } := by
  obtain ⟨timers, fired, rfl⟩ := Option.map_eq_some_iff.mp fires
  exact ⟨timers, fired, rfl⟩

/-- **A callback** that is no longer current changes nothing; the current one restores the value it
has captured. -/
theorem step_revert (runs : s.step (.revert index) = some next) :
    ∃ t timers, Timer.take s.timers index = some (t, timers) ∧
      ((t.gen ≠ s.switch.gen ∧ next = { s with timers }) ∨
        (t.gen = s.switch.gen ∧ next =
          { s with
            timers
            switch :=
              { s.switch with
                transitions :=
                  Fidelity.counted s.switch.transitions s.switch.silent t.captured.restore
                silent := t.captured.restore
                timer := none
                deadline := none } })) := by
  obtain ⟨⟨t, timers⟩, taken, rfl⟩ := Option.map_eq_some_iff.mp runs
  refine ⟨t, timers, taken, ?_⟩
  by_cases current : t.gen = s.switch.gen
  · right
    refine ⟨current, ?_⟩
    simp only [Fidelity.revert, if_neg (not_not.mpr current.symm)]
  · left
    exact ⟨current, by simp only [Fidelity.revert, if_pos (Ne.symm current)]⟩

end Steps

/-! ### Chains of requests -/

section Chains

variable {standing asked last : Bool} {chain : List Bool}

theorem unwinds_singleton : Unwinds standing [asked] := by
  intro same other mem
  rw [List.mem_singleton.mp mem]
  exact Option.some.inj same

/-- A request that keeps the value keeps the destination. -/
theorem unwinds_append_same (ends : chain.getLast? = some asked) :
    Unwinds standing (chain ++ [asked]) ↔ Unwinds standing chain := by
  simp only [Unwinds, List.getLast?_concat, ends]
  constructor
  · intro unwinds same other mem
    exact unwinds same other (List.mem_append_left _ mem)
  · intro unwinds same other mem
    rcases List.mem_append.mp mem with before | new
    · exact unwinds same other before
    · rw [List.mem_singleton.mp new]
      exact Option.some.inj same

/-- A request that changes the value leads back to the value it changes. -/
theorem unwinds_append_turn (ends : chain.getLast? = some last) (turn : asked ≠ last) :
    Unwinds standing (chain ++ [asked]) ↔ last = standing := by
  simp only [Unwinds, List.getLast?_concat]
  constructor
  · intro unwinds
    by_contra other
    -- There are only two values: the request asks for the standing one.
    have same : asked = standing :=
      (Bool.eq_not.mpr turn).trans (Bool.eq_not.mpr (Ne.symm other)).symm
    have mem : last ∈ chain ++ [asked] :=
      List.mem_append_left _ (List.mem_of_getLast? ends)
    exact other (unwinds (congrArg some same) last mem)
  · intro same asks
    exact absurd (Option.some.inj asks) (same ▸ turn)

end Chains

/-! ### Every action -/

section Invariant

variable {s next : FidelitySystem} {silent : Bool} {d : Int} {now index : Nat}
  {action : FidelityAction} {t : Timer FidelityRevert}

theorem Sound.set_timed (sound : s.Sound) (timed : 0 < d)
    (sets : s.step (.set silent d now) = some next) : next.Sound := by
  rw [step_set_timed timed] at sets
  cases sets
  have older : ∀ t ∈ (s.switch.cancelFidelityRevertLocked s.timers).2,
      t.gen < s.switch.gen + 1 :=
    fun t mem => sound.dated.lt_succ t (mem_cancel mem)
  constructor
  case dated => exact (dated_cancel sound.dated).append older rfl
  case numbered =>
    intro t mem
    rcases List.mem_append.mp mem with old | new
    · have number := sound.numbered t (mem_cancel old)
      simp only
      omega
    · rw [List.mem_singleton.mp new]
  case idle => exact fun settled => nomatch settled
  case awaited =>
    intro gen pending
    cases pending
    refine ⟨rfl, ⟨_, List.mem_append_right _ (List.mem_singleton_self _), rfl⟩, ?_⟩
    intro t mem current
    rcases List.mem_append.mp mem with old | new
    · have below := older t old
      omega
    · rw [List.mem_singleton.mp new]
  case target =>
    intro _
    refine ⟨List.getLast?_concat, ?_⟩
    simp only
    by_cases settled : s.Settled
    · rw [if_pos settled, if_pos settled, target_of_settled settled, List.nil_append]
      exact iff_of_true rfl unwinds_singleton
    · obtain ⟨ends, restores⟩ := sound.target settled
      rw [if_neg settled, if_neg settled]
      by_cases same : silent = s.switch.silent
      · rw [same, target_of_same settled, unwinds_append_same ends]
        exact restores
      · rw [target_of_turn same, unwinds_append_turn ends same]

theorem Sound.set_untimed (sound : s.Sound) (untimed : d ≤ 0)
    (sets : s.step (.set silent d now) = some next) : next.Sound := by
  rw [step_set_untimed untimed] at sets
  cases sets
  constructor
  case dated => exact dated_cancel sound.dated
  case numbered =>
    intro t mem
    have number := sound.numbered t (mem_cancel mem)
    simp only
    omega
  case idle => exact fun _ t mem => sound.dated.lt_succ t (mem_cancel mem)
  case awaited => exact fun gen pending => nomatch pending
  case target => exact fun pending => absurd rfl pending

theorem Sound.fire (sound : s.Sound) (fires : s.step (.fire index now) = some next) :
    next.Sound := by
  obtain ⟨timers, fired, rfl⟩ := step_fire fires
  constructor
  case dated => exact sound.dated.fire fired
  case numbered =>
    intro u mem
    obtain ⟨t, old, gen, captured⟩ := Timer.mem_of_fire fired mem
    have number := sound.numbered t old
    rw [gen, captured] at number
    exact number
  case idle =>
    intro settled u mem
    obtain ⟨t, old, gen, -⟩ := Timer.mem_of_fire fired mem
    exact gen ▸ sound.idle settled t old
  case awaited =>
    intro gen pending
    obtain ⟨current, ⟨t, mem, is⟩, restores⟩ := sound.awaited gen pending
    obtain ⟨u, new, same, -⟩ := Timer.mem_fire fired mem
    refine ⟨current, ⟨u, new, same.trans is⟩, ?_⟩
    intro u mem here
    obtain ⟨t, old, same, captured⟩ := Timer.mem_of_fire fired mem
    rw [← captured]
    exact restores t old (same.trans here)
  case target => exact sound.target

theorem Sound.revert (sound : s.Sound) (runs : s.step (.revert index) = some next) :
    next.Sound := by
  obtain ⟨t, timers, taken, ⟨stale, rfl⟩ | ⟨current, rfl⟩⟩ := step_revert runs
  all_goals constructor
  case inl.dated => exact sound.dated.take taken
  case inl.numbered => exact fun u mem => sound.numbered u (Timer.subset_of_take taken mem)
  case inl.idle =>
    exact fun settled u mem => sound.idle settled u (Timer.subset_of_take taken mem)
  case inl.awaited =>
    intro gen pending
    obtain ⟨current, ⟨u, mem, is⟩, restores⟩ := sound.awaited gen pending
    refine ⟨current, ⟨u, ?_, is⟩, fun u mem => restores u (Timer.subset_of_take taken mem)⟩
    -- The callback that runs is not the one that is awaited.
    obtain ⟨front, back, split, rfl⟩ := Timer.take_cases taken
    rw [split] at mem
    rcases List.mem_append.mp mem with before | here
    · exact List.mem_append_left _ before
    · rcases List.mem_cons.mp here with rfl | behind
      · exact absurd (is.trans current) stale
      · exact List.mem_append_right _ behind
  case inl.target => exact sound.target
  case inr.dated => exact sound.dated.take taken
  case inr.numbered => exact fun u mem => sound.numbered u (Timer.subset_of_take taken mem)
  case inr.idle => exact fun _ => sound.dated.lt_of_take taken current
  case inr.awaited => exact fun gen pending => nomatch pending
  case inr.target => exact fun pending => absurd rfl pending

/-- **One action** keeps the switch sound. -/
theorem sound_step (sound : s.Sound) (acts : s.step action = some next) : next.Sound := by
  cases action with
  | set silent d now =>
    by_cases timed : 0 < d
    · exact sound.set_timed timed acts
    · exact sound.set_untimed (not_lt.mp timed) acts
  | fire index now => exact sound.fire acts
  | revert index => exact sound.revert acts

/-- The callback of the latest request is the current one, and no other is. -/
theorem Sound.current_iff (sound : s.Sound) (mem : t ∈ s.timers) :
    t.captured.request = s.requests ↔ t.gen = s.switch.gen := by
  have number := sound.numbered t mem
  omega

theorem Sound.restore_eq (sound : s.Sound) (mem : t ∈ s.timers) (current : t.gen = s.switch.gen) :
    ¬ s.Settled ∧ t.captured.restore = s.switch.restore := by
  have pending : ¬ s.Settled := by
    intro settled
    have below := sound.idle settled t mem
    omega
  obtain ⟨gen, timer⟩ := Option.ne_none_iff_exists'.mp pending
  obtain ⟨is, -, restores⟩ := sound.awaited gen timer
  exact ⟨pending, restores t mem (current.trans is.symm)⟩

theorem transitions_step (acts : s.step action = some next) :
    next.switch.transitions =
      s.switch.transitions + if next.switch.silent ≠ s.switch.silent then 1 else 0 := by
  have counts : ∀ stored, Fidelity.counted s.switch.transitions s.switch.silent stored =
      s.switch.transitions + if stored ≠ s.switch.silent then 1 else 0 := by
    intro stored
    by_cases same : stored = s.switch.silent
    · simp [Fidelity.counted, same]
    · simp [Fidelity.counted, same, Ne.symm same]
  cases action with
  | set silent d now =>
    by_cases timed : 0 < d
    · rw [step_set_timed timed] at acts
      cases acts
      exact counts silent
    · rw [step_set_untimed (not_lt.mp timed)] at acts
      cases acts
      exact counts silent
  | fire index now =>
    obtain ⟨timers, -, rfl⟩ := step_fire acts
    simp
  | revert index =>
    obtain ⟨t, timers, -, ⟨-, rfl⟩ | ⟨-, rfl⟩⟩ := step_revert acts
    · simp
    · exact counts t.captured.restore

end Invariant

/-! ### Runs -/

/-- A request that is timed, or no request at all. -/
def Timed (_ : FidelitySystem) : FidelityAction → Prop
  | .set _ d _ => 0 < d
  | _ => True

/-- When the callback of the latest request runs, the pending chain of requests leads back. -/
def Unwinding (s : FidelitySystem) : FidelityAction → Prop
  | .revert index => ∀ taken ∈ Timer.take s.timers index,
      taken.1.captured.request = s.requests → Unwinds s.standing s.chain
  | _ => True

instance (s : FidelitySystem) : (action : FidelityAction) → Decidable (Timed s action)
  | .set _ d _ => inferInstanceAs (Decidable (0 < d))
  | .fire _ _ | .revert _ => .isTrue trivial

instance (s : FidelitySystem) : (action : FidelityAction) → Decidable (Unwinding s action)
  | .revert index => inferInstanceAs (Decidable (∀ taken ∈ Timer.take s.timers index, _))
  | .set _ _ _ | .fire _ _ => .isTrue trivial

/-- No revert is pending and the value is in force; callbacks of superseded reverts may still be on
their way. -/
structure Standing (v : Bool) (s : FidelitySystem) : Prop where
  settled : s.Settled
  inForce : s.switch.silent = v
  sound : s.Sound

/-- The value from before the pending requests, or the one in force. -/
structure From (v : Bool) (s : FidelitySystem) : Prop where
  inForce : s.Settled → s.switch.silent = v
  standing : ¬ s.Settled → s.standing = v

section Runs

variable {v : Bool} {s next last : FidelitySystem} {actions : List FidelityAction}

theorem Sound.run (sound : s.Sound) (runs : Runs.run step s actions = some last) :
    last.Sound := by
  induction actions generalizing s with
  | nil =>
    cases runs
    exact sound
  | cons action rest ih =>
    rw [Runs.run] at runs
    split at runs
    · cases runs
    · next middle acts => exact ih (sound_step sound acts) runs

theorem transitions_run (runs : Runs.run step s actions = some last) :
    last.switch.transitions = s.switch.transitions + s.changes actions := by
  induction actions generalizing s with
  | nil =>
    cases runs
    rfl
  | cons action rest ih =>
    rw [Runs.run] at runs
    rw [changes]
    split at runs
    · cases runs
    · next middle acts =>
        rw [acts, ih runs, transitions_step acts]
        simp only
        omega

/-- **One action.** It keeps the value to return to, unless it is a callback that does not lead
back. -/
theorem from_step (sound : s.Sound) (origin : From v s) {action : FidelityAction}
    (timed : Timed s action) (acts : s.step action = some next) :
    (Unwinding s action → From v next) ∧
      ((next.Settled → next.switch.silent = v) → Unwinding s action) := by
  cases action with
  | set silent d now =>
    rw [step_set_timed timed] at acts
    cases acts
    refine ⟨fun _ => ⟨(fun settled => nomatch settled), fun _ => ?_⟩, fun _ => trivial⟩
    simp only
    split
    · next settled => exact origin.inForce settled
    · next pending => exact origin.standing pending
  | fire index now =>
    obtain ⟨timers, -, rfl⟩ := step_fire acts
    exact ⟨fun _ => ⟨origin.inForce, origin.standing⟩, fun _ => trivial⟩
  | revert index =>
    obtain ⟨t, timers, taken, cases⟩ := step_revert acts
    have mem := Timer.mem_of_take taken
    have latest : Unwinding s (.revert index) ↔
        (t.gen = s.switch.gen → Unwinds s.standing s.chain) := by
      rw [← sound.current_iff mem]
      constructor
      · exact fun unwinding => unwinding (t, timers) taken
      · intro unwinds other taken'
        rw [← Option.some.inj (taken.symm.trans taken')]
        exact unwinds
    rw [latest]
    obtain ⟨stale, rfl⟩ | ⟨current, rfl⟩ := cases
    · exact ⟨fun _ => ⟨origin.inForce, origin.standing⟩, fun _ is => absurd is stale⟩
    · obtain ⟨pending, restores⟩ := sound.restore_eq mem current
      obtain ⟨-, back⟩ := sound.target pending
      have standing := origin.standing pending
      simp only [restores]
      constructor
      · intro unwinds
        refine ⟨fun _ => ?_, fun still => absurd rfl still⟩
        exact (back.mpr (unwinds current)).trans standing
      · intro restored _
        exact back.mp ((restored trivial).trans standing.symm)

/-- **When silence unwinds.** A run of timed requests is back at the value from before it whenever
nothing is pending, exactly if every callback that restores a value ends a chain that leads back. -/
theorem From.throughout_iff (sound : s.Sound) (origin : From v s)
    (timed : Runs.Along step Timed s actions) :
    Runs.Throughout step (fun s => s.Settled → s.switch.silent = v) s actions ↔
      Runs.Along step Unwinding s actions := by
  induction actions generalizing s with
  | nil => exact iff_of_true origin.inForce trivial
  | cons action rest ih =>
    simp only [Runs.Throughout, Runs.Along] at timed ⊢
    cases acts : s.step action with
    | none =>
      simp only [and_true]
      refine iff_of_true origin.inForce ?_
      cases action with
      | set => trivial
      | fire => trivial
      | revert index =>
        intro other taken
        rw [step, Option.mem_def.mp taken] at acts
        exact nomatch acts
    | some next =>
      rw [acts] at timed
      obtain ⟨forward, backward⟩ := from_step sound origin timed.1 acts
      have along := fun kept => ih (sound_step sound acts) kept timed.2
      simp only
      constructor
      · intro ⟨_, behind⟩
        have settles : next.Settled → next.switch.silent = v := by
          cases rest with
          | nil => exact behind
          | cons => exact behind.1
        have unwinding := backward settles
        exact ⟨unwinding, (along (forward unwinding)).mp behind⟩
      · intro ⟨unwinding, behind⟩
        exact ⟨origin.inForce, (along (forward unwinding)).mpr behind⟩

/-- **Timed silence.** In every run of timed requests from a standing value: a pending revert has
its callback on the way; a superseded callback changes nothing; every change of the value in force
is counted; and the standing value is in force whenever nothing is pending, exactly if every
callback that restores a value ends a chain of requests that leads back. -/
theorem timed_silence (standing : Standing v s) (timed : Runs.Along step Timed s actions)
    (runs : Runs.run step s actions = some last) :
    (¬ last.Settled → ∃ t ∈ last.timers, t.captured.request = last.requests ∧
      t.captured.restore = last.switch.restore) ∧
    (∀ index t rest next, Timer.take last.timers index = some (t, rest) →
      t.captured.request ≠ last.requests → last.step (.revert index) = some next →
        next.switch = last.switch) ∧
    last.switch.transitions = s.switch.transitions + s.changes actions ∧
    (Runs.Throughout step (fun s => s.Settled → s.switch.silent = v) s actions ↔
      Runs.Along step Unwinding s actions) := by
  have sound := standing.sound.run runs
  have origin : From v s :=
    ⟨fun _ => standing.inForce, fun pending => absurd standing.settled pending⟩
  refine ⟨?_, ?_, transitions_run runs, origin.throughout_iff standing.sound timed⟩
  · intro pending
    obtain ⟨gen, timer⟩ := Option.ne_none_iff_exists'.mp pending
    obtain ⟨current, ⟨t, mem, is⟩, restores⟩ := sound.awaited gen timer
    exact ⟨t, mem, (sound.current_iff mem).mpr (is.trans current), restores t mem is⟩
  · intro index t rest next taken superseded reverts
    obtain ⟨t', rest', taken', ⟨-, rfl⟩ | ⟨current, -⟩⟩ := step_revert reverts
    · rfl
    · obtain ⟨rfl, -⟩ := Prod.mk.inj (Option.some.inj (taken.symm.trans taken'))
      exact absurd ((sound.current_iff (Timer.mem_of_take taken)).mpr current) superseded

end Runs

/-- A fleet that emits, before any request. -/
def emitting : FidelitySystem where
  switch := ⟨false, 0, none, false, none, 0⟩
  timers := []
  requests := 0
  standing := false
  chain := []

theorem standing_emitting : Standing false emitting where
  settled := rfl
  inForce := rfl
  sound :=
    { dated := ⟨(fun _ mem => nomatch mem), List.nodup_nil⟩
      numbered := fun _ mem => nomatch mem
      idle := fun _ _ mem => nomatch mem
      awaited := fun _ pending => nomatch pending
      target := fun pending => absurd rfl pending }

/-- Silence for ten seconds, shortened to two while it lasts; the callback restores emission. -/
def shortened : List FidelityAction :=
  [.set true 10000000000 0, .set true 2000000000 1000000000, .fire 0 3000000000, .revert 0]

theorem timed_silence_shortened :
    Runs.Throughout step (fun s => s.Settled → s.switch.silent = false) emitting shortened := by
  have along : Runs.Along step Timed emitting shortened := by decide
  have unwinding : Runs.Along step Unwinding emitting shortened := by decide
  have runs : ∃ last, Runs.run step emitting shortened = some last := ⟨_, rfl⟩
  obtain ⟨last, reached⟩ := runs
  exact (timed_silence standing_emitting along reached).2.2.2.mpr unwinding

/-- Silence for an hour, and after a minute two minutes of emission within it. -/
def peek : List FidelityAction :=
  [.set true 3600000000000 0, .set false 120000000000 60000000000, .fire 0 180000000000, .revert 0]

/-- **Silence that does not end.** The callback of the inner window restores silence, and the outer
window has no revert any more. -/
theorem peek_stays_silent :
    Standing false emitting ∧ Runs.Along step Timed emitting peek ∧
      ∃ last, Runs.run step emitting peek = some last ∧ last.Settled ∧ last.timers = [] ∧
        last.switch.silent = true := by
  refine ⟨standing_emitting, by decide, _, rfl, ?_⟩
  decide

end FidelitySystem

end Nl6
