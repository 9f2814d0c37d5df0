import Nl6.Counters.Monotone

/-! # Concurrent reads of a held counter

`heldDeltasAt` and `reconcileHoldAt` run concurrently. Here every access to a shared variable is one
action of an interleaving: readers sample the clock, load the sequence number, load the ledger entry
and load the sequence number again; the writer that holds the mutex makes the sequence number odd,
reads the status and the entry, samples the clock, stores the new entry and makes the sequence number
even. The interface is standalone, so its count is its dial. The sequence number wraps like the 64-bit
counter it is.

What orders the reads is the first load of the sequence number: a reader that finds it even sampled
its clock before any writer whose entry is still to come (`Precedes`).
-/

namespace Nl6

open CounterHold

/-- Where the writer that holds the mutex is in `reconcileHoldAt`. -/
inductive ReconcilePhase (Time : Type) where
  | bracketed
  | statusRead (up : Bool)
  | entryRead (up : Bool) (entry : Option (CounterHold Time))
  | sampled (up : Bool) (entry : Option (CounterHold Time)) (t : Time)
  | written

/-- Where a reader is in `heldDeltasAt`. -/
inductive ReadPhase (Time : Type) where
  | idle
  | sampled (t : Time)
  | bracketed (t : Time) (seq : Nat)
  | loaded (t : Time) (seq : Nat) (entry : Option (CounterHold Time))
  | returned (inDelta outDelta : Nat)

/-- The shared variables and where everyone is. -/
structure CounterRace (Time Reader : Type) where
  clock : Time
  holdSeq : Nat
  hold : Option (CounterHold Time)
  writer : Option (ReconcilePhase Time)
  readers : Reader → ReadPhase Time

inductive RaceAction (Time Reader : Type) where
  | tick (t : Time)
  | lock
  | pass
  | readStatus (up : Bool)
  | readEntry
  | sampleNow
  | write
  | unlock
  | readerSample (reader : Reader)
  | readerEnter (reader : Reader)
  | readerLoad (reader : Reader)
  | readerCheck (reader : Reader)

namespace CounterRace

variable {Time Reader : Type} [LinearOrder Time]

/-! ### How the shared variables develop -/

/-- What is served through an entry in one direction. -/
def served (dial : Bool → Time → Nat) (entry : Option (CounterHold Time)) (inbound : Bool)
    (t : Time) : Nat :=
  heldDeltaFor (dial inbound) entry t inbound

/-- An instant that no entry still to be written undercuts: it is past, and not after the instant
that a writer under way has sampled. -/
structure Precedes (s : CounterRace Time Reader) (t : Time) : Prop where
  le_clock : t ≤ s.clock
  le_sampled : ∀ up entry now, s.writer = some (.sampled up entry now) → t ≤ now

/-- Values that are settled at an instant: it precedes what is still to be written, and the current
entry serves at least these values there. -/
structure Settled (dial : Bool → Time → Nat) (s : CounterRace Time Reader) (t : Time)
    (floor : Bool → Nat) : Prop where
  precedes : s.Precedes t
  floor_le : ∀ inbound, floor inbound ≤ served dial s.hold inbound t

/-- What holds of a reader under way: once it found the sequence number even, its instant precedes
what is still to be written, and what it loads and returns is settled. -/
def ReaderOk (dial : Bool → Time → Nat) (s : CounterRace Time Reader) : ReadPhase Time → Prop
  | .idle => True
  | .sampled t => t ≤ s.clock
  | .bracketed t _ => s.Precedes t
  | .loaded t _ entry => s.Settled dial t fun inbound => served dial entry inbound t
  | .returned inDelta outDelta =>
    ∃ t, s.Settled dial t fun inbound => if inbound then inDelta else outDelta

/-- How the shared variables develop: time passes, and an entry that is stored serves no less at the
instants that precede it. -/
structure Advances (dial : Bool → Time → Nat) (s next : CounterRace Time Reader) : Prop where
  clock : s.clock ≤ next.clock
  precedes : ∀ t, s.Precedes t → next.Precedes t
  served : ∀ t, s.Precedes t → ∀ inbound,
    served dial s.hold inbound t ≤ served dial next.hold inbound t

variable {dial : Bool → Time → Nat} {s next : CounterRace Time Reader} {t : Time}
  {floor : Bool → Nat} {entry : Option (CounterHold Time)} {action : RaceAction Time Reader}
  {actions : List (RaceAction Time Reader)}

theorem Settled.advance (settled : s.Settled dial t floor) (advances : Advances dial s next) :
    next.Settled dial t floor :=
  ⟨advances.precedes t settled.precedes, fun inbound =>
    (settled.floor_le inbound).trans (advances.served t settled.precedes inbound)⟩

theorem ReaderOk.advance (advances : Advances dial s next) {phase : ReadPhase Time}
    (ok : s.ReaderOk dial phase) : next.ReaderOk dial phase := by
  cases phase with
  | idle => trivial
  | sampled t => exact le_trans ok advances.clock
  | bracketed t seq => exact advances.precedes t ok
  | loaded t seq entry => exact Settled.advance ok advances
  | returned inDelta outDelta =>
    obtain ⟨t, settled⟩ := ok
    exact ⟨t, settled.advance advances⟩

theorem Advances.of_hold_eq (clock : s.clock ≤ next.clock) (hold : next.hold = s.hold)
    (sampled : ∀ up entry now, next.writer = some (.sampled up entry now) →
      s.writer = some (.sampled up entry now) ∨ now = s.clock) : Advances dial s next := by
  refine ⟨clock, fun t precedes => ⟨precedes.le_clock.trans clock, fun up entry now under => ?_⟩,
    fun t _ inbound => by rw [hold]⟩
  rcases sampled up entry now under with before | rfl
  · exact precedes.le_sampled up entry now before
  · exact precedes.le_clock

/-! ### The race -/

variable [OrderBot Time] [DecidableEq Reader]

def move (s : CounterRace Time Reader) (reader : Reader) (phase : ReadPhase Time) :
    CounterRace Time Reader :=
  { s with readers := Function.update s.readers reader phase }

/-- One action, if it is enabled. `pass` is a writer that finds nothing to do, or that is on its way
to another interface. -/
def step (dial : Bool → Time → Nat) (s : CounterRace Time Reader) :
    RaceAction Time Reader → Option (CounterRace Time Reader)
  | .tick t => if s.clock ≤ t then some { s with clock := t } else none
  | .lock => match s.writer with
      | none => some { s with
          writer := some .bracketed
          holdSeq := (s.holdSeq + 1) % 2 ^ 64 }
      | some _ => none
  | .pass => match s.writer with
      | some .bracketed => some { s with writer := some .written }
      | _ => none
  | .readStatus up => match s.writer with
      | some .bracketed => some { s with writer := some (.statusRead up) }
      | _ => none
  | .readEntry => match s.writer with
      | some (.statusRead up) => some { s with writer := some (.entryRead up s.hold) }
      | _ => none
  | .sampleNow => match s.writer with
      | some (.entryRead up entry) => some { s with writer := some (.sampled up entry s.clock) }
      | _ => none
  | .write => match s.writer with
      | some (.sampled up entry t) => some { s with
          writer := some .written
          hold := reconciled dial entry up t }
      | _ => none
  | .unlock => match s.writer with
      | some .written => some { s with
          writer := none
          holdSeq := (s.holdSeq + 1) % 2 ^ 64 }
      | _ => none
  | .readerSample reader => match s.readers reader with
      | .idle => some (s.move reader (.sampled s.clock))
      | _ => none
  | .readerEnter reader => match s.readers reader with
      | .sampled t =>
        -- an odd sequence number sends the reader round the loop again
        if s.holdSeq % 2 = 1 then some s else some (s.move reader (.bracketed t s.holdSeq))
      | _ => none
  | .readerLoad reader => match s.readers reader with
      | .bracketed t seq => some (s.move reader (.loaded t seq s.hold))
      | _ => none
  | .readerCheck reader => match s.readers reader with
      | .loaded t seq entry =>
        if s.holdSeq = seq then some (s.move reader (.returned
          (heldDeltaFor (dial true) entry t true) (heldDeltaFor (dial false) entry t false)))
        else some (s.move reader (.sampled t))
      | _ => none

/-- A sequence of actions, if every one is enabled. -/
def run (dial : Bool → Time → Nat) (s : CounterRace Time Reader) :
    List (RaceAction Time Reader) → Option (CounterRace Time Reader)
  | [] => some s
  | action :: rest => (s.step dial action).bind fun next => next.run dial rest

/-- Nobody has started; the interface was up when the ledger was seeded, or not. -/
def start (clock : Time) (up : Bool) : CounterRace Time Reader where
  clock := clock
  holdSeq := 0
  hold := if up then none
    else some { down := true, downAt := ⊥, upAt := ⊥, skippedIn := 0, skippedOut := 0 }
  writer := none
  readers _ := .idle

/-! ### What every action keeps -/

/-- The entry is a sound hold on the dial in both directions. -/
def SoundAt (dial : Bool → Time → Nat) (entry : Option (CounterHold Time)) (now : Time) : Prop :=
  ∀ inbound, (toHold entry inbound).Sound (dial inbound) now

/-- What holds of a writer under way. -/
def WriterOk (dial : Bool → Time → Nat) (hold : Option (CounterHold Time)) (clock : Time) :
    Option (ReconcilePhase Time) → Prop
  | some (.entryRead _ entry) => entry = hold
  | some (.sampled _ entry now) => entry = hold ∧ now ≤ clock ∧ SoundAt dial hold now
  | _ => True

structure Inv (dial : Bool → Time → Nat) (s : CounterRace Time Reader) : Prop where
  parity : s.holdSeq % 2 = if s.writer.isSome then 1 else 0
  sound : SoundAt dial s.hold s.clock
  writer : WriterOk dial s.hold s.clock s.writer
  readers : ∀ reader, s.ReaderOk dial (s.readers reader)

theorem served_eq_reading (entry : Option (CounterHold Time)) (inbound : Bool) (t : Time) :
    served dial entry inbound t = (toHold entry inbound).reading (dial inbound) t :=
  heldDeltaFor_eq_reading _ _ _ _

theorem SoundAt.mono {now later : Time} (sound : SoundAt dial entry now) (le : now ≤ later) :
    SoundAt dial entry later :=
  fun inbound => (sound inbound).raise le fun _ _ => le_rfl

theorem WriterOk.mono {hold : Option (CounterHold Time)} {now later : Time}
    {writer : Option (ReconcilePhase Time)} (ok : WriterOk dial hold now writer) (le : now ≤ later) :
    WriterOk dial hold later writer := by
  rcases writer with _ | phase
  · trivial
  · cases phase with
    | sampled up entry t => exact ⟨ok.1, ok.2.1.trans le, ok.2.2⟩
    | entryRead up entry => exact ok
    | _ => trivial

theorem Inv.move (inv : s.Inv dial) (reader : Reader) (phase : ReadPhase Time)
    (ok : s.ReaderOk dial phase) :
    (s.move reader phase).Inv dial ∧ Advances dial s (s.move reader phase) := by
  have advances : Advances dial s (s.move reader phase) :=
    .of_hold_eq le_rfl rfl fun _ _ _ under => .inl under
  refine ⟨⟨inv.parity, inv.sound, inv.writer, fun other => ?_⟩, advances⟩
  simp only [CounterRace.move, Function.update_apply]
  split
  · exact ok.advance advances
  · exact (inv.readers other).advance advances

omit [DecidableEq Reader] in
theorem Inv.advance (inv : s.Inv dial) (advances : Advances dial s next)
    (readers : next.readers = s.readers)
    (parity : next.holdSeq % 2 = if next.writer.isSome then 1 else 0)
    (sound : SoundAt dial next.hold next.clock) (writer : WriterOk dial next.hold next.clock next.writer) :
    next.Inv dial ∧ Advances dial s next :=
  ⟨⟨parity, sound, writer, fun reader => readers ▸ (inv.readers reader).advance advances⟩, advances⟩

omit [DecidableEq Reader] in
theorem Inv.write (inv : s.Inv dial) (rises : ∀ inbound, Monotone (dial inbound)) {up : Bool}
    (under : s.writer = some (.sampled up entry t)) :
    let next := { s with writer := some .written, hold := reconciled dial entry up t }
    next.Inv dial ∧ Advances dial s next := by
  have writer := inv.writer
  rw [under] at writer
  obtain ⟨rfl, past, sound⟩ := writer
  have opened : (span s.hold).downAt ≤ t := by
    have ordered := (sound true).downAt_le
    rwa [toHold_toSpan] at ordered
  have follows := toHold_reconciled dial opened up
  have advances : Advances dial s
      { s with writer := some .written, hold := reconciled dial s.hold up t } := by
    refine ⟨le_rfl, fun u precedes => ⟨precedes.le_clock, fun _ _ _ none => by cases none⟩, ?_⟩
    intro u precedes inbound
    rw [served_eq_reading, served_eq_reading, follows]
    exact (sound inbound).reading_le_follow (rises inbound) up (precedes.le_sampled _ _ _ under)
  refine inv.advance advances rfl ?_ (fun inbound => ?_) trivial
  · rw [inv.parity, under]
    rfl
  · have stored := (sound inbound).follow (rises inbound) up
    rw [← follows] at stored
    exact stored.raise past fun _ _ => le_rfl

/-- **One action keeps the invariant.** -/
theorem step_spec (rises : ∀ inbound, Monotone (dial inbound)) (inv : s.Inv dial)
    (taken : s.step dial action = some next) : next.Inv dial ∧ Advances dial s next := by
  have parity := inv.parity
  have writer := inv.writer
  cases action with
  | tick t =>
    simp only [step] at taken
    split at taken
    · next later =>
        cases taken
        refine inv.advance (.of_hold_eq later rfl fun _ _ _ under => .inl under) rfl parity
          (inv.sound.mono later) ?_
        exact writer.mono later
    · cases taken
  | lock =>
    simp only [step] at taken
    split at taken
    · next free =>
        cases taken
        rw [free] at parity
        simp only [Option.isSome_none, Bool.false_eq_true, if_false] at parity
        refine inv.advance (.of_hold_eq le_rfl rfl fun _ _ _ under => by cases under) rfl ?_
          inv.sound trivial
        simp only [Option.isSome_some, if_true]
        omega
    · cases taken
  | pass =>
    simp only [step] at taken
    split at taken
    · next under =>
        cases taken
        rw [under] at parity
        exact inv.advance (.of_hold_eq le_rfl rfl fun _ _ _ none => by cases none) rfl parity
          inv.sound trivial
    · cases taken
  | readStatus up =>
    simp only [step] at taken
    split at taken
    · next under =>
        cases taken
        rw [under] at parity
        exact inv.advance (.of_hold_eq le_rfl rfl fun _ _ _ none => by cases none) rfl parity
          inv.sound trivial
    · cases taken
  | readEntry =>
    simp only [step] at taken
    split at taken
    · next under =>
        cases taken
        rw [under] at parity
        exact inv.advance (.of_hold_eq le_rfl rfl fun _ _ _ none => by cases none) rfl parity
          inv.sound rfl
    · cases taken
  | sampleNow =>
    simp only [step] at taken
    split at taken
    · next under =>
        cases taken
        rw [under] at parity
        rw [under] at writer
        refine inv.advance (.of_hold_eq le_rfl rfl fun _ _ _ same => ?_) rfl parity inv.sound
          ⟨writer, le_rfl, inv.sound⟩
        cases same
        exact .inr rfl
    · cases taken
  | write =>
    simp only [step] at taken
    split at taken
    · next under =>
        cases taken
        exact inv.write rises under
    · cases taken
  | unlock =>
    simp only [step] at taken
    split at taken
    · next under =>
        cases taken
        rw [under] at parity
        simp only [Option.isSome_some, if_true] at parity
        refine inv.advance (.of_hold_eq le_rfl rfl fun _ _ _ none => by cases none) rfl ?_
          inv.sound trivial
        simp only [Option.isSome_none, Bool.false_eq_true, if_false]
        omega
    · cases taken
  | readerSample reader =>
    simp only [step] at taken
    split at taken
    · cases taken
      exact inv.move reader (.sampled _) (le_refl s.clock)
    · cases taken
  | readerEnter reader =>
    simp only [step] at taken
    split at taken
    · next under =>
        have ok := inv.readers reader
        rw [under] at ok
        split at taken
        · cases taken
          exact ⟨inv, .of_hold_eq le_rfl rfl fun _ _ _ under => .inl under⟩
        · next even =>
            cases taken
            -- an even sequence number means that no writer is under way
            have free : s.writer = none := by
              cases under : s.writer with
              | none => rfl
              | some phase =>
                rw [under] at parity
                exact absurd parity even
            exact inv.move reader (.bracketed _ _)
              ⟨ok, fun _ _ _ some => by rw [free] at some; cases some⟩
    · cases taken
  | readerLoad reader =>
    simp only [step] at taken
    split at taken
    · next under =>
        have ok := inv.readers reader
        rw [under] at ok
        cases taken
        exact inv.move reader (.loaded _ _ _) ⟨ok, fun _ => le_rfl⟩
    · cases taken
  | readerCheck reader =>
    simp only [step] at taken
    split at taken
    · next under =>
        have ok := inv.readers reader
        rw [under] at ok
        split at taken
        · cases taken
          refine inv.move reader (.returned _ _) ⟨_, ok.precedes, fun inbound => ?_⟩
          cases inbound <;> exact ok.floor_le _
        · cases taken
          exact inv.move reader (.sampled _) ok.precedes.le_clock
    · cases taken

/-! ### Reads in real time -/

/-- What a reader that starts after `t` is left with: an instant not before it, an entry that serves
at least `floor` there, and in the end at least `floor` in both directions. -/
def Follows (dial : Bool → Time → Nat) (t : Time) (floor : Bool → Nat) : ReadPhase Time → Prop
  | .idle => True
  | .sampled u => t ≤ u
  | .bracketed u _ => t ≤ u
  | .loaded u _ entry => t ≤ u ∧ ∀ inbound, floor inbound ≤ served dial entry inbound u
  | .returned inDelta outDelta => floor true ≤ inDelta ∧ floor false ≤ outDelta

theorem served_mono (rises : ∀ inbound, Monotone (dial inbound))
    (entry : Option (CounterHold Time)) (inbound : Bool) : Monotone (served dial entry inbound) := by
  intro t u before
  rw [served_eq_reading, served_eq_reading]
  exact Hold.reading_mono _ (rises inbound) before

/-- One action keeps a reader that started after `t` on its way. -/
theorem follows_step (rises : ∀ inbound, Monotone (dial inbound)) (settled : s.Settled dial t floor)
    {reader : Reader} (follows : Follows dial t floor (s.readers reader))
    (taken : s.step dial action = some next) : Follows dial t floor (next.readers reader) := by
  -- only an action of the reader itself changes its phase
  have moved : ∀ (other : Reader) (phase : ReadPhase Time),
      (other = reader → Follows dial t floor phase) →
        Follows dial t floor ((s.move other phase).readers reader) := by
    intro other phase ok
    simp only [CounterRace.move, Function.update_apply]
    split
    · next same => exact ok same.symm
    · exact follows
  cases action with
  | readerSample other =>
    simp only [step] at taken
    split at taken
    · cases taken
      exact moved other _ fun _ => settled.precedes.le_clock
    · cases taken
  | readerEnter other =>
    simp only [step] at taken
    split at taken
    · next under =>
        split at taken
        · cases taken
          exact follows
        · cases taken
          refine moved other _ fun same => ?_
          rw [← same, under] at follows
          exact follows
    · cases taken
  | readerLoad other =>
    simp only [step] at taken
    split at taken
    · next under =>
        cases taken
        refine moved other _ fun same => ?_
        rw [← same, under] at follows
        exact ⟨follows, fun inbound =>
          (settled.floor_le inbound).trans (served_mono rises _ inbound follows)⟩
    · cases taken
  | readerCheck other =>
    simp only [step] at taken
    split at taken
    · next under =>
        split at taken
        · cases taken
          refine moved other _ fun same => ?_
          rw [← same, under] at follows
          exact ⟨follows.2 true, follows.2 false⟩
        · cases taken
          refine moved other _ fun same => ?_
          rw [← same, under] at follows
          exact follows.1
    · cases taken
  | tick | lock | pass | readStatus | readEntry | sampleNow | write | unlock =>
    simp only [step] at taken
    split at taken <;> cases taken
    exact follows

omit [DecidableEq Reader] in
theorem inv_start (clock : Time) (up : Bool) : (start clock up : CounterRace Time Reader).Inv dial := by
  refine ⟨rfl, fun inbound => ?_, trivial, fun _ => trivial⟩
  cases up with
  | true => exact Hold.sound_never _ _
  | false =>
    refine ⟨⟨bot_le, bot_le, fun _ => bot_le⟩, ?_⟩
    cases inbound <;> exact Nat.zero_le _

theorem run_inv (rises : ∀ inbound, Monotone (dial inbound)) (inv : s.Inv dial)
    (reached : s.run dial actions = some next) : next.Inv dial := by
  induction actions generalizing s with
  | nil =>
    cases reached
    exact inv
  | cons action rest ih =>
    obtain ⟨mid, taken, reached⟩ := Option.bind_eq_some_iff.mp reached
    exact ih (step_spec rises inv taken).1 reached

/-- A reader that starts once a value is settled returns at least that value. -/
theorem run_follows (rises : ∀ inbound, Monotone (dial inbound)) (inv : s.Inv dial)
    (settled : s.Settled dial t floor) {reader : Reader}
    (follows : Follows dial t floor (s.readers reader)) (reached : s.run dial actions = some next) :
    Follows dial t floor (next.readers reader) := by
  induction actions generalizing s with
  | nil =>
    cases reached
    exact follows
  | cons action rest ih =>
    obtain ⟨mid, taken, reached⟩ := Option.bind_eq_some_iff.mp reached
    obtain ⟨kept, advances⟩ := step_spec rises inv taken
    exact ih kept (settled.advance advances) (follows_step rises settled follows taken) reached

end CounterRace

/-- **Concurrent reads never go backwards.** In every interleaving of readers and writers, over any
monotone dial, if a read has returned while another has not sampled its clock yet, then the other
returns at least as much in both directions. -/
theorem concurrent_reads_never_go_backwards {Time Reader : Type} [LinearOrder Time] [OrderBot Time]
    [DecidableEq Reader] (dial : Bool → Time → Nat) (rises : ∀ inbound, Monotone (dial inbound))
    (clock : Time) (up : Bool) (front back : List (RaceAction Time Reader))
    (mid final : CounterRace Time Reader)
    (reached : (CounterRace.start clock up).run dial front = some mid)
    (continued : mid.run dial back = some final) (first second : Reader)
    (in₁ out₁ in₂ out₂ : Nat) (returned : mid.readers first = .returned in₁ out₁)
    (notStarted : mid.readers second = .idle)
    (returnedLater : final.readers second = .returned in₂ out₂) : in₁ ≤ in₂ ∧ out₁ ≤ out₂ := by
  have inv := CounterRace.run_inv rises (CounterRace.inv_start clock up) reached
  have settled := inv.readers first
  rw [returned] at settled
  obtain ⟨t, settled⟩ := settled
  have follows := CounterRace.run_follows rises inv settled (by rw [notStarted]; trivial) continued
  rw [returnedLater] at follows
  exact follows

def readWhileUp : List (RaceAction Nat (Fin 2)) :=
  [.readerSample 0, .readerEnter 0, .readerLoad 0, .tick 7, .readerCheck 0]

/-- Another one samples its clock while a writer opens a hold, and waits for it. -/
def readAcrossOpen : List (RaceAction Nat (Fin 2)) :=
  [.lock, .readerSample 1, .readerEnter 1, .readStatus false, .readEntry, .tick 9, .sampleNow, .write,
    .unlock, .readerEnter 1, .readerLoad 1, .readerCheck 1]

theorem concurrent_reads_across_open :
    ∃ mid final : CounterRace Nat (Fin 2),
      (CounterRace.start 5 true).run (fun _ t => t) readWhileUp = some mid ∧
      mid.run (fun _ t => t) readAcrossOpen = some final ∧ mid.readers 0 = .returned 5 5 ∧
      mid.readers 1 = .idle ∧ final.readers 1 = .returned 7 7 ∧ 5 ≤ 7 ∧ 5 ≤ 7 := by
  refine ⟨_, _, rfl, rfl, rfl, rfl, rfl, ?_⟩
  exact concurrent_reads_never_go_backwards (fun _ t => t) (fun _ => monotone_id) 5 true readWhileUp
    readAcrossOpen _ _ rfl rfl 0 1 5 5 7 7 rfl rfl rfl

end Nl6
