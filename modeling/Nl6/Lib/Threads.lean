import Nl6.Lib.Program

/-! # Threads that share a state

Programs that run at the same time against one state. Which thread goes next is decided by the
actions of a run, one request at a time, and so is whatever the state leaves open about a reply.

A pool carries beside each program the state of a monitor that watches it. Invariants of a pool are
statements about the shared state and these monitors: `Pool.advance_cases` says what one request
changes, `Pool.Follows` that the monitors are not surprised, and `Runs.invariant` is the induction
over runs.
-/

/-! ### Runs -/

namespace Runs

variable {σ A : Type} (step : σ → A → Option σ)

/-- Take the actions one after the other; `none` if one of them cannot be taken. -/
def run : σ → List A → Option σ
  | s, [] => some s
  | s, action :: rest =>
    match step s action with
    | none => none
    | some next => run next rest

/-- Every action of a run meets a condition on it and the state it is taken in. -/
def Along (allowed : σ → A → Prop) : σ → List A → Prop
  | _, [] => True
  | s, action :: rest =>
    allowed s action ∧
      match step s action with
      | none => True
      | some next => Along allowed next rest

instance Along.decidable (allowed : σ → A → Prop) [∀ s action, Decidable (allowed s action)] :
    (s : σ) → (actions : List A) → Decidable (Along step allowed s actions)
  | _, [] => .isTrue trivial
  | s, action :: rest =>
    match taken : step s action with
    | none =>
      decidable_of_iff (allowed s action) (by simp [Along, taken])
    | some next =>
      have := Along.decidable allowed next rest
      decidable_of_iff (allowed s action ∧ Along step allowed next rest)
        (by simp [Along, taken])

/-- A property of every state a run passes through. -/
def Throughout (P : σ → Prop) : σ → List A → Prop
  | s, [] => P s
  | s, action :: rest =>
    P s ∧
      match step s action with
      | none => True
      | some next => Throughout P next rest

variable {step}

/-- **Invariants.** What every allowed action keeps holds in every state that is reached by allowed
actions. -/
theorem invariant {allowed : σ → A → Prop} {inv : σ → Prop}
    (kept : ∀ s action next, inv s → allowed s action → step s action = some next → inv next)
    {s last : σ} {actions : List A} (holds : inv s) (along : Along step allowed s actions)
    (runs : run step s actions = some last) : inv last := by
  induction actions generalizing s with
  | nil =>
    cases runs
    exact holds
  | cons action rest ih =>
    simp only [run, Along] at runs along
    cases taken : step s action with
    | none =>
      rw [taken] at runs
      exact nomatch runs
    | some next =>
      rw [taken] at runs along
      exact ih (kept s action next holds along.1 taken) along.2 runs

theorem always {inv : σ → Prop}
    (kept : ∀ s action next, inv s → step s action = some next → inv next)
    {s last : σ} {actions : List A} (holds : inv s) (runs : run step s actions = some last) :
    inv last := by
  induction actions generalizing s with
  | nil =>
    cases runs
    exact holds
  | cons action rest ih =>
    simp only [run] at runs
    split at runs
    · exact nomatch runs
    · next taken => exact ih (kept s action _ holds taken) runs

theorem run_append (s : σ) (front back : List A) :
    run step s (front ++ back) = (run step s front).bind fun next => run step next back := by
  induction front generalizing s with
  | nil => rfl
  | cons action front ih =>
    simp only [List.cons_append, run]
    cases step s action with
    | none => rfl
    | some next => exact ih next

theorem along_append {allowed : σ → A → Prop} {s next : σ} {front back : List A}
    (first : Along step allowed s front) (reaches : run step s front = some next)
    (second : Along step allowed next back) : Along step allowed s (front ++ back) := by
  induction front generalizing s with
  | nil =>
    cases reaches
    exact second
  | cons action front ih =>
    simp only [List.cons_append, run, Along] at first reaches ⊢
    refine ⟨first.1, ?_⟩
    cases taken : step s action with
    | none => trivial
    | some middle =>
      rw [taken] at first reaches
      exact ih first.2 reaches

end Runs

/-! ### Pools -/

/-- A program under way, with what its monitor has seen. -/
structure Thread (ι : Requests) (τ L α : Type) where
  tag : τ
  seen : L
  rest : Program ι α

namespace Thread

variable {ι : Requests} {τ L α σ χ : Type}

/-- What a thread has returned. -/
def result (t : Thread ι τ L α) : Option α :=
  match t.rest with
  | .ret result => some result
  | .ask _ _ => none

/-- Let a thread make its next request of a shared state. The state serves it, or makes it wait; what
it leaves open is chosen by the last argument. -/
def advance (M : Monitor ι L) (serve : σ → τ → (op : ι.Op) → χ → Option (σ × ι.Reply op))
    (shared : σ) (t : Thread ι τ L α) (choice : χ) : Option (σ × Thread ι τ L α) :=
  match t.rest with
  | .ret _ => none
  | .ask op resume =>
    match serve shared t.tag op choice with
    | none => none
    | some (shared', reply) =>
      some (shared', ⟨t.tag, M.advance t.seen op reply, resume reply⟩)

theorem advance_cases {M : Monitor ι L}
    {serve : σ → τ → (op : ι.Op) → χ → Option (σ × ι.Reply op)} {shared shared' : σ}
    {t t' : Thread ι τ L α} {choice : χ}
    (advances : t.advance M serve shared choice = some (shared', t')) :
    ∃ op resume reply, t.rest = .ask op resume ∧
      serve shared t.tag op choice = some (shared', reply) ∧
      t' = ⟨t.tag, M.advance t.seen op reply, resume reply⟩ := by
  unfold advance at advances
  split at advances
  · exact nomatch advances
  · next op resume asks =>
      split at advances
      · exact nomatch advances
      · next next reply served =>
          cases advances
          exact ⟨op, resume, reply, asks, served, rfl⟩

/-- Several requests of a thread in a row, with nobody in between. -/
def advances (M : Monitor ι L) (serve : σ → τ → (op : ι.Op) → χ → Option (σ × ι.Reply op))
    (choice : χ) : Nat → σ → Thread ι τ L α → Option (σ × Thread ι τ L α)
  | 0, shared, t => some (shared, t)
  | n + 1, shared, t =>
    match t.advance M serve shared choice with
    | none => none
    | some (shared', t') => advances M serve choice n shared' t'

end Thread

/-- Threads and the state they share. -/
structure Pool (ι : Requests) (τ L α σ : Type) where
  shared : σ
  threads : List (Thread ι τ L α)

namespace Pool

variable {ι : Requests} {τ L α σ χ : Type}

/-- Start a program. -/
def spawn (pool : Pool ι τ L α σ) (tag : τ) (seen : L) (program : Program ι α) :
    Pool ι τ L α σ :=
  { pool with threads := pool.threads ++ [⟨tag, seen, program⟩] }

/-- Let one of the threads make its next request. -/
def advance (M : Monitor ι L) (serve : σ → τ → (op : ι.Op) → χ → Option (σ × ι.Reply op))
    (pool : Pool ι τ L α σ) (index : Nat) (choice : χ) : Option (Pool ι τ L α σ) :=
  match pool.threads[index]? with
  | none => none
  | some t =>
    match t.advance M serve pool.shared choice with
    | none => none
    | some (shared, t') => some ⟨shared, pool.threads.set index t'⟩

theorem advance_cases {M : Monitor ι L}
    {serve : σ → τ → (op : ι.Op) → χ → Option (σ × ι.Reply op)} {pool next : Pool ι τ L α σ}
    {index : Nat} {choice : χ} (advances : pool.advance M serve index choice = some next) :
    ∃ front t back op resume shared reply, pool.threads = front ++ t :: back ∧
      front.length = index ∧ t.rest = .ask op resume ∧
      serve pool.shared t.tag op choice = some (shared, reply) ∧
      next = ⟨shared, front ++ ⟨t.tag, M.advance t.seen op reply, resume reply⟩ :: back⟩ := by
  unfold advance at advances
  split at advances
  · exact nomatch advances
  · next t found =>
      split at advances
      · exact nomatch advances
      · next shared t' moves =>
          obtain ⟨op, resume, reply, asks, served, rfl⟩ := Thread.advance_cases moves
          obtain ⟨below, here⟩ := List.getElem?_eq_some_iff.mp found
          refine ⟨pool.threads.take index, t, pool.threads.drop (index + 1), op, resume, shared,
            reply, ?_, List.length_take_of_le below.le, asks, served, ?_⟩
          · rw [← here, List.cons_getElem_drop_succ, List.take_append_drop]
          · rw [← Option.some.inj advances, List.set_eq_take_append_cons_drop, if_pos below]

theorem advance_at (M : Monitor ι L)
    (serve : σ → τ → (op : ι.Op) → χ → Option (σ × ι.Reply op)) (shared : σ)
    (front back : List (Thread ι τ L α)) (t : Thread ι τ L α) (choice : χ) :
    advance M serve ⟨shared, front ++ t :: back⟩ front.length choice =
      (t.advance M serve shared choice).map fun (shared', t') =>
        ⟨shared', front ++ t' :: back⟩ := by
  have here : (front ++ t :: back)[front.length]? = some t := by
    rw [List.getElem?_append_right le_rfl, Nat.sub_self]
    rfl
  simp only [advance, here]
  cases t.advance M serve shared choice with
  | none => rfl
  | some moved => simp [List.set_append_right]

/-- No request of a thread surprises its monitor, and it returns as it should. -/
def Follows (M : Monitor ι L) (post : L → α → Prop) (pool : Pool ι τ L α σ) : Prop :=
  ∀ t ∈ pool.threads, Program.Keeps M t.seen t.rest post

variable {M : Monitor ι L} {post : L → α → Prop} {pool : Pool ι τ L α σ}

theorem Follows.spawn (follows : pool.Follows M post) {tag : τ} {seen : L} {program : Program ι α}
    (keeps : Program.Keeps M seen program post) : (pool.spawn tag seen program).Follows M post := by
  intro t mem
  rcases List.mem_append.mp mem with old | new
  · exact follows t old
  · rw [List.mem_singleton.mp new]
    exact keeps

/-- What holds of all threads holds after one of them has changed, if it holds of that one. -/
theorem forall_mem_exchange {p : Thread ι τ L α → Prop} {front back : List (Thread ι τ L α)}
    {t t' : Thread ι τ L α} (all : ∀ u ∈ front ++ t :: back, p u) (new : p t') :
    ∀ u ∈ front ++ t' :: back, p u := by
  intro u mem
  rcases List.mem_append.mp mem with before | behind
  · exact all u (List.mem_append_left _ before)
  · rcases List.mem_cons.mp behind with rfl | after
    · exact new
    · exact all u (List.mem_append_right _ (List.mem_cons_of_mem _ after))

theorem countP_exchange (p : Thread ι τ L α → Bool) (front back : List (Thread ι τ L α))
    (t t' : Thread ι τ L α) :
    (front ++ t' :: back).countP p + (if p t then 1 else 0) =
      (front ++ t :: back).countP p + (if p t' then 1 else 0) := by
  simp only [List.countP_append, List.countP_cons]
  omega

/-! ### What only one thread can have

Where the threads of a pool hold tokens, each of them at most once, a thread that goes on keeps some
of its tokens and may take one that nobody has. -/

section Tokens

variable {κ : Type} {f : Thread ι τ L α → List κ} {front back : List (Thread ι τ L α)}
  {t t' : Thread ι τ L α}

theorem tokens_sublist (once : ((front ++ t :: back).flatMap f).Nodup) (kept : (f t').Sublist (f t)) :
    ((front ++ t' :: back).flatMap f).Nodup := by
  refine once.sublist ?_
  simp only [List.flatMap_append, List.flatMap_cons]
  exact (kept.append_right _).append_left _

theorem tokens_fresh (once : ((front ++ t :: back).flatMap f).Nodup) {token : κ}
    (fresh : token ∉ (front ++ t :: back).flatMap f) (takes : (f t').Sublist (token :: f t)) :
    ((front ++ t' :: back).flatMap f).Nodup := by
  have larger := List.nodup_cons.mpr ⟨fresh, once⟩
  simp only [List.flatMap_append, List.flatMap_cons] at larger ⊢
  have moved := List.perm_middle.nodup_iff.mpr larger
  refine moved.sublist ?_
  rw [← List.cons_append]
  exact (takes.append_right _).append_left _

theorem tokens_disjoint (once : ((front ++ t :: back).flatMap f).Nodup) {token : κ}
    (has : token ∈ f t) {u : Thread ι τ L α} (other : u ∈ front ++ back) : token ∉ f u := by
  simp only [List.flatMap_append, List.flatMap_cons] at once
  obtain ⟨-, rest, apart⟩ := List.nodup_append.mp once
  obtain ⟨-, -, behind⟩ := List.nodup_append.mp rest
  intro also
  rcases List.mem_append.mp other with before | after
  · exact apart token (List.mem_flatMap.mpr ⟨u, before, also⟩) token
      (List.mem_append_left _ has) rfl
  · exact behind token has token (List.mem_flatMap.mpr ⟨u, after, also⟩) rfl

end Tokens

theorem Follows.advance {serve : σ → τ → (op : ι.Op) → χ → Option (σ × ι.Reply op)}
    {next : Pool ι τ L α σ} {index : Nat} {choice : χ} (follows : pool.Follows M post)
    (advances : pool.advance M serve index choice = some next) : next.Follows M post := by
  obtain ⟨front, t, back, op, resume, shared, reply, threads, -, asks, -, rfl⟩ :=
    advance_cases advances
  have keeps := follows t (threads ▸ List.mem_append_right _ List.mem_cons_self)
  rw [asks] at keeps
  rw [Follows, threads] at follows
  exact forall_mem_exchange follows (keeps.2 reply)

end Pool
