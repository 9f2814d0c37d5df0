import Mathlib

/-! # Programs that ask their environment

A program returns a value, or makes a request and goes on with the reply. Nothing is said here about
what a request does: the same program is run on its own against an environment
(`Program.run`), and as one of several threads that share a state (`Nl6.Lib.Threads`).

A `Monitor` follows a program along its requests and replies. `Program.Keeps` is the judgement of
this library: whatever the replies, every request is one the monitor permits, and the program returns
with the monitor in a state that satisfies the postcondition. Programs are finite trees, so the
judgement is one of total correctness. `Program.Keeps.bind` composes it and `Program.Keeps.iterate`
is the rule for loops with a variant.
-/

/-- The requests a program can make, and the replies to each. -/
structure Requests where
  Op : Type
  Reply : Op → Type

/-- A request with the reply it got. -/
abbrev Requests.Event (ι : Requests) : Type := Σ op : ι.Op, ι.Reply op

/-- A program over a set of requests. -/
inductive Program (ι : Requests) (α : Type) where
  | ret (result : α)
  | ask (op : ι.Op) (resume : ι.Reply op → Program ι α)

/-- How a loop goes on after a turn. -/
inductive Turn (σ : Type) where
  | again (s : σ)
  | stop (s : σ)

/-- The state after a turn. -/
def Turn.state {σ : Type} : Turn σ → σ
  | .again s | .stop s => s

/-- An observer of requests and replies. -/
structure Monitor (ι : Requests) (L : Type) where
  permits : L → ι.Op → Prop
  advance : L → (op : ι.Op) → ι.Reply op → L

namespace Monitor

variable {ι : Requests} {β L K : Type}

/-- Where a monitor is after a list of events. -/
def after (M : Monitor ι L) : L → List ι.Event → L :=
  List.foldl fun l event => M.advance l event.1 event.2

@[simp] theorem after_nil (M : Monitor ι L) (l : L) : M.after l [] = l := rfl

@[simp] theorem after_cons (M : Monitor ι L) (l : L) (event : ι.Event) (events : List ι.Event) :
    M.after l (event :: events) = M.after (M.advance l event.1 event.2) events := rfl

/-- The monitor that permits everything and collects what is read off the events. -/
def collect (read : ι.Event → Option β) : Monitor ι (List β) where
  permits _ _ := True
  advance past op reply := past ++ (read ⟨op, reply⟩).toList

theorem after_collect (read : ι.Event → Option β) (past : List β) (events : List ι.Event) :
    (collect read).after past events = past ++ events.filterMap read := by
  induction events generalizing past with
  | nil => simp
  | cons event events ih =>
    rw [after_cons, ih, List.filterMap_cons]
    cases found : read event <;> simp [collect, found]

/-- The monitor that permits some requests only. -/
def only (allowed : ι.Op → Prop) : Monitor ι Unit where
  permits _ op := allowed op
  advance _ _ _ := ()

/-- Two monitors side by side. -/
def both (M : Monitor ι L) (N : Monitor ι K) : Monitor ι (L × K) where
  permits l op := M.permits l.1 op ∧ N.permits l.2 op
  advance l op reply := (M.advance l.1 op reply, N.advance l.2 op reply)

theorem after_both (M : Monitor ι L) (N : Monitor ι K) (l : L) (k : K) (events : List ι.Event) :
    (M.both N).after (l, k) events = (M.after l events, N.after k events) := by
  induction events generalizing l k with
  | nil => rfl
  | cons event events ih => exact ih _ _

end Monitor

namespace Program

variable {ι : Requests} {α β σ L K : Type}

/-- Go on with the result. -/
protected def bind : Program ι α → (α → Program ι β) → Program ι β
  | .ret result, next => next result
  | .ask op resume, next => .ask op fun reply => (resume reply).bind next

instance : Monad (Program ι) where
  pure := .ret
  bind := Program.bind

/-- Make one request. -/
def perform (op : ι.Op) : Program ι (ι.Reply op) := .ask op .ret

@[simp] theorem ask_bind (op : ι.Op) (resume : ι.Reply op → Program ι α)
    (next : α → Program ι β) :
    (Program.ask op resume >>= next) = .ask op fun reply => resume reply >>= next := rfl

/-- Repeat the body until it stops; `none` if it has not stopped after `fuel` turns. -/
def iterate (body : σ → Program ι (Turn σ)) : Nat → σ → Program ι (Option σ)
  | 0, _ => .ret none
  | fuel + 1, s => do
      match ← body s with
      | .again next => iterate body fuel next
      | .stop last => return some last

/-! ### Running on its own -/

/-- The requests made against an environment, with their replies, and the result. A reply may depend
on everything that was asked and answered before it. -/
def run (environment : List ι.Event → (op : ι.Op) → ι.Reply op) :
    List ι.Event → Program ι α → List ι.Event × α
  | _, .ret result => ([], result)
  | past, .ask op resume =>
    let event : ι.Event := ⟨op, environment past op⟩
    let rest := run environment (past ++ [event]) (resume event.2)
    (event :: rest.1, rest.2)

/-- Run against a state that serves the requests; `none` if one of them has to wait. What the state
leaves open is chosen request by request. The first result counts the requests. -/
def exec {χ : Type} (serve : σ → (op : ι.Op) → χ → Option (σ × ι.Reply op)) (choose : Nat → χ) :
    Nat → σ → Program ι α → Option (Nat × σ × α)
  | n, s, .ret result => some (n, s, result)
  | n, s, .ask op resume =>
    match serve s op (choose n) with
    | none => none
    | some (s', reply) => exec serve choose (n + 1) s' (resume reply)

theorem exec_bind {χ : Type} {serve : σ → (op : ι.Op) → χ → Option (σ × ι.Reply op)}
    {choose : Nat → χ} {n n' : Nat} {s s' : σ} {p : Program ι α} {result : α}
    (first : exec serve choose n s p = some (n', s', result)) (next : α → Program ι β) :
    exec serve choose n s (p >>= next) = exec serve choose n' s' (next result) := by
  induction p generalizing n s with
  | ret value =>
    obtain ⟨rfl, same⟩ := Prod.mk.inj (Option.some.inj first)
    cases same
    rfl
  | ask op resume ih =>
    simp only [ask_bind, exec] at first ⊢
    cases served : serve s op (choose n) with
    | none =>
      rw [served] at first
      exact nomatch first
    | some reply =>
      rw [served] at first
      exact ih _ first

/-! ### What a program does, whatever the replies -/

/-- Whatever the replies, every request is permitted, and the program returns in a state of the
monitor that satisfies the postcondition. -/
def Keeps (M : Monitor ι L) : L → Program ι α → (L → α → Prop) → Prop
  | l, .ret result, post => post l result
  | l, .ask op resume, post =>
    M.permits l op ∧ ∀ reply, Keeps M (M.advance l op reply) (resume reply) post

namespace Keeps

variable {M : Monitor ι L} {l : L}

theorem ret {result : α} {post : L → α → Prop} (holds : post l result) :
    Keeps M l (.ret result) post := holds

theorem mono {p : Program ι α} {post weaker : L → α → Prop} (keeps : Keeps M l p post)
    (imp : ∀ l a, post l a → weaker l a) : Keeps M l p weaker := by
  induction p generalizing l with
  | ret result => exact imp l result keeps
  | ask op resume ih => exact ⟨keeps.1, fun reply => ih reply (keeps.2 reply)⟩

theorem bind {p : Program ι α} {next : α → Program ι β} {mid : L → α → Prop}
    {post : L → β → Prop} (first : Keeps M l p mid)
    (second : ∀ l a, mid l a → Keeps M l (next a) post) : Keeps M l (p >>= next) post := by
  induction p generalizing l with
  | ret result => exact second l result first
  | ask op resume ih => exact ⟨first.1, fun reply => ih reply (first.2 reply)⟩

/-- **Loops.** A body that keeps an invariant and lowers a variant whenever it goes on, and that
establishes the postcondition when it stops, stops within more turns than the variant counts. -/
theorem iterate {body : σ → Program ι (Turn σ)} {post : L → σ → Prop} (inv : L → σ → Prop)
    (variant : σ → Nat)
    (turn : ∀ l s, inv l s → Keeps M l (body s) fun l' result => match result with
      | .again next => inv l' next ∧ variant next < variant s
      | .stop last => post l' last)
    {fuel : Nat} {s : σ} (holds : inv l s) (enough : variant s < fuel) :
    Keeps M l (Program.iterate body fuel s) fun l' result => ∃ last, result = some last ∧
      post l' last := by
  induction fuel generalizing l s with
  | zero => omega
  | succ fuel ih =>
    refine (turn l s holds).bind fun l' result done => ?_
    cases result with
    | again next => exact ih done.1 (by omega)
    | stop last => exact ret ⟨last, rfl, done⟩

theorem stable {allowed : ι.Op → Prop} {p : Program ι α} {post : α → Prop} {inv : L → Prop}
    (only : Keeps (Monitor.only allowed) () p fun _ => post)
    (kept : ∀ l op, allowed op → inv l → M.permits l op ∧ ∀ reply, inv (M.advance l op reply))
    (holds : inv l) : Keeps M l p fun l' result => inv l' ∧ post result := by
  induction p generalizing l with
  | ret result => exact ⟨holds, only⟩
  | ask op resume ih =>
    obtain ⟨permitted, after⟩ := kept l op only.1 holds
    exact ⟨permitted, fun reply => ih reply (only.2 reply) (after reply)⟩

/-- **Framing.** A program that makes only requests which the monitor permits and ignores leaves the
monitor where it is. -/
theorem frame {allowed : ι.Op → Prop} {p : Program ι α} {post : α → Prop}
    (only : Keeps (Monitor.only allowed) () p fun _ => post)
    (ignored : ∀ op, allowed op → M.permits l op ∧ ∀ reply, M.advance l op reply = l) :
    Keeps M l p fun l' result => l' = l ∧ post result := by
  refine only.stable (fun l' op allows same => ?_) rfl
  subst same
  exact ignored op allows

theorem snd {N : Monitor ι K} {k : K} {p : Program ι α} {post : L × K → α → Prop}
    (keeps : Keeps (M.both N) (l, k) p post) :
    Keeps N k p fun k' result => ∃ l', post (l', k') result := by
  induction p generalizing l k with
  | ret result => exact ⟨l, keeps⟩
  | ask op resume ih => exact ⟨keeps.1.2, fun reply => ih reply (keeps.2 reply)⟩

theorem fst {N : Monitor ι K} {k : K} {p : Program ι α} {post : L × K → α → Prop}
    (keeps : Keeps (M.both N) (l, k) p post) :
    Keeps M l p fun l' result => ∃ k', post (l', k') result := by
  induction p generalizing l k with
  | ret result => exact ⟨k, keeps⟩
  | ask op resume ih => exact ⟨keeps.1.1, fun reply => ih reply (keeps.2 reply)⟩

/-- Two judgements about one program, for monitors side by side. -/
theorem both {N : Monitor ι K} {k : K} {p : Program ι α} {post : L → α → Prop}
    {post' : K → α → Prop} (first : Keeps M l p post) (second : Keeps N k p post') :
    Keeps (M.both N) (l, k) p fun l' result => post l'.1 result ∧ post' l'.2 result := by
  induction p generalizing l k with
  | ret result => exact ⟨first, second⟩
  | ask op resume ih =>
    exact ⟨⟨first.1, second.1⟩, fun reply => ih reply (first.2 reply) (second.2 reply)⟩

end Keeps

/-! ### From every reply to one environment -/

theorem Keeps.of_run {M : Monitor ι L} {l : L} {p : Program ι α} {post : L → α → Prop}
    (keeps : Keeps M l p post) (environment : List ι.Event → (op : ι.Op) → ι.Reply op)
    (past : List ι.Event) :
    post (M.after l (p.run environment past).1) (p.run environment past).2 := by
  induction p generalizing l past with
  | ret result => exact keeps
  | ask op resume ih => exact ih _ (keeps.2 _) _

end Program
