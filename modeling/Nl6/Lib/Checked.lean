import Mathlib

/-! # Checked access to sequences

A language with bounds-checked sequences aborts when an index or a slice expression leaves its
operand. `Checked` is the total embedding of such code: an access outside the operand is an explicit
`Panic` value instead of undefined behaviour. A loop that outlives the bound its model runs it for
is a `Panic` as well, so a computation that returns has both stayed inside its operands and ended.

`Checked.Yields` is the total-correctness judgement over this monad (the computation returns, and
its result satisfies a postcondition); `Checked.Yields.bind` composes it. `Checked.At` names the
part of a buffer that lies behind a cursor, so that a reader can be executed symbolically along the
bytes it consumes.
-/

universe u v

/-- The ways a computation can fail to return: an access outside its operand, or a loop that does
not end within its bound. -/
inductive Panic where
  | indexOutOfRange
  | sliceBounds
  | outOfFuel
  deriving DecidableEq, Repr

/-- Computations that may fail to return. -/
abbrev Checked (α : Type u) : Type u := Except Panic α

namespace Checked

variable {α : Type u} {β : Type v}

/-- The index expression `xs[i]`. -/
def index (xs : List α) (i : Int) : Checked α :=
  if 0 ≤ i then
    match xs[i.toNat]? with
    | some x => .ok x
    | none => .error .indexOutOfRange
  else .error .indexOutOfRange

/-- The slice expression `xs[lo:hi]`. -/
def slice (xs : List α) (lo hi : Int) : Checked (List α) :=
  if 0 ≤ lo ∧ lo ≤ hi ∧ hi ≤ xs.length then .ok ((xs.take hi.toNat).drop lo.toNat)
  else .error .sliceBounds

/-- The assignment `xs[i] = x`. -/
def assign (xs : List α) (i : Int) (x : α) : Checked (List α) :=
  if 0 ≤ i ∧ i < xs.length then .ok (xs.set i.toNat x) else .error .indexOutOfRange

/-- The loop that appends `body(i)` for `count` values of `i`, from `start` on. -/
def tabulate (body : Int → Checked α) : Nat → Int → Checked (List α)
  | 0, _ => .ok []
  | count + 1, start => do
      let x ← body start
      let rest ← tabulate body count (start + 1)
      return x :: rest

@[simp] theorem ok_bind {γ : Type u} (x : α) (f : α → Checked γ) :
    ((Except.ok x : Checked α) >>= f) = f x := rfl

@[simp] theorem error_bind {γ : Type u} (fault : Panic) (f : α → Checked γ) :
    ((Except.error fault : Checked α) >>= f) = .error fault := rfl

@[simp] theorem pure_eq_ok (x : α) : (pure x : Checked α) = .ok x := rfl

@[simp] theorem map_ok {γ : Type u} (f : α → γ) (x : α) :
    (f <$> (Except.ok x : Checked α)) = .ok (f x) := rfl

theorem bind_eq_ok_iff {γ : Type u} {x : Checked α} {f : α → Checked γ} {result : γ} :
    (x >>= f) = .ok result ↔ ∃ a, x = .ok a ∧ f a = .ok result := by
  cases x with
  | error fault => simp
  | ok a => simp

theorem index_of_getElem? {xs : List α} {i : Int} {x : α} (nonneg : 0 ≤ i)
    (found : xs[i.toNat]? = some x) : index xs i = .ok x := by
  simp [index, nonneg, found]

theorem index_of_lt {xs : List α} {i : Int} (nonneg : 0 ≤ i) (below : i < xs.length) :
    ∃ x, xs[i.toNat]? = some x ∧ index xs i = .ok x := by
  have inside : i.toNat < xs.length := by omega
  exact ⟨xs[i.toNat], List.getElem?_eq_getElem inside,
    index_of_getElem? nonneg (List.getElem?_eq_getElem inside)⟩

theorem slice_of_le {xs : List α} {lo hi : Int} (nonneg : 0 ≤ lo) (ordered : lo ≤ hi)
    (inside : hi ≤ xs.length) :
    slice xs lo hi = .ok ((xs.take hi.toNat).drop lo.toNat) := by
  simp [slice, nonneg, ordered, inside]

theorem assign_of_lt {xs : List α} {i : Int} (nonneg : 0 ≤ i) (below : i < xs.length) (x : α) :
    assign xs i x = .ok (xs.set i.toNat x) := by
  simp [assign, nonneg, below]

theorem tabulate_congr {body body' : Int → Checked α} {count : Nat} {start : Int}
    (same : ∀ i, start ≤ i → i < start + count → body i = body' i) :
    tabulate body count start = tabulate body' count start := by
  induction count generalizing start with
  | zero => rfl
  | succ count ih =>
    have first := same start le_rfl (by omega)
    have later : tabulate body count (start + 1) = tabulate body' count (start + 1) :=
      ih fun i low high => same i (by omega) (by push_cast; omega)
    rw [tabulate, tabulate, first, later]

/-! ### Total correctness -/

/-- The computation returns, and its result satisfies the postcondition. -/
def Yields (x : Checked α) (post : α → Prop) : Prop :=
  ∃ result, x = .ok result ∧ post result

namespace Yields

@[simp] theorem ok_iff {x : α} {post : α → Prop} :
    Yields (.ok x) post ↔ post x := by
  simp [Yields]

theorem ok {x : α} {post : α → Prop} (holds : post x) : Yields (.ok x) post :=
  ⟨x, rfl, holds⟩

theorem of_eq {x : Checked α} {result : α} (returned : x = .ok result) :
    Yields x (result = ·) :=
  ⟨result, returned, rfl⟩

theorem bind {γ : Type u} {x : Checked α} {f : α → Checked γ} {mid : α → Prop}
    {post : γ → Prop}
    (first : Yields x mid) (second : ∀ a, mid a → Yields (f a) post) :
    Yields (x >>= f) post := by
  obtain ⟨a, rfl, holds⟩ := first
  exact second a holds

theorem mono {x : Checked α} {post weaker : α → Prop} (strong : Yields x post)
    (imp : ∀ a, post a → weaker a) : Yields x weaker := by
  obtain ⟨a, returned, holds⟩ := strong
  exact ⟨a, returned, imp a holds⟩

theorem ite {condition : Prop} [Decidable condition] {yes no : Checked α} {post : α → Prop}
    (whenTrue : condition → Yields yes post) (whenFalse : ¬ condition → Yields no post) :
    Yields (if condition then yes else no) post := by
  by_cases holds : condition
  · simpa only [holds, ↓reduceIte] using whenTrue holds
  · simpa only [holds, ↓reduceIte] using whenFalse holds

/-- A check in front of the rest. -/
theorem guard {condition : Prop} [Decidable condition] {x : α} {rest : Checked α} {post : α → Prop}
    (stops : post x) (goesOn : ¬ condition → Yields rest post) :
    Yields (if condition then pure x else rest) post :=
  ite (fun _ => ok stops) goesOn

/-- A reader that may find nothing. -/
theorem andThen {γ : Type u} {x : Checked (Option α)} {f : Option α → Checked γ}
    {mid : Option α → Prop} {post : γ → Prop} (first : Yields x mid) (stops : Yields (f none) post)
    (goesOn : ∀ a, mid (some a) → Yields (f (some a)) post) : Yields (x >>= f) post := by
  refine first.bind ?_
  rintro (_ | a) holds
  · exact stops
  · exact goesOn a holds

theorem index {xs : List α} {i : Int} (nonneg : 0 ≤ i) (below : i < xs.length) :
    Yields (Checked.index xs i) fun x => xs[i.toNat]? = some x := by
  obtain ⟨x, found, returned⟩ := index_of_lt nonneg below
  exact ⟨x, returned, found⟩

theorem slice {xs : List α} {lo hi : Int} (nonneg : 0 ≤ lo) (ordered : lo ≤ hi)
    (inside : hi ≤ xs.length) :
    Yields (Checked.slice xs lo hi) fun part => (part.length : Int) = hi - lo := by
  refine ⟨_, slice_of_le nonneg ordered inside, ?_⟩
  simp only [List.length_drop, List.length_take]
  omega

theorem tabulate {body : Int → Checked α} {post : α → Prop} {count : Nat} {start : Int}
    (each : ∀ i, start ≤ i → i < start + count → Yields (body i) post) :
    Yields (Checked.tabulate body count start) fun results =>
      results.length = count ∧ ∀ x ∈ results, post x := by
  induction count generalizing start with
  | zero => exact ok ⟨rfl, by simp⟩
  | succ count ih =>
    refine (each start le_rfl (by omega)).bind fun x holds => ?_
    refine (ih fun i low high => each i (by omega) (by push_cast; omega)).bind ?_
    rintro rest ⟨counted, hold⟩
    exact ok ⟨by rw [List.length_cons, counted], List.forall_mem_cons.mpr ⟨holds, hold⟩⟩

end Yields

/-! ### The bytes behind a cursor -/

/-- The cursor `pos` stands inside `data` and `rest` is everything from it on. -/
structure At (data : List α) (pos : Int) (rest : List α) : Prop where
  nonneg : 0 ≤ pos
  le_length : pos ≤ data.length
  drop_eq : data.drop pos.toNat = rest

namespace At

variable {data rest : List α} {pos : Int}

theorem start (data : List α) : At data 0 data :=
  ⟨by omega, by omega, by simp⟩

theorem of_le {data : List α} (nonneg : 0 ≤ pos) (inside : pos ≤ data.length) :
    At data pos (data.drop pos.toNat) :=
  ⟨nonneg, inside, rfl⟩

theorem of_lt {data : List α} (nonneg : 0 ≤ pos) (inside : pos < data.length) :
    ∃ x rest, At data pos (x :: rest) := by
  have below : pos.toNat < data.length := by omega
  exact ⟨_, _, nonneg, inside.le, List.drop_eq_getElem_cons below⟩

theorem append (front rest : List α) : At (front ++ rest) front.length rest :=
  ⟨by omega, by rw [List.length_append]; omega, by simp⟩

theorem length_eq (here : At data pos rest) : (data.length : Int) = pos + rest.length := by
  have dropped := congrArg List.length here.drop_eq
  rw [List.length_drop] at dropped
  have := here.nonneg
  have := here.le_length
  omega

theorem lt_length {x : α} (here : At data pos (x :: rest)) : pos < data.length := by
  have := here.length_eq
  simp only [List.length_cons] at this
  omega

theorem getElem? {x : α} (here : At data pos (x :: rest)) : data[pos.toNat]? = some x := by
  have first := congrArg (·[0]?) here.drop_eq
  simpa using first

theorem index {x : α} (here : At data pos (x :: rest)) : index data pos = .ok x :=
  index_of_getElem? here.nonneg here.getElem?

theorem unique {other : List α} (here : At data pos rest) (also : At data pos other) :
    rest = other :=
  here.drop_eq.symm.trans also.drop_eq

/-- Two ways to split what is behind a cursor agree when the fronts are equally long. -/
theorem append_inj {front back front' back' : List α} (here : At data pos (front ++ back))
    (also : At data pos (front' ++ back')) (same : front.length = front'.length) :
    front = front' ∧ back = back' :=
  List.append_inj (here.unique also) same

theorem advance {front : List α} (here : At data pos (front ++ rest)) :
    At data (pos + front.length) rest := by
  have total := here.length_eq
  rw [List.length_append] at total
  refine ⟨?_, ?_, ?_⟩
  · have := here.nonneg
    omega
  · omega
  · have split : (pos + front.length).toNat = pos.toNat + front.length := by
      have := here.nonneg
      omega
    rw [split, ← List.drop_drop, here.drop_eq, List.drop_left]

theorem step {x : α} (here : At data pos (x :: rest)) : At data (pos + 1) rest := by
  have moved : At data (pos + [x].length) rest := advance here
  simpa using moved

theorem extend {whole tail : List α} (here : At data pos rest) (split : whole = data ++ tail) :
    At whole pos (rest ++ tail) := by
  have inside := here.le_length
  refine ⟨here.nonneg, by rw [split, List.length_append]; omega, ?_⟩
  rw [split, List.drop_append_of_le_length (by omega), here.drop_eq]

theorem restrict {front part tail : List α}
    (here : At data pos (part ++ tail)) (split : data = front ++ tail) : At front pos part := by
  have total := here.length_eq
  have nonneg := here.nonneg
  rw [split, List.length_append, List.length_append] at total
  refine ⟨nonneg, by omega, ?_⟩
  have dropped := here.drop_eq
  rw [split, List.drop_append_of_le_length (by omega)] at dropped
  exact List.append_cancel_right dropped

theorem slice {front : List α} (here : At data pos (front ++ rest)) :
    slice data pos (pos + front.length) = .ok front := by
  have total := here.length_eq
  rw [List.length_append] at total
  rw [slice_of_le here.nonneg (by omega) (by omega)]
  have split : (pos + front.length).toNat = pos.toNat + front.length := by
    have := here.nonneg
    omega
  rw [split, List.drop_take, here.drop_eq]
  simp

theorem of_slice {lo hi : Int} {part : List α} (sliced : Checked.slice data lo hi = .ok part) :
    ∃ rest, At data lo (part ++ rest) := by
  rw [Checked.slice] at sliced
  split_ifs at sliced with bounds
  obtain ⟨nonneg, ordered, inside⟩ := bounds
  cases sliced
  have width : hi.toNat = lo.toNat + (hi - lo).toNat := by omega
  refine ⟨(data.drop lo.toNat).drop (hi - lo).toNat, ?_⟩
  rw [List.drop_take, width, Nat.add_sub_cancel_left, List.take_append_drop]
  exact of_le nonneg (ordered.trans inside)

theorem fromStart (here : At data pos rest) :
    ∃ front, Checked.slice data 0 pos = .ok front ∧ data = front ++ rest ∧
      (front.length : Int) = pos := by
  have nonneg := here.nonneg
  have inside := here.le_length
  refine ⟨data.take pos.toNat, ?_, ?_, ?_⟩
  · rw [slice_of_le le_rfl nonneg inside]
    simp
  · rw [← here.drop_eq, List.take_append_drop]
  · rw [List.length_take]
    omega

theorem toEnd (here : At data pos rest) : Checked.slice data pos data.length = .ok rest := by
  rw [slice_of_le here.nonneg here.le_length (by omega)]
  simp [here.drop_eq]

end At

end Checked
