import Mathlib

/-! # Delimited text

Three ways to mark where a part of a text ends: a run of elements of a class ends at the first
element outside it (`run_inj`), an escaped part ends at the first delimiter that is not escaped
(`escape_inj`), and a framed stream is cut by a reader that takes one frame off its front at a time
(`collect`).
-/

namespace Delimited

variable {α : Type}

/-- A run of elements of a class that is followed by an element outside it ends in one place. -/
theorem run_inj {p : α → Prop} {xs ys rest rest' : List α} {x y : α} (left : ∀ a ∈ xs, p a)
    (right : ∀ a ∈ ys, p a) (stopLeft : ¬ p x) (stopRight : ¬ p y)
    (same : xs ++ x :: rest = ys ++ y :: rest') : xs = ys ∧ x = y ∧ rest = rest' := by
  induction xs generalizing ys with
  | nil =>
    cases ys with
    | nil => exact ⟨rfl, List.cons.inj same⟩
    | cons b ys =>
      have head := (List.cons.inj same).1
      exact absurd (head ▸ right b List.mem_cons_self) stopLeft
  | cons a xs ih =>
    cases ys with
    | nil =>
      have head := (List.cons.inj same).1
      exact absurd (head ▸ left a List.mem_cons_self) stopRight
    | cons b ys =>
      obtain ⟨rfl, tail⟩ := List.cons.inj same
      obtain ⟨rfl, more⟩ := ih (fun c mem => left c (List.mem_cons_of_mem _ mem))
        (fun c mem => right c (List.mem_cons_of_mem _ mem)) tail
      exact ⟨rfl, more⟩

/-! ### Escapes -/

section Escape

variable (special : α → Bool) (mark : α)

/-- Put the mark in front of every special element. -/
def escape : List α → List α
  | [] => []
  | x :: xs => if special x then mark :: x :: escape xs else x :: escape xs

variable {special mark}

/-- An escaped part that is followed by a special element other than the mark ends in one place. -/
theorem escape_inj {xs ys rest rest' : List α} {stop : α} (marked : special mark = true)
    (delimits : special stop = true) (other : stop ≠ mark)
    (same : escape special mark xs ++ stop :: rest = escape special mark ys ++ stop :: rest') :
    xs = ys ∧ rest = rest' := by
  induction xs generalizing ys with
  | nil =>
    cases ys with
    | nil => exact ⟨rfl, (List.cons.inj same).2⟩
    | cons y ys =>
      simp only [escape, List.nil_append] at same
      split at same
      · exact absurd (List.cons.inj same).1 other
      · next plain => exact absurd ((List.cons.inj same).1 ▸ delimits) plain
  | cons x xs ih =>
    cases ys with
    | nil =>
      simp only [escape, List.nil_append] at same
      split at same
      · exact absurd (List.cons.inj same).1.symm other
      · next plain => exact absurd ((List.cons.inj same).1 ▸ delimits) plain
    | cons y ys =>
      simp only [escape] at same
      split at same <;> split at same
      · obtain ⟨-, escaped⟩ := List.cons.inj same
        obtain ⟨rfl, tail⟩ := List.cons.inj escaped
        obtain ⟨rfl, more⟩ := ih tail
        exact ⟨rfl, more⟩
      · next plain => exact absurd ((List.cons.inj same).1 ▸ marked) plain
      · next plain _ => exact absurd ((List.cons.inj same).1 ▸ marked) plain
      · obtain ⟨rfl, tail⟩ := List.cons.inj same
        obtain ⟨rfl, more⟩ := ih tail
        exact ⟨rfl, more⟩

theorem mem_escape {xs : List α} {x : α} (mem : x ∈ escape special mark xs) : x = mark ∨ x ∈ xs := by
  induction xs with
  | nil => exact absurd mem List.not_mem_nil
  | cons y xs ih =>
    simp only [escape] at mem
    split at mem <;> grind

end Escape

/-! ### Frames -/

section Frames

variable (unframe : List α → Option (List α × List α))

/-- Take frames off the front of a stream, at most `fuel` of them: the messages and what is left. -/
def readFrames : Nat → List α → List (List α) × List α
  | 0, stream => ([], stream)
  | fuel + 1, stream =>
    match unframe stream with
    | none => ([], stream)
    | some (message, rest) =>
      let (messages, tail) := readFrames fuel rest
      (message :: messages, tail)

/-- What a collector that reads a stream from its start recovers, and what is left. -/
def collect (stream : List α) : List (List α) × List α := readFrames unframe stream.length stream

variable {unframe} {frame : List α → List α}

/-- A frame is cut off the front of whatever follows it. -/
def CutsOff (unframe : List α → Option (List α × List α)) (frame : List α → List α)
    (message : List α) : Prop :=
  frame message ≠ [] ∧ ∀ rest, unframe (frame message ++ rest) = some (message, rest)

theorem readFrames_flatMap {messages : List (List α)} {tail : List α}
    (carries : ∀ message ∈ messages, CutsOff unframe frame message) (stuck : unframe tail = none)
    {fuel : Nat} (enough : messages.length ≤ fuel) :
    readFrames unframe fuel (messages.flatMap frame ++ tail) = (messages, tail) := by
  induction messages generalizing fuel with
  | nil =>
    cases fuel with
    | zero => rfl
    | succ fuel => simp [readFrames, stuck]
  | cons message messages ih =>
    obtain ⟨here, later⟩ := List.forall_mem_cons.mp carries
    obtain ⟨fuel, rfl⟩ : ∃ more, fuel = more + 1 := ⟨fuel - 1, by simp at enough; omega⟩
    rw [List.flatMap_cons, List.append_assoc]
    simp only [readFrames, here.2, ih later (Nat.le_of_succ_le_succ enough)]

/-- **Frames are recovered.** A collector that reads frames in a row recovers their messages, up to
the first place where no frame stands. -/
theorem collect_flatMap {messages : List (List α)} {tail : List α}
    (carries : ∀ message ∈ messages, CutsOff unframe frame message) (stuck : unframe tail = none) :
    collect unframe (messages.flatMap frame ++ tail) = (messages, tail) := by
  refine readFrames_flatMap carries stuck ?_
  induction messages with
  | nil => exact Nat.zero_le _
  | cons message messages ih =>
    obtain ⟨here, later⟩ := List.forall_mem_cons.mp carries
    have some' := List.length_pos_iff.mpr here.1
    have rest := ih later
    simp only [List.flatMap_cons, List.length_append, List.length_cons] at rest ⊢
    omega

end Frames

end Delimited
