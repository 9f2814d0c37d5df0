import Mathlib

/-! # Writing into a buffer

`copyAt` overwrites part of a buffer in place. A gap in front of the contents is closed by copying
them down and cutting the end off (`take_copyAt_gap`), and opened by copying them up into space
appended at the end (`copyAt_move_up`).

`Frames` says that an assembler keeps a part of a fixed length in its place, so that the part can be
exchanged afterwards.

`AgreeUpTo` compares two ways to assemble a message of bounded size: the results are equal, or both
are too long. It is a congruence for concatenation, so two assemblers are compared part by part.
-/

namespace Buffer

variable {α : Type}

/-- Overwrite the buffer with `src` from a position on, as far as it reaches. -/
def copyAt (dst : List α) (pos : Nat) (src : List α) : List α :=
  dst.take pos ++ (src.take (dst.length - pos) ++ dst.drop (pos + src.length))

theorem length_copyAt {dst : List α} {pos : Nat} (inside : pos ≤ dst.length)
    (src : List α) : (copyAt dst pos src).length = dst.length := by
  simp only [copyAt, List.length_append, List.length_take, List.length_drop]
  omega

theorem copyAt_append {old src : List α} (front back : List α) (same : src.length = old.length) :
    copyAt (front ++ (old ++ back)) front.length src = front ++ (src ++ back) := by
  have whole : src.take (old.length + back.length) = src :=
    List.take_of_length_le (by omega)
  simp [copyAt, whole, same, List.drop_append]

theorem take_copyAt_gap (front gap contents : List α) :
    (copyAt (front ++ (gap ++ contents)) front.length contents).take
      (front.length + contents.length) = front ++ contents := by
  have whole : contents.take (gap.length + contents.length) = contents :=
    List.take_of_length_le (by omega)
  simp [copyAt, whole, List.take_append]

/-- Opening a gap in front of the contents, in space appended behind them. What stands in the gap is
left over from before. -/
theorem copyAt_move_up (front contents space : List α) :
    ∃ left, left.length = space.length ∧
      copyAt (front ++ (contents ++ space)) (front.length + space.length) contents =
        front ++ (left ++ contents) := by
  refine ⟨(contents ++ space).take space.length, by simp, ?_⟩
  have whole : contents.take (contents.length + space.length - space.length) = contents :=
    List.take_of_length_le (by omega)
  have behind : front.length + space.length + contents.length =
      (front ++ (contents ++ space)).length := by
    simp only [List.length_append]
    omega
  rw [copyAt, behind, List.drop_length, List.append_nil]
  have room : (front ++ (contents ++ space)).length - (front.length + space.length) =
      contents.length + space.length - space.length := by
    simp only [List.length_append]
    omega
  rw [room, whole, List.take_length_add_append, List.append_assoc]

/-! ### A part in its frame -/

/-- The function puts a part of length `n` between a front that does not depend on it and `rest`. -/
def Frames (n : Nat) (rest : List α) (f : List α → List α) : Prop :=
  ∃ front, ∀ part, part.length = n → f part = front ++ (part ++ rest)

namespace Frames

variable {n : Nat} {rest : List α} {f : List α → List α}

theorem self (n : Nat) : Frames n [] fun part : List α => part := ⟨[], by simp⟩

theorem behind (ahead : List α) (frames : Frames n rest f) :
    Frames n rest fun part => ahead ++ f part := by
  obtain ⟨front, framed⟩ := frames
  refine ⟨ahead ++ front, fun part sized => ?_⟩
  simp [framed part sized]

theorem before (more : List α) (frames : Frames n rest f) :
    Frames n (rest ++ more) fun part => f part ++ more := by
  obtain ⟨front, framed⟩ := frames
  refine ⟨front, fun part sized => ?_⟩
  simp [framed part sized]

/-- A header that depends on the length of what follows does not depend on the part. -/
theorem headed (header : Nat → List α) (frames : Frames n rest f) :
    Frames n rest fun part => header (f part).length ++ f part := by
  obtain ⟨front, framed⟩ := frames
  refine ⟨header (front.length + (n + rest.length)) ++ front, fun part sized => ?_⟩
  simp [framed part sized, sized]

theorem exchange (frames : Frames n rest f) {old new front : List α} (oldSized : old.length = n)
    (newSized : new.length = n) (split : f old = front ++ (old ++ rest)) :
    f new = front ++ (new ++ rest) := by
  obtain ⟨fixed, framed⟩ := frames
  have same : fixed = front := List.append_cancel_right ((framed old oldSized).symm.trans split)
  rw [framed new newSized, same]

end Frames

/-- Equal, or both longer than the limit. -/
def AgreeUpTo (limit : Nat) (left right : List α) : Prop :=
  left = right ∨ limit < left.length ∧ limit < right.length

namespace AgreeUpTo

variable {limit : Nat} {a b c d : List α}

theorem refl (limit : Nat) (a : List α) : AgreeUpTo limit a a := .inl rfl

theorem append (front : AgreeUpTo limit a b) (back : AgreeUpTo limit c d) :
    AgreeUpTo limit (a ++ c) (b ++ d) := by
  rcases front with rfl | ⟨left, right⟩
  · rcases back with rfl | ⟨left, right⟩
    · exact .inl rfl
    · refine .inr ⟨?_, ?_⟩ <;> rw [List.length_append] <;> omega
  · refine .inr ⟨?_, ?_⟩ <;> rw [List.length_append] <;> omega

/-- Messages that agree pass the size check together, and then they are equal. -/
theorem checked (agree : AgreeUpTo limit a b) :
    (if limit < a.length then none else some a) = if limit < b.length then none else some b := by
  rcases agree with rfl | ⟨left, right⟩
  · rfl
  · rw [if_pos left, if_pos right]

end AgreeUpTo

end Buffer
