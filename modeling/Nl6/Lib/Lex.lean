import Mathlib

/-! # Lexicographic order below a common prefix

Facts about the lexicographic order of sequences that share a prefix: comparing two extensions of a
prefix, and comparing a sequence that does not extend the prefix with one that does.
-/

namespace Lex

variable {α : Type*} [LinearOrder α]

theorem append_lt_append_left_iff (front : List α) {left right : List α} :
    front ++ left < front ++ right ↔ left < right := by
  induction front with
  | nil => rfl
  | cons x front ih =>
    rw [List.cons_append, List.cons_append, List.cons_lt_cons_iff, ih]
    simp

theorem append_le_append_left_iff (front : List α) {left right : List α} :
    front ++ left ≤ front ++ right ↔ left ≤ right := by
  rw [← not_lt, append_lt_append_left_iff, not_lt]

/-- A sequence that does not properly extend a prefix compares with every extension alike. -/
theorem lt_append_cons_iff {front xs tail : List α} {x : α}
    (apart : ∀ n rest, xs ≠ front ++ n :: rest) : xs < front ++ x :: tail ↔ xs ≤ front := by
  induction front generalizing xs with
  | nil =>
    cases xs with
    | nil => simp
    | cons n rest => exact absurd rfl (apart n rest)
  | cons y front ih =>
    cases xs with
    | nil => exact ⟨fun _ => (List.nil_lt_cons y front).le, fun _ => List.nil_lt_cons y _⟩
    | cons n rest =>
      rw [List.cons_append, List.cons_lt_cons_iff, le_iff_lt_or_eq, List.cons_lt_cons_iff,
        List.cons.injEq]
      by_cases same : n = y
      · subst same
        have inner : rest < front ++ x :: tail ↔ rest ≤ front :=
          ih fun m more same => apart m more (by rw [same]; rfl)
        rw [inner, le_iff_lt_or_eq]
        simp
      · simp [same]

/-- Below a common prefix, the first differing component decides. -/
theorem append_cons_lt_append_cons (front : List α) {x y : α} (less : x < y)
    (left right : List α) : front ++ x :: left < front ++ y :: right := by
  rw [append_lt_append_left_iff, List.cons_lt_cons_iff]
  exact .inl less

end Lex
