import Mathlib

/-! # One-shot timers with late callbacks

A one-shot timer fires at its deadline or later, and its callback may then wait for a lock for any
time. Stopping a timer that has fired does not recall its callback. A holder of such timers
therefore numbers them: each callback has captured the generation it was armed under, and goes on
only if that is still the current one.

The timers that have not yet run their callbacks form a list. `Timer.Dated` says that no generation
is ahead of the current one and that none was given out twice, so at most one callback can still go
on.
-/

/-- A timer whose callback has not run yet. -/
structure Timer (α : Type) where
  gen : Nat
  deadline : Nat
  fired : Bool
  captured : α
  deriving DecidableEq, Repr

namespace Timer

variable {α : Type} {gen now index : Nat} {timers next : List (Timer α)} {t : Timer α}

/-- Stop the timer of a generation. A callback that has been fired is not recalled. -/
def stop (gen : Nat) (timers : List (Timer α)) : List (Timer α) :=
  timers.filter fun t => t.gen ≠ gen || t.fired

/-- The runtime fires a timer that is due. -/
def fire (timers : List (Timer α)) (index now : Nat) : Option (List (Timer α)) :=
  match timers[index]? with
  | none => none
  | some t =>
    if t.fired = false ∧ t.deadline ≤ now then some (timers.set index { t with fired := true })
    else none

/-- The callback of a fired timer gets to run. -/
def take (timers : List (Timer α)) (index : Nat) : Option (Timer α × List (Timer α)) :=
  match timers[index]? with
  | none => none
  | some t => if t.fired then some (t, timers.eraseIdx index) else none

theorem fire_cases (fires : fire timers index now = some next) :
    ∃ front t back, timers = front ++ t :: back ∧
      next = front ++ { t with fired := true } :: back := by
  unfold fire at fires
  split at fires
  · exact nomatch fires
  · next t found =>
      split at fires
      · obtain ⟨below, here⟩ := List.getElem?_eq_some_iff.mp found
        refine ⟨timers.take index, t, timers.drop (index + 1), ?_, ?_⟩
        · rw [← here, List.cons_getElem_drop_succ, List.take_append_drop]
        · rw [← Option.some.inj fires, List.set_eq_take_append_cons_drop, if_pos below]
      · exact nomatch fires

theorem take_cases (takes : take timers index = some (t, next)) :
    ∃ front back, timers = front ++ t :: back ∧ next = front ++ back := by
  unfold take at takes
  split at takes
  · exact nomatch takes
  · next found =>
      split at takes
      · cases takes
        obtain ⟨below, here⟩ := List.getElem?_eq_some_iff.mp found
        refine ⟨timers.take index, timers.drop (index + 1), ?_, ?_⟩
        · rw [← here, List.cons_getElem_drop_succ, List.take_append_drop]
        · rw [List.eraseIdx_eq_take_drop_succ]
      · exact nomatch takes

theorem mem_of_take (takes : take timers index = some (t, next)) : t ∈ timers := by
  obtain ⟨front, back, rfl, -⟩ := take_cases takes
  exact by simp

theorem subset_of_take (takes : take timers index = some (t, next)) {u : Timer α}
    (mem : u ∈ next) : u ∈ timers := by
  obtain ⟨front, back, rfl, rfl⟩ := take_cases takes
  rcases List.mem_append.mp mem with before | behind
  · exact List.mem_append_left _ before
  · exact List.mem_append_right _ (List.mem_cons_of_mem _ behind)

theorem mem_of_fire (fires : fire timers index now = some next) {u : Timer α} (mem : u ∈ next) :
    ∃ t ∈ timers, t.gen = u.gen ∧ t.captured = u.captured := by
  obtain ⟨front, t, back, rfl, rfl⟩ := fire_cases fires
  rcases List.mem_append.mp mem with before | here
  · exact ⟨u, List.mem_append_left _ before, rfl, rfl⟩
  · rcases List.mem_cons.mp here with rfl | behind
    · exact ⟨t, List.mem_append_right _ List.mem_cons_self, rfl, rfl⟩
    · exact ⟨u, List.mem_append_right _ (List.mem_cons_of_mem _ behind), rfl, rfl⟩

theorem mem_fire (fires : fire timers index now = some next) (mem : t ∈ timers) :
    ∃ u ∈ next, u.gen = t.gen ∧ u.captured = t.captured := by
  obtain ⟨front, t', back, rfl, rfl⟩ := fire_cases fires
  rcases List.mem_append.mp mem with before | here
  · exact ⟨t, List.mem_append_left _ before, rfl, rfl⟩
  · rcases List.mem_cons.mp here with rfl | behind
    · exact ⟨_, List.mem_append_right _ List.mem_cons_self, rfl, rfl⟩
    · exact ⟨t, List.mem_append_right _ (List.mem_cons_of_mem _ behind), rfl, rfl⟩

/-- The generations of the timers were given out one by one, up to the current one. -/
structure Dated (gen : Nat) (timers : List (Timer α)) : Prop where
  le : ∀ t ∈ timers, t.gen ≤ gen
  distinct : (timers.map Timer.gen).Nodup

namespace Dated

variable (dated : Dated gen timers)

include dated

theorem lt_succ : ∀ t ∈ timers, t.gen < gen + 1 :=
  fun t mem => Nat.lt_succ_of_le (dated.le t mem)

theorem countP_le_one : timers.countP (·.gen = gen) ≤ 1 := by
  have once := List.nodup_iff_count_le_one.mp dated.distinct gen
  rw [List.count, List.countP_map] at once
  refine le_of_eq_of_le (List.countP_congr fun t _ => ?_) once
  simp [beq_iff_eq]

theorem stop (stopped : Nat) : Dated gen (stop stopped timers) where
  le t mem := dated.le t (List.mem_of_mem_filter mem)
  distinct := dated.distinct.sublist (List.filter_sublist.map _)

theorem succ : Dated (gen + 1) timers where
  le t mem := (dated.lt_succ t mem).le
  distinct := dated.distinct

theorem append (fresh : ∀ u ∈ timers, u.gen < gen)
    (current : t.gen = gen) : Dated gen (timers ++ [t]) where
  le u mem := by
    rcases List.mem_append.mp mem with old | new
    · exact dated.le u old
    · rw [List.mem_singleton.mp new, current]
  distinct := by
    rw [List.map_append, List.nodup_append]
    refine ⟨dated.distinct, List.nodup_singleton _, ?_⟩
    intro g old g' new same
    obtain ⟨u, mem, rfl⟩ := List.mem_map.mp old
    rw [List.map_singleton, List.mem_singleton, current] at new
    have below := fresh u mem
    omega

theorem fire (fires : Timer.fire timers index now = some next) :
    Dated gen next where
  le u mem := by
    obtain ⟨t, old, same, -⟩ := mem_of_fire fires mem
    exact same ▸ dated.le t old
  distinct := by
    obtain ⟨front, t, back, rfl, rfl⟩ := fire_cases fires
    have distinct := dated.distinct
    rw [List.map_append, List.map_cons] at distinct ⊢
    exact distinct

theorem take (takes : Timer.take timers index = some (t, next)) :
    Dated gen next where
  le _ mem := dated.le _ (subset_of_take takes mem)
  distinct := by
    obtain ⟨front, back, rfl, rfl⟩ := take_cases takes
    exact dated.distinct.sublist (((List.sublist_cons_self t back).append_left front).map _)

/-- Once the current callback runs, no other callback is current. -/
theorem lt_of_take (takes : Timer.take timers index = some (t, next))
    (current : t.gen = gen) : ∀ u ∈ next, u.gen < gen := by
  intro u mem
  refine lt_of_le_of_ne (dated.le u (subset_of_take takes mem)) fun same => ?_
  obtain ⟨front, back, rfl, rfl⟩ := take_cases takes
  have distinct := dated.distinct
  rw [List.map_append, List.map_cons, List.nodup_middle, List.nodup_cons, ← List.map_append]
    at distinct
  exact distinct.1 (List.mem_map.mpr ⟨u, mem, same.trans current.symm⟩)

end Dated

end Timer
