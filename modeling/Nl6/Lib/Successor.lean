import Nl6.Lib.Checked

/-! # Successor queries over ordered sources

A successor query asks for the least key above a given one in a set of keys. `IsNext` states its
answer; `merged_isFirst` reduces a query over a union of sources to one candidate per source, and
`merged_first` says which source a tie goes to. `Successor.search` is binary search for the first
element above a threshold, executed with checked indexing (`search_eq`). `firstMin` is the fold that
keeps the first of several least candidates.
-/

namespace Successor

section Queries

variable {Key : Type*} [LinearOrder Key]

/-- The answer of a successor query at `start` over the keys `served`. -/
def IsNext (served : Set Key) (start : Key) : Option Key → Prop
  | some next => IsLeast {key | key ∈ served ∧ start < key} next
  | none => ∀ key ∈ served, ¬ start < key

variable {served : Set Key} {start : Key} {answer : Option Key}

theorem IsNext.unique {first second : Option Key} (left : IsNext served start first)
    (right : IsNext served start second) : first = second := by
  cases first with
  | none =>
    cases second with
    | none => rfl
    | some next => exact absurd right.1.2 (left next right.1.1)
  | some next =>
    cases second with
    | none => exact absurd left.1.2 (right next left.1.1)
    | some other => rw [IsLeast.unique left right]

/-- The least key of a set, if it has one; none for the empty set. -/
def IsFirst (keys : Set Key) : Option Key → Prop
  | some first => IsLeast keys first
  | none => keys = ∅

/-- A successor query asks for the least of the served keys above the start. -/
theorem isNext_iff_isFirst :
    IsNext served start answer ↔ IsFirst {key | key ∈ served ∧ start < key} answer := by
  cases answer with
  | none =>
    rw [IsFirst, Set.eq_empty_iff_forall_notMem]
    exact ⟨fun none key inside => none key inside.1 inside.2,
      fun empty key present above => empty key ⟨present, above⟩⟩
  | some next => exact Iff.rfl

/-- An answer over fewer keys answers the larger query exactly when every further key above the
start is at or above one of the fewer ones. -/
theorem IsNext.answers_iff {fewer : Set Key} (subset : fewer ⊆ served)
    (exact_fewer : IsNext fewer start answer) :
    IsNext served start answer ↔
      ∀ key ∈ served, start < key → ∃ other ∈ fewer, start < other ∧ other ≤ key := by
  cases answer with
  | none =>
    constructor
    · intro none key present above
      exact absurd above (none key present)
    · intro covered key present above
      obtain ⟨other, listed, higher, -⟩ := covered key present above
      exact exact_fewer other listed higher
  | some next =>
    constructor
    · intro least key present above
      exact ⟨next, exact_fewer.1.1, exact_fewer.1.2, least.2 ⟨present, above⟩⟩
    · intro covered
      refine ⟨⟨subset exact_fewer.1.1, exact_fewer.1.2⟩, ?_⟩
      rintro key ⟨present, above⟩
      obtain ⟨other, listed, higher, below⟩ := covered key present above
      exact (exact_fewer.2 ⟨listed, higher⟩).trans below

end Queries

section FirstMin

variable {α : Type*} {Key : Type*} [LinearOrder Key]

/-- The fold that replaces the best candidate only by a strictly smaller one. -/
def firstMin (less : α → α → Bool) (best : α) (rest : List α) : α :=
  rest.foldl (fun best next => if less next best then next else best) best

/-- The fold returns one of the candidates, none is below it, and it is the first such one. -/
theorem firstMin_spec {less : α → α → Bool} {key : α → Key} (best : α) (rest : List α)
    (realises : ∀ a ∈ best :: rest, ∀ b ∈ best :: rest, less a b = true ↔ key a < key b) :
    ∃ front back, best :: rest = front ++ firstMin less best rest :: back ∧
      (∀ a ∈ front, key (firstMin less best rest) < key a) ∧
      (∀ a ∈ best :: rest, key (firstMin less best rest) ≤ key a) := by
  induction rest generalizing best with
  | nil => exact ⟨[], [], rfl, by simp, by simp [firstMin]⟩
  | cons next rest ih =>
    have inner : firstMin less best (next :: rest)
        = firstMin less (if less next best then next else best) rest := rfl
    by_cases smaller : less next best = true
    · have below : key next < key best :=
        (realises next (by simp) best (by simp)).mp smaller
      rw [inner]
      simp only [smaller, ↓reduceIte]
      obtain ⟨front, back, split, strict, least⟩ := ih next fun a listed b other =>
        realises a (List.mem_cons_of_mem _ listed) b (List.mem_cons_of_mem _ other)
      refine ⟨best :: front, back, by rw [split]; rfl, ?_, ?_⟩
      · intro a listed
        rcases List.mem_cons.mp listed with rfl | listed
        · exact (least next (by simp)).trans_lt below
        · exact strict a listed
      · intro a listed
        rcases List.mem_cons.mp listed with rfl | listed
        · exact ((least next (by simp)).trans_lt below).le
        · exact least a listed
    · have notBelow : key best ≤ key next :=
        not_lt.mp fun lower => smaller ((realises next (by simp) best (by simp)).mpr lower)
      rw [inner]
      simp only [smaller, Bool.false_eq_true, ↓reduceIte]
      obtain ⟨front, back, split, strict, least⟩ := ih best fun a listed b other =>
        realises a (by simp only [List.mem_cons] at listed ⊢; tauto) b
          (by simp only [List.mem_cons] at other ⊢; tauto)
      have bounded : ∀ a ∈ best :: next :: rest, key (firstMin less best rest) ≤ key a := by
        intro a listed
        simp only [List.mem_cons] at listed
        rcases listed with rfl | rfl | listed
        · exact least a (by simp)
        · exact (least best (by simp)).trans notBelow
        · exact least a (by simp [listed])
      cases front with
      | nil =>
        simp only [List.nil_append, List.cons.injEq] at split
        exact ⟨[], next :: rest, by rw [← split.1]; rfl, by simp, bounded⟩
      | cons first front =>
        simp only [List.cons_append, List.cons.injEq] at split
        obtain ⟨rfl, split⟩ := split
        refine ⟨best :: next :: front, back, congrArg (best :: next :: ·) split, ?_, bounded⟩
        intro a listed
        simp only [List.mem_cons] at listed
        rcases listed with rfl | rfl | listed
        · exact strict a (by simp)
        · exact (strict best (by simp)).trans_le notBelow
        · exact strict a (by simp [listed])

theorem firstMin_map {β : Type*} {less : α → α → Bool} {less' : β → β → Bool} {f : α → β} (best : α)
    (rest : List α) (same : ∀ a ∈ best :: rest, ∀ b ∈ best :: rest, less' (f a) (f b) = less a b) :
    firstMin less' (f best) (rest.map f) = f (firstMin less best rest) := by
  induction rest generalizing best with
  | nil => rfl
  | cons next rest ih =>
    rw [firstMin, firstMin, List.map_cons, List.foldl_cons, List.foldl_cons,
      same next (by simp) best (by simp), ← apply_ite f]
    refine ih _ ?_
    intro a listed b other
    by_cases smaller : less next best = true
    · simp only [smaller, ↓reduceIte] at listed other
      exact same a (List.mem_cons_of_mem _ listed) b (List.mem_cons_of_mem _ other)
    · simp only [smaller, Bool.false_eq_true, ↓reduceIte] at listed other
      exact same a (by simp only [List.mem_cons] at listed ⊢; tauto) b
        (by simp only [List.mem_cons] at other ⊢; tauto)

end FirstMin

section Merge

variable {Source Key : Type*} [LinearOrder Key]

/-- One candidate for each consulted source that has one, in the order of the sources. -/
def candidates (next : Source → Option Key) (consulted : List Source) : List (Source × Key) :=
  consulted.filterMap fun source => (next source).map fun key => (source, key)

/-- The first of the least candidates. -/
def merged : List (Source × Key) → Option (Source × Key)
  | [] => none
  | first :: rest => some (firstMin (fun a b => decide (a.2 < b.2)) first rest)

/-- The keys of the consulted sources. -/
def union (keys : Source → Set Key) (consulted : List Source) : Set Key :=
  {key | ∃ source ∈ consulted, key ∈ keys source}

variable {keys : Source → Set Key} {next : Source → Option Key} {consulted : List Source}

omit [LinearOrder Key] in
theorem mem_candidates {source : Source} {key : Key} :
    (source, key) ∈ candidates next consulted ↔ source ∈ consulted ∧ next source = some key := by
  simp [candidates]

private theorem merged_spec (all : List (Source × Key)) :
    (merged all = none ∧ all = []) ∨
      ∃ best front back, merged all = some best ∧ all = front ++ best :: back ∧
        (∀ a ∈ front, best.2 < a.2) ∧ ∀ a ∈ all, best.2 ≤ a.2 := by
  cases all with
  | nil => exact .inl ⟨rfl, rfl⟩
  | cons first rest =>
    have realises : ∀ a ∈ first :: rest, ∀ b ∈ first :: rest,
        (fun a b : Source × Key => decide (a.2 < b.2)) a b = true ↔ a.2 < b.2 :=
      fun a _ b _ => decide_eq_true_iff
    obtain ⟨front, back, split, strict, least⟩ := firstMin_spec first rest realises
    exact .inr ⟨_, front, back, rfl, split, strict, least⟩

theorem merged_mem {all : List (Source × Key)} {choice : Source × Key}
    (found : merged all = some choice) : choice ∈ all := by
  rcases merged_spec all with ⟨none, -⟩ | ⟨best, front, back, same, split, -⟩
  · simp [none] at found
  · obtain rfl := Option.some.inj (same.symm.trans found)
    simp [split]

/-- **Candidate merging.** If every consulted source names its least key, the merge finds the least
key of them all. -/
theorem merged_isFirst (exact_each : ∀ source ∈ consulted, IsFirst (keys source) (next source)) :
    IsFirst (union keys consulted) ((merged (candidates next consulted)).map Prod.snd) := by
  rcases merged_spec (candidates next consulted) with ⟨none, empty⟩ | ⟨best, front, back, found,
    split, -, least⟩
  · rw [none]
    refine Set.eq_empty_iff_forall_notMem.mpr ?_
    rintro key ⟨source, listed, owned⟩
    cases candidate : next source with
    | none =>
      have := exact_each source listed
      rw [candidate, IsFirst] at this
      simp [this] at owned
    | some first =>
      have member := mem_candidates.mpr ⟨listed, candidate⟩
      simp [empty] at member
  · rw [found]
    have member : best ∈ candidates next consulted := by simp [split]
    obtain ⟨listed, candidate⟩ := mem_candidates.mp (Prod.mk.eta (p := best) ▸ member)
    have own := exact_each best.1 listed
    rw [candidate] at own
    refine ⟨⟨best.1, listed, own.1⟩, ?_⟩
    rintro key ⟨source, other, owned⟩
    have theirs := exact_each source other
    cases rival : next source with
    | none =>
      rw [rival, IsFirst] at theirs
      simp [theirs] at owned
    | some first =>
      rw [rival] at theirs
      exact (least _ (mem_candidates.mpr ⟨other, rival⟩)).trans (theirs.2 owned)

/-- Ties go to the first consulted source that owns the key. -/
theorem merged_first (exact_each : ∀ source ∈ consulted, IsFirst (keys source) (next source))
    {source : Source} {key : Key} (found : merged (candidates next consulted) = some (source, key)) :
    ∃ front back, consulted = front ++ source :: back ∧ key ∈ keys source ∧
      ∀ other ∈ front, key ∉ keys other := by
  rcases merged_spec (candidates next consulted) with ⟨none, -⟩ | ⟨best, front, back, same, split,
    strict, least⟩
  · rw [none] at found
    simp at found
  · obtain rfl : best = (source, key) := Option.some.inj (same.symm.trans found)
    obtain ⟨before, rest, parts, reading, remaining⟩ := List.filterMap_eq_append_iff.mp split
    obtain ⟨skipped, chosen, after, more, silent, picked, -⟩ :=
      List.filterMap_eq_cons_iff.mp remaining
    obtain ⟨first, candidate, named⟩ := Option.map_eq_some_iff.mp picked
    obtain ⟨rfl, rfl⟩ := Prod.mk.inj named
    have own := exact_each chosen (by simp [parts, more])
    rw [candidate] at own
    refine ⟨before ++ skipped, after, by simp [parts, more], own.1, ?_⟩
    intro other earlier owned
    have listed : other ∈ consulted := by
      rw [parts, more, ← List.append_assoc]
      exact List.mem_append_left _ earlier
    have theirs := exact_each other listed
    cases rival : next other with
    | none =>
      rw [rival, IsFirst] at theirs
      simp [theirs] at owned
    | some lower =>
      rw [rival] at theirs
      rcases List.mem_append.mp earlier with inFront | inSkipped
      · have member : (other, lower) ∈ front := by
          rw [← reading]
          exact List.mem_filterMap.mpr ⟨other, inFront, by simp [rival]⟩
        exact absurd (theirs.2 owned) (strict _ member).not_ge
      · have := silent other inSkipped
        simp [rival] at this

end Merge

section Search

variable {α : Type}

/-- Binary search for the first element that does not satisfy `below`, with checked indexing. -/
def searchFrom (xs : List α) (below : α → Bool) : Nat → Nat → Nat → Checked Nat
  | 0, lo, _ => .ok lo
  | fuel + 1, lo, hi =>
    if lo < hi then do
      let x ← Checked.index xs ((lo + hi) / 2 : Nat)
      if below x then searchFrom xs below fuel ((lo + hi) / 2 + 1) hi
      else searchFrom xs below fuel lo ((lo + hi) / 2)
    else .ok lo

/-- Binary search over a whole list. -/
def search (xs : List α) (below : α → Bool) : Checked Nat :=
  searchFrom xs below xs.length 0 xs.length

private theorem searchFrom_eq {xs : List α} {below : α → Bool} {cut : Nat}
    (low : ∀ i x, xs[i]? = some x → i < cut → below x = true)
    (high : ∀ i x, xs[i]? = some x → cut ≤ i → below x = false)
    (fuel lo hi : Nat) (enough : hi - lo ≤ fuel) (atLeast : lo ≤ cut) (atMost : cut ≤ hi)
    (inside : hi ≤ xs.length) : searchFrom xs below fuel lo hi = .ok cut := by
  induction fuel generalizing lo hi with
  | zero =>
    rw [searchFrom]
    congr 1
    omega
  | succ fuel ih =>
    rw [searchFrom]
    by_cases room : lo < hi
    · have bounded : (((lo + hi) / 2 : Nat) : Int) < xs.length := by omega
      obtain ⟨x, found, returned⟩ := Checked.index_of_lt (by omega) bounded
      simp only [room, ↓reduceIte, returned, Checked.ok_bind]
      by_cases under : (lo + hi) / 2 < cut
      · rw [low _ x found under]
        exact ih _ _ (by omega) (by omega) atMost inside
      · rw [high _ x found (by omega)]
        exact ih _ _ (by omega) atLeast (by omega) (by omega)
    · simp only [room, ↓reduceIte]
      congr 1
      omega

/-- **Binary search.** On a list that `below` splits into a satisfying front and a rest, the search
returns the length of the front without leaving the list. -/
theorem search_eq {xs : List α} {below : α → Bool}
    (ordered : xs.Pairwise fun a b => below b = true → below a = true) :
    search xs below = .ok (xs.takeWhile below).length := by
  have front : ∀ i x, xs[i]? = some x → i < (xs.takeWhile below).length → below x = true := by
    intro i x found inside
    rw [← List.takeWhile_append_dropWhile (p := below) (l := xs),
      List.getElem?_append_left inside] at found
    exact List.mem_takeWhile_imp (List.mem_of_getElem? found)
  have back : ∀ i x, xs[i]? = some x → (xs.takeWhile below).length ≤ i → below x = false := by
    intro i x found outside
    have suffix : xs.dropWhile below <:+ xs := List.dropWhile_suffix below
    have split : xs.takeWhile below ++ xs.dropWhile below = xs := List.takeWhile_append_dropWhile
    have later : x ∈ xs.dropWhile below := by
      rw [← split, List.getElem?_append_right outside] at found
      exact List.mem_of_getElem? found
    cases rest : xs.dropWhile below with
    | nil => simp [rest] at later
    | cons first tail =>
      have stops : below first = false := by
        have := List.head?_dropWhile_not below xs
        simpa [rest] using this
      rw [rest] at suffix later
      rcases List.mem_cons.mp later with rfl | later
      · exact stops
      · have pair := (List.pairwise_cons.mp (ordered.sublist suffix.sublist)).1 x later
        by_contra satisfied
        exact absurd (pair (by simpa using satisfied)) (by simp [stops])
  exact searchFrom_eq front back _ 0 xs.length (by omega) (by omega)
    ((List.takeWhile_prefix below).length_le) le_rfl

theorem getElem?_takeWhile_length (xs : List α) (below : α → Bool) :
    xs[(xs.takeWhile below).length]? = xs.find? fun x => !below x := by
  induction xs with
  | nil => rfl
  | cons x xs ih =>
    by_cases under : below x = true
    · simpa [under] using ih
    · simp [under]

/-- The element a binary search ends on, if it ends inside the list. -/
theorem search_bind {β : Type} {xs : List α} {below : α → Bool}
    (ordered : xs.Pairwise fun a b => below b = true → below a = true) (found : α → Checked β)
    (absent : Checked β) :
    (search xs below >>= fun lo =>
      if lo < xs.length then Checked.index xs (lo : Nat) >>= found else absent) =
      ((xs.find? fun x => !below x).map found).getD absent := by
  rw [search_eq ordered, Checked.ok_bind, ← getElem?_takeWhile_length]
  cases landed : xs[(xs.takeWhile below).length]? with
  | none =>
    have outside := List.getElem?_eq_none_iff.mp landed
    simp [outside.not_gt]
  | some x =>
    obtain ⟨inside, -⟩ := List.getElem?_eq_some_iff.mp landed
    have read : Checked.index xs ((xs.takeWhile below).length : Nat) = .ok x :=
      Checked.index_of_getElem? (by omega) (by simpa using landed)
    simp [inside, read]

theorem head?_dropWhile (xs : List α) (below : α → Bool) :
    (xs.dropWhile below).head? = xs.find? fun x => !below x := by
  induction xs with
  | nil => rfl
  | cons x xs ih =>
    by_cases under : below x = true
    · simpa [under] using ih
    · simp [under]

end Search

section FirstAbove

variable {α : Type*} {Key : Type*} [LinearOrder Key] {xs : List Key}

/-- The first element above a threshold in an ordered list answers the query over the list. -/
theorem isNext_find? {xs : List α} {key : α → Key} (start : Key)
    (ordered : xs.Pairwise fun a b => key a ≤ key b) :
    IsNext {k | ∃ x ∈ xs, key x = k} start
      ((xs.find? fun x => decide (start < key x)).map key) := by
  induction xs with
  | nil =>
    intro k member
    obtain ⟨x, listed, -⟩ := member
    exact absurd listed List.not_mem_nil
  | cons x xs ih =>
    obtain ⟨first, rest⟩ := List.pairwise_cons.mp ordered
    by_cases above : start < key x
    · simp only [List.find?_cons, above, decide_true, Option.map_some]
      refine ⟨⟨⟨x, by simp, rfl⟩, above⟩, ?_⟩
      rintro _ ⟨⟨y, listed, rfl⟩, -⟩
      rcases List.mem_cons.mp listed with rfl | listed
      · exact le_rfl
      · exact first y listed
    · simp only [List.find?_cons, above, decide_false]
      have inner := ih rest
      cases found : xs.find? (fun x => decide (start < key x)) with
      | none =>
        rw [found] at inner
        rintro _ ⟨y, listed, rfl⟩
        rcases List.mem_cons.mp listed with rfl | listed
        · exact above
        · exact inner (key y) ⟨y, listed, rfl⟩
      | some n =>
        rw [found] at inner
        obtain ⟨⟨⟨y, listed, same⟩, beyond⟩, least⟩ := inner
        refine ⟨⟨⟨y, List.mem_cons_of_mem _ listed, same⟩, beyond⟩, ?_⟩
        rintro _ ⟨⟨z, other, rfl⟩, higher⟩
        rcases List.mem_cons.mp other with rfl | other
        · exact absurd higher above
        · exact least ⟨⟨z, other, rfl⟩, higher⟩

/-- A linear scan of an ordered list with a test that recognises the keys above the start. -/
theorem exists_isNext_find? {start : Key} (f : Key → α) (test : α → Bool)
    (ordered : xs.Pairwise (· ≤ ·)) (agrees : ∀ x ∈ xs, test (f x) = true ↔ start < x) :
    ∃ next, IsNext {key | key ∈ xs} start next ∧ (xs.map f).find? test = next.map f := by
  refine ⟨xs.find? fun x => decide (start < x), ?_, ?_⟩
  · simpa using @isNext_find? Key Key _ xs id start ordered
  · rw [List.find?_map]
    congr 1
    refine List.find?_congr ?_
    intro x listed
    rw [Function.comp_apply, Bool.eq_iff_iff, agrees x listed, decide_eq_true_iff]

theorem head?_le (ordered : xs.Pairwise (· ≤ ·)) {first : Key} (leads : xs.head? = some first) :
    ∀ x ∈ xs, first ≤ x := by
  cases xs with
  | nil => simp at leads
  | cons x rest =>
    obtain rfl : x = first := by simpa using leads
    intro y listed
    rcases List.mem_cons.mp listed with rfl | later
    · exact le_rfl
    · exact (List.pairwise_cons.mp ordered).1 y later

theorem le_getLast? (ordered : xs.Pairwise (· ≤ ·)) {last : Key} (ends : xs.getLast? = some last) :
    ∀ x ∈ xs, x ≤ last := by
  obtain ⟨front, rfl⟩ := List.getLast?_eq_some_iff.mp ends
  intro y listed
  rcases List.mem_append.mp listed with earlier | same
  · exact (List.pairwise_append.mp ordered).2.2 y earlier last (by simp)
  · exact (List.mem_singleton.mp same).le

end FirstAbove

end Successor
