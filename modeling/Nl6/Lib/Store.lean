import Mathlib

/-! # Key-value stores, neighbour tables and unstable sorting

`Store` is a map with last-write-wins updates. `Store.neighbours` is the table that sends each entry
of a list to the entry behind it, written left to right, so that of several copies of an entry the
last one with a neighbour wins; `neighbours_eq_some` reads it on an ordered list.

`Sorter` is a comparison sort of which only the documented contract is known: the result is a
permutation of the input, ordered by the key its comparison realises. It need not be stable.
-/

/-- A map from keys to values. -/
def Store (Key Value : Type) : Type := Key → Option Value

namespace Store

variable {Key Value : Type}

/-- The map without entries. -/
def empty : Store Key Value := fun _ => none

/-- The value under a key. -/
def load (map : Store Key Value) (key : Key) : Option Value := map key

@[simp] theorem load_empty (key : Key) : (empty : Store Key Value).load key = none := rfl

variable [DecidableEq Key]

/-- Write a value under a key. -/
def store (map : Store Key Value) (key : Key) (value : Value) : Store Key Value :=
  fun other => if other = key then some value else map other

theorem load_store (map : Store Key Value) (key other : Key) (value : Value) :
    (map.store key value).load other = if other = key then some value else map.load other := rfl

@[simp] theorem load_store_self (map : Store Key Value) (key : Key) (value : Value) :
    (map.store key value).load key = some value := by
  simp [load_store]

/-- Write a list of entries in order. -/
def storeAll (map : Store Key Value) (entries : List (Key × Value)) : Store Key Value :=
  entries.foldl (fun map entry => map.store entry.1 entry.2) map

@[simp] theorem storeAll_nil (map : Store Key Value) : map.storeAll [] = map := rfl

@[simp] theorem storeAll_cons (map : Store Key Value) (entry : Key × Value)
    (entries : List (Key × Value)) :
    map.storeAll (entry :: entries) = (map.store entry.1 entry.2).storeAll entries := rfl

theorem load_storeAll (map : Store Key Value) (entries : List (Key × Value)) (key : Key) :
    (map.storeAll entries).load key =
      ((empty.storeAll entries).load key).or (map.load key) := by
  induction entries generalizing map with
  | nil => simp
  | cons entry entries ih =>
    rw [storeAll_cons, storeAll_cons, ih, ih (empty.store entry.1 entry.2)]
    by_cases same : key = entry.1
    · simp [same]
    · simp [load_store, same]

theorem load_storeAll_isSome (entries : List (Key × Value)) (key : Key) :
    ((empty.storeAll entries).load key).isSome ↔ key ∈ entries.map Prod.fst := by
  induction entries with
  | nil => simp
  | cons entry entries ih =>
    rw [storeAll_cons, load_storeAll, Option.isSome_or, Bool.or_eq_true, ih, load_store]
    by_cases same : key = entry.1
    · simp [same]
    · simp [same]

/-! ### Neighbour tables -/

/-- The table that sends each list entry to the one behind it. -/
def neighbours (entries : List Key) : Store Key Key :=
  empty.storeAll (entries.zip entries.tail)

theorem load_neighbours_cons (first second : Key) (rest : List Key) (key : Key) :
    (neighbours (first :: second :: rest)).load key =
      ((neighbours (second :: rest)).load key).or (if key = first then some second else none) := by
  simp only [neighbours, List.tail_cons, List.zip_cons_cons, storeAll_cons]
  rw [load_storeAll, load_store, load_empty]

theorem load_neighbours_eq_none {entries : List Key} {key : Key} :
    (neighbours entries).load key = none ↔ key ∉ entries.dropLast := by
  induction entries with
  | nil => simp [neighbours]
  | cons first rest ih =>
    cases rest with
    | nil => simp [neighbours]
    | cons second rest =>
      rw [load_neighbours_cons, Option.or_eq_none_iff, ih, List.dropLast_cons_cons,
        List.mem_cons, not_or]
      by_cases same : key = first <;> simp [same]

variable {Rank : Type*} [LinearOrder Rank] {rank : Key → Rank}

/-- **Neighbours in an ordered list.** The neighbour of a key is listed, is not below it, and no
listed key lies strictly between. A key is its own neighbour only as the repeated last entry. -/
theorem neighbours_eq_some {entries : List Key} {key next : Key}
    (ordered : entries.Pairwise fun a b => rank a ≤ rank b)
    (faithful : ∀ a ∈ entries, ∀ b ∈ entries, rank a = rank b → a = b)
    (found : (neighbours entries).load key = some next) :
    next ∈ entries ∧ rank key ≤ rank next ∧
      (∀ other ∈ entries, rank key < rank other → rank next ≤ rank other) ∧
      (rank next = rank key → ∀ other ∈ entries, rank other ≤ rank key) := by
  induction entries with
  | nil => simp [neighbours] at found
  | cons first rest ih =>
    cases rest with
    | nil => simp [neighbours] at found
    | cons second rest =>
      obtain ⟨least, tailOrdered⟩ := List.pairwise_cons.mp ordered
      rw [load_neighbours_cons, Option.or_eq_some_iff] at found
      rcases found with found | ⟨absent, found⟩
      · have below : rank first ≤ rank key := by
          have listed : key ∈ (second :: rest).dropLast := by
            by_contra missing
            rw [load_neighbours_eq_none.mpr missing] at found
            exact absurd found (by simp)
          exact least key (List.dropLast_subset _ listed)
        obtain ⟨listed, notBelow, noneBetween, greatest⟩ := ih tailOrdered
          (fun a inside b also => faithful a (List.mem_cons_of_mem _ inside) b
            (List.mem_cons_of_mem _ also)) found
        refine ⟨List.mem_cons_of_mem _ listed, notBelow, ?_, ?_⟩
        · intro other member above
          rcases List.mem_cons.mp member with rfl | member
          · exact absurd above (not_lt.mpr below)
          · exact noneBetween other member above
        · intro same other member
          rcases List.mem_cons.mp member with rfl | member
          · exact below
          · exact greatest same other member
      · by_cases same : key = first
        · obtain rfl : second = next := by simpa [same] using found
          subst same
          have secondLeast : ∀ other ∈ second :: rest, rank second ≤ rank other := by
            intro other member
            rcases List.mem_cons.mp member with rfl | member
            · exact le_rfl
            · exact (List.pairwise_cons.mp tailOrdered).1 other member
          refine ⟨by simp, least second (by simp), ?_, ?_⟩
          · intro other member above
            rcases List.mem_cons.mp member with rfl | member
            · exact absurd above (lt_irrefl _)
            · exact secondLeast other member
          · intro same other member
            obtain rfl : second = key := faithful second (by simp) key (by simp) same
            have single : rest = [] := by
              by_contra more
              obtain ⟨third, rest, rfl⟩ := List.exists_cons_of_ne_nil more
              exact load_neighbours_eq_none.mp absent (by simp)
            subst single
            simp only [List.mem_cons, List.not_mem_nil, or_false, or_self] at member
            rw [member]
        · simp [same] at found

end Store

/-! ### Unstable sorting -/

/-- A comparison sort known only by its contract. -/
structure Sorter where
  sort : {α : Type} → (α → α → Bool) → List α → List α
  perm : ∀ {α : Type} (less : α → α → Bool) (xs : List α), (sort less xs).Perm xs
  sorted : ∀ {α Rank : Type} [LinearOrder Rank] (less : α → α → Bool) (rank : α → Rank)
    (xs : List α), (∀ a ∈ xs, ∀ b ∈ xs, less a b = true ↔ rank a < rank b) →
      (sort less xs).Pairwise fun a b => rank a ≤ rank b

namespace Sorter

/-- One round of an exchange sort: the least entry moves to the front. -/
def exchangeRound {α : Type} (less : α → α → Bool) : α → List α → α × List α
  | x, [] => (x, [])
  | x, y :: rest =>
    if less y x then ((exchangeRound less y rest).1, x :: (exchangeRound less y rest).2)
    else ((exchangeRound less x rest).1, y :: (exchangeRound less x rest).2)

/-- Exchange sort, one round for each entry. -/
def exchangeAll {α : Type} (less : α → α → Bool) : Nat → List α → List α
  | 0, xs => xs
  | _ + 1, [] => []
  | rounds + 1, x :: rest =>
    (exchangeRound less x rest).1 :: exchangeAll less rounds (exchangeRound less x rest).2

variable {α : Type}

theorem exchangeRound_perm (less : α → α → Bool) (x : α) (xs : List α) :
    ((exchangeRound less x xs).1 :: (exchangeRound less x xs).2).Perm (x :: xs) := by
  induction xs generalizing x with
  | nil => exact List.Perm.refl _
  | cons y rest ih =>
    rw [exchangeRound]
    by_cases lower : less y x = true
    · simp only [lower, ↓reduceIte]
      exact (List.Perm.swap x _ _).trans ((ih y).cons x)
    · simp only [lower, Bool.false_eq_true, ↓reduceIte]
      exact (List.Perm.swap y _ _).trans (((ih x).cons y).trans (List.Perm.swap x y rest))

theorem exchangeRound_length (less : α → α → Bool) (x : α) (xs : List α) :
    (exchangeRound less x xs).2.length = xs.length := by
  have same := (exchangeRound_perm less x xs).length_eq
  simpa using same

theorem exchangeAll_perm (less : α → α → Bool) (rounds : Nat) (xs : List α) :
    (exchangeAll less rounds xs).Perm xs := by
  induction rounds generalizing xs with
  | zero => exact List.Perm.refl _
  | succ rounds ih =>
    cases xs with
    | nil => exact List.Perm.refl _
    | cons x rest => exact ((ih _).cons _).trans (exchangeRound_perm less x rest)

theorem exchangeRound_least {Rank : Type} [LinearOrder Rank] {less : α → α → Bool} {rank : α → Rank}
    {x : α} {xs : List α}
    (realises : ∀ a ∈ x :: xs, ∀ b ∈ x :: xs, less a b = true ↔ rank a < rank b) :
    ∀ a ∈ x :: xs, rank (exchangeRound less x xs).1 ≤ rank a := by
  induction xs generalizing x with
  | nil => simp [exchangeRound]
  | cons y rest ih =>
    have compared := realises y (by simp) x (by simp)
    rw [exchangeRound]
    by_cases lower : less y x = true
    · simp only [lower, ↓reduceIte]
      have least := ih fun a inside b also =>
        realises a (List.mem_cons_of_mem _ inside) b (List.mem_cons_of_mem _ also)
      intro a member
      rcases List.mem_cons.mp member with rfl | member
      · exact (least y (by simp)).trans (compared.mp lower).le
      · exact least a member
    · simp only [lower, Bool.false_eq_true, ↓reduceIte]
      have notBelow : rank x ≤ rank y := not_lt.mp fun above => lower (compared.mpr above)
      have least := ih (x := x) fun a inside b also =>
        realises a (by simp only [List.mem_cons] at inside ⊢; tauto) b
          (by simp only [List.mem_cons] at also ⊢; tauto)
      intro a member
      simp only [List.mem_cons] at member
      rcases member with rfl | rfl | member
      · exact least a (by simp)
      · exact (least x (by simp)).trans notBelow
      · exact least a (by simp [member])

theorem exchangeAll_sorted {Rank : Type} [LinearOrder Rank] {less : α → α → Bool} {rank : α → Rank}
    {rounds : Nat} {xs : List α} (enough : xs.length ≤ rounds)
    (realises : ∀ a ∈ xs, ∀ b ∈ xs, less a b = true ↔ rank a < rank b) :
    (exchangeAll less rounds xs).Pairwise fun a b => rank a ≤ rank b := by
  induction rounds generalizing xs with
  | zero =>
    rw [List.length_eq_zero_iff.mp (by omega : xs.length = 0)]
    exact List.Pairwise.nil
  | succ rounds ih =>
    cases xs with
    | nil => exact List.Pairwise.nil
    | cons x rest =>
      have same := fun a => (exchangeRound_perm less x rest).mem_iff (a := a)
      have listed : ∀ a ∈ (exchangeRound less x rest).2, a ∈ x :: rest := fun a member =>
        (same a).mp (List.mem_cons_of_mem _ member)
      refine List.pairwise_cons.mpr ⟨?_, ih ?_ ?_⟩
      · intro a member
        have inner := (exchangeAll_perm less rounds (exchangeRound less x rest).2).mem_iff.mp
          member
        exact exchangeRound_least realises a (listed a inner)
      · rw [exchangeRound_length]
        simpa using enough
      · exact fun a inside b also => realises a (listed a inside) b (listed b also)

/-- Exchange sort meets the contract. -/
def exchange : Sorter where
  sort := fun less xs => exchangeAll less xs.length xs
  perm := fun less xs => exchangeAll_perm less xs.length xs
  sorted := fun _ _ _ realises => exchangeAll_sorted le_rfl realises

end Sorter
