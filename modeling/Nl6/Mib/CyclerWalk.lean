import Nl6.Mib.Cycler

/-! # The successor query over the dynamic interface rows

`IfCounterCycler.rows` is the set of objects the cycler answers. `getDynamic_ne_nil_iff` identifies
it with the objects `getDynamic` has a value for, `nextDynamicOID_isNext` shows that the successor
query is exact outside `BetweenTables`, and `nextDynamicOID_between` that it is empty inside.
-/

namespace Nl6

open Numeral Successor

/-! ### Reading texts -/

theorem textPrefix_eq (table : IfMibTable) : table.textPrefix = dotted table.arcs ++ [dot] := by
  cases table <;> decide

theorem tableArcs_bounded (table : IfMibTable) : Arcs table.arcs := by
  cases table <;> decide

theorem rowOID_eq (c : CyclerColumn) (ifIndex : Nat) :
    rowOID c ifIndex = dotted (rowArcs c ifIndex) := by
  rw [rowOID, rowArcs, textPrefix_eq, dotted_append]
  simp

theorem takeWhile_ne_dot_itoa (n : Nat) (rest : List Nat) :
    (itoa n ++ dotted rest).takeWhile (· ≠ dot) = itoa n ∧
      (itoa n ++ dotted rest).dropWhile (· ≠ dot) = dotted rest := by
  have digits : ∀ c ∈ itoa n, decide (c ≠ dot) = true := by
    intro c member
    have : c ≠ dot := by
      rintro rfl
      exact absurd (isDigit_of_mem_itoa member) (by simp)
    simpa using this
  rw [List.takeWhile_append_of_pos digits, List.dropWhile_append_of_pos digits]
  cases rest <;> simp

theorem cutDot_itoa (n : Nat) (rest : List Nat) :
    cutDot (itoa n ++ dotted rest) =
      (itoa n, match rest with | [] => none | m :: more => some (itoa m ++ dotted more)) := by
  obtain ⟨taken, dropped⟩ := takeWhile_ne_dot_itoa n rest
  rw [cutDot, taken, dropped]
  cases rest <;> simp

theorem afterPrefix_dotted (front : List Nat) (n : Nat) (rest : List Nat) :
    afterPrefix (dotted front ++ [dot]) (dotted (front ++ n :: rest)) =
      some (itoa n ++ dotted rest) := by
  have textual : (dotted front ++ [dot]).isPrefixOf (dotted (front ++ n :: rest)) = true :=
    List.isPrefixOf_iff_prefix.mpr (dotted_dot_isPrefix_iff.mpr ⟨n, rest, rfl⟩)
  rw [afterPrefix, textual]
  simp

theorem afterPrefix_dotted_of_not {front arcs : List Nat}
    (apart : ∀ n rest, arcs ≠ front ++ n :: rest) :
    afterPrefix (dotted front ++ [dot]) (dotted arcs) = none := by
  have textual : (dotted front ++ [dot]).isPrefixOf (dotted arcs) = false := by
    rw [← Bool.not_eq_true, List.isPrefixOf_iff_prefix, dotted_dot_isPrefix_iff]
    rintro ⟨n, rest, same⟩
    exact apart n rest same
  simp [afterPrefix, textual]

theorem tables_apart (n m : Nat) (rest more : List Nat) :
    IfMibTable.arcs .ifXTable ++ n :: rest ≠ IfMibTable.arcs .ifTable ++ m :: more := by
  simp [IfMibTable.arcs]

theorem splitTable_dotted (table : IfMibTable) (n : Nat) (rest : List Nat) :
    splitTable (dotted (table.arcs ++ n :: rest)) = some (table, itoa n ++ dotted rest) := by
  cases table with
  | ifXTable => rw [splitTable, textPrefix_eq, afterPrefix_dotted]
  | ifTable =>
    rw [splitTable, textPrefix_eq, textPrefix_eq, afterPrefix_dotted,
      afterPrefix_dotted_of_not fun m more same => tables_apart m n more rest same.symm]
    rfl

/-- An object below neither table entry. -/
def Outside (arcs : List Nat) : Prop := ∀ table : IfMibTable, ∀ n rest, arcs ≠ table.arcs ++ n :: rest

theorem splitTable_dotted_of_outside {arcs : List Nat} (outside : Outside arcs) :
    splitTable (dotted arcs) = none := by
  rw [splitTable, textPrefix_eq, textPrefix_eq, afterPrefix_dotted_of_not (outside .ifXTable),
    afterPrefix_dotted_of_not (outside .ifTable)]
  rfl

theorem inside_or_outside (arcs : List Nat) :
    (∃ (table : IfMibTable) (n : Nat) (rest : List Nat), arcs = table.arcs ++ n :: rest) ∨
      Outside arcs := by
  by_cases inside : ∃ (table : IfMibTable) (n : Nat) (rest : List Nat), arcs = table.arcs ++ n :: rest
  · exact .inl inside
  · exact .inr fun table n rest same => inside ⟨table, n, rest, same⟩

theorem parseRowPosition_itoa {n : Nat} {rest : List Nat} (bounded : Arcs (n :: rest)) :
    parseRowPosition (itoa n ++ dotted rest) = some ⟨n, (rest.head?.getD 0 : Nat), false⟩ := by
  obtain ⟨columnBound, restBound⟩ := Arcs.cons_iff.mp bounded
  have column : atoi (itoa n) = ((n : Int), true) :=
    atoi_itoa (by simp only [arcLimit] at columnBound; omega)
  rw [parseRowPosition, cutDot_itoa]
  cases rest with
  | nil => simp [column]
  | cons m more =>
    obtain ⟨rowBound, -⟩ := Arcs.cons_iff.mp restBound
    have row : atoi (itoa m) = ((m : Int), true) :=
      atoi_itoa (by simp only [arcLimit] at rowBound; omega)
    have nonneg : ¬ (m : Int) < 0 := by omega
    simp [column, cutDot_itoa, row, nonneg]

theorem rowArcs_eq_iff {c : CyclerColumn} {i : Nat} {table : IfMibTable} {n : Nat}
    {rest : List Nat} :
    rowArcs c i = table.arcs ++ n :: rest ↔ c = ⟨table, n⟩ ∧ rest = [i] := by
  obtain ⟨own, col⟩ := c
  constructor
  · intro same
    have tables : own = table := by
      cases own <;> cases table
      · rfl
      · exact absurd same.symm (tables_apart _ _ _ _)
      · exact absurd same (tables_apart _ _ _ _)
      · rfl
    subst tables
    have tails := List.append_cancel_left same
    simp only [List.cons.injEq] at tails
    exact ⟨by rw [tails.1], tails.2.symm⟩
  · rintro ⟨same, rfl⟩
    cases same
    rfl

theorem atoi_itoa_dotted_cons (m k : Nat) (more : List Nat) :
    (atoi (itoa m ++ dotted (k :: more))).2 = false := by
  obtain ⟨c, digits, numeral⟩ := List.exists_cons_of_ne_nil (itoa_ne_nil m)
  have first : isDigit c = true := isDigit_of_mem_itoa (by rw [numeral]; exact List.mem_cons_self)
  have notPlus : c ≠ 43 := by rintro rfl; exact absurd first (by decide)
  have notMinus : c ≠ 45 := by rintro rfl; exact absurd first (by decide)
  rw [numeral]
  simp only [atoi, List.cons_append, splitSign, notPlus, notMinus, ↓reduceIte]
  simp

namespace IfCounterCycler

variable (ic : IfCounterCycler) {table : IfMibTable} {colIdx first i n : Nat} {arcs rest : List Nat}
  {c : CyclerColumn} {above : CyclerColumn → Bool}

/-- Whether the cycler answers a column: without a state engine the status columns are not served. -/
def owns (c : CyclerColumn) : Bool := ic.state.isSome || !isStateCol c

/-- The objects the cycler answers. -/
def rows : Set (List Nat) :=
  {arcs | ∃ c ∈ ifCyclerColumns, ic.owns c = true ∧ ∃ i ∈ ic.sortedIfIndexes, arcs = rowArcs c i}

private theorem mem_ifXTable (col : Nat) :
    (⟨.ifXTable, col⟩ : CyclerColumn) ∈ ifCyclerColumns ↔ 2 ≤ col ∧ col ≤ 13 := by
  simp only [ifCyclerColumns, List.mem_append, List.mem_map, CyclerColumn.mk.injEq, reduceCtorEq,
    false_and, and_false, exists_false, true_and, exists_eq_right, false_or, List.mem_cons,
    List.not_mem_nil, or_false]
  omega

private theorem mem_ifTable (col : Nat) :
    (⟨.ifTable, col⟩ : CyclerColumn) ∈ ifCyclerColumns ↔
      col ∈ [7, 8, 9] ∨ col ∈ [10, 11, 13, 14, 16, 17, 19, 20] := by
  simp only [ifCyclerColumns, List.mem_append, List.mem_map, CyclerColumn.mk.injEq, reduceCtorEq,
    false_and, and_false, exists_false, true_and, exists_eq_right, or_false, List.mem_cons,
    List.not_mem_nil]
  omega

private theorem counter_cast (col : Nat) :
    (col : Int) ∈ ([10, 11, 13, 14, 16, 17, 19, 20] : List Int) ↔
      col ∈ [10, 11, 13, 14, 16, 17, 19, 20] := by
  simp only [List.mem_cons, List.not_mem_nil, or_false]
  omega

theorem columnValue_ne_nil_iff (table : IfMibTable) (col i : Nat) :
    ic.columnValue table col i ≠ [] ↔
      ⟨table, col⟩ ∈ ifCyclerColumns ∧ ic.owns ⟨table, col⟩ = true := by
  cases table with
  | ifXTable =>
    have owned : ic.owns ⟨.ifXTable, col⟩ = true := by simp [owns, isStateCol]
    rw [mem_ifXTable, owned, columnValue]
    simp only [and_true]
    split_ifs with narrow wide
    · simp only [ne_eq, itoa_ne_nil, not_false_eq_true, true_iff]
      omega
    · simp only [ne_eq, itoa_ne_nil, not_false_eq_true, true_iff]
      omega
    · simp only [ne_eq, not_true_eq_false, false_iff]
      omega
  | ifTable =>
    rw [mem_ifTable]
    cases engine : ic.state with
    | none =>
      have owned : ic.owns ⟨.ifTable, col⟩ = true ↔ col ∉ [7, 8, 9] := by
        simp [owns, isStateCol, engine, and_assoc]
      rw [owned]
      simp only [columnValue, engine, counter_cast]
      split_ifs with counter
      · simp only [List.mem_cons, List.not_mem_nil, or_false] at counter ⊢
        simp only [ne_eq, itoa_ne_nil, not_false_eq_true, true_iff]
        omega
      · simp only [ne_eq, not_true_eq_false, false_iff]
        tauto
    | some state =>
      have owned : ic.owns ⟨.ifTable, col⟩ = true := by simp [owns, engine]
      have admin : adminEnumString (state.adminStatus i) ≠ [] := by
        rw [adminEnumString]; split_ifs <;> simp
      have oper : operEnumString (state.operStatus i) ≠ [] := by
        rw [operEnumString]; split_ifs <;> simp
      rw [owned]
      simp only [columnValue, engine, and_true, List.mem_cons, List.not_mem_nil, or_false]
      split_ifs <;> simp only [ne_eq, itoa_ne_nil, admin, oper, not_false_eq_true,
        not_true_eq_false, true_iff, false_iff] <;> omega

private theorem getDynamic_inside {m : Nat} (columnBound : n < arcLimit) (rowBound : m < arcLimit) :
    ic.getDynamic (dotted (table.arcs ++ [n, m])) =
      if m ∈ ic.sortedIfIndexes then ic.columnValue table n m else [] := by
  have column : atoi (itoa n) = ((n : Int), true) :=
    atoi_itoa (by simp only [arcLimit] at columnBound; omega)
  have row : atoi (itoa m) = ((m : Int), true) :=
    atoi_itoa (by simp only [arcLimit] at rowBound; omega)
  rw [getDynamic, splitTable_dotted]
  simp only [cutDot_itoa, dotted_nil, List.append_nil, itoa_ne_nil, or_self, ↓reduceIte, column, row,
    Int.toNat_natCast]
  by_cases known : m ∈ ic.sortedIfIndexes
  · have positive : ¬ (m : Int) < 1 := by
      have := (ic.inRange m known).1
      omega
    simp [known, positive]
  · simp [known]

theorem getDynamic_ne_nil_iff (bounded : Arcs arcs) :
    ic.getDynamic (dotted arcs) ≠ [] ↔ arcs ∈ ic.rows := by
  rcases inside_or_outside arcs with ⟨table, n, rest, rfl⟩ | outside
  · have tailBound := (Arcs.append_iff.mp bounded).2
    have member : table.arcs ++ n :: rest ∈ ic.rows ↔ ⟨table, n⟩ ∈ ifCyclerColumns ∧
        ic.owns ⟨table, n⟩ = true ∧ ∃ i ∈ ic.sortedIfIndexes, rest = [i] := by
      constructor
      · rintro ⟨c, listed, owned, i, known, same⟩
        obtain ⟨rfl, single⟩ := rowArcs_eq_iff.mp same.symm
        exact ⟨listed, owned, i, known, single⟩
      · rintro ⟨listed, owned, i, known, single⟩
        exact ⟨_, listed, owned, i, known, (rowArcs_eq_iff.mpr ⟨rfl, single⟩).symm⟩
    rw [member]
    match rest with
    | [] =>
      rw [getDynamic, splitTable_dotted]
      simp only [cutDot_itoa]
      simp
    | [m] =>
      obtain ⟨columnBound, rowBound⟩ := Arcs.cons_iff.mp tailBound
      rw [ic.getDynamic_inside columnBound (Arcs.cons_iff.mp rowBound).1]
      by_cases known : m ∈ ic.sortedIfIndexes
      · simp only [known, ↓reduceIte, columnValue_ne_nil_iff]
        simp [known]
      · simp [known]
    | m :: k :: more =>
      have broken := atoi_itoa_dotted_cons m k more
      have failed : ic.getDynamic (dotted (table.arcs ++ n :: m :: k :: more)) = [] := by
        rw [getDynamic, splitTable_dotted]
        simp only [cutDot_itoa]
        split_ifs
        · rfl
        · split
          · rename_i parsed
            rw [parsed] at broken
            simp at broken
          · rfl
      rw [failed]
      simp
  · rw [getDynamic, splitTable_dotted_of_outside outside]
    simp only [ne_eq, not_true_eq_false, false_iff]
    rintro ⟨c, -, -, i, -, same⟩
    exact outside c.table c.col [i] same

/-! ### Columns in walk order -/

/-- The position of a column in the walk. -/
def rank (c : CyclerColumn) : ℕ ×ₗ ℕ :=
  toLex (match c.table with | .ifTable => 0 | .ifXTable => 1, c.col)

theorem columns_ascending : ifCyclerColumns.Pairwise fun a b => rank a < rank b := by
  simp only [rank, Prod.Lex.toLex_lt_toLex]
  decide

theorem rank_injective : Function.Injective rank := by
  rintro ⟨left, col⟩ ⟨right, other⟩ same
  have parts := toLex.injective same
  cases left <;> cases right <;> simp_all [Prod.mk.injEq]

theorem rowArcs_lt_of_rank_lt {d : CyclerColumn} (earlier : rank c < rank d) (i j : Nat) :
    rowArcs c i < rowArcs d j := by
  obtain ⟨left, col⟩ := c
  obtain ⟨right, other⟩ := d
  rw [rank, rank, Prod.Lex.toLex_lt_toLex] at earlier
  rw [rowArcs, rowArcs]
  cases left <;> cases right
  · exact Lex.append_cons_lt_append_cons _ (by simpa using earlier) _ _
  · exact Lex.append_cons_lt_append_cons [1, 3, 6, 1, 2, 1] (by decide : 2 < 31) _ _
  · simp at earlier
  · exact Lex.append_cons_lt_append_cons _ (by simpa using earlier) _ _

theorem rowArcs_le_of_le (c : CyclerColumn) {j : Nat} (ordered : i ≤ j) :
    rowArcs c i ≤ rowArcs c j := by
  rw [rowArcs, rowArcs, Lex.append_le_append_left_iff]
  rcases ordered.lt_or_eq with less | rfl
  · exact le_of_lt (by simp [List.cons_lt_cons_iff, less])
  · exact le_rfl

theorem firstRow_le (listed : c ∈ ifCyclerColumns) (lowest : first ≤ i) :
    rowArcs ⟨.ifTable, 7⟩ first ≤ rowArcs c i := by
  have leading : ∀ c ∈ ifCyclerColumns, c = ⟨.ifTable, 7⟩ ∨ rank ⟨.ifTable, 7⟩ < rank c := by
    simp only [rank, Prod.Lex.toLex_lt_toLex]
    decide
  rcases leading c listed with rfl | later
  · exact rowArcs_le_of_le _ lowest
  · exact (rowArcs_lt_of_rank_lt later first i).le

theorem le_lastRow (listed : c ∈ ifCyclerColumns) {last : Nat} (highest : i ≤ last) :
    rowArcs c i ≤ rowArcs ⟨.ifXTable, 13⟩ last := by
  have closing : ∀ c ∈ ifCyclerColumns, c = ⟨.ifXTable, 13⟩ ∨ rank c < rank ⟨.ifXTable, 13⟩ := by
    simp only [rank, Prod.Lex.toLex_lt_toLex]
    decide
  rcases closing c listed with rfl | earlier
  · exact rowArcs_le_of_le _ highest
  · exact (rowArcs_lt_of_rank_lt earlier i last).le

/-- Whether an object inside a table is below a row: by column, then by interface. -/
theorem inside_lt_rowArcs_iff (positive : 1 ≤ i) :
    table.arcs ++ n :: rest < rowArcs c i ↔
      rank ⟨table, n⟩ < rank c ∨ c = ⟨table, n⟩ ∧ rest.head?.getD 0 < i := by
  obtain ⟨own, col⟩ := c
  have instance_lt : rest < [i] ↔ rest.head?.getD 0 < i := by
    cases rest with
    | nil =>
      have : 0 < i := positive
      simpa using this
    | cons m more => simp [List.cons_lt_cons_iff]
  have sameTable : table.arcs ++ n :: rest < rowArcs ⟨table, col⟩ i ↔
      n < col ∨ col = n ∧ rest.head?.getD 0 < i := by
    rw [rowArcs, Lex.append_lt_append_left_iff, List.cons_lt_cons_iff, instance_lt,
      eq_comm (a := n)]
  cases table <;> cases own
  · rw [sameTable, rank, rank, Prod.Lex.toLex_lt_toLex]
    simp
  · have below : IfMibTable.arcs .ifTable ++ n :: rest < rowArcs ⟨.ifXTable, col⟩ i :=
      Lex.append_cons_lt_append_cons [1, 3, 6, 1, 2, 1] (by decide : 2 < 31) _ _
    simp [below, rank, Prod.Lex.toLex_lt_toLex]
  · have above : rowArcs ⟨.ifTable, col⟩ i < IfMibTable.arcs .ifXTable ++ n :: rest :=
      Lex.append_cons_lt_append_cons [1, 3, 6, 1, 2, 1] (by decide : 2 < 31) _ _
    simp [above.not_gt, rank, Prod.Lex.toLex_lt_toLex]
  · rw [sameTable, rank, rank, Prod.Lex.toLex_lt_toLex]
    simp

/-- An object outside the tables is below a table's rows exactly when it is not above the table's
entry. -/
theorem outside_lt_rowArcs_iff (outside : Outside arcs) (c : CyclerColumn) (i : Nat) :
    arcs < rowArcs c i ↔ arcs ≤ c.table.arcs :=
  Lex.lt_append_cons_iff (outside c.table)

/-! ### The first row above an object -/

/-- The first owned column of which all rows are above. -/
def firstColumn (above : CyclerColumn → Bool) : Option CyclerColumn :=
  ifCyclerColumns.find? fun c => ic.owns c && above c

/-- When each column's rows are all above an object or none is, the first row of the first column
above it is the successor. -/
theorem isNext_firstColumn
    (uniform : ∀ c ∈ ifCyclerColumns, ic.owns c = true → ∀ i ∈ ic.sortedIfIndexes,
      (arcs < rowArcs c i ↔ above c = true)) (leading : ic.sortedIfIndexes.head? = some first) :
    IsNext ic.rows arcs ((ic.firstColumn above).map fun c => rowArcs c first) := by
  have known : first ∈ ic.sortedIfIndexes := List.mem_of_mem_head? leading
  have lowest : ∀ i ∈ ic.sortedIfIndexes, first ≤ i := by
    obtain ⟨tail, split⟩ : ∃ tail, ic.sortedIfIndexes = first :: tail :=
      List.head?_eq_some_iff.mp leading
    intro i member
    have ordered := split ▸ ic.ascending
    rcases List.mem_cons.mp (split ▸ member) with rfl | later
    · exact le_rfl
    · exact ((List.pairwise_cons.mp ordered).1 i later).le
  cases found : ic.firstColumn above with
  | none =>
    rintro key ⟨c, listed, owned, i, member, rfl⟩ higher
    have missed := List.find?_eq_none.mp found c listed
    simp [owned, (uniform c listed owned i member).mp higher] at missed
  | some c =>
    obtain ⟨good, front, back, split, earlier⟩ := List.find?_eq_some_iff_append.mp found
    rw [Bool.and_eq_true] at good
    have listed : c ∈ ifCyclerColumns := by rw [split]; simp
    refine ⟨⟨⟨c, listed, good.1, first, known, rfl⟩,
      (uniform c listed good.1 first known).mpr good.2⟩, ?_⟩
    rintro key ⟨⟨d, other, owned, i, member, rfl⟩, higher⟩
    have aboveD : above d = true := (uniform d other owned i member).mp higher
    have placed : d ∈ c :: back := by
      rw [split, List.mem_append] at other
      rcases other with before | placed
      · have := earlier d before
        simp [owned, aboveD] at this
      · exact placed
    rcases List.mem_cons.mp placed with rfl | later
    · exact rowArcs_le_of_le d (lowest i member)
    · have ordered := columns_ascending
      rw [split, List.pairwise_append] at ordered
      exact (rowArcs_lt_of_rank_lt ((List.pairwise_cons.mp ordered.2.1).1 d later) first i).le

theorem isNext_sameColumn (listed : ⟨table, n⟩ ∈ ifCyclerColumns)
    (owned : ic.owns ⟨table, n⟩ = true)
    (found : ic.sortedIfIndexes.find? (fun i => decide (rest.head?.getD 0 < i)) = some i) :
    IsNext ic.rows (table.arcs ++ n :: rest) (some (rowArcs ⟨table, n⟩ i)) := by
  have known : i ∈ ic.sortedIfIndexes := List.mem_of_find?_eq_some found
  have higher : rest.head?.getD 0 < i := by simpa using List.find?_some found
  refine ⟨⟨⟨_, listed, owned, i, known, rfl⟩,
    (inside_lt_rowArcs_iff (ic.inRange i known).1).mpr (.inr ⟨rfl, higher⟩)⟩, ?_⟩
  rintro key ⟨⟨d, other, ownedD, j, member, rfl⟩, aboveD⟩
  rcases (inside_lt_rowArcs_iff (ic.inRange j member).1).mp aboveD with later | ⟨rfl, beyond⟩
  · exact (rowArcs_lt_of_rank_lt later i j).le
  · refine rowArcs_le_of_le _ ?_
    obtain ⟨-, front, back, split, earlier⟩ := List.find?_eq_some_iff_append.mp found
    rw [split, List.mem_append] at member
    rcases member with before | placed
    · have := earlier j before
      simp [beyond] at this
    · rcases List.mem_cons.mp placed with rfl | after
      · exact le_rfl
      · have ordered := split ▸ ic.ascending
        rw [List.pairwise_append] at ordered
        exact ((List.pairwise_cons.mp ordered.2.1).1 j after).le

/-! ### The query as the agent computes it -/

/-- The pair of texts that answers a successor query. -/
def answer : Option (List Nat) → Bytes × Bytes
  | none => ([], [])
  | some arcs => (dotted arcs, ic.getDynamic (dotted arcs))

theorem rowArcs_bounded (listed : c ∈ ifCyclerColumns) (known : i ∈ ic.sortedIfIndexes) :
    Arcs (rowArcs c i) := by
  have narrow : ∀ d ∈ ifCyclerColumns, d.col < 21 := by decide
  have columnBound := narrow c listed
  have rowBound := (ic.inRange i known).2
  rw [rowArcs, Arcs.append_iff]
  refine ⟨tableArcs_bounded c.table, ?_⟩
  rw [Arcs.cons_iff, Arcs.cons_iff]
  refine ⟨?_, ?_, .nil⟩ <;> simp only [arcLimit] <;> omega

theorem emitRow_eq (listed : c ∈ ifCyclerColumns) (owned : ic.owns c = true)
    (known : i ∈ ic.sortedIfIndexes) : ic.emitRow c i = ic.answer (some (rowArcs c i)) := by
  have served : ic.getDynamic (dotted (rowArcs c i)) ≠ [] :=
    (ic.getDynamic_ne_nil_iff (ic.rowArcs_bounded listed known)).mpr
      ⟨c, listed, owned, i, known, rfl⟩
  simp [emitRow, rowOID_eq, served, answer]

theorem emitFromColumn_eq (inside : colIdx < ifCyclerColumns.length)
    (known : i ∈ ic.sortedIfIndexes) :
    ic.emitFromColumn colIdx i =
      .ok (ic.answer (((ifCyclerColumns.drop colIdx).find? ic.owns).map fun c => rowArcs c i)) := by
  cases engine : ic.state with
  | none =>
    have skip : (ifCyclerColumns.drop colIdx).find? ic.owns =
        ((ifCyclerColumns.drop colIdx).dropWhile isStateCol).head? := by
      rw [Successor.head?_dropWhile]
      congr 1
      funext c
      simp [owns, engine]
    rw [emitFromColumn, engine, skip]
    cases rest : (ifCyclerColumns.drop colIdx).dropWhile isStateCol with
    | nil => rfl
    | cons c more =>
      have found : (ifCyclerColumns.drop colIdx).find? ic.owns = some c := by
        rw [skip, rest]; rfl
      have listed : c ∈ ifCyclerColumns :=
        List.mem_of_mem_drop (List.mem_of_find?_eq_some found)
      simp only [List.head?_cons, Option.map_some]
      rw [ic.emitRow_eq listed (List.find?_some found) known]
  | some state =>
    have owned : ∀ c, ic.owns c = true := fun c => by simp [owns, engine]
    have bounded : (colIdx : Int) < ifCyclerColumns.length := by omega
    obtain ⟨c, found, returned⟩ := Checked.index_of_lt (by omega) bounded
    have first : (ifCyclerColumns.drop colIdx).find? ic.owns = some c := by
      have head : (ifCyclerColumns.drop colIdx).head? = some c := by
        rw [List.head?_drop]
        simpa using found
      obtain ⟨tail, split⟩ := List.head?_eq_some_iff.mp head
      rw [split, List.find?_cons, owned c]
    have listed : c ∈ ifCyclerColumns := List.mem_of_getElem? found
    rw [emitFromColumn, engine]
    simp only [returned, Checked.ok_bind, first, Option.map_some]
    rw [ic.emitRow_eq listed (owned c) known]

theorem emitFirst_eq (inside : colIdx < ifCyclerColumns.length)
    (leading : ic.sortedIfIndexes.head? = some first) :
    ic.emitFirst colIdx =
      .ok (ic.answer (((ifCyclerColumns.drop colIdx).find? ic.owns).map fun c => rowArcs c first)) := by
  have known : first ∈ ic.sortedIfIndexes := List.mem_of_mem_head? leading
  have returned : Checked.index ic.sortedIfIndexes 0 = .ok first :=
    Checked.index_of_getElem? le_rfl (by simpa [List.head?_eq_getElem?] using leading)
  rw [emitFirst, returned, Checked.ok_bind, ic.emitFromColumn_eq inside known]

/-- The columns from an index on hold the first column above, when everything owned from there on is
above and nothing owned before it is. -/
theorem find?_drop_eq
    (before : ∀ c ∈ ifCyclerColumns.take colIdx, ic.owns c = true → above c = false)
    (after : ∀ c ∈ ifCyclerColumns.drop colIdx, ic.owns c = true → above c = true) :
    (ifCyclerColumns.drop colIdx).find? ic.owns = ic.firstColumn above := by
  have split : ifCyclerColumns = ifCyclerColumns.take colIdx ++ ifCyclerColumns.drop colIdx :=
    (List.take_append_drop _ _).symm
  have none : (ifCyclerColumns.take colIdx).find? (fun c => ic.owns c && above c) = none := by
    rw [List.find?_eq_none]
    intro c member
    cases owned : ic.owns c with
    | false => simp
    | true => simp [before c member owned]
  rw [firstColumn]
  conv_rhs => rw [split, List.find?_append, none, Option.none_or]
  refine List.find?_congr ?_
  intro c member
  cases owned : ic.owns c with
  | false => simp
  | true => simp [after c member owned]

theorem locateColumn_eq (table : IfMibTable) (n : Nat) :
    locateColumn table n =
      ifCyclerColumns.findIdx? fun tc => decide (rank ⟨table, n⟩ ≤ rank tc) := by
  rw [locateColumn]
  congr 1
  funext tc
  obtain ⟨own, col⟩ := tc
  cases table <;> cases own <;> simp [rank, Prod.Lex.toLex_le_toLex]

theorem search_interfaces {m : Nat} (bounded : m < arcLimit) :
    Successor.search ic.sortedIfIndexes (fun i => decide ((i : Int) < int64 ((m : Int) + 1))) =
      .ok (ic.sortedIfIndexes.takeWhile fun i => !decide (m < i)).length := by
  have machine : int64 ((m : Int) + 1) = m + 1 := by
    simp only [arcLimit] at bounded
    exact int64_of_range (by omega) (by omega)
  have same : (fun i : Nat => decide ((i : Int) < int64 ((m : Int) + 1))) =
      fun i => !decide (m < i) := by
    funext i
    rw [machine]
    by_cases above : m < i
    · have : ¬ (i : Int) < m + 1 := by omega
      simp [above, this]
    · have : (i : Int) < m + 1 := by omega
      simp [above, this]
  rw [same]
  refine Successor.search_eq (ic.ascending.imp ?_)
  intro a b less below
  simp only [Bool.not_eq_true', decide_eq_false_iff_not, not_lt] at below ⊢
  omega

/-- `chosen` is the first column at or behind the position `q`. -/
structure Located (q : ℕ ×ₗ ℕ) (colIdx : Nat) (chosen : CyclerColumn) : Prop where
  inside : colIdx < ifCyclerColumns.length
  dropped : ifCyclerColumns.drop colIdx = chosen :: ifCyclerColumns.drop (colIdx + 1)
  reached : q ≤ rank chosen
  before : ∀ c ∈ ifCyclerColumns.take colIdx, rank c < q
  after : ∀ c ∈ ifCyclerColumns.drop (colIdx + 1), rank chosen < rank c

theorem located_of_findIdx? {q : ℕ ×ₗ ℕ}
    (found : ifCyclerColumns.findIdx? (fun tc => decide (q ≤ rank tc)) = some colIdx) :
    ∃ chosen, Located q colIdx chosen := by
  obtain ⟨inside, reached, earlier⟩ := List.findIdx?_eq_some_iff_getElem.mp found
  have dropped : ifCyclerColumns.drop colIdx =
      ifCyclerColumns[colIdx] :: ifCyclerColumns.drop (colIdx + 1) :=
    List.drop_eq_getElem_cons inside
  refine ⟨ifCyclerColumns[colIdx], inside, dropped, of_decide_eq_true reached, ?_, ?_⟩
  · intro c member
    obtain ⟨j, short, rfl⟩ := List.mem_take_iff_getElem.mp member
    simpa using earlier j (by omega)
  · have ordered := columns_ascending.sublist (List.drop_sublist colIdx ifCyclerColumns)
    rw [dropped] at ordered
    exact (List.pairwise_cons.mp ordered).1

namespace Located

variable {ic} {q : ℕ ×ₗ ℕ} {colIdx : Nat} {chosen : CyclerColumn}

theorem mem (located : Located q colIdx chosen) : chosen ∈ ifCyclerColumns :=
  List.mem_of_mem_drop (by rw [located.dropped]; exact List.mem_cons_self)

theorem index (located : Located q colIdx chosen) :
    Checked.index ifCyclerColumns colIdx = .ok chosen := by
  refine Checked.index_of_getElem? (by omega) ?_
  have first := congrArg List.head? located.dropped
  simpa [List.head?_drop] using first

theorem find?_drop_succ (located : Located q colIdx chosen)
    (skipped : ic.owns chosen = true → rank chosen = q) :
    (ifCyclerColumns.drop (colIdx + 1)).find? ic.owns =
      ic.firstColumn fun c => decide (q < rank c) := by
  refine ic.find?_drop_eq ?_ ?_
  · intro c member owned
    rw [List.take_add_one] at member
    rcases List.mem_append.mp member with earlier | last
    · simpa using (located.before c earlier).le
    · have same : ifCyclerColumns[colIdx]? = some chosen := by
        have first := congrArg List.head? located.dropped
        simpa [List.head?_drop] using first
      obtain rfl : c = chosen := by simpa [same] using last
      simpa using (skipped owned).le
  · intro c member _
    simpa using located.reached.trans_lt (located.after c member)

theorem find?_drop (located : Located q colIdx chosen) (beyond : q < rank chosen) :
    (ifCyclerColumns.drop colIdx).find? ic.owns =
      ic.firstColumn fun c => decide (q < rank c) := by
  refine ic.find?_drop_eq ?_ ?_
  · intro c member _
    simpa using (located.before c member).le
  · intro c member _
    rw [located.dropped] at member
    rcases List.mem_cons.mp member with rfl | later
    · simpa using beyond
    · simpa using beyond.trans (located.after c later)

theorem not_mem_of_lt {c : CyclerColumn} (located : Located (rank c) colIdx chosen)
    (beyond : rank c < rank chosen) : c ∉ ifCyclerColumns := by
  intro listed
  rw [← List.take_append_drop colIdx ifCyclerColumns, located.dropped, List.mem_append,
    List.mem_cons] at listed
  rcases listed with earlier | rfl | later
  · exact lt_irrefl _ (located.before c earlier)
  · exact lt_irrefl _ beyond
  · exact lt_asymm beyond (located.after c later)

end Located

/-- Once its own column is exhausted, an object's column decides which rows are above it. -/
theorem isNext_laterColumn (exhausted : ⟨table, n⟩ ∈ ifCyclerColumns → ic.owns ⟨table, n⟩ = true →
      ∀ i ∈ ic.sortedIfIndexes, ¬ rest.head?.getD 0 < i)
    (leading : ic.sortedIfIndexes.head? = some first) :
    IsNext ic.rows (table.arcs ++ n :: rest)
      ((ic.firstColumn fun c => decide (rank ⟨table, n⟩ < rank c)).map fun c => rowArcs c first) := by
  refine ic.isNext_firstColumn ?_ leading
  intro c listed owned i member
  rw [inside_lt_rowArcs_iff (ic.inRange i member).1, decide_eq_true_eq]
  constructor
  · rintro (later | ⟨rfl, higher⟩)
    · exact later
    · exact absurd higher (exhausted listed owned i member)
  · exact .inl

private theorem nextFromColumn_same (located : Located (rank ⟨table, n⟩) colIdx ⟨table, n⟩)
    (bounded : Arcs rest) (leading : ic.sortedIfIndexes.head? = some first) :
    ∃ next, IsNext ic.rows (table.arcs ++ n :: rest) next ∧
      ic.nextFromColumn table ⟨n, (rest.head?.getD 0 : Nat), false⟩ colIdx =
        .ok (ic.answer next) := by
  rw [nextFromColumn, located.index]
  simp only [Checked.ok_bind, and_self, ↓reduceIte, Bool.false_eq_true]
  by_cases unowned : ic.state.isNone = true ∧ isStateCol ⟨table, n⟩ = true
  · have notOwned : ic.owns ⟨table, n⟩ = false := by
      simp [owns, Option.isNone_iff_eq_none.mp unowned.1, unowned.2]
    refine ⟨_, ic.isNext_laterColumn (fun _ owned => absurd owned (by simp [notOwned])) leading, ?_⟩
    rw [if_pos unowned, ic.emitFirst_eq located.inside leading, located.dropped, List.find?_cons,
      notOwned, located.find?_drop_succ fun owned => absurd owned (by simp [notOwned])]
  · have owned : ic.owns ⟨table, n⟩ = true := by
      cases engine : ic.state with
      | none => simpa [owns, engine] using unowned
      | some state => simp [owns, engine]
    have small : rest.head?.getD 0 < arcLimit := by
      cases rest with
      | nil => simp [arcLimit]
      | cons m more => exact (Arcs.cons_iff.mp bounded).1
    have position := Successor.getElem?_takeWhile_length ic.sortedIfIndexes
      fun i => !decide (rest.head?.getD 0 < i)
    simp only [Bool.not_not] at position
    rw [if_neg unowned, ic.search_interfaces small, Checked.ok_bind]
    cases found : ic.sortedIfIndexes.find? fun i => decide (rest.head?.getD 0 < i) with
    | some i =>
      rw [found] at position
      refine ⟨_, ic.isNext_sameColumn located.mem owned found, ?_⟩
      rw [if_pos (List.getElem?_eq_some_iff.mp position).1,
        Checked.index_of_getElem? (by omega) (by simpa using position), Checked.ok_bind,
        ic.emitFromColumn_eq located.inside (List.mem_of_getElem? position), located.dropped,
        List.find?_cons, owned]
      rfl
    | none =>
      rw [found] at position
      have exhausted := List.find?_eq_none.mp found
      refine ⟨_, ic.isNext_laterColumn
        (fun _ _ i member => by simpa using exhausted i member) leading, ?_⟩
      rw [if_neg (by simpa using List.getElem?_eq_none_iff.mp position),
        ← located.find?_drop_succ fun _ => rfl]
      by_cases last : colIdx + 1 ≥ ifCyclerColumns.length
      · rw [if_pos last, List.drop_eq_nil_of_le last]
        rfl
      · rw [if_neg last, ic.emitFirst_eq (by omega) leading]

private theorem nextFromColumn_later {chosen : CyclerColumn}
    (located : Located (rank ⟨table, n⟩) colIdx chosen) (apart : chosen ≠ ⟨table, n⟩)
    (leading : ic.sortedIfIndexes.head? = some first) (position : RowPosition)
    (column : position.col = n) :
    ∃ next, IsNext ic.rows (table.arcs ++ n :: rest) next ∧
      ic.nextFromColumn table position colIdx = .ok (ic.answer next) := by
  have beyond : rank ⟨table, n⟩ < rank chosen :=
    lt_of_le_of_ne located.reached fun equal => apart (rank_injective equal).symm
  have notSame : ¬ (chosen.table = table ∧ (chosen.col : Int) = position.col) := by
    rw [column, Int.natCast_inj]
    rintro ⟨rfl, rfl⟩
    exact apart rfl
  refine ⟨_, ic.isNext_laterColumn
    (fun listed => absurd listed (located.not_mem_of_lt beyond)) leading, ?_⟩
  rw [nextFromColumn, located.index, Checked.ok_bind, if_neg notSame,
    ic.emitFirst_eq located.inside leading, located.find?_drop beyond]

theorem nextDynamicOID_inside (bounded : Arcs (n :: rest))
    (leading : ic.sortedIfIndexes.head? = some first) :
    ∃ next, IsNext ic.rows (table.arcs ++ n :: rest) next ∧
      ic.nextDynamicOID (dotted (table.arcs ++ n :: rest)) = .ok (ic.answer next) := by
  have nonempty : ic.sortedIfIndexes ≠ [] := fun empty => by simp [empty] at leading
  rw [nextDynamicOID, splitTable_dotted]
  simp only [nonempty, ↓reduceIte, parseRowPosition_itoa bounded, locateColumn_eq]
  cases found : ifCyclerColumns.findIdx? fun tc => decide (rank ⟨table, n⟩ ≤ rank tc) with
  | none =>
    have below : ∀ c ∈ ifCyclerColumns, rank c < rank ⟨table, n⟩ := by
      intro c listed
      simpa using List.findIdx?_eq_none_iff.mp found c listed
    refine ⟨none, ?_, rfl⟩
    rintro key ⟨c, listed, -, i, member, rfl⟩ higher
    rcases (inside_lt_rowArcs_iff (ic.inRange i member).1).mp higher with later | ⟨rfl, -⟩
    · exact absurd later (below c listed).not_gt
    · exact absurd (below _ listed) (lt_irrefl _)
  | some colIdx =>
    obtain ⟨chosen, located⟩ := located_of_findIdx? found
    by_cases same : chosen = ⟨table, n⟩
    · subst same
      exact ic.nextFromColumn_same located (Arcs.cons_iff.mp bounded).2 leading
    · exact ic.nextFromColumn_later located same leading _ rfl

/-- An object behind ifTable but not behind the ifXTable entry, below neither. -/
def BetweenTables (arcs : List Nat) : Prop :=
  Outside arcs ∧ IfMibTable.arcs .ifTable < arcs ∧ arcs ≤ IfMibTable.arcs .ifXTable

private theorem compare_firstDynOID (bounded : Arcs arcs) (outside : Outside arcs)
    (leading : ic.sortedIfIndexes.head? = some first) :
    compareOIDs (dotted arcs) ic.firstDynOID < 0 ↔ arcs ≤ IfMibTable.arcs .ifTable := by
  have firstRow := ic.rowArcs_bounded (by decide : (⟨.ifTable, 7⟩ : CyclerColumn) ∈ ifCyclerColumns)
    (List.mem_of_mem_head? leading)
  rw [firstDynOID, leading]
  simp only [rowOID_eq]
  rw [compareOIDs_neg_iff bounded firstRow, outside_lt_rowArcs_iff outside]

/-- **The cycler's successor query** is exact for every object that is not between the tables. -/
theorem nextDynamicOID_isNext (bounded : Arcs arcs) (notBetween : ¬ BetweenTables arcs) :
    ∃ next, IsNext ic.rows arcs next ∧
      ic.nextDynamicOID (dotted arcs) = .ok (ic.answer next) := by
  cases leading : ic.sortedIfIndexes.head? with
  | none =>
    have empty : ic.sortedIfIndexes = [] := List.head?_eq_none_iff.mp leading
    refine ⟨none, ?_, by simp [nextDynamicOID, empty, answer]⟩
    rintro key ⟨c, -, -, i, member, -⟩
    simp [empty] at member
  | some first =>
    have nonempty : ic.sortedIfIndexes ≠ [] := fun empty => by simp [empty] at leading
    rcases inside_or_outside arcs with ⟨table, n, rest, rfl⟩ | outside
    · exact ic.nextDynamicOID_inside (Arcs.append_iff.mp bounded).2 leading
    · have start := ic.compare_firstDynOID bounded outside leading
      rw [nextDynamicOID, splitTable_dotted_of_outside outside]
      simp only [nonempty, ↓reduceIte, start]
      by_cases front : arcs ≤ IfMibTable.arcs .ifTable
      · have uniform : ∀ c ∈ ifCyclerColumns, ic.owns c = true → ∀ i ∈ ic.sortedIfIndexes,
            (arcs < rowArcs c i ↔ true = true) := by
          intro c _ _ i _
          rw [outside_lt_rowArcs_iff outside]
          refine iff_of_true ?_ rfl
          cases c.table with
          | ifTable => exact front
          | ifXTable => exact front.trans (by decide)
        refine ⟨_, ic.isNext_firstColumn uniform leading, ?_⟩
        rw [if_pos front, ic.emitFirst_eq (by decide) leading,
          ic.find?_drop_eq (by simp) (fun _ _ _ => rfl)]
      · have behind : ¬ arcs ≤ IfMibTable.arcs .ifXTable := fun upper =>
          notBetween ⟨outside, not_le.mp front, upper⟩
        refine ⟨none, ?_, by rw [if_neg front]; rfl⟩
        rintro key ⟨c, -, -, i, -, rfl⟩ higher
        rw [outside_lt_rowArcs_iff outside] at higher
        cases table : c.table with
        | ifTable => exact front (table ▸ higher)
        | ifXTable => exact behind (table ▸ higher)

/-- Between the tables the query reports no successor, although every ifXTable row is one. -/
theorem nextDynamicOID_between (bounded : Arcs arcs) (between : BetweenTables arcs) :
    ic.nextDynamicOID (dotted arcs) = .ok ([], []) := by
  obtain ⟨outside, behind, -⟩ := between
  cases leading : ic.sortedIfIndexes.head? with
  | none => simp [nextDynamicOID, List.head?_eq_none_iff.mp leading]
  | some first =>
    rw [nextDynamicOID, splitTable_dotted_of_outside outside]
    simp [ic.compare_firstDynOID bounded outside leading, behind.not_ge, ite_self]

theorem between_lt_rowArcs (between : BetweenTables arcs) (c : CyclerColumn) (i : Nat) :
    arcs < rowArcs c i ↔ c.table = .ifXTable := by
  rw [outside_lt_rowArcs_iff between.1]
  obtain ⟨own, col⟩ := c
  cases own with
  | ifTable => simpa using between.2.1
  | ifXTable => simpa using between.2.2

/-- The answer of `NextDynamicOID` in the agent's own terms: the owned row above the object that no
other owned row above the object sorts before, with its value, or nothing when no owned row sorts
above the object. -/
def AnswersNext (oid : Bytes) : Prop :=
  (ic.nextDynamicOID oid = .ok ([], []) ∧ ∀ c ∈ ifCyclerColumns, ic.owns c = true →
    ∀ i ∈ ic.sortedIfIndexes, ¬ compareOIDs oid (rowOID c i) < 0) ∨
  ∃ c ∈ ifCyclerColumns, ic.owns c = true ∧ ∃ i ∈ ic.sortedIfIndexes,
    ic.nextDynamicOID oid = .ok (rowOID c i, ic.getDynamic (rowOID c i)) ∧
    compareOIDs oid (rowOID c i) < 0 ∧
    ∀ d ∈ ifCyclerColumns, ic.owns d = true → ∀ j ∈ ic.sortedIfIndexes,
      compareOIDs oid (rowOID d j) < 0 → ¬ compareOIDs (rowOID d j) (rowOID c i) < 0

/-- Where the query is exact on arcs, it is exact in the agent's order. -/
theorem answersNext_of_isNext (bounded : Arcs arcs) {next : Option (List Nat)}
    (isNext : IsNext ic.rows arcs next)
    (answered : ic.nextDynamicOID (dotted arcs) = .ok (ic.answer next)) :
    ic.AnswersNext (dotted arcs) := by
  have above {c : CyclerColumn} (listed : c ∈ ifCyclerColumns) {i : Nat}
      (known : i ∈ ic.sortedIfIndexes) :
      compareOIDs (dotted arcs) (rowOID c i) < 0 ↔ arcs < rowArcs c i := by
    rw [rowOID_eq, compareOIDs_neg_iff bounded (ic.rowArcs_bounded listed known)]
  cases next with
  | none =>
    refine .inl ⟨answered, fun c listed owned i known higher => ?_⟩
    exact isNext _ ⟨c, listed, owned, i, known, rfl⟩ ((above listed known).mp higher)
  | some row =>
    obtain ⟨⟨⟨c, listed, owned, i, known, rfl⟩, higher⟩, least⟩ := isNext
    refine .inr ⟨c, listed, owned, i, known, ?_, (above listed known).mpr higher, ?_⟩
    · rw [answered, answer, rowOID_eq]
    · intro d dListed dOwned j dKnown dHigher lower
      rw [rowOID_eq, rowOID_eq, compareOIDs_neg_iff (ic.rowArcs_bounded dListed dKnown)
        (ic.rowArcs_bounded listed known)] at lower
      exact absurd lower (not_lt.mpr (least ⟨⟨d, dListed, dOwned, j, dKnown, rfl⟩,
        (above dListed dKnown).mp dHigher⟩))

/-- **The cycler's successor function.** For every set of interfaces, with or without a state engine,
and for every object with 32-bit arcs, `NextDynamicOID` answers with the next owned row exactly if the
object is not between the tables. -/
theorem nextDynamicOID_exact_iff (nonempty : ic.sortedIfIndexes ≠ []) (arcs : List Nat)
    (narrow : ∀ arc ∈ arcs, arc < 2 ^ 32) :
    ic.AnswersNext (dotted arcs) ↔ ¬ BetweenTables arcs := by
  have bounded : Arcs arcs := fun arc member => (narrow arc member).trans (by decide)
  constructor
  · intro answers between
    obtain ⟨first, rest, interfaces⟩ := List.exists_cons_of_ne_nil nonempty
    have known : first ∈ ic.sortedIfIndexes := by simp [interfaces]
    have listed : (⟨.ifXTable, 2⟩ : CyclerColumn) ∈ ifCyclerColumns := by decide
    have owned : ic.owns ⟨.ifXTable, 2⟩ = true := by simp [owns, isStateCol]
    rcases answers with ⟨-, none⟩ | ⟨c, -, -, i, -, answered, -, -⟩
    · refine none _ listed owned first known ?_
      rw [rowOID_eq, compareOIDs_neg_iff bounded (ic.rowArcs_bounded listed known),
        between_lt_rowArcs between]
    · rw [ic.nextDynamicOID_between bounded between] at answered
      have empty := congrArg Prod.fst (Except.ok.inj answered)
      simp [rowOID] at empty
  · intro notBetween
    obtain ⟨next, isNext, answered⟩ := ic.nextDynamicOID_isNext bounded notBetween
    exact ic.answersNext_of_isNext bounded isNext answered

end IfCounterCycler

/-- One interface, without a state engine. -/
def loneInterface : IfCounterCycler where
  sortedIfIndexes := [1]
  live _ _ _ := 0
  state := none
  ascending := by simp
  inRange := by simp

/-- The interfaces subtree is in front of the tables. -/
theorem nextDynamicOID_exact_interfaces :
    loneInterface.AnswersNext (dotted [1, 3, 6, 1, 2, 1, 2]) := by
  refine (loneInterface.nextDynamicOID_exact_iff (by decide) [1, 3, 6, 1, 2, 1, 2] (by decide)).mpr ?_
  rintro ⟨-, behind, -⟩
  exact absurd behind (by decide)

/-- The subtree that holds ifXTable has no successor, although a row of ifXTable sorts above it. -/
theorem nextDynamicOID_skips_ifXTable :
    loneInterface.nextDynamicOID (ascii ".1.3.6.1.2.1.31") = .ok ([], []) ∧
      compareOIDs (ascii ".1.3.6.1.2.1.31") (rowOID ⟨.ifXTable, 2⟩ 1) < 0 ∧
      loneInterface.getDynamic (rowOID ⟨.ifXTable, 2⟩ 1) = itoa 0 := by
  decide

end Nl6
