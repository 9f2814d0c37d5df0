import Nl6.Mib.CyclerWalk
import Nl6.Mib.Lldp

/-! # What the LLDP provider serves

`lldpGet` and the walk enumeration read the same links through different code: one parses the
requested object, the other prints every row. `mem_servedRows_iff` shows that they describe one
table, and `served_spec` that the sorted enumeration lists it in ascending order without repeats.
-/

namespace Nl6

open Numeral

/-! ### Arcs of the served objects -/

def lldpRootArcs : List Nat := [1, 0, 8802, 1, 1, 2]
def lldpScalarArcs (k : Nat) : List Nat := [1, 0, 8802, 1, 1, 2, 1, 3, k, 0]
def lldpLocPortArcs : List Nat := [1, 0, 8802, 1, 1, 2, 1, 3, 7, 1]
def lldpRemArcs : List Nat := [1, 0, 8802, 1, 1, 2, 1, 4, 1, 1]
def ifAliasArcs : List Nat := [1, 3, 6, 1, 2, 1, 31, 1, 1, 1, 18]

theorem lldpRoot_eq : lldpRoot ++ [dot] = dotted lldpRootArcs ++ [dot] := by decide

theorem lldpLocPortPrefix_eq : lldpLocPortPrefix = dotted lldpLocPortArcs ++ [dot] := by decide

theorem lldpRemPrefix_eq : lldpRemPrefix = dotted lldpRemArcs ++ [dot] := by decide

theorem ifAliasPrefix_eq : ifAliasPrefix = dotted ifAliasArcs ++ [dot] := by decide

theorem lldpScalars_eq :
    oidLldpLocChassisIdSubtype = dotted (lldpScalarArcs 1) ∧
      oidLldpLocChassisId = dotted (lldpScalarArcs 2) ∧
      oidLldpLocSysName = dotted (lldpScalarArcs 3) ∧
      oidLldpLocSysDesc = dotted (lldpScalarArcs 4) := by decide

theorem underPrefix_eq (front : List Nat) (n : Nat) (rest : List Nat) :
    underPrefix (dotted front ++ [dot]) (n :: rest) = dotted (front ++ n :: rest) := by
  simp [underPrefix]

theorem isLLDPOID_dotted {arcs : List Nat} :
    isLLDPOID (dotted arcs) = true ↔ ∃ n rest, arcs = lldpRootArcs ++ n :: rest := by
  rw [isLLDPOID, lldpRoot_eq, List.isPrefixOf_iff_prefix, dotted_dot_isPrefix_iff]

theorem isIfAliasOID_dotted {arcs : List Nat} :
    isIfAliasOID (dotted arcs) = true ↔ ∃ n rest, arcs = ifAliasArcs ++ n :: rest := by
  rw [isIfAliasOID, ifAliasPrefix_eq, List.isPrefixOf_iff_prefix, dotted_dot_isPrefix_iff]

/-! ### The parses on canonical text -/

variable {n : Nat} {rest : List Nat}

private theorem atoi_arc (bounded : n < arcLimit) : atoi (itoa n) = ((n : Int), true) :=
  atoi_itoa (by simp only [arcLimit] at bounded; omega)

theorem atoiAfter_itoa (bounded : n < arcLimit) :
    atoiAfter (itoa n ++ dotted rest) = if rest = [] then some (n : Int) else none := by
  cases rest with
  | nil =>
    have dotless : dot ∉ itoa n := fun member => absurd (isDigit_of_mem_itoa member) (by simp)
    simp [atoiAfter, dotless, atoi_arc bounded]
  | cons m more => simp [atoiAfter]

/-- The port a local port row's index names. -/
def locPortIndex : List Nat → Option Nat
  | [port] => some port
  | _ => none

/-- The port a remote row's index names: time mark, port, remote index. -/
def remIndex : List Nat → Option Nat
  | [timeMark, port, index] => if timeMark = 0 ∧ index = 1 then some port else none
  | _ => none

theorem parseColIndex_itoa (bounded : Arcs (n :: rest)) :
    parseColIndex (itoa n ++ dotted rest) =
      (locPortIndex rest).map fun port : Nat => ((n : Int), (port : Int)) := by
  obtain ⟨columnBound, restBound⟩ := Arcs.cons_iff.mp bounded
  rw [parseColIndex, cutDot_itoa]
  match rest with
  | [] => rfl
  | [port] => simp [locPortIndex, atoi_arc columnBound, atoi_arc (Arcs.cons_iff.mp restBound).1]
  | port :: k :: more =>
    have broken := atoi_itoa_dotted_cons port k more
    simp only [atoi_arc columnBound, locPortIndex]
    split_ifs
    · rfl
    · split
      · rename_i parsed
        rw [parsed] at broken
        simp at broken
      · rfl

theorem splitOn_itoa_dotted (n : Nat) (rest : List Nat) :
    (itoa n ++ dotted rest).splitOn dot = (n :: rest).map itoa := by
  have parts := oidParts_dotted (n :: rest)
  simpa [oidParts] using parts

theorem parseRemIndex_itoa (bounded : Arcs (n :: rest)) :
    parseRemIndex (itoa n ++ dotted rest) =
      (remIndex rest).map fun port : Nat => ((n : Int), (port : Int)) := by
  rw [parseRemIndex, splitOn_itoa_dotted]
  match rest with
  | [] => rfl
  | [_] => rfl
  | [_, _] => rfl
  | [timeMark, port, index] =>
    simp only [Arcs, List.mem_cons, forall_eq_or_imp, List.not_mem_nil, false_imp_iff,
      implies_true, and_true] at bounded
    obtain ⟨columnBound, markBound, portBound, indexBound⟩ := bounded
    simp only [List.map_cons, List.map_nil, atoi_arc columnBound, atoi_arc markBound,
      atoi_arc portBound, atoi_arc indexBound, remIndex]
    by_cases fixed : timeMark = 0 ∧ index = 1
    · obtain ⟨rfl, rfl⟩ := fixed
      simp
    · have apart : (timeMark : Int) ≠ 0 ∨ (index : Int) ≠ 1 := by omega
      rw [if_pos apart, if_neg fixed]
      rfl
  | _ :: _ :: _ :: _ :: _ => rfl

/-! ### The answer at each kind of object -/

namespace LldpContext

variable (ctx : LldpContext) {link : LocalLink} {n : Nat} {arcs rest : List Nat} {row : KvOID}
  {val : Bytes}

theorem findLink_of_mem (member : link ∈ ctx.links) :
    ctx.findLink link.localIfIndex = some link := by
  have unique : ∀ other ∈ ctx.links, other.localIfIndex = link.localIfIndex → other = link :=
    fun other listed same => List.inj_on_of_nodup_map ctx.ports_nodup listed member same
  rw [findLink]
  cases found : ctx.links.find? fun other => decide ((other.localIfIndex : Int) = link.localIfIndex) with
  | none =>
    have missed := List.find?_eq_none.mp found link member
    simp at missed
  | some other =>
    have same := List.find?_some found
    rw [unique other (List.mem_of_find?_eq_some found) (by simpa using same)]

theorem mem_of_findLink {port : Nat} (found : ctx.findLink port = some link) :
    link ∈ ctx.links ∧ link.localIfIndex = port := by
  refine ⟨List.mem_of_find?_eq_some found, ?_⟩
  simpa using List.find?_some found

theorem lldpGet_alias (bounded : n < arcLimit) :
    ctx.lldpGet (dotted (ifAliasArcs ++ n :: rest)) =
      if rest = [] then ((ctx.findLink n).map ctx.aliasLabel).getD [] else [] := by
  rw [lldpGet, ifAliasPrefix_eq, afterPrefix_dotted]
  simp only [atoiAfter_itoa bounded]
  by_cases single : rest = []
  · simp only [single, ↓reduceIte, Option.bind_some]
    cases ctx.findLink n <;> rfl
  · simp [single]

private theorem ifAlias_apart (tail : List Nat) (n : Nat) (rest : List Nat) :
    1 :: 0 :: tail ≠ ifAliasArcs ++ n :: rest := by
  simp [ifAliasArcs]

private theorem findLink_of_nil (unlinked : ctx.links = []) (port : Int) :
    ctx.findLink port = none := by
  simp [findLink, unlinked]

private theorem lldpTableGet_of_nil (unlinked : ctx.links = []) (oid : Bytes) :
    ctx.lldpTableGet oid = [] := by
  simp only [lldpTableGet, ctx.findLink_of_nil unlinked]
  split
  · split <;> rfl
  · split
    · rfl
    · split <;> rfl

private theorem lldpGet_eq_table {tail : List Nat}
    (apart : ∀ k, 1 :: 0 :: tail ≠ lldpScalarArcs k)
    (below : isLLDPOID (dotted (1 :: 0 :: tail)) = true) :
    ctx.lldpGet (dotted (1 :: 0 :: tail)) = ctx.lldpTableGet (dotted (1 :: 0 :: tail)) := by
  obtain ⟨subtype, chassis, name, descr⟩ := lldpScalars_eq
  rw [lldpGet, ifAliasPrefix_eq, afterPrefix_dotted_of_not (ifAlias_apart tail)]
  by_cases unlinked : ctx.links = []
  · simp [unlinked, ctx.lldpTableGet_of_nil unlinked]
  · simp only [below, Bool.true_eq_false, unlinked, or_self, ↓reduceIte, subtype, chassis, name,
      descr, dotted_inj, apart]

theorem lldpGet_locPort (bounded : Arcs (n :: rest)) :
    ctx.lldpGet (dotted (lldpLocPortArcs ++ n :: rest)) =
      (((locPortIndex rest).bind fun port => (ctx.findLink port).map fun _ =>
        ctx.locPortColumn n port)).getD [] := by
  have tables : ctx.lldpGet (dotted (lldpLocPortArcs ++ n :: rest)) =
      ctx.lldpTableGet (dotted (lldpLocPortArcs ++ n :: rest)) :=
    ctx.lldpGet_eq_table (fun k same => by simp [lldpScalarArcs] at same)
      (isLLDPOID_dotted.mpr ⟨1, _, rfl⟩)
  rw [tables, lldpTableGet, lldpLocPortPrefix_eq, afterPrefix_dotted]
  simp only [parseColIndex_itoa bounded]
  cases locPortIndex rest with
  | none => rfl
  | some port =>
    simp only [Option.map_some, Option.bind_some, Int.toNat_natCast]
    cases ctx.findLink port <;> rfl

theorem lldpGet_rem (bounded : Arcs (n :: rest)) :
    ctx.lldpGet (dotted (lldpRemArcs ++ n :: rest)) =
      (((remIndex rest).bind fun port => (ctx.findLink port).map fun link =>
        ctx.remColumn n link)).getD [] := by
  have tables : ctx.lldpGet (dotted (lldpRemArcs ++ n :: rest)) =
      ctx.lldpTableGet (dotted (lldpRemArcs ++ n :: rest)) :=
    ctx.lldpGet_eq_table (fun k same => by simp [lldpScalarArcs] at same)
      (isLLDPOID_dotted.mpr ⟨1, _, rfl⟩)
  have apart : ∀ m more, lldpRemArcs ++ n :: rest ≠ lldpLocPortArcs ++ m :: more := by
    intro m more same
    simp [lldpRemArcs, lldpLocPortArcs] at same
  rw [tables, lldpTableGet, lldpLocPortPrefix_eq, afterPrefix_dotted_of_not apart,
    lldpRemPrefix_eq, afterPrefix_dotted]
  simp only [parseRemIndex_itoa bounded]
  cases remIndex rest with
  | none => rfl
  | some port =>
    simp only [Option.map_some, Option.bind_some]
    cases ctx.findLink port <;> rfl

/-- The scalars a linked device answers. -/
def scalarValue (k : Nat) : Bytes :=
  if k = 1 then lldpChassisIdSubtypeMAC
  else if k = 2 then chassisMACBytes ctx.self.ip
  else if k = 3 then ctx.self.sysName
  else if k = 4 then ctx.self.sysDescr
  else []

theorem lldpGet_scalar (k : Nat) :
    ctx.lldpGet (dotted (lldpScalarArcs k)) = if ctx.links = [] then [] else ctx.scalarValue k := by
  obtain ⟨subtype, chassis, name, descr⟩ := lldpScalars_eq
  have below : isLLDPOID (dotted (lldpScalarArcs k)) = true := isLLDPOID_dotted.mpr ⟨1, _, rfl⟩
  have noPort : ∀ m more, lldpScalarArcs k ≠ lldpLocPortArcs ++ m :: more := by
    intro m more same
    simp [lldpScalarArcs, lldpLocPortArcs] at same
  have noRem : ∀ m more, lldpScalarArcs k ≠ lldpRemArcs ++ m :: more := by
    intro m more same
    simp [lldpScalarArcs, lldpRemArcs] at same
  have noAlias : ∀ n rest, lldpScalarArcs k ≠ ifAliasArcs ++ n :: rest :=
    fun n rest => ifAlias_apart _ n rest
  have noTable : ctx.lldpTableGet (dotted (lldpScalarArcs k)) = [] := by
    rw [lldpTableGet, lldpLocPortPrefix_eq, afterPrefix_dotted_of_not noPort, lldpRemPrefix_eq,
      afterPrefix_dotted_of_not noRem]
  have distinct : ∀ j, lldpScalarArcs k = lldpScalarArcs j ↔ k = j := fun j => by
    simp [lldpScalarArcs]
  rw [lldpGet, ifAliasPrefix_eq, afterPrefix_dotted_of_not noAlias]
  simp [below, Bool.true_eq_false, subtype, chassis, name, descr, dotted_inj, distinct, noTable,
    scalarValue]

theorem lldpGet_of_other (noAlias : ∀ n rest, arcs ≠ ifAliasArcs ++ n :: rest)
    (noPort : ∀ n rest, arcs ≠ lldpLocPortArcs ++ n :: rest)
    (noRem : ∀ n rest, arcs ≠ lldpRemArcs ++ n :: rest) (noScalar : ∀ k, arcs ≠ lldpScalarArcs k) :
    ctx.lldpGet (dotted arcs) = [] := by
  obtain ⟨subtype, chassis, name, descr⟩ := lldpScalars_eq
  have noTable : ctx.lldpTableGet (dotted arcs) = [] := by
    rw [lldpTableGet, lldpLocPortPrefix_eq, afterPrefix_dotted_of_not noPort, lldpRemPrefix_eq,
      afterPrefix_dotted_of_not noRem]
  rw [lldpGet, ifAliasPrefix_eq, afterPrefix_dotted_of_not noAlias]
  simp [subtype, chassis, name, descr, dotted_inj, noScalar, noTable, ite_self]

/-! ### The enumeration -/

/-- A row of the enumeration, read as arcs and value. -/
inductive Row : List Nat → Bytes → Prop where
  | scalar (k : Nat) (known : k ∈ [1, 2, 3, 4]) : Row (lldpScalarArcs k) (ctx.scalarValue k)
  | locPort (link : LocalLink) (listed : link ∈ ctx.links) (col : Nat) (known : col ∈ [2, 3, 4]) :
      Row (lldpLocPortArcs ++ [col, link.localIfIndex]) (ctx.locPortColumn col link.localIfIndex)
  | ifAlias (link : LocalLink) (listed : link ∈ ctx.links) :
      Row (ifAliasArcs ++ [link.localIfIndex]) (ctx.aliasLabel link)
  | rem (link : LocalLink) (listed : link ∈ ctx.links) (col : Nat)
      (known : col ∈ [4, 5, 6, 7, 8, 9, 10]) :
      Row (lldpRemArcs ++ [col, 0, link.localIfIndex, 1]) (ctx.remColumn col link)

private theorem mem_scalarRows_iff :
    row ∈ ctx.scalarRows ↔
      ∃ k ∈ [1, 2, 3, 4], row = ⟨dotted (lldpScalarArcs k), ctx.scalarValue k⟩ := by
  obtain ⟨subtype, chassis, name, descr⟩ := lldpScalars_eq
  simp [scalarRows, subtype, chassis, name, descr, scalarValue]

private theorem mem_linkRows_iff :
    row ∈ ctx.linkRows link ↔
      (∃ col ∈ [2, 3, 4], row = ⟨dotted (lldpLocPortArcs ++ [col, link.localIfIndex]),
        ctx.locPortColumn (col : Nat) link.localIfIndex⟩) ∨
      row = ⟨dotted (ifAliasArcs ++ [link.localIfIndex]), ctx.aliasLabel link⟩ ∨
      ∃ col ∈ [4, 5, 6, 7, 8, 9, 10], row = ⟨dotted (lldpRemArcs ++ [col, 0, link.localIfIndex, 1]),
        ctx.remColumn (col : Nat) link⟩ := by
  rw [linkRows, List.mem_append, List.mem_map, lldpLocPortPrefix_eq, lldpRemPrefix_eq,
    ifAliasPrefix_eq]
  simp only [underPrefix_eq, List.mem_cons, List.not_mem_nil, or_false, exists_eq_or_imp,
    exists_eq_left, Nat.cast_ofNat, eq_comm (a := row)]
  tauto

theorem mem_servedRows_iff_row :
    row ∈ ctx.servedRows ↔ row.val ≠ [] ∧ ∃ arcs, row.oid = dotted arcs ∧ Row ctx arcs row.val := by
  rw [servedRows, List.mem_filter, List.mem_append, mem_scalarRows_iff, List.mem_flatMap,
    decide_eq_true_eq, and_comm]
  refine and_congr_right fun _ => ?_
  constructor
  · rintro (⟨k, known, rfl⟩ | ⟨link, listed, placed⟩)
    · exact ⟨_, rfl, .scalar k known⟩
    · rcases ctx.mem_linkRows_iff.mp placed with ⟨col, known, rfl⟩ | rfl | ⟨col, known, rfl⟩
      · exact ⟨_, rfl, .locPort link listed col known⟩
      · exact ⟨_, rfl, .ifAlias link listed⟩
      · exact ⟨_, rfl, .rem link listed col known⟩
  · obtain ⟨oid, val⟩ := row
    rintro ⟨arcs, rfl, found⟩
    cases found with
    | scalar k known => exact .inl ⟨k, known, rfl⟩
    | locPort link listed col known =>
      exact .inr ⟨link, listed, ctx.mem_linkRows_iff.mpr (.inl ⟨col, known, rfl⟩)⟩
    | ifAlias link listed =>
      exact .inr ⟨link, listed, ctx.mem_linkRows_iff.mpr (.inr (.inl rfl))⟩
    | rem link listed col known =>
      exact .inr ⟨link, listed, ctx.mem_linkRows_iff.mpr (.inr (.inr ⟨col, known, rfl⟩))⟩

variable {ctx}

theorem Row.bounded (row : Row ctx arcs val) : arcs ≠ [] ∧ Arcs arcs := by
  have small : ∀ k ∈ [1, 2, 3, 4, 5, 6, 7, 8, 9, 10], k < arcLimit := by decide
  cases row with
  | scalar k known =>
    have column := small k (by simp only [List.mem_cons] at known ⊢; tauto)
    refine ⟨by simp [lldpScalarArcs], ?_⟩
    change Arcs ([1, 0, 8802, 1, 1, 2, 1, 3] ++ [k, 0])
    simp only [Arcs.append_iff, Arcs.cons_iff]
    exact ⟨by decide, column, by decide, .nil⟩
  | locPort link listed col known =>
    have column := small col (by simp only [List.mem_cons] at known ⊢; tauto)
    refine ⟨by simp [lldpLocPortArcs], ?_⟩
    simp only [Arcs.append_iff, Arcs.cons_iff]
    exact ⟨by decide, column, (ctx.ports_range link listed).2, .nil⟩
  | ifAlias link listed =>
    refine ⟨by simp [ifAliasArcs], ?_⟩
    simp only [Arcs.append_iff, Arcs.cons_iff]
    exact ⟨by decide, (ctx.ports_range link listed).2, .nil⟩
  | rem link listed col known =>
    have column := small col (by simp only [List.mem_cons] at known ⊢; tauto)
    refine ⟨by simp [lldpRemArcs], ?_⟩
    simp only [Arcs.append_iff, Arcs.cons_iff]
    exact ⟨by decide, column, by decide, (ctx.ports_range link listed).2, by decide, .nil⟩

theorem Row.lldpGet_eq (row : Row ctx arcs val) (linked : ctx.links ≠ []) :
    ctx.lldpGet (dotted arcs) = val := by
  have bounded := row.bounded.2
  cases row with
  | scalar k known => simp [lldpGet_scalar, linked]
  | locPort link listed col known =>
    rw [ctx.lldpGet_locPort (Arcs.append_iff.mp bounded).2]
    simp [locPortIndex, ctx.findLink_of_mem listed]
  | ifAlias link listed =>
    rw [ctx.lldpGet_alias (ctx.ports_range link listed).2]
    simp [ctx.findLink_of_mem listed]
  | rem link listed col known =>
    rw [ctx.lldpGet_rem (Arcs.append_iff.mp bounded).2]
    simp [remIndex, ctx.findLink_of_mem listed]

private theorem row_of_alias (bounded : n < arcLimit)
    (answered : ctx.lldpGet (dotted (ifAliasArcs ++ n :: rest)) ≠ []) :
    ctx.links ≠ [] ∧
      Row ctx (ifAliasArcs ++ n :: rest) (ctx.lldpGet (dotted (ifAliasArcs ++ n :: rest))) := by
  rw [ctx.lldpGet_alias bounded] at answered ⊢
  by_cases single : rest = []
  · subst single
    simp only [↓reduceIte] at answered ⊢
    cases found : ctx.findLink n with
    | none => simp [found] at answered
    | some link =>
      obtain ⟨listed, rfl⟩ := ctx.mem_of_findLink found
      exact ⟨List.ne_nil_of_mem listed, .ifAlias link listed⟩
  · simp [single] at answered

private theorem row_of_locPort (bounded : Arcs (n :: rest))
    (answered : ctx.lldpGet (dotted (lldpLocPortArcs ++ n :: rest)) ≠ []) :
    ctx.links ≠ [] ∧
      Row ctx (lldpLocPortArcs ++ n :: rest)
        (ctx.lldpGet (dotted (lldpLocPortArcs ++ n :: rest))) := by
  rw [ctx.lldpGet_locPort bounded] at answered ⊢
  match rest with
  | [] => simp [locPortIndex] at answered
  | _ :: _ :: _ => simp [locPortIndex] at answered
  | [port] =>
    cases found : ctx.findLink port with
    | none => simp [locPortIndex, found] at answered
    | some link =>
      obtain ⟨listed, rfl⟩ := ctx.mem_of_findLink found
      simp only [locPortIndex, Option.bind_some, found, Option.map_some, Option.getD_some]
        at answered ⊢
      have known : n ∈ [2, 3, 4] := by
        by_contra other
        simp only [List.mem_cons, List.not_mem_nil, or_false, not_or] at other
        have : ctx.locPortColumn n link.localIfIndex = [] := by
          simp only [locPortColumn]
          rw [if_neg (by omega), if_neg (by omega)]
        exact answered this
      exact ⟨List.ne_nil_of_mem listed, .locPort link listed n known⟩

private theorem row_of_rem (bounded : Arcs (n :: rest))
    (answered : ctx.lldpGet (dotted (lldpRemArcs ++ n :: rest)) ≠ []) :
    ctx.links ≠ [] ∧
      Row ctx (lldpRemArcs ++ n :: rest) (ctx.lldpGet (dotted (lldpRemArcs ++ n :: rest))) := by
  rw [ctx.lldpGet_rem bounded] at answered ⊢
  match rest with
  | [] => simp [remIndex] at answered
  | [_] => simp [remIndex] at answered
  | [_, _] => simp [remIndex] at answered
  | _ :: _ :: _ :: _ :: _ => simp [remIndex] at answered
  | [timeMark, port, index] =>
    by_cases fixed : timeMark = 0 ∧ index = 1
    · obtain ⟨rfl, rfl⟩ := fixed
      cases found : ctx.findLink port with
      | none => simp [remIndex, found] at answered
      | some link =>
        obtain ⟨listed, rfl⟩ := ctx.mem_of_findLink found
        simp only [remIndex, and_self, ↓reduceIte, Option.bind_some, found, Option.map_some,
          Option.getD_some] at answered ⊢
        have known : n ∈ [4, 5, 6, 7, 8, 9, 10] := by
          by_contra other
          simp only [List.mem_cons, List.not_mem_nil, or_false, not_or] at other
          have : ctx.remColumn n link = [] := by
            simp only [remColumn]
            cases ctx.findDeviceByIP link.peerIP with
            | none => rfl
            | some peer =>
              simp only
              split_ifs <;> first | rfl | omega
          exact answered this
        exact ⟨List.ne_nil_of_mem listed, .rem link listed n known⟩
    · simp [remIndex, fixed] at answered

theorem Row.shape (row : Row ctx arcs val) :
    (∃ n rest, arcs = lldpRootArcs ++ n :: rest) ∨ ∃ n, arcs = ifAliasArcs ++ [n] := by
  cases row with
  | scalar k known => exact .inl ⟨1, [3, k, 0], rfl⟩
  | locPort link listed col known => exact .inl ⟨1, [3, 7, 1, col, link.localIfIndex], rfl⟩
  | ifAlias link listed => exact .inr ⟨link.localIfIndex, rfl⟩
  | rem link listed col known => exact .inl ⟨1, [4, 1, 1, col, 0, link.localIfIndex, 1], rfl⟩

theorem Row.inRange (row : Row ctx arcs val) :
    (isLLDPOID (dotted arcs) || isIfAliasOID (dotted arcs)) = true := by
  rw [Bool.or_eq_true, isLLDPOID_dotted, isIfAliasOID_dotted]
  exact row.shape.imp id fun ⟨n, same⟩ => ⟨n, [], same⟩

theorem row_of_lldpGet_ne_nil (bounded : Arcs arcs) (answered : ctx.lldpGet (dotted arcs) ≠ []) :
    ctx.links ≠ [] ∧ Row ctx arcs (ctx.lldpGet (dotted arcs)) := by
  by_cases aliased : ∃ n rest, arcs = ifAliasArcs ++ n :: rest
  · obtain ⟨n, rest, rfl⟩ := aliased
    exact row_of_alias (Arcs.cons_iff.mp (Arcs.append_iff.mp bounded).2).1 answered
  by_cases locPort : ∃ n rest, arcs = lldpLocPortArcs ++ n :: rest
  · obtain ⟨n, rest, rfl⟩ := locPort
    exact row_of_locPort (Arcs.append_iff.mp bounded).2 answered
  by_cases remote : ∃ n rest, arcs = lldpRemArcs ++ n :: rest
  · obtain ⟨n, rest, rfl⟩ := remote
    exact row_of_rem (Arcs.append_iff.mp bounded).2 answered
  by_cases scalar : ∃ k, arcs = lldpScalarArcs k
  · obtain ⟨k, rfl⟩ := scalar
    rw [lldpGet_scalar] at answered ⊢
    by_cases unlinked : ctx.links = []
    · simp [unlinked] at answered
    · simp only [unlinked, ↓reduceIte] at answered ⊢
      refine ⟨unlinked, .scalar k ?_⟩
      by_contra other
      simp only [List.mem_cons, List.not_mem_nil, or_false, not_or] at other
      refine answered ?_
      simp only [scalarValue]
      repeat rw [if_neg (by omega)]
  · exact absurd (ctx.lldpGet_of_other (fun n rest same => aliased ⟨n, rest, same⟩)
      (fun n rest same => locPort ⟨n, rest, same⟩) (fun n rest same => remote ⟨n, rest, same⟩)
      fun k same => scalar ⟨k, same⟩) answered

variable (ctx)

/-- The provider's table, read through `lldpGet`. -/
theorem mem_servedRows_iff (linked : ctx.links ≠ []) :
    row ∈ ctx.servedRows ↔ ∃ arcs, arcs ≠ [] ∧ Arcs arcs ∧ row.oid = dotted arcs ∧
      row.val = ctx.lldpGet (dotted arcs) ∧ ctx.lldpGet (dotted arcs) ≠ [] := by
  rw [mem_servedRows_iff_row]
  constructor
  · rintro ⟨valued, arcs, named, found⟩
    have value := found.lldpGet_eq linked
    exact ⟨arcs, found.bounded.1, found.bounded.2, named, value.symm, value ▸ valued⟩
  · rintro ⟨arcs, -, bounded, named, value, answered⟩
    exact ⟨value ▸ answered, arcs, named, value ▸ (row_of_lldpGet_ne_nil bounded answered).2⟩

/-- **The walk enumeration.** Whatever sort is used, the snapshot lists exactly the objects
`lldpGet` has a value for, each with that value, in ascending order. -/
theorem served_spec (sorter : Sorter) :
    ∃ arcs : List (List Nat),
      ctx.buildLLDPServedOIDs sorter = arcs.map (fun a => ⟨dotted a, ctx.lldpGet (dotted a)⟩) ∧
      arcs.Pairwise (· ≤ ·) ∧
      (∀ a ∈ arcs, a ≠ [] ∧ Arcs a ∧ ctx.lldpGet (dotted a) ≠ []) ∧
      (∀ a, Arcs a → ctx.lldpGet (dotted a) ≠ [] → a ∈ arcs) := by
  by_cases unlinked : ctx.links = []
  · refine ⟨[], by simp [buildLLDPServedOIDs, unlinked], List.Pairwise.nil, by simp, ?_⟩
    intro a bounded answered
    exact absurd unlinked (row_of_lldpGet_ne_nil bounded answered).1
  · have perm := sorter.perm (fun a b : KvOID => decide (compareOIDs a.oid b.oid < 0)) ctx.servedRows
    let arcsOf : KvOID → List Nat := fun row => Function.invFun dotted row.oid
    have inverse : ∀ a, Function.invFun dotted (dotted a) = a :=
      Function.leftInverse_invFun dotted_injective
    have read : ∀ row ∈ ctx.buildLLDPServedOIDs sorter, ∃ a, a ≠ [] ∧ Arcs a ∧
        row = ⟨dotted a, ctx.lldpGet (dotted a)⟩ ∧ ctx.lldpGet (dotted a) ≠ [] := by
      intro row member
      rw [buildLLDPServedOIDs, if_neg unlinked] at member
      obtain ⟨a, nonempty, bounded, named, value, answered⟩ :=
        (ctx.mem_servedRows_iff unlinked).mp (perm.mem_iff.mp member)
      exact ⟨a, nonempty, bounded, by cases row; simp_all, answered⟩
    refine ⟨(ctx.buildLLDPServedOIDs sorter).map arcsOf, ?_, ?_, ?_, ?_⟩
    · rw [List.map_map]
      refine (List.map_id _).symm.trans (List.map_congr_left ?_)
      intro row member
      obtain ⟨a, -, -, rfl, -⟩ := read row member
      simp [arcsOf, inverse]
    · rw [List.pairwise_map, buildLLDPServedOIDs, if_neg unlinked]
      refine sorter.sorted _ arcsOf _ ?_
      intro first inside second also
      obtain ⟨a, -, leftBound, named, -⟩ := (ctx.mem_servedRows_iff unlinked).mp inside
      obtain ⟨b, -, rightBound, other, -⟩ := (ctx.mem_servedRows_iff unlinked).mp also
      simp only [arcsOf, named, other, inverse, decide_eq_true_eq]
      exact compareOIDs_neg_iff leftBound rightBound
    · intro a member
      obtain ⟨row, listed, rfl⟩ := List.mem_map.mp member
      obtain ⟨a, nonempty, bounded, rfl, answered⟩ := read row listed
      simp only [arcsOf, inverse]
      exact ⟨nonempty, bounded, answered⟩
    · intro a bounded answered
      refine List.mem_map.mpr ⟨⟨dotted a, ctx.lldpGet (dotted a)⟩, ?_, inverse a⟩
      rw [buildLLDPServedOIDs, if_neg unlinked]
      exact perm.mem_iff.mpr ((ctx.mem_servedRows_iff unlinked).mpr
        ⟨a, (row_of_lldpGet_ne_nil bounded answered).2.bounded.1, bounded, rfl, rfl, answered⟩)

end LldpContext

end Nl6
