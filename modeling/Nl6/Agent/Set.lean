import Nl6.Agent.Server
import Nl6.Wire.RoundTrip

/-! # SET is all or nothing

A SET runs every binding through one ladder of tests before it applies any of them. The ladder is
stated here by what each test asks of a binding (`SNMPServer.ladder`), over the arcs of its name
and the integer its contents spell. `decideSet_spec` says what a SET does: the first binding
that fails names the verdict and nothing is written, or all bindings are applied in order, as a run
of the interface-state engine. Both versions reach the list through walkers of their own and decide
the same (`set_all_or_nothing`).
-/

namespace Nl6

open Numeral Checked Ber

/-! ### The ladder -/

/-- The arcs of `ifAdminStatusColumn`. -/
def ifAdminStatusArcs : List Nat := [1, 3, 6, 1, 2, 1, 2, 2, 1, 7]

def Assigns (b : SnmpVarBind) (call : Call) : Prop :=
  ∃ (n : Nat) (v : Int), b.name = dotted (ifAdminStatusArcs ++ [n]) ∧
    integerValue b.content = some v ∧ call = .applyAdminStatus n v

namespace SNMPServer

variable (s : SNMPServer)

/-- The tests a binding goes through, in their order: the error-status of each, and when a binding
fails it. -/
def ladder : List (Int × (SnmpVarBind → Prop)) :=
  [(snmpErrNotWritable, fun b => ¬ ∃ arcs, b.name = dotted (ifAdminStatusArcs ++ arcs)),
   (snmpErrWrongType, fun b => b.tag ≠ asn1Integer),
   (snmpErrWrongEncoding, fun b => integerValue b.content = none),
   (snmpErrWrongValue, fun b => ∀ v, integerValue b.content = some v → v < 1 ∨ 3 < v),
   (snmpErrNoCreation, fun b => ¬ ∃ n : Nat, b.name = dotted (ifAdminStatusArcs ++ [n]) ∧
      ∃ ic ∈ s.device.ifCycler, n ∈ ic.sortedIfIndexes)]

def Passes (b : SnmpVarBind) : Prop := ∀ test ∈ s.ladder, ¬ test.2 b

/-- The first test the binding fails has this error-status. -/
def FailsWith (b : SnmpVarBind) (errStatus : Int) : Prop :=
  ∃ passed fails later, s.ladder = passed ++ (errStatus, fails) :: later ∧ fails b ∧
    ∀ test ∈ passed, ¬ test.2 b

/-- The clock readings of the assignments, from the one with the given number on. -/
def timed : Nat → List Call → List (Call × Nat)
  | _, [] => []
  | i, call :: calls => (call, s.clock i) :: timed (i + 1) calls

/-- A refused SET: the verdict names the first binding that fails, and nothing is written. -/
def Refuses (binds : List SnmpVarBind) (decision : SetDecision) : Prop :=
  ∃ front b rest errStatus, binds = front ++ b :: rest ∧ (∀ earlier ∈ front, s.Passes earlier) ∧
    s.FailsWith b errStatus ∧ decision = ⟨⟨errStatus, front.length + 1⟩, s.interfaceState, []⟩

/-- An applied SET: every binding passes, and the engine has run their assignments in order. Without
an engine there is nothing to assign. -/
def Applies (binds : List SnmpVarBind) (decision : SetDecision) : Prop :=
  (∀ b ∈ binds, s.Passes b) ∧ ∃ calls, List.Forall₂ Assigns binds calls ∧
    (s.interfaceState = none → binds = [] ∧ decision = ⟨⟨snmpErrNoError, 0⟩, none, []⟩) ∧
    ∀ engine, s.interfaceState = some engine → decision = ⟨⟨snmpErrNoError, 0⟩,
      some (engine.run (s.timed 0 calls)).1, (engine.run (s.timed 0 calls)).2⟩

end SNMPServer

/-! ### Names -/

theorem dotted_ifAdminStatusArcs : dotted ifAdminStatusArcs = dot :: ifAdminStatusColumn := by
  decide +kernel

theorem afterPrefix_cons (c : UInt8) (front text : Bytes) :
    afterPrefix (c :: front) (c :: text) = afterPrefix front text := by
  simp [afterPrefix]

theorem trimDot_dotted {arcs : List Nat} (nonempty : arcs ≠ []) :
    dotted arcs = dot :: trimDot (dotted arcs) := by
  obtain ⟨first, rest, rfl⟩ := List.exists_cons_of_ne_nil nonempty
  simp [trimDot]

theorem writableFor_eq (name : Bytes) : writableFor name =
    if trimDot name = ifAdminStatusColumn then some (ifAdminStatusRow, [])
    else (afterPrefix (ifAdminStatusColumn ++ [dot]) (trimDot name)).map
      fun suffix => (ifAdminStatusRow, suffix) :=
  List.findSome?_singleton

/-- The suffix `writableFor` leaves of a name under the column. -/
def instanceSuffix : List Nat → Bytes
  | [] => []
  | n :: rest => itoa n ++ dotted rest

theorem writableFor_of_extends (suffix : List Nat) :
    writableFor (dotted (ifAdminStatusArcs ++ suffix)) =
      some (ifAdminStatusRow, instanceSuffix suffix) := by
  have split := trimDot_dotted (show ifAdminStatusArcs ++ suffix ≠ [] by simp [ifAdminStatusArcs])
  rw [writableFor_eq]
  cases suffix with
  | nil =>
    rw [List.append_nil, dotted_ifAdminStatusArcs] at split ⊢
    rw [if_pos (List.cons.inj split).2.symm, instanceSuffix]
  | cons n rest =>
    have longer : trimDot (dotted (ifAdminStatusArcs ++ n :: rest)) ≠ ifAdminStatusColumn := by
      intro same
      rw [same, ← dotted_ifAdminStatusArcs, dotted_inj] at split
      simp at split
    have behind := afterPrefix_dotted ifAdminStatusArcs n rest
    rw [split, dotted_ifAdminStatusArcs, List.cons_append, afterPrefix_cons] at behind
    rw [if_neg longer, behind]
    rfl

theorem writableFor_of_not_extends {arcs : List Nat} (nonempty : arcs ≠ [])
    (outside : ∀ suffix, arcs ≠ ifAdminStatusArcs ++ suffix) : writableFor (dotted arcs) = none := by
  have split := trimDot_dotted nonempty
  have other : trimDot (dotted arcs) ≠ ifAdminStatusColumn := by
    intro same
    rw [same, ← dotted_ifAdminStatusArcs, dotted_inj] at split
    exact outside [] (by rw [split, List.append_nil])
  have behind := afterPrefix_dotted_of_not fun n rest => outside (n :: rest)
  rw [split, dotted_ifAdminStatusArcs, List.cons_append, afterPrefix_cons] at behind
  rw [writableFor_eq, if_neg other, behind, Option.map_none]

/-- Exactly one positive arc is an instance. -/
theorem instanceIndex_instanceSuffix {suffix : List Nat} (bounded : Arcs suffix) :
    instanceIndex (instanceSuffix suffix) =
      match suffix with
      | [n] => if n = 0 then none else some (n : Int)
      | _ => none := by
  match suffix with
  | [] => rfl
  | [n] =>
    have below : n < 2 ^ 63 := (bounded n (by simp)).trans (by decide)
    have noDot : dot ∉ itoa n := fun inside => absurd (isDigit_of_mem_itoa inside) (by simp)
    have numeral : itoaInt n = itoa n := by simp [itoaInt]
    simp only [instanceIndex, instanceSuffix, dotted_nil, List.append_nil, itoa_ne_nil, noDot, or_self,
      ↓reduceIte, atoi_itoa below, Bool.true_eq_false, false_or, numeral, ne_eq, not_true_eq_false,
      or_false]
    by_cases zero : n = 0
    · simp [zero]
    · rw [if_neg (by omega), if_neg zero]
  | n :: m :: rest => simp [instanceIndex, instanceSuffix]

namespace SNMPServer

variable {s : SNMPServer} {binds : List SnmpVarBind} {actions : List SetAction}
  {decision : SetDecision}

theorem ownsIfIndex_iff {n : Nat} :
    s.ownsIfIndex n = true ↔ ∃ ic ∈ s.device.ifCycler, n ∈ ic.sortedIfIndexes := by
  rw [ownsIfIndex]
  cases s.device.ifCycler with
  | none => simp
  | some ic => simp

/-- The counters that own an interface come with an engine. -/
theorem interfaceState_of_owns {n : Nat}
    (owned : ∃ ic ∈ s.device.ifCycler, n ∈ ic.sortedIfIndexes) :
    ∃ engine, s.interfaceState = some engine := by
  obtain ⟨ic, published, -⟩ := owned
  obtain ⟨cycler, present, counters⟩ := Option.bind_eq_some_iff.mp published
  obtain ⟨engine, found⟩ := Option.isSome_iff_exists.mp (cycler.ifCounters_state ic counters)
  exact ⟨engine, Option.bind_eq_some_iff.mpr ⟨ic, published, found⟩⟩

theorem instance_cases (s : SNMPServer) {suffix : List Nat} (bounded : Arcs suffix) :
    (∃ n, suffix = [n] ∧ (∃ ic ∈ s.device.ifCycler, n ∈ ic.sortedIfIndexes) ∧
      (instanceIndex (instanceSuffix suffix)).filter s.ownsIfIndex = some (n : Int)) ∨
    (¬ ∃ n, suffix = [n] ∧ ∃ ic ∈ s.device.ifCycler, n ∈ ic.sortedIfIndexes) ∧
      (instanceIndex (instanceSuffix suffix)).filter s.ownsIfIndex = none := by
  rw [instanceIndex_instanceSuffix bounded]
  match suffix with
  | [] => simp
  | [n] =>
    by_cases owned : ∃ ic ∈ s.device.ifCycler, n ∈ ic.sortedIfIndexes
    · obtain ⟨ic, published, listed⟩ := owned
      have positive : n ≠ 0 := by
        have := (ic.inRange n listed).1
        omega
      refine .inl ⟨n, rfl, ⟨ic, published, listed⟩, ?_⟩
      simp [positive, ownsIfIndex_iff.mpr ⟨ic, published, listed⟩]
    · refine .inr ⟨?_, ?_⟩
      · rintro ⟨_, ⟨⟩, listed⟩
        exact owned listed
      · by_cases zero : n = 0
        · simp [zero]
        · simp [zero, Bool.eq_false_iff.mpr fun owns => owned (ownsIfIndex_iff.mp owns)]
  | n :: m :: rest => simp

/-! ### One binding -/

def actionCall (action : SetAction) : Call := .applyAdminStatus action.ifIndex action.value

/-- What the ladder makes of a binding it lets through. -/
structure Accepts (s : SNMPServer) (b : SnmpVarBind) (action : SetAction) : Prop where
  passes : s.Passes b
  assigns : Assigns b (actionCall action)
  column : action.column = ifAdminStatusColumn
  inRange : 1 ≤ action.value ∧ action.value ≤ 3
  engine : ∃ engine, s.interfaceState = some engine

/-- **One binding.** The loop body returns, with the status of the first test the binding fails or
with the assignment it asks for. -/
theorem checkSetBinding_spec {b : SnmpVarBind} (named : IsOID b.name) :
    Yields (s.checkSetBinding b) fun result =>
      (∃ errStatus, result = .error errStatus ∧ s.FailsWith b errStatus) ∨
        ∃ action, result = .ok action ∧ s.Accepts b action := by
  obtain ⟨arcs, nonempty, bounded, name_eq⟩ := named
  rw [checkSetBinding]
  by_cases writable : ∃ suffix, arcs = ifAdminStatusArcs ++ suffix
  · obtain ⟨suffix, rfl⟩ := writable
    have suffixBounded : Arcs suffix := (Arcs.append_iff.mp bounded).2
    have under : ¬ ¬ ∃ arcs, b.name = dotted (ifAdminStatusArcs ++ arcs) := not_not.mpr ⟨suffix, name_eq⟩
    rw [name_eq, writableFor_of_extends]
    refine .ite (fun wrongType => .ok (.inl ⟨_, rfl, ?_⟩)) fun typed => ?_
    · exact ⟨[_], _, _, rfl, wrongType, List.forall_mem_singleton.mpr under⟩
    have contentAt : At b.content 0 (b.content ++ []) := by simpa using At.start b.content
    refine (Yields.of_eq (parseBERInt_content [] contentAt)).bind ?_
    rintro _ rfl
    cases encoded : integerValue b.content with
    | none =>
      refine .ok (.inl ⟨_, rfl, [_, _], _, _, rfl, encoded, ?_⟩)
      exact List.forall_mem_cons.mpr ⟨under, List.forall_mem_singleton.mpr typed⟩
    | some v =>
      have readable : ¬ integerValue b.content = none := by simp [encoded]
      refine .ite (fun outOfRange => .ok (.inl ⟨_, rfl, ?_⟩)) fun inRange => ?_
      · refine ⟨[_, _, _], _, _, rfl, fun w same => ?_, List.forall_mem_cons.mpr ⟨under,
          List.forall_mem_cons.mpr ⟨typed, List.forall_mem_singleton.mpr readable⟩⟩⟩
        obtain rfl := Option.some.inj (encoded.symm.trans same)
        simpa [ifAdminStatusRow, adminUp, adminTesting] using outOfRange
      have between : 1 ≤ v ∧ v ≤ 3 := by
        simpa [ifAdminStatusRow, adminUp, adminTesting] using inRange
      have allowed : ¬ ∀ w, integerValue b.content = some w → w < 1 ∨ 3 < w := by
        intro outside
        have := outside v encoded
        omega
      have earlier : ∀ test ∈ s.ladder.take 4, ¬ test.2 b :=
        List.forall_mem_cons.mpr ⟨under, List.forall_mem_cons.mpr ⟨typed,
          List.forall_mem_cons.mpr ⟨readable, List.forall_mem_singleton.mpr allowed⟩⟩⟩
      rcases instance_cases s suffixBounded with ⟨n, rfl, owned, found⟩ | ⟨unowned, missing⟩
      · rw [found]
        refine .ok (.inr ⟨_, rfl, ?_, ⟨n, v, name_eq, encoded, rfl⟩, rfl, between,
          interfaceState_of_owns owned⟩)
        have exists_ : ¬ ¬ ∃ n : Nat, b.name = dotted (ifAdminStatusArcs ++ [n]) ∧
            ∃ ic ∈ s.device.ifCycler, n ∈ ic.sortedIfIndexes := not_not.mpr ⟨n, name_eq, owned⟩
        exact List.forall_mem_append.mpr ⟨earlier, List.forall_mem_singleton.mpr exists_⟩
      · rw [missing]
        refine .ok (.inl ⟨_, rfl, s.ladder.take 4, _, [], rfl, ?_, earlier⟩)
        rintro ⟨n, same, owned⟩
        rw [name_eq, dotted_inj, List.append_right_inj] at same
        exact unowned ⟨n, same, owned⟩
  · have outside : ∀ suffix, arcs ≠ ifAdminStatusArcs ++ suffix := fun suffix same => writable ⟨suffix, same⟩
    rw [name_eq, writableFor_of_not_extends nonempty outside]
    refine .ok (.inl ⟨_, rfl, [], _, _, rfl, ?_, by simp⟩)
    rintro ⟨suffix, same⟩
    rw [name_eq, dotted_inj] at same
    exact outside suffix same

/-! ### The list -/

/-- **Validation.** The loop returns; it stops at the first binding that fails, or turns every
binding into its assignment. -/
theorem validateSetBindings_spec (named : ∀ b ∈ binds, IsOID b.name) (i : Nat) :
    Yields (s.validateSetBindings i binds) fun result =>
      (∃ front b rest errStatus, binds = front ++ b :: rest ∧ (∀ earlier ∈ front, s.Passes earlier) ∧
        s.FailsWith b errStatus ∧ result = .error ⟨errStatus, i + front.length + 1⟩) ∨
      ∃ actions, result = .ok actions ∧ List.Forall₂ s.Accepts binds actions := by
  induction binds generalizing i with
  | nil => exact .ok (.inr ⟨[], rfl, .nil⟩)
  | cons b binds ih =>
    obtain ⟨first, later⟩ := List.forall_mem_cons.mp named
    rw [validateSetBindings]
    refine (checkSetBinding_spec first).bind ?_
    rintro _ (⟨errStatus, rfl, fails⟩ | ⟨action, rfl, accepts⟩)
    · exact .ok (.inl ⟨[], b, binds, errStatus, rfl, by simp, fails, by simp⟩)
    refine (ih later (i + 1)).bind ?_
    rintro _ (⟨front, other, rest, errStatus, rfl, passed, fails, rfl⟩ | ⟨actions, rfl, rest⟩)
    · refine .ok (.inl ⟨b :: front, other, rest, errStatus, rfl,
        List.forall_mem_cons.mpr ⟨accepts.passes, passed⟩, fails, ?_⟩)
      simp only [Except.map, List.length_cons]
      congr 2
      push_cast
      ring
    · exact .ok (.inr ⟨action :: actions, rfl, .cons accepts rest⟩)

/-- **Application.** Assignments the ladder let through run on the engine one after the other. -/
theorem applySetActions_run (accepted : List.Forall₂ s.Accepts binds actions) (i : Nat)
    (engine : InterfaceState) :
    s.applySetActions i (some engine) actions =
      ⟨⟨snmpErrNoError, 0⟩, some (engine.run (s.timed i (actions.map actionCall))).1,
        (engine.run (s.timed i (actions.map actionCall))).2⟩ := by
  induction accepted generalizing i engine with
  | nil => rfl
  | cons first rest ih =>
    rename_i b action binds actions
    have narrow : action.value % 2 ^ 8 = action.value := by
      have := first.inRange
      omega
    rw [applySetActions, if_neg (not_not.mpr first.column), narrow]
    simp only [ih]
    rfl

theorem passes_of_accepted (accepted : List.Forall₂ s.Accepts binds actions) :
    ∀ b ∈ binds, s.Passes b := by
  induction accepted with
  | nil => simp
  | cons first _ ih => exact List.forall_mem_cons.mpr ⟨first.passes, ih⟩

theorem assigns_of_accepted (accepted : List.Forall₂ s.Accepts binds actions) :
    List.Forall₂ Assigns binds (actions.map actionCall) :=
  List.forall₂_map_right_iff.mpr (accepted.imp fun _ _ accepts => accepts.assigns)

/-- **A SET is decided as a whole.** -/
theorem decideSet_spec (named : ∀ b ∈ binds, IsOID b.name) :
    Yields (s.decideSet binds) fun decision => s.Refuses binds decision ∨ s.Applies binds decision := by
  rw [decideSet]
  refine (validateSetBindings_spec named 0).bind ?_
  rintro _ (⟨front, b, rest, errStatus, rfl, passed, fails, rfl⟩ | ⟨actions, rfl, accepted⟩)
  · refine .ok (.inl ⟨front, b, rest, errStatus, rfl, passed, fails, ?_⟩)
    simp
  refine .ok (.inr ⟨passes_of_accepted accepted, actions.map actionCall,
    assigns_of_accepted accepted, fun absent => ?_, fun engine present => ?_⟩)
  · cases accepted with
    | nil => exact ⟨rfl, by rw [absent]; rfl⟩
    | cons first rest =>
      obtain ⟨engine, present⟩ := first.engine
      exact absurd (absent.symm.trans present) nofun
  · rw [present, applySetActions_run accepted 0 engine]

theorem reported_errIndex (decided : s.Refuses binds decision ∨ s.Applies binds decision) :
    (if decision.verdict.errStatus = snmpErrNoError then 0 else decision.verdict.errIndex) =
      decision.verdict.errIndex := by
  refine ite_eq_right_iff.mpr fun success => Eq.symm ?_
  rcases decided with ⟨_, _, _, errStatus, -, -, ⟨passed, fails, later, same, -⟩, rfl⟩ |
    ⟨-, calls, -, without, withEngine⟩
  · have listed : (errStatus, fails) ∈ s.ladder := by simp [same]
    have failure : ∀ test ∈ s.ladder, test.1 ≠ snmpErrNoError := by
      simp only [ladder, List.forall_mem_cons, List.not_mem_nil, false_implies, implies_true, and_true]
      decide
    exact absurd success (failure _ listed)
  · cases present : s.interfaceState with
    | none => rw [(without present).2]
    | some engine => rw [withEngine engine present]

/-! ### The two versions -/

theorem handleSetRequest_at {h : Header} {p : PduFront} {list contents : Bytes}
    (bindings : IsVarBinds binds contents) (decides : s.decideSet binds = .ok decision)
    (decided : s.Refuses binds decision ∨ s.Applies binds decision)
    (version : integerValue h.version = some 1) (isSet : p.tag = asn1SetRequest)
    (exactLength : p.Exact list) (isList : IsTlv asn1Sequence contents list) :
    s.handleSetRequest (h.bytes ++ (p.bytes ++ list)) = .ok
      ⟨encodeSequence (encodeInteger 1 ++ encodeOctetString h.community ++ encodeResponsePDU
        ((integerValue p.requestID).getD SNMPRequest.initial.requestID) decision.verdict.errStatus
        decision.verdict.errIndex contents), decision.engine, decision.events⟩ := by
  have reached := requestVarBindListPos_at h list p
  have stops := exactLength.message_length (h := h)
  obtain ⟨oid, parsed⟩ := parseIncomingRequest_of_served h list p (by rw [isSet]; rfl)
  have listAt : At (h.bytes ++ (p.bytes ++ list)) (p.listPos h.pduPos) (list ++ []) := by
    rw [List.append_nil]
    exact p.at_list h list
  generalize h.bytes ++ (p.bytes ++ list) = data at *
  have bounds : ¬ ((data.length : Int) > data.length ∨ p.listPos h.pduPos > data.length) := by
    have := listAt.le_length
    omega
  have notV1 : (1 : Int) ≠ snmpVersion1 := by decide
  simp only [handleSetRequest, reached, stops, ok_bind, bounds, ↓reduceIte, listEndsAt_at listAt isList,
    Bool.not_true, Bool.false_eq_true, (At.start data).toEnd, parseVarBinds_at listAt isList bindings,
    decides, createSetResponse, parsed, version, Option.getD_some, notV1, reported_errIndex decided, pure_eq_ok,
    encodeGetResponseAt]

theorem handleSNMPv3Set_at {c : ScopedContext} {p : PduFront} {list contents : Bytes}
    {msg : SNMPv3Message} (bindings : IsVarBinds binds contents)
    (decides : s.decideSet binds = .ok decision)
    (decided : s.Refuses binds decision ∨ s.Applies binds decision) (isSet : p.tag = asn1SetRequest)
    (exactLength : p.Exact list) (isList : IsTlv asn1Sequence contents list)
    (carried : msg.scopedPDU = c.bytes ++ (p.bytes ++ list)) :
    ∃ response, s.v3.wrapScopedPDUInV3Message (s.v3.draws 0) (wrapInScopedPDU s.v3.usm.engineID []
        (encodeResponsePDU (int64 (Octets.value p.requestID)) decision.verdict.errStatus
          decision.verdict.errIndex contents)) msg = .ok response ∧
      s.handleSNMPv3Set msg = .ok ⟨response.getD [], decision.engine, decision.events⟩ := by
  have requestID : extractRequestIDFromScopedPDU msg.scopedPDU = .ok (int64 (Octets.value p.requestID)) := by
    rw [carried]
    exact extractRequestIDFromScopedPDU_at exactLength (by rw [isSet]; rfl)
  have parsed : parseSetVarBindsFromScopedPDU msg.scopedPDU = .ok (.parsed (binds, contents)) := by
    rw [carried]
    exact parseSetVarBindsFromScopedPDU_at exactLength isList bindings
  obtain ⟨response, wrapped, -⟩ := s.v3.wrapScopedPDUInV3Message_returns (s.v3.draws 0)
    (wrapInScopedPDU s.v3.usm.engineID [] (encodeResponsePDU (int64 (Octets.value p.requestID))
      decision.verdict.errStatus decision.verdict.errIndex contents)) msg
  refine ⟨response, wrapped, ?_⟩
  simp [handleSNMPv3Set, parsed, decides, reported_errIndex decided, SNMPv3Engine.respondEncoded,
    SNMPv3Engine.createScopedPDUEncoded, requestID, wrapped]

/-- **SET is all or nothing, at every version.** The bindings of a list are refused as a whole, with
the status and the number of the first one that fails the ladder and nothing written, or applied in
order. A v2c message and an SNMPv3 scoped PDU that carry the list reach the same verdict and echo
the same bytes, those of the request. -/
theorem set_all_or_nothing (s : SNMPServer) {binds : List SnmpVarBind} {contents : Bytes}
    (bindings : IsVarBinds binds contents) :
    ∃ decision, s.decideSet binds = .ok decision ∧
      (s.Refuses binds decision ∨ s.Applies binds decision) ∧
      (∀ (h : Header) (p : PduFront) (list : Bytes), integerValue h.version = some 1 →
        p.tag = asn1SetRequest → p.Exact list → IsTlv asn1Sequence contents list →
        ∃ requestID, s.handleSetRequest (h.bytes ++ (p.bytes ++ list)) = .ok
          ⟨encodeSequence (encodeInteger 1 ++ encodeOctetString h.community ++ encodeResponsePDU
            requestID decision.verdict.errStatus decision.verdict.errIndex contents),
            decision.engine, decision.events⟩) ∧
      ∀ (c : ScopedContext) (p : PduFront) (list : Bytes) (msg : SNMPv3Message),
        p.tag = asn1SetRequest → p.Exact list → IsTlv asn1Sequence contents list →
        msg.scopedPDU = c.bytes ++ (p.bytes ++ list) →
        ∃ requestID response, s.v3.wrapScopedPDUInV3Message (s.v3.draws 0)
            (wrapInScopedPDU s.v3.usm.engineID [] (encodeResponsePDU requestID
              decision.verdict.errStatus decision.verdict.errIndex contents)) msg = .ok response ∧
          s.handleSNMPv3Set msg = .ok ⟨response.getD [], decision.engine, decision.events⟩ := by
  obtain ⟨decision, decides, decided⟩ := decideSet_spec (s := s) bindings.isOID
  refine ⟨decision, decides, decided, fun h p list version isSet exactLength isList => ?_,
    fun c p list msg isSet exactLength isList carried => ?_⟩
  · exact ⟨_, handleSetRequest_at bindings decides decided version isSet exactLength isList⟩
  · exact ⟨_, handleSNMPv3Set_at bindings decides decided isSet exactLength isList carried⟩

/-- Shutting the one interface of a device. -/
theorem set_all_or_nothing_shutdown :
    let bind : SnmpVarBind := ⟨dotted (ifAdminStatusArcs ++ [1]), asn1Integer, [2]⟩
    IsVarBinds [bind] (encodeVarBind bind.name (encodeInteger 2)) ∧
      ∃ decision, oneInterface.decideSet [bind] = .ok decision ∧
        (oneInterface.Refuses [bind] decision ∨ oneInterface.Applies [bind] decision) ∧
        decision.verdict = ⟨snmpErrNoError, 0⟩ := by
  intro bind
  have binding : IsVarBind bind (encodeVarBind bind.name (encodeInteger 2)) := by
    have encoded := @isVarBind_encodeVarBind asn1Integer [2] bind.name (by decide +kernel)
      (by decide +kernel)
    have canonical : canonicalOID bind.name = bind.name :=
      (canonicalOID_dotted (by decide) (by decide)).1
    rwa [canonical] at encoded
  have bindings : IsVarBinds [bind] (encodeVarBind bind.name (encodeInteger 2)) := by
    simpa using IsVarBinds.cons binding .nil
  have verdict : (SetDecision.verdict <$> oneInterface.decideSet [bind]) = .ok ⟨snmpErrNoError, 0⟩ := by
    decide +kernel
  obtain ⟨decision, decides, decided, -⟩ := set_all_or_nothing oneInterface bindings
  rw [decides, map_ok] at verdict
  exact ⟨bindings, decision, decides, decided, Except.ok.inj verdict⟩

end SNMPServer

end Nl6
