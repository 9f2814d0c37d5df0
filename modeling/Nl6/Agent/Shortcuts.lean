import Nl6.Agent.V1
import Nl6.Wire.RoundTrip

/-! # Two shortcuts that rest on a size

`clampBulkWalk` bounds how far a GETBULK walks, and a GETNEXT with more names than
`maxGetNextBindings` is answered `tooBig` without a walk. Both are meant to be unobservable, because no
more bindings than a response's size by `minVarbindSize` can fit. But `minVarbindSize` is not the size
of the smallest binding: the end of the view under a name of two arcs takes seven octets. So the clamp
can be seen where the bindings are short (`getBulk_clamp_unseen_iff`), and so can the refusal, which
also misses the SNMPv1 error of a walk that has ended (`getNext_refusal_exact_iff`).
-/

namespace Nl6

open Numeral Checked Ber

/-! ### Responses that differ -/

theorem encodeTLV_injective (tag : UInt8) : Function.Injective (encodeTLV tag) := by
  intro first second same
  have sizes := congrArg List.length same
  rw [length_encodeTLV, length_encodeTLV] at sizes
  have lengths := tlvSize_strictMono.injective sizes
  have behind := (List.cons.inj same).2
  rw [lengths] at behind
  exact List.append_cancel_left behind

theorem encodeGetResponseAt_pdu {req : SNMPRequest} {list list' : Bytes}
    {status status' index index' : Int}
    (same : encodeGetResponseAt req list status index = encodeGetResponseAt req list' status' index') :
    encodeInteger status ++ (encodeInteger index ++ encodeSequence list) =
      encodeInteger status' ++ (encodeInteger index' ++ encodeSequence list') := by
  have message := encodeTLV_injective asn1Sequence same
  have pdu := encodeTLV_injective asn1GetResponse (List.append_cancel_left message)
  simpa [List.append_assoc] using pdu

theorem encodeGetResponse_injective (req : SNMPRequest) (status : Int) :
    Function.Injective fun list => encodeGetResponse req list status := by
  intro list list' same
  have fields := encodeGetResponseAt_pdu same
  exact encodeTLV_injective asn1Sequence
    (List.append_cancel_left (List.append_cancel_left fields))

theorem status_of_encodeGetResponseAt {req : SNMPRequest} {list list' : Bytes}
    {status status' index index' : Int} (short : (encodeInteger status).length = 3)
    (short' : (encodeInteger status').length = 3)
    (same : encodeGetResponseAt req list status index = encodeGetResponseAt req list' status' index') :
    encodeInteger status = encodeInteger status' :=
  (List.append_inj (encodeGetResponseAt_pdu same) (short.trans short'.symm)).1

/-! ### The longest prefix that fits -/

theorem listSize_strict (bindings : List Binding) {j k : Nat} (less : j < k)
    (inside : k ≤ bindings.length) : listSize bindings j < listSize bindings k := by
  have next : listSize bindings j < listSize bindings (j + 1) := by
    have split : bindings.take (j + 1) = bindings.take j ++ [bindings[j]] :=
      List.take_succ_eq_append_getElem (by omega)
    have positive := List.length_pos_iff.mpr (encodeBinding_ne_nil bindings[j])
    rw [listSize, listSize, split, encodeBindings, encodeBindings, List.flatMap_append,
      List.length_append, List.flatMap_singleton]
    omega
  exact next.trans_le (listSize_mono bindings less)

theorem LongestFit.congr {size size' : Nat → Nat} {maxSize : Int} {n k : Nat}
    (fit : LongestFit size maxSize n k) (same : ∀ j ≤ n, size j = size' j) :
    LongestFit size' maxSize n k := by
  obtain ⟨inside, first, fits, beyond⟩ := fit
  refine ⟨inside, first, ?_, fun j more le => ?_⟩
  · rwa [← same k inside]
  · rw [← same j le]
    exact beyond j more le

/-- Of a list and a longer one, the same prefix is the longest that fits exactly if the shorter list
is not empty and no binding more than it has fits. -/
theorem LongestFit.eq_iff {size : Nat → Nat} (mono : Monotone size) {maxSize : Int}
    {n m k l : Nat} (longer : n < m) (fit : LongestFit size maxSize n k)
    (fit' : LongestFit size maxSize m l) : k = l ↔ 0 < n ∧ maxSize < size (n + 1) := by
  obtain ⟨inside, first, fits, beyond⟩ := fit
  obtain ⟨inside', first', fits', beyond'⟩ := fit'
  constructor
  · rintro rfl
    exact ⟨by omega, beyond' (n + 1) (by omega) (by omega)⟩
  · rintro ⟨positive, tooBig⟩
    have within : l ≤ n := by
      by_contra above
      have larger := mono (show n + 1 ≤ l by omega)
      omega
    rcases lt_trichotomy k l with less | same | more
    · have larger := beyond l less within
      omega
    · exact same
    · have larger := beyond' k more (by omega)
      omega

/-! ### The clamp of GETBULK -/

namespace Device

variable (d : Device) (p : MetricPoint)

/-- What `handleGetBulk` would collect without `clampBulkWalk`. -/
def collectGetBulkUnclamped (allOIDs : List Bytes) (nonRepeaters maxRepetitions : Int) :
    Checked (List Binding) := do
  let cap := nonRepeaterCount nonRepeaters allOIDs.length
  let responses ← tabulate (fun i => do d.bulkNonRepeater p (← index allOIDs i)) cap.toNat 0
  let repeaterCols ← slice allOIDs cap allOIDs.length
  if repeaterCols = [] ∨ atLeastZero maxRepetitions = 0 then return responses
  let repeated ← d.bulkRepetitions p repeaterCols (atLeastZero maxRepetitions).toNat
    (.initial repeaterCols)
  return responses ++ repeated

/-- How many bindings `handleGetBulk` collects. -/
def clampedCount (maxSize : Int) (names : List Bytes) (nonRepeaters maxRepetitions : Int) : Nat :=
  let columns := repeaterCount names nonRepeaters
  (nonRepeaterCount nonRepeaters names.length).toNat +
    (clampBulkWalk maxSize (atLeastZero maxRepetitions) columns).toNat * columns

variable {d p}

theorem clampBulkWalk_le (maxSize wanted columns : Int) :
    clampBulkWalk maxSize wanted columns ≤ wanted := by
  rw [clampBulkWalk]
  split_ifs <;> omega

/-- Fewer repetitions collect the front of what more of them collect. -/
theorem bulkRepetitions_take {repeaterCols : List Bytes} {cursors : BulkCursors}
    (tracks : Tracks repeaterCols.length cursors) {few many : Nat} (le : few ≤ many) :
    ∃ walked, d.bulkRepetitions p repeaterCols many cursors = .ok walked ∧
      walked.length = many * repeaterCols.length ∧
      d.bulkRepetitions p repeaterCols few cursors = .ok (walked.take (few * repeaterCols.length)) := by
  induction many generalizing few cursors with
  | zero =>
    obtain rfl := Nat.le_zero.mp le
    exact ⟨[], rfl, by simp, by simp [bulkRepetitions]⟩
  | succ many ih =>
    have returned : Yields (d.bulkColumns p 0 repeaterCols cursors) fun out =>
        out.1.length = repeaterCols.length ∧ Tracks repeaterCols.length out.2 :=
      bulkColumns_returns tracks le_rfl (by omega)
    obtain ⟨⟨row, after⟩, filled, counted, tracked⟩ := returned
    cases few with
    | zero =>
      obtain ⟨walked, collected, length, -⟩ := ih tracked (Nat.zero_le many)
      refine ⟨row ++ walked, ?_, ?_, by simp [bulkRepetitions]⟩
      · simp [bulkRepetitions, filled, collected]
      · rw [List.length_append, counted, length]
        ring
    | succ few =>
      obtain ⟨walked, collected, length, front⟩ := ih tracked (Nat.le_of_succ_le_succ le)
      refine ⟨row ++ walked, ?_, ?_, ?_⟩
      · simp [bulkRepetitions, filled, collected]
      · rw [List.length_append, counted, length]
        ring
      · have width : (few + 1) * repeaterCols.length =
            row.length + few * repeaterCols.length := by
          rw [counted]
          ring
        simp [bulkRepetitions, filled, front, width, List.take_length_add_append]

/-- Whether the clamp cuts the walk of a request short. -/
def Clamped (maxSize : Int) (names : List Bytes) (nonRepeaters maxRepetitions : Int) : Prop :=
  0 < repeaterCount names nonRepeaters ∧
    (clampBulkWalk maxSize (atLeastZero maxRepetitions) (repeaterCount names nonRepeaters)).toNat <
      (atLeastZero maxRepetitions).toNat

/-- **The clamped walk.** It is the walk without the clamp, or a proper front of it. -/
theorem collectGetBulk_eq_take (d : Device) (p : MetricPoint) {names : List Bytes}
    (named : ∀ oid ∈ names, IsOID oid) (maxSize nonRepeaters maxRepetitions : Int) :
    ∃ walked, d.collectGetBulkUnclamped p names nonRepeaters maxRepetitions = .ok walked ∧
      (¬ Clamped maxSize names nonRepeaters maxRepetitions →
        d.collectGetBulk p maxSize names nonRepeaters maxRepetitions = .ok walked) ∧
      (Clamped maxSize names nonRepeaters maxRepetitions →
        clampedCount maxSize names nonRepeaters maxRepetitions < walked.length ∧
        d.collectGetBulk p maxSize names nonRepeaters maxRepetitions =
          .ok (walked.take (clampedCount maxSize names nonRepeaters maxRepetitions))) := by
  obtain ⟨responses, answered, counted⟩ :=
    nonRepeaters_returns (fun _ => bulkNonRepeater_returns (d := d) (p := p) named) nonRepeaters
  generalize columnsEq : names.drop (nonRepeaterCount nonRepeaters names.length).toNat = columns
  have width : repeaterCount names nonRepeaters = columns.length := by
    rw [repeaterCount, ← columnsEq, List.length_drop]
  have tracks : Tracks columns.length (.initial columns) := tracks_initial fun oid inside => by
    rw [← columnsEq] at inside
    exact named oid (List.mem_of_mem_drop inside)
  have counted' : (nonRepeaterCount nonRepeaters names.length).toNat = responses.length :=
    counted.symm
  simp only [collectGetBulkUnclamped, collectGetBulk, answered, ok_bind, slice_repeaters, columnsEq,
    pure_eq_ok, Clamped, clampedCount, width]
  simp only [counted']
  generalize atLeastZero maxRepetitions = wanted
  have atMost := clampBulkWalk_le maxSize wanted columns.length
  generalize clampBulkWalk maxSize wanted columns.length = clamped at atMost ⊢
  by_cases still : columns = [] ∨ wanted = 0
  · simp only [if_pos still]
    refine ⟨responses, rfl, fun _ => rfl, ?_⟩
    rintro ⟨positive, cut⟩
    rcases still with rfl | rfl
    · exact absurd positive (Nat.lt_irrefl 0)
    · exact absurd cut (Nat.not_lt_zero _)
  simp only [if_neg still]
  have positive : 0 < columns.length := List.length_pos_iff.mpr fun empty => still (.inl empty)
  by_cases cut : clamped.toNat < wanted.toNat
  · obtain ⟨walked, collected, length, front⟩ :=
      bulkRepetitions_take (d := d) (p := p) tracks cut.le
    refine ⟨responses ++ walked, by rw [collected, ok_bind],
      fun whole => absurd ⟨positive, cut⟩ whole, fun _ => ⟨?_, ?_⟩⟩
    · rw [List.length_append, length]
      exact Nat.add_lt_add_left (Nat.mul_lt_mul_of_pos_right cut positive) _
    · rw [front, ok_bind, List.take_length_add_append]
  · obtain ⟨walked, collected, -, -⟩ := bulkRepetitions_take (d := d) (p := p) tracks le_rfl
    have same : clamped.toNat = wanted.toNat := by omega
    exact ⟨responses ++ walked, by rw [collected, ok_bind],
      fun _ => by rw [same, collected, ok_bind], fun both => absurd both.2 cut⟩

end Device

namespace SNMPServer

variable (s : SNMPServer)

/-- `handleGetBulk` without `clampBulkWalk`. -/
def handleGetBulkUnclamped (startOID requestData : Bytes) : Checked Bytes := do
  let (nonRepeaters, maxRepetitions) ← parseGetBulkParams requestData
  let some allOIDs ← parseAllOIDsFromRequest requestData | return []
  let bindings ← s.device.collectGetBulkUnclamped s.point (orFallback allOIDs startOID)
    nonRepeaters maxRepetitions
  createGetBulkResponse s.maxSNMPResponseSize (bindings.map Prod.fst) (bindings.map Prod.snd)
    requestData

/-- Nothing that the clamp leaves out of the walk of a request would fit: the clamped walk has a
binding, and with the one that follows it there it is too long for the response. -/
def FullAtClamp (req : SNMPRequest) (names : List Bytes) (nonRepeaters maxRepetitions : Int) : Prop :=
  let count := Device.clampedCount s.maxSNMPResponseSize names nonRepeaters maxRepetitions
  0 < count ∧ ∃ walked,
    s.device.collectGetBulkUnclamped s.point names nonRepeaters maxRepetitions = .ok walked ∧
    s.maxSNMPResponseSize < snmpMessageSizeFor (msgPrefixLen req) (pduPrefixLen req)
      (encodeBindings (walked.take (count + 1))).length

theorem getBulk_front_iff {requestData : Bytes} {req : SNMPRequest}
    (parsed : parseIncomingRequest requestData = .ok req) (maxSize : Int) {walked : List Binding}
    {count : Nat} (short : count < walked.length) :
    createGetBulkResponse maxSize ((walked.take count).map Prod.fst) ((walked.take count).map Prod.snd)
        requestData =
      createGetBulkResponse maxSize (walked.map Prod.fst) (walked.map Prod.snd) requestData ↔
    0 < count ∧ maxSize < cutMessageSize req (listSize walked (count + 1)) := by
  obtain ⟨k, front, fit⟩ := createVarbindResponse_getBulk maxSize parsed (walked.take count)
  obtain ⟨l, whole, fit'⟩ := createVarbindResponse_getBulk maxSize parsed walked
  have counted : (walked.take count).length = count := by
    rw [List.length_take]
    omega
  rw [counted] at fit
  have sizes : ∀ j ≤ count, (cutMessageSize req ∘ listSize (walked.take count)) j =
      (cutMessageSize req ∘ listSize walked) j := by
    intro j le
    rw [Function.comp_apply, Function.comp_apply, listSize, listSize, List.take_take,
      Nat.min_eq_left le]
  have fit := fit.congr sizes
  have mono : Monotone (cutMessageSize req ∘ listSize walked) := by
    have grows := snmpMessageSizeFor_mono (msgPrefixLen req) (pduPrefixLen req)
    rw [funext (snmpMessageSizeFor_eq req)] at grows
    exact grows.comp (listSize_mono walked)
  have shorter : (walked.take count).take k = walked.take k := by
    rw [List.take_take, Nat.min_eq_left fit.1]
  refine Iff.trans ?_ (fit.eq_iff mono short fit')
  rw [createGetBulkResponse, createGetBulkResponse, front, whole, shorter]
  constructor
  · intro same
    have lists := congrArg List.length (encodeGetResponse_injective req _ (Except.ok.inj same))
    have kInside := fit.1
    have lInside := fit'.1
    rcases lt_trichotomy k l with less | equal | more
    · exact absurd lists (listSize_strict walked less lInside).ne
    · exact equal
    · exact absurd lists (listSize_strict walked more (by omega)).ne'
  · rintro rfl
    rfl

/-- **The clamp of GETBULK.** For every request, the message with the clamp is the message without it
exactly if the clamp cuts nothing off, or what it keeps is already more than fits. -/
theorem getBulk_clamp_unseen_iff (requestData : Bytes) :
    ∃ req params listed, parseIncomingRequest requestData = .ok req ∧
      parseGetBulkParams requestData = .ok params ∧
      parseAllOIDsFromRequest requestData = .ok listed ∧
      (s.handleGetBulk req.oid requestData = s.handleGetBulkUnclamped req.oid requestData ↔
        ∀ names, listed = some names →
          Device.Clamped s.maxSNMPResponseSize (orFallback names req.oid) params.1 params.2 →
          s.FullAtClamp req (orFallback names req.oid) params.1 params.2) := by
  obtain ⟨req, parsed, named, -⟩ := parseIncomingRequest_spec requestData
  obtain ⟨params, params_eq, -⟩ := parseGetBulkParams_spec requestData
  obtain ⟨listed, listed_eq, isOID⟩ := parseAllOIDsFromRequest_spec requestData
  refine ⟨req, params, listed, parsed, params_eq, listed_eq, ?_⟩
  cases listed with
  | none => simp [handleGetBulk, handleGetBulkUnclamped, params_eq, listed_eq]
  | some names =>
    obtain ⟨walked, unclamped, whole, front⟩ := Device.collectGetBulk_eq_take s.device s.point
      (orFallback_isOID (isOID names rfl) named) s.maxSNMPResponseSize params.1 params.2
    simp only [handleGetBulk, handleGetBulkUnclamped, params_eq, listed_eq, ok_bind, unclamped,
      Option.some.injEq, forall_eq']
    by_cases clamped :
        Device.Clamped s.maxSNMPResponseSize (orFallback names req.oid) params.1 params.2
    · obtain ⟨short, collected⟩ := front clamped
      simp only [collected, ok_bind, clamped, forall_const, FullAtClamp, unclamped,
        Except.ok.injEq, exists_eq_left', snmpMessageSizeFor_eq]
      exact getBulk_front_iff parsed s.maxSNMPResponseSize short
    · simp [whole clamped, clamped]

/-- A GETBULK request for a name. -/
def askBulk (name : Bytes) (maxRepetitions : Int) : Bytes :=
  encodeSequence (encodeInteger 1 ++ encodeOctetString (ascii "public") ++ encodeTLV asn1GetBulk
    (encodeInteger 7 ++ encodeInteger 0 ++ encodeInteger maxRepetitions ++ askFor [name]))

/-- At the smallest link MTU the agent can be configured for, a walk that has ended under a short name
is padded to 37 bindings although the 38 that were asked for fit. -/
theorem getBulk_clamp_seen :
    let s := { oneInterface with maxSNMPResponseSize := 548 }
    List.length <$> s.handleGetBulk (ascii ".2.5") (askBulk (ascii ".2.5") 38) = .ok 291 ∧
      List.length <$> s.handleGetBulkUnclamped (ascii ".2.5") (askBulk (ascii ".2.5") 38) =
        .ok 298 := by
  decide +kernel

end SNMPServer

/-! ### The refusal of GETNEXT -/

/-- The sizing loop drops a binding exactly if the whole list is too long. -/
theorem fillBindings_cut_iff {sizeFor : Nat → Nat} (mono : Monotone sizeFor) (maxSize : Int)
    (overflow : OverflowRule) {bindings : List Binding} (nonempty : bindings ≠ []) (done : Bytes) :
    (fillBindings sizeFor maxSize overflow bindings done).2 = true ↔
      maxSize < sizeFor (done.length + (encodeBindings bindings).length) := by
  induction bindings generalizing done with
  | nil => exact absurd rfl nonempty
  | cons binding rest ih =>
    have total : (encodeBindings (binding :: rest)).length =
        (encodeBinding binding).length + (encodeBindings rest).length := by
      rw [encodeBindings, List.flatMap_cons, List.length_append, ← encodeBindings]
    rw [fillBindings, total, ← Nat.add_assoc]
    by_cases tooBig : (sizeFor (done.length + (encodeBinding binding).length) : Int) > maxSize
    · have larger := mono (Nat.le_add_right (done.length + (encodeBinding binding).length)
        (encodeBindings rest).length)
      rw [if_pos tooBig]
      simp only [true_iff]
      omega
    · rw [if_neg tooBig]
      cases rest with
      | nil => simpa [fillBindings, encodeBindings] using tooBig
      | cons second rest => rw [ih (by simp), List.length_append]

namespace SNMPServer

variable (s : SNMPServer) {bindings : List Binding}

/-- The GETNEXT branch without the refusal of long lists. -/
def handleGetNextUnrefused (req : SNMPRequest) (requestData : Bytes) : Checked Bytes := do
  let some oids ← parseAllOIDsFromRequest requestData | return []
  let oids := orFallback oids req.oid
  let bindings ← s.getNextBindingsForRequest req.version oids s.newCounter64SkipBudget
  createGetNextResponse s.maxSNMPResponseSize oids (bindings.map Prod.fst) (bindings.map Prod.snd)
    requestData

/-- The successors of the names are too long for the response, and an SNMPv1 response could carry
them. -/
def TooBig (req : SNMPRequest) (names : List Bytes) : Prop :=
  ∃ bindings,
    s.getNextBindingsForRequest req.version names s.newCounter64SkipBudget = .ok bindings ∧
    (req.version = snmpVersion1 →
      ∀ binding ∈ bindings, isSNMPExceptionValue binding.2 = false) ∧
    s.maxSNMPResponseSize < snmpMessageSizeFor (msgPrefixLen req) (pduPrefixLen req)
      (encodeBindings bindings).length

theorem length_getNextBindingsForRequest {version : Int} {names : List Bytes} {budget : Nat}
    (walked : s.getNextBindingsForRequest version names budget = .ok bindings) :
    bindings.length = names.length := by
  induction names generalizing budget bindings with
  | nil =>
    obtain rfl := Except.ok.inj walked
    rfl
  | cons requested names ih =>
    rw [getNextBindingsForRequest] at walked
    cases first : s.getNextBinding requested version budget with
    | error fault =>
      rw [first] at walked
      exact absurd walked nofun
    | ok answered =>
      obtain ⟨binding, left⟩ := answered
      rw [first, ok_bind] at walked
      dsimp only at walked
      cases more : s.getNextBindingsForRequest version names left with
      | error fault =>
        rw [more] at walked
        exact absurd walked nofun
      | ok rest =>
        rw [more, ok_bind] at walked
        obtain rfl := Except.ok.inj walked
        rw [List.length_cons, List.length_cons, ih more]

/-- What the builder answers for successors: `tooBig` exactly if they are too long and an SNMPv1
response could carry them. -/
theorem createGetNextResponse_tooBig_iff {requestData : Bytes} {req : SNMPRequest}
    (parsed : parseIncomingRequest requestData = .ok req) (maxSize : Int) {names : List Bytes}
    (answered : bindings.length = names.length) (some : bindings ≠ []) :
    createTooBigResponse requestData = createGetNextResponse maxSize names (bindings.map Prod.fst)
        (bindings.map Prod.snd) requestData ↔
      (req.version = snmpVersion1 → ∀ binding ∈ bindings, isSNMPExceptionValue binding.2 = false) ∧
        maxSize < snmpMessageSizeFor (msgPrefixLen req) (pduPrefixLen req)
          (encodeBindings bindings).length := by
  have zipped : (bindings.map Prod.fst).zip (bindings.map Prod.snd) = bindings :=
    (List.zip_of_prod rfl rfl).symm
  have same : (bindings.map Prod.fst).length = (bindings.map Prod.snd).length := by simp
  have offends_eq (binding : Binding) :
      offends .sentinel binding = isSNMPExceptionValue binding.2 := by
    simp [offends]
  have noError : encodeInteger snmpErrTooBig ≠ encodeInteger snmpErrNoError := by decide
  have noSuchName : encodeInteger snmpErrTooBig ≠ encodeInteger snmpErrNoSuchName := by decide
  have refused (filled : Bytes × Bool) : encodeGetResponse req [] snmpErrTooBig =
      (if filled.2 = true ∧ (getNextRules names).overflow = .tooBig then
        encodeGetResponse req [] snmpErrTooBig
      else encodeGetResponse req filled.1 snmpErrNoError) ↔ filled.2 = true := by
    obtain ⟨varBindList, _ | _⟩ := filled
    · rw [if_neg fun cut => Bool.false_ne_true cut.1]
      refine iff_of_false (fun same => noError ?_) Bool.false_ne_true
      exact status_of_encodeGetResponseAt (by decide) (by decide) same
    · rw [if_pos ⟨rfl, rfl⟩]
      exact iff_of_true rfl rfl
  have cut := fillBindings_cut_iff
    (snmpMessageSizeFor_mono (msgPrefixLen req) (pduPrefixLen req)) maxSize .tooBig some []
  rw [List.length_nil, Nat.zero_add] at cut
  rw [createTooBigResponse, createGetNextResponse, createVarbindResponse, parsed, ok_bind, ok_bind,
    if_neg (not_not.mpr same), zipped, pure_eq_ok, pure_eq_ok, Except.ok.injEq]
  change _ = frameBindings maxSize req (getNextRules names) bindings ↔ _
  rw [frameBindings]
  by_cases version : req.version = snmpVersion1
  · have diverts : (getNextRules names).v1Diversion ≠ .nothing := V1DiversionRule.noConfusion
    have echoes : (getNextRules names).echoNames.getD (bindings.map Prod.fst) = names := rfl
    rw [divertV1_eq version diverts echoes answered.symm]
    cases first : bindings.findIdx? (offends (getNextRules names).v1Diversion) with
    | some i =>
      obtain ⟨inside, offending, -⟩ := List.findIdx?_eq_some_iff_getElem.mp first
      refine iff_of_false (fun same => noSuchName ?_) fun both => ?_
      · exact status_of_encodeGetResponseAt (by decide) (by decide) same
      · have plain := both.1 version bindings[i] (List.getElem_mem inside)
        rw [← offends_eq] at plain
        exact Bool.false_ne_true (plain.symm.trans offending)
    | none =>
      have representable := List.findIdx?_eq_none_iff.mp first
      refine ((refused _).trans cut).trans (and_iff_right fun _ binding member => ?_).symm
      rw [← offends_eq]
      exact representable binding member
  · rw [divertV1, if_neg fun both => version both.1]
    exact ((refused _).trans cut).trans (and_iff_right fun isV1 => absurd isV1 version).symm

/-- **The refusal of GETNEXT.** For every request, refusing a long list without a walk gives the
message the walk would have given exactly if the list is short, or the successors of its names are too
long and an SNMPv1 response could carry them. -/
theorem getNext_refusal_exact_iff (requestData : Bytes) :
    ∃ req listed, parseIncomingRequest requestData = .ok req ∧
      parseAllOIDsFromRequest requestData = .ok listed ∧
      (s.handleGetNext req requestData = s.handleGetNextUnrefused req requestData ↔
        ∀ names, listed = some names →
          (orFallback names req.oid).length > s.maxGetNextBindings →
          s.TooBig req (orFallback names req.oid)) := by
  obtain ⟨req, parsed, named, -⟩ := parseIncomingRequest_spec requestData
  obtain ⟨listed, listed_eq, isOID⟩ := parseAllOIDsFromRequest_spec requestData
  refine ⟨req, listed, parsed, listed_eq, ?_⟩
  cases listed with
  | none => simp [handleGetNext, handleGetNextUnrefused, listed_eq]
  | some names =>
    obtain ⟨bindings, walked, -⟩ := s.getNextBindingsForRequest_returns req.version
      (orFallback_isOID (isOID names rfl) named) s.newCounter64SkipBudget
    have answered := s.length_getNextBindingsForRequest walked
    have nonempty : bindings ≠ [] := by
      intro empty
      rw [empty, List.length_nil, orFallback] at answered
      split_ifs at answered with none
      exact none answered.symm
    simp only [handleGetNext, handleGetNextUnrefused, listed_eq, ok_bind, walked,
      Option.some.injEq, forall_eq', TooBig, Except.ok.injEq, exists_eq_left']
    by_cases many : ((orFallback names req.oid).length : Int) > s.maxGetNextBindings
    · simp only [many, if_true, forall_const]
      exact createGetNextResponse_tooBig_iff parsed s.maxSNMPResponseSize answered nonempty
    · simp [many]

/-- A version 2c request with the given names. -/
def askV2c (tag : UInt8) (names : List Bytes) : Bytes :=
  encodeSequence (encodeInteger 1 ++ encodeOctetString (ascii "public") ++ encodeTLV tag
    (encodeInteger 7 ++ encodeInteger 0 ++ encodeInteger 0 ++ askFor names))

/-- At the smallest link MTU the agent can be configured for, 37 names behind the end of the view are
refused. The ends of the view under them would fit, and for SNMPv1 the first of them is an error of its
own. -/
theorem getNext_refusal_seen :
    let s := { oneInterface with maxSNMPResponseSize := 548 }
    let names := List.replicate 37 (ascii ".2.5")
    let req : SNMPRequest := ⟨ascii "public", 7, ascii ".2.5", 1, true⟩
    let reqV1 := { req with version := 0 }
    s.handleGetNext req (askV2c asn1GetNext names) =
        .ok (encodeGetResponse req [] snmpErrTooBig) ∧
      s.handleGetNextUnrefused req (askV2c asn1GetNext names) = .ok (encodeGetResponse req
        (encodeBindings (names.map endOfMibPad)) snmpErrNoError) ∧
      s.handleGetNext reqV1 (askV1 asn1GetNext names) =
        .ok (encodeGetResponse reqV1 [] snmpErrTooBig) ∧
      s.handleGetNextUnrefused reqV1 (askV1 asn1GetNext names) =
        .ok (encodeGetResponseAt reqV1 (encodeEcho names) snmpErrNoSuchName 1) := by
  decide +kernel

end SNMPServer

end Nl6
