import Nl6.Agent.RequestId

/-! # What an SNMPv1 manager receives

SNMPv1 has neither exceptions nor Counter64. A GET whose answer needs one of them is diverted to
`noSuchName`, at the first such binding, with the request's names echoed. A GETNEXT steps over
Counter64 successors first; the steps of all its bindings draw from one budget (`Skipped`,
`NextAnswers`). What is left is an answer v1 can represent (`SNMPServer.v1_response`).
-/

namespace Nl6

open Numeral Checked Ber

namespace SNMPServer

variable (s : SNMPServer)

/-! ### The skip -/

/-- Walking on from a successor over Counter64 objects, each step to a greater identifier or to the
end of the view: how many were stepped over and what was reached. -/
inductive Skipped : Binding → Nat → Binding → Prop where
  | stop (found : Binding) : Skipped found 0 found
  | step {oid value : Bytes} {next last : Binding} {count : Nat} (counter : isCounter64 oid = true)
      (found : s.device.findNextOIDWithServed s.point oid s.device.lldpServedOIDs = .ok next)
      (advances : next.1 = [] ∨ 0 < compareOIDs next.1 oid) (more : Skipped next count last) :
      Skipped (oid, value) (count + 1) last

/-- A Counter64 object is where a walk must stop: the budget is spent, or its successor does not
advance. -/
def Stuck (last : Binding) (remaining : Nat) : Prop :=
  remaining = 0 ∨ ∃ next, s.device.findNextOIDWithServed s.point last.1 s.device.lldpServedOIDs =
    .ok next ∧ next.1 ≠ [] ∧ compareOIDs next.1 last.1 ≤ 0

/-- The answer to one name of a SNMPv1 GETNEXT. Its successor is walked on from over Counter64
objects; the name itself is answered with the end of the view where the walk ends or is stuck. -/
def NextAnswer (requested : Bytes) (budget : Nat) (answer : Binding) (left : Nat) : Prop :=
  ∃ first last count, s.device.findNextOIDWithServed s.point requested s.device.lldpServedOIDs =
      .ok first ∧ s.Skipped first count last ∧ count ≤ budget ∧
    (isCounter64 last.1 = false ∧ left = budget - count ∧
        answer = (if last.1 = [] then endOfMibPad requested else last) ∨
      isCounter64 last.1 = true ∧ s.Stuck last (budget - count) ∧ left = budget - count - 1 ∧
        answer = endOfMibPad requested)

/-- The answers to the names of an SNMPv1 GETNEXT, from one budget. -/
inductive NextAnswers : List Bytes → Nat → List Binding → Prop where
  | nil (budget : Nat) : NextAnswers [] budget []
  | cons {requested : Bytes} {oids : List Bytes} {budget left : Nat} {answer : Binding}
      {answers : List Binding} (first : s.NextAnswer requested budget answer left)
      (later : NextAnswers oids left answers) :
      NextAnswers (requested :: oids) budget (answer :: answers)

theorem skipCounter64_spec {oid : Bytes} (named : oid = [] ∨ IsOID oid) (budget : Nat)
    (value : Bytes) :
    Yields (s.skipCounter64 budget oid value) fun (found, response, left) =>
      ∃ last count, s.Skipped (oid, value) count last ∧ count ≤ budget ∧
        (isCounter64 last.1 = false ∧ left = budget - count ∧ (found, response) = last ∨
          isCounter64 last.1 = true ∧ s.Stuck last (budget - count) ∧ left = budget - count - 1 ∧
            found = []) := by
  induction budget generalizing oid value with
  | zero =>
    refine .ok ⟨(oid, value), 0, .stop _, le_rfl, ?_⟩
    cases counter : isCounter64 oid with
    | false => exact .inl ⟨rfl, rfl, rfl⟩
    | true => exact .inr ⟨rfl, .inl rfl, rfl, rfl⟩
  | succ remaining ih =>
    rw [skipCounter64]
    refine .ite (fun counter => ?_) fun plain => ?_
    · have here := named.resolve_left ((isCounter64_iff oid).mp counter).1
      obtain ⟨next, found, isNext⟩ := Device.findNextOID_returns (d := s.device) (p := s.point) here
      refine (Yields.of_eq found).bind ?_
      rintro _ rfl
      refine .ite (fun stays => .ok ?_) fun advances => ?_
      · exact ⟨(oid, value), 0, .stop _, Nat.zero_le _, .inr ⟨counter, .inr ⟨next, found, stays⟩,
          rfl, rfl⟩⟩
      · refine (ih (isNext.imp And.left id) next.2).mono ?_
        rintro ⟨last, response, left⟩ ⟨reached, count, skipped, within, ends⟩
        refine ⟨reached, count + 1, .step counter found ?_ skipped, by omega, ?_⟩
        · by_cases ended : next.1 = []
          · exact .inl ended
          · exact .inr (not_le.mp fun stays => advances ⟨ended, stays⟩)
        · rwa [Nat.add_sub_add_right]
    · exact .ok ⟨(oid, value), 0, .stop _, Nat.zero_le _, .inl ⟨by simpa using plain, rfl, rfl⟩⟩

theorem getNextBinding_spec {requested : Bytes} (named : IsOID requested) (budget : Nat) :
    Yields (s.getNextBinding requested snmpVersion1 budget) fun (answer, left) =>
      s.NextAnswer requested budget answer left := by
  obtain ⟨⟨firstOID, value⟩, found, isFirst⟩ :=
    Device.findNextOID_returns (d := s.device) (p := s.point) named
  rw [getNextBinding]
  refine (Yields.of_eq found).bind ?_
  rintro _ rfl
  refine (s.skipCounter64_spec (isFirst.imp And.left id) budget value).bind ?_
  rintro ⟨oid, response, left⟩ ⟨last, count, skipped, within, plain | stuck⟩
  · obtain ⟨plain, rfl, rfl⟩ := plain
    exact .ok ⟨_, _, count, found, skipped, within, .inl ⟨plain, rfl, rfl⟩⟩
  · obtain ⟨counter, stuck, rfl, rfl⟩ := stuck
    exact .ok ⟨_, last, count, found, skipped, within, .inr ⟨counter, stuck, rfl, rfl⟩⟩

variable {listed oids : List Bytes} {budget : Nat} {answers : List Binding} {req : SNMPRequest}
  {rules : VarbindResponseRules} {requestData : Bytes}

theorem getNextBindingsForRequest_spec (named : ∀ oid ∈ oids, IsOID oid) (budget : Nat) :
    Yields (s.getNextBindingsForRequest snmpVersion1 oids budget) (s.NextAnswers oids budget) := by
  induction oids generalizing budget with
  | nil => exact .ok (.nil budget)
  | cons requested oids ih =>
    obtain ⟨first, later⟩ := List.forall_mem_cons.mp named
    refine (s.getNextBinding_spec first budget).bind ?_
    rintro ⟨answer, left⟩ answered
    exact (ih later left).bind fun _ more => .ok (.cons answered more)

variable {s}

theorem NextAnswers.length_eq (answered : s.NextAnswers oids budget answers) :
    answers.length = oids.length := by
  induction answered with
  | nil => rfl
  | cons _ _ ih => rw [List.length_cons, List.length_cons, ih]

theorem NextAnswer.exception_or_plain {requested : Bytes} {left : Nat} {answer : Binding}
    (answered : s.NextAnswer requested budget answer left) :
    isSNMPExceptionValue answer.2 = true ∨ snmpTypeTag answer.1 ≠ asn1Counter64 := by
  obtain ⟨first, last, count, -, -, -, plain | stuck⟩ := answered
  · obtain ⟨plain, -, rfl⟩ := plain
    split_ifs with ended
    · exact .inl (by simp [endOfMibPad, isSNMPExceptionValue])
    · refine .inr fun counter => ?_
      rw [(isCounter64_iff last.1).mpr ⟨ended, counter⟩] at plain
      cases plain
  · obtain ⟨-, -, -, rfl⟩ := stuck
    exact .inl (by simp [endOfMibPad, isSNMPExceptionValue])

theorem NextAnswers.exception_or_plain (answered : s.NextAnswers oids budget answers) :
    ∀ answer ∈ answers,
      isSNMPExceptionValue answer.2 = true ∨ snmpTypeTag answer.1 ≠ asn1Counter64 := by
  induction answered with
  | nil => simp
  | cons first later ih => exact List.forall_mem_cons.mpr ⟨first.exception_or_plain, ih⟩

variable (s)

/-! ### Responses -/

/-- An answer that an SNMPv1 response cannot carry. Only on GET the type of the object counts. -/
def Unrepresentable (tag : UInt8) (answer : Binding) : Prop :=
  isSNMPExceptionValue answer.2 = true ∨ tag = asn1GetRequest ∧ snmpTypeTag answer.1 = asn1Counter64

/-- The answers to the names of an SNMPv1 request. -/
def V1Answers (tag : UInt8) (names : List Bytes) (answers : List Binding) : Prop :=
  if tag = asn1GetNext then s.NextAnswers names s.newCounter64SkipBudget answers
  else answers = names.map fun name => (name, s.device.findResponseAt s.point name)

/-- What an SNMPv1 manager may receive for the given names: an error at the first answer it cannot
be given, with the names echoed; `tooBig` with an empty list; or the answers, none of which has a
tag v1 does not know. -/
def V1Responds (tag : UInt8) (req : SNMPRequest) (names : List Bytes) (response : Bytes) : Prop :=
  response = encodeGetResponseAt req [] snmpErrTooBig 0 ∨
    ∃ answers, s.V1Answers tag names answers ∧
      ((∃ before answer after, answers = before ++ answer :: after ∧ Unrepresentable tag answer ∧
          (∀ earlier ∈ before, ¬ Unrepresentable tag earlier) ∧
          response = encodeGetResponseAt req (encodeEcho names) snmpErrNoSuchName
            (before.length + 1)) ∨
        response = encodeGetResponseAt req (encodeBindings answers) snmpErrNoError 0 ∧
          ∀ answer ∈ answers, ∃ valueTag contents,
            encodeTypedValue answer.1 answer.2 = encodeTLV valueTag contents ∧
            valueTag ∉ [asn1Counter64, asn1NoSuchObject, asn1EndOfMibView])

/-- An answer that v1 can represent is encoded with a tag it knows. -/
theorem valueTag_of_representable {tag : UInt8} {answer : Binding}
    (representable : ¬ Unrepresentable tag answer)
    (plain : isSNMPExceptionValue answer.2 = true ∨ snmpTypeTag answer.1 ≠ asn1Counter64 ∨
      tag = asn1GetRequest) :
    ∃ valueTag contents, encodeTypedValue answer.1 answer.2 = encodeTLV valueTag contents ∧
      valueTag ∉ [asn1Counter64, asn1NoSuchObject, asn1EndOfMibView] := by
  obtain ⟨noException, noCounter⟩ := not_or.mp representable
  have regular : isSNMPExceptionValue answer.2 = false := by simpa using noException
  obtain ⟨valueTag, contents, encoded, exceptions, counter⟩ := encodeTypedValue_eq answer.1 answer.2
  obtain ⟨notMissing, notEnd⟩ := exceptions regular
  refine ⟨valueTag, contents, encoded, ?_⟩
  simp only [List.mem_cons, List.not_mem_nil, or_false, not_or]
  refine ⟨fun is => ?_, notMissing, notEnd⟩
  obtain exception | typed | isGet := plain
  · exact noException exception
  · exact typed (counter is)
  · exact noCounter ⟨isGet, counter is⟩

theorem divertV1_eq {names : List Bytes} {bindings : List Binding}
    (version : req.version = snmpVersion1) (diverts : rules.v1Diversion ≠ .nothing)
    (echoes : rules.echoNames.getD (bindings.map Prod.fst) = names)
    (sameLength : names.length = bindings.length) :
    divertV1 req rules bindings = (bindings.findIdx? (offends rules.v1Diversion)).map fun i : Nat =>
      encodeGetResponseAt req (encodeEcho names) snmpErrNoSuchName (i + 1) := by
  simp only [divertV1, version, diverts, ne_eq, not_false_eq_true, and_self, ↓reduceIte, echoes,
    sameLength, not_true_eq_false]
  cases bindings.findIdx? (offends rules.v1Diversion) <;> rfl

theorem frameBindings_v1 {tag : UInt8} {names : List Bytes} (maxSize : Int)
    (version : req.version = snmpVersion1) (answered : s.V1Answers tag names answers)
    (overflow : rules.overflow = .tooBig) (diverts : rules.v1Diversion ≠ .nothing)
    (offends_iff : ∀ answer, offends rules.v1Diversion answer = true ↔ Unrepresentable tag answer)
    (echoes : rules.echoNames.getD (answers.map Prod.fst) = names)
    (sameLength : names.length = answers.length)
    (plain : ∀ answer ∈ answers, isSNMPExceptionValue answer.2 = true ∨
      snmpTypeTag answer.1 ≠ asn1Counter64 ∨ tag = asn1GetRequest) :
    s.V1Responds tag req names (frameBindings maxSize req rules answers) := by
  rw [frameBindings, divertV1_eq version diverts echoes sameLength]
  cases first : answers.findIdx? (offends rules.v1Diversion) with
  | some i =>
    obtain ⟨inside, offending, earlier⟩ := List.findIdx?_eq_some_iff_getElem.mp first
    refine .inr ⟨answers, answered, .inl ⟨answers.take i, answers[i], answers.drop (i + 1), ?_,
      (offends_iff _).mp offending, fun answer member => ?_, ?_⟩⟩
    · rw [List.getElem_cons_drop, List.take_append_drop]
    · obtain ⟨j, bound, rfl⟩ := List.mem_take_iff_getElem.mp member
      exact fun bad => earlier j (by omega) ((offends_iff _).mpr bad)
    · rw [List.length_take, min_eq_left inside.le]
      rfl
  | none =>
    have representable := List.findIdx?_eq_none_iff.mp first
    have whole := @fillBindings_whole answers
      (snmpMessageSizeFor (msgPrefixLen req) (pduPrefixLen req)) maxSize rules.overflow []
    dsimp only [Option.map_none]
    generalize fillBindings (snmpMessageSizeFor (msgPrefixLen req) (pduPrefixLen req)) maxSize
      rules.overflow answers [] = filled at whole ⊢
    obtain ⟨varBindList, _ | _⟩ := filled
    · refine .inr ⟨answers, answered, .inr ⟨?_, fun answer member => ?_⟩⟩
      · rw [if_neg fun cut => Bool.false_ne_true cut.1, whole rfl]
        rfl
      · refine valueTag_of_representable (fun bad => ?_) (plain answer member)
        have offending := (offends_iff answer).mpr bad
        rw [representable answer member] at offending
        cases offending
    · exact .inl (if_pos ⟨rfl, overflow⟩)

theorem handleGet_v1 (parsed : parseIncomingRequest requestData = .ok req)
    (version : req.version = snmpVersion1)
    (names : parseAllOIDsFromRequest requestData = .ok (some listed)) :
    Yields (s.handleGet req requestData)
      (s.V1Responds asn1GetRequest req (orFallback listed req.oid)) := by
  generalize allNames : orFallback listed req.oid = oids
  have answered : s.V1Answers asn1GetRequest oids
      (oids.map fun name => (name, s.device.findResponseAt s.point name)) := by
    rw [V1Answers, if_neg (by decide)]
  have zipped : oids.zip (oids.map (s.device.findResponseAt s.point)) =
      oids.map fun name => (name, s.device.findResponseAt s.point name) :=
    List.map_prod_left_eq_zip.symm
  have same : oids.length = (oids.map (s.device.findResponseAt s.point)).length := by simp
  simp only [handleGet, names, ok_bind, allNames, createGetResponse, createVarbindResponse, parsed,
    ne_eq, same, not_true_eq_false, ↓reduceIte, zipped]
  refine .ok (s.frameBindings_v1 _ version answered rfl (by decide) (fun answer => ?_) ?_
    (by simp) fun _ _ => .inr (.inr rfl))
  · simp [offends, Unrepresentable, VarbindResponseRules.resolveDefaults, getRules]
  · simp [VarbindResponseRules.resolveDefaults, getRules, Function.comp_def]

theorem handleGetNext_v1 (parsed : parseIncomingRequest requestData = .ok req)
    (version : req.version = snmpVersion1) (named : IsOID req.oid)
    (names : parseAllOIDsFromRequest requestData = .ok (some listed))
    (listedNamed : ∀ name ∈ listed, IsOID name) :
    Yields (s.handleGetNext req requestData)
      (s.V1Responds asn1GetNext req (orFallback listed req.oid)) := by
  have allNamed := orFallback_isOID listedNamed named
  generalize allNames : orFallback listed req.oid = oids at *
  simp only [handleGetNext, names, ok_bind, allNames, version]
  refine .ite (fun _ => ?_) fun _ => ?_
  · rw [createTooBigResponse, parsed, ok_bind]
    exact .ok (.inl rfl)
  refine (s.getNextBindingsForRequest_spec allNamed _).bind fun answers answered => ?_
  have zipped : (answers.map Prod.fst).zip (answers.map Prod.snd) = answers :=
    (List.zip_of_prod rfl rfl).symm
  have same : (answers.map Prod.fst).length = (answers.map Prod.snd).length := by simp
  simp only [createGetNextResponse, createVarbindResponse, parsed, ok_bind, ne_eq, same,
    not_true_eq_false, ↓reduceIte, zipped]
  have isAnswers : s.V1Answers asn1GetNext oids answers := by rwa [V1Answers, if_pos rfl]
  refine .ok (s.frameBindings_v1 _ version isAnswers rfl V1DiversionRule.noConfusion
    (fun answer => ?_) rfl answered.length_eq.symm fun answer member => ?_)
  · have notGet : asn1GetNext ≠ asn1GetRequest := by decide
    simp [offends, Unrepresentable, VarbindResponseRules.resolveDefaults, getNextRules, notGet]
  · exact (answered.exception_or_plain answer member).imp_right .inl

/-- **What an SNMPv1 manager receives.** A version 1 GET or GETNEXT with a malformed list is
discarded. Any other is answered for the names of its list, or for the one name the request parser
carries when the list is empty or out of reach: with `noSuchName` at the first answer v1 cannot
represent and the names echoed, with an empty `tooBig`, or with answers v1 can represent. -/
theorem v1_response {requestData : Bytes} {req : SNMPRequest} {tag : UInt8}
    (parsed : parseIncomingRequest requestData = .ok req) (version : req.version = snmpVersion1)
    (typed : getPDUType requestData = .ok tag) (isRead : tag = asn1GetRequest ∨ tag = asn1GetNext) :
    ∃ listed outcome, parseAllOIDsFromRequest requestData = .ok listed ∧
      s.handleSNMPv2cRequest requestData = .ok outcome ∧
      (listed = none ∧ outcome.response = [] ∨ ∃ names, listed = some names ∧
        s.V1Responds tag req (orFallback names req.oid) outcome.response) ∧
      ∀ (h : Header) (p : PduFront) (list contents : Bytes) (binds : List SnmpVarBind),
        requestData = h.bytes ++ (p.bytes ++ list) → IsTlv asn1Sequence contents list →
        IsVarBinds binds contents → listed = some (binds.map SnmpVarBind.name) := by
  obtain ⟨listed, read, listedNamed⟩ := parseAllOIDsFromRequest_spec requestData
  obtain ⟨req', parsed', named, -⟩ := parseIncomingRequest_spec requestData
  obtain rfl := Except.ok.inj (parsed.symm.trans parsed')
  have handled : Yields (s.handleSNMPv2cRequest requestData) fun outcome =>
      listed = none ∧ outcome.response = [] ∨ ∃ names, listed = some names ∧
        s.V1Responds tag req (orFallback names req.oid) outcome.response := by
    rw [handleSNMPv2cRequest, parsed, ok_bind, typed, ok_bind]
    obtain rfl | rfl := isRead
    · rw [if_neg (by decide), if_neg (by decide), if_neg (by decide)]
      obtain _ | names := listed
      · simp [handleGet, read, reply]
      · exact (s.handleGet_v1 parsed version read).bind
          fun response responds => .ok (.inr ⟨names, rfl, responds⟩)
    · rw [if_pos rfl]
      obtain _ | names := listed
      · simp [handleGetNext, read, reply]
      · exact (s.handleGetNext_v1 parsed version named read (listedNamed names rfl)).bind
          fun response responds => .ok (.inr ⟨names, rfl, responds⟩)
  obtain ⟨outcome, handled, answered⟩ := handled
  refine ⟨listed, outcome, read, handled, answered, ?_⟩
  rintro h p list contents binds rfl isList bindings
  exact Except.ok.inj (read.symm.trans (parseAllOIDsFromRequest_at h p isList bindings))

/-- A version 1 request with the given names. -/
def askV1 (tag : UInt8) (names : List Bytes) : Bytes :=
  encodeSequence (encodeInteger 0 ++ encodeOctetString (ascii "public") ++ encodeTLV tag
    (encodeInteger 7 ++ encodeInteger 0 ++ encodeInteger 0 ++ askFor names))

/-- A GETNEXT from above everything the device serves. -/
theorem v1_response_at_end :
    let name := dotted [1, 3, 9]
    let req : SNMPRequest := ⟨ascii "public", 7, name, 0, true⟩
    parseIncomingRequest (askV1 asn1GetNext [name]) = .ok req ∧
      ∃ outcome, oneInterface.handleSNMPv2cRequest (askV1 asn1GetNext [name]) = .ok outcome ∧
        oneInterface.V1Responds asn1GetNext req [name] outcome.response := by
  intro name req
  have parsed : parseIncomingRequest (askV1 asn1GetNext [name]) = .ok req := by decide +kernel
  have typed : getPDUType (askV1 asn1GetNext [name]) = .ok asn1GetNext := by decide +kernel
  have listed : parseAllOIDsFromRequest (askV1 asn1GetNext [name]) = .ok (some [name]) := by
    decide +kernel
  obtain ⟨names, outcome, read, handled, answered, -⟩ :=
    v1_response oneInterface parsed rfl typed (.inr rfl)
  obtain rfl := Except.ok.inj (read.symm.trans listed)
  obtain ⟨discarded, -⟩ | ⟨_, same, responds⟩ := answered
  · exact absurd discarded nofun
  · cases Option.some.inj same
    exact ⟨parsed, outcome, handled, responds⟩

/-- A version 1 GET that names nothing is answered with an error that echoes `sysDescr.0`. -/
theorem v1_echo_of_empty_list :
    let req : SNMPRequest := { SNMPRequest.initial with
      community := ascii "public", requestID := 7, version := 0, communityParsed := true }
    let response := encodeGetResponseAt req (encodeEcho [ascii ".1.3.6.1.2.1.1.1.0"])
      snmpErrNoSuchName 1
    parseIncomingRequest (askV1 asn1GetRequest []) = .ok req ∧
      parseAllOIDsFromRequest (askV1 asn1GetRequest []) = .ok (some []) ∧
      Outcome.response <$> oneInterface.handleSNMPv2cRequest (askV1 asn1GetRequest []) =
        .ok response ∧
      parseAllOIDsFromRequest response = .ok (some [ascii ".1.3.6.1.2.1.1.1.0"]) := by
  decide +kernel

end SNMPServer

end Nl6
