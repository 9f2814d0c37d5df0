import Nl6.Agent.Set

/-! # Serving a datagram

Every handler returns on every datagram, so no length a datagram carries can take the agent down
(`serve_path_safe`). The interface-state engine is written by a SET only, and a SET is decided behind
two gates: the write community of a v1/v2c message, and the security level of an SNMPv3 message that
has passed the checks of the security model (`no_write_without_admission`).
-/

namespace Nl6

open Numeral Checked Ber

namespace SNMPServer

variable (s : SNMPServer) {oid : Bytes}

/-! ### Reads return -/

theorem isCounter64_iff (oid : Bytes) :
    isCounter64 oid = true ↔ oid ≠ [] ∧ snmpTypeTag oid = asn1Counter64 := by
  simp [isCounter64]

theorem skipCounter64_returns (named : oid = [] ∨ IsOID oid) (budget : Nat) (response : Bytes) :
    Yields (s.skipCounter64 budget oid response) fun _ => True := by
  induction budget generalizing oid response with
  | zero => exact .ok trivial
  | succ remaining ih =>
    rw [skipCounter64]
    refine .ite (fun skips => ?_) fun _ => .ok trivial
    have here := named.resolve_left ((isCounter64_iff oid).mp skips).1
    refine (Device.findNextOID_returns here).bind ?_
    rintro ⟨nextOID, next⟩ found
    refine .guard trivial fun _ => ?_
    exact ih (found.imp And.left id) next

theorem getNextBinding_returns {requested : Bytes} (named : IsOID requested) (version : Int)
    (budget : Nat) : Yields (s.getNextBinding requested version budget) fun _ => True := by
  rw [getNextBinding]
  refine (Device.findNextOID_returns named).bind ?_
  rintro ⟨responseOID, response⟩ found
  have skipped : Yields (s.skipForVersion version budget responseOID response) fun _ => True :=
    Yields.ite (fun _ => s.skipCounter64_returns (found.imp And.left id) budget response)
      fun _ => .ok trivial
  refine skipped.bind ?_
  rintro ⟨responseOID, response, budget⟩ -
  exact .ok trivial

theorem getNextBindingsForRequest_returns (version : Int) {oids : List Bytes}
    (named : ∀ oid ∈ oids, IsOID oid) (budget : Nat) :
    Yields (s.getNextBindingsForRequest version oids budget) fun _ => True := by
  induction oids generalizing budget with
  | nil => exact .ok trivial
  | cons requested oids ih =>
    obtain ⟨first, later⟩ := List.forall_mem_cons.mp named
    refine (s.getNextBinding_returns first version budget).bind ?_
    rintro ⟨binding, budget⟩ -
    exact (ih later budget).bind fun _ _ => .ok trivial

theorem orFallback_isOID {oids : List Bytes} (named : ∀ name ∈ oids, IsOID name)
    (fallback : IsOID oid) : ∀ name ∈ orFallback oids oid, IsOID name := by
  rw [orFallback]
  split_ifs
  · exact List.forall_mem_singleton.mpr fallback
  · exact named

theorem handleGetNext_spec {req : SNMPRequest} (named : IsOID req.oid) (requestData : Bytes) :
    Yields (s.handleGetNext req requestData) fun response =>
      response = [] ∨ Answers requestData response := by
  rw [handleGetNext]
  refine (parseAllOIDsFromRequest_spec requestData).andThen (Yields.ok (.inl rfl)) ?_
  rintro oids listed
  refine .ite (fun _ => ?_) fun _ => ?_
  · exact (createTooBigResponse_spec requestData).mono fun _ => .inr
  refine (s.getNextBindingsForRequest_returns req.version
    (orFallback_isOID (listed oids rfl) named) _).bind fun bindings _ => ?_
  exact (createVarbindResponse_spec _ _ _ _ _).mono fun _ => .inr

theorem handleGetBulk_spec {startOID : Bytes} (named : IsOID startOID) (requestData : Bytes) :
    Yields (s.handleGetBulk startOID requestData) fun response =>
      response = [] ∨ Answers requestData response := by
  rw [handleGetBulk]
  refine (parseGetBulkParams_spec requestData).bind ?_
  rintro ⟨nonRepeaters, maxRepetitions⟩ -
  refine (parseAllOIDsFromRequest_spec requestData).andThen (Yields.ok (.inl rfl)) ?_
  rintro oids listed
  refine (Device.collectGetBulk_returns (orFallback_isOID (listed oids rfl) named) _ _ _).bind
    fun bindings _ => ?_
  exact (createVarbindResponse_spec _ _ _ _ _).mono fun _ => .inr

theorem handleGet_spec (req : SNMPRequest) (requestData : Bytes) :
    Yields (s.handleGet req requestData) fun response =>
      response = [] ∨ Answers requestData response := by
  rw [handleGet]
  refine (parseAllOIDsFromRequest_spec requestData).andThen (Yields.ok (.inl rfl)) ?_
  rintro oids -
  exact (createVarbindResponse_spec _ _ _ _ _).mono fun _ => .inr

theorem handleSNMPv3GetBulk_spec {startOID : Bytes} (named : IsOID startOID) (msg : SNMPv3Message) :
    Yields (s.handleSNMPv3GetBulk startOID msg) fun response =>
      response = [] ∨ s.v3.Answers msg response := by
  rw [handleSNMPv3GetBulk]
  refine (parseSNMPv3GetBulkParams_spec msg.scopedPDU).bind ?_
  rintro ⟨nonRepeaters, maxRepetitions⟩ -
  refine (parseAllOIDsFromScopedPDU_spec msg.scopedPDU).andThen (Yields.ok (.inl rfl)) ?_
  rintro oids listed
  refine (Device.collectSNMPv3GetBulk_returns (orFallback_isOID (listed oids rfl) named) _ _ _).bind ?_
  rintro ⟨bindings, repeated⟩ -
  refine .ite (fun _ => s.v3.createSNMPv3EmptyGetBulkResponse_spec msg) fun _ => ?_
  have nonempty : (0 : Int) < (orFallback oids startOID).length := by
    rw [orFallback]
    split_ifs with empty
    · simp
    · omega
  exact (Yields.index le_rfl nonempty).bind fun first _ =>
    s.v3.createSNMPv3GetBulkResponse_spec _ first bindings msg

/-! ### SET returns -/

theorem decideSet_returns {binds : List SnmpVarBind} (named : ∀ b ∈ binds, IsOID b.name) :
    Yields (s.decideSet binds) fun _ => True :=
  (decideSet_spec named).mono fun _ _ => trivial

theorem createSetResponse_spec (requestData echoed : Bytes) (verdict : SetVerdict) :
    Yields (createSetResponse requestData echoed verdict) (Answers requestData) := by
  obtain ⟨req, parsed, -⟩ := parseIncomingRequest_spec requestData
  refine (Yields.of_eq parsed).bind ?_
  rintro _ rfl
  exact .ok ⟨req, _, _, _, parsed, rfl⟩

theorem handleSetRequest_spec (requestData : Bytes) :
    Yields (s.handleSetRequest requestData) fun outcome =>
      outcome.response = [] ∨ Answers requestData outcome.response := by
  rw [handleSetRequest]
  refine (requestVarBindListPos_spec requestData).andThen (Yields.ok (.inl rfl)) ?_
  rintro ⟨pos, pduEnd⟩ reached
  obtain ⟨nonneg, -⟩ := reached pos pduEnd rfl
  refine .ite (fun _ => .ok (.inl rfl)) fun bounds => ?_
  refine (listEndsAt_spec requestData nonneg (show pduEnd ≤ requestData.length by omega)).bind
    fun ends _ => ?_
  refine .ite (fun _ => .ok (.inl rfl)) fun _ => ?_
  refine (Yields.slice le_rfl (by omega) (by omega)).bind fun bounded _ => ?_
  refine (parseVarBinds_spec bounded nonneg).bind ?_
  rintro (_ | _ | ⟨binds, echoed⟩) parsed
  · exact .ok (.inl rfl)
  · exact .ok (.inl rfl)
  obtain ⟨-, -, -, -, bindings⟩ := parsed binds echoed rfl
  refine (s.decideSet_returns bindings.isOID).bind fun decision _ => ?_
  exact (createSetResponse_spec requestData echoed decision.verdict).bind
    fun _ answers => .ok (.inr answers)

theorem handleSNMPv3Set_spec (msg : SNMPv3Message) :
    Yields (s.handleSNMPv3Set msg) fun outcome =>
      outcome.response = [] ∨ s.v3.Answers msg outcome.response := by
  rw [handleSNMPv3Set]
  refine (parseSetVarBindsFromScopedPDU_spec msg.scopedPDU).bind ?_
  rintro (_ | _ | ⟨binds, echoed⟩) parsed
  · exact .ok (.inl rfl)
  · exact .ok (.inl rfl)
  refine (s.decideSet_returns (parsed binds echoed rfl)).bind fun decision _ => ?_
  exact (s.v3.respondEncoded_spec _ echoed _ _ msg).bind
    fun _ answers => .ok (s.v3.getD_answers answers)

/-! ### The security checks -/

/-- The engine is what it was, and nothing was broadcast. -/
def Untouched (outcome : Outcome) : Prop := outcome.engine = s.interfaceState ∧ outcome.events = []

theorem untouched_reply (response : Bytes) : s.Untouched (s.reply response) := ⟨rfl, rfl⟩

/-- A datagram that passed the checks of the security model: it is an SNMPv3 message of the
configured user, and one that claims to be authenticated carries its digest and lies in the time
window. -/
structure Authenticates (requestData : Bytes) (msg : SNMPv3Message) : Prop where
  parsed : parseSNMPv3Message requestData = .ok (some msg)
  user : ∃ config, s.v3.v3Config = some config ∧ config.enabled = true ∧
    msg.securityParams.userName = config.username
  verified : hasFlag msg.globalData.msgFlags snmpv3MsgFlagAuth = true →
    CarriesDigest s.v3.crypto s.v3.usm.newHash s.v3.usm.authKey requestData
      msg.securityParams.authParams ∧
    msg.securityParams.authoritativeEngineBoots = s.v3.usm.engineBoots ∧
    |msg.securityParams.authoritativeEngineTime - s.v3.receivedAt| ≤ usmTimeWindowSeconds

theorem unwrapScopedPDU_returns (decrypted : Option Bytes) :
    Yields (unwrapScopedPDU decrypted) fun _ => True := by
  obtain _ | decryptedPDU := decrypted
  · exact .ok trivial
  rw [unwrapScopedPDU]
  refine .guard trivial fun nonempty => ?_
  refine (Yields.index le_rfl (by omega)).bind fun first _ => ?_
  refine .guard trivial fun _ => ?_
  refine (parseLength_spec decryptedPDU (show (0 : Int) ≤ 1 by norm_num)).bind ?_
  rintro ⟨contentLen, contentStart⟩ ⟨onward, -, -⟩
  refine .guard trivial fun fits => ?_
  exact (Yields.slice (by omega) (by omega) (by omega)).bind fun _ _ => .ok trivial

theorem decryptInbound_spec (config : SNMPv3Config) (msg : SNMPv3Message) :
    Yields (s.decryptInbound config msg) fun result => ∀ admitted, result = .admitted admitted →
      admitted.globalData = msg.globalData := by
  rw [decryptInbound]
  refine .ite (fun _ => .ok ?_) fun _ => ?_
  · rintro _ ⟨⟩
    rfl
  refine .ite (fun _ => ?_) fun _ => ?_
  · exact (s.v3.createSNMPv3ReportResponseSigned_returns _ msg _).bind fun _ _ => .ok nofun
  refine (decryptScopedPDUAt_returns s.v3 config _ _ _ _).bind fun decrypted _ => ?_
  refine (unwrapScopedPDU_returns decrypted).bind ?_
  rintro (_ | scopedPDU) -
  · exact (s.v3.createSNMPv3ReportResponseSigned_returns _ msg _).bind fun _ _ => .ok nofun
  · refine .ok ?_
    rintro _ ⟨⟩
    rfl

theorem withinTimeWindow_sound {usm : UsmServerState} {now boots engineTime : Int}
    (within : usm.withinTimeWindow now boots engineTime = true) :
    boots = usm.engineBoots ∧ |engineTime - now| ≤ usmTimeWindowSeconds := by
  rw [UsmServerState.withinTimeWindow] at within
  split_ifs at within with otherBoots outOfRange
  refine ⟨not_not.mp otherBoots, ?_⟩
  have bounded := of_decide_eq_true within
  rw [abs_le]
  split_ifs at bounded <;> omega

theorem userName_of_validated {msg : SNMPv3Message} (valid : s.v3.validateSNMPv3Credentials msg = true)
    (named : ¬ (msg.securityParams.userName = [] ∧ msg.securityParams.authoritativeEngineID = [])) :
    ∃ config, s.v3.v3Config = some config ∧ config.enabled = true ∧
      msg.securityParams.userName = config.username := by
  rw [SNMPv3Engine.validateSNMPv3Credentials] at valid
  cases active : s.v3.activeConfig with
  | none => simp [active] at valid
  | some config =>
    obtain ⟨configured, enabled⟩ := Option.filter_eq_some_iff.mp active
    refine ⟨config, configured, enabled, ?_⟩
    simp only [active] at valid
    rw [if_neg fun discovery => named ⟨discovery.1, discovery.2.1⟩] at valid
    by_contra differs
    rw [if_pos differs] at valid
    exact absurd valid nofun

/-- **Intake.** The security checks return on every datagram, and what they admit they have
authenticated. -/
theorem intake_spec (requestData : Bytes) :
    Yields (s.intake requestData) fun result => ∀ admitted, result = .admitted admitted →
      ∃ msg, s.Authenticates requestData msg ∧ admitted.globalData = msg.globalData := by
  rw [intake]
  cases s.v3.activeConfig with
  | none => exact .ok nofun
  | some config =>
    obtain ⟨parsed, returned, -⟩ := parseSNMPv3Message_returns requestData
    refine (Yields.of_eq returned).bind ?_
    rintro _ rfl
    cases parsed with
    | none => exact .ok nofun
    | some msg =>
      refine .ite (fun _ => ?_) fun valid => ?_
      · exact (s.v3.createSNMPv3ReportResponseSigned_returns _ msg _).bind
          fun _ _ => .ok nofun
      refine .ite (fun _ => ?_) fun named => ?_
      · exact (s.v3.createSNMPv3ReportResponseSigned_returns _ msg _).bind
          fun _ _ => .ok nofun
      refine (authenticateInbound_sound s.v3 requestData msg).bind ?_
      rintro (_ | reportOID) accepted
      · refine (s.decryptInbound_spec config msg).mono fun result kept admitted same => ?_
        refine ⟨msg, ⟨returned, s.userName_of_validated (by simpa using valid) named,
          fun flagged => ?_⟩, kept admitted same⟩
        obtain ⟨carries, within⟩ := accepted rfl flagged
        exact ⟨carries, withinTimeWindow_sound within⟩
      · exact (s.v3.createSNMPv3ReportResponseSigned_returns _ msg _).bind
          fun _ _ => .ok nofun

/-! ### The dispatchers -/

theorem nextBindingV3_returns (named : IsOID oid) : Yields (s.nextBindingV3 oid) fun _ => True := by
  refine (Device.findNextOID_returns named).bind ?_
  rintro ⟨responseOID, response⟩ -
  exact .ok trivial

/-- **The SNMPv3 dispatcher.** It writes for an admitted SET only, and answers with the request-id
of the request unless it refuses a SET. -/
theorem dispatchV3_spec (msg : SNMPv3Message) :
    Yields (s.dispatchV3 msg) fun outcome => (s.Untouched outcome ∨ s.admitSetV3 msg = true) ∧
      (outcome.response = [] ∨ s.v3.Answers msg outcome.response ∨ s.admitSetV3 msg = false ∧
        ∃ oid, extractOIDAndTypeFromScopedPDU msg.scopedPDU = .ok (some (oid, asn1SetRequest))) := by
  obtain ⟨found, extracted, served⟩ := extractOIDAndTypeFromScopedPDU_spec msg.scopedPDU
  have answered {response : Bytes} (answers : response = [] ∨ s.v3.Answers msg response) :
      (s.Untouched (s.reply response) ∨ s.admitSetV3 msg = true) ∧
        ((s.reply response).response = [] ∨ s.v3.Answers msg (s.reply response).response ∨
          s.admitSetV3 msg = false ∧ ∃ oid,
            extractOIDAndTypeFromScopedPDU msg.scopedPDU = .ok (some (oid, asn1SetRequest))) :=
    ⟨.inl (s.untouched_reply response), answers.imp_right .inl⟩
  rw [dispatchV3]
  refine (Yields.of_eq extracted).bind ?_
  rintro _ rfl
  obtain _ | ⟨oid, pduType⟩ := found
  · exact .ok (answered (.inl rfl))
  obtain ⟨named, -⟩ := served oid pduType rfl
  refine .ite (fun _ => ?_) fun _ => .ite (fun _ => ?_) fun _ =>
    Yields.ite (fun isSet => ?_) fun _ => ?_
  · refine (s.nextBindingV3_returns named).bind ?_
    rintro ⟨responseOID, response⟩ -
    exact (s.v3.respondWith_spec _ msg).bind
      fun _ answers => .ok (answered (s.v3.getD_answers answers))
  · exact (s.handleSNMPv3GetBulk_spec named msg).bind fun _ answers => .ok (answered answers)
  · refine .ite (fun refused => ?_) fun admitted => ?_
    · refine (s.v3.createSNMPv3ReportResponseSigned_returns _ msg _).bind fun _ _ => .ok ?_
      exact ⟨.inl (s.untouched_reply _), .inr (.inr ⟨by simpa using refused, oid, isSet ▸ extracted⟩)⟩
    · exact (s.handleSNMPv3Set_spec msg).mono fun _ answers =>
        ⟨.inr (by simpa using admitted), answers.imp_right .inl⟩
  · exact (s.v3.respondWith_spec _ msg).bind
      fun _ answers => .ok (answered (s.v3.getD_answers answers))

/-- **The v1/v2c dispatcher.** It writes for an admitted SET only, and answers in the frame of the
request. -/
theorem handleSNMPv2cRequest_spec (requestData : Bytes) :
    Yields (s.handleSNMPv2cRequest requestData) fun outcome => (s.Untouched outcome ∨
      s.setAdmission.writeCommunity ≠ [] ∧
        CarriesCommunity requestData s.setAdmission.writeCommunity) ∧
      (outcome.response = [] ∨ Answers requestData outcome.response) := by
  rw [handleSNMPv2cRequest]
  refine (parseIncomingRequest_spec requestData).bind ?_
  rintro req ⟨named, community⟩
  obtain ⟨pduType, typed⟩ := getPDUType_returns requestData
  refine (Yields.of_eq typed).bind ?_
  rintro _ rfl
  refine .ite (fun _ => ?_) fun _ => .ite (fun _ => ?_) fun _ =>
    Yields.ite (fun _ => ?_) fun _ => ?_
  · exact (s.handleGetNext_spec named requestData).bind
      fun _ answers => .ok ⟨.inl (s.untouched_reply _), answers⟩
  · exact (s.handleGetBulk_spec named requestData).bind
      fun _ answers => .ok ⟨.inl (s.untouched_reply _), answers⟩
  · refine .ite (fun _ => .ok ⟨.inl (s.untouched_reply _), .inl rfl⟩) fun refused => ?_
    refine (s.handleSetRequest_spec requestData).mono fun _ answers => ⟨.inr ?_, answers⟩
    have admitted : s.admitSetV2c req = true := by simpa using refused
    rw [admitSetV2c] at admitted
    split_ifs at admitted with unset unparsed
    obtain same := of_decide_eq_true admitted
    exact ⟨unset, same ▸ community (by simpa using unparsed)⟩
  · exact (s.handleGet_spec req requestData).bind
      fun _ answers => .ok ⟨.inl (s.untouched_reply _), answers⟩

/-! ### Admission -/

/-- An SNMPv3 write that was let through: the message is authenticated as far as it claims to be,
and its level reaches the effective minimum. From `authNoPriv` on, that minimum asks for the
digest. -/
structure AdmitsV3 (requestData : Bytes) (msg : SNMPv3Message) : Prop where
  parsed : parseSNMPv3Message requestData = .ok (some msg)
  user : ∃ config, s.v3.v3Config = some config ∧ config.enabled = true ∧
    msg.securityParams.userName = config.username
  level : s.setAdmission.effectiveMinSecurityLevel.rank ≤
    (securityLevelOf msg.globalData.msgFlags).rank
  verified : SecurityLevel.authNoPriv.rank ≤ s.setAdmission.effectiveMinSecurityLevel.rank →
    CarriesDigest s.v3.crypto s.v3.usm.newHash s.v3.usm.authKey requestData
      msg.securityParams.authParams ∧
    msg.securityParams.authoritativeEngineBoots = s.v3.usm.engineBoots ∧
    |msg.securityParams.authoritativeEngineTime - s.v3.receivedAt| ≤ usmTimeWindowSeconds

theorem authFlag_of_level {flags : UInt8}
    (level : SecurityLevel.authNoPriv.rank ≤ (securityLevelOf flags).rank) :
    hasFlag flags snmpv3MsgFlagAuth = true := by
  by_contra unflagged
  have plain : hasFlag flags snmpv3MsgFlagAuth = false := by simpa using unflagged
  rw [securityLevelOf, plain, Bool.false_and] at level
  exact absurd level (by decide)

theorem handleSNMPv3Request_spec (requestData : Bytes) :
    Yields (s.handleSNMPv3Request requestData) fun outcome => s.Untouched outcome ∨
      ∃ msg, s.AdmitsV3 requestData msg := by
  rw [handleSNMPv3Request]
  refine (s.intake_spec requestData).bind ?_
  rintro (response | admitted) authenticated
  · exact .ok (.inl (s.untouched_reply _))
  obtain ⟨msg, passed, same⟩ := authenticated admitted rfl
  refine (s.dispatchV3_spec admitted).mono fun outcome done => done.1.imp_right fun writes => ?_
  have level : s.setAdmission.effectiveMinSecurityLevel.rank ≤
      (securityLevelOf msg.globalData.msgFlags).rank := by
    rw [← same]
    exact of_decide_eq_true writes
  exact ⟨msg, passed.parsed, passed.user, level, fun strict =>
    passed.verified (authFlag_of_level (strict.trans level))⟩

/-- The datagram was let through to a write: as a v1/v2c message with the write community, or as an
SNMPv3 message. -/
def Admits (requestData : Bytes) : Prop :=
  isSNMPv3Request requestData = .ok false ∧ s.setAdmission.writeCommunity ≠ [] ∧
      CarriesCommunity requestData s.setAdmission.writeCommunity ∨
    isSNMPv3Request requestData = .ok true ∧ ∃ msg, s.AdmitsV3 requestData msg

theorem handleSingleRequest_spec (requestData : Bytes) :
    Yields (s.handleSingleRequest requestData) fun outcome => s.Untouched outcome ∨
      s.Admits requestData := by
  obtain ⟨isV3, classified, -⟩ := isSNMPv3Request_returns requestData
  refine (Yields.of_eq classified).bind ?_
  rintro _ rfl
  cases isV3 with
  | false =>
    exact (s.handleSNMPv2cRequest_spec requestData).mono fun outcome done =>
      done.1.imp_right fun admitted => .inl ⟨classified, admitted⟩
  | true =>
    exact (s.handleSNMPv3Request_spec requestData).mono fun outcome =>
      Or.imp_right fun admitted => .inr ⟨classified, admitted⟩

/-- **No write without admission.** Every datagram is handled. One that changes the interface-state
engine, or broadcasts an event, is either a v1/v2c message that carries the device's write community
or an SNMPv3 message of the configured user at the effective minimum level, with a verified digest
and a time in the window where that level asks for them. -/
theorem no_write_without_admission (requestData : Bytes) :
    ∃ outcome, s.handleSingleRequest requestData = .ok outcome ∧
      (outcome.engine ≠ s.interfaceState ∨ outcome.events ≠ [] → s.Admits requestData) := by
  obtain ⟨outcome, handled, gated⟩ := s.handleSingleRequest_spec requestData
  refine ⟨outcome, handled, fun changed => gated.resolve_left fun untouched => ?_⟩
  exact changed.elim (absurd untouched.1) (absurd untouched.2)

/-- A v2c SET with the write community does reach the engine: two events are broadcast. -/
example : ((fun outcome => outcome.events.length) <$> oneInterface.handleSingleRequest
    (encodeSequence (encodeInteger 1 ++ encodeOctetString (ascii "rw") ++ encodeTLV asn1SetRequest
      (encodeInteger 7 ++ encodeInteger 0 ++ encodeInteger 0 ++ encodeSequence
        (encodeVarBind (dotted (ifAdminStatusArcs ++ [1])) (encodeInteger 2)))))) = .ok 2 := by
  decide +kernel

/-! ### Safety -/

/-- **The serve path never faults.** On every datagram the readers and the handlers return: no index
or slice expression leaves its operand and every loop ends. The walkers that take an offset are
called with a natural one, the GETBULK handlers with the name their dispatcher has read. -/
theorem serve_path_safe (data : Bytes) :
    (∃ outcome, s.handleSingleRequest data = .ok outcome) ∧
    (∃ isV3, isSNMPv3Request data = .ok isV3) ∧
    (∃ tag, getPDUType data = .ok tag) ∧
    (∃ req, parseIncomingRequest data = .ok req ∧
      ∃ response, s.handleGetBulk req.oid data = .ok response) ∧
    (∃ params, parseGetBulkParams data = .ok params) ∧
    (∃ found, requestVarBindListPos data = .ok found) ∧
    (∀ pos, 0 ≤ pos → (∃ names, parseVarBindNames data pos = .ok names) ∧
      ∃ binds, parseVarBinds data pos = .ok binds) ∧
    (∃ msg, parseSNMPv3Message data = .ok msg) ∧
    (∃ params, parseUSMSecurityParameters data = .ok params) ∧
    (∃ found, extractOIDAndTypeFromScopedPDU data = .ok found ∧
      ∀ oid pduType, found = some (oid, pduType) → ∀ msg : SNMPv3Message, msg.scopedPDU = data →
        ∃ response, s.handleSNMPv3GetBulk oid msg = .ok response) ∧
    (∃ found, scopedPDUVarBindListPos data = .ok found) ∧
    (∃ params, parseSNMPv3GetBulkParams data = .ok params) ∧
    (∃ requestID, extractRequestIDFromScopedPDU data = .ok requestID) ∧
    (∃ field, locateAuthParams data = .ok field) ∧
    ∃ outcome, s.handleSetRequest data = .ok outcome := by
  have returns {α : Type} {x : Checked α} {post : α → Prop} (yields : Yields x post) :
      ∃ result, x = .ok result := Exists.imp (fun _ => And.left) yields
  obtain ⟨req, parsed, named, -⟩ := parseIncomingRequest_spec data
  obtain ⟨found, extracted, served⟩ := extractOIDAndTypeFromScopedPDU_spec data
  refine ⟨returns (s.handleSingleRequest_spec data), returns (isSNMPv3Request_returns data),
    getPDUType_returns data, ⟨req, parsed, returns (s.handleGetBulk_spec named data)⟩,
    returns (parseGetBulkParams_spec data), returns (requestVarBindListPos_spec data),
    fun pos nonneg => ⟨returns (parseVarBindNames_spec data nonneg),
      returns (parseVarBinds_spec data nonneg)⟩,
    returns (parseSNMPv3Message_returns data), returns (parseUSMSecurityParameters_returns data),
    ⟨found, extracted, fun oid pduType same msg _ => ?_⟩, returns (scopedPDUVarBindListPos_spec data),
    returns (parseSNMPv3GetBulkParams_spec data), returns (extractRequestIDFromScopedPDU_returns data),
    returns (locateAuthParams_spec data), returns (s.handleSetRequest_spec data)⟩
  exact returns (s.handleSNMPv3GetBulk_spec (served oid pduType same).1 msg)

end SNMPServer

end Nl6
