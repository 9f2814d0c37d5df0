import Nl6.Agent.RequestId

/-! # An SNMPv3 read answers its first binding

The SNMPv3 dispatcher reads the kind of a request and the name of its first binding, and builds a
response of one binding. That binding is the one the v2c path gives for the name
(`SNMPServer.v3_answers_first_binding`); the further bindings of the request are not answered.
-/

namespace Nl6

open Numeral Checked Ber

namespace SNMPServer

variable (s : SNMPServer)

/-- The binding the v2c path answers a name with: its successor or the end of the view on GETNEXT,
its value on GET. -/
def answerV2c (tag : UInt8) (name : Bytes) : Checked Binding :=
  if tag = asn1GetNext then Prod.fst <$> s.getNextBinding name 1 s.newCounter64SkipBudget
  else .ok (name, s.device.findResponseAt s.point name)

theorem nextBindingV3_eq (name : Bytes) :
    s.nextBindingV3 name = Prod.fst <$> s.getNextBinding name 1 s.newCounter64SkipBudget := by
  have notV1 : ¬ (1 : Int) = snmpVersion1 := by decide
  rw [nextBindingV3, getNextBinding, Device.findNextOID]
  cases s.device.findNextOIDWithServed s.point name s.device.lldpServedOIDs with
  | error panic => rfl
  | ok next => simp [skipForVersion, notV1]

theorem dispatchV3_of_read {msg : SNMPv3Message} {oid : Bytes} {tag : UInt8}
    (isRead : tag = asn1GetRequest ∨ tag = asn1GetNext)
    (extracted : extractOIDAndTypeFromScopedPDU msg.scopedPDU = .ok (some (oid, tag))) :
    s.dispatchV3 msg = do
      let answer ← s.answerV2c tag oid
      return s.reply ((← s.v3.respondWith [answer] msg).getD []) := by
  rw [dispatchV3, extracted, ok_bind, answerV2c, ← nextBindingV3_eq]
  obtain rfl | rfl := isRead
  · have notNext : asn1GetRequest ≠ asn1GetNext := by decide
    have notBulk : asn1GetRequest ≠ asn1GetBulk := by decide
    have notSet : asn1GetRequest ≠ asn1SetRequest := by decide
    simp [notNext, notBulk, notSet, SNMPv3Engine.createSNMPv3Response]
  · simp [SNMPv3Engine.createSNMPv3Response]

/-- **A read answers its first binding.** An authenticated, well-formed SNMPv3 GET or GETNEXT with at
least one binding is answered, without error, with exactly one: the binding the v2c path gives for
the first name. -/
theorem v3_answers_first_binding {requestData : Bytes} {msg : SNMPv3Message} {c : ScopedContext}
    {p : PduFront} {list contents : Bytes} {bind : SnmpVarBind} {binds : List SnmpVarBind}
    (admitted : s.intake requestData = .ok (.admitted msg))
    (carried : msg.scopedPDU = c.bytes ++ (p.bytes ++ list))
    (isRead : p.tag = asn1GetRequest ∨ p.tag = asn1GetNext)
    (isList : IsTlv asn1Sequence contents list) (bindings : IsVarBinds (bind :: binds) contents) :
    ∃ answer requestID result, s.answerV2c p.tag bind.name = .ok answer ∧
      extractRequestIDFromScopedPDU msg.scopedPDU = .ok requestID ∧
      s.v3.wrapScopedPDUInV3Message (s.v3.draws 1) (wrapInScopedPDU s.v3.usm.engineID []
        (encodeResponsePDU requestID snmpErrNoError 0 (encodeBinding answer))) msg = .ok result ∧
      s.handleSNMPv3Request requestData = .ok (s.reply (result.getD [])) := by
  have named := bindings.isOID bind List.mem_cons_self
  have served : servedPDUTag p.tag = true := by
    obtain same | same := isRead <;> rw [same] <;> decide
  cases bindings with
  | @cons _ _ bindBytes more first rest =>
    have extracted : extractOIDAndTypeFromScopedPDU msg.scopedPDU =
        .ok (some (bind.name, p.tag)) := by
      rw [carried]
      exact extractOIDAndTypeFromScopedPDU_at served isList first
    have answered : Yields (s.answerV2c p.tag bind.name) fun _ => True := by
      rw [answerV2c, ← nextBindingV3_eq]
      exact .ite (fun _ => s.nextBindingV3_returns named) fun _ => .ok trivial
    obtain ⟨answer, answer_eq, -⟩ := answered
    obtain ⟨requestID, read, -⟩ := extractRequestIDFromScopedPDU_returns msg.scopedPDU
    obtain ⟨result, wrapped, -⟩ := s.v3.wrapScopedPDUInV3Message_returns (s.v3.draws 1)
      (wrapInScopedPDU s.v3.usm.engineID []
        (encodeResponsePDU requestID snmpErrNoError 0 (encodeBinding answer))) msg
    have responded : s.v3.respondWith [answer] msg = .ok result := by
      simpa [SNMPv3Engine.respondWith, SNMPv3Engine.createScopedPDUMulti,
        SNMPv3Engine.createScopedPDUEncoded, read] using wrapped
    refine ⟨answer, requestID, result, answer_eq, read, wrapped, ?_⟩
    rw [handleSNMPv3Request, admitted, ok_bind]
    change s.dispatchV3 msg = _
    rw [s.dispatchV3_of_read isRead extracted, answer_eq, ok_bind, responded, ok_bind, pure_eq_ok]

/-- The datagram of a message of the user `op`. -/
def askV3 (tag : UInt8) (names : List Bytes) : Bytes :=
  let msg := SNMPv3Message.plain (encodeSequence (ScopedContext.ofOneInterface.bytes ++
    encodeTLV tag (encodeInteger 7 ++ encodeInteger 0 ++ encodeInteger 0 ++ askFor names)))
  encodeSNMPv3Message msg (encodeUSMSecurityParameters msg.securityParams)

/-- A GETNEXT of one name. -/
theorem v3_answers_first_binding_next :
    let p := PduFront.encoded asn1GetNext [7] (askFor [dotted [1, 3, 9]]) (by decide) (by decide)
    let msg := SNMPv3Message.plain (ScopedContext.ofOneInterface.bytes ++
      (p.bytes ++ askFor [dotted [1, 3, 9]]))
    oneInterface.intake (askV3 asn1GetNext [dotted [1, 3, 9]]) = .ok (.admitted msg) ∧
      ∃ answer requestID result, oneInterface.answerV2c asn1GetNext (dotted [1, 3, 9]) = .ok answer ∧
        extractRequestIDFromScopedPDU msg.scopedPDU = .ok requestID ∧
        oneInterface.v3.wrapScopedPDUInV3Message (oneInterface.v3.draws 1)
          (wrapInScopedPDU oneInterface.v3.usm.engineID [] (encodeResponsePDU requestID snmpErrNoError 0
            (encodeBinding answer))) msg = .ok result ∧
        oneInterface.handleSNMPv3Request (askV3 asn1GetNext [dotted [1, 3, 9]]) =
          .ok (oneInterface.reply (result.getD [])) := by
  intro p msg
  have admitted : oneInterface.intake (askV3 asn1GetNext [dotted [1, 3, 9]]) = .ok (.admitted msg) := by
    decide +kernel
  have bindings := @isVarBinds_encodeEcho [dotted [1, 3, 9]] (by decide +kernel) (by decide +kernel)
  have canonical : canonicalOID (dotted [1, 3, 9]) = dotted [1, 3, 9] :=
    (canonicalOID_dotted (by decide) (by decide)).1
  have isList : IsTlv asn1Sequence (encodeEcho [dotted [1, 3, 9]]) (askFor [dotted [1, 3, 9]]) :=
    isTlv_encodeTLV asn1Sequence (by decide +kernel)
  have carried : msg.scopedPDU = ScopedContext.ofOneInterface.bytes ++
      (p.bytes ++ askFor [dotted [1, 3, 9]]) := rfl
  have answered := v3_answers_first_binding oneInterface admitted carried (.inr rfl) isList bindings
  exact ⟨admitted, answered⟩

/-- A GET of two names is answered as the GET of the first one is, and not with two bindings. -/
theorem v3_second_binding_unanswered :
    let names := [dotted [1, 3, 9], dotted [1, 3, 10]]
    let answers := names.map fun name => (name, oneInterface.device.findResponseAt 0 name)
    let msg := SNMPv3Message.plain (ScopedContext.ofOneInterface.bytes ++
      encodeTLV asn1GetRequest (encodeInteger 7 ++ encodeInteger 0 ++ encodeInteger 0 ++ askFor names))
    Outcome.response <$> oneInterface.handleSNMPv3Request (askV3 asn1GetRequest names) =
        Outcome.response <$> oneInterface.handleSNMPv3Request (askV3 asn1GetRequest (names.take 1)) ∧
      Outcome.response <$> oneInterface.handleSNMPv3Request (askV3 asn1GetRequest names) =
        (Option.getD · []) <$> oneInterface.v3.respondWith (answers.take 1) msg ∧
      Outcome.response <$> oneInterface.handleSNMPv3Request (askV3 asn1GetRequest names) ≠
        (Option.getD · []) <$> oneInterface.v3.respondWith answers msg := by
  decide +kernel

end SNMPServer

end Nl6
