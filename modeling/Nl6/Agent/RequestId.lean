import Nl6.Agent.Serve

/-! # The request-id of a response

A manager matches a response to its request by the request-id. Both paths put the number their own
reader found into every Response-PDU, with `encodeInteger`, which reads back
(`integerValue_integerOctets`). The v1/v2c reader takes the octets in two's complement. The reader of
the SNMPv3 path shifts them into a machine word without a sign, so a negative request-id comes back as
another number unless its octets fill the word (`requestID_echo_iff`).
-/

namespace Nl6

open Numeral Checked Ber

/-! ### The two readers -/

/-- What a negative number's octets spell without the sign, in a machine word. -/
theorem int64_value_of_negative {octets : Bytes} (top : Octets.negative octets = true)
    (fits : octets.length ≤ 8) :
    int64 (Octets.value octets) =
      if octets.length = 8 then Octets.signed octets else Octets.value octets := by
  have below := Octets.value_lt octets
  have half := Octets.half_le_value top
  split_ifs with full
  · rw [full] at below half
    rw [Octets.signed, if_pos top, full, int64, Int.bmod_def]
    split_ifs <;> omega
  · have narrow : 256 ^ octets.length ≤ 256 ^ 7 := Nat.pow_le_pow_right (by norm_num) (by omega)
    exact int64_of_range (by omega) (by omega)

/-- **The reader without a sign.** An Integer32 it reads comes back unless the number is negative and
spelled in fewer than eight octets. -/
theorem integerValue_int64_iff {octets : Bytes} {id : Int} (spelled : integerValue octets = some id)
    (low : -2 ^ 31 ≤ id) (high : id < 2 ^ 31) :
    integerValue (integerOctets (int64 (Octets.value octets))) = some id ↔
      0 ≤ id ∨ octets.length = 8 := by
  rw [integerValue] at spelled
  split_ifs at spelled with unreadable
  obtain ⟨nonempty, short⟩ := not_or.mp unreadable
  obtain signed := Option.some.inj spelled
  cases top : Octets.negative octets with
  | false =>
    rw [Octets.signed_of_nonneg top] at signed
    rw [signed, int64_of_range (by omega) (by omega), integerValue_integerOctets low (by omega)]
    exact iff_of_true rfl (.inl (by omega))
  | true =>
    rw [Octets.trimZeros_of_negative top] at short
    have below := Octets.value_lt octets
    have negative : id < 0 := by
      rw [Octets.signed, if_pos top] at signed
      have : (Octets.value octets : Int) < 256 ^ octets.length := by exact_mod_cast below
      omega
    rw [int64_value_of_negative top (by omega)]
    split_ifs with full
    · rw [signed, integerValue_integerOctets low (by omega)]
      exact iff_of_true rfl (.inr full)
    · have narrow : 256 ^ octets.length ≤ 256 ^ 7 := Nat.pow_le_pow_right (by norm_num) (by omega)
      rw [integerValue_integerOctets (by omega) (by omega), Option.some.injEq]
      omega

/-! ### Messages of the small server's user -/

/-- The context of the small server's engine. -/
def ScopedContext.ofOneInterface : ScopedContext where
  engineID := [0x80, 0, 0, 1]
  engineIDBytes := encodeOctetString [0x80, 0, 0, 1]
  isEngineID := isTlv_encodeTLV asn1OctetString (by decide)
  name := []
  nameBytes := encodeOctetString []
  isName := isTlv_encodeTLV asn1OctetString (by decide)

/-- An unprotected message of the user `op`. -/
def SNMPv3Message.plain (scopedPDU : Bytes) : SNMPv3Message where
  version := snmpv3Version
  globalData := { msgID := 1, msgMaxSize := 1472, msgFlags := 0,
                  msgSecurityModel := snmpv3SecurityModelUSM }
  securityParams := { authoritativeEngineID := [0x80, 0, 0, 1], userName := ascii "op" }
  scopedPDU

/-- A list of names without values. -/
def askFor (names : List Bytes) : Bytes := encodeSequence (encodeEcho names)

namespace SNMPServer

variable (s : SNMPServer)

/-! ### The echo -/

/-- The Response-PDU to a v1/v2c request carries the given request-id: the number its frame holds is
written as octets that decode to it. -/
def EchoesV2c (requestData : Bytes) (id : Int) : Prop :=
  ∃ req, parseIncomingRequest requestData = .ok req ∧
    integerValue (integerOctets req.requestID) = some id ∧
    ∃ outcome, s.handleSNMPv2cRequest requestData = .ok outcome ∧
      (outcome.response = [] ∨ ∃ varBindList errStatus errIndex,
        outcome.response = encodeGetResponseAt req varBindList errStatus errIndex)

/-- The Response-PDU to an SNMPv3 request carries the given request-id. A SET that is refused is
answered with a Report-PDU. -/
def EchoesV3 (msg : SNMPv3Message) (id : Int) : Prop :=
  ∃ requestID, extractRequestIDFromScopedPDU msg.scopedPDU = .ok requestID ∧
    integerValue (integerOctets requestID) = some id ∧
    ∃ outcome, s.dispatchV3 msg = .ok outcome ∧
      (outcome.response = [] ∨ (∃ draw varBinds errStatus errIndex,
        s.v3.wrapScopedPDUInV3Message draw (wrapInScopedPDU s.v3.usm.engineID []
          (encodeResponsePDU requestID errStatus errIndex varBinds)) msg =
            .ok (some outcome.response)) ∨
        s.admitSetV3 msg = false ∧ ∃ oid,
          extractOIDAndTypeFromScopedPDU msg.scopedPDU = .ok (some (oid, asn1SetRequest)))

theorem echoesV2c_of_parsed {requestData : Bytes} {req : SNMPRequest} {id : Int}
    (parsed : parseIncomingRequest requestData = .ok req)
    (decodes : integerValue (integerOctets req.requestID) = some id) : s.EchoesV2c requestData id := by
  obtain ⟨outcome, handled, -, answered⟩ := s.handleSNMPv2cRequest_spec requestData
  refine ⟨req, parsed, decodes, outcome, handled, answered.imp_right ?_⟩
  rintro ⟨req', varBindList, errStatus, errIndex, parsed', framed⟩
  cases parsed.symm.trans parsed'
  exact ⟨varBindList, errStatus, errIndex, framed⟩

theorem echoesV3_iff {msg : SNMPv3Message} {requestID id : Int}
    (read : extractRequestIDFromScopedPDU msg.scopedPDU = .ok requestID) :
    s.EchoesV3 msg id ↔ integerValue (integerOctets requestID) = some id := by
  refine ⟨?_, fun decodes => ?_⟩
  · rintro ⟨requestID', read', decodes, -⟩
    rwa [Except.ok.inj (read.symm.trans read')]
  · obtain ⟨outcome, handled, -, answered⟩ := s.dispatchV3_spec msg
    refine ⟨requestID, read, decodes, outcome, handled, answered.imp_right (Or.imp_left ?_)⟩
    rintro ⟨draw, requestID', varBinds, errStatus, errIndex, read', wrapped⟩
    rw [Except.ok.inj (read'.symm.trans read)] at wrapped
    exact ⟨draw, varBinds, errStatus, errIndex, wrapped⟩

/-- **The request-id comes back, unless it is negative.** A served PDU whose request-id is an
Integer32 is answered with that number on the v1/v2c path always, and on the SNMPv3 path exactly when
the number is natural or spelled in eight octets. -/
theorem requestID_echo_iff (h : Header) (c : ScopedContext) (p : PduFront) (list : Bytes)
    {msg : SNMPv3Message} {id : Int} (served : servedPDUTag p.tag = true)
    (exactLength : p.Exact list) (carried : msg.scopedPDU = c.bytes ++ (p.bytes ++ list))
    (spelled : integerValue p.requestID = some id) (low : -2 ^ 31 ≤ id) (high : id < 2 ^ 31) :
    s.EchoesV2c (h.bytes ++ (p.bytes ++ list)) id ∧ s.EchoesV3 msg id ↔
      0 ≤ id ∨ p.requestID.length = 8 := by
  obtain ⟨oid, parsed⟩ := parseIncomingRequest_of_served h list p served
  have read : extractRequestIDFromScopedPDU msg.scopedPDU =
      .ok (int64 (Octets.value p.requestID)) := by
    rw [carried, extractRequestIDFromScopedPDU_at exactLength served]
  have echoed : s.EchoesV2c (h.bytes ++ (p.bytes ++ list)) id := by
    refine s.echoesV2c_of_parsed parsed ?_
    simpa [spelled] using integerValue_integerOctets low (by omega)
  rw [s.echoesV3_iff read, ← integerValue_int64_iff spelled low high]
  exact and_iff_right echoed

/-- A GET whose request-id is 7. -/
theorem requestID_echo_seven :
    let list := askFor [dotted [1, 3, 9]]
    let p := PduFront.encoded asn1GetRequest [7] list (by decide) (by decide +kernel)
    integerValue p.requestID = some 7 ∧
      oneInterface.EchoesV2c ((Header.encoded [1] (ascii "public") (p.bytes ++ list).length (by decide)
        (by decide) (by decide +kernel)).bytes ++ (p.bytes ++ list)) 7 ∧
      oneInterface.EchoesV3 (.plain (ScopedContext.ofOneInterface.bytes ++ (p.bytes ++ list))) 7 := by
  intro list p
  exact ⟨by decide, (requestID_echo_iff oneInterface _ .ofOneInterface p list (by decide)
    (PduFront.encoded_exact _ _) rfl (show integerValue [7] = some 7 by decide) (by decide)
    (by decide)).mpr (.inl (by decide))⟩

/-- An SNMPv3 GET whose request-id is the one octet `FF`, which spells -1, is answered as if the
request-id were 255. -/
theorem requestID_echo_lost :
    let ask := fun requestID : Bytes => SNMPv3Message.plain (ScopedContext.ofOneInterface.bytes ++
      encodeTLV asn1GetRequest (encodeTLV asn1Integer requestID ++ encodeInteger 0 ++
        encodeInteger 0 ++ askFor [dotted [1, 3, 9]]))
    integerValue [0xff] = some (-1) ∧ ¬ oneInterface.EchoesV3 (ask [0xff]) (-1) ∧
      Outcome.response <$> oneInterface.dispatchV3 (ask [0xff]) =
        Outcome.response <$> oneInterface.dispatchV3 (ask (integerOctets 255)) ∧
      Outcome.response <$> oneInterface.dispatchV3 (ask [0xff]) ≠ .ok [] := by
  intro ask
  have read : extractRequestIDFromScopedPDU (ask [0xff]).scopedPDU = .ok 255 := by decide +kernel
  refine ⟨by decide, ?_, by decide +kernel, by decide +kernel⟩
  rw [oneInterface.echoesV3_iff read]
  decide

end SNMPServer

end Nl6
