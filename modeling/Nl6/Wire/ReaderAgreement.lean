import Nl6.Wire.Envelope

/-! # The envelope readers agree

The four readers of `Nl6.Wire.Envelope` answer the same questions about a datagram in different
ways. `envelope_readers_agree` says that on every datagram the strict walker gets through, the
lenient ones see the same PDU tag, the same community, the same request-id and the same first name.
-/

namespace Nl6

open Numeral Checked Ber

theorem parseAllOIDsFromRequest_spec (data : Bytes) :
    Yields (parseAllOIDsFromRequest data) fun result =>
      ∀ names, result = some names → ∀ name ∈ names, IsOID name := by
  rw [parseAllOIDsFromRequest]
  refine (requestVarBindListPos_spec data).bind ?_
  rintro (_ | ⟨listPos, pduEnd⟩) reached
  · refine Yields.ok ?_
    rintro _ ⟨⟩
    simp
  · exact parseVarBindNames_spec data (reached listPos pduEnd rfl).1

theorem parsed_of_names {data : Bytes} {listPos pduEnd : Int} {first : Bytes} {more : List Bytes}
    (reached : requestVarBindListPos data = .ok (some (listPos, pduEnd))) (nonneg : 0 ≤ listPos)
    (names : parseAllOIDsFromRequest data = .ok (some (first :: more))) :
    ∃ bind bindBytes contents bytes rest, bind.name = first ∧ At data listPos (bytes ++ rest) ∧
      IsTlv asn1Sequence (bindBytes ++ contents) bytes ∧ IsVarBind bind bindBytes := by
  obtain ⟨result, returned, spec⟩ := parseVarBinds_spec data nonneg
  simp only [parseAllOIDsFromRequest, reached, ok_bind, parseVarBindNames_eq data nonneg, returned,
    map_ok, Except.ok.injEq] at names
  cases result with
  | absent => exact absurd (Option.some.inj names) nofun
  | malformed => exact absurd names nofun
  | parsed result =>
    obtain ⟨binds, contents⟩ := result
    obtain ⟨bytes, rest, here, list, bindings⟩ := spec binds contents rfl
    cases bindings with
    | nil => exact absurd (Option.some.inj names) nofun
    | @cons bind binds bindBytes contents binding _ =>
      exact ⟨bind, bindBytes, contents, bytes, rest, (List.cons.inj (Option.some.inj names)).1,
        here, list, binding⟩

/-- **The v1/v2c envelope readers agree.** -/
theorem envelope_readers_agree (data : Bytes) (long : 10 ≤ data.length) {listPos pduEnd : Int}
    (reached : requestVarBindListPos data = .ok (some (listPos, pduEnd))) :
    (∃ pduPos tag, requestPDUPos data = .ok (some pduPos) ∧ index data pduPos = .ok tag ∧
      getPDUType data = .ok tag ∧
      ∀ first more, servedPDUTag tag = true →
        parseAllOIDsFromRequest data = .ok (some (first :: more)) →
          ∃ (h : Header) (p : PduFront) (rest : Bytes) (idPos : Int) (value : Option Int)
            (req : SNMPRequest),
            data = h.bytes ++ (p.bytes ++ rest) ∧ h.pduPos = pduPos ∧ p.tag = tag ∧
            p.listPos h.pduPos = listPos ∧
            readField data (p.bodyPos pduPos) asn1Integer =
              .ok (some ((p.requestID.length : Int), idPos)) ∧
            parseBERInt data idPos p.requestID.length = .ok value ∧
            parseIncomingRequest data = .ok req ∧ req.oid = first ∧ req.communityParsed = true ∧
            req.community = h.community ∧ req.requestID = value.getD 123) ∧
    ∀ nonRepeaters maxRepetitions,
      parseGetBulkParams data = .ok (nonRepeaters, maxRepetitions) →
        (nonRepeaters, maxRepetitions) ≠ (0, 10) → getPDUType data = .ok asn1GetBulk := by
  obtain ⟨_, returned, spec⟩ := requestVarBindListPos_spec data
  obtain rfl := Except.ok.inj (returned.symm.trans reached)
  obtain ⟨nonneg, -, ⟨h, tag, rest, split⟩, inside⟩ := spec listPos pduEnd rfl
  refine ⟨⟨h.pduPos, tag, ?_, ?_, ?_, ?_⟩, ?_⟩
  · rw [split]
    exact requestPDUPos_at h rest tag
  · rw [split]
    exact (h.at_pdu (tag :: rest)).index
  · rw [split] at long ⊢
    exact getPDUType_at h rest tag long
  · intro first more served names
    obtain ⟨bind, bindBytes, contents, bytes, behind, named, here, list, binding⟩ :=
      parsed_of_names reached nonneg names
    obtain ⟨h', p, rest', split', rfl, -⟩ := inside here.le_length
    have pduBytes : p.bytes ++ rest' = p.tag :: (p.octets ++ (p.integers ++ rest')) := by
      simp [PduFront.bytes]
    -- both decompositions are the walker's, so they meet at the same PDU tag
    have samePos : h'.pduPos = h.pduPos := by
      have walked := requestPDUPos_at h rest tag
      have walked' := requestPDUPos_at h' (p.octets ++ (p.integers ++ rest')) p.tag
      rw [← pduBytes, ← split', split] at walked'
      exact Option.some.inj (Except.ok.inj (walked'.symm.trans walked))
    have pduAt : At data h.pduPos (p.bytes ++ rest') := by
      rw [split', ← samePos]
      exact h'.at_pdu _
    have sameTag : p.tag = tag := by
      have tagAt : At data h.pduPos (tag :: rest) := by
        rw [split]
        exact h.at_pdu _
      exact (List.cons.inj (pduBytes.symm.trans (pduAt.unique tagAt))).1
    have idAt : At data (p.bodyPos h.pduPos)
        (p.requestIDBytes ++ (p.statusBytes ++ (p.indexBytes ++ rest'))) := by
      rw [pduBytes] at pduAt
      simpa [PduFront.integers, PduFront.bodyPos] using pduAt.step.advance
    obtain ⟨idPos, idRead, idContents, -⟩ := readField_at idAt p.isRequestID
    have firstName : readFirstName data (p.listPos h'.pduPos) = .ok (some bind.name) :=
      readFirstName_at here list binding
    have parsed := parseIncomingRequest_at h' rest' p (sameTag ▸ served) (split' ▸ firstName)
      (split' ▸ long)
    rw [← split'] at parsed
    exact ⟨h', p, rest', idPos, integerValue p.requestID, _, split', samePos, sameTag, rfl, idRead,
      parseBERInt_content _ idContents, parsed, named, rfl, rfl, rfl⟩
  · intro nonRepeaters maxRepetitions read
    obtain ⟨_, returned, -, -, bulk⟩ := parseGetBulkParams_spec data
    obtain rfl := Except.ok.inj (returned.symm.trans read)
    exact bulk

theorem envelope_readers_agree_on_get :
    let data : Bytes := [0x30, 0x26, 0x02, 0x01, 0x01, 0x04, 0x06, 0x70, 0x75, 0x62, 0x6c, 0x69, 0x63,
      0xA0, 0x19, 0x02, 0x01, 0x07, 0x02, 0x01, 0x00, 0x02, 0x01, 0x00, 0x30, 0x0E, 0x30, 0x0C,
      0x06, 0x08, 0x2B, 0x06, 0x01, 0x02, 0x01, 0x01, 0x01, 0x00, 0x05, 0x00]
    requestVarBindListPos data = .ok (some (24, 40)) ∧
      (∃ pduPos tag, requestPDUPos data = .ok (some pduPos) ∧ index data pduPos = .ok tag ∧
        getPDUType data = .ok tag) := by
  intro data
  have reached : requestVarBindListPos data = .ok (some (24, 40)) := by decide +kernel
  obtain ⟨⟨pduPos, tag, walked, found, typed, -⟩, -⟩ :=
    envelope_readers_agree data (by decide) reached
  exact ⟨reached, pduPos, tag, walked, found, typed⟩

end Nl6
