import Nl6.Trap.Appenders

/-! # The two notification encoders agree

The fast encoder patches headers of at most four octets, the reference encoder writes a header of any
size. They differ on contents of 65536 octets and more, and such a message passes neither size check:
`Buffer.AgreeUpTo` carries both cases through the nesting, and `fast_encoder_matches_reference` is the
comparison of the two encoders.
-/

namespace Nl6

open Numeral Buffer

/-- An element as `endTLV` leaves it. -/
def patchedTLV (tag : UInt8) (contents : Bytes) : Bytes := tlvHeader tag contents.length ++ contents

theorem endTLV_eq_patchedTLV (dst : Bytes) (tag : UInt8) (contents : Bytes) :
    endTLV ((beginTLV dst).1 ++ contents) (beginTLV dst).2 tag = dst ++ patchedTLV tag contents :=
  endTLV_eq dst tag contents

variable {index limit : Nat} {pre : Option PreEncodedEntry} {rest varbinds : List Varbind}

theorem agree_patchedTLV (small : limit < 65536) (tag : UInt8) {a b : Bytes}
    (agree : AgreeUpTo limit a b) : AgreeUpTo limit (patchedTLV tag a) (encodeTLV tag b) := by
  have longer : ∀ c : Bytes, c.length < (patchedTLV tag c).length ∧
      c.length < (encodeTLV tag c).length := by
    intro c
    have header := (length_tlvHeader tag c.length).1
    constructor
    · rw [patchedTLV, List.length_append]
      omega
    · rw [encodeTLV, List.length_cons, List.length_append]
      omega
  rcases agree with rfl | ⟨left, right⟩
  · by_cases bounded : a.length < 65536
    · left
      rw [patchedTLV, tlvHeader_eq tag bounded]
      rfl
    · right
      have := longer a
      omega
  · exact .inr ⟨left.trans (longer a).1, right.trans (longer b).2⟩

/-! ### The bindings -/

theorem appendVarbindValue_eq (dst : Bytes) (vb : Varbind) :
    appendVarbindValue dst vb = (encodeVarbindValue vb).map (dst ++ ·) := by
  obtain ⟨oid, type, value⟩ := vb
  cases type with
  | integer =>
    simp only [appendVarbindValue, encodeVarbindValue, Option.map_map]
    cases parsed : parseInt32 value with
    | none => rfl
    | some n =>
      have bounded : n < 2 ^ 64 := by
        unfold parseInt32 at parsed
        split at parsed
        · split at parsed
          · cases parsed
            omega
          · cases parsed
        · cases parsed
      exact congrArg some (appendInteger_eq dst bounded)
  | octetString => exact congrArg some (appendOctetString_eq dst value)
  | oid =>
    simp only [appendVarbindValue, encodeVarbindValue, appendOID_eq]
    split <;> rfl
  | counter32 | gauge32 | timeTicks =>
    simp only [appendVarbindValue, encodeVarbindValue, Option.map_map]
    exact congrArg (Option.map · _) (funext (appendUnsigned32_eq dst _))
  | counter64 => simp [appendVarbindValue, encodeVarbindValue, Function.comp_def]
  | ipAddress =>
    simp only [appendVarbindValue, encodeVarbindValue]
    split <;> rfl
  | unknown name => rfl

theorem appendVarbindOID_eq (dst oid value : Bytes) :
    appendVarbindOID dst oid value =
      dst ++ patchedTLV asn1Sequence (encodeOID oid ++ encodeOID value) := by
  rw [← endTLV_eq_patchedTLV, ← List.append_assoc, ← appendOID_eq, ← appendOID_eq]
  rfl

/-- What was prepared for the body bindings from an index on are their own identifiers. -/
def PreparedFor (pre : Option PreEncodedEntry) (index : Nat) (varbinds : List Varbind) : Prop :=
  ∀ j vb, varbinds[j]? = some vb → ∀ prepared, preparedOID pre (index + j) = some prepared →
    encodableAsOID vb.oid = true ∧ prepared = encodeOID vb.oid

theorem appendName_eq {vb : Varbind} (prepared : PreparedFor pre index (vb :: rest)) (dst : Bytes) :
    appendName pre index vb dst =
      if ¬ encodableAsOID vb.oid then .error (.varbindOID index vb.oid)
      else .ok (dst ++ encodeOID vb.oid) := by
  unfold appendName
  cases here : preparedOID pre index with
  | none => simp only [appendOID_eq]
  | some oid =>
    obtain ⟨encodable, rfl⟩ := prepared 0 vb rfl oid here
    simp [encodable]

theorem appendBodyVarbinds_cons {vb : Varbind} (prepared : PreparedFor pre index (vb :: rest))
    (dst : Bytes) :
    appendBodyVarbinds pre index (vb :: rest) dst =
      if ¬ encodableAsOID vb.oid then .error (.varbindOID index vb.oid)
      else
        match encodeVarbindValue vb with
        | none => .error (.varbindValue index vb)
        | some value => appendBodyVarbinds pre (index + 1) rest
            (dst ++ patchedTLV asn1Sequence (encodeOID vb.oid ++ value)) := by
  rw [appendBodyVarbinds]
  simp only [appendName_eq prepared]
  by_cases encodable : encodableAsOID vb.oid = true
  · simp only [encodable, not_true_eq_false, if_false, appendVarbindValue_eq]
    cases encodeVarbindValue vb with
    | none => rfl
    | some value =>
      simp only [Option.map_some]
      rw [List.append_assoc, endTLV_eq_patchedTLV]
  · rw [if_pos encodable, if_pos encodable]

/-- The body bindings: both encoders refuse the same one, or append bytes that agree. -/
theorem appendBodyVarbinds_eq (small : limit < 65536) (pre : Option PreEncodedEntry)
    (prepared : PreparedFor pre index varbinds) :
    match encodeBodyVarbinds index varbinds with
    | .error reason => ∀ dst, appendBodyVarbinds pre index varbinds dst = .error reason
    | .ok body => ∃ appended, AgreeUpTo limit appended body ∧
        ∀ dst, appendBodyVarbinds pre index varbinds dst = .ok (dst ++ appended) := by
  induction varbinds generalizing index with
  | nil => exact ⟨[], .refl _ _, by simp [appendBodyVarbinds]⟩
  | cons vb rest ih =>
    simp only [appendBodyVarbinds_cons prepared, encodeBodyVarbinds]
    by_cases encodable : encodableAsOID vb.oid = true
    · simp only [encodable, not_true_eq_false, if_false, encodeVarbindTyped]
      cases encodeVarbindValue vb with
      | none => exact fun _ => rfl
      | some value =>
        have later : PreparedFor pre (index + 1) rest := fun j other there p found =>
          prepared (j + 1) other there p (by rwa [Nat.add_right_comm, Nat.add_assoc] at found)
        have tail := ih later
        simp only [Option.map_some]
        cases body : encodeBodyVarbinds (index + 1) rest with
        | error reason =>
          rw [body] at tail
          exact fun dst => tail _
        | ok body' =>
          rw [body] at tail
          obtain ⟨appended, agree, done⟩ := tail
          refine ⟨patchedTLV asn1Sequence (encodeOID vb.oid ++ value) ++ appended,
            (agree_patchedTLV small _ (.refl _ _)).append agree, fun dst => ?_⟩
          rw [done, List.append_assoc]
    · rw [if_pos encodable]
      exact fun _ => if_pos encodable

/-! ### The entry -/

/-- The entry is the one the notification was made from: the same trap and enterprise, and where the
identifier of a body binding is literal, the identifier of that binding. -/
structure CatalogEntry.Describes (e : CatalogEntry) (trapOID enterpriseOID : Bytes)
    (varbinds : List Varbind) : Prop where
  trapOID_eq : e.snmpTrapOID = trapOID
  enterprise_eq : e.snmpTrapEnterprise = enterpriseOID
  literal : ∀ (i : Nat) vt vb, e.varbinds[i]? = some vt → varbinds[i]? = some vb →
    isTemplated vt.rawOID = false → vt.rawOID = vb.oid

/-- What the fast encoder may be given: nothing prepared, or what `precomputeEntry` prepares. -/
def PreparedFrom (pre : Option PreEncodedEntry) (trapOID enterpriseOID : Bytes)
    (varbinds : List Varbind) : Prop :=
  pre = none ∨ ∃ e : CatalogEntry, pre = some (precomputeEntry e) ∧
    e.Describes trapOID enterpriseOID varbinds

section Entry

variable {pre : Option PreEncodedEntry} {trapOID enterpriseOID : Bytes} {varbinds : List Varbind}
  (prepared : PreparedFrom pre trapOID enterpriseOID varbinds)

include prepared

theorem PreparedFrom.preparedFor : PreparedFor pre 0 varbinds := by
  intro j vb here oid found
  rcases prepared with rfl | ⟨e, rfl, describes⟩
  · cases found
  · rw [Nat.zero_add, preparedOID, precomputeEntry, List.getElem?_map] at found
    cases template : e.varbinds[j]? with
    | none =>
      rw [template] at found
      cases found
    | some vt =>
      rw [template] at found
      simp only [Option.map_some, Option.join_some] at found
      split at found
      · next literal =>
          have same := describes.literal j vt vb template here literal.1
          cases found
          rw [← same, appendOID_eq]
          exact ⟨literal.2, rfl⟩
      · cases found

theorem PreparedFrom.appendUpTime_eq (dst : Bytes) (uptimeHundredths : UInt32) :
    appendUpTime pre dst uptimeHundredths = dst ++ patchedTLV asn1Sequence
      (encodeOID oidSysUpTime0 ++ encodeUnsigned32 asn1TimeTicks uptimeHundredths.toNat) := by
  rw [← endTLV_eq_patchedTLV, ← List.append_assoc, ← appendUnsigned32_eq]
  rcases prepared with rfl | ⟨e, rfl, -⟩
  · rw [← appendOID_eq]
    rfl
  · have named : (precomputeEntry e).sysUpTimeOID = encodeOID oidSysUpTime0 :=
      appendOID_eq [] oidSysUpTime0
    rw [← named]
    rfl

theorem PreparedFrom.appendTrapOID_eq (dst : Bytes) :
    appendTrapOID pre dst trapOID =
      if ¬ encodableAsOID trapOID then .error (.snmpTrapOID trapOID)
      else .ok (dst ++ patchedTLV asn1Sequence (encodeOID oidSnmpTrapOID0 ++ encodeOID trapOID)) := by
  unfold appendTrapOID
  rcases prepared with rfl | ⟨e, rfl, describes⟩
  · simp [appendVarbindOID_eq]
  · have header : ∀ contents, 0 < (patchedTLV asn1Sequence contents).length := by
      intro contents
      have two := (length_tlvHeader asn1Sequence contents.length).1
      rw [patchedTLV, List.length_append]
      omega
    by_cases encodable : encodableAsOID trapOID = true
    · simp [precomputeEntry, describes.trapOID_eq, encodable, appendVarbindOID_eq, header]
    · simp [precomputeEntry, describes.trapOID_eq, encodable]

theorem PreparedFrom.appendEnterprise_eq (dst : Bytes) :
    appendEnterprise pre dst enterpriseOID =
      if enterpriseOID ≠ [] ∧ ¬ encodableAsOID enterpriseOID then
        .error (.snmpTrapEnterprise enterpriseOID)
      else .ok (dst ++ if enterpriseOID ≠ [] then patchedTLV asn1Sequence
        (encodeOID oidSnmpTrapEnterprise0 ++ encodeOID enterpriseOID) else []) := by
  unfold appendEnterprise
  by_cases absent : enterpriseOID = []
  · rcases prepared with rfl | ⟨e, rfl, describes⟩
    · simp [absent]
    · simp [precomputeEntry, describes.enterprise_eq, absent]
  · by_cases encodable : encodableAsOID enterpriseOID = true
    · rcases prepared with rfl | ⟨e, rfl, describes⟩
      · simp [absent, encodable, appendVarbindOID_eq]
      · simp [precomputeEntry, describes.enterprise_eq, absent, encodable, appendVarbindOID_eq]
    · rcases prepared with rfl | ⟨e, rfl, describes⟩
      · simp [absent, encodable]
      · simp [precomputeEntry, describes.enterprise_eq, absent, encodable]

end Entry

/-- The message the fast encoder assembles, from what it appends for the body bindings. -/
def patchedMessage (pduTag : UInt8) (community : Bytes) (reqID : UInt32)
    (trapOID enterpriseOID : Bytes) (uptimeHundredths : UInt32) (body : Bytes) : Bytes :=
  patchedTLV asn1Sequence (encodeInteger 1 ++ (encodeOctetString community ++
    patchedTLV pduTag (encodeInteger reqID.toNat ++ (encodeInteger 0 ++ (encodeInteger 0 ++
      patchedTLV asn1Sequence
        ((patchedTLV asn1Sequence
            (encodeOID oidSysUpTime0 ++ encodeUnsigned32 asn1TimeTicks uptimeHundredths.toNat) ++
          (patchedTLV asn1Sequence (encodeOID oidSnmpTrapOID0 ++ encodeOID trapOID) ++
            if enterpriseOID ≠ [] then patchedTLV asn1Sequence
              (encodeOID oidSnmpTrapEnterprise0 ++ encodeOID enterpriseOID) else [])) ++ body))))))

/-- What the fast encoder does, with the nesting written out. -/
theorem encodeV2cNotificationFast_eq {trapOID enterpriseOID : Bytes}
    (prepared : PreparedFrom pre trapOID enterpriseOID varbinds) (maxTrapPDU : Nat) (dst : Bytes)
    (pduTag : UInt8) (community : Bytes) (reqID uptimeHundredths : UInt32)
    (encodable : encodableAsOID trapOID = true)
    (enterprise : ¬ (enterpriseOID ≠ [] ∧ ¬ encodableAsOID enterpriseOID)) {appended : Bytes}
    (body : ∀ dst, appendBodyVarbinds pre 0 varbinds dst = .ok (dst ++ appended)) :
    encodeV2cNotificationFast maxTrapPDU dst pduTag community reqID pre trapOID enterpriseOID
        uptimeHundredths varbinds =
      let message := patchedMessage pduTag community reqID trapOID enterpriseOID uptimeHundredths
        appended
      if maxTrapPDU < message.length then .error (.tooLarge message.length maxTrapPDU)
      else .ok message := by
  have version : ∀ dst, appendInteger dst 1 = dst ++ encodeInteger 1 :=
    fun dst => appendInteger_eq dst (by norm_num)
  have zero : ∀ dst, appendInteger dst 0 = dst ++ encodeInteger 0 :=
    fun dst => appendInteger_eq dst (by norm_num)
  have request : ∀ dst, appendInteger dst reqID.toNat = dst ++ encodeInteger reqID.toNat :=
    fun dst => appendInteger_eq dst (by have := reqID.toNat_lt; omega)
  have trap := prepared.appendTrapOID_eq
  have enterprise' := prepared.appendEnterprise_eq
  simp only [encodable, not_true_eq_false, if_false] at trap
  simp only [enterprise, if_false] at enterprise'
  simp only [encodeV2cNotificationFast, version, zero, request, appendOctetString_eq,
    prepared.appendUpTime_eq, trap, enterprise', body, bind, Except.bind]
  simp [endTLV_eq_patchedTLV, List.take_zero, patchedMessage]

/-- Both messages agree when what they carry for the body bindings does. -/
theorem agree_patchedMessage (small : limit < 65536) (pduTag : UInt8) (community : Bytes)
    (reqID : UInt32) (trapOID enterpriseOID : Bytes) (uptimeHundredths : UInt32)
    {appended body : Bytes} (agree : AgreeUpTo limit appended body) :
    AgreeUpTo limit
      (patchedMessage pduTag community reqID trapOID enterpriseOID uptimeHundredths appended)
      (encodeSequence (encodeInteger 1 ++ (encodeOctetString community ++
        encodeTLV pduTag (encodeInteger reqID.toNat ++ (encodeInteger 0 ++ (encodeInteger 0 ++
          encodeSequence (encodeVarbindTimeTicks oidSysUpTime0 uptimeHundredths ++
            (encodeVarbindOID oidSnmpTrapOID0 trapOID ++ if enterpriseOID ≠ [] then
              encodeVarbindOID oidSnmpTrapEnterprise0 enterpriseOID else []) ++ body))))))) := by
  have refl : ∀ bytes : Bytes, AgreeUpTo limit bytes bytes := .refl limit
  have element : ∀ (tag : UInt8) {a b : Bytes}, AgreeUpTo limit a b →
      AgreeUpTo limit (patchedTLV tag a) (encodeTLV tag b) := agree_patchedTLV small
  have optional : AgreeUpTo limit
      (if enterpriseOID ≠ [] then patchedTLV asn1Sequence
        (encodeOID oidSnmpTrapEnterprise0 ++ encodeOID enterpriseOID) else [])
      (if enterpriseOID ≠ [] then encodeVarbindOID oidSnmpTrapEnterprise0 enterpriseOID else []) := by
    split
    · exact element _ (refl _)
    · exact refl _
  refine element _ ((refl _).append ((refl _).append (element _ ((refl _).append ((refl _).append
    ((refl _).append (element _ (AgreeUpTo.append ?_ agree))))))))
  exact (element _ (refl _)).append ((element _ (refl _)).append optional)

/-- **The fast encoder matches the reference.** For every link, mode and notification, and with
nothing prepared or what `precomputeEntry` prepares for its entry, the two encoders produce the same
message, or neither produces one. -/
theorem fast_encoder_matches_reference (link : LinkMTU) (mode : TrapMode) (dst community : Bytes)
    (reqID uptimeHundredths : UInt32) (trapOID enterpriseOID : Bytes) (varbinds : List Varbind)
    (pre : Option PreEncodedEntry) (prepared : PreparedFrom pre trapOID enterpriseOID varbinds) :
    (encodeV2cNotificationFast link.maxTrapPDU dst mode.pduTag community reqID pre trapOID
        enterpriseOID uptimeHundredths varbinds).toOption =
      (encodeV2cNotification mode.pduTag community reqID trapOID enterpriseOID uptimeHundredths
        varbinds link.maxTrapPDU).toOption := by
  have small : link.maxTrapPDU < 65536 := by
    have := link.upper
    unfold LinkMTU.maxTrapPDU
    omega
  by_cases encodable : encodableAsOID trapOID = true
  · by_cases enterprise : enterpriseOID ≠ [] ∧ ¬ encodableAsOID enterpriseOID
    · simp [encodeV2cNotificationFast, prepared.appendTrapOID_eq, prepared.appendEnterprise_eq,
        encodeV2cNotification, encodeNotificationPDU, encodable, enterprise, bind, Except.bind,
        Except.toOption]
    · have bodies := appendBodyVarbinds_eq small pre prepared.preparedFor
      cases body : encodeBodyVarbinds 0 varbinds with
      | error reason =>
        rw [body] at bodies
        simp only [encodeV2cNotificationFast, prepared.appendTrapOID_eq,
          prepared.appendEnterprise_eq, encodeV2cNotification, encodeNotificationPDU, encodable,
          enterprise, bodies, body, bind, Except.bind, Except.map, Except.toOption,
          not_true_eq_false, if_false]
      | ok body' =>
        rw [body] at bodies
        obtain ⟨appended, agree, done⟩ := bodies
        have messages := agree_patchedMessage small mode.pduTag community reqID trapOID
          enterpriseOID uptimeHundredths agree
        rw [encodeV2cNotificationFast_eq prepared _ _ _ _ _ _ encodable enterprise done]
        simp only [encodeV2cNotification, encodeNotificationPDU, encodable, enterprise, body,
          Except.map, not_true_eq_false, if_false]
        have unwrap : ∀ message : Bytes, (if link.maxTrapPDU < message.length then
            .error (.tooLarge message.length link.maxTrapPDU) else .ok message :
              Except NotificationError Bytes).toOption =
            if link.maxTrapPDU < message.length then none else some message := by
          intro message
          split <;> rfl
        rw [unwrap, unwrap]
        exact messages.checked
  · simp [encodeV2cNotificationFast, prepared.appendTrapOID_eq, encodeV2cNotification,
      encodeNotificationPDU, encodable, bind, Except.bind, Except.toOption]

/-- An entry for a link going down, with one literal and one templated identifier. -/
def linkDownEntry : CatalogEntry where
  snmpTrapOID := ascii "1.3.6.1.6.3.1.1.5.3"
  snmpTrapEnterprise := []
  varbinds := [⟨ascii "1.3.6.1.2.1.1.5.0"⟩, ⟨ascii "1.3.6.1.2.1.2.2.1.1." ++ [123, 123, 125, 125]⟩]

/-- The bindings of a notification made from it. -/
def linkDownVarbinds : List Varbind :=
  [⟨ascii "1.3.6.1.2.1.1.5.0", .octetString, ascii "edge-1"⟩,
    ⟨ascii "1.3.6.1.2.1.2.2.1.1.7", .integer, ascii "7"⟩]

theorem describes_linkDownEntry :
    linkDownEntry.Describes (ascii "1.3.6.1.6.3.1.1.5.3") [] linkDownVarbinds := by
  refine ⟨rfl, rfl, fun i vt vb template here literal => ?_⟩
  match i with
  | 0 =>
    cases template
    cases here
    rfl
  | 1 =>
    cases template
    exact absurd literal (by decide)
  | _ + 2 => cases template

theorem fast_encoder_matches_linkDown :
    (encodeV2cNotificationFast 1472 [] asn1TrapV2c (ascii "public") 1
        (some (precomputeEntry linkDownEntry)) (ascii "1.3.6.1.6.3.1.1.5.3") [] 100
        linkDownVarbinds).toOption =
      (encodeV2cNotification asn1TrapV2c (ascii "public") 1 (ascii "1.3.6.1.6.3.1.1.5.3") [] 100
        linkDownVarbinds 1472).toOption :=
  fast_encoder_matches_reference ⟨1500, by decide, by decide⟩ .trap [] (ascii "public") 1 100
    (ascii "1.3.6.1.6.3.1.1.5.3") [] linkDownVarbinds _
    (.inr ⟨linkDownEntry, rfl, describes_linkDownEntry⟩)

end Nl6
