import Nl6.Lib.Buffer
import Nl6.Trap.Reference

/-! # The allocation-free notification encoder

`encodeV2cNotificationFast` appends the whole message to one buffer. A constructed element reserves
four octets for its header; once its contents are appended, the header is written back and the
contents are moved down by what it did not need. An identifier reserves one length octet and moves its
contents up when the length needs more. `precomputeEntry` prepares the parts of a catalog entry that
no fire changes.
-/

namespace Nl6

open Numeral Buffer

/-! ### Reserve and patch -/

def tlvHdrReserve : Nat := 4

/-- `beginTLV`: the buffer with a reserved header, and the mark of the header. -/
def beginTLV (dst : Bytes) : Bytes × Nat := (dst ++ List.replicate tlvHdrReserve 0, dst.length)

/-- The header `endTLV` writes for contents of a given length. -/
def tlvHeader (tag : UInt8) (contentLen : Nat) : Bytes :=
  if contentLen < 0x80 then [tag, UInt8.ofNat contentLen]
  else if contentLen < 0x100 then [tag, 0x81, UInt8.ofNat contentLen]
  else [tag, 0x82, UInt8.ofNat (contentLen / 256), UInt8.ofNat contentLen]

def endTLV (dst : Bytes) (mark : Nat) (tag : UInt8) : Bytes :=
  let hdr := tlvHeader tag (dst.length - mark - tlvHdrReserve)
  let n := hdr.length
  let dst :=
    if n < tlvHdrReserve then
      (copyAt dst (mark + n) (dst.drop (mark + tlvHdrReserve))).take
        (dst.length - (tlvHdrReserve - n))
    else dst
  copyAt dst mark hdr

/-! ### Appenders -/

/-- The loop that fills a scratch array with the octets of a length, from its end. -/
def lengthOctets (length : Nat) (filled : Bytes) : Bytes :=
  if length = 0 then filled else lengthOctets (length / 256) (UInt8.ofNat (length % 256) :: filled)
termination_by length

def appendLength (dst : Bytes) (length : Nat) : Bytes :=
  if length < 0x80 then dst ++ [UInt8.ofNat length]
  else
    let octets := lengthOctets length []
    dst ++ [UInt8.ofNat (0x80 + octets.length)] ++ octets

/-- The big-endian octets of a fixed width. -/
def bigEndian : Nat → Nat → Bytes
  | 0, _ => []
  | width + 1, value => bigEndian width (value / 256) ++ [UInt8.ofNat (value % 256)]

/-- The first index from `start` on, below the last, at which the scratch array is not zero. -/
def firstNonzero (tmp : Bytes) : Nat → Nat → Nat
  | 0, start => start
  | left + 1, start => if tmp.getD start 0 = 0 then firstNonzero tmp left (start + 1) else start

def appendInteger (dst : Bytes) (value : Int) : Bytes :=
  let plain (body : Bytes) := appendLength (dst ++ [asn1Integer]) body.length ++ body
  if value = 0 then plain [0x00]
  else if 0 < value then
    -- a zero octet for the sign in front of the eight octets of the value
    let tmp := 0x00 :: bigEndian 8 value.toNat
    let start := firstNonzero tmp 7 1
    let start := if 128 ≤ (tmp.getD start 0).toNat then start - 1 else start
    plain (tmp.drop start)
  else
    let body :=
      if -128 ≤ value then [octetAt value 0]
      else if -32768 ≤ value then [octetAt value 1, octetAt value 0]
      else if -8388608 ≤ value then [octetAt value 2, octetAt value 1, octetAt value 0]
      else [octetAt value 3, octetAt value 2, octetAt value 1, octetAt value 0]
    if Octets.negative body then plain body
    else appendLength (dst ++ [asn1Integer]) (body.length + 1) ++ [0xFF] ++ body

def appendUnsigned32 (dst : Bytes) (tag : UInt8) (value : Nat) : Bytes :=
  let b := stripZeros [octetAt value 3, octetAt value 2, octetAt value 1, octetAt value 0]
  appendLength (dst ++ [tag]) b.length ++ b

def appendOctetString (dst : Bytes) (value : Bytes) : Bytes :=
  appendLength (dst ++ [asn1OctetString]) value.length ++ value

/-- The loop that fills a scratch array with the upper chunks of a sub-identifier, from its end. -/
def componentChunks (value : Nat) (filled : Bytes) : Bytes :=
  if value = 0 then filled
  else componentChunks (value / 128) (UInt8.ofNat (0x80 + value % 128) :: filled)
termination_by value

def appendOIDComponent (dst : Bytes) (value : Nat) : Bytes :=
  if value < 0x80 then dst ++ [UInt8.ofNat value]
  else dst ++ componentChunks (value / 128) [UInt8.ofNat (value % 128)]

/-- The body of the loop of `appendOID`: what the component at `idx` appends, and the first arc. -/
def appendOIDArc (idx : Nat) (first : Int) (dst component : Bytes) : Option (Int × Bytes) :=
  let (v, parsed) := atoi component
  if parsed = false ∨ v < 0 then none
  else if 2 ≤ idx ∧ maxOIDSubIdentifier < v then none
  else if idx = 0 then some (v, dst)
  else if idx = 1 then
    if legalOIDArcPair first v then some (first, appendOIDComponent dst (40 * first + v).toNat)
    else none
  else some (first, appendOIDComponent dst v.toNat)

/-- The loop of `appendOID` over the text: `component` is what was read since the last dot. -/
def appendOIDLoop : Bytes → Bytes → Nat → Int → Bytes → Option Bytes
  | [], component, idx, first, dst => (appendOIDArc idx first dst component).map Prod.snd
  | c :: rest, component, idx, first, dst =>
    if c = dot then
      match appendOIDArc idx first dst component with
      | none => none
      | some (first, dst) => appendOIDLoop rest [] (idx + 1) first dst
    else appendOIDLoop rest (component ++ [c]) idx first dst

/-- The end of `appendOID`: the length octet is written, behind octets opened for a longer form. -/
def patchOIDLength (dst : Bytes) (lenMark bodyLen : Nat) : Bytes :=
  if bodyLen < 0x80 then copyAt dst lenMark [UInt8.ofNat bodyLen]
  else
    let hdr : Bytes :=
      if bodyLen < 0x100 then [0x81, UInt8.ofNat bodyLen]
      else [0x82, UInt8.ofNat (bodyLen / 256), UInt8.ofNat bodyLen]
    let extra := hdr.length - 1
    let body := dst.drop (lenMark + 1)
    let dst := dst ++ List.replicate extra 0
    copyAt (copyAt dst (lenMark + 1 + extra) body) lenMark hdr

def appendOID (dst : Bytes) (oid : Bytes) : Bytes :=
  let oid := if oid.head? = some dot then oid.tail else oid
  let degenerate := dst ++ [asn1ObjectID, 0x00]
  if 1 + oid.count dot < 2 then degenerate
  else
    let lenMark := dst.length + 1
    match appendOIDLoop oid [] 0 0 (dst ++ [asn1ObjectID] ++ [0x00]) with
    | none => degenerate
    | some full =>
      let bodyLen := full.length - (lenMark + 1)
      if maxOIDBodyBytes < bodyLen then degenerate else patchOIDLength full lenMark bodyLen

def appendVarbindValue (dst : Bytes) (vb : Varbind) : Option Bytes :=
  match vb.type with
  | .integer => (parseInt32 vb.value).map (appendInteger dst)
  | .octetString => some (appendOctetString dst vb.value)
  | .oid => if encodableAsOID vb.value then some (appendOID dst vb.value) else none
  | .counter32 => (parseUint 32 vb.value).map (appendUnsigned32 dst asn1Counter32)
  | .gauge32 => (parseUint 32 vb.value).map (appendUnsigned32 dst asn1Gauge32)
  | .timeTicks => (parseUint 32 vb.value).map (appendUnsigned32 dst asn1TimeTicks)
  | .counter64 => (parseUint 64 vb.value).map fun n => dst ++ encodeCounter64 n
  | .ipAddress =>
    if (parseIPTo4 vb.value).isNone then none else some (dst ++ encodeIPAddress vb.value)
  | .unknown _ => none

/-! ### Catalog entries -/

/-- A binding of a catalog entry: the text of its identifier before templates are rendered. -/
structure VarbindTemplate where
  rawOID : Bytes

/-- What the encoder reads of a catalog entry. -/
structure CatalogEntry where
  snmpTrapOID : Bytes
  snmpTrapEnterprise : Bytes
  varbinds : List VarbindTemplate

/-- `preEncodedEntry`: the parts of an entry encoded once. -/
structure PreEncodedEntry where
  sysUpTimeOID : Bytes
  trapOIDVB : Bytes
  enterpriseVB : Option Bytes
  varbindOID : List (Option Bytes)

/-- `isTemplated`: the text contains two opening braces. -/
def isTemplated (raw : Bytes) : Bool :=
  (List.range raw.length).any fun i => List.isPrefixOf [123, 123] (raw.drop i)

/-- A binding of two identifiers, appended with a reserved header. -/
def appendVarbindOID (dst oid value : Bytes) : Bytes :=
  let (dst, m) := beginTLV dst
  endTLV (appendOID (appendOID dst oid) value) m asn1Sequence

def precomputeEntry (e : CatalogEntry) : PreEncodedEntry where
  sysUpTimeOID := appendOID [] oidSysUpTime0
  trapOIDVB :=
    if encodableAsOID e.snmpTrapOID then appendVarbindOID [] oidSnmpTrapOID0 e.snmpTrapOID else []
  enterpriseVB :=
    if e.snmpTrapEnterprise ≠ [] ∧ encodableAsOID e.snmpTrapEnterprise then
      some (appendVarbindOID [] oidSnmpTrapEnterprise0 e.snmpTrapEnterprise)
    else none
  varbindOID := e.varbinds.map fun vt =>
    if isTemplated vt.rawOID = false ∧ encodableAsOID vt.rawOID then some (appendOID [] vt.rawOID)
    else none

/-! ### The encoder -/

/-- The identifier prepared for the body binding at an index, if there is one. -/
def preparedOID (pre : Option PreEncodedEntry) (index : Nat) : Option Bytes :=
  match pre with
  | none => none
  | some pre => (pre.varbindOID[index]?).join

/-- The identifier of the body binding at an index. -/
def appendName (pre : Option PreEncodedEntry) (index : Nat) (vb : Varbind) (dst : Bytes) :
    Except NotificationError Bytes :=
  match preparedOID pre index with
  | some prepared => .ok (dst ++ prepared)
  | none =>
    if ¬ encodableAsOID vb.oid then .error (.varbindOID index vb.oid)
    else .ok (appendOID dst vb.oid)

/-- The loop of `encodeV2cNotificationFast` over the body bindings. -/
def appendBodyVarbinds (pre : Option PreEncodedEntry) :
    Nat → List Varbind → Bytes → Except NotificationError Bytes
  | _, [], dst => .ok dst
  | index, vb :: rest, dst =>
    let (dst, m) := beginTLV dst
    match appendName pre index vb dst with
    | .error reason => .error reason
    | .ok dst =>
      match appendVarbindValue dst vb with
      | none => .error (.varbindValue index vb)
      | some dst => appendBodyVarbinds pre (index + 1) rest (endTLV dst m asn1Sequence)

/-- The binding `sysUpTime.0`. -/
def appendUpTime (pre : Option PreEncodedEntry) (dst : Bytes) (uptimeHundredths : UInt32) : Bytes :=
  let (dst, m) := beginTLV dst
  let dst :=
    match pre with
    | some pre => dst ++ pre.sysUpTimeOID
    | none => appendOID dst oidSysUpTime0
  endTLV (appendUnsigned32 dst asn1TimeTicks uptimeHundredths.toNat) m asn1Sequence

/-- The binding `snmpTrapOID.0`. -/
def appendTrapOID (pre : Option PreEncodedEntry) (dst trapOID : Bytes) :
    Except NotificationError Bytes :=
  let prepared := (pre.map PreEncodedEntry.trapOIDVB).getD []
  if 0 < prepared.length then .ok (dst ++ prepared)
  else if ¬ encodableAsOID trapOID then .error (.snmpTrapOID trapOID)
  else .ok (appendVarbindOID dst oidSnmpTrapOID0 trapOID)

/-- The binding `snmpTrapEnterprise.0`, if there is one. -/
def appendEnterprise (pre : Option PreEncodedEntry) (dst enterpriseOID : Bytes) :
    Except NotificationError Bytes :=
  match pre.bind PreEncodedEntry.enterpriseVB with
  | some prepared => .ok (dst ++ prepared)
  | none =>
    if enterpriseOID ≠ [] then
      if ¬ encodableAsOID enterpriseOID then .error (.snmpTrapEnterprise enterpriseOID)
      else .ok (appendVarbindOID dst oidSnmpTrapEnterprise0 enterpriseOID)
    else .ok dst

/-- `encodeV2cNotificationFast`, into a buffer that is truncated first. -/
def encodeV2cNotificationFast (maxTrapPDU : Nat) (dst : Bytes) (pduTag : UInt8) (community : Bytes)
    (reqID : UInt32) (pre : Option PreEncodedEntry) (trapOID enterpriseOID : Bytes)
    (uptimeHundredths : UInt32) (varbinds : List Varbind) : Except NotificationError Bytes := do
  let (dst, outerMark) := beginTLV (dst.take 0)
  let dst := appendInteger dst 1
  let dst := appendOctetString dst community
  let (dst, pduMark) := beginTLV dst
  let dst := appendInteger dst reqID.toNat
  let dst := appendInteger dst 0
  let dst := appendInteger dst 0
  let (dst, vbMark) := beginTLV dst
  let dst := appendUpTime pre dst uptimeHundredths
  let dst ← appendTrapOID pre dst trapOID
  let dst ← appendEnterprise pre dst enterpriseOID
  let dst ← appendBodyVarbinds pre 0 varbinds dst
  let dst := endTLV dst vbMark asn1Sequence
  let dst := endTLV dst pduMark pduTag
  let dst := endTLV dst outerMark asn1Sequence
  if maxTrapPDU < dst.length then .error (.tooLarge dst.length maxTrapPDU) else .ok dst

end Nl6
