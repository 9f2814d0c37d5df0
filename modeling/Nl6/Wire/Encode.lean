import Nl6.Lib.Octets
import Nl6.Mib.Device
import Nl6.Wire.Types

/-! # The encoders

The BER encoders of the agent, translated byte for byte. Every one of them emits a tag, the length
of its contents and the contents; the contents of the typed values depend on the type the
identifier's column declares.
-/

namespace Nl6

open Numeral

/-- `encodeLength`: the short form below 128, else a count octet and the big-endian octets. -/
def encodeLength (length : Nat) : Bytes :=
  if length < 0x80 then [UInt8.ofNat length]
  else UInt8.ofNat (0x80 + (Octets.ofNat length).length) :: Octets.ofNat length

/-- A tag, the length of the contents and the contents: what every encoder below appends to its
result in this order. -/
def encodeTLV (tag : UInt8) (contents : Bytes) : Bytes :=
  tag :: (encodeLength contents.length ++ contents)

/-- The octet of a two's complement integer at a position, counted from the lowest. -/
def octetAt (value : Int) (position : Nat) : UInt8 :=
  UInt8.ofNat (value / 256 ^ position % 256).toNat

/-- The contents `encodeInteger` gives a positive value: its octets, behind a zero octet when the
top bit would otherwise read as a sign. -/
def positiveOctets (value : Nat) : Bytes :=
  let bytes := Octets.ofNat value
  if Octets.negative bytes then 0x00 :: bytes else bytes

/-- The contents `encodeInteger` gives a negative value: one to four octets by range. Values below
the 32-bit range keep their low four octets only, behind `FF` when those would read positive. -/
def negativeOctets (value : Int) : Bytes :=
  let bytes :=
    if -128 ≤ value then [octetAt value 0]
    else if -32768 ≤ value then [octetAt value 1, octetAt value 0]
    else if -8388608 ≤ value then [octetAt value 2, octetAt value 1, octetAt value 0]
    else [octetAt value 3, octetAt value 2, octetAt value 1, octetAt value 0]
  if Octets.negative bytes then bytes else 0xFF :: bytes

/-- The contents of `encodeInteger`. -/
def integerOctets (value : Int) : Bytes :=
  if value = 0 then [0x00]
  else if 0 < value then positiveOctets value.toNat
  else negativeOctets value

def encodeInteger (value : Int) : Bytes := encodeTLV asn1Integer (integerOctets value)

def encodeOctetString (value : Bytes) : Bytes := encodeTLV asn1OctetString value

def encodeSequence (contents : Bytes) : Bytes := encodeTLV asn1Sequence contents

def encodeNull : Bytes := [asn1Null, 0x00]

/-! ### Object identifiers -/

def maxOIDSubIdentifier : Nat := 0xFFFFFFFF

def maxOIDBodyBytes : Nat := 0xFFFF

/-- `legalOIDArcPair`: the pairs the first sub-identifier can carry. -/
def legalOIDArcPair (first second : Int) : Bool :=
  if first < 0 ∨ second < 0 ∨ 2 < first then false
  else if first < 2 ∧ 39 < second then false
  else decide (40 * first + second ≤ maxOIDSubIdentifier)

/-- `encodeOIDComponent`: the base-128 chunks, highest first, all but the last with the
continuation bit. -/
def encodeOIDComponent (value : Nat) : Bytes :=
  if value < 0x80 then [UInt8.ofNat value]
  else
    match Nat.digits 128 value with
    | [] => []
    | low :: high => (high.reverse.map fun chunk => UInt8.ofNat (0x80 + chunk)) ++ [UInt8.ofNat low]

/-- The loop of `encodeOID` over the arcs behind the first two. -/
def encodeOIDArcs : List Bytes → Option Bytes
  | [] => some []
  | part :: parts =>
    let (value, parsed) := atoi part
    if parsed = false ∨ value < 0 ∨ maxOIDSubIdentifier < value then none
    else (encodeOIDArcs parts).map (encodeOIDComponent value.toNat ++ ·)

/-- `strings.TrimPrefix(oid, ".")` and `strings.Split(oid, ".")`. -/
def encodeOIDParts (oid : Bytes) : List Bytes :=
  (if oid.head? = some dot then oid.tail else oid).splitOn dot

/-- The contents of `encodeOID`, when the text is an identifier it can represent. -/
def oidBody (oid : Bytes) : Option Bytes :=
  match encodeOIDParts oid with
  | part1 :: part2 :: parts =>
    let (first, parsed1) := atoi part1
    let (second, parsed2) := atoi part2
    if parsed1 = false ∨ parsed2 = false ∨ legalOIDArcPair first second = false then none
    else
      match encodeOIDArcs parts with
      | none => none
      | some tail =>
        let encoded := encodeOIDComponent (40 * first + second).toNat ++ tail
        if maxOIDBodyBytes < encoded.length then none else some encoded
  | _ => none

/-- `encodeOID`. A text it cannot represent becomes the degenerate `06 00`. -/
def encodeOID (oid : Bytes) : Bytes :=
  match oidBody oid with
  | some encoded => encodeTLV asn1ObjectID encoded
  | none => [asn1ObjectID, 0x00]

/-- `encodableAsOID`: the encoder did not fall back. -/
def encodableAsOID (value : Bytes) : Bool := encodeOID value ≠ [asn1ObjectID, 0x00]

def encodeVarBind (oid valueBytes : Bytes) : Bytes := encodeSequence (encodeOID oid ++ valueBytes)

/-! ### Application types -/

/-- Dropping leading zero octets, the last octet kept. -/
def stripZeros : Bytes → Bytes
  | [] => []
  | [last] => [last]
  | first :: rest => if first = 0 then stripZeros rest else first :: rest

def encodeUnsigned32 (tag : UInt8) (value : Nat) : Bytes :=
  encodeTLV tag (stripZeros [octetAt value 3, octetAt value 2, octetAt value 1, octetAt value 0])

def encodeCounter64 (value : Nat) : Bytes :=
  encodeTLV asn1Counter64 (stripZeros [octetAt value 7, octetAt value 6, octetAt value 5,
    octetAt value 4, octetAt value 3, octetAt value 2, octetAt value 1, octetAt value 0])

/-- One field of a dotted quad: one to three digits, no leading zero, at most 255. -/
def quadField (field : Bytes) : Option UInt8 :=
  if field = [] ∨ field.all isDigit = false then none
  else if 3 < field.length ∨ (1 < field.length ∧ field.head? = some 48) then none
  else if 255 < readDigits field then none
  else some (UInt8.ofNat (readDigits field))

def parseQuad (text : Bytes) : Option Bytes :=
  match text.splitOn dot with
  | [a, b, c, d] => do return [← quadField a, ← quadField b, ← quadField c, ← quadField d]
  | _ => none

def hexDigit? (c : UInt8) : Option Nat :=
  let n := c.toNat
  if 48 ≤ n ∧ n ≤ 57 then some (n - 48)
  else if 97 ≤ n ∧ n ≤ 102 then some (n - 87)
  else if 65 ≤ n ∧ n ≤ 70 then some (n - 55)
  else none

/-- One group of a colon-separated address: one to four hexadecimal digits. -/
def hexGroup (group : Bytes) : Option Bytes :=
  if group = [] ∨ 4 < group.length then none
  else do
    let digits ← group.mapM hexDigit?
    let value := digits.foldl (fun v d => v * 16 + d) 0
    return [UInt8.ofNat (value / 256), UInt8.ofNat (value % 256)]

/-- A run of colon-separated groups, of which the last may be a dotted quad. -/
def hexGroups : List Bytes → Option Bytes
  | [] => some []
  | [last] => if last.contains dot then parseQuad last else hexGroup last
  | group :: groups => do return (← hexGroup group) ++ (← hexGroups groups)

/-- The sixteen octets of a colon-separated address. The `::` stands for at least one zero
group. -/
def parseColons (text : Bytes) : Option Bytes :=
  let colons : Bytes := ascii "::"
  match (List.range text.length).find? fun i => colons.isPrefixOf (text.drop i) with
  | none => do
      let octets ← hexGroups (text.splitOn 58)
      if octets.length = 16 then some octets else none
  | some i => do
      let groups (part : Bytes) := if part = [] then some [] else hexGroups (part.splitOn 58)
      -- a dotted quad closes the address, so it cannot stand in front of the `::`
      if (text.take i).contains dot then none
      else
        let front ← groups (text.take i)
        let back ← groups (text.drop (i + 2))
        if front.length + back.length ≤ 14 then
          some (front ++ List.replicate (16 - front.length - back.length) 0 ++ back)
        else none

/-- `net.ParseIP(text).To4()`: the four octets of a dotted quad or of an IPv4-mapped IPv6 address.
The first `.` or `:` of the text decides which form it has. -/
def parseIPTo4 (text : Bytes) : Option Bytes :=
  match text.find? fun c => c = dot ∨ c = 58 ∨ c = 37 with
  | some 46 => parseQuad text
  | some 58 => do
      let octets ← parseColons text
      if octets.take 12 = List.replicate 10 0 ++ [0xFF, 0xFF] then some (octets.drop 12) else none
  | _ => none

def encodeIPAddress (text : Bytes) : Bytes :=
  match parseIPTo4 text with
  | some octets => asn1IPAddress :: 0x04 :: octets
  | none => encodeOctetString text

/-- `strconv.ParseUint(text, 10, bits)`. -/
def parseUint (bits : Nat) (text : Bytes) : Option Nat :=
  if text = [] ∨ text.all isDigit = false then none
  else if readDigits text < 2 ^ bits then some (readDigits text) else none

/-- `strconv.ParseInt(text, 10, 32)`. -/
def parseInt32 (text : Bytes) : Option Int :=
  match atoi text with
  | (value, true) => if -2 ^ 31 ≤ value ∧ value < 2 ^ 31 then some value else none
  | (_, false) => none

/-- The branch of `encodeTypedValueAtTag` for the unsigned 32-bit types. A negative value wraps. -/
def encodeTyped32 (tag : UInt8) (value : Bytes) : Bytes :=
  match parseUint 32 value with
  | some u => encodeUnsigned32 tag u
  | none =>
    match parseInt32 value with
    | some i => encodeUnsigned32 tag (i % 2 ^ 32).toNat
    | none => encodeOctetString value

def encodeTypedValueAtTag (value : Bytes) (tag : UInt8) : Bytes :=
  if tag = asn1OctetString then encodeOctetString value
  else if tag = asn1ObjectID then encodeOID value
  else if tag = asn1IPAddress then encodeIPAddress value
  else if tag = asn1Counter32 ∨ tag = asn1Gauge32 ∨ tag = asn1TimeTicks then encodeTyped32 tag value
  else if tag = asn1Counter64 then
    match parseUint 64 value with
    | some u => encodeCounter64 u
    | none => encodeOctetString value
  else
    match atoi value with
    | (i, true) => encodeInteger i
    | (_, false) => encodeOctetString value

/-- `encodeTypedValue`. The two exception sentinels are tested before the type. -/
def encodeTypedValue (oid value : Bytes) : Bytes :=
  if value = valueEndOfMibView then [asn1EndOfMibView, 0x00]
  else if value = valueNoSuchObject then [asn1NoSuchObject, 0x00]
  else encodeTypedValueAtTag value (snmpTypeTag oid)

end Nl6
