import Nl6.Wire.Encode

/-! # The reference notification encoder

`encodeV2cNotification` builds an SNMPv2c trap or inform innermost first: the bindings, the PDU around
them, the message around the PDU. It refuses an identifier the encoder cannot represent, a value that
does not parse at its type, and a message that does not fit the buffer.
-/

namespace Nl6

open Numeral

/-! ### Notifications -/

def asn1InformRequest : UInt8 := 0xA6
def asn1TrapV2c : UInt8 := 0xA7

/-- `TrapVarbindType`: the eight types of the catalog, or a text that names none of them. -/
inductive TrapVarbindType where
  | integer
  | octetString
  | oid
  | counter32
  | gauge32
  | timeTicks
  | counter64
  | ipAddress
  | unknown (name : Bytes)
  deriving DecidableEq

/-- A resolved binding of a notification. -/
structure Varbind where
  oid : Bytes
  type : TrapVarbindType
  value : Bytes

/-- Why a notification is not sent. The reason a value was refused is given by its binding. -/
inductive NotificationError where
  | snmpTrapOID (oid : Bytes)
  | snmpTrapEnterprise (oid : Bytes)
  | varbindOID (index : Nat) (oid : Bytes)
  | varbindValue (index : Nat) (vb : Varbind)
  | tooLarge (size limit : Nat)

inductive TrapMode where
  | trap
  | inform
  deriving DecidableEq

def TrapMode.pduTag : TrapMode → UInt8
  | .trap => asn1TrapV2c
  | .inform => asn1InformRequest

def oidSysUpTime0 : Bytes := ascii "1.3.6.1.2.1.1.3.0"
def oidSnmpTrapOID0 : Bytes := ascii "1.3.6.1.6.3.1.1.4.1.0"
def oidSnmpTrapEnterprise0 : Bytes := ascii "1.3.6.1.6.3.1.1.4.3.0"

/-- An egress MTU that `SetLinkMTU` accepts. -/
structure LinkMTU where
  mtu : Nat
  lower : 576 ≤ mtu
  upper : mtu ≤ 65535

/-- `maxTrapPDU`: the MTU less the IPv4 and the UDP header. -/
def LinkMTU.maxTrapPDU (link : LinkMTU) : Nat := link.mtu - 20 - 8

/-! ### The encoder -/

def encodeVarbindTimeTicks (oid : Bytes) (value : UInt32) : Bytes :=
  encodeSequence (encodeOID oid ++ encodeUnsigned32 asn1TimeTicks value.toNat)

def encodeVarbindOID (oid value : Bytes) : Bytes := encodeSequence (encodeOID oid ++ encodeOID value)

/-- The value half of `encodeVarbindTyped`. -/
def encodeVarbindValue (vb : Varbind) : Option Bytes :=
  match vb.type with
  | .integer => (parseInt32 vb.value).map encodeInteger
  | .octetString => some (encodeOctetString vb.value)
  | .oid => if encodableAsOID vb.value then some (encodeOID vb.value) else none
  | .counter32 => (parseUint 32 vb.value).map (encodeUnsigned32 asn1Counter32)
  | .gauge32 => (parseUint 32 vb.value).map (encodeUnsigned32 asn1Gauge32)
  | .timeTicks => (parseUint 32 vb.value).map (encodeUnsigned32 asn1TimeTicks)
  | .counter64 => (parseUint 64 vb.value).map encodeCounter64
  | .ipAddress => if (parseIPTo4 vb.value).isNone then none else some (encodeIPAddress vb.value)
  | .unknown _ => none

def encodeVarbindTyped (vb : Varbind) : Option Bytes :=
  (encodeVarbindValue vb).map fun value => encodeSequence (encodeOID vb.oid ++ value)

/-- The loop of `encodeNotificationPDU` over the body bindings. -/
def encodeBodyVarbinds : Nat → List Varbind → Except NotificationError Bytes
  | _, [] => .ok []
  | index, vb :: rest =>
    if ¬ encodableAsOID vb.oid then .error (.varbindOID index vb.oid)
    else
      match encodeVarbindTyped vb with
      | none => .error (.varbindValue index vb)
      | some enc => (encodeBodyVarbinds (index + 1) rest).map (enc ++ ·)

def encodeNotificationPDU (pduTag : UInt8) (reqID : UInt32) (trapOID enterpriseOID : Bytes)
    (uptimeHundredths : UInt32) (varbinds : List Varbind) : Except NotificationError Bytes :=
  if ¬ encodableAsOID trapOID then .error (.snmpTrapOID trapOID)
  else if enterpriseOID ≠ [] ∧ ¬ encodableAsOID enterpriseOID then
    .error (.snmpTrapEnterprise enterpriseOID)
  else
    let prepended := encodeVarbindTimeTicks oidSysUpTime0 uptimeHundredths ++
      (encodeVarbindOID oidSnmpTrapOID0 trapOID ++
        if enterpriseOID ≠ [] then encodeVarbindOID oidSnmpTrapEnterprise0 enterpriseOID else [])
    (encodeBodyVarbinds 0 varbinds).map fun body =>
      encodeTLV pduTag (encodeInteger reqID.toNat ++ (encodeInteger 0 ++ (encodeInteger 0 ++
        encodeSequence (prepended ++ body))))

/-- `encodeV2cNotification` with a buffer of a given size: the message it leaves there. -/
def encodeV2cNotification (pduTag : UInt8) (community : Bytes) (reqID : UInt32)
    (trapOID enterpriseOID : Bytes) (uptimeHundredths : UInt32) (varbinds : List Varbind)
    (bufSize : Nat) : Except NotificationError Bytes :=
  match encodeNotificationPDU pduTag reqID trapOID enterpriseOID uptimeHundredths varbinds with
  | .error reason => .error reason
  | .ok pdu =>
    let envelope := encodeSequence (encodeInteger 1 ++ (encodeOctetString community ++ pdu))
    if bufSize < envelope.length then .error (.tooLarge envelope.length bufSize) else .ok envelope

end Nl6
