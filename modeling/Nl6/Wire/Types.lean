import Nl6.Lib.Numeral

/-! # Tags, error statuses and the type table

The ASN.1 tags and SNMP constants the agent uses, and `snmpTypeTag`, which assigns every object
identifier the type its MIB column declares.
-/

namespace Nl6

open Numeral

/-! ### ASN.1 tags -/

def asn1Sequence : UInt8 := 0x30
def asn1Integer : UInt8 := 0x02
def asn1OctetString : UInt8 := 0x04
def asn1Null : UInt8 := 0x05
def asn1ObjectID : UInt8 := 0x06
def asn1GetRequest : UInt8 := 0xA0
def asn1GetNext : UInt8 := 0xA1
def asn1GetResponse : UInt8 := 0xA2
def asn1SetRequest : UInt8 := 0xA3
def asn1GetBulk : UInt8 := 0xA5
def asn1IPAddress : UInt8 := 0x40
def asn1Counter32 : UInt8 := 0x41
def asn1Gauge32 : UInt8 := 0x42
def asn1TimeTicks : UInt8 := 0x43
def asn1Counter64 : UInt8 := 0x46

/-- The exception `noSuchObject` in the value position of a binding. -/
def asn1NoSuchObject : UInt8 := 0x80

/-- The exception `endOfMibView` in the value position of a binding. -/
def asn1EndOfMibView : UInt8 := 0x82

/-! ### The type table -/

/-- A column of the MIB and the type its values are encoded at. -/
structure OidTypeEntry where
  column : Bytes
  tag : UInt8

def oidTypeTable : List OidTypeEntry :=
  [
    -- the system group
    ⟨ascii ".1.3.6.1.2.1.1.2", asn1ObjectID⟩,
    ⟨ascii ".1.3.6.1.2.1.1.3", asn1TimeTicks⟩,
    -- entPhysicalTable
    ⟨ascii ".1.3.6.1.2.1.47.1.1.1.1.3", asn1ObjectID⟩,
    -- ifTable
    ⟨ascii ".1.3.6.1.2.1.2.2.1.5", asn1Gauge32⟩,
    ⟨ascii ".1.3.6.1.2.1.2.2.1.9", asn1TimeTicks⟩,
    ⟨ascii ".1.3.6.1.2.1.2.2.1.10", asn1Counter32⟩,
    ⟨ascii ".1.3.6.1.2.1.2.2.1.11", asn1Counter32⟩,
    ⟨ascii ".1.3.6.1.2.1.2.2.1.12", asn1Counter32⟩,
    ⟨ascii ".1.3.6.1.2.1.2.2.1.13", asn1Counter32⟩,
    ⟨ascii ".1.3.6.1.2.1.2.2.1.14", asn1Counter32⟩,
    ⟨ascii ".1.3.6.1.2.1.2.2.1.15", asn1Counter32⟩,
    ⟨ascii ".1.3.6.1.2.1.2.2.1.16", asn1Counter32⟩,
    ⟨ascii ".1.3.6.1.2.1.2.2.1.17", asn1Counter32⟩,
    ⟨ascii ".1.3.6.1.2.1.2.2.1.18", asn1Counter32⟩,
    ⟨ascii ".1.3.6.1.2.1.2.2.1.19", asn1Counter32⟩,
    ⟨ascii ".1.3.6.1.2.1.2.2.1.20", asn1Counter32⟩,
    ⟨ascii ".1.3.6.1.2.1.2.2.1.21", asn1Gauge32⟩,
    -- ifXTable
    ⟨ascii ".1.3.6.1.2.1.31.1.1.1.2", asn1Counter32⟩,
    ⟨ascii ".1.3.6.1.2.1.31.1.1.1.3", asn1Counter32⟩,
    ⟨ascii ".1.3.6.1.2.1.31.1.1.1.4", asn1Counter32⟩,
    ⟨ascii ".1.3.6.1.2.1.31.1.1.1.5", asn1Counter32⟩,
    ⟨ascii ".1.3.6.1.2.1.31.1.1.1.6", asn1Counter64⟩,
    ⟨ascii ".1.3.6.1.2.1.31.1.1.1.7", asn1Counter64⟩,
    ⟨ascii ".1.3.6.1.2.1.31.1.1.1.8", asn1Counter64⟩,
    ⟨ascii ".1.3.6.1.2.1.31.1.1.1.9", asn1Counter64⟩,
    ⟨ascii ".1.3.6.1.2.1.31.1.1.1.10", asn1Counter64⟩,
    ⟨ascii ".1.3.6.1.2.1.31.1.1.1.11", asn1Counter64⟩,
    ⟨ascii ".1.3.6.1.2.1.31.1.1.1.12", asn1Counter64⟩,
    ⟨ascii ".1.3.6.1.2.1.31.1.1.1.13", asn1Counter64⟩,
    ⟨ascii ".1.3.6.1.2.1.31.1.1.1.15", asn1Gauge32⟩,
    ⟨ascii ".1.3.6.1.2.1.31.1.1.1.19", asn1TimeTicks⟩,
    -- the 64-bit columns of ipSystemStatsTable
    ⟨ascii ".1.3.6.1.2.1.4.31.1.1.4", asn1Counter64⟩,
    ⟨ascii ".1.3.6.1.2.1.4.31.1.1.6", asn1Counter64⟩,
    ⟨ascii ".1.3.6.1.2.1.4.31.1.1.13", asn1Counter64⟩,
    ⟨ascii ".1.3.6.1.2.1.4.31.1.1.19", asn1Counter64⟩,
    ⟨ascii ".1.3.6.1.2.1.4.31.1.1.21", asn1Counter64⟩,
    ⟨ascii ".1.3.6.1.2.1.4.31.1.1.24", asn1Counter64⟩,
    ⟨ascii ".1.3.6.1.2.1.4.31.1.1.31", asn1Counter64⟩,
    ⟨ascii ".1.3.6.1.2.1.4.31.1.1.33", asn1Counter64⟩,
    ⟨ascii ".1.3.6.1.2.1.4.31.1.1.35", asn1Counter64⟩,
    ⟨ascii ".1.3.6.1.2.1.4.31.1.1.37", asn1Counter64⟩,
    ⟨ascii ".1.3.6.1.2.1.4.31.1.1.39", asn1Counter64⟩,
    ⟨ascii ".1.3.6.1.2.1.4.31.1.1.41", asn1Counter64⟩,
    ⟨ascii ".1.3.6.1.2.1.4.31.1.1.43", asn1Counter64⟩,
    ⟨ascii ".1.3.6.1.2.1.4.31.1.1.45", asn1Counter64⟩,
    -- the 64-bit columns of ipIfStatsTable
    ⟨ascii ".1.3.6.1.2.1.4.31.3.1.4", asn1Counter64⟩,
    ⟨ascii ".1.3.6.1.2.1.4.31.3.1.6", asn1Counter64⟩,
    ⟨ascii ".1.3.6.1.2.1.4.31.3.1.13", asn1Counter64⟩,
    ⟨ascii ".1.3.6.1.2.1.4.31.3.1.19", asn1Counter64⟩,
    ⟨ascii ".1.3.6.1.2.1.4.31.3.1.21", asn1Counter64⟩,
    ⟨ascii ".1.3.6.1.2.1.4.31.3.1.24", asn1Counter64⟩,
    ⟨ascii ".1.3.6.1.2.1.4.31.3.1.31", asn1Counter64⟩,
    ⟨ascii ".1.3.6.1.2.1.4.31.3.1.33", asn1Counter64⟩,
    ⟨ascii ".1.3.6.1.2.1.4.31.3.1.35", asn1Counter64⟩,
    ⟨ascii ".1.3.6.1.2.1.4.31.3.1.37", asn1Counter64⟩,
    ⟨ascii ".1.3.6.1.2.1.4.31.3.1.39", asn1Counter64⟩,
    ⟨ascii ".1.3.6.1.2.1.4.31.3.1.41", asn1Counter64⟩,
    ⟨ascii ".1.3.6.1.2.1.4.31.3.1.43", asn1Counter64⟩,
    ⟨ascii ".1.3.6.1.2.1.4.31.3.1.45", asn1Counter64⟩,
    -- dot3HCStatsTable
    ⟨ascii ".1.3.6.1.2.1.10.7.11.1.1", asn1Counter64⟩,
    ⟨ascii ".1.3.6.1.2.1.10.7.11.1.2", asn1Counter64⟩,
    ⟨ascii ".1.3.6.1.2.1.10.7.11.1.3", asn1Counter64⟩,
    ⟨ascii ".1.3.6.1.2.1.10.7.11.1.4", asn1Counter64⟩,
    ⟨ascii ".1.3.6.1.2.1.10.7.11.1.5", asn1Counter64⟩,
    ⟨ascii ".1.3.6.1.2.1.10.7.11.1.6", asn1Counter64⟩,
    -- ipAddrTable, ipRouteTable and ipNetToMediaTable
    ⟨ascii ".1.3.6.1.2.1.4.20.1.1", asn1IPAddress⟩,
    ⟨ascii ".1.3.6.1.2.1.4.20.1.3", asn1IPAddress⟩,
    ⟨ascii ".1.3.6.1.2.1.4.21.1.1", asn1IPAddress⟩,
    ⟨ascii ".1.3.6.1.2.1.4.21.1.7", asn1IPAddress⟩,
    ⟨ascii ".1.3.6.1.2.1.4.21.1.11", asn1IPAddress⟩,
    ⟨ascii ".1.3.6.1.2.1.4.22.1.3", asn1IPAddress⟩,
    -- ifAlias is a display string, also when it looks like a number
    ⟨ascii ".1.3.6.1.2.1.31.1.1.1.18", asn1OctetString⟩,
    -- the counters of the user-based security model
    ⟨ascii ".1.3.6.1.6.3.15.1.1", asn1Counter32⟩,
    -- freeMem
    ⟨ascii ".1.3.6.1.4.1.9.2.1.8", asn1Gauge32⟩,
    -- the string columns of the LLDP tables
    ⟨ascii ".1.0.8802.1.1.2.1.3.2", asn1OctetString⟩,
    ⟨ascii ".1.0.8802.1.1.2.1.3.3", asn1OctetString⟩,
    ⟨ascii ".1.0.8802.1.1.2.1.3.4", asn1OctetString⟩,
    ⟨ascii ".1.0.8802.1.1.2.1.3.7.1.3", asn1OctetString⟩,
    ⟨ascii ".1.0.8802.1.1.2.1.3.7.1.4", asn1OctetString⟩,
    ⟨ascii ".1.0.8802.1.1.2.1.4.1.1.5", asn1OctetString⟩,
    ⟨ascii ".1.0.8802.1.1.2.1.4.1.1.7", asn1OctetString⟩,
    ⟨ascii ".1.0.8802.1.1.2.1.4.1.1.8", asn1OctetString⟩,
    ⟨ascii ".1.0.8802.1.1.2.1.4.1.1.9", asn1OctetString⟩,
    ⟨ascii ".1.0.8802.1.1.2.1.4.1.1.10", asn1OctetString⟩]

/-- The test of `typeTagIn`: the column itself, or an identifier below it. -/
def OidTypeEntry.covers (entry : OidTypeEntry) (oid : Bytes) : Bool :=
  oid = entry.column || (entry.column ++ [dot]).isPrefixOf oid

/-- `typeTagIn`: the tag of the first entry that covers the identifier, or zero. -/
def typeTagIn (table : List OidTypeEntry) (oid : Bytes) : UInt8 :=
  match table.find? fun entry => entry.covers oid with
  | some entry => entry.tag
  | none => 0

def snmpTypeTag (oid : Bytes) : UInt8 := typeTagIn oidTypeTable oid

end Nl6
