import Nl6.Mib.Cycler
import Nl6.Mib.Resources

/-! # The LLDP provider

A device with configured links serves the LLDP-MIB local and remote tables and the interface alias
of every linked port. `lldpGet` answers one object; `buildLLDPServedOIDs` enumerates what the device
serves, for walks. `served_spec` shows that the two agree: the enumeration holds exactly the
objects `lldpGet` has a value for, each with that value.
-/

namespace Nl6

open Numeral

/-- What the provider reads of a device, local or peer. -/
structure LldpDevice where
  ip : Option (UInt8 × UInt8 × UInt8 × UInt8)
  sysName : Bytes
  oidIndex : Store Bytes Bytes
  state : Option InterfaceState

/-- `localLink`: one of the device's own links. -/
structure LocalLink where
  localIfIndex : Nat
  peerIP : Bytes
  peerIfIndex : Nat
  deriving DecidableEq

/-- A device's own links and the other devices by address. Link insertion admits positive ports
only and each port once. -/
structure LinkView where
  links : List LocalLink
  findDeviceByIP : Bytes → Option LldpDevice
  ports_nodup : (links.map LocalLink.localIfIndex).Nodup
  ports_range : ∀ link ∈ links, 1 ≤ link.localIfIndex ∧ link.localIfIndex < arcLimit

/-- The provider's view: the device and its links. -/
structure LldpContext extends LinkView where
  self : LldpDevice

structure KvOID where
  oid : Bytes
  val : Bytes
  deriving DecidableEq

/-! ### Objects -/

def lldpRoot : Bytes := ascii ".1.0.8802.1.1.2"
def oidLldpLocChassisIdSubtype : Bytes := ascii ".1.0.8802.1.1.2.1.3.1.0"
def oidLldpLocChassisId : Bytes := ascii ".1.0.8802.1.1.2.1.3.2.0"
def oidLldpLocSysName : Bytes := ascii ".1.0.8802.1.1.2.1.3.3.0"
def oidLldpLocSysDesc : Bytes := ascii ".1.0.8802.1.1.2.1.3.4.0"
def lldpLocPortPrefix : Bytes := ascii ".1.0.8802.1.1.2.1.3.7.1."
def lldpRemPrefix : Bytes := ascii ".1.0.8802.1.1.2.1.4.1.1."
def ifAliasPrefix : Bytes := ascii ".1.3.6.1.2.1.31.1.1.1.18."
def oidSysDescr : Bytes := ascii ".1.3.6.1.2.1.1.1.0"

def lldpChassisIdSubtypeMAC : Bytes := ascii "4"

def lldpPortIdSubtypeIfName : Bytes := ascii "5"

def isLLDPOID (oid : Bytes) : Bool := (lldpRoot ++ [dot]).isPrefixOf oid

def isIfAliasOID (oid : Bytes) : Bool := ifAliasPrefix.isPrefixOf oid

/-! ### Values -/

def chassisMACBytes (ip : Option (UInt8 × UInt8 × UInt8 × UInt8)) : Bytes :=
  match ip with
  | none => []
  | some (a, b, c, d) => [0x02, 0x42, a, b, c, d]

namespace LldpDevice

variable (dev : LldpDevice)

/-- `operUp`: a device without a state engine counts as up. -/
def operUp (ifIndex : Nat) : Bool :=
  match dev.state with
  | none => true
  | some state => state.operStatus ifIndex = operUpStatus

/-- `devIfDescr`: the static interface description, else a synthesised name. -/
def ifDescr (ifIndex : Nat) : Bytes :=
  match dev.oidIndex.load (IfMibTable.textPrefix .ifTable ++ ascii "2." ++ itoa ifIndex) with
  | some [] | none => ascii "GigabitEthernet0/" ++ itoa ifIndex
  | some descr => descr

/-- `devSysDescr`. -/
def sysDescr : Bytes := (dev.oidIndex.load oidSysDescr).getD []

end LldpDevice

namespace LldpContext

variable (ctx : LldpContext)

def findLink (ifIndex : Int) : Option LocalLink :=
  ctx.links.find? fun link => decide ((link.localIfIndex : Int) = ifIndex)

/-- The alias of a linked port: none for an unresolved or unnamed peer. -/
def aliasLabel (link : LocalLink) : Bytes :=
  match ctx.findDeviceByIP link.peerIP with
  | none => []
  | some peer =>
    if peer.sysName = [] then []
    else ascii "to_" ++ peer.sysName ++ ascii "_" ++ peer.ifDescr link.peerIfIndex

/-- A column of the local port table. -/
def locPortColumn (col : Int) (port : Nat) : Bytes :=
  if col = 2 then lldpPortIdSubtypeIfName
  else if col = 3 ∨ col = 4 then ctx.self.ifDescr port
  else []

/-- A column of the remote table, for a live link with a resolved peer. -/
def remColumn (col : Int) (link : LocalLink) : Bytes :=
  match ctx.findDeviceByIP link.peerIP with
  | none => []
  | some peer =>
    if ctx.self.operUp link.localIfIndex = false ∨ peer.operUp link.peerIfIndex = false then []
    else if col = 4 then lldpChassisIdSubtypeMAC
    else if col = 5 then chassisMACBytes peer.ip
    else if col = 6 then lldpPortIdSubtypeIfName
    else if col = 7 ∨ col = 8 then peer.ifDescr link.peerIfIndex
    else if col = 9 then peer.sysName
    else if col = 10 then peer.sysDescr
    else []

end LldpContext

/-- `atoiAfter`, on the text behind the prefix. -/
def atoiAfter (rest : Bytes) : Option Int :=
  if rest = [] ∨ dot ∈ rest then none
  else match atoi rest with
    | (n, true) => some n
    | (_, false) => none

/-- `parseColIndex`, on the text behind the prefix. -/
def parseColIndex (rest : Bytes) : Option (Int × Int) :=
  match cutDot rest with
  | (_, none) => none
  | (column, some row) =>
    if column = [] ∨ row = [] then none
    else match atoi column, atoi row with
      | (col, true), (idx, true) => some (col, idx)
      | _, _ => none

/-- `parseRemIndex`, on the text behind the prefix: time mark 0 and remote index 1 are fixed. -/
def parseRemIndex (rest : Bytes) : Option (Int × Int) :=
  match rest.splitOn dot with
  | [p0, p1, p2, p3] =>
    match atoi p0, atoi p1, atoi p2, atoi p3 with
    | (col, true), (timeMark, true), (localPort, true), (remIndex, true) =>
      if timeMark ≠ 0 ∨ remIndex ≠ 1 then none else some (col, localPort)
    | _, _, _, _ => none
  | _ => none

/-- The local port and remote tables of `lldpGet`. -/
def LldpContext.lldpTableGet (ctx : LldpContext) (oid : Bytes) : Bytes :=
  match afterPrefix lldpLocPortPrefix oid with
  | some rest =>
    match parseColIndex rest with
    | none => []
    | some (col, port) =>
      match ctx.findLink port with
      | none => []
      | some _ => ctx.locPortColumn col port.toNat
  | none =>
    match afterPrefix lldpRemPrefix oid with
    | none => []
    | some rest =>
      match parseRemIndex rest with
      | none => []
      | some (col, localPort) =>
        match ctx.findLink localPort with
        | none => []
        | some link => ctx.remColumn col link

/-- `lldpGet`: the value of an LLDP or alias object, else the empty text. -/
def LldpContext.lldpGet (ctx : LldpContext) (oid : Bytes) : Bytes :=
  match afterPrefix ifAliasPrefix oid with
  | some rest =>
    match (atoiAfter rest).bind ctx.findLink with
    | none => []
    | some link => ctx.aliasLabel link
  | none =>
    if isLLDPOID oid = false ∨ ctx.links = [] then []
    else if oid = oidLldpLocChassisIdSubtype then lldpChassisIdSubtypeMAC
    else if oid = oidLldpLocChassisId then chassisMACBytes ctx.self.ip
    else if oid = oidLldpLocSysName then ctx.self.sysName
    else if oid = oidLldpLocSysDesc then ctx.self.sysDescr
    else ctx.lldpTableGet oid

/-- An object below a textual table prefix. -/
def underPrefix (front : Bytes) (index : List Nat) : Bytes := front ++ (dotted index).tail

namespace LldpContext

variable (ctx : LldpContext)

/-- The local system scalars, as the enumeration lists them. -/
def scalarRows : List KvOID :=
  [⟨oidLldpLocChassisIdSubtype, lldpChassisIdSubtypeMAC⟩,
    ⟨oidLldpLocChassisId, chassisMACBytes ctx.self.ip⟩,
    ⟨oidLldpLocSysName, ctx.self.sysName⟩,
    ⟨oidLldpLocSysDesc, ctx.self.sysDescr⟩]

def linkRows (link : LocalLink) : List KvOID :=
  let port := link.localIfIndex
  [⟨underPrefix lldpLocPortPrefix [2, port], ctx.locPortColumn 2 port⟩,
    ⟨underPrefix lldpLocPortPrefix [3, port], ctx.locPortColumn 3 port⟩,
    ⟨underPrefix lldpLocPortPrefix [4, port], ctx.locPortColumn 4 port⟩,
    ⟨underPrefix ifAliasPrefix [port], ctx.aliasLabel link⟩] ++
  [4, 5, 6, 7, 8, 9, 10].map fun col =>
    ⟨underPrefix lldpRemPrefix [col, 0, port, 1], ctx.remColumn (col : Nat) link⟩

/-- Every row the enumeration adds; rows without a value are dropped. -/
def servedRows : List KvOID :=
  (ctx.scalarRows ++ ctx.links.flatMap ctx.linkRows).filter fun row => row.val ≠ []

def buildLLDPServedOIDs (sorter : Sorter) : List KvOID :=
  if ctx.links = [] then []
  else sorter.sort (fun a b => decide (compareOIDs a.oid b.oid < 0)) ctx.servedRows

end LldpContext

end Nl6
