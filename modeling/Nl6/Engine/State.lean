import Mathlib

/-! # The interface state engine

Every interface slot holds one packed word: a 3-bit link state, a 3-bit administrative status and a
58-bit time of the last operational change, relative to the engine's boot. The operational status is
never stored; it is derived from the slot and from the slot of the parent interface.

`setAdminLeaf` is the mutation behind an administrative write: it rewrites the slot, stamps the
change time when the derived status moves, and lets the transition cascade to the subinterfaces. A
call models one uncontended compare-and-swap round. Slots are indexed by `Fin`, so a slot outside
the engine cannot be named.
-/

namespace Nl6

/-! ### Status codes of IF-MIB -/

def operUpStatus : Nat := 1
def operDown : Nat := 2
def operTesting : Nat := 3
def operUnknown : Nat := 4
def operLowerLayerDn : Nat := 7

def adminUp : Nat := 1
def adminDown : Nat := 2
def adminTesting : Nat := 3

/-! ### Slot words -/

/-- `lastChangeMask`: the largest 58-bit value, also the mark of a clock that stepped back. -/
def lastChangeMask : Nat := 2 ^ 58 - 1

/-- `LastChangeRewindSentinel`: the largest 64-bit value. -/
def lastChangeRewindSentinel : Nat := 2 ^ 64 - 1

/-- `packState`: the three fields of a slot in one word. The fields are disjoint, so the bitwise
union is a sum. -/
def packState (link admin lastChangeNs : Nat) : Nat :=
  link % 2 ^ 3 + admin % 2 ^ 3 * 2 ^ 3 + lastChangeNs % 2 ^ 58 * 2 ^ 6

def unpackState (w : Nat) : Nat × Nat × Nat :=
  (w % 2 ^ 3, w / 2 ^ 3 % 2 ^ 3, w / 2 ^ 6 % 2 ^ 58)

/-- `normaliseSlot`: an unseeded slot reads as link unknown, admin up. -/
def normaliseSlot (link admin : Nat) : Nat × Nat :=
  (if link = 0 then operUnknown else link, if admin = 0 then adminUp else admin)

theorem unpackState_packState (link admin lastChangeNs : Nat) :
    unpackState (packState link admin lastChangeNs) =
      (link % 2 ^ 3, admin % 2 ^ 3, lastChangeNs % 2 ^ 58) := by
  simp only [unpackState, packState, Prod.mk.injEq]
  refine ⟨?_, ?_, ?_⟩ <;> omega

/-- A word's link, admin and relative change time, normalised. -/
def slotFields (w : Nat) : Nat × Nat × Nat :=
  let (link, admin, rel) := unpackState w
  let (link, admin) := normaliseSlot link admin
  (link, admin, rel)

/-! ### Derived status -/

def deriveOper (admin link : Nat) : Nat :=
  if admin = adminDown then operDown
  else if admin = adminTesting then operTesting
  else link

/-- `deriveChildOper`: an interface that would be up follows a parent that is not. -/
def deriveChildOper (admin link parentOper : Nat) : Nat :=
  if deriveOper admin link = operUpStatus ∧ parentOper ≠ operUpStatus then operLowerLayerDn
  else deriveOper admin link

/-- `InterfaceState`. The child lists are the inverse of the parent table. -/
structure InterfaceState where
  maxIfIndex : Nat
  slots : Fin maxIfIndex → Nat
  bootTimeUnixNs : Nat
  parent : Fin maxIfIndex → Option (Fin maxIfIndex)
  children : Fin maxIfIndex → List (Fin maxIfIndex)
  children_iff : ∀ p c, c ∈ children p ↔ parent c = some p

theorem InterfaceState.lone_children_iff (p c : Fin 1) : c ∈ [] ↔ none = some p := by simp

/-- The status leaf an event reports. -/
inductive StateLeaf where
  | operStatus
  | adminStatus
  deriving DecidableEq, Repr

structure StateChange where
  ifIndex : Nat
  oper : Nat
  prevOper : Nat
  admin : Nat
  link : Nat
  lastChangeNs : Nat
  changed : StateLeaf
  atNs : Nat
  deriving DecidableEq, Repr

namespace InterfaceState

variable (s : InterfaceState)

/-- The slot of an interface index, if the engine has one. -/
def slotOf (ifIndex : Int) : Option (Fin s.maxIfIndex) :=
  if inside : 1 ≤ ifIndex ∧ ifIndex ≤ s.maxIfIndex then some ⟨(ifIndex - 1).toNat, by omega⟩
  else none

def fields (slot : Fin s.maxIfIndex) : Nat × Nat × Nat := slotFields (s.slots slot)

/-- `parentOper`: the derived status of the parent, or up without one. -/
def parentOper (slot : Fin s.maxIfIndex) : Nat :=
  match s.parent slot with
  | none => operUpStatus
  | some p => let (link, admin, _) := s.fields p; deriveOper admin link

def operStatus (ifIndex : Int) : Nat :=
  match s.slotOf ifIndex with
  | none => operUnknown
  | some slot =>
    let (link, admin, _) := s.fields slot
    deriveChildOper admin link (s.parentOper slot)

def adminStatus (ifIndex : Int) : Nat :=
  match s.slotOf ifIndex with
  | none => adminUp
  | some slot => (s.fields slot).2.1

def lastChangeNs (ifIndex : Int) : Nat :=
  match s.slotOf ifIndex with
  | none => 0
  | some slot =>
    if (s.fields slot).2.2 = lastChangeMask then lastChangeRewindSentinel
    else (s.bootTimeUnixNs + (s.fields slot).2.2) % 2 ^ 64

end InterfaceState

/-- `wallRelNs`: time since boot, or the mark of a clock that stepped back. -/
def wallRelNs (nowWallNs bootWallNs : Nat) : Nat :=
  if nowWallNs < bootWallNs then lastChangeMask else (nowWallNs - bootWallNs) % 2 ^ 58

def lastChangeAbs (bootTimeUnixNs relNs : Nat) : Nat :=
  if relNs = lastChangeMask then lastChangeRewindSentinel else (bootTimeUnixNs + relNs) % 2 ^ 64

namespace InterfaceState

/-- `cascadeChildren`: restamp every listed subinterface whose derived status follows its parent's
transition, and report it. -/
def cascadeChildren (s : InterfaceState) (wasParent nowParent atNs relNs : Nat) :
    List (Fin s.maxIfIndex) → (Fin s.maxIfIndex → Nat) →
      (Fin s.maxIfIndex → Nat) × List StateChange
  | [], slots => (slots, [])
  | c :: rest, slots =>
    let (link, admin, _) := slotFields (slots c)
    let was := deriveChildOper admin link wasParent
    let now := deriveChildOper admin link nowParent
    if was = now then cascadeChildren s wasParent nowParent atNs relNs rest slots
    else
      let (slots, events) := cascadeChildren s wasParent nowParent atNs relNs rest
        (Function.update slots c (packState link admin relNs))
      (slots,
        { ifIndex := c + 1, oper := now, prevOper := was, admin, link
          lastChangeNs := lastChangeAbs s.bootTimeUnixNs relNs
          changed := .operStatus, atNs } :: events)

/-- `setAdminLeaf` (and `ApplyAdminStatus`, which only calls it): the engine after the write and the
events the write reports. -/
def setAdminLeaf (s : InterfaceState) (ifIndex newVal : Int) (nowNs : Nat) :
    InterfaceState × List StateChange :=
  match s.slotOf ifIndex with
  | none => (s, [])
  | some slot =>
    if newVal < adminUp ∨ newVal > adminTesting then (s, [])
    else
      let newVal := newVal.toNat
      let (curLink, curAdmin, curRel) := s.fields slot
      if curAdmin = newVal then (s, [])
      else
        let pOper := s.parentOper slot
        let wasOper := deriveChildOper curAdmin curLink pOper
        let nowOper := deriveChildOper newVal curLink pOper
        let relNs := if wasOper ≠ nowOper then wallRelNs nowNs s.bootTimeUnixNs else curRel
        let written := Function.update s.slots slot (packState curLink newVal relNs)
        let event : StateLeaf → StateChange := fun changed =>
          { ifIndex := slot + 1, oper := nowOper, prevOper := wasOper, admin := newVal
            link := curLink, lastChangeNs := lastChangeAbs s.bootTimeUnixNs relNs
            changed, atNs := nowNs }
        if wasOper ≠ nowOper then
          let (slots, cascaded) :=
            s.cascadeChildren wasOper nowOper nowNs relNs (s.children slot) written
          ({ s with slots }, event .adminStatus :: event .operStatus :: cascaded)
        else ({ s with slots := written }, [event .adminStatus])

end InterfaceState

end Nl6
