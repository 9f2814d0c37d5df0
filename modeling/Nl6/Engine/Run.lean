import Nl6.Engine.State

/-! # Runs of the state engine

`setLinkState` is the second mutator, beside `setAdminLeaf`. A call of either rewrites the slot it
names and, when the derived status of that interface moves, restamps the subinterfaces that follow
it. `step_fields` and `step_events` say for every interface, named by the call or not, what one call
does to its stored fields and which events it reports. Every property of a run is derived from these
two.
-/

namespace Nl6

namespace InterfaceState

/-! ### The parent table -/

/-- `setParents`: each child's parent, out-of-range entries ignored. The children of an interface are
listed in ascending order. -/
def setParents (s : InterfaceState) (parents : Int → Option Int) : InterfaceState :=
  let parent (c : Fin s.maxIfIndex) := (parents (c + 1)).bind s.slotOf
  { s with
    parent := parent
    children := fun p => (List.finRange s.maxIfIndex).filter fun c => parent c = some p
    children_iff := by simp }

/-- The parent table has one level, and each child is listed once. -/
structure OneLevel (s : InterfaceState) : Prop where
  top : ∀ c p, s.parent c = some p → s.parent p = none
  once : ∀ p, (s.children p).Nodup

theorem slotOf_eq_some {s : InterfaceState} {ifIndex : Int} {slot : Fin s.maxIfIndex} :
    s.slotOf ifIndex = some slot ↔ ifIndex = slot + 1 := by
  rw [slotOf]
  split_ifs with inside
  · rw [Option.some.injEq, Fin.ext_iff]
    constructor
    · intro same
      rw [← same]
      simp only
      omega
    · intro same
      simp only
      omega
  · simp only [false_iff]
    omega

theorem oneLevel_setParents (s : InterfaceState) {parents : Int → Option Int}
    (oneLevel : ∀ c p, parents c = some p → parents p = none) : (s.setParents parents).OneLevel where
  top := by
    intro c p found
    obtain ⟨named, known, slot⟩ := Option.bind_eq_some_iff.mp found
    have top := oneLevel _ _ known
    rw [slotOf_eq_some.mp slot] at top
    change (parents (p + 1)).bind s.slotOf = none
    rw [top]
    rfl
  once := fun p => (List.nodup_finRange _).filter _

/-! ### Mutators -/

inductive LinkMutation where
  | unchanged
  | movedMasked
  | movedVisible
  deriving DecidableEq, Repr

/-- `SetLinkState`: the outcome, the engine after the write and the events the write reports. -/
def setLinkState (s : InterfaceState) (ifIndex newLink : Int) (nowNs : Nat) :
    LinkMutation × InterfaceState × List StateChange :=
  match s.slotOf ifIndex with
  | none => (.unchanged, s, [])
  | some slot =>
    if newLink < operUpStatus ∨ newLink > operLowerLayerDn then (.unchanged, s, [])
    else
      let newLink := newLink.toNat
      let (curLink, curAdmin, curRel) := s.fields slot
      if curLink = newLink then (.unchanged, s, [])
      else
        let pOper := s.parentOper slot
        let wasOper := deriveChildOper curAdmin curLink pOper
        let nowOper := deriveChildOper curAdmin newLink pOper
        if wasOper = nowOper then
          (.movedMasked,
            { s with slots := Function.update s.slots slot (packState newLink curAdmin curRel) }, [])
        else
          let relNs := wallRelNs nowNs s.bootTimeUnixNs
          let written := Function.update s.slots slot (packState newLink curAdmin relNs)
          let event : StateChange :=
            { ifIndex := slot + 1, oper := nowOper, prevOper := wasOper, admin := curAdmin
              link := newLink, lastChangeNs := lastChangeAbs s.bootTimeUnixNs relNs
              changed := .operStatus, atNs := nowNs }
          let (slots, cascaded) :=
            s.cascadeChildren wasOper nowOper nowNs relNs (s.children slot) written
          (.movedVisible, { s with slots }, event :: cascaded)

def applyAdminStatus (s : InterfaceState) (ifIndex target : Int) (nowNs : Nat) :
    InterfaceState × List StateChange :=
  s.setAdminLeaf ifIndex target nowNs

end InterfaceState

inductive Call where
  | setLinkState (ifIndex newLink : Int)
  | applyAdminStatus (ifIndex target : Int)
  deriving DecidableEq, Repr

/-- The interface a call names. -/
def Call.ifIndex : Call → Int
  | setLinkState ifIndex _ => ifIndex
  | applyAdminStatus ifIndex _ => ifIndex

namespace InterfaceState

/-- One call at a clock reading: the engine after it and the events it returns. -/
def step (s : InterfaceState) (call : Call) (nowNs : Nat) : InterfaceState × List StateChange :=
  match call with
  | .setLinkState ifIndex newLink => (s.setLinkState ifIndex newLink nowNs).2
  | .applyAdminStatus ifIndex target => s.applyAdminStatus ifIndex target nowNs

/-- A sequence of calls, each with the clock reading it samples. -/
def run (s : InterfaceState) : List (Call × Nat) → InterfaceState × List StateChange
  | [] => (s, [])
  | (call, nowNs) :: rest =>
    let (next, events) := s.step call nowNs
    let (final, more) := next.run rest
    (final, events ++ more)

/-! ### What is stored -/

/-- `LinkState`: the stored link of an interface. -/
def linkState (s : InterfaceState) (ifIndex : Int) : Nat :=
  match s.slotOf ifIndex with
  | none => operUnknown
  | some slot => (s.fields slot).1

/-- The stored time of the last change, relative to boot. -/
def storedChange (s : InterfaceState) (ifIndex : Int) : Nat :=
  match s.slotOf ifIndex with
  | none => 0
  | some slot => (s.fields slot).2.2

end InterfaceState

/-! ### Slot words -/

/-- A link and an administrative status that fit their three bits and are not the mark of an
unseeded slot. -/
def ValidFields (link admin : Nat) : Prop := 1 ≤ link ∧ link < 8 ∧ 1 ≤ admin ∧ admin < 8

variable {admin link : Nat}

theorem validFields_normaliseSlot (linkLt : link < 8) (adminLt : admin < 8) :
    ValidFields (normaliseSlot link admin).1 (normaliseSlot link admin).2 := by
  by_cases unseededLink : link = 0 <;> by_cases unseededAdmin : admin = 0 <;>
    simp [ValidFields, normaliseSlot, unseededLink, unseededAdmin, operUnknown, adminUp] <;> omega

theorem validFields_slotFields (w : Nat) : ValidFields (slotFields w).1 (slotFields w).2.1 :=
  validFields_normaliseSlot (show w % 2 ^ 3 < 8 by omega) (show w / 2 ^ 3 % 2 ^ 3 < 8 by omega)

theorem slotFields_change_lt (w : Nat) : (slotFields w).2.2 < 2 ^ 58 := Nat.mod_lt _ (by decide)

theorem slotFields_packState (rel : Nat) (valid : ValidFields link admin) :
    slotFields (packState link admin rel) = (link, admin, rel % 2 ^ 58) := by
  obtain ⟨linkPos, linkLt, adminPos, adminLt⟩ := valid
  have link_mod : link % 2 ^ 3 = link := Nat.mod_eq_of_lt (by omega)
  have admin_mod : admin % 2 ^ 3 = admin := Nat.mod_eq_of_lt (by omega)
  rw [slotFields, unpackState_packState, link_mod, admin_mod]
  simp only [normaliseSlot, if_neg (show ¬ link = 0 by omega), if_neg (show ¬ admin = 0 by omega)]

theorem wallRelNs_lt (nowNs bootNs : Nat) : wallRelNs nowNs bootNs < 2 ^ 58 := by
  rw [wallRelNs]
  split
  · decide
  · exact Nat.mod_lt _ (by decide)

namespace InterfaceState

/-! ### The cascade -/

/-- A subinterface's derived status moves when its parent's goes from one value to the other. -/
def follows (wasParent nowParent : Nat) (w : Nat) : Prop :=
  let (link, admin, _) := slotFields w
  deriveChildOper admin link wasParent ≠ deriveChildOper admin link nowParent

instance (wasParent nowParent w : Nat) : Decidable (follows wasParent nowParent w) :=
  inferInstanceAs (Decidable (_ ≠ _))

/-- The event of a subinterface that follows its parent. -/
def cascadeEvent (s : InterfaceState) (wasParent nowParent atNs relNs : Nat)
    (slots : Fin s.maxIfIndex → Nat) (c : Fin s.maxIfIndex) : StateChange :=
  let (link, admin, _) := slotFields (slots c)
  { ifIndex := c + 1
    oper := deriveChildOper admin link nowParent
    prevOper := deriveChildOper admin link wasParent
    admin, link
    lastChangeNs := lastChangeAbs s.bootTimeUnixNs relNs
    changed := .operStatus
    atNs }

/-- **The cascade.** Exactly the listed subinterfaces that follow their parent are restamped and
reported. -/
theorem cascadeChildren_eq (s : InterfaceState) (wasParent nowParent atNs relNs : Nat)
    {listed : List (Fin s.maxIfIndex)} (once : listed.Nodup) (slots : Fin s.maxIfIndex → Nat) :
    s.cascadeChildren wasParent nowParent atNs relNs listed slots =
      (fun c => if c ∈ listed ∧ follows wasParent nowParent (slots c) then
          packState (slotFields (slots c)).1 (slotFields (slots c)).2.1 relNs
        else slots c,
      (listed.filter fun c => follows wasParent nowParent (slots c)).map
        (s.cascadeEvent wasParent nowParent atNs relNs slots)) := by
  induction listed generalizing slots with
  | nil => simp [cascadeChildren]
  | cons first rest ih =>
    obtain ⟨fresh, onceRest⟩ := List.nodup_cons.mp once
    rw [cascadeChildren]
    by_cases moves : follows wasParent nowParent (slots first)
    · have differs : ¬ deriveChildOper (slotFields (slots first)).2.1 (slotFields (slots first)).1
          wasParent = deriveChildOper (slotFields (slots first)).2.1 (slotFields (slots first)).1
          nowParent := moves
      -- the rewritten slot is not listed again, so the rest sees the old words
      have others : ∀ c ∈ rest, Function.update slots first (packState (slotFields (slots first)).1
          (slotFields (slots first)).2.1 relNs) c = slots c := by
        intro c member
        have other : c ≠ first := by
          rintro rfl
          exact fresh member
        exact Function.update_of_ne other _ _
      simp only [differs, ↓reduceIte, ih onceRest, List.filter_cons, moves, decide_true,
        List.map_cons, Prod.mk.injEq, List.cons.injEq]
      refine ⟨?_, rfl, ?_⟩
      · funext c
        by_cases named : c = first
        · subst named
          simp [fresh, moves]
        · simp [named]
      · rw [List.filter_congr fun c member => by rw [others c member]]
        refine List.map_congr_left fun c member => ?_
        rw [cascadeEvent, cascadeEvent, others c (List.mem_of_mem_filter member)]
    · have same : deriveChildOper (slotFields (slots first)).2.1 (slotFields (slots first)).1
          wasParent = deriveChildOper (slotFields (slots first)).2.1 (slotFields (slots first)).1
          nowParent := not_not.mp moves
      simp only [same, ↓reduceIte, ih onceRest, List.filter_cons, moves, decide_false,
        Bool.false_eq_true, Prod.mk.injEq, and_true]
      funext c
      by_cases named : c = first
      · subst named
        simp [fresh, moves]
      · simp [named]

end InterfaceState

/-! ### The shape of a call -/

/-- The link and administrative status a call leaves at the interface it names. -/
def Call.writes (call : Call) (link admin : Nat) : Nat × Nat :=
  match call with
  | .setLinkState _ newLink =>
    (if newLink < operUpStatus ∨ newLink > operLowerLayerDn then link else newLink.toNat, admin)
  | .applyAdminStatus _ target =>
    (link, if target < adminUp ∨ target > adminTesting then admin else target.toNat)

theorem Call.validFields_writes (call : Call) (valid : ValidFields link admin) :
    ValidFields (call.writes link admin).1 (call.writes link admin).2 := by
  obtain ⟨linkPos, linkLt, adminPos, adminLt⟩ := valid
  cases call with
  | setLinkState ifIndex newLink =>
    by_cases refused : newLink < operUpStatus ∨ newLink > operLowerLayerDn
    · simp only [writes, refused, ↓reduceIte]
      exact ⟨linkPos, linkLt, adminPos, adminLt⟩
    · simp only [writes, refused, ↓reduceIte]
      simp only [operUpStatus, operLowerLayerDn, not_or] at refused
      exact ⟨by omega, by omega, adminPos, adminLt⟩
  | applyAdminStatus ifIndex target =>
    by_cases refused : target < adminUp ∨ target > adminTesting
    · simp only [writes, refused, ↓reduceIte]
      exact ⟨linkPos, linkLt, adminPos, adminLt⟩
    · simp only [writes, refused, ↓reduceIte]
      simp only [adminUp, adminTesting, not_or] at refused
      exact ⟨linkPos, linkLt, by omega, by omega⟩

/-- The events about one interface. -/
def eventsOf (ifIndex : Int) (events : List StateChange) : List StateChange :=
  events.filter fun event => (event.ifIndex : Int) = ifIndex

@[simp] theorem eventsOf_nil (ifIndex : Int) : eventsOf ifIndex [] = [] := rfl

theorem eventsOf_cons (ifIndex : Int) (event : StateChange) (events : List StateChange) :
    eventsOf ifIndex (event :: events) =
      if (event.ifIndex : Int) = ifIndex then event :: eventsOf ifIndex events
      else eventsOf ifIndex events := by
  simp [eventsOf, List.filter_cons]

theorem eventsOf_append (ifIndex : Int) (front back : List StateChange) :
    eventsOf ifIndex (front ++ back) = eventsOf ifIndex front ++ eventsOf ifIndex back :=
  List.filter_append ..

namespace InterfaceState

variable (s : InterfaceState)

/-- The derived status of a slot. -/
def oper (slot : Fin s.maxIfIndex) : Nat :=
  deriveChildOper (s.fields slot).2.1 (s.fields slot).1 (s.parentOper slot)

theorem oper_eq (slot : Fin s.maxIfIndex) :
    s.oper slot = deriveChildOper (s.fields slot).2.1 (s.fields slot).1 (s.parentOper slot) := rfl

/-- What both mutators do once they have something to write: store the two fields, stamp the slot if
its derived status moves, and let the move cascade. -/
def write (slot : Fin s.maxIfIndex) (link admin nowNs : Nat) : InterfaceState × List StateChange :=
  let wasOper := s.oper slot
  let nowOper := deriveChildOper admin link (s.parentOper slot)
  let relNs :=
    if wasOper ≠ nowOper then wallRelNs nowNs s.bootTimeUnixNs else (s.fields slot).2.2
  let written := Function.update s.slots slot (packState link admin relNs)
  let event (changed : StateLeaf) : StateChange :=
    { ifIndex := slot + 1, oper := nowOper, prevOper := wasOper, admin, link
      lastChangeNs := lastChangeAbs s.bootTimeUnixNs relNs, changed, atNs := nowNs }
  let adminEvents := if (s.fields slot).2.1 ≠ admin then [event .adminStatus] else []
  if wasOper ≠ nowOper then
    let (slots, cascaded) :=
      s.cascadeChildren wasOper nowOper nowNs relNs (s.children slot) written
    ({ s with slots }, adminEvents ++ event .operStatus :: cascaded)
  else ({ s with slots := written }, adminEvents)

/-- **The shape of a call.** A call either changes nothing or writes one slot. -/
theorem step_eq (call : Call) (nowNs : Nat) :
    s.step call nowNs =
      match s.slotOf call.ifIndex with
      | none => (s, [])
      | some slot =>
        let fields := call.writes (s.fields slot).1 (s.fields slot).2.1
        if fields = ((s.fields slot).1, (s.fields slot).2.1) then (s, [])
        else s.write slot fields.1 fields.2 nowNs := by
  cases call with
  | setLinkState ifIndex newLink =>
    simp only [step, setLinkState, Call.ifIndex, Call.writes]
    cases s.slotOf ifIndex with
    | none => rfl
    | some slot =>
      simp only [Prod.mk.injEq, and_true]
      by_cases refused : newLink < operUpStatus ∨ newLink > operLowerLayerDn
      · simp [refused]
      · by_cases same : (s.fields slot).1 = newLink.toNat
        · simp [refused, same]
        · simp only [refused, ↓reduceIte, same, Ne.symm same, write, oper]
          by_cases masked : deriveChildOper (s.fields slot).2.1 (s.fields slot).1
              (s.parentOper slot) =
            deriveChildOper (s.fields slot).2.1 newLink.toNat (s.parentOper slot)
          · simp [masked]
          · simp [masked]
  | applyAdminStatus ifIndex target =>
    simp only [step, applyAdminStatus, setAdminLeaf, Call.ifIndex, Call.writes]
    cases s.slotOf ifIndex with
    | none => rfl
    | some slot =>
      simp only [Prod.mk.injEq, true_and]
      by_cases refused : target < adminUp ∨ target > adminTesting
      · simp [refused]
      · by_cases same : (s.fields slot).2.1 = target.toNat
        · simp [refused, same]
        · simp only [refused, ↓reduceIte, same, Ne.symm same, write, oper, ne_eq,
            not_false_eq_true]
          by_cases masked : deriveChildOper (s.fields slot).2.1 (s.fields slot).1
              (s.parentOper slot) =
            deriveChildOper target.toNat (s.fields slot).1 (s.parentOper slot)
          · simp [masked]
          · simp [masked]

/-! ### What a write does to every slot -/

/-- The slot words behind a write. -/
def writeSlots (slot : Fin s.maxIfIndex) (link admin nowNs : Nat) (c : Fin s.maxIfIndex) : Nat :=
  let wasOper := s.oper slot
  let nowOper := deriveChildOper admin link (s.parentOper slot)
  let stamp := wallRelNs nowNs s.bootTimeUnixNs
  if c = slot then
    packState link admin (if wasOper ≠ nowOper then stamp else (s.fields slot).2.2)
  else if s.parent c = some slot ∧ wasOper ≠ nowOper ∧ follows wasOper nowOper (s.slots c) then
    packState (s.fields c).1 (s.fields c).2.1 stamp
  else s.slots c

variable {s}

theorem OneLevel.parent_ne (oneLevel : s.OneLevel) (c : Fin s.maxIfIndex) : s.parent c ≠ some c :=
  fun loop => by simpa [loop] using oneLevel.top c c loop

theorem OneLevel.not_mem_children (oneLevel : s.OneLevel) (c : Fin s.maxIfIndex) :
    c ∉ s.children c :=
  fun member => oneLevel.parent_ne c ((s.children_iff c c).mp member)

theorem write_fst (oneLevel : s.OneLevel) (slot : Fin s.maxIfIndex) (link admin nowNs : Nat) :
    (s.write slot link admin nowNs).1 = { s with slots := s.writeSlots slot link admin nowNs } := by
  by_cases moved : s.oper slot ≠ deriveChildOper admin link (s.parentOper slot)
  · simp only [write, moved, ne_eq, not_false_eq_true, ↓reduceIte,
      cascadeChildren_eq s _ _ _ _ (oneLevel.once slot)]
    congr 1
    funext c
    by_cases named : c = slot
    · subst named
      simp [writeSlots, moved, oneLevel.not_mem_children]
    · simp [writeSlots, moved, named, s.children_iff, fields]
  · simp only [write, moved, ↓reduceIte]
    congr 1
    funext c
    by_cases named : c = slot
    · subst named
      simp [writeSlots, moved]
    · simp [writeSlots, moved, named]

section Written

variable (oneLevel : s.OneLevel) (slot : Fin s.maxIfIndex) {link admin : Nat} (nowNs : Nat)
variable (valid : ValidFields link admin)

theorem parentOper_of_parent {c p : Fin s.maxIfIndex} (child : s.parent c = some p) :
    s.parentOper c = deriveOper (s.fields p).2.1 (s.fields p).1 := by
  simp only [parentOper, child]

theorem deriveChildOper_up (admin link : Nat) :
    deriveChildOper admin link operUpStatus = deriveOper admin link := by
  simp [deriveChildOper]

/-- Under a parent table of one level, a parent has no parent of its own. -/
theorem OneLevel.parentOper_eq (oneLevel : s.OneLevel) {c p : Fin s.maxIfIndex}
    (child : s.parent c = some p) : s.parentOper c = s.oper p ∧ s.parentOper p = operUpStatus := by
  have top : s.parentOper p = operUpStatus := by
    simp only [parentOper, oneLevel.top c p child]
  exact ⟨by rw [parentOper_of_parent child, oper, top, deriveChildOper_up], top⟩

/-- The engine behind a write. -/
def written (s : InterfaceState) (slot : Fin s.maxIfIndex) (link admin nowNs : Nat) :
    InterfaceState :=
  { s with slots := s.writeSlots slot link admin nowNs }

include valid in
theorem fields_written_self :
    (s.written slot link admin nowNs).fields slot =
      (link, admin, if s.oper slot ≠ deriveChildOper admin link (s.parentOper slot) then
        wallRelNs nowNs s.bootTimeUnixNs else (s.fields slot).2.2) := by
  have stored : (s.fields slot).2.2 < 2 ^ 58 := slotFields_change_lt _
  have stamp := wallRelNs_lt nowNs s.bootTimeUnixNs
  simp only [written, fields, writeSlots, ↓reduceIte,
    slotFields_packState _ valid, Prod.mk.injEq, true_and]
  refine Nat.mod_eq_of_lt ?_
  split
  · exact stamp
  · exact stored

theorem fields_written_of_ne {c : Fin s.maxIfIndex} (other : c ≠ slot) :
    (s.written slot link admin nowNs).fields c = ((s.fields c).1, (s.fields c).2.1,
      if s.parent c = some slot ∧ s.oper slot ≠ deriveChildOper admin link (s.parentOper slot) ∧
          follows (s.oper slot) (deriveChildOper admin link (s.parentOper slot)) (s.slots c)
      then wallRelNs nowNs s.bootTimeUnixNs else (s.fields c).2.2) := by
  have valid := validFields_slotFields (s.slots c)
  simp only [written, fields, writeSlots, other, ↓reduceIte]
  split
  · rw [slotFields_packState _ valid, Nat.mod_eq_of_lt (wallRelNs_lt _ _)]
  · rfl

include oneLevel

theorem parentOper_written_self :
    (s.written slot link admin nowNs).parentOper slot = s.parentOper slot := by
  cases parent : s.parent slot with
  | none => simp only [parentOper, written, parent]
  | some p =>
    have other : p ≠ slot := by
      rintro rfl
      exact oneLevel.parent_ne p parent
    have same : (s.written slot link admin nowNs).parent slot = some p := parent
    rw [parentOper_of_parent same, parentOper_of_parent parent]
    rw [fields_written_of_ne slot nowNs other]

include valid

theorem oper_written_self :
    (s.written slot link admin nowNs).oper slot =
      deriveChildOper admin link (s.parentOper slot) := by
  refine (oper_eq _ _).trans ?_
  rw [fields_written_self slot nowNs valid, parentOper_written_self oneLevel slot nowNs]

theorem oper_written_child {c : Fin s.maxIfIndex} (child : s.parent c = some slot) :
    s.oper c = deriveChildOper (s.fields c).2.1 (s.fields c).1 (s.oper slot) ∧
      (s.written slot link admin nowNs).oper c =
        deriveChildOper (s.fields c).2.1 (s.fields c).1
          (deriveChildOper admin link (s.parentOper slot)) := by
  have other : c ≠ slot := by
    rintro rfl
    exact oneLevel.parent_ne c child
  obtain ⟨derived, top⟩ := oneLevel.parentOper_eq child
  refine ⟨by rw [oper, derived], ?_⟩
  have same : (s.written slot link admin nowNs).parent c = some slot := child
  refine (oper_eq _ _).trans ?_
  rw [parentOper_of_parent same, fields_written_of_ne slot nowNs other,
    fields_written_self slot nowNs valid, top, deriveChildOper_up]

omit oneLevel valid in
theorem oper_written_other {c : Fin s.maxIfIndex} (other : c ≠ slot)
    (apart : s.parent c ≠ some slot) : (s.written slot link admin nowNs).oper c = s.oper c := by
  have sameParent : (s.written slot link admin nowNs).parentOper c = s.parentOper c := by
    cases parent : s.parent c with
    | none => simp only [parentOper, written, parent]
    | some p =>
      have notNamed : p ≠ slot := by
        rintro rfl
        exact apart parent
      have same : (s.written slot link admin nowNs).parent c = some p := parent
      rw [parentOper_of_parent same, parentOper_of_parent parent]
      rw [fields_written_of_ne slot nowNs notNamed]
  refine (oper_eq _ _).trans ?_
  rw [oper_eq s, sameParent, fields_written_of_ne slot nowNs other]

/-- A subinterface follows its parent exactly when its derived status moves. -/
theorem follows_iff {c : Fin s.maxIfIndex} (child : s.parent c = some slot) :
    follows (s.oper slot) (deriveChildOper admin link (s.parentOper slot)) (s.slots c) ↔
      s.oper c ≠ (s.written slot link admin nowNs).oper c := by
  obtain ⟨was, now⟩ := oper_written_child oneLevel slot nowNs valid child
  rw [was, now]
  exact Iff.rfl

/-- **The stamp.** A write restamps exactly the slots whose derived status it moves. -/
theorem stamp_written (c : Fin s.maxIfIndex) :
    ((s.written slot link admin nowNs).fields c).2.2 =
      if s.oper c ≠ (s.written slot link admin nowNs).oper c then
        wallRelNs nowNs s.bootTimeUnixNs else (s.fields c).2.2 := by
  by_cases named : c = slot
  · subst named
    rw [fields_written_self c nowNs valid,
      oper_written_self oneLevel c nowNs valid]
  · rw [fields_written_of_ne slot nowNs named]
    by_cases child : s.parent c = some slot
    · have follow := follows_iff oneLevel slot nowNs valid child
      obtain ⟨was, now⟩ :=
        oper_written_child oneLevel slot nowNs valid child
      have implied : s.oper c ≠ (s.written slot link admin nowNs).oper c →
          s.oper slot ≠ deriveChildOper admin link (s.parentOper slot) := by
        intro moved same
        rw [was, now, same] at moved
        exact moved rfl
      simp only [child, true_and, follow]
      by_cases moved : s.oper c ≠ (s.written slot link admin nowNs).oper c
      · rw [if_pos ⟨implied moved, moved⟩, if_pos moved]
      · rw [if_neg fun both => moved both.2, if_neg moved]
    · have same : (s.written slot link admin nowNs).oper c = s.oper c :=
        oper_written_other slot nowNs named child
      rw [if_neg fun all => child all.1, if_neg (not_not.mpr same.symm)]

/-! ### What a write reports of every slot -/

/-- The event that reports what a slot moved from and to. -/
def changeEvent (s next : InterfaceState) (c : Fin s.maxIfIndex) (d : Fin next.maxIfIndex)
    (changed : StateLeaf) (nowNs : Nat) : StateChange :=
  { ifIndex := c + 1
    oper := next.oper d
    prevOper := s.oper c
    admin := (next.fields d).2.1
    link := (next.fields d).1
    lastChangeNs := lastChangeAbs next.bootTimeUnixNs (next.fields d).2.2
    changed
    atNs := nowNs }

omit oneLevel valid in
theorem changeEvent_eq (s next : InterfaceState) (c : Fin s.maxIfIndex) (d : Fin next.maxIfIndex)
    (changed : StateLeaf) (nowNs : Nat) :
    s.changeEvent next c d changed nowNs =
      { ifIndex := c + 1, oper := next.oper d, prevOper := s.oper c, admin := (next.fields d).2.1
        link := (next.fields d).1
        lastChangeNs := lastChangeAbs next.bootTimeUnixNs (next.fields d).2.2
        changed, atNs := nowNs } := rfl

omit valid in
theorem write_snd :
    (s.write slot link admin nowNs).2 =
      let nowOper := deriveChildOper admin link (s.parentOper slot)
      let stamp := wallRelNs nowNs s.bootTimeUnixNs
      let event (changed : StateLeaf) : StateChange :=
        { ifIndex := slot + 1, oper := nowOper, prevOper := s.oper slot, admin, link
          lastChangeNs := lastChangeAbs s.bootTimeUnixNs
            (if s.oper slot ≠ nowOper then stamp else (s.fields slot).2.2)
          changed, atNs := nowNs }
      (if (s.fields slot).2.1 ≠ admin then [event .adminStatus] else []) ++
        if s.oper slot ≠ nowOper then
          event .operStatus :: ((s.children slot).filter fun c =>
            follows (s.oper slot) nowOper (s.slots c)).map
              (s.cascadeEvent (s.oper slot) nowOper nowNs stamp s.slots)
        else [] := by
  -- the slot itself is not among its children, so the cascade reads the old words
  have others : ∀ (w : Nat), ∀ c ∈ s.children slot, Function.update s.slots slot w c = s.slots c := by
    intro w c member
    have other : c ≠ slot := by
      rintro rfl
      exact oneLevel.not_mem_children c member
    exact Function.update_of_ne other _ _
  by_cases moved : s.oper slot ≠ deriveChildOper admin link (s.parentOper slot)
  · simp only [write, moved, ne_eq, not_false_eq_true, ↓reduceIte,
      cascadeChildren_eq s _ _ _ _ (oneLevel.once slot)]
    congr 2
    rw [List.filter_congr fun c member => by rw [others _ c member]]
    refine List.map_congr_left fun c member => ?_
    rw [cascadeEvent, cascadeEvent, others _ c (List.mem_of_mem_filter member)]
  · simp [write, moved]

omit oneLevel valid in
theorem eventsOf_map {listed : List (Fin s.maxIfIndex)} (once : listed.Nodup)
    {event : Fin s.maxIfIndex → StateChange} (named : ∀ d, (event d).ifIndex = d + 1)
    (c : Fin s.maxIfIndex) :
    eventsOf (c + 1) (listed.map event) = if c ∈ listed then [event c] else [] := by
  have same : ((fun e : StateChange => decide ((e.ifIndex : Int) = c + 1)) ∘ event) =
      fun d => d == c := by
    funext d
    simp [named, add_left_inj, Nat.cast_inj, Fin.val_inj, Bool.beq_eq_decide_eq]
  rw [eventsOf, List.filter_map, same, List.filter_beq]
  split_ifs with member
  · rw [List.count_eq_one_of_mem once member]
    rfl
  · rw [List.count_eq_zero_of_not_mem member]
    rfl

omit valid in
theorem ifIndex_of_mem_write :
    ∀ event ∈ (s.write slot link admin nowNs).2, ∃ c : Fin s.maxIfIndex, event.ifIndex = c + 1 := by
  intro event member
  rw [write_snd oneLevel slot nowNs] at member
  rcases List.mem_append.mp member with member | member
  · obtain ⟨-, own⟩ := List.mem_ite_nil_right.mp member
    exact ⟨slot, by rw [List.mem_singleton.mp own]⟩
  · obtain ⟨-, visible⟩ := List.mem_ite_nil_right.mp member
    rcases List.mem_cons.mp visible with rfl | cascaded
    · exact ⟨slot, rfl⟩
    · obtain ⟨c, -, rfl⟩ := List.mem_map.mp cascaded
      exact ⟨c, rfl⟩

theorem changeEvent_self (changed : StateLeaf) :
    s.changeEvent (s.written slot link admin nowNs) slot slot changed nowNs =
      { ifIndex := slot + 1
        oper := deriveChildOper admin link (s.parentOper slot)
        prevOper := s.oper slot
        admin, link
        lastChangeNs := lastChangeAbs s.bootTimeUnixNs
          (if s.oper slot ≠ deriveChildOper admin link (s.parentOper slot) then
            wallRelNs nowNs s.bootTimeUnixNs else (s.fields slot).2.2)
        changed
        atNs := nowNs } := by
  refine (changeEvent_eq _ _ _ _ _ _).trans ?_
  rw [fields_written_self slot nowNs valid, oper_written_self oneLevel slot nowNs valid]
  rfl

theorem changeEvent_child {c : Fin s.maxIfIndex} (child : s.parent c = some slot)
    (moved : s.oper c ≠ (s.written slot link admin nowNs).oper c) :
    s.changeEvent (s.written slot link admin nowNs) c c .operStatus nowNs =
      s.cascadeEvent (s.oper slot) (deriveChildOper admin link (s.parentOper slot)) nowNs
        (wallRelNs nowNs s.bootTimeUnixNs) s.slots c := by
  have other : c ≠ slot := by
    rintro rfl
    exact oneLevel.parent_ne c child
  obtain ⟨was, now⟩ := oper_written_child oneLevel slot nowNs valid child
  have stamp := stamp_written oneLevel slot nowNs valid c
  have kept : (s.written slot link admin nowNs).fields c = _ :=
    fields_written_of_ne slot nowNs other
  rw [if_pos moved] at stamp
  refine (changeEvent_eq _ _ _ _ _ _).trans ?_
  rw [stamp, now, was, kept]
  rfl

/-- **The events of a write.** They report every slot whose administrative or derived status moved,
and no other. -/
theorem eventsOf_write (c : Fin s.maxIfIndex) :
    eventsOf (c + 1) (s.write slot link admin nowNs).2 =
      (if (s.fields c).2.1 ≠ ((s.written slot link admin nowNs).fields c).2.1 then
        [s.changeEvent (s.written slot link admin nowNs) c c .adminStatus nowNs] else []) ++
      if s.oper c ≠ (s.written slot link admin nowNs).oper c then
        [s.changeEvent (s.written slot link admin nowNs) c c .operStatus nowNs] else [] := by
  have cascaded := fun nowOper => eventsOf_map ((oneLevel.once slot).filter fun d =>
    decide (follows (s.oper slot) nowOper (s.slots d))) (fun d => rfl :
      ∀ d, (s.cascadeEvent (s.oper slot) nowOper nowNs (wallRelNs nowNs s.bootTimeUnixNs) s.slots
        d).ifIndex = d + 1) c
  rw [write_snd oneLevel slot nowNs]
  simp only [eventsOf_append]
  by_cases named : c = slot
  · subst named
    have noChild : ∀ nowOper, c ∉ (s.children c).filter fun d =>
        decide (follows (s.oper c) nowOper (s.slots d)) :=
      fun _ member => oneLevel.not_mem_children c (List.mem_of_mem_filter member)
    rw [fields_written_self c nowNs valid, oper_written_self oneLevel c nowNs valid]
    simp only [changeEvent_self oneLevel c nowNs valid]
    congr 1
    · by_cases moved : (s.fields c).2.1 ≠ admin
      · simp [if_pos moved, eventsOf_cons, eventsOf_nil]
      · simp only [if_neg moved, eventsOf_nil]
    · by_cases moved : s.oper c ≠ deriveChildOper admin link (s.parentOper c)
      · simp only [if_pos moved, eventsOf_cons, Nat.cast_add, Nat.cast_one, ↓reduceIte, cascaded,
          if_neg (noChild _)]
      · simp only [if_neg moved, eventsOf_nil]
  · have elsewhere : ¬ ((slot : Nat) : Int) + 1 = (c : Nat) + 1 := by
      omega
    have noOwn : ∀ (events : List StateChange) (p : Prop) [Decidable p],
        (∀ event ∈ events, event.ifIndex = slot + 1) →
          eventsOf (c + 1) (if p then events else []) = [] := by
      intro events p _ indexed
      split_ifs
      · refine List.filter_eq_nil_iff.mpr fun event member => ?_
        rw [indexed event member]
        simpa using elsewhere
      · rfl
    rw [noOwn _ _ (by simp), List.nil_append, fields_written_of_ne slot nowNs named]
    simp only [ne_eq, not_true_eq_false, ↓reduceIte, List.nil_append]
    by_cases moved : s.oper c ≠ (s.written slot link admin nowNs).oper c
    · have child : s.parent c = some slot := by
        by_contra apart
        exact moved (oper_written_other slot nowNs named apart).symm
      obtain ⟨was, now⟩ := oper_written_child oneLevel slot nowNs valid child
      have visible : s.oper slot ≠ deriveChildOper admin link (s.parentOper slot) := by
        intro same
        rw [was, now, same] at moved
        exact moved rfl
      have listed : c ∈ (s.children slot).filter fun d =>
          decide (follows (s.oper slot) (deriveChildOper admin link (s.parentOper slot))
            (s.slots d)) := by
        rw [List.mem_filter, s.children_iff, decide_eq_true_iff]
        exact ⟨child, (follows_iff oneLevel slot nowNs valid child).mpr moved⟩
      rw [if_pos visible, if_pos moved, eventsOf_cons, if_neg (by simpa using elsewhere), cascaded,
        if_pos listed, changeEvent_child oneLevel slot nowNs valid child moved]
    · have unlisted : c ∉ (s.children slot).filter fun d =>
          decide (follows (s.oper slot) (deriveChildOper admin link (s.parentOper slot))
            (s.slots d)) := by
        intro member
        rw [List.mem_filter, s.children_iff, decide_eq_true_iff] at member
        exact moved ((follows_iff oneLevel slot nowNs valid member.1).mp member.2)
      rw [if_neg moved]
      by_cases visible : s.oper slot ≠ deriveChildOper admin link (s.parentOper slot)
      · rw [if_pos visible, eventsOf_cons, if_neg (by simpa using elsewhere), cascaded,
          if_neg unlisted]
      · rw [if_neg visible, eventsOf_nil]

end Written

/-! ### What a call does to every interface -/

def parentIndex (s : InterfaceState) (ifIndex : Int) : Option Int :=
  ((s.slotOf ifIndex).bind s.parent).map fun p => (p : Int) + 1

/-- The event that reports an interface between two states of the engine. -/
def reports (s next : InterfaceState) (ifIndex : Int) (changed : StateLeaf) (nowNs : Nat) :
    StateChange :=
  { ifIndex := ifIndex.toNat
    oper := next.operStatus ifIndex
    prevOper := s.operStatus ifIndex
    admin := next.adminStatus ifIndex
    link := next.linkState ifIndex
    lastChangeNs := next.lastChangeNs ifIndex
    changed
    atNs := nowNs }

structure Steps (s : InterfaceState) (call : Call) (nowNs : Nat) (next : InterfaceState)
    (events : List StateChange) : Prop where
  oneLevel : next.OneLevel
  maxIfIndex : next.maxIfIndex = s.maxIfIndex
  bootTime : next.bootTimeUnixNs = s.bootTimeUnixNs
  parentIndex : next.parentIndex = s.parentIndex
  levels : ∀ i, (next.linkState i, next.adminStatus i) =
    if call.ifIndex = i ∧ 1 ≤ i ∧ i ≤ s.maxIfIndex then
      call.writes (s.linkState i) (s.adminStatus i)
    else (s.linkState i, s.adminStatus i)
  stamp : ∀ i, next.storedChange i =
    if s.operStatus i ≠ next.operStatus i then wallRelNs nowNs s.bootTimeUnixNs
    else s.storedChange i
  events : ∀ i, eventsOf i events =
    (if s.adminStatus i ≠ next.adminStatus i then [s.reports next i .adminStatus nowNs] else []) ++
      if s.operStatus i ≠ next.operStatus i then [s.reports next i .operStatus nowNs] else []

theorem slotOf_eq_none {i : Int} : s.slotOf i = none ↔ ¬ (1 ≤ i ∧ i ≤ s.maxIfIndex) := by
  rw [slotOf]
  split_ifs with inside
  · simp [inside]
  · simp [inside]

theorem steps_refl (oneLevel : s.OneLevel) {call : Call} (nowNs : Nat)
    (idle : ∀ i, call.ifIndex = i ∧ 1 ≤ i ∧ i ≤ s.maxIfIndex →
      call.writes (s.linkState i) (s.adminStatus i) = (s.linkState i, s.adminStatus i)) :
    s.Steps call nowNs s [] where
  oneLevel := oneLevel
  maxIfIndex := rfl
  bootTime := rfl
  parentIndex := rfl
  levels := by
    intro i
    split_ifs with named
    · exact (idle i named).symm
    · rfl
  stamp := by simp
  events := by simp

theorem accessors_of_slot {i : Int} {c : Fin s.maxIfIndex} (slot : s.slotOf i = some c) :
    s.linkState i = (s.fields c).1 ∧ s.adminStatus i = (s.fields c).2.1 ∧
      s.storedChange i = (s.fields c).2.2 ∧ s.operStatus i = s.oper c ∧
      s.lastChangeNs i = lastChangeAbs s.bootTimeUnixNs (s.fields c).2.2 := by
  simp only [linkState, adminStatus, storedChange, operStatus, lastChangeNs, slot]
  exact ⟨trivial, trivial, trivial, rfl, rfl⟩

theorem steps_write (oneLevel : s.OneLevel) {call : Call} (nowNs : Nat) {slot : Fin s.maxIfIndex}
    (named : call.ifIndex = slot + 1) {link admin : Nat} (valid : ValidFields link admin)
    (writes : call.writes (s.fields slot).1 (s.fields slot).2.1 = (link, admin)) :
    s.Steps call nowNs (s.written slot link admin nowNs) (s.write slot link admin nowNs).2 where
  oneLevel := ⟨oneLevel.top, oneLevel.once⟩
  maxIfIndex := rfl
  bootTime := rfl
  parentIndex := rfl
  levels := by
    intro i
    cases found : s.slotOf i with
    | none =>
      have outside := slotOf_eq_none.mp found
      have foundNext : (s.written slot link admin nowNs).slotOf i = none := found
      rw [if_neg fun inside => outside inside.2]
      simp only [linkState, adminStatus, found, foundNext]
    | some c =>
      obtain ⟨hasLink, hasAdmin, -⟩ := accessors_of_slot found
      obtain ⟨nextLink, nextAdmin, -⟩ :=
        accessors_of_slot (show (s.written slot link admin nowNs).slotOf i = some c from found)
      have index := slotOf_eq_some.mp found
      rw [hasLink, hasAdmin, nextLink, nextAdmin]
      by_cases same : c = slot
      · subst same
        rw [if_pos ⟨by omega, by omega, by omega⟩, writes,
          fields_written_self c nowNs valid]
      · have other : ¬ call.ifIndex = i := by
          omega
        rw [if_neg fun all => other all.1, fields_written_of_ne slot nowNs same]
  stamp := by
    intro i
    cases found : s.slotOf i with
    | none =>
      have foundNext : (s.written slot link admin nowNs).slotOf i = none := found
      simp [storedChange, operStatus, found, foundNext]
    | some c =>
      obtain ⟨-, -, hasChange, hasOper, -⟩ := accessors_of_slot found
      obtain ⟨-, -, nextChange, nextOper, -⟩ :=
        accessors_of_slot (show (s.written slot link admin nowNs).slotOf i = some c from found)
      rw [hasChange, hasOper, nextChange, nextOper]
      exact stamp_written oneLevel slot nowNs valid c
  events := by
    intro i
    cases found : s.slotOf i with
    | none =>
      have foundNext : (s.written slot link admin nowNs).slotOf i = none := found
      have outside := slotOf_eq_none.mp found
      simp only [adminStatus, operStatus, found, foundNext, ne_eq, not_true_eq_false, ↓reduceIte,
        List.append_nil]
      refine List.filter_eq_nil_iff.mpr fun event member => ?_
      obtain ⟨c, index⟩ := ifIndex_of_mem_write oneLevel slot nowNs event member
      rw [index, decide_eq_true_iff]
      omega
    | some c =>
      obtain ⟨hasLink, hasAdmin, -, hasOper, -⟩ := accessors_of_slot found
      obtain ⟨nextLink, nextAdmin, -, nextOper, nextChange⟩ :=
        accessors_of_slot (show (s.written slot link admin nowNs).slotOf i = some c from found)
      have index := slotOf_eq_some.mp found
      have event : ∀ changed, s.reports (s.written slot link admin nowNs) i changed nowNs =
          s.changeEvent (s.written slot link admin nowNs) c c changed nowNs := by
        intro changed
        rw [reports, hasOper, nextOper, nextAdmin, nextLink, nextChange,
          show i.toNat = c + 1 by omega]
        rfl
      rw [hasAdmin, nextAdmin, hasOper, nextOper, event, event, index]
      exact eventsOf_write oneLevel slot nowNs valid c

/-- **One call.** What it does to every interface. -/
theorem steps (oneLevel : s.OneLevel) (call : Call) (nowNs : Nat) :
    s.Steps call nowNs (s.step call nowNs).1 (s.step call nowNs).2 := by
  rw [step_eq]
  cases found : s.slotOf call.ifIndex with
  | none =>
    refine steps_refl oneLevel nowNs fun i ⟨named, inside⟩ => ?_
    exact absurd (named ▸ inside) (slotOf_eq_none.mp found)
  | some slot =>
    have index := slotOf_eq_some.mp found
    obtain ⟨hasLink, hasAdmin, -⟩ := accessors_of_slot found
    by_cases same : call.writes (s.fields slot).1 (s.fields slot).2.1 =
        ((s.fields slot).1, (s.fields slot).2.1)
    · simp only [same, ↓reduceIte]
      refine steps_refl oneLevel nowNs fun i ⟨named, _⟩ => ?_
      rw [← named, hasLink, hasAdmin, same]
    · simp only [same, ↓reduceIte, write_fst oneLevel]
      exact steps_write oneLevel nowNs index
        (call.validFields_writes (validFields_slotFields (s.slots slot))) rfl

end InterfaceState

end Nl6
