import Nl6.Engine.Replay

/-! # Link notifications

`linkRoleFor` picks the notification of an operational event from the two statuses it names. A
collector pairs a linkDown with the linkUp that clears it, so the roles of one interface should
alternate and the last one should say whether the interface is down. `link_roles_pair_iff` says for
which sequences of calls they do. What the calls ask for is described without the engine, by the
last valid link and administrative status written to every interface (`statusAfter`).
-/

namespace Nl6

/-- The roles a state change can fire. -/
inductive LinkRole where
  | linkUp
  | linkDown
  deriving DecidableEq, Repr

def linkRoleFor (event : StateChange) : Option LinkRole :=
  if event.oper = operUpStatus then
    if event.prevOper = operLowerLayerDn then none else some .linkUp
  else if event.oper = operDown then some .linkDown
  else none

/-- The roles the notify hook fires for an interface: `Broadcast` hands it the operational events
only. -/
def rolesOf (i : Int) (events : List StateChange) : List LinkRole :=
  ((eventsOf i events).filter fun event => event.changed = .operStatus).filterMap linkRoleFor

theorem rolesOf_append (i : Int) (front back : List StateChange) :
    rolesOf i (front ++ back) = rolesOf i front ++ rolesOf i back := by
  rw [rolesOf, eventsOf_append, List.filter_append, List.filterMap_append]
  rfl

/-- The last role fired, linkUp when none was. -/
def lastRole (roles : List LinkRole) : LinkRole := roles.getLast?.getD .linkUp

namespace InterfaceState

/-! ### What the calls ask for -/

/-- The derived status of an interface, given every interface's link and administrative status. -/
def derivedStatus (parent : Int → Option Int) (levels : Int → Nat × Nat) (i : Int) : Nat :=
  deriveChildOper (levels i).2 (levels i).1
    (match parent i with
    | none => operUpStatus
    | some p => deriveOper (levels p).2 (levels p).1)

def levels (s : InterfaceState) (i : Int) : Nat × Nat := (s.linkState i, s.adminStatus i)

/-- A call overwrites one of the two at the interface it names, if there is one and the value is
valid. -/
def writeLevels (maxIfIndex : Nat) (levels : Int → Nat × Nat) (call : Call) (i : Int) : Nat × Nat :=
  if call.ifIndex = i ∧ 1 ≤ i ∧ i ≤ maxIfIndex then call.writes (levels i).1 (levels i).2
  else levels i

def statusAfter (s : InterfaceState) (calls : List (Call × Nat)) (i : Int) : Nat :=
  derivedStatus s.parentIndex
    (calls.foldl (fun levels call => writeLevels s.maxIfIndex levels call.1) s.levels) i

theorem operStatus_eq (s : InterfaceState) (i : Int) :
    s.operStatus i = derivedStatus s.parentIndex s.levels i := by
  cases found : s.slotOf i with
  | none =>
    have top : s.parentIndex i = none := by simp [parentIndex, found]
    simp only [operStatus, derivedStatus, levels, linkState, adminStatus, found, top]
    decide
  | some c =>
    obtain ⟨hasLink, hasAdmin, -, hasOper, -⟩ := accessors_of_slot found
    simp only [derivedStatus, levels, hasLink, hasAdmin, hasOper, oper]
    congr 1
    cases parent : s.parent c with
    | none =>
      have top : s.parentIndex i = none := by simp [parentIndex, found, parent]
      simp only [parentOper, parent, top]
    | some p =>
      have below : s.parentIndex i = some ((p : Int) + 1) := by simp [parentIndex, found, parent]
      obtain ⟨parentLink, parentAdmin, -⟩ :=
        accessors_of_slot (slotOf_eq_some.mpr (rfl : ((p : Int) + 1) = p + 1))
      simp only [parentOper, parent, below, parentLink, parentAdmin]

variable {s : InterfaceState}

theorem operStatus_run (oneLevel : s.OneLevel) (calls : List (Call × Nat)) (i : Int) :
    (s.run calls).1.operStatus i = s.statusAfter calls i := by
  induction calls generalizing s with
  | nil => exact s.operStatus_eq i
  | cons first rest ih =>
    have steps := s.steps oneLevel first.1 first.2
    have written : (s.step first.1 first.2).1.levels =
        writeLevels s.maxIfIndex s.levels first.1 := funext steps.levels
    rw [run_cons, ih steps.oneLevel, statusAfter, statusAfter, steps.parentIndex, written,
      steps.maxIfIndex, List.foldl_cons]

/-! ### One call -/

/-- The role of a move from one status to another. -/
def moveRole (was now : Nat) : Option LinkRole :=
  if was = now then none
  else if now = operUpStatus then if was = operLowerLayerDn then none else some .linkUp
  else if now = operDown then some .linkDown
  else none

theorem Steps.rolesOf {next : InterfaceState} {call : Call} {nowNs : Nat}
    {events : List StateChange} (steps : s.Steps call nowNs next events) (i : Int) :
    rolesOf i events = (moveRole (s.operStatus i) (next.operStatus i)).toList := by
  rw [Nl6.rolesOf, steps.events i, List.filter_append]
  have noAdmin : ((if s.adminStatus i ≠ next.adminStatus i then
      [s.reports next i .adminStatus nowNs] else []).filter fun event =>
        decide (event.changed = .operStatus)) = [] := by
    split_ifs <;> simp [reports]
  rw [noAdmin, List.nil_append]
  by_cases same : s.operStatus i = next.operStatus i
  · simp [same, moveRole]
  · rw [if_pos same, moveRole, if_neg same]
    have kept : [s.reports next i .operStatus nowNs].filter (fun event =>
        decide (event.changed = .operStatus)) = [s.reports next i .operStatus nowNs] := by
      simp [reports]
    rw [kept]
    have role : linkRoleFor (s.reports next i .operStatus nowNs) =
        if next.operStatus i = operUpStatus then
          if s.operStatus i = operLowerLayerDn then none else some .linkUp
        else if next.operStatus i = operDown then some .linkDown
        else none := rfl
    rw [List.filterMap_cons, role]
    split_ifs <;> rfl

/-- A move the roles follow: down is left for up only, and up is entered from down or from
lowerLayerDown only. -/
def FollowedMove (was now : Nat) : Prop :=
  (was = operDown → now = operDown ∨ now = operUpStatus) ∧
    (now = operUpStatus → was = operUpStatus ∨ was = operDown ∨ was = operLowerLayerDn)

instance (was now : Nat) : Decidable (FollowedMove was now) :=
  inferInstanceAs (Decidable (_ ∧ _))

/-- **One move.** From roles that are in step with the status, a move's role keeps them in step
exactly when the move is one they follow. -/
theorem followedMove_iff {roles : List LinkRole} {was now : Nat}
    (alternates : (LinkRole.linkUp :: roles).IsChain (· ≠ ·))
    (inStep : lastRole roles = .linkDown ↔ was = operDown) :
    ((LinkRole.linkUp :: (roles ++ (moveRole was now).toList)).IsChain (· ≠ ·) ∧
      (lastRole (roles ++ (moveRole was now).toList) = .linkDown ↔ now = operDown)) ↔
    FollowedMove was now := by
  have extend : ∀ role : LinkRole, (LinkRole.linkUp :: (roles ++ [role])).IsChain (· ≠ ·) ↔
      lastRole roles ≠ role := by
    intro role
    rw [← List.cons_append, List.isChain_append, List.getLast?_cons]
    simp [alternates, lastRole]
  have last : ∀ role : LinkRole, lastRole (roles ++ [role]) = role := by
    intro role
    simp [lastRole]
  have up : lastRole roles ≠ .linkUp ↔ was = operDown := by
    rw [← inStep]
    cases lastRole roles <;> simp
  by_cases same : was = now
  · have silent : moveRole was now = none := if_pos same
    simp only [silent, Option.toList_none, List.append_nil, alternates, inStep, true_and]
    exact iff_of_true (by rw [same]) ⟨fun _ => by omega, fun _ => by omega⟩
  by_cases isUp : now = operUpStatus
  · by_cases fromLower : was = operLowerLayerDn
    · have silent : moveRole was now = none := by simp [moveRole, isUp, fromLower]
      simp only [silent, Option.toList_none, List.append_nil, alternates, inStep, true_and]
      rw [isUp, fromLower]
      decide
    · have fires : moveRole was now = some .linkUp := by
        rw [moveRole, if_neg same, if_pos isUp, if_neg fromLower]
      simp only [fires, Option.toList_some, extend, last, up, FollowedMove, reduceCtorEq, false_iff]
      simp only [operDown, operUpStatus, operLowerLayerDn] at same isUp fromLower ⊢
      omega
  by_cases isDown : now = operDown
  · have fires : moveRole was now = some .linkDown := by
      rw [moveRole, if_neg same, if_neg isUp, if_pos isDown]
    simp only [fires, Option.toList_some, extend, last, ne_eq, inStep, FollowedMove, true_iff]
    simp only [operDown, operUpStatus, operLowerLayerDn] at same isDown ⊢
    omega
  · have silent : moveRole was now = none := by
      rw [moveRole, if_neg same, if_neg isUp, if_neg isDown]
    simp only [silent, Option.toList_none, List.append_nil, alternates, inStep, true_and,
      FollowedMove]
    simp only [operDown, operUpStatus, operLowerLayerDn] at isUp isDown ⊢
    omega

/-! ### Runs -/

/-- The notifications of an interface pair up: its roles alternate, starting with linkDown, and after
every call the last role says whether the interface is down. -/
def PairsUp (s : InterfaceState) (calls : List (Call × Nat)) (i : Int) : Prop :=
  (LinkRole.linkUp :: rolesOf i (s.run calls).2).IsChain (· ≠ ·) ∧
    ∀ k ≤ calls.length, lastRole (rolesOf i (s.run (calls.take k)).2) = .linkDown ↔
      (s.run (calls.take k)).1.operStatus i = operDown

theorem run_concat_snd (s : InterfaceState) (calls : List (Call × Nat)) (last : Call × Nat) :
    (s.run (calls ++ [last])).2 =
      (s.run calls).2 ++ ((s.run calls).1.step last.1 last.2).2 := by
  induction calls generalizing s with
  | nil => exact List.append_nil _
  | cons first rest ih =>
    rw [List.cons_append, run_cons, run_cons, ih, List.append_assoc]

/-- One more call keeps the notifications paired exactly when they follow its move. -/
theorem pairsUp_concat (oneLevel : s.OneLevel) (calls : List (Call × Nat)) (last : Call × Nat)
    (i : Int) :
    s.PairsUp (calls ++ [last]) i ↔ s.PairsUp calls i ∧
      FollowedMove ((s.run calls).1.operStatus i) ((s.run (calls ++ [last])).1.operStatus i) := by
  have roles := ((s.run calls).1.steps (oneLevel.run calls).1 last.1 last.2).rolesOf i
  have whole : rolesOf i (s.run (calls ++ [last])).2 = rolesOf i (s.run calls).2 ++
      (moveRole ((s.run calls).1.operStatus i)
        ((s.run (calls ++ [last])).1.operStatus i)).toList := by
    rw [run_concat_snd, rolesOf_append, roles, run_concat]
  have front : ∀ k ≤ calls.length, (calls ++ [last]).take k = calls.take k :=
    fun k inside => List.take_append_of_le_length inside
  have atEnd : (calls ++ [last]).take (calls ++ [last]).length = calls ++ [last] := List.take_length
  constructor
  · rintro ⟨alternates, inStep⟩
    have shorter : s.PairsUp calls i := by
      constructor
      · rw [whole, ← List.cons_append] at alternates
        exact (List.isChain_append.mp alternates).1
      · intro k inside
        have here := inStep k (by rw [List.length_append]; omega)
        rwa [front k inside] at here
    have before := shorter.2 calls.length le_rfl
    have after := inStep _ le_rfl
    rw [List.take_length] at before
    rw [atEnd, whole] at after
    rw [whole] at alternates
    exact ⟨shorter, (followedMove_iff shorter.1 before).mp ⟨alternates, after⟩⟩
  · rintro ⟨⟨alternates, inStep⟩, followed⟩
    have before := inStep calls.length le_rfl
    rw [List.take_length] at before
    obtain ⟨alternates', after⟩ := (followedMove_iff alternates before).mpr followed
    rw [← whole] at alternates' after
    refine ⟨alternates', fun k inside => ?_⟩
    rcases Nat.lt_or_ge calls.length k with outside | inside'
    · have exact_end : k = (calls ++ [last]).length := by
        rw [List.length_append, List.length_singleton] at inside ⊢
        omega
      rw [exact_end, atEnd]
      exact after
    · rw [front k inside']
      exact inStep k inside'

/-- **Link notifications.** The notifications of an interface that starts up pair up exactly when no
call moves its status out of down other than to up, or into up other than from down or
lowerLayerDown. -/
theorem link_roles_pair_iff (s : InterfaceState) (oneLevel : s.OneLevel)
    (calls : List (Call × Nat)) (i : Int) (startsUp : s.operStatus i = operUpStatus) :
    s.PairsUp calls i ↔ ∀ k < calls.length,
      FollowedMove (s.statusAfter (calls.take k) i) (s.statusAfter (calls.take (k + 1)) i) := by
  induction calls using List.reverseRecOn with
  | nil =>
    refine iff_of_true ⟨?_, ?_⟩ (by simp)
    · exact List.isChain_singleton _
    · intro k _
      rw [List.take_nil]
      exact iff_of_false nofun (by rw [run, startsUp]; decide)
  | append_singleton calls last ih =>
    rw [pairsUp_concat oneLevel, ih, operStatus_run oneLevel, operStatus_run oneLevel,
      List.length_append, List.length_singleton]
    have front : ∀ k ≤ calls.length, (calls ++ [last]).take k = calls.take k :=
      fun k inside => List.take_append_of_le_length inside
    have atEnd : (calls ++ [last]).take (calls.length + 1) = calls ++ [last] :=
      List.take_of_length_le (by simp)
    constructor
    · rintro ⟨earlier, followed⟩ k inside
      rcases Nat.lt_or_ge k calls.length with below | above
      · rw [front k below.le, front (k + 1) below]
        exact earlier k below
      · obtain rfl : k = calls.length := by omega
        rw [front _ le_rfl, atEnd, List.take_length]
        exact followed
    · intro all
      refine ⟨fun k below => ?_, ?_⟩
      · have here := all k (by omega)
        rwa [front k below.le, front (k + 1) below] at here
      · have here := all calls.length (by omega)
        rwa [front _ le_rfl, atEnd, List.take_length] at here

/-- A unit whose port bounces goes through lowerLayerDown and fires nothing; a unit whose own link
bounces fires a pair. -/
theorem link_roles_pair_portWithUnit :
    portWithUnit.PairsUp [(.applyAdminStatus 1 2, 1005), (.applyAdminStatus 1 1, 1006),
      (.setLinkState 2 2, 1007), (.setLinkState 2 1, 1008)] 2 := by
  refine (link_roles_pair_iff portWithUnit oneLevel_portWithUnit _ 2 (by decide)).mpr ?_
  decide

/-- A port put into testing and back fires a linkUp that clears nothing. A unit that goes down,
comes back under a port that is down, and follows the port up never clears its linkDown. -/
theorem link_roles_unpaired :
    ¬ portWithUnit.PairsUp [(.applyAdminStatus 1 3, 1005), (.applyAdminStatus 1 1, 1006)] 1 ∧
    ¬ portWithUnit.PairsUp [(.setLinkState 2 2, 1005), (.applyAdminStatus 1 2, 1006),
      (.setLinkState 2 1, 1007), (.applyAdminStatus 1 1, 1008)] 2 := by
  constructor
  · rintro ⟨alternates, -⟩
    have fired : rolesOf 1 (portWithUnit.run
        [(.applyAdminStatus 1 3, 1005), (.applyAdminStatus 1 1, 1006)]).2 = [.linkUp] := by decide
    exact absurd alternates (by decide)
  · rintro ⟨-, inStep⟩
    have stuck := (inStep 4 le_rfl).mp (by decide)
    exact absurd stuck (by decide)

end InterfaceState

end Nl6
