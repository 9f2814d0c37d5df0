import Nl6.Mib.Lldp

/-! # The link graph

`topology.go`: the links between devices and the index from which the LLDP provider reads a device's
own links. Insertion extends the index link by link and removal builds it anew; in both cases the
index is what `rebuildAdj` makes of the links (`Topology.Sound`), and no port occurs twice in them.
-/

namespace Nl6

/-- `LinkEndpointJSON`: an endpoint as a request names it. -/
structure LinkEndpointJSON where
  ip : Bytes
  ifIndex : Int
  deriving DecidableEq

/-- `linkEndpoint`: a port of a device. -/
structure LinkEndpoint where
  ip : Bytes
  ifIndex : Nat
  deriving DecidableEq

/-- `topoLink`. No link joins a port to itself. -/
structure TopoLink where
  a : LinkEndpoint
  b : LinkEndpoint
  distinct : a ≠ b
  deriving DecidableEq

inductive TopologyError
  | invalidIPv4 (ip : Bytes)
  | ifIndexRange (ifIndex : Int)
  | endpointA (fault : TopologyError)
  | endpointB (fault : TopologyError)
  | selfLoop (e : LinkEndpoint)
  | duplicateLink (l : TopoLink)
  | portAlreadyLinked (e : LinkEndpoint)
  deriving DecidableEq

structure Topology where
  links : List TopoLink
  adj : Bytes → List LocalLink
  gen : Nat

namespace Topology

/-- `NewTopology`. -/
def newTopology : Topology := ⟨[], fun _ => [], 0⟩

/-- `indexLink`: both views of a link. -/
def indexLink (adj : Bytes → List LocalLink) (l : TopoLink) : Bytes → List LocalLink :=
  let adj := Function.update adj l.a.ip (adj l.a.ip ++ [⟨l.a.ifIndex, l.b.ip, l.b.ifIndex⟩])
  Function.update adj l.b.ip (adj l.b.ip ++ [⟨l.b.ifIndex, l.a.ip, l.a.ifIndex⟩])

/-- `rebuildAdj`. -/
def rebuildAdj (links : List TopoLink) : Bytes → List LocalLink :=
  links.foldl indexLink fun _ => []

/-- `validateAgainstLinks`. -/
def validateAgainstLinks (links : List TopoLink) (nl : TopoLink) : Option TopologyError :=
  links.findSome? fun l =>
    if (l.a = nl.a ∧ l.b = nl.b) ∨ (l.a = nl.b ∧ l.b = nl.a) then some (.duplicateLink nl)
    else if l.a = nl.a ∨ l.b = nl.a then some (.portAlreadyLinked nl.a)
    else if l.a = nl.b ∨ l.b = nl.b then some (.portAlreadyLinked nl.b)
    else none

/-- The loop of `AddLinks`: the links afterwards, and what a link was rejected for. -/
def insertAll (links : List TopoLink) : List TopoLink → List TopoLink × Option TopologyError
  | [] => (links, none)
  | nl :: pending =>
    match validateAgainstLinks links nl with
    | some fault => (links, some fault)
    | none => insertAll (links ++ [nl]) pending

section Requests

-- `net.ParseIP`, `To4` and `String`: the dotted quad of a text that is an IPv4 address.
variable (quadOf : Bytes → Option Bytes)

def normEndpoint (e : LinkEndpointJSON) : Except TopologyError LinkEndpoint :=
  match quadOf e.ip with
  | none => .error (.invalidIPv4 e.ip)
  | some ip =>
    if e.ifIndex < 1 then .error (.ifIndexRange e.ifIndex) else .ok ⟨ip, e.ifIndex.toNat⟩

def pendingLink (l : LinkEndpointJSON × LinkEndpointJSON) : Except TopologyError TopoLink := do
  let a ← (normEndpoint quadOf l.1).mapError .endpointA
  let b ← (normEndpoint quadOf l.2).mapError .endpointB
  if same : a = b then throw (.selfLoop a) else return ⟨a, b, same⟩

/-- `AddLinks`. -/
def addLinks (t : Topology) (batch : List (LinkEndpointJSON × LinkEndpointJSON)) :
    Topology × Option TopologyError :=
  match batch.mapM (pendingLink quadOf) with
  | .error fault => (t, some fault)
  | .ok pending =>
    match insertAll t.links pending with
    -- The slice is cut back to the length it had.
    | (links, some fault) => ({ t with links := links.take t.links.length }, some fault)
    | (links, none) => (⟨links, pending.foldl indexLink t.adj, t.gen + 1⟩, none)

/-- `Clear`. -/
def clear (t : Topology) : Topology := ⟨[], fun _ => [], t.gen + 1⟩

/-- `RemoveLink`: the first link between the two ports goes. -/
def removeLink (t : Topology) (a b : LinkEndpointJSON) : Topology × Bool :=
  match normEndpoint quadOf a, normEndpoint quadOf b with
  | .ok a, .ok b =>
    let between := fun l : TopoLink => (l.a = a ∧ l.b = b) ∨ (l.a = b ∧ l.b = a)
    if t.links.any between then
      let links := t.links.eraseP between
      (⟨links, rebuildAdj links, t.gen + 1⟩, true)
    else (t, false)
  | _, _ => (t, false)

/-- `PruneDevice`. -/
def pruneDevice (t : Topology) (ip : Bytes) : Topology :=
  match quadOf ip with
  | none => t
  | some norm =>
    let kept := t.links.filter fun l => ¬ (l.a.ip = norm ∨ l.b.ip = norm)
    ⟨kept, rebuildAdj kept, t.gen + 1⟩

/-- `LinksFor`. -/
def linksFor (sorter : Sorter) (t : Topology) (ip : Bytes) : List LocalLink :=
  match quadOf ip with
  | none => []
  | some norm => sorter.sort (fun x y => decide (x.localIfIndex < y.localIfIndex)) (t.adj norm)

end Requests

/-! ### The index -/

/-- What a device sees of a link, looking out of one of its ends. -/
def view (ip : Bytes) (here there : LinkEndpoint) : List LocalLink :=
  if here.ip = ip then [⟨here.ifIndex, there.ip, there.ifIndex⟩] else []

/-- The two-sided view of the links from a device. -/
def views (ip : Bytes) (links : List TopoLink) : List LocalLink :=
  links.flatMap fun l => view ip l.a l.b ++ view ip l.b l.a

/-- The ports that are linked. -/
def endpoints (links : List TopoLink) : List LinkEndpoint := links.flatMap fun l => [l.a, l.b]

theorem foldl_indexLink (links : List TopoLink) (adj : Bytes → List LocalLink) (ip : Bytes) :
    links.foldl indexLink adj ip = adj ip ++ views ip links := by
  induction links generalizing adj with
  | nil => simp [views]
  | cons l links ih =>
    have both : views ip (l :: links) = (view ip l.a l.b ++ view ip l.b l.a) ++ views ip links :=
      List.flatMap_cons
    rw [List.foldl_cons, ih, both, ← List.append_assoc]
    congr 1
    simp only [indexLink, view, Function.update_apply]
    grind

theorem rebuildAdj_apply (links : List TopoLink) (ip : Bytes) :
    rebuildAdj links ip = views ip links := by
  rw [rebuildAdj, foldl_indexLink, List.nil_append]

variable {ip : Bytes} {links : List TopoLink}

theorem mem_view {peer : Bytes} {i j : Nat} {here there : LinkEndpoint} :
    ⟨i, peer, j⟩ ∈ view ip here there ↔ here = ⟨ip, i⟩ ∧ there = ⟨peer, j⟩ := by
  obtain ⟨hereIP, hereIndex⟩ := here
  obtain ⟨thereIP, thereIndex⟩ := there
  simp only [view, LinkEndpoint.mk.injEq]
  split_ifs with mine
  · simp [mine, eq_comm]
  · simp [mine]

theorem mem_views {peer : Bytes} {i j : Nat} :
    ⟨i, peer, j⟩ ∈ views ip links ↔ ∃ l ∈ links, (l.a = ⟨ip, i⟩ ∧ l.b = ⟨peer, j⟩) ∨
      (l.b = ⟨ip, i⟩ ∧ l.a = ⟨peer, j⟩) := by
  simp [views, List.mem_flatMap, mem_view]

/-- The ports a device's view names are linked ports. -/
theorem ports_sublist (ip : Bytes) (links : List TopoLink) :
    ((views ip links).map fun v => (⟨ip, v.localIfIndex⟩ : LinkEndpoint)).Sublist
      (endpoints links) := by
  have one : ∀ here there : LinkEndpoint,
      ((view ip here there).map fun v => (⟨ip, v.localIfIndex⟩ : LinkEndpoint)).Sublist [here] := by
    intro here there
    rw [view]
    split_ifs with mine
    · rw [← mine]
      exact .refl _
    · exact List.nil_sublist _
  induction links with
  | nil => exact .refl _
  | cons l links ih =>
    simp only [views, endpoints, List.flatMap_cons, List.map_append] at ih ⊢
    exact ((one l.a l.b).append (one l.b l.a)).append ih

/-! ### Insertion -/

theorem unlinked_of_validate {nl : TopoLink} (passed : validateAgainstLinks links nl = none) :
    nl.a ∉ endpoints links ∧ nl.b ∉ endpoints links := by
  simp only [validateAgainstLinks, List.findSome?_eq_none_iff] at passed
  simp only [endpoints, List.mem_flatMap]
  grind

theorem insertAll_spec (links pending : List TopoLink) :
    (∃ extra, (insertAll links pending).1 = links ++ extra) ∧
      ((insertAll links pending).2 = none → (insertAll links pending).1 = links ++ pending ∧
        ((endpoints links).Nodup → (endpoints (links ++ pending)).Nodup)) := by
  induction pending generalizing links with
  | nil => exact ⟨⟨[], by simp [insertAll]⟩, fun _ => by simp [insertAll]⟩
  | cons nl pending ih =>
    rw [insertAll]
    cases checked : validateAgainstLinks links nl with
    | some fault => exact ⟨⟨[], by simp⟩, nofun⟩
    | none =>
      obtain ⟨⟨extra, is⟩, accepted⟩ := ih (links ++ [nl])
      refine ⟨⟨nl :: extra, by simpa using is⟩, fun passed => ?_⟩
      obtain ⟨whole, once⟩ := accepted passed
      rw [List.append_assoc, List.singleton_append] at whole once
      refine ⟨whole, fun nodup => once ?_⟩
      obtain ⟨freshA, freshB⟩ := unlinked_of_validate checked
      have distinct := nl.distinct
      simp only [endpoints, List.flatMap_append, List.nodup_append] at *
      grind

/-- A rejected batch leaves everything as it was. -/
theorem addLinks_rejected {quadOf : Bytes → Option Bytes} {t : Topology}
    {batch : List (LinkEndpointJSON × LinkEndpointJSON)} {fault : TopologyError}
    (rejected : (t.addLinks quadOf batch).2 = some fault) : (t.addLinks quadOf batch).1 = t := by
  unfold addLinks at rejected ⊢
  split at rejected
  · rfl
  · next pending _ =>
    obtain ⟨⟨extra, is⟩, -⟩ := insertAll_spec t.links pending
    split at rejected
    · next links fault' ran =>
      rw [ran] at is
      obtain rfl : links = t.links ++ extra := is
      rw [List.take_left]
    · exact nomatch rejected

/-! ### Runs -/

inductive Action
  | addLinks (batch : List (LinkEndpointJSON × LinkEndpointJSON))
  | removeLink (a b : LinkEndpointJSON)
  | pruneDevice (ip : Bytes)
  | clear

def step (quadOf : Bytes → Option Bytes) (t : Topology) : Action → Topology
  | .addLinks batch => (t.addLinks quadOf batch).1
  | .removeLink a b => (t.removeLink quadOf a b).1
  | .pruneDevice ip => t.pruneDevice quadOf ip
  | .clear => t.clear

/-- No port is linked twice, and the index is what a rebuild makes of the links. -/
structure Sound (t : Topology) : Prop where
  once : (endpoints t.links).Nodup
  indexed : t.adj = rebuildAdj t.links

variable {quadOf : Bytes → Option Bytes} {t : Topology}

/-- Some links go, and the index is built anew. -/
theorem Sound.removal (sound : t.Sound) {kept : List TopoLink} (fewer : kept.Sublist t.links) :
    Sound ⟨kept, rebuildAdj kept, t.gen + 1⟩ :=
  ⟨sound.once.sublist (fewer.flatMap _), rfl⟩

theorem Sound.addLinks (sound : t.Sound) (batch : List (LinkEndpointJSON × LinkEndpointJSON)) :
    (t.addLinks quadOf batch).1.Sound := by
  cases outcome : (t.addLinks quadOf batch).2 with
  | some fault => rwa [addLinks_rejected outcome]
  | none =>
    unfold Topology.addLinks at outcome ⊢
    split at outcome
    · exact nomatch outcome
    · next pending _ =>
      have accepted := (insertAll_spec t.links pending).2
      split at outcome
      · exact nomatch outcome
      · next links ran =>
        rw [ran] at accepted
        obtain ⟨rfl, once⟩ := accepted rfl
        refine ⟨once sound.once, ?_⟩
        rw [sound.indexed, rebuildAdj, rebuildAdj, List.foldl_append]

theorem Sound.step (sound : t.Sound) (action : Action) : (t.step quadOf action).Sound := by
  cases action with
  | addLinks batch => exact sound.addLinks batch
  | removeLink a b =>
    simp only [Topology.step, removeLink]
    split
    · split_ifs
      · exact sound.removal List.eraseP_sublist
      · exact sound
    · exact sound
  | pruneDevice ip =>
    simp only [Topology.step, pruneDevice]
    split
    · exact sound
    · exact sound.removal List.filter_sublist
  | clear => exact sound.removal (List.nil_sublist _)

theorem sound_run (actions : List Action) : (actions.foldl (step quadOf) newTopology).Sound := by
  suffices runs : ∀ t : Topology, t.Sound → (actions.foldl (step quadOf) t).Sound from
    runs _ ⟨List.nodup_nil, rfl⟩
  induction actions with
  | nil => exact fun _ => id
  | cons action actions ih => exact fun t sound => ih _ (sound.step action)

/-! ### What a device lists -/

theorem Sound.linksFor (sound : t.Sound) (sorter : Sorter) {text : Bytes}
    (read : quadOf text = some ip) :
    (t.linksFor quadOf sorter text).Perm (views ip t.links) ∧
      (t.linksFor quadOf sorter text).Pairwise fun x y => x.localIfIndex < y.localIfIndex := by
  rw [Topology.linksFor, read, sound.indexed]
  simp only [rebuildAdj_apply]
  have perm := sorter.perm (fun x y : LocalLink => decide (x.localIfIndex < y.localIfIndex))
    (views ip t.links)
  have ascending := sorter.sorted (fun x y : LocalLink => decide (x.localIfIndex < y.localIfIndex))
    LocalLink.localIfIndex (views ip t.links) (by simp)
  have nodup := (perm.map _).nodup_iff.mpr (sound.once.sublist (ports_sublist ip t.links))
  have apart := List.pairwise_map.mp nodup
  refine ⟨perm, (ascending.and apart).imp ?_⟩
  rintro x y ⟨le, differ⟩
  exact lt_of_le_of_ne le fun same => differ (by rw [same])

/-- **The graph and its index.** After any requests every port is in at most one link and no link
joins a port to itself; a device lists exactly what it sees of the links, by ascending port; two
devices list each other with the ports exchanged; and a rejected batch changes nothing. -/
theorem topology_exact (quadOf : Bytes → Option Bytes) (sorter : Sorter) (actions : List Action) :
    let t := actions.foldl (step quadOf) newTopology
    (endpoints t.links).Nodup ∧
      (∀ text ip, quadOf text = some ip →
        (t.linksFor quadOf sorter text).Perm (views ip t.links) ∧
        (t.linksFor quadOf sorter text).Pairwise fun x y => x.localIfIndex < y.localIfIndex) ∧
      (∀ a b ipA ipB i j, quadOf a = some ipA → quadOf b = some ipB →
        (⟨i, ipB, j⟩ ∈ t.linksFor quadOf sorter a ↔ ⟨j, ipA, i⟩ ∈ t.linksFor quadOf sorter b)) ∧
      ∀ batch fault, (t.addLinks quadOf batch).2 = some fault → (t.addLinks quadOf batch).1 = t := by
  intro t
  have sound : t.Sound := sound_run actions
  refine ⟨sound.once, fun text ip read => sound.linksFor sorter read, ?_, fun _ _ => addLinks_rejected⟩
  intro a b ipA ipB i j readA readB
  rw [(sound.linksFor sorter readA).1.mem_iff, (sound.linksFor sorter readB).1.mem_iff, mem_views,
    mem_views]
  grind

/-- Two devices joined by one link. -/
theorem topology_exact_pair :
    let t := [Action.addLinks [(⟨[1], 1⟩, ⟨[2], 7⟩)]].foldl (step some) newTopology
    ⟨1, [2], 7⟩ ∈ t.linksFor some Sorter.exchange [1] ∧
      ⟨7, [1], 1⟩ ∈ t.linksFor some Sorter.exchange [2] := by
  intro t
  have lists : ⟨1, [2], 7⟩ ∈ t.linksFor some Sorter.exchange [1] := by decide
  exact ⟨lists, ((topology_exact some Sorter.exchange _).2.2.1 [1] [2] [1] [2] 1 7 rfl rfl).mp lists⟩

end Topology
end Nl6
