/-
# The runtime graph of an executor topology

The snapshot lists the active nodes, the nodes that no edge leads to and the
direct children of every node. All of it is determined by the ids of the active
nodes and the delegations between them, in order.
-/

import Nobie.Foundation.FiniteDigraph
import Nobie.Topology.Acceptance
import Nobie.Topology.Materialization

namespace Nobie.Topology

open Foundation List

variable (nodes : List ExecutorNodeV2) (topology : ExecutorTopologyV2) (nodeId : String)

/-- The ids of the active nodes of a topology. -/
def activeIds : List String := (nodes.filter fun node => node.status = .active).map (·.id)

/-- The endpoints of an edge. -/
def endpoints (edge : ExecutorEdgeV2) : String × String := (edge.sourceNodeId, edge.targetNodeId)

/-- The edges that the runtime follows. -/
def delegations : List (String × String) :=
  (buildExecutorRuntimeGraphSnapshotV2 topology).edges.map endpoints

theorem snapshot_rootDirectChildIds :
    (buildExecutorRuntimeGraphSnapshotV2 topology).rootDirectChildIds =
      (activeIds topology.nodes).filter fun id => id ∉ (delegations topology).map Prod.snd := by
  unfold activeIds
  rw [filter_map, delegations, map_map]
  simp [buildExecutorRuntimeGraphSnapshotV2, endpoints, Function.comp_def]

theorem get?_foldl_pushDirectChild (edges : List ExecutorEdgeV2)
    (children : OrderedMap String (List String)) (nodeId : String) :
    (edges.foldl pushDirectChild children).get? nodeId = (children.get? nodeId).map fun targets =>
        targets ++ (edges.filter fun edge => edge.sourceNodeId = nodeId).map (·.targetNodeId) := by
  induction edges generalizing children with
  | nil => cases h : children.get? nodeId <;> simp [h]
  | cons edge rest ih =>
    rw [foldl_cons, ih, pushDirectChild]
    by_cases hsource : edge.sourceNodeId = nodeId
    · subst hsource
      cases h : children.get? edge.sourceNodeId with
      | none => simp [h]
      | some targets => simp
    · cases h : children.get? edge.sourceNodeId with
      | none => simp [hsource]
      | some targets => simp [OrderedMap.get?_set_of_ne _ _ hsource, hsource]

theorem get?_foldl_noChildren (children : OrderedMap String (List String)) (nodeId : String) :
    (nodes.foldl (fun children node => children.set node.id []) children).get? nodeId =
      if nodeId ∈ nodes.map (·.id) then some [] else children.get? nodeId := by
  induction nodes generalizing children with
  | nil => simp
  | cons node rest ih =>
    rw [foldl_cons, ih, OrderedMap.get?_set]
    by_cases hrest : nodeId ∈ rest.map (·.id)
    · simp [hrest]
    · by_cases hid : node.id = nodeId
      · simp [hid]
      · have hid' : ¬ nodeId = node.id := fun h => hid h.symm
        simp [hid, hid', hrest]

/-- The direct children of a node are the targets of its delegations, in order. -/
theorem snapshot_directChildren :
    (buildExecutorRuntimeGraphSnapshotV2 topology).directChildrenByNodeId.get? nodeId =
      if nodeId ∈ activeIds topology.nodes then
        some (((delegations topology).filter fun edge => edge.1 = nodeId).map Prod.snd)
      else none := by
  refine (get?_foldl_pushDirectChild (buildExecutorRuntimeGraphSnapshotV2 topology).edges
    _ nodeId).trans ?_
  rw [get?_foldl_noChildren, delegations, filter_map, map_map]
  change (if nodeId ∈ activeIds topology.nodes then some [] else none).map _ = _
  split <;> rfl

variable {topology : ExecutorTopologyV2}

/-- Where all endpoints are active, the runtime follows the active edges. -/
theorem delegations_eq (h : ∀ edge ∈ topology.edges, edge.sourceNodeId ∈ activeIds topology.nodes ∧
      edge.targetNodeId ∈ activeIds topology.nodes) :
    delegations topology =
      (topology.edges.filter fun edge => edge.status = .active).map endpoints := by
  unfold delegations
  congr 1
  refine filter_congr fun edge hedge => ?_
  simp only [OrderedSet.mem_ofList]
  have hboth := h edge hedge
  unfold activeIds at hboth
  simp [hboth]

theorem Accepted.activeEndpoints (h : Accepted topology) {edge : ExecutorEdgeV2}
    (hedge : edge ∈ topology.edges) : edge.sourceNodeId ∈ activeIds topology.nodes ∧
      edge.targetNodeId ∈ activeIds topology.nodes := by
  have hactive {id : String}
      (hnode : ∃ node ∈ topology.nodes, node.id = id ∧ node.status = .active) :
      id ∈ activeIds topology.nodes := by
    obtain ⟨node, hmem, rfl, hstatus⟩ := hnode
    exact mem_map.mpr ⟨node, mem_filter.mpr ⟨hmem, by simpa using hstatus⟩, rfl⟩
  exact ⟨hactive (h.source edge hedge), hactive (h.target edge hedge)⟩

/-- The runtime follows the active edges of a topology that is accepted. -/
theorem delegations_of_accepted (h : Accepted topology) :
    delegations topology =
      (topology.edges.filter fun edge => edge.status = .active).map endpoints :=
  delegations_eq fun _ hedge => h.activeEndpoints hedge

/-! ## Plain topologies -/

/-- A host whose locale tells no texts apart and has no upper case. -/
def plainHost : Host := ⟨fun _ _ => 0, id⟩

def plainNode (id : String) : ExecutorNodeV2 where
  id := id
  name := id
  roleName := none
  description := id
  definitionQuickChips := none
  instruction := none
  position := ⟨.ofNat 0, .ofNat 0⟩
  status := .active
  profile := none
  metadata := none

def plainEdge (id sourceNodeId targetNodeId : String) : ExecutorEdgeV2 where
  id := id
  sourceNodeId := sourceNodeId
  targetNodeId := targetNodeId
  label := none
  status := .active

def plainTopology (edges : List ExecutorEdgeV2) : ExecutorTopologyV2 where
  id := "topology"
  name := "topology"
  status := .active
  activeVersion := none
  nodes := nodes
  edges := edges
  metadata := none
  createdAt := .text "2026-01-01"
  updatedAt := .text "2026-01-01"

/-! ## Which executors the root can reach

No check of the validator looks at longer cycles, so every executor is reached exactly if every
cycle of delegations can be entered from outside. -/

section

open Relation

/-- A node is listed among the direct children of another. -/
def ExecutorRuntimeGraphSnapshotV2.DirectChild (snapshot : ExecutorRuntimeGraphSnapshotV2)
    (nodeId childId : String) : Prop :=
  ∃ children, snapshot.directChildrenByNodeId.get? nodeId = some children ∧ childId ∈ children

/-- The root gets to the node over direct children. -/
def ExecutorRuntimeGraphSnapshotV2.ReachesFromRoot (snapshot : ExecutorRuntimeGraphSnapshotV2)
    (nodeId : String) : Prop :=
  ∃ start ∈ snapshot.rootDirectChildIds, Relation.ReflTransGen snapshot.DirectChild start nodeId

/-- An active edge leads from the first node to the second. -/
def Delegates (topology : ExecutorTopologyV2) (nodeId childId : String) : Prop :=
  ∃ edge ∈ topology.edges, edge.status = .active ∧ edge.sourceNodeId = nodeId ∧
    edge.targetNodeId = childId

variable {nodeId childId : String}

section Accepted

variable {topology : ExecutorTopologyV2} (h : Accepted topology)

theorem finite_delegating (topology : ExecutorTopologyV2) :
    {nodeId | ∃ childId, Delegates topology nodeId childId}.Finite := by
  refine (finite_toSet (topology.edges.map (·.sourceNodeId))).subset ?_
  rintro nodeId ⟨-, edge, hedge, -, rfl, -⟩
  exact mem_map_of_mem hedge

include h

theorem mem_delegations :
    (nodeId, childId) ∈ delegations topology ↔ Delegates topology nodeId childId := by
  rw [delegations_of_accepted h]
  constructor
  · intro hmem
    obtain ⟨edge, hedge, heq⟩ := mem_map.mp hmem
    obtain ⟨hedges, hactive⟩ := mem_filter.mp hedge
    obtain ⟨hsource, htarget⟩ := Prod.mk.inj heq
    exact ⟨edge, hedges, by simpa using hactive, hsource, htarget⟩
  · rintro ⟨edge, hedge, hactive, rfl, rfl⟩
    exact mem_map.mpr ⟨edge, mem_filter.mpr ⟨hedge, by simpa using hactive⟩, rfl⟩

theorem Delegates.active (hdelegates : Delegates topology nodeId childId) :
    nodeId ∈ activeIds topology.nodes ∧ childId ∈ activeIds topology.nodes := by
  obtain ⟨edge, hedge, -, rfl, rfl⟩ := hdelegates
  exact h.activeEndpoints hedge

/-- The lists of direct children are the delegations. -/
theorem directChild_iff :
    (buildExecutorRuntimeGraphSnapshotV2 topology).DirectChild nodeId childId ↔
      Delegates topology nodeId childId := by
  unfold ExecutorRuntimeGraphSnapshotV2.DirectChild
  rw [snapshot_directChildren]
  constructor
  · rintro ⟨children, hchildren, hmem⟩
    split at hchildren
    · cases hchildren
      obtain ⟨⟨source, target⟩, hfiltered, rfl⟩ := mem_map.mp hmem
      obtain ⟨hedge, hsource⟩ := mem_filter.mp hfiltered
      obtain rfl : source = nodeId := by simpa using hsource
      exact (mem_delegations h).mp hedge
    · cases hchildren
  · intro hdelegates
    refine ⟨_, if_pos (hdelegates.active h).1, mem_map.mpr ⟨(nodeId, childId), ?_, rfl⟩⟩
    exact mem_filter.mpr ⟨(mem_delegations h).mpr hdelegates, by simp⟩

/-- The direct children of the root are the active nodes that no delegation leads to. -/
theorem mem_rootDirectChildIds_iff :
    nodeId ∈ (buildExecutorRuntimeGraphSnapshotV2 topology).rootDirectChildIds ↔
      nodeId ∈ activeIds topology.nodes ∧ IsSource (Delegates topology) nodeId := by
  rw [snapshot_rootDirectChildIds, mem_filter]
  refine and_congr_right fun _ => ?_
  have htarget : nodeId ∈ (delegations topology).map Prod.snd ↔
      ∃ other, Delegates topology other nodeId := by
    constructor
    · intro hmem
      obtain ⟨⟨source, target⟩, hedge, rfl⟩ := mem_map.mp hmem
      exact ⟨source, (mem_delegations h).mp hedge⟩
    · rintro ⟨other, hother⟩
      exact mem_map.mpr ⟨(other, nodeId), (mem_delegations h).mpr hother, rfl⟩
  rw [decide_eq_true_eq, htarget, not_exists]
  rfl

/-- What lies above an active node is active. -/
theorem active_of_above {first last : String} (hlast : last ∈ activeIds topology.nodes)
    (hpath : ReflTransGen (Delegates topology) first last) :
    first ∈ activeIds topology.nodes := by
  rcases ReflTransGen.cases_head hpath with rfl | ⟨next, hnext, -⟩
  · exact hlast
  · exact (hnext.active h).1

/-- An active node is reached from the root exactly if it is below a node that no
delegation leads to. -/
theorem reachesFromRoot_iff (hactive : nodeId ∈ activeIds topology.nodes) :
    (buildExecutorRuntimeGraphSnapshotV2 topology).ReachesFromRoot nodeId ↔
      ∃ source, IsSource (Delegates topology) source ∧
        ReflTransGen (Delegates topology) source nodeId := by
  have hsame : (buildExecutorRuntimeGraphSnapshotV2 topology).DirectChild = Delegates topology := by
    funext first second
    exact propext (directChild_iff h)
  unfold ExecutorRuntimeGraphSnapshotV2.ReachesFromRoot
  rw [hsame]
  constructor
  · rintro ⟨source, hroot, hpath⟩
    exact ⟨source, ((mem_rootDirectChildIds_iff h).mp hroot).2, hpath⟩
  · rintro ⟨source, hsource, hpath⟩
    exact ⟨source, (mem_rootDirectChildIds_iff h).mpr
      ⟨active_of_above h hactive hpath, hsource⟩, hpath⟩

/-- The root reaches every active node exactly if every cycle is entered. -/
theorem allReached_iff :
    (∀ node ∈ (buildExecutorRuntimeGraphSnapshotV2 topology).nodes,
      (buildExecutorRuntimeGraphSnapshotV2 topology).ReachesFromRoot node.id) ↔
      CyclesEntered (Delegates topology) := by
  rw [← below_source_iff (finite_delegating topology)]
  constructor
  · intro hreached nodeId
    by_cases hactive : nodeId ∈ activeIds topology.nodes
    · obtain ⟨node, hnode, rfl⟩ := mem_map.mp hactive
      exact (reachesFromRoot_iff h hactive).mp (hreached node hnode)
    · -- A node that is not active has no edges at all.
      exact ⟨nodeId, fun other hother => hactive (hother.active h).2, .refl⟩
  · intro hbelow node hnode
    exact (reachesFromRoot_iff h (mem_map_of_mem hnode)).mpr (hbelow node.id)

end Accepted

/-- In a topology that the validator accepts every executor is reached from the root
exactly if every cycle of delegations is below a node that is not below the cycle. -/
theorem executors_reached_iff (host : Host) {topology : ExecutorTopologyV2}
    (haccepted : (validateExecutorTopologyV2 host topology.toJson).ok) :
    (∀ node ∈ (buildExecutorRuntimeGraphSnapshotV2 topology).nodes,
      (buildExecutorRuntimeGraphSnapshotV2 topology).ReachesFromRoot node.id) ↔
      CyclesEntered (Delegates topology) :=
  allReached_iff (accepted_of_validate haccepted)

/-- Two nodes, the first of which delegates to the second. -/
def leadAndWriter (edges : List ExecutorEdgeV2) : ExecutorTopologyV2 :=
  plainTopology [plainNode "lead", plainNode "writer"] edges

/-- Without a cycle both executors are reached. -/
theorem chain_reached :
    (buildExecutorRuntimeGraphSnapshotV2
        (leadAndWriter [plainEdge "there" "lead" "writer"])).ReachesFromRoot "lead" ∧
      (buildExecutorRuntimeGraphSnapshotV2
        (leadAndWriter [plainEdge "there" "lead" "writer"])).ReachesFromRoot "writer" := by
  have hdelegates {nodeId childId : String} (hedge : Delegates
      (leadAndWriter [plainEdge "there" "lead" "writer"]) nodeId childId) :
      nodeId = "lead" ∧ childId = "writer" := by
    obtain ⟨edge, hedge, -, rfl, rfl⟩ := hedge
    obtain rfl : edge = plainEdge "there" "lead" "writer" := mem_singleton.mp hedge
    exact ⟨rfl, rfl⟩
  have hentered : CyclesEntered (Delegates (leadAndWriter [plainEdge "there" "lead" "writer"])) := by
    intro nodeId hcycle
    obtain ⟨next, hnext, -⟩ := TransGen.head'_iff.mp hcycle
    obtain ⟨last, -, hlast⟩ := TransGen.tail'_iff.mp hcycle
    exact absurd ((hdelegates hnext).1.symm.trans (hdelegates hlast).2) (by decide)
  have hreached := (executors_reached_iff plainHost (by decide +kernel)).mpr hentered
  have hnodes : (buildExecutorRuntimeGraphSnapshotV2
      (leadAndWriter [plainEdge "there" "lead" "writer"])).nodes.map (·.id) =
        ["lead", "writer"] := by
    decide +kernel
  have hlisted {nodeId : String} (hnode : nodeId ∈ ["lead", "writer"]) :
      (buildExecutorRuntimeGraphSnapshotV2
        (leadAndWriter [plainEdge "there" "lead" "writer"])).ReachesFromRoot nodeId := by
    rw [← hnodes] at hnode
    obtain ⟨node, hbuilt, rfl⟩ := mem_map.mp hnode
    exact hreached node hbuilt
  exact ⟨hlisted (by decide), hlisted (by decide)⟩

/-- Two executors that delegate to each other: the validator accepts them, the root
has no direct child and reaches neither. -/
theorem mutualDelegation_unreached :
    (validateExecutorTopologyV2 plainHost (leadAndWriter
        [plainEdge "there" "lead" "writer", plainEdge "back" "writer" "lead"]).toJson).ok ∧
      ¬ (buildExecutorRuntimeGraphSnapshotV2 (leadAndWriter
        [plainEdge "there" "lead" "writer",
          plainEdge "back" "writer" "lead"])).ReachesFromRoot "lead" := by
  refine ⟨by decide +kernel, ?_⟩
  rintro ⟨start, hstart, -⟩
  have hroots : (buildExecutorRuntimeGraphSnapshotV2 (leadAndWriter
      [plainEdge "there" "lead" "writer",
        plainEdge "back" "writer" "lead"])).rootDirectChildIds = [] := by decide +kernel
  rw [hroots] at hstart
  cases hstart

end

/-! ## What reading back a materialized topology keeps

Every delegation comes back unless an earlier one has the same id once the ids are prefixed. -/

/-! ## Nodes -/

/-- What a node counts for: its id and its status. -/
def nodeKeys (nodes : List ExecutorNodeV2) : List (String × ExecutorStatus) :=
  nodes.map fun node => (node.id, node.status)

theorem activeIds_eq (nodes : List ExecutorNodeV2) :
    activeIds nodes = ((nodeKeys nodes).filter fun key => key.2 = .active).map Prod.fst := by
  simp [activeIds, nodeKeys, filter_map, Function.comp_def]

theorem mem_activeNodeIds {nodes : List ExecutorNodeV2} {id : String} :
    id ∈ activeNodeIds nodes ↔ id ∈ activeIds nodes := OrderedSet.mem_ofList _ _

theorem nodeKeys_repair (topology : ExecutorTopologyV2) :
    nodeKeys (repairExecutorTopologyV2ForPersistence topology).topology.nodes =
      nodeKeys topology.nodes := by
  simp [repairExecutorTopologyV2ForPersistence, nodeKeys, repairNode]

theorem nodeKeys_migrate (host : Host) (now : Number) (topology : EnterpriseTopology) :
    nodeKeys (migrateEnterpriseTopologyToExecutorTopologyV2 host now topology).topology.nodes =
      topology.nodes.map fun node => (node.id, toExecutorStatus node.status) := by
  simp only [migrateEnterpriseTopologyToExecutorTopologyV2, nodeKeys, map_map]
  refine ext_getElem (by simp) fun index hfirst hsecond => ?_
  simp [migrateNode]

theorem toExecutorStatus_enterpriseStatusOfNode (status : ExecutorStatus) :
    toExecutorStatus (enterpriseStatusOfNode status) = status := by
  cases status <;> rfl

/-! ## Edges -/

variable {topology : ExecutorTopologyV2} {edges : List ExecutorEdgeV2} (active : OrderedSet String)
  {edge : ExecutorEdgeV2}

/-- A repair keeps the edges between two different active nodes. -/
theorem repair_edges (h : ∀ edge ∈ topology.edges, edge.sourceNodeId ∈ activeIds topology.nodes ∧
      edge.targetNodeId ∈ activeIds topology.nodes ∧ edge.sourceNodeId ≠ edge.targetNodeId) :
    (repairExecutorTopologyV2ForPersistence topology).topology.edges = topology.edges := by
  refine filter_eq_self.mpr fun edge hedge => ?_
  obtain ⟨hsource, htarget, hne⟩ := h edge hedge
  have hnode {id : String} (hid : id ∈ activeIds topology.nodes) : id ∈ topology.nodes.map (·.id) :=
    map_subset _ (filter_subset_self _) hid
  simp only [keepEdge, Bool.and_eq_true, decide_eq_true_eq, mem_activeNodeIds,
    OrderedSet.mem_ofList]
  exact ⟨⟨⟨⟨hne, hnode hsource⟩, hnode htarget⟩, hsource⟩, htarget⟩

theorem migrateRelations_fromEdges (topologyId : String) (active : OrderedSet String)
    (options : MaterializationOptions) (timestamp : Timestamp)
    (h : ∀ edge ∈ edges, (jsTrim edge.sourceNodeId ≠ "" ∧ edge.sourceNodeId ∈ active) ∧
      jsTrim edge.targetNodeId ≠ "" ∧ edge.targetNodeId ∈ active) (seen : List String) :
    (migrateRelations topologyId active seen
        (edges.map (enterpriseRelationFromEdge options timestamp))).1 =
      (keepFirst (fun edge => prefixedEdgeId edge.id) seen edges).map fun edge =>
        edgeOfRelation (enterpriseRelationFromEdge options timestamp edge) (endpoints edge) := by
  induction edges generalizing seen with
  | nil => rfl
  | cons edge rest ih =>
    obtain ⟨⟨hsourceNamed, hsource⟩, htargetNamed, htarget⟩ := h edge mem_cons_self
    have ih := ih fun other hother => h other (mem_cons_of_mem _ hother)
    have hendpoints : activeEndpoints? active
        (enterpriseRelationFromEdge options timestamp edge) = some (endpoints edge) := by
      simp [activeEndpoints?, enterpriseRelationNodeId, enterpriseRelationFromEdge,
        hsourceNamed, htargetNamed, hsource, htarget, endpoints]
    have htype : ¬ (enterpriseRelationFromEdge options timestamp edge).relationType ≠
        .delegatesTo := fun hne => hne rfl
    have hid : relationEdgeId (enterpriseRelationFromEdge options timestamp edge) =
        prefixedEdgeId edge.id := rfl
    rw [map_cons, migrateRelations, if_neg htype, hendpoints, hid, keepFirst]
    by_cases hseen : prefixedEdgeId edge.id ∈ seen
    · simp [hseen, ih]
    · simp [hseen, ih]

theorem migrateLegacyChildren_of_childless (topologyId : String) (active : OrderedSet String)
    {nodes : List NodeContract} (h : ∀ node ∈ nodes, node.children = []) (seen : List String) :
    (migrateLegacyChildren topologyId active seen nodes).1 = [] := by
  induction nodes generalizing seen with
  | nil => rfl
  | cons node rest ih =>
    have ih := ih fun other hother => h other (mem_cons_of_mem _ hother)
    rw [migrateLegacyChildren]
    split
    · exact ih seen
    · rw [h node mem_cons_self]
      exact ih _

/-- Without legacy children the edges are those of the relations. -/
theorem migrateEdges_of_childless {topology : EnterpriseTopology}
    (h : ∀ node ∈ topology.nodes, node.children = []) :
    (migrateEdges topology active).1 =
      (migrateRelations topology.id active [] topology.relations).1 := by
  unfold migrateEdges
  dsimp only
  split
  · rfl
  · rw [migrateLegacyChildren_of_childless topology.id active h, append_nil]

/-! ## Reading back -/

/-- The topology that is read back from its own projection. -/
def reload (host : Host) (now : Number) (options : MaterializationOptions)
    (topology : ExecutorTopologyV2) : ExecutorTopologyV2 :=
  (buildExecutorTopologyV2RuntimeReadModelFromEnterpriseTopology host now
    (enterpriseTopologyFromExecutorTopologyV2 options topology)).topology

section Reload

variable (host : Host) (now : Number) (options : MaterializationOptions)
  {topology : ExecutorTopologyV2}

theorem activeIds_repair :
    activeIds (repairExecutorTopologyV2ForPersistence topology).topology.nodes =
      activeIds topology.nodes := by
  rw [activeIds_eq, activeIds_eq, nodeKeys_repair]

theorem activeIds_migrate (enterprise : EnterpriseTopology) :
    activeIds (migrateEnterpriseTopologyToExecutorTopologyV2 host now enterprise).topology.nodes =
      (enterprise.nodes.filter fun node => toExecutorStatus node.status = .active).map (·.id) := by
  rw [activeIds_eq, nodeKeys_migrate, filter_map, map_map]
  rfl

theorem activeIds_migrate_materialized :
    activeIds (migrateEnterpriseTopologyToExecutorTopologyV2 host now
      (enterpriseTopologyFromExecutorTopologyV2 options topology)).topology.nodes =
      activeIds topology.nodes := by
  rw [activeIds_eq, activeIds_eq, nodeKeys_migrate]
  simp only [enterpriseTopologyFromExecutorTopologyV2, map_map]
  rw [← nodeKeys_repair topology]
  simp [nodeKeys, Function.comp_def, enterpriseNodeFromExecutorNodeV2,
    toExecutorStatus_enterpriseStatusOfNode]

/-- Every active node comes back, and no other. -/
theorem activeIds_reload : activeIds (reload host now options topology).nodes =
    activeIds topology.nodes :=
  activeIds_repair.trans (activeIds_migrate_materialized host now options)

section

variable (h : Accepted topology)
include h

theorem Accepted.sourceNamed (hedge : edge ∈ topology.edges) :
    jsTrim edge.sourceNodeId ≠ "" := by
  obtain ⟨node, hnode, hid, -⟩ := h.source edge hedge
  exact hid ▸ h.nodeNamed node hnode

theorem Accepted.targetNamed (hedge : edge ∈ topology.edges) :
    jsTrim edge.targetNodeId ≠ "" := by
  obtain ⟨node, hnode, hid, -⟩ := h.target edge hedge
  exact hid ▸ h.nodeNamed node hnode

/-- The active edges are stored as relations. -/
theorem relations_materialized :
    ∃ timestamp, (enterpriseTopologyFromExecutorTopologyV2 options topology).relations =
      (topology.edges.filter fun edge => edge.status = .active).map
        (enterpriseRelationFromEdge options timestamp) := by
  have hrepaired := repair_edges fun edge hedge =>
    ⟨(h.activeEndpoints hedge).1, (h.activeEndpoints hedge).2, h.noLoop edge hedge⟩
  refine ⟨_, congrArg (List.map _) ?_⟩
  rw [hrepaired]
  refine filter_congr fun edge hedge => ?_
  simp [mem_activeNodeIds, activeIds_repair, h.activeEndpoints hedge]

/-- The edges that come back: of the active ones whose prefixed ids are equal, the
first. -/
theorem edges_reload :
    ∃ timestamp, (reload host now options topology).edges =
      (keepFirst (fun edge => prefixedEdgeId edge.id) []
        (topology.edges.filter fun edge => edge.status = .active)).map fun edge =>
          edgeOfRelation (enterpriseRelationFromEdge options timestamp edge) (endpoints edge) := by
  obtain ⟨timestamp, hrelations⟩ := relations_materialized options h
  refine ⟨timestamp, ?_⟩
  have hmem {edge : ExecutorEdgeV2}
      (hedge : edge ∈ keepFirst (fun edge => prefixedEdgeId edge.id) []
        (topology.edges.filter fun edge => edge.status = .active)) : edge ∈ topology.edges :=
    mem_of_mem_filter ((keepFirst_sublist _ _ _).subset hedge)
  have hmigrated : (migrateEnterpriseTopologyToExecutorTopologyV2 host now
      (enterpriseTopologyFromExecutorTopologyV2 options topology)).topology.edges =
      (keepFirst (fun edge => prefixedEdgeId edge.id) []
        (topology.edges.filter fun edge => edge.status = .active)).map fun edge =>
          edgeOfRelation (enterpriseRelationFromEdge options timestamp edge) (endpoints edge) := by
    refine (migrateEdges_of_childless _ ?_).trans ?_
    · intro node hnode
      obtain ⟨original, -, rfl⟩ := mem_map.mp hnode
      rfl
    · rw [hrelations]
      refine migrateRelations_fromEdges _ _ options timestamp (fun edge hedge => ?_) []
      have hedge := mem_of_mem_filter hedge
      rw [OrderedSet.mem_ofList, OrderedSet.mem_ofList, ← activeIds_migrate host now,
        activeIds_migrate_materialized]
      exact ⟨⟨h.sourceNamed hedge, (h.activeEndpoints hedge).1⟩, h.targetNamed hedge,
        (h.activeEndpoints hedge).2⟩
  rw [← hmigrated]
  refine repair_edges fun edge hedge => ?_
  rw [hmigrated] at hedge
  rw [activeIds_migrate_materialized]
  obtain ⟨original, horiginal, rfl⟩ := mem_map.mp hedge
  exact ⟨(h.activeEndpoints (hmem horiginal)).1, (h.activeEndpoints (hmem horiginal)).2,
    h.noLoop original (hmem horiginal)⟩

/-- The delegations that come back. -/
theorem delegations_reload :
    delegations (reload host now options topology) =
      (keepFirst (fun edge => prefixedEdgeId edge.id) []
        (topology.edges.filter fun edge => edge.status = .active)).map endpoints := by
  obtain ⟨timestamp, hedges⟩ := edges_reload host now options h
  have hmem {edge : ExecutorEdgeV2} (hedge : edge ∈ (reload host now options topology).edges) :
      edge.status = .active ∧ ∃ original ∈ topology.edges, endpoints original = endpoints edge := by
    rw [hedges] at hedge
    obtain ⟨original, horiginal, rfl⟩ := mem_map.mp hedge
    exact ⟨rfl, original, mem_of_mem_filter ((keepFirst_sublist _ _ _).subset horiginal), rfl⟩
  rw [delegations_eq]
  · rw [filter_eq_self.mpr fun edge hedge => by simpa using (hmem hedge).1, hedges, map_map]
    rfl
  · intro edge hedge
    obtain ⟨-, original, horiginal, hendpoints⟩ := hmem hedge
    have hactive := h.activeEndpoints horiginal
    obtain ⟨hsource, htarget⟩ := Prod.mk.inj hendpoints
    rw [activeIds_reload]
    exact ⟨hsource ▸ hactive.1, htarget ▸ hactive.2⟩

end

end Reload

/-! ## When the runtime graph is kept -/

/-- Two topologies have the same runtime graph. -/
def SameRuntimeGraph (first second : ExecutorTopologyV2) : Prop :=
  let firstGraph := buildExecutorRuntimeGraphSnapshotV2 first
  let secondGraph := buildExecutorRuntimeGraphSnapshotV2 second
  firstGraph.nodes.map (·.id) = secondGraph.nodes.map (·.id) ∧
    firstGraph.rootDirectChildIds = secondGraph.rootDirectChildIds ∧
    ∀ nodeId, firstGraph.directChildrenByNodeId.get? nodeId =
      secondGraph.directChildrenByNodeId.get? nodeId

/-- Prefixing makes no two ids of active edges equal. -/
def DistinctPrefixedIds (edges : List ExecutorEdgeV2) : Prop :=
  ∀ first ∈ edges, ∀ second ∈ edges, first.status = .active → second.status = .active →
    prefixedEdgeId first.id = prefixedEdgeId second.id → first.id = second.id

theorem nodup_prefixed_iff (hnodup : (edges.map (·.id)).Nodup) :
    ((edges.filter fun edge => edge.status = .active).map fun edge =>
      prefixedEdgeId edge.id).Nodup ↔ DistinctPrefixedIds edges := by
  constructor
  · intro h first hfirst second hsecond hfirstActive hsecondActive heq
    have hactive {edge : ExecutorEdgeV2} (hedge : edge ∈ edges) (hstatus : edge.status = .active) :
        edge ∈ edges.filter fun edge => edge.status = .active :=
      mem_filter.mpr ⟨hedge, by simpa using hstatus⟩
    exact congrArg _ (inj_on_of_nodup_map h (hactive hfirst hfirstActive)
      (hactive hsecond hsecondActive) heq)
  · intro h
    refine List.Nodup.map_on (fun first hfirst second hsecond heq => ?_)
      ((hnodup.of_map _).filter _)
    obtain ⟨hfirst, hfirstActive⟩ := mem_filter.mp hfirst
    obtain ⟨hsecond, hsecondActive⟩ := mem_filter.mp hsecond
    exact inj_on_of_nodup_map hnodup hfirst hsecond
      (h first hfirst second hsecond (by simpa using hfirstActive) (by simpa using hsecondActive)
        heq)

/-- The runtime graph is kept exactly if prefixing the ids keeps the active edges
apart. -/
theorem sameRuntimeGraph_reload_iff {host : Host} {now : Number} {options : MaterializationOptions}
    (h : Accepted topology) :
    SameRuntimeGraph (reload host now options topology) topology ↔
      DistinctPrefixedIds topology.edges := by
  rw [← nodup_prefixed_iff h.edgeNodup]
  constructor
  · rintro ⟨-, -, hchildren⟩
    refine (keepFirst_eq_self_iff.mp (eq_of_sublist_of_countP (·.sourceNodeId)
      (keepFirst_sublist _ [] _) fun edge hedge => ?_)).1
    have hactive := (h.activeEndpoints (mem_of_mem_filter hedge)).1
    have hsame := hchildren edge.sourceNodeId
    rw [snapshot_directChildren, snapshot_directChildren, activeIds_reload, if_pos hactive,
      if_pos hactive, Option.some.injEq, delegations_reload host now options h,
      delegations_of_accepted h] at hsame
    have hlength := congrArg List.length hsame
    rw [length_map, length_map, filter_map, filter_map, length_map,
      length_map, ← countP_eq_length_filter, ← countP_eq_length_filter] at hlength
    exact hlength
  · intro hnodup
    have hall := keepFirst_eq_self_iff.mpr ⟨hnodup, fun _ _ => not_mem_nil⟩
    have hdelegations : delegations (reload host now options topology) = delegations topology := by
      rw [delegations_reload host now options h, hall, delegations_of_accepted h]
    refine ⟨activeIds_reload host now options, ?_, fun nodeId => ?_⟩
    · rw [snapshot_rootDirectChildIds, snapshot_rootDirectChildIds, activeIds_reload, hdelegations]
    · rw [snapshot_directChildren, snapshot_directChildren, activeIds_reload, hdelegations]

/-- A topology that the validator accepts comes back with the same runtime graph exactly
if no two of its active edges have ids that differ in the prefix only. -/
theorem materializedGraph_kept_iff {host : Host} {now : Number}
    {options : MaterializationOptions} {topology : ExecutorTopologyV2}
    (haccepted : (validateExecutorTopologyV2 host topology.toJson).ok) :
    SameRuntimeGraph (reload host now options topology) topology ↔
      DistinctPrefixedIds topology.edges :=
  sameRuntimeGraph_reload_iff (accepted_of_validate haccepted)

/-! ## Two delegations of one node -/

/-- A node that delegates to two others, under the given edge ids. -/
def twoDelegations (firstId secondId : String) : ExecutorTopologyV2 where
  id := "topology"
  name := "topology"
  status := .active
  activeVersion := none
  nodes := [plainNode "lead", plainNode "writer", plainNode "reviewer"]
  edges :=
    [{ id := firstId, sourceNodeId := "lead", targetNodeId := "writer", label := none
       status := .active },
     { id := secondId, sourceNodeId := "lead", targetNodeId := "reviewer", label := none
       status := .active }]
  metadata := none
  createdAt := .text "2026-01-01"
  updatedAt := .text "2026-01-01"

/-- Two ids that stay apart under the prefix: both delegations come back. -/
theorem distinctIds_kept :
    (validateExecutorTopologyV2 plainHost (twoDelegations "x" "y").toJson).ok ∧
      SameRuntimeGraph (reload plainHost (.ofNat 0) {} (twoDelegations "x" "y"))
        (twoDelegations "x" "y") := by
  have haccepted : (validateExecutorTopologyV2 plainHost (twoDelegations "x" "y").toJson).ok := by
    decide +kernel
  have hdistinct : DistinctPrefixedIds (twoDelegations "x" "y").edges := by
    intro first hfirst second hsecond _ _
    revert first second
    decide
  exact ⟨haccepted, (materializedGraph_kept_iff haccepted).mpr hdistinct⟩

/-- The ids `x` and `edge:x` are different, but the second delegation is lost. -/
theorem prefixedId_drops_delegation :
    (validateExecutorTopologyV2 plainHost (twoDelegations "x" "edge:x").toJson).ok ∧
      ¬ SameRuntimeGraph (reload plainHost (.ofNat 0) {} (twoDelegations "x" "edge:x"))
        (twoDelegations "x" "edge:x") := by
  refine ⟨by decide +kernel, ?_⟩
  rintro ⟨-, hroots, -⟩
  have hbefore : (buildExecutorRuntimeGraphSnapshotV2
      (twoDelegations "x" "edge:x")).rootDirectChildIds = ["lead"] := by decide +kernel
  have hafter : (buildExecutorRuntimeGraphSnapshotV2 (reload plainHost (.ofNat 0) {}
      (twoDelegations "x" "edge:x"))).rootDirectChildIds = ["lead", "reviewer"] := by
    decide +kernel
  rw [hbefore, hafter] at hroots
  cases hroots

end Nobie.Topology
