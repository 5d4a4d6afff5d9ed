/-
# The execution graph of a topology

Executors delegate along the edges of a graph that is built from a stored topology. The
topology is first taken through the executor topology of the second version, which drops what
is no delegation between active nodes. Every enabled delegation that is left is an edge. Edges
on a cycle are taken out of the automatic candidates, and the nodes that no edge leads to hang
below the root executor.

The display data of the executors, the diagnostics and the id of the graph are left out.
-/

import Nobie.Foundation.FiniteDigraph
import Nobie.Topology.Materialization

namespace Nobie.Orchestration

open Foundation Nobie.Topology

/-! ## The compatibility adapter -/

/-- `relationNodeRefId`: the node an end of a relation refers to. -/
def relationNodeRefId (ref : EnterpriseEntityRef) : Option String :=
  if ref.entityType = .node ∧ jsTrim ref.id ≠ "" then some ref.id else none

def safeEndpoint (ref : EnterpriseEntityRef) : EnterpriseEntityRef :=
  if (relationNodeRefId ref).isSome then ref else { entityType := .node, id := "" }

variable (topology : EnterpriseTopology) (host : Host) (node : NodeContract)

/-- `safeLegacyTopologyForV2Migration`. -/
def safeLegacyTopologyForV2Migration : EnterpriseTopology :=
  { topology with
    relations := topology.relations.map fun relation =>
      if relation.relationType ≠ .delegatesTo then relation
      else
        { relation with
          source := safeEndpoint relation.source, target := safeEndpoint relation.target } }

/-- `preserveLegacyRuntimeNodeStatuses`: a disabled node stays disabled. -/
def preserveLegacyRuntimeNodeStatuses (source materialized : EnterpriseTopology) :
    EnterpriseTopology :=
  let sourceStatusByNodeId : OrderedMap String EnterpriseEntityStatus :=
    source.nodes.foldl (fun statuses node => statuses.set node.id node.status) ∅
  { materialized with
    nodes := materialized.nodes.map fun node =>
      if sourceStatusByNodeId.get? node.id = some .inactive then
        { node with status := .inactive }
      else node }

/-- A stored version of a topology. -/
structure TopologyVersion where
  versionId : String
  version : Number
  topology : EnterpriseTopology

/-- `legacyTopologyEnvelopeToExecutorCompatibilityEnvelope`. -/
def legacyTopologyToExecutorCompatibility (now : Number) (version : TopologyVersion) :
    EnterpriseTopology :=
  let safeTopology := safeLegacyTopologyForV2Migration version.topology
  let readModel :=
    buildExecutorTopologyV2RuntimeReadModelFromEnterpriseTopology host now safeTopology
  preserveLegacyRuntimeNodeStatuses version.topology
    (enterpriseTopologyFromExecutorTopologyV2
      { migrationSource := some "legacy_enterprise_topology_adapter"
        sourceTopologyVersion := some version.version
        sourceVersionId := some version.versionId
        materializedAt := some version.topology.updatedAt }
      readModel.topology)

/-! ## Executors -/

def topologyAgentId (topologyId nodeId : String) : String := topologyId ++ ":" ++ nodeId

def nodeExecutionCandidate : Bool := node.status ≠ .archived && node.status ≠ .inactive

structure ExecutorRuntimeProjection where
  agentId : String
  status : EnterpriseEntityStatus
  (delegationEnabled executionCandidate : Bool)
  reasonCodes : List String

def nodeReasonCodes : List String :=
  if nodeExecutionCandidate node then [] else ["node_" ++ node.status.text]

def projectTopologyAgent (topologyId : String) (node : NodeContract) :
    ExecutorRuntimeProjection where
  agentId := topologyAgentId topologyId node.id
  status := node.status
  delegationEnabled := nodeExecutionCandidate node
  executionCandidate := nodeExecutionCandidate node
  reasonCodes := nodeReasonCodes node

/-- The nodes that are not archived. -/
def presentNodes : List NodeContract := topology.nodes.filter fun node => node.status ≠ .archived

/-- `projectTopologyAgents`. -/
def projectTopologyAgents : OrderedMap String ExecutorRuntimeProjection :=
  (presentNodes topology).foldl (fun agents node =>
    agents.set (topologyAgentId topology.id node.id) (projectTopologyAgent topology.id node)) ∅

/-! ## Edges -/

inductive GraphEdgeSource
  | topologyRelation | agentRelationship | unparentedRoot
  deriving DecidableEq

/-- `ExecutionGraphEdgeProjection`. -/
structure GraphEdge where
  (edgeId parentAgentId childAgentId : String)
  source : GraphEdgeSource
  executionCandidate : Bool
  reasonCodes : List String
  relationId : Option String := none
  relationshipStatus : Option EnterpriseEntityStatus := none

/-- The edges so far and the children of each parent. -/
structure GraphDraft where
  edges : List GraphEdge
  directChildren : OrderedMap String (OrderedSet String)

/-- `appendEdge`. -/
def appendEdge (draft : GraphDraft) (edge : GraphEdge) : GraphDraft :=
  let children := (draft.directChildren.get? edge.parentAgentId).getD ∅
  { edges := draft.edges ++ [edge]
    directChildren := draft.directChildren.set edge.parentAgentId (children.add edge.childAgentId) }

def relationExecutionCandidate (relation : EnterpriseRelation) : Bool :=
  relation.status ≠ .archived && relation.status ≠ .inactive

/-- A relation that delegates, with the nodes at its ends. -/
structure Delegation where
  relation : EnterpriseRelation
  (fromNodeId toNodeId : String)

/-- What the loop over the relations takes for an edge. -/
def delegation? (relation : EnterpriseRelation) : Option Delegation :=
  let nodeIds : OrderedSet String := .ofList ((presentNodes topology).map (·.id))
  if relation.relationType ≠ .delegatesTo ∨ relationExecutionCandidate relation = false then
    none
  else
    match relationNodeRefId relation.source, relationNodeRefId relation.target with
    | some fromNodeId, some toNodeId =>
      if fromNodeId ∈ nodeIds ∧ toNodeId ∈ nodeIds then
        some { relation, fromNodeId, toNodeId }
      else none
    | _, _ => none

/-- The enabled delegations between nodes that are not archived. -/
def delegations : List Delegation := topology.relations.filterMap (delegation? topology)

def delegationEdgeId (delegation : Delegation) : String :=
  "topology:" ++ topology.id ++ ":" ++ delegation.relation.id

/-- The delegations that become edges: the first under each edge id. -/
def linkedDelegations : List Delegation :=
  keepFirst (delegationEdgeId topology) [] (delegations topology)

def delegationEdge (delegation : Delegation) : GraphEdge where
  edgeId := delegationEdgeId topology delegation
  parentAgentId := topologyAgentId topology.id delegation.fromNodeId
  childAgentId := topologyAgentId topology.id delegation.toNodeId
  source := .topologyRelation
  executionCandidate := true
  reasonCodes := []
  relationId := some delegation.relation.id
  relationshipStatus := some delegation.relation.status

/-! ## Cycles -/

/-- The key of the map from pairs of executors to edge ids. -/
def pairKey (parentAgentId childAgentId : String) : String :=
  parentAgentId ++ "\x00" ++ childAgentId

variable (edges : List GraphEdge)

/-- The edges among which cycles are looked for. -/
def relationCandidates : List GraphEdge :=
  edges.filter fun edge => edge.source = .topologyRelation && edge.executionCandidate

def adjacencyOf : OrderedMap String (List String) :=
  (relationCandidates edges).foldl (fun adjacency edge =>
    adjacency.set edge.parentAgentId
      ((adjacency.get? edge.parentAgentId).getD [] ++ [edge.childAgentId])) ∅

def edgeIdByPair : OrderedMap String String :=
  (relationCandidates edges).foldl (fun edgeIds edge =>
    edgeIds.set (pairKey edge.parentAgentId edge.childAgentId) edge.edgeId) ∅

/-- The search `visit` over the adjacency of the edges. -/
def cycleSearch : CycleSearch String where
  keys := (adjacencyOf edges).keys
  children agentId := ((adjacencyOf edges).get? agentId).getD []
  mem_keys agentId hleaves := by
    rw [OrderedMap.mem_keys_iff]
    cases hfound : (adjacencyOf edges).get? agentId with
    | none => simp [hfound] at hleaves
    | some children => exact ⟨children, rfl⟩

/-- `cycleEdgeIds`. -/
def cycleEdgeIds : List String :=
  (cycleSearch edges).cycles.flatMap fun cycle =>
    (cycleSteps cycle).filterMap fun step =>
      truthyText ((edgeIdByPair edges).get? (pairKey step.1 step.2))

/-- `markCycleEdges`. -/
def markCycleEdges : List GraphEdge :=
  let edgeIds := cycleEdgeIds edges
  edges.map fun edge =>
    if edge.edgeId ∈ edgeIds then
      { edge with
        executionCandidate := false
        reasonCodes := sortedUniqueStrings host (edge.reasonCodes ++ ["cycle_detected"]) }
    else edge

/-! ## The snapshot -/

/-- The nodes that are not archived and that no edge leads to. -/
def unparentedNodes : List NodeContract :=
  let incomingChildNodeIds : OrderedSet String :=
    .ofList ((linkedDelegations topology).map (·.toNodeId))
  (presentNodes topology).filter fun node => node.id ∉ incomingChildNodeIds

def rootEdge (rootAgentId : String) (node : NodeContract) : GraphEdge where
  edgeId := "topology-root:" ++ topologyAgentId topology.id node.id
  parentAgentId := rootAgentId
  childAgentId := topologyAgentId topology.id node.id
  source := .unparentedRoot
  executionCandidate := nodeExecutionCandidate node
  reasonCodes := nodeReasonCodes node

/-- `appendTopologyEdges`. -/
def appendTopologyEdges (topology : EnterpriseTopology) (rootAgentId : String) : GraphDraft :=
  let linked := ((linkedDelegations topology).map (delegationEdge topology)).foldl appendEdge
    { edges := [], directChildren := ∅ }
  let marked := { linked with edges := markCycleEdges host linked.edges }
  ((unparentedNodes topology).map (rootEdge topology rootAgentId)).foldl appendEdge marked

def sortedTexts (texts : List String) : List String :=
  texts.mergeSort fun left right => host.localeCompare left right ≤ 0

/-- The order of the edges of a snapshot. -/
def edgePrecedes (left right : GraphEdge) : Bool :=
  let byParent := host.localeCompare left.parentAgentId right.parentAgentId
  let byChild := host.localeCompare left.childAgentId right.childAgentId
  let byId := host.localeCompare left.edgeId right.edgeId
  (if byParent ≠ 0 then byParent else if byChild ≠ 0 then byChild else byId) ≤ 0

/-- `materializeDirectChildren`. -/
def materializeDirectChildren (directChildren : OrderedMap String (OrderedSet String)) :
    OrderedMap String (List String) :=
  directChildren.entries.foldl (fun result entry =>
    result.set entry.1 (sortedTexts host entry.2.elements)) ∅

/-- `materializeEdgeIndex`: of the edges between two executors the last one. -/
def materializeEdgeIndex : OrderedMap String (OrderedMap String GraphEdge) :=
  edges.foldl (fun result edge =>
    result.set edge.parentAgentId
      (((result.get? edge.parentAgentId).getD ∅).set edge.childAgentId edge)) ∅

structure ExecutionGraphSnapshot where
  (rootAgentId currentExecutorId : String)
  agentsById : OrderedMap String ExecutorRuntimeProjection
  directChildAgentIdsByParent : OrderedMap String (List String)
  edgeIndex : OrderedMap String (OrderedMap String GraphEdge)
  edges : List GraphEdge
  (rootDirectChildAgentIds allRegisteredExecutorIds allActiveExecutorIds : List String)
  availableExecutorIds : List String

/-- `finalizeSnapshot`. -/
def finalizeSnapshot (rootAgentId currentExecutorId : String)
    (agentsById : OrderedMap String ExecutorRuntimeProjection) (draft : GraphDraft) :
    ExecutionGraphSnapshot :=
  let directChildAgentIdsByParent := materializeDirectChildren host draft.directChildren
  { rootAgentId
    currentExecutorId
    agentsById
    directChildAgentIdsByParent
    edgeIndex := materializeEdgeIndex draft.edges
    edges := draft.edges.mergeSort (edgePrecedes host)
    rootDirectChildAgentIds := (directChildAgentIdsByParent.get? rootAgentId).getD []
    allRegisteredExecutorIds := sortedTexts host agentsById.keys
    allActiveExecutorIds := sortedTexts host
      (((agentsById.entries.map Prod.snd).filter (·.executionCandidate)).map (·.agentId))
    availableExecutorIds :=
      ((directChildAgentIdsByParent.get? currentExecutorId).getD []).filter fun agentId =>
        ((agentsById.get? agentId).any (·.executionCandidate)) &&
          draft.edges.any fun edge =>
            edge.parentAgentId = currentExecutorId && edge.childAgentId = agentId &&
              edge.executionCandidate }

/-- The snapshot of a topology that went through the adapter. -/
def topologySnapshot (topology : EnterpriseTopology) (rootAgentId currentExecutorId : String) :
    ExecutionGraphSnapshot :=
  finalizeSnapshot host rootAgentId currentExecutorId (projectTopologyAgents topology)
    (appendTopologyEdges host topology rootAgentId)

/-- `buildTopologyExecutionGraphSnapshot`. -/
def buildTopologyExecutionGraphSnapshot (now : Number) (version : TopologyVersion)
    (rootAgentId currentExecutorId : String) : ExecutionGraphSnapshot :=
  topologySnapshot host (legacyTopologyToExecutorCompatibility host now version) rootAgentId
    currentExecutorId

/-! ## When the graph is sound

The marking of cycles keeps one edge for each pair of executors, so a second delegation between
two executors on a cycle stays a candidate. That no relation or node repeats an id, and that the
root is no executor of the topology itself, is what the rest depends on. -/

open List OrderedMap

/-! ## Sound snapshots -/

variable (snapshot : ExecutionGraphSnapshot)

section Statement

variable (topology : EnterpriseTopology)

variable (delegation : Delegation)

def Delegation.parent : String := topologyAgentId topology.id delegation.fromNodeId

def Delegation.child : String := topologyAgentId topology.id delegation.toNodeId

/-- Some enabled delegation leads from the first executor to the second. -/
def DelegatesTo (first second : String) : Prop :=
  ∃ delegation ∈ delegations topology, delegation.parent topology = first ∧
    delegation.child topology = second

/-- From the end of a delegation there is a way back to its start. -/
def OnCycle : Prop :=
  Relation.ReflTransGen (DelegatesTo topology) (delegation.child topology)
    (delegation.parent topology)

def CandidateEdge (first second : String) : Prop :=
  ∃ edge ∈ snapshot.edges, edge.executionCandidate ∧ edge.parentAgentId = first ∧
    edge.childAgentId = second

/-- The edge of the delegation is in the snapshot and is no candidate. -/
def MarkedNonCandidate (snapshot : ExecutionGraphSnapshot) (delegation : Delegation) : Prop :=
  ∃ edge ∈ snapshot.edges, edge.executionCandidate = false ∧
    edge.relationId = some delegation.relation.id ∧
    edge.parentAgentId = delegation.parent topology ∧
    edge.childAgentId = delegation.child topology

/-- `edgeIndex[first][second]`. -/
def indexedEdge (first second : String) : Option GraphEdge :=
  (snapshot.edgeIndex.get? first).bind (·.get? second)

def EnabledExecutor (agentId : String) : Prop :=
  ∃ agent, snapshot.agentsById.get? agentId = some agent ∧ agent.executionCandidate

/-- An enabled node of the topology has the agent id. -/
def EnabledNode (agentId : String) : Prop :=
  ∃ node ∈ topology.nodes, topologyAgentId topology.id node.id = agentId ∧
    nodeExecutionCandidate node

structure SoundSnapshot (snapshot : ExecutionGraphSnapshot) : Prop where
  acyclic : ∀ agentId, ¬ Relation.TransGen (CandidateEdge snapshot) agentId agentId
  marked : ∀ delegation ∈ delegations topology,
    MarkedNonCandidate topology snapshot delegation ↔ OnCycle topology delegation
  indexed : ∀ first second,
    (indexedEdge snapshot first second).any (·.executionCandidate) ↔
      CandidateEdge snapshot first second
  available : ∀ agentId, agentId ∈ snapshot.availableExecutorIds ↔
    EnabledExecutor snapshot agentId ∧ CandidateEdge snapshot snapshot.currentExecutorId agentId
  reachable : ∀ agentId, EnabledNode topology agentId →
    ¬ Relation.TransGen (DelegatesTo topology) agentId agentId →
    (∀ other, Relation.TransGen (DelegatesTo topology) other agentId →
      EnabledNode topology other ∧ ¬ Relation.TransGen (DelegatesTo topology) other other) →
    Relation.ReflTransGen (CandidateEdge snapshot) snapshot.rootAgentId agentId

/-! ## When they are sound -/

def Delegation.key : String := pairKey (delegation.parent topology) (delegation.child topology)

/-- The last linked delegation under a pair key. -/
def lastUnderKey (key : String) : Option Delegation :=
  (linkedDelegations topology).reverse.find? fun delegation => delegation.key topology = key

/-- Some linked delegation leads from the first executor to the second. -/
def LinkedTo (first second : String) : Prop :=
  ∃ delegation ∈ linkedDelegations topology, delegation.parent topology = first ∧
    delegation.child topology = second

/-- Delegations on cycles are told apart by their ids and by the executors they join. -/
structure CyclesTold : Prop where
  /-- A delegation on a cycle joins the executors that the first one with its id joins. -/
  identified : ∀ delegation ∈ delegations topology, OnCycle topology delegation →
    ∃ linked ∈ linkedDelegations topology, linked.relation.id = delegation.relation.id ∧
      linked.parent topology = delegation.parent topology ∧
      linked.child topology = delegation.child topology
  /-- No delegation on a cycle is followed by another one under the same pair key. -/
  single : ∀ delegation ∈ linkedDelegations topology, OnCycle topology delegation →
    lastUnderKey topology (delegation.key topology) = some delegation

/-- When the snapshot of a topology is sound. -/
structure KeepsGraph (rootAgentId : String) : Prop extends CyclesTold topology where
  /-- Of the nodes with one id that no edge leads to, the last is enabled if any is. -/
  statuses : ∀ node ∈ unparentedNodes topology, nodeExecutionCandidate node →
    ((unparentedNodes topology).reverse.find? (·.id = node.id)).any nodeExecutionCandidate = true
  /-- No way off the cycles leads from such a node to the root executor. -/
  rootOutside : ∀ node ∈ unparentedNodes topology, nodeExecutionCandidate node →
    ¬ Relation.ReflTransGen (OffCycle (LinkedTo topology))
      (topologyAgentId topology.id node.id) rootAgentId

end Statement

/-! ## The edges of a draft -/

variable {topology : EnterpriseTopology} {host : Host} {rootAgentId currentExecutorId : String}

variable (edges : List GraphEdge) (draft : GraphDraft) {node : NodeContract} {last : String}

theorem edges_foldl_appendEdge : (edges.foldl appendEdge draft).edges = draft.edges ++ edges := by
  induction edges generalizing draft with
  | nil => exact (append_nil _).symm
  | cons edge rest ih => rw [foldl_cons, ih, appendEdge, append_assoc, singleton_append]

theorem directChildren_foldl_appendEdge :
    (edges.foldl appendEdge draft).directChildren =
      edges.foldl (fun children edge => children.set edge.parentAgentId
        (((children.get? edge.parentAgentId).getD ∅).add edge.childAgentId))
        draft.directChildren := by
  induction edges generalizing draft with
  | nil => rfl
  | cons edge rest ih =>
    rw [foldl_cons, ih]
    rfl

/-- The children of an executor are those its edges lead to. -/
theorem mem_directChildren_iff (parent child : String) :
    child ∈ ((edges.foldl appendEdge draft).directChildren.get? parent).getD ∅ ↔
      child ∈ (draft.directChildren.get? parent).getD ∅ ∨
        ∃ edge ∈ edges, edge.parentAgentId = parent ∧ edge.childAgentId = child := by
  rw [directChildren_foldl_appendEdge,
    getD_foldl_update (fun edge : GraphEdge => edge.parentAgentId)
      (fun (children : OrderedSet String) edge => children.add edge.childAgentId),
    ← foldl_map, OrderedSet.mem_foldl_add]
  simp [and_assoc]

/-- The edges of the linked delegations before any is marked. -/
def linkedEdges (topology : EnterpriseTopology) : List GraphEdge :=
  (linkedDelegations topology).map (delegationEdge topology)

theorem edges_appendTopologyEdges :
    (appendTopologyEdges host topology rootAgentId).edges =
      markCycleEdges host (linkedEdges topology) ++
        (unparentedNodes topology).map (rootEdge topology rootAgentId) := by
  rw [appendTopologyEdges, edges_foldl_appendEdge, edges_foldl_appendEdge, nil_append]
  rfl

/-! ## The marking of cycles -/

theorem relationCandidates_linkedEdges :
    relationCandidates (linkedEdges topology) = linkedEdges topology := by
  rw [relationCandidates, filter_eq_self]
  intro edge hedge
  obtain ⟨delegation, -, rfl⟩ := mem_map.mp hedge
  rfl

theorem children_cycleSearch (parent : String) :
    (cycleSearch (linkedEdges topology)).children parent =
      ((linkedEdges topology).filter fun edge => edge.parentAgentId = parent).map
        (·.childAgentId) := by
  show ((adjacencyOf (linkedEdges topology)).get? parent).getD [] = _
  rw [adjacencyOf, relationCandidates_linkedEdges,
    getD_foldl_update (fun edge : GraphEdge => edge.parentAgentId)
      (fun (children : List String) edge => children ++ [edge.childAgentId])]
  rw [foldl_append_eq_append, get?_empty, Option.getD_none, nil_append,
    ← flatMap_def, ← map_eq_flatMap]

theorem adjacent_cycleSearch :
    (cycleSearch (linkedEdges topology)).Adjacent = LinkedTo topology := by
  funext first second
  show (second ∈ (cycleSearch (linkedEdges topology)).children first) = _
  rw [children_cycleSearch]
  simp only [linkedEdges, mem_map, mem_filter, decide_eq_true_eq, LinkedTo, eq_iff_iff]
  constructor
  · rintro ⟨edge, ⟨⟨delegation, hlinked, rfl⟩, hparent⟩, hchild⟩
    exact ⟨delegation, hlinked, hparent, hchild⟩
  · rintro ⟨delegation, hlinked, hparent, hchild⟩
    exact ⟨delegationEdge topology delegation, ⟨⟨delegation, hlinked, rfl⟩, hparent⟩, hchild⟩

theorem delegationEdgeId_ne_empty (delegation : Delegation) :
    delegationEdgeId topology delegation ≠ "" := by
  intro hempty
  have hchars := congrArg String.toList hempty
  simp [delegationEdgeId] at hchars

/-- Under a pair key the map keeps the edge of the last linked delegation. -/
theorem get?_edgeIdByPair (key : String) :
    (edgeIdByPair (linkedEdges topology)).get? key =
      (lastUnderKey topology key).map (delegationEdgeId topology) := by
  rw [edgeIdByPair, relationCandidates_linkedEdges,
    get?_foldl_set (fun edge : GraphEdge => pairKey edge.parentAgentId edge.childAgentId)
      (fun edge : GraphEdge => edge.edgeId),
    get?_empty, Option.or_none, linkedEdges, ← map_reverse, find?_map,
    Option.map_map]
  rfl

/-- A delegation among the linked ones lies on a cycle of linked ones. -/
def OnLinkedCycle (topology : EnterpriseTopology) (delegation : Delegation) : Prop :=
  Relation.ReflTransGen (LinkedTo topology) (delegation.child topology) (delegation.parent topology)

/-- The edge ids that are marked: for each delegation on a cycle that of the last one under
its pair key. -/
theorem mem_cycleEdgeIds_iff {edgeId : String} :
    edgeId ∈ cycleEdgeIds (linkedEdges topology) ↔
      ∃ delegation ∈ linkedDelegations topology, OnLinkedCycle topology delegation ∧
        ∃ last, lastUnderKey topology (delegation.key topology) = some last ∧
          delegationEdgeId topology last = edgeId := by
  have hsteps : ∀ first second, (∃ cycle ∈ (cycleSearch (linkedEdges topology)).cycles,
        (first, second) ∈ cycleSteps cycle) ↔
      LinkedTo topology first second ∧ Relation.ReflTransGen (LinkedTo topology) second first := by
    intro first second
    rw [CycleSearch.mem_cycleSteps_iff, adjacent_cycleSearch]
  have hids : ∀ key, truthyText ((edgeIdByPair (linkedEdges topology)).get? key) = some edgeId ↔
      ∃ last, lastUnderKey topology key = some last ∧ delegationEdgeId topology last = edgeId := by
    intro key
    rw [get?_edgeIdByPair, truthyText, Option.filter_eq_some_iff, Option.map_eq_some_iff]
    refine and_iff_left_of_imp ?_
    rintro ⟨last, -, rfl⟩
    simpa using delegationEdgeId_ne_empty last
  simp only [cycleEdgeIds, mem_flatMap, mem_filterMap, hids]
  constructor
  · rintro ⟨cycle, hcycle, ⟨first, second⟩, hstep, hlast⟩
    obtain ⟨⟨delegation, hlinked, rfl, rfl⟩, hback⟩ :=
      (hsteps first second).mp ⟨cycle, hcycle, hstep⟩
    exact ⟨delegation, hlinked, hback, hlast⟩
  · rintro ⟨delegation, hlinked, hcycle, hlast⟩
    obtain ⟨cycle, hfound, hstep⟩ :=
      (hsteps (delegation.parent topology) (delegation.child topology)).mpr
        ⟨⟨delegation, hlinked, rfl, rfl⟩, hcycle⟩
    exact ⟨cycle, hfound, _, hstep, hlast⟩

variable {delegation : Delegation} {first second : String}

theorem mem_delegations_of_linked (hlinked : delegation ∈ linkedDelegations topology) :
    delegation ∈ delegations topology :=
  (keepFirst_sublist _ _ _).subset hlinked

/-- Linked delegations with the same relation id are the same. -/
theorem eq_of_relation_id {first second : Delegation}
    (hfirst : first ∈ linkedDelegations topology) (hsecond : second ∈ linkedDelegations topology)
    (hid : first.relation.id = second.relation.id) : first = second := by
  have hnodup := (keepFirst_nodup (delegationEdgeId topology) [] (delegations topology)).1
  refine inj_on_of_nodup_map hnodup hfirst hsecond ?_
  rw [delegationEdgeId, delegationEdgeId, hid]

theorem relation_id_of_edgeId {first second : Delegation}
    (hid : delegationEdgeId topology first = delegationEdgeId topology second) :
    first.relation.id = second.relation.id :=
  (String.append_right_inj _).mp hid

theorem mem_of_lastUnderKey {key : String} {last : Delegation}
    (hlast : lastUnderKey topology key = some last) :
    last ∈ linkedDelegations topology ∧ last.key topology = key := by
  refine ⟨mem_reverse.mp (mem_of_find?_eq_some hlast), ?_⟩
  simpa using find?_some hlast

/-- A linked delegation is marked exactly if it is the last one under the pair key of some
delegation on a cycle. -/
theorem marked_linked_iff (hlinked : delegation ∈ linkedDelegations topology) :
    delegationEdgeId topology delegation ∈ cycleEdgeIds (linkedEdges topology) ↔
      ∃ other ∈ linkedDelegations topology, OnLinkedCycle topology other ∧
        lastUnderKey topology (other.key topology) = some delegation := by
  rw [mem_cycleEdgeIds_iff]
  constructor
  · rintro ⟨other, hother, hcycle, last, hlast, hid⟩
    obtain rfl := eq_of_relation_id (mem_of_lastUnderKey hlast).1 hlinked
      (relation_id_of_edgeId hid)
    exact ⟨other, hother, hcycle, hlast⟩
  · rintro ⟨other, hother, hcycle, hlast⟩
    exact ⟨other, hother, hcycle, delegation, hlast, rfl⟩

/-- Is the edge of the delegation marked? -/
def Marked (topology : EnterpriseTopology) (delegation : Delegation) : Prop :=
  delegationEdgeId topology delegation ∈ cycleEdgeIds (linkedEdges topology)

instance (topology : EnterpriseTopology) (delegation : Delegation) :
    Decidable (Marked topology delegation) :=
  inferInstanceAs (Decidable (_ ∈ _))

/-- The edge of a delegation after the marking. -/
def markedEdge (host : Host) (topology : EnterpriseTopology) (delegation : Delegation) :
    GraphEdge :=
  if Marked topology delegation then
    { delegationEdge topology delegation with
      executionCandidate := false
      reasonCodes := sortedUniqueStrings host ([] ++ ["cycle_detected"]) }
  else delegationEdge topology delegation

@[simp]
theorem markedEdge_parent (delegation : Delegation) :
    (markedEdge host topology delegation).parentAgentId = delegation.parent topology := by
  unfold markedEdge
  split <;> rfl

@[simp]
theorem markedEdge_child (delegation : Delegation) :
    (markedEdge host topology delegation).childAgentId = delegation.child topology := by
  unfold markedEdge
  split <;> rfl

@[simp]
theorem markedEdge_relationId (delegation : Delegation) :
    (markedEdge host topology delegation).relationId = some delegation.relation.id := by
  unfold markedEdge
  split <;> rfl

@[simp]
theorem markedEdge_candidate (delegation : Delegation) :
    (markedEdge host topology delegation).executionCandidate =
      !decide (Marked topology delegation) := by
  unfold markedEdge
  split
  · next hmarked => rw [decide_eq_true hmarked]; rfl
  · next hmarked => rw [decide_eq_false hmarked]; rfl

theorem markCycleEdges_linkedEdges :
    markCycleEdges host (linkedEdges topology) =
      (linkedDelegations topology).map (markedEdge host topology) := by
  show ((linkedDelegations topology).map (delegationEdge topology)).map _ = _
  rw [map_map]
  rfl

/-! ## The edges of a snapshot -/

/-- An edge of the graph is that of a linked delegation, marked or not, or one from the root. -/
theorem mem_edges_iff {edge : GraphEdge} :
    edge ∈ (topologySnapshot host topology rootAgentId currentExecutorId).edges ↔
      (∃ delegation ∈ linkedDelegations topology, markedEdge host topology delegation = edge) ∨
        ∃ node ∈ unparentedNodes topology, rootEdge topology rootAgentId node = edge := by
  show edge ∈ (appendTopologyEdges host topology rootAgentId).edges.mergeSort _ ↔ _
  rw [mem_mergeSort, edges_appendTopologyEdges, markCycleEdges_linkedEdges,
    mem_append, mem_map, mem_map]

/-- The candidates are the delegations that are not marked and the edges from the root to
enabled nodes. -/
theorem candidateEdge_iff :
    CandidateEdge (topologySnapshot host topology rootAgentId currentExecutorId) first second ↔
      (∃ delegation ∈ linkedDelegations topology, ¬ Marked topology delegation ∧
        delegation.parent topology = first ∧ delegation.child topology = second) ∨
      first = rootAgentId ∧ ∃ node ∈ unparentedNodes topology, nodeExecutionCandidate node ∧
          topologyAgentId topology.id node.id = second := by
  constructor
  · rintro ⟨edge, hedge, hcandidate, rfl, rfl⟩
    obtain ⟨delegation, hlinked, rfl⟩ | ⟨node, hnode, rfl⟩ := mem_edges_iff.mp hedge
    · rw [markedEdge_candidate, Bool.not_eq_true', decide_eq_false_iff_not] at hcandidate
      exact .inl ⟨delegation, hlinked, hcandidate, by simp, by simp⟩
    · exact .inr ⟨rfl, node, hnode, hcandidate, rfl⟩
  · rintro (⟨delegation, hlinked, hmarked, rfl, rfl⟩ | ⟨rfl, node, hnode, hcandidate, rfl⟩)
    · exact ⟨markedEdge host topology delegation, mem_edges_iff.mpr (.inl ⟨_, hlinked, rfl⟩),
        by simp [hmarked], by simp, by simp⟩
    · exact ⟨rootEdge topology first node, mem_edges_iff.mpr (.inr ⟨node, hnode, rfl⟩),
        hcandidate, rfl, rfl⟩

theorem markedNonCandidate_iff :
    MarkedNonCandidate topology (topologySnapshot host topology rootAgentId currentExecutorId)
        delegation ↔
      ∃ linked ∈ linkedDelegations topology, Marked topology linked ∧
        linked.relation.id = delegation.relation.id ∧
        linked.parent topology = delegation.parent topology ∧
        linked.child topology = delegation.child topology := by
  constructor
  · rintro ⟨edge, hedge, hcandidate, hid, hparent, hchild⟩
    obtain ⟨linked, hlinked, rfl⟩ | ⟨node, -, rfl⟩ := mem_edges_iff.mp hedge
    · rw [markedEdge_candidate, Bool.not_eq_false', decide_eq_true_eq] at hcandidate
      rw [markedEdge_relationId, Option.some.injEq] at hid
      rw [markedEdge_parent] at hparent
      rw [markedEdge_child] at hchild
      exact ⟨linked, hlinked, hcandidate, hid, hparent, hchild⟩
    · cases hid
  · rintro ⟨linked, hlinked, hmarked, hid, hparent, hchild⟩
    exact ⟨markedEdge host topology linked, mem_edges_iff.mpr (.inl ⟨_, hlinked, rfl⟩),
      by simp [hmarked], by simp [hid], by simp [hparent], by simp [hchild]⟩

/-! ## Delegations on cycles -/

theorem LinkedTo.delegatesTo (hlinked : LinkedTo topology first second) :
    DelegatesTo topology first second := by
  obtain ⟨delegation, hmem, hends⟩ := hlinked
  exact ⟨delegation, mem_delegations_of_linked hmem, hends⟩

theorem onCycle_of_onLinkedCycle (hcycle : OnLinkedCycle topology delegation) :
    OnCycle topology delegation :=
  Relation.ReflTransGen.mono (fun _ _ => LinkedTo.delegatesTo) _ _ hcycle

namespace CyclesTold

section

variable (htold : CyclesTold topology)
include htold

theorem onLinkedCycle (hmem : delegation ∈ delegations topology)
    (hcycle : OnCycle topology delegation) : OnLinkedCycle topology delegation := by
  refine reflTransGen_of_cyclic ?_ hcycle (.single ⟨delegation, hmem, rfl, rfl⟩)
  rintro first second ⟨step, hstep, rfl, rfl⟩ hback
  obtain ⟨linked, hlinked, -, hparent, hchild⟩ := htold.identified step hstep hback
  exact ⟨linked, hlinked, hparent, hchild⟩

theorem marked_iff (hlinked : delegation ∈ linkedDelegations topology)
    :
    Marked topology delegation ↔ OnCycle topology delegation := by
  rw [Marked, marked_linked_iff hlinked]
  constructor
  · rintro ⟨other, hother, hcycle, hlast⟩
    have hsingle := htold.single other hother (onCycle_of_onLinkedCycle hcycle)
    cases hsingle.symm.trans hlast
    exact onCycle_of_onLinkedCycle hcycle
  · intro hcycle
    exact ⟨delegation, hlinked, htold.onLinkedCycle (mem_delegations_of_linked hlinked) hcycle,
      htold.single delegation hlinked hcycle⟩

/-- The candidates between executors of the topology are the links off the cycles. -/
theorem unmarked_iff_offCycle :
    (∃ delegation ∈ linkedDelegations topology, ¬ Marked topology delegation ∧
        delegation.parent topology = first ∧ delegation.child topology = second) ↔
      OffCycle (LinkedTo topology) first second := by
  constructor
  · rintro ⟨delegation, hlinked, hmarked, rfl, rfl⟩
    refine ⟨⟨delegation, hlinked, rfl, rfl⟩, fun hback => hmarked ?_⟩
    exact (htold.marked_iff hlinked).mpr (onCycle_of_onLinkedCycle hback)
  · rintro ⟨⟨delegation, hlinked, rfl, rfl⟩, hback⟩
    refine ⟨delegation, hlinked, fun hmarked => hback ?_, rfl, rfl⟩
    exact htold.onLinkedCycle (mem_delegations_of_linked hlinked)
      ((htold.marked_iff hlinked).mp hmarked)

theorem marked_sound (hmem : delegation ∈ delegations topology) :
    MarkedNonCandidate topology (topologySnapshot host topology rootAgentId currentExecutorId)
        delegation ↔ OnCycle topology delegation := by
  rw [markedNonCandidate_iff]
  constructor
  · rintro ⟨linked, hlinked, hmarked, -, hparent, hchild⟩
    have hcycle := (htold.marked_iff hlinked).mp hmarked
    unfold OnCycle at hcycle ⊢
    rwa [hparent, hchild] at hcycle
  · intro hcycle
    obtain ⟨linked, hlinked, hid, hparent, hchild⟩ := htold.identified delegation hmem hcycle
    refine ⟨linked, hlinked, (htold.marked_iff hlinked).mpr ?_, hid, hparent, hchild⟩
    unfold OnCycle at hcycle ⊢
    rwa [hparent, hchild]

end

/-- If the marking is right, delegations on cycles are told apart. -/
theorem of_marked (hmarked : ∀ delegation ∈ delegations topology, MarkedNonCandidate topology
        (topologySnapshot host topology rootAgentId currentExecutorId) delegation ↔
        OnCycle topology delegation) : CyclesTold topology := by
  refine ⟨?_, ?_⟩
  · intro delegation hmem hcycle
    obtain ⟨linked, hlinked, -, hsame⟩ :=
      markedNonCandidate_iff.mp ((hmarked delegation hmem).mpr hcycle)
    exact ⟨linked, hlinked, hsame⟩
  · intro delegation hlinked hcycle
    obtain ⟨other, hother, hmark, hid, -⟩ := markedNonCandidate_iff.mp
      ((hmarked delegation (mem_delegations_of_linked hlinked)).mpr hcycle)
    obtain rfl := eq_of_relation_id hother hlinked hid
    obtain ⟨cyclic, -, -, hlast⟩ := (marked_linked_iff hlinked).mp hmark
    rw [(mem_of_lastUnderKey hlast).2]
    exact hlast

/-- The candidates have no cycle exactly if none leads through the root. -/
theorem acyclic_iff (htold : CyclesTold topology) :
    (∀ agentId, ¬ Relation.TransGen (CandidateEdge
        (topologySnapshot host topology rootAgentId currentExecutorId)) agentId agentId) ↔
      ∀ node ∈ unparentedNodes topology, nodeExecutionCandidate node →
        ¬ Relation.ReflTransGen (OffCycle (LinkedTo topology))
          (topologyAgentId topology.id node.id) rootAgentId := by
  have hedges : CandidateEdge (topologySnapshot host topology rootAgentId currentExecutorId) =
      AddTargets (OffCycle (LinkedTo topology)) rootAgentId fun agentId =>
        ∃ node ∈ unparentedNodes topology, nodeExecutionCandidate node ∧
          topologyAgentId topology.id node.id = agentId := by
    funext first second
    rw [eq_iff_iff, candidateEdge_iff, htold.unmarked_iff_offCycle]
    rfl
  rw [hedges, acyclic_addTargets_iff acyclic_offCycle]
  constructor
  · intro hnever node hnode henabled
    exact hnever _ ⟨node, hnode, henabled, rfl⟩
  · rintro hnever agentId ⟨node, hnode, henabled, rfl⟩
    exact hnever node hnode henabled

end CyclesTold

/-! ## The index -/

theorem topologyAgentId_injective
    (hsame : topologyAgentId topology.id first = topologyAgentId topology.id second) :
    first = second :=
  (String.append_right_inj _).mp hsame

/-- No delegation leads to a node that hangs below the root. -/
theorem not_child_of_unparented (hnode : node ∈ unparentedNodes topology)
    (hlinked : delegation ∈ linkedDelegations topology) :
    delegation.child topology ≠ topologyAgentId topology.id node.id := by
  intro hchild
  have hincoming := (mem_filter.mp hnode).2
  rw [decide_eq_true_eq, OrderedSet.mem_ofList, mem_map] at hincoming
  exact hincoming ⟨delegation, hlinked, topologyAgentId_injective hchild⟩

/-- The index holds the last edge between two executors. -/
theorem indexedEdge_materialized {snapshot : ExecutionGraphSnapshot} {edges : List GraphEdge}
    (hindex : snapshot.edgeIndex = materializeEdgeIndex edges) (first second : String) :
    indexedEdge snapshot first second = edges.reverse.find? fun edge =>
      edge.parentAgentId = first ∧ edge.childAgentId = second := by
  have hgetD (index : OrderedMap String (OrderedMap String GraphEdge)) :
      (index.get? first).bind (·.get? second) = ((index.get? first).getD ∅).get? second := by
    cases index.get? first <;> rfl
  rw [indexedEdge, hgetD, hindex, materializeEdgeIndex,
    getD_foldl_update (fun edge : GraphEdge => edge.parentAgentId)
      (fun (children : OrderedMap String GraphEdge) edge => children.set edge.childAgentId edge),
    get?_foldl_set (fun edge : GraphEdge => edge.childAgentId) (fun edge => edge),
    get?_empty, Option.getD_none, get?_empty, Option.or_none, Option.map_id',
    ← filter_reverse, find?_filter]
  simp only [decide_eq_true_eq]

theorem indexedEdge_eq (first second : String) :
    indexedEdge (topologySnapshot host topology rootAgentId currentExecutorId) first second =
      ((linkedDelegations topology).map (markedEdge host topology) ++
        (unparentedNodes topology).map (rootEdge topology rootAgentId)).reverse.find? fun edge =>
          edge.parentAgentId = first ∧ edge.childAgentId = second := by
  have hedges : (topologySnapshot host topology rootAgentId currentExecutorId).edgeIndex =
      materializeEdgeIndex (appendTopologyEdges host topology rootAgentId).edges := rfl
  rw [indexedEdge_materialized hedges, edges_appendTopologyEdges, markCycleEdges_linkedEdges]

/-- Between the root and a node below it stands the edge of the last node with the id. -/
theorem indexedEdge_root (hnode : node ∈ unparentedNodes topology) :
    indexedEdge (topologySnapshot host topology rootAgentId currentExecutorId) rootAgentId
        (topologyAgentId topology.id node.id) =
      ((unparentedNodes topology).reverse.find? (·.id = node.id)).map
        (rootEdge topology rootAgentId) := by
  have hids : (fun edge : GraphEdge => decide (edge.parentAgentId = rootAgentId ∧
        edge.childAgentId = topologyAgentId topology.id node.id)) ∘
          rootEdge topology rootAgentId = fun other => decide (other.id = node.id) := by
    funext other
    refine decide_eq_decide.mpr ⟨fun hsame => topologyAgentId_injective hsame.2, ?_⟩
    intro hid
    exact ⟨rfl, congrArg (topologyAgentId topology.id) hid⟩
  rw [indexedEdge_eq, reverse_append, find?_append, ← map_reverse, find?_map, hids]
  have hfound : ((unparentedNodes topology).reverse.find? (·.id = node.id)).isSome := by
    rw [find?_isSome]
    exact ⟨node, mem_reverse.mpr hnode, decide_eq_true rfl⟩
  obtain ⟨last, hlast⟩ := Option.isSome_iff_exists.mp hfound
  rw [hlast]
  rfl

theorem exists_indexedEdge_linked {delegation : Delegation}
    (hlinked : delegation ∈ linkedDelegations topology) :
    ∃ last ∈ linkedDelegations topology, last.parent topology = delegation.parent topology ∧
      last.child topology = delegation.child topology ∧
      indexedEdge (topologySnapshot host topology rootAgentId currentExecutorId)
        (delegation.parent topology) (delegation.child topology) =
          some (markedEdge host topology last) := by
  have hmem : markedEdge host topology delegation ∈
      ((linkedDelegations topology).map (markedEdge host topology) ++
        (unparentedNodes topology).map (rootEdge topology rootAgentId)).reverse :=
    mem_reverse.mpr (mem_append_left _ (mem_map_of_mem hlinked))
  have hfound : (indexedEdge (topologySnapshot host topology rootAgentId currentExecutorId)
      (delegation.parent topology) (delegation.child topology)).isSome := by
    rw [indexedEdge_eq, find?_isSome]
    exact ⟨_, hmem, by simp⟩
  obtain ⟨edge, hedge⟩ := Option.isSome_iff_exists.mp hfound
  have hindexed := hedge
  rw [indexedEdge_eq] at hindexed
  have hends := find?_some hindexed
  rw [decide_eq_true_eq] at hends
  have hedges := mem_reverse.mp (mem_of_find?_eq_some hindexed)
  obtain hmarked | hroot := mem_append.mp hedges
  · obtain ⟨last, hlast, rfl⟩ := mem_map.mp hmarked
    rw [markedEdge_parent, markedEdge_child] at hends
    exact ⟨last, hlast, hends.1, hends.2, hedge⟩
  · obtain ⟨node, hnode, rfl⟩ := mem_map.mp hroot
    exact absurd hends.2.symm (not_child_of_unparented hnode hlinked)

/-- The index agrees with the candidates exactly if the last of the nodes with one id below
the root is enabled when any is. -/
theorem CyclesTold.indexed_iff (htold : CyclesTold topology) :
    (∀ first second,
      (indexedEdge (topologySnapshot host topology rootAgentId currentExecutorId) first
          second).any (·.executionCandidate) ↔
        CandidateEdge (topologySnapshot host topology rootAgentId currentExecutorId) first second) ↔
      ∀ node ∈ unparentedNodes topology, nodeExecutionCandidate node →
        ((unparentedNodes topology).reverse.find? (·.id = node.id)).any nodeExecutionCandidate := by
  constructor
  · intro hindexed node hnode henabled
    have hlast := (hindexed rootAgentId (topologyAgentId topology.id node.id)).mpr
      (candidateEdge_iff.mpr (.inr ⟨rfl, node, hnode, henabled, rfl⟩))
    rw [indexedEdge_root hnode, Option.any_map] at hlast
    exact hlast
  · intro hstatuses first second
    constructor
    · intro hindexed
      obtain ⟨edge, hedge, hcandidate⟩ := (Option.any_eq_true _ _).mp hindexed
      rw [indexedEdge_eq] at hedge
      have hends := find?_some hedge
      rw [decide_eq_true_eq] at hends
      have hmem := mem_reverse.mp (mem_of_find?_eq_some hedge)
      rw [mem_append, mem_map, mem_map] at hmem
      exact ⟨edge, mem_edges_iff.mpr hmem, hcandidate, hends.1, hends.2⟩
    · intro hcandidate
      obtain ⟨delegation, hlinked, hmarked, rfl, rfl⟩ | ⟨rfl, node, hnode, henabled, rfl⟩ :=
        candidateEdge_iff.mp hcandidate
      · obtain ⟨last, hlast, hparent, hchild, hindexed⟩ :=
          @exists_indexedEdge_linked topology host rootAgentId currentExecutorId _ hlinked
        have hoff : ¬ Marked topology last := by
          rw [htold.marked_iff hlast]
          rw [htold.marked_iff hlinked] at hmarked
          intro hcycle
          apply hmarked
          unfold OnCycle at hcycle ⊢
          rwa [hparent, hchild] at hcycle
        rw [hindexed, Option.any_some, markedEdge_candidate, decide_eq_false hoff]
        rfl
      · rw [indexedEdge_root hnode, Option.any_map]
        exact hstatuses node hnode henabled

/-! ## Available executors -/

theorem mem_sortedTexts {texts : List String} {text : String} :
    text ∈ sortedTexts host texts ↔ text ∈ texts :=
  mem_mergeSort

/-- Sorting leaves the children of an executor as they are. -/
theorem mem_sortedChildren {child : String} {ids : Option (OrderedSet String)} :
    child ∈ (ids.map fun ids => sortedTexts host ids.elements).getD [] ↔ child ∈ ids.getD ∅ := by
  cases ids with
  | none => exact Iff.rfl
  | some ids => exact mem_sortedTexts

theorem mem_directChildAgentIds_iff (parent child : String) :
    child ∈ ((topologySnapshot host topology rootAgentId
        currentExecutorId).directChildAgentIdsByParent.get? parent).getD [] ↔
      ∃ edge ∈ linkedEdges topology ++
          (unparentedNodes topology).map (rootEdge topology rootAgentId),
        edge.parentAgentId = parent ∧ edge.childAgentId = child := by
  have hchildren : (topologySnapshot host topology rootAgentId
        currentExecutorId).directChildAgentIdsByParent.get? parent =
      ((appendTopologyEdges host topology rootAgentId).directChildren.get? parent).map fun ids =>
        sortedTexts host ids.elements :=
    get?_foldl_entries (fun ids : OrderedSet String => sortedTexts host ids.elements)
      (appendTopologyEdges host topology rootAgentId).directChildren parent
  have hlinked : child ∈ (((linkedEdges topology).foldl appendEdge
        { edges := [], directChildren := ∅ }).directChildren.get? parent).getD ∅ ↔
      ∃ edge ∈ linkedEdges topology, edge.parentAgentId = parent ∧ edge.childAgentId = child := by
    rw [mem_directChildren_iff, get?_empty]
    exact or_iff_right (OrderedSet.mem_empty child)
  rw [hchildren, mem_sortedChildren, appendTopologyEdges, mem_directChildren_iff]
  refine (or_congr_left hlinked).trans ?_
  simp only [mem_append, or_and_right, exists_or]

/-- The list of available executors and the candidates always agree. -/
theorem mem_availableExecutorIds_iff (agentId : String) :
    agentId ∈ (topologySnapshot host topology rootAgentId currentExecutorId).availableExecutorIds ↔
      EnabledExecutor (topologySnapshot host topology rootAgentId currentExecutorId) agentId ∧
        CandidateEdge (topologySnapshot host topology rootAgentId currentExecutorId)
          currentExecutorId agentId := by
  show agentId ∈ List.filter _ (((topologySnapshot host topology rootAgentId
    currentExecutorId).directChildAgentIdsByParent.get? currentExecutorId).getD []) ↔ _
  have henabled : ((projectTopologyAgents topology).get? agentId).any (·.executionCandidate) =
        true ↔
      EnabledExecutor (topologySnapshot host topology rootAgentId currentExecutorId) agentId :=
    Option.any_eq_true _ _
  have hcandidate : (appendTopologyEdges host topology rootAgentId).edges.any (fun edge =>
        edge.parentAgentId = currentExecutorId && edge.childAgentId = agentId &&
          edge.executionCandidate) ↔
      CandidateEdge (topologySnapshot host topology rootAgentId currentExecutorId)
        currentExecutorId agentId := by
    rw [any_eq_true]
    refine exists_congr fun edge => and_congr mem_mergeSort.symm ?_
    simp only [Bool.and_eq_true, decide_eq_true_eq]
    tauto
  rw [mem_filter, mem_directChildAgentIds_iff, Bool.and_eq_true, henabled, hcandidate]
  refine and_iff_right_of_imp fun hboth => ?_
  obtain ⟨delegation, hlinked, -, hparent, hchild⟩ | ⟨rfl, node, hnode, -, hchild⟩ :=
    candidateEdge_iff.mp hboth.2
  · exact ⟨delegationEdge topology delegation,
      mem_append_left _ (mem_map_of_mem hlinked), hparent, hchild⟩
  · exact ⟨rootEdge topology currentExecutorId node,
      mem_append_right _ (mem_map_of_mem hnode), rfl, hchild⟩

/-! ## Reaching the executors -/

theorem finite_linkedTo : {agentId | ∃ other, LinkedTo topology agentId other}.Finite := by
  refine ((linkedDelegations topology).map fun delegation =>
    delegation.parent topology).finite_toSet.subset ?_
  rintro agentId ⟨other, delegation, hlinked, rfl, -⟩
  exact mem_map_of_mem hlinked

/-- Below an enabled node that no delegation leads to, everything off the cycles is reached. -/
theorem CyclesTold.reaches (htold : CyclesTold topology)
    (hway : Relation.ReflTransGen (OffCycle (LinkedTo topology)) first last) :
    Relation.ReflTransGen
      (CandidateEdge (topologySnapshot host topology rootAgentId currentExecutorId)) first last :=
  Relation.ReflTransGen.mono (fun _ _ hstep =>
    candidateEdge_iff.mpr (.inl (htold.unmarked_iff_offCycle.mpr hstep))) _ _ hway

theorem transGen_delegatesTo (hway : Relation.TransGen (LinkedTo topology) first last) :
    Relation.TransGen (DelegatesTo topology) first last :=
  Relation.TransGen.mono (fun _ _ => LinkedTo.delegatesTo) _ _ hway

/-- An enabled node with no cycle and no disabled node above it hangs below the root. -/
theorem CyclesTold.reachable (htold : CyclesTold topology) {agentId : String}
    (henabled : EnabledNode topology agentId)
    (hoff : ¬ Relation.TransGen (DelegatesTo topology) agentId agentId)
    (habove : ∀ other, Relation.TransGen (DelegatesTo topology) other agentId →
      EnabledNode topology other ∧ ¬ Relation.TransGen (DelegatesTo topology) other other) :
    Relation.ReflTransGen
      (CandidateEdge (topologySnapshot host topology rootAgentId currentExecutorId)) rootAgentId
        agentId := by
  have hboth : ∀ other ∈ above (LinkedTo topology) agentId, EnabledNode topology other ∧
        ¬ Relation.TransGen (LinkedTo topology) other other := by
    intro other hother
    obtain rfl | hway := Relation.reflTransGen_iff_eq_or_transGen.mp hother
    · exact ⟨henabled, fun hcycle => hoff (transGen_delegatesTo hcycle)⟩
    · obtain ⟨hnode, hacyclic⟩ := habove other (transGen_delegatesTo hway)
      exact ⟨hnode, fun hcycle => hacyclic (transGen_delegatesTo hcycle)⟩
  obtain ⟨source, hsource, hfirst⟩ :=
    exists_isSource_above finite_linkedTo fun other hother => (hboth other hother).2
  obtain ⟨⟨node, hnode, rfl, hcandidate⟩, -⟩ := hboth source hsource
  have hpresent : node.status ≠ .archived := by
    intro harchived
    simp [nodeExecutionCandidate, harchived] at hcandidate
  have hunparented : node ∈ unparentedNodes topology := by
    refine mem_filter.mpr ⟨mem_filter.mpr ⟨hnode, by simpa using hpresent⟩, ?_⟩
    rw [decide_eq_true_eq, OrderedSet.mem_ofList, mem_map]
    rintro ⟨delegation, hlinked, hto⟩
    exact hfirst _ ⟨delegation, hlinked, rfl, congrArg (topologyAgentId topology.id) hto⟩
  have hroot : CandidateEdge (topologySnapshot host topology rootAgentId currentExecutorId)
      rootAgentId (topologyAgentId topology.id node.id) :=
    candidateEdge_iff.mpr (.inr ⟨rfl, node, hunparented, hcandidate, rfl⟩)
  have hway := reflTransGen_offCycle (fun other hother => (hboth other hother).2) hsource
  exact (htold.reaches hway).head hroot

/-- The snapshot of a topology is sound exactly when delegations on cycles are told apart,
nodes with one id agree, and the root is not below the nodes that hang below it. -/
theorem soundSnapshot_iff (host : Host) (topology : EnterpriseTopology)
    (rootAgentId currentExecutorId : String) :
    SoundSnapshot topology (topologySnapshot host topology rootAgentId currentExecutorId) ↔
      KeepsGraph topology rootAgentId := by
  constructor
  · intro hsound
    have htold := CyclesTold.of_marked hsound.marked
    exact ⟨htold, htold.indexed_iff.mp hsound.indexed, htold.acyclic_iff.mp hsound.acyclic⟩
  · intro hkeeps
    have htold := hkeeps.toCyclesTold
    exact {
      acyclic := htold.acyclic_iff.mpr hkeeps.rootOutside
      marked := fun _ hmem => htold.marked_sound hmem
      indexed := htold.indexed_iff.mpr hkeeps.statuses
      available := mem_availableExecutorIds_iff
      reachable := fun _ => htold.reachable }

/-! ## Two delegations between the same executors -/

/-- A host that orders nothing and keeps letters as they are. -/
def plainHost : Host where
  localeCompare _ _ := 0
  toLocaleLowerCase := id

def plainNode (id : String) : NodeContract where
  id
  name := id
  displayName := none
  status := .active
  createdAt := .number (.ofNat 0)
  updatedAt := .number (.ofNat 0)
  nodeType := .function
  description := none
  instruction := none
  tags := []
  children := []
  template := none
  metadata := none

def plainDelegation (id fromNodeId toNodeId : String) : EnterpriseRelation where
  id
  name := id
  displayName := none
  status := .active
  createdAt := .number (.ofNat 0)
  updatedAt := .number (.ofNat 0)
  relationType := .delegatesTo
  source := { entityType := .node, id := fromNodeId }
  target := { entityType := .node, id := toNodeId }
  label := none
  metadata := none

/-- Two nodes delegate to each other, the first by two relations. -/
def doubledTopology : TopologyVersion where
  versionId := "topology:doubled@1"
  version := .ofNat 1
  topology :=
    { id := "topology:doubled"
      name := "doubled"
      displayName := none
      status := .active
      createdAt := .number (.ofNat 0)
      updatedAt := .number (.ofNat 0)
      description := none
      nodes := [plainNode "lead", plainNode "worker"]
      relations := [plainDelegation "first" "lead" "worker",
        plainDelegation "second" "lead" "worker", plainDelegation "back" "worker" "lead"]
      metadata := none }

/-- The topology as the snapshot sees it. -/
def doubledView : EnterpriseTopology :=
  legacyTopologyToExecutorCompatibility plainHost (.ofNat 0) doubledTopology

/-- The first of the two relations stays a candidate although it lies on the cycle. -/
theorem doubledTopology_not_sound :
    ¬ SoundSnapshot
      (legacyTopologyToExecutorCompatibility plainHost (.ofNat 0) doubledTopology)
      (buildTopologyExecutionGraphSnapshot plainHost (.ofNat 0) doubledTopology "agent:nobie"
        "agent:nobie") := by
  intro hsound
  have hfirst : ∃ delegation ∈ delegations doubledView, delegation.relation.id = "edge:first" ∧
        delegation.parent doubledView = topologyAgentId doubledView.id "lead" ∧
        delegation.child doubledView = topologyAgentId doubledView.id "worker" := by
    decide +kernel
  have hback : ∃ delegation ∈ delegations doubledView,
      delegation.parent doubledView = topologyAgentId doubledView.id "worker" ∧
        delegation.child doubledView = topologyAgentId doubledView.id "lead" := by
    decide +kernel
  have hunmarked : ∀ linked ∈ linkedDelegations doubledView,
      linked.relation.id = "edge:first" → ¬ Marked doubledView linked := by
    decide +kernel
  obtain ⟨delegation, hmem, hid, hparent, hchild⟩ := hfirst
  have hcycle : OnCycle doubledView delegation := by
    rw [OnCycle, hparent, hchild]
    exact .single hback
  obtain ⟨linked, hlinked, hmarked, hsame, -⟩ :=
    markedNonCandidate_iff.mp ((hsound.marked delegation hmem).mpr hcycle)
  exact hunmarked linked hlinked (hsame.trans hid) hmarked

end Nobie.Orchestration
