/-
# The two checks of a delegation

A decision to delegate is checked twice. The harness checks it against the context, which is
built from the snapshot of the execution graph and shows the executor what it may use. The
resolution of delegations checks the path against the snapshot itself, with all its edges, after
it has trimmed the ids of the path and dropped the blank ones.

A snapshot is given here by the executors and the edges that it is made from.
-/

import Nobie.Orchestration.ExecutionHarness
import Nobie.Orchestration.ExecutionGraph

namespace Nobie.Orchestration

open Foundation Nobie.Topology List OrderedMap

/-! ## Snapshots -/

/-- The executors and the edges of a graph. Each executor stands under its id, and no edge leads
to an executor that is not there. -/
structure GraphParts where
  (rootAgentId currentExecutorId : String)
  agentsById : OrderedMap String ExecutorRuntimeProjection
  edges : List GraphEdge
  keyed : ∀ agentId agent, agentsById.get? agentId = some agent → agent.agentId = agentId
  known : ∀ edge ∈ edges, (agentsById.get? edge.childAgentId).isSome

def GraphParts.snapshot (host : Host) (parts : GraphParts) : ExecutionGraphSnapshot :=
  finalizeSnapshot host parts.rootAgentId parts.currentExecutorId parts.agentsById
    (parts.edges.foldl appendEdge { edges := [], directChildren := ∅ })

/-! ## The context of a snapshot -/

/-- `EXECUTION_GRAPH_ROOT_AGENT_ID` -/
def executionGraphRootAgentId : String := "agent:nobie"

/-- What a graph says about an executor beside its state. -/
structure ExecutorNames where
  (displayName roleName : String)

/-- What the context takes from elsewhere. -/
structure ContextInput where
  request : ExecutionRequest
  requester : Option Requester := none
  riskPolicy : Option RiskPolicy := none
  currentExecutor : Option ExecutorProfile := none
  directExecutionRequested : Option Bool := none
  explicitTargetExecutorId : Option String := none
  explicitProviderTargetId : Option String := none

/-- `DEFAULT_RISK_POLICY` -/
def defaultRiskPolicy : RiskPolicy where
  approvalRequiredFor := RiskBoundaryKind.all
  blockedWithoutApproval := none

section

variable (host : Host) (names : String → ExecutorNames) (graph : ExecutionGraphSnapshot)

/-- `runtimeProjectionToExecutorProfile`. -/
def runtimeProjectionToExecutorProfile (projection : Option ExecutorRuntimeProjection)
    (executorId : String) : ExecutorProfile :=
  match projection with
  | none =>
    { executorId
      displayName := if executorId = executionGraphRootAgentId then "Nobie" else executorId
      roleName := none
      canDelegate := true
      available := executorId = executionGraphRootAgentId }
  | some projection =>
    { executorId := projection.agentId
      displayName := (names projection.agentId).displayName
      roleName := some (names projection.agentId).roleName
      canDelegate := projection.delegationEnabled
      available := projection.executionCandidate }

def graphProfile (executorId : String) : ExecutorProfile :=
  runtimeProjectionToExecutorProfile names (graph.agentsById.get? executorId) executorId

/-- `parentExecutorIdFor`. -/
def parentExecutorIdFor (executorId : String) : Option String :=
  (sortedTexts host ((graph.edges.filter fun edge =>
    edge.childAgentId = executorId && edge.executionCandidate).map (·.parentAgentId))).head?

def graphConnection (edge : GraphEdge) : ExecutorConnection where
  fromExecutorId := edge.parentAgentId
  toExecutorId := edge.childAgentId

/-- `buildAgentExecutionContextFromGraphSnapshot`. -/
def buildExecutionContext (input : ContextInput) : ExecutionContext :=
  let accessibleConnections := (graph.edges.filter (·.executionCandidate)).map graphConnection
  { request := input.request
    currentExecutor := input.currentExecutor.getD (graphProfile names graph graph.currentExecutorId)
    parentExecutor :=
      (parentExecutorIdFor host graph graph.currentExecutorId).map (graphProfile names graph)
    requester := input.requester
    accessibleExecutors := graph.availableExecutorIds.map (graphProfile names graph)
    diagnosticExecutors := some
      ((graph.allRegisteredExecutorIds.filter fun executorId =>
        executorId ≠ graph.currentExecutorId && executorId ∉ graph.availableExecutorIds).map
          (graphProfile names graph))
    accessibleConnections
    riskPolicy := input.riskPolicy.getD defaultRiskPolicy
    executionGraph := some
      { rootExecutorId := graph.rootAgentId
        currentExecutorId := graph.currentExecutorId
        availableExecutorIds := graph.availableExecutorIds
        allActiveExecutorIds := graph.allActiveExecutorIds
        allRegisteredExecutorIds := some graph.allRegisteredExecutorIds
        allowedConnections := accessibleConnections }
    directExecutionRequested := input.directExecutionRequested
    explicitTargetExecutorId := truthyText input.explicitTargetExecutorId
    explicitProviderTargetId := truthyText input.explicitProviderTargetId }

end

/-! ## The check of the path -/

inductive DelegationPathStatus
  | notRequested | notChecked | valid | selectedExecutorMissing | selectedExecutorNotDirectChild
  | selectedConnectionPathInvalid

structure DelegationPathValidation where
  ok : Bool
  status : DelegationPathStatus
  currentExecutorId : String
  selectedExecutorId : Option String := none
  (selectedConnectionPath normalizedConnectionPath issues : List String)

/-- `normalizeConnectionPath`. -/
def normalizeConnectionPath (currentExecutorId : String) (path : List String) : List String :=
  let compactPath := (path.map jsTrim).filter (· ≠ "")
  if compactPath.head? = some currentExecutorId then compactPath
  else currentExecutorId :: compactPath

/-- The path that is checked; one that is not given is the direct one. -/
def delegationPathOf (currentExecutorId selectedExecutorId : String) (path : List String) :
    List String :=
  if path = [] then [currentExecutorId, selectedExecutorId]
  else normalizeConnectionPath currentExecutorId path

/-- The issues of a path to a known executor. -/
def delegationPathIssues (graph : ExecutionGraphSnapshot) (selectedExecutorId : String)
    (path : List String) : List String :=
  let directChildIds :=
    (graph.directChildAgentIdsByParent.get? graph.currentExecutorId).getD []
  issueUnless ((truthyText path[1]?).any (· ∈ directChildIds))
      ("selected_executor_not_direct_child:" ++ selectedExecutorId) ++
    issueUnless (path.getLast? = some selectedExecutorId)
      ("selected_connection_path_must_end_at_executor:" ++ selectedExecutorId) ++
    issueUnless path.Nodup ("selected_connection_path_cycle:" ++ String.intercalate "->" path) ++
    (pairPath path).flatMap fun pair =>
      issueUnless (pair.1 ≠ "" && pair.2 ≠ "" && (indexedEdge graph pair.1 pair.2).isSome)
        ("missing_graph_edge:" ++ pair.1 ++ "->" ++ pair.2)

/-- `validateDelegationPath`. -/
def validateDelegationPath (currentExecutorId : String) (decision : Option ExecutionDecision)
    (graph : Option ExecutionGraphSnapshot) : DelegationPathValidation :=
  let selectedConnectionPath := (decision.map (·.selectedConnectionPath)).getD []
  let currentExecutorId := (graph.map (·.currentExecutorId)).getD currentExecutorId
  match truthyText ((decision.bind (·.selectedExecutorId)).map jsTrim), graph with
  | none, _ =>
    { ok := true
      status := .notRequested
      currentExecutorId
      selectedConnectionPath
      normalizedConnectionPath := []
      issues := [] }
  | some selectedExecutorId, none =>
    { ok := true
      status := .notChecked
      currentExecutorId
      selectedExecutorId := some selectedExecutorId
      selectedConnectionPath
      normalizedConnectionPath :=
        delegationPathOf currentExecutorId selectedExecutorId selectedConnectionPath
      issues := [] }
  | some selectedExecutorId, some graph =>
    let knownExecutorIds :=
      graph.agentsById.keys ++ graph.allActiveExecutorIds ++ graph.allRegisteredExecutorIds
    if selectedExecutorId ∉ knownExecutorIds then
      { ok := false
        status := .selectedExecutorMissing
        currentExecutorId
        selectedExecutorId := some selectedExecutorId
        selectedConnectionPath
        normalizedConnectionPath := selectedConnectionPath
        issues := ["selected_executor_missing:" ++ selectedExecutorId] }
    else
      let normalizedConnectionPath :=
        delegationPathOf currentExecutorId selectedExecutorId selectedConnectionPath
      let issues := delegationPathIssues graph selectedExecutorId normalizedConnectionPath
      { ok := issues.isEmpty
        status :=
          if issues.isEmpty then .valid
          else if issues.any (·.startsWith "selected_executor_not_direct_child:") then
            .selectedExecutorNotDirectChild
          else .selectedConnectionPathInvalid
        currentExecutorId
        selectedExecutorId := some selectedExecutorId
        selectedConnectionPath
        normalizedConnectionPath
        issues }

/-! ## What a snapshot is made of -/

variable {first second agentId : String}

namespace GraphParts

variable {host : Host} {parts : GraphParts}

/-- An edge leads from the first executor to the second. -/
def Linked (parts : GraphParts) (first second : String) : Prop :=
  ∃ edge ∈ parts.edges, edge.parentAgentId = first ∧ edge.childAgentId = second

/-- An edge that is an execution candidate leads from the first executor to the second. -/
def Open (parts : GraphParts) (first second : String) : Prop :=
  ∃ edge ∈ parts.edges, edge.executionCandidate ∧ edge.parentAgentId = first ∧
    edge.childAgentId = second

/-- The executor is there and enabled. -/
def Enabled (parts : GraphParts) (agentId : String) : Prop :=
  ∃ agent, parts.agentsById.get? agentId = some agent ∧ agent.executionCandidate

/-- An enabled child of the current executor over a candidate edge. -/
def Available (parts : GraphParts) (agentId : String) : Prop :=
  parts.Enabled agentId ∧ parts.Open parts.currentExecutorId agentId

instance (first second : String) : Decidable (parts.Linked first second) :=
  inferInstanceAs (Decidable (∃ edge ∈ parts.edges, _))

instance (first second : String) : Decidable (parts.Open first second) :=
  inferInstanceAs (Decidable (∃ edge ∈ parts.edges, _))

instance (agentId : String) : Decidable (parts.Enabled agentId) :=
  decidable_of_iff ((parts.agentsById.get? agentId).any (·.executionCandidate))
    (Option.any_eq_true _ _)

instance (agentId : String) : Decidable (parts.Available agentId) :=
  inferInstanceAs (Decidable (parts.Enabled agentId ∧ _))

theorem Open.linked (h : parts.Open first second) : parts.Linked first second := by
  obtain ⟨edge, hedge, -, hends⟩ := h
  exact ⟨edge, hedge, hends⟩

theorem Linked.known (h : parts.Linked first second) :
    ∃ agent, parts.agentsById.get? second = some agent := by
  obtain ⟨edge, hedge, -, rfl⟩ := h
  exact Option.isSome_iff_exists.mp (parts.known edge hedge)

theorem mem_edges_snapshot {edge : GraphEdge} :
    edge ∈ (parts.snapshot host).edges ↔ edge ∈ parts.edges := by
  show edge ∈ (parts.edges.foldl appendEdge _).edges.mergeSort _ ↔ _
  rw [mem_mergeSort, edges_foldl_appendEdge, nil_append]

theorem candidateEdge_snapshot :
    CandidateEdge (parts.snapshot host) first second ↔ parts.Open first second :=
  exists_congr fun _ => and_congr_left fun _ => mem_edges_snapshot

theorem indexedEdge_snapshot :
    (indexedEdge (parts.snapshot host) first second).isSome ↔ parts.Linked first second := by
  have hindex : (parts.snapshot host).edgeIndex = materializeEdgeIndex parts.edges := by
    show materializeEdgeIndex (parts.edges.foldl appendEdge _).edges = _
    rw [edges_foldl_appendEdge, nil_append]
  rw [indexedEdge_materialized hindex, find?_isSome]
  simp only [mem_reverse, decide_eq_true_eq]
  rfl

theorem mem_directChildren_snapshot {parent child : String} :
    child ∈ ((parts.snapshot host).directChildAgentIdsByParent.get? parent).getD [] ↔
      parts.Linked parent child := by
  have hchildren : (parts.snapshot host).directChildAgentIdsByParent.get? parent =
      ((parts.edges.foldl appendEdge { edges := [], directChildren := ∅ }).directChildren.get?
        parent).map fun ids => sortedTexts host ids.elements :=
    get?_foldl_entries (fun ids : OrderedSet String => sortedTexts host ids.elements)
      _ parent
  rw [hchildren, mem_sortedChildren, mem_directChildren_iff, get?_empty]
  exact or_iff_right (OrderedSet.mem_empty child)

theorem mem_available_snapshot :
    agentId ∈ (parts.snapshot host).availableExecutorIds ↔ parts.Available agentId := by
  have hopen : (parts.edges.foldl appendEdge
        { edges := [], directChildren := ∅ }).edges.any (fun edge =>
          edge.parentAgentId = parts.currentExecutorId && edge.childAgentId = agentId &&
            edge.executionCandidate) ↔
      parts.Open parts.currentExecutorId agentId := by
    rw [edges_foldl_appendEdge, nil_append, any_eq_true]
    refine exists_congr fun edge => and_congr_right fun _ => ?_
    simp only [Bool.and_eq_true, decide_eq_true_eq]
    tauto
  have henabled : (parts.agentsById.get? agentId).any (·.executionCandidate) ↔
      parts.Enabled agentId := Option.any_eq_true _ _
  show agentId ∈ List.filter _ (((parts.snapshot host).directChildAgentIdsByParent.get?
    parts.currentExecutorId).getD []) ↔ _
  rw [mem_filter, mem_directChildren_snapshot, Bool.and_eq_true, henabled, hopen]
  exact and_iff_right_of_imp fun h => h.2.linked

theorem mem_registered_snapshot :
    agentId ∈ (parts.snapshot host).allRegisteredExecutorIds ↔
      ∃ agent, parts.agentsById.get? agentId = some agent :=
  mem_sortedTexts.trans (mem_keys_iff _ _)

theorem known_of_active (h : agentId ∈ (parts.snapshot host).allActiveExecutorIds) :
    ∃ agent, parts.agentsById.get? agentId = some agent := by
  obtain ⟨agent, hagent, rfl⟩ := mem_map.mp (mem_sortedTexts.mp h)
  obtain ⟨entry, hentry, rfl⟩ := mem_map.mp (mem_filter.mp hagent).1
  have hget := get?_of_mem_entries hentry
  exact ⟨entry.2, parts.keyed entry.1 entry.2 hget ▸ hget⟩

end GraphParts

/-! ### The snapshot of a topology -/

section

variable {host : Host} (topology : EnterpriseTopology) (rootAgentId : String)

end

end Nobie.Orchestration
