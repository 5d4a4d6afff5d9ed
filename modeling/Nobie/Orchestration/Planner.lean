/-
# Planning what is delegated

The planner turns a decision that was made elsewhere into a plan. It leaves early, with a plan in
which the current executor does the work itself, wherever something is missing: the mode, the
time, the decision, the team or the executor. Otherwise it makes one task for each scope, for a
team or for the executor, and puts tasks that want the same exclusive lock in order.
-/

import Nobie.Orchestration.ExecutionDecision
import Nobie.Orchestration.ExecutionWaves
import Nobie.Security.CapabilityIsolation

namespace Nobie.Orchestration.Planner

open Foundation Security JsString

/-! ## Texts -/

/-- What the planner takes from the host. -/
structure PlannerHost where
  localeCompare : String → String → ℤ
  /-- `Math.round` of a number times a whole number. -/
  roundedProduct : ℚ → ℕ → ℤ

/-- The order of `sort` without a comparison: by code units. -/
def unitsPrecede (left right : String) : Bool :=
  !List.lex (ofString right) (ofString left) fun first second =>
    decide (first.val < second.val)

def uniqueStrings (values : List String) : List String :=
  (OrderedSet.ofList ((values.map jsTrim).filter (· ≠ ""))).elements.mergeSort unitsPrecede

def hasAll (haystack needles : List String) : Bool := needles.all (· ∈ haystack)

def countMatches (haystack needles : List String) : ℕ := (needles.filter (· ∈ haystack)).length

/-- A code that is pushed where the condition holds. -/
def codeIf (condition : Bool) (code : String) : List String := if condition then [code] else []

/-! ## The registry -/

inductive AgentStatus
  | enabled | disabled | archived | degraded
  deriving DecidableEq

def AgentStatus.text : AgentStatus → String
  | .enabled => "enabled"
  | .disabled => "disabled"
  | .archived => "archived"
  | .degraded => "degraded"

inductive Availability
  | available | degraded | unavailable
  deriving DecidableEq

inductive AgentSource
  | db | config | topology
  deriving DecidableEq

structure PermissionProfile where
  profileId : String
  (riskCeiling approvalRequiredFrom : CapabilityRiskLevel)

structure SkillMcpSummary where
  (enabledSkillIds enabledMcpServerIds enabledToolNames : List String)

structure RuntimeLoad where
  (activeSubSessions maxParallelSessions utilization : ℚ)

structure AgentRegistryEntry where
  agentId : String
  status : AgentStatus
  role : String
  (specialtyTags teamIds : List String)
  delegationEnabled : Bool
  source : AgentSource
  permissionProfile : PermissionProfile
  skillMcpSummary : SkillMcpSummary
  (capabilityAvailability modelAvailability : Availability)
  currentLoad : RuntimeLoad
  failureRate : ℚ

inductive TeamHealth
  | healthy | degraded | invalid
  deriving DecidableEq

def TeamHealth.text : TeamHealth → String
  | .healthy => "healthy"
  | .degraded => "degraded"
  | .invalid => "invalid"

/-- A team; its coverage is the list of the active members in it. -/
structure TeamRegistryEntry where
  (teamId ownerAgentId : String)
  leadAgentId : Option String
  activeMemberAgentIds : List String
  coverage : Option (List String)
  health : Option TeamHealth

structure MembershipEdge where
  active : Bool
  (agentId teamId : String)

structure HierarchySnapshot where
  rootAgentId : String
  directChildrenByParent : OrderedMap String (List String)

structure ExcludedCandidate where
  agentId : String
  reasonCodes : List String

structure CapabilityIndex where
  directChildAgentIdsByParent : OrderedMap String (List String)
  excludedCandidatesByParent : OrderedMap String (List ExcludedCandidate)

structure RegistrySnapshot where
  agents : List AgentRegistryEntry
  teams : List TeamRegistryEntry
  membershipEdges : List MembershipEdge
  hierarchy : Option HierarchySnapshot
  capabilityIndex : Option CapabilityIndex

/-! ## Intents and inputs -/

structure Intent where
  explicitAgentId : Option String := none
  explicitTeamId : Option String := none
  requiredRoles : List String := []
  specialtyTags : List String := []
  requiredCapabilities : List String := []
  requiredSkillIds : List String := []
  requiredMcpServerIds : List String := []
  requiredToolNames : List String := []
  requiredRisk : Option CapabilityRiskLevel := none

inductive OrchestrationMode
  | singleNobie | orchestration
  deriving DecidableEq

def OrchestrationMode.text : OrchestrationMode → String
  | .singleNobie => "single_nobie"
  | .orchestration => "orchestration"

structure ExpectedOutput where
  (outputId kind description : String)
  required : Bool
  requiredEvidenceKinds : List String
  artifactRequired : Bool
  reasonCodes : List String

structure TaskScope where
  (goal intentType actionType : String)
  constraints : List String
  expectedOutputs : List ExpectedOutput
  reasonCodes : List String

structure ResourceLock extends ResourceLockContract where
  lockId : String
  deriving DecidableEq

structure DependencyEdge extends DependencyEdgeContract where
  reasonCode : String

/-- The input of the planner. A list or table that is not given is empty here, the registry is
the one that is given, loaded or built, and `elapsedMs` is the time that has passed when it is
there. -/
structure PlannerInput where
  userRequest : String
  mode : OrchestrationMode
  modeReasonCode : String
  registry : RegistrySnapshot
  taskScopes : List TaskScope
  intent : Intent
  agentExecutionDecision : Option ExecutionDecision
  parentAgentId : Option String
  resourceLocks : List ResourceLock
  resourceLocksByTaskId : OrderedMap String (List ResourceLock)
  dependencyEdges : List DependencyEdge
  timeoutMs : Option ℚ
  elapsedMs : ℚ
  planId : String

/-! ## Plans -/

inductive TaskExecutionKind
  | directNobie | delegatedSubAgent

inductive SelectedExecutorSource
  | executionDecision

structure PlanningTrace where
  score : Option ℤ
  selectedSource : Option SelectedExecutorSource
  selectedExecutorId : Option String
  reasonCodes : List String

structure OrchestrationTask where
  taskId : String
  executionKind : TaskExecutionKind
  scope : TaskScope
  (assignedAgentId assignedTeamId : Option String)
  (requiredCapabilities resourceLockIds : List String)
  planningTrace : PlanningTrace

structure ApprovalRequirement where
  (approvalId taskId agentId capability : String)
  risk : CapabilityRiskLevel
  reasonCode : String

structure ParallelGroup where
  groupId : String
  dependencyEdges : List DependencyEdge
  resourceLocks : List ResourceLock
  concurrencyLimit : ℚ

inductive FallbackMode
  | selfSolve | directCurrentAgent | returnToParent | askParent | askUser | failWithReason
  | rootNobieDirect

structure FallbackStrategy where
  mode : FallbackMode
  reasonCode : String
  currentExecutorId : Option String := none
  parentExecutorId : Option String := none
  unresolvedReasonCode : Option String := none
  unresolvedReason : Option String := none

inductive PlannerStatus
  | planned | degraded | requiresWorkflowRecommendation

structure OrchestrationPlan where
  planId : String
  (directNobieTasks delegatedTasks : List OrchestrationTask)
  dependencyEdges : List DependencyEdge
  resourceLocks : List ResourceLock
  parallelGroups : List ParallelGroup
  approvalRequirements : List ApprovalRequirement
  fallbackStrategy : FallbackStrategy
  status : PlannerStatus

/-- The score of an agent. A risk that needs approval is named, so that approval is required
where there is one. -/
structure CandidateScore where
  agentId : String
  teamIds : List String
  score : ℤ
  (reasonCodes excludedReasonCodes : List String)
  approvalRisk : Option CapabilityRiskLevel

structure PlanBuildResult where
  plan : OrchestrationPlan
  candidateScores : List CandidateScore
  timedOut : Bool
  reasonCodes : List String

/-! ## The intent -/

def riskText : CapabilityRiskLevel → String
  | .safe => "safe"
  | .moderate => "moderate"
  | .external => "external"
  | .sensitive => "sensitive"
  | .dangerous => "dangerous"

inductive FastPathClassification
  | directNobie | delegationCandidate | workflowCandidate
  deriving DecidableEq

def hasRoutingIntent (intent : Intent) : Bool :=
  (truthyText intent.explicitAgentId).isSome || (truthyText intent.explicitTeamId).isSome ||
    !intent.requiredRoles.isEmpty || !intent.specialtyTags.isEmpty ||
    !intent.requiredCapabilities.isEmpty || !intent.requiredSkillIds.isEmpty ||
    !intent.requiredMcpServerIds.isEmpty || !intent.requiredToolNames.isEmpty ||
    intent.requiredRisk.isSome

/-- `classifyFastPath`, with its reason codes. -/
def classifyFastPath (intent : Intent) : FastPathClassification × List String :=
  (.delegationCandidate,
    [if hasRoutingIntent intent then "fast_path_structured_intent_candidate"
      else "fast_path_delegation_candidate"])

/-- The routes that hand the work to the selected executor. -/
def delegatesToSelected (route : ExecutionRoute) : Bool :=
  route = .delegateToChild || route = .subAgent || route = .yeonjang

/-- `selectedExecutorFromDelegatingDecision`. -/
def selectedExecutorFromDelegatingDecision (decision : Option ExecutionDecision) : Option String :=
  decision.bind fun decision =>
    decision.selectedExecutorId.filter fun selected =>
      hasText selected && delegatesToSelected decision.executionRoute

variable (input : PlannerInput) (parentAgentId : String) (host : PlannerHost)
  (candidateScores : List CandidateScore) (team : TeamRegistryEntry) (index : ℕ)

/-- The intent of the input, with the executor that was decided on. -/
def plannedIntent : Intent :=
  match selectedExecutorFromDelegatingDecision input.agentExecutionDecision with
  | some selected => { input.intent with explicitAgentId := some selected }
  | none => input.intent

def plannerParentAgentId : String :=
  (input.parentAgentId.or (input.registry.hierarchy.map (·.rootAgentId))).getD "agent:nobie"

def plannerCurrentExecutorId : String := input.parentAgentId.getD "agent:nobie"

def isRootNobieExecutor (executorId : String) : Bool := executorId = "agent:nobie"

/-- `directChildAgentIdsFor`: none if the registry does not know the children. -/
def directChildAgentIdsFor (registry : RegistrySnapshot) (parentAgentId : String) :
    Option (List String) :=
  match registry.capabilityIndex.bind (·.directChildAgentIdsByParent.get? parentAgentId) with
  | some directChildIds => some directChildIds
  | none =>
    registry.hierarchy.bind fun hierarchy =>
      match hierarchy.directChildrenByParent.get? parentAgentId with
      | some directChildIds => some directChildIds
      | none => if parentAgentId ≠ hierarchy.rootAgentId then some [] else none

/-! ## Candidates -/

section

variable (host : PlannerHost) (registry : RegistrySnapshot) (intent : Intent)
  (parentAgentId : String) (agent : AgentRegistryEntry)

def effectiveTeamIds : List String :=
  let fromMembership := (registry.membershipEdges.filter fun edge =>
    edge.active && edge.agentId = agent.agentId).map (·.teamId)
  let fromOwnership := (registry.teams.filter fun team =>
    team.ownerAgentId = agent.agentId || team.leadAgentId = some agent.agentId).map (·.teamId)
  uniqueStrings (agent.teamIds ++ fromMembership ++ fromOwnership)

def capabilityIndexExcludedReasons : List String :=
  (((registry.capabilityIndex.bind (·.excludedCandidatesByParent.get? parentAgentId)).bind
    (·.find? (·.agentId = agent.agentId))).map (·.reasonCodes)).getD []

def candidateAllowedByExplicitTarget : Bool :=
  match truthyText intent.explicitAgentId, truthyText intent.explicitTeamId with
  | some explicitAgentId, _ => agent.agentId = explicitAgentId
  | none, some explicitTeamId => explicitTeamId ∈ effectiveTeamIds registry agent
  | none, none => true

def requiredRiskOf : CapabilityRiskLevel := intent.requiredRisk.getD .safe

def riskAllows (requiredRisk : CapabilityRiskLevel) : Bool :=
  requiredRisk.order ≤ agent.permissionProfile.riskCeiling.order

def riskNeedsApproval (requiredRisk : CapabilityRiskLevel) : Bool :=
  agent.permissionProfile.approvalRequiredFrom.order ≤ requiredRisk.order

def capabilityPool : List String :=
  agent.role :: agent.skillMcpSummary.enabledSkillIds ++
    agent.skillMcpSummary.enabledMcpServerIds ++ agent.skillMcpSummary.enabledToolNames ++
    [agent.permissionProfile.profileId, riskText agent.permissionProfile.riskCeiling]

/-- The reasons to exclude an agent, in the order in which they are found. -/
def excludedReasonCodes : List String :=
  codeIf ((directChildAgentIdsFor registry parentAgentId).any (agent.agentId ∉ ·) &&
      intent.explicitAgentId ≠ some agent.agentId) "not_direct_child_candidate" ++
    codeIf (!candidateAllowedByExplicitTarget registry intent agent) "not_explicit_target" ++
    codeIf (agent.status ≠ .enabled) "agent_not_enabled" ++
    codeIf (agent.status ≠ .enabled) ("agent_" ++ agent.status.text) ++
    codeIf (!agent.delegationEnabled) "delegation_disabled" ++
    codeIf (agent.currentLoad.maxParallelSessions ≤ agent.currentLoad.activeSubSessions)
      "concurrency_limit_reached" ++
    codeIf (!hasAll [agent.role] (uniqueStrings intent.requiredRoles)) "missing_required_role" ++
    codeIf (!hasAll agent.skillMcpSummary.enabledSkillIds (uniqueStrings intent.requiredSkillIds))
      "missing_required_skill" ++
    codeIf (!hasAll agent.skillMcpSummary.enabledMcpServerIds
      (uniqueStrings intent.requiredMcpServerIds)) "missing_required_mcp_server" ++
    codeIf (!hasAll agent.skillMcpSummary.enabledToolNames
      (uniqueStrings intent.requiredToolNames)) "missing_required_tool" ++
    codeIf (!riskAllows agent (requiredRiskOf intent)) "risk_above_agent_ceiling" ++
    codeIf (agent.permissionProfile.profileId = "") "permission_missing" ++
    codeIf (agent.capabilityAvailability = .unavailable) "capability_unavailable" ++
    codeIf (agent.modelAvailability = .unavailable) "model_unavailable" ++
    (if parentAgentId = "" then []
      else capabilityIndexExcludedReasons registry parentAgentId agent) ++
    codeIf (!hasAll (capabilityPool agent) (uniqueStrings intent.requiredCapabilities))
      "missing_required_capability"

/-- The points that an agent gets with their reasons. -/
def scoredReasons : List (ℤ × List String) :=
  let specialtyMatches := countMatches agent.specialtyTags (uniqueStrings intent.specialtyTags)
  let roleMatches := countMatches [agent.role] (uniqueStrings intent.requiredRoles)
  let skillMatches := countMatches agent.skillMcpSummary.enabledSkillIds
    (uniqueStrings intent.requiredSkillIds)
  let mcpMatches := countMatches agent.skillMcpSummary.enabledMcpServerIds
    (uniqueStrings intent.requiredMcpServerIds)
  let toolMatches := countMatches agent.skillMcpSummary.enabledToolNames
    (uniqueStrings intent.requiredToolNames)
  let inTeam := (truthyText intent.explicitTeamId).any (· ∈ effectiveTeamIds registry agent)
  let risk := requiredRiskOf intent
  [(100, []),
    if intent.explicitAgentId = some agent.agentId then (1000, ["explicit_agent_target"])
      else (0, []),
    if inTeam then (700, ["explicit_team_member"]) else (0, []),
    (roleMatches * 35, codeIf (0 < roleMatches) "required_role_match"),
    (specialtyMatches * 30, codeIf (0 < specialtyMatches) "specialty_tag_match"),
    (skillMatches * 25, codeIf (0 < skillMatches) "required_skill_match"),
    (mcpMatches * 20, codeIf (0 < mcpMatches) "required_mcp_match"),
    (toolMatches * 15, codeIf (0 < toolMatches) "required_tool_match"),
    if agent.source = .topology then (15, ["topology_executor_candidate"]) else (0, []),
    (0, codeIf (riskNeedsApproval agent risk && riskAllows agent risk)
      "approval_required_for_risk"),
    (-host.roundedProduct agent.currentLoad.utilization 60,
      codeIf (0 < agent.currentLoad.utilization) "load_penalty_applied"),
    (-host.roundedProduct agent.failureRate 100,
      codeIf (0 < agent.failureRate) "failure_rate_penalty_applied")]

def scoreCandidate : CandidateScore :=
  let points := scoredReasons host registry intent agent
  let reasonCodes := points.flatMap (·.2)
  let risk := requiredRiskOf intent
  { agentId := agent.agentId
    teamIds := effectiveTeamIds registry agent
    score := (points.map (·.1)).sum
    reasonCodes :=
      uniqueStrings (if reasonCodes = [] then ["structured_candidate_available"] else reasonCodes)
    excludedReasonCodes := uniqueStrings (excludedReasonCodes registry intent parentAgentId agent)
    approvalRisk :=
      if riskNeedsApproval agent risk && riskAllows agent risk then some risk else none }

end

/-- The order of candidates: more points first, then by id. -/
def candidatePrecedes (left right : CandidateScore) : Bool :=
  let difference := right.score - left.score
  (if difference ≠ 0 then difference else host.localeCompare left.agentId right.agentId) ≤ 0

def sortedEligibleCandidates (candidates : List CandidateScore) : List CandidateScore :=
  (candidates.filter (·.excludedReasonCodes.isEmpty)).mergeSort (candidatePrecedes host)

/-! ## Tasks -/

def defaultExpectedOutput : ExpectedOutput where
  outputId := "answer"
  kind := "text"
  description := "User-facing answer or direct execution result."
  required := true
  requiredEvidenceKinds := []
  artifactRequired := false
  reasonCodes := ["user_request_satisfied"]

def buildDefaultStructuredTaskScope (userRequest : String) : TaskScope where
  goal := if hasText userRequest then jsTrim userRequest else "Process the user request."
  intentType := "user_request"
  actionType := "general"
  constraints := []
  expectedOutputs := [defaultExpectedOutput]
  reasonCodes := ["default_structured_scope"]

/-- The scopes of the input, or the default one. -/
def plannedScopes : List TaskScope :=
  if input.taskScopes = [] then [buildDefaultStructuredTaskScope input.userRequest]
  else input.taskScopes

def exclusive (lock : ResourceLock) : Bool := lock.mode = .exclusive

def hasExclusiveLockConflict (left right : List ResourceLock) : Bool :=
  left.any fun first =>
    exclusive first && right.any fun second =>
      exclusive second && second.kind = first.kind && second.target = first.target

/-- The locks that the input has for a task: its own, or those of the whole plan. -/
def locksFor (taskId : String) : List ResourceLock :=
  (input.resourceLocksByTaskId.get? taskId).getD input.resourceLocks

def planTask (taskId : String) (scope : TaskScope) (executionKind : TaskExecutionKind)
    (requiredCapabilities resourceLockIds : List String) (candidate : Option CandidateScore)
    (assignedTeamId : Option String) (selectedSource : Option SelectedExecutorSource)
    (reasonCodes : List String) : OrchestrationTask where
  taskId
  executionKind
  scope
  assignedAgentId := candidate.map (·.agentId)
  assignedTeamId := truthyText assignedTeamId
  requiredCapabilities
  resourceLockIds
  planningTrace :=
    { score := candidate.map (·.score)
      selectedSource
      selectedExecutorId := candidate.map (·.agentId)
      reasonCodes }

/-! ## Plans that leave early -/

/-- What the early exits differ in. -/
structure DirectFallback where
  reasonCodes : List String
  fallbackReasonCode : String
  timedOut : Bool := false
  status : PlannerStatus := .planned
  fallbackMode : Option FallbackMode := none
  currentExecutorId : Option String := none
  parentExecutorId : Option String := none
  unresolvedReasonCode : Option String := none
  unresolvedReason : Option String := none

def directFallbackPlan (fallback : DirectFallback) : PlanBuildResult where
  plan :=
    { planId := input.planId
      directNobieTasks :=
        [planTask (input.planId ++ ":direct:0") (buildDefaultStructuredTaskScope input.userRequest)
          .directNobie [] [] none none none fallback.reasonCodes]
      delegatedTasks := []
      dependencyEdges := []
      resourceLocks := []
      parallelGroups := []
      approvalRequirements := []
      fallbackStrategy :=
        { mode := fallback.fallbackMode.getD
            (if fallback.fallbackReasonCode.startsWith "explicit_" then .askUser
              else .directCurrentAgent)
          reasonCode := fallback.fallbackReasonCode
          currentExecutorId := truthyText fallback.currentExecutorId
          parentExecutorId := truthyText fallback.parentExecutorId
          unresolvedReasonCode := truthyText fallback.unresolvedReasonCode
          unresolvedReason := truthyText fallback.unresolvedReason }
      status := fallback.status }
  candidateScores
  timedOut := fallback.timedOut
  reasonCodes := fallback.reasonCodes

def nonExecutionPlan (reasonCodes : List String) (fallbackReasonCode : String)
    (status : PlannerStatus) : PlanBuildResult where
  plan :=
    { planId := input.planId
      directNobieTasks := []
      delegatedTasks := []
      dependencyEdges := []
      resourceLocks := []
      parallelGroups := []
      approvalRequirements := []
      fallbackStrategy := { mode := .failWithReason, reasonCode := fallbackReasonCode }
      status }
  candidateScores := []
  timedOut := false
  reasonCodes

def directFallbackModeForExecutionDecision (decision : ExecutionDecision) : FallbackMode :=
  match decision.executionRoute with
  | .askUser => .askUser
  | .askParent => .askParent
  | .returnToParent => .returnToParent
  | .rootNobieDirect => .rootNobieDirect
  | .explicitProvider | .explicitProviderTarget | .boundaryFailure => .askUser
  | .selfSolve => .selfSolve
  | .directCurrentAgent | .delegateToChild | .nobieDirect | .subAgent | .yeonjang =>
    .directCurrentAgent

/-- The exit of a decision that selects no executor. -/
def undelegatedDecision (decision : ExecutionDecision) : DirectFallback :=
  let rejected := decision.executionRoute = .rootNobieDirect ∧
    isRootNobieExecutor decision.currentExecutorId = false
  { reasonCodes :=
      ["execution_decision_present", "execution_decision_route_" ++ decision.executionRoute.text]
    fallbackReasonCode := "execution_decision_" ++ decision.executionRoute.text
    fallbackMode := some
      (if rejected then
        if (truthyText decision.parentExecutorId).isSome then .returnToParent else .askUser
      else directFallbackModeForExecutionDecision decision)
    currentExecutorId := some decision.currentExecutorId
    parentExecutorId := decision.parentExecutorId
    unresolvedReasonCode := some
      (if rejected then "root_nobie_direct_rejected_for_non_root_executor"
      else "execution_decision_" ++ decision.executionRoute.text)
    unresolvedReason := decision.unresolvedReason }

/-! ## Plans for a team -/

def activeMembers : List String := team.coverage.getD team.activeMemberAgentIds

/-- A team can be planned for. -/
def teamAvailable : Bool := team.health ≠ some .invalid && !(activeMembers team).isEmpty

/-- The exit of a team that is not there or cannot be planned for. -/
def unavailableTeam (team : Option TeamRegistryEntry) : DirectFallback where
  reasonCodes :=
    ["explicit_team_target", "explicit_team_target_unavailable",
        match team with
        | some team => "team_health_" ++ (team.health.map (·.text)).getD "unknown"
        | none => "team_not_found"] ++
      codeIf ((team.map activeMembers).getD []).isEmpty "no_active_team_members"
  fallbackReasonCode := "explicit_team_target_unavailable"
  currentExecutorId := some parentAgentId
  unresolvedReasonCode := some "selected_team_rejected"

def teamTaskId : String := s!"{input.planId}:team:{index}"

variable (teamId : String)

def teamTask (team : TeamRegistryEntry) (scope : TaskScope × ℕ) : OrchestrationTask :=
  planTask (teamTaskId input scope.2) scope.1 .delegatedSubAgent
    (uniqueStrings input.intent.requiredCapabilities) [] none (some teamId)
    (some .executionDecision)
    (["explicit_team_target", "execution_decision_selected_executor",
        "team_execution_plan_planned"] ++
      (team.health.map fun health => "team_health_" ++ health.text).toList)

def teamPlan (team : TeamRegistryEntry) : PlanBuildResult where
  plan :=
    { planId := input.planId
      directNobieTasks := []
      delegatedTasks := (plannedScopes input).zipIdx.map (teamTask input teamId team)
      dependencyEdges := input.dependencyEdges
      resourceLocks := input.resourceLocks
      parallelGroups := []
      approvalRequirements := []
      fallbackStrategy :=
        { mode := .directCurrentAgent
          reasonCode := "delegated_team_runtime_failure_direct_current_agent"
          currentExecutorId := some (plannerParentAgentId input) }
      status := .planned }
  candidateScores
  timedOut := false
  reasonCodes := ["structured_scoring", "explicit_team_target", "team_execution_plan_planned"]

/-! ## Plans for an executor -/

def delegatedTaskId : String := s!"{input.planId}:delegated:{index}"

/-- The candidate of a scope: the eligible ones in turn. -/
def candidateAt (eligible : List CandidateScore) (index : ℕ) : Option CandidateScore :=
  eligible[index % eligible.length]?.or eligible[0]?

def delegatedTask (candidate : CandidateScore) (scope : TaskScope × ℕ) : OrchestrationTask :=
  let taskId := delegatedTaskId input scope.2
  planTask taskId scope.1 .delegatedSubAgent
    (uniqueStrings input.intent.requiredCapabilities)
    ((locksFor input taskId).map (·.lockId)) (some candidate) input.intent.explicitTeamId
    (some .executionDecision)
    (["execution_decision_selected_executor", "planner_converted_validated_decision"] ++
      candidate.reasonCodes)

def approvalFor (candidate : CandidateScore) (index : ℕ) : Option ApprovalRequirement :=
  candidate.approvalRisk.map fun risk =>
    { approvalId := delegatedTaskId input index ++ ":approval:" ++ riskText risk
      taskId := delegatedTaskId input index
      agentId := candidate.agentId
      capability := riskText risk
      risk
      reasonCode := "agent_permission_profile_requires_approval" }

def conflictEdge (current next : OrchestrationTask) : DependencyEdge where
  fromTaskId := current.taskId
  toTaskId := next.taskId
  reasonCode := "exclusive_resource_lock_conflict"

/-- The loops over the pairs of tasks: an edge from the earlier to the later one of each pair
whose locks conflict. -/
def lockConflictEdges (input : PlannerInput) : List OrchestrationTask → List DependencyEdge
  | [] => []
  | current :: rest =>
    (rest.filter fun next => hasExclusiveLockConflict (locksFor input current.taskId)
      (locksFor input next.taskId)).map (conflictEdge current) ++
    lockConflictEdges input rest

/-- How many sessions the agent with an id may have at a time. -/
def sessionLimit (registry : RegistrySnapshot) (agentId : String) : ℚ :=
  ((registry.agents.find? (·.agentId = agentId)).map (·.currentLoad.maxParallelSessions)).getD 1

def parallelGroupsOf (tasks : List OrchestrationTask) (edges : List DependencyEdge)
    (selectedAgentIds : List String) : List ParallelGroup :=
  if edges = [] ∧ 1 < tasks.length then
    [{ groupId := input.planId ++ ":parallel:0"
       dependencyEdges := []
       resourceLocks := input.resourceLocks
       concurrencyLimit :=
        max 1 ((selectedAgentIds.map (sessionLimit input.registry)).foldl min (tasks.length : ℚ)) }]
  else []

def agentPlan (candidateScores eligible : List CandidateScore) : PlanBuildResult :=
  -- The scopes with the candidates they go to.
  let assigned := (plannedScopes input).zipIdx.filterMap fun scope =>
    (candidateAt eligible scope.2).map fun candidate => (scope, candidate)
  let delegatedTasks := assigned.map fun entry => delegatedTask input entry.2 entry.1
  let dependencyEdges := input.dependencyEdges ++ lockConflictEdges input delegatedTasks
  let selectedAgentIds := (OrderedSet.ofList (assigned.map (·.2.agentId))).elements
  let parallelGroups := parallelGroupsOf input delegatedTasks dependencyEdges selectedAgentIds
  { plan :=
      { planId := input.planId
        directNobieTasks := []
        delegatedTasks
        dependencyEdges
        resourceLocks := input.resourceLocks
        parallelGroups
        approvalRequirements := assigned.filterMap fun entry => approvalFor input entry.2 entry.1.2
        fallbackStrategy :=
          { mode := .directCurrentAgent
            reasonCode := "delegated_executor_runtime_failure_direct_current_agent"
            currentExecutorId := some (plannerParentAgentId input) }
        status := .planned }
    candidateScores
    timedOut := false
    reasonCodes :=
      ["structured_scoring", "execution_decision_selected_executor",
        if 1 < delegatedTasks.length then
          if parallelGroups.isEmpty then "parallel_candidate_serialized"
          else "parallel_group_planned"
        else "single_delegated_task"] }

/-- The exit of an executor that is not there, no child or excluded. -/
def unavailableExecutor (target : Option AgentRegistryEntry) (visible : Bool)
    (excluded : List String) : DirectFallback where
  reasonCodes :=
    (["explicit_agent_target", "explicit_agent_target_unavailable"] ++
      codeIf target.isNone "agent_not_found" ++
      codeIf (target.isSome && !visible) "explicit_agent_not_direct_child" ++
      excluded).filter (· ≠ "")
  fallbackReasonCode :=
    if "risk_above_agent_ceiling" ∈ excluded then "explicit_agent_permission_denied"
    else "explicit_agent_target_unavailable"
  currentExecutorId := some parentAgentId
  unresolvedReasonCode := some "selected_executor_rejected"

/-- The exit where no candidate is left. -/
def noCandidate : DirectFallback where
  reasonCodes := ["explicit_target_unavailable"]
  fallbackReasonCode := "explicit_target_unavailable"
  currentExecutorId := some parentAgentId
  unresolvedReasonCode := some "selected_executor_unavailable"

/-- The exit without a decision. -/
def decisionMissing : DirectFallback where
  reasonCodes := ["execution_decision_required", "implicit_agent_selection_disabled"]
  fallbackReasonCode := "execution_decision_required"
  fallbackMode := some .directCurrentAgent
  currentExecutorId := some parentAgentId
  unresolvedReasonCode := some "execution_decision_missing"

/-- The plan for the team that the intent names. -/
def planForTeam : PlanBuildResult :=
  let team := input.registry.teams.find? (·.teamId = teamId)
  match team.filter teamAvailable with
  | some available => teamPlan input candidateScores teamId available
  | none =>
    directFallbackPlan input candidateScores (unavailableTeam (plannerParentAgentId input) team)

/-- The plan for the executor that was decided on. -/
def planForExecutor (input : PlannerInput) (candidateScores : List CandidateScore)
    (executorId : String) : PlanBuildResult :=
  let parentAgentId := plannerParentAgentId input
  let target := input.registry.agents.find? (·.agentId = executorId)
  let targetScore := candidateScores.find? (·.agentId = executorId)
  let visible := (directChildAgentIdsFor input.registry parentAgentId).all (executorId ∈ ·)
  if target.isNone || !visible || !targetScore.any (·.excludedReasonCodes.isEmpty) then
    directFallbackPlan input candidateScores
      (unavailableExecutor parentAgentId target visible
        ((targetScore.map (·.excludedReasonCodes)).getD []))
  else
    let eligible := sortedEligibleCandidates host candidateScores
    if eligible = [] then directFallbackPlan input candidateScores (noCandidate parentAgentId)
    else agentPlan input candidateScores eligible

/-- The part of `buildOrchestrationPlan` behind the registry. -/
def planWithRegistry (input : PlannerInput) : PlanBuildResult :=
  let parentAgentId := plannerParentAgentId input
  let candidateScores := input.registry.agents.map
    (scoreCandidate host input.registry (plannedIntent input) parentAgentId)
  match selectedExecutorFromDelegatingDecision input.agentExecutionDecision with
  | none =>
    directFallbackPlan input candidateScores
      (match input.agentExecutionDecision with
      | some decision => undelegatedDecision decision
      | none => decisionMissing parentAgentId)
  | some executorId =>
    match truthyText input.intent.explicitTeamId with
    | some teamId => planForTeam input candidateScores teamId
    | none => planForExecutor host input candidateScores executorId

def buildOrchestrationPlan (input : PlannerInput) : PlanBuildResult :=
  let fastPath := classifyFastPath (plannedIntent input)
  if input.mode ≠ .orchestration then
    directFallbackPlan input []
      { reasonCodes := ["mode_" ++ input.mode.text, input.modeReasonCode]
        fallbackReasonCode := input.modeReasonCode
        currentExecutorId := some (plannerCurrentExecutorId input) }
  else if fastPath.1 = .directNobie then
    directFallbackPlan input []
      { reasonCodes := fastPath.2
        fallbackReasonCode := "direct_nobie_fast_path"
        currentExecutorId := some (plannerCurrentExecutorId input) }
  else if fastPath.1 = .workflowCandidate then
    nonExecutionPlan input (fastPath.2 ++ ["requires_workflow_recommendation"])
      "requires_workflow_recommendation" .requiresWorkflowRecommendation
  else if max 1 (input.timeoutMs.getD 120) < input.elapsedMs then
    directFallbackPlan input []
      { reasonCodes := ["planning_timeout"]
        fallbackReasonCode := "planning_timeout_direct_current_agent"
        timedOut := true
        status := .degraded
        currentExecutorId := some (plannerParentAgentId input) }
  else planWithRegistry host input

end Nobie.Orchestration.Planner
