/-
# Dispatching delegated tasks

A plan delegates tasks to agents and to teams. The dispatcher takes them one after the
other. A task of an agent becomes a sub-session: the runner calls the dispatcher back, and
the dispatcher starts a child run and waits for its end. A task of a team becomes the tasks
of a team plan, members first. What the runner answers decides the outcome that is recorded
for the task.
-/

import Nobie.Orchestration.ResultReview
import Nobie.Orchestration.SubSessionFailures

namespace Nobie.Orchestration

open Foundation Foundation.Effects

/-! ## Child runs -/

inductive RunStatus
  | queued | running | awaitingApproval | awaitingUser | completed | failed | cancelled
  | interrupted
  deriving DecidableEq

structure RootRun where
  id : String
  status : RunStatus
  summary : String

/-- How the promise `finished` of a child run settles. -/
inductive FinishedRun
  | resolves (childRun : Option RootRun)
  | rejects (error : Thrown)

/-- What the parent run does while the child run is awaited. -/
structure ParentSignals where
  (aborts finalizes : Bool)

/-- What a call of `startSubAgentRun` does. -/
inductive StartedRun
  | throws (error : Thrown)
  | starts (meanwhile : ParentSignals) (finished : FinishedRun)

/-! ## Plans -/

inductive AgentSource
  | db | config | topology
  deriving DecidableEq

structure AgentRegistryEntry where
  (agentId displayName : String)
  source : AgentSource

structure StructuredTaskScope where
  expectedOutputs : List ExpectedOutputContract
  reasonCodes : List String

structure PlanningTrace where
  selectedExecutorId : Option String
  reasonCodes : List String

structure OrchestrationTask where
  taskId : String
  scope : StructuredTaskScope
  (assignedAgentId assignedTeamId : Option String)
  planningTrace : Option PlanningTrace

structure DependencyEdge where
  (fromTaskId toTaskId : String)

structure OrchestrationPlan where
  delegatedTasks : List OrchestrationTask
  dependencyEdges : List DependencyEdge

inductive TeamTaskKind
  | member | synthesis | review | verification

inductive TaskExecutionKind
  | directNobie | delegatedSubAgent
  deriving DecidableEq

structure TeamExecutionTaskSnapshot where
  taskId : String
  taskKind : TeamTaskKind
  executionKind : TaskExecutionKind
  scope : StructuredTaskScope
  (assignedAgentId assignedTeamId : Option String)
  (dependsOnTaskIds reasonCodes : List String)

/-- The answer of `buildTeamExecutionPlan`, with the reason codes of its diagnostics and the
tasks of its assignments. -/
structure TeamExecutionPlanBuildResult where
  ok : Bool
  plan : Option (List (List TeamExecutionTaskSnapshot))
  diagnostics : List String

/-! ## What the dispatcher meets -/

/-- Everything that is met by one call of the runner: its collaborators, what it resolves
from the registry and the prompt, the child run, and, of a sub-session that is stored under
the same key, how its child run ended. -/
structure SubSessionCall where
  collaborators : Collaborators ReportBody
  reviewAborts : Bool
  (subSessionId sender recipient : String)
  nestedReasonCodes : Option (List String)
  modelPolicy : ResolvedModelExecutionPolicy
  (preflightIssueCodes bundleIssueCodes : List String)
  startSubAgentRun : StartedRun
  resultReportId : String
  storedChildStatus : Option RunStatus

structure DispatchEnvironment where
  parentRunId : String
  agents : List AgentRegistryEntry
  buildTeamExecutionPlan : OrchestrationTask → String → TeamExecutionPlanBuildResult
  localeCompare : String → String → ℤ
  /-- The calls of the runner, in their order. -/
  call : ℕ → SubSessionCall

/-! ## Outcomes -/

inductive DispatchOutcomeStatus
  | running | pendingResult | completed | failed | skipped
  deriving DecidableEq

/-- The record of one task. A task that was handed to the runner has the number of the call,
which stands for the id of its sub-session, and the report the runner returned for it; one
that was not has a reason and a summary. -/
structure DelegatedTaskDispatchOutcome where
  taskId : String
  agent : Option AgentRegistryEntry
  (topologyId topologyExecutorId : Option String)
  status : DispatchOutcomeStatus
  (reasonCode summary : Option String)
  subSession : Option ℕ
  resultReport : Option ReportBody

structure DelegatedTaskDispatchResult where
  (attempted completed failed skipped : ℕ)
  outcomes : List DelegatedTaskDispatchOutcome

structure DispatchState where
  outcomes : List DelegatedTaskDispatchOutcome
  (attempted calls : ℕ)

abbrev Dispatcher := EStateM Thrown DispatchState

def uniqueStrings (values : List String) : List String :=
  (OrderedSet.ofList (values.filter (jsTrim · ≠ ""))).elements

/-! ## Agents -/

/-- The text before and the text after the first place of a marker. -/
def splitAtMarker (marker : List Char) : List Char → Option (List Char × List Char)
  | [] => if marker.isEmpty then some ([], []) else none
  | char :: rest =>
    if marker.isPrefixOf (char :: rest) then some ([], (char :: rest).drop marker.length)
    else (splitAtMarker marker rest).map fun (front, back) => (char :: front, back)

structure TopologyAssignment where
  (topologyId topologyExecutorId : Option String)

variable (agent : AgentRegistryEntry) (environment : DispatchEnvironment) (task : OrchestrationTask)
  (call : SubSessionCall)

def topologyAssignmentFromAgentId : TopologyAssignment :=
  if agent.source ≠ .topology then { topologyId := none, topologyExecutorId := none }
  else
    match splitAtMarker ":node:".toList agent.agentId.toList with
    | none => { topologyId := none, topologyExecutorId := none }
    | some (front, back) =>
      { topologyId := some (String.ofList front)
        topologyExecutorId := some ("node:" ++ String.ofList back) }

/-- `agentsById.get(agentId)`: of several entries with one id the last. -/
def agentById (agentId : String) : Option AgentRegistryEntry :=
  environment.agents.reverse.find? (·.agentId = agentId)

/-- `agentId ? agentsById.get(agentId) : undefined`. -/
def assignedAgent (agentId : Option String) : Option AgentRegistryEntry :=
  (truthyText agentId).bind (agentById environment)

def taskReasonCodes : List String :=
  task.scope.reasonCodes ++ (task.planningTrace.map (·.reasonCodes)).getD []

/-- Why a dispatch is blocked: a reason code and a summary. -/
structure BlockedDispatch where
  (reasonCode summary : String)

def validateDispatchToChildExecutorInput (agent : AgentRegistryEntry) : Option BlockedDispatch :=
  if agent.source ≠ .topology then none
  else
    let selectedExecutorId :=
      truthyText ((task.planningTrace.bind (·.selectedExecutorId)).map jsTrim)
    let reasonCodes := taskReasonCodes task
    if !(reasonCodes.contains "execution_decision_selected_executor" ||
        reasonCodes.contains "explicit_topology_target") then
      some
        { reasonCode := "validated_execution_decision_required"
          summary := "Topology executor dispatch was blocked because no validated executor " ++
            "selection was attached." }
    else
      match selectedExecutorId with
      | none =>
        some
          { reasonCode := "validated_execution_decision_executor_missing"
            summary := "Topology executor dispatch was blocked because the selected executor " ++
              "id is missing." }
      | some selectedExecutorId =>
        if selectedExecutorId ≠ agent.agentId then
          some
            { reasonCode := "validated_execution_decision_executor_mismatch"
              summary := "Topology executor dispatch was blocked because the selected " ++
                "executor differs from the dispatch target." }
        else
          none

/-! ## The call back -/

def commandRequestFor (task : OrchestrationTask) (agent : AgentRegistryEntry) : CommandRequest where
  commandRequestId := s!"command:{environment.parentRunId}:{task.taskId}"
  subSessionId := call.subSessionId
  parentRunId := environment.parentRunId
  idempotencyKey := s!"sub-session:{environment.parentRunId}:{task.taskId}:{agent.agentId}"
  expectedOutputs := task.scope.expectedOutputs.map fun output => { required := output.required }
  topologyExecutor :=
    (truthyText (topologyAssignmentFromAgentId agent).topologyId).map fun _ =>
      { systemPreparation := none
        executorId := (topologyAssignmentFromAgentId agent).topologyExecutorId }

def runSubSessionInputFor (task : OrchestrationTask) (agent : AgentRegistryEntry) :
    RunSubSessionInput where
  command := commandRequestFor environment call task agent
  sender := call.sender
  recipient := call.recipient
  nestedReasonCodes := call.nestedReasonCodes
  modelPolicy := call.modelPolicy
  preflightIssueCodes := call.preflightIssueCodes

/-- The runner of the dispatcher reviews a report by `reviewSubAgentResult`. -/
def reviewingCollaborators (task : OrchestrationTask) : Collaborators ReportBody :=
  { call.collaborators with
    runtime.reviewResultReport := fun report =>
      { parentAborts := call.reviewAborts
        verdict := .ok
          (reviewSubAgentResult none report.outputs task.scope.expectedOutputs
            []).toSubAgentResultReview } }

/-- `failedStatuses`. -/
def isFailedRunStatus (status : RunStatus) : Bool :=
  [.failed, .cancelled, .interrupted].contains status

def reportStatusOf (childRun : Option RootRun) : ReportStatus :=
  if childRun.any (!isFailedRunStatus ·.status) then .completed else .failed

def reportFor (task : OrchestrationTask) (childRun : Option RootRun) : ResultReport ReportBody where
  resultReportId := call.resultReportId
  outputs :=
    { status := reportStatusOf childRun
      outputs := task.scope.expectedOutputs.map fun output =>
        { outputId := output.outputId
          status := if reportStatusOf childRun = .completed then .satisfied else .missing }
      evidence := childRun.toList.flatMap fun childRun =>
        [{ kind := "child_run", sourceRef := childRun.id },
          { kind := "summary", sourceRef := childRun.id }]
      artifacts := []
      risksOrGaps :=
        if reportStatusOf childRun = .completed then uniqueStrings call.bundleIssueCodes
        else uniqueStrings (call.bundleIssueCodes ++
          [(childRun.map (·.summary)).getD "child_run_failed"])
      impossibleReason := none }

/-- `error instanceof Error ? error.message : String(error)`. -/
def safeMessage : Thrown → String
  | .error _ message _ => message
  | .object _ _ text | .value text => text

/-- What the parent does meanwhile, before the handler goes on. -/
def awaiting (meanwhile : ParentSignals) (next : HandlerRun ReportBody) : HandlerRun ReportBody :=
  let aborting := if meanwhile.aborts then .parentAborts next else next
  if meanwhile.finalizes then .parentFinalizes aborting else aborting

/-- The handler goes on unless its progress call threw. -/
def unlessThrown (next : HandlerRun ReportBody) : Option Thrown → HandlerRun ReportBody
  | some error => .throws error
  | none => next

/-- The rest of the handler, once the child run has been started. -/
def finishHandler (task : OrchestrationTask) : FinishedRun → HandlerRun ReportBody
  | .rejects error => .throws error
  | .resolves childRun =>
    .emitProgress
      (if reportStatusOf childRun = .completed then "서브 에이전트 실행을 완료했습니다."
        else "서브 에이전트 실행이 실패했습니다.")
      (some .running) (unlessThrown (.returns (reportFor call task childRun)))

/-- The handler that the dispatcher gives to the runner. What it writes into the record of
the task meanwhile (a reason, the id of the child run) is not followed here. -/
def delegatedHandler (task : OrchestrationTask) : HandlerRun ReportBody :=
  .emitProgress "서브 에이전트 실행을 시작했습니다." (some .running) (unlessThrown
    (match call.startSubAgentRun with
      | .throws error => .throws (.error "Error" s!"child_run_creation_failed:{safeMessage error}"
          none)
      | .starts meanwhile finished => awaiting meanwhile (finishHandler call task finished)))

/-- The call of the runner for a task. -/
def runnerCall (number : ℕ) (task : OrchestrationTask) (agent : AgentRegistryEntry) :
    EStateM.Result Thrown FallibleState (SubSessionRunOutcome ReportBody) :=
  let call := environment.call number
  let collaborators := reviewingCollaborators call task
  let input := runSubSessionInputFor environment call task agent
  (runFallibleSubSession collaborators input (delegatedHandler call task)).run
    (initialFallibleState collaborators input)

/-! ## The dispatch loop -/

def pushOutcome (outcome : DelegatedTaskDispatchOutcome) : Dispatcher Unit :=
  modify fun state => { state with outcomes := state.outcomes ++ [outcome] }

/-- The record of a task that is not handed to the runner. -/
def unstartedOutcome (taskId : String) (status : DispatchOutcomeStatus) (reasonCode : String)
    (summary : Option String) : DelegatedTaskDispatchOutcome where
  taskId := taskId
  agent := none
  topologyId := none
  topologyExecutorId := none
  status := status
  reasonCode := some reasonCode
  summary := summary
  subSession := none
  resultReport := none

def blockedOutcome (agent : AgentRegistryEntry) (blocked : BlockedDispatch) :
    DelegatedTaskDispatchOutcome :=
  { unstartedOutcome task.taskId .failed blocked.reasonCode (some blocked.summary) with
    agent := some agent
    topologyId := (topologyAssignmentFromAgentId agent).topologyId
    topologyExecutorId := (topologyAssignmentFromAgentId agent).topologyExecutorId }

def runningOutcome (number : ℕ) (task : OrchestrationTask) (agent : AgentRegistryEntry) :
    DelegatedTaskDispatchOutcome where
  taskId := task.taskId
  agent := some agent
  topologyId := (topologyAssignmentFromAgentId agent).topologyId
  topologyExecutorId := (topologyAssignmentFromAgentId agent).topologyExecutorId
  status := .running
  reasonCode := none
  summary := none
  subSession := some number
  resultReport := none

/-- The record once the runner has answered. -/
def settledOutcome (number : ℕ) (task : OrchestrationTask) (agent : AgentRegistryEntry)
    (answer : SubSessionRunOutcome ReportBody) : DelegatedTaskDispatchOutcome :=
  { runningOutcome number task agent with
    status := if answer.status = .completed then .completed else .failed
    resultReport := answer.resultReport.map (·.outputs) }

def dispatchAgentTask (agent : AgentRegistryEntry) : Dispatcher Unit :=
  match validateDispatchToChildExecutorInput task agent with
  | some blocked => do
    modify fun state => { state with attempted := state.attempted + 1 }
    pushOutcome (blockedOutcome task agent blocked)
  | none => do
    let number := (← get).calls
    modify fun state => { state with attempted := state.attempted + 1, calls := number + 1 }
    pushOutcome (runningOutcome number task agent)
    -- `await runner.runSubSession(..)`, outside any `try`
    match settled (runnerCall environment number task agent) with
    | .error error => throw error
    | .ok answer =>
      modify fun state =>
        { state with
          outcomes := state.outcomes.dropLast ++ [settledOutcome number task agent answer] }

def teamDispatchBlockReason : Option String :=
  let reasonCodes := taskReasonCodes task
  if reasonCodes.contains "inferred_team_target_from_capability" then
    some "inferred_team_target_from_capability_blocked"
  else if reasonCodes.contains "inferred_team_target_from_request" then
    some "inferred_team_target_from_request_blocked"
  else if !reasonCodes.contains "explicit_team_target" then
    some "team_dispatch_requires_explicit_target"
  else
    none

def teamTaskOrder : TeamTaskKind → ℤ
  | .member => 0
  | .synthesis => 1
  | .review => 2
  | .verification => 3

def orchestrationTaskFromTeamTask (parentTask : OrchestrationTask)
    (task : TeamExecutionTaskSnapshot) : OrchestrationTask where
  taskId := task.taskId
  scope := task.scope
  assignedAgentId := truthyText task.assignedAgentId
  assignedTeamId := truthyText (task.assignedTeamId <|> parentTask.assignedTeamId)
  planningTrace := some
    { selectedExecutorId := none
      reasonCodes := uniqueStrings ((parentTask.planningTrace.map (·.reasonCodes)).getD [] ++
        task.reasonCodes ++ ["team_execution_task_expanded"]) }

/-- The delegated tasks of a team plan: members, then synthesis, then review. -/
def delegatedTeamTasks (assignments : List (List TeamExecutionTaskSnapshot)) :
    List TeamExecutionTaskSnapshot :=
  (assignments.flatten.filter fun task =>
      task.executionKind = .delegatedSubAgent ∧ (truthyText task.assignedAgentId).isSome).mergeSort
    fun left right =>
      let order := teamTaskOrder left.taskKind - teamTaskOrder right.taskKind
      (if order ≠ 0 then order else environment.localeCompare left.taskId right.taskId) ≤ 0

def dispatchExpandedTask (expandedTask : OrchestrationTask) : Dispatcher Unit :=
  match assignedAgent environment expandedTask.assignedAgentId with
  | none => pushOutcome (unstartedOutcome expandedTask.taskId .skipped "assigned_agent_missing" none)
  | some agent => dispatchAgentTask environment expandedTask agent

def dispatchTeamTask (teamId : String) : Dispatcher Unit :=
  match teamDispatchBlockReason task with
  | some blockReason => pushOutcome (unstartedOutcome task.taskId .skipped blockReason
      (some s!"Skipped team dispatch for {teamId} because the team was not explicitly selected."))
  | none =>
    let teamPlan := environment.buildTeamExecutionPlan task teamId
    match teamPlan.plan.filter fun _ => teamPlan.ok with
    | none => pushOutcome (unstartedOutcome task.taskId .failed
        (teamPlan.diagnostics.head?.getD "team_execution_plan_failed")
        (some s!"Team execution plan failed for {teamId}."))
    | some assignments =>
      match delegatedTeamTasks environment assignments with
      | [] => pushOutcome (unstartedOutcome task.taskId .failed
          "team_execution_plan_no_delegated_tasks"
          (some s!"Team execution plan produced no delegated tasks for {teamId}."))
      | first :: rest =>
        forM ((first :: rest).map (orchestrationTaskFromTeamTask task))
          (dispatchExpandedTask environment)

/-- One round of the loop over `plan.delegatedTasks`. -/
def dispatchTask : Dispatcher Unit :=
  match assignedAgent environment task.assignedAgentId with
  | some agent => dispatchAgentTask environment task agent
  | none =>
    match truthyText task.assignedTeamId with
    | some teamId => dispatchTeamTask environment task teamId
    | none => pushOutcome (unstartedOutcome task.taskId .skipped "assigned_agent_missing" none)

def isDelegationDispatchEligible (plan : OrchestrationPlan) : Bool :=
  plan.delegatedTasks.any fun task =>
    ((truthyText (task.assignedAgentId.map jsTrim)).isSome ||
      (truthyText (task.assignedTeamId.map jsTrim)).isSome)

/-- The counts are taken from the outcomes. -/
def dispatchResult (state : DispatchState) : DelegatedTaskDispatchResult where
  attempted := state.attempted
  completed := (state.outcomes.filter (·.status = .completed)).length
  failed := (state.outcomes.filter (·.status = .failed)).length
  skipped := (state.outcomes.filter (·.status = .skipped)).length
  outcomes := state.outcomes

def dispatchDelegatedSubAgentTasks (plan : OrchestrationPlan) :
    Except Thrown DelegatedTaskDispatchResult :=
  if isDelegationDispatchEligible plan then
    match (forM plan.delegatedTasks (dispatchTask environment)).run
        { outcomes := [], attempted := 0, calls := 0 } with
    | .error error _ => .error error
    | .ok _ last => .ok (dispatchResult last)
  else
    .ok { attempted := 0, completed := 0, failed := 0, skipped := 0, outcomes := [] }

end Nobie.Orchestration
