/-
# Execution decisions

Before an executor works on a request it decides how: itself, through a child, by asking.
A decision is a record of the contract's first version; models are asked for the second
version, which is checked against the context and converted. The members a model fills
freely (the profile of the task, the outputs, the risk boundary) stay the JSON it wrote.
-/

import Nobie.Foundation.Json
import Nobie.Foundation.Bytes

namespace Nobie.Orchestration

open Foundation

/-! ## Names -/

/-- `AGENT_EXECUTION_ROUTES`. -/
inductive ExecutionRoute
  | selfSolve | directCurrentAgent | delegateToChild | returnToParent | rootNobieDirect
  | explicitProvider | explicitProviderTarget | boundaryFailure | nobieDirect | askParent | askUser
  | subAgent | yeonjang
  deriving DecidableEq

namespace ExecutionRoute

def text : ExecutionRoute → String
  | selfSolve => "self_solve"
  | directCurrentAgent => "direct_current_agent"
  | delegateToChild => "delegate_to_child"
  | returnToParent => "return_to_parent"
  | rootNobieDirect => "root_nobie_direct"
  | explicitProvider => "explicit_provider"
  | explicitProviderTarget => "explicit_provider_target"
  | boundaryFailure => "boundary_failure"
  | nobieDirect => "nobie_direct"
  | askParent => "ask_parent"
  | askUser => "ask_user"
  | subAgent => "sub_agent"
  | yeonjang => "yeonjang"

def all : List ExecutionRoute :=
  [selfSolve, directCurrentAgent, delegateToChild, returnToParent, rootNobieDirect,
    explicitProvider, explicitProviderTarget, boundaryFailure, nobieDirect, askParent, askUser,
    subAgent, yeonjang]

end ExecutionRoute

/-- `AgentExecutionFallbackReason`. -/
inductive FallbackReason
  | selfSolve | directCurrentAgent | delegateToChild | returnToParent | rootNobieDirect
  | explicitProvider | explicitProviderTarget | boundaryFailure | nobieDirect | askParent | askUser
  deriving DecidableEq

namespace FallbackReason

/-- `fallbackRouteToExecutionRoute`: every reason is a route of the same name. -/
def route : FallbackReason → ExecutionRoute
  | selfSolve => .selfSolve
  | directCurrentAgent => .directCurrentAgent
  | delegateToChild => .delegateToChild
  | returnToParent => .returnToParent
  | rootNobieDirect => .rootNobieDirect
  | explicitProvider => .explicitProvider
  | explicitProviderTarget => .explicitProviderTarget
  | boundaryFailure => .boundaryFailure
  | nobieDirect => .nobieDirect
  | askParent => .askParent
  | askUser => .askUser

def text (reason : FallbackReason) : String := reason.route.text

def all : List FallbackReason :=
  [selfSolve, directCurrentAgent, delegateToChild, returnToParent, rootNobieDirect,
    explicitProvider, explicitProviderTarget, boundaryFailure, nobieDirect, askParent, askUser]

end FallbackReason

/-- `AGENT_EXECUTION_BEHAVIOR_PATTERNS`. -/
inductive BehaviorPattern
  | answer | plan | split | delegate | execute | review | aggregate | clarify | recover

namespace BehaviorPattern

def text : BehaviorPattern → String
  | answer => "answer"
  | plan => "plan"
  | split => "split"
  | delegate => "delegate"
  | execute => "execute"
  | review => "review"
  | aggregate => "aggregate"
  | clarify => "clarify"
  | recover => "recover"

def all : List BehaviorPattern :=
  [answer, plan, split, delegate, execute, review, aggregate, clarify, recover]

end BehaviorPattern

/-- `AGENT_EXECUTION_RISK_BOUNDARY_KINDS`. -/
inductive RiskBoundaryKind
  | privacy | permission | delete | payment | externalTransfer | localSystemControl

namespace RiskBoundaryKind

def text : RiskBoundaryKind → String
  | privacy => "privacy"
  | permission => "permission"
  | delete => "delete"
  | payment => "payment"
  | externalTransfer => "external_transfer"
  | localSystemControl => "local_system_control"

def all : List RiskBoundaryKind :=
  [privacy, permission, delete, payment, externalTransfer, localSystemControl]

end RiskBoundaryKind

/-- `AGENT_EXECUTION_DECISION_V2_ACTIONS`. -/
inductive DecisionAction
  | delegate | selfSolve | askUser | returnToParent | failWithReason
  deriving DecidableEq

namespace DecisionAction

def text : DecisionAction → String
  | delegate => "delegate"
  | selfSolve => "self_solve"
  | askUser => "ask_user"
  | returnToParent => "return_to_parent"
  | failWithReason => "fail_with_reason"

def all : List DecisionAction := [delegate, selfSolve, askUser, returnToParent, failWithReason]

end DecisionAction

variable {α : Type} (value : Option Json)

/-- The member of an enumeration that a text names. -/
def named? (spelling : α → String) (members : List α) (name : String) : Option α :=
  members.find? fun found => spelling found = name

/-! ## Context -/

structure RequiredOutput where
  (id label : String)
  acceptanceCriteria : Option (List String) := none
  recipientExecutorId : Option String := none

def RequiredOutput.toJson (output : RequiredOutput) : Json :=
  .obj ([("id", .str output.id), ("label", .str output.label)] ++
    (output.acceptanceCriteria.map fun criteria =>
      ("acceptance_criteria", Json.arr (criteria.map Json.str))).toList ++
    (output.recipientExecutorId.map fun id => ("recipient_executor_id", Json.str id)).toList)

structure ExecutionRequest where
  (latestUserMessage structuredGoal : Option String)
  requiredOutputs : Option (List RequiredOutput)

structure ExecutorProfile where
  (executorId displayName : String)
  roleName : Option String
  (canDelegate available : Bool)

inductive RequesterType
  | user | executor | channel | system
  deriving DecidableEq

structure Requester where
  requesterId : String
  requesterType : RequesterType

structure ExecutorConnection where
  (fromExecutorId toExecutorId : String)

structure RiskPolicy where
  approvalRequiredFor : List RiskBoundaryKind
  blockedWithoutApproval : Option (List RiskBoundaryKind)

/-- The graph around the executor, as the snapshot of the topology gives it. -/
structure ExecutionGraphContext where
  (rootExecutorId currentExecutorId : String)
  (availableExecutorIds allActiveExecutorIds : List String)
  allRegisteredExecutorIds : Option (List String)
  allowedConnections : List ExecutorConnection

/-- What the executor that decides can see. -/
structure ExecutionContext where
  request : ExecutionRequest
  currentExecutor : ExecutorProfile
  parentExecutor : Option ExecutorProfile
  requester : Option Requester
  accessibleExecutors : List ExecutorProfile
  diagnosticExecutors : Option (List ExecutorProfile)
  accessibleConnections : List ExecutorConnection
  riskPolicy : RiskPolicy
  executionGraph : Option ExecutionGraphContext
  directExecutionRequested : Option Bool
  (explicitTargetExecutorId explicitProviderTargetId : Option String)

variable (context : ExecutionContext)

/-- `context.requester` if it is an executor. -/
def ExecutionContext.requesterExecutorId : Option String :=
  match context.requester with
  | some requester =>
    if requester.requesterType = .executor then some requester.requesterId else none
  | none => none

/-- `directChildExecutorIds`. -/
def directChildExecutorIds : List String :=
  match context.executionGraph with
  | some graph => graph.availableExecutorIds
  | none => context.accessibleExecutors.map (·.executorId)

/-! ## Decisions -/

/-- A decision of the first version. -/
structure ExecutionDecision where
  currentExecutorId : String
  parentExecutorId : Option String
  domain : String
  behaviorPattern : BehaviorPattern
  executionRoute : ExecutionRoute
  selectedExecutorId : Option String
  selectedConnectionPath : List String
  taskProfile : JsonObject
  requiredOutputs : List Json
  riskBoundary : JsonObject
  confidence : Number
  fallbackIfUnavailable : FallbackReason
  unresolvedReason : Option String
  reason : String

structure TaskSplitUnit where
  (executorId objective expectedReturn : String)
  dependsOnExecutorIds : Option (List String)

/-- A decision of the second version. An action that is missing or is not one of the
actions is none. -/
structure ExecutionDecisionV2 where
  currentExecutorId : String
  parentExecutorId : Option String
  domain : String
  behaviorPattern : BehaviorPattern
  action : Option DecisionAction
  (selectedExecutorIds selectedConnectionPath : List String)
  taskProfile : JsonObject
  taskSplit : Option (List TaskSplitUnit)
  requiredOutputs : List Json
  riskBoundary : JsonObject
  confidence : Number
  unresolvedReason : Option String
  reason : String

/-- `hasString` and `hasText`: a text that is not blank. -/
def hasText (text : String) : Bool := jsTrim text ≠ ""

def stringValue : Option Json → Option String
  | some (.str text) => some text
  | _ => none

/-- The text of a member, if there is one. -/
def textOf : Option String := (stringValue value).filter hasText

def isBool : Option Json → Bool
  | some (.bool _) => true
  | _ => false

def isRecord : Option Json → Bool
  | some (.obj _) => true
  | _ => false

def isArray : Option Json → Bool
  | some (.arr _) => true
  | _ => false

def isStringArray : Option Json → Bool
  | some (.arr items) => items.all fun item => (stringValue (some item)).isSome
  | _ => false

/-- Is the member a text that names a member of an enumeration? -/
def isNamed (spelling : α → String) (members : List α) (value : Option Json) : Bool :=
  match stringValue value with
  | some text => (named? spelling members text).isSome
  | none => false

/-- `normalizeAgentExecutionConfidence`. -/
def normalizeConfidence : Option Json → Number
  | some (.num number) =>
    if ¬number.isFinite then .ofNat 0
    else if number.value < 0 then .ofNat 0
    else if number.value > 1 then .ofNat 1
    else number
  | _ => .ofNat 0

/-- An optional member of an object that is written only when it is there. -/
def optionalMember (key : String) (text : Option String) : JsonObject :=
  (text.map fun text => (key, Json.str text)).toList

/-- The decision as the record it is. -/
def ExecutionDecision.toJson (decision : ExecutionDecision) : Json :=
  .obj ([("contract_version", .str "agent-execution-decision:v1"),
    ("current_executor_id", .str decision.currentExecutorId)] ++
    optionalMember "parent_executor_id" decision.parentExecutorId ++
    [("domain", .str decision.domain), ("behavior_pattern", .str decision.behaviorPattern.text),
      ("execution_route", .str decision.executionRoute.text)] ++
    optionalMember "selected_executor_id" decision.selectedExecutorId ++
    [("selected_connection_path", .arr (decision.selectedConnectionPath.map Json.str)),
      ("task_profile", .obj decision.taskProfile),
      ("required_outputs", .arr decision.requiredOutputs),
      ("risk_boundary", .obj decision.riskBoundary), ("confidence", .num decision.confidence),
      ("fallback_if_unavailable", .str decision.fallbackIfUnavailable.text)] ++
    optionalMember "unresolved_reason" decision.unresolvedReason ++
    [("reason", .str decision.reason)])

/-- An issue that is reported unless a condition holds. -/
def issueUnless (holds : Bool) (issue : α) : List α := if holds then [] else [issue]

@[simp]
theorem issueUnless_eq_nil {holds : Bool} {issue : α} : issueUnless holds issue = [] ↔ holds := by
  cases holds <;> simp [issueUnless]

def riskBoundaryShapeIssues : List String :=
  match value with
  | some (.obj boundary) =>
    issueUnless (isBool (Json.lookup boundary "requires_user_approval"))
        "risk_boundary.requires_user_approval must be boolean" ++
      issueUnless (textOf (Json.lookup boundary "reason")).isSome
        "risk_boundary.reason must be a non-empty string" ++
      issueUnless ((Json.lookup boundary "boundary_kind").isNone ||
          isNamed RiskBoundaryKind.text RiskBoundaryKind.all (Json.lookup boundary "boundary_kind"))
        "risk_boundary.boundary_kind must be a known policy boundary"
  | _ => ["risk_boundary must be an object"]

def confidenceShapeIssues : List String :=
  match value with
  | some (.num number) =>
    if ¬number.isFinite then ["confidence must be a finite number"]
    else if number.value < 0 ∨ number.value > 1 then ["confidence must be between 0 and 1"]
    else []
  | _ => ["confidence must be a finite number"]

/-- `validateAgentExecutionDecisionShape`: what is wrong with a value as a decision. -/
def validateDecisionShape (decision : Json) : List String :=
  match decision with
  | .obj fields =>
    let field := Json.lookup fields
    issueUnless (stringValue (field "contract_version") = some "agent-execution-decision:v1")
        "contract_version must match agent execution decision contract" ++
      issueUnless (textOf (field "current_executor_id")).isSome
        "current_executor_id must be a non-empty string" ++
      issueUnless (textOf (field "domain")).isSome "domain must be a non-empty string" ++
      issueUnless (isNamed BehaviorPattern.text BehaviorPattern.all (field "behavior_pattern"))
        "behavior_pattern must be a known behavior pattern" ++
      issueUnless (isNamed ExecutionRoute.text ExecutionRoute.all (field "execution_route"))
        "execution_route must be a known execution route" ++
      issueUnless (isStringArray (field "selected_connection_path"))
        "selected_connection_path must be an array of executor ids" ++
      issueUnless (isArray (field "required_outputs")) "required_outputs must be an array" ++
      issueUnless (isRecord (field "task_profile")) "task_profile must be an object" ++
      riskBoundaryShapeIssues (field "risk_boundary") ++
      confidenceShapeIssues (field "confidence") ++
      issueUnless
        (isNamed FallbackReason.text FallbackReason.all (field "fallback_if_unavailable"))
        "fallback_if_unavailable must be a known fallback reason" ++
      issueUnless (textOf (field "reason")).isSome "reason must be a non-empty string"
  | _ => ["decision must be an object"]

/-! ## The second version -/

inductive DecisionV2IssueCode
  | invalidCurrentExecutor | invalidAction | missingSelectedExecutor
  | selectedExecutorNotDirectChild | selectedExecutorNotInContext | invalidSelectedConnectionPath
  | invalidRiskBoundary | invalidConfidence | invalidReason | invalidTaskSplitExecutor
  | invalidTaskSplitObjective | invalidTaskSplitExpectedReturn

structure DecisionV2Issue where
  code : DecisionV2IssueCode
  message : String
  executorId : Option String := none

/-- `allContextExecutorIds`: the executors of the context. -/
def contextExecutorIds : List String :=
  ([context.currentExecutor.executorId] ++
    (context.parentExecutor.map (·.executorId)).toList ++
    (context.executionGraph.map (·.allActiveExecutorIds)).getD [] ++
    (context.executionGraph.bind (·.allRegisteredExecutorIds)).getD [] ++
    context.accessibleExecutors.map (·.executorId) ++
    (context.diagnosticExecutors.getD []).map (·.executorId)).filter hasText

def selectedExecutorIssue (executorId : String) : List DecisionV2Issue :=
  if executorId ∉ contextExecutorIds context then
    [{ code := .selectedExecutorNotInContext
       message := "selected_executor_ids may only reference executors in the provided graph " ++
        "context."
       executorId := some executorId }]
  else
    issueUnless (executorId ∈ directChildExecutorIds context)
      { code := .selectedExecutorNotDirectChild
        message := "selected_executor_ids may only reference direct child executors."
        executorId := some executorId }

def taskSplitIssues (unit : TaskSplitUnit) : List DecisionV2Issue :=
  let executorId := if hasText unit.executorId then some unit.executorId else none
  issueUnless
      (hasText unit.executorId && decide (unit.executorId ∈ directChildExecutorIds context))
      { code := .invalidTaskSplitExecutor
        message := "task_split executor_id must reference a direct child executor."
        executorId } ++
    issueUnless (hasText unit.objective)
      { code := .invalidTaskSplitObjective
        message := "Each task_split item must include a non-empty objective."
        executorId } ++
    issueUnless (hasText unit.expectedReturn)
      { code := .invalidTaskSplitExpectedReturn
        message := "Each task_split item must include a non-empty expected_return."
        executorId }

/-- `validateAgentExecutionDecisionV2AgainstContext` of a decision that is already a record of
its type. The kind of the risk boundary is not looked at. -/
def validateDecisionV2AgainstContext (decision : ExecutionDecisionV2) : List DecisionV2Issue :=
  issueUnless (decision.currentExecutorId = context.currentExecutor.executorId)
      { code := .invalidCurrentExecutor
        message := "current_executor_id must match the current executor context."
        executorId := some decision.currentExecutorId } ++
    issueUnless decision.action.isSome
      { code := .invalidAction
        message := "action must be delegate, self_solve, ask_user, return_to_parent, or " ++
          "fail_with_reason." } ++
    issueUnless (¬(decision.action = some .delegate ∧ decision.selectedExecutorIds = []))
      { code := .missingSelectedExecutor
        message := "delegate action requires at least one selected executor." } ++
    decision.selectedExecutorIds.flatMap (selectedExecutorIssue context) ++
    issueUnless (¬(decision.action = some .delegate ∧ decision.selectedConnectionPath = []))
      { code := .invalidSelectedConnectionPath
        message := "delegate action requires a non-empty selected_connection_path." } ++
    issueUnless (isBool (Json.lookup decision.riskBoundary "requires_user_approval") &&
        (textOf (Json.lookup decision.riskBoundary "reason")).isSome)
      { code := .invalidRiskBoundary
        message := "risk_boundary must include requires_user_approval and a reason." } ++
    issueUnless (decision.confidence.isFinite && decide (0 ≤ decision.confidence.value) &&
        decide (decision.confidence.value ≤ 1))
      { code := .invalidConfidence
        message := "confidence must be a finite number from 0 through 1." } ++
    issueUnless (hasText decision.reason)
      { code := .invalidReason, message := "reason must be a non-empty string." } ++
    (decision.taskSplit.getD []).flatMap (taskSplitIssues context)

/-- `routeForV2Action`. -/
def routeForV2Action : Option DecisionAction → ExecutionRoute
  | some .delegate => .delegateToChild
  | some .failWithReason => .boundaryFailure
  | some .askUser => .askUser
  | some .returnToParent => .returnToParent
  | some .selfSolve | none => .selfSolve

/-- `fallbackForV2Action`. -/
def fallbackForV2Action : Option DecisionAction → FallbackReason
  | some .delegate => .selfSolve
  | some .failWithReason => .boundaryFailure
  | some .askUser => .askUser
  | some .returnToParent => .returnToParent
  | some .selfSolve | none => .selfSolve

/-- The unit of work that a part of a split asks for. -/
def splitTaskUnit (index : ℕ) (unit : TaskSplitUnit) : Json :=
  .obj ([("id", .str s!"task_split:{index + 1}"), ("title", .str unit.objective),
    ("goal", .str unit.objective), ("preferred_executor_id", .str unit.executorId),
    ("required_outputs", .arr [.obj [("id", .str s!"task_split:{index + 1}:return"),
      ("label", .str unit.expectedReturn)]])] ++
    (unit.dependsOnExecutorIds.map fun ids =>
      ("depends_on_unit_ids", Json.arr (ids.map Json.str))).toList)

/-- `convertAgentExecutionDecisionV2ToV1`. -/
def convertDecisionV2ToV1 (decision : ExecutionDecisionV2) : ExecutionDecision where
  currentExecutorId := decision.currentExecutorId
  parentExecutorId := truthyText decision.parentExecutorId
  domain := decision.domain
  behaviorPattern := decision.behaviorPattern
  executionRoute := routeForV2Action decision.action
  selectedExecutorId := truthyText decision.selectedExecutorIds.head?
  selectedConnectionPath := decision.selectedConnectionPath
  taskProfile :=
    match decision.taskSplit with
    | some units => decision.taskProfile ++ [("task_units", .arr (units.mapIdx splitTaskUnit))]
    | none => decision.taskProfile
  requiredOutputs := decision.requiredOutputs
  riskBoundary := decision.riskBoundary
  confidence := decision.confidence
  fallbackIfUnavailable := fallbackForV2Action decision.action
  unresolvedReason :=
    truthyText (decision.unresolvedReason.or
      (if decision.action = some .selfSolve then some decision.reason else none))
  reason := decision.reason

end Nobie.Orchestration
