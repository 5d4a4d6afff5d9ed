/-
# The harness of execution decisions

The harness asks a model for a decision and must return one whatever the model does. It
takes one JSON object from the output, fills what is missing, and checks the result against
the context: the selected executor, the path to it, the fallback and the risk boundary. A
decision that fails, or none at all, is replaced by a fallback.
-/

import Nobie.Orchestration.ExecutionDecision

namespace Nobie.Orchestration

open Foundation

/-! ## The output of the model -/

/-- The text before and behind the first place where a mark stands. -/
def splitAtFirst (mark : List Char) : List Char → Option (List Char × List Char)
  | [] => none
  | c :: rest =>
    if mark.isPrefixOf (c :: rest) then some ([], (c :: rest).drop mark.length)
    else (splitAtFirst mark rest).map fun parts => (c :: parts.1, parts.2)

def trimChars (chars : List Char) : List Char := (chars.dropWhile isJsSpace).rdropWhile isJsSpace

/-- What the pattern of a fenced block captures, trimmed. -/
def fencedBlock (chars : List Char) : Option (List Char) := do
  let (_, opened) ← splitAtFirst "```".toList chars
  let body :=
    if (opened.take 4).map Char.toLower = "json".toList then opened.drop 4 else opened
  let (captured, _) ← splitAtFirst "```".toList body
  return trimChars captured

/-- The loop over the characters from an opening brace on: the text up to the brace that
closes it. An escape is skipped outside of strings as well. -/
def closingBrace (depth : ℕ) (inString escaped : Bool) : List Char → Option (List Char)
  | [] => none
  | c :: rest =>
    if escaped then (closingBrace depth inString false rest).map (c :: ·)
    else if c = '\\' then (closingBrace depth inString true rest).map (c :: ·)
    else if c = '"' then (closingBrace depth (!inString) false rest).map (c :: ·)
    else if inString then (closingBrace depth inString false rest).map (c :: ·)
    else if c = '{' then (closingBrace (depth + 1) inString false rest).map (c :: ·)
    else if c = '}' then
      if depth = 1 then some [c]
      else (closingBrace (depth - 1) inString false rest).map (c :: ·)
    else (closingBrace depth inString false rest).map (c :: ·)

/-- `extractSingleJsonObject`. -/
def extractSingleJsonObject (value : List Char) : Option (List Char) :=
  if value.head? = some '{' ∧ value.getLast? = some '}' then some value
  else
    closingBrace 0 false false (((fencedBlock value).getD value).dropWhile (· ≠ '{'))

/-- `parseAgentExecutionDecisionModelOutput`. -/
def parseDecisionModelOutput (output : String) : Option Json := do
  let text ← extractSingleJsonObject (trimChars output.toList)
  Json.parse (String.ofList text)

/-! ## Filling a decision -/

variable (value : Option Json) (context : ExecutionContext) (fields : JsonObject)
  (route : ExecutionRoute) (allowExplicitTarget : Bool)

/-- `executorReferenceText`. -/
def executorReferenceText : Option String :=
  match value with
  | some (.str text) => if hasText text then some (jsTrim text) else none
  | some (.obj fields) =>
    (["executor_id", "id", "selected_executor_id", "display_name", "name",
      "role_name"].findSome? fun key => textOf (Json.lookup fields key)).map jsTrim
  | _ => none

/-- `resolveDirectExecutorReference`. -/
def resolveDirectExecutorReference (reference : String) : Option String :=
  let normalized := jsTrim reference
  if normalized = "" then none
  else if context.accessibleExecutors.any (·.executorId = normalized) then some normalized
  else
    match context.accessibleExecutors.filter fun executor =>
        jsTrim executor.displayName = normalized ∨
          executor.roleName.map jsTrim = some normalized with
    | [executor] => some executor.executorId
    | _ => none

/-- `toExecutorReferenceArray`. -/
def toExecutorReferenceArray : List String :=
  let rawValues : List (Option Json) :=
    match value with
    | some (.arr items) => items.map some
    | _ => [value]
  rawValues.foldl (fun resolved raw =>
    match executorReferenceText raw with
    | none => resolved
    | some reference =>
      let executorId := (resolveDirectExecutorReference context reference).getD reference
      if executorId ∈ resolved then resolved else resolved ++ [executorId]) []

/-- `toStringArray`. -/
def toStringArray : List String :=
  match value with
  | some (.str text) => if hasText text then [jsTrim text] else []
  | some (.arr items) => (items.filterMap fun item => textOf (some item)).map jsTrim
  | _ => []

/-- `textFromKeys`. -/
def textFromKeys (record : JsonObject) (keys : List String) : Option String :=
  (keys.findSome? fun key => textOf (Json.lookup record key)).map jsTrim

def splitUnitOf (unit : Json) : Option TaskSplitUnit :=
  match unit with
  | .obj fields => do
    let reference ← ["executor_id", "preferred_executor_id", "selected_executor_id",
      "executor", "agent"].findSome? fun key => executorReferenceText (Json.lookup fields key)
    let executorId ← truthyText (resolveDirectExecutorReference context reference)
    let fallbackObjective := (context.request.structuredGoal.or
      context.request.latestUserMessage).getD "Handle the delegated work."
    let fallbackExpectedReturn :=
      ((context.request.requiredOutputs.getD []).head?.map (·.label)).getD
        "Return the result needed by the parent executor."
    return {
      executorId
      objective := (textFromKeys fields
        ["objective", "goal", "title", "summary", "description"]).getD fallbackObjective
      expectedReturn := (textFromKeys fields
        ["expected_return", "expected_output", "return", "output", "label"]).getD
          fallbackExpectedReturn
      dependsOnExecutorIds :=
        if isArray (Json.lookup fields "depends_on_executor_ids") then
          some (toExecutorReferenceArray (Json.lookup fields "depends_on_executor_ids") context)
        else none }
  | _ => none

/-- `normalizeTaskSplit`: of the parts with the same executor and objective the first. -/
def normalizeTaskSplit (value : Option Json) : List TaskSplitUnit :=
  match value with
  | some (.arr items) =>
    (items.filterMap (splitUnitOf context)).foldl (fun kept unit =>
      if kept.any fun other =>
          other.executorId = unit.executorId ∧ other.objective = unit.objective then kept
      else kept ++ [unit]) []
  | _ => []

/-- `normalizeDecisionAction`. -/
def normalizeDecisionAction (value : String) : Option DecisionAction :=
  match named? DecisionAction.text DecisionAction.all value with
  | some action => some action
  | none =>
    if value ∈ ["delegate_to_child", "sub_agent"] then some .delegate
    else if value ∈ ["direct_current_agent", "root_nobie_direct", "nobie_direct",
        "explicit_provider", "yeonjang"] then some .selfSolve
    else if value = "ask_parent" then some .returnToParent
    else if value = "boundary_failure" then some .failWithReason
    else none

/-- `coerceBehaviorPattern`. -/
def coerceBehaviorPattern (action : Option DecisionAction) : BehaviorPattern :=
  match (stringValue value).bind (named? BehaviorPattern.text BehaviorPattern.all) with
  | some pattern => pattern
  | none =>
    match action with
    | some .delegate => .delegate
    | some .askUser => .clarify
    | some .returnToParent | some .failWithReason => .recover
    | some .selfSolve | none => .answer

/-- `coerceTaskProfile`. -/
def coerceTaskProfile (value : Option Json) : JsonObject :=
  match value with
  | some (.obj fields) => fields
  | _ =>
    let goal := context.request.structuredGoal
    [("title", .str (goal.getD "Execution decision")),
      ("summary", .str ((context.request.latestUserMessage.or goal).getD
        "Route the current request.")),
      ("goals", .arr [.str (goal.getD "Select a viable executor path.")]),
      ("task_units", .arr []),
      ("success_criteria",
        .arr [.str "The selected route is valid for the current executor graph."])]

/-- Does a risk boundary say whether it needs approval and why? -/
def boundaryComplete (boundary : JsonObject) : Bool :=
  isBool (Json.lookup boundary "requires_user_approval") &&
    (textOf (Json.lookup boundary "reason")).isSome

/-- `coerceRiskBoundary`: an incomplete boundary is replaced as a whole. -/
def coerceRiskBoundary : JsonObject :=
  let unidentified : JsonObject :=
    [("requires_user_approval", .bool false), ("reason", .str
      "No additional approval boundary was identified by the execution decision model.")]
  match value with
  | some (.obj boundary) => if boundaryComplete boundary then boundary else unidentified
  | _ => unidentified

/-- `fallbackRequiredOutputs`. -/
def fallbackRequiredOutputs : List Json :=
  match context.request.requiredOutputs with
  | some (output :: outputs) => (output :: outputs).map RequiredOutput.toJson
  | _ =>
    [.obj [("id", .str "fallback:next-action"), ("label", .str "Safe next action"),
      ("acceptance_criteria", .arr [.str "Fallback reason and next executor are explicit"])]]

def coerceRequiredOutputs (value : Option Json) : List Json :=
  match value with
  | some (.arr outputs) => outputs
  | _ => fallbackRequiredOutputs context

def coerceParentExecutorId (value : Option Json) : Option String :=
  match textOf value with
  | some text => some (jsTrim text)
  | none => truthyText (context.parentExecutor.map (·.executorId))

/-- A trimmed text, or a default for one that is missing. -/
def textOr (default : String) : String := ((textOf value).map jsTrim).getD default

/-- The executor that `selected_executor_id` refers to. -/
def selectedExecutorReference : Option String :=
  (textOf (Json.lookup fields "selected_executor_id")).map fun text =>
    (resolveDirectExecutorReference context text).getD (jsTrim text)

/-- The text of `execution_route` if it is a route. -/
def statedRoute : Option ExecutionRoute :=
  (textOf (Json.lookup fields "execution_route")).bind
    (named? ExecutionRoute.text ExecutionRoute.all)

def looksLikeV1 : Bool :=
  (statedRoute fields).isSome || (textOf (Json.lookup fields "selected_executor_id")).isSome ||
    (Json.lookup fields "fallback_if_unavailable").isSome

/-- `coerceAgentExecutionDecisionV1Like`. -/
def coerceDecisionV1Like : Option ExecutionDecision :=
  let field := Json.lookup fields
  let route := statedRoute fields
  let selectedExecutorId := selectedExecutorReference context fields
  if ¬looksLikeV1 fields then none
  else
    some {
      currentExecutorId := textOr (field "current_executor_id") context.currentExecutor.executorId
      parentExecutorId := coerceParentExecutorId context (field "parent_executor_id")
      domain := textOr (field "domain") "unresolved"
      behaviorPattern := coerceBehaviorPattern (field "behavior_pattern")
        (if route = some .delegateToChild then some .delegate else none)
      executionRoute := route.getD
        (if (truthyText selectedExecutorId).isSome then .delegateToChild else .selfSolve)
      selectedExecutorId := truthyText selectedExecutorId
      selectedConnectionPath := toStringArray (field "selected_connection_path")
      taskProfile := coerceTaskProfile context (field "task_profile")
      requiredOutputs := coerceRequiredOutputs context (field "required_outputs")
      riskBoundary := coerceRiskBoundary (field "risk_boundary")
      confidence := normalizeConfidence (field "confidence")
      fallbackIfUnavailable := ((textOf (field "fallback_if_unavailable")).bind
        (named? FallbackReason.text FallbackReason.all)).getD .selfSolve
      unresolvedReason := (textOf (field "unresolved_reason")).map jsTrim
      reason := textOr (field "reason") "Execution decision model returned a partial V1 decision." }

def looksLikeV2 : Bool :=
  let field := Json.lookup fields
  decide (stringValue (field "contract_version") = some "agent-execution-decision:v2") ||
    (textOf (field "action")).isSome || isArray (field "selected_executor_ids") ||
    (textOf (field "selected_executor_ids")).isSome || (field "task_split").isSome

/-- The executors a decision of the second version selects, those of the split last. -/
def selectedExecutorIdsV2 (taskSplit : List TaskSplitUnit) : List String :=
  let stated := toExecutorReferenceArray (Json.lookup fields "selected_executor_ids") context
  let selected :=
    if stated = [] then (selectedExecutorReference context fields).toList else stated
  taskSplit.foldl (fun selected unit =>
    if unit.executorId ∈ selected then selected else selected ++ [unit.executorId]) selected

/-- `coerceAgentExecutionDecisionV2Like`. -/
def coerceDecisionV2Like : Option ExecutionDecisionV2 :=
  let field := Json.lookup fields
  let action := (textOf (field "action")).bind fun text => normalizeDecisionAction (jsTrim text)
  let taskSplit := normalizeTaskSplit context (field "task_split")
  if ¬looksLikeV2 fields then none
  else
    some {
      currentExecutorId := textOr (field "current_executor_id") context.currentExecutor.executorId
      parentExecutorId := coerceParentExecutorId context (field "parent_executor_id")
      domain := textOr (field "domain") "unresolved"
      behaviorPattern := coerceBehaviorPattern (field "behavior_pattern") action
      action
      selectedExecutorIds := selectedExecutorIdsV2 context fields taskSplit
      selectedConnectionPath := toStringArray (field "selected_connection_path")
      taskProfile := coerceTaskProfile context (field "task_profile")
      taskSplit := if taskSplit = [] then none else some taskSplit
      requiredOutputs := coerceRequiredOutputs context (field "required_outputs")
      riskBoundary := coerceRiskBoundary (field "risk_boundary")
      confidence := normalizeConfidence (field "confidence")
      unresolvedReason := (textOf (field "unresolved_reason")).map jsTrim
      reason := textOr (field "reason") "Execution decision model returned a partial V2 decision." }

/-- What a value is taken for: a decision, one of the second version with issues, or a
value that is like neither version and is handed on as it is. -/
inductive NormalizedValue
  | decision (decision : ExecutionDecision)
  | invalid (issues : List DecisionV2Issue)
  | asIs (value : Json)

/-- `normalizeAgentExecutionDecisionModelValue`. -/
def normalizeDecisionModelValue (value : Json) : NormalizedValue :=
  match value.fields? with
  | none => .asIs value
  | some fields =>
    match coerceDecisionV2Like context fields with
    | some candidate =>
      match validateDecisionV2AgainstContext context candidate with
      | [] => .decision (convertDecisionV2ToV1 candidate)
      | issue :: issues => .invalid (issue :: issues)
    | none =>
      match coerceDecisionV1Like context fields with
      | some candidate => .decision candidate
      | none => .asIs value

/-! ## The check against the context -/

inductive DelegationIssueCode
  | missingExecutor | emptySelectedPath | inaccessibleConnectionPath | selectedExecutorNotInGraph
  | selectedExecutorNotDirectChild | selectedConnectionPathInvalid | permissionDenied
  | riskBoundaryRequiresApproval | executorUnavailable | fallbackNotAllowed | providerTargetMissing
  | parentExecutorMissing
  deriving DecidableEq

def DelegationIssueCode.text : DelegationIssueCode → String
  | .missingExecutor => "missing_executor"
  | .emptySelectedPath => "empty_selected_path"
  | .inaccessibleConnectionPath => "inaccessible_connection_path"
  | .selectedExecutorNotInGraph => "selected_executor_not_in_graph"
  | .selectedExecutorNotDirectChild => "selected_executor_not_direct_child"
  | .selectedConnectionPathInvalid => "selected_connection_path_invalid"
  | .permissionDenied => "permission_denied"
  | .riskBoundaryRequiresApproval => "risk_boundary_requires_approval"
  | .executorUnavailable => "executor_unavailable"
  | .fallbackNotAllowed => "fallback_not_allowed"
  | .providerTargetMissing => "provider_target_missing"
  | .parentExecutorMissing => "parent_executor_missing"

structure DelegationIssue where
  code : DelegationIssueCode
  message : String
  executorId : Option String := none
  connectionPath : Option (List String) := none

/-- The key by which an issue is told from another. -/
def DelegationIssue.key (issue : DelegationIssue) : String :=
  let executorId := issue.executorId.getD ""
  let connectionPath := String.intercalate ">" (issue.connectionPath.getD [])
  s!"{issue.code.text}:{executorId}:{connectionPath}:{issue.message}"

/-- `dedupeDelegationIssues`. -/
def dedupeDelegationIssues (issues : List DelegationIssue) : List DelegationIssue :=
  issues.foldl (fun result issue =>
    if result.any (·.key = issue.key) then result else result ++ [issue]) []

/-- The status of a validation: valid, or the code of its first issue. -/
inductive DelegationStatus
  | valid
  | issue (code : DelegationIssueCode)
  deriving DecidableEq

structure DelegationValidationResult where
  status : DelegationStatus
  issues : List DelegationIssue
  fallbackIfInvalid : FallbackReason

def DelegationValidationResult.ok (result : DelegationValidationResult) : Bool :=
  result.issues.isEmpty

/-- `allKnownGraphExecutorIds`. -/
def allKnownGraphExecutorIds : List String :=
  ((context.executionGraph.map (·.rootExecutorId)).toList ++
    (context.executionGraph.map (·.currentExecutorId)).toList ++
    (context.executionGraph.map (·.allActiveExecutorIds)).getD [] ++
    (context.executionGraph.bind (·.allRegisteredExecutorIds)).getD [] ++
    [context.currentExecutor.executorId] ++
    (context.parentExecutor.map (·.executorId)).toList ++
    context.requesterExecutorId.toList ++
    context.accessibleExecutors.map (·.executorId) ++
    (context.diagnosticExecutors.getD []).map (·.executorId)).filter hasText

/-- `executorProfileById`. -/
def executorProfileById (executorId : String) : Option ExecutorProfile :=
  if context.currentExecutor.executorId = executorId then some context.currentExecutor
  else if context.parentExecutor.map (·.executorId) = some executorId then context.parentExecutor
  else
    (context.accessibleExecutors ++ context.diagnosticExecutors.getD []).find?
      (·.executorId = executorId)

/-- `requiresSelectedExecutor`. -/
def requiresSelectedExecutor : Bool :=
  route = .delegateToChild || route = .subAgent || route = .yeonjang

/-- `requiresSelectedPath`: the routes that delegate. -/
def requiresSelectedPath : Bool := route = .delegateToChild || route = .subAgent

/-- `normalizeSelectedConnectionPath`: the hops after the current executor. -/
def normalizeSelectedConnectionPath (selectedExecutorId : Option String) (rawPath : List String) :
    Option (List String) :=
  match rawPath with
  | [] =>
    match selectedExecutorId with
    | some selected =>
      if selected ∈ directChildExecutorIds context then some [selected] else none
    | none => none
  | first :: rest =>
    if first = context.currentExecutor.executorId then some rest else some (first :: rest)

/-- `hasConnection`. -/
def hasConnection (connections : List ExecutorConnection) (fromId toId : String) : Bool :=
  connections.any fun connection =>
    connection.fromExecutorId = fromId ∧ connection.toExecutorId = toId

/-- `pairPath`. -/
def pairPath (path : List String) : List (String × String) := path.zip path.tail

def allowedConnections : List ExecutorConnection :=
  (context.executionGraph.map (·.allowedConnections)).getD context.accessibleConnections

/-- `validateSelectedConnectionPath`. -/
def validateSelectedConnectionPath (selectedId : Option String) (route : ExecutionRoute)
    (rawPath : List String) (issueCode : DelegationIssueCode) : List DelegationIssue :=
  match normalizeSelectedConnectionPath context selectedId rawPath with
  | none =>
    if requiresSelectedPath route then
      [{ code :=
          if selectedId.isSome then .selectedExecutorNotDirectChild else .emptySelectedPath
         message :=
          if selectedId.isSome then
            "Selected executor is not a direct child and no connection path was provided."
          else "Selected connection path is required for this execution route."
         executorId := selectedId
         connectionPath := some [] }]
    else []
  | some hops =>
    let fullPath := context.currentExecutor.executorId :: hops
    issueUnless (context.executionGraph.isNone ||
          (truthyText hops.head?).any (· ∈ directChildExecutorIds context))
        { code := issueCode
          message :=
            "Selected connection path must first enter a direct child of the current executor."
          connectionPath := some fullPath } ++
      issueUnless (selectedId.isNone || decide (hops.getLast? = selectedId))
        { code := issueCode
          message := "Selected connection path must end at the selected executor."
          executorId := selectedId
          connectionPath := some fullPath } ++
      (pairPath fullPath).flatMap fun pair =>
        issueUnless (hasConnection (allowedConnections context) pair.1 pair.2)
          { code := issueCode
            message := "Selected connection path uses an unavailable graph edge."
            connectionPath := some [pair.1, pair.2] }

/-- The part of `fallbackRouteIssues` for one route. -/
def routeIssues : List DelegationIssue :=
  issueUnless (¬((route = .rootNobieDirect ∨ route = .nobieDirect) ∧ context.parentExecutor.isSome))
      { code := .fallbackNotAllowed
        message := "Root Nobie direct fallback is only valid when the current executor is root " ++
          "Nobie."
        executorId := some context.currentExecutor.executorId } ++
    issueUnless (¬((route = .explicitProvider ∨ route = .explicitProviderTarget) ∧
        ¬((context.explicitProviderTargetId.map hasText).getD false)))
      { code := .providerTargetMissing
        message := "explicit provider fallback requires an explicit provider target." } ++
    issueUnless (¬((route = .returnToParent ∨ route = .askParent) ∧
        context.parentExecutor.isNone ∧ context.requesterExecutorId.isNone))
      { code := .parentExecutorMissing
        message := "Parent fallback requires a parent executor or executor requester." }

/-- `fallbackRouteIssues`. -/
def fallbackRouteIssues (fallback : FallbackReason) : List DelegationIssue :=
  dedupeDelegationIssues (routeIssues context route ++ routeIssues context fallback.route)

/-- The routes that ask before anything is done. -/
def approvalRoute : Bool := route = .askUser || route = .askParent || route = .returnToParent

/-- Does the risk policy demand approval for the kind of a boundary? -/
def demandsApproval (policy : RiskPolicy) (kind : String) : Bool :=
  (policy.approvalRequiredFor ++ policy.blockedWithoutApproval.getD []).any (·.text = kind)

/-- `riskBoundaryNeedsFallback`. -/
def riskBoundaryNeedsFallback (decision : ExecutionDecision) : Bool :=
  let requiresUserApproval :=
    ((Json.lookup decision.riskBoundary "requires_user_approval").map Json.truthy).getD false
  let demanded :=
    match stringValue (Json.lookup decision.riskBoundary "boundary_kind") with
    | some kind => demandsApproval context.riskPolicy kind
    | none => false
  (requiresUserApproval || demanded) && !approvalRoute decision.executionRoute

/-- `firstValidationStatus`. -/
def firstValidationStatus : List DelegationIssue → DelegationStatus
  | [] => .valid
  | issue :: _ => .issue issue.code

/-- `fallbackReasonForValidationStatus`. -/
def fallbackReasonForValidationStatus (status : DelegationStatus) : FallbackReason :=
  if status = .issue .riskBoundaryRequiresApproval then
    if context.parentExecutor.isSome then .askParent else .askUser
  else if status = .issue .parentExecutorMissing then
    if context.requesterExecutorId.isSome then .askParent else .askUser
  else if status = .issue .providerTargetMissing then .askUser
  else if context.currentExecutor.available then .selfSolve
  else if context.parentExecutor.isSome then .returnToParent
  -- Without a parent the current executor is the root.
  else .rootNobieDirect

/-- Is the selected executor the current one, its parent, the executor that asked, or an
explicit target that is allowed? -/
def isStructuralEscape (selectedId : String) : Bool :=
  selectedId = context.currentExecutor.executorId ||
    context.parentExecutor.map (·.executorId) = some selectedId ||
    context.requesterExecutorId = some selectedId ||
    (allowExplicitTarget && context.explicitTargetExecutorId = some selectedId)

/-- The issues of the selected executor. -/
def selectedIssues (decision : ExecutionDecision) (allowExplicitTarget : Bool) (selectedId : String)
    : List DelegationIssue :=
  let escape := isStructuralEscape context allowExplicitTarget selectedId
  let profile := executorProfileById context selectedId
  (if context.executionGraph.isSome then
      issueUnless (decide (selectedId ∈ allKnownGraphExecutorIds context) || escape)
        { code := .selectedExecutorNotInGraph
          message := "Selected executor does not exist in the execution graph snapshot."
          executorId := some selectedId }
    else
      issueUnless (profile.isSome || escape)
        { code := .missingExecutor
          message := "Selected executor is not visible from the current executor context."
          executorId := some selectedId }) ++
    issueUnless (¬(context.executionGraph.isSome ∧
        requiresSelectedExecutor decision.executionRoute ∧
        selectedId ∉ directChildExecutorIds context ∧ ¬escape))
      { code := .selectedExecutorNotDirectChild
        message := "Selected executor must be a direct child of the current executor for this " ++
          "execution route."
        executorId := some selectedId
        connectionPath := some decision.selectedConnectionPath } ++
    issueUnless (profile.all (·.available))
      { code := .executorUnavailable
        message := "Selected executor is currently unavailable."
        executorId := some selectedId } ++
    issueUnless (¬(selectedId = context.currentExecutor.executorId ∧
        ¬context.currentExecutor.available))
      { code := .executorUnavailable
        message := "Current executor is currently unavailable for self solve."
        executorId := some selectedId }

/-- The issues of the selected path. -/
def selectedPathIssues (decision : ExecutionDecision) : List DelegationIssue :=
  let route := decision.executionRoute
  let path := decision.selectedConnectionPath
  if requiresSelectedPath route ∨ path ≠ [] then
    issueUnless (¬(requiresSelectedPath route ∧ path = []))
        { code := .emptySelectedPath
          message := "Selected connection path is required for delegated execution decisions."
          executorId := truthyText decision.selectedExecutorId
          connectionPath := some [] } ++
      validateSelectedConnectionPath context (truthyText decision.selectedExecutorId) route path
        (if context.executionGraph.isSome then .selectedConnectionPathInvalid
          else .inaccessibleConnectionPath)
  else []

/-- All issues of a decision, in the order they are found. -/
def decisionIssues (decision : ExecutionDecision) (allowExplicitTarget : Bool) :
    List DelegationIssue :=
  let selectedId := truthyText decision.selectedExecutorId
  let explicitAllowed := allowExplicitTarget && selectedId.isSome &&
    context.explicitTargetExecutorId = selectedId
  issueUnless (decision.currentExecutorId = context.currentExecutor.executorId)
      { code := .missingExecutor
        message := "Decision current_executor_id does not match the current executor context."
        executorId := some decision.currentExecutorId } ++
    issueUnless (!(requiresSelectedExecutor decision.executionRoute) || selectedId.isSome)
      { code := .missingExecutor
        message := "Selected executor is required for this execution route." } ++
    (selectedId.map (selectedIssues context decision allowExplicitTarget)).getD [] ++
    (if explicitAllowed then [] else selectedPathIssues context decision) ++
    issueUnless (¬(decision.executionRoute = .selfSolve ∧ context.currentExecutor.canDelegate ∧
        context.directExecutionRequested ≠ some true ∧
        context.accessibleExecutors.any (·.available) ∧
        ¬((decision.unresolvedReason.map hasText).getD false)))
      { code := .fallbackNotAllowed
        message := "Self-solve with available direct child executors must include " ++
          "unresolved_reason explaining why delegation is not suitable."
        executorId := some context.currentExecutor.executorId } ++
    fallbackRouteIssues context decision.executionRoute decision.fallbackIfUnavailable ++
    issueUnless (!riskBoundaryNeedsFallback context decision)
      { code := .riskBoundaryRequiresApproval
        message := "Decision crosses a configured risk boundary without an approval route." }

/-- `validateAgentExecutionDecisionAgainstContext`. -/
def validateDecisionAgainstContext (decision : ExecutionDecision) (allowExplicitTarget : Bool) :
    DelegationValidationResult :=
  let uniqueIssues :=
    dedupeDelegationIssues (decisionIssues context decision allowExplicitTarget)
  let status := firstValidationStatus uniqueIssues
  { status, issues := uniqueIssues
    fallbackIfInvalid := fallbackReasonForValidationStatus context status }

/-! ## The fallback -/

inductive HarnessReasonCode
  | modelUnavailable | modelTimeout | modelCallFailed | nonJsonOutput | schemaInvalid
  | delegation (status : DelegationStatus)
  deriving DecidableEq

def HarnessReasonCode.text : HarnessReasonCode → String
  | .modelUnavailable => "model_unavailable"
  | .modelTimeout => "model_timeout"
  | .modelCallFailed => "model_call_failed"
  | .nonJsonOutput => "non_json_output"
  | .schemaInvalid => "schema_invalid"
  | .delegation .valid => "valid"
  | .delegation (.issue code) => code.text

/-- `firstDelegableExecutor`. -/
def firstDelegableExecutor : Option ExecutorProfile :=
  context.accessibleExecutors.find? (·.available)

/-- `isCurrentExecutorDirectFallback`. -/
def isCurrentExecutorDirectFallback (route : FallbackReason) : Bool :=
  route = .selfSolve || route = .directCurrentAgent || route = .rootNobieDirect ||
    route = .nobieDirect

/-- A child is available and direct execution was not asked for. -/
def directExecutionUnsafe : Bool :=
  (firstDelegableExecutor context).isSome && context.directExecutionRequested ≠ some true

/-- `isFallbackRouteAllowed`. -/
def isFallbackRouteAllowed (route : FallbackReason) : Bool :=
  (fallbackRouteIssues context route.route route).isEmpty

/-- `selectFallbackRoute`. -/
def selectFallbackRoute (preferredFallback : Option FallbackReason) (reasonCode : HarnessReasonCode)
    : FallbackReason :=
  let ask : FallbackReason := if context.parentExecutor.isSome then .askParent else .askUser
  let unsafeDirectFallback := directExecutionUnsafe context &&
    reasonCode ≠ .delegation (.issue .riskBoundaryRequiresApproval)
  let preferred := preferredFallback.filter fun route =>
    isFallbackRouteAllowed context route &&
      !(unsafeDirectFallback && isCurrentExecutorDirectFallback route)
  if reasonCode = .delegation (.issue .riskBoundaryRequiresApproval) then ask
  else
    match preferred with
    | some route => route
    | none =>
      if unsafeDirectFallback then ask
      else if context.currentExecutor.available then .selfSolve
      else if (firstDelegableExecutor context).isSome then .delegateToChild
      else if context.parentExecutor.isSome then .returnToParent
      -- Without a parent the current executor is the root.
      else .rootNobieDirect

/-- `selectedExecutorForFallback`. -/
def selectedExecutorForFallback : FallbackReason → Option String
  | .selfSolve | .directCurrentAgent | .rootNobieDirect | .nobieDirect =>
    some context.currentExecutor.executorId
  | .delegateToChild => (firstDelegableExecutor context).map (·.executorId)
  | .returnToParent | .askParent =>
    (context.parentExecutor.map (·.executorId)).or context.requesterExecutorId
  | .askUser | .explicitProvider | .explicitProviderTarget | .boundaryFailure => none

/-- `selectedPathForFallback`. -/
def selectedPathForFallback (selectedExecutorId : Option String) : List String :=
  match truthyText selectedExecutorId with
  | none => []
  | some selected =>
    if selected = context.currentExecutor.executorId then []
    else [context.currentExecutor.executorId, selected]

/-- `buildFallbackDecision`. -/
def buildFallbackDecision (route : FallbackReason) (reasonCode : HarnessReasonCode)
    (detail : Option String) : ExecutionDecision :=
  let selected := selectedExecutorForFallback context route
  let explanation := detail.getD reasonCode.text
  { currentExecutorId := context.currentExecutor.executorId
    parentExecutorId := context.parentExecutor.map (·.executorId)
    domain := "unresolved"
    behaviorPattern := if route = .delegateToChild then .delegate else .recover
    executionRoute := route.route
    selectedExecutorId := truthyText selected
    selectedConnectionPath := selectedPathForFallback context selected
    taskProfile :=
      [("title", .str "Fallback execution decision"), ("summary", .str explanation),
        ("goals", .arr
          [.str "Recover from an unavailable or structurally invalid execution decision"]),
        ("task_units", .arr []),
        ("success_criteria", .arr [.str "A safe next action is selected"])]
    requiredOutputs := fallbackRequiredOutputs context
    riskBoundary :=
      [("requires_user_approval", .bool (route = .askUser || route = .askParent)),
        ("reason", .str reasonCode.text)]
    confidence := .ofNat 0
    fallbackIfUnavailable := route
    unresolvedReason := some explanation
    reason := explanation }

/-! ## The harness -/

/-- What a call of the model comes to within the time limit. -/
inductive ModelBehaviour
  | answered (output : String)
  | rejected
  | timedOut

structure HarnessInput where
  context : ExecutionContext
  callModel : Option ModelBehaviour
  allowExplicitTarget : Option Bool := none

/-- The decision of the harness, accepted or in place of one, with the check it rests on. -/
inductive HarnessResult
  | accepted (decision : ExecutionDecision) (validation : DelegationValidationResult)
  | fallback (decision : ExecutionDecision) (fallbackReason : HarnessReasonCode)
      (validation : Option DelegationValidationResult)

def HarnessResult.decision : HarnessResult → ExecutionDecision
  | accepted decision _ => decision
  | fallback decision _ _ => decision

/-- `buildFallbackResult`. -/
def buildFallbackResult (reasonCode : HarnessReasonCode) (detail : Option String)
    (validation : Option DelegationValidationResult) : HarnessResult :=
  let route :=
    selectFallbackRoute context (validation.map (·.fallbackIfInvalid)) reasonCode
  .fallback (buildFallbackDecision context route reasonCode detail) reasonCode validation

/-- The proposal that stands in the output: what the value is taken for, if it has the shape
of a decision. A value that is like neither version has not. -/
def proposedDecision (value : Json) : Option ExecutionDecision :=
  match normalizeDecisionModelValue context value with
  | .decision decision =>
    if validateDecisionShape decision.toJson = [] then some decision else none
  | .invalid _ | .asIs _ => none

/-- `runAgentExecutionHarness`. -/
def runAgentExecutionHarness (input : HarnessInput) : HarnessResult :=
  let context := input.context
  match input.callModel with
  | none =>
    buildFallbackResult context .modelUnavailable
      (some "No execution decision model caller was provided.") none
  | some .timedOut => buildFallbackResult context .modelTimeout none none
  | some .rejected => buildFallbackResult context .modelCallFailed none none
  | some (.answered output) =>
    match parseDecisionModelOutput output with
    | none => buildFallbackResult context .nonJsonOutput none none
    | some value =>
      match proposedDecision context value with
      | none => buildFallbackResult context .schemaInvalid none none
      | some decision =>
        let delegation := validateDecisionAgainstContext context decision
          (input.allowExplicitTarget.getD false)
        if delegation.ok then
          .accepted
            { decision with
              confidence := normalizeConfidence (some (.num decision.confidence)) }
            delegation
        else
          buildFallbackResult context (.delegation delegation.status) none (some delegation)

end Nobie.Orchestration
