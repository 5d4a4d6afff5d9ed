/-
# Redelegated sub-sessions

When a result is not good enough, the work of a sub-session may be given to another agent.
The input for that agent is made from the former sub-session and the feedback request: a
command with the revised task scope, a prompt bundle that spreads the former agent's and
overrides some of its fields, and a memory bootstrap of the new agent's own. The memory
owner and scopes are the new agent's and the work is carried over. What the former agent's
bundle and bootstrap say beyond that comes along, so nothing private of it is in the input
exactly if the former sub-session has neither.
-/

import Nobie.Db.NicknameNamespace
import Nobie.Memory.DocumentStore
import Nobie.Memory.PinnedState
import Nobie.Security.CapabilityIsolation

namespace Nobie.Orchestration.Redelegation

open Foundation Memory Security JsString

/-! ## Contracts -/

inductive EntityType
  | nobie | subAgent | team | session | subSession | capability | dataExchange

structure ParentLinkage where
  (parentRunId parentSessionId parentSubSessionId parentRequestId : Option JsString)

structure RuntimeIdentity where
  entityType : EntityType
  entityId : JsString
  owner : OwnerScope
  idempotencyKey : JsString
  auditCorrelationId : Option JsString
  parent : Option ParentLinkage

inductive OutputKind
  | text | artifact | toolResult | dataPackage | stateChange

structure ExpectedOutputContract where
  outputId : JsString
  kind : OutputKind
  description : JsString
  required : Bool
  statusField : Option JsString
  requiredEvidenceKinds : List JsString
  artifactRequired : Bool
  reasonCodes : List JsString

structure StructuredTaskScope where
  (goal intentType actionType : JsString)
  constraints : List JsString
  expectedOutputs : List ExpectedOutputContract
  reasonCodes : List JsString

inductive MemoryVisibility
  | ownerOnly | coordinatorVisible | teamVisible

inductive RetentionPolicy
  | session | shortTerm | longTerm

structure MemoryPolicy where
  owner : OwnerScope
  visibility : MemoryVisibility
  readScopes : List OwnerScope
  writeScope : OwnerScope
  retentionPolicy : RetentionPolicy
  writebackReviewRequired : Bool

structure CapabilityPolicy where
  profileId : JsString
  (riskCeiling approvalRequiredFrom : CapabilityRiskLevel)
  (allowExternalNetwork allowFilesystemWrite allowShellExecution allowScreenControl : Bool)
  (allowedPaths enabledSkillIds enabledMcpServerIds enabledToolNames : List JsString)
  disabledToolNames : List JsString
  secretScopeId : Option JsString
  maxConcurrentCalls : ℕ
  maxCallsPerMinute : Option ℕ

structure TeamContext where
  (teamId displayName : JsString)
  roleHint : Option JsString

structure PromptSource where
  (sourceId version : JsString)
  checksum : Option JsString

structure AgentPromptFragment where
  (fragmentId kind title content status sourceId version : JsString)
  checksum : Option JsString
  issueCodes : Option (List JsString)

structure PromptValidation where
  ok : Bool
  (issueCodes blockedFragmentIds inactiveFragmentIds : List JsString)

structure ModelProfile where
  (providerId modelId : JsString)
  (effort fallbackModelId : Option JsString)

structure AgentPromptBundle where
  identity : RuntimeIdentity
  (bundleId agentId : JsString)
  agentType : EntityType
  (role displayNameSnapshot : JsString)
  nicknameSnapshot : Option JsString
  personalitySnapshot : JsString
  teamContext : List TeamContext
  memoryPolicy : MemoryPolicy
  capabilityPolicy : CapabilityPolicy
  modelProfileSnapshot : Option ModelProfile
  taskScope : StructuredTaskScope
  safetyRules : List JsString
  sourceProvenance : List PromptSource
  fragments : Option (List AgentPromptFragment)
  validation : Option PromptValidation
  (cacheKey promptChecksum : Option JsString)
  profileVersionSnapshot : Option ℕ
  renderedPrompt : Option JsString
  completionCriteria : Option (List ExpectedOutputContract)
  createdAt : ℕ

structure MemoryOwnerScope where
  ownerType : OwnerType
  (ownerId sessionId : JsString)
  (requestGroupId lineageId channelKey threadKey : Option JsString)

structure MemoryBootstrap where
  ownerScope : MemoryOwnerScope
  (nicknameSnapshot latestCapsuleId handoffExchangeId feedbackExchangeId : Option JsString)
  latestSafeContextSummary : Option JsString
  (initialPinnedItems sourceProvenanceRefs additionalContextRefs : List JsString)
  createdAt : ℕ

/-- The parts of a `SubSessionContract` that a redelegation reads. -/
structure SubSessionContract where
  identity : RuntimeIdentity
  (subSessionId parentSessionId parentRunId : JsString)
  (parentAgentId parentAgentDisplayName parentAgentNickname : Option JsString)
  agentId : JsString
  promptBundleSnapshot : Option AgentPromptBundle
  memoryBootstrap : Option MemoryBootstrap

structure FeedbackRequest where
  feedbackRequestId : JsString
  sourceResultReportIds : List JsString
  synthesizedContextExchangeId : Option JsString
  (conflictItems requiredChanges additionalConstraints additionalContextRefs : List JsString)
  expectedRevisionOutputs : List ExpectedOutputContract
  reasonCode : JsString
  createdAt : Option ℕ

structure CommandRequest where
  identity : RuntimeIdentity
  (commandRequestId parentRunId subSessionId targetAgentId : JsString)
  targetNicknameSnapshot : Option JsString
  taskScope : StructuredTaskScope
  contextPackageIds : List JsString
  expectedOutputs : List ExpectedOutputContract

structure AgentSnapshot where
  (agentId displayName : JsString)
  nickname : Option JsString

structure RunSubSessionInput where
  command : CommandRequest
  (parentAgent agent : AgentSnapshot)
  parentSessionId : JsString
  promptBundle : AgentPromptBundle
  memoryBootstrap : MemoryBootstrap

/-- `BuildRedelegatedSubSessionInput` with the value of its `idProvider` and the time. -/
structure RedelegationInput where
  sourceSubSession : SubSessionContract
  feedbackRequest : FeedbackRequest
  targetAgentId : JsString
  (targetAgentDisplayName targetAgentNickname subSessionId commandRequestId : Option JsString)
  providedId : JsString
  now : ℕ

/-! ## Texts -/

def text (value : String) : JsString := ofString value

/-- A truthy text. -/
def given (value : Option JsString) : Option JsString := value.filter (· ≠ [])

/-- `normalizeStringArray` of the agent states, `uniqueStrings` of the capsules and `unique`
of the feedback loop: the trimmed texts that are not blank, each once. -/
def unique (values : List JsString) : List JsString := normalizeAll normalizeCapsuleString values

/-- `normalizeString(value) ? { member: value } : {}`. -/
def unlessBlank (value : Option JsString) : Option JsString :=
  value.filter fun found => (normalizeCapsuleString found).isSome

/-! ## The memory bootstrap -/

/-- `buildSubAgentMemoryStateScope`. -/
def buildSubAgentMemoryStateScope (agentId sessionId : JsString)
    (requestGroupId lineageId channelKey threadKey : Option JsString) : MemoryOwnerScope where
  ownerType := .subAgent
  ownerId := (normalizeCapsuleString agentId).getD agentId
  sessionId := (normalizeCapsuleString sessionId).getD (trim sessionId)
  requestGroupId := requestGroupId.bind normalizeCapsuleString
  lineageId := lineageId.bind normalizeCapsuleString
  channelKey := channelKey.bind normalizeCapsuleString
  threadKey := threadKey.bind normalizeCapsuleString

def buildBootstrapPinnedItems (taskScope : StructuredTaskScope) : List JsString :=
  unique (((text "goal:" ++ taskScope.goal) ::
    taskScope.constraints.map (text "constraint:" ++ ·)) ++
    taskScope.expectedOutputs.map fun item => text "expected_output:" ++ item.outputId)

structure ChildBootstrapInput where
  agentId : JsString
  nicknameSnapshot : Option JsString
  (sessionId requestGroupId lineageId : JsString)
  taskScope : StructuredTaskScope
  (additionalContextRefs sourceProvenanceRefs : List JsString)
  (latestCapsuleId handoffExchangeId feedbackExchangeId latestSafeContextSummary : Option JsString)
  additionalPinnedItems : List JsString
  (channelKey threadKey : Option JsString)
  now : ℕ

def buildChildOwnMemoryBootstrap (input : ChildBootstrapInput) : MemoryBootstrap where
  ownerScope := buildSubAgentMemoryStateScope input.agentId input.sessionId
    (given (some input.requestGroupId)) (given (some input.lineageId)) (given input.channelKey)
    (given input.threadKey)
  nicknameSnapshot :=
    (unlessBlank input.nicknameSnapshot).map Nobie.Db.Nicknames.normalizeNicknameSnapshot
  latestCapsuleId := unlessBlank input.latestCapsuleId
  handoffExchangeId := unlessBlank input.handoffExchangeId
  feedbackExchangeId := unlessBlank input.feedbackExchangeId
  latestSafeContextSummary := unlessBlank input.latestSafeContextSummary
  initialPinnedItems :=
    unique (buildBootstrapPinnedItems input.taskScope ++ input.additionalPinnedItems)
  sourceProvenanceRefs :=
    unique (input.sourceProvenanceRefs ++ [text "command_request:" ++ input.requestGroupId])
  additionalContextRefs := unique input.additionalContextRefs
  createdAt := input.now

/-- `buildSubSessionFeedbackPinnedItems` of the payload that
`buildSubSessionFeedbackCapsulePayload` makes without result reports. -/
def feedbackPinnedItems (request : FeedbackRequest) : List JsString :=
  unique ((unique request.conflictItems).map (text "remove:" ++ ·) ++
    (unique request.requiredChanges).map (text "revise:" ++ ·) ++
    (unique request.additionalConstraints).map (text "feedback_constraint:" ++ ·) ++
    (unique [request.reasonCode]).map (text "do_not_repeat:" ++ ·))

/-! ## The prompt bundle -/

section Bundle

variable (input : RedelegationInput)

def targetOwner : OwnerScope := ⟨.subAgent, input.targetAgentId⟩

def bundleId : JsString :=
  text "prompt-bundle:" ++ input.targetAgentId ++ text ":" ++
    input.feedbackRequest.feedbackRequestId

def defaultRole : JsString := text "feedback revision worker"

def defaultPersonality : JsString := text "Precise"

def defaultCapabilityPolicy : CapabilityPolicy where
  profileId := text "profile:feedback-redelegation"
  riskCeiling := .moderate
  approvalRequiredFrom := .dangerous
  allowExternalNetwork := false
  allowFilesystemWrite := false
  allowShellExecution := false
  allowScreenControl := false
  allowedPaths := []
  enabledSkillIds := []
  enabledMcpServerIds := []
  enabledToolNames := []
  disabledToolNames := []
  secretScopeId := none
  maxConcurrentCalls := 1
  maxCallsPerMinute := none

def defaultMemoryPolicy : MemoryPolicy where
  owner := targetOwner input
  visibility := .ownerOnly
  readScopes := [targetOwner input]
  writeScope := targetOwner input
  retentionPolicy := .shortTerm
  writebackReviewRequired := true

def fallbackBundle (taskScope : StructuredTaskScope) : AgentPromptBundle where
  identity := input.sourceSubSession.identity
  bundleId := bundleId input
  agentId := input.targetAgentId
  agentType := .subAgent
  role := defaultRole
  displayNameSnapshot := input.targetAgentDisplayName.getD input.targetAgentId
  nicknameSnapshot := none
  personalitySnapshot := defaultPersonality
  teamContext := []
  memoryPolicy := defaultMemoryPolicy input
  capabilityPolicy := defaultCapabilityPolicy
  modelProfileSnapshot := none
  taskScope
  safetyRules := []
  sourceProvenance := []
  fragments := none
  validation := none
  cacheKey := none
  promptChecksum := none
  profileVersionSnapshot := none
  renderedPrompt := none
  completionCriteria := none
  createdAt := input.feedbackRequest.createdAt.getD input.now

def buildRedelegatedPromptBundle (taskScope : StructuredTaskScope) : AgentPromptBundle :=
  let base := input.sourceSubSession.promptBundleSnapshot
  let spread := base.getD (fallbackBundle input taskScope)
  let identity := (base.map (·.identity)).getD input.sourceSubSession.identity
  { spread with
    identity :=
      { identity with
        entityType := .capability
        entityId := bundleId input
        owner := targetOwner input }
    bundleId := bundleId input
    agentId := input.targetAgentId
    displayNameSnapshot := (given input.targetAgentDisplayName).getD input.targetAgentId
    nicknameSnapshot := (given input.targetAgentNickname).or spread.nicknameSnapshot
    memoryPolicy :=
      match base with
      | some base =>
        { base.memoryPolicy with
          owner := targetOwner input
          readScopes := [targetOwner input]
          writeScope := targetOwner input }
      | none => defaultMemoryPolicy input
    taskScope
    completionCriteria := some input.feedbackRequest.expectedRevisionOutputs
    sourceProvenance := ((base.map (·.sourceProvenance)).getD []) ++
      [⟨input.feedbackRequest.feedbackRequestId, text "feedback", none⟩]
    createdAt := (input.feedbackRequest.createdAt.or (base.map (·.createdAt))).getD input.now }

/-! ## The input for the new agent -/

/-- The task scope where the former sub-session has no prompt bundle. -/
def defaultTaskScope : StructuredTaskScope where
  goal := text "Revise delegated sub-session result."
  intentType := text "review"
  actionType := text "sub_agent_feedback_revision"
  constraints := []
  expectedOutputs := input.feedbackRequest.expectedRevisionOutputs
  reasonCodes := []

/-- The task scope of the former sub-session. -/
def formerTaskScope : StructuredTaskScope :=
  (input.sourceSubSession.promptBundleSnapshot.map (·.taskScope)).getD (defaultTaskScope input)

def redelegatedTaskScope : StructuredTaskScope :=
  { formerTaskScope input with
    constraints := unique ((formerTaskScope input).constraints ++
      input.feedbackRequest.requiredChanges ++ input.feedbackRequest.additionalConstraints)
    expectedOutputs := input.feedbackRequest.expectedRevisionOutputs
    reasonCodes := unique ((formerTaskScope input).reasonCodes ++
      [input.feedbackRequest.reasonCode, text "feedback_redelegation"]) }

def redelegatedSubSessionId : JsString :=
  input.subSessionId.getD (text "sub:redelegated:" ++ input.sourceSubSession.subSessionId ++
    text ":" ++ input.providedId)

def redelegatedCommandRequestId : JsString :=
  input.commandRequestId.getD (text "command:" ++ redelegatedSubSessionId input)

def redelegatedCommand : CommandRequest where
  identity :=
    { entityType := .subSession
      entityId := redelegatedSubSessionId input
      owner := targetOwner input
      idempotencyKey := text "redelegate:" ++ input.feedbackRequest.feedbackRequestId ++
        text ":" ++ input.targetAgentId
      auditCorrelationId := given input.sourceSubSession.identity.auditCorrelationId
      parent := some
        { parentRunId := some input.sourceSubSession.parentRunId
          parentSessionId := some input.sourceSubSession.parentSessionId
          parentSubSessionId := some input.sourceSubSession.subSessionId
          parentRequestId := input.sourceSubSession.identity.parent.bind (·.parentRequestId) } }
  commandRequestId := redelegatedCommandRequestId input
  parentRunId := input.sourceSubSession.parentRunId
  subSessionId := redelegatedSubSessionId input
  targetAgentId := input.targetAgentId
  targetNicknameSnapshot := given input.targetAgentNickname
  taskScope := redelegatedTaskScope input
  contextPackageIds := unique (input.feedbackRequest.additionalContextRefs ++
    (given input.feedbackRequest.synthesizedContextExchangeId).toList)
  expectedOutputs := input.feedbackRequest.expectedRevisionOutputs

def redelegatedBootstrap : MemoryBootstrap :=
  let former := input.sourceSubSession.memoryBootstrap
  buildChildOwnMemoryBootstrap
    { agentId := input.targetAgentId
      nicknameSnapshot := given input.targetAgentNickname
      sessionId := input.sourceSubSession.parentSessionId
      requestGroupId := redelegatedCommandRequestId input
      lineageId := redelegatedSubSessionId input
      taskScope := redelegatedTaskScope input
      additionalContextRefs := (redelegatedCommand input).contextPackageIds
      sourceProvenanceRefs := (redelegatedCommand input).contextPackageIds
      latestCapsuleId := given (former.bind (·.latestCapsuleId))
      handoffExchangeId := none
      feedbackExchangeId := given input.feedbackRequest.synthesizedContextExchangeId
      latestSafeContextSummary := given (former.bind (·.latestSafeContextSummary))
      additionalPinnedItems := feedbackPinnedItems input.feedbackRequest
      channelKey := given (former.bind (·.ownerScope.channelKey))
      threadKey := given (former.bind (·.ownerScope.threadKey))
      now := input.feedbackRequest.createdAt.getD input.now }

def buildRedelegatedSubSessionInput : RunSubSessionInput where
  command := redelegatedCommand input
  parentAgent :=
    { agentId := input.sourceSubSession.parentAgentId.getD (text "agent:nobie")
      displayName := (given input.sourceSubSession.parentAgentDisplayName).getD
        (input.sourceSubSession.parentAgentId.getD (text "Nobie"))
      nickname := given input.sourceSubSession.parentAgentNickname }
  agent :=
    { agentId := input.targetAgentId
      displayName := input.targetAgentDisplayName.getD input.targetAgentId
      nickname := given input.targetAgentNickname }
  parentSessionId := input.sourceSubSession.parentSessionId
  promptBundle := buildRedelegatedPromptBundle input (redelegatedTaskScope input)
  memoryBootstrap := redelegatedBootstrap input

end Bundle

/-! ## What is claimed -/

/-- What the new agent has of its own. -/
structure TargetProfile where
  (role personalitySnapshot : JsString)
  renderedPrompt : Option JsString
  capabilityPolicy : CapabilityPolicy
  latestCapsuleId : Option JsString

/-- The rights, the memory and the persona in an input are the new agent's or the defaults. -/
structure OwnedByTarget (target : TargetProfile) (input : RedelegationInput)
    (result : RunSubSessionInput) : Prop where
  memoryOwner : result.promptBundle.memoryPolicy.owner = targetOwner input
  readScopes : result.promptBundle.memoryPolicy.readScopes = [targetOwner input]
  writeScope : result.promptBundle.memoryPolicy.writeScope = targetOwner input
  bootstrapOwnerType : result.memoryBootstrap.ownerScope.ownerType = .subAgent
  bootstrapOwnerId : result.memoryBootstrap.ownerScope.ownerId =
    (normalizeCapsuleString input.targetAgentId).getD input.targetAgentId
  capsule : result.memoryBootstrap.latestCapsuleId = none ∨
    result.memoryBootstrap.latestCapsuleId = target.latestCapsuleId
  capability : result.promptBundle.capabilityPolicy = defaultCapabilityPolicy ∨
    result.promptBundle.capabilityPolicy = target.capabilityPolicy
  role : result.promptBundle.role = defaultRole ∨ result.promptBundle.role = target.role
  personality : result.promptBundle.personalitySnapshot = defaultPersonality ∨
    result.promptBundle.personalitySnapshot = target.personalitySnapshot
  renderedPrompt : result.promptBundle.renderedPrompt = none ∨
    result.promptBundle.renderedPrompt = target.renderedPrompt

/-- What is private of the former agent. -/
structure Private where
  memoryPolicy : MemoryPolicy
  capabilityPolicy : CapabilityPolicy
  (role personalitySnapshot : JsString)
  (renderedPrompt latestCapsuleId : Option JsString)

/-- The same request for a former sub-session that differs in the private fields only. -/
def RedelegationInput.withPrivate (input : RedelegationInput) (other : Private) :
    RedelegationInput :=
  { input with
    sourceSubSession :=
      { input.sourceSubSession with
        promptBundleSnapshot := input.sourceSubSession.promptBundleSnapshot.map fun bundle =>
          { bundle with
            memoryPolicy := other.memoryPolicy
            capabilityPolicy := other.capabilityPolicy
            role := other.role
            personalitySnapshot := other.personalitySnapshot
            renderedPrompt := other.renderedPrompt }
        memoryBootstrap := input.sourceSubSession.memoryBootstrap.map fun bootstrap =>
          { bootstrap with latestCapsuleId := other.latestCapsuleId } } }

/-- The task scope, the changes and constraints, the expected outputs and the context
references are in the input. -/
structure CarriesOver (input : RedelegationInput) (result : RunSubSessionInput) : Prop where
  scope : result.command.taskScope.goal = (formerTaskScope input).goal ∧
    result.command.taskScope.intentType = (formerTaskScope input).intentType ∧
    result.command.taskScope.actionType = (formerTaskScope input).actionType
  sameScope : result.promptBundle.taskScope = result.command.taskScope
  constraints : ∀ item ∈ (formerTaskScope input).constraints ++
    input.feedbackRequest.requiredChanges ++ input.feedbackRequest.additionalConstraints,
    ∀ kept, normalizeCapsuleString item = some kept → kept ∈ result.command.taskScope.constraints
  expectedOutputs : result.command.expectedOutputs = input.feedbackRequest.expectedRevisionOutputs ∧
    result.command.taskScope.expectedOutputs = input.feedbackRequest.expectedRevisionOutputs ∧
    result.promptBundle.completionCriteria = some input.feedbackRequest.expectedRevisionOutputs
  references : ∀ item ∈ input.feedbackRequest.additionalContextRefs ++
      (given input.feedbackRequest.synthesizedContextExchangeId).toList,
    ∀ kept, normalizeCapsuleString item = some kept → kept ∈ result.command.contextPackageIds ∧
      kept ∈ result.memoryBootstrap.additionalContextRefs

/-- The new agent takes over the work, and nothing that is private of the former agent. -/
structure TakesOver (target : TargetProfile) (input : RedelegationInput) : Prop where
  owned : OwnedByTarget target input (buildRedelegatedSubSessionInput input)
  separate : ∀ other, buildRedelegatedSubSessionInput (input.withPrivate other) =
    buildRedelegatedSubSessionInput input
  carried : CarriesOver input (buildRedelegatedSubSessionInput input)

/-! ## What always holds -/

variable {item kept : JsString} {input : RedelegationInput} (other : Private)

theorem mem_unique {values : List JsString} (hitem : item ∈ values)
    (hkept : normalizeCapsuleString item = some kept) : kept ∈ unique values :=
  mem_normalizeAll.mpr ⟨item, hitem, hkept⟩

/-- What a normalization leaves is left by it once more. -/
theorem normalizeCapsuleString_normal (h : normalizeCapsuleString item = some kept) :
    normalizeCapsuleString kept = some kept := by
  unfold normalizeCapsuleString at h ⊢
  dsimp only at h ⊢
  split_ifs at h with hblank
  cases h
  rw [trim_trim, if_neg hblank]

theorem carriesOver (input : RedelegationInput) :
    CarriesOver input (buildRedelegatedSubSessionInput input) where
  scope := ⟨rfl, rfl, rfl⟩
  sameScope := rfl
  constraints := fun _ hitem _ hkept => mem_unique hitem hkept
  expectedOutputs := ⟨rfl, rfl, rfl⟩
  references := by
    intro item hitem kept hkept
    have hcommand : kept ∈ (redelegatedCommand input).contextPackageIds := mem_unique hitem hkept
    exact ⟨hcommand, mem_unique hcommand (normalizeCapsuleString_normal hkept)⟩

/-- The memory owner and scopes are the new agent's, whatever the former agent had. -/
theorem memoryPolicy_owner (input : RedelegationInput) (taskScope : StructuredTaskScope) :
    (buildRedelegatedPromptBundle input taskScope).memoryPolicy.owner = targetOwner input ∧
      (buildRedelegatedPromptBundle input taskScope).memoryPolicy.readScopes = [targetOwner input] ∧
      (buildRedelegatedPromptBundle input taskScope).memoryPolicy.writeScope =
        targetOwner input := by
  unfold buildRedelegatedPromptBundle
  dsimp only
  split <;> exact ⟨rfl, rfl, rfl⟩

/-! ## When nothing private comes along -/

/-- A former sub-session with neither a bundle nor a bootstrap has nothing private. -/
theorem withPrivate_of_bare (hbundle : input.sourceSubSession.promptBundleSnapshot = none)
    (hbootstrap : input.sourceSubSession.memoryBootstrap = none) (other : Private) :
    input.withPrivate other = input := by
  obtain ⟨source, request, targetId, name, nickname, subSessionId, commandId, provided, now⟩ :=
    input
  obtain ⟨identity, id, session, run, parentId, parentName, parentNickname, agentId, bundle,
    bootstrap⟩ := source
  obtain rfl : bundle = none := hbundle
  obtain rfl : bootstrap = none := hbootstrap
  rfl

theorem ownedByTarget_of_bare (target : TargetProfile)
    (hbundle : input.sourceSubSession.promptBundleSnapshot = none)
    (hbootstrap : input.sourceSubSession.memoryBootstrap = none) :
    OwnedByTarget target input (buildRedelegatedSubSessionInput input) := by
  obtain ⟨howner, hread, hwrite⟩ := memoryPolicy_owner input (redelegatedTaskScope input)
  have hspread (taskScope : StructuredTaskScope) :
      (buildRedelegatedPromptBundle input taskScope).capabilityPolicy = defaultCapabilityPolicy ∧
        (buildRedelegatedPromptBundle input taskScope).role = defaultRole ∧
        (buildRedelegatedPromptBundle input taskScope).personalitySnapshot = defaultPersonality ∧
        (buildRedelegatedPromptBundle input taskScope).renderedPrompt = none := by
    unfold buildRedelegatedPromptBundle
    rw [hbundle]
    exact ⟨rfl, rfl, rfl, rfl⟩
  have hcapsule : (redelegatedBootstrap input).latestCapsuleId = none := by
    unfold redelegatedBootstrap
    rw [hbootstrap]
    rfl
  obtain ⟨hcapability, hrole, hpersonality, hrendered⟩ := hspread (redelegatedTaskScope input)
  exact ⟨howner, hread, hwrite, rfl, rfl, .inl hcapsule, .inl hcapability, .inl hrole,
    .inl hpersonality, .inl hrendered⟩

/-- A former agent that is told by its role and its capsule. -/
def told (role : JsString) (latestCapsuleId : Option JsString) : Private where
  memoryPolicy := ⟨⟨.subAgent, []⟩, .ownerOnly, [], ⟨.subAgent, []⟩, .session, true⟩
  capabilityPolicy := defaultCapabilityPolicy
  role
  personalitySnapshot := []
  renderedPrompt := none
  latestCapsuleId

/-- The role of the former agent's bundle comes along. -/
theorem role_withPrivate {bundle : AgentPromptBundle}
    (hbundle : input.sourceSubSession.promptBundleSnapshot = some bundle) (other : Private) :
    (buildRedelegatedSubSessionInput (input.withPrivate other)).promptBundle.role = other.role := by
  have hother : (input.withPrivate other).sourceSubSession.promptBundleSnapshot = some { bundle with
        memoryPolicy := other.memoryPolicy
        capabilityPolicy := other.capabilityPolicy
        role := other.role
        personalitySnapshot := other.personalitySnapshot
        renderedPrompt := other.renderedPrompt } :=
    congrArg (Option.map _) hbundle
  change (buildRedelegatedPromptBundle _ _).role = _
  unfold buildRedelegatedPromptBundle
  rw [hother]
  rfl

/-- The capsule of the former agent comes along. -/
theorem latestCapsuleId_withPrivate {bootstrap : MemoryBootstrap}
    (hbootstrap : input.sourceSubSession.memoryBootstrap = some bootstrap) (other : Private) :
    (buildRedelegatedSubSessionInput (input.withPrivate other)).memoryBootstrap.latestCapsuleId =
      unlessBlank (given other.latestCapsuleId) := by
  have hother : (input.withPrivate other).sourceSubSession.memoryBootstrap =
      some { bootstrap with latestCapsuleId := other.latestCapsuleId } :=
    congrArg (Option.map _) hbootstrap
  change (redelegatedBootstrap _).latestCapsuleId = _
  unfold redelegatedBootstrap
  rw [hother]
  rfl

/-- The input is free of what is private of the former agent exactly if the former
sub-session has neither a prompt bundle nor a memory bootstrap. -/
theorem takesOver_iff (target : TargetProfile) (input : RedelegationInput) :
    TakesOver target input ↔ input.sourceSubSession.promptBundleSnapshot = none ∧
      input.sourceSubSession.memoryBootstrap = none := by
  constructor
  · intro h
    have hsame (first second : Private) := (h.separate first).trans (h.separate second).symm
    constructor
    · cases hbundle : input.sourceSubSession.promptBundleSnapshot with
      | none => rfl
      | some bundle =>
        -- Two roles give two inputs.
        have hroles := congrArg (·.promptBundle.role)
          (hsame (told (text "first") none) (told (text "second") none))
        rw [role_withPrivate hbundle, role_withPrivate hbundle] at hroles
        cases hroles
    · cases hbootstrap : input.sourceSubSession.memoryBootstrap with
      | none => rfl
      | some bootstrap =>
        have hcapsules := congrArg (·.memoryBootstrap.latestCapsuleId)
          (hsame (told [] none) (told [] (some (text "capsule"))))
        rw [latestCapsuleId_withPrivate hbootstrap, latestCapsuleId_withPrivate hbootstrap]
          at hcapsules
        cases hcapsules
  · rintro ⟨hbundle, hbootstrap⟩
    refine ⟨ownedByTarget_of_bare target hbundle hbootstrap, fun other => ?_, carriesOver input⟩
    rw [withPrivate_of_bare hbundle hbootstrap]

/-! ## A capsule that is handed over -/

def plainIdentity : RuntimeIdentity where
  entityType := .subSession
  entityId := text "sub"
  owner := ⟨.subAgent, text "alice"⟩
  idempotencyKey := text "key"
  auditCorrelationId := none
  parent := none

/-- The work of alice, with a capsule of hers, is given to bob. -/
def aliceToBob : RedelegationInput where
  sourceSubSession :=
    { identity := plainIdentity
      subSessionId := text "sub"
      parentSessionId := text "session"
      parentRunId := text "run"
      parentAgentId := none
      parentAgentDisplayName := none
      parentAgentNickname := none
      agentId := text "alice"
      promptBundleSnapshot := none
      memoryBootstrap := some
        { ownerScope := buildSubAgentMemoryStateScope (text "alice") (text "session") none none
            none none
          nicknameSnapshot := none
          latestCapsuleId := some (text "capsule:alice")
          handoffExchangeId := none
          feedbackExchangeId := none
          latestSafeContextSummary := none
          initialPinnedItems := []
          sourceProvenanceRefs := []
          additionalContextRefs := []
          createdAt := 0 } }
  feedbackRequest := ⟨text "feedback", [], none, [], [], [], [], [], text "revise", none⟩
  targetAgentId := text "bob"
  targetAgentDisplayName := none
  targetAgentNickname := none
  subSessionId := none
  commandRequestId := none
  providedId := text "1"
  now := 0

def bobProfile : TargetProfile where
  role := text "writer"
  personalitySnapshot := text "calm"
  renderedPrompt := none
  capabilityPolicy := defaultCapabilityPolicy
  latestCapsuleId := some (text "capsule:bob")

theorem aliceToBob_not_takesOver : ¬ TakesOver bobProfile aliceToBob := by
  intro h
  have hcapsule := h.owned.capsule
  revert hcapsule
  decide +kernel

end Nobie.Orchestration.Redelegation
