/-
# Capabilities of an agent

Before a tool runs for an agent, the policy in the call's context is asked. The checks are made
one after another and the first that fails gives the answer: the agent and its permission
profile, how deep the agent stands, the binding of the call, where secrets come from, the MCP
server, the lists of tools and last the profile. Names are compared after a normalization that
keeps hyphens, underscores and colons, and a tool of an MCP server goes by four names.
-/

import Nobie.Foundation.JsNumber
import Nobie.Mcp.Registry

namespace Nobie.Security

open Foundation Mcp JsString

/-! ## Texts -/

def colon : CodeUnit := codeUnit 58

def hyphen : CodeUnit := codeUnit 45

/-- The units that stay in a token. -/
def isTokenUnit (unit : CodeUnit) : Bool :=
  isLetterOrDigit unit || unit = colon || unit = underscore || unit = hyphen

/-- A host whose lower case leaves a text alone that needs no change, and a colon wherever it
stands. -/
structure TokenHost extends CaseHost where
  toLowerCase_of_token : ∀ text, (∀ unit ∈ text, isTokenUnit unit) → toLowerCase text = text
  colon_mem_toLowerCase : ∀ text, colon ∈ text → colon ∈ toLowerCase text

instance : Coe TokenHost CaseHost := ⟨TokenHost.toCaseHost⟩

def startsWith (text start : JsString) : Bool := text.take start.length = start

def isOneOf (words : List String) (text : JsString) : Bool :=
  words.any fun word => text = ofString word

def startsWithOneOf (words : List String) (text : JsString) : Bool :=
  words.any fun word => startsWith text (ofString word)

variable (value : Option JsString)

/-- The text is there and not empty. -/
def isFilled : Bool := value.getD [] ≠ []

def isBlank : Bool := trim (value.getD []) = []

def nonEmpty : Option JsString :=
  if isBlank value then none else value.map trim

def normalizeStringList (values : List JsString) : List JsString :=
  (OrderedSet.ofList ((values.map trim).filter fun value => value ≠ [])).elements

variable (host : CaseHost) (toolName : JsString)

def normalizeToken (value : JsString) : JsString :=
  replaceRuns isTokenUnit false (host.toLowerCase (trim value))

/-- The tokens of the values; an empty one is none. -/
def makeSet (values : List JsString) : List JsString :=
  (values.map (normalizeToken host)).filter fun token => token ≠ []

/-- Some name is in the set. -/
def anyAmong (set names : List JsString) : Bool := names.any fun name => isAmong set name

/-! ## Registered names -/

structure McpRegisteredToolRef where
  (registeredName serverId toolName : JsString)

/-- `text.split("__")`. -/
def splitAtUnderscores : JsString → List JsString
  | [] => [[]]
  | [unit] => [[unit]]
  | unit :: next :: rest =>
    if unit = underscore ∧ next = underscore then [] :: splitAtUnderscores rest
    else (splitAtUnderscores (next :: rest)).modifyHead (unit :: ·)

/-- `parts.join("__")`. -/
def joinWithUnderscores : List JsString → JsString
  | [] => []
  | [part] => part
  | part :: rest => part ++ underscore :: underscore :: joinWithUnderscores rest

def parseMcpRegisteredToolName : Option McpRegisteredToolRef :=
  if !startsWith toolName (ofString "mcp__") then none
  else
    match splitAtUnderscores toolName with
    | _ :: server :: rest =>
      match nonEmpty (some server), nonEmpty (some (joinWithUnderscores rest)) with
      | some serverId, some rawToolName => some ⟨toolName, serverId, rawToolName⟩
      | _, _ => none
    | _ => none

/-! ## Risk -/

inductive CapabilityRiskLevel
  | safe | moderate | external | sensitive | dangerous
  deriving DecidableEq

def CapabilityRiskLevel.order : CapabilityRiskLevel → ℕ
  | safe => 0
  | moderate => 1
  | external => 2
  | sensitive => 3
  | dangerous => 4

def isRiskAtLeast (actual threshold : CapabilityRiskLevel) : Bool := threshold.order ≤ actual.order

def riskWithinCeiling (actual ceiling : CapabilityRiskLevel) : Bool := actual.order ≤ ceiling.order

def isShellTool : Bool := isOneOf ["shell_exec", "process_kill"] toolName

def isScreenTool : Bool :=
  startsWithOneOf ["mouse_", "keyboard_", "window_focus", "screen_", "yeonjang_camera_capture",
    "app_launch"] toolName

def isFileWriteTool : Bool := isOneOf ["file_write", "file_patch", "file_delete"] toolName

def isNetworkTool : Bool := isOneOf ["web_search", "web_fetch"] toolName

def resolveToolCapabilityRisk (fallback : CapabilityRiskLevel) : CapabilityRiskLevel :=
  if fallback ≠ .safe then fallback
  else if isShellTool toolName then .dangerous
  else if isScreenTool toolName then .dangerous
  else if isFileWriteTool toolName then .sensitive
  else if isNetworkTool toolName then .external
  else if startsWith toolName (ofString "mcp__") then .moderate
  else .safe

/-! ## Policies -/

structure SkillMcpAllowlist where
  (enabledMcpServerIds enabledToolNames disabledToolNames : List JsString)
  secretScopeId : Option JsString

def SkillMcpAllowlist.empty : SkillMcpAllowlist := ⟨[], [], [], none⟩

def normalizeSkillMcpAllowlist (input : SkillMcpAllowlist) : SkillMcpAllowlist where
  enabledMcpServerIds := normalizeStringList input.enabledMcpServerIds
  enabledToolNames := normalizeStringList input.enabledToolNames
  disabledToolNames := normalizeStringList input.disabledToolNames
  secretScopeId := nonEmpty input.secretScopeId

structure PermissionProfile where
  profileId : JsString
  (riskCeiling approvalRequiredFrom : CapabilityRiskLevel)
  (allowExternalNetwork allowFilesystemWrite allowShellExecution allowScreenControl : Bool)

structure CapabilityPolicy where
  permissionProfile : PermissionProfile
  skillMcpAllowlist : SkillMcpAllowlist

inductive DepthScopedToolKind
  | sessionControl | system | mcp | shell | filesystem | network | screen | other

/-- The names under the text of a depth, and the deepest that a kind of tool may stand. -/
structure DepthScopedToolPolicy where
  maxDepthByToolKind : DepthScopedToolKind → Option JsNumber
  deniedToolNamesByDepth : JsNumber → List JsString

inductive BindingStatus
  | enabled | disabled | archived
  deriving DecidableEq

inductive CapabilityKind
  | skill | mcpServer
  deriving DecidableEq

/-- A row of the bindings, with the lists that its texts hold. -/
structure AgentCapabilityBinding where
  agentId : JsString
  capabilityKind : CapabilityKind
  catalogId : JsString
  status : BindingStatus
  (enabledToolNames disabledToolNames : List JsString)

/-- The context of a call, as far as the policy reads it. -/
structure ToolContext where
  agentId : Option JsString
  capabilityPolicy : Option CapabilityPolicy
  permissionProfile : Option PermissionProfile
  skillMcpAllowlist : Option SkillMcpAllowlist
  delegationDepth : Option JsNumber
  depthScopedToolPolicy : Option DepthScopedToolPolicy
  (capabilityBindingId secretScopeId parentSecretScopeId : Option JsString)
  allowParentSecretFallback : Bool
  fallbackSecretScopeAllowlist : Option (List JsString)
  auditId : Option JsString

variable (ctx : ToolContext) (mcpTool : Option McpRegisteredToolRef)

namespace ToolContext

/-- The policy of the context goes before the profile and the lists that stand on their own. -/
def policyProfile : Option PermissionProfile :=
  (ctx.capabilityPolicy.map CapabilityPolicy.permissionProfile).or ctx.permissionProfile

def policyAllowlist : Option SkillMcpAllowlist :=
  ((ctx.capabilityPolicy.map CapabilityPolicy.skillMcpAllowlist).or ctx.skillMcpAllowlist).map
    normalizeSkillMcpAllowlist

end ToolContext

/-! ## Depth -/

def classifyDepthScopedToolKind : DepthScopedToolKind :=
  if startsWithOneOf ["subsession_", "sub_session_", "run_cancel", "run_stop", "session_"]
      toolName then .sessionControl
  else if isOneOf ["process_kill", "app_launch"] toolName then .system
  else if isOneOf ["shell_exec"] toolName then .shell
  else if isOneOf ["file_read", "file_write", "file_patch", "file_delete", "file_list",
      "file_search"] toolName then .filesystem
  else if isNetworkTool toolName then .network
  else if startsWith toolName (ofString "mcp__") then .mcp
  else if startsWithOneOf ["mouse_", "keyboard_", "window_", "screen_",
      "yeonjang_camera_capture"] toolName then .screen
  else .other

def normalizedDepth (value : Option JsNumber) : Option JsNumber :=
  (value.filter JsNumber.isFinite).map fun number => (JsNumber.ofNat 0).max number.floor

def evaluateDepthScopedToolPolicy (depth : Option JsNumber) (policy : Option DepthScopedToolPolicy)
    : Bool :=
  let depth := (normalizedDepth depth).getD (.ofNat 0)
  let byDepth := (policy.map fun found => found.deniedToolNamesByDepth depth).getD []
  let limit := normalizedDepth
    (policy.bind fun found => found.maxDepthByToolKind (classifyDepthScopedToolKind toolName))
  if isAmong (byDepth.map (normalizeToken host)) (normalizeToken host toolName) then false
  else
    match limit with
    | some bound => !bound.lt depth
    | none => true

/-! ## The lists -/

section Lists

variable (host : CaseHost)

/-- The names that a tool goes by. -/
def namesOf (toolName : JsString) (mcpTool : Option McpRegisteredToolRef) : List JsString :=
  normalizeToken host toolName ::
    match mcpTool with
    | none => []
    | some tool =>
      [normalizeToken host tool.toolName,
        normalizeToken host (tool.serverId ++ colon :: tool.toolName),
        normalizeToken host tool.registeredName]

def isToolAllowedBySkillMcpAllowlist (toolName : JsString) (input : SkillMcpAllowlist)
    (mcpTool : Option McpRegisteredToolRef) : Bool :=
  let allowlist := normalizeSkillMcpAllowlist input
  let enabledTools := makeSet host allowlist.enabledToolNames
  let disabledTools := makeSet host allowlist.disabledToolNames
  let names := namesOf host toolName mcpTool
  if anyAmong disabledTools names then false
  else if enabledTools = [] then true
  else anyAmong enabledTools names

def isMcpServerAllowed (serverId : JsString) (input : SkillMcpAllowlist) : Bool :=
  let enabledServers := makeSet host (normalizeSkillMcpAllowlist input).enabledMcpServerIds
  if enabledServers = [] then true else isAmong enabledServers (normalizeToken host serverId)

def namesMatchAny (names values : List JsString) : Bool := anyAmong (makeSet host values) names

/-- The names that a call may fall back to its parent's secrets under. -/
def fallbackAllows (values : Option (List JsString)) (toolName : JsString)
    (bindingId : Option JsString) (mcpTool : Option McpRegisteredToolRef) : Bool :=
  let names := normalizeToken host toolName ::
    (bindingId.toList.map (normalizeToken host) ++
      match mcpTool with
      | none => []
      | some tool =>
        [normalizeToken host tool.serverId,
          normalizeToken host (tool.serverId ++ colon :: tool.toolName),
          normalizeToken host tool.registeredName])
  namesMatchAny host names (values.getD [])

end Lists

/-! ## The answer -/

inductive CapabilityReason
  | legacyNoAgentContext | agentContextRequired | permissionProfileRequired | depthScopedToolDenied
  | capabilityBindingNotFound | capabilityBindingOwnerMismatch | capabilityBindingArchived
  | capabilityBindingDisabled | capabilityBindingToolMismatch | parentSecretFallbackForbidden
  | parentSecretFallbackNotAllowlisted | parentSecretFallbackAuditRequired | secretScopeRequired
  | auditIdRequired | secretScopeMismatch | mcpServerNotAllowed | toolNotAllowed
  | riskExceedsProfile | shellExecutionNotAllowed | filesystemWriteNotAllowed
  | externalNetworkNotAllowed | screenControlNotAllowed | capabilityApprovalRequired
  | capabilityAllowed
  deriving DecidableEq

structure AgentCapabilityPolicyDecision where
  allowed : Bool
  capabilityRisk : CapabilityRiskLevel
  approvalRequired : Bool
  reasonCode : CapabilityReason

def resolvePermissionProfileBlockReason (capabilityRisk : CapabilityRiskLevel)
    (profile : PermissionProfile) : Option CapabilityReason :=
  if !riskWithinCeiling capabilityRisk profile.riskCeiling then some .riskExceedsProfile
  else if isShellTool toolName && !profile.allowShellExecution then some .shellExecutionNotAllowed
  else if isFileWriteTool toolName && !profile.allowFilesystemWrite then
    some .filesystemWriteNotAllowed
  else if isNetworkTool toolName && !profile.allowExternalNetwork then
    some .externalNetworkNotAllowed
  else if isScreenTool toolName && !profile.allowScreenControl then some .screenControlNotAllowed
  else none

section Evaluation

variable (host : CaseHost) (getAgentCapabilityBinding : JsString → Option AgentCapabilityBinding)

/-- The binding that the call goes by, or why it may not. -/
def resolveAgentBindingDecision (toolName agentId : JsString) (requested : Option JsString)
    (mcpTool : Option McpRegisteredToolRef) : Except CapabilityReason (Option JsString) :=
  match nonEmpty requested with
  | none => .ok none
  | some bindingId =>
    match getAgentCapabilityBinding bindingId with
    | none => .error .capabilityBindingNotFound
    | some binding =>
      let catalogNames := makeSet host
        [binding.catalogId,
          if startsWith binding.catalogId (ofString "mcp:") then
            binding.catalogId.drop 4
          else binding.catalogId]
      let outside : Bool := match mcpTool with
        | none => false
        | some tool =>
          binding.capabilityKind ≠ .mcpServer ||
            !isAmong catalogNames (normalizeToken host tool.serverId)
      let names := namesOf host toolName mcpTool
      let enabledToolNames := normalizeStringList binding.enabledToolNames
      if binding.agentId ≠ agentId then .error .capabilityBindingOwnerMismatch
      else if binding.status = .archived then .error .capabilityBindingArchived
      else if binding.status = .disabled then .error .capabilityBindingDisabled
      else if outside then .error .capabilityBindingToolMismatch
      else if namesMatchAny host names (normalizeStringList binding.disabledToolNames) then
        .error .toolNotAllowed
      else if enabledToolNames ≠ [] ∧ !namesMatchAny host names enabledToolNames then
        .error .toolNotAllowed
      else .ok (some bindingId)

/-- What denies a call of an agent with a profile before the server and the tool are looked up
in the lists. -/
def denialBeforeLists (toolName agentId : JsString) (mcpTool : Option McpRegisteredToolRef)
    (ctx : ToolContext) : Option CapabilityReason :=
  if !evaluateDepthScopedToolPolicy host toolName ctx.delegationDepth ctx.depthScopedToolPolicy then
    some .depthScopedToolDenied
  else
    match resolveAgentBindingDecision host getAgentCapabilityBinding toolName agentId
        ctx.capabilityBindingId mcpTool with
    | .error reason => some reason
    | .ok bindingId =>
      let allowlist := normalizeSkillMcpAllowlist (ctx.policyAllowlist.getD .empty)
      let parentSecretFallbackRequested := isFilled ctx.parentSecretScopeId &&
        !isFilled ctx.secretScopeId && !isFilled allowlist.secretScopeId
      let secretScopeId :=
        (ctx.secretScopeId.or allowlist.secretScopeId).or ctx.parentSecretScopeId
      if parentSecretFallbackRequested && !ctx.allowParentSecretFallback then
        some .parentSecretFallbackForbidden
      else if parentSecretFallbackRequested && !fallbackAllows host
          ctx.fallbackSecretScopeAllowlist toolName bindingId mcpTool then
        some .parentSecretFallbackNotAllowlisted
      else if parentSecretFallbackRequested && isBlank ctx.auditId then
        some .parentSecretFallbackAuditRequired
      else if mcpTool.isSome && isBlank secretScopeId then some .secretScopeRequired
      else if mcpTool.isSome && isBlank ctx.auditId then some .auditIdRequired
      else if isFilled ctx.secretScopeId && isFilled allowlist.secretScopeId &&
          ctx.secretScopeId ≠ allowlist.secretScopeId then
        some .secretScopeMismatch
      else none

/-- What denies a call that has come to the lists. -/
def denialByLists (toolName : JsString) (mcpTool : Option McpRegisteredToolRef)
    (ctx : ToolContext) : Option CapabilityReason :=
  let allowlist := normalizeSkillMcpAllowlist (ctx.policyAllowlist.getD .empty)
  let serverDenied : Bool := match mcpTool with
    | none => false
    | some tool => !isMcpServerAllowed host tool.serverId allowlist
  if serverDenied then some .mcpServerNotAllowed
  else if !isToolAllowedBySkillMcpAllowlist host toolName allowlist mcpTool then
    some .toolNotAllowed
  else none

def evaluateAgentToolCapabilityPolicy (toolName : JsString)
    (riskLevel : Option CapabilityRiskLevel) (ctx : ToolContext) :
    AgentCapabilityPolicyDecision :=
  let mcpTool := parseMcpRegisteredToolName toolName
  let capabilityRisk := resolveToolCapabilityRisk toolName (riskLevel.getD .safe)
  let requiresAgentContext := mcpTool.isSome || isFilled ctx.agentId ||
    ctx.policyProfile.isSome || ctx.policyAllowlist.isSome
  let denied (reason : CapabilityReason) : AgentCapabilityPolicyDecision :=
    ⟨false, capabilityRisk, false, reason⟩
  if !requiresAgentContext then ⟨true, capabilityRisk, false, .legacyNoAgentContext⟩
  else if isBlank ctx.agentId then denied .agentContextRequired
  else
    match ctx.policyProfile with
    | none => denied .permissionProfileRequired
    | some profile =>
      match denialBeforeLists host getAgentCapabilityBinding toolName (ctx.agentId.getD [])
          mcpTool ctx with
      | some reason => denied reason
      | none =>
        match denialByLists host toolName mcpTool ctx with
        | some reason => denied reason
        | none =>
          match resolvePermissionProfileBlockReason toolName capabilityRisk profile with
          | some reason => denied reason
          | none =>
            let approvalRequired :=
              isRiskAtLeast capabilityRisk profile.approvalRequiredFrom
            ⟨true, capabilityRisk, approvalRequired,
              if approvalRequired then .capabilityApprovalRequired
              else .capabilityAllowed⟩

end Evaluation

/-! ## The status that is shown -/

def filterMcpStatusesForAgentAllowlist (statuses : List McpServerStatus)
    (allowlist : SkillMcpAllowlist) : List McpServerStatus :=
  (statuses.filter fun status =>
    isMcpServerAllowed host (sanitizeSegment host status.name) allowlist ||
      isMcpServerAllowed host status.name allowlist).map fun status =>
    let tools := status.tools.filter fun tool =>
      isToolAllowedBySkillMcpAllowlist host tool.registeredName allowlist
        (parseMcpRegisteredToolName tool.registeredName)
    { status with
      registeredToolCount := tools.length
      toolCount := tools.length
      tools }

end Nobie.Security
