/-
# The capability policy of a work order

The policy under which a work order's tools are run is put together from what is left of its
permissions and from a base policy. Tools and systems that are left are enabled next to what the
base enables, those that were removed are disabled, and the ceiling of the risk is the work
order's own.
-/

import Nobie.Enterprise.RuntimePermissions
import Nobie.Security.McpAllowlist

namespace Nobie.Security

open Foundation Enterprise JsString

/-! ## The policy -/

/-- The risk level that a permission scope may state. -/
inductive ScopeRiskLevel
  | low | medium | high | critical | unknown

/-- A work order with the risk of its permission scope and whether it needs an approval. -/
structure RatedWorkOrder extends WorkOrder where
  riskLevel : Option ScopeRiskLevel
  approvalRequired : Bool

def riskLevelToCapabilityRisk : Option ScopeRiskLevel → CapabilityRiskLevel
  | some .low => .safe
  | some .medium => .moderate
  | some .high => .sensitive
  | some .critical => .dangerous
  | some .unknown | none => .moderate

/-- The lists of the base policy, which are empty where there is none. -/
def baseAllowlist (base : Option CapabilityPolicy) : SkillMcpAllowlist :=
  (base.map CapabilityPolicy.skillMcpAllowlist).getD .empty

/-- The risk level of the effective scope is that of the work order. -/
def deriveWorkOrderCapabilityPolicy (workOrder : RatedWorkOrder)
    (effectivePermissionScope : EffectiveWorkOrderPermissionScope)
    (base : Option CapabilityPolicy) : CapabilityPolicy :=
  let baseProfile := base.map CapabilityPolicy.permissionProfile
  let approvalRequiredFrom : CapabilityRiskLevel :=
    if workOrder.approvalRequired then .safe
    else (baseProfile.map PermissionProfile.approvalRequiredFrom).getD .dangerous
  { permissionProfile :=
      { profileId := (baseProfile.map PermissionProfile.profileId).getD
          (ofString "permission:" ++ workOrder.workOrderId)
        riskCeiling := riskLevelToCapabilityRisk workOrder.riskLevel
        approvalRequiredFrom
        allowExternalNetwork := (baseProfile.map PermissionProfile.allowExternalNetwork).getD false
        allowFilesystemWrite := (baseProfile.map PermissionProfile.allowFilesystemWrite).getD false
        allowShellExecution := (baseProfile.map PermissionProfile.allowShellExecution).getD false
        allowScreenControl := (baseProfile.map PermissionProfile.allowScreenControl).getD false }
    skillMcpAllowlist :=
      { enabledMcpServerIds := (baseAllowlist base).enabledMcpServerIds
        enabledToolNames := (OrderedSet.ofList ((baseAllowlist base).enabledToolNames ++
          effectivePermissionScope.allowedToolIds ++
            effectivePermissionScope.allowedSystemIds)).elements
        disabledToolNames := (OrderedSet.ofList ((baseAllowlist base).disabledToolNames ++
          effectivePermissionScope.removedToolIds ++
            effectivePermissionScope.removedSystemIds)).elements
        secretScopeId := (baseAllowlist base).secretScopeId } }

/-- The policy of a work order that the node runs. -/
def workOrderPolicy (topology : PermissionTopology) (workOrder : RatedWorkOrder)
    (node : CompiledNode) (base : Option CapabilityPolicy) : CapabilityPolicy :=
  deriveWorkOrderCapabilityPolicy workOrder
    (topology.deriveEffectiveWorkOrderPermissionScope workOrder.toWorkOrder node) base

/-! ## What a tool that is let run has passed -/

variable {host : CaseHost} {toolName : JsString}

variable {ctx : ToolContext} {profile : PermissionProfile} {allowlist : SkillMcpAllowlist}
  {value : JsString}

theorem passed_of_allowed {getAgentCapabilityBinding : JsString → Option AgentCapabilityBinding}
    {riskLevel : Option CapabilityRiskLevel} (hprofile : ctx.policyProfile = some profile)
    (hallowed : (evaluateAgentToolCapabilityPolicy host getAgentCapabilityBinding toolName
      riskLevel ctx).allowed) :
    denialByLists host toolName (parseMcpRegisteredToolName toolName) ctx = none ∧
      resolvePermissionProfileBlockReason toolName
        (resolveToolCapabilityRisk toolName (riskLevel.getD .safe)) profile = none := by
  unfold evaluateAgentToolCapabilityPolicy at hallowed
  simp only [hprofile, Option.isSome_some, Bool.or_true, Bool.true_or, Bool.not_true,
    Bool.false_eq_true, if_false] at hallowed
  split at hallowed
  · cases hallowed
  · split at hallowed
    · cases hallowed
    · split at hallowed
      · cases hallowed
      · rename_i hlists
        split at hallowed
        · cases hallowed
        · rename_i hblock
          exact ⟨hlists, hblock⟩

theorem withinCeiling_of_unblocked {risk : CapabilityRiskLevel}
    (h : resolvePermissionProfileBlockReason toolName risk profile = none) :
    risk.order ≤ profile.riskCeiling.order := by
  unfold resolvePermissionProfileBlockReason at h
  split at h
  · cases h
  · rename_i hceiling
    rw [Bool.not_eq_true', Bool.not_eq_false] at hceiling
    exact of_decide_eq_true hceiling

/-- What the lists of a policy ask of a tool that they let run. -/
theorem passesToolCheck_of_unlisted
    (hlists : ctx.policyAllowlist = some (normalizeSkillMcpAllowlist allowlist))
    (h : denialByLists host toolName (parseMcpRegisteredToolName toolName) ctx = none) :
    passesToolCheck host allowlist toolName := by
  unfold denialByLists at h
  rw [hlists, Option.getD_some] at h
  dsimp only at h
  split_ifs at h with hserver htool
  rw [Bool.not_eq_true', Bool.not_eq_false, isToolAllowed_normalize,
    isToolAllowed_normalize] at htool
  exact htool

theorem not_disabled_of_passes (h : passesToolCheck host allowlist toolName) :
    ∀ name ∈ namesOf host toolName (parseMcpRegisteredToolName toolName),
      name ∉ disabledTools host allowlist := by
  intro name hname hdisabled
  unfold passesToolCheck isToolAllowedBySkillMcpAllowlist at h
  rw [if_pos (show anyAmong (makeSet host (normalizeSkillMcpAllowlist allowlist).disabledToolNames)
    _ from anyAmong_iff.mpr ⟨name, hname, hdisabled⟩)] at h
  cases h

/-- A value whose token is not empty is in the set of the list that has it. -/
theorem token_mem_makeSet {values : List JsString} (hvalue : value ∈ values)
    (hblank : trim value ≠ []) (htoken : normalizeToken host value ≠ []) :
    normalizeToken host value ∈ makeSet host (normalizeStringList values) :=
  mem_makeSet.mpr ⟨⟨trim value,
    mem_normalizeStringList.mpr ⟨⟨value, hvalue, rfl⟩, hblank⟩, normalizeToken_trim host value⟩, htoken⟩

/-! ## The bounds of the policy -/

/-- The tool goes by a name that the value becomes. -/
def GoesBy (host : CaseHost) (toolName value : JsString) : Prop :=
  normalizeToken host value ∈ namesOf host toolName (parseMcpRegisteredToolName toolName)

/-- What the effective scope of a work order and the base policy say about a tool. -/
structure WithinWorkOrder (host : CaseHost) (scope : EffectiveWorkOrderPermissionScope)
    (riskLevel : Option ScopeRiskLevel) (base : Option CapabilityPolicy) (toolName : JsString)
    (policy : CapabilityPolicy) (risk : CapabilityRiskLevel) : Prop where
  enabled : enabledTools host policy.skillMcpAllowlist ≠ [] →
    ∃ value, (value ∈ scope.allowedToolIds ∨ value ∈ scope.allowedSystemIds ∨
      value ∈ (baseAllowlist base).enabledToolNames) ∧ GoesBy host toolName value
  notRemoved : ∀ value, value ∈ scope.removedToolIds ∨ value ∈ scope.removedSystemIds ∨
      value ∈ (baseAllowlist base).disabledToolNames →
    trim value ≠ [] → normalizeToken host value ≠ [] → ¬ GoesBy host toolName value
  ceiling : policy.permissionProfile.riskCeiling = riskLevelToCapabilityRisk riskLevel
  withinCeiling : risk.order ≤ (riskLevelToCapabilityRisk riskLevel).order

theorem mem_ofList_append {first second third : List JsString} :
    value ∈ (OrderedSet.ofList (first ++ second ++ third)).elements ↔
      value ∈ second ∨ value ∈ third ∨ value ∈ first := by
  have hmem := OrderedSet.mem_ofList (first ++ second ++ third) value
  rw [List.mem_append, List.mem_append] at hmem
  refine Iff.trans hmem ?_
  tauto

/-- A tool runs under the policy of a work order only within what is left of the work order's
permissions and what the base enables. -/
theorem withinWorkOrder_of_allowed (host : CaseHost) (topology : PermissionTopology)
    (workOrder : RatedWorkOrder) (node : CompiledNode) (base : Option CapabilityPolicy)
    (getAgentCapabilityBinding : JsString → Option AgentCapabilityBinding) (toolName : JsString)
    (riskLevel : Option CapabilityRiskLevel) (ctx : ToolContext)
    (hallowed : (evaluateAgentToolCapabilityPolicy host getAgentCapabilityBinding toolName riskLevel
      { ctx with
        capabilityPolicy := some (workOrderPolicy topology workOrder node base) }).allowed = true) :
    WithinWorkOrder host
      (topology.deriveEffectiveWorkOrderPermissionScope workOrder.toWorkOrder node)
      workOrder.riskLevel base toolName (workOrderPolicy topology workOrder node base)
      (resolveToolCapabilityRisk toolName (riskLevel.getD .safe)) := by
  obtain ⟨hlists, hblock⟩ := passed_of_allowed rfl hallowed
  have hpasses := passesToolCheck_of_unlisted rfl hlists
  refine ⟨fun hnamed => ?_, fun value hremoved hblank htoken hgoes => ?_, rfl,
    withinCeiling_of_unblocked hblock⟩
  · obtain ⟨⟨name, hname, henabled⟩, -⟩ := (isToolAllowed_iff hnamed _ _).mp hpasses
    obtain ⟨value, hvalue, rfl⟩ := mem_makeSet_normalizeStringList henabled
    exact ⟨value, mem_ofList_append.mp hvalue, hname⟩
  · refine not_disabled_of_passes hpasses _ hgoes ?_
    exact token_mem_makeSet (mem_ofList_append.mpr hremoved) hblank htoken

/-! ## A tool with the name of a system -/

/-- The node `a` may use the system and no tool. -/
def crmPermissions : PermissionTopology := permissionTopology crmTopology fun _ => .readOnly

def crmRatedWorkOrder : RatedWorkOrder := ⟨crmWorkOrder, some .high, false⟩

/-- A base policy that enables no tool by name and wants nothing but safe ones. -/
def safePolicy : CapabilityPolicy where
  permissionProfile :=
    { profileId := ofString "base"
      riskCeiling := .safe
      approvalRequiredFrom := .safe
      allowExternalNetwork := false
      allowFilesystemWrite := false
      allowShellExecution := false
      allowScreenControl := false }
  skillMcpAllowlist := .empty

def crmPolicy : CapabilityPolicy :=
  workOrderPolicy crmPermissions crmRatedWorkOrder ⟨nodeA, [], [crm]⟩ (some safePolicy)

theorem crmTool_allowed : (evaluateAgentToolCapabilityPolicy asciiCase (fun _ => none) crm none
    { (plainCall .empty).ctx with capabilityPolicy := some crmPolicy }).allowed := by
  decide +kernel

/-- The tool that is called like an allowed system runs, though no tool is allowed, and the
policy has a higher ceiling than its base. -/
theorem systemNamedTool_allowed :
    (evaluateAgentToolCapabilityPolicy asciiCase (fun _ => none) crm none
        { (plainCall .empty).ctx with capabilityPolicy := some crmPolicy }).allowed = true ∧
      crm ∉ (crmPermissions.deriveEffectiveWorkOrderPermissionScope crmWorkOrder
        ⟨nodeA, [], [crm]⟩).allowedToolIds ∧
      crm ∉ safePolicy.skillMcpAllowlist.enabledToolNames ∧
      safePolicy.permissionProfile.riskCeiling.order <
        crmPolicy.permissionProfile.riskCeiling.order :=
  ⟨crmTool_allowed, List.not_mem_nil, List.not_mem_nil, by decide⟩

theorem crmTool_within : WithinWorkOrder asciiCase
    (crmPermissions.deriveEffectiveWorkOrderPermissionScope crmWorkOrder ⟨nodeA, [], [crm]⟩)
    (some .high) (some safePolicy) crm crmPolicy (resolveToolCapabilityRisk crm .safe) :=
  withinWorkOrder_of_allowed asciiCase crmPermissions crmRatedWorkOrder ⟨nodeA, [], [crm]⟩
    (some safePolicy) (fun _ => none) crm none (plainCall .empty).ctx crmTool_allowed

end Nobie.Security
