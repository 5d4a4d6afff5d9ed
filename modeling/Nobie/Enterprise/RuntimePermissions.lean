/-
# Permissions at run time

A work order carries the tools, systems and data domains that it permits. The node that runs it
has a compiled scope of its own; what is left of the work order's permissions is what both have.
A work order is denied if anything is missing, and tool calls are planned one by one.
-/

import Mathlib.Data.List.Chain
import Nobie.Enterprise.DelegationPlanner
import Nobie.Enterprise.CompiledGraph

namespace Nobie.Enterprise

open Foundation

inductive NodeToolType
  | readOnly | write | externalAction | analysis | unknown
  deriving DecidableEq

structure CompiledTool where
  id : JsString
  toolType : NodeToolType
  systemId : Option JsString

/-- The compiled topology with what the permissions are looked up in. -/
structure PermissionTopology extends RuntimeTopology where
  toolIndex : OrderedMap JsString CompiledTool
  systemIndex : OrderedMap JsString EnterpriseSystem

/-- The indexes of a topology whose tools have these types. -/
def permissionTopology (topology : EnterpriseTopology) (toolType : EnterpriseTool → NodeToolType) :
    PermissionTopology where
  toRuntimeTopology := runtimeTopology topology
  toolIndex := topology.tools.foldl
    (fun map tool => map.set tool.id ⟨tool.id, toolType tool, tool.systemId⟩) ∅
  systemIndex := systemById topology

/-! ## What is left of a work order's permissions -/

structure EffectiveWorkOrderPermissionScope extends PermissionScope where
  (removedToolIds removedSystemIds removedDataDomainIds : List JsString)
  reasonCodes : List String

namespace PermissionTopology

variable (topology : PermissionTopology)

/-- The lists of the compiled scope of the node, or those of its contract if it has none. -/
def nodeScope (node : CompiledNode) : PermissionScope :=
  match topology.snapshot.toolScopeIndex.get? node.id with
  | some scope => ⟨scope.effectiveToolIds, scope.effectiveSystemIds, scope.effectiveDataDomainIds⟩
  | none =>
    ⟨node.allowedToolIds, node.allowedSystemIds,
      dataDomainIdsForSystems topology.systemIndex node.allowedSystemIds⟩

def deriveEffectiveWorkOrderPermissionScope (workOrder : WorkOrder) (node : CompiledNode) :
    EffectiveWorkOrderPermissionScope :=
  let nodeAllowed := topology.nodeScope node
  let allowedToolIds := keepAmong nodeAllowed.allowedToolIds workOrder.permissionScope.allowedToolIds
  let allowedSystemIds :=
    keepAmong nodeAllowed.allowedSystemIds workOrder.permissionScope.allowedSystemIds
  let dataDomainIds := keepAmong nodeAllowed.dataDomainIds workOrder.permissionScope.dataDomainIds
  let removedToolIds := dropAmong allowedToolIds workOrder.permissionScope.allowedToolIds
  let removedSystemIds := dropAmong allowedSystemIds workOrder.permissionScope.allowedSystemIds
  let removedDataDomainIds := dropAmong dataDomainIds workOrder.permissionScope.dataDomainIds
  { allowedToolIds
    allowedSystemIds
    dataDomainIds
    removedToolIds
    removedSystemIds
    removedDataDomainIds
    reasonCodes := ["permission_scope_narrowed_to_node_contract"] ++
      (if (topology.snapshot.toolScopeIndex.get? node.id).isSome then
        ["permission_scope_narrowed_to_compiled_tool_scope"] else []) ++
      (if removedToolIds.isEmpty then [] else ["work_order_tool_scope_reduced"]) ++
      (if removedSystemIds.isEmpty then [] else ["work_order_system_scope_reduced"]) ++
      (if removedDataDomainIds.isEmpty then [] else ["work_order_data_domain_scope_reduced"]) }

/-! ## The check of a work order -/

structure NodeRuntimePermissionDecision where
  allowed : Bool
  (missingToolIds missingSystemIds missingDataDomainIds : List JsString)
  effectivePermissionScope : EffectiveWorkOrderPermissionScope
  reasonCodes : List String

def checkNodeRuntimePermission (workOrder : WorkOrder) (node : CompiledNode) :
    NodeRuntimePermissionDecision :=
  let effectivePermissionScope := topology.deriveEffectiveWorkOrderPermissionScope workOrder node
  let denied := !effectivePermissionScope.removedToolIds.isEmpty ||
    !effectivePermissionScope.removedSystemIds.isEmpty ||
    !effectivePermissionScope.removedDataDomainIds.isEmpty
  { allowed := !denied
    missingToolIds := effectivePermissionScope.removedToolIds
    missingSystemIds := effectivePermissionScope.removedSystemIds
    missingDataDomainIds := effectivePermissionScope.removedDataDomainIds
    effectivePermissionScope
    reasonCodes := effectivePermissionScope.reasonCodes ++
      [if denied then "node_runtime_permission_denied" else "node_runtime_permission_allowed"] }

end PermissionTopology

/-! ## Planned tool calls -/

/-- The tools and systems that the node may use for the work order. -/
structure NodeAllowedToolResolution where
  nodeId : JsString
  (allowedToolIds allowedSystemIds declaredToolIds declaredSystemIds : List JsString)
  (effectiveToolIds effectiveSystemIds removedToolIds removedSystemIds : List JsString)

/-- `intersectStable` of the tool planner, which drops repetitions. -/
def intersectStable (left right : List JsString) : List JsString :=
  keepAmong right (OrderedSet.ofList left).elements

def PermissionTopology.resolveAllowedNodeTools (topology : PermissionTopology)
    (workOrder : WorkOrder) (node : CompiledNode) : NodeAllowedToolResolution :=
  let toolScope := topology.snapshot.toolScopeIndex.get? node.id
  let effectiveToolIds :=
    (toolScope.map CompiledToolScope.effectiveToolIds).getD node.allowedToolIds
  let effectiveSystemIds :=
    (toolScope.map CompiledToolScope.effectiveSystemIds).getD node.allowedSystemIds
  let allowedToolIds :=
    intersectStable workOrder.permissionScope.allowedToolIds effectiveToolIds
  let allowedSystemIds :=
    intersectStable workOrder.permissionScope.allowedSystemIds effectiveSystemIds
  { nodeId := node.id
    allowedToolIds
    allowedSystemIds
    declaredToolIds := (toolScope.map CompiledToolScope.declaredToolIds).getD node.allowedToolIds
    declaredSystemIds :=
      (toolScope.map CompiledToolScope.declaredSystemIds).getD node.allowedSystemIds
    effectiveToolIds
    effectiveSystemIds
    removedToolIds := dropAmong allowedToolIds workOrder.permissionScope.allowedToolIds
    removedSystemIds := dropAmong allowedSystemIds workOrder.permissionScope.allowedSystemIds }

inductive NodeToolApprovalStatus
  | notRequired | approved | denied | missing
  deriving DecidableEq

/-- What is decided about a tool that needs an approval. -/
inductive NodeToolApprovalDecision
  | approved | denied

inductive NodeToolPlanIssueCode
  | toolNotFound | enterpriseSystemNotExecutableTool | toolPermissionDenied
  | backingSystemPermissionDenied | toolApprovalRequired | toolApprovalDenied

def NodeToolPlanIssueCode.message : NodeToolPlanIssueCode → String
  | toolNotFound => "Requested tool is not present in compiled topology snapshot."
  | enterpriseSystemNotExecutableTool => "EnterpriseSystem is not executable as a Tool."
  | toolPermissionDenied =>
    "Requested tool is outside compiled node scope or WorkOrder permission scope."
  | backingSystemPermissionDenied =>
    "Requested tool's backing EnterpriseSystem is outside WorkOrder permission scope."
  | toolApprovalRequired => "Requested write or external tool requires explicit approval."
  | toolApprovalDenied => "Requested tool execution approval was denied."

structure NodeToolPlanIssue where
  code : NodeToolPlanIssueCode
  toolId : JsString
  systemId : Option JsString

structure PlannedNodeToolCall where
  (toolId dispatcherToolName : JsString)
  tool : CompiledTool
  approvalRequired : Bool
  approvalStatus : NodeToolApprovalStatus

inductive NodeToolPlanStatus
  | planned | partly | blocked | skipped
  deriving DecidableEq

structure NodeToolExecutionPlan where
  ok : Bool
  status : NodeToolPlanStatus
  (nodeId workOrderId : JsString)
  allowed : NodeAllowedToolResolution
  toolCalls : List PlannedNodeToolCall
  blocked : List NodeToolPlanIssue

def isApprovalRequiredToolType (toolType : NodeToolType) : Bool :=
  toolType = .write || toolType = .externalAction || toolType = .unknown

def approvalStatusForTool (decision : Option NodeToolApprovalDecision) (approvalRequired : Bool) :
    NodeToolApprovalStatus :=
  if !approvalRequired then .notRequired
  else
    match decision with
    | some .approved => .approved
    | some .denied => .denied
    | none => .missing

/-- What the caller of the planner may say about the tools. -/
structure NodeToolOptions where
  toolRequests : Option (List JsString)
  dispatcherToolNameByToolId : OrderedMap JsString JsString
  approvalDecisionsByToolId : OrderedMap JsString NodeToolApprovalDecision

namespace PermissionTopology

variable (topology : PermissionTopology)

/-- The call that is planned for a requested tool, or what blocks it. -/
def planToolCall (options : NodeToolOptions) (allowed : NodeAllowedToolResolution)
    (toolId : JsString) : Except NodeToolPlanIssue PlannedNodeToolCall :=
  match topology.toolIndex.get? toolId with
  | none =>
    let code : NodeToolPlanIssueCode :=
      if (topology.systemIndex.get? toolId).isSome then .enterpriseSystemNotExecutableTool
      else .toolNotFound
    .error ⟨code, toolId, none⟩
  | some tool =>
    if !isAmong allowed.allowedToolIds toolId then
      .error ⟨.toolPermissionDenied, toolId, tool.systemId⟩
    else if tool.systemId.any fun systemId => !isAmong allowed.allowedSystemIds systemId then
      .error ⟨.backingSystemPermissionDenied, toolId, tool.systemId⟩
    else
      let approvalRequired := isApprovalRequiredToolType tool.toolType
      let approvalStatus := approvalStatusForTool
        (options.approvalDecisionsByToolId.get? toolId) approvalRequired
      if approvalStatus = .denied then .error ⟨.toolApprovalDenied, toolId, tool.systemId⟩
      else if approvalStatus = .missing then .error ⟨.toolApprovalRequired, toolId, tool.systemId⟩
      else
        .ok
          { toolId
            dispatcherToolName := (options.dispatcherToolNameByToolId.get? toolId).getD toolId
            tool
            approvalRequired
            approvalStatus }

def planNodeToolExecution (options : NodeToolOptions) (workOrder : WorkOrder)
    (node : CompiledNode) : NodeToolExecutionPlan :=
  let allowed := topology.resolveAllowedNodeTools workOrder node
  let requested := options.toolRequests.getD allowed.allowedToolIds
  let toolCalls := requested.filterMap fun toolId =>
    (topology.planToolCall options allowed toolId).toOption
  let blocked := requested.filterMap fun toolId =>
    match topology.planToolCall options allowed toolId with
    | .error issue => some issue
    | .ok _ => none
  let status : NodeToolPlanStatus :=
    if toolCalls ≠ [] ∧ blocked ≠ [] then .partly
    else if toolCalls ≠ [] then .planned
    else if blocked ≠ [] then .blocked
    else .skipped
  { ok := !toolCalls.isEmpty || status = .skipped
    status
    nodeId := node.id
    workOrderId := workOrder.workOrderId
    allowed
    toolCalls
    blocked }

end PermissionTopology

/-! ## Permissions along a delegation chain

Every work order of a chain permits no more tools and systems than the one before it. The data
domains are handed on as they are, and a child's node need not reach them. -/

open List JsString

/-! ## Chains of work orders -/

/-- The planner plans the child's work order for the parent's. -/
def RuntimeTopology.DelegatesOrder (topology : RuntimeTopology) (parent child : WorkOrder) : Prop :=
  ∃ options parentNodeId,
    child ∈ (topology.planChildDelegation options parentNodeId parent).childWorkOrders.map
      PlannedChildWorkOrder.workOrder

/-- Work orders each of which is planned for the one before it. -/
structure DelegationChain (topology : RuntimeTopology) where
  workOrders : List WorkOrder
  planned : workOrders.IsChain topology.DelegatesOrder

namespace PermissionTopology

variable (topology : PermissionTopology)

/-- The node that runs the work order. -/
def IsNodeOf (workOrder : WorkOrder) (node : CompiledNode) : Prop :=
  topology.nodeIndex.get? workOrder.toNodeId = some node

/-- The call is within the permissions of a work order. -/
structure CallPermitted (workOrder : WorkOrder) (call : PlannedNodeToolCall) : Prop where
  tool : call.toolId ∈ workOrder.permissionScope.allowedToolIds
  system : ∀ systemId ∈ call.tool.systemId, systemId ∈ workOrder.permissionScope.allowedSystemIds

/-- Tool calls of the last work order are within the permissions of them all, and a work order
that is planned for one that is let run is let run. -/
structure PermissionsNarrow (chain : DelegationChain topology.toRuntimeTopology) : Prop where
  calls : ∀ last ∈ chain.workOrders.getLast?, ∀ node, topology.IsNodeOf last node →
    ∀ options, ∀ call ∈ (topology.planNodeToolExecution options last node).toolCalls,
      topology.toolIndex.get? call.toolId = some call.tool ∧
        call.toolId ∈ (topology.nodeScope node).allowedToolIds ∧
        ∀ workOrder ∈ chain.workOrders, CallPermitted workOrder call
  checks : chain.workOrders.IsChain fun parent child => ∀ parentNode childNode,
    topology.IsNodeOf parent parentNode → topology.IsNodeOf child childNode →
      (topology.checkNodeRuntimePermission parent parentNode).allowed →
        (topology.checkNodeRuntimePermission child childNode).allowed

/-- Everything the first scope permits is in the second. -/
structure Within (inner outer : PermissionScope) : Prop where
  tools : ∀ toolId ∈ inner.allowedToolIds, toolId ∈ outer.allowedToolIds
  systems : ∀ systemId ∈ inner.allowedSystemIds, systemId ∈ outer.allowedSystemIds
  domains : ∀ domainId ∈ inner.dataDomainIds, domainId ∈ outer.dataDomainIds

/-- What the child's contract takes over of a scope, and all the data domains of the scope, are
in the compiled scope of the child. -/
structure Reaches (scope : PermissionScope) (childNode : CompiledNode) : Prop where
  tools : ∀ toolId ∈ scope.allowedToolIds, toolId ∈ childNode.allowedToolIds →
    toolId ∈ (topology.nodeScope childNode).allowedToolIds
  systems : ∀ systemId ∈ scope.allowedSystemIds, systemId ∈ childNode.allowedSystemIds →
    systemId ∈ (topology.nodeScope childNode).allowedSystemIds
  domains : ∀ domainId ∈ scope.dataDomainIds,
    domainId ∈ (topology.nodeScope childNode).dataDomainIds

/-- Wherever a work order is within the compiled scope of its node, the child's node reaches what
the work order permits. -/
def ScopesReach (chain : DelegationChain topology.toRuntimeTopology) : Prop :=
  chain.workOrders.IsChain fun parent child => ∀ parentNode childNode,
    topology.IsNodeOf parent parentNode → topology.IsNodeOf child childNode →
      Within parent.permissionScope (topology.nodeScope parentNode) →
        topology.Reaches parent.permissionScope childNode

end PermissionTopology

/-! ## One delegation -/

variable {parent child : WorkOrder} {call : PlannedNodeToolCall} {workOrder : WorkOrder}
  {node : CompiledNode}

variable {topology : RuntimeTopology} {toolId : JsString} {options : NodeToolOptions}
  {childNode : CompiledNode}

/-- A planned work order is built for a node that is looked up. -/
theorem RuntimeTopology.DelegatesOrder.exists_childNode (h : topology.DelegatesOrder parent child) :
    ∃ parentNodeId childNodeId childNode workOrderId,
      topology.nodeIndex.get? childNodeId = some childNode ∧
        child = buildChildWorkOrder parent parentNodeId childNode workOrderId := by
  obtain ⟨options, parentNodeId, hmem⟩ := h
  obtain ⟨planned, hplanned, rfl⟩ := mem_map.mp hmem
  unfold RuntimeTopology.planChildDelegation at hplanned
  dsimp only at hplanned
  split_ifs at hplanned
  · cases hplanned
  · cases hplanned
  · obtain ⟨childNodeId, -, hchild⟩ := mem_filterMap.mp hplanned
    cases hplan : topology.planChild options parentNodeId parent childNodeId with
    | error code =>
      rw [hplan] at hchild
      exact absurd hchild (by simp [Except.toOption])
    | ok found =>
      rw [hplan] at hchild
      cases hchild
      unfold RuntimeTopology.planChild at hplan
      cases hnode : topology.nodeIndex.get? childNodeId with
      | none =>
        rw [hnode] at hplan
        cases hplan
      | some childNode =>
        rw [hnode] at hplan
        dsimp only at hplan
        split_ifs at hplan
        cases hplan
        exact ⟨parentNodeId, childNodeId, childNode, _, hnode, rfl⟩

namespace PermissionTopology

/-- The child's work order permits no more tools and systems than the parent's. -/
structure Narrower (parent child : WorkOrder) : Prop where
  tools : ∀ toolId ∈ child.permissionScope.allowedToolIds,
    toolId ∈ parent.permissionScope.allowedToolIds
  systems : ∀ systemId ∈ child.permissionScope.allowedSystemIds,
    systemId ∈ parent.permissionScope.allowedSystemIds

theorem narrower_of_delegatesOrder (h : topology.DelegatesOrder parent child) :
    Narrower parent child := by
  obtain ⟨parentNodeId, childNodeId, childNode, workOrderId, -, rfl⟩ := h.exists_childNode
  exact ⟨fun _ htool => (mem_keepAmong.mp htool).1, fun _ hsystem => (mem_keepAmong.mp hsystem).1⟩

instance : IsTrans WorkOrder Narrower where
  trans _ _ _ hfirst hsecond :=
    ⟨fun toolId htool => hfirst.tools toolId (hsecond.tools toolId htool),
      fun systemId hsystem => hfirst.systems systemId (hsecond.systems systemId hsystem)⟩

theorem CallPermitted.of_narrower (h : CallPermitted child call) (hnarrower : Narrower parent child)
    :
    CallPermitted parent call :=
  ⟨hnarrower.tools _ h.tool, fun systemId hsystem => hnarrower.systems _ (h.system systemId hsystem)⟩

/-- A call that the last work order of a chain permits is permitted by all of them. -/
theorem callPermitted_of_last (chain : DelegationChain topology) {last : WorkOrder}
    (hlast : last ∈ chain.workOrders.getLast?) (hcall : CallPermitted last call)
    (hworkOrder : workOrder ∈ chain.workOrders) : CallPermitted workOrder call := by
  obtain ⟨front, hsplit⟩ := getLast?_eq_some_iff.mp hlast
  have hnarrower := (chain.planned.imp fun _ _ => narrower_of_delegatesOrder).pairwise
  rw [hsplit] at hnarrower hworkOrder
  obtain hfront | hsame := mem_append.mp hworkOrder
  · exact hcall.of_narrower
      ((pairwise_append.mp hnarrower).2.2 _ hfront _ (mem_singleton_self last))
  · rw [mem_singleton.mp hsame]
    exact hcall

variable (topology : PermissionTopology)

theorem mem_intersectStable {left right : List JsString} {item : JsString} :
    item ∈ intersectStable left right ↔ item ∈ left ∧ item ∈ right := by
  have hmem := OrderedSet.mem_ofList left item
  rw [intersectStable, mem_keepAmong]
  exact and_congr_left fun _ => hmem

/-- What the planner takes for the scope of the node is what the permissions are cut to. -/
theorem resolveAllowedNodeTools_effective (workOrder : WorkOrder) (node : CompiledNode) :
    (topology.resolveAllowedNodeTools workOrder node).effectiveToolIds =
        (topology.nodeScope node).allowedToolIds ∧
      (topology.resolveAllowedNodeTools workOrder node).effectiveSystemIds =
        (topology.nodeScope node).allowedSystemIds := by
  unfold resolveAllowedNodeTools nodeScope
  cases topology.snapshot.toolScopeIndex.get? node.id with
  | none | some => exact ⟨rfl, rfl⟩

theorem mem_allowedToolIds :
    toolId ∈ (topology.resolveAllowedNodeTools workOrder node).allowedToolIds ↔
      toolId ∈ workOrder.permissionScope.allowedToolIds ∧
        toolId ∈ (topology.nodeScope node).allowedToolIds := by
  rw [← (topology.resolveAllowedNodeTools_effective workOrder node).1]
  exact mem_intersectStable

theorem mem_allowedSystemIds {systemId : JsString} :
    systemId ∈ (topology.resolveAllowedNodeTools workOrder node).allowedSystemIds ↔
      systemId ∈ workOrder.permissionScope.allowedSystemIds ∧
        systemId ∈ (topology.nodeScope node).allowedSystemIds := by
  rw [← (topology.resolveAllowedNodeTools_effective workOrder node).2]
  exact mem_intersectStable

/-- What a call that is planned has passed. -/
theorem planToolCall_ok {allowed : NodeAllowedToolResolution}
    (hplan : topology.planToolCall options allowed toolId = .ok call) :
    topology.toolIndex.get? call.toolId = some call.tool ∧ call.toolId ∈ allowed.allowedToolIds ∧
      ∀ systemId ∈ call.tool.systemId, systemId ∈ allowed.allowedSystemIds := by
  unfold planToolCall at hplan
  cases htool : topology.toolIndex.get? toolId with
  | none =>
    rw [htool] at hplan
    cases hplan
  | some tool =>
    rw [htool] at hplan
    dsimp only at hplan
    split_ifs at hplan with hpermitted hsystem hdenied hmissing
    cases hplan
    rw [Bool.not_eq_true', Bool.not_eq_false, isAmong_iff] at hpermitted
    refine ⟨htool, hpermitted, fun systemId hbacking => ?_⟩
    rw [Option.mem_def.mp hbacking, Option.any_some, Bool.not_eq_true', Bool.not_eq_false,
      isAmong_iff] at hsystem
    exact hsystem

/-- A planned call names a compiled tool that work order and node permit. -/
theorem permitted_of_planned
    (hcall : call ∈ (topology.planNodeToolExecution options workOrder node).toolCalls) :
    topology.toolIndex.get? call.toolId = some call.tool ∧
      call.toolId ∈ (topology.nodeScope node).allowedToolIds ∧ CallPermitted workOrder call := by
  obtain ⟨toolId, -, hplanned⟩ := mem_filterMap.mp hcall
  cases hplan : topology.planToolCall options (topology.resolveAllowedNodeTools workOrder node)
      toolId with
  | error issue =>
    rw [hplan] at hplanned
    exact absurd hplanned (by simp [Except.toOption])
  | ok found =>
    rw [hplan] at hplanned
    cases hplanned
    obtain ⟨htool, hallowed, hsystems⟩ := topology.planToolCall_ok hplan
    obtain ⟨horder, hnode⟩ := topology.mem_allowedToolIds.mp hallowed
    exact ⟨htool, hnode, horder, fun systemId hsystem =>
      (topology.mem_allowedSystemIds.mp (hsystems systemId hsystem)).1⟩

/-! ## The check -/

/-- Nothing is removed from a list that is within the other. -/
theorem isEmpty_removed {others items : List JsString} :
    (dropAmong (keepAmong others items) items).isEmpty ↔ ∀ item ∈ items, item ∈ others := by
  rw [List.isEmpty_iff, eq_nil_iff_forall_not_mem]
  refine forall_congr' fun item => ?_
  rw [mem_dropAmong, mem_keepAmong]
  tauto

theorem checkNodeRuntimePermission_allowed_iff :
    (topology.checkNodeRuntimePermission workOrder node).allowed ↔
      Within workOrder.permissionScope (topology.nodeScope node) := by
  unfold checkNodeRuntimePermission deriveEffectiveWorkOrderPermissionScope
  dsimp only
  rw [Bool.not_or, Bool.not_or, Bool.not_not, Bool.not_not, Bool.not_not, Bool.and_eq_true,
    Bool.and_eq_true, isEmpty_removed, isEmpty_removed, isEmpty_removed]
  exact ⟨fun ⟨⟨htools, hsystems⟩, hdomains⟩ => ⟨htools, hsystems, hdomains⟩,
    fun h => ⟨⟨h.tools, h.systems⟩, h.domains⟩⟩

/-- What the child's work order permits is within the child's scope exactly if the child
reaches what the parent's permits. -/
theorem within_narrowed_iff {scope : PermissionScope} :
    Within (narrowPermissionScopeToChild scope childNode) (topology.nodeScope childNode) ↔
      topology.Reaches scope childNode := by
  constructor
  · intro h
    exact ⟨fun toolId htool hcontract => h.tools toolId (mem_keepAmong.mpr ⟨htool, hcontract⟩),
      fun systemId hsystem hcontract => h.systems systemId (mem_keepAmong.mpr ⟨hsystem, hcontract⟩),
      h.domains⟩
  · intro h
    refine ⟨fun toolId htool => ?_, fun systemId hsystem => ?_, h.domains⟩
    · obtain ⟨hscope, hcontract⟩ := mem_keepAmong.mp htool
      exact h.tools toolId hscope hcontract
    · obtain ⟨hscope, hcontract⟩ := mem_keepAmong.mp hsystem
      exact h.systems systemId hscope hcontract

end PermissionTopology

/-! ## Compiled topologies -/

theorem id_of_nodeIndex {topology : EnterpriseTopology} {nodeId : JsString}
    (hnode : (buildNodeIndex topology).get? nodeId = some node) : node.id = nodeId := by
  unfold buildNodeIndex at hnode
  rw [OrderedMap.get?_foldl_set (fun node : NodeContract => node.id), OrderedMap.get?_empty,
    Option.or_none] at hnode
  obtain ⟨contract, hfound, rfl⟩ := Option.map_eq_some_iff.mp hnode
  have hid := find?_some hfound
  exact of_decide_eq_true hid

theorem isChain_and {A : Type} {first second : A → A → Prop} {items : List A}
    (hfirst : items.IsChain first) (hsecond : items.IsChain second) :
    items.IsChain fun item next => first item next ∧ second item next := by
  rw [isChain_iff_getElem] at hfirst hsecond ⊢
  exact fun index hindex => ⟨hfirst index hindex, hsecond index hindex⟩

section Compiled

variable {topology : EnterpriseTopology} {toolType : EnterpriseTool → NodeToolType}

/-- The child's work order is cut to the contract of the node that runs it. -/
theorem permissionScope_of_delegatesOrder
    (h : (runtimeTopology topology).DelegatesOrder parent child)
    (hnode : (permissionTopology topology toolType).IsNodeOf child childNode) :
    child.permissionScope = narrowPermissionScopeToChild parent.permissionScope childNode := by
  obtain ⟨parentNodeId, childNodeId, planned, workOrderId, hplanned, rfl⟩ := h.exists_childNode
  have hid : planned.id = childNodeId := id_of_nodeIndex hplanned
  have hsame : (buildNodeIndex topology).get? childNodeId = some childNode := hid ▸ hnode
  cases hplanned.symm.trans hsame
  rfl

/-- Permissions narrow along a chain of delegations exactly if every node on the way reaches
what it is handed. -/
theorem permissionsNarrow_iff (topology : EnterpriseTopology)
    (toolType : EnterpriseTool → NodeToolType)
    (chain : DelegationChain (permissionTopology topology toolType).toRuntimeTopology) :
    (permissionTopology topology toolType).PermissionsNarrow chain ↔
      (permissionTopology topology toolType).ScopesReach chain := by
  have hpair {parent child : WorkOrder}
      (hdelegates : (runtimeTopology topology).DelegatesOrder parent child) :
      (∀ parentNode childNode, (permissionTopology topology toolType).IsNodeOf parent parentNode →
        (permissionTopology topology toolType).IsNodeOf child childNode →
          ((permissionTopology topology toolType).checkNodeRuntimePermission parent
            parentNode).allowed →
          ((permissionTopology topology toolType).checkNodeRuntimePermission child
            childNode).allowed) ↔
      ∀ parentNode childNode, (permissionTopology topology toolType).IsNodeOf parent parentNode →
        (permissionTopology topology toolType).IsNodeOf child childNode →
          PermissionTopology.Within parent.permissionScope
            ((permissionTopology topology toolType).nodeScope parentNode) →
          (permissionTopology topology toolType).Reaches parent.permissionScope childNode := by
    refine forall₄_congr fun parentNode childNode _ hchild => ?_
    rw [PermissionTopology.checkNodeRuntimePermission_allowed_iff,
      PermissionTopology.checkNodeRuntimePermission_allowed_iff,
      permissionScope_of_delegatesOrder hdelegates hchild, PermissionTopology.within_narrowed_iff]
  constructor
  · intro h
    exact (isChain_and chain.planned h.checks).imp fun _ _ hboth => (hpair hboth.1).mp hboth.2
  · intro h
    refine ⟨fun last hlast node _ options call hcall => ?_,
      (isChain_and chain.planned h).imp fun _ _ hboth => (hpair hboth.1).mpr hboth.2⟩
    obtain ⟨htool, hnode, hpermitted⟩ := PermissionTopology.permitted_of_planned _ hcall
    exact ⟨htool, hnode, fun workOrder hworkOrder =>
      PermissionTopology.callPermitted_of_last chain hlast hpermitted hworkOrder⟩

end Compiled

/-! ## A data domain that only the parent has -/

def crm : JsString := ofString "crm"

def customers : JsString := ofString "customers"

/-- The node `a` may use a system with a data domain, the node `b` below it may not. -/
def crmTopology : EnterpriseTopology :=
  { pairTopology .active with
    nodes := [{ plainNode nodeA with allowedSystemIds := [crm] }, plainNode nodeB]
    systems := [{ toEnterpriseBaseEntity := plainEntity crm .active, dataDomainIds := [customers] }]
    relations := [pairRelation .active,
      { toEnterpriseBaseEntity := plainEntity (ofString "s") .active
        relationType := .usesSystem
        source := ⟨.node, nodeA⟩
        target := ⟨.enterpriseSystem, crm⟩
        label := none }] }

theorem compile_crmTopology (rules : EnterpriseRules) :
    compileTopology rules crmTopology ⟨none, none⟩ = .ok (compiledSnapshot crmTopology) := by
  obtain ⟨hcycles, hdepths⟩ := searched_of_pair crmTopology
    (relationEdge (pairRelation .active, 0)) rfl rfl rfl rfl
  refine compileTopology_of_clean rules ?_ ?_ ?_ ?_
    (validateDelegationGraph_of_searched hcycles hdepths ?_)
  all_goals decide +kernel

/-- The work order of the node `a` that permits the system and its data domain. -/
def crmWorkOrder : WorkOrder where
  workOrderId := ofString "w"
  parentWorkOrderId := none
  fromNodeId := nodeA
  toNodeId := nodeA
  permissionScope := ⟨[], [crm], [customers]⟩
  delegationPath := [nodeA]

/-- What the node `a` hands on to the node `b`. -/
def crmChildWorkOrder : WorkOrder := buildChildWorkOrder crmWorkOrder nodeA ⟨nodeB, [], []⟩ none

theorem delegatesOrder_crm :
    (runtimeTopology crmTopology).DelegatesOrder crmWorkOrder crmChildWorkOrder :=
  ⟨⟨none, none, ∅⟩, nodeA, mem_singleton_self crmChildWorkOrder⟩

/-- The check denies the work order that the planner makes for the node `b`: the data domain of
the system that was not handed on is still in it. -/
theorem crmChild_denied :
    compileTopology (fun _ _ => []) crmTopology ⟨none, none⟩ = .ok (compiledSnapshot crmTopology) ∧
      ¬ (permissionTopology crmTopology fun _ => .readOnly).PermissionsNarrow
        ⟨[crmWorkOrder, crmChildWorkOrder],
          List.isChain_cons_cons.mpr ⟨delegatesOrder_crm, List.isChain_singleton _⟩⟩ := by
  refine ⟨compile_crmTopology _, fun h => ?_⟩
  have hchild := (isChain_cons_cons.mp h.checks).1 ⟨nodeA, [], [crm]⟩ ⟨nodeB, [], []⟩
    rfl rfl (by decide +kernel)
  exact absurd hchild (by decide +kernel)

end Nobie.Enterprise
