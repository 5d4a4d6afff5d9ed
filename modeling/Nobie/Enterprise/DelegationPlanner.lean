/-
# Delegation planning

A node that runs a work order plans one of them for each of its children in the compiled
graph, unless they would be too deep: how deep a work order is it reads off the delegation
path. The planned ones are dispatched one after another, and the node behind each of them
plans in turn. Whether a node comes to planning at all, after the checks of its contract, its
envelope, its input, its permissions and its authority, is a parameter here.
-/

import Nobie.Enterprise.CompiledGraph
import Nobie.Enterprise.Contract
import Nobie.Foundation.MarkedWords

namespace Nobie.Enterprise

open Foundation JsString

/-! ## What the runtime looks up -/

structure CompiledNode where
  id : JsString
  (allowedToolIds allowedSystemIds : List JsString)

def compiledNode (node : NodeContract) : CompiledNode :=
  ⟨node.id, node.allowedToolIds, node.allowedSystemIds⟩

def buildNodeIndex (topology : EnterpriseTopology) : OrderedMap JsString CompiledNode :=
  topology.nodes.foldl (fun map node => map.set node.id (compiledNode node)) ∅

/-- The parts of a compiled topology that the planner reads. -/
structure RuntimeTopology where
  snapshot : CompiledTopologySnapshot
  nodeIndex : OrderedMap JsString CompiledNode

def runtimeTopology (topology : EnterpriseTopology) : RuntimeTopology :=
  ⟨compiledSnapshot topology, buildNodeIndex topology⟩

/-! ## Work orders -/

structure PermissionScope where
  (allowedToolIds allowedSystemIds dataDomainIds : List JsString)

structure WorkOrder where
  workOrderId : JsString
  parentWorkOrderId : Option JsString
  (fromNodeId toNodeId : JsString)
  permissionScope : PermissionScope
  delegationPath : List JsString

/-- The text starts with `node:`. -/
def isNodeId (id : JsString) : Bool := id.take 5 = ofString "node:"

/-- `Array.prototype.lastIndexOf`. -/
def lastIndexOf? (items : List JsString) (item : JsString) : Option ℕ :=
  ((items.zipIdx.filter fun entry => entry.1 = item).getLast?).map Prod.snd

def calculateWorkOrderDelegationDepth (workOrder : WorkOrder) : ℕ :=
  let nodePath := workOrder.delegationPath.filter isNodeId
  match lastIndexOf? nodePath workOrder.toNodeId with
  | none => nodePath.length - 1
  | some targetIndex =>
    let originOffset :=
      if 1 < nodePath.length ∧ nodePath.head? ≠ some workOrder.toNodeId then 1 else 0
    targetIndex - originOffset

/-- The characters that stay in an id: letters, digits, `:`, `_` and `-`. -/
def keepsInId (unit : CodeUnit) : Bool :=
  (48 ≤ unit.val && unit.val ≤ 57) || (65 ≤ unit.val && unit.val ≤ 90) ||
    (97 ≤ unit.val && unit.val ≤ 122) || unit.val == 58 || unit.val == 95 || unit.val == 45

/-- Any other character becomes `_`. -/
def sanitizeId (id : JsString) : JsString :=
  id.map fun unit => if keepsInId unit then unit else codeUnit 95

def buildChildWorkOrderId (parentWorkOrder : WorkOrder) (childNodeId : JsString) : JsString :=
  parentWorkOrder.workOrderId ++ ofString ":child:" ++ sanitizeId childNodeId

def narrowPermissionScopeToChild (parentPermissionScope : PermissionScope)
    (childNode : CompiledNode) : PermissionScope where
  allowedToolIds := keepAmong childNode.allowedToolIds parentPermissionScope.allowedToolIds
  allowedSystemIds := keepAmong childNode.allowedSystemIds parentPermissionScope.allowedSystemIds
  dataDomainIds := parentPermissionScope.dataDomainIds

def appendDelegationPath (path : List JsString) (childNodeId : JsString) : List JsString :=
  if path.getLast? = some childNodeId then path else path ++ [childNodeId]

/-- The work order of a child, with the id that was given for it or one that is built. -/
def buildChildWorkOrder (parentWorkOrder : WorkOrder) (parentNodeId : JsString)
    (childNode : CompiledNode) (workOrderId : Option JsString) : WorkOrder where
  workOrderId := workOrderId.getD (buildChildWorkOrderId parentWorkOrder childNode.id)
  parentWorkOrderId := some parentWorkOrder.workOrderId
  fromNodeId := parentNodeId
  toNodeId := childNode.id
  permissionScope := narrowPermissionScopeToChild parentWorkOrder.permissionScope childNode
  delegationPath := appendDelegationPath parentWorkOrder.delegationPath childNode.id

/-! ## Plans -/

def defaultTopologyRuntimeMaxDelegationDepth : JsNumber := .ofNat 5

def normalizedMaxDelegationDepth (value : Option JsNumber) : JsNumber :=
  match value with
  | none => defaultTopologyRuntimeMaxDelegationDepth
  | some number =>
    if !number.isFinite || number.lt (.ofNat 0) then defaultTopologyRuntimeMaxDelegationDepth
    else number.floor

inductive DelegationPlanStatus
  | planned | partly | blocked | skipped
  deriving DecidableEq

inductive DelegationPlanIssueCode
  | parentNodeMissing | childNodeMissing | noDirectChildCandidates
  | grandchildDirectDelegationForbidden | notDirectChild | maxDelegationDepthExceeded

def DelegationPlanIssueCode.message : DelegationPlanIssueCode → String
  | parentNodeMissing => "Parent node is not present in compiled topology snapshot."
  | childNodeMissing => "Requested child node is not present in compiled topology snapshot."
  | noDirectChildCandidates => "Parent node has no direct child candidates to delegate."
  | grandchildDirectDelegationForbidden | notDirectChild =>
    "Topology runtime can delegate only to compiled direct child nodes."
  | maxDelegationDepthExceeded => "Delegation depth exceeds the topology runtime depth guard."

structure DelegationPlanIssue where
  code : DelegationPlanIssueCode
  parentNodeId : JsString
  childNodeId : Option JsString

structure PlannedChildWorkOrder where
  (parentNodeId childNodeId : JsString)
  workOrder : WorkOrder
  delegationDepth : ℕ

structure DelegationPlan where
  ok : Bool
  status : DelegationPlanStatus
  (parentNodeId parentWorkOrderId : JsString)
  (parentDelegationDepth childDelegationDepth : ℕ)
  maxDelegationDepth : JsNumber
  directChildCandidates : List CompiledNode
  childWorkOrders : List PlannedChildWorkOrder
  skipped : List DelegationPlanIssue

/-- What the caller says about the children of the node it starts. -/
structure ChildDelegationOptions where
  targetChildNodeIds : Option (List JsString)
  maxDelegationDepth : Option JsNumber
  childWorkOrderIdByNodeId : OrderedMap JsString JsString

def childDelegationOptionsForRecursiveChild (options : ChildDelegationOptions) :
    ChildDelegationOptions :=
  { options with targetChildNodeIds := none }

/-- A work order that a run creates, and how many delegations it is below the first one. -/
structure CreatedWorkOrder where
  hops : ℕ
  workOrder : WorkOrder

namespace RuntimeTopology

variable (topology : RuntimeTopology)

def compiledChildCandidates (nodeId : JsString) : List CompiledNode :=
  (childrenOf topology.snapshot.parentChildTree.edges nodeId).filterMap topology.nodeIndex.get?

def isDescendantButNotDirect (parentNodeId childNodeId : JsString) : Bool :=
  match topology.snapshot.delegationScopeMap.get? parentNodeId with
  | none => false
  | some scope =>
    isAmong scope.descendantNodeIds childNodeId && !isAmong scope.directChildNodeIds childNodeId

variable (options : ChildDelegationOptions) (parentNodeId : JsString)

/-- The children to plan for: those that are asked for, or else all of them. -/
def requestedChildNodeIds : List JsString :=
  options.targetChildNodeIds.getD
    ((topology.compiledChildCandidates parentNodeId).map CompiledNode.id)

/-- What is planned for one of the children, or why nothing is. -/
def planChild (parentWorkOrder : WorkOrder) (childNodeId : JsString) :
    Except DelegationPlanIssueCode PlannedChildWorkOrder :=
  let childDepth := calculateWorkOrderDelegationDepth parentWorkOrder + 1
  match topology.nodeIndex.get? childNodeId with
  | none => .error .childNodeMissing
  | some childNode =>
    if !isAmong ((topology.compiledChildCandidates parentNodeId).map CompiledNode.id)
        childNodeId then
      if topology.isDescendantButNotDirect parentNodeId childNodeId then
        .error .grandchildDirectDelegationForbidden
      else .error .notDirectChild
    else if (normalizedMaxDelegationDepth options.maxDelegationDepth).lt (.ofNat childDepth) then
      .error .maxDelegationDepthExceeded
    else
      .ok
        { parentNodeId
          childNodeId
          workOrder := buildChildWorkOrder parentWorkOrder parentNodeId childNode
            (options.childWorkOrderIdByNodeId.get? childNodeId)
          delegationDepth := childDepth }

def finalizePlan (statusWhenNoChild : DelegationPlanStatus) (options : ChildDelegationOptions)
    (parentNodeId : JsString) (parentWorkOrder : WorkOrder)
    (directChildCandidates : List CompiledNode) (childWorkOrders : List PlannedChildWorkOrder)
    (skipped : List DelegationPlanIssue) : DelegationPlan :=
  let status : DelegationPlanStatus :=
    if childWorkOrders ≠ [] ∧ skipped ≠ [] then .partly
    else if childWorkOrders ≠ [] then .planned
    else statusWhenNoChild
  { ok := !childWorkOrders.isEmpty || status = .skipped
    status
    parentNodeId
    parentWorkOrderId := parentWorkOrder.workOrderId
    parentDelegationDepth := calculateWorkOrderDelegationDepth parentWorkOrder
    childDelegationDepth := calculateWorkOrderDelegationDepth parentWorkOrder + 1
    maxDelegationDepth := normalizedMaxDelegationDepth options.maxDelegationDepth
    directChildCandidates
    childWorkOrders
    skipped }

def planChildDelegation (parentWorkOrder : WorkOrder) : DelegationPlan :=
  let candidates := topology.compiledChildCandidates parentNodeId
  let requested := topology.requestedChildNodeIds options parentNodeId
  if topology.nodeIndex.get? parentNodeId |>.isNone then
    finalizePlan .blocked options parentNodeId parentWorkOrder [] []
      [⟨.parentNodeMissing, parentNodeId, none⟩]
  else if requested = [] then
    finalizePlan .skipped options parentNodeId parentWorkOrder candidates []
      [⟨.noDirectChildCandidates, parentNodeId, none⟩]
  else
    finalizePlan .blocked options parentNodeId parentWorkOrder candidates
      (requested.filterMap fun childNodeId =>
        (topology.planChild options parentNodeId parentWorkOrder childNodeId).toOption)
      (requested.filterMap fun childNodeId =>
        match topology.planChild options parentNodeId parentWorkOrder childNodeId with
        | .error code => some ⟨code, parentNodeId, some childNodeId⟩
        | .ok _ => none)

/-! ## Runs -/

/-- The work orders that come of running one of them, with how many delegations below the
first of all they are. A node's work orders are all made before the first is dispatched, and
the children that the caller asked for are not handed on. -/
def createdWorkOrders (checks : WorkOrder → Bool) :
    ℕ → ℕ → ChildDelegationOptions → WorkOrder → List CreatedWorkOrder
  | 0, _, _, _ => []
  | fuel + 1, hops, options, workOrder =>
    if checks workOrder then
      let plan := topology.planChildDelegation options workOrder.toNodeId workOrder
      let planned := plan.childWorkOrders.map PlannedChildWorkOrder.workOrder
      planned.map (⟨hops + 1, ·⟩) ++
        planned.flatMap fun child => createdWorkOrders checks fuel (hops + 1)
          (childDelegationOptionsForRecursiveChild options) child
    else []

/-- The work orders of a whole run. No chain of delegations is longer than there are nodes. -/
def runWorkOrders (checks : WorkOrder → Bool) (options : ChildDelegationOptions)
    (workOrder : WorkOrder) : List CreatedWorkOrder :=
  topology.createdWorkOrders checks topology.nodeIndex.entries.length 0 options workOrder

end RuntimeTopology

/-! ## Chains of delegations

The chain to a work order is what its delegation path goes on with behind the first one's. -/

open List

/-! ## Depths -/

theorem lastIndexOf?_append_self (items : List JsString) (item : JsString) :
    lastIndexOf? (items ++ [item]) item = some items.length := by
  have hlast : [(item, items.length)].filter (fun entry : JsString × ℕ => entry.1 = item) =
      [(item, items.length)] := filter_cons_of_pos (decide_eq_true rfl)
  rw [lastIndexOf?, zipIdx_append, filter_append, Nat.zero_add, zipIdx_singleton,
    hlast, getLast?_concat]
  rfl

variable {items : List JsString} {item : JsString} {workOrder : WorkOrder} {child : JsString}
  {options : ChildDelegationOptions} {plans : WorkOrder → Prop}

theorem lastIndexOf?_of_not_mem (hitem : item ∉ items) : lastIndexOf? items item = none := by
  have hnone : items.zipIdx.filter (fun entry : JsString × ℕ => entry.1 = item) = [] := by
    refine filter_eq_nil_iff.mpr fun entry hentry hsame => ?_
    exact hitem (of_decide_eq_true hsame ▸ fst_mem_of_mem_zipIdx hentry)
  rw [lastIndexOf?, hnone]
  rfl

variable {before others : List JsString} {childNodeId : JsString} {chain : List JsString}

section

variable (hpath : workOrder.delegationPath = before ++ [workOrder.toNodeId])
include hpath

/-- The depth that is read off a path without repetitions leaves out its target and one more
of the nodes that are called nodes. -/
theorem depth_eq
    (hnodup : workOrder.delegationPath.Nodup) :
    calculateWorkOrderDelegationDepth workOrder = (before.filter isNodeId).length - 1 := by
  have hfresh : workOrder.toNodeId ∉ before.filter isNodeId := by
    intro hmem
    rw [hpath] at hnodup
    exact (nodup_append.mp hnodup).2.2 _ (mem_of_mem_filter hmem) _ (mem_singleton_self _) rfl
  unfold calculateWorkOrderDelegationDepth
  dsimp only
  rw [hpath, filter_append]
  by_cases htarget : isNodeId workOrder.toNodeId
  · rw [filter_cons_of_pos htarget, filter_nil, lastIndexOf?_append_self]
    cases hbefore : before.filter isNodeId with
    | nil => rfl
    | cons first rest =>
      have hfirst : first ≠ workOrder.toNodeId := by
        rintro rfl
        exact hfresh (hbefore ▸ mem_cons_self)
      rw [if_pos]
      exact ⟨by simp, fun hsame => hfirst (Option.some.inj hsame)⟩
  · rw [filter_cons_of_neg htarget, filter_nil, append_nil, lastIndexOf?_of_not_mem hfresh]

theorem depth_le
    (hnodup : workOrder.delegationPath.Nodup) :
    calculateWorkOrderDelegationDepth workOrder ≤ before.length - 1 := by
  rw [depth_eq hpath hnodup]
  exact Nat.sub_le_sub_right (length_filter_le _ _) 1

end

/-! ## What is planned -/

theorem keepAmong_cons_of_mem (hitem : item ∈ others) :
    keepAmong others (item :: items) = item :: keepAmong others items := by
  simp [keepAmong, hitem]

theorem keepAmong_cons_of_not_mem (hitem : item ∉ others) :
    keepAmong others (item :: items) = keepAmong others items := by
  simp [keepAmong, hitem]

namespace RuntimeTopology

variable (topology : RuntimeTopology)

/-- The node of the id, as it is looked up. -/
def nodeOf (nodeId : JsString) : CompiledNode := (topology.nodeIndex.get? nodeId).getD ⟨nodeId, [], []⟩

/-- The work order that a child gets. -/
def childOrder (options : ChildDelegationOptions) (workOrder : WorkOrder) (childNodeId : JsString) :
    WorkOrder :=
  buildChildWorkOrder workOrder workOrder.toNodeId (topology.nodeOf childNodeId)
    (options.childWorkOrderIdByNodeId.get? childNodeId)

/-- The children that are asked for and are children in the compiled graph. -/
def plannedChildNodeIds (options : ChildDelegationOptions) (nodeId : JsString) : List JsString :=
  keepAmong (childrenOf topology.snapshot.parentChildTree.edges nodeId)
    (topology.requestedChildNodeIds options nodeId)

/-- The guard of the depth lets nothing be planned. -/
def TooDeep (options : ChildDelegationOptions) (workOrder : WorkOrder) : Prop :=
  (normalizedMaxDelegationDepth options.maxDelegationDepth).lt
    (.ofNat (calculateWorkOrderDelegationDepth workOrder + 1))

instance (options : ChildDelegationOptions) (workOrder : WorkOrder) :
    Decidable (TooDeep options workOrder) := inferInstanceAs (Decidable (_ = true))

/-- Every child in the graph is a node that is found under its id. -/
structure Indexed : Prop where
  found : ∀ parent, ∀ child ∈ childrenOf topology.snapshot.parentChildTree.edges parent,
    ∃ node, topology.nodeIndex.get? child = some node ∧ node.id = child
  parents : ∀ parent, childrenOf topology.snapshot.parentChildTree.edges parent ≠ [] →
    (topology.nodeIndex.get? parent).isSome

variable {topology}

section

variable (h : topology.Indexed)
include h

theorem id_nodeOf {parent : JsString}
    (hchild : child ∈ childrenOf topology.snapshot.parentChildTree.edges parent) :
    (topology.nodeOf child).id = child := by
  obtain ⟨node, hnode, hid⟩ := h.found parent child hchild
  rw [nodeOf, hnode]
  exact hid

theorem ids_compiledChildCandidates (nodeId : JsString) :
    (topology.compiledChildCandidates nodeId).map CompiledNode.id =
      childrenOf topology.snapshot.parentChildTree.edges nodeId := by
  have hchildren (children : List JsString) (hfound : ∀ child ∈ children,
        ∃ node, topology.nodeIndex.get? child = some node ∧ node.id = child) :
      (children.filterMap topology.nodeIndex.get?).map CompiledNode.id = children := by
    induction children with
    | nil => rfl
    | cons child rest ih =>
      obtain ⟨node, hnode, hid⟩ := hfound child mem_cons_self
      rw [filterMap_cons_some hnode, map_cons, hid,
        ih fun other hother => hfound other (mem_cons_of_mem _ hother)]
  exact hchildren _ (h.found nodeId)

/-- A child of the graph gets its work order where the guard lets it. -/
theorem planChild_planned
    (hchild : childNodeId ∈ childrenOf topology.snapshot.parentChildTree.edges workOrder.toNodeId)
    (hdeep : ¬ TooDeep options workOrder) :
    (topology.planChild options workOrder.toNodeId workOrder childNodeId).toOption.map
        PlannedChildWorkOrder.workOrder =
      some (topology.childOrder options workOrder childNodeId) := by
  obtain ⟨node, hnode, -⟩ := h.found _ _ hchild
  have hamong : isAmong ((topology.compiledChildCandidates workOrder.toNodeId).map
      CompiledNode.id) childNodeId := by
    rw [ids_compiledChildCandidates h]
    exact isAmong_iff.mpr hchild
  simp only [planChild, hnode, hamong, childOrder, nodeOf]
  unfold TooDeep at hdeep
  rw [if_neg (by simp), if_neg hdeep]
  rfl

theorem planChild_skipped (hskipped : ¬ (childNodeId ∈
      childrenOf topology.snapshot.parentChildTree.edges workOrder.toNodeId ∧
        ¬ TooDeep options workOrder)) :
    (topology.planChild options workOrder.toNodeId workOrder childNodeId).toOption = none := by
  cases hnode : topology.nodeIndex.get? childNodeId with
  | none =>
    simp only [planChild, hnode]
    rfl
  | some node =>
    simp only [planChild, hnode, ids_compiledChildCandidates h]
    split_ifs with hamong hdescendant hdeep
    · rfl
    · rfl
    · rfl
    · refine absurd ⟨isAmong_iff.mp ?_, hdeep⟩ hskipped
      simpa using hamong

/-- The work orders that a plan has. -/
theorem childWorkOrders_eq (options : ChildDelegationOptions)
    (workOrder : WorkOrder) :
    (topology.planChildDelegation options workOrder.toNodeId workOrder).childWorkOrders.map
        PlannedChildWorkOrder.workOrder =
      if TooDeep options workOrder then []
      else (topology.plannedChildNodeIds options workOrder.toNodeId).map
        (topology.childOrder options workOrder) := by
  have hplanned (requested : List JsString) :
      (requested.filterMap fun child =>
          (topology.planChild options workOrder.toNodeId workOrder child).toOption).map
            PlannedChildWorkOrder.workOrder =
        if TooDeep options workOrder then []
        else (keepAmong (childrenOf topology.snapshot.parentChildTree.edges workOrder.toNodeId)
          requested).map (topology.childOrder options workOrder) := by
    induction requested with
    | nil => split_ifs <;> rfl
    | cons child rest ih =>
      by_cases hboth : child ∈
          childrenOf topology.snapshot.parentChildTree.edges workOrder.toNodeId ∧
            ¬ TooDeep options workOrder
      · obtain ⟨hchild, hdeep⟩ := hboth
        obtain ⟨planned, hsome, hworkOrder⟩ :=
          Option.map_eq_some_iff.mp (planChild_planned h hchild hdeep)
        rw [filterMap_cons]
        simp only [hsome]
        rw [map_cons, ih, if_neg hdeep, if_neg hdeep,
          hworkOrder, keepAmong_cons_of_mem hchild, map_cons]
      · rw [filterMap_cons]
        simp only [planChild_skipped h hboth]
        rw [ih]
        by_cases hdeep : TooDeep options workOrder
        · rw [if_pos hdeep, if_pos hdeep]
        · have hchild : child ∉
              childrenOf topology.snapshot.parentChildTree.edges workOrder.toNodeId :=
            fun hmem => hboth ⟨hmem, hdeep⟩
          rw [if_neg hdeep, if_neg hdeep, keepAmong_cons_of_not_mem hchild]
  have hempty (hnone : topology.plannedChildNodeIds options workOrder.toNodeId = []) :
      (if TooDeep options workOrder then []
        else (topology.plannedChildNodeIds options workOrder.toNodeId).map
          (topology.childOrder options workOrder)) = [] := by
    rw [hnone]
    split_ifs <;> rfl
  by_cases hparent : (topology.nodeIndex.get? workOrder.toNodeId).isNone
  · have hchildren : childrenOf topology.snapshot.parentChildTree.edges workOrder.toNodeId = [] := by
      by_contra hsome
      have hfound := h.parents _ hsome
      rw [Option.isNone_iff_eq_none.mp hparent] at hfound
      cases hfound
    rw [hempty (by rw [plannedChildNodeIds, hchildren]; simp [keepAmong])]
    simp only [planChildDelegation, if_pos hparent]
    rfl
  · by_cases hrequested : topology.requestedChildNodeIds options workOrder.toNodeId = []
    · rw [hempty (by rw [plannedChildNodeIds, hrequested]; rfl)]
      simp only [planChildDelegation, if_neg hparent, if_pos hrequested]
      rfl
    · simp only [planChildDelegation, if_neg hparent, if_neg hrequested]
      exact hplanned _

end

/-! ## Chains -/

section Chains

variable (topology)

/-- The work order at the end of a chain of delegations. -/
def orderAlong (options : ChildDelegationOptions) (workOrder : WorkOrder)
    (chain : List JsString) : WorkOrder := chain.foldl (topology.childOrder options) workOrder

/-- From a work order the chain is followed: every work order on the way lets its node plan,
and the node that comes next is one of the children it plans for. -/
def Follows (plans : WorkOrder → Prop) : ChildDelegationOptions → WorkOrder → List JsString → Prop
  | _, _, [] => True
  | options, workOrder, child :: rest =>
    plans workOrder ∧ child ∈ topology.plannedChildNodeIds options workOrder.toNodeId ∧
      Follows plans (childDelegationOptionsForRecursiveChild options)
        (topology.childOrder options workOrder child) rest

/-- The node comes to planning, and the guard lets it plan. -/
def Plans (checks : WorkOrder → Bool) (options : ChildDelegationOptions) (workOrder : WorkOrder) :
    Prop := checks workOrder ∧ ¬ TooDeep options workOrder

variable {topology}

theorem delegates_of_planned {nodeId : JsString}
    (hchild : child ∈ topology.plannedChildNodeIds options nodeId) :
    Delegates topology.snapshot.parentChildTree nodeId child := (mem_keepAmong.mp hchild).2

theorem Follows.mono {others : WorkOrder → Prop}
    (hplans : ∀ workOrder, plans workOrder → others workOrder)
    (hfollows : topology.Follows plans options workOrder chain) :
    topology.Follows others options workOrder chain := by
  induction chain generalizing options workOrder with
  | nil => exact trivial
  | cons child rest ih =>
    obtain ⟨hplan, hchild, hrest⟩ := hfollows
    exact ⟨hplans _ hplan, hchild, ih hrest⟩

/-- A chain that is followed is followed up to any of its nodes, and from there on. -/
theorem follows_append {front : List JsString} {rest : List JsString}
    (hfollows : topology.Follows plans options workOrder (front ++ child :: rest)) :
    topology.Follows plans options workOrder front ∧
      plans (topology.orderAlong options workOrder front) ∧
        Delegates topology.snapshot.parentChildTree
          (topology.orderAlong options workOrder front).toNodeId child := by
  induction front generalizing options workOrder with
  | nil => exact ⟨trivial, hfollows.1, delegates_of_planned hfollows.2.1⟩
  | cons next front ih =>
    obtain ⟨hplan, hchild, hrest⟩ := hfollows
    obtain ⟨hfront, hlast, hdelegates⟩ := ih hrest
    exact ⟨⟨hplan, hchild, hfront⟩, hlast, hdelegates⟩

theorem toNodeId_childOrder (h : topology.Indexed)
    (hchild : Delegates topology.snapshot.parentChildTree workOrder.toNodeId child) :
    (topology.childOrder options workOrder child).toNodeId = child := id_nodeOf h hchild

/-- The tree has no cycles and under no node a child twice. -/
structure Ordered (topology : RuntimeTopology) : Prop extends topology.Indexed where
  acyclic : ∀ node, ¬ Relation.TransGen (Delegates topology.snapshot.parentChildTree) node node
  distinct : ∀ node, (childrenOf topology.snapshot.parentChildTree.edges node).Nodup

/-- The path of a work order ends at its target. -/
def EndsAtTarget (workOrder : WorkOrder) : Prop :=
  ∃ before, workOrder.delegationPath = before ++ [workOrder.toNodeId]

section

variable (h : topology.Ordered) (hends : EndsAtTarget workOrder)
  (hchild : Delegates topology.snapshot.parentChildTree workOrder.toNodeId child)
include h hends hchild

theorem delegationPath_childOrder :
    (topology.childOrder options workOrder child).delegationPath =
      workOrder.delegationPath ++ [child] := by
  obtain ⟨before, hpath⟩ := hends
  have hid : (topology.nodeOf child).id = child := id_nodeOf h.toIndexed hchild
  have hother : workOrder.toNodeId ≠ child := by
    intro hsame
    exact h.acyclic child (.single (hsame ▸ hchild))
  have happend : appendDelegationPath workOrder.delegationPath child =
      workOrder.delegationPath ++ [child] := by
    rw [appendDelegationPath, if_neg]
    rw [hpath, getLast?_concat]
    exact fun hsame => hother (Option.some.inj hsame)
  rw [← happend]
  exact congrArg (appendDelegationPath workOrder.delegationPath) hid

theorem endsAtTarget_childOrder :
    EndsAtTarget (topology.childOrder options workOrder child) :=
  ⟨_, by rw [delegationPath_childOrder h hends hchild, toNodeId_childOrder h.toIndexed hchild]⟩

end

/-- Along a chain the path goes on with the chain. -/
theorem delegationPath_orderAlong (h : topology.Ordered) (hends : EndsAtTarget workOrder)
    (hfollows : topology.Follows plans options workOrder chain) :
    (topology.orderAlong options workOrder chain).delegationPath =
        workOrder.delegationPath ++ chain ∧
      EndsAtTarget (topology.orderAlong options workOrder chain) ∧
        (workOrder.toNodeId :: chain).IsChain (Delegates topology.snapshot.parentChildTree) := by
  induction chain generalizing options workOrder with
  | nil => exact ⟨(append_nil _).symm, hends, isChain_singleton _⟩
  | cons child rest ih =>
    obtain ⟨-, hmem, hrest⟩ := hfollows
    have hchild := delegates_of_planned hmem
    obtain ⟨hpath, hlast, hsteps⟩ := ih (endsAtTarget_childOrder h hends hchild) hrest
    rw [delegationPath_childOrder h hends hchild, append_assoc] at hpath
    rw [toNodeId_childOrder h.toIndexed hchild] at hsteps
    exact ⟨hpath, hlast, isChain_cons_cons.mpr ⟨hchild, hsteps⟩⟩

end Chains

end RuntimeTopology

/-! ## Delegation laws

How deep a work order is comes out one less than the delegations that lead to it, or still less
where ids are not written as those of nodes. -/

variable {created : CreatedWorkOrder}

namespace RuntimeTopology

variable {topology : RuntimeTopology} {checks : WorkOrder → Bool}
  {options : ChildDelegationOptions} {workOrder : WorkOrder}

/-! ## The work orders of a run -/

theorem createdWorkOrders_succ (h : topology.Indexed) (fuel hops : ℕ) :
    topology.createdWorkOrders checks (fuel + 1) hops options workOrder =
      if checks workOrder ∧ ¬ TooDeep options workOrder then
        let planned := (topology.plannedChildNodeIds options workOrder.toNodeId).map
          (topology.childOrder options workOrder)
        planned.map (⟨hops + 1, ·⟩) ++
          planned.flatMap fun child => topology.createdWorkOrders checks fuel (hops + 1)
            (childDelegationOptionsForRecursiveChild options) child
      else [] := by
  simp only [createdWorkOrders, childWorkOrders_eq h]
  by_cases hchecks : checks workOrder
  · by_cases hdeep : TooDeep options workOrder
    · rw [if_pos hchecks, if_pos hdeep, if_neg fun hboth => hboth.2 hdeep]
      rfl
    · rw [if_pos hchecks, if_neg hdeep, if_pos ⟨hchecks, hdeep⟩]
  · rw [if_neg hchecks, if_neg fun hboth => hchecks hboth.1]

/-- Each is at the end of a chain that the run follows. -/
theorem mem_createdWorkOrders (h : topology.Indexed) {fuel hops : ℕ} :
    created ∈ topology.createdWorkOrders checks fuel hops options workOrder ↔
      ∃ chain, chain ≠ [] ∧ chain.length ≤ fuel ∧
        topology.Follows (Plans checks options) options workOrder chain ∧
          created = ⟨hops + chain.length, topology.orderAlong options workOrder chain⟩ := by
  induction fuel generalizing hops options workOrder created with
  | zero =>
    refine iff_of_false not_mem_nil ?_
    rintro ⟨chain, hchain, hlength, -⟩
    exact hchain (length_eq_zero_iff.mp (Nat.le_zero.mp hlength))
  | succ fuel ih =>
    rw [createdWorkOrders_succ h]
    constructor
    · intro hmem
      split_ifs at hmem with hplans
      · obtain hnow | hlater := mem_append.mp hmem
        · obtain ⟨order, horder, rfl⟩ := mem_map.mp hnow
          obtain ⟨child, hchild, rfl⟩ := mem_map.mp horder
          exact ⟨[child], cons_ne_nil _ _, by simp, ⟨hplans, hchild, trivial⟩, rfl⟩
        · obtain ⟨order, horder, hbelow⟩ := mem_flatMap.mp hlater
          obtain ⟨child, hchild, rfl⟩ := mem_map.mp horder
          obtain ⟨chain, -, hlength, hfollows, rfl⟩ := ih.mp hbelow
          refine ⟨child :: chain, cons_ne_nil _ _, Nat.succ_le_succ hlength,
            ⟨hplans, hchild, hfollows⟩, ?_⟩
          rw [length_cons, Nat.add_assoc, Nat.add_comm 1]
          rfl
      · cases hmem
    · rintro ⟨chain, hchain, hlength, hfollows, rfl⟩
      obtain ⟨child, rest, rfl⟩ := exists_cons_of_ne_nil hchain
      obtain ⟨⟨hchecks, hdeep⟩, hchild, hrest⟩ := hfollows
      rw [if_pos ⟨hchecks, hdeep⟩]
      refine mem_append.mpr ?_
      cases rest with
      | nil => exact .inl (mem_map_of_mem (mem_map_of_mem hchild))
      | cons next rest =>
        refine .inr (mem_flatMap.mpr ⟨_, mem_map_of_mem hchild, ih.mpr
          ⟨next :: rest, cons_ne_nil _ _, Nat.le_of_succ_le_succ hlength, hrest, ?_⟩⟩)
        rw [length_cons (a := child), Nat.add_assoc, Nat.add_comm 1]
        rfl

section

variable (h : topology.Ordered)
include h

/-- A chain has no more delegations than there are nodes. -/
theorem length_le_of_follows {plans : WorkOrder → Prop}
    {chain : List JsString} (hends : EndsAtTarget workOrder)
    (hfollows : topology.Follows plans options workOrder chain) :
    chain.length ≤ topology.nodeIndex.entries.length := by
  obtain ⟨-, -, hsteps⟩ := delegationPath_orderAlong h hends hfollows
  have hnodup : (workOrder.toNodeId :: chain).Nodup := nodup_of_isChain h.acyclic hsteps
  have hfound : ∀ child ∈ chain, child ∈ topology.nodeIndex.keys := by
    intro child hchild
    obtain ⟨front, rest, rfl⟩ := append_of_mem hchild
    obtain ⟨node, hnode, -⟩ := h.found _ child (follows_append hfollows).2.2
    exact (OrderedMap.mem_keys_iff _ _).mpr ⟨node, hnode⟩
  have hlength := ((nodup_cons.mp hnodup).2.subperm hfound).length_le
  rwa [OrderedMap.keys, length_map] at hlength

/-- A run has all the work orders there are. -/
theorem mem_runWorkOrders (hends : EndsAtTarget workOrder) :
    created ∈ topology.runWorkOrders checks options workOrder ↔
      ∃ chain, chain ≠ [] ∧ topology.Follows (Plans checks options) options workOrder chain ∧
        created = ⟨chain.length, topology.orderAlong options workOrder chain⟩ := by
  rw [runWorkOrders, mem_createdWorkOrders h.toIndexed]
  constructor
  · rintro ⟨chain, hchain, -, hfollows, rfl⟩
    exact ⟨chain, hchain, hfollows, by rw [Nat.zero_add]⟩
  · rintro ⟨chain, hchain, hfollows, rfl⟩
    exact ⟨chain, hchain, length_le_of_follows h hends hfollows, hfollows, by rw [Nat.zero_add]⟩

/-! ## Paths tell the work orders apart -/

theorem nodup_plannedChildNodeIds (nodeId : JsString) :
    (topology.plannedChildNodeIds (childDelegationOptionsForRecursiveChild options) nodeId).Nodup := by
  have hrequested : topology.requestedChildNodeIds
      (childDelegationOptionsForRecursiveChild options) nodeId =
        childrenOf topology.snapshot.parentChildTree.edges nodeId :=
    ids_compiledChildCandidates h.toIndexed nodeId
  rw [plannedChildNodeIds, hrequested]
  exact (h.distinct nodeId).filter _

theorem delegationPath_of_mem_createdWorkOrders {fuel hops : ℕ}
    (hends : EndsAtTarget workOrder)
    (hcreated : created ∈ topology.createdWorkOrders checks fuel hops options workOrder) :
    ∃ chain, chain ≠ [] ∧ created.workOrder.delegationPath = workOrder.delegationPath ++ chain := by
  obtain ⟨chain, hchain, -, hfollows, rfl⟩ := (mem_createdWorkOrders h.toIndexed).mp hcreated
  exact ⟨chain, hchain, (delegationPath_orderAlong h hends hfollows).1⟩

theorem nodup_delegationPaths (fuel hops : ℕ)
    (hends : EndsAtTarget workOrder)
    (hdistinct : (topology.plannedChildNodeIds options workOrder.toNodeId).Nodup) :
    ((topology.createdWorkOrders checks fuel hops options workOrder).map
      fun created => created.workOrder.delegationPath).Nodup := by
  induction fuel generalizing hops options workOrder with
  | zero => exact .nil
  | succ fuel ih =>
    rw [createdWorkOrders_succ h.toIndexed]
    split_ifs
    · have hpath {child : JsString}
          (hchild : child ∈ topology.plannedChildNodeIds options workOrder.toNodeId) :
          (topology.childOrder options workOrder child).delegationPath =
              workOrder.delegationPath ++ [child] ∧
            EndsAtTarget (topology.childOrder options workOrder child) :=
        ⟨delegationPath_childOrder h hends (delegates_of_planned hchild),
          endsAtTarget_childOrder h hends (delegates_of_planned hchild)⟩
      rw [map_append, map_map, map_map, map_flatMap, flatMap_map]
      refine nodup_append.mpr ⟨?_, ?_, ?_⟩
      · refine List.Nodup.map_on (fun first hfirst second hsecond hsame => ?_) hdistinct
        have hpaths : workOrder.delegationPath ++ [first] = workOrder.delegationPath ++ [second] :=
          (hpath hfirst).1.symm.trans (Eq.trans hsame (hpath hsecond).1)
        exact (List.cons.inj (append_cancel_left hpaths)).1
      · refine nodup_flatMap.mpr ⟨fun child hchild => ?_, ?_⟩
        · exact ih (hops + 1) (hpath hchild).2 (nodup_plannedChildNodeIds h _)
        · refine hdistinct.imp_of_mem ?_
          rintro first second hfirst hsecond hne path hbelowFirst hbelowSecond
          obtain ⟨one, hone, rfl⟩ := mem_map.mp hbelowFirst
          obtain ⟨other, hother, hsame⟩ := mem_map.mp hbelowSecond
          obtain ⟨chain, -, hchain⟩ :=
            delegationPath_of_mem_createdWorkOrders h (hpath hfirst).2 hone
          obtain ⟨chain', -, hchain'⟩ :=
            delegationPath_of_mem_createdWorkOrders h (hpath hsecond).2 hother
          rw [hchain, hchain', (hpath hfirst).1, (hpath hsecond).1, append_assoc,
            append_assoc] at hsame
          exact hne (List.cons.inj (append_cancel_left hsame)).1.symm
      · rintro first hfirst second hsecond rfl
        obtain ⟨child, hchild, hnow⟩ := mem_map.mp hfirst
        obtain ⟨parent, hparent, hlater⟩ := mem_flatMap.mp hsecond
        obtain ⟨created, hcreated, hsame⟩ := mem_map.mp hlater
        obtain ⟨chain, hchain, hlonger⟩ :=
          delegationPath_of_mem_createdWorkOrders h (hpath hparent).2 hcreated
        have hlengths := congrArg List.length (hsame.trans hnow.symm)
        simp only [Function.comp_apply, hlonger, (hpath hparent).1, (hpath hchild).1,
          length_append, length_singleton] at hlengths
        have hpositive := length_pos_iff.mpr hchain
        omega
    · exact .nil

end

end RuntimeTopology

/-! ## Ids of delegated work orders

Where given ids stand for one chain each and none goes on where another ends, the id of a work
order tells the chain that leads to it. -/

open JsString

/-- The sign that the mark between the parts of an id begins and ends with. -/
def markSign : CodeUnit := codeUnit 58

def markName : JsString := ofString "child"

theorem markSign_notMem_markName : markSign ∉ markName := by decide +kernel

theorem stem_mark : MarkedWords.stem markSign markName = ofString ":child" := by decide +kernel

/-- Neither id is the other or goes on where the other ends as a built one would. -/
def Apart (first second : JsString) : Prop :=
  first ≠ second ∧ ¬ first ++ ofString ":child" <+: second ∧ ¬ second ++ ofString ":child" <+: first

variable {first second front : List JsString}

theorem not_apart {left right : JsString}
    (hsame : left ++ MarkedWords.write markSign markName first =
      right ++ MarkedWords.write markSign markName second) : ¬ Apart left right := by
  rintro ⟨hother, hleft, hright⟩
  obtain heq | hbegins | hbegins := MarkedWords.base_eq_or_initial markSign_notMem_markName hsame
  · exact hother heq
  · exact hleft (stem_mark ▸ hbegins)
  · exact hright (stem_mark ▸ hbegins)

theorem Apart.symm {first second : JsString} (h : Apart first second) : Apart second first :=
  ⟨h.1.symm, h.2.2, h.2.1⟩

namespace RuntimeTopology

/-- What is asked of the ids that a run meets, on the chains that its checks let through:
no child is asked for twice, siblings without given ids still differ once they are
sanitized and have no mark in them, a given id stands for one chain, and the given ids and
that of the first work order are apart. -/
structure TellingIds (topology : RuntimeTopology) (plans : WorkOrder → Prop)
    (options : ChildDelegationOptions) (workOrder : WorkOrder) : Prop where
  targets : (topology.plannedChildNodeIds options workOrder.toNodeId).Nodup
  siblings : ∀ front first second,
    topology.Follows plans options workOrder (front ++ [first]) →
    topology.Follows plans options workOrder (front ++ [second]) →
    options.childWorkOrderIdByNodeId.get? first = none →
    options.childWorkOrderIdByNodeId.get? second = none →
    sanitizeId first = sanitizeId second → first = second
  unmarked : ∀ front node, topology.Follows plans options workOrder (front ++ [node]) →
    options.childWorkOrderIdByNodeId.get? node = none →
    ¬ JsString.ofString ":child" <:+: sanitizeId node
  givenOnce : ∀ first second node given,
    options.childWorkOrderIdByNodeId.get? node = some given →
    topology.Follows plans options workOrder (first ++ [node]) →
    topology.Follows plans options workOrder (second ++ [node]) → first = second
  givenApart : ∀ first second node other given given',
    options.childWorkOrderIdByNodeId.get? node = some given →
    options.childWorkOrderIdByNodeId.get? other = some given' →
    topology.Follows plans options workOrder (first ++ [node]) →
    topology.Follows plans options workOrder (second ++ [other]) → node ≠ other →
    Apart given given'
  entryApart : ∀ front node given, options.childWorkOrderIdByNodeId.get? node = some given →
    topology.Follows plans options workOrder (front ++ [node]) →
    Apart workOrder.workOrderId given

variable {topology : RuntimeTopology} {plans : WorkOrder → Prop}
  {options : ChildDelegationOptions} {workOrder : WorkOrder}

theorem Follows.of_initial (hbegins : first <+: second)
    (hfollows : topology.Follows plans options workOrder second) :
    topology.Follows plans options workOrder first := by
  obtain ⟨rest, rfl⟩ := hbegins
  cases rest with
  | nil => rwa [append_nil] at hfollows
  | cons child rest => exact (follows_append hfollows).1

theorem orderAlong_concat (front : List JsString) (node : JsString) :
    topology.orderAlong options workOrder (front ++ [node]) =
      topology.childOrder options (topology.orderAlong options workOrder front) node := by
  rw [orderAlong, foldl_concat]
  rfl

/-- Behind a chain whose nodes have no given ids the parts of the id stand behind marks. -/
theorem workOrderId_orderAlong (h : topology.Indexed) {rest : List JsString}
    (hfollows : topology.Follows plans options workOrder (front ++ rest))
    (hbuilt : ∀ node ∈ rest, options.childWorkOrderIdByNodeId.get? node = none) :
    (topology.orderAlong options workOrder (front ++ rest)).workOrderId =
      (topology.orderAlong options workOrder front).workOrderId ++
        MarkedWords.write markSign markName (rest.map sanitizeId) := by
  induction rest generalizing front with
  | nil => rw [append_nil, map_nil, MarkedWords.write, flatMap_nil, append_nil]
  | cons node rest ih =>
    have hnode := (follows_append hfollows).2.2
    rw [append_cons] at hfollows ⊢
    rw [ih hfollows fun other hother => hbuilt other (mem_cons_of_mem _ hother),
      orderAlong_concat, childOrder, hbuilt node mem_cons_self, buildChildWorkOrder]
    rw [Option.getD_none, buildChildWorkOrderId, id_nodeOf h hnode, map_cons]
    simp only [MarkedWords.write, flatMap_cons, append_assoc]
    rfl

/-- The id of a work order is built behind the last given one, or behind the first. -/
theorem exists_base (chain : List JsString) :
    ∃ front rest, chain = front ++ rest ∧
      (∀ node ∈ rest, options.childWorkOrderIdByNodeId.get? node = none) ∧
        (front = [] ∨ ∃ before node given, front = before ++ [node] ∧
          options.childWorkOrderIdByNodeId.get? node = some given ∧
            (topology.orderAlong options workOrder front).workOrderId = given) := by
  induction chain using List.reverseRecOn with
  | nil => exact ⟨[], [], rfl, nofun, .inl rfl⟩
  | append_singleton chain node ih =>
    cases hgiven : options.childWorkOrderIdByNodeId.get? node with
    | some given =>
      refine ⟨chain ++ [node], [], (append_nil _).symm, nofun,
        .inr ⟨chain, node, given, rfl, hgiven, ?_⟩⟩
      rw [orderAlong_concat, childOrder, hgiven]
      rfl
    | none =>
      obtain ⟨front, rest, rfl, hbuilt, hfront⟩ := ih
      refine ⟨front, rest ++ [node], append_assoc .., fun other hother => ?_, hfront⟩
      obtain hrest | hlast := mem_append.mp hother
      · exact hbuilt other hrest
      · exact mem_singleton.mp hlast ▸ hgiven

namespace TellingIds

variable (ids : topology.TellingIds plans options workOrder)

include ids

theorem rest_eq (hfirst : topology.Follows plans options workOrder (front ++ first))
    (hsecond : topology.Follows plans options workOrder (front ++ second))
    (hbuiltFirst : ∀ node ∈ first, options.childWorkOrderIdByNodeId.get? node = none)
    (hbuiltSecond : ∀ node ∈ second, options.childWorkOrderIdByNodeId.get? node = none)
    (hsame : first.map sanitizeId = second.map sanitizeId) : first = second := by
  induction first generalizing front second with
  | nil => exact (map_eq_nil_iff.mp hsame.symm).symm
  | cons node rest ih =>
    cases second with
    | nil => exact map_eq_nil_iff.mp hsame
    | cons other others =>
      obtain ⟨hnode, hrest⟩ := List.cons.inj hsame
      rw [append_cons] at hfirst hsecond
      obtain rfl : node = other := ids.siblings front node other
        (hfirst.of_initial (prefix_append _ _)) (hsecond.of_initial (prefix_append _ _))
        (hbuiltFirst node mem_cons_self) (hbuiltSecond other mem_cons_self) hnode
      rw [ih hfirst hsecond (fun found hfound => hbuiltFirst found (mem_cons_of_mem _ hfound))
        (fun found hfound => hbuiltSecond found (mem_cons_of_mem _ hfound)) hrest]

theorem unmarked_of_mem {rest : List JsString}
    (hfollows : topology.Follows plans options workOrder (front ++ rest))
    (hbuilt : ∀ node ∈ rest, options.childWorkOrderIdByNodeId.get? node = none) :
    ∀ word ∈ rest.map sanitizeId, ¬ MarkedWords.stem markSign markName <:+: word := by
  intro word hword
  obtain ⟨node, hnode, rfl⟩ := mem_map.mp hword
  obtain ⟨before, after, rfl⟩ := append_of_mem hnode
  rw [stem_mark]
  refine ids.unmarked (front ++ before) node (hfollows.of_initial ?_) (hbuilt node hnode)
  exact ⟨after, by simp⟩

/-- What is built behind one base tells the chain. -/
theorem chain_eq_of_front (h : topology.Indexed)
    (hfirst : topology.Follows plans options workOrder (front ++ first))
    (hsecond : topology.Follows plans options workOrder (front ++ second))
    (hbuiltFirst : ∀ node ∈ first, options.childWorkOrderIdByNodeId.get? node = none)
    (hbuiltSecond : ∀ node ∈ second, options.childWorkOrderIdByNodeId.get? node = none)
    (hsame : (topology.orderAlong options workOrder (front ++ first)).workOrderId =
      (topology.orderAlong options workOrder (front ++ second)).workOrderId) : first = second := by
  rw [workOrderId_orderAlong h hfirst hbuiltFirst,
    workOrderId_orderAlong h hsecond hbuiltSecond] at hsame
  refine ids.rest_eq hfirst hsecond hbuiltFirst hbuiltSecond ?_
  exact MarkedWords.write_injOn markSign_notMem_markName
    (ids.unmarked_of_mem hfirst hbuiltFirst) (ids.unmarked_of_mem hsecond hbuiltSecond)
    (append_cancel_left hsame)

/-- Different chains lead to different ids. -/
theorem chain_eq (h : topology.Indexed) (hfirst : topology.Follows plans options workOrder first)
    (hsecond : topology.Follows plans options workOrder second)
    (hsame : (topology.orderAlong options workOrder first).workOrderId =
      (topology.orderAlong options workOrder second).workOrderId) : first = second := by
  obtain ⟨front, rest, rfl, hbuilt, hfront⟩ := @exists_base topology options workOrder first
  obtain ⟨front', rest', rfl, hbuilt', hfront'⟩ := @exists_base topology options workOrder second
  have hids := hsame
  rw [workOrderId_orderAlong h hfirst hbuilt, workOrderId_orderAlong h hsecond hbuilt'] at hids
  have hbases : front = front' := by
    obtain rfl | ⟨before, node, given, rfl, hgiven, hbase⟩ := hfront <;>
      obtain rfl | ⟨before', other, given', rfl, hgiven', hbase'⟩ := hfront'
    · rfl
    · rw [hbase'] at hids
      exact absurd (ids.entryApart before' other given' hgiven'
        (hsecond.of_initial (prefix_append _ _))) (not_apart hids)
    · rw [hbase] at hids
      exact absurd (ids.entryApart before node given hgiven
        (hfirst.of_initial (prefix_append _ _))).symm (not_apart hids)
    · rw [hbase, hbase'] at hids
      have hreached := hfirst.of_initial (prefix_append _ _)
      have hreached' := hsecond.of_initial (prefix_append _ _)
      by_cases hnode : node = other
      · subst hnode
        rw [ids.givenOnce before before' node given hgiven hreached hreached']
      · exact absurd (ids.givenApart before before' node other given given' hgiven hgiven'
          hreached hreached' hnode) (not_apart hids)
  subst hbases
  rw [ids.chain_eq_of_front h hfirst hsecond hbuilt hbuilt' hsame]

end TellingIds

end RuntimeTopology

end Nobie.Enterprise
