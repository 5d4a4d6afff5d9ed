/-
# What archiving revokes

The editor deletes a node or a relation by archiving it. The compiler reads relations without
their status, so an archived relation counts until nothing depends on it. Compared are the
indexes of a topology with those of the topology without the relations that are archived or
have an archived node at one end.
-/

import Nobie.Enterprise.CompiledGraph

namespace Nobie.Enterprise

open Foundation List

/-! ## Revoked relations -/

variable (topology : EnterpriseTopology) (index : AuthorityScopeIndex)

def isArchivedNode (reference : EnterpriseEntityRef) : Bool :=
  reference.entityType = .node &&
    topology.nodes.any fun node => node.id = reference.id && node.status = .archived

/-- The relation is archived, or leads from or to an archived node. -/
def isRevoked (relation : EnterpriseRelation) : Bool :=
  relation.status = .archived || isArchivedNode topology relation.source ||
    isArchivedNode topology relation.target

def withoutRevoked : EnterpriseTopology :=
  { topology with
    relations := topology.relations.filter fun relation => !isRevoked topology relation }

variable {relation : EnterpriseRelation} {node : NodeContract} {nodeId found : JsString}

variable {topology : EnterpriseTopology} {relations : List EnterpriseRelation}
  {target : EnterpriseEntityRef}

theorem mem_withoutRevoked :
    relation ∈ (withoutRevoked topology).relations ↔
      relation ∈ topology.relations ∧ isRevoked topology relation = false := by
  unfold withoutRevoked
  rw [mem_filter, Bool.not_eq_true']

/-- The indexes are those of the topology without the revoked relations. -/
structure ArchivingRevokes (topology : EnterpriseTopology)
    (snapshot : CompiledTopologySnapshot) : Prop where
  edges : ∀ node ∈ topology.nodes, childrenOf snapshot.parentChildTree.edges node.id =
    childrenOf (compiledSnapshot (withoutRevoked topology)).parentChildTree.edges node.id
  delegationScopes : ∀ node ∈ topology.nodes, snapshot.delegationScopeMap.get? node.id =
    (compiledSnapshot (withoutRevoked topology)).delegationScopeMap.get? node.id
  toolScopes : ∀ node ∈ topology.nodes, snapshot.toolScopeIndex.get? node.id =
    (compiledSnapshot (withoutRevoked topology)).toolScopeIndex.get? node.id
  authorityScopes : ∀ target, snapshot.authorityScopeIndex.get? target =
    (compiledSnapshot (withoutRevoked topology)).authorityScopeIndex.get? target

/-! ## What a revoked relation can count for -/

/-- The nodes a node delegates to, as its relations name them or, where nothing is said of
delegation at all, as its children are listed. -/
def delegatedChildren (topology : EnterpriseTopology) (node : NodeContract) : List JsString :=
  if topology.relations.filter isDelegation = [] then node.children
  else (topology.relations.filter fun relation =>
    isDelegation relation && relation.source.id = node.id).map fun relation => relation.target.id

/-- The relation gives a node a tool or a system. -/
def grantsAccess (relation : EnterpriseRelation) : Bool :=
  relation.source.entityType = .node &&
    match relation.relationType, relation.target.entityType with
    | .usesTool, .enterpriseTool => true
    | .usesSystem, .enterpriseSystem => true
    | .hasAccessTo, .enterpriseTool => true
    | .hasAccessTo, .enterpriseSystem => true
    | _, _ => false

/-- No revoked relation changes what is compiled. -/
structure NothingRevokedCounts (topology : EnterpriseTopology) : Prop where
  delegation : ∀ node ∈ topology.nodes, keepFirst id [] (delegatedChildren topology node) =
    keepFirst id [] (delegatedChildren (withoutRevoked topology) node)
  access : ∀ relation ∈ topology.relations, isRevoked topology relation →
    grantsAccess relation = false
  approvals : ∀ relation ∈ topology.relations, isRevoked topology relation →
    relation.relationType ≠ .approves

/-! ## Delegation -/

theorem foldl_addUnique {A : Type} [DecidableEq A] (values items : List A) :
    items.foldl addUnique values = values ++ keepFirst id values items := by
  induction items generalizing values with
  | nil => exact (append_nil values).symm
  | cons item rest ih =>
    rw [foldl_cons, ih, addUnique, keepFirst, id]
    split_ifs with hmem
    · rfl
    · have hsame : keepFirst id (values ++ [item]) rest = keepFirst id (item :: values) rest :=
        keepFirst_congr (fun found => by simp [or_comm]) rest
      rw [hsame, append_assoc]
      rfl

theorem filter_flatMap_children {nodes : List NodeContract} (hdistinct : (nodes.map (·.id)).Nodup)
    (hnode : node ∈ nodes) :
    ((nodes.flatMap fun node => node.children.map fun child => (node.id, child)).filter
      fun pair => pair.1 = node.id).map Prod.snd = node.children := by
  induction nodes with
  | nil => cases hnode
  | cons first rest ih =>
    obtain ⟨hfirst, hrest⟩ := nodup_cons.mp hdistinct
    have hown (children : List JsString) : ((children.map fun child => (node.id, child)).filter
        fun pair => pair.1 = node.id).map Prod.snd = children := by
      simp [filter_map, Function.comp_def]
    rw [flatMap_cons, filter_append, map_append]
    obtain rfl | hmem := mem_cons.mp hnode
    · have hnone : (rest.flatMap fun other => other.children.map fun child =>
          (other.id, child)).filter (fun pair => pair.1 = node.id) = [] := by
        refine filter_eq_nil_iff.mpr fun pair hpair => ?_
        obtain ⟨other, hother, hchild⟩ := mem_flatMap.mp hpair
        obtain ⟨child, -, rfl⟩ := mem_map.mp hchild
        exact fun hsame => hfirst (mem_map.mpr ⟨other, hother, of_decide_eq_true hsame⟩)
      rw [hown, hnone, map_nil, append_nil]
    · have hne : first.id ≠ node.id := fun hsame => hfirst (mem_map.mpr ⟨node, hmem, hsame.symm⟩)
      have hnone : (first.children.map fun child => (first.id, child)).filter
          (fun pair => pair.1 = node.id) = [] := by
        simp [filter_map, Function.comp_def, hne]
      rw [hnone, map_nil, nil_append, ih hrest hmem]

theorem filter_delegationPairs (hdistinct : (topology.nodes.map (·.id)).Nodup)
    (hnode : node ∈ topology.nodes) :
    ((delegationPairs topology).filter fun pair => pair.1 = node.id).map Prod.snd =
      delegatedChildren topology node := by
  unfold delegationPairs delegatedChildren
  dsimp only
  split_ifs with hnone
  · exact filter_flatMap_children hdistinct hnode
  · rw [filter_map, filter_filter, map_map]
    simp only [Function.comp_def, Bool.and_comm]

/-- Under a node stand the children it delegates to, each once. -/
theorem childrenOf_edges_of_mem {topology : EnterpriseTopology}
    (hdistinct : (topology.nodes.map (·.id)).Nodup) {node : NodeContract}
    (hnode : node ∈ topology.nodes) :
    childrenOf (buildDelegationGraph topology).edges node.id =
      keepFirst id [] (delegatedChildren topology node) := by
  rw [childrenOf_edges, filter_delegationPairs hdistinct hnode, foldl_addUnique, nil_append]

theorem childrenOf_edges_of_not_mem
    (hsources : ∀ relation ∈ topology.relations, isDelegation relation →
      relation.source.id ∈ topology.nodes.map (·.id)) (hnone : nodeId ∉ topology.nodes.map (·.id)) :
    childrenOf (buildDelegationGraph topology).edges nodeId = [] := by
  refine eq_nil_iff_forall_not_mem.mpr fun child hchild => hnone ?_
  have hpair := mem_childrenOf_edges.mp hchild
  unfold delegationPairs at hpair
  dsimp only at hpair
  split_ifs at hpair
  · obtain ⟨node, hnode, hmem⟩ := mem_flatMap.mp hpair
    obtain ⟨listed, -, hsame⟩ := mem_map.mp hmem
    exact (Prod.mk.inj hsame).1 ▸ mem_map_of_mem hnode
  · obtain ⟨relation, hrelation, hsame⟩ := mem_map.mp hpair
    obtain ⟨hmem, hdelegation⟩ := mem_filter.mp hrelation
    exact (Prod.mk.inj hsame).1 ▸ hsources relation hmem hdelegation

theorem delegationScope_congr {tree other : CompiledDelegationTree}
    (hsame : ∀ nodeId, childrenOf tree.edges nodeId = childrenOf other.edges nodeId)
    (nodeId : JsString) : delegationScope tree nodeId = delegationScope other nodeId := by
  have hends (vertex : JsString) (depth : ℕ) : (FiniteDigraph.ofMap tree.edges).ends vertex depth =
      (FiniteDigraph.ofMap other.edges).ends vertex depth := by
    simp only [FiniteDigraph.ends, FiniteDigraph.ofMap, hsame]
  have hdescendants : collectDescendants nodeId tree.edges =
      collectDescendants nodeId other.edges := by
    unfold collectDescendants
    dsimp only
    rw [hends]
    exact FiniteDigraph.breadthFirst_congr hends _ _ _
  simp only [delegationScope, hdescendants, hsame]

section Executable

variable {topology : EnterpriseTopology} {depth : JsNumber}

theorem edges_withoutRevoked_iff (h : ExecutableTopology topology depth)
    (hnode : node ∈ topology.nodes) :
    childrenOf (compiledSnapshot topology).parentChildTree.edges node.id =
        childrenOf (compiledSnapshot (withoutRevoked topology)).parentChildTree.edges node.id ↔
      keepFirst id [] (delegatedChildren topology node) =
        keepFirst id [] (delegatedChildren (withoutRevoked topology) node) := by
  have hlive := @childrenOf_edges_of_mem (withoutRevoked topology) h.distinctNodes node hnode
  have hall := childrenOf_edges_of_mem h.distinctNodes hnode
  exact hall ▸ hlive ▸ Iff.rfl

theorem delegationScope_withoutRevoked (h : ExecutableTopology topology depth)
    (hcounts : NothingRevokedCounts topology) (nodeId : JsString) :
    delegationScope (compiledSnapshot topology).parentChildTree nodeId =
      delegationScope (compiledSnapshot (withoutRevoked topology)).parentChildTree nodeId := by
  refine delegationScope_congr (fun other => ?_) nodeId
  by_cases hmem : other ∈ topology.nodes.map (·.id)
  · obtain ⟨node, hnode, rfl⟩ := mem_map.mp hmem
    exact (edges_withoutRevoked_iff h hnode).mpr (hcounts.delegation node hnode)
  · have hall : childrenOf (buildDelegationGraph topology).edges other = [] :=
      childrenOf_edges_of_not_mem (fun relation hrelation hdelegation =>
        (h.delegationEnds hrelation hdelegation).1) hmem
    have hlive : childrenOf (buildDelegationGraph (withoutRevoked topology)).edges other = [] :=
      childrenOf_edges_of_not_mem (fun relation hrelation hdelegation =>
        (h.delegationEnds (mem_withoutRevoked.mp hrelation).1 hdelegation).1) hmem
    exact hall.trans hlive.symm

end Executable

/-! ## Access -/

theorem foldl_filter_live {S : Type} (step : S → EnterpriseRelation → S)
    {live : EnterpriseRelation → Bool}
    (hskip : ∀ relation ∈ relations, live relation = false → ∀ state, step state relation = state)
    (state : S) : (relations.filter live).foldl step state = relations.foldl step state := by
  rw [foldl_filter]
  refine foldl_ext _ _ _ fun state relation hrelation => ?_
  cases hlive : live relation with
  | true => rfl
  | false => exact (hskip relation hrelation hlive state).symm

namespace ToolScopeBuilder

/-- The relations a scope goes back to. -/
def relationIds (builder : ToolScopeBuilder) : List JsString :=
  builder.toolRelationIds.elements ++ builder.systemRelationIds.elements

theorem mem_relationIds {builder : ToolScopeBuilder} :
    found ∈ builder.relationIds ↔
      found ∈ builder.toolRelationIds ∨ found ∈ builder.systemRelationIds := mem_append

variable (tools : OrderedMap JsString EnterpriseTool) (builder : ToolScopeBuilder)

theorem declare_of_not_grantsAccess (hsource : relation.source.entityType = .node)
    (hnone : grantsAccess relation = false) : declare tools builder relation = builder := by
  unfold grantsAccess at hnone
  rw [hsource, decide_eq_true rfl, Bool.true_and] at hnone
  unfold declare
  split at hnone <;> simp_all

theorem relationIds_addBackingSystem (relation : EnterpriseRelation) :
    (builder.addBackingSystem tools relation).relationIds = builder.relationIds := by
  unfold addBackingSystem
  split <;> rfl

theorem mem_relationIds_addTool :
    found ∈ (builder.addTool relation).relationIds ↔
      found ∈ builder.relationIds ∨ relation.id = found := by
  rw [mem_relationIds, mem_relationIds, addTool, OrderedSet.mem_add, eq_comm]
  tauto

theorem mem_relationIds_addSystem :
    found ∈ (builder.addSystem relation).relationIds ↔
      found ∈ builder.relationIds ∨ relation.id = found := by
  rw [mem_relationIds, mem_relationIds, addSystem, OrderedSet.mem_add, eq_comm]
  tauto

theorem mem_relationIds_declare (hsource : relation.source.entityType = .node) :
    found ∈ (declare tools builder relation).relationIds ↔
      found ∈ builder.relationIds ∨ grantsAccess relation ∧ relation.id = found := by
  cases hgrants : grantsAccess relation with
  | false => simp [declare_of_not_grantsAccess tools builder hsource hgrants]
  | true =>
    unfold grantsAccess at hgrants
    unfold declare
    split at hgrants <;>
      simp_all [relationIds_addBackingSystem, mem_relationIds_addTool, mem_relationIds_addSystem]

theorem mem_relationIds_foldl_declare
    (hsources : ∀ relation ∈ relations, relation.source.entityType = .node) :
    found ∈ (relations.foldl (declare tools) builder).relationIds ↔ found ∈ builder.relationIds ∨
        ∃ relation ∈ relations, grantsAccess relation ∧ relation.id = found := by
  induction relations generalizing builder with
  | nil => simp
  | cons relation rest ih =>
    obtain ⟨hsource, hrest⟩ := forall_mem_cons.mp hsources
    rw [foldl_cons, ih _ hrest, mem_relationIds_declare tools builder hsource]
    simp only [mem_cons, exists_eq_or_imp, or_assoc]

end ToolScopeBuilder

theorem entityType_of_source (hsource : relation.source = ⟨.node, nodeId⟩) :
    relation.source.entityType = .node :=
  hsource ▸ rfl

theorem mem_relationIds_toolScopeBuilder :
    found ∈ (toolScopeBuilder topology nodeId).relationIds ↔
      ∃ relation ∈ topology.relations, relation.source = ⟨.node, nodeId⟩ ∧
        grantsAccess relation ∧ relation.id = found := by
  have hsources : ∀ relation ∈ topology.relations.filter fun relation =>
      relation.source = ⟨.node, nodeId⟩, relation.source.entityType = .node :=
    fun relation hrelation => entityType_of_source (of_decide_eq_true (mem_filter.mp hrelation).2)
  have hempty : found ∉ ToolScopeBuilder.empty.relationIds := not_mem_nil
  unfold toolScopeBuilder
  rw [ToolScopeBuilder.mem_relationIds_foldl_declare _ _ hsources, or_iff_right hempty]
  simp only [mem_filter, decide_eq_true_eq, and_assoc]

section

variable (haccess : ∀ relation ∈ topology.relations, isRevoked topology relation → grantsAccess
  relation = false)
include haccess

theorem toolScopeBuilder_withoutRevoked (nodeId : JsString) :
    toolScopeBuilder (withoutRevoked topology) nodeId = toolScopeBuilder topology nodeId := by
  unfold toolScopeBuilder withoutRevoked
  rw [filter_comm]
  refine foldl_filter_live _ (fun relation hrelation hlive builder => ?_) _
  obtain ⟨hmem, hsource⟩ := mem_filter.mp hrelation
  exact ToolScopeBuilder.declare_of_not_grantsAccess _ _
    (entityType_of_source (of_decide_eq_true hsource))
    (haccess relation hmem (by simpa using hlive))

theorem toolScope_withoutRevoked :
    buildToolScopeIndex (withoutRevoked topology) = buildToolScopeIndex topology := by
  have hscope (node : NodeContract) :
      compiledToolScope (withoutRevoked topology) node = compiledToolScope topology node := by
    unfold compiledToolScope
    rw [toolScopeBuilder_withoutRevoked haccess]
    rfl
  simp only [buildToolScopeIndex, hscope]
  rfl

end

theorem get?_toolScopeIndex {topology : EnterpriseTopology}
    (hdistinct : (topology.nodes.map (·.id)).Nodup) {node : NodeContract}
    (hnode : node ∈ topology.nodes) :
    (buildToolScopeIndex topology).get? node.id = some (compiledToolScope topology node) :=
  OrderedMap.get?_foldl_set_of_mem (fun node : NodeContract => node.id)
    (compiledToolScope topology) ∅ hdistinct hnode

/-! ## Approvals -/

/-- The approval relations noted for a target. -/
def approvalsOf (target : EnterpriseEntityRef) : List JsString :=
  (ensureAuthorityScope index target).approvalRelationIds

theorem approvalsOf_set (key target : EnterpriseEntityRef) (scope : CompiledAuthorityScope) :
    approvalsOf (index.set key scope) target =
      if key = target then scope.approvalRelationIds else approvalsOf index target := by
  unfold approvalsOf ensureAuthorityScope
  rw [OrderedMap.get?_set]
  split_ifs <;> rfl

theorem approvalsOf_addAuthorityRule (rule : AuthorityRule) (target : EnterpriseEntityRef) :
    approvalsOf (addAuthorityRule index rule) target = approvalsOf index target := by
  unfold addAuthorityRule
  rw [approvalsOf_set]
  split_ifs with hsame
  · rw [← hsame, approvalsOf]
  · rfl

theorem mem_approvalsOf_addApproval {index : AuthorityScopeIndex} :
    found ∈ approvalsOf (addApproval index relation) target ↔ found ∈ approvalsOf index target ∨
        relation.relationType = .approves ∧ relation.target = target ∧ relation.id = found := by
  unfold addApproval
  split_ifs with htype
  · simp [htype]
  · rw [not_not] at htype
    rw [approvalsOf_set]
    split_ifs with hsame
    · rw [mem_addUnique, ← hsame, approvalsOf, @eq_comm _ found]
      simp [htype]
    · simp [hsame]

theorem mem_approvalsOf :
    found ∈ approvalsOf (buildAuthorityScopeIndex topology) target ↔
      ∃ relation ∈ topology.relations,
        relation.relationType = .approves ∧ relation.target = target ∧ relation.id = found := by
  have hrules (rules : List AuthorityRule) (index : AuthorityScopeIndex) :
      approvalsOf (rules.foldl addAuthorityRule index) target = approvalsOf index target := by
    induction rules generalizing index with
    | nil => rfl
    | cons rule rest ih => rw [foldl_cons, ih, approvalsOf_addAuthorityRule]
  have hrelations (relations : List EnterpriseRelation) (index : AuthorityScopeIndex) :
      found ∈ approvalsOf (relations.foldl addApproval index) target ↔
        found ∈ approvalsOf index target ∨ ∃ relation ∈ relations,
          relation.relationType = .approves ∧ relation.target = target ∧ relation.id = found := by
    induction relations generalizing index with
    | nil => simp
    | cons relation rest ih =>
      rw [foldl_cons, ih, mem_approvalsOf_addApproval]
      simp only [mem_cons, exists_eq_or_imp, or_assoc]
  have hempty : found ∉ approvalsOf ∅ target := not_mem_nil
  unfold buildAuthorityScopeIndex
  rw [hrules, hrelations, or_iff_right hempty]

theorem authorityScope_withoutRevoked
    (happrovals : ∀ relation ∈ topology.relations, isRevoked topology relation →
      relation.relationType ≠ .approves) :
    buildAuthorityScopeIndex (withoutRevoked topology) = buildAuthorityScopeIndex topology := by
  unfold buildAuthorityScopeIndex withoutRevoked
  rw [foldl_filter_live addApproval fun relation hrelation hlive index => ?_]
  exact if_pos (happrovals relation hrelation (by simpa using hlive))

/-! ## When archiving revokes -/

/-- A relation that is revoked does not come back under its id. -/
theorem ne_of_mem_withoutRevoked (hdistinct : (topology.relations.map (·.id)).Nodup)
    {other : EnterpriseRelation} (hrelation : relation ∈ topology.relations)
    (hrevoked : isRevoked topology relation) (hother : other ∈ (withoutRevoked topology).relations)
    : other.id ≠ relation.id := by
  obtain ⟨hmem, hlive⟩ := mem_withoutRevoked.mp hother
  intro hsame
  obtain rfl := inj_on_of_nodup_map hdistinct hmem hrelation hsame
  cases hlive.symm.trans hrevoked

/-- Archiving revokes where nothing revoked counts, and only there. -/
theorem archivingRevokes_iff {rules : EnterpriseRules} {topology : EnterpriseTopology}
    {options : TopologyValidatorOptions} {snapshot : CompiledTopologySnapshot}
    (hcompile : compileTopology rules topology options = .ok snapshot) :
    ArchivingRevokes topology snapshot ↔ NothingRevokedCounts topology := by
  obtain ⟨hexecutable, rfl⟩ := executable_of_compile hcompile
  have h := executableTopology hexecutable
  constructor
  · intro hsame
    constructor
    · exact fun node hnode => (edges_withoutRevoked_iff h hnode).mp (hsame.edges node hnode)
    · intro relation hrelation hrevoked
      by_contra hgrants
      rw [Bool.not_eq_false] at hgrants
      have hsource : relation.source.entityType = .node := by
        exact of_decide_eq_true (Bool.and_eq_true_iff.mp hgrants).1
      have hexists := (h.endpoints relation hrelation).1
      rw [hsource] at hexists
      obtain ⟨node, hnode, hid⟩ := mem_map.mp (entityExists_node.mp hexists)
      have hscopes := hsame.toolScopes node hnode
      have hlive := @get?_toolScopeIndex (withoutRevoked topology) h.distinctNodes node hnode
      have hids := congrArg (fun scope => scope.toolRelationIds ++ scope.systemRelationIds)
        (Option.some.inj
          ((get?_toolScopeIndex h.distinctNodes hnode).symm.trans (hscopes.trans hlive)))
      have hmem : relation.id ∈ (toolScopeBuilder topology node.id).relationIds := by
        refine mem_relationIds_toolScopeBuilder.mpr ⟨relation, hrelation, ?_, hgrants, rfl⟩
        rw [hid, ← hsource]
      change (toolScopeBuilder topology node.id).relationIds =
        (toolScopeBuilder (withoutRevoked topology) node.id).relationIds at hids
      rw [hids] at hmem
      obtain ⟨other, hother, -, -, hsame⟩ := mem_relationIds_toolScopeBuilder.mp hmem
      exact ne_of_mem_withoutRevoked h.distinctRelations hrelation hrevoked hother hsame
    · intro relation hrelation hrevoked htype
      have hscope : approvalsOf (buildAuthorityScopeIndex topology) relation.target =
          approvalsOf (buildAuthorityScopeIndex (withoutRevoked topology)) relation.target := by
        have hget := hsame.authorityScopes relation.target
        change (buildAuthorityScopeIndex topology).get? _ =
          (buildAuthorityScopeIndex (withoutRevoked topology)).get? _ at hget
        rw [approvalsOf, approvalsOf, ensureAuthorityScope, ensureAuthorityScope, hget]
      have hmem := mem_approvalsOf.mpr ⟨relation, hrelation, htype, rfl, rfl⟩
      rw [hscope] at hmem
      obtain ⟨other, hother, -, -, hid⟩ := mem_approvalsOf.mp hmem
      exact ne_of_mem_withoutRevoked h.distinctRelations hrelation hrevoked hother hid
  · intro hcounts
    constructor
    · exact fun node hnode => (edges_withoutRevoked_iff h hnode).mpr (hcounts.delegation node hnode)
    · intro node hnode
      have hlive := @get?_delegationScopeMap (withoutRevoked topology) h.distinctNodes node hnode
      rw [get?_delegationScopeMap h.distinctNodes hnode, hlive,
        delegationScope_withoutRevoked h hcounts]
    · intro node hnode
      exact congrArg (·.get? node.id) (toolScope_withoutRevoked hcounts.access).symm
    · intro target
      exact congrArg (·.get? target) (authorityScope_withoutRevoked hcounts.approvals).symm

theorem archivingRevokes_pairTopology :
    ArchivingRevokes (pairTopology .active) (compiledSnapshot (pairTopology .active)) ↔
      NothingRevokedCounts (pairTopology .active) :=
  archivingRevokes_iff (compile_pairTopology (fun _ _ => []) .active)

/-- The one relation of the topology is archived, and the node `a` delegates to `b`. -/
theorem archivedRelation_delegates : ¬ ∀ rules topology options snapshot,
    compileTopology rules topology options = .ok snapshot → ArchivingRevokes topology snapshot := by
  intro hrevokes
  have hsame := hrevokes _ _ _ _ (compile_pairTopology (fun _ _ => []) .archived)
  have hedges := hsame.edges (plainNode nodeA) (mem_cons_self)
  exact absurd hedges (by decide +kernel)

end Nobie.Enterprise
