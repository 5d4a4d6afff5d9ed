/-
# Compiled delegation graphs

Of an executable topology the compiler makes a graph without cycles and no deeper than the
validator allowed. Its parents are the converse of its edges, every node is below a root, and
the descendants of a node are the nodes that it leads to.
-/

import Nobie.Enterprise.Contract
import Nobie.Foundation.FiniteDigraph

namespace Nobie.Enterprise

open Foundation List JsString

open Nobie.Topology (EnterpriseEntityStatus EnterpriseEntityType)

/-! ## What an executable topology is known to be -/

/-! ## Issues that block -/

def Passes (issues : List TopologyValidatorIssue) : Prop :=
  ∀ issue ∈ issues, isBlocking issue = false

def AllBlocking (issues : List TopologyValidatorIssue) : Prop := ∀ issue ∈ issues, isBlocking issue

variable {first second issues : List TopologyValidatorIssue} (path : String)

theorem passes_append : Passes (first ++ second) ↔ Passes first ∧ Passes second := forall_mem_append

variable {A : Type} {items : List A} {key : String} {topology : EnterpriseTopology}
  {depth : JsNumber}

theorem passes_flatMap {issues : A → List TopologyValidatorIssue} :
    Passes (items.flatMap issues) ↔ ∀ item ∈ items, Passes (issues item) := by
  unfold Passes
  simp only [mem_flatMap]
  exact ⟨fun h item hitem issue hissue => h issue ⟨item, hitem, hissue⟩,
    fun h issue ⟨item, hitem, hissue⟩ => h item hitem issue hissue⟩

theorem passes_collection {issues : String → A → List TopologyValidatorIssue}
    (hpasses : Passes (collectionIssues key items issues)) {item : A} (hitem : item ∈ items) :
    ∃ path, Passes (issues path item) := by
  obtain ⟨index, hindex⟩ := getElem?_of_mem hitem
  have hentry : (item, index) ∈ items.zipIdx := mem_zipIdx_iff_getElem?.mpr hindex
  exact ⟨_, passes_flatMap.mp hpasses _ hentry⟩

theorem allBlocking_nil : AllBlocking [] := nofun

theorem allBlocking_append :
    AllBlocking (first ++ second) ↔ AllBlocking first ∧ AllBlocking second :=
  forall_mem_append

theorem allBlocking_collection {issues : String → A → List TopologyValidatorIssue}
    (hissues : ∀ path item, AllBlocking (issues path item)) :
    AllBlocking (collectionIssues key items issues) := by
  intro issue hissue
  obtain ⟨entry, -, hentry⟩ := mem_flatMap.mp hissue
  exact hissues _ _ issue hentry

theorem eq_nil_of_passes (hblocking : AllBlocking issues) (hpasses : Passes issues) :
    issues = [] := by
  refine eq_nil_iff_forall_not_mem.mpr fun issue hissue => ?_
  cases (hpasses issue hissue).symm.trans (hblocking issue hissue)

theorem executable_iff : (buildTopologyValidationResult issues).executable ↔ Passes issues := by
  simp [buildTopologyValidationResult, Passes]

/-! ## The contract's issues block -/

theorem allBlocking_requiredString (path key : String) (value : JsString) :
    AllBlocking (requiredString path key value) := by
  unfold requiredString
  split_ifs
  · exact allBlocking_nil
  · exact forall_mem_singleton.mpr rfl

theorem allBlocking_timestampIssues (path key : String) (value : EnterpriseTimestamp) :
    AllBlocking (timestampIssues path key value) := by
  unfold timestampIssues
  split_ifs
  · exact allBlocking_nil
  · exact forall_mem_singleton.mpr rfl

theorem allBlocking_baseEntityIssues (entity : EnterpriseBaseEntity) :
    AllBlocking (baseEntityIssues path entity) := by
  simp only [baseEntityIssues, allBlocking_append, allBlocking_requiredString,
    allBlocking_timestampIssues, and_self]

theorem allBlocking_nodeContractIssues (node : NodeContract) :
    AllBlocking (nodeContractIssues path node) := by
  refine allBlocking_append.mpr ⟨allBlocking_baseEntityIssues _ _, ?_⟩
  cases node.owner with
  | none => exact allBlocking_nil
  | some owner =>
    refine allBlocking_append.mpr ⟨allBlocking_requiredString _ _ _, ?_⟩
    split_ifs
    · exact allBlocking_nil
    · exact forall_mem_singleton.mpr rfl

theorem allBlocking_relationContractIssues (relation : EnterpriseRelation) :
    AllBlocking (relationContractIssues path relation) := by
  refine allBlocking_append.mpr ⟨allBlocking_append.mpr ⟨allBlocking_append.mpr
    ⟨allBlocking_baseEntityIssues _ _, allBlocking_requiredString _ _ _⟩,
    allBlocking_requiredString _ _ _⟩, ?_⟩
  split_ifs
  · exact allBlocking_nil
  · exact forall_mem_singleton.mpr rfl

theorem allBlocking_contractIssues (topology : EnterpriseTopology) :
    AllBlocking (contractIssues topology) := by
  have hbase {A : Type} (entity : A → EnterpriseBaseEntity) (path : String) (item : A) :
      AllBlocking (baseEntityIssues path (entity item)) := allBlocking_baseEntityIssues _ _
  have hrequired {A : Type} (entity : A → EnterpriseBaseEntity) (key : String)
      (value : A → JsString) (path : String) (item : A) :
      AllBlocking (baseEntityIssues path (entity item) ++ requiredString path key (value item)) :=
    allBlocking_append.mpr ⟨allBlocking_baseEntityIssues _ _, allBlocking_requiredString _ _ _⟩
  simp only [contractIssues, allBlocking_append, and_assoc]
  exact ⟨allBlocking_baseEntityIssues _ _, allBlocking_collection allBlocking_nodeContractIssues,
    allBlocking_collection (hbase _), allBlocking_collection (hbase _),
    allBlocking_collection (hrequired _ _ _), allBlocking_collection (hbase _),
    allBlocking_collection (hrequired _ _ _), allBlocking_collection (hbase _),
    allBlocking_collection (hbase _), allBlocking_collection (hbase _),
    allBlocking_collection (hbase _), allBlocking_collection (hbase _),
    allBlocking_collection allBlocking_relationContractIssues⟩

/-! ## Entities -/

theorem allBlocking_duplicateIssues (seen : List JsString) (entities : List IndexedTopologyEntity) :
    AllBlocking (duplicateIssues seen entities) := by
  induction entities generalizing seen with
  | nil => exact allBlocking_nil
  | cons entity rest ih =>
    refine allBlocking_append.mpr ⟨?_, ih _⟩
    split_ifs
    · exact forall_mem_singleton.mpr rfl
    · exact allBlocking_nil

theorem nodup_of_duplicateIssues {seen : List JsString} {entities : List IndexedTopologyEntity}
    (hnone : duplicateIssues seen entities = []) :
    (entities.map (·.id)).Nodup ∧ ∀ entity ∈ entities, entity.id ∉ seen := by
  induction entities generalizing seen with
  | nil => exact ⟨.nil, nofun⟩
  | cons entity rest ih =>
    obtain ⟨hfirst, hrest⟩ := append_eq_nil_iff.mp hnone
    obtain ⟨hnodup, hunseen⟩ := ih hrest
    have hnew : entity.id ∉ seen := fun hseen => by
      rw [if_pos hseen] at hfirst
      cases hfirst
    refine ⟨nodup_cons.mpr ⟨fun hmem => ?_, hnodup⟩, forall_mem_cons.mpr ⟨hnew, ?_⟩⟩
    · obtain ⟨other, hother, hsame⟩ := mem_map.mp hmem
      exact hunseen other hother (hsame ▸ mem_cons_self)
    · exact fun other hother hseen => hunseen other hother (mem_cons_of_mem _ hseen)

theorem map_id_indexedCollection (key : String) (entityType : EnterpriseEntityType)
    (id : A → JsString) (items : List A) :
    (indexedCollection key entityType id items).map (·.id) = items.map id := by
  unfold indexedCollection
  rw [map_map]
  exact (map_map (f := Prod.fst) (g := id)).symm.trans (by rw [zipIdx_map_fst])

theorem exists_mem_indexedCollection {entityType : EnterpriseEntityType} {id : A → JsString}
    {wanted : EnterpriseEntityType} {found : JsString} :
    (∃ entity ∈ indexedCollection key entityType id items,
        entity.entityType = wanted ∧ entity.id = found) ↔
      entityType = wanted ∧ found ∈ items.map id := by
  constructor
  · rintro ⟨entity, hentity, htype, rfl⟩
    obtain ⟨entry, hentry, rfl⟩ := mem_map.mp hentity
    exact ⟨htype, mem_map_of_mem (fst_mem_of_mem_zipIdx hentry)⟩
  · rintro ⟨rfl, hfound⟩
    rw [← map_id_indexedCollection key entityType id items] at hfound
    obtain ⟨entity, hentity, rfl⟩ := mem_map.mp hfound
    obtain ⟨entry, -, rfl⟩ := mem_map.mp hentity
    exact ⟨_, hentity, rfl, rfl⟩

theorem entityExists_node {id : JsString} :
    entityExists topology .node id ↔ id ∈ topology.nodes.map (·.id) := by
  have hexists : entityExists topology .node id ↔
      ∃ entity ∈ indexedEntities topology, entity.entityType = .node ∧ entity.id = id := by
    simp [entityExists]
  rw [hexists]
  simp only [indexedEntities, mem_append, or_and_right, exists_or,
    exists_mem_indexedCollection, reduceCtorEq, false_and, or_false, true_and]
  simp

/-! ## What an executable topology is -/

/-- What is known of a topology that passes. -/
structure ExecutableTopology (topology : EnterpriseTopology) (depth : JsNumber) : Prop where
  distinct : ((indexedEntities topology).map (·.id)).Nodup
  children : ∀ node ∈ topology.nodes, ∀ child ∈ node.children, child ∈ topology.nodes.map (·.id)
  endpoints : ∀ relation ∈ topology.relations,
    entityExists topology relation.source.entityType relation.source.id ∧
      entityExists topology relation.target.entityType relation.target.id
  acyclic : (delegationAdjacency topology).backEdges = []
  shallow : (delegationAdjacency topology).overlong
    (exceedsDepth (JsNumber.max (.ofNat 0) depth)) = []

theorem entityExists_of_passes {refType : EnterpriseEntityType} {refId : JsString} {path : String}
    (hpasses : Passes (validateTypedReference topology refType refId path)) :
    entityExists topology refType refId := by
  by_contra hmissing
  rw [validateTypedReference, if_neg hmissing] at hpasses
  cases hpasses _ (mem_singleton_self _)

theorem nil_of_keepFirst {K : Type} [DecidableEq K] {key : A → K}
    (hnone : keepFirst key [] items = []) : items = [] := by
  cases items with
  | nil => rfl
  | cons item rest =>
    rw [keepFirst, if_neg not_mem_nil] at hnone
    cases hnone

variable {rules : EnterpriseRules} {options : TopologyValidatorOptions}

theorem executableTopology (hexecutable : (validateTopology rules topology options).executable) :
    ExecutableTopology topology
      (options.maxDelegationDepth.getD defaultTopologyMaxDelegationDepth) := by
  have hcontract : contractIssues topology = [] := by
    by_contra hbroken
    rw [validateTopology, if_pos hbroken] at hexecutable
    exact hbroken (eq_nil_of_passes (allBlocking_contractIssues topology)
      (executable_iff.mp hexecutable))
  rw [validateTopology, if_neg (not_not_intro hcontract), executable_iff] at hexecutable
  simp only [passes_append, validateTopologyReferences, validateDelegationGraph, and_assoc]
    at hexecutable
  obtain ⟨hduplicates, hnodes, -, -, -, -, -, -, -, -, -, hrelations, hcycles, hdepths, -, -⟩ :=
    hexecutable
  constructor
  · exact (nodup_of_duplicateIssues
      (eq_nil_of_passes (allBlocking_duplicateIssues _ _) hduplicates)).1
  · intro node hnode child hchild
    obtain ⟨path, hpath⟩ := passes_collection hnodes hnode
    simp only [validateNodeReferences, passes_append, and_assoc] at hpath
    obtain ⟨-, hchildren, -, -⟩ := hpath
    obtain ⟨index, hindex⟩ := getElem?_of_mem hchild
    exact entityExists_node.mp (entityExists_of_passes
      (passes_flatMap.mp hchildren (child, index) (mem_zipIdx_iff_getElem?.mpr hindex)))
  · intro relation hrelation
    obtain ⟨path, hpath⟩ := passes_collection hrelations hrelation
    obtain ⟨hsource, htarget⟩ := passes_append.mp hpath
    exact ⟨entityExists_of_passes hsource, entityExists_of_passes htarget⟩
  · refine nil_of_keepFirst (map_eq_nil_iff.mp (eq_nil_of_passes ?_ hcycles))
    intro issue hissue
    obtain ⟨found, -, rfl⟩ := mem_map.mp hissue
    rfl
  · refine nil_of_keepFirst (map_eq_nil_iff.mp (eq_nil_of_passes ?_ hdepths))
    intro issue hissue
    obtain ⟨found, -, rfl⟩ := mem_map.mp hissue
    rfl

section

variable (h : ExecutableTopology topology depth)
include h

/-- Delegations lead from nodes to nodes. -/
theorem ExecutableTopology.delegationEnds
    {relation : EnterpriseRelation} (hrelation : relation ∈ topology.relations)
    (hdelegation : isDelegation relation) :
    relation.source.id ∈ topology.nodes.map (·.id) ∧
      relation.target.id ∈ topology.nodes.map (·.id) := by
  have hends := h.endpoints relation hrelation
  simp only [isDelegation, Bool.and_eq_true, decide_eq_true_eq] at hdelegation
  rw [hdelegation.1.2, hdelegation.2] at hends
  exact ⟨entityExists_node.mp hends.1, entityExists_node.mp hends.2⟩

theorem ExecutableTopology.distinctNodes :
    (topology.nodes.map (·.id)).Nodup := by
  have hdistinct := h.distinct
  simp only [indexedEntities, map_append, map_id_indexedCollection, append_assoc] at hdistinct
  exact (nodup_append.mp (nodup_append.mp hdistinct).2.1).1

theorem ExecutableTopology.distinctRelations :
    (topology.relations.map (·.id)).Nodup := by
  have hdistinct := h.distinct
  simp only [indexedEntities, map_append, map_id_indexedCollection] at hdistinct
  exact (nodup_append.mp hdistinct).2.1

end

theorem executable_of_compile {snapshot : CompiledTopologySnapshot}
    (hcompile : compileTopology rules topology options = .ok snapshot) :
    (validateTopology rules topology options).executable ∧
      snapshot = compiledSnapshot topology := by
  unfold compileTopology at hcompile
  dsimp only at hcompile
  split_ifs at hcompile with hexecutable
  exact ⟨hexecutable, (Except.ok.inj hcompile).symm⟩

/-- A graph without cycles and overlong paths has no issues where its targets are there. -/
theorem validateDelegationGraph_of_searched
    (hcycles : (delegationAdjacency topology).backEdges = [])
    (hdepths : (delegationAdjacency topology).overlong
      (exceedsDepth (JsNumber.max (.ofNat 0) defaultTopologyMaxDelegationDepth)) = [])
    (htargets : (((OrderedSet.ofList ((delegationEdges topology).map (·.source))).elements.filter
      (entityExists topology .node)).flatMap fun source =>
        ((delegationAdjacency topology).outgoing source).flatMap fun edge =>
          validateTypedReference topology .node edge.target edge.path) = []) :
    validateDelegationGraph topology defaultTopologyMaxDelegationDepth = [] := by
  unfold validateDelegationGraph detectDelegationCycles detectDelegationDepthOverflow
  rw [hcycles, hdepths]
  exact htargets

/-- A topology of the executor editor is compiled if no issue is found in it. -/
theorem compileTopology_of_clean (rules : EnterpriseRules)
    (hcontract : contractIssues topology = [])
    (heditor : isExecutorTopologyV2PersistenceProjection topology)
    (hduplicates : duplicateIssues [] (indexedEntities topology) = [])
    (hreferences : validateTopologyReferences topology = [])
    (hgraph : validateDelegationGraph topology defaultTopologyMaxDelegationDepth = []) :
    compileTopology rules topology ⟨none, none⟩ = .ok (compiledSnapshot topology) := by
  have hvalidation : validateTopology rules topology ⟨none, none⟩ =
      buildTopologyValidationResult [] := by
    rw [validateTopology, if_neg (not_not_intro hcontract), if_pos heditor, hduplicates,
      hreferences, Option.getD_none, hgraph]
    rfl
  rw [compileTopology, hvalidation]
  rfl

/-! ## A topology of two nodes -/

def plainEntity (id : JsString) (status : EnterpriseEntityStatus) : EnterpriseBaseEntity where
  id
  name := id
  displayName := none
  status
  createdAt := .number (.ofNat 0)
  updatedAt := .number (.ofNat 0)
  metadata := none

def plainNode (id : JsString) : NodeContract where
  toEnterpriseBaseEntity := plainEntity id .active
  nodeType := .function
  owner := none
  description := none
  tags := []
  children := []
  template := none
  allowedToolIds := []
  allowedSystemIds := []
  failurePolicy := none
  recoveryPolicy := none

def nodeA : JsString := ofString "a"

def nodeB : JsString := ofString "b"

/-- The node `a` delegates to the node `b`, with the status the relation has. -/
def pairRelation (status : EnterpriseEntityStatus) : EnterpriseRelation where
  toEnterpriseBaseEntity := plainEntity (ofString "r") status
  relationType := .delegatesTo
  source := ⟨.node, nodeA⟩
  target := ⟨.node, nodeB⟩
  label := none

/-- What the executor editor leaves in the metadata of a topology. -/
def editorMetadata : PlainObject where
  members := [(ofString "executorTopologyV2", .object
    [(ofString "schemaVersion", .number (Number.ofNat 2)),
      (ofString "sourceOfTruth", .string (ofString "executor_topology_v2"))])]
  proper := by decide +kernel

def pairTopology (status : EnterpriseEntityStatus) : EnterpriseTopology where
  toEnterpriseBaseEntity := { plainEntity (ofString "t") .active with metadata := some editorMetadata }
  nodes := [plainNode nodeA, plainNode nodeB]
  teams := []
  orgUnits := []
  positions := []
  persons := []
  memberships := []
  authorityRules := []
  responsibilities := []
  systems := []
  tools := []
  processes := []
  relations := [pairRelation status]

/-- With one edge from the first node to the second there is neither a cycle nor a long path. -/
theorem searched_of_pair (topology : EnterpriseTopology) (edge : DelegationEdge)
    (hvertices : (delegationAdjacency topology).vertices = [nodeA, nodeB])
    (hfirst : (delegationAdjacency topology).outgoing nodeA = [edge])
    (hsecond : (delegationAdjacency topology).outgoing nodeB = [])
    (htarget : (delegationAdjacency topology).target edge = nodeB) :
    (delegationAdjacency topology).backEdges = [] ∧ (delegationAdjacency topology).overlong
        (exceedsDepth (JsNumber.max (.ofNat 0) defaultTopologyMaxDelegationDepth)) = [] := by
  have hne : nodeB ≠ nodeA := by decide +kernel
  constructor
  · rw [PathSearch.backEdges, hvertices]
    simp [PathSearch.searchVertex, PathSearch.searchEdges, hfirst, hsecond, htarget, hvertices, hne]
  · rw [PathSearch.overlong, hvertices]
    simp [PathSearch.overlongFrom, hfirst, hsecond, htarget, hvertices, hne]
    decide +kernel

theorem compile_pairTopology (rules : EnterpriseRules) (status : EnterpriseEntityStatus) :
    compileTopology rules (pairTopology status) ⟨none, none⟩ =
      .ok (compiledSnapshot (pairTopology status)) := by
  obtain ⟨hcycles, hdepths⟩ := searched_of_pair (pairTopology status)
    (relationEdge (pairRelation status, 0)) rfl rfl rfl rfl
  refine compileTopology_of_clean rules ?_ ?_ ?_ ?_
    (validateDelegationGraph_of_searched hcycles hdepths ?_)
  all_goals
    cases status <;> decide +kernel

/-! ## The compiled graph -/

open Relation OrderedMap

/-! ## Distinct values -/

section AddUnique

variable {A : Type} [DecidableEq A]

variable {values : List A}

theorem mem_addUnique {value found : A} :
    found ∈ addUnique values value ↔ found ∈ values ∨ found = value := by
  unfold addUnique
  split_ifs with hmem
  · exact ⟨Or.inl, fun h => h.elim id fun hsame => hsame ▸ hmem⟩
  · rw [mem_append, mem_singleton]

theorem nodup_addUnique (hnodup : values.Nodup) (value : A) : (addUnique values value).Nodup := by
  unfold addUnique
  split_ifs with hmem
  · exact hnodup
  · refine nodup_append.mpr ⟨hnodup, nodup_singleton _, ?_⟩
    rintro first hfirst second hsecond rfl
    exact hmem (mem_singleton.mp hsecond ▸ hfirst)

theorem mem_foldl_addUnique {items : List A} {found : A} :
    found ∈ items.foldl addUnique values ↔ found ∈ values ∨ found ∈ items := by
  induction items generalizing values with
  | nil => simp
  | cons item rest ih => rw [foldl_cons, ih, mem_addUnique, mem_cons, or_assoc]

theorem nodup_foldl_addUnique (hnodup : values.Nodup) (items : List A) :
    (items.foldl addUnique values).Nodup := by
  induction items generalizing values with
  | nil => exact hnodup
  | cons item rest ih => exact ih (nodup_addUnique hnodup item)

end AddUnique

/-! ## The edges of the compiled graph -/

/-- A pair noted under its first component. -/
def notePair (map : OrderedMap JsString (List JsString)) (pair : JsString × JsString) :
    OrderedMap JsString (List JsString) :=
  map.set pair.1 (addUnique (childrenOf map pair.1) pair.2)

variable (key : JsString) (topology : EnterpriseTopology) {node : JsString}

theorem childrenOf_set (map : OrderedMap JsString (List JsString)) (key : JsString)
    (values : List JsString) (found : JsString) :
    childrenOf (map.set key values) found = if key = found then values else childrenOf map found := by
  unfold childrenOf
  rw [get?_set]
  split_ifs <;> rfl

/-- Under a key stands what it was noted with. -/
theorem childrenOf_foldl_notePair (pairs : List (JsString × JsString))
    (map : OrderedMap JsString (List JsString)) (key : JsString) :
    childrenOf (pairs.foldl notePair map) key =
      ((pairs.filter fun pair => pair.1 = key).map Prod.snd).foldl addUnique
        (childrenOf map key) := by
  rw [foldl_map]
  exact getD_foldl_update Prod.fst (fun values pair => addUnique values pair.2) []
    pairs map key

theorem childrenOf_noEdges (key : JsString) : childrenOf (noEdges topology) key = [] := by
  have hfold (nodes : List NodeContract) (map : OrderedMap JsString (List JsString))
      (hmap : childrenOf map key = []) :
      childrenOf (nodes.foldl (fun map node => map.set node.id []) map) key = [] := by
    induction nodes generalizing map with
    | nil => exact hmap
    | cons node rest ih =>
      refine ih _ ?_
      rw [childrenOf_set]
      split_ifs
      · rfl
      · exact hmap
  exact hfold topology.nodes ∅ rfl

theorem buildDelegationGraph_eq :
    buildDelegationGraph topology =
      { edges := (delegationPairs topology).foldl notePair (noEdges topology)
        parents := ((delegationPairs topology).map Prod.swap).foldl notePair (noEdges topology) } := by
  have hfold (pairs : List (JsString × JsString)) (graph : DelegationGraph) :
      pairs.foldl addDelegationEdge graph =
        { edges := pairs.foldl notePair graph.edges
          parents := (pairs.map Prod.swap).foldl notePair graph.parents } := by
    induction pairs generalizing graph with
    | nil => rfl
    | cons pair rest ih => exact ih _
  exact hfold _ _

/-- The children the compiled graph has under a node. -/
theorem childrenOf_edges (nodeId : JsString) :
    childrenOf (buildDelegationGraph topology).edges nodeId =
      (((delegationPairs topology).filter fun pair => pair.1 = nodeId).map Prod.snd).foldl
        addUnique [] := by
  rw [buildDelegationGraph_eq, childrenOf_foldl_notePair, childrenOf_noEdges]

theorem childrenOf_parents (nodeId : JsString) :
    childrenOf (buildDelegationGraph topology).parents nodeId =
      ((((delegationPairs topology).map Prod.swap).filter fun pair => pair.1 = nodeId).map
        Prod.snd).foldl addUnique [] := by
  rw [buildDelegationGraph_eq, childrenOf_foldl_notePair, childrenOf_noEdges]

variable {parent child : JsString}

theorem mem_childrenOf_edges {topology : EnterpriseTopology} :
    child ∈ childrenOf (buildDelegationGraph topology).edges parent ↔
      (parent, child) ∈ delegationPairs topology := by
  rw [childrenOf_edges, mem_foldl_addUnique]
  simp

theorem mem_childrenOf_parents {topology : EnterpriseTopology} :
    parent ∈ childrenOf (buildDelegationGraph topology).parents child ↔
      (parent, child) ∈ delegationPairs topology := by
  rw [childrenOf_parents, mem_foldl_addUnique]
  simp

/-! ## The shape of the graph -/

/-- The compiled tree has the child under the parent. -/
def Delegates (tree : CompiledDelegationTree) (parent child : JsString) : Prop :=
  child ∈ childrenOf tree.edges parent

/-- What holds of a compiled graph: no node leads back to itself, no path is longer than the
depth, the parents are the converse of the edges, every node is below a root, and under
every node its descendants are listed. -/
structure BoundedDag (topology : EnterpriseTopology) (depth : JsNumber)
    (snapshot : CompiledTopologySnapshot) : Prop where
  acyclic : ∀ node, ¬ Relation.TransGen (Delegates snapshot.parentChildTree) node node
  shallow : ∀ first walk, (first :: walk).IsChain (Delegates snapshot.parentChildTree) →
    walk ≠ [] → JsNumber.lt depth (.ofNat walk.length) = false
  converse : ∀ parent child, parent ∈ childrenOf snapshot.parentChildTree.parents child ↔
    Delegates snapshot.parentChildTree parent child
  distinctParents : ∀ node, (childrenOf snapshot.parentChildTree.parents node).Nodup
  covered : ∀ node ∈ topology.nodes, ∃ root ∈ snapshot.parentChildTree.rootNodeIds,
    Relation.ReflTransGen (Delegates snapshot.parentChildTree) root node.id
  descendants : ∀ node ∈ topology.nodes, ∃ scope,
    snapshot.delegationScopeMap.get? node.id = some scope ∧
      scope.descendantNodeIds.Nodup ∧ node.id ∉ scope.descendantNodeIds ∧
        ∀ other, other ∈ scope.descendantNodeIds ↔
          Relation.TransGen (Delegates snapshot.parentChildTree) node.id other

section Executable

variable {topology : EnterpriseTopology} {depth : JsNumber}

theorem delegates_iff :
    Delegates (compiledSnapshot topology).parentChildTree parent child ↔
      (parent, child) ∈ delegationPairs topology := mem_childrenOf_edges

section

variable (h : ExecutableTopology topology depth)
include h

/-- Every pair is an edge of the graph that the validator searched, between nodes. -/
theorem adjacent_of_mem_delegationPairs
    (hpair : (parent, child) ∈ delegationPairs topology) :
    parent ∈ topology.nodes.map (·.id) ∧ (delegationAdjacency topology).Adjacent parent child := by
  have hadjacent (htarget : child ∈ (delegationAdjacency topology).vertices)
      (hedge : ∃ path, ⟨parent, child, path⟩ ∈ delegationEdges topology) :
      (delegationAdjacency topology).Adjacent parent child := by
    obtain ⟨path, hedge⟩ := hedge
    exact ⟨htarget, _, mem_filter.mpr ⟨hedge, decide_eq_true rfl⟩, rfl⟩
  unfold delegationPairs at hpair
  dsimp only at hpair
  split_ifs at hpair with hnone
  · obtain ⟨node, hnode, hmem⟩ := mem_flatMap.mp hpair
    obtain ⟨listed, hlisted, hsame⟩ := mem_map.mp hmem
    obtain ⟨rfl, rfl⟩ := Prod.mk.inj hsame
    obtain ⟨place, hplace⟩ := mem_iff_getElem?.mp hnode
    obtain ⟨index, hindex⟩ := mem_iff_getElem?.mp hlisted
    have hchild : ∃ path, ⟨node.id, listed, path⟩ ∈ childEdges (node, place) :=
      ⟨_, mem_map.mpr ⟨(listed, index), mem_zipIdx_iff_getElem?.mpr hindex, rfl⟩⟩
    obtain ⟨path, hpath⟩ := hchild
    have hedge := mem_flatMap.mpr ⟨(node, place), mem_zipIdx_iff_getElem?.mpr hplace, hpath⟩
    exact ⟨mem_map_of_mem hnode, hadjacent (h.children node hnode listed hlisted)
      ⟨_, mem_append_left _ hedge⟩⟩
  · obtain ⟨relation, hrelation, hsame⟩ := mem_map.mp hpair
    cases hsame
    obtain ⟨hmem, hdelegation⟩ := mem_filter.mp hrelation
    obtain ⟨hsource, htarget⟩ := h.delegationEnds hmem hdelegation
    obtain ⟨place, hplace⟩ := getElem?_of_mem hmem
    have hentry : (relation, place) ∈
        topology.relations.zipIdx.filter fun entry => isDelegation entry.1 :=
      mem_filter.mpr ⟨mem_zipIdx_iff_getElem?.mpr hplace, hdelegation⟩
    exact ⟨hsource, hadjacent htarget ⟨_, mem_append_right _ (mem_map_of_mem hentry)⟩⟩

theorem adjacent_of_delegates (parent child : JsString)
    (hdelegates : Delegates (compiledSnapshot topology).parentChildTree parent child) :
    (delegationAdjacency topology).Adjacent parent child :=
  (adjacent_of_mem_delegationPairs h (delegates_iff.mp hdelegates)).2

theorem acyclic_delegates (node : JsString) :
    ¬ TransGen (Delegates (compiledSnapshot topology).parentChildTree) node node :=
  fun hcycle => PathSearch.acyclic_of_backEdges h.acyclic
    (TransGen.mono (adjacent_of_delegates h) _ _ hcycle)

end

/-- A path that exceeds a depth exceeds what the validator makes of it. -/
theorem not_lt_of_not_exceedsDepth {depth : JsNumber} {length : ℕ} (hlength : 0 < length)
    (h : exceedsDepth (JsNumber.max (.ofNat 0) depth) length = false) :
    JsNumber.lt depth (.ofNat length) = false := by
  by_contra hlt
  rw [Bool.not_eq_false] at hlt
  have hnan : depth ≠ .nan := fun hsame => by
    rw [hsame] at hlt
    cases hlt
  unfold exceedsDepth JsNumber.max at h
  rw [if_neg (not_or.mpr ⟨by simp [JsNumber.ofNat], hnan⟩)] at h
  split_ifs at h
  · cases h.symm.trans hlt
  · rw [JsNumber.lt_ofNat_ofNat] at h
    exact of_decide_eq_false h hlength

theorem shallow_delegates (h : ExecutableTopology topology depth) {first : JsString}
    {walk : List JsString}
    (hchain : (first :: walk).IsChain (Delegates (compiledSnapshot topology).parentChildTree))
    (hwalk : walk ≠ []) : JsNumber.lt depth (.ofNat walk.length) = false := by
  have hfirst : first ∈ topology.nodes.map (·.id) := by
    cases walk with
    | nil => exact absurd rfl hwalk
    | cons next rest =>
      have hstep := (isChain_cons_cons.mp hchain).1
      exact (adjacent_of_mem_delegationPairs h (delegates_iff.mp hstep)).1
  exact not_lt_of_not_exceedsDepth (length_pos_iff.mpr hwalk)
    (PathSearch.not_tooLong h.acyclic h.shallow hfirst
      (hchain.imp fun first second => adjacent_of_delegates h first second) hwalk)

/-- A node that nothing delegates to is a root. -/
theorem mem_rootNodeIds (hnode : node ∈ topology.nodes.map (·.id))
    (hsource : IsSource (Delegates (compiledSnapshot topology).parentChildTree) node) :
    node ∈ (compiledSnapshot topology).parentChildTree.rootNodeIds := by
  refine mem_dropAmong.mpr ⟨hnode, fun hchild => ?_⟩
  obtain ⟨⟨parent, children⟩, hentry, hmem⟩ := mem_flatMap.mp hchild
  refine hsource parent ?_
  have hget := get?_of_mem_entries hentry
  change node ∈ ((buildDelegationGraph topology).edges.get? parent).getD []
  rw [hget]
  exact hmem

theorem covered_delegates (h : ExecutableTopology topology depth) {node : NodeContract}
    (hnode : node ∈ topology.nodes) :
    ∃ root ∈ (compiledSnapshot topology).parentChildTree.rootNodeIds,
      ReflTransGen (Delegates (compiledSnapshot topology).parentChildTree) root node.id := by
  have hfinite : {parent | ∃ child,
      Delegates (compiledSnapshot topology).parentChildTree parent child}.Finite := by
    refine (finite_toSet ((delegationPairs topology).map Prod.fst)).subset ?_
    rintro parent ⟨child, hchild⟩
    exact mem_map.mpr ⟨_, delegates_iff.mp hchild, rfl⟩
  have hacyclic : ∀ other, ReflTransGen
      (Delegates (compiledSnapshot topology).parentChildTree) other node.id →
        ¬ TransGen (Delegates (compiledSnapshot topology).parentChildTree) other other :=
    fun other _ => acyclic_delegates h other
  obtain ⟨root, hroot, hsource⟩ := exists_isSource_above hfinite hacyclic
  refine ⟨root, mem_rootNodeIds ?_ hsource, hroot⟩
  obtain hsame | ⟨next, hnext, -⟩ := ReflTransGen.cases_head hroot
  · exact hsame ▸ mem_map_of_mem hnode
  · exact (adjacent_of_mem_delegationPairs h (delegates_iff.mp hnext)).1

/-- The scope of a node lists what the node leads to. -/
theorem mem_descendantNodeIds {tree : CompiledDelegationTree} {other : JsString} :
    other ∈ (delegationScope tree node).descendantNodeIds ↔
      TransGen (Delegates tree) node other := by
  have hadjacent : (FiniteDigraph.ofMap tree.edges).Adjacent = Delegates tree := by
    funext first second
    exact propext FiniteDigraph.ofMap_adjacent
  exact hadjacent ▸ FiniteDigraph.mem_breadthFirst_iff

theorem get?_delegationScopeMap (hdistinct : (topology.nodes.map (·.id)).Nodup)
    {node : NodeContract} (hnode : node ∈ topology.nodes) :
    (compiledSnapshot topology).delegationScopeMap.get? node.id =
      some (delegationScope (compiledSnapshot topology).parentChildTree node.id) :=
  get?_foldl_set_of_mem (fun node : NodeContract => node.id)
    (fun node => delegationScope (compiledSnapshot topology).parentChildTree node.id) ∅
    hdistinct hnode

end Executable

/-- What compiles has a compiled graph that is a bounded directed acyclic graph. -/
theorem boundedDag_of_compile {rules : EnterpriseRules} {topology : EnterpriseTopology}
    {options : TopologyValidatorOptions} {snapshot : CompiledTopologySnapshot}
    (hcompile : compileTopology rules topology options = .ok snapshot) :
    BoundedDag topology (options.maxDelegationDepth.getD defaultTopologyMaxDelegationDepth)
      snapshot := by
  obtain ⟨hexecutable, rfl⟩ := executable_of_compile hcompile
  have h := executableTopology hexecutable
  constructor
  · exact acyclic_delegates h
  · exact fun first walk => shallow_delegates h
  · exact fun parent child => mem_childrenOf_parents.trans delegates_iff.symm
  · intro node
    exact childrenOf_parents topology node ▸ nodup_foldl_addUnique .nil _
  · exact fun node => covered_delegates h
  · intro node hnode
    refine ⟨_, get?_delegationScopeMap h.distinctNodes hnode, FiniteDigraph.nodup_breadthFirst .nil, ?_,
      fun other => mem_descendantNodeIds⟩
    exact fun hself => acyclic_delegates h node.id (mem_descendantNodeIds.mp hself)

theorem boundedDag_pairTopology :
    BoundedDag (pairTopology .active) defaultTopologyMaxDelegationDepth
      (compiledSnapshot (pairTopology .active)) :=
  boundedDag_of_compile (compile_pairTopology (fun _ _ => []) .active)

end Nobie.Enterprise
