/-
# What the validator accepts

An accepted topology names its nodes and edges once each, and every edge runs
between two different active nodes.
-/

import Nobie.Topology.ExecutorTopologyV2

namespace Nobie.Topology

open Foundation List

/-- The facts about an accepted topology that its runtime graph rests on. -/
structure Accepted (topology : ExecutorTopologyV2) : Prop where
  nodeNamed : ∀ node ∈ topology.nodes, jsTrim node.id ≠ ""
  nodeNodup : (topology.nodes.map (·.id)).Nodup
  edgeNodup : (topology.edges.map (·.id)).Nodup
  source : ∀ edge ∈ topology.edges, ∃ node ∈ topology.nodes,
    node.id = edge.sourceNodeId ∧ node.status = .active
  target : ∀ edge ∈ topology.edges, ∃ node ∈ topology.nodes,
    node.id = edge.targetNodeId ∧ node.status = .active
  noLoop : ∀ edge ∈ topology.edges, edge.sourceNodeId ≠ edge.targetNodeId

/-! ## The object a topology is -/

@[simp]
theorem lookup_append (first second : JsonObject) (key : String) :
    Json.lookup (first ++ second) key = (Json.lookup second key <|> Json.lookup first key) := by
  unfold Json.lookup
  rw [reverse_append, find?_append]
  cases second.reverse.find? fun field => field.1 == key <;> rfl

variable (key : String) (value : Option Json) {text : String} {passes : Bool}
  {edgeIds : OrderedSet String}

@[simp]
theorem lookup_nil : Json.lookup [] key = none := rfl

@[simp]
theorem lookup_cons (name : String) (value : Json) (rest : JsonObject) (key : String) :
    Json.lookup ((name, value) :: rest) key =
      (Json.lookup rest key <|> if name = key then some value else none) := by
  rw [← singleton_append, lookup_append]
  by_cases h : name = key <;> simp [Json.lookup, h]

@[simp]
theorem lookup_optionalMember (name : String) (value : Option Json) (key : String) :
    Json.lookup (optionalMember name value) key = if name = key then value else none := by
  cases value <;> by_cases h : name = key <;> simp [optionalMember, h]

@[simp]
theorem executorStatus?_text (status : ExecutorStatus) :
    executorStatus? (some (.str status.text)) = some status := by
  cases status <;> rfl

theorem nonEmptyString?_eq_some (h : jsTrim text ≠ "") :
    nonEmptyString? (some (.str text)) = some text := if_neg h

theorem nonEmptyString?_of_any {test : String → Bool}
    (h : (nonEmptyString? (some (.str text))).any test) :
    nonEmptyString? (some (.str text)) = some text := by
  refine nonEmptyString?_eq_some fun hblank => ?_
  rw [nonEmptyString?, if_pos hblank] at h
  cases h

variable {issue : ExecutorTopologyV2ValidationIssue} (path : String) (nodeId : Option String)
  (scan : NodeScan) (host : Host) (index : ℕ)

theorem issueUnless_eq_nil : issueUnless passes issue = [] ↔ passes := by
  unfold issueUnless
  split <;> simp_all

section Lookups

variable (node : ExecutorNodeV2) (edge : ExecutorEdgeV2) (topology : ExecutorTopologyV2)

theorem lookup_node_id : Json.lookup node.fields "id" = some (.str node.id) := by
  simp [ExecutorNodeV2.fields]

theorem lookup_node_status : Json.lookup node.fields "status" = some (.str node.status.text) := by
  simp [ExecutorNodeV2.fields]

theorem lookup_edge_id : Json.lookup edge.fields "id" = some (.str edge.id) := by
  simp [ExecutorEdgeV2.fields]

theorem lookup_edge_source :
    Json.lookup edge.fields "sourceNodeId" = some (.str edge.sourceNodeId) := by
  simp [ExecutorEdgeV2.fields]

theorem lookup_edge_target :
    Json.lookup edge.fields "targetNodeId" = some (.str edge.targetNodeId) := by
  simp [ExecutorEdgeV2.fields]

theorem lookup_topology_nodes : Json.lookup topology.fields "nodes" =
    some (.arr (topology.nodes.map ExecutorNodeV2.toJson)) := by
  simp [ExecutorTopologyV2.fields]

theorem lookup_topology_edges : Json.lookup topology.fields "edges" =
    some (.arr (topology.edges.map ExecutorEdgeV2.toJson)) := by
  simp [ExecutorTopologyV2.fields]

end Lookups

/-! ## Nodes -/

/-- A node that is accepted has an id of its own, and the scan remembers it. -/
theorem validateNode_spec {host : Host} {scan : NodeScan} {index : ℕ} {node : ExecutorNodeV2}
    (h : (validateNode host scan index node.toJson).1 = []) :
    jsTrim node.id ≠ "" ∧ node.id ∉ scan.nodeIds ∧
      (validateNode host scan index node.toJson).2.nodeIds = scan.nodeIds.add node.id ∧
      (validateNode host scan index node.toJson).2.nodeStatuses =
        scan.nodeStatuses.set node.id node.status := by
  rw [ExecutorNodeV2.toJson, validateNode, lookup_node_id, lookup_node_status,
    executorStatus?_text] at h ⊢
  simp only [append_eq_nil_iff] at h
  obtain ⟨⟨⟨⟨⟨⟨⟨⟨hid, -⟩, -⟩, -⟩, -⟩, -⟩, -⟩, -⟩, -⟩ := h
  by_cases hblank : jsTrim node.id = ""
  · rw [nonEmptyString?, if_pos hblank] at hid
    cases hid
  · rw [nonEmptyString?_eq_some hblank] at hid ⊢
    have hnew : node.id ∉ scan.nodeIds := by simpa [nodeIdIssues, issueUnless_eq_nil] using hid
    exact ⟨hblank, hnew, rfl, rfl⟩

/-- What an accepted list of nodes is, and what the scan knows after it. -/
theorem validateNodes_spec {host : Host} {nodes : List ExecutorNodeV2} {scan : NodeScan}
    {index : ℕ} (h : (validateNodes host scan index (nodes.map ExecutorNodeV2.toJson)).1 = []) :
    (∀ node ∈ nodes, jsTrim node.id ≠ "" ∧ node.id ∉ scan.nodeIds) ∧ (nodes.map (·.id)).Nodup ∧
      (∀ id, id ∈ (validateNodes host scan index (nodes.map ExecutorNodeV2.toJson)).2.nodeIds →
        id ∈ scan.nodeIds ∨ ∃ node ∈ nodes, node.id = id) ∧
      (∀ id, id ∉ nodes.map (·.id) →
        (validateNodes host scan index (nodes.map ExecutorNodeV2.toJson)).2.nodeStatuses.get? id =
          scan.nodeStatuses.get? id) ∧
      ∀ node ∈ nodes,
        (validateNodes host scan index (nodes.map ExecutorNodeV2.toJson)).2.nodeStatuses.get?
          node.id = some node.status := by
  induction nodes generalizing scan index with
  | nil => simp [validateNodes]
  | cons first rest ih =>
    simp only [map_cons, validateNodes, append_eq_nil_iff] at h ⊢
    obtain ⟨hnamed, hnew, hids, hstatuses⟩ := validateNode_spec h.1
    obtain ⟨hrest, hnodup, hknown, hother, hstatus⟩ := ih h.2
    rw [hids] at hrest hknown
    rw [hstatuses] at hother
    have hfirst : first.id ∉ rest.map (·.id) := by
      rintro hmem
      obtain ⟨node, hnode, hid⟩ := mem_map.mp hmem
      exact (hrest node hnode).2 ((OrderedSet.mem_add _ _ _).mpr (Or.inl hid))
    refine ⟨fun node hnode => ?_, nodup_cons.mpr ⟨hfirst, hnodup⟩, fun id hid => ?_,
      fun id hid => ?_, fun node hnode => ?_⟩
    · rcases mem_cons.mp hnode with rfl | hnode
      · exact ⟨hnamed, hnew⟩
      · exact ⟨(hrest node hnode).1, fun hmem =>
          (hrest node hnode).2 ((OrderedSet.mem_add _ _ _).mpr (Or.inr hmem))⟩
    · rcases hknown id hid with hknown | ⟨node, hnode, heq⟩
      · rcases (OrderedSet.mem_add _ _ _).mp hknown with rfl | hbefore
        · exact Or.inr ⟨first, mem_cons_self, rfl⟩
        · exact Or.inl hbefore
      · exact Or.inr ⟨node, mem_cons_of_mem _ hnode, heq⟩
    · rw [mem_cons, not_or] at hid
      rw [hother id hid.2, OrderedMap.get?_set_of_ne _ _ (Ne.symm hid.1)]
    · rcases mem_cons.mp hnode with rfl | hnode
      · rw [hother _ hfirst, OrderedMap.get?_set_self]
      · exact hstatus node hnode

/-! ## Edges -/

/-- An edge that is accepted has an id of its own and runs between two different
nodes that are known and not archived. -/
theorem validateEdge_spec {scan : NodeScan} {index : ℕ} {edge : ExecutorEdgeV2}
    (h : (validateEdge scan edgeIds index edge.toJson).1 = []) :
    edge.id ∉ edgeIds ∧ (validateEdge scan edgeIds index edge.toJson).2 = edgeIds.add edge.id ∧
      (edge.sourceNodeId ∈ scan.nodeIds ∧
        scan.nodeStatuses.get? edge.sourceNodeId ≠ some .archived) ∧
      (edge.targetNodeId ∈ scan.nodeIds ∧
        scan.nodeStatuses.get? edge.targetNodeId ≠ some .archived) ∧
      edge.sourceNodeId ≠ edge.targetNodeId := by
  rw [ExecutorEdgeV2.toJson, validateEdge, lookup_edge_id, lookup_edge_source,
    lookup_edge_target] at h ⊢
  simp only [append_eq_nil_iff, issueUnless_eq_nil] at h
  obtain ⟨⟨⟨⟨⟨⟨⟨hid, -⟩, -⟩, hsource⟩, htarget⟩, hloop⟩, hsourceStatus⟩, htargetStatus⟩ := h
  have hsourceText := nonEmptyString?_of_any hsource
  have htargetText := nonEmptyString?_of_any htarget
  rw [hsourceText] at hsource hloop hsourceStatus
  rw [htargetText] at htarget hloop htargetStatus
  by_cases hblank : jsTrim edge.id = ""
  · rw [nonEmptyString?, if_pos hblank] at hid
    cases hid
  · rw [nonEmptyString?_eq_some hblank] at hid ⊢
    refine ⟨by simpa [issueUnless_eq_nil] using hid, rfl, ⟨?_, ?_⟩, ⟨?_, ?_⟩, ?_⟩
    · simpa using hsource
    · simpa using hsourceStatus
    · simpa using htarget
    · simpa using htargetStatus
    · simpa using hloop

/-- What an accepted list of edges is. -/
theorem validateEdges_spec {edges : List ExecutorEdgeV2} {scan : NodeScan} {index : ℕ}
    (h : validateEdges scan edgeIds index (edges.map ExecutorEdgeV2.toJson) = []) :
    (edges.map (·.id)).Nodup ∧ ∀ edge ∈ edges, edge.id ∉ edgeIds ∧
        (edge.sourceNodeId ∈ scan.nodeIds ∧
          scan.nodeStatuses.get? edge.sourceNodeId ≠ some .archived) ∧
        (edge.targetNodeId ∈ scan.nodeIds ∧
          scan.nodeStatuses.get? edge.targetNodeId ≠ some .archived) ∧
        edge.sourceNodeId ≠ edge.targetNodeId := by
  induction edges generalizing edgeIds index with
  | nil => simp
  | cons first rest ih =>
    simp only [map_cons, validateEdges, append_eq_nil_iff] at h
    obtain ⟨hnew, hids, hendpoints⟩ := validateEdge_spec h.1
    obtain ⟨hnodup, hrest⟩ := ih h.2
    rw [hids] at hrest
    constructor
    · rw [map_cons, nodup_cons]
      refine ⟨fun hmem => ?_, hnodup⟩
      obtain ⟨edge, hedge, hid⟩ := mem_map.mp hmem
      exact (hrest edge hedge).1 ((OrderedSet.mem_add _ _ _).mpr (Or.inl hid))
    · intro edge hedge
      rcases mem_cons.mp hedge with rfl | hedge
      · exact ⟨hnew, hendpoints⟩
      · exact ⟨fun hmem => (hrest edge hedge).1 ((OrderedSet.mem_add _ _ _).mpr (Or.inr hmem)),
          (hrest edge hedge).2⟩

/-! ## Every issue is an error -/

/-- All issues of a list are errors. -/
def AllErrors (issues : List ExecutorTopologyV2ValidationIssue) : Prop :=
  ∀ issue ∈ issues, issue.severity = .error

theorem allErrors_nil : AllErrors [] := nofun

theorem allErrors_append {first second : List ExecutorTopologyV2ValidationIssue} :
    AllErrors (first ++ second) ↔ AllErrors first ∧ AllErrors second :=
  forall_mem_append

theorem allErrors_singleton : AllErrors [issue] ↔ issue.severity = .error := forall_mem_singleton

theorem allErrors_issueUnless (h : issue.severity = .error) :
    AllErrors (issueUnless passes issue) := by
  unfold issueUnless
  split
  · exact allErrors_nil
  · exact allErrors_singleton.mpr h

theorem allErrors_map {A : Type} {items : List A} {f : A → ExecutorTopologyV2ValidationIssue}
    (h : ∀ item, (f item).severity = .error) : AllErrors (items.map f) := by
  intro issue hissue
  obtain ⟨item, -, rfl⟩ := mem_map.mp hissue
  exact h item

mutual

theorem allErrors_staleMetadataIssues (path : String) (nodeId : Option String) :
    ∀ value, AllErrors (staleMetadataIssues path nodeId value)
  | .arr items => by
    rw [staleMetadataIssues]
    exact allErrors_staleItemIssues path nodeId 0 items
  | .obj fields => by
    rw [staleMetadataIssues]
    intro issue hissue
    obtain ⟨field, hfield, hissue⟩ := mem_flatMap.mp hissue
    exact allErrors_staleFieldIssues path nodeId fields field
      (Json.mem_of_mem_entries hfield) issue hissue
  | .null | .bool _ | .num _ | .str _ => by rw [staleMetadataIssues] <;> simp [allErrors_nil]

theorem allErrors_staleItemIssues (path : String) (nodeId : Option String) (index : ℕ) :
    ∀ items, AllErrors (staleItemIssues path nodeId index items)
  | [] => allErrors_nil
  | item :: rest => by
    rw [staleItemIssues]
    exact allErrors_append.mpr ⟨allErrors_staleMetadataIssues _ nodeId item,
      allErrors_staleItemIssues path nodeId (index + 1) rest⟩

theorem allErrors_staleFieldIssues (path : String) (nodeId : Option String) :
    ∀ fields, ∀ field ∈ staleFieldIssues path nodeId fields, AllErrors field.2
  | [], field, h => absurd h not_mem_nil
  | (key, item) :: rest, field, h => by
    rw [staleFieldIssues] at h
    rcases mem_cons.mp h with rfl | hrest
    · dsimp only
      split
      · exact allErrors_singleton.mpr rfl
      · exact allErrors_staleMetadataIssues _ nodeId item
    · exact allErrors_staleFieldIssues path nodeId rest field hrest

end

theorem allErrors_validateNoStaleMetadataKeys (path : String) (nodeId : Option String) :
    AllErrors (validateNoStaleMetadataKeys value path nodeId) := by
  cases value with
  | none => exact allErrors_nil
  | some value => exact allErrors_staleMetadataIssues path nodeId value

theorem allErrors_validatePosition (path : String) (nodeId : Option String) :
    AllErrors (validatePosition value path nodeId) := by
  unfold validatePosition
  split
  · exact allErrors_append.mpr ⟨allErrors_issueUnless rfl, allErrors_issueUnless rfl⟩
  · exact allErrors_singleton.mpr rfl

theorem allErrors_nodeIdIssues (path : String) (nodeId : Option String) :
    AllErrors (nodeIdIssues scan path nodeId) := by
  cases nodeId with
  | none => exact allErrors_singleton.mpr rfl
  | some nodeId => exact allErrors_issueUnless rfl

theorem allErrors_nodeNameIssues (scan : NodeScan) (path : String) (nodeId : Option String)
    (status : Option ExecutorStatus) (name : Option Json) :
    AllErrors (nodeNameIssues host scan path nodeId status name).1 := by
  unfold nodeNameIssues
  split
  · exact allErrors_singleton.mpr rfl
  · exact allErrors_nil
  · split
    · split
      · exact allErrors_singleton.mpr rfl
      · exact allErrors_nil
    · exact allErrors_nil

theorem allErrors_validateNode (scan : NodeScan) (index : ℕ) (node : Json) :
    AllErrors (validateNode host scan index node).1 := by
  unfold validateNode
  split
  · simp only [allErrors_append, allErrors_nodeIdIssues, allErrors_nodeNameIssues,
      allErrors_issueUnless, allErrors_validatePosition, allErrors_validateNoStaleMetadataKeys,
      allErrors_map, implies_true, and_self]
  · exact allErrors_singleton.mpr rfl

theorem allErrors_validateNodes (scan : NodeScan) (index : ℕ) (nodes : List Json) :
    AllErrors (validateNodes host scan index nodes).1 := by
  induction nodes generalizing scan index with
  | nil => exact allErrors_nil
  | cons node rest ih =>
    rw [validateNodes]
    exact allErrors_append.mpr ⟨allErrors_validateNode host scan index node, ih _ _⟩

theorem allErrors_validateEdge (edgeIds : OrderedSet String) (index : ℕ) (edge : Json) :
    AllErrors (validateEdge scan edgeIds index edge).1 := by
  unfold validateEdge
  split
  · simp only [allErrors_append, allErrors_issueUnless, and_true]
    split
    · exact allErrors_singleton.mpr rfl
    · exact allErrors_issueUnless rfl
  · exact allErrors_singleton.mpr rfl

theorem allErrors_validateEdges (edgeIds : OrderedSet String) (index : ℕ) (edges : List Json) :
    AllErrors (validateEdges scan edgeIds index edges) := by
  induction edges generalizing edgeIds index with
  | nil => exact allErrors_nil
  | cons edge rest ih =>
    rw [validateEdges]
    exact allErrors_append.mpr ⟨allErrors_validateEdge scan edgeIds index edge, ih _ _⟩

/-- Every issue the validator raises is an error. -/
theorem allErrors_validate (input : Json) :
    AllErrors (validateExecutorTopologyV2 host input).issues := by
  unfold validateExecutorTopologyV2
  split
  · simp only [topologyFieldIssues, allErrors_append, allErrors_issueUnless, allErrors_map,
      allErrors_validateNoStaleMetadataKeys, allErrors_validateNodes, allErrors_validateEdges,
      implies_true, and_self]
  · exact allErrors_singleton.mpr rfl

/-- A value is accepted exactly if there is no issue. -/
theorem ok_iff_issues {host : Host} {input : Json} :
    (validateExecutorTopologyV2 host input).ok ↔
      (validateExecutorTopologyV2 host input).issues = [] := by
  rw [ExecutorTopologyV2ValidationResult.ok, all_eq_true]
  constructor
  · intro h
    rw [eq_nil_iff_forall_not_mem]
    intro issue hissue
    have hnot := h issue hissue
    rw [decide_eq_true_eq] at hnot
    exact hnot (allErrors_validate host input issue hissue)
  · intro h
    rw [h]
    exact nofun

/-! ## Topologies -/

/-- A topology that is accepted has the facts. -/
theorem accepted_of_validate {host : Host} {topology : ExecutorTopologyV2}
    (h : (validateExecutorTopologyV2 host topology.toJson).ok) : Accepted topology := by
  have hissues := ok_iff_issues.mp h
  rw [ExecutorTopologyV2.toJson, validateExecutorTopologyV2, lookup_topology_nodes,
    lookup_topology_edges] at hissues
  simp only [append_eq_nil_iff, arrayItems?, Option.getD_some] at hissues
  obtain ⟨⟨-, hnodes⟩, hedges⟩ := hissues
  obtain ⟨hnamed, hnodup, hknown, -, hstatus⟩ := validateNodes_spec hnodes
  obtain ⟨hedgeNodup, hendpoints⟩ := validateEdges_spec hedges
  have hactive {id : String} (hid : id ∈ (validateNodes host {} 0
        (topology.nodes.map ExecutorNodeV2.toJson)).2.nodeIds)
      (hnot : (validateNodes host {} 0
        (topology.nodes.map ExecutorNodeV2.toJson)).2.nodeStatuses.get? id ≠ some .archived) :
      ∃ node ∈ topology.nodes, node.id = id ∧ node.status = .active := by
    rcases hknown id hid with hempty | ⟨node, hnode, rfl⟩
    · exact absurd hempty (OrderedSet.mem_empty id)
    · refine ⟨node, hnode, rfl, ?_⟩
      rw [hstatus node hnode] at hnot
      cases hcase : node.status with
      | active => rfl
      | archived => exact absurd (congrArg some hcase) hnot
  exact ⟨fun node hnode => (hnamed node hnode).1, hnodup, hedgeNodup,
    fun edge hedge => hactive (hendpoints edge hedge).2.1.1 (hendpoints edge hedge).2.1.2,
    fun edge hedge => hactive (hendpoints edge hedge).2.2.1.1 (hendpoints edge hedge).2.2.1.2,
    fun edge hedge => (hendpoints edge hedge).2.2.2⟩

end Nobie.Topology
