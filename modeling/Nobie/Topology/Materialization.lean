/-
# Materializing an executor topology and reading it back

An executor topology is repaired and projected to an enterprise topology to be
stored. Reading it back migrates the enterprise topology to an executor topology
and repairs that. The runtime works on the graph snapshot of the result.

The fields that the repair deletes from topologies and nodes are none of their
types, so here only their metadata and edges change.
-/

import Nobie.Topology.ExecutorTopologyV2

namespace Nobie.Topology

open Foundation

/-! ## Issues -/

inductive MigrationIssueSeverity
  | info | warning | invalid

/-- `ExecutorTopologyV2MigrationIssue`. -/
structure MigrationIssue where
  code : String
  severity : MigrationIssueSeverity := .warning
  (message topologyId : String)
  nodeId : Option String := none
  edgeId : Option String := none
  relationId : Option String := none

/-- `ExecutorTopologyV2MigrationResult`. -/
structure MigrationResult where
  topology : ExecutorTopologyV2
  issues : List MigrationIssue

/-! ## Metadata -/

mutual

/-- `cloneMetadataValue`: an object keeps every key once. -/
def cloneMetadataValue : Json → Json
  | .arr items => .arr (cloneItems items)
  | .obj fields => .obj (Json.entries (cloneFields fields))
  | value => value

def cloneItems : List Json → List Json
  | [] => []
  | item :: rest => cloneMetadataValue item :: cloneItems rest

def cloneFields : List (String × Json) → List (String × Json)
  | [] => []
  | (key, value) :: rest => (key, cloneMetadataValue value) :: cloneFields rest

end

def maybeString (value : Option Json) : Option String := (nonEmptyString? value).map jsTrim

def stringArray : Option Json → List String
  | some (.arr items) =>
    (OrderedSet.ofList (items.filterMap fun item => maybeString (some item))).elements
  | _ => []

/-- The reference to one suggestion run. -/
def auditRef (record : Option Json) : List Json :=
  match maybeString (record.bind (·.field? "suggestionRunId")) with
  | some runId =>
    [.obj ([("kind", .str "node_definition_suggestion"), ("suggestionRunId", .str runId)] ++
      optionalMember "selectedAlternativeId"
        ((maybeString (record.bind (·.field? "selectedAlternativeId"))).map .str))]
  | none => []

def auditRefsFromMetadata (record : JsonObject) : List Json :=
  auditRef (Json.lookup record "aiSuggestionState") ++
    ((arrayItems? (Json.lookup record "suggestionHistory")).getD []).flatMap fun item =>
      auditRef (some item)

mutual

/-- `sanitizeMetadataForV2`: the metadata that is kept and the issues of what is not. -/
def sanitizeMetadata (topologyId : String) (nodeId : Option String) (path : String) :
    Json → Option JsonObject × List MigrationIssue
  | .obj fields =>
    let sanitized := Json.entries (sanitizeFields topologyId nodeId path fields)
    let auditRefs := auditRefsFromMetadata fields
    let kept := sanitized.flatMap fun field => optionalMember field.1 field.2.1
    let result := if auditRefs = [] then kept
      else OrderedMap.insertEntry kept "aiSuggestionAuditRefs" (.arr auditRefs)
    (if result = [] then none else some result, sanitized.flatMap (·.2.2))
  | _ => (none, [])

def sanitizeFields (topologyId : String) (nodeId : Option String) (path : String) :
    List (String × Json) → List (String × Option Json × List MigrationIssue)
  | [] => []
  | (key, item) :: rest =>
    (key,
      if isStaleMetadataKey key then
        (none, [{ code := "executor_topology_v2_stale_metadata_removed", topologyId, nodeId
                  message := s!"Removed stale metadata {path}.{key} from " ++
                    "ExecutorTopologyV2 read model." }])
      else if key = "executorGraph" then
        let graph := sanitizeMetadata topologyId nodeId s!"{path}.executorGraph" item
        (graph.1.map .obj, graph.2)
      -- an assignment to this key sets the prototype of the result
      else if key = "__proto__" then (none, [])
      else (some (cloneMetadataValue item), [])) ::
    sanitizeFields topologyId nodeId path rest

end

variable (topologyId : String) (node : ExecutorNodeV2) (edge : ExecutorEdgeV2)
  (topology : ExecutorTopologyV2) (host : Host) (relation : EnterpriseRelation)
  (active : OrderedSet String)

/-- `sanitizeMetadataForV2` on metadata that may be absent. -/
def sanitizeMetadataForV2 (nodeId : Option String) (path : String) (metadata : Option JsonObject) :
    Option JsonObject × List MigrationIssue :=
  (metadata.map fun metadata => sanitizeMetadata topologyId nodeId path (.obj metadata)).getD
    (none, [])

/-! ## Repair -/

/-- The repair of one node. -/
def repairNode : ExecutorNodeV2 × List MigrationIssue :=
  let metadata := sanitizeMetadataForV2 topologyId node.id s!"node({node.id}).metadata"
    node.metadata
  let definitionQuickChips := stringArray (node.definitionQuickChips.map fun chips =>
    .arr (chips.map .str))
  ({ node with
      definitionQuickChips :=
        if definitionQuickChips.length > 0 then some definitionQuickChips else none
      metadata := metadata.1 }, metadata.2)

/-- The ids of the active nodes. -/
def activeNodeIds (nodes : List ExecutorNodeV2) : OrderedSet String :=
  .ofList ((nodes.filter fun node => node.status = .active).map (·.id))

/-- Is an edge kept by the repair? -/
def keepEdge (nodes : List ExecutorNodeV2) (edge : ExecutorEdgeV2) : Bool :=
  let nodeIds : OrderedSet String := .ofList (nodes.map (·.id))
  edge.sourceNodeId ≠ edge.targetNodeId &&
    edge.sourceNodeId ∈ nodeIds && edge.targetNodeId ∈ nodeIds &&
    edge.sourceNodeId ∈ activeNodeIds nodes && edge.targetNodeId ∈ activeNodeIds nodes

def repairExecutorTopologyV2ForPersistence : MigrationResult :=
  let metadata := sanitizeMetadataForV2 topology.id none "topology.metadata" topology.metadata
  let nodes := topology.nodes.map (repairNode topology.id)
  { topology :=
      { topology with
        metadata := metadata.1
        nodes := nodes.map Prod.fst
        edges := topology.edges.filter (keepEdge topology.nodes) }
    issues := metadata.2 ++ nodes.flatMap Prod.snd ++
      (topology.edges.filter fun edge => !keepEdge topology.nodes edge).map fun edge =>
        { code := "executor_topology_v2_invalid_edge_removed", topologyId := topology.id
          message := s!"Removed invalid edge {edge.id} from ExecutorTopologyV2 persistence payload."
          edgeId := some edge.id } }

/-! ## Projection to the enterprise model -/

def enterpriseStatusOfTopology : ExecutorTopologyV2Status → EnterpriseEntityStatus
  | .archived => .archived
  | .draft => .draft
  | .active => .active

def enterpriseStatusOfNode : ExecutorStatus → EnterpriseEntityStatus
  | .archived => .archived
  | .active => .active

def enterpriseNodeMetadataFromExecutorNodeV2 : JsonObject :=
  [("roleName", .str (node.roleName.getD "실행자")),
    ("executorTopologyV2",
      .obj [("schemaVersion", .num (.ofNat executorTopologyV2SchemaVersion)),
        ("nodeId", .str node.id)]),
    ("executorGraph",
      .obj ([("position", node.position.toJson)] ++
        optionalMember "definitionQuickChips"
          ((node.definitionQuickChips.filter (·.length > 0)).map fun chips =>
            .arr (chips.map .str))))] ++
    optionalMember "executorProfile" (node.profile.map fun profile =>
      cloneMetadataValue (.obj profile)) ++
    optionalMember "aiSuggestionAuditRefs"
      ((metadataMember node.metadata "aiSuggestionAuditRefs").map cloneMetadataValue)

def enterpriseNodeFromExecutorNodeV2 (timestamp : Timestamp) : NodeContract :=
  let name := (truthyText (some (jsTrim node.name))).getD node.id
  let description := (truthyText (some (jsTrim node.description)) <|>
    truthyText (node.instruction.map jsTrim)).getD name
  { id := node.id
    name
    displayName := name
    status := enterpriseStatusOfNode node.status
    createdAt := timestamp
    updatedAt := timestamp
    nodeType := .function
    description
    instruction := (truthyText (node.instruction.map jsTrim)).getD description
    tags := []
    children := []
    template := none
    metadata := enterpriseNodeMetadataFromExecutorNodeV2 node }

structure MaterializationOptions where
  migrationSource : Option String := none
  sourceTopologyVersion : Option Number := none
  sourceVersionId : Option String := none
  materializedAt : Option Timestamp := none

/-- The relation an edge is stored as. -/
def enterpriseRelationFromEdge (options : MaterializationOptions) (timestamp : Timestamp)
    (edge : ExecutorEdgeV2) : EnterpriseRelation :=
  let label := (truthyText (edge.label.map jsTrim)).getD "delegates_to"
  { id := edge.id
    name := label
    displayName := label
    status := .active
    createdAt := timestamp
    updatedAt := timestamp
    relationType := .delegatesTo
    source := ⟨.node, edge.sourceNodeId⟩
    target := ⟨.node, edge.targetNodeId⟩
    label
    metadata := some [("executorTopologyV2",
      .obj ([("schemaVersion", .num (.ofNat executorTopologyV2SchemaVersion)),
        ("edgeId", .str edge.id)] ++
        optionalMember "migrationSource" ((truthyText options.migrationSource).map .str)))] }

def enterpriseTopologyFromExecutorTopologyV2 (options : MaterializationOptions)
    (topology : ExecutorTopologyV2) : EnterpriseTopology :=
  let repaired := (repairExecutorTopologyV2ForPersistence topology).topology
  let timestamp := options.materializedAt.getD repaired.updatedAt
  let name := (truthyText (some (jsTrim repaired.name))).getD repaired.id
  { id := repaired.id
    name
    displayName := name
    status := enterpriseStatusOfTopology repaired.status
    createdAt := repaired.createdAt
    updatedAt := timestamp
    description := "ExecutorTopologyV2 materialized persistence projection."
    nodes := repaired.nodes.map fun node => enterpriseNodeFromExecutorNodeV2 node timestamp
    relations :=
      (repaired.edges.filter fun edge => edge.status = .active ∧
        edge.sourceNodeId ∈ activeNodeIds repaired.nodes ∧
        edge.targetNodeId ∈ activeNodeIds repaired.nodes).map
          (enterpriseRelationFromEdge options timestamp)
    metadata := some [("executorTopologyV2",
      .obj ([("schemaVersion", .num (.ofNat executorTopologyV2SchemaVersion)),
        ("sourceOfTruth", .str "executor_topology_v2"),
        ("migrationSource", .str
          (options.migrationSource.getD "executor_topology_v2_materialized_read_model"))] ++
        optionalMember "sourceTopologyVersion" (options.sourceTopologyVersion.map .num) ++
        optionalMember "sourceVersionId" ((truthyText options.sourceVersionId).map .str)))] }

/-! ## Migration back -/

def toExecutorStatus : EnterpriseEntityStatus → ExecutorStatus
  | .archived | .inactive => .archived
  | .draft | .active => .active

variable (node : NodeContract)

def nodeDescription : String :=
  (truthyText (node.description.map jsTrim) <|> truthyText (node.instruction.map jsTrim) <|>
    truthyText (node.displayName.map jsTrim) <|> truthyText (some (jsTrim node.name))).getD node.id

def nodeDisplayNameV2 : String :=
  (truthyText (node.displayName.map jsTrim) <|> truthyText (some (jsTrim node.name))).getD node.id

def positionOf (value : Option Json) : Option NodePosition :=
  match finiteNumber (value.bind (·.field? "x")), finiteNumber (value.bind (·.field? "y")) with
  | some x, some y => some { x, y }
  | _, _ => none

def nodePosition (index : ℕ) : NodePosition :=
  let graphMetadata := metadataRecord (metadataMember node.metadata "executorGraph")
  (positionOf (metadataMember node.metadata "position") <|>
    positionOf (metadataMember graphMetadata "position") <|>
    positionOf (metadataMember (node.template.bind (·.metadata)) "position")).getD
      { x := .ofNat (80 + index % 4 * 260), y := .ofNat (80 + index / 4 * 180) }

def nodeDefinitionQuickChipsFromEnterpriseNode : List String :=
  let graph := stringArray (metadataMember
    (metadataRecord (metadataMember node.metadata "executorGraph")) "definitionQuickChips")
  if graph.length > 0 then graph
  else stringArray (metadataMember node.metadata "definitionQuickChips")

/-- The migration of one node. -/
def migrateNode (host : Host) (topologyId : String) (index : ℕ) (node : NodeContract) :
    ExecutorNodeV2 × List MigrationIssue :=
  let profile := buildExecutorProfileFromNode host node
  let definitionQuickChips := nodeDefinitionQuickChipsFromEnterpriseNode node
  let metadata := sanitizeMetadataForV2 topologyId node.id s!"node({node.id}).metadata"
    node.metadata
  let compatibility : JsonObject :=
    [("sourceSchemaVersion", .num (.ofNat enterpriseTopologySchemaVersion)),
      ("sourceEntityType", .str "node"),
      ("sourceNodeType", .str node.nodeType.text),
      ("sourceStatus", .str node.status.text)] ++
    optionalMember "sourceTemplateId" ((truthyText (node.template.map (·.templateId))).map .str) ++
    optionalMember "importedFromAgentConfigId"
      ((metadataMember node.metadata "importedFromAgentConfigId").filter Json.truthy)
  ({ id := node.id
     name := nodeDisplayNameV2 node
     roleName := profile.roleName
     description := nodeDescription node
     definitionQuickChips :=
       if definitionQuickChips.length > 0 then some definitionQuickChips else none
     instruction := truthyText (node.instruction.map jsTrim)
     position := nodePosition node index
     status := toExecutorStatus node.status
     profile := profile.toJson
     metadata := some (metadata.1.getD [] ++ [("compatibility", .obj compatibility)]) },
    metadata.2)

def enterpriseRelationNodeId (ref : EnterpriseEntityRef) : Option String :=
  if ref.entityType = .node ∧ jsTrim ref.id ≠ "" then some ref.id else none

/-- An edge id with its prefix. -/
def prefixedEdgeId (id : String) : String :=
  if "edge:".toList <+: id.toList then id else "edge:" ++ id

def relationEdgeId : String := prefixedEdgeId relation.id

def legacyChildEdgeId (sourceNodeId targetNodeId : String) : String :=
  s!"edge:legacy-child:{sourceNodeId}:{targetNodeId}"

/-- The endpoints of a relation that is an edge between active nodes. -/
def activeEndpoints? (relation : EnterpriseRelation) : Option (String × String) :=
  match enterpriseRelationNodeId relation.source, enterpriseRelationNodeId relation.target with
  | some sourceNodeId, some targetNodeId =>
    if sourceNodeId ∈ active ∧ targetNodeId ∈ active then some (sourceNodeId, targetNodeId)
    else none
  | _, _ => none

/-- The edge a relation is read as. -/
def edgeOfRelation (endpoints : String × String) : ExecutorEdgeV2 where
  id := relationEdgeId relation
  sourceNodeId := endpoints.1
  targetNodeId := endpoints.2
  label := truthyText (relation.label.map jsTrim)
  status := toExecutorStatus relation.status

/-- The loop over the relations. -/
def migrateRelations (topologyId : String) (active : OrderedSet String) (seenEdgeIds : List String) :
    List EnterpriseRelation → List ExecutorEdgeV2 × List MigrationIssue
  | [] => ([], [])
  | relation :: rest =>
    if relation.relationType ≠ .delegatesTo then
      migrateRelations topologyId active seenEdgeIds rest
    else
      match activeEndpoints? active relation with
      | none =>
        let others := migrateRelations topologyId active seenEdgeIds rest
        (others.1,
          { code := "executor_topology_v2_relation_skipped", topologyId
            message := s!"Relation {relation.id} was skipped because it is not a valid " ++
              "delegates_to edge between active nodes."
            relationId := some relation.id } :: others.2)
      | some endpoints =>
        let edgeId := relationEdgeId relation
        if edgeId ∈ seenEdgeIds then
          let others := migrateRelations topologyId active seenEdgeIds rest
          (others.1,
            { code := "executor_topology_v2_duplicate_edge_skipped", topologyId
              message := s!"Duplicate V2 edge id {edgeId} was skipped."
              edgeId := some edgeId, relationId := some relation.id } :: others.2)
        else
          let others := migrateRelations topologyId active (edgeId :: seenEdgeIds) rest
          (edgeOfRelation relation endpoints :: others.1, others.2)

/-- The loop over the legacy children of a node. -/
def migrateChildren (topologyId : String) (active : OrderedSet String) (node : NodeContract)
    (seenEdgeIds : List String) : List String → List ExecutorEdgeV2 × List MigrationIssue
  | [] => ([], [])
  | targetNodeId :: rest =>
    if targetNodeId ∉ active then
      let others := migrateChildren topologyId active node seenEdgeIds rest
      (others.1,
        { code := "executor_topology_v2_legacy_child_skipped", topologyId
          message := s!"Legacy child {targetNodeId} on node {node.id} was skipped because " ++
            "the target is not active."
          nodeId := some node.id } :: others.2)
    else
      let edgeId := legacyChildEdgeId node.id targetNodeId
      if edgeId ∈ seenEdgeIds then migrateChildren topologyId active node seenEdgeIds rest
      else
        let others := migrateChildren topologyId active node (edgeId :: seenEdgeIds) rest
        ({ id := edgeId, sourceNodeId := node.id, targetNodeId, label := none
           status := .active } :: others.1, others.2)

/-- The loop over the nodes for their legacy children. -/
def migrateLegacyChildren (topologyId : String) (active : OrderedSet String)
    (seenEdgeIds : List String) :
    List NodeContract → List ExecutorEdgeV2 × List MigrationIssue
  | [] => ([], [])
  | node :: rest =>
    if toExecutorStatus node.status ≠ .active then
      migrateLegacyChildren topologyId active seenEdgeIds rest
    else
      let children := migrateChildren topologyId active node seenEdgeIds
        (OrderedSet.ofList node.children).elements
      let others := migrateLegacyChildren topologyId active
        (children.1.map (·.id) ++ seenEdgeIds) rest
      (children.1 ++ others.1, children.2 ++ others.2)

/-- The edges of a topology: its delegations, or the legacy children if it has none. -/
def migrateEdges (topology : EnterpriseTopology) (active : OrderedSet String) :
    List ExecutorEdgeV2 × List MigrationIssue :=
  let relations := migrateRelations topology.id active [] topology.relations
  if topology.relations.any (·.relationType = .delegatesTo) then
    (relations.1, relations.2 ++
      if topology.nodes.any (·.children.length > 0) then
        [{ code := "executor_topology_v2_legacy_children_ignored", severity := .info
           message := "Legacy node.children values were ignored because delegates_to relations " ++
             "are the source of truth."
           topologyId := topology.id }]
      else [])
  else
    let children := migrateLegacyChildren topology.id active [] topology.nodes
    (relations.1 ++ children.1, relations.2 ++ children.2)

def executorStatusOfTopology : EnterpriseEntityStatus → ExecutorTopologyV2Status
  | .archived => .archived
  | .active => .active
  | .draft | .inactive => .draft

/-- A timestamp of the enterprise model, or the clock where it is not valid. -/
def timestampFromEnterprise (value : Timestamp) (fallback : Number) : Timestamp :=
  if validTimestamp (some value.toJson) then value else .number fallback

def migrateEnterpriseTopologyToExecutorTopologyV2 (host : Host) (now : Number)
    (topology : EnterpriseTopology) : MigrationResult :=
  let active : OrderedSet String := .ofList
    ((topology.nodes.filter fun node => toExecutorStatus node.status = .active).map (·.id))
  let nodes := topology.nodes.mapIdx fun index node => migrateNode host topology.id index node
  let edges := migrateEdges topology active
  let metadata := sanitizeMetadataForV2 topology.id none "topology.metadata" topology.metadata
  let migrated : ExecutorTopologyV2 :=
    { id := topology.id
      name := (truthyText (topology.displayName.map jsTrim) <|>
        truthyText (some (jsTrim topology.name))).getD topology.id
      status := executorStatusOfTopology topology.status
      activeVersion := none
      nodes := nodes.map Prod.fst
      edges := edges.1
      metadata := some (metadata.1.getD [] ++
        [("compatibility", .obj
          [("sourceSchemaVersion", .num (.ofNat enterpriseTopologySchemaVersion)),
            ("sourceEntityType", .str "topology"),
            ("sourceStatus", .str topology.status.text),
            ("enterpriseExtensionDataRemoved", .bool true)])])
      createdAt := timestampFromEnterprise topology.createdAt now
      updatedAt := timestampFromEnterprise topology.updatedAt now }
  { topology := migrated
    issues := nodes.flatMap Prod.snd ++ edges.2 ++ metadata.2 ++
      (validateExecutorTopologyV2 host migrated.toJson).issues.map fun issue =>
        { code := s!"executor_topology_v2_validation_{issue.code}"
          severity := if issue.severity = .error then .invalid else .warning
          message := issue.message
          topologyId := topology.id
          nodeId := truthyText issue.nodeId
          edgeId := truthyText issue.edgeId } }

def buildExecutorTopologyV2RuntimeReadModelFromEnterpriseTopology (now : Number)
    (topology : EnterpriseTopology) : MigrationResult :=
  let migration := migrateEnterpriseTopologyToExecutorTopologyV2 host now topology
  let repair := repairExecutorTopologyV2ForPersistence migration.topology
  { topology := repair.topology, issues := migration.issues ++ repair.issues }

/-! ## The runtime graph -/

structure ExecutorRuntimeGraphSnapshotV2 where
  (topologyId rootAgentId : String)
  nodes : List ExecutorNodeV2
  edges : List ExecutorEdgeV2
  rootDirectChildIds : List String
  directChildrenByNodeId : OrderedMap String (List String)

/-- A turn of the loop that fills in the direct children. -/
def pushDirectChild (children : OrderedMap String (List String)) (edge : ExecutorEdgeV2) :
    OrderedMap String (List String) :=
  match children.get? edge.sourceNodeId with
  | some targets => children.set edge.sourceNodeId (targets ++ [edge.targetNodeId])
  | none => children

def buildExecutorRuntimeGraphSnapshotV2 (topology : ExecutorTopologyV2) :
    ExecutorRuntimeGraphSnapshotV2 :=
  let activeNodes := topology.nodes.filter fun node => node.status = .active
  let ids : OrderedSet String := .ofList (activeNodes.map (·.id))
  let activeEdges := topology.edges.filter fun edge =>
    edge.status = .active ∧ edge.sourceNodeId ∈ ids ∧ edge.targetNodeId ∈ ids
  let incoming : OrderedSet String := .ofList (activeEdges.map (·.targetNodeId))
  { topologyId := topology.id
    rootAgentId := nobieRootAgentId
    nodes := activeNodes
    edges := activeEdges
    rootDirectChildIds := (activeNodes.filter fun node => node.id ∉ incoming).map (·.id)
    directChildrenByNodeId := activeEdges.foldl pushDirectChild
      (activeNodes.foldl (fun children node => children.set node.id []) ∅) }

end Nobie.Topology
