/-
# Executor topologies and their validator

An executor topology is a list of nodes and a list of edges between them. The
validator takes any value; a topology is handed to it as the object that it is in
the source. Every issue the validator raises is an error, so a value is accepted
if there is no issue.
-/

import Nobie.Topology.EnterpriseTopology

namespace Nobie.Topology

open Foundation

def executorTopologyV2SchemaVersion : ℕ := 2

def nobieRootAgentId : String := "agent:nobie"

/-! ## Topologies -/

inductive ExecutorTopologyV2Status
  | draft | active | archived

def ExecutorTopologyV2Status.text : ExecutorTopologyV2Status → String
  | .draft => "draft"
  | .active => "active"
  | .archived => "archived"

/-- The status of a node or an edge. -/
inductive ExecutorStatus
  | active | archived
  deriving DecidableEq

def ExecutorStatus.text : ExecutorStatus → String
  | .active => "active"
  | .archived => "archived"

structure NodePosition where
  (x y : Number)

structure ExecutorNodeV2 where
  (id name : String)
  roleName : Option String
  description : String
  definitionQuickChips : Option (List String)
  instruction : Option String
  position : NodePosition
  status : ExecutorStatus
  (profile metadata : Option JsonObject)

/-- An edge; its type is `delegates_to`. -/
structure ExecutorEdgeV2 where
  (id sourceNodeId targetNodeId : String)
  label : Option String
  status : ExecutorStatus

structure ExecutorTopologyV2 where
  (id name : String)
  status : ExecutorTopologyV2Status
  activeVersion : Option Number
  nodes : List ExecutorNodeV2
  edges : List ExecutorEdgeV2
  metadata : Option JsonObject
  (createdAt updatedAt : Timestamp)

/-- An optional member of an object literal. -/
def optionalMember (key : String) (value : Option Json) : JsonObject :=
  (value.map fun value => (key, value)).toList

def NodePosition.toJson (position : NodePosition) : Json :=
  .obj [("x", .num position.x), ("y", .num position.y)]

def ExecutorNodeV2.fields (node : ExecutorNodeV2) : JsonObject :=
  [("id", .str node.id), ("name", .str node.name)] ++
    optionalMember "roleName" (node.roleName.map .str) ++
    [("description", .str node.description)] ++
    optionalMember "definitionQuickChips"
      (node.definitionQuickChips.map fun chips => .arr (chips.map .str)) ++
    optionalMember "instruction" (node.instruction.map .str) ++
    [("position", node.position.toJson), ("status", .str node.status.text)] ++
    optionalMember "profile" (node.profile.map .obj) ++
    optionalMember "metadata" (node.metadata.map .obj)

def ExecutorNodeV2.toJson (node : ExecutorNodeV2) : Json := .obj node.fields

def ExecutorEdgeV2.fields (edge : ExecutorEdgeV2) : JsonObject :=
  [("id", .str edge.id), ("sourceNodeId", .str edge.sourceNodeId),
      ("targetNodeId", .str edge.targetNodeId), ("type", .str "delegates_to")] ++
    optionalMember "label" (edge.label.map .str) ++
    [("status", .str edge.status.text)]

def ExecutorEdgeV2.toJson (edge : ExecutorEdgeV2) : Json := .obj edge.fields

def ExecutorTopologyV2.fields (topology : ExecutorTopologyV2) : JsonObject :=
  [("schemaVersion", .num (.ofNat executorTopologyV2SchemaVersion)),
      ("id", .str topology.id), ("name", .str topology.name),
      ("status", .str topology.status.text)] ++
    optionalMember "activeVersion" (topology.activeVersion.map .num) ++
    [("nodes", .arr (topology.nodes.map ExecutorNodeV2.toJson)),
      ("edges", .arr (topology.edges.map ExecutorEdgeV2.toJson))] ++
    optionalMember "metadata" (topology.metadata.map .obj) ++
    [("createdAt", topology.createdAt.toJson), ("updatedAt", topology.updatedAt.toJson)]

def ExecutorTopologyV2.toJson (topology : ExecutorTopologyV2) : Json := .obj topology.fields

/-! ## Fields that are out of date -/

def staleTopologyFields : List String :=
  ["relations", "teams", "orgUnits", "positions", "persons", "memberships", "authorityRules",
    "responsibilities", "systems", "tools", "processes", "children", "allowedToolIds",
    "allowedSystemIds"]

def staleNodeFields : List String := ["children", "allowedToolIds", "allowedSystemIds"]

def staleMetadataKeys : List String :=
  ["active_default_workflow_candidate", "advancedMapping", "aiSuggestionAlternatives",
    "allowedSystemIds", "allowedToolIds", "children", "confirmedUnderstandingVersion",
    "definitionQuickChips", "diagnostic", "diagnostics", "inferenceEvidence", "inferredOutputs",
    "inferredRuntimeMode", "inferredSuccessCriteria", "inferredTools", "lastSelectedNodeId",
    "nodeDefinitionAlternatives", "nobieUnderstanding", "recommendedEntry", "runtimeDiagnostic",
    "runtimeDiagnostics", "selectedId", "selectedNodeId", "suggestionAlternatives",
    "understanding", "understoodByNobie", "workspace"]

/-- The test on a metadata key that two functions share. -/
def isStaleMetadataKey (key : String) : Bool :=
  key ∈ staleMetadataKeys || key == "suggestionHistory" || key == "aiSuggestionState"

/-! ## Reading unknown values -/

def nonEmptyString? : Option Json → Option String
  | some (.str value) => if jsTrim value = "" then none else some value
  | _ => none

/-- Every run of white space as one blank. -/
def collapseSpaces : List Char → List Char
  | [] => []
  | c :: rest =>
    if isJsSpace c then
      if rest.head?.any isJsSpace then collapseSpaces rest else ' ' :: collapseSpaces rest
    else c :: collapseSpaces rest

variable (host : Host) (path : String)

def normalizedExecutorNodeName (name : String) : Option String :=
  truthyText (some (host.toLocaleLowerCase
    (jsTrim (String.ofList (collapseSpaces name.toList)))))

def finiteNumber : Option Json → Option Number
  | some (.num number) => if number.isFinite then some number else none
  | _ => none

def validTimestamp : Option Json → Bool
  | some (.str value) => jsTrim value ≠ ""
  | some (.num number) => number.isFinite
  | _ => false

/-! ## The validator -/

inductive ExecutorTopologyV2ValidationSeverity
  | error | warning
  deriving DecidableEq

structure ExecutorTopologyV2ValidationIssue where
  code : String
  severity : ExecutorTopologyV2ValidationSeverity := .error
  (path message : String)
  nodeId : Option String := none
  edgeId : Option String := none

/-- An issue where a check fails. -/
def issueUnless (passes : Bool) (issue : ExecutorTopologyV2ValidationIssue) :
    List ExecutorTopologyV2ValidationIssue :=
  if passes then [] else [issue]

def validatePosition (value : Option Json) (path : String) (nodeId : Option String) :
    List ExecutorTopologyV2ValidationIssue :=
  match value with
  | some (.obj fields) =>
    issueUnless (finiteNumber (Json.lookup fields "x")).isSome
      { code := "invalid_node_position_x", path := s!"{path}.x", nodeId
        message := "Node position.x must be a finite number." } ++
    issueUnless (finiteNumber (Json.lookup fields "y")).isSome
      { code := "invalid_node_position_y", path := s!"{path}.y", nodeId
        message := "Node position.y must be a finite number." }
  | _ =>
    [{ code := "invalid_node_position", path, nodeId
       message := "Node position must be an object with finite x and y numbers." }]

mutual

/-- `validateNoStaleMetadataKeys`. -/
def staleMetadataIssues (path : String) (nodeId : Option String) :
    Json → List ExecutorTopologyV2ValidationIssue
  | .arr items => staleItemIssues path nodeId 0 items
  | .obj fields =>
    (Json.entries (staleFieldIssues path nodeId fields)).flatMap Prod.snd
  | _ => []

def staleItemIssues (path : String) (nodeId : Option String) (index : ℕ) :
    List Json → List ExecutorTopologyV2ValidationIssue
  | [] => []
  | item :: rest =>
    staleMetadataIssues s!"{path}[{index}]" nodeId item ++
      staleItemIssues path nodeId (index + 1) rest

def staleFieldIssues (path : String) (nodeId : Option String) :
    List (String × Json) → List (String × List ExecutorTopologyV2ValidationIssue)
  | [] => []
  | (key, item) :: rest =>
    (key,
      if isStaleMetadataKey key then
        [{ code := "stale_metadata_field", path := s!"{path}.{key}", nodeId
           message := s!"{key} is projection-only metadata and cannot be persisted as " ++
             "ExecutorTopologyV2 source data." }]
      else staleMetadataIssues s!"{path}.{key}" nodeId item) ::
    staleFieldIssues path nodeId rest

end

/-- `validateNoStaleMetadataKeys` on a member that may be absent. -/
def validateNoStaleMetadataKeys (value : Option Json) (path : String) (nodeId : Option String) :
    List ExecutorTopologyV2ValidationIssue :=
  (value.map (staleMetadataIssues path nodeId)).getD []

/-- The fields an object must not have. -/
def staleFieldNames (fields : JsonObject) (stale : List String) : List String :=
  stale.filter fun field => (Json.lookup fields field).isSome

/-- What the validator has gathered from the nodes it has seen. -/
structure NodeScan where
  nodeIds : OrderedSet String := ∅
  nodeStatuses : OrderedMap String ExecutorStatus := ∅
  activeNodeNameOwners : OrderedMap String String := ∅

def executorStatus? : Option Json → Option ExecutorStatus
  | some (.str "active") => some .active
  | some (.str "archived") => some .archived
  | _ => none

variable (scan : NodeScan)

/-- The check of a node's id against the nodes before it. -/
def nodeIdIssues (path : String) :
    Option String → List ExecutorTopologyV2ValidationIssue
  | none => [{ code := "invalid_node_id", path := s!"{path}.id", message := "Node id is required." }]
  | some nodeId =>
    issueUnless (nodeId ∉ scan.nodeIds)
      { code := "duplicate_node_id", path := s!"{path}.id", nodeId
        message := s!"Duplicate node id {nodeId}." }

/-- The check of the name of an active node, and the owners of names after it. -/
def nodeNameIssues (path : String) (nodeId : Option String) (status : Option ExecutorStatus)
    (name : Option Json) : List ExecutorTopologyV2ValidationIssue × OrderedMap String String :=
  match nonEmptyString? name, nodeId with
  | none, _ =>
    ([{ code := "invalid_node_name", path := s!"{path}.name", nodeId
        message := "Node name is required." }], scan.activeNodeNameOwners)
  | some _, none => ([], scan.activeNodeNameOwners)
  | some name, some owner =>
    match status, normalizedExecutorNodeName host name with
    | some .active, some normalizedName =>
      if (scan.activeNodeNameOwners.get? normalizedName).any (· ≠ owner) then
        ([{ code := "duplicate_node_name", path := s!"{path}.name", nodeId
            message := s!"Duplicate active node name {jsTrim name}. " ++
              "Executor node names must be unique." }], scan.activeNodeNameOwners)
      else ([], scan.activeNodeNameOwners.set normalizedName owner)
    | _, _ => ([], scan.activeNodeNameOwners)

def quickChipsValid : Option Json → Bool
  | none => true
  | some (.arr items) => items.all fun item => (nonEmptyString? (some item)).isSome
  | some _ => false

/-- The turn of the loop over the nodes for one of them. -/
def validateNode (index : ℕ) (node : Json) : List ExecutorTopologyV2ValidationIssue × NodeScan :=
  let path := s!"$.nodes[{index}]"
  match node with
  | .obj fields =>
    let nodeId := nonEmptyString? (Json.lookup fields "id")
    let status := executorStatus? (Json.lookup fields "status")
    let named := nodeNameIssues host scan path nodeId status (Json.lookup fields "name")
    (nodeIdIssues scan path nodeId ++
      named.1 ++
      issueUnless (nonEmptyString? (Json.lookup fields "description")).isSome
        { code := "invalid_node_description", path := s!"{path}.description", nodeId
          message := "Node description is required." } ++
      issueUnless (quickChipsValid (Json.lookup fields "definitionQuickChips"))
        { code := "invalid_node_definition_quick_chips"
          path := s!"{path}.definitionQuickChips", nodeId
          message := "definitionQuickChips must be a non-empty string array when provided." } ++
      issueUnless status.isSome
        { code := "invalid_node_status", path := s!"{path}.status", nodeId
          message := "Node status must be active or archived." } ++
      validatePosition (Json.lookup fields "position") s!"{path}.position" nodeId ++
      (staleFieldNames fields staleNodeFields).map (fun field =>
        { code := "stale_node_field", path := s!"{path}.{field}", nodeId
          message := s!"{field} is not part of the ExecutorNodeV2 source model." }) ++
      validateNoStaleMetadataKeys (Json.lookup fields "profile") s!"{path}.profile" nodeId ++
      validateNoStaleMetadataKeys (Json.lookup fields "metadata") s!"{path}.metadata" nodeId,
    { nodeIds := (nodeId.map scan.nodeIds.add).getD scan.nodeIds
      nodeStatuses :=
        match nodeId, status with
        | some nodeId, some status => scan.nodeStatuses.set nodeId status
        | _, _ => scan.nodeStatuses
      activeNodeNameOwners := named.2 })
  | _ => ([{ code := "invalid_node_shape", path, message := "Node must be an object." }], scan)

def validateNodes (host : Host) (scan : NodeScan) (index : ℕ) :
    List Json → List ExecutorTopologyV2ValidationIssue × NodeScan
  | [] => ([], scan)
  | node :: rest =>
    let checked := validateNode host scan index node
    let others := validateNodes host checked.2 (index + 1) rest
    (checked.1 ++ others.1, others.2)

/-- The turn of the loop over the edges for one of them. -/
def validateEdge (edgeIds : OrderedSet String) (index : ℕ) (edge : Json) :
    List ExecutorTopologyV2ValidationIssue × OrderedSet String :=
  let path := s!"$.edges[{index}]"
  match edge with
  | .obj fields =>
    let edgeId := nonEmptyString? (Json.lookup fields "id")
    let sourceNodeId := nonEmptyString? (Json.lookup fields "sourceNodeId")
    let targetNodeId := nonEmptyString? (Json.lookup fields "targetNodeId")
    let archived (nodeId : Option String) : Bool :=
      nodeId.any fun nodeId => scan.nodeStatuses.get? nodeId = some .archived
    ((match edgeId with
        | none => [{ code := "invalid_edge_id", path := s!"{path}.id"
                     message := "Edge id is required." }]
        | some edgeId => issueUnless (edgeId ∉ edgeIds)
            { code := "duplicate_edge_id", path := s!"{path}.id", edgeId
              message := s!"Duplicate edge id {edgeId}." }) ++
      issueUnless (nonEmptyString? (Json.lookup fields "type") = some "delegates_to")
        { code := "invalid_edge_type", path := s!"{path}.type", edgeId
          message := "ExecutorEdgeV2 type must be delegates_to." } ++
      issueUnless (executorStatus? (Json.lookup fields "status")).isSome
        { code := "invalid_edge_status", path := s!"{path}.status", edgeId
          message := "Edge status must be active or archived." } ++
      issueUnless (sourceNodeId.any (· ∈ scan.nodeIds))
        { code := "invalid_edge_source", path := s!"{path}.sourceNodeId", edgeId
          message := "Edge sourceNodeId must reference an existing node." } ++
      issueUnless (targetNodeId.any (· ∈ scan.nodeIds))
        { code := "invalid_edge_target", path := s!"{path}.targetNodeId", edgeId
          message := "Edge targetNodeId must reference an existing node." } ++
      issueUnless (sourceNodeId.isNone || sourceNodeId ≠ targetNodeId)
        { code := "self_loop_edge", path, edgeId
          message := "ExecutorEdgeV2 cannot delegate from a node to itself." } ++
      issueUnless (!archived sourceNodeId)
        { code := "archived_edge_endpoint", path := s!"{path}.sourceNodeId", edgeId
          message := "ExecutorEdgeV2 sourceNodeId cannot reference an archived node." } ++
      issueUnless (!archived targetNodeId)
        { code := "archived_edge_endpoint", path := s!"{path}.targetNodeId", edgeId
          message := "ExecutorEdgeV2 targetNodeId cannot reference an archived node." },
    (edgeId.map edgeIds.add).getD edgeIds)
  | _ => ([{ code := "invalid_edge_shape", path, message := "Edge must be an object." }], edgeIds)

def validateEdges (scan : NodeScan) (edgeIds : OrderedSet String) (index : ℕ) :
    List Json → List ExecutorTopologyV2ValidationIssue
  | [] => []
  | edge :: rest =>
    let checked := validateEdge scan edgeIds index edge
    checked.1 ++ validateEdges scan checked.2 (index + 1) rest

def activeVersionValid : Option Json → Bool
  | none => true
  | some (.num number) => number.isFinite && number.value.den == 1 && decide (0 ≤ number.value)
  | some _ => false

/-- The checks of the fields of a topology other than its nodes and edges. -/
def topologyFieldIssues (fields : JsonObject) : List ExecutorTopologyV2ValidationIssue :=
  issueUnless
    (match Json.lookup fields "schemaVersion" with
      | some (.num number) => number.value = executorTopologyV2SchemaVersion
      | _ => false)
    { code := "invalid_schema_version", path := "$.schemaVersion"
      message := "ExecutorTopologyV2 schemaVersion must be 2." } ++
  issueUnless (nonEmptyString? (Json.lookup fields "id")).isSome
    { code := "invalid_topology_id", path := "$.id", message := "Topology id is required." } ++
  issueUnless (nonEmptyString? (Json.lookup fields "name")).isSome
    { code := "invalid_topology_name", path := "$.name"
      message := "Topology name is required." } ++
  issueUnless
    (match Json.lookup fields "status" with
      | some (.str status) => status ∈ ["draft", "active", "archived"]
      | _ => false)
    { code := "invalid_topology_status", path := "$.status"
      message := "Topology status must be draft, active, or archived." } ++
  issueUnless (validTimestamp (Json.lookup fields "createdAt"))
    { code := "invalid_created_at", path := "$.createdAt"
      message := "createdAt must be a non-empty string or finite number." } ++
  issueUnless (validTimestamp (Json.lookup fields "updatedAt"))
    { code := "invalid_updated_at", path := "$.updatedAt"
      message := "updatedAt must be a non-empty string or finite number." } ++
  issueUnless (activeVersionValid (Json.lookup fields "activeVersion"))
    { code := "invalid_active_version", path := "$.activeVersion"
      message := "activeVersion must be a non-negative integer when provided." } ++
  (staleFieldNames fields staleTopologyFields).map (fun field =>
    { code := "stale_topology_field", path := s!"$.{field}"
      message := s!"{field} is not part of the ExecutorTopologyV2 source model." }) ++
  validateNoStaleMetadataKeys (Json.lookup fields "metadata") "$.metadata" none

def arrayItems? : Option Json → Option (List Json)
  | some (.arr items) => some items
  | _ => none

structure ExecutorTopologyV2ValidationResult where
  issues : List ExecutorTopologyV2ValidationIssue

def ExecutorTopologyV2ValidationResult.ok (result : ExecutorTopologyV2ValidationResult) : Bool :=
  result.issues.all fun issue => issue.severity ≠ .error

def validateExecutorTopologyV2 (input : Json) : ExecutorTopologyV2ValidationResult :=
  match input with
  | .obj fields =>
    let nodes := arrayItems? (Json.lookup fields "nodes")
    let edges := arrayItems? (Json.lookup fields "edges")
    let checkedNodes := validateNodes host {} 0 (nodes.getD [])
    ⟨topologyFieldIssues fields ++
      issueUnless nodes.isSome
        { code := "invalid_nodes", path := "$.nodes", message := "nodes must be an array." } ++
      issueUnless edges.isSome
        { code := "invalid_edges", path := "$.edges", message := "edges must be an array." } ++
      checkedNodes.1 ++
      validateEdges checkedNodes.2 ∅ 0 (edges.getD [])⟩
  | _ => ⟨[{ code := "invalid_topology_shape", path := "$"
             message := "ExecutorTopologyV2 must be an object." }]⟩

end Nobie.Topology
