/-
# Enterprise topologies as they are edited, validated and compiled

The entities of an enterprise topology with what the editor, the validator and the compiler
read and write of them, and the check of the contract as far as the types of the entities do
not make it.
-/

import Nobie.Foundation.JsNumber
import Nobie.Foundation.JsValue
import Nobie.Foundation.PathSearch
import Nobie.Topology.EnterpriseTopology

namespace Nobie.Enterprise

open Foundation JsString

open Nobie.Topology (EnterpriseEntityStatus EnterpriseEntityType EnterpriseRelationType NodeType)

inductive EnterpriseTimestamp
  | number (value : JsNumber)
  | text (value : JsString)

/-! ## Entities -/

structure EnterpriseBaseEntity where
  (id name : JsString)
  displayName : Option JsString
  status : EnterpriseEntityStatus
  (createdAt updatedAt : EnterpriseTimestamp)
  metadata : Option PlainObject

structure EnterpriseEntityRef where
  entityType : EnterpriseEntityType
  id : JsString
  deriving DecidableEq

structure NodeContract extends EnterpriseBaseEntity where
  nodeType : NodeType
  owner : Option EnterpriseEntityRef
  description : Option JsString
  (tags children : List JsString)
  template : Option PlainObject
  (allowedToolIds allowedSystemIds : List JsString)
  (failurePolicy recoveryPolicy : Option PlainObject)

structure EnterpriseTeam extends EnterpriseBaseEntity where
  nodeIds : List JsString

structure OrgUnit extends EnterpriseBaseEntity where
  parentOrgUnitId : Option JsString
  (positionIds personIds : List JsString)

structure Position extends EnterpriseBaseEntity where
  orgUnitId : JsString
  reportsToPositionId : Option JsString
  personIds : List JsString
  backupPositionId : Option JsString

structure Person extends EnterpriseBaseEntity where
  (positionIds orgUnitIds : List JsString)

structure Membership extends EnterpriseBaseEntity where
  personId : JsString
  (positionId orgUnitId teamId : Option JsString)

structure AuthorityRule extends EnterpriseBaseEntity where
  (subject object : EnterpriseEntityRef)

structure ResponsibilityMatrixEntry extends EnterpriseBaseEntity where
  (scope responsible : EnterpriseEntityRef)
  accountable : Option EnterpriseEntityRef
  (consulted informed : List EnterpriseEntityRef)

structure EnterpriseSystem extends EnterpriseBaseEntity where
  dataDomainIds : List JsString

structure EnterpriseTool extends EnterpriseBaseEntity where
  systemId : Option JsString

structure ProcessDefinition extends EnterpriseBaseEntity where
  ownerNodeId : Option JsString
  stepNodeIds : List JsString
  accountablePositionId : Option JsString

structure EnterpriseRelation extends EnterpriseBaseEntity where
  relationType : EnterpriseRelationType
  (source target : EnterpriseEntityRef)
  label : Option JsString

structure EnterpriseTopology extends EnterpriseBaseEntity where
  nodes : List NodeContract
  teams : List EnterpriseTeam
  orgUnits : List OrgUnit
  positions : List Position
  persons : List Person
  memberships : List Membership
  authorityRules : List AuthorityRule
  responsibilities : List ResponsibilityMatrixEntry
  systems : List EnterpriseSystem
  tools : List EnterpriseTool
  processes : List ProcessDefinition
  relations : List EnterpriseRelation

/-! ## Issues -/

inductive TopologyValidatorSeverity
  | info | warning | blocked | invalid
  deriving DecidableEq

inductive TopologyValidatorIssueCode
  | missingRequiredField | invalidNodeOwner | invalidRelationEndpoint | duplicateEntityId
  | missingEntityReference | delegationCycle | maxDelegationDepthExceeded | emptyTeamNodes
  | emptyProcessSteps | authorityRuleConflict | invalidAuthorityRuleAction
  | approvalAuthorityMissing | toolPermissionMissing | systemPermissionMissing
  | declaredToolRelationMissing | declaredSystemRelationMissing | processOwnerMissing
  | processStepOwnerMissing | processTransitionReferenceInvalid | responsibilityMatrixMissing
  | raciAccountableMissing | failurePolicyMissing | recoveryPolicyMissing | invalidFailurePolicy
  | invalidRecoveryPolicy | orgUnitHierarchyCycle | positionReportsToCycle
  | positionReportsToInvalidOrgScope | membershipValidityInvalid | membershipAllocationInvalid
  | personMembershipAllocationExceeded | approvalLimitMissing | approvalLimitExceeded
  | authorityDelegationInvalid | processSlaMissing | processSlaInvalid | criticalSystemAccessMissing
  | dataDomainAccessMissing

structure TopologyValidatorIssue where
  path : String
  code : TopologyValidatorIssueCode
  severity : TopologyValidatorSeverity

/-- The issues of the entities of a collection, each under its own path. -/
def collectionIssues {A : Type} (key : String) (items : List A)
    (issues : String → A → List TopologyValidatorIssue) : List TopologyValidatorIssue :=
  items.zipIdx.flatMap fun entry => issues s!"$.{key}[{entry.2}]" entry.1

/-! ## The contract -/

variable (path : String) (entityType : EnterpriseEntityType)

def requiredString (key : String) (value : JsString) : List TopologyValidatorIssue :=
  if trim value ≠ [] then []
  else [⟨s!"{path}.{key}", .missingRequiredField, .invalid⟩]

def isTimestamp : EnterpriseTimestamp → Bool
  | .number value => value.isFinite
  | .text value => trim value ≠ []

def timestampIssues (key : String) (value : EnterpriseTimestamp) : List TopologyValidatorIssue :=
  if isTimestamp value then [] else [⟨s!"{path}.{key}", .missingRequiredField, .invalid⟩]

/-- `validateBaseEntity`. -/
def baseEntityIssues (entity : EnterpriseBaseEntity) : List TopologyValidatorIssue :=
  requiredString path "id" entity.id ++ requiredString path "name" entity.name ++
    timestampIssues path "createdAt" entity.createdAt ++
      timestampIssues path "updatedAt" entity.updatedAt

def isPeopleOrStructure : Bool := entityType ∈ [.node, .team, .orgUnit, .position, .person]

def isWorkTarget : Bool :=
  entityType ∈ [.node, .processDefinition, .enterpriseSystem, .enterpriseTool]

def isAccountableHolder : Bool := entityType ∈ [.position, .person, .orgUnit, .node]

def isConsulted : Bool := entityType ∈ [.node, .position, .person]

/-- `endpointAllowed`. -/
def endpointAllowed (relationType : EnterpriseRelationType)
    (source target : EnterpriseEntityType) : Bool :=
  match relationType with
  | .delegatesTo => source = .node && target = .node
  | .reportsTo =>
    (source = .position && target = .position) || (source = .person && target = .person)
  | .belongsTo =>
    (source = .node && target = .team) || (source = .position && target = .orgUnit) ||
      (source = .person && target = .orgUnit) || (source = .team && target = .orgUnit)
  | .approves => source ∈ [.position, .person, .orgUnit] && isWorkTarget target
  | .owns => isAccountableHolder source && isWorkTarget target
  | .usesSystem => source ∈ [.node, .processDefinition] && target = .enterpriseSystem
  | .usesTool => source = .node && target = .enterpriseTool
  | .hasAccessTo => source ∈ [.node, .position, .person, .orgUnit] &&
      target ∈ [.enterpriseSystem, .enterpriseTool]
  | .accountableFor => isAccountableHolder source && target ∈ [.node, .processDefinition]
  | .collaboratesWith | .informs => isPeopleOrStructure source && isPeopleOrStructure target
  | .escalatesTo | .consults => isConsulted source && isConsulted target
  | .dependsOn => isWorkTarget source && isWorkTarget target

/-- An entity reference needs an id; its type is one of the known ones. -/
def entityRefIssues (reference : EnterpriseEntityRef) : List TopologyValidatorIssue :=
  requiredString path "id" reference.id

/-- `validateNodeContract`. -/
def nodeContractIssues (node : NodeContract) : List TopologyValidatorIssue :=
  baseEntityIssues path node.toEnterpriseBaseEntity ++
    node.owner.elim [] fun owner =>
      entityRefIssues s!"{path}.owner" owner ++
        if owner.entityType ∈ [.position, .orgUnit, .person, .enterpriseSystem] then []
        else [⟨s!"{path}.owner.entityType", .invalidNodeOwner, .invalid⟩]

/-- `validateEnterpriseRelation`. -/
def relationContractIssues (relation : EnterpriseRelation) : List TopologyValidatorIssue :=
  baseEntityIssues path relation.toEnterpriseBaseEntity ++
    entityRefIssues s!"{path}.from" relation.source ++
      entityRefIssues s!"{path}.to" relation.target ++
        if endpointAllowed relation.relationType relation.source.entityType
            relation.target.entityType then []
        else [⟨s!"{path}.to.entityType", .invalidRelationEndpoint, .invalid⟩]

/-- `validateEnterpriseTopology`, as far as the types leave something to check. -/
def contractIssues (topology : EnterpriseTopology) : List TopologyValidatorIssue :=
  baseEntityIssues "$" topology.toEnterpriseBaseEntity ++
    collectionIssues "nodes" topology.nodes nodeContractIssues ++
    collectionIssues "teams" topology.teams
      (fun path team => baseEntityIssues path team.toEnterpriseBaseEntity) ++
    collectionIssues "orgUnits" topology.orgUnits
      (fun path orgUnit => baseEntityIssues path orgUnit.toEnterpriseBaseEntity) ++
    collectionIssues "positions" topology.positions
      (fun path position => baseEntityIssues path position.toEnterpriseBaseEntity ++
        requiredString path "orgUnitId" position.orgUnitId) ++
    collectionIssues "persons" topology.persons
      (fun path person => baseEntityIssues path person.toEnterpriseBaseEntity) ++
    collectionIssues "memberships" topology.memberships
      (fun path membership => baseEntityIssues path membership.toEnterpriseBaseEntity ++
        requiredString path "personId" membership.personId) ++
    collectionIssues "authorityRules" topology.authorityRules
      (fun path rule => baseEntityIssues path rule.toEnterpriseBaseEntity) ++
    collectionIssues "responsibilities" topology.responsibilities
      (fun path entry => baseEntityIssues path entry.toEnterpriseBaseEntity) ++
    collectionIssues "systems" topology.systems
      (fun path system => baseEntityIssues path system.toEnterpriseBaseEntity) ++
    collectionIssues "tools" topology.tools
      (fun path tool => baseEntityIssues path tool.toEnterpriseBaseEntity) ++
    collectionIssues "processes" topology.processes
      (fun path process => baseEntityIssues path process.toEnterpriseBaseEntity) ++
    collectionIssues "relations" topology.relations relationContractIssues

/-! ## The topology validator

The enterprise rules, which a topology written by the executor editor is not held against, are a
parameter: nothing here depends on what else they report. -/

def defaultTopologyMaxDelegationDepth : JsNumber := .ofNat 8

structure TopologyValidatorOptions where
  maxDelegationDepth : Option JsNumber
  asOf : Option EnterpriseTimestamp

/-- `validateEnterpriseRules`. -/
abbrev EnterpriseRules : Type :=
  EnterpriseTopology → TopologyValidatorOptions → List TopologyValidatorIssue

/-! ## Entities -/

structure IndexedTopologyEntity where
  id : JsString
  entityType : EnterpriseEntityType
  path : String

def indexedCollection {A : Type} (key : String) (entityType : EnterpriseEntityType)
    (id : A → JsString) (items : List A) : List IndexedTopologyEntity :=
  items.zipIdx.map fun entry => ⟨id entry.1, entityType, s!"$.{key}[{entry.2}]"⟩

variable (topology : EnterpriseTopology) (path : String)

/-- The topology and the entities of its collections. -/
def indexedEntities : List IndexedTopologyEntity :=
  [⟨topology.id, .topology, "$"⟩] ++
    indexedCollection "nodes" .node (·.id) topology.nodes ++
    indexedCollection "teams" .team (·.id) topology.teams ++
    indexedCollection "orgUnits" .orgUnit (·.id) topology.orgUnits ++
    indexedCollection "positions" .position (·.id) topology.positions ++
    indexedCollection "persons" .person (·.id) topology.persons ++
    indexedCollection "memberships" .membership (·.id) topology.memberships ++
    indexedCollection "authorityRules" .authorityRule (·.id) topology.authorityRules ++
    indexedCollection "responsibilities" .responsibilityMatrixEntry (·.id)
      topology.responsibilities ++
    indexedCollection "systems" .enterpriseSystem (·.id) topology.systems ++
    indexedCollection "tools" .enterpriseTool (·.id) topology.tools ++
    indexedCollection "processes" .processDefinition (·.id) topology.processes ++
    indexedCollection "relations" .relation (·.id) topology.relations

/-- `addIndexedEntity`: an id that another entity has already, of whatever type. -/
def duplicateIssues (seen : List JsString) : List IndexedTopologyEntity →
    List TopologyValidatorIssue
  | [] => []
  | entity :: rest =>
    (if entity.id ∈ seen then [⟨s!"{entity.path}.id", .duplicateEntityId, .invalid⟩] else []) ++
      duplicateIssues (entity.id :: seen) rest

def entityExists (entityType : EnterpriseEntityType) (id : JsString) : Bool :=
  (indexedEntities topology).any fun entity => entity.entityType = entityType && entity.id = id

/-! ## References -/

section References

variable (topology : EnterpriseTopology)

variable (refType : EnterpriseEntityType)

def validateTypedReference (refId : JsString) (path : String) : List TopologyValidatorIssue :=
  if entityExists topology refType refId then []
  else [⟨path, .missingEntityReference, .invalid⟩]

def validateOptionalTypedReference (refId : Option JsString) (path : String) :
    List TopologyValidatorIssue :=
  refId.elim [] fun refId => validateTypedReference topology refType refId path

/-- The references of a list, each under its own path. -/
def validateTypedReferences (refIds : List JsString) (path : String) :
    List TopologyValidatorIssue :=
  refIds.zipIdx.flatMap fun entry =>
    validateTypedReference topology refType entry.1 s!"{path}[{entry.2}]"

def validateEntityReference (reference : EnterpriseEntityRef) (path : String) :
    List TopologyValidatorIssue :=
  validateTypedReference topology reference.entityType reference.id s!"{path}.id"

def validateEntityReferences (references : List EnterpriseEntityRef) (path : String) :
    List TopologyValidatorIssue :=
  references.zipIdx.flatMap fun entry =>
    validateEntityReference topology entry.1 s!"{path}[{entry.2}]"

def validateNodeReferences (path : String) (node : NodeContract) : List TopologyValidatorIssue :=
  (node.owner.elim [] fun owner => validateEntityReference topology owner s!"{path}.owner") ++
    validateTypedReferences topology .node node.children s!"{path}.children" ++
    validateTypedReferences topology .enterpriseTool node.allowedToolIds
      s!"{path}.allowedToolIds" ++
    validateTypedReferences topology .enterpriseSystem node.allowedSystemIds
      s!"{path}.allowedSystemIds"

def validateTeamReferences (path : String) (team : EnterpriseTeam) : List TopologyValidatorIssue :=
  (if team.nodeIds = [] then [⟨s!"{path}.nodeIds", .emptyTeamNodes, .warning⟩] else []) ++
    validateTypedReferences topology .node team.nodeIds s!"{path}.nodeIds"

def validateOrgUnitReferences (path : String) (orgUnit : OrgUnit) : List TopologyValidatorIssue :=
  validateOptionalTypedReference topology .orgUnit orgUnit.parentOrgUnitId
      s!"{path}.parentOrgUnitId" ++
    validateTypedReferences topology .position orgUnit.positionIds s!"{path}.positionIds" ++
    validateTypedReferences topology .person orgUnit.personIds s!"{path}.personIds"

def validatePositionReferences (path : String) (position : Position) :
    List TopologyValidatorIssue :=
  validateTypedReference topology .orgUnit position.orgUnitId s!"{path}.orgUnitId" ++
    validateOptionalTypedReference topology .position position.reportsToPositionId
      s!"{path}.reportsToPositionId" ++
    validateTypedReferences topology .person position.personIds s!"{path}.personIds" ++
    validateOptionalTypedReference topology .position position.backupPositionId
      s!"{path}.backupPositionId"

def validatePersonReferences (path : String) (person : Person) : List TopologyValidatorIssue :=
  validateTypedReferences topology .position person.positionIds s!"{path}.positionIds" ++
    validateTypedReferences topology .orgUnit person.orgUnitIds s!"{path}.orgUnitIds"

def validateMembershipReferences (path : String) (membership : Membership) :
    List TopologyValidatorIssue :=
  validateTypedReference topology .person membership.personId s!"{path}.personId" ++
    validateOptionalTypedReference topology .position membership.positionId s!"{path}.positionId" ++
    validateOptionalTypedReference topology .orgUnit membership.orgUnitId s!"{path}.orgUnitId" ++
    validateOptionalTypedReference topology .team membership.teamId s!"{path}.teamId"

def validateAuthorityRuleReferences (path : String) (rule : AuthorityRule) :
    List TopologyValidatorIssue :=
  validateEntityReference topology rule.subject s!"{path}.subject" ++
    validateEntityReference topology rule.object s!"{path}.object"

def validateResponsibilityReferences (path : String) (entry : ResponsibilityMatrixEntry) :
    List TopologyValidatorIssue :=
  validateEntityReference topology entry.scope s!"{path}.scope" ++
    validateEntityReference topology entry.responsible s!"{path}.responsible" ++
    (entry.accountable.elim [] fun accountable =>
      validateEntityReference topology accountable s!"{path}.accountable") ++
    validateEntityReferences topology entry.consulted s!"{path}.consulted" ++
    validateEntityReferences topology entry.informed s!"{path}.informed"

def validateToolReferences (path : String) (tool : EnterpriseTool) : List TopologyValidatorIssue :=
  validateOptionalTypedReference topology .enterpriseSystem tool.systemId s!"{path}.systemId"

def validateProcessReferences (path : String) (process : ProcessDefinition) :
    List TopologyValidatorIssue :=
  (if process.stepNodeIds = [] then [⟨s!"{path}.stepNodeIds", .emptyProcessSteps, .warning⟩]
    else []) ++
    validateOptionalTypedReference topology .node process.ownerNodeId s!"{path}.ownerNodeId" ++
    validateTypedReferences topology .node process.stepNodeIds s!"{path}.stepNodeIds" ++
    validateOptionalTypedReference topology .position process.accountablePositionId
      s!"{path}.accountablePositionId"

/-- The table of the schema allows the endpoints that the contract allows, so a topology that
meets the contract gets no issue about them here. -/
def validateRelationReferences (path : String) (relation : EnterpriseRelation) :
    List TopologyValidatorIssue :=
  validateEntityReference topology relation.source s!"{path}.from" ++
    validateEntityReference topology relation.target s!"{path}.to"

def validateTopologyReferences : List TopologyValidatorIssue :=
  collectionIssues "nodes" topology.nodes (validateNodeReferences topology) ++
    collectionIssues "teams" topology.teams (validateTeamReferences topology) ++
    collectionIssues "orgUnits" topology.orgUnits (validateOrgUnitReferences topology) ++
    collectionIssues "positions" topology.positions (validatePositionReferences topology) ++
    collectionIssues "persons" topology.persons (validatePersonReferences topology) ++
    collectionIssues "memberships" topology.memberships (validateMembershipReferences topology) ++
    collectionIssues "authorityRules" topology.authorityRules
      (validateAuthorityRuleReferences topology) ++
    collectionIssues "responsibilities" topology.responsibilities
      (validateResponsibilityReferences topology) ++
    collectionIssues "tools" topology.tools (validateToolReferences topology) ++
    collectionIssues "processes" topology.processes (validateProcessReferences topology) ++
    collectionIssues "relations" topology.relations (validateRelationReferences topology)

end References

/-! ## The delegation graph -/

structure DelegationEdge where
  (source target : JsString)
  path : String

def isDelegation (relation : EnterpriseRelation) : Bool :=
  relation.relationType = .delegatesTo && relation.source.entityType = .node &&
    relation.target.entityType = .node

def childEdges (node : NodeContract × ℕ) : List DelegationEdge :=
  node.1.children.zipIdx.map fun child =>
    ⟨node.1.id, child.1, s!"$.nodes[{node.2}].children[{child.2}]"⟩

def relationEdge (relation : EnterpriseRelation × ℕ) : DelegationEdge :=
  ⟨relation.1.source.id, relation.1.target.id, s!"$.relations[{relation.2}]"⟩

/-- The edges of the children lists, then those of the relations. -/
def delegationEdges : List DelegationEdge :=
  topology.nodes.zipIdx.flatMap childEdges ++
    (topology.relations.zipIdx.filter fun entry => isDelegation entry.1).map relationEdge

/-- `buildDelegationAdjacency`, between the nodes. -/
def delegationAdjacency : PathSearch JsString DelegationEdge where
  vertices := topology.nodes.map (·.id)
  outgoing source := (delegationEdges topology).filter fun edge => edge.source = source
  target := DelegationEdge.target

/-- The cycle an edge closes, as the message spells it. -/
def cyclePath (found : List JsString × DelegationEdge) : List JsString :=
  found.1.drop (found.1.idxOf found.2.target) ++ [found.2.target]

/-- Every cycle is reported once. -/
def detectDelegationCycles : List TopologyValidatorIssue :=
  (keepFirst (fun found => joinWith (codeUnit 62) (cyclePath found)) []
    (delegationAdjacency topology).backEdges).map fun found =>
      ⟨found.2.path, .delegationCycle, .invalid⟩

variable (maxDelegationDepth : JsNumber)

/-- `depth > maxDelegationDepth`. -/
def exceedsDepth (depth : ℕ) : Bool := JsNumber.lt maxDelegationDepth (.ofNat depth)

/-- Every edge is reported once for each depth. -/
def detectDelegationDepthOverflow : List TopologyValidatorIssue :=
  (keepFirst (fun found => s!"{found.2.path}:{found.1.length - 1}") []
    ((delegationAdjacency topology).overlong (exceedsDepth maxDelegationDepth))).map fun found =>
      ⟨found.2.path, .maxDelegationDepthExceeded, .blocked⟩

/-- The ends of edges that start at a node are looked up once more. -/
def validateDelegationGraph : List TopologyValidatorIssue :=
  let sources := (OrderedSet.ofList ((delegationEdges topology).map (·.source))).elements
  detectDelegationCycles topology ++
    detectDelegationDepthOverflow topology (JsNumber.max (.ofNat 0) maxDelegationDepth) ++
      (sources.filter (entityExists topology .node)).flatMap fun source =>
        ((delegationAdjacency topology).outgoing source).flatMap fun edge =>
          validateTypedReference topology .node edge.target edge.path

/-! ## Validation -/

structure TopologyValidationResult where
  executable : Bool
  issues : List TopologyValidatorIssue

def isBlocking (issue : TopologyValidatorIssue) : Bool :=
  issue.severity = .blocked || issue.severity = .invalid

def buildTopologyValidationResult (issues : List TopologyValidatorIssue) :
    TopologyValidationResult where
  executable := issues.all fun issue => !isBlocking issue
  issues

def member? (key : String) (members : List (JsString × JsValue)) : Option JsValue :=
  OrderedMap.lookup members (ofString key)

/-- The topology was written by the executor editor, of which its metadata speaks. -/
def isExecutorTopologyV2PersistenceProjection : Bool :=
  match topology.metadata.bind fun metadata => member? "executorTopologyV2" metadata.members with
  | some (.object marker) =>
    (match member? "schemaVersion" marker with
      | some (.number version) => version = Number.ofNat 2
      | _ => false) &&
    (match member? "sourceOfTruth" marker with
      | some (.string source) => source = ofString "executor_topology_v2"
      | _ => false)
  | _ => false

/-- A topology that breaks the contract is looked at no further. -/
def validateTopology (rules : EnterpriseRules) (topology : EnterpriseTopology)
    (options : TopologyValidatorOptions) : TopologyValidationResult :=
  if contractIssues topology ≠ [] then buildTopologyValidationResult (contractIssues topology)
  else
    buildTopologyValidationResult
      (duplicateIssues [] (indexedEntities topology) ++ validateTopologyReferences topology ++
        validateDelegationGraph topology
          (options.maxDelegationDepth.getD defaultTopologyMaxDelegationDepth) ++
        if isExecutorTopologyV2PersistenceProjection topology then [] else rules topology options)

/-! ## The topology compiler

A topology that the validator lets pass is compiled into indexes that the runtime looks things up
in. -/

/-! ## Delegation -/

structure DelegationGraph where
  (edges parents : OrderedMap JsString (List JsString))

/-- `addUnique` of one value. -/
def addUnique {A : Type} [DecidableEq A] (values : List A) (value : A) : List A :=
  if value ∈ values then values else values ++ [value]

variable (topology : EnterpriseTopology) (relation : EnterpriseRelation)

/-- The map that holds an empty list for every node. -/
def noEdges : OrderedMap JsString (List JsString) :=
  topology.nodes.foldl (fun map node => map.set node.id []) ∅

/-- Who delegates to whom: what the relations say, or, where there is none, the children
lists. -/
def delegationPairs : List (JsString × JsString) :=
  let delegationRelations := topology.relations.filter isDelegation
  if delegationRelations = [] then
    topology.nodes.flatMap fun node => node.children.map fun child => (node.id, child)
  else delegationRelations.map fun relation => (relation.source.id, relation.target.id)

def addDelegationEdge (graph : DelegationGraph) (pair : JsString × JsString) : DelegationGraph where
  edges := graph.edges.set pair.1 (addUnique (childrenOf graph.edges pair.1) pair.2)
  parents := graph.parents.set pair.2 (addUnique (childrenOf graph.parents pair.2) pair.1)

def buildDelegationGraph : DelegationGraph :=
  (delegationPairs topology).foldl addDelegationEdge ⟨noEdges topology, noEdges topology⟩

structure CompiledDelegationTree where
  (rootNodeIds rootChildNodeIds : List JsString)
  entryNodeId : Option JsString
  exitNodeIds : List JsString
  (edges parents : OrderedMap JsString (List JsString))
  incomingEdgeCountByNodeId : OrderedMap JsString ℕ

def buildCompiledDelegationTree (graph : DelegationGraph) : CompiledDelegationTree :=
  let nodeIds := topology.nodes.map (·.id)
  let childIds := graph.edges.entries.flatMap Prod.snd
  let rootNodeIds := dropAmong childIds nodeIds
  { rootNodeIds
    rootChildNodeIds := rootNodeIds
    entryNodeId := none
    exitNodeIds := nodeIds.filter fun nodeId => childrenOf graph.edges nodeId = []
    edges := graph.edges
    parents := graph.parents
    incomingEdgeCountByNodeId := nodeIds.foldl (fun map nodeId =>
      map.set nodeId (childrenOf graph.parents nodeId).length) ∅ }

structure CompiledDelegationScope where
  nodeId : JsString
  (directChildNodeIds descendantNodeIds : List JsString)
  maxDepth : ℕ

variable (nodeId : JsString)

/-- The nodes below a node in the order they are found, and how far the search went. -/
def collectDescendants (edges : OrderedMap JsString (List JsString)) : List JsString × ℕ :=
  let graph := FiniteDigraph.ofMap edges
  graph.breadthFirst [] 0 (graph.ends nodeId 1)

def delegationScope (tree : CompiledDelegationTree) (nodeId : JsString) : CompiledDelegationScope :=
  let descendants := collectDescendants nodeId tree.edges
  { nodeId
    directChildNodeIds := childrenOf tree.edges nodeId
    descendantNodeIds := descendants.1
    maxDepth := descendants.2 }

def buildDelegationScopeMap (tree : CompiledDelegationTree) :
    OrderedMap JsString CompiledDelegationScope :=
  topology.nodes.foldl (fun map node => map.set node.id (delegationScope tree node.id)) ∅

/-! ## Authority -/

structure CompiledAuthorityScope where
  target : EnterpriseEntityRef
  (authorityRuleIds approvalRelationIds : List JsString)
  approverRefs : List EnterpriseEntityRef

/-- The scopes by their targets. A key spells the type of a target, which has no bar in it,
and its id. -/
abbrev AuthorityScopeIndex : Type := OrderedMap EnterpriseEntityRef CompiledAuthorityScope

variable (index : AuthorityScopeIndex)

def ensureAuthorityScope (target : EnterpriseEntityRef) : CompiledAuthorityScope :=
  (index.get? target).getD ⟨target, [], [], []⟩

def addApproval (relation : EnterpriseRelation) : AuthorityScopeIndex :=
  if relation.relationType ≠ .approves then index
  else
    let scope := ensureAuthorityScope index relation.target
    index.set relation.target { scope with
      approvalRelationIds := addUnique scope.approvalRelationIds relation.id
      approverRefs := addUnique scope.approverRefs relation.source }

def addAuthorityRule (rule : AuthorityRule) : AuthorityScopeIndex :=
  let scope := ensureAuthorityScope index rule.object
  index.set rule.object { scope with
    authorityRuleIds := addUnique scope.authorityRuleIds rule.id
    approverRefs := addUnique scope.approverRefs rule.subject }

def buildAuthorityScopeIndex : AuthorityScopeIndex :=
  topology.authorityRules.foldl addAuthorityRule (topology.relations.foldl addApproval ∅)

/-! ## Tools and systems -/

structure ToolScopeBuilder where
  (declaredToolIds declaredSystemIds backingSystemIds toolRelationIds : OrderedSet JsString)
  systemRelationIds : OrderedSet JsString

def ToolScopeBuilder.empty : ToolScopeBuilder := ⟨∅, ∅, ∅, ∅, ∅⟩

def toolById : OrderedMap JsString EnterpriseTool :=
  topology.tools.foldl (fun map tool => map.set tool.id tool) ∅

def systemById : OrderedMap JsString EnterpriseSystem :=
  topology.systems.foldl (fun map system => map.set system.id system) ∅

variable (builder : ToolScopeBuilder)

namespace ToolScopeBuilder

def addTool (relation : EnterpriseRelation) : ToolScopeBuilder :=
  { builder with
    declaredToolIds := builder.declaredToolIds.add relation.target.id
    toolRelationIds := builder.toolRelationIds.add relation.id }

def addSystem (relation : EnterpriseRelation) : ToolScopeBuilder :=
  { builder with
    declaredSystemIds := builder.declaredSystemIds.add relation.target.id
    systemRelationIds := builder.systemRelationIds.add relation.id }

def addBackingSystem (tools : OrderedMap JsString EnterpriseTool) (relation : EnterpriseRelation) :
    ToolScopeBuilder :=
  match (tools.get? relation.target.id).bind EnterpriseTool.systemId with
  | none => builder
  | some systemId => { builder with backingSystemIds := builder.backingSystemIds.add systemId }

/-- What a relation that starts at the node declares. -/
def declare (tools : OrderedMap JsString EnterpriseTool) (builder : ToolScopeBuilder)
    (relation : EnterpriseRelation) : ToolScopeBuilder :=
  match relation.relationType, relation.target.entityType with
  | .usesTool, .enterpriseTool => (builder.addTool relation).addBackingSystem tools relation
  | .usesSystem, .enterpriseSystem => builder.addSystem relation
  | .hasAccessTo, .enterpriseTool => builder.addTool relation
  | .hasAccessTo, .enterpriseSystem => builder.addSystem relation
  | _, _ => builder

end ToolScopeBuilder

/-- The builder of a node, as the relations that start at the node leave it. -/
def toolScopeBuilder : ToolScopeBuilder :=
  (topology.relations.filter fun relation => relation.source = ⟨.node, nodeId⟩).foldl
    (ToolScopeBuilder.declare (toolById topology)) .empty

def dataDomainIdsForSystems (systems : OrderedMap JsString EnterpriseSystem)
    (systemIds : List JsString) : List JsString :=
  (systemIds.flatMap fun systemId =>
    ((systems.get? systemId).map EnterpriseSystem.dataDomainIds).getD []).foldl addUnique []

structure CompiledToolScope where
  nodeId : JsString
  (allowedToolIds declaredToolIds effectiveToolIds allowedSystemIds : List JsString)
  (declaredSystemIds backingSystemIds effectiveSystemIds declaredDataDomainIds : List JsString)
  (effectiveDataDomainIds toolRelationIds systemRelationIds : List JsString)

def compiledToolScope (node : NodeContract) : CompiledToolScope :=
  let builder := toolScopeBuilder topology node.id
  let declaredToolIds := builder.declaredToolIds.elements
  let declaredSystemIds := builder.declaredSystemIds.elements
  let backingSystemIds := builder.backingSystemIds.elements
  let allDeclaredSystemIds := backingSystemIds.foldl addUnique declaredSystemIds
  let effectiveSystemIds := keepAmong allDeclaredSystemIds node.allowedSystemIds
  { nodeId := node.id
    allowedToolIds := node.allowedToolIds
    declaredToolIds
    effectiveToolIds := keepAmong declaredToolIds node.allowedToolIds
    allowedSystemIds := node.allowedSystemIds
    declaredSystemIds
    backingSystemIds
    effectiveSystemIds
    declaredDataDomainIds := dataDomainIdsForSystems (systemById topology) allDeclaredSystemIds
    effectiveDataDomainIds := dataDomainIdsForSystems (systemById topology) effectiveSystemIds
    toolRelationIds := builder.toolRelationIds.elements
    systemRelationIds := builder.systemRelationIds.elements }

def buildToolScopeIndex : OrderedMap JsString CompiledToolScope :=
  topology.nodes.foldl (fun map node => map.set node.id (compiledToolScope topology node)) ∅

/-! ## Snapshots -/

structure CompiledTopologySnapshot where
  topologyId : JsString
  parentChildTree : CompiledDelegationTree
  delegationScopeMap : OrderedMap JsString CompiledDelegationScope
  authorityScopeIndex : AuthorityScopeIndex
  toolScopeIndex : OrderedMap JsString CompiledToolScope

/-- The indexes of a topology. -/
def compiledSnapshot : CompiledTopologySnapshot :=
  let parentChildTree := buildCompiledDelegationTree topology (buildDelegationGraph topology)
  { topologyId := topology.id
    parentChildTree
    delegationScopeMap := buildDelegationScopeMap topology parentChildTree
    authorityScopeIndex := buildAuthorityScopeIndex topology
    toolScopeIndex := buildToolScopeIndex topology }

/-- Only what is executable is compiled. -/
def compileTopology (rules : EnterpriseRules) (topology : EnterpriseTopology)
    (options : TopologyValidatorOptions) :
    Except TopologyValidationResult CompiledTopologySnapshot :=
  let validation := validateTopology rules topology options
  if validation.executable then .ok (compiledSnapshot topology) else .error validation

end Nobie.Enterprise
