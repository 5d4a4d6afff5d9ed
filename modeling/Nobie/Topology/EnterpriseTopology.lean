/-
# Enterprise topologies and executor profiles

The part of the enterprise contracts that executor topologies are written to and
read from, and the profile of the executor a node stands for. What differs from
host to host (the order and the lower case of its locale) is a parameter.
-/

import Nobie.Foundation.Json
import Nobie.Foundation.Bytes

namespace Nobie.Topology

open Foundation

/-- The host's own text functions. -/
structure Host where
  localeCompare : String → String → ℤ
  toLocaleLowerCase : String → String

def enterpriseTopologySchemaVersion : ℕ := 1

/-- A number or a string. -/
inductive Timestamp
  | number (value : Number)
  | text (value : String)

def Timestamp.toJson : Timestamp → Json
  | .number value => .num value
  | .text value => .str value

/-! ## Entities -/

inductive EnterpriseEntityStatus
  | draft | active | inactive | archived
  deriving DecidableEq

def EnterpriseEntityStatus.text : EnterpriseEntityStatus → String
  | .draft => "draft"
  | .active => "active"
  | .inactive => "inactive"
  | .archived => "archived"

inductive EnterpriseEntityType
  | topology | topologyVersion | node | team | orgUnit | position | person | membership
  | authorityRule | responsibilityMatrixEntry | enterpriseSystem | enterpriseTool
  | processDefinition | relation
  deriving DecidableEq

inductive NodeType
  | function | processStep | approvalNode | reviewNode | decisionNode | automationNode
  | dataOwnerNode | externalNode | systemInterfaceNode

def NodeType.text : NodeType → String
  | .function => "function"
  | .processStep => "process_step"
  | .approvalNode => "approval_node"
  | .reviewNode => "review_node"
  | .decisionNode => "decision_node"
  | .automationNode => "automation_node"
  | .dataOwnerNode => "data_owner_node"
  | .externalNode => "external_node"
  | .systemInterfaceNode => "system_interface_node"

inductive EnterpriseRelationType
  | reportsTo | belongsTo | delegatesTo | approves | owns | collaboratesWith | escalatesTo | informs
  | usesSystem | usesTool | hasAccessTo | dependsOn | consults | accountableFor
  deriving DecidableEq

structure NodeTemplateRef where
  templateId : String
  metadata : Option JsonObject

structure NodeContract where
  (id name : String)
  displayName : Option String
  status : EnterpriseEntityStatus
  (createdAt updatedAt : Timestamp)
  nodeType : NodeType
  (description instruction : Option String)
  (tags children : List String)
  template : Option NodeTemplateRef
  metadata : Option JsonObject

structure EnterpriseEntityRef where
  entityType : EnterpriseEntityType
  id : String

structure EnterpriseRelation where
  (id name : String)
  displayName : Option String
  status : EnterpriseEntityStatus
  (createdAt updatedAt : Timestamp)
  relationType : EnterpriseRelationType
  (source target : EnterpriseEntityRef)
  label : Option String
  metadata : Option JsonObject

structure EnterpriseTopology where
  (id name : String)
  displayName : Option String
  status : EnterpriseEntityStatus
  (createdAt updatedAt : Timestamp)
  description : Option String
  nodes : List NodeContract
  relations : List EnterpriseRelation
  metadata : Option JsonObject

/-! ## Reading metadata -/

/-- `metadata?.key`. -/
def metadataMember (metadata : Option JsonObject) (key : String) : Option Json :=
  metadata.bind fun metadata => Json.lookup metadata key

def metadataString : Option Json → Option String
  | some (.str value) => truthyText (some (jsTrim value))
  | _ => none

def metadataStringArray : Option Json → List String
  | some (.arr items) => items.filterMap fun
      | .str item => truthyText (some (jsTrim item))
      | _ => none
  | _ => []

def metadataRecord (value : Option Json) : Option JsonObject := value.bind Json.fields?

/-- `sortedUniqueStrings`. -/
def sortedUniqueStrings (host : Host) (values : List String) : List String :=
  (OrderedSet.ofList (values.filter fun value => jsTrim value ≠ "")).elements.mergeSort
    fun left right => host.localeCompare left right ≤ 0

/-- `firstStringArray`: the first value that has a text. -/
def firstStringArray (host : Host) : List (List String) → List String
  | [] => []
  | strings :: rest =>
    if strings.length > 0 then sortedUniqueStrings host strings else firstStringArray host rest

/-! ## Profiles -/

structure ExecutorProfile where
  (executorId displayName roleName definition : String)
  (does delegationScope expectedOutputs : List String)
  handoffStyle : String
  (declineCriteria riskBoundary : List String)

def ExecutorProfile.toJson (profile : ExecutorProfile) : JsonObject :=
  let strings (values : List String) : Json := .arr (values.map .str)
  [("schemaVersion", .num (.ofNat 1)),
    ("executorId", .str profile.executorId),
    ("displayName", .str profile.displayName),
    ("roleName", .str profile.roleName),
    ("definition", .str profile.definition),
    ("does", strings profile.does),
    ("delegationScope", strings profile.delegationScope),
    ("expectedOutputs", strings profile.expectedOutputs),
    ("handoffStyle", .str profile.handoffStyle),
    ("declineCriteria", strings profile.declineCriteria),
    ("riskBoundary", strings profile.riskBoundary)]

/-- What a profile falls back to, field by field. -/
structure ProfileFallback where
  (executorId displayName : String)
  (roleName definition : Option String)
  (does delegationScope expectedOutputs : List String)
  handoffStyle : Option String
  (declineCriteria riskBoundary : List String)

def normalizeExecutorProfile (host : Host) (value : Option Json) (fallback : ProfileFallback) :
    ExecutorProfile :=
  let record := metadataRecord value
  let text (key : String) := metadataString (metadataMember record key)
  let strings (key : String) := metadataStringArray (metadataMember record key)
  -- A fallback text is trimmed like one of the record.
  let trimmed (text : Option String) := truthyText (text.map jsTrim)
  let trimmedAll (texts : List String) := texts.filterMap fun text => trimmed (some text)
  let definition := (text "definition" <|> trimmed fallback.definition).getD
    s!"{fallback.displayName} executor"
  let does := firstStringArray host
    [strings "does", trimmedAll fallback.does, trimmedAll [definition]]
  { executorId := (text "executorId").getD fallback.executorId
    displayName := (text "displayName").getD fallback.displayName
    roleName := (text "roleName" <|> trimmed fallback.roleName).getD "executor"
    definition
    does
    delegationScope := firstStringArray host
      [strings "delegationScope", trimmedAll fallback.delegationScope, trimmedAll does]
    expectedOutputs := firstStringArray host
      [strings "expectedOutputs", trimmedAll fallback.expectedOutputs, ["처리 결과"]]
    handoffStyle := (text "handoffStyle" <|> trimmed fallback.handoffStyle).getD
      "structured_handoff"
    declineCriteria := firstStringArray host
      [strings "declineCriteria", trimmedAll fallback.declineCriteria]
    riskBoundary := firstStringArray host
      [strings "riskBoundary", trimmedAll fallback.riskBoundary] }

/-- `??` skips a member that is `null`. -/
def presentMember (metadata : Option JsonObject) (key : String) : Option Json :=
  match metadataMember metadata key with
  | some .null => none
  | value => value

def executorProfileMetadataValue (node : NodeContract) : Option Json :=
  presentMember node.metadata "executorProfile" <|>
    presentMember (node.template.bind (·.metadata)) "executorProfile" <|>
    metadataMember (metadataRecord (metadataMember node.metadata "executorGraph")) "executorProfile"

/-- `buildExecutorProfileFromNode` without overrides. -/
def buildExecutorProfileFromNode (host : Host) (node : NodeContract) : ExecutorProfile :=
  let template := node.template.bind (·.metadata)
  let displayName := (node.displayName.map jsTrim).getD (jsTrim node.name)
  let strings (metadata : Option JsonObject) (key : String) :=
    metadataStringArray (metadataMember metadata key)
  normalizeExecutorProfile host (executorProfileMetadataValue node)
    { executorId := node.id
      displayName
      roleName := (metadataString (metadataMember node.metadata "roleName") <|>
        metadataString (metadataMember node.metadata "role") <|>
        metadataString (metadataMember template "roleName") <|>
        metadataString (metadataMember template "role")).getD node.nodeType.text
      definition := (truthyText (node.description.map jsTrim) <|>
        truthyText (node.instruction.map jsTrim)).getD displayName
      does := strings template "does"
      delegationScope := sortedUniqueStrings host
        (node.tags ++ strings node.metadata "capabilityHints" ++
          strings node.metadata "inferredCapabilities" ++
          strings template "capabilityHints" ++ strings template "inferredCapabilities")
      expectedOutputs := strings template "expectedOutputs" ++ strings template "outputs"
      handoffStyle := metadataString (metadataMember template "handoffStyle")
      declineCriteria := strings node.metadata "declineCriteria" ++
        strings template "declineCriteria"
      riskBoundary := strings node.metadata "riskBoundary" ++ strings template "riskBoundary" }

end Nobie.Topology
