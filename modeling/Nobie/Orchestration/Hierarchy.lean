/-
# The agent hierarchy service

Relationships between agents are rows of a table. A relationship is created from
any value: the value is normalized, held against the contract, and then against
the active relationships without the row it would replace. Disabling a
relationship keeps its row.

`localeCompare` belongs to the host and is a parameter. It decides the order of
lists and nothing else. A write can be refused by the database, which throws and
leaves the rows as they were; the environment of a call says whether it is.
-/

import Mathlib.Order.WithBot
import Nobie.Foundation.FiniteDigraph
import Nobie.Foundation.Json
import Nobie.Foundation.Bytes

namespace Nobie.Orchestration

open Foundation

def defaultRootAgentId : String := "agent:nobie"

def defaultMaxDepth : ℕ := 5

def defaultMaxChildCount : ℚ := 10

/-! ## Relationships -/

inductive AgentRelationshipStatus
  | active | disabled | archived
  deriving DecidableEq

/-- `AgentRelationship`. Its `relationshipType` is always `parent_child`. -/
structure AgentRelationship where
  (edgeId parentAgentId childAgentId : String)
  status : AgentRelationshipStatus
  (sortOrder createdAt updatedAt : ℚ)

/-- What `normalizeRelationshipInput` returns, before the contract is checked. -/
structure NormalizedRelationship where
  (edgeId parentAgentId childAgentId : String)
  (relationshipType status sortOrder : Json)
  (createdAt updatedAt : ℚ)

def asString : Option Json → Option String
  | some (.str value) => if jsTrim value = "" then none else some value
  | _ => none

def asFiniteNumber : Option Json → Option ℚ
  | some (.num number) => if number.isFinite then some number.value else none
  | _ => none

def asStatus : Json → Option AgentRelationshipStatus
  | .str "active" => some .active
  | .str "disabled" => some .disabled
  | .str "archived" => some .archived
  | _ => none

def defaultEdgeId (parentAgentId childAgentId : String) : String :=
  s!"relationship:{parentAgentId}->{childAgentId}"

variable (input : Json) (relationship : AgentRelationship) (relationships : List AgentRelationship)
  (auditId : Option String) (active : List AgentRelationship)

def normalizeRelationshipInput (now : ℚ) (nextSortOrder : ℕ) : NormalizedRelationship :=
  let value (key : String) := input.field? key
  let parentAgentId := (asString (value "parentAgentId")).getD ""
  let childAgentId := (asString (value "childAgentId")).getD ""
  { edgeId := (asString (value "edgeId")).getD
      (if parentAgentId ≠ "" ∧ childAgentId ≠ "" then defaultEdgeId parentAgentId childAgentId
        else "")
    parentAgentId
    childAgentId
    relationshipType := (value "relationshipType").getD (.str "parent_child")
    -- A status that is not one of the three is kept for the contract to reject.
    status := (value "status").getD (.str "active")
    sortOrder := (value "sortOrder").getD (.num (.ofNat nextSortOrder))
    createdAt := (asFiniteNumber (value "createdAt")).getD now
    updatedAt := (asFiniteNumber (value "updatedAt")).getD now }

/-! ## The contract -/

structure ContractValidationIssue where
  path : String
  code : String := "contract_validation_failed"
  message : String

/-- `hasNonEmptyString`, as the issues it adds. -/
def nonEmptyStringIssues (key value : String) : List ContractValidationIssue :=
  if jsTrim value = "" then
    [{ path := s!"$.{key}", message := s!"{key} must be a non-empty string." }]
  else []

/-- `hasFiniteNumber` with the least value zero, as the number or the issues. -/
def finiteNumber (key : String) (value : Json) : Except (List ContractValidationIssue) ℚ :=
  match asFiniteNumber (some value) with
  | some number =>
    if 0 ≤ number then .ok number
    else .error [{ path := s!"$.{key}",
                   message := s!"{key} must be a finite number greater than or equal to 0." }]
  | none => .error [{ path := s!"$.{key}",
                      message := s!"{key} must be a finite number greater than or equal to 0." }]

/-- The issues of a check that also reads a value. -/
def issuesOf {A : Type} : Except (List ContractValidationIssue) A → List ContractValidationIssue
  | .ok _ => []
  | .error issues => issues

def statusOrIssues (value : Json) : Except (List ContractValidationIssue) AgentRelationshipStatus :=
  match asStatus value with
  | some status => .ok status
  | none => .error [{ path := "$.status",
                      message := "status must be active, disabled, or archived." }]

def validateAgentRelationship (value : NormalizedRelationship) :
    Except (List ContractValidationIssue) AgentRelationship :=
  let issues :=
    nonEmptyStringIssues "edgeId" value.edgeId ++
      nonEmptyStringIssues "parentAgentId" value.parentAgentId ++
      nonEmptyStringIssues "childAgentId" value.childAgentId ++
      (match value.relationshipType with
        | .str "parent_child" => []
        | _ => [{ path := "$.relationshipType",
                  message := "relationshipType must be parent_child." }]) ++
      (if value.parentAgentId = value.childAgentId then
        [{ path := "$.childAgentId",
           message := "parentAgentId and childAgentId must be different." }]
      else []) ++
      issuesOf (statusOrIssues value.status) ++
      issuesOf (finiteNumber "sortOrder" value.sortOrder)
  match issues, statusOrIssues value.status, finiteNumber "sortOrder" value.sortOrder with
  | [], .ok status, .ok sortOrder =>
    .ok { edgeId := value.edgeId
          parentAgentId := value.parentAgentId
          childAgentId := value.childAgentId
          status
          sortOrder
          createdAt := value.createdAt
          updatedAt := value.updatedAt }
  | issues, _, _ => .error issues

/-! ## Diagnostics -/

inductive HierarchyDiagnosticSeverity
  | info | warning | blocked
  deriving DecidableEq

structure AgentHierarchyDiagnostic where
  reasonCode : String
  severity : HierarchyDiagnosticSeverity
  message : String
  edgeId : Option String := none
  parentAgentId : Option String := none
  childAgentId : Option String := none
  limit : Option ℚ := none
  value : Option (WithTop ℕ) := none
  path : Option String := none

def contractIssueDiagnostic (relationship : NormalizedRelationship)
    (issue : ContractValidationIssue) : AgentHierarchyDiagnostic where
  reasonCode :=
    if issue.path = "$.childAgentId" ∧ "different".toList <:+: issue.message.toList then
      "self_parent_blocked"
    else if issue.path = "$.status" then "invalid_relationship_status"
    else "invalid_relationship_contract"
  severity := .blocked
  message := issue.message
  path := some issue.path
  edgeId := (some relationship.edgeId).filter (· ≠ "")
  parentAgentId := (some relationship.parentAgentId).filter (· ≠ "")
  childAgentId := (some relationship.childAgentId).filter (· ≠ "")

/-- A diagnostic that blocks a relationship and names its three ids. -/
def blockedDiagnostic (reasonCode message : String) (limit : Option ℚ) (value : Option (WithTop ℕ))
    : AgentHierarchyDiagnostic where
  reasonCode := reasonCode
  severity := .blocked
  message := message
  edgeId := some relationship.edgeId
  parentAgentId := some relationship.parentAgentId
  childAgentId := some relationship.childAgentId
  limit := limit
  value := value

/-! ## The tree of the active relationships -/

section Tree

variable (localeCompare : String → String → ℤ)

def relationshipSort (left right : AgentRelationship) : ℚ :=
  let byParent := localeCompare left.parentAgentId right.parentAgentId
  if byParent ≠ 0 then byParent
  else if left.sortOrder - right.sortOrder ≠ 0 then left.sortOrder - right.sortOrder
  else localeCompare left.edgeId right.edgeId

/-- `relationships.sort(relationshipSort)`. -/
def sortRelationships (relationships : List AgentRelationship) : List AgentRelationship :=
  relationships.mergeSort fun left right => relationshipSort localeCompare left right ≤ 0

/-- A turn of the loop of `parentByChild`. -/
def addParent (result : OrderedMap String AgentRelationship) (relationship : AgentRelationship) :
    OrderedMap String AgentRelationship :=
  if relationship.status = .active then result.set relationship.childAgentId relationship
  else result

def parentByChild : OrderedMap String AgentRelationship := relationships.foldl addParent ∅

/-- A turn of the first loop of `childrenByParent`. -/
def addChild (result : OrderedMap String (List AgentRelationship))
    (relationship : AgentRelationship) : OrderedMap String (List AgentRelationship) :=
  if relationship.status = .active then
    result.set relationship.parentAgentId
      ((result.get? relationship.parentAgentId).getD [] ++ [relationship])
  else result

def childrenByParent (relationships : List AgentRelationship) :
    OrderedMap String (List AgentRelationship) :=
  (relationships.foldl addChild ∅).mapValues fun _ children =>
    sortRelationships localeCompare children

theorem get?_foldl_addChild (result : OrderedMap String (List AgentRelationship))
    (parentAgentId : String) :
    ((relationships.foldl addChild result).get? parentAgentId).getD [] =
      (result.get? parentAgentId).getD [] ++
        (relationships.filter fun relationship => relationship.status = .active).filter
          fun relationship => relationship.parentAgentId = parentAgentId := by
  induction relationships generalizing result with
  | nil => simp
  | cons relationship rest ih =>
    rw [List.foldl_cons, ih, addChild]
    by_cases hactive : relationship.status = .active
    · rw [if_pos hactive, OrderedMap.get?_set]
      by_cases hparent : relationship.parentAgentId = parentAgentId
      · simp [hactive, hparent]
      · simp [hactive, hparent]
    · simp [hactive]

/-- The children of a parent are its active relationships, sorted. -/
theorem childrenByParent_perm (relationships : List AgentRelationship) (parentAgentId : String) :
    (((childrenByParent localeCompare relationships).get? parentAgentId).getD []).Perm
      ((relationships.filter fun relationship => relationship.status = .active).filter
        fun relationship => relationship.parentAgentId = parentAgentId) := by
  have hchildren := get?_foldl_addChild relationships ∅ parentAgentId
  rw [OrderedMap.get?_empty, Option.getD_none, List.nil_append] at hchildren
  rw [← hchildren, childrenByParent, OrderedMap.get?_mapValues]
  cases (relationships.foldl addChild ∅).get? parentAgentId with
  | none => exact .refl []
  | some children => exact List.mergeSort_perm children _

/-- The active relationships as a graph, from parents to children. -/
def relationshipGraph (relationships : List AgentRelationship) :
    FiniteDigraph String AgentRelationship where
  edges := relationships.filter fun relationship => relationship.status = .active
  source := AgentRelationship.parentAgentId
  target := AgentRelationship.childAgentId
  outgoing agentId := ((childrenByParent localeCompare relationships).get? agentId).getD []
  outgoing_perm := childrenByParent_perm localeCompare relationships

def descendantAgentIds (agentId : String) (relationships : List AgentRelationship) : List String :=
  (relationshipGraph localeCompare relationships).descendants agentId

def hasPath (fromAgentId toAgentId : String) (relationships : List AgentRelationship) : Bool :=
  toAgentId ∈ descendantAgentIds localeCompare fromAgentId relationships

end Tree

/-- The loop of `depthOf`. -/
def climb (rootAgentId : String) (byChild : OrderedMap String AgentRelationship)
    (seen : List String) (cursor : String) (depth : ℕ) : WithTop ℕ :=
  match h : byChild.get? cursor with
  | none => depth
  | some relationship =>
    if relationship.parentAgentId = rootAgentId then depth
    else if hseen : relationship.parentAgentId ∈ seen then ⊤
    else
      climb rootAgentId byChild (relationship.parentAgentId :: seen) relationship.parentAgentId
        (depth + 1)
termination_by
  ((byChild.entries.map fun entry => entry.2.parentAgentId).toFinset \ seen.toFinset).card
decreasing_by
  rw [List.toFinset_cons, Finset.sdiff_insert]
  refine Finset.card_erase_lt_of_mem ?_
  rw [Finset.mem_sdiff, List.mem_toFinset, List.mem_toFinset]
  exact ⟨List.mem_map.mpr ⟨_, OrderedMap.mem_entries_of_get? h, rfl⟩, hseen⟩

/-- `depthOf`: an agent under no parent counts from its own top. -/
def depthOf (agentId rootAgentId : String) (byChild : OrderedMap String AgentRelationship) :
    WithTop ℕ :=
  if agentId = rootAgentId then 0 else climb rootAgentId byChild [agentId] agentId 1

/-! ## The service -/

/-- What a service is created with, and the part of the configuration it reads. -/
structure AgentHierarchyServiceDependencies where
  rootAgentId : Option String
  (maxDepth maxChildCount : Option ℚ)
  nobieAgentId : Option String
  maxDelegationTurns : ℚ

/-- `positiveIntegerOrDefault`: zero stands for no limit. -/
def positiveIntegerOrDefault (value : ℚ) (fallback : ℕ) : ℕ :=
  if value = 0 then 2 ^ 53 - 1
  else if value.den = 1 ∧ 0 < value then value.num.toNat
  else fallback

namespace AgentHierarchyServiceDependencies

variable (dependencies : AgentHierarchyServiceDependencies)

def resolvedRootAgentId : String :=
  (dependencies.rootAgentId <|> dependencies.nobieAgentId).getD defaultRootAgentId

def resolvedMaxDepth : ℕ :=
  positiveIntegerOrDefault (dependencies.maxDepth.getD dependencies.maxDelegationTurns)
    defaultMaxDepth

def resolvedMaxChildCount : ℚ := dependencies.maxChildCount.getD defaultMaxChildCount

end AgentHierarchyServiceDependencies

/-- What a call finds around it: two readings of the clock, the ids of the agents
the registry knows, and whether the database refuses the write. -/
structure CallEnvironment where
  (now storedAt : ℚ)
  registeredAgentIds : List String
  writeRefused : Bool

variable (environment : CallEnvironment)

/-- The keys of `agentSummaries`. -/
def agentSummaryIds (dependencies : AgentHierarchyServiceDependencies)
    (environment : CallEnvironment) : List String :=
  environment.registeredAgentIds ++ dependencies.nobieAgentId.toList ++
    [dependencies.resolvedRootAgentId]

/-! ## The table -/

structure DbAgentRelationship extends AgentRelationship where
  auditId : Option String

/-- The rows of `agent_relationships`, each under its edge id. -/
structure RelationshipTable where
  rows : OrderedMap String DbAgentRelationship
  keyed : ∀ edgeId row, rows.get? edgeId = some row → row.edgeId = edgeId

variable (table : RelationshipTable)

namespace RelationshipTable

def empty : RelationshipTable := ⟨∅, fun _ _ h => absurd h (by simp)⟩

/-- `ORDER BY parent_agent_id ASC, sort_order ASC, edge_id ASC`. -/
def rowOrder (left right : DbAgentRelationship) : Bool :=
  if left.parentAgentId ≠ right.parentAgentId then left.parentAgentId < right.parentAgentId
  else if left.sortOrder ≠ right.sortOrder then left.sortOrder < right.sortOrder
  else left.edgeId ≤ right.edgeId

def getAgentRelationship (edgeId : String) : Option DbAgentRelationship := table.rows.get? edgeId

def listAgentRelationships (status : AgentRelationshipStatus) : List DbAgentRelationship :=
  ((table.rows.entries.map Prod.snd).filter fun row => row.status = status).mergeSort rowOrder

/-- The row an upsert leaves: one that is replaced keeps its time of creation. -/
def upsertedRow (input : AgentRelationship) (auditId : Option String) (now : ℚ) :
    DbAgentRelationship :=
  { input with
    createdAt := ((table.rows.get? input.edgeId).map (·.createdAt)).getD input.createdAt
    updatedAt := now
    auditId := auditId }

def upsertAgentRelationship (input : AgentRelationship) (auditId : Option String) (now : ℚ) :
    RelationshipTable where
  rows := table.rows.set input.edgeId (table.upsertedRow input auditId now)
  keyed := by
    intro edgeId row h
    rw [OrderedMap.get?_set] at h
    split at h
    · next heq => rw [← heq, ← Option.some.inj h, upsertedRow]
    · exact table.keyed edgeId row h

end RelationshipTable

section Service

variable (localeCompare : String → String → ℤ) (dependencies : AgentHierarchyServiceDependencies)

def activeRelationships (table : RelationshipTable) : List AgentRelationship :=
  sortRelationships localeCompare
    ((table.listAgentRelationships .active).map DbAgentRelationship.toAgentRelationship)

def relationshipWithDefaults (environment : CallEnvironment) (table : RelationshipTable)
    (input : Json) : NormalizedRelationship :=
  let nextSortOrder :=
    match asString (input.field? "parentAgentId") with
    | some parentAgentId =>
      ((activeRelationships localeCompare table).filter fun relationship =>
        relationship.parentAgentId = parentAgentId).length
    | none => 0
  normalizeRelationshipInput input environment.now nextSortOrder

/-! ## Validation -/

def rootChildDiagnostics (relationship : AgentRelationship) : List AgentHierarchyDiagnostic :=
  if relationship.childAgentId = dependencies.resolvedRootAgentId then
    [blockedDiagnostic relationship "nobie_parent_forbidden"
      "Nobie must remain the parentless root and cannot be a child." none none]
  else []

def unknownAgentDiagnostics (environment : CallEnvironment) (relationship : AgentRelationship) :
    List AgentHierarchyDiagnostic :=
  (if relationship.parentAgentId ∈ agentSummaryIds dependencies environment then []
    else [blockedDiagnostic relationship "unknown_parent_agent"
      s!"Parent agent {relationship.parentAgentId} is not defined." none none]) ++
  (if relationship.childAgentId ∈ agentSummaryIds dependencies environment then []
    else [blockedDiagnostic relationship "unknown_child_agent"
      s!"Child agent {relationship.childAgentId} is not defined." none none])

def duplicateDiagnostics (relationship : AgentRelationship) : List AgentHierarchyDiagnostic :=
  match active.find? fun candidate => candidate.parentAgentId = relationship.parentAgentId ∧
      candidate.childAgentId = relationship.childAgentId with
  | some _ => [blockedDiagnostic relationship "duplicate_relationship_blocked"
      (s!"{relationship.parentAgentId} already has {relationship.childAgentId} " ++
        "as a direct child.") none none]
  | none => []

def otherParentDiagnostics (relationship : AgentRelationship) : List AgentHierarchyDiagnostic :=
  match active.find? fun candidate => candidate.childAgentId = relationship.childAgentId with
  | some existingParent =>
    if existingParent.parentAgentId ≠ relationship.parentAgentId then
      [blockedDiagnostic relationship "child_multi_parent_blocked"
        s!"{relationship.childAgentId} already has parent {existingParent.parentAgentId}."
        none none]
    else []
  | none => []

/-- The set `nextChildCount`. -/
def nextChildren (relationship : AgentRelationship) : OrderedSet String :=
  let siblings := active.filter fun candidate =>
    candidate.parentAgentId = relationship.parentAgentId
  (OrderedSet.ofList (siblings.map (·.childAgentId))).add relationship.childAgentId

def childCountDiagnostics (active : List AgentRelationship) (relationship : AgentRelationship) :
    List AgentHierarchyDiagnostic :=
  let size := (nextChildren active relationship).elements.length
  if dependencies.resolvedMaxChildCount < size then
    [blockedDiagnostic relationship "max_child_count_exceeded"
      s!"{relationship.parentAgentId} would have {size} direct children."
      (some dependencies.resolvedMaxChildCount) (some size)]
  else []

def cycleDiagnostics (active : List AgentRelationship) (relationship : AgentRelationship) :
    List AgentHierarchyDiagnostic :=
  if hasPath localeCompare relationship.childAgentId relationship.parentAgentId active then
    [blockedDiagnostic relationship "cycle_detected"
      "Adding this relationship would create a cycle." none none]
  else []

/-- A depth as a template string writes it. -/
def depthText : WithTop ℕ → String
  | some depth => toString depth
  | none => "Infinity"

/-- The active relationships once the relationship is among them. -/
def futureRelationships (active : List AgentRelationship) (relationship : AgentRelationship) :
    List AgentRelationship :=
  sortRelationships localeCompare (active ++ [relationship])

def affectedAgentIds (active : List AgentRelationship) (relationship : AgentRelationship) :
    List String :=
  relationship.childAgentId :: descendantAgentIds localeCompare relationship.childAgentId
    (futureRelationships localeCompare active relationship)

def depthDiagnostics (active : List AgentRelationship) (relationship : AgentRelationship) :
    List AgentHierarchyDiagnostic :=
  let byChild := parentByChild (futureRelationships localeCompare active relationship)
  let depth (agentId : String) := depthOf agentId dependencies.resolvedRootAgentId byChild
  match (affectedAgentIds localeCompare active relationship).find? fun agentId =>
      (dependencies.resolvedMaxDepth : WithTop ℕ) < depth agentId with
  | some agentId => [blockedDiagnostic relationship "max_depth_exceeded"
      s!"{agentId} would be at hierarchy depth {depthText (depth agentId)}."
      (some dependencies.resolvedMaxDepth) (some (depth agentId))]
  | none => []

/-- The diagnostics of a relationship that meets the contract. -/
def relationshipDiagnostics (environment : CallEnvironment) (table : RelationshipTable)
    (relationship : AgentRelationship) : List AgentHierarchyDiagnostic :=
  rootChildDiagnostics dependencies relationship ++
    unknownAgentDiagnostics dependencies environment relationship ++
    if relationship.status = .active then
      let active := (activeRelationships localeCompare table).filter fun candidate =>
        candidate.edgeId ≠ relationship.edgeId
      duplicateDiagnostics active relationship ++
        otherParentDiagnostics active relationship ++
        childCountDiagnostics dependencies active relationship ++
        cycleDiagnostics localeCompare active relationship ++
        depthDiagnostics localeCompare dependencies active relationship
    else []

end Service

/-- `AgentHierarchyValidationResult`: the relationship as it was normalized where the
contract rejects it, and as the contract types it otherwise. -/
inductive AgentHierarchyValidationResult
  | rejected (relationship : NormalizedRelationship) (diagnostics : List AgentHierarchyDiagnostic)
  | checked (relationship : AgentRelationship) (diagnostics : List AgentHierarchyDiagnostic)

def AgentHierarchyValidationResult.ok : AgentHierarchyValidationResult → Bool
  | .rejected _ _ => false
  | .checked _ diagnostics => diagnostics.all fun diagnostic => diagnostic.severity ≠ .blocked

section Service

variable (localeCompare : String → String → ℤ) (dependencies : AgentHierarchyServiceDependencies)

def validateRelationship (environment : CallEnvironment) (table : RelationshipTable)
    (input : Json) : AgentHierarchyValidationResult :=
  let normalized := relationshipWithDefaults localeCompare environment table input
  match validateAgentRelationship normalized with
  | .error issues => .rejected normalized (issues.map (contractIssueDiagnostic normalized))
  | .ok relationship => .checked relationship
      (relationshipDiagnostics localeCompare dependencies environment table relationship)

/-- `createRelationship`: the result, none where the write throws, and the table. -/
def createRelationship (environment : CallEnvironment) (table : RelationshipTable)
    (input : Json) (auditId : Option String) :
    Option AgentHierarchyValidationResult × RelationshipTable :=
  let result := validateRelationship localeCompare dependencies environment table input
  match result with
  | .rejected _ _ => (some result, table)
  | .checked relationship diagnostics =>
    if ¬ result.ok then (some result, table)
    else if environment.writeRefused then (none, table)
    else
      let updated := table.upsertAgentRelationship relationship auditId environment.storedAt
      let stored := updated.getAgentRelationship relationship.edgeId
      (some (.checked ((stored.map (·.toAgentRelationship)).getD relationship) diagnostics),
        updated)

/-- `disableRelationship`: the relationship if there is one, none where the write
throws, and the table. -/
def disableRelationship (edgeId : String) (auditId : Option String) :
    Option (Option AgentRelationship) × RelationshipTable :=
  match table.getAgentRelationship edgeId with
  | none => (some none, table)
  | some row =>
    if environment.writeRefused then (none, table)
    else
      let relationship :=
        { row.toAgentRelationship with status := .disabled, updatedAt := environment.now }
      let updated := table.upsertAgentRelationship relationship (auditId <|> row.auditId)
        environment.now
      let stored := updated.getAgentRelationship edgeId
      (some (some ((stored.map (·.toAgentRelationship)).getD relationship)), updated)

/-- A call of the service that writes. -/
inductive HierarchyCall
  | createRelationship (input : Json) (auditId : Option String) (environment : CallEnvironment)
  | disableRelationship (edgeId : String) (auditId : Option String)
      (environment : CallEnvironment)

def hierarchyStep (table : RelationshipTable) : HierarchyCall → RelationshipTable
  | .createRelationship input auditId environment =>
    (createRelationship localeCompare dependencies environment table input auditId).2
  | .disableRelationship edgeId auditId environment =>
    (disableRelationship environment table edgeId auditId).2

/-- The table after a sequence of calls, starting from no relationships. -/
def runHierarchy (calls : List HierarchyCall) : RelationshipTable :=
  calls.foldl (hierarchyStep localeCompare dependencies) .empty

end Service

/-! ## The hierarchy stays a bounded forest

A tree whose top is not the root counts one level more than its height, which is the level its
top would have under the root; so a tree that is moved, cut off or attached again never needs
more room than the check on the moved tree grants it. -/

open List Relation OrderedMap

/-! ## The invariant -/

/-- An agent is the parent of another by an active relationship. -/
def ParentOf (relationships : List AgentRelationship) (parent child : String) : Prop :=
  ∃ relationship ∈ relationships, relationship.status = .active ∧
    relationship.parentAgentId = parent ∧ relationship.childAgentId = child

/-- The children of an agent. -/
def childIds (relationships : List AgentRelationship) (parent : String) : Finset String :=
  ((relationships.filter fun relationship =>
    relationship.status = .active ∧ relationship.parentAgentId = parent).map
      (·.childAgentId)).toFinset

variable {parent child agentId : String} {relationship : AgentRelationship} {top : String}
  {length : ℕ} (auditId : Option String)

variable {relationships : List AgentRelationship} {input : AgentRelationship}

theorem mem_childIds :
    child ∈ childIds relationships parent ↔ ParentOf relationships parent child := by
  simp [childIds, ParentOf, and_assoc]

/-- The level the top of a tree stands on. -/
def topLevel (rootAgentId top : String) : ℕ := if top = rootAgentId then 0 else 1

/-- The active relationships are a forest within the bounds. -/
structure BoundedForest (rootAgentId : String) (maxDepth : ℕ) (maxChildCount : ℚ)
    (relationships : List AgentRelationship) : Prop where
  acyclic : ∀ agentId, ¬ Relation.TransGen (ParentOf relationships) agentId agentId
  oneParent : ∀ parent parent' child, ParentOf relationships parent child →
    ParentOf relationships parent' child → parent = parent'
  rootParentless : ∀ parent, ¬ ParentOf relationships parent rootAgentId
  childCount : ∀ parent child, ParentOf relationships parent child →
    ((childIds relationships parent).card : ℚ) ≤ maxChildCount
  depth : ∀ top agentId length, Walk (ParentOf relationships) top agentId length →
    length + topLevel rootAgentId top ≤ maxDepth

section Forest

variable {rootAgentId : String} {maxDepth : ℕ} {maxChildCount : ℚ}
  {relationships relationships' : List AgentRelationship}

theorem boundedForest_nil (hdepth : 1 ≤ maxDepth) :
    BoundedForest rootAgentId maxDepth maxChildCount [] := by
  have hnone (parent child : String) : ¬ ParentOf [] parent child := by
    rintro ⟨relationship, hmem, -⟩
    cases hmem
  refine ⟨fun agentId hcycle => ?_, fun _ _ _ h => absurd h (hnone _ _), fun _ => hnone _ _,
    fun _ _ h => absurd h (hnone _ _), fun top agentId length walk => ?_⟩
  · cases hcycle with
    | single h => exact hnone _ _ h
    | tail _ h => exact hnone _ _ h
  · cases walk with
    | nil =>
      unfold topLevel
      split <;> omega
    | snoc _ h => exact absurd h (hnone _ _)

section

variable (h : BoundedForest rootAgentId maxDepth maxChildCount relationships)
include h

/-- A part of a bounded forest is one. -/
theorem BoundedForest.mono
    (himp : ∀ parent child, ParentOf relationships' parent child →
      ParentOf relationships parent child) :
    BoundedForest rootAgentId maxDepth maxChildCount relationships' where
  acyclic agentId hcycle := h.acyclic agentId (TransGen.mono himp _ _ hcycle)
  oneParent parent parent' child hparent hparent' :=
    h.oneParent parent parent' child (himp _ _ hparent) (himp _ _ hparent')
  rootParentless parent hparent := h.rootParentless parent (himp _ _ hparent)
  childCount parent child hparent := by
    have hsubset : childIds relationships' parent ⊆ childIds relationships parent :=
      fun child' hchild => mem_childIds.mpr (himp _ _ (mem_childIds.mp hchild))
    exact le_trans (by exact_mod_cast Finset.card_le_card hsubset)
      (h.childCount parent child (himp _ _ hparent))
  depth top agentId length walk := h.depth top agentId length (walk.mono himp)

section

variable (hadd : ∀ first second, ParentOf relationships' first second ↔ AddEdge (ParentOf relationships) parent child first second)
include hadd

theorem BoundedForest.oneParent_addEdge
    (hfree : ∀ other, ¬ ParentOf relationships other child) (first first' second : String)
    (hfirst : ParentOf relationships' first second)
    (hfirst' : ParentOf relationships' first' second) : first = first' := by
  rcases (hadd _ _).mp hfirst with hold | ⟨rfl, rfl⟩
  · rcases (hadd _ _).mp hfirst' with hold' | ⟨-, rfl⟩
    · exact h.oneParent first first' second hold hold'
    · exact absurd hold (hfree first)
  · rcases (hadd _ _).mp hfirst' with hold' | ⟨rfl, -⟩
    · exact absurd hold' (hfree first')
    · rfl

theorem BoundedForest.rootParentless_addEdge (hroot : child ≠ rootAgentId)
    (first : String) : ¬ ParentOf relationships' first rootAgentId := by
  intro hfirst
  rcases (hadd _ _).mp hfirst with hold | ⟨-, heq⟩
  · exact h.rootParentless first hold
  · exact hroot heq.symm

/-- A forest with one more relationship, whose child had no parent and does not
lead to the new parent, and whose tree fits below its new place. -/
theorem BoundedForest.addEdge (hroot : child ≠ rootAgentId)
    (hne : child ≠ parent) (hfree : ∀ other, ¬ ParentOf relationships other child)
    (hback : ¬ TransGen (ParentOf relationships) child parent)
    (hcount : ((childIds relationships' parent).card : ℚ) ≤ maxChildCount)
    (hdepth : ∀ agentId, ReflTransGen (ParentOf relationships') child agentId →
      ∀ top length, Walk (ParentOf relationships') top agentId length →
        length + topLevel rootAgentId top ≤ maxDepth) :
    BoundedForest rootAgentId maxDepth maxChildCount relationships' where
  acyclic agentId hcycle :=
    acyclic_addEdge h.acyclic hne hback agentId
      (TransGen.mono (fun _ _ => (hadd _ _).mp) _ _ hcycle)
  oneParent := h.oneParent_addEdge hadd hfree
  rootParentless := h.rootParentless_addEdge hadd hroot
  childCount first second hfirst := by
    by_cases hparent : first = parent
    · exact hparent ▸ hcount
    · have hsame : childIds relationships' first = childIds relationships first := by
        ext other
        rw [mem_childIds, mem_childIds, hadd, AddEdge]
        simp [hparent]
      have hold : ParentOf relationships first second :=
        ((hadd _ _).mp hfirst).resolve_right fun heq => hparent heq.1
      exact hsame ▸ h.childCount first second hold
  depth top agentId length walk := by
    rcases walk_addEdge (walk.mono fun _ _ => (hadd _ _).mp) with hold | hbelow
    · exact h.depth top agentId length hold
    · have hbelow := ReflTransGen.mono (fun _ _ => (hadd _ _).mpr) _ _ hbelow
      exact hdepth agentId hbelow top length walk

end

end

end Forest

/-! ## What the maps and searches compute -/

theorem adjacent_relationshipGraph (localeCompare : String → String → ℤ)
    (relationships : List AgentRelationship) :
    (relationshipGraph localeCompare relationships).Adjacent = ParentOf relationships := by
  funext parent child
  simp [FiniteDigraph.Adjacent, relationshipGraph, ParentOf, and_assoc]

theorem mem_descendantAgentIds {localeCompare : String → String → ℤ} {other : String} :
    other ∈ descendantAgentIds localeCompare agentId relationships ↔
      TransGen (ParentOf relationships) agentId other := by
  rw [descendantAgentIds, FiniteDigraph.mem_descendants_iff, adjacent_relationshipGraph]

theorem get?_foldl_parentByChild (relationships : List AgentRelationship)
    (result : OrderedMap String AgentRelationship) (child : String) :
    (∀ relationship, (relationships.foldl addParent result).get? child = some relationship →
        result.get? child = some relationship ∨
          relationship ∈ relationships ∧ relationship.status = .active ∧
            relationship.childAgentId = child) ∧
      ((relationships.foldl addParent result).get? child = none →
        result.get? child = none ∧ ∀ parent, ¬ ParentOf relationships parent child) := by
  induction relationships generalizing result with
  | nil =>
    refine ⟨fun relationship h => Or.inl h, fun h => ⟨h, ?_⟩⟩
    rintro parent ⟨relationship, hmem, -⟩
    cases hmem
  | cons first rest ih =>
    obtain ⟨hsome, hnone⟩ := ih (addParent result first)
    refine ⟨fun relationship h => ?_, fun h => ?_⟩
    · rcases hsome relationship h with hbefore | ⟨hmem, hactive, hchild⟩
      · unfold addParent at hbefore
        split at hbefore
        · next hactive =>
          rw [get?_set] at hbefore
          split at hbefore
          · next hchild =>
            cases hbefore
            exact Or.inr ⟨mem_cons_self, hactive, hchild⟩
          · exact Or.inl hbefore
        · exact Or.inl hbefore
      · exact Or.inr ⟨mem_cons_of_mem _ hmem, hactive, hchild⟩
    · obtain ⟨hbefore, hrest⟩ := hnone h
      have hfirst : first.status = .active → first.childAgentId ≠ child := by
        rintro hactive rfl
        rw [addParent, if_pos hactive, get?_set_self] at hbefore
        cases hbefore
      constructor
      · unfold addParent at hbefore
        split at hbefore
        · next hactive => rwa [get?_set_of_ne _ _ (hfirst hactive)] at hbefore
        · exact hbefore
      · rintro parent ⟨relationship, hmem, hactive, hparent, hchild⟩
        rcases mem_cons.mp hmem with rfl | hmem
        · exact hfirst hactive hchild
        · exact hrest parent ⟨relationship, hmem, hactive, hparent, hchild⟩

theorem parentOf_of_parentByChild (h : (parentByChild relationships).get? child = some relationship)
    :
    ParentOf relationships relationship.parentAgentId child := by
  rcases (get?_foldl_parentByChild relationships ∅ child).1 relationship h with hnone | hsome
  · cases hnone
  · exact ⟨relationship, hsome.1, hsome.2.1, rfl, hsome.2.2⟩

theorem not_parentOf_of_parentByChild (h : (parentByChild relationships).get? child = none)
    (parent : String) : ¬ ParentOf relationships parent child :=
  ((get?_foldl_parentByChild relationships ∅ child).2 h).2 parent

/-! ## The depth of an agent -/

section Depth

variable {rootAgentId : String} {relationships : List AgentRelationship}

theorem one_le_length_add_topLevel (walk : Walk (ParentOf relationships) top agentId length)
    (hroot : agentId ≠ rootAgentId) : 1 ≤ length + topLevel rootAgentId top := by
  cases walk with
  | nil => simp [topLevel, hroot]
  | snoc => omega

section

variable (honeParent : ∀ parent parent' child, ParentOf relationships parent child → ParentOf
  relationships parent' child → parent = parent')
include honeParent

section

variable (hroot : ∀ parent, ¬ ParentOf relationships parent rootAgentId)
include hroot

/-- The loop counts at least the walks that end where it stands. -/
theorem le_climb {seen : List String}
    {cursor : String} {depth : ℕ} (hcursor : cursor ≠ rootAgentId) {above : ℕ}
    (walk : Walk (ParentOf relationships) top cursor length)
    (habove : length + topLevel rootAgentId top = above + 1) :
    ((depth + above : ℕ) : WithTop ℕ) ≤
      climb rootAgentId (parentByChild relationships) seen cursor depth := by
  fun_induction climb rootAgentId (parentByChild relationships) seen cursor depth
    generalizing top length above with
  | case1 seen cursor depth hnone =>
    cases walk with
    | nil =>
      have hlevel : topLevel rootAgentId cursor = 1 := by simp [topLevel, hcursor]
      obtain rfl : above = 0 := by omega
      exact le_refl _
    | snoc _ edge => exact absurd edge (not_parentOf_of_parentByChild hnone _)
  | case2 seen cursor depth relationship hsome hparent =>
    cases walk with
    | nil =>
      have hlevel : topLevel rootAgentId cursor = 1 := by simp [topLevel, hcursor]
      obtain rfl : above = 0 := by omega
      exact le_refl _
    | snoc prior edge =>
      obtain rfl := honeParent _ _ _ edge (parentOf_of_parentByChild hsome)
      rw [hparent] at prior
      cases prior with
      | nil =>
        have hlevel : topLevel rootAgentId rootAgentId = 0 := by simp [topLevel]
        obtain rfl : above = 0 := by omega
        exact le_refl _
      | snoc _ edge' => exact absurd edge' (hroot _)
  | case3 seen cursor depth relationship hsome hparent hseen => exact le_top
  | case4 seen cursor depth relationship hsome hparent hseen ih =>
    cases walk with
    | nil =>
      have hlevel : topLevel rootAgentId cursor = 1 := by simp [topLevel, hcursor]
      obtain rfl : above = 0 := by omega
      have hnext : 0 + topLevel rootAgentId relationship.parentAgentId = 0 + 1 := by
        simp [topLevel, hparent]
      refine le_trans ?_ (ih hparent .nil hnext)
      exact_mod_cast Nat.le_succ _
    | @snoc _ _ length prior edge =>
      obtain rfl := honeParent _ _ _ edge (parentOf_of_parentByChild hsome)
      have hpositive := one_le_length_add_topLevel prior hparent
      obtain ⟨above', rfl⟩ : ∃ above', above = above' + 1 := ⟨above - 1, by omega⟩
      have hlevel : length + topLevel rootAgentId top = above' + 1 := by omega
      rw [show depth + (above' + 1) = depth + 1 + above' by omega]
      exact ih hparent prior hlevel

/-- The depth of an agent is at least the level every walk to it ends on. -/
theorem le_depthOf
    (walk : Walk (ParentOf relationships) top agentId length) (hagent : agentId ≠ rootAgentId) :
    ((length + topLevel rootAgentId top : ℕ) : WithTop ℕ) ≤
      depthOf agentId rootAgentId (parentByChild relationships) := by
  have hpositive := one_le_length_add_topLevel walk hagent
  obtain ⟨above, habove⟩ : ∃ above, length + topLevel rootAgentId top = above + 1 :=
    ⟨length + topLevel rootAgentId top - 1, by omega⟩
  rw [depthOf, if_neg hagent, habove, Nat.add_comm above 1]
  exact le_climb honeParent hroot hagent walk habove

end

end

end Depth

/-! ## What an accepted relationship satisfies -/

section Accepted

variable {localeCompare : String → String → ℤ}
  {dependencies : AgentHierarchyServiceDependencies} {environment : CallEnvironment}
  {table : RelationshipTable} {active : List AgentRelationship} {relationship : AgentRelationship}

theorem resolvedMaxDepth_pos : 1 ≤ dependencies.resolvedMaxDepth := by
  unfold AgentHierarchyServiceDependencies.resolvedMaxDepth positiveIntegerOrDefault
  split
  · norm_num
  · split
    · next h =>
      have hnum : 0 < (dependencies.maxDepth.getD dependencies.maxDelegationTurns).num :=
        Rat.num_pos.mpr h.2
      omega
    · decide

/-- Every diagnostic of a relationship blocks it. -/
theorem blocked_of_mem_relationshipDiagnostics {diagnostic : AgentHierarchyDiagnostic}
    (h : diagnostic ∈ relationshipDiagnostics localeCompare dependencies environment table
      relationship) : diagnostic.severity = .blocked := by
  have hone {reasonCode message : String} {limit : Option ℚ} {value : Option (WithTop ℕ)}
      (hmem : diagnostic ∈ [blockedDiagnostic relationship reasonCode message limit value]) :
      diagnostic.severity = .blocked := by
    rw [mem_singleton] at hmem
    rw [hmem, blockedDiagnostic]
  simp only [relationshipDiagnostics, rootChildDiagnostics, unknownAgentDiagnostics,
    mem_append] at h
  rcases h with (h | h | h) | h
  · split at h
    · exact hone h
    · cases h
  · split at h
    · cases h
    · exact hone h
  · split at h
    · cases h
    · exact hone h
  · split at h
    · simp only [duplicateDiagnostics, otherParentDiagnostics, childCountDiagnostics,
        cycleDiagnostics, depthDiagnostics, mem_append] at h
      rcases h with (((h | h) | h) | h) | h
      · split at h
        · exact hone h
        · cases h
      · split at h
        · split at h
          · exact hone h
          · cases h
        · cases h
      · split at h
        · exact hone h
        · cases h
      · split at h
        · exact hone h
        · cases h
      · split at h
        · exact hone h
        · cases h
    · cases h

/-- A checked relationship is accepted exactly if there is nothing to say about it. -/
theorem ok_iff_relationshipDiagnostics :
    (AgentHierarchyValidationResult.checked relationship
      (relationshipDiagnostics localeCompare dependencies environment table relationship)).ok ↔
      relationshipDiagnostics localeCompare dependencies environment table relationship = [] := by
  rw [AgentHierarchyValidationResult.ok, all_eq_true]
  constructor
  · intro h
    rw [eq_nil_iff_forall_not_mem]
    intro diagnostic hmem
    have hnot := h diagnostic hmem
    rw [decide_eq_true_eq] at hnot
    exact hnot (blocked_of_mem_relationshipDiagnostics hmem)
  · intro h
    rw [h]
    exact nofun

/-- The child is under no parent, neither the new one nor another. -/
theorem not_parentOf_of_diagnostics (hduplicate : duplicateDiagnostics active relationship = [])
    (hother : otherParentDiagnostics active relationship = []) (parent : String) :
    ¬ ParentOf active parent relationship.childAgentId := by
  rintro ⟨candidate, hmem, -, -, hchild⟩
  have hsome : (active.find? fun candidate =>
      candidate.childAgentId = relationship.childAgentId).isSome := by
    rw [find?_isSome]
    exact ⟨candidate, hmem, by simpa using hchild⟩
  obtain ⟨existingParent, hexisting⟩ := Option.isSome_iff_exists.mp hsome
  have hexistingChild := find?_some hexisting
  have hexistingMem := mem_of_find?_eq_some hexisting
  rw [decide_eq_true_eq] at hexistingChild
  by_cases hparent : existingParent.parentAgentId = relationship.parentAgentId
  · have hpair : (active.find? fun candidate =>
        candidate.parentAgentId = relationship.parentAgentId ∧
          candidate.childAgentId = relationship.childAgentId).isSome := by
      rw [find?_isSome]
      exact ⟨existingParent, hexistingMem, by simp [hparent, hexistingChild]⟩
    obtain ⟨found, hfound⟩ := Option.isSome_iff_exists.mp hpair
    rw [duplicateDiagnostics, hfound] at hduplicate
    cases hduplicate
  · rw [otherParentDiagnostics, hexisting] at hother
    dsimp only at hother
    rw [if_pos hparent] at hother
    cases hother

theorem parentOf_futureRelationships (localeCompare : String → String → ℤ)
    (active : List AgentRelationship) (hactive : relationship.status = .active)
    (parent child : String) :
    ParentOf (futureRelationships localeCompare active relationship) parent child ↔
      AddEdge (ParentOf active) relationship.parentAgentId relationship.childAgentId
        parent child := by
  unfold ParentOf AddEdge futureRelationships sortRelationships
  simp only [mem_mergeSort, mem_append, mem_singleton]
  constructor
  · rintro ⟨candidate, hmem | rfl, hstatus, hparent, hchild⟩
    · exact Or.inl ⟨candidate, hmem, hstatus, hparent, hchild⟩
    · exact Or.inr ⟨hparent.symm, hchild.symm⟩
  · rintro (⟨candidate, hmem, hcandidate⟩ | ⟨rfl, rfl⟩)
    · exact ⟨candidate, Or.inl hmem, hcandidate⟩
    · exact ⟨relationship, Or.inr rfl, hactive, rfl, rfl⟩

theorem childCount_of_diagnostics (hactive : relationship.status = .active)
    (h : childCountDiagnostics dependencies active relationship = []) :
    ((childIds (futureRelationships localeCompare active relationship)
      relationship.parentAgentId).card : ℚ) ≤ dependencies.resolvedMaxChildCount := by
  have hsize : ((nextChildren active relationship).elements.length : ℚ) ≤
      dependencies.resolvedMaxChildCount := by
    unfold childCountDiagnostics at h
    dsimp only at h
    split at h
    · cases h
    · next hnot => exact not_lt.mp hnot
  have hsubset : childIds (futureRelationships localeCompare active relationship)
      relationship.parentAgentId ⊆ (nextChildren active relationship).elements.toFinset := by
    intro child hchild
    rw [mem_childIds, parentOf_futureRelationships localeCompare active hactive] at hchild
    rw [mem_toFinset]
    change child ∈ nextChildren active relationship
    rw [nextChildren, OrderedSet.mem_add, OrderedSet.mem_ofList, mem_map]
    rcases hchild with ⟨candidate, hmem, -, hparent, hchild⟩ | ⟨-, hchild⟩
    · exact Or.inr ⟨candidate, mem_filter.mpr ⟨hmem, by simpa using hparent⟩, hchild⟩
    · exact Or.inl hchild
  have hcard := Finset.card_le_card hsubset
  rw [toFinset_card_of_nodup (nextChildren active relationship).nodup] at hcard
  exact le_trans (by exact_mod_cast hcard) hsize

theorem not_reaches_of_diagnostics (h : cycleDiagnostics localeCompare active relationship = []) :
    ¬ TransGen (ParentOf active) relationship.childAgentId relationship.parentAgentId := by
  intro hpath
  rw [cycleDiagnostics, hasPath, if_pos (by simpa using mem_descendantAgentIds.mpr hpath)] at h
  cases h

/-- Every agent of the moved tree is within the depth. -/
theorem depthOf_le_of_diagnostics
    (h : depthDiagnostics localeCompare dependencies active relationship = [])
    (hbelow : ReflTransGen
      (ParentOf (futureRelationships localeCompare active relationship))
        relationship.childAgentId agentId) :
    depthOf agentId dependencies.resolvedRootAgentId
        (parentByChild (futureRelationships localeCompare active relationship)) ≤
      dependencies.resolvedMaxDepth := by
  have haffected : agentId ∈ affectedAgentIds localeCompare active relationship := by
    rcases reflTransGen_iff_eq_or_transGen.mp hbelow with rfl | hpath
    · exact mem_cons_self
    · exact mem_cons_of_mem _ (mem_descendantAgentIds.mpr hpath)
  unfold depthDiagnostics at h
  dsimp only at h
  split at h
  · cases h
  · next hnone =>
    rw [find?_eq_none] at hnone
    have hnot := hnone agentId haffected
    rw [decide_eq_true_eq, not_lt] at hnot
    exact hnot

/-- An accepted active relationship can be added to what is left of the forest. -/
theorem boundedForest_futureRelationships
    (h : BoundedForest dependencies.resolvedRootAgentId dependencies.resolvedMaxDepth
      dependencies.resolvedMaxChildCount active)
    (hactive : relationship.status = .active)
    (hne : relationship.parentAgentId ≠ relationship.childAgentId)
    (hroot : relationship.childAgentId ≠ dependencies.resolvedRootAgentId)
    (hdiagnostics : duplicateDiagnostics active relationship ++
        otherParentDiagnostics active relationship ++
        childCountDiagnostics dependencies active relationship ++
        cycleDiagnostics localeCompare active relationship ++
        depthDiagnostics localeCompare dependencies active relationship = []) :
    BoundedForest dependencies.resolvedRootAgentId dependencies.resolvedMaxDepth
      dependencies.resolvedMaxChildCount
      (futureRelationships localeCompare active relationship) := by
  simp only [append_eq_nil_iff] at hdiagnostics
  obtain ⟨⟨⟨⟨hduplicate, hother⟩, hcount⟩, hcycle⟩, hdepth⟩ := hdiagnostics
  have hfree := not_parentOf_of_diagnostics hduplicate hother
  have hadd := parentOf_futureRelationships localeCompare active hactive
  have hnewRoot := h.rootParentless_addEdge hadd hroot
  refine h.addEdge hadd hroot hne.symm hfree (not_reaches_of_diagnostics hcycle)
    (childCount_of_diagnostics hactive hcount) fun agentId hbelow top length walk => ?_
  have hagent : agentId ≠ dependencies.resolvedRootAgentId := by
    rintro rfl
    rcases ReflTransGen.cases_tail hbelow with heq | ⟨parent, -, hparent⟩
    · exact hroot heq.symm
    · exact hnewRoot parent hparent
  have hlevel := le_depthOf (h.oneParent_addEdge hadd hfree) hnewRoot walk hagent
  exact WithTop.coe_le_coe.mp (le_trans hlevel (depthOf_le_of_diagnostics hdepth hbelow))

end Accepted

/-! ## The service -/

section Service

variable {localeCompare : String → String → ℤ}
  {dependencies : AgentHierarchyServiceDependencies} {table : RelationshipTable}

theorem mem_activeRelationships :
    relationship ∈ activeRelationships localeCompare table ↔
      relationship.status = .active ∧ ∃ row, table.rows.get? relationship.edgeId = some row ∧
        row.toAgentRelationship = relationship := by
  simp only [activeRelationships, sortRelationships, RelationshipTable.listAgentRelationships,
    mem_mergeSort, mem_map, mem_filter, decide_eq_true_eq]
  constructor
  · rintro ⟨row, ⟨⟨⟨edgeId, row'⟩, hmem, rfl⟩, hstatus⟩, rfl⟩
    have hget := get?_of_mem_entries hmem
    exact ⟨hstatus, row', table.keyed edgeId row' hget ▸ hget, rfl⟩
  · rintro ⟨hstatus, row, hget, rfl⟩
    exact ⟨row, ⟨⟨_, mem_entries_of_get? hget, rfl⟩, hstatus⟩, rfl⟩

/-- Who is whose parent once a relationship has been stored. -/
theorem parentOf_upsert {auditId : Option String} {now : ℚ} :
    ParentOf (activeRelationships localeCompare
        (table.upsertAgentRelationship input auditId now)) parent child ↔
      ParentOf ((activeRelationships localeCompare table).filter fun candidate =>
          candidate.edgeId ≠ input.edgeId) parent child ∨
        input.status = .active ∧ input.parentAgentId = parent ∧ input.childAgentId = child := by
  constructor
  · rintro ⟨candidate, hmem, -, rfl, rfl⟩
    obtain ⟨hactive, row, hrow, rfl⟩ := mem_activeRelationships.mp hmem
    rw [RelationshipTable.upsertAgentRelationship, get?_set] at hrow
    split at hrow
    · cases hrow
      exact Or.inr ⟨hactive, rfl, rfl⟩
    · next hne =>
      have hbefore : row.toAgentRelationship ∈ activeRelationships localeCompare table :=
        mem_activeRelationships.mpr ⟨hactive, row, hrow, rfl⟩
      exact Or.inl ⟨_, mem_filter.mpr ⟨hbefore, by simpa using Ne.symm hne⟩, hactive, rfl, rfl⟩
  · rintro (⟨candidate, hmem, hactive, hparent, hchild⟩ | ⟨hactive, hparent, hchild⟩)
    · obtain ⟨hmem, hne⟩ := mem_filter.mp hmem
      rw [decide_eq_true_eq] at hne
      obtain ⟨-, row, hrow, hcandidate⟩ := mem_activeRelationships.mp hmem
      refine ⟨candidate, mem_activeRelationships.mpr ⟨hactive, row, ?_, hcandidate⟩, hactive,
        hparent, hchild⟩
      rw [RelationshipTable.upsertAgentRelationship, get?_set_of_ne _ _ hne.symm, hrow]
    · have hstored : (table.upsertedRow input auditId now).toAgentRelationship ∈
          activeRelationships localeCompare (table.upsertAgentRelationship input auditId now) :=
        mem_activeRelationships.mpr ⟨hactive, _, get?_set_self .., rfl⟩
      exact ⟨_, hstored, hactive, hparent, hchild⟩

/-- The bounds of a service hold of its table. -/
def Bounded (localeCompare : String → String → ℤ)
    (dependencies : AgentHierarchyServiceDependencies) (table : RelationshipTable) : Prop :=
  BoundedForest dependencies.resolvedRootAgentId dependencies.resolvedMaxDepth
    dependencies.resolvedMaxChildCount (activeRelationships localeCompare table)

theorem parent_ne_child_of_contract {value : NormalizedRelationship}
    (h : validateAgentRelationship value = .ok relationship) :
    relationship.parentAgentId ≠ relationship.childAgentId := by
  unfold validateAgentRelationship at h
  dsimp only at h
  split at h
  · next hissues _ _ =>
    simp only [append_eq_nil_iff] at hissues
    obtain ⟨⟨⟨-, hself⟩, -⟩, -⟩ := hissues
    cases h
    intro heq
    rw [if_pos heq] at hself
    cases hself
  · cases h

section

variable (h : Bounded localeCompare dependencies table)
include h

/-- A row that is not active leaves a part of the forest. -/
theorem Bounded.upsert_inactive
    (hinactive : input.status ≠ .active) (auditId : Option String) (now : ℚ) :
    Bounded localeCompare dependencies (table.upsertAgentRelationship input auditId now) := by
  refine BoundedForest.mono h fun parent child hparent => ?_
  rcases parentOf_upsert.mp hparent with ⟨candidate, hmem, hcandidate⟩ | ⟨hactive, -⟩
  · exact ⟨candidate, (mem_filter.mp hmem).1, hcandidate⟩
  · exact absurd hactive hinactive

/-- An accepted relationship can be stored. -/
theorem Bounded.upsert_accepted
    {environment : CallEnvironment} (hne : relationship.parentAgentId ≠ relationship.childAgentId)
    (hdiagnostics : relationshipDiagnostics localeCompare dependencies environment table
      relationship = []) (auditId : Option String) (now : ℚ) :
    Bounded localeCompare dependencies
      (table.upsertAgentRelationship relationship auditId now) := by
  by_cases hactive : relationship.status = .active
  · simp only [relationshipDiagnostics, if_pos hactive, append_eq_nil_iff] at hdiagnostics
    obtain ⟨⟨hrootChild, -⟩, hactiveDiagnostics⟩ := hdiagnostics
    have hroot : relationship.childAgentId ≠ dependencies.resolvedRootAgentId := by
      intro heq
      rw [rootChildDiagnostics, if_pos heq] at hrootChild
      cases hrootChild
    have hrest : BoundedForest dependencies.resolvedRootAgentId dependencies.resolvedMaxDepth
        dependencies.resolvedMaxChildCount
        ((activeRelationships localeCompare table).filter fun candidate =>
          candidate.edgeId ≠ relationship.edgeId) := by
      refine BoundedForest.mono h fun parent child => ?_
      rintro ⟨candidate, hmem, hcandidate⟩
      exact ⟨candidate, (mem_filter.mp hmem).1, hcandidate⟩
    refine BoundedForest.mono (boundedForest_futureRelationships hrest hactive hne hroot
      (by simpa only [append_eq_nil_iff] using hactiveDiagnostics)) fun parent child hparent => ?_
    rw [parentOf_futureRelationships localeCompare _ hactive]
    exact (parentOf_upsert.mp hparent).imp_right fun hnew => ⟨hnew.2.1.symm, hnew.2.2.symm⟩
  · exact h.upsert_inactive hactive auditId now

theorem Bounded.createRelationship
    (environment : CallEnvironment) (input : Json) (auditId : Option String) :
    Bounded localeCompare dependencies
      (createRelationship localeCompare dependencies environment table input auditId).2 := by
  unfold Orchestration.createRelationship
  dsimp only
  split
  · exact h
  · next relationship diagnostics hresult =>
    split
    · exact h
    · next hok =>
      split
      · exact h
      · rw [Bool.not_eq_true, Bool.not_eq_false] at hok
        unfold validateRelationship at hresult hok
        dsimp only at hresult hok
        split at hresult
        · cases hresult
        · next accepted hcontract =>
          rw [hcontract] at hok
          obtain ⟨rfl, -⟩ := AgentHierarchyValidationResult.checked.inj hresult
          exact h.upsert_accepted (parent_ne_child_of_contract hcontract)
            (ok_iff_relationshipDiagnostics.mp hok) auditId environment.storedAt

theorem Bounded.disableRelationship
    (environment : CallEnvironment) (edgeId : String) (auditId : Option String) :
    Bounded localeCompare dependencies
      (disableRelationship environment table edgeId auditId).2 := by
  unfold Orchestration.disableRelationship
  split
  · exact h
  · split
    · exact h
    · exact h.upsert_inactive (by simp) _ _

/-- Every call keeps the bounds. -/
theorem Bounded.step (call : HierarchyCall) :
    Bounded localeCompare dependencies (hierarchyStep localeCompare dependencies table call) := by
  cases call with
  | createRelationship input auditId environment =>
    exact h.createRelationship environment input auditId
  | disableRelationship edgeId auditId environment =>
    exact h.disableRelationship environment edgeId auditId

end

theorem bounded_runHierarchy (localeCompare : String → String → ℤ)
    (dependencies : AgentHierarchyServiceDependencies) (calls : List HierarchyCall) :
    Bounded localeCompare dependencies (runHierarchy localeCompare dependencies calls) := by
  induction calls using List.reverseRecOn with
  | nil =>
    refine (boundedForest_nil resolvedMaxDepth_pos).mono fun parent child => ?_
    rintro ⟨relationship, hmem, -⟩
    obtain ⟨-, row, hrow, -⟩ := mem_activeRelationships.mp hmem
    exact absurd hrow (by simp [runHierarchy, RelationshipTable.empty])
  | append_singleton calls call ih =>
    rw [runHierarchy, foldl_append]
    exact ih.step call

/-- After any sequence of calls the active relationships have no cycle, give every
agent one parent at most and the root none, give no parent more children than its
limit, and no agent lies deeper below the root than the limit. -/
theorem hierarchy_boundedForest (localeCompare : String → String → ℤ)
    (dependencies : AgentHierarchyServiceDependencies) (calls : List HierarchyCall) :
    let active := activeRelationships localeCompare
      (runHierarchy localeCompare dependencies calls)
    (∀ agentId, ¬ Relation.TransGen (ParentOf active) agentId agentId) ∧
      (∀ parent parent' child, ParentOf active parent child → ParentOf active parent' child →
        parent = parent') ∧
      (∀ parent, ¬ ParentOf active parent dependencies.resolvedRootAgentId) ∧
      (∀ parent child, ParentOf active parent child →
        ((childIds active parent).card : ℚ) ≤ dependencies.resolvedMaxChildCount) ∧
      ∀ agentId depth, Walk (ParentOf active) dependencies.resolvedRootAgentId agentId depth →
        depth ≤ dependencies.resolvedMaxDepth := by
  intro active
  have h := bounded_runHierarchy localeCompare dependencies calls
  refine ⟨h.acyclic, h.oneParent, h.rootParentless, h.childCount, fun agentId depth walk => ?_⟩
  exact le_trans (Nat.le_add_right _ _) (h.depth _ agentId depth walk)

end Service

end Nobie.Orchestration
