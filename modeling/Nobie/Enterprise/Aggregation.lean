/-
# Aggregation of the results of a node

The outputs of a node itself, of the nodes below it and of its tools are grouped by output id.
An output that comes twice is dropped, and of each group one output is passed on: the first, where
the node itself stands before the nodes below it and these before the tools. What the outputs say
plays no part in the choice, so that the placeholder a node puts in for an output it was expected
to deliver stands in front of what a child has delivered.
-/

import Nobie.Foundation.JsNumber
import Nobie.Runs.StableText

namespace Nobie.Enterprise

open Foundation Runs JsString

/-! ## Results -/

inductive NodeResultOutputStatus
  | satisfied | partially | missing
  deriving DecidableEq

def NodeResultOutputStatus.text : NodeResultOutputStatus → JsString
  | .satisfied => ofString "satisfied"
  | .partially => ofString "partial"
  | .missing => ofString "missing"

/-- An output without a value has the value `undefined`. -/
structure NodeResultOutput where
  outputId : JsString
  status : NodeResultOutputStatus
  value : PlainValue := .undefined

inductive NodeResultStatus
  | completed | partialSuccess | failedCandidate | permissionLimited | needsRevision | failed

structure NodeResultReport where
  nodeId : JsString
  status : NodeResultStatus
  outputs : List NodeResultOutput
  risksOrGaps : List JsString

structure NormalizedNodeToolResult where
  toolId : JsString
  succeeded : Bool
  output : PlainValue := .undefined
  failureCandidate : Bool
  error : Option JsString
  reasonCode : JsString

/-- The outputs of the node itself, with a placeholder for every expected output it has none
for. -/
def normalizeSelfExecutionResult (outputs : List NodeResultOutput)
    (expectedOutputIds : List JsString) : List NodeResultOutput :=
  outputs ++ (expectedOutputIds.filter fun outputId =>
    !outputs.any fun output => output.outputId = outputId).map fun outputId =>
      { outputId, status := .missing }

/-! ## Aggregation -/

inductive AggregationStrategy
  | mergeAndValidate | parentDecides | requireAllChildResults | bestEffortWithWarnings | quorum
  deriving DecidableEq

def AggregationStrategy.text : AggregationStrategy → String
  | .mergeAndValidate => "merge_and_validate"
  | .parentDecides => "parent_decides"
  | .requireAllChildResults => "require_all_child_results"
  | .bestEffortWithWarnings => "best_effort_with_warnings"
  | .quorum => "quorum"

inductive AggregatedResultSourceKind
  | self | child | tool

def sourcePriority : AggregatedResultSourceKind → ℕ
  | .self => 0
  | .child => 1
  | .tool => 2

structure AggregatedResultSource where
  sourceKind : AggregatedResultSourceKind
  sourceId : JsString
  status : NodeResultStatus
  outputCount : ℕ
  failureCandidate : Bool
  risksOrGaps : List JsString

structure AggregatedResultItem where
  sourceKind : AggregatedResultSourceKind
  sourceId : JsString
  output : NodeResultOutput
  fingerprint : List Char

inductive AggregationIssueCode
  | duplicateOutputRemoved | outputConflictDetected | childResultMissing | sourceFailureCandidate
  | quorumNotMet

def AggregationIssueCode.message : AggregationIssueCode → String
  | .duplicateOutputRemoved => "Duplicate output was removed during aggregation."
  | .outputConflictDetected =>
    "Multiple sources produced conflicting output for the same output id."
  | .childResultMissing => "A required child result is missing."
  | .sourceFailureCandidate =>
    "A source result is a failure candidate and must be reviewed before final failure."
  | .quorumNotMet => "Aggregation quorum was not met."

inductive AggregationSeverity
  | info | warning | needsRevision | blocked

structure AggregationIssue where
  code : AggregationIssueCode
  severity : AggregationSeverity
  outputId : Option JsString := none
  sourceIds : List JsString

structure AggregateNodeRuntimeResultsInput where
  (workOrderId nodeId : JsString)
  strategy : AggregationStrategy := .mergeAndValidate
  selfOutputs : Option (List NodeResultOutput) := none
  selfStatus : NodeResultStatus := .completed
  selfRisksOrGaps : List JsString := []
  childReports : List NodeResultReport := []
  childDelegation : List (Option NodeResultReport) := []
  toolExecution : List NormalizedNodeToolResult := []
  expectedChildNodeIds : List JsString := []
  requireAllChildResults : Bool := false
  quorum : Option JsNumber := none

structure AggregationResult where
  outputs : List NodeResultOutput
  items : List AggregatedResultItem
  sources : List AggregatedResultSource
  (issues conflicts duplicates : List AggregationIssue)
  missingChildNodeIds : List JsString
  reasonCodes : List String

def isFailureCandidateStatus : NodeResultStatus → Bool
  | .failedCandidate | .permissionLimited | .failed => true
  | _ => false

/-- What an output is known by. -/
def NodeResultOutput.fingerprintValue (output : NodeResultOutput) : JsValue :=
  .object
    [(ofString "outputId", .string output.outputId),
      (ofString "status", .string output.status.text),
      (ofString "value",
        if output.value.isNullish then .null else output.value.value)]

section Aggregate

-- `collate` is the order `localeCompare` gives two keys.
variable (collate : JsString → JsString → Bool)

/-- `JSON.stringify(sortJsonValue(value))`. -/
def fingerprintText (value : JsValue) : List Char :=
  (JsonValue.arranged (sortEntries collate) (defined value)).text

def buildItem (sourceKind : AggregatedResultSourceKind) (sourceId : JsString)
    (output : NodeResultOutput) : AggregatedResultItem where
  sourceKind := sourceKind
  sourceId := sourceId
  output := output
  fingerprint := fingerprintText collate output.fingerprintValue

variable (items : List AggregatedResultItem)
  (groups : OrderedMap JsString (List AggregatedResultItem))

def selectOutputForMerge : Option AggregatedResultItem :=
  (items.insertionSort fun left right =>
    sourcePriority left.sourceKind ≤ sourcePriority right.sourceKind).head?

/-- The items of a group whose fingerprint an earlier one has. -/
def repeatedItems (seen : List (List Char)) :
    List AggregatedResultItem → List AggregatedResultItem
  | [] => []
  | item :: rest =>
    if item.fingerprint ∈ seen then item :: repeatedItems seen rest
    else repeatedItems (item.fingerprint :: seen) rest

def uniqueItems : List AggregatedResultItem :=
  keepFirst AggregatedResultItem.fingerprint [] items

def groupByOutputId : OrderedMap JsString (List AggregatedResultItem) :=
  items.foldl (fun groups item => groups.set item.output.outputId
    (((groups.get? item.output.outputId).getD []) ++ [item])) ∅

def mergedOutputs : List NodeResultOutput :=
  groups.entries.filterMap fun group =>
    (selectOutputForMerge (uniqueItems group.2)).map (·.output)

def repeatedOutputIssues : List AggregationIssue :=
  groups.entries.flatMap fun group => (repeatedItems [] group.2).map fun item =>
    { code := .duplicateOutputRemoved, severity := .info, outputId := some group.1
      sourceIds := [item.sourceId] }

def conflictIssues (strategy : AggregationStrategy)
    (groups : OrderedMap JsString (List AggregatedResultItem)) : List AggregationIssue :=
  groups.entries.flatMap fun group =>
    if 1 < (uniqueItems group.2).length then
      [{ code := .outputConflictDetected
         severity := if strategy = .parentDecides then .warning else .needsRevision
         outputId := some group.1
         sourceIds := (uniqueItems group.2).map (·.sourceId) }]
    else []

def NormalizedNodeToolResult.nodeOutput (result : NormalizedNodeToolResult) :
    NodeResultOutput where
  outputId := ofString "tool:" ++ result.toolId
  status := if result.succeeded then .satisfied else .missing
  value := result.output

namespace AggregateNodeRuntimeResultsInput

variable (input : AggregateNodeRuntimeResultsInput)

def allChildReports : List NodeResultReport :=
  input.childReports ++ input.childDelegation.filterMap id

def sources : List AggregatedResultSource :=
  (input.selfOutputs.toList.map fun outputs =>
    { sourceKind := .self, sourceId := input.nodeId, status := input.selfStatus
      outputCount := outputs.length
      failureCandidate := isFailureCandidateStatus input.selfStatus
      risksOrGaps := input.selfRisksOrGaps }) ++
  (input.allChildReports.map fun report =>
    { sourceKind := .child, sourceId := report.nodeId, status := report.status
      outputCount := report.outputs.length
      failureCandidate := isFailureCandidateStatus report.status
      risksOrGaps := report.risksOrGaps }) ++
  input.toolExecution.map fun result =>
    { sourceKind := .tool, sourceId := result.toolId
      status := if result.failureCandidate then .failedCandidate else .completed
      outputCount := 1
      failureCandidate := result.failureCandidate
      risksOrGaps := result.error.toList ++
        if result.failureCandidate then [result.reasonCode] else [] }

def rawItems : List AggregatedResultItem :=
  (input.selfOutputs.getD []).map (buildItem collate .self input.nodeId) ++
    (input.allChildReports.flatMap fun report =>
      report.outputs.map (buildItem collate .child report.nodeId)) ++
    input.toolExecution.map fun result =>
      buildItem collate .tool result.toolId result.nodeOutput

def missingChildNodeIds : List JsString :=
  input.expectedChildNodeIds.filter fun nodeId =>
    !input.allChildReports.any fun report => report.nodeId = nodeId

def quorumMissed : Bool :=
  input.strategy = .quorum && input.quorum.any fun required =>
    JsNumber.lt (.ofNat (((input.rawItems collate).filter fun item =>
      item.output.status = .satisfied).map (·.sourceId)).dedup.length) required

/-- The issues found before the outputs are merged. -/
def sourceIssues : List AggregationIssue :=
  ((input.sources.filter (·.failureCandidate)).map fun source =>
    { code := .sourceFailureCandidate, severity := .warning, sourceIds := [source.sourceId] }) ++
  (if input.missingChildNodeIds ≠ [] ∧
      (input.requireAllChildResults ∨ input.strategy = .requireAllChildResults) then
    [{ code := .childResultMissing, severity := .blocked
       sourceIds := input.missingChildNodeIds }]
  else []) ++
  if input.quorumMissed collate then
    [{ code := .quorumNotMet, severity := .blocked
       sourceIds := input.sources.map (·.sourceId) }]
  else []

end AggregateNodeRuntimeResultsInput

def aggregateNodeRuntimeResults (input : AggregateNodeRuntimeResultsInput) : AggregationResult :=
  let items := input.rawItems collate
  let groups := groupByOutputId items
  let duplicates := repeatedOutputIssues groups
  let conflicts := conflictIssues input.strategy groups
  { outputs := mergedOutputs groups
    items
    sources := input.sources
    issues := input.sourceIssues collate ++ duplicates ++ conflicts
    conflicts
    duplicates
    missingChildNodeIds := input.missingChildNodeIds
    reasonCodes := ["aggregation_strategy:" ++ input.strategy.text] ++
      (if duplicates ≠ [] then ["duplicate_output_removed"] else []) ++
      (if conflicts ≠ [] then ["output_conflict_detected"] else []) ++
      if input.missingChildNodeIds ≠ [] then ["child_result_missing"] else [] }

end Aggregate

/-! ## What aggregation passes on

The merged output of an id is the first delivery under it. -/

open List OrderedMap

variable (collate : JsString → JsString → Bool) (input : AggregateNodeRuntimeResultsInput)
  (outputId : JsString)

/-! ## What is asked of the merged outputs -/

/-- What comes in under an output id, in the order of its sources. -/
def deliveries : List AggregatedResultItem :=
  (input.rawItems collate).filter fun item => item.output.outputId = outputId

/-- An output under the id is passed on with a status. -/
def Merged (status : NodeResultOutputStatus) : Prop :=
  ∃ output ∈ (aggregateNodeRuntimeResults collate input).outputs,
    output.outputId = outputId ∧ output.status = status

/-- One more source reports. -/
inductive AddsSource : AggregateNodeRuntimeResultsInput → Prop
  | self (outputs : List NodeResultOutput) (status : NodeResultStatus) (risks : List JsString) :
      input.selfOutputs = none →
        AddsSource { input with
          selfOutputs := some outputs, selfStatus := status, selfRisksOrGaps := risks }
  | child (front back : List NodeResultReport) (report : NodeResultReport) :
      input.childReports = front ++ back →
        AddsSource { input with childReports := front ++ report :: back }
  | delegated (front back : List (Option NodeResultReport)) (report : NodeResultReport) :
      input.childDelegation = front ++ back →
        AddsSource { input with childDelegation := front ++ some report :: back }
  | tool (front back : List NormalizedNodeToolResult) (result : NormalizedNodeToolResult) :
      input.toolExecution = front ++ back →
        AddsSource { input with toolExecution := front ++ result :: back }

/-- The child reports handed in in another order. -/
def reordered (reports : List NodeResultReport) : AggregateNodeRuntimeResultsInput :=
  { input with childReports := reports, childDelegation := [] }

/-- Some source has delivered the output. -/
def DeliveredSatisfied : Prop :=
  ∃ item ∈ deliveries collate input outputId, item.output.status = .satisfied

/-- Two sources have delivered the output with different values. -/
def Disagree : Prop :=
  ∃ first ∈ deliveries collate input outputId, ∃ second ∈ deliveries collate input outputId,
    first.output.status = .satisfied ∧ second.output.status = .satisfied ∧
      ¬ JsonValue.SameUpToKeyOrder (defined first.output.value.value)
        (defined second.output.value.value)

/-- The merged output of an id hides nothing that was delivered. -/
structure MergesRightly : Prop where
  shown : DeliveredSatisfied collate input outputId → Merged collate input outputId .satisfied
  kept : Merged collate input outputId .satisfied →
    ∀ further, AddsSource input further → ¬ Merged collate further outputId .missing
  once : deliveries collate input outputId ≠ [] →
    ((aggregateNodeRuntimeResults collate input).outputs.map (·.outputId)).count outputId = 1
  conflict : (∃ issue ∈ (aggregateNodeRuntimeResults collate input).conflicts,
    issue.outputId = some outputId) ↔ Disagree collate input outputId
  unordered : ∀ reports : List NodeResultReport, reports.Perm input.allChildReports →
    ∀ status, Merged collate (reordered input reports) outputId status ↔
      Merged collate input outputId status

/-- The output that a list of outputs has first under an id. -/
def firstOutput? (outputs : List NodeResultOutput) : Option NodeResultOutput :=
  outputs.find? fun output => output.outputId = outputId

/-- What comes in first under an id: from the node itself, from a child, from a tool. -/
def firstDelivered? : Option NodeResultOutput :=
  (firstOutput? outputId (input.selfOutputs.getD [])).or
    ((input.allChildReports.findSome? fun report => firstOutput? outputId report.outputs).or
      (firstOutput? outputId (input.toolExecution.map (·.nodeOutput))))

/-- The node itself delivers the output, or nothing satisfied is there and the children that
deliver the output begin with one status; what is delivered first is satisfied if anything is;
and either all deliveries are the same or two that are satisfied disagree. -/
structure NothingHidden : Prop where
  first : DeliveredSatisfied collate input outputId →
    ∃ output, firstDelivered? input outputId = some output ∧ output.status = .satisfied
  own : (firstOutput? outputId (input.selfOutputs.getD [])).isSome ∨
    ¬ DeliveredSatisfied collate input outputId ∧
      ∀ report ∈ input.allChildReports, ∀ other ∈ input.allChildReports,
        ∀ output found, firstOutput? outputId report.outputs = some output →
          firstOutput? outputId other.outputs = some found → output.status = found.status
  told : (∀ first ∈ deliveries collate input outputId,
      ∀ second ∈ deliveries collate input outputId, first.fingerprint = second.fingerprint) ∨
    Disagree collate input outputId

/-! ## Groups -/

variable {collate input outputId} {items : List AggregatedResultItem}

variable {key : JsString} {group : List AggregatedResultItem} {status : NodeResultOutputStatus}
  {output : NodeResultOutput}

theorem group_ne_nil (hgroup : (groupByOutputId items).get? key = some group) : group ≠ [] := by
  revert key group
  refine List.foldlRecOn items _
    (motive := fun groups : OrderedMap JsString (List AggregatedResultItem) =>
      ∀ {key group}, groups.get? key = some group → group ≠ []) ?_ ?_
  · intro key group hgroup
    cases hgroup
  · intro groups h item _ key group hgroup
    rw [get?_set] at hgroup
    split at hgroup
    · cases hgroup
      simp
    · exact h hgroup

/-- The group of an id holds its items in their order. -/
theorem get?_group_iff :
    (groupByOutputId items).get? key = some group ↔
      group = (items.filter fun item => item.output.outputId = key) ∧ group ≠ [] := by
  have hall : ((groupByOutputId items).get? key).getD [] =
      items.filter fun item => item.output.outputId = key := by
    have hgathered := getD_foldl_update
      (fun item : AggregatedResultItem => item.output.outputId)
      (fun group item => group ++ [item]) [] items ∅ key
    rw [foldl_append_eq_append, get?_empty, Option.getD_none, nil_append,
      ← flatMap_def, flatMap_singleton'] at hgathered
    exact hgathered
  constructor
  · intro hgroup
    rw [hgroup] at hall
    exact ⟨hall, group_ne_nil hgroup⟩
  · rintro ⟨rfl, hne⟩
    cases hgroup : (groupByOutputId items).get? key with
    | none =>
      rw [hgroup] at hall
      exact absurd hall.symm hne
    | some group =>
      rw [hgroup] at hall
      exact congrArg some hall

/-- Of items that stand by the kind of their source, the first one is selected. -/
theorem selectOutputForMerge_uniqueItems (hsorted : items.Pairwise fun left right =>
      sourcePriority left.sourceKind ≤ sourcePriority right.sourceKind) :
    selectOutputForMerge (uniqueItems items) = items.head? := by
  unfold selectOutputForMerge uniqueItems
  rw [(hsorted.sublist (keepFirst_sublist _ _ _)).insertionSort_eq]
  cases items with
  | nil | cons => rfl

theorem rawItems_sorted : (input.rawItems collate).Pairwise fun left right =>
    sourcePriority left.sourceKind ≤ sourcePriority right.sourceKind := by
  have hself : ∀ item ∈ (input.selfOutputs.getD []).map (buildItem collate .self input.nodeId),
      item.sourceKind = .self := by
    simp [buildItem]
  have hchild : ∀ item ∈ input.allChildReports.flatMap fun report =>
      report.outputs.map (buildItem collate .child report.nodeId), item.sourceKind = .child := by
    simp only [mem_flatMap, mem_map]
    rintro item ⟨report, -, output, -, rfl⟩
    rfl
  have htool : ∀ item ∈ input.toolExecution.map fun result =>
      buildItem collate .tool result.toolId result.nodeOutput, item.sourceKind = .tool := by
    simp [buildItem]
  refine pairwise_append.mpr ⟨pairwise_append.mpr ⟨?_, ?_, ?_⟩, ?_, ?_⟩
  · exact pairwise_of_forall_mem_list fun first hfirst second hsecond => by
      rw [hself first hfirst, hself second hsecond]
  · exact pairwise_of_forall_mem_list fun first hfirst second hsecond => by
      rw [hchild first hfirst, hchild second hsecond]
  · intro first hfirst second hsecond
    rw [hself first hfirst, hchild second hsecond]
    decide
  · exact pairwise_of_forall_mem_list fun first hfirst second hsecond => by
      rw [htool first hfirst, htool second hsecond]
  · intro first hfirst second hsecond
    rw [htool second hsecond]
    obtain hfirst | hfirst := mem_append.mp hfirst
    · rw [hself first hfirst]
      decide
    · rw [hchild first hfirst]
      decide

/-- An entry of the groups passes its first item on. -/
theorem selected_of_entry
    (hentry : (key, group) ∈ (groupByOutputId (input.rawItems collate)).entries) :
    group = deliveries collate input key ∧
      ∃ item, group.head? = some item ∧ item.output.outputId = key ∧
        selectOutputForMerge (uniqueItems group) = some item := by
  obtain ⟨hgroup, hne⟩ := get?_group_iff.mp (get?_of_mem_entries hentry)
  refine ⟨hgroup, ?_⟩
  obtain ⟨item, hitem⟩ := Option.isSome_iff_exists.mp (isSome_head?.mpr hne)
  refine ⟨item, hitem, ?_, ?_⟩
  · have hmem := mem_of_mem_head? (Option.mem_def.mpr hitem)
    rw [hgroup] at hmem
    exact of_decide_eq_true (mem_filter.mp hmem).2
  · rw [selectOutputForMerge_uniqueItems, hitem]
    rw [hgroup]
    exact rawItems_sorted.sublist filter_sublist

theorem entry_of_delivery (hne : deliveries collate input outputId ≠ []) :
    (outputId, deliveries collate input outputId) ∈
      (groupByOutputId (input.rawItems collate)).entries :=
  mem_entries_of_get? (get?_group_iff.mpr ⟨rfl, hne⟩)

/-- The merged output of an id is the first that comes in under it. -/
theorem merged_iff :
    Merged collate input outputId status ↔
      ∃ item, (deliveries collate input outputId).head? = some item ∧
        item.output.status = status := by
  constructor
  · rintro ⟨output, houtput, rfl, hstatus⟩
    obtain ⟨⟨key, group⟩, hentry, hselected⟩ := mem_filterMap.mp houtput
    obtain ⟨hgroup, item, hhead, hkey, hitem⟩ := selected_of_entry hentry
    rw [hitem] at hselected
    cases hselected
    refine ⟨item, ?_, hstatus⟩
    rw [hkey, ← hgroup]
    exact hhead
  · rintro ⟨item, hitem, hstatus⟩
    have hne : deliveries collate input outputId ≠ [] := by
      intro hnil
      rw [hnil] at hitem
      cases hitem
    have hentry := entry_of_delivery hne
    obtain ⟨-, first, hfirst, hkey, hselected⟩ := selected_of_entry hentry
    cases hitem.symm.trans hfirst
    refine ⟨item.output, mem_filterMap.mpr ⟨_, hentry, ?_⟩, hkey, hstatus⟩
    rw [hselected]
    rfl

/-- Every id that comes in is passed on once. -/
theorem count_merged (hne : deliveries collate input outputId ≠ []) :
    ((aggregateNodeRuntimeResults collate input).outputs.map (·.outputId)).count outputId = 1 := by
  have hkeys : (aggregateNodeRuntimeResults collate input).outputs.map (·.outputId) =
      (groupByOutputId (input.rawItems collate)).entries.map Prod.fst := by
    change (mergedOutputs _).map _ = _
    unfold mergedOutputs
    rw [map_filterMap, ← filterMap_eq_map]
    refine filterMap_congr fun group hgroup => ?_
    obtain ⟨-, item, -, hkey, hselected⟩ := selected_of_entry hgroup
    rw [hselected]
    exact congrArg some hkey
  rw [hkeys]
  exact count_eq_one_of_mem (OrderedMap.nodup _) (mem_map.mpr ⟨_, entry_of_delivery hne, rfl⟩)

theorem head?_deliveries :
    (deliveries collate input outputId).head?.map (·.output) = firstDelivered? input outputId := by
  unfold deliveries AggregateNodeRuntimeResultsInput.rawItems firstDelivered? firstOutput?
  rw [head?_filter, find?_append, find?_append, Option.or_assoc]
  simp [Option.map_or, find?_flatMap, find?_map, Function.comp_def, buildItem, map_findSome?]
  rfl

/-- What is merged is told by what comes in first. -/
theorem merged_iff_firstDelivered :
    Merged collate input outputId status ↔
      ∃ output, firstDelivered? input outputId = some output ∧ output.status = status := by
  rw [merged_iff, ← @head?_deliveries collate]
  constructor
  · rintro ⟨item, hitem, hstatus⟩
    exact ⟨item.output, by rw [hitem]; rfl, hstatus⟩
  · rintro ⟨output, houtput, hstatus⟩
    obtain ⟨item, hitem, rfl⟩ := Option.map_eq_some_iff.mp houtput
    exact ⟨item, hitem, hstatus⟩

/-! ## Conflicts -/

theorem keepFirst_eq_nil_iff {known : List Char} :
    keepFirst AggregatedResultItem.fingerprint [known] items = [] ↔
      ∀ item ∈ items, item.fingerprint = known := by
  induction items with
  | nil => simp [keepFirst]
  | cons item rest ih =>
    rw [keepFirst, forall_mem_cons]
    simp only [mem_singleton]
    by_cases hknown : item.fingerprint = known
    · rw [if_pos hknown, ih]
      exact (and_iff_right hknown).symm
    · rw [if_neg hknown]
      exact iff_of_false (cons_ne_nil _ _) fun h => hknown h.1

/-- One item is left of a group whose items have one fingerprint, and of no other. -/
theorem uniqueItems_single_iff :
    ¬ 1 < (uniqueItems items).length ↔
      ∀ first ∈ items, ∀ second ∈ items, first.fingerprint = second.fingerprint := by
  unfold uniqueItems
  cases items with
  | nil => simp [keepFirst]
  | cons item rest =>
    have hrest : ¬ 1 < (item :: keepFirst AggregatedResultItem.fingerprint
        [item.fingerprint] rest).length ↔ ∀ other ∈ rest, other.fingerprint = item.fingerprint := by
      rw [← keepFirst_eq_nil_iff, length_cons, ← length_eq_zero_iff]
      omega
    rw [keepFirst, if_neg not_mem_nil, hrest]
    constructor
    · intro h first hfirst second hsecond
      have hitem : ∀ other ∈ item :: rest, other.fingerprint = item.fingerprint :=
        forall_mem_cons.mpr ⟨rfl, h⟩
      rw [hitem first hfirst, hitem second hsecond]
    · intro h other hother
      exact h other (mem_cons_of_mem _ hother) item mem_cons_self

/-- A conflict is told of an id whose deliveries have not all one fingerprint. -/
theorem conflict_iff :
    (∃ issue ∈ (aggregateNodeRuntimeResults collate input).conflicts,
        issue.outputId = some outputId) ↔
      ¬ ∀ first ∈ deliveries collate input outputId,
        ∀ second ∈ deliveries collate input outputId, first.fingerprint = second.fingerprint := by
  rw [← uniqueItems_single_iff, not_not]
  constructor
  · rintro ⟨issue, hissue, hid⟩
    obtain ⟨⟨key, group⟩, hentry, hissue⟩ := mem_flatMap.mp hissue
    obtain ⟨rfl, -⟩ := selected_of_entry hentry
    split at hissue
    · next hlength =>
      rw [mem_singleton.mp hissue] at hid
      cases hid
      exact hlength
    · cases hissue
  · intro hlength
    have hne : deliveries collate input outputId ≠ [] := by
      intro hnil
      rw [hnil] at hlength
      cases hlength
    refine ⟨{ code := .outputConflictDetected
              severity := if input.strategy = .parentDecides then .warning else .needsRevision
              outputId := some outputId
              sourceIds := (uniqueItems (deliveries collate input outputId)).map (·.sourceId) },
      mem_flatMap.mpr ⟨_, entry_of_delivery hne, ?_⟩, rfl⟩
    rw [if_pos hlength]
    exact mem_singleton_self _

/-! ## Fingerprints -/

/-- Values with one text are the same up to the order of keys. -/
theorem same_of_fingerprintText {first second : JsValue} (hfirst : first.proper)
    (hsecond : second.proper)
    (hsame : fingerprintText collate first = fingerprintText collate second) :
    JsonValue.SameUpToKeyOrder (defined first) (defined second) := by
  have hkept {value : JsValue} (hproper : value.proper) :
      JsonValue.SameUpToKeyOrder (JsonValue.arranged (ownKeyOrder arrayIndex?)
        (JsonValue.arranged (sortEntries collate) (defined value))) (defined value) := by
    have hsorted := JsonValue.arranged_same (sortEntries_perm collate) (defined_proper hproper)
    exact (JsonValue.arranged_same (ownKeyOrder_perm _) (hsorted.trans hsorted.symm)).trans hsorted
  unfold fingerprintText at hsame
  rw [JsonValue.text_eq_listing, JsonValue.text_eq_listing] at hsame
  have hkeptFirst := hkept hfirst
  rw [JsonValue.listing_injective hsame] at hkeptFirst
  exact hkeptFirst.symm.trans (hkept hsecond)

theorem mem_definedMembers_of_mem {members : List (JsString × JsValue)} {value : JsValue}
    (hmember : (key, value) ∈ members) (hdefined : value ≠ .undefined) :
    (key, defined value) ∈ definedMembers members := by
  induction members with
  | nil => cases hmember
  | cons member rest ih =>
    obtain ⟨name, other⟩ := member
    obtain hfirst | hrest := mem_cons.mp hmember
    · cases hfirst
      cases value with
      | undefined => exact absurd rfl hdefined
      | _ => exact mem_cons_self
    · cases other with
      | undefined => exact ih hrest
      | _ => exact mem_cons_of_mem _ (ih hrest)

theorem NodeResultOutput.fingerprintValue_proper (output : NodeResultOutput) :
    output.fingerprintValue.proper := by
  have hkeys : [ofString "outputId", ofString "status", ofString "value"].Nodup := by decide +kernel
  refine JsValue.proper_object.mpr ⟨hkeys, ?_⟩
  refine forall_mem_cons.mpr ⟨rfl, forall_mem_cons.mpr ⟨rfl, ?_⟩⟩
  refine forall_mem_singleton.mpr ?_
  split
  · rfl
  · exact output.value.proper

/-- What the fingerprint says of the value. -/
theorem mem_members_fingerprintValue (output : NodeResultOutput) :
    ∃ members, defined output.fingerprintValue = .object members ∧
      (ofString "value", defined output.value.value) ∈ members := by
  refine ⟨_, rfl, ?_⟩
  have hshown : ∀ value : PlainValue,
      (if value.isNullish then .null else value.value) ≠ JsValue.undefined ∧
        defined (if value.isNullish then .null else value.value) = defined value.value := by
    rintro ⟨value, hproper⟩
    cases value <;> simp [PlainValue.isNullish, defined]
  rw [← (hshown output.value).2]
  exact mem_definedMembers_of_mem (by simp) (hshown output.value).1

theorem exists_buildItem {item : AggregatedResultItem}
    (hitem : item ∈ deliveries collate input outputId) :
    item.fingerprint = fingerprintText collate item.output.fingerprintValue := by
  have hmem := (mem_filter.mp hitem).1
  simp only [AggregateNodeRuntimeResultsInput.rawItems, mem_append, mem_map, mem_flatMap] at hmem
  obtain (⟨output, -, rfl⟩ | ⟨report, -, output, -, rfl⟩) | ⟨result, -, rfl⟩ := hmem <;> rfl

/-- Outputs with one fingerprint have the same value. -/
theorem same_value_of_fingerprint {first second : AggregatedResultItem}
    (hfirst : first ∈ deliveries collate input outputId)
    (hsecond : second ∈ deliveries collate input outputId)
    (hsame : first.fingerprint = second.fingerprint) :
    JsonValue.SameUpToKeyOrder (defined first.output.value.value)
      (defined second.output.value.value) := by
  rw [exists_buildItem hfirst, exists_buildItem hsecond] at hsame
  have hobjects := same_of_fingerprintText first.output.fingerprintValue_proper
    second.output.fingerprintValue_proper hsame
  obtain ⟨members, hmembers, hvalue⟩ := mem_members_fingerprintValue first.output
  obtain ⟨others, hothers, hother⟩ := mem_members_fingerprintValue second.output
  rw [hmembers, hothers] at hobjects
  cases hobjects with
  | object _ _ hvalues => exact hvalues _ _ _ hvalue hother

/-! ## Further sources and other orders -/

theorem firstDelivered?_of_own {output : NodeResultOutput}
    (hown : firstOutput? outputId (input.selfOutputs.getD []) = some output) :
    firstDelivered? input outputId = some output := by
  rw [firstDelivered?, hown, Option.some_or]

/-- What the node itself delivers stays in front of any further source. -/
theorem AddsSource.firstDelivered?_eq {further : AggregateNodeRuntimeResultsInput}
    (hadds : AddsSource input further)
    (hown : firstOutput? outputId (input.selfOutputs.getD []) = some output) :
    firstDelivered? further outputId = some output := by
  apply firstDelivered?_of_own
  cases hadds with
  | self outputs status risks hnone =>
    rw [hnone] at hown
    cases hown
  | child | delegated | tool => exact hown

/-- A child in front of the others that could not deliver the output. -/
def withMissing (input : AggregateNodeRuntimeResultsInput) (outputId : JsString) :
    AggregateNodeRuntimeResultsInput :=
  { input with childReports :=
      { nodeId := [], status := .completed, outputs := [{ outputId, status := .missing }]
        risksOrGaps := [] } :: input.childReports }

/-- It hides what comes from anyone but the node itself. -/
theorem merged_withMissing (hown : firstOutput? outputId (input.selfOutputs.getD []) = none) :
    Merged collate (withMissing input outputId) outputId .missing := by
  refine merged_iff_firstDelivered.mpr ⟨{ outputId, status := .missing }, ?_, rfl⟩
  unfold firstDelivered?
  rw [show (withMissing input outputId).selfOutputs = input.selfOutputs from rfl, hown]
  simp [withMissing, AggregateNodeRuntimeResultsInput.allChildReports, firstOutput?]

theorem allChildReports_reordered (reports : List NodeResultReport) :
    (reordered input reports).allChildReports = reports := append_nil reports

/-- A report that delivers the output decides where it is handed in first. -/
theorem merged_reordered_cons {report : NodeResultReport}
    (hown : firstOutput? outputId (input.selfOutputs.getD []) = none)
    (houtput : firstOutput? outputId report.outputs = some output) (reports : List NodeResultReport)
    :
    Merged collate (reordered input (report :: reports)) outputId output.status := by
  refine merged_iff_firstDelivered.mpr ⟨output, ?_, rfl⟩
  unfold firstDelivered?
  rw [allChildReports_reordered, findSome?_cons, houtput,
    show (reordered input (report :: reports)).selfOutputs = input.selfOutputs from rfl, hown]
  rfl

/-- Where the children that deliver the output begin with one status, their order does not
matter. -/
theorem merged_reordered_of_agree {reports : List NodeResultReport}
    (horder : reports.Perm input.allChildReports)
    (hagree : ∀ report ∈ input.allChildReports, ∀ other ∈ input.allChildReports,
      ∀ output found, firstOutput? outputId report.outputs = some output →
        firstOutput? outputId other.outputs = some found → output.status = found.status)
    (status : NodeResultOutputStatus) :
    Merged collate (reordered input reports) outputId status ↔
      Merged collate input outputId status := by
  have hstatus : (reports.findSome? fun report => firstOutput? outputId report.outputs).map
        (·.status) =
      (input.allChildReports.findSome? fun report =>
        firstOutput? outputId report.outputs).map (·.status) := by
    cases hfirst : reports.findSome? fun report => firstOutput? outputId report.outputs with
    | none =>
      rw [findSome?_eq_none_iff] at hfirst
      rw [findSome?_eq_none_iff.mpr fun report hreport =>
        hfirst report (horder.mem_iff.mpr hreport)]
    | some output =>
      obtain ⟨report, hreport, houtput⟩ := exists_of_findSome?_eq_some hfirst
      have hmem := horder.mem_iff.mp hreport
      cases hsecond : input.allChildReports.findSome? fun report =>
          firstOutput? outputId report.outputs with
      | none =>
        rw [findSome?_eq_none_iff] at hsecond
        rw [hsecond report hmem] at houtput
        cases houtput
      | some found =>
        obtain ⟨other, hother, hfound⟩ := exists_of_findSome?_eq_some hsecond
        exact congrArg some (hagree report hmem other hother output found houtput hfound)
  have hdelivered : (firstDelivered? (reordered input reports) outputId).map (·.status) =
      (firstDelivered? input outputId).map (·.status) := by
    unfold firstDelivered?
    rw [Option.map_or, Option.map_or, Option.map_or, Option.map_or, allChildReports_reordered,
      hstatus]
    rfl
  rw [merged_iff_firstDelivered, merged_iff_firstDelivered, ← Option.map_eq_some_iff,
    ← Option.map_eq_some_iff, hdelivered]

/-! ## When nothing is hidden -/

theorem NothingHidden.of_mergesRightly (h : MergesRightly collate input outputId) :
    NothingHidden collate input outputId where
  first hdelivered := merged_iff_firstDelivered.mp (h.shown hdelivered)
  own := by
    cases hown : firstOutput? outputId (input.selfOutputs.getD []) with
    | some output => exact .inl rfl
    | none =>
      refine .inr ⟨fun hdelivered => ?_, ?_⟩
      · exact h.kept (h.shown hdelivered) _ (.child [] input.childReports _ rfl)
          (merged_withMissing hown)
      · intro report hreport other hother output found houtput hfound
        have hmerged {report : NodeResultReport} {output : NodeResultOutput}
            (hreport : report ∈ input.allChildReports)
            (houtput : firstOutput? outputId report.outputs = some output) :
            Merged collate input outputId output.status := by
          obtain ⟨front, back, hsplit⟩ := append_of_mem hreport
          refine (h.unordered (report :: (front ++ back)) ?_ output.status).mp
            (merged_reordered_cons hown houtput _)
          rw [hsplit]
          exact perm_middle.symm
        obtain ⟨first, hfirst, hstatus⟩ := merged_iff_firstDelivered.mp (hmerged hreport houtput)
        obtain ⟨second, hsecond, hstatus'⟩ := merged_iff_firstDelivered.mp (hmerged hother hfound)
        cases hfirst.symm.trans hsecond
        exact hstatus.symm.trans hstatus'
  told := by
    by_cases hsame : ∀ first ∈ deliveries collate input outputId,
        ∀ second ∈ deliveries collate input outputId, first.fingerprint = second.fingerprint
    · exact .inl hsame
    · exact .inr (h.conflict.mp (conflict_iff.mpr hsame))

theorem NothingHidden.mergesRightly (h : NothingHidden collate input outputId) :
    MergesRightly collate input outputId where
  shown hdelivered := merged_iff_firstDelivered.mpr (h.first hdelivered)
  kept := by
    intro hmerged further hadds hmissing
    obtain ⟨output, houtput, hstatus⟩ := merged_iff_firstDelivered.mp hmissing
    obtain ⟨first, hfirst, hsatisfied⟩ := merged_iff_firstDelivered.mp hmerged
    obtain hown | ⟨hnone, -⟩ := h.own
    · obtain ⟨own, hown⟩ := Option.isSome_iff_exists.mp hown
      have hsame := (hadds.firstDelivered?_eq hown).symm.trans houtput
      obtain rfl := Option.some.inj (hsame.symm.trans
        ((firstDelivered?_of_own hown).symm.trans hfirst))
      cases hstatus.symm.trans hsatisfied
    · obtain ⟨item, hitem, hstatus⟩ := merged_iff.mp hmerged
      exact hnone ⟨item, mem_of_mem_head? (Option.mem_def.mpr hitem), hstatus⟩
  once := count_merged
  conflict := by
    rw [conflict_iff]
    constructor
    · exact fun hnot => h.told.resolve_left hnot
    · rintro ⟨first, hfirst, second, hsecond, -, -, hdiffer⟩ hsame
      exact hdiffer (same_value_of_fingerprint hfirst hsecond (hsame first hfirst second hsecond))
  unordered := by
    intro reports horder status
    obtain hown | ⟨-, hagree⟩ := h.own
    · obtain ⟨own, hown⟩ := Option.isSome_iff_exists.mp hown
      rw [merged_iff_firstDelivered, merged_iff_firstDelivered, firstDelivered?_of_own hown,
        @firstDelivered?_of_own (reordered input reports) outputId own hown]
    · exact merged_reordered_of_agree horder hagree status

/-- Aggregation does right by an output id just where nothing can be hidden under it. -/
theorem mergesRightly_iff (collate : JsString → JsString → Bool)
    (input : AggregateNodeRuntimeResultsInput) (outputId : JsString) :
    MergesRightly collate input outputId ↔ NothingHidden collate input outputId :=
  ⟨.of_mergesRightly, fun h => h.mergesRightly⟩

/-- A node without an output of its own, whose child delivers the report it is expected to
make. -/
def delegatedReport : AggregateNodeRuntimeResultsInput where
  workOrderId := ofString "order"
  nodeId := ofString "lead"
  selfOutputs := some (normalizeSelfExecutionResult [] [ofString "report"])
  childReports :=
    [{ nodeId := ofString "writer", status := .completed
       outputs := [{ outputId := ofString "report", status := .satisfied }]
       risksOrGaps := [] }]

/-- The placeholder of the node hides the report of its child. -/
theorem delegatedReport_hidden : ¬ ∀ (collate : JsString → JsString → Bool)
    (input : AggregateNodeRuntimeResultsInput) (outputId : JsString),
      MergesRightly collate input outputId := by
  intro hall
  have hshown := (hall (fun _ _ => true) delegatedReport (ofString "report")).shown
  have hdelivered : DeliveredSatisfied (fun _ _ => true) delegatedReport (ofString "report") := by
    refine ⟨buildItem (fun _ _ => true) .child (ofString "writer")
      { outputId := ofString "report", status := .satisfied }, ?_, rfl⟩
    exact mem_filter.mpr ⟨mem_cons_of_mem _ mem_cons_self, by decide +kernel⟩
  obtain ⟨output, houtput, hstatus⟩ := merged_iff_firstDelivered.mp (hshown hdelivered)
  have hfirst : firstDelivered? delegatedReport (ofString "report") =
      some { outputId := ofString "report", status := .missing } := rfl
  rw [← Option.some.inj (hfirst.symm.trans houtput)] at hstatus
  cases hstatus

end Nobie.Enterprise
