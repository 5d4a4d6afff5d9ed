/-
# Decisions carried over to the first version

A delegation of the second version names executors, also where a part of a split depends on
others; the first version names the units of work. The ids of the units are their places, so
that an executor id is the id of a unit only by chance. An executor that is selected beside
the first is heard of again only if a unit asks for it.
-/

import Nobie.Topology.Acceptance
import Nobie.Orchestration.ExecutionDecision

namespace Nobie.Orchestration

open Foundation Nobie.Topology List

/-! ## The units of work of a profile -/

/-- `task_profile.task_units`. -/
def taskUnits (profile : JsonObject) : List Json :=
  match Json.lookup profile "task_units" with
  | some (.arr units) => units
  | _ => []

def textMember (key : String) (unit : Json) : Option String := stringValue (unit.field? key)

/-- `depends_on_unit_ids`, what of it is text. -/
def dependsOnUnitIds (unit : Json) : List String :=
  match unit.field? "depends_on_unit_ids" with
  | some (.arr ids) => ids.filterMap fun id => stringValue (some id)
  | _ => []

/-- The label of the one output that the unit is asked for. -/
def expectedReturnOf (unit : Json) : Option String :=
  match unit.field? "required_outputs" with
  | some (.arr [output]) => textMember "label" output
  | _ => none

/-- `task_split:${index + 1}`. -/
def splitUnitId (index : ℕ) : String := s!"task_split:{index + 1}"

/-- The unit asks for what the part of the split asks for. -/
structure AsksFor (part : TaskSplitUnit) (unit : Json) : Prop where
  executor : textMember "preferred_executor_id" unit = some part.executorId
  goal : textMember "goal" unit = some part.objective
  expectedReturn : expectedReturnOf unit = some part.expectedReturn

/-- The units depend on other units of the profile only, and where they come of a split, on
units of the executors that it names. -/
def DependsOnUnits (split : Option (List TaskSplitUnit)) (units : List Json) : Prop :=
  ∀ (place : ℕ) unit, units[place]? = some unit → ∀ id ∈ dependsOnUnitIds unit,
    ∃ otherPlace other, otherPlace ≠ place ∧ units[otherPlace]? = some other ∧
      textMember "id" other = some id ∧
      ∀ parts (part : TaskSplitUnit), split = some parts → parts[place]? = some part →
        ∃ executorId ∈ part.dependsOnExecutorIds.getD [],
          textMember "preferred_executor_id" other = some executorId

/-- A decision of the first version holds the work of one of the second. -/
structure KeepsWork (decision : ExecutionDecisionV2) (converted : ExecutionDecision) : Prop where
  units : ∀ parts, decision.taskSplit = some parts →
    Forall₂ AsksFor parts (taskUnits converted.taskProfile) ∧
      ((taskUnits converted.taskProfile).map (textMember "id")).Nodup
  dependencies : DependsOnUnits decision.taskSplit (taskUnits converted.taskProfile)
  selected : ∀ id ∈ decision.selectedExecutorIds, converted.selectedExecutorId = some id ∨
    ∃ unit ∈ taskUnits converted.taskProfile, textMember "preferred_executor_id" unit = some id

/-! ## What the conversion writes -/

theorem splitUnitId_injective : Function.Injective splitUnitId := by
  intro first second hsame
  have hdigits : Nat.toDigits 10 (first + 1) = Nat.toDigits 10 (second + 1) := by
    simpa [splitUnitId, toString, Nat.repr, String.ext_iff, String.toList_append] using hsame
  simpa using congrArg (Nat.ofDigitChars 10 · 0) hdigits

variable (index : ℕ) (part : TaskSplitUnit) {decision : ExecutionDecisionV2}

theorem asksFor_splitTaskUnit : AsksFor part (splitTaskUnit index part) := by
  constructor <;> cases hids : part.dependsOnExecutorIds <;>
    simp [textMember, expectedReturnOf, splitTaskUnit, Json.field?, hids, stringValue]

theorem id_splitTaskUnit :
    textMember "id" (splitTaskUnit index part) = some (splitUnitId index) := by
  cases hids : part.dependsOnExecutorIds <;>
    simp [textMember, splitTaskUnit, Json.field?, hids, stringValue, splitUnitId]

theorem dependsOnUnitIds_splitTaskUnit :
    dependsOnUnitIds (splitTaskUnit index part) = part.dependsOnExecutorIds.getD [] := by
  cases hids : part.dependsOnExecutorIds <;>
    simp [dependsOnUnitIds, splitTaskUnit, Json.field?, hids, stringValue, filterMap_map]

theorem taskUnits_of_split {parts : List TaskSplitUnit} (hsplit : decision.taskSplit = some parts) :
    taskUnits (convertDecisionV2ToV1 decision).taskProfile = parts.mapIdx splitTaskUnit := by
  simp [taskUnits, convertDecisionV2ToV1, hsplit, lookup_append]

theorem taskUnits_of_noSplit (hsplit : decision.taskSplit = none) :
    taskUnits (convertDecisionV2ToV1 decision).taskProfile = taskUnits decision.taskProfile := by
  rw [convertDecisionV2ToV1, hsplit]

/-! ## When the work is kept -/

/-- The executors that a part names are ids of other units, whose executors it names too, and
every executor that is selected beside the first has a part. Without a split the units of the
profile have to do. -/
def LosesNothing (decision : ExecutionDecisionV2) : Prop :=
  match decision.taskSplit with
  | some parts =>
    (∀ (place : ℕ) part, parts[place]? = some part →
      ∀ id ∈ part.dependsOnExecutorIds.getD [], ∃ otherPlace other, otherPlace ≠ place ∧
        parts[otherPlace]? = some other ∧ splitUnitId otherPlace = id ∧
        other.executorId ∈ part.dependsOnExecutorIds.getD []) ∧
    ∀ id ∈ decision.selectedExecutorIds,
      decision.selectedExecutorIds.head? = some id ∨ ∃ part ∈ parts, part.executorId = id
  | none =>
    DependsOnUnits none (taskUnits decision.taskProfile) ∧
    ∀ id ∈ decision.selectedExecutorIds, decision.selectedExecutorIds.head? = some id ∨
      ∃ unit ∈ taskUnits decision.taskProfile, textMember "preferred_executor_id" unit = some id

variable {context : ExecutionContext}
  (haccepted : validateDecisionV2AgainstContext context decision = [])
include haccepted

theorem hasText_of_selected {id : String} (hid : id ∈ decision.selectedExecutorIds) :
    hasText id := by
  simp only [validateDecisionV2AgainstContext, append_eq_nil_iff, flatMap_eq_nil_iff] at haccepted
  have hissue := haccepted.1.1.1.1.1.2 id hid
  unfold selectedExecutorIssue at hissue
  split at hissue
  · cases hissue
  · next hmem => exact (mem_filter.mp (not_not.mp hmem)).2

theorem selectedExecutorId_eq_some_iff {id : String} (hid : id ∈ decision.selectedExecutorIds) :
    (convertDecisionV2ToV1 decision).selectedExecutorId = some id ↔
      decision.selectedExecutorIds.head? = some id := by
  have htext := hasText_of_selected haccepted hid
  have hne : id ≠ "" := by
    rintro rfl
    exact absurd htext (by decide)
  simp [convertDecisionV2ToV1, truthyText, Option.filter_eq_some_iff, hne]

omit haccepted in
theorem forall₂_mapIdx {parts : List TaskSplitUnit} :
    Forall₂ AsksFor parts (parts.mapIdx splitTaskUnit) := by
  refine forall₂_iff_get.mpr ⟨length_mapIdx.symm, fun index hpart hunit => ?_⟩
  simpa using asksFor_splitTaskUnit index (parts.get ⟨index, hpart⟩)

omit haccepted in
theorem nodup_ids {parts : List TaskSplitUnit} :
    ((parts.mapIdx splitTaskUnit).map (textMember "id")).Nodup := by
  have hids : (parts.mapIdx splitTaskUnit).map (textMember "id") =
      (range parts.length).map fun index => some (splitUnitId index) := by
    refine ext_getElem (by simp) fun index _ _ => ?_
    simp [id_splitTaskUnit]
  rw [hids]
  exact nodup_range.map fun _ _ hsame => splitUnitId_injective (Option.some.inj hsame)

omit haccepted in
theorem exists_unit_iff {parts : List TaskSplitUnit} {id : String} :
    (∃ unit ∈ parts.mapIdx splitTaskUnit, textMember "preferred_executor_id" unit = some id) ↔
      ∃ part ∈ parts, part.executorId = id := by
  constructor
  · rintro ⟨unit, hunit, hexecutor⟩
    obtain ⟨index, hindex, rfl⟩ := mem_mapIdx.mp hunit
    rw [(asksFor_splitTaskUnit _ _).executor] at hexecutor
    exact ⟨_, getElem_mem hindex, Option.some.inj hexecutor⟩
  · rintro ⟨part, hpart, rfl⟩
    obtain ⟨index, hindex, rfl⟩ := getElem_of_mem hpart
    exact ⟨_, mem_mapIdx.mpr ⟨index, hindex, rfl⟩, (asksFor_splitTaskUnit _ _).executor⟩

omit haccepted in
theorem dependsOnUnits_split_iff {parts : List TaskSplitUnit} :
    DependsOnUnits (some parts) (parts.mapIdx splitTaskUnit) ↔
      ∀ (place : ℕ) part, parts[place]? = some part →
        ∀ id ∈ part.dependsOnExecutorIds.getD [], ∃ otherPlace other, otherPlace ≠ place ∧
          parts[otherPlace]? = some other ∧ splitUnitId otherPlace = id ∧
          other.executorId ∈ part.dependsOnExecutorIds.getD [] := by
  constructor
  · intro h place part hpart id hid
    obtain ⟨otherPlace, other, hne, hother, hotherId, hnamed⟩ := h place (splitTaskUnit place part)
      (by rw [getElem?_mapIdx, hpart]; rfl) id (by rwa [dependsOnUnitIds_splitTaskUnit])
    obtain ⟨otherPart, hotherPart, rfl⟩ := Option.map_eq_some_iff.mp
      (getElem?_mapIdx (f := splitTaskUnit) ▸ hother)
    obtain ⟨executorId, hmem, hexecutor⟩ := hnamed parts part rfl hpart
    rw [(asksFor_splitTaskUnit otherPlace otherPart).executor] at hexecutor
    rw [id_splitTaskUnit] at hotherId
    cases hexecutor
    exact ⟨otherPlace, otherPart, hne, hotherPart, Option.some.inj hotherId, hmem⟩
  · intro h place unit hunit id hid
    obtain ⟨part, hpart, rfl⟩ := Option.map_eq_some_iff.mp
      (getElem?_mapIdx (f := splitTaskUnit) ▸ hunit)
    rw [dependsOnUnitIds_splitTaskUnit] at hid
    obtain ⟨otherPlace, other, hne, hother, rfl, hnamed⟩ := h place part hpart id hid
    refine ⟨otherPlace, splitTaskUnit otherPlace other, hne,
      by rw [getElem?_mapIdx, hother]; rfl, id_splitTaskUnit _ _, fun _ named hparts hpart' => ?_⟩
    cases hparts
    cases hpart.symm.trans hpart'
    exact ⟨_, hnamed, (asksFor_splitTaskUnit _ _).executor⟩

/-- The work of an accepted delegation is kept exactly if no part depends on an executor by
another name than that of its unit, and no executor is selected without a part. -/
theorem convertDecisionV2_keepsWork_iff :
    KeepsWork decision (convertDecisionV2ToV1 decision) ↔ LosesNothing decision := by
  have hselected : (∀ id ∈ decision.selectedExecutorIds,
      (convertDecisionV2ToV1 decision).selectedExecutorId = some id ∨
        ∃ unit ∈ taskUnits (convertDecisionV2ToV1 decision).taskProfile,
          textMember "preferred_executor_id" unit = some id) ↔
      ∀ id ∈ decision.selectedExecutorIds, decision.selectedExecutorIds.head? = some id ∨
        ∃ unit ∈ taskUnits (convertDecisionV2ToV1 decision).taskProfile,
          textMember "preferred_executor_id" unit = some id :=
    forall₂_congr fun id hid => or_congr_left (selectedExecutorId_eq_some_iff haccepted hid)
  have hkeeps : KeepsWork decision (convertDecisionV2ToV1 decision) ↔
      DependsOnUnits decision.taskSplit (taskUnits (convertDecisionV2ToV1 decision).taskProfile) ∧
        ∀ id ∈ decision.selectedExecutorIds, decision.selectedExecutorIds.head? = some id ∨
          ∃ unit ∈ taskUnits (convertDecisionV2ToV1 decision).taskProfile,
            textMember "preferred_executor_id" unit = some id := by
    refine ⟨fun h => ⟨h.dependencies, hselected.mp h.selected⟩, fun h =>
      ⟨fun parts hsplit => ?_, h.1, hselected.mpr h.2⟩⟩
    rw [taskUnits_of_split hsplit]
    exact ⟨forall₂_mapIdx, nodup_ids⟩
  rw [hkeeps, LosesNothing]
  split
  next parts hsplit =>
    rw [taskUnits_of_split hsplit, hsplit, dependsOnUnits_split_iff]
    exact and_congr_right fun _ => forall₂_congr fun id _ => or_congr_right exists_unit_iff
  next hsplit => rw [taskUnits_of_noSplit hsplit, hsplit]

omit haccepted

/-- An executor with two children that may be asked. -/
def mailAndFiles : ExecutionContext where
  request := ⟨none, none, none⟩
  currentExecutor := ⟨"lead", "Lead", none, true, true⟩
  parentExecutor := none
  requester := none
  accessibleExecutors :=
    [⟨"files", "Files", none, false, true⟩, ⟨"mail", "Mail", none, false, true⟩]
  diagnosticExecutors := none
  accessibleConnections := [⟨"lead", "files"⟩, ⟨"lead", "mail"⟩]
  riskPolicy := ⟨[], none⟩
  executionGraph := none
  directExecutionRequested := none
  explicitTargetExecutorId := none
  explicitProviderTargetId := none

/-- A delegation to both children, with these parts. -/
def sendFile (parts : List TaskSplitUnit) : ExecutionDecisionV2 where
  currentExecutorId := "lead"
  parentExecutorId := none
  domain := "mail"
  behaviorPattern := .delegate
  action := some .delegate
  selectedExecutorIds := ["files", "mail"]
  selectedConnectionPath := ["lead", "files"]
  taskProfile := []
  taskSplit := some parts
  requiredOutputs := []
  riskBoundary := [("requires_user_approval", .bool false), ("reason", .str "none")]
  confidence := .ofNat 1
  unresolvedReason := none
  reason := "Two children are needed."

/-- Two parts without an order keep their work. -/
theorem convertDecisionV2_keepsWork_twoParts :
    KeepsWork (sendFile [⟨"files", "find", "path", none⟩, ⟨"mail", "send", "id", none⟩])
      (convertDecisionV2ToV1
        (sendFile [⟨"files", "find", "path", none⟩, ⟨"mail", "send", "id", none⟩])) := by
  refine (@convertDecisionV2_keepsWork_iff _ mailAndFiles (by decide +kernel)).mpr
    ⟨fun place part hpart => ?_, by decide⟩
  have hmem := mem_of_getElem? hpart
  simp only [mem_cons, not_mem_nil, or_false] at hmem
  obtain rfl | rfl := hmem <;> exact fun id hid => absurd hid not_mem_nil

/-- The part that sends waits for the executor that finds, and waits for no unit then. -/
theorem convertDecisionV2_dependency_lost :
    ¬ ∀ context decision, validateDecisionV2AgainstContext context decision = [] →
      decision.action = some .delegate → KeepsWork decision (convertDecisionV2ToV1 decision) := by
  intro h
  have hkeeps := (h mailAndFiles (sendFile [⟨"files", "find", "path", none⟩,
    ⟨"mail", "send", "id", some ["files"]⟩]) (by decide +kernel) rfl).dependencies
  rw [taskUnits_of_split rfl, sendFile, dependsOnUnits_split_iff] at hkeeps
  obtain ⟨otherPlace, other, -, -, hid, -⟩ := hkeeps 1 _ rfl "files" mem_cons_self
  have hhead := congrArg (·.toList.head?) hid
  simp [splitUnitId, toString] at hhead

end Nobie.Orchestration
