/-
# The validation before the final answer

Before a run is completed with an answer, what the answer needs is compared with what was
observed. A value counts as observed by its id and by being verified, whether or not the
observation carries it, and a verified observation may refer to its source by a name alone.
-/

import Nobie.Foundation.JsString

namespace Nobie.Runs

open Foundation JsString List

/-! ## What is validated -/

inductive FinalValidationMode
  | general | currentFact
  deriving DecidableEq

inductive ValueConfidence
  | verified | candidate | unverified | conflict
  deriving DecidableEq

structure FinalRequiredValue where
  (valueId label : JsString)
  required : Bool

structure FinalObservedValue where
  valueId : JsString
  (label value unit : Option JsString := none)
  confidence : ValueConfidence
  (sourceId sourceLabel sourceUrl sourceDomain : Option JsString := none)
  (sourceTimestamp fetchTimestamp basisTime : Option JsString := none)
  conflicts : List JsString := []

structure FinalMissingValue where
  (valueId label reasonCode : JsString)

/-- What the validation reads of a source. -/
structure FinalSourceRef where
  sourceId : JsString
  (sourceTimestamp fetchTimestamp : Option JsString := none)

structure FinalConflict where
  valueId : Option JsString := none
  summary : JsString
  sourceIds : List JsString := []

structure FinalValidationInput where
  mode : FinalValidationMode
  requiredValues : List FinalRequiredValue := []
  observedValues : List FinalObservedValue := []
  missingValues : List FinalMissingValue := []
  sourceList : List FinalSourceRef := []
  sourceTimestamps : List JsString := []
  conflicts : List FinalConflict := []
  reasonCodes : List JsString := []
  basisTime : Option JsString := none
  (recoveryAvailable safeAlternativesExhausted : Bool := false)

inductive FinalValidationStatus
  | ready | needsRecovery | limitedFailureAllowed
  deriving DecidableEq

/-- What the trace has beside the input. -/
structure FinalValidationTrace where
  input : FinalValidationInput
  missingValues : List FinalMissingValue
  sourceTimestamps : List JsString
  conflicts : List FinalConflict
  reasonCodes : List JsString
  (recoveryAvailable safeAlternativesExhausted : Bool)

structure FinalValidationDecision where
  status : FinalValidationStatus
  finalDeliveryAllowed : Bool
  reasonCodes : List JsString
  summary : JsString
  trace : FinalValidationTrace

/-- Strings without blanks at their ends, each once. -/
def uniqueTexts (values : List JsString) : List JsString :=
  keepFirst id [] ((values.map trim).filter (· ≠ []))

variable (input : FinalValidationInput) (value : FinalObservedValue)

/-- The value is required and no verified observation has its id. -/
def IsUnobserved (required : FinalRequiredValue) : Prop :=
  required.required ∧ ∀ value ∈ input.observedValues, value.confidence = .verified →
    value.valueId ≠ required.valueId

instance (required : FinalRequiredValue) : Decidable (IsUnobserved input required) :=
  inferInstanceAs (Decidable (_ ∧ _))

def deriveMissingRequiredValues : List FinalMissingValue :=
  let explicitlyMissingValueIds := input.missingValues.map (·.valueId)
  let unobserved := input.requiredValues.filter fun required =>
    IsUnobserved input required ∧ !explicitlyMissingValueIds.contains required.valueId
  let derivedMissing := unobserved.map fun required =>
    FinalMissingValue.mk required.valueId required.label (ofString "required_value_not_observed")
  let byKey := (input.missingValues ++ derivedMissing).foldl (fun byKey item =>
    OrderedMap.set byKey (item.valueId ++ ofString ":" ++ item.reasonCode) item) ∅
  byKey.entries.map Prod.snd

/-- Is there a text that is not empty? -/
def anyText (texts : List (Option JsString)) : Bool := texts.any fun text => text.any (· ≠ [])

def FinalObservedValue.hasBasisTime : Bool :=
  anyText [value.sourceTimestamp, value.fetchTimestamp, value.basisTime, input.basisTime]

/-- What `currentFactSourceIssues` says of one observation. -/
def sourceIssuesOf : List JsString :=
  if value.confidence ≠ .verified then []
  else if ¬anyText [value.sourceId, value.sourceUrl, value.sourceDomain, value.sourceLabel] then
    [ofString "missing_source_reference:" ++ value.valueId]
  else
    ((value.sourceId.filter (· ≠ [])).toList.filter fun sourceId => input.sourceList ≠ [] ∧
        !(input.sourceList.map (·.sourceId)).contains sourceId).map (fun sourceId =>
      ofString "source_not_in_trace:" ++ value.valueId ++ ofString ":" ++ sourceId) ++
    if value.hasBasisTime input then [] else [ofString "missing_basis_time:" ++ value.valueId]

def currentFactSourceIssues : List JsString :=
  if input.mode ≠ .currentFact then []
  else
    uniqueTexts (input.observedValues.flatMap (sourceIssuesOf input) ++
      if (∃ value ∈ input.observedValues, value.confidence = .verified) ∧ input.sourceList = [] then
        [ofString "missing_source_list"] else [])

/-- The conflicts that are reported and those of the observations. -/
def allConflicts : List FinalConflict :=
  input.conflicts ++ input.observedValues.flatMap fun value => value.conflicts.map fun summary =>
    ⟨some value.valueId, summary, (value.sourceId.filter (· ≠ [])).toList⟩

def hasValidationIssue : Bool :=
  !(deriveMissingRequiredValues input).isEmpty || !(allConflicts input).isEmpty ||
    !(currentFactSourceIssues input).isEmpty

def validateAndFinalize : FinalValidationDecision :=
  let missingValues := deriveMissingRequiredValues input
  let conflicts := allConflicts input
  let hasIssue := hasValidationIssue input
  let recoveryAvailable :=
    input.recoveryAvailable || (hasIssue && !input.safeAlternativesExhausted)
  let status : FinalValidationStatus :=
    if recoveryAvailable && hasIssue then .needsRecovery
    else if hasIssue then .limitedFailureAllowed
    else .ready
  let baseReasonCodes := uniqueTexts (input.reasonCodes ++ missingValues.map (·.reasonCode) ++
    conflicts.map (fun _ => ofString "source_conflict") ++ currentFactSourceIssues input)
  let reasonCodes := uniqueTexts (baseReasonCodes ++
    [match status with
    | .ready => ofString "final_validation_ready"
    | .needsRecovery => ofString "final_validation_requires_recovery"
    | .limitedFailureAllowed => ofString "safe_alternatives_exhausted"])
  { status := status
    finalDeliveryAllowed := status ≠ .needsRecovery
    reasonCodes := reasonCodes
    summary := ofString (match status with
      | .ready => "최종 검증을 통과했습니다."
      | .needsRecovery => "필수 값, 출처, 충돌 검증이 끝나지 않아 최종 전달을 보류합니다."
      | .limitedFailureAllowed => "안전한 대체 경로가 소진되어 제한된 최종 설명을 허용합니다.")
    trace :=
      { input := input
        missingValues := missingValues
        sourceTimestamps := uniqueTexts (input.sourceTimestamps ++
          input.sourceList.flatMap (fun source =>
            source.sourceTimestamp.toList ++ source.fetchTimestamp.toList) ++
          input.observedValues.flatMap (fun value => value.sourceTimestamp.toList ++
            value.fetchTimestamp.toList ++ value.basisTime.toList) ++ input.basisTime.toList)
        conflicts := conflicts
        reasonCodes := reasonCodes
        recoveryAvailable := recoveryAvailable
        safeAlternativesExhausted := input.safeAlternativesExhausted } }

/-! ## What completes a run -/

/-- What is asked of the dependencies, the ledger and the channel. -/
inductive FinalizationEffect
  | recordFinalValidationEvaluation (decision : FinalValidationDecision)
  | recordFinalAnswerSuppressed (reasonCode : JsString)
  | commitFinalDelivery (text : JsString)
  | markRunCompleted (text summary reviewingSummary : JsString)
  | setRunStepStatus (step status : String) (summary : JsString)
  | updateRunStatus (status : String) (summary : JsString) (active : Bool)
  | appendRunEvent (message : JsString)

/-- Does the effect hand something to the channel or complete a part of the run? -/
def FinalizationEffect.completes : FinalizationEffect → Bool
  | .commitFinalDelivery _ | .markRunCompleted .. => true
  | .setRunStepStatus _ status _ | .updateRunStatus status _ _ => status = "completed"
  | _ => false

structure CompletionParams where
  text : JsString
  suppressFinalDelivery : Bool
  suppressFinalDeliveryReasonCode : Option JsString
  finalValidation : Option FinalValidationInput

/-- What is done with the validation before the completion goes on or not. -/
def validationEffects (decision : FinalValidationDecision) : List FinalizationEffect :=
  let codes := joinWith (codeUnit 43) decision.reasonCodes
  .recordFinalValidationEvaluation decision ::
    if decision.finalDeliveryAllowed then
      [.appendRunEvent (ofString (match decision.status with
        | .ready => "final_validation_ready:"
        | .needsRecovery => "final_validation_needs_recovery:"
        | .limitedFailureAllowed => "final_validation_limited_failure_allowed:") ++ codes)]
    else
      [.setRunStepStatus "reviewing" "running" decision.summary,
        .setRunStepStatus "finalizing" "pending" (ofString "최종 전달 전 검증이 보류되었습니다."),
        .updateRunStatus "running" decision.summary true,
        .appendRunEvent (ofString "final_validation_blocked:" ++ codes)]

/-- The effects, and whether the run is completed. What is told of a failed delivery is given. -/
def completeRunWithAssistantMessage (deliveryFailure : JsString → Option JsString)
    (params : CompletionParams) : List FinalizationEffect × Bool :=
  let decision := params.finalValidation.map validateAndFinalize
  let validated := (decision.map validationEffects).getD []
  if decision.any fun decision => !decision.finalDeliveryAllowed then (validated, false)
  else
    let reasonCode := params.suppressFinalDeliveryReasonCode.getD
      (ofString "child_result_parent_aggregation_required")
    let delivered : List FinalizationEffect :=
      if params.text = [] then []
      else if params.suppressFinalDelivery then
        [.recordFinalAnswerSuppressed reasonCode,
          .appendRunEvent (ofString "child_final_delivery_suppressed:" ++ reasonCode)]
      else .commitFinalDelivery params.text ::
        (deliveryFailure params.text).toList.map .appendRunEvent
    let orElse := fun text : String => if params.text = [] then ofString text else params.text
    (validated ++ delivered ++ [.markRunCompleted params.text (orElse "실행을 완료했습니다.")
      (orElse "응답을 정리했습니다.")], true)

/-! ## What a verdict proves -/

/-- There is a list of sources, and the observation refers to a source of it by an id or, where
it has no id, by an address or a name. -/
structure FinalObservedValue.Refers : Prop where
  listed : input.sourceList ≠ []
  reference : anyText [value.sourceId, value.sourceUrl, value.sourceDomain, value.sourceLabel]
  known : ∀ sourceId, value.sourceId.filter (· ≠ []) = some sourceId →
    ∃ source ∈ input.sourceList, source.sourceId = sourceId

/-- What an answer shows that is delivered as it is. -/
structure Proved : Prop where
  observed : ∀ required ∈ input.requiredValues, required.required →
    ∃ value ∈ input.observedValues, value.confidence = .verified ∧
      value.valueId = required.valueId
  conflicts : allConflicts input = []
  referred : input.mode = .currentFact → ∀ value ∈ input.observedValues,
    value.confidence = .verified → value.Refers input ∧ value.hasBasisTime input

/-- An input with less to prove an answer by: another conflict or required value, or without
the last verified observation of a required value, a source or the basis time. -/
inductive Weakened : FinalValidationInput → Prop
  | conflict front conflict back : input.conflicts = front ++ back →
      Weakened { input with conflicts := front ++ conflict :: back }
  | required front required back : input.requiredValues = front ++ back →
      Weakened { input with requiredValues := front ++ required :: back }
  | observation front value back required :
      input.observedValues = front ++ value :: back → required ∈ input.requiredValues →
      IsUnobserved { input with observedValues := front ++ back } required →
      Weakened { input with observedValues := front ++ back }
  | source front source back : input.sourceList = front ++ source :: back →
      Weakened { input with sourceList := front ++ back }
  | basisTime : Weakened { input with basisTime := none }

variable {input value}

theorem status_eq_ready_iff :
    (validateAndFinalize input).status = .ready ↔ hasValidationIssue input = false := by
  cases h : hasValidationIssue input <;> simp [validateAndFinalize, h]
  split <;> simp

theorem keepFirst_eq_nil_iff {values : List JsString} :
    keepFirst id [] values = [] ↔ values = [] := by
  cases values <;> simp [keepFirst]

theorem deriveMissing_eq_nil_iff : deriveMissingRequiredValues input = [] ↔
    input.missingValues = [] ∧ ∀ required ∈ input.requiredValues, ¬IsUnobserved input required := by
  have hentries (items : List FinalMissingValue) : (items.foldl (fun byKey item =>
      OrderedMap.set byKey (item.valueId ++ ofString ":" ++ item.reasonCode) item) ∅).entries = [] ↔
        items = [] := by
    obtain rfl | ⟨front, last, rfl⟩ := eq_nil_or_concat' items
    · exact iff_of_true rfl rfl
    · refine iff_of_false (fun hnone => ?_) (by simp)
      rw [foldl_concat] at hnone
      have hget := OrderedMap.get?_set_self (front.foldl (fun byKey item =>
        OrderedMap.set byKey (item.valueId ++ ofString ":" ++ item.reasonCode) item) ∅)
        (last.valueId ++ ofString ":" ++ last.reasonCode) last
      rw [OrderedMap.get?, hnone] at hget
      cases hget
  simp only [deriveMissingRequiredValues, map_eq_nil_iff, hentries, append_eq_nil_iff,
    filter_eq_nil_iff, decide_eq_true_eq]
  refine and_congr_right fun hnone => ?_
  simp [hnone]

theorem sourceIssuesOf_eq_nil_iff (hverified : value.confidence = .verified) :
    sourceIssuesOf input value = [] ↔
      anyText [value.sourceId, value.sourceUrl, value.sourceDomain, value.sourceLabel] ∧
      (∀ sourceId, value.sourceId.filter (· ≠ []) = some sourceId → input.sourceList ≠ [] →
        sourceId ∈ input.sourceList.map (·.sourceId)) ∧ value.hasBasisTime input := by
  unfold sourceIssuesOf
  rw [if_neg (not_not.mpr hverified)]
  split_ifs <;> simp_all

theorem trim_append_ne_nil {label : JsString} (hlabel : label.any fun unit => !isSpace unit)
    (rest : JsString) : trim (label ++ rest) ≠ [] := by
  obtain ⟨unit, hunit, hspace⟩ := any_eq_true.mp hlabel
  intro hblank
  rw [trim_eq_nil.mp hblank unit (mem_append_left _ hunit)] at hspace
  cases hspace

theorem trim_ne_nil_of_mem {issue : JsString} (h : issue ∈ sourceIssuesOf input value) :
    trim issue ≠ [] := by
  unfold sourceIssuesOf at h
  split at h
  · cases h
  split at h
  · rw [mem_singleton.mp h]
    exact trim_append_ne_nil (by decide) _
  obtain hsource | hbasis := mem_append.mp h
  · obtain ⟨sourceId, -, rfl⟩ := mem_map.mp hsource
    rw [append_assoc, append_assoc]
    exact trim_append_ne_nil (by decide) _
  · split at hbasis
    · cases hbasis
    · rw [mem_singleton.mp hbasis]
      exact trim_append_ne_nil (by decide) _

theorem currentFactSourceIssues_eq_nil_iff : currentFactSourceIssues input = [] ↔
    (input.mode = .currentFact → (∀ value ∈ input.observedValues, sourceIssuesOf input value = []) ∧
      ((∃ value ∈ input.observedValues, value.confidence = .verified) →
        input.sourceList ≠ [])) := by
  unfold currentFactSourceIssues uniqueTexts
  by_cases hmode : input.mode = .currentFact
  · rw [if_neg (not_not.mpr hmode), keepFirst_eq_nil_iff, map_append, filter_append,
      append_eq_nil_iff]
    refine (and_congr ?_ ?_).trans ⟨fun h _ => h, fun h => h hmode⟩
    · rw [filter_eq_nil_iff]
      constructor
      · intro h value hvalue
        refine eq_nil_iff_forall_not_mem.mpr fun issue hissue => ?_
        exact h _ (mem_map_of_mem (mem_flatMap.mpr ⟨value, hvalue, hissue⟩))
          (decide_eq_true (trim_ne_nil_of_mem hissue))
      · intro h issue hissue
        obtain ⟨_, hmem, -⟩ := mem_map.mp hissue
        obtain ⟨value, hvalue, hmem⟩ := mem_flatMap.mp hmem
        rw [h value hvalue] at hmem
        cases hmem
    · split_ifs with hlist
      · refine iff_of_false (by decide) fun h => h hlist.1 hlist.2
      · exact iff_of_true rfl fun hverified hnone => hlist ⟨hverified, hnone⟩
  · rw [if_pos hmode]
    exact iff_of_true rfl fun h => absurd h hmode

/-- The verdict is ready if nothing is missing, in conflict or without a source. -/
theorem ready_iff : (validateAndFinalize input).status = .ready ↔
    (input.missingValues = [] ∧
      ∀ required ∈ input.requiredValues, ¬IsUnobserved input required) ∧
    allConflicts input = [] ∧ (input.mode = .currentFact →
      (∀ value ∈ input.observedValues, sourceIssuesOf input value = []) ∧
      ((∃ value ∈ input.observedValues, value.confidence = .verified) →
        input.sourceList ≠ [])) := by
  rw [status_eq_ready_iff, ← deriveMissing_eq_nil_iff, ← currentFactSourceIssues_eq_nil_iff]
  simp [hasValidationIssue, and_assoc]

theorem ready_iff_proved : (validateAndFinalize input).status = .ready ↔
    input.missingValues = [] ∧ Proved input := by
  rw [ready_iff, and_assoc]
  refine and_congr_right fun _ => ?_
  constructor
  · rintro ⟨hobserved, hconflicts, hsources⟩
    refine ⟨fun required hrequired hneeded => ?_, hconflicts,
      fun hmode value hvalue hverified => ?_⟩
    · have hseen := hobserved required hrequired
      simp only [IsUnobserved, hneeded, true_and, not_forall, not_not] at hseen
      obtain ⟨value, hvalue, hverified, hid⟩ := hseen
      exact ⟨value, hvalue, hverified, hid⟩
    · obtain ⟨hissues, hlist⟩ := hsources hmode
      have hlisted := hlist ⟨value, hvalue, hverified⟩
      obtain ⟨hreference, hnamed, hbasis⟩ :=
        (sourceIssuesOf_eq_nil_iff hverified).mp (hissues value hvalue)
      exact ⟨⟨hlisted, hreference, fun sourceId hid => mem_map.mp (hnamed sourceId hid hlisted)⟩,
        hbasis⟩
  · intro h
    refine ⟨fun required hrequired hunobserved => ?_, h.conflicts, fun hmode => ⟨?_, ?_⟩⟩
    · obtain ⟨value, hvalue, hverified, hid⟩ := h.observed required hrequired hunobserved.1
      exact hunobserved.2 value hvalue hverified hid
    · intro value hvalue
      by_cases hverified : value.confidence = .verified
      · obtain ⟨hrefers, hbasis⟩ := h.referred hmode value hvalue hverified
        exact (sourceIssuesOf_eq_nil_iff hverified).mpr ⟨hrefers.reference,
          fun sourceId hid _ => mem_map.mpr (hrefers.known sourceId hid), hbasis⟩
      · exact if_pos hverified
    · rintro ⟨value, hvalue, hverified⟩
      exact (h.referred hmode value hvalue hverified).1.listed

/-- What weakens an input makes no answer ready. -/
theorem ready_of_weakened {weaker : FinalValidationInput} (hweaker : Weakened input weaker)
    (h : (validateAndFinalize weaker).status = .ready) :
    (validateAndFinalize input).status = .ready := by
  rw [ready_iff] at h ⊢
  obtain ⟨⟨hmissing, hobserved⟩, hconflicts, hsources⟩ := h
  cases hweaker with
  | conflict front conflict back =>
    exact absurd (append_eq_nil_iff.mp hconflicts).1 (by simp)
  | required front required back hrequired =>
    refine ⟨⟨hmissing, fun other hother => hobserved other ?_⟩, hconflicts, hsources⟩
    rw [hrequired] at hother
    exact (perm_middle.symm.subset) (mem_cons_of_mem _ hother)
  | observation front value back required _ hrequired hunobserved =>
    exact absurd hunobserved (hobserved required hrequired)
  | source front source back hlist =>
    refine ⟨⟨hmissing, hobserved⟩, hconflicts, fun hmode => ⟨fun value hvalue => ?_, ?_⟩⟩
    · obtain ⟨hissues, hleft⟩ := hsources hmode
      by_cases hverified : value.confidence = .verified
      · obtain ⟨hreference, hnamed, hbasis⟩ :=
          (sourceIssuesOf_eq_nil_iff hverified).mp (hissues value hvalue)
        refine (sourceIssuesOf_eq_nil_iff hverified).mpr ⟨hreference,
          fun sourceId hid _ => ?_, hbasis⟩
        have hmem := hnamed sourceId hid (hleft ⟨value, hvalue, hverified⟩)
        rw [hlist]
        exact map_subset _ ((sublist_cons_self source back).append_left front).subset hmem
      · exact if_pos hverified
    · rw [hlist]
      simp
  | basisTime =>
    refine ⟨⟨hmissing, hobserved⟩, hconflicts, fun hmode => ⟨fun value hvalue => ?_,
      (hsources hmode).2⟩⟩
    by_cases hverified : value.confidence = .verified
    · obtain ⟨hreference, hnamed, hbasis⟩ :=
        (sourceIssuesOf_eq_nil_iff hverified).mp ((hsources hmode).1 value hvalue)
      refine (sourceIssuesOf_eq_nil_iff hverified).mpr ⟨hreference, hnamed, ?_⟩
      revert hbasis
      simp [FinalObservedValue.hasBasisTime, anyText]
      tauto
    · exact if_pos hverified

/-- A price that is verified, without a value and with a name for its source. -/
def labelledPrice : FinalValidationInput where
  mode := .currentFact
  requiredValues := [⟨ofString "price", ofString "Price", true⟩]
  observedValues := [{
    valueId := ofString "price", confidence := .verified, sourceLabel := some (ofString "quotes") }]
  sourceList := [{ sourceId := ofString "source:1" }]
  basisTime := some (ofString "2026-05-07")

end Nobie.Runs
