/-
# The review of a result

A sub-agent reports a status, outputs, evidence, artifacts and the risks it sees. The
review collects what is wrong with the report. Risks and stated impossibilities limit its
success; any other issue blocks it. A blocked report is sent back for revision as long as
it is not the same failure again and nothing is impossible.
-/

import Nobie.Foundation.JsString
import Nobie.Orchestration.SubSessionRun

namespace Nobie.Orchestration

open Foundation List JsString

/-! ## Reports -/

inductive ReportStatus
  | completed | needsRevision | failed
  deriving DecidableEq

def ReportStatus.text : ReportStatus → String
  | .completed => "completed"
  | .needsRevision => "needs_revision"
  | .failed => "failed"

inductive OutputStatus
  | satisfied | missing | partlySatisfied
  deriving DecidableEq

def OutputStatus.text : OutputStatus → String
  | .satisfied => "satisfied"
  | .missing => "missing"
  | .partlySatisfied => "partial"

structure ReportedOutput where
  outputId : String
  status : OutputStatus

structure ReportedEvidence where
  (kind sourceRef : String)

structure ReportedArtifact where
  artifactId : String
  path : Option String

structure ImpossibleReason where
  (kind reasonCode : String)

/-- What a result report says. -/
structure ReportBody where
  status : ReportStatus
  outputs : List ReportedOutput
  evidence : List ReportedEvidence
  artifacts : List ReportedArtifact
  risksOrGaps : List String
  impossibleReason : Option ImpossibleReason

/-- An expected output with the criteria of its acceptance. -/
structure ExpectedOutputContract where
  outputId : String
  required : Bool
  requiredEvidenceKinds : List String
  artifactRequired : Bool

/-! ## Issues -/

inductive IssueCode
  | resultReportNotCompleted | resultReportFailed | requiredOutputMissing
  | requiredOutputNotSatisfied | requiredEvidenceMissing | evidenceSourceMissing | artifactMissing
  | artifactPathMissing | artifactNotFound | reportedRiskOrGap | impossibleReasonReported
  deriving DecidableEq

def IssueCode.text : IssueCode → String
  | .resultReportNotCompleted => "result_report_not_completed"
  | .resultReportFailed => "result_report_failed"
  | .requiredOutputMissing => "required_output_missing"
  | .requiredOutputNotSatisfied => "required_output_not_satisfied"
  | .requiredEvidenceMissing => "required_evidence_missing"
  | .evidenceSourceMissing => "evidence_source_missing"
  | .artifactMissing => "artifact_missing"
  | .artifactPathMissing => "artifact_path_missing"
  | .artifactNotFound => "artifact_not_found"
  | .reportedRiskOrGap => "reported_risk_or_gap"
  | .impossibleReasonReported => "impossible_reason_reported"

structure ReviewIssue where
  code : IssueCode
  outputId : Option String := none
  evidenceKind : Option String := none
  artifactId : Option String := none
  detail : String

/-- `[issue.code, issue.outputId, issue.evidenceKind, issue.artifactId].join(":")`. -/
def ReviewIssue.key (issue : ReviewIssue) : String :=
  String.intercalate ":" [issue.code.text, issue.outputId.getD "", issue.evidenceKind.getD "",
    issue.artifactId.getD ""]

def dedupeIssues (issues : List ReviewIssue) : List ReviewIssue :=
  issues.foldl
    (fun result issue =>
      if result.any (·.key = issue.key) then result else result ++ [issue]) []

variable (report : ReportBody)

/-- `outputById.get(outputId)`: the last output with the id. -/
def outputById (outputId : String) : Option ReportedOutput :=
  report.outputs.reverse.find? (·.outputId = outputId)

def statusIssues : List ReviewIssue :=
  match report.status with
  | .failed => [{ code := .resultReportFailed, detail := "ResultReport status is failed." }]
  | .needsRevision =>
    [{ code := .resultReportNotCompleted
       detail := s!"ResultReport status is {report.status.text}." }]
  | .completed => []

def outputIssues (expected : ExpectedOutputContract) : List ReviewIssue :=
  match outputById report expected.outputId with
  | none =>
    [{ code := .requiredOutputMissing, outputId := some expected.outputId
       detail := s!"Required output {expected.outputId} is missing." }]
  | some output =>
    if output.status ≠ .satisfied then
      [{ code := .requiredOutputNotSatisfied, outputId := some expected.outputId
         detail := s!"Required output {expected.outputId} is {output.status.text}." }]
    else
      []

def evidenceIssues (expected : ExpectedOutputContract) (evidenceKind : String) : List ReviewIssue :=
  let matchingEvidence := report.evidence.filter (·.kind = evidenceKind)
  if matchingEvidence.isEmpty then
    [{ code := .requiredEvidenceMissing, outputId := some expected.outputId
       evidenceKind := some evidenceKind
       detail := s!"Required evidence kind {evidenceKind} is missing for {expected.outputId}." }]
  else if matchingEvidence.any (jsTrim ·.sourceRef = "") then
    [{ code := .evidenceSourceMissing, outputId := some expected.outputId
       evidenceKind := some evidenceKind
       detail := s!"Evidence kind {evidenceKind} has an empty sourceRef." }]
  else
    []

variable {report : ReportBody}

section Artifacts

variable (artifactExists : Option (ReportedArtifact → Bool))

def artifactIssues (expected : ExpectedOutputContract) (artifact : ReportedArtifact) :
    List ReviewIssue :=
  if (artifact.path.map jsTrim).getD "" = "" then
    [{ code := .artifactPathMissing, outputId := some expected.outputId
       artifactId := some artifact.artifactId
       detail := s!"Artifact {artifact.artifactId} has no path." }]
  else if artifactExists.any (fun found => !found artifact) then
    [{ code := .artifactNotFound, outputId := some expected.outputId
       artifactId := some artifact.artifactId
       detail := s!"Artifact {artifact.artifactId} was not found." }]
  else
    []

/-- What is wrong with a report with regard to one expected output. -/
def expectedOutputIssues (report : ReportBody) (expected : ExpectedOutputContract) :
    List ReviewIssue :=
  if expected.required then
    outputIssues report expected ++
      expected.requiredEvidenceKinds.flatMap (evidenceIssues report expected) ++
      if expected.artifactRequired then
        (if report.artifacts.isEmpty then
          [{ code := .artifactMissing, outputId := some expected.outputId
             detail := s!"Required artifact is missing for {expected.outputId}." }]
        else
          []) ++ report.artifacts.flatMap (artifactIssues artifactExists expected)
      else
        []
  else
    []

def riskIssues (report : ReportBody) : List ReviewIssue :=
  report.risksOrGaps.zipIdx.flatMap fun (riskOrGap, index) =>
    if jsTrim riskOrGap = "" then []
    else
      [{ code := .reportedRiskOrGap, detail := s!"ResultReport has risk_or_gap #{index + 1}." }]

def impossibleIssues (report : ReportBody) : List ReviewIssue :=
  match report.impossibleReason with
  | none => []
  | some reason =>
    [{ code := .impossibleReasonReported
       detail := s!"ResultReport has {reason.kind} impossible reason {reason.reasonCode}." }]

def collectResultReviewIssues (report : ReportBody)
    (expectedOutputs : List ExpectedOutputContract) : List ReviewIssue :=
  dedupeIssues (statusIssues report ++
    expectedOutputs.flatMap (expectedOutputIssues artifactExists report) ++ riskIssues report ++
    impossibleIssues report)

/-! ## The review -/

/-- `[...new Set(tokens)].sort().join("|")` of the tokens of the issues. -/
def normalizeResultReviewFailureKey (issues : List ReviewIssue) : String :=
  let tokens := issues.map fun issue =>
    String.intercalate ":" [issue.code.text, issue.outputId.getD "none",
      issue.evidenceKind.getD "none", issue.artifactId.getD "none"]
  "sub_agent_result_review:" ++ String.intercalate "|"
    ((OrderedSet.ofList tokens).elements.mergeSort fun first second =>
      decide (ofString first ≤ ofString second))

def isLimitedSuccessIssue (issue : ReviewIssue) (report : ReportBody) : Bool :=
  match issue.code with
  | .reportedRiskOrGap | .impossibleReasonReported => true
  | .requiredOutputNotSatisfied =>
    report.impossibleReason.isSome &&
      (report.outputs.find? (some ·.outputId = issue.outputId)).any (·.status = .partlySatisfied)
  | _ => false

def resolveBlockingReviewVerdict (blockingIssues : List ReviewIssue) (canRetry : Bool) : String :=
  if !canRetry then "reject"
  else if blockingIssues.any fun issue =>
      issue.code = .requiredEvidenceMissing ∨ issue.code = .evidenceSourceMissing then
    "insufficient_evidence"
  else
    "needs_revision"

def resolveParentIntegrationStatus (verdict : String) : String :=
  match verdict with
  | "accept" => "ready_for_parent_integration"
  | "limited_success" => "limited_parent_integration"
  | "insufficient_evidence" => "blocked_insufficient_evidence"
  | "reject" => "blocked_rejected"
  | _ => "requires_revision"

/-- A review with what the parent decides on besides. -/
structure ResultReview extends SubAgentResultReview where
  accepted : Bool
  issues : List ReviewIssue
  (repeatedFailure canRetry : Bool)

def reviewSubAgentResult (report : ReportBody) (expectedOutputs : List ExpectedOutputContract)
    (previousFailureKeys : List String) : ResultReview :=
  let issues := collectResultReviewIssues artifactExists report expectedOutputs
  let blockingIssues := issues.filter (!isLimitedSuccessIssue · report)
  if issues.isEmpty then
    { accepted := true
      status := .completed
      verdict := "accept"
      parentIntegrationStatus := "ready_for_parent_integration"
      issues := []
      normalizedFailureKey := none
      feedbackRequested := false
      repeatedFailure := false
      canRetry := false }
  else if blockingIssues.isEmpty then
    { accepted := true
      status := .completed
      verdict := "limited_success"
      parentIntegrationStatus := "limited_parent_integration"
      issues
      normalizedFailureKey := some (normalizeResultReviewFailureKey issues)
      feedbackRequested := false
      repeatedFailure := false
      canRetry := false }
  else
    let failureKey := normalizeResultReviewFailureKey blockingIssues
    let repeatedFailure := previousFailureKeys.contains failureKey
    let canRetry := !repeatedFailure && report.impossibleReason.isNone
    let verdict := resolveBlockingReviewVerdict blockingIssues canRetry
    { accepted := false
      status := if canRetry then .needsRevision else .failed
      verdict
      parentIntegrationStatus := resolveParentIntegrationStatus verdict
      issues
      normalizedFailureKey := some failureKey
      feedbackRequested := canRetry
      repeatedFailure
      canRetry }

/-! ## What is accepted -/

variable {artifactExists}

theorem colon_not_mem_text (code : IssueCode) : ':' ∉ code.text.toList := by
  cases code <;> decide +kernel

theorem IssueCode.text_injective : Function.Injective IssueCode.text := by
  intro first second hsame
  cases first <;> cases second <;> first | rfl | simp [text] at hsame

theorem ReviewIssue.key_toList (issue : ReviewIssue) : issue.key.toList =
    issue.code.text.toList ++ ':' :: ((issue.outputId.getD "").toList ++
      ':' :: ((issue.evidenceKind.getD "").toList ++ ':' :: (issue.artifactId.getD "").toList)) := by
  simp [key]

theorem code_eq_of_key_eq {issue other : ReviewIssue} (h : issue.key = other.key) :
    issue.code = other.code := by
  have hchars := congrArg String.toList h
  rw [issue.key_toList, other.key_toList] at hchars
  have hcode := (append_cons_cancel (colon_not_mem_text _) (colon_not_mem_text _) hchars).1
  exact IssueCode.text_injective (String.toList_inj.mp hcode)

/-- Only issues of the list are kept, and for each of them one with its key. -/
theorem dedupeIssues_spec (issues : List ReviewIssue) :
    (∀ kept ∈ dedupeIssues issues, kept ∈ issues) ∧
      ∀ issue ∈ issues, ∃ kept ∈ dedupeIssues issues, kept.key = issue.key := by
  have hfold : ∀ rest result : List ReviewIssue,
      let kept := rest.foldl (fun result issue =>
        if result.any (·.key = issue.key) then result else result ++ [issue]) result
      (∀ issue ∈ kept, issue ∈ result ∨ issue ∈ rest) ∧
        ∀ issue, issue ∈ result ∨ issue ∈ rest → ∃ other ∈ kept, other.key = issue.key := by
    intro rest
    induction rest with
    | nil => grind
    | cons first rest ih =>
      intro result
      rw [foldl_cons]
      split
      · have := ih result
        grind
      · have := ih (result ++ [first])
        grind
  obtain ⟨hkept, hall⟩ := hfold issues []
  exact ⟨fun issue hissue => (hkept issue hissue).resolve_left not_mem_nil,
    fun issue hissue => hall issue (.inr hissue)⟩

/-- A report is accepted if and only if none of its issues blocks it. -/
theorem review_completed_iff (report : ReportBody) (expectedOutputs : List ExpectedOutputContract)
    (previousFailureKeys : List String) :
    (reviewSubAgentResult artifactExists report expectedOutputs previousFailureKeys).status =
        .completed ↔
      ∀ issue ∈ collectResultReviewIssues artifactExists report expectedOutputs,
        isLimitedSuccessIssue issue report := by
  unfold reviewSubAgentResult
  dsimp only
  split
  · next hempty =>
    rw [List.isEmpty_iff] at hempty
    simp [hempty]
  · split
    · next hblocking =>
      rw [List.isEmpty_iff, filter_eq_nil_iff] at hblocking
      simpa using hblocking
    · next hblocking =>
      rw [List.isEmpty_iff, filter_eq_nil_iff] at hblocking
      simp only [Bool.not_eq_true', Bool.not_eq_false] at hblocking
      refine iff_of_false ?_ hblocking
      dsimp only
      split <;> simp

/-- A failed report is not accepted. -/
theorem review_failed (hfailed : report.status = .failed)
    (expectedOutputs : List ExpectedOutputContract) (previousFailureKeys : List String) :
    (reviewSubAgentResult artifactExists report expectedOutputs previousFailureKeys).status ≠
      .completed := by
  rw [Ne, review_completed_iff]
  intro hlimited
  obtain ⟨kept, hkept, hkey⟩ := (dedupeIssues_spec (statusIssues report ++
    expectedOutputs.flatMap (expectedOutputIssues artifactExists report) ++ riskIssues report ++
      impossibleIssues report)).2
    { code := .resultReportFailed, detail := "ResultReport status is failed." }
    (by simp [statusIssues, hfailed])
  have hlimits := hlimited kept hkept
  rw [isLimitedSuccessIssue, code_eq_of_key_eq hkey] at hlimits
  cases hlimits

/-- Where nothing is expected, a report of completion is accepted. -/
theorem review_completed_of_nothing_expected (hcompleted : report.status = .completed)
    (previousFailureKeys : List String) :
    (reviewSubAgentResult artifactExists report [] previousFailureKeys).status = .completed := by
  rw [review_completed_iff]
  intro issue hissue
  have hissue := (dedupeIssues_spec _).1 issue hissue
  simp only [statusIssues, hcompleted, flatMap_nil, append_nil, nil_append, mem_append] at hissue
  rcases hissue with hrisk | himpossible
  · obtain ⟨⟨riskOrGap, index⟩, -, hrisk⟩ := mem_flatMap.mp hrisk
    dsimp only at hrisk
    split at hrisk
    · cases hrisk
    · rw [mem_singleton.mp hrisk]
      rfl
  · unfold impossibleIssues at himpossible
    split at himpossible
    · cases himpossible
    · rw [mem_singleton.mp himpossible]
      rfl

/-- A first report that states nothing impossible is accepted or sent back. -/
theorem review_completed_or_needsRevision (hpossible : report.impossibleReason = none)
    (expectedOutputs : List ExpectedOutputContract) :
    (reviewSubAgentResult artifactExists report expectedOutputs []).status = .completed ∨
      (reviewSubAgentResult artifactExists report expectedOutputs []).status = .needsRevision := by
  unfold reviewSubAgentResult
  dsimp only
  split
  · exact .inl rfl
  · split
    · exact .inl rfl
    · exact .inr (by simp [hpossible])

end Artifacts

end Nobie.Orchestration
