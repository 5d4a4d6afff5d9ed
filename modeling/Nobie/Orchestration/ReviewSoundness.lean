/-
# What the review of a result accepts, and how long it sends results back

The review looks an expected output up twice, at its last entry to find an issue and at its first
one to tell whether the issue only limits the success, so that a report is accepted for these two
entries. A result is sent back as long as its failure key is new, and the keys hold the ids that a
sub-agent gives its artifacts.
-/

import Mathlib.Data.Set.Finite.List
import Mathlib.Algebra.Order.BigOperators.Group.List
import Mathlib.Algebra.Order.Group.Nat
import Mathlib.Data.Fintype.EquivFin
import Nobie.Orchestration.ResultReview

namespace Nobie.Orchestration

open Foundation List JsString

variable {issue other : ReviewIssue}

/-! ## Accepted reports -/

variable (artifactExists : Option (ReportedArtifact → Bool)) (report : ReportBody)
  (expectedOutputs : List ExpectedOutputContract)

/-- All issues of a report, repeated ones included. -/
def rawIssues : List ReviewIssue :=
  statusIssues report ++ expectedOutputs.flatMap (expectedOutputIssues artifactExists report) ++
    riskIssues report ++ impossibleIssues report

/-- An entry that may stand under the id of a required output. -/
def EntryFits (output : ReportedOutput) : Prop :=
  output.status = .satisfied ∨ output.status = .partlySatisfied ∧ report.impossibleReason.isSome

/-- Every entry under the id fits, and there is one. -/
def EntriesFit (outputId : String) : Prop :=
  (∃ output ∈ report.outputs, output.outputId = outputId) ∧
    ∀ output ∈ report.outputs, output.outputId = outputId → EntryFits report output

/-- The last entry under the id is satisfied, or an impossible reason is given and the first one is
partial. -/
def EntriesLookRight (outputId : String) : Prop :=
  ∃ last, report.outputs.reverse.find? (·.outputId = outputId) = some last ∧
    (last.status = .satisfied ∨ report.impossibleReason.isSome ∧
      ∃ first, report.outputs.find? (·.outputId = outputId) = some first ∧
        first.status = .partlySatisfied)

/-- The evidence and the artifacts that an expected output asks for. -/
structure Supported (expected : ExpectedOutputContract) : Prop where
  evidence : ∀ kind ∈ expected.requiredEvidenceKinds,
    (∃ evidence ∈ report.evidence, evidence.kind = kind) ∧
      ∀ evidence ∈ report.evidence, evidence.kind = kind → jsTrim evidence.sourceRef ≠ ""
  artifacts : expected.artifactRequired → report.artifacts ≠ [] ∧
    ∀ artifact ∈ report.artifacts, (artifact.path.map jsTrim).getD "" ≠ "" ∧
      ∀ exists? ∈ artifactExists, exists? artifact

/-- A report of completed work, with something about the entries of each required output. -/
structure Completed (entries : String → Prop) : Prop where
  status : report.status = .completed
  outputs : ∀ expected ∈ expectedOutputs, expected.required →
    entries expected.outputId ∧ Supported artifactExists report expected

variable {artifactExists report expectedOutputs}

theorem mem_rawIssues : issue ∈ rawIssues artifactExists report expectedOutputs ↔
    issue ∈ statusIssues report ∨
      (∃ expected ∈ expectedOutputs, issue ∈ expectedOutputIssues artifactExists report expected) ∨
      issue ∈ riskIssues report ∨ issue ∈ impossibleIssues report := by
  simp [rawIssues]

/-- What an issue of a report is about. -/
structure IssueAbout (report : ReportBody) (expectedOutputs : List ExpectedOutputContract)
    (issue : ReviewIssue) : Prop where
  output : issue.outputId = none ∨
    ∃ expected ∈ expectedOutputs, issue.outputId = some expected.outputId
  evidence : issue.evidenceKind = none ∨ ∃ expected ∈ expectedOutputs,
    ∃ kind ∈ expected.requiredEvidenceKinds, issue.evidenceKind = some kind
  artifact : issue.artifactId = none ∨ ∃ expected ∈ expectedOutputs,
    expected.required ∧ expected.artifactRequired
  notSatisfied : issue.code = .requiredOutputNotSatisfied →
    issue.evidenceKind = none ∧ issue.artifactId = none ∧
      ∃ output ∈ report.outputs, issue.outputId = some output.outputId

theorem issueAbout (h : issue ∈ rawIssues artifactExists report expectedOutputs) :
    IssueAbout report expectedOutputs issue := by
  rcases mem_rawIssues.mp h with h | ⟨expected, hexpected, h⟩ | h | h
  · unfold statusIssues at h
    constructor <;> grind
  · unfold expectedOutputIssues outputIssues outputById evidenceIssues artifactIssues at h
    constructor <;> grind
  · obtain ⟨⟨riskOrGap, index⟩, -, h⟩ := mem_flatMap.mp h
    constructor <;> grind
  · unfold impossibleIssues at h
    constructor <;> grind

variable {report' : ReportBody} (previousFailureKeys : List String)

/-- Whether an issue only limits the success is told by its key. -/
theorem limited_of_key_eq {reviewed : ReportBody}
    (hissue : issue ∈ rawIssues artifactExists report expectedOutputs)
    (hother : other ∈ rawIssues artifactExists report' expectedOutputs)
    (hkey : other.key = issue.key) (h : isLimitedSuccessIssue other reviewed) :
    isLimitedSuccessIssue issue reviewed := by
  have hcode := code_eq_of_key_eq hkey
  unfold isLimitedSuccessIssue at h ⊢
  rw [hcode] at h
  by_cases hnot : issue.code = .requiredOutputNotSatisfied
  · obtain ⟨hkind, hartifact, output, -, hid⟩ := (issueAbout hissue).notSatisfied hnot
    obtain ⟨hkind', hartifact', output', -, hid'⟩ :=
      (issueAbout hother).notSatisfied (hcode.trans hnot)
    have hchars := congrArg String.toList hkey
    simp only [ReviewIssue.key_toList, hcode, hkind, hartifact, hid, hkind', hartifact', hid',
      Option.getD_some, Option.getD_none, append_cancel_left_eq, List.cons.injEq, true_and,
      append_cancel_right_eq, String.toList_inj] at hchars
    rwa [hid', hchars, ← hid] at h
  · split at h
    · rfl
    · rfl
    · next hsame => exact absurd hsame hnot
    · cases h

theorem accepted_iff_limited :
    (reviewSubAgentResult artifactExists report expectedOutputs previousFailureKeys).accepted =
        true ↔
      ∀ issue ∈ rawIssues artifactExists report expectedOutputs,
        isLimitedSuccessIssue issue report := by
  have hstatus : (reviewSubAgentResult artifactExists report expectedOutputs
      previousFailureKeys).accepted ↔ (reviewSubAgentResult artifactExists report
        expectedOutputs previousFailureKeys).status = .completed := by
    unfold reviewSubAgentResult
    grind
  rw [hstatus, review_completed_iff]
  constructor
  · intro h issue hissue
    obtain ⟨kept, hkept, hkey⟩ := (dedupeIssues_spec _).2 issue hissue
    exact limited_of_key_eq hissue ((dedupeIssues_spec _).1 kept hkept) hkey (h kept hkept)
  · exact fun h issue hissue => h issue ((dedupeIssues_spec _).1 _ hissue)

/-- A list of issues only limits the success. -/
def OnlyLimits (report : ReportBody) (issues : List ReviewIssue) : Prop :=
  ∀ issue ∈ issues, isLimitedSuccessIssue issue report

variable {expected : ExpectedOutputContract}

@[simp]
theorem onlyLimits_nil : OnlyLimits report [] := nofun

@[simp]
theorem onlyLimits_singleton : OnlyLimits report [issue] ↔ isLimitedSuccessIssue issue report :=
  forall_mem_singleton

@[simp]
theorem onlyLimits_append {first second : List ReviewIssue} :
    OnlyLimits report (first ++ second) ↔ OnlyLimits report first ∧ OnlyLimits report second :=
  forall_mem_append

@[simp]
theorem onlyLimits_flatMap {A : Type} {f : A → List ReviewIssue} {l : List A} :
    OnlyLimits report (l.flatMap f) ↔ ∀ value ∈ l, OnlyLimits report (f value) := by
  unfold OnlyLimits
  grind

theorem onlyLimits_output : OnlyLimits report (outputIssues report expected) ↔
    EntriesLookRight report expected.outputId := by
  unfold outputIssues outputById EntriesLookRight
  split
  · next hnone => simp [isLimitedSuccessIssue, hnone]
  · next last hlast => split <;> simp_all [isLimitedSuccessIssue, Option.any_eq_true]

theorem onlyLimits_evidence {kind : String} :
    OnlyLimits report (evidenceIssues report expected kind) ↔
      (∃ evidence ∈ report.evidence, evidence.kind = kind) ∧
        ∀ evidence ∈ report.evidence, evidence.kind = kind → jsTrim evidence.sourceRef ≠ "" := by
  unfold evidenceIssues
  simp only [List.isEmpty_iff, filter_eq_nil_iff, any_eq_true, mem_filter, decide_eq_true_eq]
  split
  · next hnone =>
    refine iff_of_false (by simp [isLimitedSuccessIssue]) ?_
    rintro ⟨⟨evidence, hmem, hkind⟩, -⟩
    exact hnone evidence hmem hkind
  · next hsome =>
    simp only [not_forall, not_not] at hsome
    split
    · simp only [onlyLimits_singleton, isLimitedSuccessIssue]
      grind
    · simp only [onlyLimits_nil]
      grind

theorem onlyLimits_artifact {artifact : ReportedArtifact} :
    OnlyLimits report (artifactIssues artifactExists expected artifact) ↔
      (artifact.path.map jsTrim).getD "" ≠ "" ∧ ∀ exists? ∈ artifactExists, exists? artifact := by
  unfold artifactIssues
  split
  · next hpath => simp [isLimitedSuccessIssue, hpath]
  · next hpath =>
    cases artifactExists with
    | none => simp [hpath]
    | some exists? => cases h : exists? artifact <;> simp [isLimitedSuccessIssue, hpath, h]

theorem onlyLimits_expected :
    OnlyLimits report (expectedOutputIssues artifactExists report expected) ↔
      (expected.required → EntriesLookRight report expected.outputId ∧
        Supported artifactExists report expected) := by
  have hsupported : Supported artifactExists report expected ↔ _ ∧ _ :=
    ⟨fun ⟨hevidence, hartifacts⟩ => ⟨hevidence, hartifacts⟩,
      fun ⟨hevidence, hartifacts⟩ => ⟨hevidence, hartifacts⟩⟩
  unfold expectedOutputIssues
  split
  · next hrequired =>
    simp only [onlyLimits_append, onlyLimits_flatMap, onlyLimits_output, onlyLimits_evidence,
      hrequired, true_imp_iff, hsupported, and_assoc]
    refine and_congr_right fun _ => and_congr_right fun _ => ?_
    split
    · next hartifact =>
      simp only [onlyLimits_append, onlyLimits_flatMap, onlyLimits_artifact, hartifact,
        true_imp_iff]
      refine and_congr_left fun _ => ?_
      cases report.artifacts <;> simp [isLimitedSuccessIssue]
    · next hartifact => simp [hartifact]
  · next hrequired => simp [hrequired]

/-- A review accepts what looks like completed work. -/
theorem accepted_iff :
    (reviewSubAgentResult artifactExists report expectedOutputs previousFailureKeys).accepted =
        true ↔
      Completed artifactExists report expectedOutputs (EntriesLookRight report) := by
  have hstatus : OnlyLimits report (statusIssues report) ↔ report.status = .completed := by
    unfold statusIssues
    cases report.status <;> simp [isLimitedSuccessIssue]
  have hrisks : OnlyLimits report (riskIssues report) := by
    unfold riskIssues
    simp only [onlyLimits_flatMap]
    intro risk _
    split <;> simp [isLimitedSuccessIssue]
  have himpossible : OnlyLimits report (impossibleIssues report) := by
    unfold impossibleIssues
    split <;> simp [isLimitedSuccessIssue]
  rw [accepted_iff_limited]
  change OnlyLimits report (rawIssues artifactExists report expectedOutputs) ↔ _
  simp only [rawIssues, onlyLimits_append, onlyLimits_flatMap, onlyLimits_expected, hstatus,
    hrisks, himpossible, and_true]
  exact ⟨fun h => ⟨h.1, h.2⟩, fun h => ⟨h.1, h.2⟩⟩

/-! ## What is added to a report -/

variable (artifactExists expectedOutputs) in
/-- Outputs are added at the end of a report and no issue of it is lost. -/
structure AddsIssues (report report' : ReportBody) : Prop where
  outputs : report.outputs <+: report'.outputs
  issues : ∀ issue ∈ collectResultReviewIssues artifactExists report expectedOutputs,
    ∃ other ∈ collectResultReviewIssues artifactExists report' expectedOutputs,
      other.key = issue.key

/-- The first output under the id of an issue is partial. -/
def FirstIsPartial (report : ReportBody) (issue : ReviewIssue) : Prop :=
  ∃ first, report.outputs.find? (some ·.outputId = issue.outputId) = some first ∧
    first.status = .partlySatisfied

variable (artifactExists expectedOutputs) in
/-- An impossible reason is added to a report that only partial outputs blocked. -/
structure ExcusesPartialOutputs (report report' : ReportBody) : Prop where
  unexcused : report.impossibleReason = none
  excused : report'.impossibleReason.isSome
  blocking : ∀ issue ∈ collectResultReviewIssues artifactExists report expectedOutputs,
    isLimitedSuccessIssue issue report = false → FirstIsPartial report issue

section

variable (h : AddsIssues artifactExists expectedOutputs report report')
include h

/-- An issue that blocks a report, but not a longer one with it, is about a partial output. -/
theorem AddsIssues.excuses
    (hissue : issue ∈ rawIssues artifactExists report expectedOutputs)
    (hblocks : isLimitedSuccessIssue issue report = false)
    (hlimits : isLimitedSuccessIssue issue report') :
    report.impossibleReason = none ∧ report'.impossibleReason.isSome ∧
      FirstIsPartial report issue := by
  unfold isLimitedSuccessIssue at hblocks hlimits
  split at hlimits
  · next hcode => simp [hcode] at hblocks
  · next hcode => simp [hcode] at hblocks
  · next hcode =>
    obtain ⟨-, -, output, houtput, hid⟩ := (issueAbout hissue).notSatisfied hcode
    obtain ⟨hreason, hpartial⟩ := Bool.and_eq_true_iff.mp hlimits
    obtain ⟨first, hfirst⟩ := Option.isSome_iff_exists.mp
      (find?_isSome (p := fun entry => some entry.outputId = issue.outputId).mpr
        ⟨output, houtput, by simp [hid]⟩)
    obtain ⟨rest, hrest⟩ := h.outputs
    rw [← hrest, find?_append, hfirst] at hpartial
    have hpartial : first.status = .partlySatisfied := by simpa using hpartial
    refine ⟨?_, hreason, first, hfirst, hpartial⟩
    simpa [hcode, hfirst, hpartial] using hblocks
  · cases hlimits

/-- A report stays rejected when issues are added to it, unless the addition is an impossible
reason for its partial outputs. -/
theorem AddsIssues.rejected
    {previous previous' : List String}
    (hrejected : (reviewSubAgentResult artifactExists report expectedOutputs previous).accepted =
      false)
    (haccepted : (reviewSubAgentResult artifactExists report' expectedOutputs previous').accepted =
      true) : ExcusesPartialOutputs artifactExists expectedOutputs report report' := by
  have hexcuses : ∀ issue ∈ collectResultReviewIssues artifactExists report expectedOutputs,
      isLimitedSuccessIssue issue report = false → report.impossibleReason = none ∧
        report'.impossibleReason.isSome ∧ FirstIsPartial report issue := by
    intro issue hissue hblocks
    obtain ⟨other, hother, hkey⟩ := h.issues issue hissue
    have hissue := (dedupeIssues_spec _).1 _ hissue
    have hother := (dedupeIssues_spec _).1 _ hother
    exact h.excuses hissue hblocks (limited_of_key_eq hissue hother hkey
      ((accepted_iff_limited previous').mp haccepted other hother))
  have hblocked : ∃ issue ∈ collectResultReviewIssues artifactExists report expectedOutputs,
      isLimitedSuccessIssue issue report = false := by
    by_contra hnone
    refine Bool.false_ne_true (hrejected.symm.trans ((accepted_iff_limited previous).mpr ?_))
    intro issue hissue
    obtain ⟨kept, hkept, hkey⟩ := (dedupeIssues_spec _).2 issue hissue
    refine limited_of_key_eq hissue ((dedupeIssues_spec _).1 kept hkept) hkey ?_
    exact Bool.eq_true_of_not_eq_false fun hblocks => hnone ⟨kept, hkept, hblocks⟩
  obtain ⟨issue, hissue, hblocks⟩ := hblocked
  obtain ⟨hreason, hreason', -⟩ := hexcuses issue hissue hblocks
  exact ⟨hreason, hreason', fun other hother hother' => (hexcuses other hother hother').2.2⟩

end

instance : Finite IssueCode :=
  .of_surjective (fun index : Fin 11 => IssueCode.ofNat index) fun code =>
    ⟨⟨code.ctorIdx, by cases code <;> decide⟩, by cases code <;> rfl⟩

section Revisions

variable (artifactExists : Option (ReportedArtifact → Bool)) (report : ReportBody)
  (expectedOutputs : List ExpectedOutputContract)

/-- The issues that send a report back. -/
def blockingIssues : List ReviewIssue :=
  (collectResultReviewIssues artifactExists report expectedOutputs).filter
    (!isLimitedSuccessIssue · report)

/-- The key under which a report is sent back. -/
def failureKey : String :=
  normalizeResultReviewFailureKey (blockingIssues artifactExists report expectedOutputs)

/-- Every report of a run of reviews is sent back, with the failure keys of those before it. -/
def AllRetried : List (Option (ReportedArtifact → Bool) × ReportBody) → List String → Prop
  | [], _ => True
  | (artifactExists, report) :: rest, previousFailureKeys =>
    let review := reviewSubAgentResult artifactExists report expectedOutputs previousFailureKeys
    review.canRetry ∧ AllRetried rest (previousFailureKeys ++ review.normalizedFailureKey.toList)

end Revisions

/-- A blocked report is sent back if its failure is new and nothing is impossible. -/
theorem review_of_blocking (h : blockingIssues artifactExists report expectedOutputs ≠ []) :
    (reviewSubAgentResult artifactExists report expectedOutputs previousFailureKeys).canRetry =
        (!previousFailureKeys.contains (failureKey artifactExists report expectedOutputs) &&
          report.impossibleReason.isNone) ∧
      (reviewSubAgentResult artifactExists report expectedOutputs
          previousFailureKeys).normalizedFailureKey =
        some (failureKey artifactExists report expectedOutputs) := by
  unfold failureKey reviewSubAgentResult
  unfold blockingIssues at h ⊢
  grind

theorem blocking_of_canRetry {previousFailureKeys : List String}
    (h : (reviewSubAgentResult artifactExists report expectedOutputs previousFailureKeys).canRetry =
      true) : blockingIssues artifactExists report expectedOutputs ≠ [] := by
  unfold reviewSubAgentResult at h
  unfold blockingIssues
  grind

theorem length_le_intercalate (separator : String) {part : String} {parts : List String}
    (h : part ∈ parts) : part.length ≤ (String.intercalate separator parts).length := by
  induction parts with
  | nil => cases h
  | cons first rest ih =>
    by_cases hrest : rest = []
    · subst hrest
      cases mem_singleton.mp h
      simp
    · rw [String.intercalate_cons_of_ne_nil hrest, String.length_append, String.length_append]
      rcases mem_cons.mp h with rfl | h
      · omega
      · have := ih h
        omega

/-- What an issue says in the failure key. -/
def failureToken (issue : ReviewIssue) : String :=
  String.intercalate ":" [issue.code.text, issue.outputId.getD "none",
    issue.evidenceKind.getD "none", issue.artifactId.getD "none"]

/-- A failure key is as long as the key of each of its issues. -/
theorem length_key_le (h : issue ∈ blockingIssues artifactExists report expectedOutputs) :
    issue.key.length ≤ (failureKey artifactExists report expectedOutputs).length := by
  have htoken : issue.key.length ≤ (failureToken issue).length := by
    have hdefault : ∀ value : Option String,
        (value.getD "").length ≤ (value.getD "none").length := by
      intro value
      cases value <;> simp
    have := hdefault issue.outputId
    have := hdefault issue.evidenceKind
    have := hdefault issue.artifactId
    simp only [ReviewIssue.key, failureToken, String.intercalate_cons_of_ne_nil, ne_eq,
      cons_ne_nil, not_false_eq_true, String.intercalate_singleton, String.length_append]
    omega
  have hmem : failureToken issue ∈ ((OrderedSet.ofList ((blockingIssues artifactExists report
      expectedOutputs).map failureToken)).elements.mergeSort fun first second =>
        decide (ofString first ≤ ofString second)) :=
    mem_mergeSort.mpr ((OrderedSet.mem_ofList _ _).mpr (mem_map_of_mem h))
  refine htoken.trans ((length_le_intercalate "|" hmem).trans ?_)
  change _ ≤ ("sub_agent_result_review:" ++ _).length
  rw [String.length_append]
  exact Nat.le_add_left _ _

/-- An artifact without a path sends the report back, under a key as long as its id. -/
theorem blocking_artifact {expected : ExpectedOutputContract} {artifactId : String}
    (hexpected : expected ∈ expectedOutputs) (hrequired : expected.required)
    (hartifact : expected.artifactRequired)
    (hreported : ⟨artifactId, none⟩ ∈ report.artifacts) :
    ∃ issue ∈ blockingIssues artifactExists report expectedOutputs,
      artifactId.length ≤ issue.key.length := by
  let issue : ReviewIssue :=
    { code := .artifactPathMissing, outputId := some expected.outputId
      artifactId := some artifactId, detail := s!"Artifact {artifactId} has no path." }
  have hissue : issue ∈ rawIssues artifactExists report expectedOutputs := by
    refine mem_rawIssues.mpr (.inr (.inl ⟨expected, hexpected, ?_⟩))
    rw [expectedOutputIssues, if_pos hrequired, if_pos hartifact]
    refine mem_append_right _ (mem_append_right _ ?_)
    exact mem_flatMap.mpr ⟨_, hreported, mem_singleton_self _⟩
  obtain ⟨kept, hkept, hkey⟩ := (dedupeIssues_spec _).2 issue hissue
  refine ⟨kept, mem_filter.mpr ⟨hkept, ?_⟩, ?_⟩
  · rw [Bool.not_eq_true', ← Bool.not_eq_true]
    intro hlimited
    cases limited_of_key_eq hissue ((dedupeIssues_spec _).1 kept hkept) hkey hlimited
  · rw [hkey]
    exact length_le_intercalate ":" (by simp [issue])

/-- Results are sent back any number of times where a required output asks for an artifact. -/
theorem exists_allRetried {expected : ExpectedOutputContract}
    (hexpected : expected ∈ expectedOutputs) (hrequired : expected.required)
    (hartifact : expected.artifactRequired) (count : ℕ)
    (previousFailureKeys : List String) :
    ∃ reviews : List (Option (ReportedArtifact → Bool) × ReportBody),
      reviews.length = count ∧ AllRetried expectedOutputs reviews previousFailureKeys := by
  induction count generalizing previousFailureKeys with
  | zero => exact ⟨[], rfl, trivial⟩
  | succ count ih =>
    -- The id of the artifact is longer than all failure keys so far.
    let artifactId := String.ofList
      (List.replicate ((previousFailureKeys.map String.length).sum + 1) 'a')
    let report : ReportBody :=
      { status := .completed, outputs := [], evidence := [], artifacts := [⟨artifactId, none⟩]
        risksOrGaps := [], impossibleReason := none }
    obtain ⟨issue, hissue, hlong⟩ := @blocking_artifact none report expectedOutputs expected
      artifactId hexpected hrequired hartifact (mem_singleton_self _)
    obtain ⟨hretry, hkey⟩ := review_of_blocking previousFailureKeys (ne_nil_of_mem hissue)
    obtain ⟨reviews, hlength, hreviews⟩ := ih (previousFailureKeys ++
      (reviewSubAgentResult none report expectedOutputs
        previousFailureKeys).normalizedFailureKey.toList)
    refine ⟨(none, report) :: reviews, congrArg Nat.succ hlength, ?_, hreviews⟩
    rw [hretry]
    have hnew : failureKey none report expectedOutputs ∉ previousFailureKeys := by
      intro hold
      have hshort := le_sum_of_mem (mem_map_of_mem (f := String.length) hold)
      have hkey := hlong.trans (length_key_le hissue)
      simp only [artifactId, String.length_ofList, length_replicate] at hkey
      omega
    simpa [report] using hnew

/-- Without artifacts the failure keys are finitely many. -/
theorem finite_failureKeys (h : ∀ expected ∈ expectedOutputs, expected.required →
    expected.artifactRequired = false) :
    {key | ∃ artifactExists report,
      failureKey artifactExists report expectedOutputs = key}.Finite := by
  let outputIds := none :: expectedOutputs.map (some ·.outputId)
  let kinds := none :: expectedOutputs.flatMap (·.requiredEvidenceKinds.map some)
  let tokens := (fun about : IssueCode × Option String × Option String =>
    String.intercalate ":" [about.1.text, about.2.1.getD "none", about.2.2.getD "none", "none"]) ''
      (Set.univ ×ˢ {id | id ∈ outputIds} ×ˢ {kind | kind ∈ kinds})
  have htokens : tokens.Finite :=
    (Set.finite_univ.prod ((finite_toSet outputIds).prod (finite_toSet kinds))).image _
  have hmem : ∀ artifactExists report,
      ∀ issue ∈ blockingIssues artifactExists report expectedOutputs, failureToken issue ∈ tokens := by
    intro artifactExists report issue hissue
    have habout := issueAbout ((dedupeIssues_spec _).1 issue (mem_filter.mp hissue).1)
    have hartifact : issue.artifactId = none := by
      refine habout.artifact.resolve_right fun ⟨expected, hexpected, hrequired, hartifact⟩ => ?_
      exact Bool.false_ne_true ((h expected hexpected hrequired).symm.trans hartifact)
    refine ⟨(issue.code, issue.outputId, issue.evidenceKind), ⟨trivial, ?_, ?_⟩, ?_⟩
    · rcases habout.output with hid | ⟨expected, hexpected, hid⟩
      · exact mem_cons.mpr (.inl hid)
      · exact mem_cons_of_mem _ (mem_map.mpr ⟨expected, hexpected, hid.symm⟩)
    · rcases habout.evidence with hkind | ⟨expected, hexpected, kind, hmem, hkind⟩
      · exact mem_cons.mpr (.inl hkind)
      · exact mem_cons_of_mem _ (mem_flatMap.mpr
          ⟨expected, hexpected, mem_map.mpr ⟨kind, hmem, hkind.symm⟩⟩)
    · rw [failureToken, hartifact]
      rfl
  have : Finite tokens := htokens
  have := Fintype.ofFinite tokens
  refine ((finite_length_le tokens (Fintype.card tokens)).image fun parts =>
    "sub_agent_result_review:" ++ String.intercalate "|" (parts.map Subtype.val)).subset ?_
  rintro key ⟨artifactExists, report, rfl⟩
  let parts := ((OrderedSet.ofList ((blockingIssues artifactExists report expectedOutputs).map
    failureToken)).elements.mergeSort
      fun first second => decide (ofString first ≤ ofString second))
  have hparts : ∀ part ∈ parts, part ∈ tokens := by
    intro part hpart
    obtain ⟨issue, hissue, rfl⟩ := mem_map.mp
      ((OrderedSet.mem_ofList _ _).mp (mem_mergeSort.mp hpart))
    exact hmem artifactExists report issue hissue
  have hnodup : parts.Nodup := (mergeSort_perm _ _).nodup_iff.mpr (OrderedSet.nodup _)
  have hval : (parts.attach.map fun part => (⟨part.1, hparts part.1 part.2⟩ : tokens)).map
      Subtype.val = parts := by
    rw [map_map]
    exact attach_map_subtype_val parts
  refine ⟨parts.attach.map fun part => ⟨part.1, hparts part.1 part.2⟩, ?_, ?_⟩
  · exact (List.Nodup.of_map Subtype.val (by rwa [hval])).length_le_card
  · change _ ++ String.intercalate "|" (List.map _ _) = _
    rw [hval]
    rfl

/-- Each result that is sent back uses up a failure key. -/
theorem length_le_of_allRetried {keys : Finset String}
    (hkeys : ∀ artifactExists report, failureKey artifactExists report expectedOutputs ∈ keys)
    {reviews : List (Option (ReportedArtifact → Bool) × ReportBody)}
    {previousFailureKeys : List String}
    (h : AllRetried expectedOutputs reviews previousFailureKeys) :
    reviews.length ≤ (keys \ previousFailureKeys.toFinset).card := by
  induction reviews generalizing previousFailureKeys with
  | nil => exact Nat.zero_le _
  | cons review rest ih =>
    obtain ⟨artifactExists, report⟩ := review
    obtain ⟨hretry, hrest⟩ := h
    obtain ⟨hnew, hkey⟩ := review_of_blocking previousFailureKeys (blocking_of_canRetry hretry)
    rw [hretry] at hnew
    rw [hkey] at hrest
    have hnew := (Bool.and_eq_true_iff.mp hnew.symm).1
    have hfewer : keys \ (previousFailureKeys ++
        (some (failureKey artifactExists report expectedOutputs)).toList).toFinset ⊂
          keys \ previousFailureKeys.toFinset := by
      refine (Finset.ssubset_iff_of_subset ?_).mpr
        ⟨_, Finset.mem_sdiff.mpr ⟨hkeys artifactExists report, by simpa using hnew⟩, by simp⟩
      refine Finset.sdiff_subset_sdiff subset_rfl fun key hold => ?_
      exact mem_toFinset.mpr (mem_append_left _ (mem_toFinset.mp hold))
    exact (ih hrest).trans_lt (Finset.card_lt_card hfewer)

/-- Results are sent back a bounded number of times just where no required output asks for an
artifact. -/
theorem revisions_bounded_iff (expectedOutputs : List ExpectedOutputContract) :
    (∃ bound : ℕ, ∀ (reviews : List (Option (ReportedArtifact → Bool) × ReportBody))
        (previousFailureKeys : List String),
        AllRetried expectedOutputs reviews previousFailureKeys → reviews.length ≤ bound) ↔
      ∀ expected ∈ expectedOutputs, expected.required → expected.artifactRequired = false := by
  constructor
  · rintro ⟨bound, hbound⟩ expected hexpected hrequired
    by_contra hartifact
    obtain ⟨reviews, hlength, hreviews⟩ := exists_allRetried hexpected hrequired
      (Bool.eq_true_of_not_eq_false hartifact) (bound + 1) []
    have := hbound reviews [] hreviews
    omega
  · intro h
    have hfinite := finite_failureKeys h
    refine ⟨hfinite.toFinset.card, fun reviews previousFailureKeys hreviews => ?_⟩
    refine (length_le_of_allRetried (fun artifactExists report => ?_) hreviews).trans
      (Finset.card_le_card Finset.sdiff_subset)
    exact hfinite.mem_toFinset.mpr ⟨artifactExists, report, rfl⟩

/-- Artifacts without a path, under ever new ids, are sent back for ever. -/
theorem revisions_unbounded :
    ¬ ∀ expectedOutputs : List ExpectedOutputContract, ∃ bound : ℕ,
      ∀ reviews : List (Option (ReportedArtifact → Bool) × ReportBody),
        AllRetried expectedOutputs reviews [] → reviews.length ≤ bound := by
  intro h
  let expected : ExpectedOutputContract := ⟨"answer", true, [], true⟩
  obtain ⟨bound, hbound⟩ := h [expected]
  obtain ⟨reviews, hlength, hreviews⟩ :=
    exists_allRetried (mem_singleton_self expected) rfl rfl (bound + 1) []
  have := hbound reviews hreviews
  omega

end Nobie.Orchestration
