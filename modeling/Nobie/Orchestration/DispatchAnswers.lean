/-
# What the runner answers the dispatcher

The dispatcher's handler never moves the status of its sub-session. So the answer of the
runner is completed in three cases only: a completed sub-session was stored before, the
parent was finalized while the child ran, or the review accepted the child's report.
-/

import Nobie.Orchestration.FailureContainment
import Nobie.Orchestration.TaskDispatch

namespace Nobie.Orchestration

open Foundation Foundation.Effects EStateM

variable {Outputs A : Type}

/-! ## Answers and their status -/

variable {state last : FallibleState} {outcome : SubSessionRunOutcome Outputs}
  {thrown : FallibleState → Prop} {status : SubSessionStatus} {result : ResultReport Outputs}
  {review : SubAgentResultReview} {start : FallibleState} {modelExecution : ModelExecutionSnapshot}

variable {error : Thrown} {effect : FallibleRunner A} {report : Option (ResultReport Outputs)}
  {other : ResultReport Outputs} {ready : FallibleState}

section CatchBranch

variable (collaborators : Collaborators Outputs)

/-- A closing branch that returns was allowed to change the status. -/
theorem close_ok (status : SubSessionStatus) (label : SubSessionContract → String)
    (ledgerStatus summary : String) (report : FallibleState → SubSessionRunOutcome Outputs)
    (hrun : (do
        within (changeStatus collaborators.runtime status)
        closingSteps collaborators label ledgerStatus summary
        let state ← get
        pure (report state) : FallibleRunner (SubSessionRunOutcome Outputs)).run state =
      .ok outcome last) :
    canTransitionSubSessionStatus state.subSession.status status ∧
      last.statuses = (status, some status) ∧ outcome = report last := by
  rw [run_bind] at hrun
  obtain ⟨hmoves, middle, hchange, hstatuses⟩ | ⟨-, error, middle, hchange, -⟩ :=
    changeStatus_within collaborators status state
  · rw [hchange] at hrun
    dsimp only at hrun
    rw [run_bind] at hrun
    obtain ⟨-, next, hsteps, hnext⟩ | ⟨-, error, next, hsteps⟩ :=
      closingSteps_run collaborators label ledgerStatus summary middle
    · rw [hsteps] at hrun
      cases hrun
      exact ⟨hmoves, hnext.trans hstatuses, rfl⟩
    · rw [hsteps] at hrun
      cases hrun
  · rw [hchange] at hrun
    cases hrun

theorem closingSettleCancelled_ok {reasonCode safeMessage : String}
    (hrun : (closingSettleCancelled collaborators reasonCode safeMessage).run state =
      .ok outcome last) :
    canTransitionSubSessionStatus state.subSession.status .cancelled ∧
      last.statuses = (.cancelled, some .cancelled) ∧ outcome.status = .cancelled ∧
        outcome.resultReport = none := by
  have hclosing : (do
      within (changeStatus collaborators.runtime .cancelled)
      closingSteps collaborators
        (fun subSession => s!"sub_session_cancelled:{subSession.subSessionId}") "degraded"
        safeMessage
      let state ← get
      pure { bareOutcome state.subSession .cancelled with
        errorReport := some { reasonCode, safeMessage, retryable := false } } :
          FallibleRunner (SubSessionRunOutcome Outputs)).run state = .ok outcome last := by
    rw [← hrun]
    simp [closingSettleCancelled, settleCancelledWith, closingSteps]
  obtain ⟨hmoves, hlast, rfl⟩ := close_ok collaborators _ _ _ _ _ hclosing
  exact ⟨hmoves, hlast, rfl, rfl⟩

/-- What the `catch` branch answers. It keeps a settled status, and it never answers for a
sub-session that was sent back for revision. -/
theorem catchSubSession_ok (hstate : InStore state)
    (hrun : (catchSubSession collaborators error).run state = .ok outcome last) :
    SettledAt outcome last ∧ outcome.resultReport = none ∧
      state.subSession.status ≠ .needsRevision ∧
        (outcome.status = .completed ↔ state.subSession.status = .completed) := by
  rw [catchSubSession, run_bind, run_get] at hrun
  dsimp only at hrun
  by_cases hcancel : (state.aborted || isAbortLike error)
  · rw [if_pos hcancel] at hrun
    obtain ⟨hmoves, hlast, hstatus, hreport⟩ := closingSettleCancelled_ok collaborators hrun
    refine ⟨⟨by rw [hstatus]; rfl, by rw [hstatus]; exact hlast⟩, hreport, ?_, ?_⟩
    · intro hrevision
      rw [hrevision] at hmoves
      cases hmoves
    · rw [hstatus]
      refine iff_of_false (by decide) fun hcompleted => ?_
      rw [hcompleted] at hmoves
      cases hmoves
  · rw [if_neg hcancel] at hrun
    by_cases hsettled : state.subSession.status = .completed ∨
        state.subSession.status = .failed ∨ state.subSession.status = .cancelled
    · rw [if_pos hsettled] at hrun
      cases hrun
      refine ⟨⟨?_, ?_⟩, rfl, ?_, Iff.rfl⟩
      · rcases hsettled with h | h | h <;> simp [bareOutcome, h, isReplayableStatus]
      · exact congrArg (Prod.mk _) ((lastStored_append_event _ _ _).trans hstate)
      · rcases hsettled with h | h | h <;> simp [h]
    · rw [if_neg hsettled] at hrun
      obtain ⟨errorReport, hreport⟩ : ∃ errorReport : ErrorReport, errorReport =
          { reasonCode := "sub_session_handler_error", safeMessage := asErrorMessage error
            retryable := true } := ⟨_, rfl⟩
      have hclosing : (do
          within (changeStatus collaborators.runtime .failed)
          closingSteps collaborators (fun subSession =>
            s!"sub_session_failed:{subSession.subSessionId}:{errorReport.reasonCode}") "failed"
            errorReport.safeMessage
          let failed ← get
          pure { bareOutcome failed.subSession .failed with
            errorReport := some errorReport
            modelExecution := state.lastModelExecution <|>
              state.subSession.modelExecutionSnapshot.filter (·.status.isSome) } :
              FallibleRunner (SubSessionRunOutcome Outputs)).run state = .ok outcome last := by
        rw [← hrun, hreport]
        simp [closingSteps]
      obtain ⟨hmoves, hlast, rfl⟩ := close_ok collaborators _ _ _ _ _ hclosing
      refine ⟨⟨rfl, hlast⟩, rfl, ?_, ?_⟩
      · intro hrevision
        rw [hrevision] at hmoves
        cases hmoves
      · exact iff_of_false (by simp [bareOutcome]) fun hcompleted => hsettled (.inl hcompleted)

end CatchBranch

/-! ## The try branch -/

/-- The sub-session is running, in memory and in the store. -/
def Running (state : FallibleState) : Prop := state.statuses = (.running, some .running)

/-- An effect that does not move a running sub-session, whether it throws or not. -/
def Steady (effect : FallibleRunner A) : Prop := Triple Running effect (fun _ => Running) Running

theorem Still.steady (heffect : Still effect) : Steady effect :=
  heffect.triple (· = (.running, some .running)) fun _ hstate => hstate

section TryBranch

variable (collaborators : Collaborators Outputs)

/-- A progress call with the present status changes nothing. -/
theorem steady_tryEmitProgress (summary : String) :
    Steady (tryEmitProgress collaborators summary (some .running)) := by
  have hrest : Still (do
      tryAppendParentEvent collaborators fun subSession =>
        s!"sub_session_progress:{subSession.subSessionId}:{summary}"
      tryPublishProgressBatch collaborators) :=
    (still_tryAppendParentEvent collaborators _).bind fun _ =>
      still_tryPublishProgressBatch collaborators
  refine Triple.get fun state hstate => ?_
  have hsame : ¬ (some SubSessionStatus.running).getD state.subSession.status ≠
      state.subSession.status := by
    rw [show state.subSession.status = .running from congrArg Prod.fst hstate]
    exact fun h => h rfl
  rw [if_neg hsame]
  exact hrest.steady.weaken (fun _ heq => heq ▸ hstate) fun _ _ hlast => hlast

variable (input : RunSubSessionInput)

variable {handler : HandlerRun Outputs}

theorem steady_tryExecuteWithModelPolicy (hhandler : Steady (tryRunHandler collaborators handler)) :
    Steady (tryExecuteWithModelPolicy collaborators input handler) := by
  unfold Steady tryExecuteWithModelPolicy
  split
  · exact Triple.throw fun _ hstate => hstate
  · apply Triple.tryCatch
    · refine Triple.bind hhandler fun result => ?_
      refine Triple.bind (still_tryRecordLedgerEvent collaborators _ _ _).steady fun _ => ?_
      exact Triple.pure fun _ hstate => hstate
    · refine fun error => Triple.get fun state hstate => ?_
      split
      · exact Triple.throw fun _ heq => heq ▸ hstate
      · exact Triple.bind (Triple.modify fun _ heq => heq ▸ hstate) fun _ =>
          Triple.throw fun _ hlast => hlast

/-- The `try` branch up to the handler's result. -/
def childExecution (handler : HandlerRun Outputs) :
    FallibleRunner (ResultReport Outputs × ModelExecutionSnapshot) := do
  tryChangeStatus collaborators .running
  tryAppendParentEvent collaborators fun subSession =>
    s!"sub_session_started:{subSession.subSessionId}"
  tryExecuteWithModelPolicy collaborators input handler

theorem tryExecuteSubSession_eq (handler : HandlerRun Outputs) :
    tryExecuteSubSession collaborators input handler =
      childExecution collaborators input handler >>= fun execution =>
        trySettleResult collaborators execution.1 execution.2 := by
  simp [tryExecuteSubSession, childExecution]

/-- A change of status that the table allows is made. -/
theorem tryChangeStatus_settles (source target : SubSessionStatus)
    (hmoves : canTransitionSubSessionStatus source target) :
    Triple (fun state => state.subSession.status = source) (tryChangeStatus collaborators target)
      (fun _ state => state.statuses = (target, some target)) thrown := by
  intro state hstate
  rw [tryChangeStatus, run_bind]
  obtain ⟨-, last, hrun, hstatuses⟩ | ⟨hstays, -⟩ := changeStatus_within collaborators target state
  · rw [hrun]
    exact hstatuses
  · rw [hstate, hmoves] at hstays
    cases hstays

theorem childExecution_triple (hhandler : Steady (tryRunHandler collaborators handler)) :
    Triple (fun state => state.subSession.status = .queued)
      (childExecution collaborators input handler) (fun _ => Running) Running := by
  refine Triple.bind (tryChangeStatus_settles collaborators .queued .running rfl) fun _ => ?_
  refine Triple.bind (still_tryAppendParentEvent collaborators _).steady fun _ => ?_
  exact steady_tryExecuteWithModelPolicy collaborators input hhandler

/-- The answer has this status and report, and the sub-session has the status. -/
def AnsweredAs (status : SubSessionStatus) (report : Option (ResultReport Outputs))
    (outcome : SubSessionRunOutcome Outputs) (state : FallibleState) : Prop :=
  outcome.status = status ∧ outcome.resultReport = report ∧ state.statuses = (status, some status)

/-- A still effect keeps the status, also where it throws. -/
theorem Still.keeps (heffect : Still effect) (status : SubSessionStatus) :
    Triple (fun state => state.statuses = (status, some status)) effect
      (fun _ state => state.statuses = (status, some status))
      (fun state => state.statuses = (status, some status)) :=
  heffect.triple (· = (status, some status)) fun _ hstate => hstate

/-- A running sub-session moves on to a settled status. -/
theorem leaveRunning (hsettled : isReplayableStatus status) :
    Triple Running (tryChangeStatus collaborators status)
      (fun _ state => state.statuses = (status, some status)) thrown := by
  have hmoves : canTransitionSubSessionStatus .running status := by
    cases status <;> first | rfl | cases hsettled
  exact (tryChangeStatus_settles collaborators .running status hmoves).weaken
    (fun _ hstate => congrArg Prod.fst hstate) fun _ _ hlast => hlast

theorem answer_triple (answer : FallibleState → SubSessionRunOutcome Outputs)
    (hstatus : ∀ state, state.subSession.status = status → (answer state).status = status)
    (hreport : ∀ state, (answer state).resultReport = report) :
    Triple (fun state => state.statuses = (status, some status))
      (do let state ← get; pure (answer state) : FallibleRunner (SubSessionRunOutcome Outputs))
      (AnsweredAs status report) thrown := by
  refine Triple.get fun state hstate => Triple.pure fun last heq => ?_
  rw [heq]
  exact ⟨hstatus state (congrArg Prod.fst hstate), hreport state, hstate⟩

theorem trySettleCancelled_answers (reasonCode safeMessage : String) :
    Triple Running
      (settleCancelledWith (tryChangeStatus collaborators) (trySinks collaborators) reasonCode
        safeMessage : FallibleRunner (SubSessionRunOutcome Outputs))
      (AnsweredAs .cancelled none) (fun state => state.statuses = (.cancelled, some .cancelled)) := by
  refine Triple.bind (leaveRunning collaborators rfl) fun _ => ?_
  refine Triple.bind ((still_tryPublishProgressBatch collaborators).keeps _) fun _ => ?_
  refine Triple.bind ((still_tryAppendParentEvent collaborators _).keeps _) fun _ => ?_
  refine Triple.bind ((still_tryRecordLedgerEvent collaborators _ _ _).keeps _) fun _ => ?_
  exact answer_triple _ (fun _ _ => rfl) fun _ => rfl

theorem trySuppressLateResult_answers (modelExecution : ModelExecutionSnapshot) :
    Triple Running (trySuppressLateResult collaborators modelExecution)
      (AnsweredAs .completed none) (fun state => state.statuses = (.completed, some .completed)) := by
  refine Triple.bind (leaveRunning collaborators rfl) fun _ => ?_
  refine Triple.bind ((still_tryPublishProgressBatch collaborators).keeps _) fun _ => ?_
  refine Triple.bind ((still_tryAppendParentEvent collaborators _).keeps _) fun _ => ?_
  refine Triple.bind ((still_tryRecordLedgerEvent collaborators _ _ _).keeps _) fun _ => ?_
  exact answer_triple _ (fun _ hstatus => hstatus) fun _ => rfl

section

variable (hreview : (collaborators.runtime.reviewResultReport result).verdict = .ok review)
include hreview

/-- A review that returns hands its verdict on. -/
theorem reviewResultReport_returns :
    Triple Running (within (reviewResultReport collaborators.runtime result))
      (fun found state => Running state ∧ found = review) thrown := by
  intro state hstate
  have hstill := still_reviewResultReport collaborators result state
  have hreturns : ∃ last, (within (reviewResultReport collaborators.runtime result)).run state =
      .ok review last := by
    rw [within_run, reviewResultReport]
    generalize collaborators.runtime.reviewResultReport result = found at hreview
    obtain ⟨parentAborts, verdict⟩ := found
    subst hreview
    cases parentAborts
    · exact ⟨_, rfl⟩
    · exact ⟨_, rfl⟩
  obtain ⟨last, hrun⟩ := hreturns
  rw [hrun] at hstill ⊢
  exact ⟨hstill.trans hstate, rfl⟩

theorem tryIntegrateReviewed_answers
    (modelExecution : ModelExecutionSnapshot) :
    Triple Running (tryIntegrateReviewed collaborators result modelExecution)
      (AnsweredAs review.status.toSubSessionStatus (some result))
      (fun state => state.statuses =
        (review.status.toSubSessionStatus, some review.status.toSubSessionStatus)) := by
  refine Triple.bind (reviewResultReport_returns collaborators hreview) fun found => ?_
  apply Triple.assuming
  rintro rfl
  refine Triple.bind (leaveRunning collaborators (isReplayableStatus_review _)) fun _ => ?_
  refine Triple.bind ((still_tryPublishProgressBatch collaborators).keeps _) fun _ => ?_
  refine Triple.bind ((still_tryAppendParentEvent collaborators _).keeps _) fun _ => ?_
  refine Triple.bind ((still_tryAggregateChildResult collaborators).keeps _) fun _ => ?_
  refine Triple.bind ((still_tryAppendParentEvent collaborators _).keeps _) fun _ => ?_
  refine Triple.bind ((still_tryRecordLedgerEvent collaborators _ _ _).keeps _) fun _ => ?_
  refine Triple.bind ((still_tryRecordLedgerEvent collaborators _ _ _).keeps _) fun _ => ?_
  refine Triple.bind ((still_tryAppendParentEvent collaborators _).keeps _) fun _ => ?_
  split
  · refine Triple.bind ((still_tryAppendParentEvent collaborators _).keeps _) fun _ => ?_
    exact answer_triple _ (fun _ hstatus => hstatus) fun _ => rfl
  · exact answer_triple _ (fun _ hstatus => hstatus) fun _ => rfl

end

/-! ## The answer -/

/-- The handler's result gets as far as being settled, in this state. -/
structure Settles (input : RunSubSessionInput) (handler : HandlerRun Outputs)
    (start : FallibleState) (result : ResultReport Outputs) (state : FallibleState) : Prop where
  returned : ∃ modelExecution, (childExecution collaborators input handler).run start =
    .ok (result, modelExecution) state
  notAborted : state.aborted = false
  asked : (collaborators.call state.calls).thrown = none

/-- How the runner comes to its answer. -/
inductive AnswerOf (input : RunSubSessionInput) (handler : HandlerRun Outputs)
    (start : FallibleState) (outcome : SubSessionRunOutcome Outputs) : Prop
  | suppressed (result : ResultReport Outputs) (state : FallibleState)
      (settles : Settles collaborators input handler start result state)
      (finalized : state.parentFinalized = true) (completed : outcome.status = .completed)
      (unreported : outcome.resultReport = none)
  | reviewed (result : ResultReport Outputs) (state : FallibleState)
      (review : SubAgentResultReview)
      (settles : Settles collaborators input handler start result state)
      (notFinalized : state.parentFinalized = false)
      (verdict : (collaborators.runtime.reviewResultReport result).verdict = .ok review)
      (completed : outcome.status = .completed ↔ review.status = .completed)
      (reported : ∀ report, outcome.resultReport = some report → report = result)
      (returned : review.status = .needsRevision → outcome.resultReport = some result)
  | unsettled
      (unsettled : ∀ result state, ¬ Settles collaborators input handler start result state)
      (notCompleted : outcome.status ≠ .completed) (unreported : outcome.resultReport = none)

variable {collaborators} {input : RunSubSessionInput} {handler : HandlerRun Outputs}

theorem Settles.unique {found : FallibleState}
    (h : Settles collaborators input handler start other found)
    (hrun : (childExecution collaborators input handler).run start =
      .ok (result, modelExecution) state) : other = result ∧ found = state := by
  obtain ⟨model, hfound⟩ := h.returned
  rw [hrun] at hfound
  cases hfound
  exact ⟨rfl, rfl⟩

/-- What the `catch` branch makes of an error in a running or cancelled sub-session. -/
theorem unsettled_of_catch (hstate : state.statuses = (status, some status))
    (hopen : status ≠ .completed)
    (hrun : (catchSubSession collaborators error).run state = .ok outcome last)
    (hunsettled : ∀ result state, ¬ Settles collaborators input handler start result state) :
    SettledAt outcome last ∧ AnswerOf collaborators input handler start outcome := by
  obtain ⟨hsettled, hreport, -, hcompleted⟩ :=
    catchSubSession_ok collaborators (inStore_of_statuses hstate) hrun
  rw [show state.subSession.status = status from congrArg Prod.fst hstate] at hcompleted
  exact ⟨hsettled, .unsettled hunsettled (fun h => hopen (hcompleted.mp h)) hreport⟩

theorem settledAt_of_answeredAs (hsettled : isReplayableStatus status)
    (h : AnsweredAs status report outcome last) : SettledAt outcome last := by
  obtain ⟨hstatus, -, hlast⟩ := h
  exact ⟨hstatus ▸ hsettled, hstatus ▸ hlast⟩

section

variable (hsettles : Settles collaborators input handler start result state)
include hsettles

/-- A result that is put before the review. -/
theorem reviewed_answer
    (hnot : state.parentFinalized = false)
    (hverdict : (collaborators.runtime.reviewResultReport result).verdict = .ok review)
    (hready : Running ready)
    (hrun : (tryCatch (tryIntegrateReviewed collaborators result modelExecution)
      (catchSubSession collaborators)).run ready = .ok outcome last) :
    SettledAt outcome last ∧ AnswerOf collaborators input handler start outcome := by
  rw [Effects.run_tryCatch] at hrun
  have hreview := tryIntegrateReviewed_answers collaborators hverdict modelExecution ready hready
  have hcompleted : review.status.toSubSessionStatus = .completed ↔ review.status = .completed := by
    cases review.status <;> simp [ReviewStatus.toSubSessionStatus]
  cases hresult : (tryIntegrateReviewed collaborators result modelExecution).run ready with
  | ok answer final =>
    rw [hresult] at hrun hreview
    cases hrun
    refine ⟨settledAt_of_answeredAs (isReplayableStatus_review _) hreview,
      .reviewed result state review hsettles hnot hverdict ?_ ?_ fun _ => hreview.2.1⟩
    · rw [hreview.1, hcompleted]
    · intro report hreport
      rw [hreview.2.1] at hreport
      exact (Option.some.inj hreport).symm
  | error error final =>
    rw [hresult] at hrun hreview
    obtain ⟨hsettled, hreport, hrevision, hkept⟩ :=
      catchSubSession_ok collaborators (inStore_of_statuses hreview) hrun
    have hstatus : final.subSession.status = review.status.toSubSessionStatus :=
      congrArg Prod.fst hreview
    refine ⟨hsettled, .reviewed result state review hsettles hnot hverdict ?_ ?_ ?_⟩
    · rw [hkept, hstatus, hcompleted]
    · intro report hsome
      rw [hreport] at hsome
      cases hsome
    · intro hneeds
      rw [hstatus, hneeds] at hrevision
      exact absurd rfl hrevision

/-- A result that comes after the parent was finalized. -/
theorem suppressed_answer
    (hfinalized : state.parentFinalized) (hready : Running ready)
    (hrun : (tryCatch (trySuppressLateResult collaborators modelExecution)
      (catchSubSession collaborators)).run ready = .ok outcome last) :
    SettledAt outcome last ∧ AnswerOf collaborators input handler start outcome := by
  rw [Effects.run_tryCatch] at hrun
  have hlate := trySuppressLateResult_answers collaborators modelExecution ready hready
  cases hresult : (trySuppressLateResult collaborators modelExecution).run ready with
  | ok answer final =>
    rw [hresult] at hrun hlate
    cases hrun
    exact ⟨settledAt_of_answeredAs rfl hlate,
      .suppressed result state hsettles hfinalized hlate.1 hlate.2.1⟩
  | error error final =>
    rw [hresult] at hrun hlate
    obtain ⟨hsettled, hreport, -, hkept⟩ :=
      catchSubSession_ok collaborators (inStore_of_statuses hlate) hrun
    exact ⟨hsettled, .suppressed result state hsettles hfinalized
      (hkept.mpr (congrArg Prod.fst hlate)) hreport⟩

end

/-- The `try` branch and the `catch` branch together. -/
theorem answer_of_execution (hstart : start.subSession.status = .queued)
    (hhandler : Steady (tryRunHandler collaborators handler)) (hreviews : ∀ result, ∃ review,
      (collaborators.runtime.reviewResultReport result).verdict = .ok review)
    (hrun : (tryCatch (tryExecuteSubSession collaborators input handler)
      (catchSubSession collaborators)).run start = .ok outcome last) :
    SettledAt outcome last ∧ AnswerOf collaborators input handler start outcome := by
  have hchild := childExecution_triple collaborators input hhandler start hstart
  rw [Effects.run_tryCatch, tryExecuteSubSession_eq, run_bind] at hrun
  cases hexecution : (childExecution collaborators input handler).run start with
  | error error state =>
    rw [hexecution] at hrun hchild
    refine unsettled_of_catch hchild (by decide) hrun fun result state hsettles => ?_
    obtain ⟨_, hreturned⟩ := hsettles.returned
    rw [hexecution] at hreturned
    cases hreturned
  | ok execution state =>
    obtain ⟨result, modelExecution⟩ := execution
    rw [hexecution] at hrun hchild
    dsimp only at hrun hchild
    obtain ⟨ready, hready⟩ : ∃ ready, ready = { state with
        lastModelExecution := some modelExecution
        subSession.modelExecutionSnapshot := some modelExecution } := ⟨_, rfl⟩
    have hrunning : Running ready := hready ▸ hchild
    have hsettle : (trySettleResult collaborators result modelExecution).run state =
        (if state.aborted then
          settleCancelledWith (tryChangeStatus collaborators) (trySinks collaborators)
            "sub_session_cancelled" "Sub-session execution was cancelled."
        else do
          throwIfSome (← callCollaborator collaborators)
          if state.parentFinalized then trySuppressLateResult collaborators modelExecution
          else tryIntegrateReviewed collaborators result modelExecution).run ready := by
      rw [hready]
      rfl
    rw [hsettle] at hrun
    cases haborted : state.aborted with
    | true =>
      have hunsettled : ∀ other found, ¬ Settles collaborators input handler start other found := by
        intro other found hsettles
        have hsame := (hsettles.unique hexecution).2 ▸ hsettles.notAborted
        rw [haborted] at hsame
        cases hsame
      have hcancel := trySettleCancelled_answers collaborators "sub_session_cancelled"
        "Sub-session execution was cancelled." ready hrunning
      rw [haborted, if_pos rfl] at hrun
      cases hresult : (settleCancelledWith (tryChangeStatus collaborators)
          (trySinks collaborators) "sub_session_cancelled"
          "Sub-session execution was cancelled." :
            FallibleRunner (SubSessionRunOutcome Outputs)).run ready with
      | ok answer final =>
        rw [hresult] at hrun hcancel
        cases hrun
        refine ⟨settledAt_of_answeredAs rfl hcancel, .unsettled hunsettled ?_ hcancel.2.1⟩
        rw [hcancel.1]
        decide
      | error error final =>
        rw [hresult] at hrun hcancel
        exact unsettled_of_catch hcancel (by decide) hrun hunsettled
    | false =>
      obtain ⟨asked, hasked⟩ : ∃ asked : FallibleState, asked = { ready with
          aborted := ready.aborted || (collaborators.call state.calls).parentAborts
          calls := ready.calls + 1 } := ⟨_, rfl⟩
      have hrunning : Running asked := hasked ▸ hrunning
      have hcall : (callCollaborator collaborators).run ready =
          .ok (collaborators.call state.calls).thrown asked := by
        rw [hasked, hready]
        rfl
      rw [haborted, if_neg Bool.false_ne_true, run_bind, hcall] at hrun
      dsimp only at hrun
      rw [run_bind] at hrun
      cases hthrown : (collaborators.call state.calls).thrown with
      | some error =>
        rw [hthrown] at hrun
        refine unsettled_of_catch hrunning (by decide) hrun fun other found hsettles => ?_
        have hsame := (hsettles.unique hexecution).2 ▸ hsettles.asked
        rw [hthrown] at hsame
        cases hsame
      | none =>
        have hsettles : Settles collaborators input handler start result state :=
          ⟨⟨_, hexecution⟩, haborted, hthrown⟩
        have hasks : (throwIfSome none).run asked = .ok () asked := rfl
        rw [hthrown, hasks] at hrun
        cases hfinalized : state.parentFinalized with
        | true =>
          rw [hfinalized, if_pos rfl] at hrun
          exact suppressed_answer hsettles hfinalized hrunning
            ((Effects.run_tryCatch _ _ _).trans hrun)
        | false =>
          rw [hfinalized, if_neg Bool.false_ne_true] at hrun
          obtain ⟨review, hverdict⟩ := hreviews result
          exact reviewed_answer hsettles hfinalized hverdict hrunning
            ((Effects.run_tryCatch _ _ _).trans hrun)

end TryBranch

/-! ## Whole runs -/

section Runs

variable (collaborators : Collaborators Outputs) (input : RunSubSessionInput)

/-- A sub-session with this status is stored under the key, and it is answered for. -/
def Replays (status : SubSessionStatus) : Prop :=
  refusal input = none ∧ ∃ existing,
    (collaborators.runtime.loadSubSessionByIdempotencyKey input.command.idempotencyKey).filter
      (isReplayableStatus ·.status) = some existing ∧ existing.status = status

/-- The sub-session is created and started, and the handler's result gets as far as being
settled, with the parent finalized by then or not. -/
structure Delivers (handler : HandlerRun Outputs) (result : ResultReport Outputs)
    (finalized : Bool) : Prop where
  created : ¬ Declines collaborators input
  stored : collaborators.createdHook = none
  started : (collaborators.runtime.parentAborted || collaborators.runtime.isParentCancelled) = false
  settles : ∃ state, Settles collaborators input handler (queuedState collaborators input)
    result state ∧ state.parentFinalized = finalized

/-- The runner's answer will be completed. -/
def AnswersCompleted (handler : HandlerRun Outputs) : Prop :=
  Replays collaborators input .completed ∨ ∃ result finalized,
    Delivers collaborators input handler result finalized ∧
      (finalized ∨ ∃ review,
        (collaborators.runtime.reviewResultReport result).verdict = .ok review ∧
          review.status = .completed)

/-- What an answer of the runner tells. -/
structure Tells (handler : HandlerRun Outputs) (outcome : SubSessionRunOutcome Outputs) : Prop where
  completed : outcome.status = .completed ↔ AnswersCompleted collaborators input handler
  reported : ∀ report, outcome.resultReport = some report →
    Delivers collaborators input handler report false
  returned : ∀ result review, Delivers collaborators input handler result false →
    (collaborators.runtime.reviewResultReport result).verdict = .ok review →
      review.status = .needsRevision → outcome.resultReport = some result

variable {collaborators input} {handler : HandlerRun Outputs}

theorem Delivers.unique {finalized found : Bool}
    (h : Delivers collaborators input handler result finalized)
    (hother : Delivers collaborators input handler other found) :
    other = result ∧ found = finalized := by
  obtain ⟨state, hsettles, rfl⟩ := h.settles
  obtain ⟨state', hsettles', rfl⟩ := hother.settles
  obtain ⟨_, hreturned⟩ := hsettles.returned
  obtain ⟨rfl, rfl⟩ := hsettles'.unique hreturned
  exact ⟨rfl, rfl⟩

/-- An answer for a sub-session that was not executed. -/
theorem tells_of_not_delivered
    (hnone : ∀ result finalized, ¬ Delivers collaborators input handler result finalized)
    (hcompleted : outcome.status = .completed ↔ Replays collaborators input .completed)
    (hreport : outcome.resultReport = none) : Tells collaborators input handler outcome := by
  refine ⟨?_, ?_, ?_⟩
  · rw [hcompleted, AnswersCompleted]
    constructor
    · exact .inl
    · rintro (h | ⟨result, finalized, hdelivers, -⟩)
      · exact h
      · exact absurd hdelivers (hnone result finalized)
  · intro report hsome
    rw [hreport] at hsome
    cases hsome
  · exact fun result _ hdelivers => absurd hdelivers (hnone result false)

theorem not_replays_of_creates (hcreates : ¬ Declines collaborators input)
    (status : SubSessionStatus) : ¬ Replays collaborators input status := by
  rintro ⟨-, existing, hexisting, -⟩
  exact hcreates (.inr (by rw [hexisting]; rfl))

/-- What the answer of an executed sub-session tells. -/
theorem AnswerOf.tells
    (h : AnswerOf collaborators input handler (queuedState collaborators input) outcome)
    (hcreates : ¬ Declines collaborators input) (hstored : collaborators.createdHook = none)
    (hstarts : (collaborators.runtime.parentAborted || collaborators.runtime.isParentCancelled) =
      false) : Tells collaborators input handler outcome := by
  have hdelivered {result : ResultReport Outputs} {state : FallibleState}
      (hsettles : Settles collaborators input handler (queuedState collaborators input) result
        state) : Delivers collaborators input handler result state.parentFinalized :=
    ⟨hcreates, hstored, hstarts, state, hsettles, rfl⟩
  cases h with
  | suppressed result state hsettles hfinalized hcompleted hunreported =>
    have hdelivers := hfinalized ▸ hdelivered hsettles
    refine ⟨iff_of_true hcompleted (.inr ⟨result, true, hdelivers, .inl rfl⟩), ?_, ?_⟩
    · intro report hsome
      rw [hunreported] at hsome
      cases hsome
    · intro other _ hother
      cases (hdelivers.unique hother).2
  | reviewed result state review hsettles hnot hverdict hcompleted hreported hreturned =>
    have hdelivers := hnot ▸ hdelivered hsettles
    refine ⟨?_, ?_, ?_⟩
    · rw [hcompleted]
      constructor
      · exact fun haccepted => .inr ⟨result, false, hdelivers, .inr ⟨review, hverdict, haccepted⟩⟩
      · rintro (h | ⟨other, found, hother, h⟩)
        · exact absurd h (not_replays_of_creates hcreates _)
        · obtain ⟨rfl, rfl⟩ := hdelivers.unique hother
          rcases h with h | ⟨verdict, hfound, haccepted⟩
          · cases h
          · rw [hverdict] at hfound
            exact Except.ok.inj hfound ▸ haccepted
    · exact fun report hsome => hreported report hsome ▸ hdelivers
    · intro other verdict hother hfound hneeds
      obtain ⟨rfl, -⟩ := hdelivers.unique hother
      rw [hverdict] at hfound
      exact hreturned (Except.ok.inj hfound ▸ hneeds)
  | unsettled hunsettled hopen hunreported =>
    refine tells_of_not_delivered ?_ ?_ hunreported
    · rintro result _ ⟨-, -, -, state, hsettles, -⟩
      exact hunsettled result state hsettles
    · exact iff_of_false hopen (not_replays_of_creates hcreates _)

/-- The answer of a run in which the handler does not move the status and every review
returns. -/
theorem answer_tells (hhandler : Steady (tryRunHandler collaborators handler))
    (hreviews : ∀ result, ∃ review,
      (collaborators.runtime.reviewResultReport result).verdict = .ok review)
    (hrun : (runFallibleSubSession collaborators input handler).run
      (initialFallibleState collaborators input) = .ok outcome last) :
    Resolves (.ok outcome last) ∧ Tells collaborators input handler outcome := by
  have hnone (hdeclines : Declines collaborators input) (result : ResultReport Outputs)
      (finalized : Bool) : ¬ Delivers collaborators input handler result finalized :=
    fun hdelivers => hdelivers.created hdeclines
  unfold runFallibleSubSession at hrun
  cases hrefusal : refusal input with
  | some refused =>
    have hdeclines : Declines collaborators input := .inl (by rw [hrefusal]; rfl)
    have hanswer : outcome.status = .failed ∧ outcome.resultReport = none ∧
        lastStored last.records = none := by
      rw [hrefusal] at hrun
      obtain ⟨errorReport, label, ledgerSummary⟩ := refused
      cases ledgerSummary with
      | none =>
        cases hrun
        exact ⟨rfl, rfl, rfl⟩
      | some summary =>
        cases hhook : collaborators.refusalHook with
        | none =>
          rw [hhook] at hrun
          cases hrun
          exact ⟨rfl, rfl, rfl⟩
        | some error =>
          rw [hhook] at hrun
          cases hrun
    obtain ⟨hstatus, hreport, hstored⟩ := hanswer
    refine ⟨resolves_of_nothing_stored (by rw [hstatus]; rfl) hstored,
      tells_of_not_delivered (hnone hdeclines) ?_ hreport⟩
    rw [hstatus]
    refine iff_of_false (by decide) ?_
    rintro ⟨hsome, -⟩
    rw [hrefusal] at hsome
    cases hsome
  | none =>
    rw [hrefusal] at hrun
    cases hstored : (collaborators.runtime.loadSubSessionByIdempotencyKey
        input.command.idempotencyKey).filter (isReplayableStatus ·.status) with
    | some existing =>
      have hdeclines : Declines collaborators input := .inr (by rw [hstored]; rfl)
      have hterminal : isReplayableStatus existing.status :=
        (Option.filter_eq_some_iff.mp hstored).2
      rw [hstored] at hrun
      cases hrun
      refine ⟨resolves_of_nothing_stored hterminal rfl,
        tells_of_not_delivered (hnone hdeclines) ?_ rfl⟩
      constructor
      · exact fun hcompleted => ⟨hrefusal, existing, hstored, hcompleted⟩
      · rintro ⟨-, found, hfound, hcompleted⟩
        rw [hstored] at hfound
        cases hfound
        exact hcompleted
    | none =>
      have hcreates : ¬ Declines collaborators input := by
        rintro (h | h)
        · rw [hrefusal] at h
          cases h
        · rw [hstored] at h
          cases h
      rw [hstored] at hrun
      rw [runStoredSubSession, run_bind] at hrun
      obtain ⟨hcreated, hqueue, hstatuses⟩ | ⟨-, error, failed, hqueue⟩ :=
        storeSubSession_run collaborators input
      · rw [hqueue] at hrun
        cases hstopped : (collaborators.runtime.parentAborted ||
            collaborators.runtime.isParentCancelled) with
        | true =>
          rw [hstopped, if_pos rfl] at hrun
          obtain ⟨-, hlast, hstatus, hreport⟩ := closingSettleCancelled_ok collaborators hrun
          refine ⟨SettledAt.resolves ⟨by rw [hstatus]; rfl, by rw [hstatus]; exact hlast⟩,
            tells_of_not_delivered ?_ ?_ hreport⟩
          · intro result finalized hdelivers
            have hstarted := hdelivers.started
            rw [hstopped] at hstarted
            cases hstarted
          · rw [hstatus]
            exact iff_of_false (by decide) (not_replays_of_creates hcreates _)
        | false =>
          rw [hstopped, if_neg Bool.false_ne_true] at hrun
          obtain ⟨hsettled, hanswer⟩ := answer_of_execution (congrArg Prod.fst hstatuses)
            hhandler hreviews hrun
          exact ⟨hsettled.resolves, hanswer.tells hcreates hcreated hstopped⟩
      · rw [hqueue] at hrun
        cases hrun

end Runs

end Nobie.Orchestration
