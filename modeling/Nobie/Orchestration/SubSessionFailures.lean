/-
# Sub-sessions among collaborators that fail

The parent's event log, the ledger hook, the progress aggregator and the aggregation of
results are handed to the runner from outside. In the `try` branch any call of them may
throw, and the parent may abort while a call is under way. The runner has a branch for
errors that come after the sub-session has been settled. That branch knows three of the
four terminal statuses, and it asks first whether the parent has aborted.
-/

import Nobie.Orchestration.SubSessionRun

namespace Nobie.Orchestration

open Foundation Foundation.Effects

variable {Outputs : Type}

/-! ## What the collaborators do -/

/-- One call of a collaborator: the parent may abort while it is under way, and it may throw. -/
structure CollaboratorCall where
  parentAborts : Bool
  thrown : Option Thrown

/-- The collaborators of one run. Outside the `try` branch the event log takes every event,
and the ledger hook is called at most once for each purpose. -/
structure Collaborators (Outputs : Type) where
  runtime : SubSessionRuntime Outputs
  /-- The calls made in the `try` branch, in their order. -/
  call : ℕ → CollaboratorCall
  /-- The aggregator's answers in the `try` branch: is there a batch to publish? -/
  batch : ℕ → Bool
  (refusalHook createdHook : Option Thrown)
  /-- The last batch outside the `try` branch, with what the ledger hook does with it. -/
  closingBatch : Option (Option Thrown)
  closingHook : Option Thrown

/-- The state of a run with the number of calls and aggregator requests made so far. -/
structure FallibleState extends RunnerState where
  (calls batches : ℕ)

abbrev FallibleRunner := EStateM Thrown FallibleState

/-- A step that no collaborator takes part in. -/
def within {A : Type} (effect : Runner A) : FallibleRunner A := fun state =>
  match effect.run state.toRunnerState with
  | .ok value last => .ok value { state with toRunnerState := last }
  | .error error last => .error error { state with toRunnerState := last }

def throwIfSome : Option Thrown → FallibleRunner Unit
  | none => pure ()
  | some error => throw error

/-! ## The branch that may fail -/

section TryBranch

variable (collaborators : Collaborators Outputs)

/-- A call of a collaborator, and what it throws if it does. -/
def callCollaborator : FallibleRunner (Option Thrown) := do
  let state ← get
  let call := collaborators.call state.calls
  modify fun state =>
    { state with aborted := state.aborted || call.parentAborts, calls := state.calls + 1 }
  pure call.thrown

/-- The sinks that a step of the runner writes to. -/
structure Sinks where
  appendParentEvent : (SubSessionContract → String) → FallibleRunner Unit
  recordLedgerEvent : String → String → String → FallibleRunner Unit
  flushProgressBatch : FallibleRunner Unit

def tryAppendParentEvent (label : SubSessionContract → String) : FallibleRunner Unit := do
  throwIfSome (← callCollaborator collaborators)
  within (appendParentEvent label)

def tryRecordLedgerEvent (eventKind status summary : String) : FallibleRunner Unit := do
  throwIfSome (← callCollaborator collaborators)
  within (record (.ledger eventKind status summary))

/-- A batch of the aggregator, if it has one, is put into the event log and the ledger. -/
def tryPublishProgressBatch : FallibleRunner Unit := do
  let state ← get
  modify fun state => { state with batches := state.batches + 1 }
  if collaborators.batch state.batches then
    tryAppendParentEvent collaborators fun _ => "sub_session_progress_summary"
    tryRecordLedgerEvent collaborators "sub_session_progress_summarized" "delivered"
      "sub_session_progress_summary"

def trySinks : Sinks where
  appendParentEvent := tryAppendParentEvent collaborators
  recordLedgerEvent := tryRecordLedgerEvent collaborators
  flushProgressBatch := tryPublishProgressBatch collaborators

/-- The store accepts every write, and the parent may abort meanwhile. -/
def tryChangeStatus (status : SubSessionStatus) : FallibleRunner Unit := do
  within (changeStatus collaborators.runtime status)
  let _ ← callCollaborator collaborators

def tryEmitProgress (summary : String) (status : Option SubSessionStatus) :
    FallibleRunner Unit := do
  let state ← get
  let target := status.getD state.subSession.status
  if target ≠ state.subSession.status then
    tryChangeStatus collaborators target
  tryAppendParentEvent collaborators fun subSession =>
    s!"sub_session_progress:{subSession.subSessionId}:{summary}"
  tryPublishProgressBatch collaborators

def tryRunHandler : HandlerRun Outputs → FallibleRunner (ResultReport Outputs)
  | .emitProgress summary status next => do
    let thrown ← attempt (tryEmitProgress collaborators summary status)
    tryRunHandler (next thrown)
  | .parentAborts next => do
    modify fun state => { state with aborted := true }
    tryRunHandler next
  | .parentFinalizes next => do
    modify fun state => { state with parentFinalized := true }
    tryRunHandler next
  | .returns result => pure result
  | .throws error => throw error

def tryExecuteWithModelPolicy (input : RunSubSessionInput) (handler : HandlerRun Outputs) :
    FallibleRunner (ResultReport Outputs × ModelExecutionSnapshot) :=
  match input.modelPolicy.snapshot with
  | none => throw (.error "Error" input.modelPolicy.userMessage none)
  | some snapshot =>
    tryCatch
      (do
        let result ← tryRunHandler collaborators handler
        tryRecordLedgerEvent collaborators "sub_session_completed" "succeeded"
          s!"model_execution_completed:{snapshot.providerId}:{snapshot.modelId}"
        pure (result, { snapshot with status := some "completed" }))
      fun error => do
        let state ← get
        if state.aborted || isAbortLike error then
          throw error
        else
          modify fun state =>
            { state with
              subSession.modelExecutionSnapshot := some { snapshot with status := some "failed" } }
          throw (asError error)

/-- Cancelling a sub-session, with the sinks of the branch that does it. -/
def settleCancelledWith (change : SubSessionStatus → FallibleRunner Unit) (sinks : Sinks)
    (reasonCode safeMessage : String) : FallibleRunner (SubSessionRunOutcome Outputs) := do
  change .cancelled
  sinks.flushProgressBatch
  sinks.appendParentEvent fun subSession => s!"sub_session_cancelled:{subSession.subSessionId}"
  sinks.recordLedgerEvent "sub_session_failed" "degraded" safeMessage
  let state ← get
  pure { bareOutcome state.subSession .cancelled with
    errorReport := some { reasonCode, safeMessage, retryable := false } }

def trySuppressLateResult (modelExecution : ModelExecutionSnapshot) :
    FallibleRunner (SubSessionRunOutcome Outputs) := do
  tryChangeStatus collaborators .completed
  tryPublishProgressBatch collaborators
  tryAppendParentEvent collaborators fun subSession =>
    s!"sub_session_late_result_suppressed:{subSession.subSessionId}:parent_finalized"
  tryRecordLedgerEvent collaborators "sub_session_result_suppressed" "suppressed"
    "Parent finalizer was already committed; late sub-session result was not integrated."
  let state ← get
  pure { bareOutcome state.subSession state.subSession.status with
    integrationSuppressed := true
    suppressionReasonCode := some "parent_finalized"
    modelExecution := some modelExecution }

/-- `AggregateChildResult`: four calls, of which any may throw. The aggregation itself is
counted with the call before it. -/
def tryAggregateChildResult : FallibleRunner Unit := do
  throwIfSome (← callCollaborator collaborators)
  throwIfSome (← callCollaborator collaborators)
  throwIfSome (← callCollaborator collaborators)
  throwIfSome (← callCollaborator collaborators)

def tryIntegrateReviewed (result : ResultReport Outputs)
    (modelExecution : ModelExecutionSnapshot) : FallibleRunner (SubSessionRunOutcome Outputs) := do
  let review ← within (reviewResultReport collaborators.runtime result)
  let terminalStatus := review.status.toSubSessionStatus
  tryChangeStatus collaborators terminalStatus
  tryPublishProgressBatch collaborators
  tryAppendParentEvent collaborators fun subSession =>
    s!"sub_session_review_verdict:{subSession.subSessionId}:{review.verdict}:" ++
      review.parentIntegrationStatus
  tryAggregateChildResult collaborators
  tryAppendParentEvent collaborators fun subSession =>
    s!"sub_session_result:{subSession.subSessionId}:{terminalStatus.text}"
  tryRecordLedgerEvent collaborators
    (if terminalStatus = .failed then "sub_session_failed" else "sub_session_completed")
    (if terminalStatus = .failed then "failed" else "succeeded")
    s!"서브 세션 결과를 parent review로 회수했습니다: {terminalStatus.text}"
  tryRecordLedgerEvent collaborators "sub_session_result_suppressed" "suppressed"
    "서브 세션 결과 직접 전달을 차단하고 parent final answer 합성 대상으로 보관했습니다."
  tryAppendParentEvent collaborators fun subSession =>
    s!"sub_session_result_suppressed:{subSession.subSessionId}:{result.resultReportId}"
  if review.feedbackRequested then
    tryAppendParentEvent collaborators fun subSession =>
      s!"sub_session_feedback_requested:{subSession.subSessionId}:" ++
        review.normalizedFailureKey.getD "unknown"
  let state ← get
  let outcome : SubSessionRunOutcome Outputs := bareOutcome state.subSession state.subSession.status
  pure { outcome with
    resultReport := some result
    review := some review
    feedbackRequested := review.feedbackRequested
    modelExecution := some modelExecution }

def trySettleResult (result : ResultReport Outputs) (modelExecution : ModelExecutionSnapshot) :
    FallibleRunner (SubSessionRunOutcome Outputs) := do
  modify fun state =>
    { state with
      lastModelExecution := some modelExecution
      subSession.modelExecutionSnapshot := some modelExecution }
  let state ← get
  if state.aborted then
    settleCancelledWith (tryChangeStatus collaborators) (trySinks collaborators)
      "sub_session_cancelled" "Sub-session execution was cancelled."
  else
    -- `isParentFinalized`
    throwIfSome (← callCollaborator collaborators)
    if state.parentFinalized then
      trySuppressLateResult collaborators modelExecution
    else
      tryIntegrateReviewed collaborators result modelExecution

/-- The `try` branch of `runSubSession`. -/
def tryExecuteSubSession (input : RunSubSessionInput) (handler : HandlerRun Outputs) :
    FallibleRunner (SubSessionRunOutcome Outputs) := do
  tryChangeStatus collaborators .running
  tryAppendParentEvent collaborators fun subSession =>
    s!"sub_session_started:{subSession.subSessionId}"
  let execution ← tryExecuteWithModelPolicy collaborators input handler
  trySettleResult collaborators execution.1 execution.2

end TryBranch

/-! ## The run around it -/

section Run

variable (collaborators : Collaborators Outputs)

/-- The sinks outside the `try` branch. -/
def closingSinks : Sinks where
  appendParentEvent label := within (appendParentEvent label)
  recordLedgerEvent eventKind status summary := do
    throwIfSome collaborators.closingHook
    within (record (.ledger eventKind status summary))
  flushProgressBatch := do
    if let some hook := collaborators.closingBatch then
      within (appendParentEvent fun _ => "sub_session_progress_summary")
      throwIfSome hook
      within (record (.ledger "sub_session_progress_summarized" "delivered"
        "sub_session_progress_summary"))

def closingSettleCancelled (reasonCode safeMessage : String) :
    FallibleRunner (SubSessionRunOutcome Outputs) :=
  settleCancelledWith (fun status => within (changeStatus collaborators.runtime status))
    (closingSinks collaborators) reasonCode safeMessage

/-- The `catch` branch of `runSubSession`. -/
def catchSubSession (error : Thrown) : FallibleRunner (SubSessionRunOutcome Outputs) := do
  let state ← get
  if state.aborted || isAbortLike error then
    closingSettleCancelled collaborators "sub_session_cancelled"
      "Sub-session execution was cancelled."
  else
    let errorReport : ErrorReport :=
      { reasonCode := "sub_session_handler_error"
        safeMessage := asErrorMessage error
        retryable := true }
    let failedModelExecution := state.lastModelExecution <|>
      state.subSession.modelExecutionSnapshot.filter (·.status.isSome)
    if state.subSession.status = .completed ∨ state.subSession.status = .failed ∨
        state.subSession.status = .cancelled then
      within (appendParentEvent fun subSession =>
        s!"sub_session_post_terminal_error:{subSession.subSessionId}:{errorReport.reasonCode}")
      pure { bareOutcome state.subSession state.subSession.status with
        errorReport := some errorReport
        modelExecution := failedModelExecution }
    else
      within (changeStatus collaborators.runtime .failed)
      (closingSinks collaborators).flushProgressBatch
      (closingSinks collaborators).appendParentEvent fun subSession =>
        s!"sub_session_failed:{subSession.subSessionId}:{errorReport.reasonCode}"
      (closingSinks collaborators).recordLedgerEvent "sub_session_failed" "failed"
        errorReport.safeMessage
      let failed ← get
      pure { bareOutcome failed.subSession .failed with
        errorReport := some errorReport
        modelExecution := failedModelExecution }

variable (input : RunSubSessionInput)

/-- What is written of a sub-session from its first storing until it is queued. -/
def storeSubSession : FallibleRunner Unit := do
  let state ← get
  within (record (.stored state.subSession))
  within (appendParentEvent fun subSession => s!"sub_session_created:{subSession.subSessionId}")
  within (appendParentEvent fun subSession =>
    s!"sub_session_handoff:{subSession.subSessionId}:{input.sender}->{input.recipient}:" ++
      input.command.commandRequestId)
  throwIfSome collaborators.createdHook
  within (record (.ledger "sub_session_created" "started" "서브 세션을 생성했습니다."))
  within (changeStatus collaborators.runtime .queued)
  within (appendParentEvent fun subSession => s!"sub_session_queued:{subSession.subSessionId}")
  if let some snapshot := input.modelPolicy.snapshot then
    within (appendParentEvent fun subSession =>
      s!"sub_session_model_resolved:{subSession.subSessionId}:{snapshot.providerId}:" ++
        s!"{snapshot.modelId}:{input.modelPolicy.reasonCode}")

/-- The run from the first storing of the sub-session on. -/
def runStoredSubSession (handler : HandlerRun Outputs) :
    FallibleRunner (SubSessionRunOutcome Outputs) := do
  storeSubSession collaborators input
  if collaborators.runtime.parentAborted || collaborators.runtime.isParentCancelled then
    closingSettleCancelled collaborators "parent_run_cancelled"
      "Parent run was cancelled before the sub-session started."
  else
    tryCatch (tryExecuteSubSession collaborators input handler) (catchSubSession collaborators)

/-- `runSubSession`, where the store takes what it is given. -/
def runFallibleSubSession (handler : HandlerRun Outputs) :
    FallibleRunner (SubSessionRunOutcome Outputs) :=
  match refusal input with
  | some refused => do
    let outcome ← within (refuseSubSession refused)
    if refused.ledgerSummary.isSome then
      throwIfSome collaborators.refusalHook
    pure outcome
  | none =>
    match (collaborators.runtime.loadSubSessionByIdempotencyKey
        input.command.idempotencyKey).filter (isReplayableStatus ·.status) with
    | some existing => within (replayOutcome existing)
    | none => runStoredSubSession collaborators input handler

def initialFallibleState : FallibleState where
  toRunnerState := initialState collaborators.runtime input
  calls := 0
  batches := 0

end Run

end Nobie.Orchestration
