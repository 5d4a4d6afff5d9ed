/-
# Running a sub-session

A sub-session is a record with a status. The runner creates it, queues it, starts it,
lets a handler work on it and puts the handler's result before a review. The handler can
itself move the status through its progress calls, and the parent run can be cancelled or
finalized while the handler works. Statuses move along a fixed table, and an error on the
way ends in a branch of its own.
-/

import Mathlib.Data.List.Basic
import Nobie.Foundation.Effects
import Nobie.Foundation.Bytes

namespace Nobie.Orchestration

open Foundation Foundation.Effects

/-! ## Statuses -/

inductive SubSessionStatus
  | created | queued | running | waitingForInput | awaitingApproval | completed | needsRevision
  | failed | cancelled
  deriving DecidableEq

namespace SubSessionStatus

def text : SubSessionStatus → String
  | .created => "created"
  | .queued => "queued"
  | .running => "running"
  | .waitingForInput => "waiting_for_input"
  | .awaitingApproval => "awaiting_approval"
  | .completed => "completed"
  | .needsRevision => "needs_revision"
  | .failed => "failed"
  | .cancelled => "cancelled"

end SubSessionStatus

/-- `SUB_SESSION_STATUS_TRANSITIONS`. -/
def subSessionStatusTransitions : SubSessionStatus → List SubSessionStatus
  | .created => [.queued, .failed, .cancelled]
  | .queued => [.running, .failed, .cancelled]
  | .running =>
    [.waitingForInput, .awaitingApproval, .completed, .needsRevision, .failed, .cancelled]
  | .waitingForInput => [.running, .completed, .needsRevision, .failed, .cancelled]
  | .awaitingApproval => [.running, .completed, .needsRevision, .failed, .cancelled]
  | .completed | .needsRevision | .failed | .cancelled => []

variable (status : SubSessionStatus)

/-- `REPLAY_STATUSES`: the statuses with which a stored sub-session is not run again. -/
def isReplayableStatus : Bool := [.completed, .needsRevision, .failed, .cancelled].contains status

def canTransitionSubSessionStatus (source target : SubSessionStatus) : Bool :=
  source = target || (subSessionStatusTransitions source).contains target

/-- The terminal statuses are those nothing leads out of. -/
theorem isReplayableStatus_iff :
    isReplayableStatus status ↔
      ∀ target, canTransitionSubSessionStatus status target → target = status := by
  constructor
  · intro hterminal target hmoves
    cases status with
    | completed | needsRevision | failed | cancelled => cases target <;> first | rfl | cases hmoves
    | created | queued | running | waitingForInput | awaitingApproval => cases hterminal
  · intro hstays
    cases status with
    | completed | needsRevision | failed | cancelled => rfl
    | created | queued | running | waitingForInput | awaitingApproval =>
      cases hstays .failed rfl

/-! ## Errors -/

/-- What a handler or a review throws. `String(error ?? "model failed")` is the text of a
thrown value that is no `Error`. -/
inductive Thrown
  | error (name message : String) (code : Option String)
  | object (name code : Option String) (text : String)
  | value (text : String)

def isAbortLike : Thrown → Bool
  | .error name _ code => name == "AbortError" || code == some "ABORT_ERR"
  | .object name code _ => name == some "AbortError" || code == some "ABORT_ERR"
  | .value _ => false

def asErrorMessage : Thrown → String
  | .error _ message _ =>
    if jsTrim message ≠ "" then message else "sub-session execution failed"
  | .object _ _ _ | .value _ => "sub-session execution failed"

/-- `error instanceof Error ? error : new Error(String(error ?? "model failed"))`. -/
def asError : Thrown → Thrown
  | .error name message code => .error name message code
  | .object _ _ text | .value text => .error "Error" text none

def invalidSubSessionStatusTransitionError (source target : SubSessionStatus) : Thrown :=
  .error "InvalidSubSessionStatusTransitionError"
    s!"Invalid sub-session status transition: {source.text} -> {target.text}" none

/-! ## Records -/

/-- The models's side of an execution: who is called, and, in an audit, how it went. -/
structure ModelExecutionSnapshot where
  (providerId modelId : String)
  status : Option String

structure SubSessionContract where
  (subSessionId parentRunId : String)
  status : SubSessionStatus
  (startedAt finishedAt : Option ℕ)
  modelExecutionSnapshot : Option ModelExecutionSnapshot

/-- The verdict of the nested-command policy, the model policy and the prompt preflight on
the input, as the runner reads them before it creates anything. -/
structure ResolvedModelExecutionPolicy where
  blocked : Bool
  (reasonCode userMessage : String)
  snapshot : Option ModelExecutionSnapshot

structure ExpectedOutput where
  required : Bool

structure TopologyExecutorMetadata where
  systemPreparation : Option Bool
  executorId : Option String

structure CommandRequest where
  (commandRequestId subSessionId parentRunId idempotencyKey : String)
  expectedOutputs : List ExpectedOutput
  topologyExecutor : Option TopologyExecutorMetadata

structure RunSubSessionInput where
  command : CommandRequest
  (sender recipient : String)
  nestedReasonCodes : Option (List String)
  modelPolicy : ResolvedModelExecutionPolicy
  preflightIssueCodes : List String

structure ErrorReport where
  (reasonCode safeMessage : String)
  retryable : Bool

structure ResultReport (Outputs : Type) where
  resultReportId : String
  outputs : Outputs

inductive ReviewStatus
  | completed | needsRevision | failed
  deriving DecidableEq

def ReviewStatus.toSubSessionStatus : ReviewStatus → SubSessionStatus
  | .completed => .completed
  | .needsRevision => .needsRevision
  | .failed => .failed

structure SubAgentResultReview where
  status : ReviewStatus
  (verdict parentIntegrationStatus : String)
  normalizedFailureKey : Option String
  feedbackRequested : Bool

structure SubSessionRunOutcome (Outputs : Type) where
  subSession : SubSessionContract
  status : SubSessionStatus
  replayed : Bool
  resultReport : Option (ResultReport Outputs)
  errorReport : Option ErrorReport
  review : Option SubAgentResultReview
  (feedbackRequested integrationSuppressed : Bool)
  suppressionReasonCode : Option String
  modelExecution : Option ModelExecutionSnapshot

/-- What the runner writes outside: the parent's events, the stored sub-session, the
message ledger. -/
inductive RunnerRecord
  | parentEvent (parentRunId label : String)
  | stored (subSession : SubSessionContract)
  | ledger (eventKind status summary : String)

/-! ## What the runner meets -/

/-- What happens while the handler runs: it emits progress and learns whether that threw,
the parent run is cancelled or finalized meanwhile, and in the end it returns or throws. -/
inductive HandlerRun (Outputs : Type)
  | emitProgress (summary : String) (status : Option SubSessionStatus)
      (next : Option Thrown → HandlerRun Outputs)
  | parentAborts (next : HandlerRun Outputs)
  | parentFinalizes (next : HandlerRun Outputs)
  | returns (result : ResultReport Outputs)
  | throws (error : Thrown)

/-- What happens while a result is reviewed. -/
structure ReviewRun where
  parentAborts : Bool
  verdict : Except Thrown SubAgentResultReview

/-- The runner's dependencies. One run asks for one review, of the result the handler
returned, so the review is given as a function of the result. -/
structure SubSessionRuntime (Outputs : Type) where
  now : ℕ → ℕ
  loadSubSessionByIdempotencyKey : String → Option SubSessionContract
  persistSubSession : Bool
  reloadSubSessionByIdempotencyKey : String → Option SubSessionContract
  (parentAborted isParentCancelled parentFinalized : Bool)
  reviewResultReport : ResultReport Outputs → ReviewRun

/-- The state of one run: the sub-session in memory, the signals of the parent, how often
the clock was read, and what was written. -/
structure RunnerState where
  subSession : SubSessionContract
  (aborted parentFinalized : Bool)
  clockReadings : ℕ
  lastModelExecution : Option ModelExecutionSnapshot
  records : List RunnerRecord

abbrev Runner := EStateM Thrown RunnerState

/-! ## Steps of the runner -/

variable {Outputs : Type}

def record (entry : RunnerRecord) : Runner Unit :=
  modify fun state => { state with records := state.records ++ [entry] }

def appendParentEvent (label : SubSessionContract → String) : Runner Unit := do
  let state ← get
  record (.parentEvent state.subSession.parentRunId (label state.subSession))

variable (runtime : SubSessionRuntime Outputs) (input : RunSubSessionInput)
  (handler : HandlerRun Outputs)

def readClock : Runner ℕ :=
  modifyGet fun state =>
    (runtime.now state.clockReadings, { state with clockReadings := state.clockReadings + 1 })

def transitionSubSessionStatus (subSession : SubSessionContract) (status : SubSessionStatus)
    (now : ℕ) : Except Thrown SubSessionContract :=
  if canTransitionSubSessionStatus subSession.status status then
    .ok { subSession with
      status := status
      startedAt :=
        if status = .running ∧ subSession.startedAt = none then some now else subSession.startedAt
      finishedAt := if isReplayableStatus status then some now else subSession.finishedAt }
  else
    .error (invalidSubSessionStatusTransitionError subSession.status status)

def changeStatus (status : SubSessionStatus) : Runner Unit := do
  let now ← readClock runtime
  let state ← get
  match transitionSubSessionStatus state.subSession status now with
  | .error error => throw error
  | .ok subSession =>
    modify fun state => { state with subSession }
    record (.stored subSession)

/-- `controls.emitProgress`: a status other than the present one is a transition. -/
def emitProgress (summary : String) (status : Option SubSessionStatus) : Runner Unit := do
  let state ← get
  let target := status.getD state.subSession.status
  if target ≠ state.subSession.status then
    changeStatus runtime target
  appendParentEvent fun subSession => s!"sub_session_progress:{subSession.subSessionId}:{summary}"

def runHandler (runtime : SubSessionRuntime Outputs) :
    HandlerRun Outputs → Runner (ResultReport Outputs)
  | .emitProgress summary status next => do
    let thrown ← attempt (emitProgress runtime summary status)
    runHandler runtime (next thrown)
  | .parentAborts next => do
    modify fun state => { state with aborted := true }
    runHandler runtime next
  | .parentFinalizes next => do
    modify fun state => { state with parentFinalized := true }
    runHandler runtime next
  | .returns result => pure result
  | .throws error => throw error

def executeWithModelPolicy : Runner (ResultReport Outputs × ModelExecutionSnapshot) :=
  match input.modelPolicy.snapshot with
  | none => throw (.error "Error" input.modelPolicy.userMessage none)
  | some snapshot =>
    tryCatch
      (do
        let result ← runHandler runtime handler
        record (.ledger "sub_session_completed" "succeeded"
          s!"model_execution_completed:{snapshot.providerId}:{snapshot.modelId}")
        pure (result, { snapshot with status := some "completed" }))
      fun error => do
        let state ← get
        if state.aborted || isAbortLike error then
          throw error
        else
          modify fun state =>
            { state with
              subSession.modelExecutionSnapshot := some { snapshot with status := some "failed" } }
          throw (asError error)

/-! ## Outcomes -/

/-- An outcome with none of its optional parts. -/
def bareOutcome (subSession : SubSessionContract) (status : SubSessionStatus) :
    SubSessionRunOutcome Outputs where
  subSession := subSession
  status := status
  replayed := false
  resultReport := none
  errorReport := none
  review := none
  feedbackRequested := false
  integrationSuppressed := false
  suppressionReasonCode := none
  modelExecution := none

/-- The end of a sub-session that is cancelled, before its start or during its execution. -/
def settleCancelled (reasonCode safeMessage : String) : Runner (SubSessionRunOutcome Outputs) := do
  changeStatus runtime .cancelled
  appendParentEvent fun subSession => s!"sub_session_cancelled:{subSession.subSessionId}"
  record (.ledger "sub_session_failed" "degraded" safeMessage)
  let state ← get
  pure { bareOutcome state.subSession .cancelled with
    errorReport := some { reasonCode, safeMessage, retryable := false } }

def cancelBeforeStart : Runner (SubSessionRunOutcome Outputs) :=
  settleCancelled runtime "parent_run_cancelled"
    "Parent run was cancelled before the sub-session started."

def markCancelled (reasonCode : String) : Runner (SubSessionRunOutcome Outputs) :=
  settleCancelled runtime reasonCode "Sub-session execution was cancelled."

variable (result : ResultReport Outputs) (modelExecution : ModelExecutionSnapshot)

def reviewResultReport : Runner SubAgentResultReview := do
  let review := runtime.reviewResultReport result
  if review.parentAborts then
    modify fun state => { state with aborted := true }
  match review.verdict with
  | .ok verdict => pure verdict
  | .error error => throw error

/-- The branch for a result that arrives after the parent was finalized. -/
def suppressLateResult : Runner (SubSessionRunOutcome Outputs) := do
  changeStatus runtime .completed
  appendParentEvent fun subSession =>
    s!"sub_session_late_result_suppressed:{subSession.subSessionId}:parent_finalized"
  record (.ledger "sub_session_result_suppressed" "suppressed"
    "Parent finalizer was already committed; late sub-session result was not integrated.")
  let state ← get
  pure { bareOutcome state.subSession state.subSession.status with
    integrationSuppressed := true
    suppressionReasonCode := some "parent_finalized"
    modelExecution := some modelExecution }

/-- The branch that puts the result before the review and takes the review's status. -/
def integrateReviewed : Runner (SubSessionRunOutcome Outputs) := do
  let review ← reviewResultReport runtime result
  let terminalStatus := review.status.toSubSessionStatus
  changeStatus runtime terminalStatus
  appendParentEvent fun subSession =>
    s!"sub_session_review_verdict:{subSession.subSessionId}:{review.verdict}:" ++
      review.parentIntegrationStatus
  appendParentEvent fun subSession =>
    s!"sub_session_result:{subSession.subSessionId}:{terminalStatus.text}"
  record (.ledger
    (if terminalStatus = .failed then "sub_session_failed" else "sub_session_completed")
    (if terminalStatus = .failed then "failed" else "succeeded")
    s!"서브 세션 결과를 parent review로 회수했습니다: {terminalStatus.text}")
  record (.ledger "sub_session_result_suppressed" "suppressed"
    "서브 세션 결과 직접 전달을 차단하고 parent final answer 합성 대상으로 보관했습니다.")
  appendParentEvent fun subSession =>
    s!"sub_session_result_suppressed:{subSession.subSessionId}:{result.resultReportId}"
  if review.feedbackRequested then
    appendParentEvent fun subSession =>
      s!"sub_session_feedback_requested:{subSession.subSessionId}:" ++
        review.normalizedFailureKey.getD "unknown"
  let state ← get
  let outcome : SubSessionRunOutcome Outputs := bareOutcome state.subSession state.subSession.status
  pure { outcome with
    resultReport := some result
    review := some review
    feedbackRequested := review.feedbackRequested
    modelExecution := some modelExecution }

/-- What the runner does with a returned result. -/
def settleResult : Runner (SubSessionRunOutcome Outputs) := do
  modify fun state =>
    { state with
      lastModelExecution := some modelExecution
      subSession.modelExecutionSnapshot := some modelExecution }
  let state ← get
  if state.aborted then
    markCancelled runtime "sub_session_cancelled"
  else if state.parentFinalized then
    suppressLateResult runtime modelExecution
  else
    integrateReviewed runtime result modelExecution

/-- The `try` branch of `runSubSession`. -/
def executeSubSession : Runner (SubSessionRunOutcome Outputs) := do
  changeStatus runtime .running
  appendParentEvent fun subSession => s!"sub_session_started:{subSession.subSessionId}"
  let execution ← executeWithModelPolicy runtime input handler
  settleResult runtime execution.1 execution.2

/-- The `catch` branch of `runSubSession`. -/
def recoverSubSession (error : Thrown) : Runner (SubSessionRunOutcome Outputs) := do
  let state ← get
  if state.aborted || isAbortLike error then
    markCancelled runtime "sub_session_cancelled"
  else
    let errorReport : ErrorReport :=
      { reasonCode := "sub_session_handler_error"
        safeMessage := asErrorMessage error
        retryable := true }
    let failedModelExecution := state.lastModelExecution <|>
      state.subSession.modelExecutionSnapshot.filter (·.status.isSome)
    if state.subSession.status = .completed ∨ state.subSession.status = .failed ∨
        state.subSession.status = .cancelled then
      appendParentEvent fun subSession =>
        s!"sub_session_post_terminal_error:{subSession.subSessionId}:{errorReport.reasonCode}"
      pure { bareOutcome state.subSession state.subSession.status with
        errorReport := some errorReport
        modelExecution := failedModelExecution }
    else
      changeStatus runtime .failed
      appendParentEvent fun subSession =>
        s!"sub_session_failed:{subSession.subSessionId}:{errorReport.reasonCode}"
      record (.ledger "sub_session_failed" "failed" errorReport.safeMessage)
      let failed ← get
      pure { bareOutcome failed.subSession .failed with
        errorReport := some errorReport
        modelExecution := failedModelExecution }

/-! ## The whole run -/

def validateVisibleTopologySubSessionCommand (command : CommandRequest) : Option String :=
  match command.topologyExecutor with
  | none => none
  | some metadata =>
    if metadata.systemPreparation = some true then
      if command.expectedOutputs.any (·.required) then
        some "system_preparation_user_result_blocked"
      else
        none
    else if (metadata.executorId.map jsTrim).getD "" = "" then
      some "topology_executor_id_required"
    else
      none

/-- A refusal before anything is created: the error it reports, the event it appends, and
what it writes to the ledger. -/
structure Refusal where
  errorReport : ErrorReport
  label : SubSessionContract → String
  ledgerSummary : Option String

/-- Why the runner refuses an input, if it does. -/
def refusal : Option Refusal :=
  match input.nestedReasonCodes with
  | some reasonCodes =>
    some
      { errorReport :=
          { reasonCode := reasonCodes.head?.getD "nested_command_invalid"
            safeMessage := "Nested sub-session command is invalid: " ++
              String.intercalate ", " reasonCodes
            retryable := false }
        label := fun subSession =>
          s!"sub_session_blocked_by_nested_policy:{subSession.subSessionId}:" ++
            String.intercalate "+" reasonCodes
        ledgerSummary := none }
  | none =>
    match validateVisibleTopologySubSessionCommand input.command with
    | some reasonCode =>
      some
        { errorReport :=
            { reasonCode
              safeMessage := s!"Topology executor sub-session is blocked: {reasonCode}"
              retryable := false }
          label := fun subSession =>
            s!"sub_session_blocked_by_topology_visibility:{subSession.subSessionId}:" ++ reasonCode
          ledgerSummary := none }
    | none =>
      if input.modelPolicy.blocked then
        some
          { errorReport :=
              { reasonCode := input.modelPolicy.reasonCode
                safeMessage := input.modelPolicy.userMessage
                retryable := false }
            label := fun subSession =>
              s!"sub_session_model_blocked:{subSession.subSessionId}:" ++
                input.modelPolicy.reasonCode
            ledgerSummary := some input.modelPolicy.userMessage }
      else if input.preflightIssueCodes ≠ [] then
        some
          { errorReport :=
              { reasonCode := "prompt_bundle_preflight_failed"
                safeMessage := "Prompt bundle preflight failed: " ++
                  String.intercalate ", " input.preflightIssueCodes
                retryable := false }
            label := fun subSession =>
              s!"sub_session_blocked_by_prompt_preflight:{subSession.subSessionId}:" ++
                String.intercalate "+" input.preflightIssueCodes
            ledgerSummary := none }
      else
        none

def refuseSubSession (refused : Refusal) : Runner (SubSessionRunOutcome Outputs) := do
  modify fun state => { state with subSession.status := .failed }
  appendParentEvent refused.label
  if let some summary := refused.ledgerSummary then
    record (.ledger "sub_session_failed" "failed" summary)
  let state ← get
  pure { bareOutcome state.subSession .failed with errorReport := some refused.errorReport }

/-- The answer for a sub-session that is stored already. -/
def replayOutcome (existing : SubSessionContract) : Runner (SubSessionRunOutcome Outputs) := do
  record (.parentEvent existing.parentRunId
    s!"sub_session_replay:{existing.subSessionId}:{existing.status.text}")
  pure { bareOutcome existing existing.status with replayed := true }

/-- What the runner writes of a new sub-session until it is queued. -/
def queueSubSession : Runner Unit := do
  appendParentEvent fun subSession => s!"sub_session_created:{subSession.subSessionId}"
  appendParentEvent fun subSession =>
    s!"sub_session_handoff:{subSession.subSessionId}:{input.sender}->{input.recipient}:" ++
      input.command.commandRequestId
  record (.ledger "sub_session_created" "started" "서브 세션을 생성했습니다.")
  changeStatus runtime .queued
  appendParentEvent fun subSession => s!"sub_session_queued:{subSession.subSessionId}"
  if let some snapshot := input.modelPolicy.snapshot then
    appendParentEvent fun subSession =>
      s!"sub_session_model_resolved:{subSession.subSessionId}:{snapshot.providerId}:" ++
        s!"{snapshot.modelId}:{input.modelPolicy.reasonCode}"

/-- The run from the creation of the sub-session on. -/
def startSubSession : Runner (SubSessionRunOutcome Outputs) := do
  queueSubSession runtime input
  if runtime.parentAborted || runtime.isParentCancelled then
    cancelBeforeStart runtime
  else
    tryCatch (executeSubSession runtime input handler) (recoverSubSession runtime)

def runSubSession : Runner (SubSessionRunOutcome Outputs) :=
  match refusal input with
  | some refused => refuseSubSession refused
  | none =>
    match (runtime.loadSubSessionByIdempotencyKey input.command.idempotencyKey).filter
        (isReplayableStatus ·.status) with
    | some existing => replayOutcome existing
    | none =>
      if runtime.persistSubSession then
        startSubSession runtime input handler
      else
        match runtime.reloadSubSessionByIdempotencyKey input.command.idempotencyKey with
        | some replayed => replayOutcome replayed
        | none => startSubSession runtime input handler

def buildSubSessionContract : SubSessionContract where
  subSessionId := input.command.subSessionId
  parentRunId := input.command.parentRunId
  status := .created
  startedAt := none
  finishedAt := none
  modelExecutionSnapshot := input.modelPolicy.snapshot

/-- The state in which a run begins. -/
def initialState : RunnerState where
  subSession := buildSubSessionContract input
  aborted := false
  parentFinalized := runtime.parentFinalized
  clockReadings := 0
  lastModelExecution := none
  records := []

end Nobie.Orchestration
