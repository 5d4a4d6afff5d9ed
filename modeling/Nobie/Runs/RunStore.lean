/-
# The run store

The table of root runs with the columns that its writers read and write: the status, the
summary, the current step and the steps of each run. `updateRunStatus` asks the transition
table, and the message ledger where a run would fail or end; the other writers change the
row directly. The events of runs that end are listed as they are emitted.
-/

import Nobie.Runs.MessageLedger
import Nobie.Runs.RootRuns

namespace Nobie.Runs.Store

open Foundation Runs JsString
open Orchestration (RunStatus)

/-! ## Runs and their steps -/

inductive RunStepStatus
  | pending | running | completed | failed | cancelled
  deriving DecidableEq

structure RunStep where
  key : String
  index : ℕ
  status : RunStepStatus
  summary : String
  (startedAt finishedAt : Option ℤ)

structure StoredRun extends RootRunRow where
  workerSessionId : Option String
  currentStepKey : String
  currentStepIndex : ℕ
  summary : String
  canCancel : Bool
  delegationTurnCount : ℕ
  steps : List RunStep
  (createdAt updatedAt : ℤ)

/-- What a run is, whatever becomes of it. -/
structure RunIdentity where
  (id requestGroupId lineageRootRunId : String)
  (parentRunId workerSessionId : Option String)

def StoredRun.identity (run : StoredRun) : RunIdentity where
  id := run.id
  requestGroupId := run.requestGroupId
  lineageRootRunId := run.lineageRootRunId
  parentRunId := run.parentRunId
  workerSessionId := run.workerSessionId

/-- `DEFAULT_RUN_STEPS`. -/
def defaultRunSteps : List String :=
  ["received", "classified", "target_selected", "executing", "reviewing", "awaiting_approval",
    "awaiting_user", "finalizing", "completed"]

variable (now : ℤ) (status : RunStatus) (runId summary : String)

/-- The steps of a new run. -/
def newSteps : List RunStep :=
  defaultRunSteps.mapIdx fun index key =>
    if index = 0 then ⟨key, 1, .running, "요청을 받았습니다.", some now, none⟩
    else ⟨key, index + 1, .pending, "", none, none⟩

/-- A change of a run that leaves what it is alone. -/
structure RowChange where
  apply : StoredRun → StoredRun
  keeps : ∀ run, (apply run).identity = run.identity

/-! ## The ledger rows of a run -/

inductive MessageLedgerDeliveryKind
  | progress | final | artifact | approval | diagnostic
  deriving DecidableEq

/-- A row of the message ledger with its run, its request group and the delivery kind that its
detail has. -/
structure LedgerRow where
  event : MessageLedgerEvent String String
  (runId requestGroupId : Option String)
  deliveryKind : Option MessageLedgerDeliveryKind := none

variable (ledger : List LedgerRow)

/-- `listMessageLedgerEvents` of a request group, with the limit of the finalizer. -/
def listGroupLedgerEvents (requestGroupId : String) : List LedgerRow :=
  ((ledger.filter fun row => row.requestGroupId = some requestGroupId).insertionSort
    fun left right => left.event.NotAfter right.event).take 1000

variable (row : LedgerRow)

def LedgerRow.isDeliveredText : Bool := row.event.eventKind = .textDelivered && row.event.succeeded

/-- The kind's name ends in `_failed`, or is `recovery_stop_generated`. -/
def isFailureKind : MessageLedgerEventKind → Bool
  | .toolFailed | .textDeliveryFailed | .artifactDeliveryFailed => true
  | .other kind => kind.drop (kind.length - 7) = ofString "_failed" ||
      kind = ofString "recovery_stop_generated"
  | _ => false

/-- `eventFailed`. -/
def LedgerRow.failed : Bool :=
  row.event.status = .failed || row.event.status = .suppressed || isFailureKind row.event.eventKind

/-- A row is written unless its idempotency key is taken. -/
def recordLedgerRow : List LedgerRow :=
  if keyTaken (ledger.map LedgerRow.event) row.event then ledger else ledger ++ [row]

/-! ## The finalizer -/

inductive FinalizerOutcome
  | unchanged | success | partialSuccess
  deriving DecidableEq

def FinalizerOutcome.text : FinalizerOutcome → String
  | .unchanged => "unchanged"
  | .success => "success"
  | .partialSuccess => "partial_success"

/-- The summary that a run whose answer was delivered gets. -/
def FinalizerOutcome.summary? : FinalizerOutcome → Option String
  | .unchanged => none
  | .success => some "응답 전달이 완료되어 후속 실패가 전체 실패로 덮어써지지 않았습니다."
  | .partialSuccess => some "응답은 이미 전달됐고, 후속 전달/복구 실패는 부분 실패로 기록했습니다."

def statusText : RunStatus → String
  | .queued => "queued"
  | .running => "running"
  | .awaitingApproval => "awaiting_approval"
  | .awaitingUser => "awaiting_user"
  | .completed => "completed"
  | .failed => "failed"
  | .cancelled => "cancelled"
  | .interrupted => "interrupted"

/-- The statuses that the finalizer is asked about. -/
def endsEarly : RunStatus → Bool
  | .failed | .cancelled | .interrupted => true
  | .queued | .running | .awaitingApproval | .awaitingUser | .completed => false

/-- The outcome that `finalizeDeliveryForRun` reads off the ledger. -/
def finalizerOutcome (requestGroupId : String) (requestedStatus : RunStatus) : FinalizerOutcome :=
  let events := listGroupLedgerEvents ledger requestGroupId
  if !endsEarly requestedStatus then .unchanged
  else if !events.any LedgerRow.isDeliveredText then .unchanged
  else if events.any LedgerRow.failed then .partialSuccess
  else .success

/-- The row that the finalizer writes. -/
def finalizerRow (stamp : RowStamp) (runId requestGroupId : String) (requestedStatus : RunStatus)
    (outcome : FinalizerOutcome) : LedgerRow where
  event :=
    { id := stamp.id
      eventKind := .deliveryFinalized
      deliveryKey := none
      idempotencyKey := some
        s!"delivery-finalized:{runId}:{statusText requestedStatus}:{outcome.text}"
      status := if outcome = .partialSuccess then .degraded else .succeeded
      createdAt := stamp.now }
  runId := some runId
  requestGroupId := some requestGroupId

/-- `finalizeDeliveryForRun` of a known run. -/
def finalizeDeliveryForRun (stamp : RowStamp) (ledger : List LedgerRow)
    (runId requestGroupId : String) (requestedStatus : RunStatus) :
    FinalizerOutcome × List LedgerRow :=
  let outcome := finalizerOutcome ledger requestGroupId requestedStatus
  match outcome with
  | .unchanged => (outcome, ledger)
  | .success | .partialSuccess =>
    (outcome, recordLedgerRow ledger
      (finalizerRow stamp runId requestGroupId requestedStatus outcome))

/-! ## The store -/

structure StoreState where
  runs : List StoredRun := []
  controllers : List String := []
  ledger : List LedgerRow := []
  emitted : List (String × RunStatus) := []
  primaryKey : (runs.map fun run => run.id).Nodup := by exact List.nodup_nil

/-- The ids and the times of the rows that an operation writes for each run. -/
abbrev Clock : Type := String → RowStamp

/-- The statuses whose events are `run.completed`, `run.failed` and `run.cancelled`. -/
def emitsEnd : RunStatus → Bool
  | .completed | .failed | .cancelled => true
  | .queued | .running | .awaitingApproval | .awaitingUser | .interrupted => false

/-- The end events that a run with a status has had. -/
def endEvents : List RunStatus := if emitsEnd status then [status] else []

/-- What `updateRunStatus` has made up its mind to write. -/
structure StatusWrite where
  status : RunStatus
  summary : String
  canCancel : Bool
  ledger : List LedgerRow

variable (clock : Clock)

namespace StoreState

variable (state : StoreState)

def getRootRun (runId : String) : Option StoredRun := state.runs.find? fun run => run.id = runId

/-- The rows that are selected change. -/
def changeRuns (selected : StoredRun → Bool) (change : RowChange) : StoreState :=
  { state with
    runs := state.runs.map fun run => if selected run then change.apply run else run
    primaryKey := by
      rw [List.map_map]
      refine Eq.mp (congrArg List.Nodup (List.map_congr_left fun run _ => ?_)) state.primaryKey
      rw [Function.comp_apply]
      split
      · exact (congrArg RunIdentity.id (change.keeps run)).symm
      · rfl }

def changeRun (runId : String) (change : RowChange) : StoreState :=
  state.changeRuns (fun run => run.id = runId) change

/-! ## Writers -/

/-- The columns that `updateRunStatus` writes. -/
def statusChange (canCancel : Bool) (now : ℤ) : RowChange where
  apply run := { run with status, summary, canCancel, updatedAt := now }
  keeps _ := rfl

/-- What `updateRunStatus` goes for: a run whose answer was delivered completes where it would
fail or end early. -/
def statusWrite (clock : Clock) (current : StoredRun) (status : RunStatus)
    (summary : Option String) (canCancel : Option Bool) : StatusWrite :=
  let finalizer :=
    if endsEarly status && current.status ≠ .completed then
      finalizeDeliveryForRun (clock current.id) state.ledger current.id current.requestGroupId
        status
    else (.unchanged, state.ledger)
  { status := if finalizer.1 = .unchanged then status else .completed
    summary := finalizer.1.summary?.getD (summary.getD current.summary)
    canCancel := if finalizer.1 = .unchanged then canCancel.getD current.canCancel else false
    ledger := finalizer.2 }

def updateRunStatus (clock : Clock) (runId : String) (status : RunStatus)
    (summary : Option String) (canCancel : Option Bool) : StoreState :=
  match state.getRootRun runId with
  | none => state
  | some current =>
    let write := state.statusWrite clock current status summary canCancel
    if canTransitionRunStatus current.status write.status then
      { state.changeRun runId
          (statusChange write.status write.summary write.canCancel (clock runId).now) with
        ledger := write.ledger
        emitted := state.emitted ++ (endEvents write.status).map fun event => (runId, event) }
    else { state with ledger := write.ledger }

def summaryChange (now : ℤ) : RowChange where
  apply run := { run with summary, updatedAt := now }
  keeps _ := rfl

def updateRunSummary (clock : Clock) (runId summary : String) : StoreState :=
  state.changeRun runId (summaryChange summary (clock runId).now)

/-- The columns of a step that gets a status. -/
def RunStep.withStatus (status : RunStepStatus) (summary : String) (now : ℤ) (step : RunStep) :
    RunStep :=
  { step with
    status
    summary
    startedAt := some (step.startedAt.getD now)
    finishedAt := if status = .running then none else some now }

def stepChange (stepKey : String) (stepIndex : ℕ) (status : RunStepStatus) (summary : String)
    (now : ℤ) : RowChange where
  apply run := { run with
    steps := run.steps.map fun step =>
      if step.key = stepKey then RunStep.withStatus status summary now step else step
    currentStepKey := stepKey
    currentStepIndex := stepIndex
    summary
    updatedAt := now }
  keeps _ := rfl

def setRunStepStatus (clock : Clock) (runId stepKey : String) (status : RunStepStatus)
    (summary : String) : StoreState :=
  if stepKey ∉ defaultRunSteps then state
  else match (state.getRootRun runId).bind fun run =>
      run.steps.find? fun step => step.key = stepKey with
    | none => state
    | some step => state.changeRun runId
        (stepChange stepKey step.index status summary (clock runId).now)

/-- The turn count is that of the group, the summary that of the run. -/
def turnChange (nextCount : ℕ) (summary : String) (now : ℤ) : RowChange where
  apply run := { run with
    delegationTurnCount :=
      if run.delegationTurnCount < nextCount then nextCount else run.delegationTurnCount
    summary := if run.id = runId then summary else run.summary
    updatedAt := if run.id = runId then now else run.updatedAt }
  keeps _ := rfl

def incrementDelegationTurnCount (clock : Clock) (runId : String) (summary : Option String) :
    StoreState :=
  match state.getRootRun runId with
  | none => state
  | some current => state.changeRuns (fun run => run.requestGroupId = current.requestGroupId)
      (turnChange runId (current.delegationTurnCount + 1) (summary.getD current.summary)
        (clock runId).now)

/-! ## Controllers -/

def bindActiveRunController (runId : String) : StoreState :=
  { state with controllers := runId :: state.controllers }

def clearActiveRunController (runId : String) : StoreState :=
  { state with controllers := state.controllers.filter fun id => id ≠ runId }

end StoreState

/-! ## Runs that are ended by others -/

/-- The step that an interruption is noted at. -/
def resolveInterruptStepKey (run : StoredRun) : String :=
  if run.currentStepKey ∈ defaultRunSteps then run.currentStepKey
  else match run.status with
    | .awaitingApproval => "awaiting_approval"
    | .awaitingUser => "awaiting_user"
    | .queued => "received"
    | _ => "executing"

/-- The order by creation and last update. -/
def StoredRun.NotNewer (left right : StoredRun) : Prop :=
  left.createdAt < right.createdAt ∨
    left.createdAt = right.createdAt ∧ left.updatedAt ≤ right.updatedAt

instance : DecidableRel StoredRun.NotNewer := fun _ _ => inferInstanceAs (Decidable (_ ∨ _))

structure CancelRootRunOptions where
  stepSummary : Option String := none
  runSummary : Option String := none

/-- The rows that the query of `listCancellationScopeRuns` selects. -/
def inFamilyOf (current run : RootRunRow) : Bool :=
  run.id = current.id || run.requestGroupId = current.requestGroupId ||
    run.parentRunId = some current.id || run.lineageRootRunId = current.lineageRootRunId

namespace StoreState

variable (state : StoreState)

/-- What happens to a run that is ended at its current step. -/
def endRun (clock : Clock) (status : RunStatus) (stepSummary runSummary : String)
    (run : StoredRun) : StoreState :=
  ((state.clearActiveRunController run.id).setRunStepStatus clock run.id
      (resolveInterruptStepKey run) .cancelled stepSummary).updateRunStatus clock run.id status
    (some runSummary) (some false)

def listCancellationScopeRuns (current : StoredRun) : List StoredRun :=
  ((state.runs.filter fun run => inFamilyOf current.toRootRunRow run.toRootRunRow).insertionSort
    StoredRun.NotNewer).filter fun run => isActiveRunStatus run.status || run.id ∈ state.controllers

def cancelRootRun (clock : Clock) (options : CancelRootRunOptions) (runId : String) : StoreState :=
  match state.getRootRun runId with
  | none => state
  | some current => (state.listCancellationScopeRuns current).foldl (fun state run =>
    state.endRun clock .cancelled
      (options.stepSummary.getD "사용자가 실행 취소를 요청했습니다.")
      (options.runSummary.getD "사용자가 실행을 취소했습니다.") run) state

def interruptOrphanWorkerSessionRuns (clock : Clock)
    (requestGroupId workerSessionId keepRunId : String) (summary : Option String) : StoreState :=
  let text := summary.getD "새 작업 세션이 시작되어 이전 실행을 정리했습니다."
  let orphans := ((state.runs.filter fun run => run.requestGroupId = requestGroupId &&
    run.workerSessionId = some workerSessionId && run.id ≠ keepRunId).insertionSort
      fun left right => right.updatedAt ≤ left.updatedAt).filter
        fun run => isActiveRunStatus run.status
  orphans.foldl (fun state run => state.endRun clock .interrupted text text run) state

def staleCleanupSummary (run : StoredRun) : String :=
  match run.status with
  | .awaitingApproval => "오래된 승인 대기 상태를 운영 정리했습니다. 작업은 자동 재실행하지 않습니다."
  | .awaitingUser => "오래된 사용자 확인 또는 결과 전달 대기 상태를 운영 정리했습니다. 작업은 자동 재전송하지 않습니다."
  | .queued => "오래된 실행 대기 상태를 운영 정리했습니다. 작업은 자동 실행하지 않습니다."
  | .running => "오래된 실행 중 상태를 운영 정리했습니다. 작업은 자동 재실행하지 않습니다."
  | _ => "오래된 실행 상태를 운영 정리했습니다."

def cleanupStaleRunStates (clock : Clock) (staleMs : Option ℤ) (now : ℤ) : StoreState :=
  let thresholdMs := max 60000 (staleMs.getD (30 * 60 * 1000))
  let stale := (state.runs.filter fun run =>
    isActiveRunStatus run.status && run.updatedAt ≤ now - thresholdMs).insertionSort
      fun left right => left.updatedAt ≤ right.updatedAt
  stale.foldl (fun state run =>
    state.endRun clock .interrupted (staleCleanupSummary run) (staleCleanupSummary run) run) state

/-! ## New runs -/

/-- A new run is queued at its first step. -/
def createRootRun (run : RootRunRow) (workerSessionId : Option String) (summary : String)
    (delegationTurnCount : ℕ) (now : ℤ)
    (habsent : run.id ∉ state.runs.map fun run => run.id) : StoreState :=
  { state with
    runs := state.runs ++
      [{ toRootRunRow := { run with status := .queued }
         workerSessionId, summary, delegationTurnCount
         currentStepKey := "received"
         currentStepIndex := 1
         canCancel := true
         steps := newSteps now
         createdAt := now
         updatedAt := now }]
    primaryKey := by
      rw [List.map_append, List.nodup_append]
      refine ⟨state.primaryKey, List.nodup_singleton _, ?_⟩
      rintro id hid _ hnew rfl
      rw [List.map_singleton, List.mem_singleton] at hnew
      exact habsent (hnew ▸ hid) }

end StoreState

/-! ## Answers that keep a run from failing

The finalizer takes any text that was delivered in the request group of the run for the answer, and
it reads the thousand oldest ledger events of the group. -/

open List

variable {runId : String} {run : StoredRun} {ledger : List LedgerRow}

namespace StoreState

variable {state : StoreState}

theorem getRootRun_eq_some_iff :
    state.getRootRun runId = some run ↔ run ∈ state.runs ∧ run.id = runId :=
  find?_key_eq_some_iff state.primaryKey

theorem mem_changeRuns {selected : StoredRun → Bool} {change : RowChange} :
    run ∈ (state.changeRuns selected change).runs ↔
      ∃ before ∈ state.runs, run = if selected before then change.apply before else before := by
  unfold changeRuns
  rw [mem_map]
  exact exists_congr fun before => and_congr_right fun _ => eq_comm

theorem getRootRun_changeRun_self (hrun : state.getRootRun runId = some run) (change : RowChange) :
    (state.changeRun runId change).getRootRun runId = some (change.apply run) := by
  obtain ⟨hmem, hid⟩ := getRootRun_eq_some_iff.mp hrun
  refine getRootRun_eq_some_iff.mpr ⟨mem_changeRuns.mpr ⟨run, hmem, ?_⟩, ?_⟩
  · rw [decide_eq_true hid, if_pos rfl]
  · exact (congrArg RunIdentity.id (change.keeps run)).trans hid

end StoreState

/-! ## What the finalizer finds -/

/-- A text was delivered among the ledger events that the finalizer reads. -/
def TextInPage (ledger : List LedgerRow) (requestGroupId : String) : Prop :=
  ∃ row ∈ listGroupLedgerEvents ledger requestGroupId, row.isDeliveredText

variable {requestGroupId : String} {status : RunStatus} {current : StoredRun} (clock : Clock)
  (summary : Option String) (canCancel : Option Bool)

theorem finalizerOutcome_eq_unchanged_iff (hends : endsEarly status) :
    finalizerOutcome ledger requestGroupId status = .unchanged ↔
      ¬ TextInPage ledger requestGroupId := by
  unfold finalizerOutcome TextInPage
  rw [hends, Bool.not_true, if_neg Bool.false_ne_true, ← any_eq_true]
  cases (listGroupLedgerEvents ledger requestGroupId).any LedgerRow.isDeliveredText with
  | false => exact iff_of_true rfl Bool.false_ne_true
  | true =>
    refine iff_of_false ?_ (not_not_intro rfl)
    rw [Bool.not_true, if_neg Bool.false_ne_true]
    split <;> exact FinalizerOutcome.noConfusion

theorem finalizeDeliveryForRun_fst (stamp : RowStamp) (ledger : List LedgerRow)
    (runId requestGroupId : String) (status : RunStatus) :
    (finalizeDeliveryForRun stamp ledger runId requestGroupId status).1 =
      finalizerOutcome ledger requestGroupId status := by
  unfold finalizeDeliveryForRun
  dsimp only
  split <;> rfl

/-- A page that holds all events of the group leaves none out. -/
theorem mem_listGroupLedgerEvents_of_short
    (hshort : (ledger.filter fun row => row.requestGroupId = some requestGroupId).length ≤ 1000)
    {row : LedgerRow} :
    row ∈ listGroupLedgerEvents ledger requestGroupId ↔
      row ∈ ledger ∧ row.requestGroupId = some requestGroupId := by
  unfold listGroupLedgerEvents
  rw [take_of_length_le (by rwa [length_insertionSort]), mem_insertionSort,
    mem_filter, decide_eq_true_iff]

/-! ## The status that is stored -/

namespace StoreState

variable {state : StoreState}

/-- What `updateRunStatus` finds about the answer of a run. -/
def answerFound (state : StoreState) (requestGroupId : String) (status : RunStatus) : Bool :=
  finalizerOutcome state.ledger requestGroupId status ≠ .unchanged

/-- The status that is written is that of the table of runs. -/
theorem statusWrite_status (current : StoredRun) (status : RunStatus) (summary : Option String)
    (canCancel : Option Bool) :
    (state.statusWrite clock current status summary canCancel).status =
      finalRunStatus current.status status (state.answerFound current.requestGroupId status) := by
  unfold statusWrite answerFound
  by_cases hcompleted : current.status = .completed
  · rw [hcompleted]
    cases status <;> simp [finalRunStatus]
  · cases hends : endsEarly status with
    | false => cases status <;> first | rfl | exact absurd hends.symm Bool.false_ne_true
    | true =>
      simp only [ne_eq, hcompleted, not_false_iff, decide_true, Bool.and_true, if_true]
      rw [finalizeDeliveryForRun_fst]
      cases status with
      | failed => simp [finalRunStatus, hcompleted, ite_not]
      | cancelled => simp [finalRunStatus, hcompleted, ite_not]
      | interrupted => simp [finalRunStatus, hcompleted, ite_not]
      | _ => cases hends

section

variable (hrun : state.getRootRun runId = some current)
  (hactive : isTerminalRunStatus current.status = false)
include hrun hactive

/-- A run that is active takes the status that is written. -/
theorem getRootRun_updateRunStatus_of_active (status : RunStatus)
    (summary : Option String) (canCancel : Option Bool) :
    ((state.updateRunStatus clock runId status summary canCancel).getRootRun runId).map
        (fun run => run.status) =
      some (finalRunStatus current.status status
        (state.answerFound current.requestGroupId status)) := by
  have hallowed : canTransitionRunStatus current.status
      (state.statusWrite clock current status summary canCancel).status := by
    unfold canTransitionRunStatus
    rw [hactive, Bool.not_false, Bool.or_true]
  unfold updateRunStatus
  rw [hrun]
  dsimp only
  rw [if_pos hallowed]
  have hchanged := getRootRun_changeRun_self hrun (statusChange
    (state.statusWrite clock current status summary canCancel).status
    (state.statusWrite clock current status summary canCancel).summary
    (state.statusWrite clock current status summary canCancel).canCancel (clock runId).now)
  refine (congrArg (Option.map fun run => run.status) hchanged).trans ?_
  rw [Option.map_some, ← statusWrite_status clock current status summary canCancel]
  rfl

/-- An active run that would fail or end early completes just where the finalizer reads a text
that was delivered in its group. -/
theorem completed_iff_textInPage (hends : endsEarly status)
    (summary : Option String) (canCancel : Option Bool) :
    ((state.updateRunStatus clock runId status summary canCancel).getRootRun runId).map
        (fun run => run.status) = some .completed ↔
      TextInPage state.ledger current.requestGroupId := by
  rw [getRootRun_updateRunStatus_of_active clock hrun hactive, Option.some_inj]
  have hopen : current.status ≠ .completed := by
    intro hcompleted
    rw [hcompleted] at hactive
    cases hactive
  have hfound : state.answerFound current.requestGroupId status ↔
      TextInPage state.ledger current.requestGroupId := by
    unfold answerFound
    rw [decide_eq_true_iff, Ne, finalizerOutcome_eq_unchanged_iff hends, not_not]
  rw [← hfound]
  have hfinal : finalRunStatus current.status status
      (state.answerFound current.requestGroupId status) =
        if state.answerFound current.requestGroupId status then .completed else status := by
    cases status with
    | failed | cancelled | interrupted => simp [finalRunStatus, hopen]
    | _ => cases hends
  rw [hfinal]
  split
  · next hanswer => exact iff_of_true rfl hanswer
  · next hanswer =>
    refine iff_of_false (fun hcompleted => ?_) hanswer
    rw [hcompleted] at hends
    cases hends

end

end StoreState

/-! ## The run's own answer -/

/-- A text row is one of a final answer unless it says otherwise. -/
def LedgerRow.isFinal (row : LedgerRow) : Bool := row.deliveryKind.getD .final = .final

/-- A final answer of the run was delivered. -/
def OwnAnswerDelivered (ledger : List LedgerRow) (runId : String) : Prop :=
  ∃ row ∈ ledger, row.isDeliveredText ∧ row.isFinal ∧ row.runId = some runId

/-- The finalizer's page tells of the run's own answer: where that was delivered, some text of
the group that was delivered is among the thousand oldest events of the group; and where it was
not, no progress message, approval text or answer of another run is. -/
structure PageTellsOwnAnswer (ledger : List LedgerRow) (run : StoredRun) : Prop where
  reached : OwnAnswerDelivered ledger run.id → TextInPage ledger run.requestGroupId
  alone : ¬ OwnAnswerDelivered ledger run.id →
    ∀ row ∈ listGroupLedgerEvents ledger run.requestGroupId, row.isDeliveredText = false

/-- A run that would fail or end early is completed for its own delivered answer and for nothing
else, just where the finalizer's page tells of that answer. -/
theorem completedByOwnAnswer_iff (state : StoreState) (clock : Clock) {runId : String}
    {current : StoredRun} (hrun : state.getRootRun runId = some current)
    (hactive : isTerminalRunStatus current.status = false) {status : RunStatus}
    (hends : endsEarly status = true) (summary : Option String) (canCancel : Option Bool) :
    (((state.updateRunStatus clock runId status summary canCancel).getRootRun runId).map
        (fun run => run.status) = some .completed ↔ OwnAnswerDelivered state.ledger runId) ↔
      PageTellsOwnAnswer state.ledger current := by
  obtain ⟨-, hid⟩ := StoreState.getRootRun_eq_some_iff.mp hrun
  rw [StoreState.completed_iff_textInPage clock hrun hactive hends]
  constructor
  · intro hsame
    refine ⟨fun hown => hsame.mpr (hid ▸ hown), fun hnone row hrow => ?_⟩
    by_contra htext
    exact hnone (hid ▸ hsame.mp ⟨row, hrow, Bool.eq_true_of_not_eq_false htext⟩)
  · intro htells
    refine ⟨fun htext => ?_, fun hown => htells.reached (hid.symm ▸ hown)⟩
    obtain ⟨row, hrow, hdelivered⟩ := htext
    by_contra hnone
    have hfalse := htells.alone (hid.symm ▸ hnone) row hrow
    cases hfalse.symm.trans hdelivered

/-- In a group of at most a thousand events whose delivered texts are all final answers of the
run, the page tells of them. -/
theorem pageTellsOwnAnswer_of_short
    (hshort : (ledger.filter fun row => row.requestGroupId = some run.requestGroupId).length ≤
      1000) (hgroup : ∀ row ∈ ledger, row.runId = some run.id →
      row.requestGroupId = some run.requestGroupId)
    (hown : ∀ row ∈ ledger, row.requestGroupId = some run.requestGroupId →
      row.isDeliveredText → row.isFinal ∧ row.runId = some run.id) :
    PageTellsOwnAnswer ledger run where
  reached := by
    rintro ⟨row, hrow, htext, -, hrun⟩
    exact ⟨row, (mem_listGroupLedgerEvents_of_short hshort).mpr ⟨hrow, hgroup row hrow hrun⟩, htext⟩
  alone := by
    intro hnone row hrow
    obtain ⟨hmem, hrowGroup⟩ := (mem_listGroupLedgerEvents_of_short hshort).mp hrow
    by_contra htext
    have hdelivered := Bool.eq_true_of_not_eq_false htext
    obtain ⟨hfinal, hrun⟩ := hown row hmem hrowGroup hdelivered
    exact hnone ⟨row, hmem, hdelivered, hfinal, hrun⟩

/-! ## A run with a progress message only -/

def textRow (id : String) (runId : String) (kind : MessageLedgerDeliveryKind) : LedgerRow where
  event :=
    { id := JsString.ofString id
      eventKind := .textDelivered
      deliveryKey := none
      idempotencyKey := some id
      status := .delivered
      createdAt := 0 }
  runId := some runId
  requestGroupId := some "group"
  deliveryKind := some kind

/-- A run of a group, under way, beside what the ledger has of the group. -/
def storeWithRow (row : LedgerRow) : StoreState where
  runs := [{
    toRootRunRow := ⟨"run-1", "group", "group", none, .running⟩
    workerSessionId := none
    currentStepKey := "executing"
    currentStepIndex := 4
    summary := "s"
    canCancel := true
    delegationTurnCount := 0
    steps := newSteps 0
    createdAt := 0
    updatedAt := 0 }]
  ledger := [row]
  primaryKey := List.nodup_singleton _

/-- The failure of a run that has only told of its progress is stored as a completion. -/
theorem progressOnly_completed :
    ((((storeWithRow (textRow "a" "run-1" .progress)).updateRunStatus
        (fun _ => ⟨[], 0⟩) "run-1" .failed none none).getRootRun "run-1").map
          fun run => run.status) = some .completed ∧
      ¬ OwnAnswerDelivered (storeWithRow (textRow "a" "run-1" .progress)).ledger "run-1" := by
  refine ⟨by decide +kernel, ?_⟩
  rintro ⟨row, hrow, -, hfinal, -⟩
  rw [mem_singleton.mp hrow] at hfinal
  cases hfinal

/-- A run whose own answer was delivered is completed. -/
theorem ownAnswer_completed :
    ((((storeWithRow (textRow "a" "run-1" .final)).updateRunStatus
        (fun _ => ⟨[], 0⟩) "run-1" .failed none none).getRootRun "run-1").map
          fun run => run.status) = some .completed ↔
      OwnAnswerDelivered (storeWithRow (textRow "a" "run-1" .final)).ledger "run-1" := by
  refine (completedByOwnAnswer_iff (storeWithRow (textRow "a" "run-1" .final)) _ rfl rfl rfl none
    none).mpr (pageTellsOwnAnswer_of_short ?_ ?_ ?_)
  · exact (length_filter_le _ _).trans (by decide)
  · intro row hrow _
    rw [mem_singleton.mp hrow]
    rfl
  · intro row hrow _ _
    rw [mem_singleton.mp hrow]
    exact ⟨rfl, rfl⟩

/-! ## Recovery at start-up

Every run that a crash left active is classified, and gets the step and the status of its class; the
continuity is written back before the next run is looked at. -/

/-! ## Continuity -/

/-- The continuity of a lineage, as it is read back. -/
structure TaskContinuity where
  pendingApprovals : List String := []
  pendingDelivery : List String := []
  lastToolReceipt : Option String := none
  lastDeliveryReceipt : Option String := none
  lastGoodState : Option String := none
  status : Option String := none

def isBlank (value : String) : Bool := trim (ofString value) = []

def nonEmptyValues (values : List String) : List String := values.filter fun value => !isBlank value

/-! ## Classification -/

inductive StartupRecoveryStatus
  | awaitingApproval | awaitingUser | pendingDelivery | interrupted | delivered | stale

def StartupRecoveryStatus.text : StartupRecoveryStatus → String
  | .awaitingApproval => "awaiting_approval"
  | .awaitingUser => "awaiting_user"
  | .pendingDelivery => "pending_delivery"
  | .interrupted => "interrupted"
  | .delivered => "delivered"
  | .stale => "stale"

structure StartupRecoveryClassification where
  status : StartupRecoveryStatus
  summary : String
  pendingApprovals : List String := []
  pendingDelivery : List String := []
  nextRunStatus : RunStatus

variable (run : StoredRun) (clock : Clock)

def classifyStartupRecovery (continuity : Option TaskContinuity) : StartupRecoveryClassification :=
  let continuity := continuity.getD {}
  let pendingApprovals := nonEmptyValues continuity.pendingApprovals
  let pendingDelivery := nonEmptyValues continuity.pendingDelivery
  if continuity.lastDeliveryReceipt.isSome && pendingDelivery.isEmpty then
    { status := .delivered
      nextRunStatus := .completed
      summary := "재시작 전 결과 전달 기록이 있어 중복 전달하지 않습니다." }
  else if !pendingDelivery.isEmpty && continuity.lastToolReceipt.isSome then
    { status := .pendingDelivery
      nextRunStatus := .awaitingUser
      summary := "도구 실행 기록은 있지만 결과 전달 완료 기록이 없어 자동 중복 전송을 멈췄습니다. 전달 재개에는 사용자 확인이 필요합니다."
      pendingApprovals
      pendingDelivery }
  else if run.status = .awaitingApproval || !pendingApprovals.isEmpty then
    { status := .awaitingApproval
      nextRunStatus := .awaitingApproval
      summary := "재시작 전 승인 대기 상태를 복구했습니다. 승인 resolver는 재생성되어야 하므로 자동 실행하지 않습니다."
      pendingApprovals :=
        if pendingApprovals.isEmpty then [s!"approval:{run.id}"] else pendingApprovals
      pendingDelivery }
  else if run.status = .awaitingUser then
    { status := .awaitingUser
      nextRunStatus := .awaitingUser
      summary := if run.summary = "" then "추가 입력을 기다리고 있습니다." else run.summary
      pendingApprovals
      pendingDelivery }
  else if run.status = .queued || run.status = .running then
    { status := .interrupted
      nextRunStatus := .interrupted
      summary := "프로세스가 다시 시작되어 자동 실행이 중단되었습니다. 이어서 진행하려면 요청을 다시 실행하거나 취소해 주세요."
      pendingApprovals
      pendingDelivery }
  else
    { status := .stale
      nextRunStatus := run.status
      summary := "재시작 복구 대상이 아닌 과거 실행입니다."
      pendingApprovals
      pendingDelivery }

/-! ## Recovery of the runs -/

structure ScheduleRun where
  id : String
  startedAt : ℤ
  finishedAt : Option ℤ
  success : Option Bool
  error : Option String

/-- The database that a crash leaves: the store, the continuity of the lineages and the schedule
runs. -/
structure RecoveryState extends StoreState where
  continuity : String → Option TaskContinuity := fun _ => none
  scheduleRuns : List ScheduleRun := []

namespace RecoveryState

/-- The store changes, and nothing else. -/
def onStore (state : RecoveryState) (change : StoreState → StoreState) : RecoveryState :=
  { state with toStoreState := change state.toStoreState }

/-- `upsertTaskContinuity` with what was classified. -/
def rememberRecovery (state : RecoveryState) (lineageRootRunId : String)
    (recovery : StartupRecoveryClassification) : RecoveryState :=
  { state with
    continuity := Function.update state.continuity lineageRootRunId
      (some { (state.continuity lineageRootRunId).getD {} with
        lastGoodState := some recovery.summary
        pendingApprovals := recovery.pendingApprovals
        pendingDelivery := recovery.pendingDelivery
        status := some recovery.status.text }) }

end RecoveryState

/-- The step and the status that a class of runs gets. -/
def applyRecovery (run : StoredRun) (recovery : StartupRecoveryClassification) (store : StoreState)
    : StoreState :=
  match recovery.status with
  | .delivered =>
    ((store.setRunStepStatus clock run.id "finalizing" .completed
          recovery.summary).setRunStepStatus clock run.id "completed" .completed
        recovery.summary).updateRunStatus clock run.id .completed (some recovery.summary)
      (some false)
  | .awaitingApproval =>
    (store.setRunStepStatus clock run.id "awaiting_approval" .running
        recovery.summary).updateRunStatus clock run.id .awaitingApproval
      (some recovery.summary) (some true)
  | .pendingDelivery | .awaitingUser =>
    (store.setRunStepStatus clock run.id "awaiting_user" .running
        recovery.summary).updateRunStatus clock run.id .awaitingUser (some recovery.summary)
      (some true)
  | .interrupted =>
    (store.setRunStepStatus clock run.id (resolveInterruptStepKey run) .cancelled
        recovery.summary).updateRunStatus clock run.id .interrupted (some recovery.summary)
      (some false)
  | .stale => store

/-- What the recovery does to one of the runs it has listed. -/
def recoverRun (state : RecoveryState) (run : StoredRun) : RecoveryState :=
  let recovery := classifyStartupRecovery run (state.continuity run.lineageRootRunId)
  (state.rememberRecovery run.lineageRootRunId recovery).onStore (applyRecovery clock run recovery)

/-- The newest active runs, up to a limit. -/
def StoreState.listActiveRootRuns (state : StoreState) (limit : ℕ) : List StoredRun :=
  ((state.runs.filter fun run => isActiveRunStatus run.status).insertionSort
    fun left right => right.NotNewer left).take limit

/-! ## Schedule runs -/

def ScheduleRun.isUnfinished (run : ScheduleRun) : Bool :=
  run.finishedAt.isNone || run.success.isNone

def listUnfinishedScheduleRuns (limit : ℕ) (scheduleRuns : List ScheduleRun) : List ScheduleRun :=
  ((scheduleRuns.filter ScheduleRun.isUnfinished).insertionSort
    fun left right => right.startedAt ≤ left.startedAt).take limit

def ScheduleRun.interrupt (finishedAt : ℤ) (run : ScheduleRun) : ScheduleRun :=
  { run with
    finishedAt := some finishedAt
    success := some false
    error := some (run.error.getD "Interrupted by daemon restart; not retried automatically.") }

def interruptUnfinishedScheduleRunsOnStartup (finishedAt : ℤ) (scheduleRuns : List ScheduleRun) :
    List ScheduleRun :=
  let listed := (listUnfinishedScheduleRuns 200 scheduleRuns).map ScheduleRun.id
  scheduleRuns.map fun run =>
    if run.id ∈ listed && run.isUnfinished then run.interrupt finishedAt else run

def recoverActiveRunsOnStartup (now : ℤ) (state : RecoveryState) : RecoveryState :=
  let recovered := (state.listActiveRootRuns 200).foldl (recoverRun clock) state
  { recovered with
    scheduleRuns := interruptUnfinishedScheduleRunsOnStartup now recovered.scheduleRuns }

end Nobie.Runs.Store
