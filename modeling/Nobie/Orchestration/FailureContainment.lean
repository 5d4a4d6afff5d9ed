/-
# Which failures the runner contains

Whatever fails in the `try` branch, the status in memory is the status that was stored
last: it is only changed where it is stored. What the `catch` branch does depends on this
status, on the error and on whether the parent has aborted, and on nothing else.
-/

import Nobie.Orchestration.SubSessionAcceptance
import Nobie.Orchestration.SubSessionFailures

namespace Nobie.Orchestration

open Foundation Foundation.Effects EStateM

variable {Outputs A B : Type}

/-! ## The status in memory and in the store -/

/-- The status of the sub-session when it was stored last. -/
def lastStored (records : List RunnerRecord) : Option SubSessionStatus :=
  records.reverse.findSome? fun
    | .stored subSession => some subSession.status
    | _ => none

variable (records : List RunnerRecord) {outcome : SubSessionRunOutcome Outputs}

theorem lastStored_append_stored (subSession : SubSessionContract) :
    lastStored (records ++ [.stored subSession]) = some subSession.status := by
  simp [lastStored]

theorem lastStored_append_event (parentRunId label : String) :
    lastStored (records ++ [.parentEvent parentRunId label]) = lastStored records := by
  simp [lastStored]

theorem lastStored_append_ledger (eventKind status summary : String) :
    lastStored (records ++ [.ledger eventKind status summary]) = lastStored records := by
  simp [lastStored]

/-- The status in memory and the one in the store. -/
def FallibleState.statuses (state : FallibleState) : SubSessionStatus × Option SubSessionStatus :=
  (state.subSession.status, lastStored state.records)

/-- The status in memory is the one that was stored last. -/
def InStore (state : FallibleState) : Prop := lastStored state.records = some state.subSession.status

/-- The effect changes no status, whether it throws or not. -/
def Still (effect : FallibleRunner A) : Prop :=
  ∀ state, (stateAfter (effect.run state)).statuses = state.statuses

variable {effect : FallibleRunner A}

namespace Still

theorem pure (value : A) : Still (Pure.pure value : FallibleRunner A) := fun _ => rfl

theorem bind {next : A → FallibleRunner B} (heffect : Still effect)
    (hnext : ∀ value, Still (next value)) : Still (effect >>= next) := by
  intro state
  have hfirst := heffect state
  rw [run_bind]
  cases hresult : effect.run state with
  | ok value last =>
    rw [hresult] at hfirst
    exact (hnext value last).trans hfirst
  | error error last =>
    rw [hresult] at hfirst
    exact hfirst

theorem throwIfSome (thrown : Option Thrown) : Still (throwIfSome thrown) := by
  intro state
  cases thrown <;> rfl

theorem appendParentEvent (label : SubSessionContract → String) :
    Still (within (appendParentEvent label)) := fun _ =>
  congrArg (Prod.mk _) (lastStored_append_event _ _ _)

theorem recordLedger (eventKind status summary : String) :
    Still (within (record (.ledger eventKind status summary))) := fun _ =>
  congrArg (Prod.mk _) (lastStored_append_ledger _ _ _ _)

/-- What holds of the statuses before holds after. -/
theorem triple (heffect : Still effect) (before : SubSessionStatus × Option SubSessionStatus → Prop)
    {thrown : FallibleState → Prop} (hthrown : ∀ state, before state.statuses → thrown state) :
    Triple (fun state => before state.statuses) effect (fun _ state => before state.statuses)
      thrown := by
  intro state hstate
  have hstill := heffect state
  cases hresult : effect.run state with
  | ok value last =>
    rw [hresult, stateAfter_ok] at hstill
    change before last.statuses
    rw [hstill]
    exact hstate
  | error error last =>
    rw [hresult, stateAfter_error] at hstill
    apply hthrown last
    rw [hstill]
    exact hstate

end Still

variable {state : FallibleState} {status : SubSessionStatus} {last : FallibleState}

section TryBranch

variable (collaborators : Collaborators Outputs)

theorem still_callCollaborator : Still (callCollaborator collaborators) := fun _ => rfl

theorem still_call : Still (do throwIfSome (← callCollaborator collaborators)) :=
  (still_callCollaborator collaborators).bind Still.throwIfSome

theorem still_tryAppendParentEvent (label : SubSessionContract → String) :
    Still (tryAppendParentEvent collaborators label) :=
  (still_callCollaborator collaborators).bind fun thrown =>
    (Still.throwIfSome thrown).bind fun _ => Still.appendParentEvent label

theorem still_tryRecordLedgerEvent (eventKind status summary : String) :
    Still (tryRecordLedgerEvent collaborators eventKind status summary) :=
  (still_callCollaborator collaborators).bind fun thrown =>
    (Still.throwIfSome thrown).bind fun _ => Still.recordLedger eventKind status summary

theorem still_tryPublishProgressBatch : Still (tryPublishProgressBatch collaborators) := by
  intro state
  unfold tryPublishProgressBatch
  simp only [run_bind, run_get, run_modify]
  split
  · exact ((still_tryAppendParentEvent collaborators _).bind fun _ =>
      still_tryRecordLedgerEvent collaborators _ _ _) _
  · rfl

theorem still_tryAggregateChildResult : Still (tryAggregateChildResult collaborators) :=
  (still_callCollaborator collaborators).bind fun thrown => (Still.throwIfSome thrown).bind fun _ =>
    (still_callCollaborator collaborators).bind fun thrown => (Still.throwIfSome thrown).bind fun _ =>
      (still_callCollaborator collaborators).bind fun thrown =>
        (Still.throwIfSome thrown).bind fun _ => still_call collaborators

theorem within_run (effect : Runner A) (state : FallibleState) :
    (within effect).run state =
      match effect.run state.toRunnerState with
      | .ok value last => .ok value { state with toRunnerState := last }
      | .error error last => .error error { state with toRunnerState := last } :=
  rfl

/-- A change of status is stored, or the table does not allow it and nothing changes. -/
theorem changeStatus_within (status : SubSessionStatus) (state : FallibleState) :
    (canTransitionSubSessionStatus state.subSession.status status ∧
      ∃ last, (within (changeStatus collaborators.runtime status)).run state = .ok () last ∧
        last.statuses = (status, some status)) ∨
    (canTransitionSubSessionStatus state.subSession.status status = false ∧
      ∃ error last, (within (changeStatus collaborators.runtime status)).run state =
        .error error last ∧ last.statuses = state.statuses) := by
  rw [within_run, changeStatus_run, transitionSubSessionStatus]
  cases hmoves : canTransitionSubSessionStatus state.subSession.status status with
  | true => exact .inl ⟨rfl, _, rfl, congrArg (Prod.mk _) (lastStored_append_stored _ _)⟩
  | false => exact .inr ⟨rfl, _, _, rfl, rfl⟩

theorem tryChangeStatus_triple (status : SubSessionStatus) :
    Triple InStore (tryChangeStatus collaborators status)
      (fun _ state => state.statuses = (status, some status)) InStore := by
  intro state hstate
  rw [tryChangeStatus, run_bind]
  obtain ⟨-, last, hrun, hstatuses⟩ | ⟨-, error, last, hrun, hstatuses⟩ :=
    changeStatus_within collaborators status state
  · rw [hrun]
    exact hstatuses
  · rw [hrun]
    obtain ⟨hstatus, hstored⟩ := Prod.mk.inj hstatuses
    exact hstored.trans (hstate.trans (congrArg some hstatus.symm))

theorem inStore_of_statuses (h : state.statuses = (status, some status)) : InStore state := by
  obtain ⟨hstatus, hstored⟩ := Prod.mk.inj h
  exact hstored.trans (congrArg some hstatus.symm)

/-- A still effect keeps the status in memory the one in the store. -/
theorem Still.inStore (heffect : Still effect) : Triple InStore effect (fun _ => InStore) InStore :=
  heffect.triple (fun statuses => statuses.2 = some statuses.1) fun _ hstate => hstate

/-- A still effect after a change of status leaves the status as it was set. -/
theorem Still.settled (heffect : Still effect) (status : SubSessionStatus) :
    Triple (fun state => state.statuses = (status, some status)) effect
      (fun _ state => state.statuses = (status, some status)) InStore :=
  heffect.triple (· = (status, some status)) fun _ => inStore_of_statuses

theorem tryEmitProgress_triple (summary : String) (status : Option SubSessionStatus) :
    Triple InStore (tryEmitProgress collaborators summary status) (fun _ => InStore) InStore := by
  have hrest : Still (do
      tryAppendParentEvent collaborators fun subSession =>
        s!"sub_session_progress:{subSession.subSessionId}:{summary}"
      tryPublishProgressBatch collaborators) :=
    (still_tryAppendParentEvent collaborators _).bind fun _ =>
      still_tryPublishProgressBatch collaborators
  refine Triple.get fun state hstate => ?_
  dsimp only
  split
  · exact Triple.bind ((tryChangeStatus_triple collaborators _).weaken (fun _ heq => heq ▸ hstate)
      fun _ _ => inStore_of_statuses) fun _ => hrest.inStore
  · exact hrest.inStore.weaken (fun _ heq => heq ▸ hstate) fun _ _ hafter => hafter

variable (handler : HandlerRun Outputs) (modelExecution : ModelExecutionSnapshot)
  (result : ResultReport Outputs)

theorem tryRunHandler_triple :
    Triple InStore (tryRunHandler collaborators handler) (fun _ => InStore) InStore := by
  induction handler with
  | emitProgress summary status next ih =>
    rw [tryRunHandler]
    exact Triple.bind (tryEmitProgress_triple collaborators summary status).attempt ih
  | parentAborts next ih => exact Triple.bind (Triple.modify fun _ hstate => hstate) fun _ => ih
  | parentFinalizes next ih => exact Triple.bind (Triple.modify fun _ hstate => hstate) fun _ => ih
  | returns result => exact Triple.pure fun _ hstate => hstate
  | throws error => exact Triple.throw fun _ hstate => hstate

theorem tryExecuteWithModelPolicy_triple (input : RunSubSessionInput)
    (handler : HandlerRun Outputs) :
    Triple InStore (tryExecuteWithModelPolicy collaborators input handler) (fun _ => InStore)
      InStore := by
  unfold tryExecuteWithModelPolicy
  split
  · exact Triple.throw fun _ hstate => hstate
  · apply Triple.tryCatch
    · refine Triple.bind (tryRunHandler_triple collaborators handler) fun result => ?_
      refine Triple.bind (still_tryRecordLedgerEvent collaborators _ _ _).inStore fun _ => ?_
      exact Triple.pure fun _ hstate => hstate
    · refine fun error => Triple.get fun state hstate => ?_
      split
      · exact Triple.throw fun _ heq => heq ▸ hstate
      · exact Triple.bind (Triple.modify fun _ heq => heq ▸ hstate) fun _ =>
          Triple.throw fun _ hlast => hlast

/-- The outcome's status is terminal, in memory and in the store. -/
def SettledAt (outcome : SubSessionRunOutcome Outputs) (state : FallibleState) : Prop :=
  isReplayableStatus outcome.status ∧ state.statuses = (outcome.status, some outcome.status)

/-- An outcome that reports the status at which the sub-session was settled. -/
theorem report_triple (hterminal : isReplayableStatus status)
    (report : FallibleState → SubSessionRunOutcome Outputs)
    (hreport : ∀ state, state.subSession.status = status → (report state).status = status) :
    Triple (fun state => state.statuses = (status, some status))
      (do let state ← get; pure (report state) : FallibleRunner (SubSessionRunOutcome Outputs))
      SettledAt InStore := by
  refine Triple.get fun state hstate => Triple.pure fun last heq => ?_
  have hsame := hreport state (congrArg Prod.fst hstate)
  rw [SettledAt, hsame, heq]
  exact ⟨hterminal, hstate⟩

theorem trySettleCancelled_triple (reasonCode safeMessage : String) :
    Triple InStore
      (settleCancelledWith (tryChangeStatus collaborators) (trySinks collaborators) reasonCode
        safeMessage : FallibleRunner (SubSessionRunOutcome Outputs))
      SettledAt InStore := by
  refine Triple.bind (tryChangeStatus_triple collaborators .cancelled) fun _ => ?_
  refine Triple.bind ((still_tryPublishProgressBatch collaborators).settled _) fun _ => ?_
  refine Triple.bind ((still_tryAppendParentEvent collaborators _).settled _) fun _ => ?_
  refine Triple.bind ((still_tryRecordLedgerEvent collaborators _ _ _).settled _) fun _ => ?_
  exact report_triple rfl _ fun _ _ => rfl

theorem trySuppressLateResult_triple :
    Triple InStore (trySuppressLateResult collaborators modelExecution) SettledAt InStore := by
  refine Triple.bind (tryChangeStatus_triple collaborators .completed) fun _ => ?_
  refine Triple.bind ((still_tryPublishProgressBatch collaborators).settled _) fun _ => ?_
  refine Triple.bind ((still_tryAppendParentEvent collaborators _).settled _) fun _ => ?_
  refine Triple.bind ((still_tryRecordLedgerEvent collaborators _ _ _).settled _) fun _ => ?_
  exact report_triple rfl _ fun _ hstatus => hstatus

theorem isReplayableStatus_review (status : ReviewStatus) :
    isReplayableStatus status.toSubSessionStatus := by
  cases status <;> rfl

theorem still_reviewResultReport :
    Still (within (reviewResultReport collaborators.runtime result)) := by
  intro state
  rw [within_run, reviewResultReport]
  generalize collaborators.runtime.reviewResultReport result = review
  obtain ⟨parentAborts, verdict⟩ := review
  cases parentAborts <;> cases verdict <;> rfl

theorem tryIntegrateReviewed_triple (modelExecution : ModelExecutionSnapshot) :
    Triple InStore (tryIntegrateReviewed collaborators result modelExecution) SettledAt
      InStore := by
  refine Triple.bind (still_reviewResultReport collaborators result).inStore fun review => ?_
  have hterminal := isReplayableStatus_review review.status
  refine Triple.bind (tryChangeStatus_triple collaborators _) fun _ => ?_
  refine Triple.bind ((still_tryPublishProgressBatch collaborators).settled _) fun _ => ?_
  refine Triple.bind ((still_tryAppendParentEvent collaborators _).settled _) fun _ => ?_
  refine Triple.bind ((still_tryAggregateChildResult collaborators).settled _) fun _ => ?_
  refine Triple.bind ((still_tryAppendParentEvent collaborators _).settled _) fun _ => ?_
  refine Triple.bind ((still_tryRecordLedgerEvent collaborators _ _ _).settled _) fun _ => ?_
  refine Triple.bind ((still_tryRecordLedgerEvent collaborators _ _ _).settled _) fun _ => ?_
  refine Triple.bind ((still_tryAppendParentEvent collaborators _).settled _) fun _ => ?_
  split
  · refine Triple.bind ((still_tryAppendParentEvent collaborators _).settled _) fun _ => ?_
    exact report_triple hterminal _ fun _ hstatus => hstatus
  · exact report_triple hterminal _ fun _ hstatus => hstatus

theorem trySettleResult_triple (modelExecution : ModelExecutionSnapshot) :
    Triple InStore (trySettleResult collaborators result modelExecution) SettledAt InStore := by
  have hbefore : Triple InStore
      (modify fun state => { state with
        lastModelExecution := some modelExecution
        subSession.modelExecutionSnapshot := some modelExecution } : FallibleRunner Unit)
      (fun _ => InStore) InStore := Triple.modify fun _ hstate => hstate
  refine Triple.bind hbefore fun _ => Triple.get fun state hstate => ?_
  have hhere : ∀ last, last = state → InStore last := fun _ heq => heq ▸ hstate
  split
  · exact (trySettleCancelled_triple collaborators _ _).weaken hhere fun _ _ hafter => hafter
  · refine Triple.bind ((still_callCollaborator collaborators).inStore.weaken hhere
      fun _ _ hafter => hafter) fun thrown => ?_
    refine Triple.bind (Still.throwIfSome thrown).inStore fun _ => ?_
    split
    · exact trySuppressLateResult_triple collaborators modelExecution
    · exact tryIntegrateReviewed_triple collaborators result modelExecution

/-- The `try` branch settles the sub-session at the status it reports, or it throws; in
either case the status in memory is the one that was stored last. -/
theorem tryExecuteSubSession_triple (input : RunSubSessionInput) (handler : HandlerRun Outputs) :
    Triple InStore (tryExecuteSubSession collaborators input handler) SettledAt InStore := by
  have hrunning := (tryChangeStatus_triple collaborators .running).weaken (fun _ hstate => hstate)
    fun _ _ => inStore_of_statuses
  refine Triple.bind hrunning fun _ => ?_
  refine Triple.bind (still_tryAppendParentEvent collaborators _).inStore fun _ => ?_
  refine Triple.bind (tryExecuteWithModelPolicy_triple collaborators input handler) fun _ => ?_
  exact trySettleResult_triple collaborators _ _

end TryBranch

/-! ## The catch branch -/

/-- The call resolves with an outcome whose status is terminal and is the status that was
stored last, if any was. -/
def Resolves (result : EStateM.Result Thrown FallibleState (SubSessionRunOutcome Outputs)) : Prop :=
  ∃ outcome last, result = .ok outcome last ∧ isReplayableStatus outcome.status ∧
    ∀ status, lastStored last.records = some status → status = outcome.status

theorem SettledAt.resolves (h : SettledAt outcome last) : Resolves (.ok outcome last) := by
  refine ⟨outcome, last, rfl, h.1, fun status hstored => ?_⟩
  have hlast : lastStored last.records = some outcome.status := congrArg Prod.snd h.2
  rw [hlast] at hstored
  exact (Option.some.inj hstored).symm

variable (error : Thrown)

theorem not_resolves_error (last : FallibleState) :
    ¬ Resolves (.error error last : EStateM.Result _ _ (SubSessionRunOutcome Outputs)) := by
  rintro ⟨_, _, hresult, _⟩
  cases hresult

/-- Does the ledger hook return where the run closes the sub-session outside the `try`
branch? -/
def Collaborators.ClosingReturns (collaborators : Collaborators Outputs) : Prop :=
  (∀ hook ∈ collaborators.closingBatch, hook = none) ∧ collaborators.closingHook = none

/-- An error and the state in which it is caught: the `catch` branch will cancel the
sub-session. -/
def WillCancel (state : FallibleState) : Prop := state.aborted ∨ isAbortLike error

/-- The `catch` branch leaves the sub-session as it is. -/
def SettledBefore (state : FallibleState) : Prop :=
  ¬ WillCancel error state ∧ (state.subSession.status = .completed ∨
    state.subSession.status = .failed ∨ state.subSession.status = .cancelled)

/-- What the `catch` branch can deal with: a sub-session that is to be cancelled is live or
cancelled, and one that is not has not been sent back for revision. Where it closes the
sub-session, the ledger hook must return. -/
structure Manageable (collaborators : Collaborators Outputs) (error : Thrown)
    (state : FallibleState) : Prop where
  cancellable : WillCancel error state →
    isReplayableStatus state.subSession.status = false ∨ state.subSession.status = .cancelled
  notInRevision : ¬ WillCancel error state → state.subSession.status ≠ .needsRevision
  closes : ¬ SettledBefore error state → collaborators.ClosingReturns

section CatchBranch

variable (collaborators : Collaborators Outputs)

variable (label : SubSessionContract → String)

/-- The steps that close a sub-session after its last change of status. -/
def closingSteps (status summary : String) : FallibleRunner Unit := do
  (closingSinks collaborators).flushProgressBatch
  (closingSinks collaborators).appendParentEvent label
  (closingSinks collaborators).recordLedgerEvent "sub_session_failed" status summary

theorem still_closingSteps (status summary : String) :
    Still (closingSteps collaborators label status summary) := by
  have hflush : Still (closingSinks collaborators).flushProgressBatch := by
    unfold closingSinks
    cases collaborators.closingBatch with
    | none => exact Still.pure ()
    | some hook =>
      exact (Still.appendParentEvent _).bind fun _ => (Still.throwIfSome hook).bind fun _ =>
        Still.recordLedger _ _ _
  exact hflush.bind fun _ => (Still.appendParentEvent label).bind fun _ =>
    (Still.throwIfSome collaborators.closingHook).bind fun _ => Still.recordLedger _ _ _

theorem closingSteps_run (status summary : String) (state : FallibleState) :
    (collaborators.ClosingReturns ∧
      ∃ last, (closingSteps collaborators label status summary).run state = .ok () last ∧
        last.statuses = state.statuses) ∨
    (¬ collaborators.ClosingReturns ∧
      ∃ error last, (closingSteps collaborators label status summary).run state =
        .error error last) := by
  have hstill := still_closingSteps collaborators label status summary state
  have hview {last : FallibleState}
      (hrun : (closingSteps collaborators label status summary).run state = .ok () last) :
      last.statuses = state.statuses := by
    rw [hrun] at hstill
    exact hstill
  unfold Collaborators.ClosingReturns
  cases hbatch : collaborators.closingBatch with
  | none =>
    cases hhook : collaborators.closingHook with
    | none =>
      have hrun : ∃ last, (closingSteps collaborators label status summary).run state =
          .ok () last := by
        simp only [closingSteps, closingSinks, hbatch, hhook]
        exact ⟨_, rfl⟩
      obtain ⟨last, hrun⟩ := hrun
      exact .inl ⟨by simp, last, hrun, hview hrun⟩
    | some error =>
      refine .inr ⟨by simp, error, ?_⟩
      simp only [closingSteps, closingSinks, hbatch, hhook]
      exact ⟨_, rfl⟩
  | some hook =>
    cases hook with
    | some error =>
      refine .inr ⟨by simp, error, ?_⟩
      simp only [closingSteps, closingSinks, hbatch]
      exact ⟨_, rfl⟩
    | none =>
      cases hhook : collaborators.closingHook with
      | none =>
        have hrun : ∃ last, (closingSteps collaborators label status summary).run state =
            .ok () last := by
          simp only [closingSteps, closingSinks, hbatch, hhook]
          exact ⟨_, rfl⟩
        obtain ⟨last, hrun⟩ := hrun
        exact .inl ⟨by simp, last, hrun, hview hrun⟩
      | some error =>
        refine .inr ⟨by simp, error, ?_⟩
        simp only [closingSteps, closingSinks, hbatch, hhook]
        exact ⟨_, rfl⟩

/-- A change to a terminal status and the closing steps resolve if the table allows the change
and the ledger hook returns. -/
theorem close_resolves_iff (status : SubSessionStatus) (hterminal : isReplayableStatus status)
    (label : SubSessionContract → String) (ledgerStatus summary : String)
    (report : FallibleState → SubSessionRunOutcome Outputs)
    (hreport : ∀ state, (report state).status = status) (state : FallibleState) :
    Resolves ((do
        within (changeStatus collaborators.runtime status)
        closingSteps collaborators label ledgerStatus summary
        let state ← get
        pure (report state) : FallibleRunner (SubSessionRunOutcome Outputs)).run state) ↔
      canTransitionSubSessionStatus state.subSession.status status ∧
        collaborators.ClosingReturns := by
  rw [run_bind]
  obtain ⟨hmoves, middle, hchange, hstatuses⟩ | ⟨hstays, error, last, hchange, -⟩ :=
    changeStatus_within collaborators status state
  · rw [hchange]
    dsimp only
    rw [run_bind]
    obtain ⟨hreturns, last, hrun, hlast⟩ | ⟨hthrows, error, last, hrun⟩ :=
      closingSteps_run collaborators label ledgerStatus summary middle
    · rw [hrun]
      refine iff_of_true (SettledAt.resolves ⟨?_, ?_⟩) ⟨hmoves, hreturns⟩
      · rw [hreport]
        exact hterminal
      · rw [hreport, hlast, hstatuses]
    · rw [hrun]
      exact iff_of_false (not_resolves_error _ _) fun h => hthrows h.2
  · rw [hchange]
    exact iff_of_false (not_resolves_error _ _) fun h => by rw [h.1] at hstays; cases hstays

theorem closingSettleCancelled_resolves_iff (reasonCode safeMessage : String)
    (state : FallibleState) :
    Resolves ((closingSettleCancelled collaborators reasonCode safeMessage).run state) ↔
      canTransitionSubSessionStatus state.subSession.status .cancelled ∧
        collaborators.ClosingReturns := by
  have hiff := close_resolves_iff collaborators .cancelled rfl
    (fun subSession => s!"sub_session_cancelled:{subSession.subSessionId}") "degraded" safeMessage
    (fun state => { bareOutcome state.subSession .cancelled with
      errorReport := some { reasonCode, safeMessage, retryable := false } }) (fun _ => rfl) state
  rw [← hiff]
  simp [closingSettleCancelled, settleCancelledWith, closingSteps]

theorem canTransition_cancelled_iff (status : SubSessionStatus) :
    canTransitionSubSessionStatus status .cancelled ↔
      isReplayableStatus status = false ∨ status = .cancelled := by
  cases status <;> decide

/-- What the `catch` branch resolves. -/
theorem catchSubSession_resolves_iff (error : Thrown) (hstate : InStore state) :
    Resolves ((catchSubSession collaborators error).run state) ↔
      Manageable collaborators error state := by
  have hmanageable : Manageable collaborators error state ↔
      (WillCancel error state → canTransitionSubSessionStatus state.subSession.status .cancelled =
        true) ∧ (¬ WillCancel error state → state.subSession.status ≠ .needsRevision) ∧
        (¬ SettledBefore error state → collaborators.ClosingReturns) := by
    rw [canTransition_cancelled_iff]
    exact ⟨fun h => ⟨h.1, h.2, h.3⟩, fun h => ⟨h.1, h.2.1, h.2.2⟩⟩
  rw [hmanageable, catchSubSession, run_bind, run_get]
  dsimp only
  by_cases hcancel : WillCancel error state
  · have hcondition : (state.aborted || isAbortLike error) := by simpa [WillCancel] using hcancel
    have hopen : ¬ SettledBefore error state := fun h => h.1 hcancel
    rw [if_pos hcondition, closingSettleCancelled_resolves_iff]
    simp [hcancel, hopen]
  · have hcondition : ¬ (state.aborted || isAbortLike error) := by simpa [WillCancel] using hcancel
    rw [if_neg hcondition]
    by_cases hsettled : state.subSession.status = .completed ∨
        state.subSession.status = .failed ∨ state.subSession.status = .cancelled
    · have hbefore : SettledBefore error state := ⟨hcancel, hsettled⟩
      rw [if_pos hsettled]
      refine iff_of_true (SettledAt.resolves ⟨?_, ?_⟩) ⟨fun h => absurd h hcancel, ?_, ?_⟩
      · change isReplayableStatus state.subSession.status
        rcases hsettled with h | h | h <;> rw [h] <;> rfl
      · change (state.subSession.status, _) = (state.subSession.status, _)
        exact congrArg (Prod.mk _) ((lastStored_append_event _ _ _).trans hstate)
      · intro _ hrevision
        rw [hrevision] at hsettled
        rcases hsettled with h | h | h <;> cases h
      · exact fun h => absurd hbefore h
    · have hopen : ¬ SettledBefore error state := fun h => hsettled h.2
      have hfails : canTransitionSubSessionStatus state.subSession.status .failed ↔
          state.subSession.status ≠ .needsRevision := by
        cases hstatus : state.subSession.status <;> simp_all <;> decide
      have hiff (label : SubSessionContract → String) := close_resolves_iff collaborators .failed
        rfl label "failed" (asErrorMessage error)
        (fun failed => { bareOutcome failed.subSession .failed with
          errorReport := some
            { reasonCode := "sub_session_handler_error", safeMessage := asErrorMessage error
              retryable := true }
          modelExecution := state.lastModelExecution <|>
            state.subSession.modelExecutionSnapshot.filter (·.status.isSome) }) (fun _ => rfl) state
      rw [if_neg hsettled]
      simp only [closingSteps, bind_assoc] at hiff
      rw [hiff, hfails]
      simp [hcancel, hopen]

end CatchBranch

/-! ## Runs -/

section Runs

variable (collaborators : Collaborators Outputs) (input : RunSubSessionInput)

/-- The run does not create a sub-session: the input is refused, or a finished sub-session is
stored under its key. -/
def Declines : Prop :=
  (refusal input).isSome ∨
    ((collaborators.runtime.loadSubSessionByIdempotencyKey input.command.idempotencyKey).filter
      (isReplayableStatus ·.status)).isSome

/-- The state in which the `try` branch begins. -/
def queuedState : FallibleState :=
  stateAfter ((storeSubSession collaborators input).run (initialFallibleState collaborators input))

/-- The condition under which a run contains the failures it meets: outside the `try` branch
the ledger hook returns where it is called, and an error thrown in the `try` branch leaves
something the `catch` branch can deal with. -/
structure ContainsFailures (handler : HandlerRun Outputs) : Prop where
  refusal : ∀ refused, refusal input = some refused → refused.ledgerSummary.isSome →
    collaborators.refusalHook = none
  created : ¬ Declines collaborators input → collaborators.createdHook = none
  cancelledBefore : ¬ Declines collaborators input →
    (collaborators.runtime.parentAborted || collaborators.runtime.isParentCancelled) →
      collaborators.ClosingReturns
  caught : ¬ Declines collaborators input →
    (collaborators.runtime.parentAborted || collaborators.runtime.isParentCancelled) = false →
      ∀ error state, (tryExecuteSubSession collaborators input handler).run
        (queuedState collaborators input) = .error error state →
          Manageable collaborators error state

theorem storeSubSession_run :
    (collaborators.createdHook = none ∧
      (storeSubSession collaborators input).run (initialFallibleState collaborators input) =
        .ok () (queuedState collaborators input) ∧
      (queuedState collaborators input).statuses = (.queued, some .queued)) ∨
    (collaborators.createdHook ≠ none ∧
      ∃ error last, (storeSubSession collaborators input).run
        (initialFallibleState collaborators input) = .error error last) := by
  cases hhook : collaborators.createdHook with
  | some error =>
    refine .inr ⟨by simp, error, ?_⟩
    simp only [storeSubSession, hhook]
    exact ⟨_, rfl⟩
  | none =>
    refine .inl ⟨rfl, ?_⟩
    unfold queuedState
    simp only [storeSubSession, hhook]
    cases input.modelPolicy.snapshot with
    | none => exact ⟨rfl, rfl⟩
    | some snapshot => exact ⟨rfl, rfl⟩

/-- What a run resolves from the first storing of the sub-session on. -/
theorem runStoredSubSession_resolves_iff (handler : HandlerRun Outputs) :
    Resolves ((runStoredSubSession collaborators input handler).run
      (initialFallibleState collaborators input)) ↔
        collaborators.createdHook = none ∧
        ((collaborators.runtime.parentAborted || collaborators.runtime.isParentCancelled) →
          collaborators.ClosingReturns) ∧
        ((collaborators.runtime.parentAborted || collaborators.runtime.isParentCancelled) = false →
          ∀ error state, (tryExecuteSubSession collaborators input handler).run
            (queuedState collaborators input) = .error error state →
              Manageable collaborators error state) := by
  rw [runStoredSubSession, run_bind]
  obtain ⟨hcreated, hrun, hstatuses⟩ | ⟨hthrows, error, last, hrun⟩ :=
    storeSubSession_run collaborators input
  · rw [hrun]
    dsimp only
    cases hstopped : (collaborators.runtime.parentAborted ||
        collaborators.runtime.isParentCancelled) with
    | true =>
      rw [if_pos rfl, closingSettleCancelled_resolves_iff]
      have hqueued : canTransitionSubSessionStatus
          (queuedState collaborators input).subSession.status .cancelled := by
        rw [show (queuedState collaborators input).subSession.status = .queued from
          congrArg Prod.fst hstatuses]
        rfl
      simp [hcreated, hqueued]
    | false =>
      rw [if_neg Bool.false_ne_true, Effects.run_tryCatch]
      have htry := tryExecuteSubSession_triple collaborators input handler _
        (inStore_of_statuses hstatuses)
      cases hresult : (tryExecuteSubSession collaborators input handler).run
          (queuedState collaborators input) with
      | ok outcome last =>
        rw [hresult] at htry
        refine iff_of_true htry.resolves ⟨hcreated, ?_, ?_⟩
        · exact fun h => absurd h Bool.false_ne_true
        · exact fun _ _ _ h => by cases h
      | error error last =>
        rw [hresult] at htry
        rw [catchSubSession_resolves_iff collaborators error htry]
        constructor
        · refine fun hmanageable => ⟨hcreated, fun h => absurd h Bool.false_ne_true, ?_⟩
          rintro - _ _ ⟨⟩
          exact hmanageable
        · exact fun h => h.2.2 rfl error last rfl
  · rw [hrun]
    exact iff_of_false (not_resolves_error _ _) fun h => hthrows h.1

/-- An outcome of a run that stored nothing. -/
theorem resolves_of_nothing_stored (hterminal : isReplayableStatus outcome.status)
    (hnothing : lastStored last.records = none) : Resolves (.ok outcome last) := by
  refine ⟨outcome, last, rfl, hterminal, fun status hstored => ?_⟩
  rw [hnothing] at hstored
  cases hstored

/-- A refused input is answered unless the ledger hook throws. -/
theorem refused_resolves_iff (refused : Refusal) :
    Resolves ((do
        let outcome ← within (refuseSubSession refused)
        if refused.ledgerSummary.isSome then
          throwIfSome collaborators.refusalHook
        pure outcome : FallibleRunner (SubSessionRunOutcome Outputs)).run
          (initialFallibleState collaborators input)) ↔
      (refused.ledgerSummary.isSome → collaborators.refusalHook = none) := by
  obtain ⟨errorReport, label, ledgerSummary⟩ := refused
  cases ledgerSummary with
  | none => exact iff_of_true (resolves_of_nothing_stored rfl rfl) fun h => by cases h
  | some summary =>
    cases hhook : collaborators.refusalHook with
    | none => exact iff_of_true (resolves_of_nothing_stored rfl rfl) fun _ => rfl
    | some error => exact iff_of_false (not_resolves_error error _) fun h => by cases h rfl

/-- A run contains the failures it meets if and only if the condition holds. -/
theorem failuresContained_iff (handler : HandlerRun Outputs) :
    Resolves ((runFallibleSubSession collaborators input handler).run
      (initialFallibleState collaborators input)) ↔
        ContainsFailures collaborators input handler := by
  unfold runFallibleSubSession
  cases hrefusal : refusal input with
  | some refused =>
    have hdeclines : Declines collaborators input := .inl (by rw [hrefusal]; rfl)
    rw [refused_resolves_iff]
    constructor
    · intro hreturns
      refine ⟨?_, fun h => absurd hdeclines h, fun h => absurd hdeclines h,
        fun h => absurd hdeclines h⟩
      intro _ hsame
      rw [hrefusal] at hsame
      exact Option.some.inj hsame ▸ hreturns
    · exact fun hcontains => hcontains.refusal refused hrefusal
  | none =>
    have hnone : ∀ refused, refusal input = some refused → refused.ledgerSummary.isSome →
        collaborators.refusalHook = none := by
      intro _ hsome
      rw [hrefusal] at hsome
      cases hsome
    cases hstored : (collaborators.runtime.loadSubSessionByIdempotencyKey
        input.command.idempotencyKey).filter (isReplayableStatus ·.status) with
    | some existing =>
      have hdeclines : Declines collaborators input := .inr (by rw [hstored]; rfl)
      have hterminal : isReplayableStatus existing.status :=
        (Option.filter_eq_some_iff.mp hstored).2
      refine iff_of_true (resolves_of_nothing_stored hterminal rfl) ⟨hnone, ?_, ?_, ?_⟩
      all_goals exact fun h => absurd hdeclines h
    | none =>
      have hcreates : ¬ Declines collaborators input := by
        rintro (h | h)
        · rw [hrefusal] at h
          cases h
        · rw [hstored] at h
          cases h
      rw [runStoredSubSession_resolves_iff]
      constructor
      · rintro ⟨hcreated, hcancelled, hcaught⟩
        exact ⟨hnone, fun _ => hcreated, fun _ => hcancelled, fun _ => hcaught⟩
      · exact fun hcontains => ⟨hcontains.created hcreates, hcontains.cancelledBefore hcreates,
          hcontains.caught hcreates⟩

end Runs

/-- A parent whose event log takes no event after the review. -/
def closedLog : Collaborators String where
  runtime := wantingRuntime
  call number :=
    { parentAborts := false
      thrown := if number = 5 then some (.error "Error" "event log is closed" none) else none }
  batch _ := false
  refusalHook := none
  createdHook := none
  closingBatch := none
  closingHook := none

/-- The sub-session was sent back for revision, and the call rejects. -/
theorem closedLog_escapes :
    ¬ Resolves ((runFallibleSubSession closedLog plainInput
      (.returns { resultReportId := "report", outputs := "draft" })).run
        (initialFallibleState closedLog plainInput)) := by
  rintro ⟨outcome, last, hrun, -⟩
  have hreturns := congrArg (fun result => (settled result).toBool) hrun
  have hrejects : (settled ((runFallibleSubSession closedLog plainInput
      (.returns { resultReportId := "report", outputs := "draft" })).run
        (initialFallibleState closedLog plainInput))).toBool = false := by
    decide +kernel
  cases hrejects.symm.trans hreturns

end Nobie.Orchestration
