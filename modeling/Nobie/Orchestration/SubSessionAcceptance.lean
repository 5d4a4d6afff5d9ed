/-
# Which sub-sessions count as completed

A handler acts on the sub-session through the same statuses as the runner. What the
runner's later steps read of it is small: the status, and whether the parent was
cancelled or finalized meanwhile. Over this situation the handler is a function, every
step of the runner has a short description, and the outcomes with status `completed`
are told apart: accepted by the review, suppressed, or left over from the handler.
-/

import Nobie.Orchestration.SubSessionRun

namespace Nobie.Orchestration

open Foundation Foundation.Effects EStateM

variable {Outputs : Type}

/-! ## The situation the handler leaves -/

structure Situation where
  status : SubSessionStatus
  (aborted parentFinalized : Bool)

def RunnerState.situation (state : RunnerState) : Situation where
  status := state.subSession.status
  aborted := state.aborted
  parentFinalized := state.parentFinalized

/-- The situation a handler leaves, and how it ends. Progress with a status that cannot
follow the present one is an error of that call, which the handler may catch. -/
def HandlerRun.ending :
    HandlerRun Outputs → Situation → Situation × Except Thrown (ResultReport Outputs)
  | .emitProgress _ status next, situation =>
    let target := status.getD situation.status
    if canTransitionSubSessionStatus situation.status target then
      (next none).ending { situation with status := target }
    else
      (next (some (invalidSubSessionStatusTransitionError situation.status target))).ending
        situation
  | .parentAborts next, situation => next.ending { situation with aborted := true }
  | .parentFinalizes next, situation => next.ending { situation with parentFinalized := true }
  | .returns result, situation => (situation, .ok result)
  | .throws error, situation => (situation, .error error)

variable (handler : HandlerRun Outputs) (runtime : SubSessionRuntime Outputs) {state : RunnerState}
  {error : Thrown} {last : RunnerState} {outcome : SubSessionRunOutcome Outputs}
  (modelExecution : ModelExecutionSnapshot) (result : ResultReport Outputs)
  {snapshot : ModelExecutionSnapshot} (input : RunSubSessionInput)

/-! ## The runner's steps -/

@[simp]
theorem record_run (entry : RunnerRecord) (state : RunnerState) :
    (record entry).run state = .ok () { state with records := state.records ++ [entry] } :=
  rfl

@[simp]
theorem appendParentEvent_run (label : SubSessionContract → String) (state : RunnerState) :
    (appendParentEvent label).run state =
      .ok () { state with
        records := state.records ++
          [.parentEvent state.subSession.parentRunId (label state.subSession)] } :=
  rfl

theorem changeStatus_run (status : SubSessionStatus) (state : RunnerState) :
    (changeStatus runtime status).run state =
      match transitionSubSessionStatus state.subSession status
          (runtime.now state.clockReadings) with
      | .ok subSession =>
        .ok () { state with
          subSession
          clockReadings := state.clockReadings + 1
          records := state.records ++ [.stored subSession] }
      | .error error => .error error { state with clockReadings := state.clockReadings + 1 } := by
  unfold changeStatus readClock
  simp only [run_bind, run_modifyGet, run_get]
  cases transitionSubSessionStatus state.subSession status (runtime.now state.clockReadings) with
  | ok | error => rfl

/-- A status that may follow is taken, and nothing else of the situation changes. -/
theorem changeStatus_ok {status : SubSessionStatus}
    (hmoves : canTransitionSubSessionStatus state.subSession.status status) :
    ∃ last, (changeStatus runtime status).run state = .ok () last ∧
      last.situation = { state.situation with status := status } := by
  rw [changeStatus_run, transitionSubSessionStatus, if_pos hmoves]
  exact ⟨_, rfl, rfl⟩

/-- A status that may not follow is an error that changes nothing of the situation. -/
theorem changeStatus_error {status : SubSessionStatus}
    (hstays : ¬ canTransitionSubSessionStatus state.subSession.status status) :
    ∃ last, (changeStatus runtime status).run state =
        .error (invalidSubSessionStatusTransitionError state.subSession.status status) last ∧
      last.situation = state.situation := by
  rw [changeStatus_run, transitionSubSessionStatus, if_neg hstays]
  exact ⟨_, rfl, rfl⟩

/-- Progress with a status that may follow takes it. -/
theorem emitProgress_ok (summary : String) (status : Option SubSessionStatus)
    (hmoves : canTransitionSubSessionStatus state.situation.status
      (status.getD state.situation.status)) :
    ∃ last, (attempt (emitProgress runtime summary status)).run state = .ok none last ∧
      last.situation = { state.situation with status := status.getD state.situation.status } := by
  change canTransitionSubSessionStatus state.subSession.status
    (status.getD state.subSession.status) at hmoves
  change ∃ last, _ ∧ _ = Situation.mk (status.getD state.subSession.status) _ _
  generalize htarget : status.getD state.subSession.status = target at hmoves ⊢
  rw [run_attempt, emitProgress]
  simp only [run_bind, run_get, htarget]
  by_cases hsame : target = state.subSession.status
  · rw [if_neg (not_not_intro hsame), hsame]
    exact ⟨_, rfl, rfl⟩
  · obtain ⟨last, hrun, hsituation⟩ := changeStatus_ok runtime hmoves
    rw [if_pos hsame, run_bind, hrun]
    exact ⟨_, rfl, hsituation⟩

/-- Progress with a status that may not follow throws and changes nothing. -/
theorem emitProgress_error (summary : String) (status : Option SubSessionStatus)
    (hstays : ¬ canTransitionSubSessionStatus state.situation.status
      (status.getD state.situation.status)) :
    ∃ last, (attempt (emitProgress runtime summary status)).run state =
        .ok (some (invalidSubSessionStatusTransitionError state.situation.status
          (status.getD state.situation.status))) last ∧
      last.situation = state.situation := by
  change ¬ canTransitionSubSessionStatus state.subSession.status
    (status.getD state.subSession.status) at hstays
  change ∃ last, _ = EStateM.Result.ok (some (invalidSubSessionStatusTransitionError
    state.subSession.status (status.getD state.subSession.status))) _ ∧ _
  generalize htarget : status.getD state.subSession.status = target at hstays ⊢
  have hother : target ≠ state.subSession.status := by
    intro hsame
    exact hstays (by simp [canTransitionSubSessionStatus, hsame])
  obtain ⟨last, hrun, hsituation⟩ := changeStatus_error runtime hstays
  rw [run_attempt, emitProgress]
  simp only [run_bind, run_get, htarget]
  rw [if_pos hother, run_bind, hrun]
  exact ⟨_, rfl, hsituation⟩

/-- The runner's execution of a handler is what the handler's ending says. -/
theorem runHandler_ending (handler : HandlerRun Outputs) (state : RunnerState) :
    settled ((runHandler runtime handler).run state) = (handler.ending state.situation).2 ∧
      (stateAfter ((runHandler runtime handler).run state)).situation =
        (handler.ending state.situation).1 := by
  induction handler generalizing state with
  | emitProgress summary status next ih =>
    rw [runHandler, run_bind, HandlerRun.ending]
    by_cases hmoves : canTransitionSubSessionStatus state.situation.status
        (status.getD state.situation.status)
    · obtain ⟨last, hrun, hsituation⟩ := emitProgress_ok runtime summary status hmoves
      rw [hrun, if_pos hmoves, ← hsituation]
      exact ih none last
    · obtain ⟨last, hrun, hsituation⟩ := emitProgress_error runtime summary status hmoves
      rw [hrun, if_neg hmoves, ← hsituation]
      exact ih _ last
  | parentAborts next ih => exact ih { state with aborted := true }
  | parentFinalizes next ih => exact ih { state with parentFinalized := true }
  | returns | throws => exact ⟨rfl, rfl⟩

theorem isAbortLike_asError (hordinary : isAbortLike error = false) :
    isAbortLike (asError error) = false := by
  cases error with
  | error name message code => exact hordinary
  | object | value => rfl

/-! ## Outcomes and the errors behind them -/

/-- What a completed outcome of a run that was no replay has behind it: the review of the
result it carries accepted it, or the parent had been finalized. -/
def CompletedOnlyIfAccepted (runtime : SubSessionRuntime Outputs)
    (outcome : SubSessionRunOutcome Outputs) : Prop :=
  outcome.replayed = false → outcome.status = .completed →
    (∃ result review, outcome.resultReport = some result ∧ outcome.review = some review ∧
      (runtime.reviewResultReport result).verdict = .ok review ∧ review.status = .completed) ∨
    outcome.integrationSuppressed

/-- All outcomes of an effect keep to it. -/
def AcceptsFrom (runtime : SubSessionRuntime Outputs)
    (effect : Runner (SubSessionRunOutcome Outputs)) (state : RunnerState) : Prop :=
  ∀ outcome last, effect.run state = .ok outcome last → CompletedOnlyIfAccepted runtime outcome

/-- An error that finds the status at `completed` and does not cancel the run. -/
def LeavesCompleted (result : EStateM.Result Thrown RunnerState
    (SubSessionRunOutcome Outputs)) : Prop :=
  ∃ error last, result = .error error last ∧ last.situation.status = .completed ∧
    last.situation.aborted = false ∧ isAbortLike error = false

/-- A review that neither accepts the result nor meets a cancellation. -/
def ReviewRun.TurnsDown (review : ReviewRun) : Prop :=
  review.parentAborts = false ∧
    match review.verdict with
    | .ok verdict => verdict.status ≠ .completed
    | .error error => isAbortLike error = false

theorem acceptsFrom_of_status {runtime : SubSessionRuntime Outputs}
    {effect : Runner (SubSessionRunOutcome Outputs)}
    (hother : ∀ outcome last, effect.run state = .ok outcome last → outcome.status ≠ .completed) :
    AcceptsFrom runtime effect state := by
  intro outcome last hrun _ hcompleted
  exact absurd hcompleted (hother outcome last hrun)

/-- Cancelling ends with the status `cancelled`, or leaves the situation as it is. -/
theorem settleCancelled_cases (reasonCode safeMessage : String) (state : RunnerState) :
    (∃ outcome last, (settleCancelled runtime reasonCode safeMessage).run state =
      .ok outcome last ∧ outcome.status = .cancelled) ∨
    (∃ error last, (settleCancelled runtime reasonCode safeMessage).run state =
      .error error last ∧ last.situation = state.situation) := by
  rw [settleCancelled, run_bind]
  by_cases hmoves : canTransitionSubSessionStatus state.subSession.status .cancelled
  · obtain ⟨last, hrun, -⟩ := changeStatus_ok runtime hmoves
    rw [hrun]
    exact .inl ⟨_, _, rfl, rfl⟩
  · obtain ⟨last, hrun, hsituation⟩ := changeStatus_error runtime hmoves
    rw [hrun]
    exact .inr ⟨_, _, rfl, hsituation⟩

theorem settleCancelled_status {runtime : SubSessionRuntime Outputs}
    {reasonCode safeMessage : String}
    (hrun : (settleCancelled runtime reasonCode safeMessage).run state = .ok outcome last) :
    outcome.status = .cancelled := by
  obtain ⟨found, _, hfound, hstatus⟩ | ⟨_, _, herror, _⟩ :=
    settleCancelled_cases runtime reasonCode safeMessage state
  · rw [hfound] at hrun
    injection hrun with hsame
    rw [← hsame]
    exact hstatus
  · rw [herror] at hrun
    cases hrun

/-- A late result completes the sub-session and is marked as suppressed; where the status
cannot become `completed`, it is not `completed`. -/
theorem suppressLateResult_cases (state : RunnerState) :
    (∃ outcome last, (suppressLateResult runtime modelExecution).run state = .ok outcome last ∧
      outcome.integrationSuppressed) ∨
    (∃ error last, (suppressLateResult runtime modelExecution).run state = .error error last ∧
      last.situation.status ≠ .completed) := by
  rw [suppressLateResult, run_bind]
  by_cases hmoves : canTransitionSubSessionStatus state.subSession.status .completed
  · obtain ⟨last, hrun, -⟩ := changeStatus_ok runtime hmoves
    rw [hrun]
    exact .inl ⟨_, _, rfl, rfl⟩
  · obtain ⟨last, hrun, hsituation⟩ := changeStatus_error runtime hmoves
    rw [hrun]
    refine .inr ⟨_, _, rfl, ?_⟩
    intro hcompleted
    rw [hsituation] at hcompleted
    apply hmoves
    change state.subSession.status = .completed at hcompleted
    rw [hcompleted]
    decide

/-- What the review does to the situation. -/
def Situation.reviewed (situation : Situation) (review : ReviewRun) : Situation :=
  { situation with aborted := situation.aborted || review.parentAborts }

theorem reviewResultReport_run (state : RunnerState) :
    settled ((reviewResultReport runtime result).run state) =
        (runtime.reviewResultReport result).verdict ∧
      (stateAfter ((reviewResultReport runtime result).run state)).situation =
        state.situation.reviewed (runtime.reviewResultReport result) := by
  unfold reviewResultReport Situation.reviewed
  generalize runtime.reviewResultReport result = review
  obtain ⟨parentAborts, verdict⟩ := review
  cases parentAborts with
  | true =>
    rw [Bool.or_true]
    cases verdict with
    | ok verdict => exact ⟨rfl, rfl⟩
    | error error => exact ⟨rfl, rfl⟩
  | false =>
    rw [Bool.or_false]
    cases verdict with
    | ok verdict => exact ⟨rfl, rfl⟩
    | error error => exact ⟨rfl, rfl⟩

/-- An integrated result has the review's status and carries the review. -/
theorem integrateReviewed_ok {runtime : SubSessionRuntime Outputs} {result : ResultReport Outputs}
    {review : SubAgentResultReview}
    (hreview : (runtime.reviewResultReport result).verdict = .ok review)
    (hmoves : canTransitionSubSessionStatus state.situation.status
      review.status.toSubSessionStatus) :
    ∃ outcome last, (integrateReviewed runtime result modelExecution).run state = .ok outcome last ∧
      outcome.resultReport = some result ∧ outcome.review = some review ∧
      outcome.status = review.status.toSubSessionStatus := by
  obtain ⟨hsettled, hsituation⟩ := reviewResultReport_run runtime result state
  rw [hreview] at hsettled
  have hstatus : (stateAfter ((reviewResultReport runtime result).run state)).subSession.status =
      state.situation.status := congrArg Situation.status hsituation
  rw [← hstatus] at hmoves
  obtain ⟨last, hrun, hlast⟩ := changeStatus_ok runtime hmoves
  rw [integrateReviewed, run_bind, eq_ok_of_settled hsettled]
  simp only [run_bind, hrun, appendParentEvent_run, record_run]
  cases hfeedback : review.feedbackRequested with
  | true | false =>
    refine ⟨_, _, rfl, rfl, rfl, ?_⟩
    exact congrArg Situation.status hlast

/-- A result that is not integrated fails with the review's error, or with the refusal of
the review's status. -/
theorem integrateReviewed_error {runtime : SubSessionRuntime Outputs}
    {result : ResultReport Outputs}
    (hreview : (runtime.reviewResultReport result).verdict = .error error ∨
      ∃ review, (runtime.reviewResultReport result).verdict = .ok review ∧
        ¬ canTransitionSubSessionStatus state.situation.status review.status.toSubSessionStatus ∧
        error = invalidSubSessionStatusTransitionError state.situation.status
          review.status.toSubSessionStatus) :
    ∃ last, (integrateReviewed runtime result modelExecution).run state = .error error last ∧
      last.situation = state.situation.reviewed (runtime.reviewResultReport result) := by
  obtain ⟨hsettled, hsituation⟩ := reviewResultReport_run runtime result state
  rw [integrateReviewed, run_bind]
  obtain hthrown | ⟨review, hverdict, hstays, rfl⟩ := hreview
  · rw [hthrown] at hsettled
    rw [eq_error_of_settled hsettled]
    exact ⟨_, rfl, hsituation⟩
  · rw [hverdict] at hsettled
    have hstatus : state.situation.status =
        (stateAfter ((reviewResultReport runtime result).run state)).subSession.status :=
      (congrArg Situation.status hsituation).symm
    rw [hstatus] at hstays ⊢
    obtain ⟨last, hrun, hlast⟩ := changeStatus_error runtime hstays
    rw [eq_ok_of_settled hsettled]
    simp only [run_bind, hrun]
    exact ⟨_, rfl, hlast.trans hsituation⟩

/-- The runner integrates a result, or an error says why it does not. -/
theorem integrateReviewed_cases (state : RunnerState) :
    (∃ review, (runtime.reviewResultReport result).verdict = .ok review ∧
      canTransitionSubSessionStatus state.situation.status review.status.toSubSessionStatus) ∨
    ∃ error, (runtime.reviewResultReport result).verdict = .error error ∨
      ∃ review, (runtime.reviewResultReport result).verdict = .ok review ∧
        ¬ canTransitionSubSessionStatus state.situation.status review.status.toSubSessionStatus ∧
        error = invalidSubSessionStatusTransitionError state.situation.status
          review.status.toSubSessionStatus := by
  cases hverdict : (runtime.reviewResultReport result).verdict with
  | error error => exact .inr ⟨error, .inl rfl⟩
  | ok review =>
    by_cases hmoves : canTransitionSubSessionStatus state.situation.status
        review.status.toSubSessionStatus
    · exact .inl ⟨review, rfl, hmoves⟩
    · exact .inr ⟨_, .inr ⟨review, rfl, hmoves, rfl⟩⟩

theorem toSubSessionStatus_eq_completed {status : ReviewStatus} :
    status.toSubSessionStatus = .completed ↔ status = .completed := by
  cases status <;> simp [ReviewStatus.toSubSessionStatus]

theorem integrateReviewed_accepts (modelExecution : ModelExecutionSnapshot) (state : RunnerState) :
    AcceptsFrom runtime (integrateReviewed runtime result modelExecution) state := by
  intro outcome last hrun _ hcompleted
  obtain ⟨review, hverdict, hmoves⟩ | ⟨error, hreview⟩ :=
    integrateReviewed_cases runtime result state
  · obtain ⟨found, after, hfound, hreport, hreview, hstatus⟩ :=
      integrateReviewed_ok modelExecution hverdict hmoves
    rw [hfound] at hrun
    injection hrun with hsame
    subst hsame
    rw [hcompleted] at hstatus
    exact .inl ⟨result, review, hreport, hreview, hverdict,
      toSubSessionStatus_eq_completed.mp hstatus.symm⟩
  · obtain ⟨after, herror, -⟩ := integrateReviewed_error modelExecution hreview
    rw [herror] at hrun
    cases hrun

/-- Integration leaves an unaccepted `completed` behind exactly where the status was
`completed` already and the review turns the result down. -/
theorem integrateReviewed_leaves (modelExecution : ModelExecutionSnapshot) (state : RunnerState) :
    LeavesCompleted ((integrateReviewed runtime result modelExecution).run state) ↔
      state.situation.status = .completed ∧ state.situation.aborted = false ∧
        (runtime.reviewResultReport result).TurnsDown := by
  obtain ⟨review, hverdict, hmoves⟩ | ⟨error, hreview⟩ :=
    integrateReviewed_cases runtime result state
  · obtain ⟨outcome, last, hrun, -⟩ := integrateReviewed_ok modelExecution hverdict hmoves
    rw [hrun]
    constructor
    · rintro ⟨_, _, herror, _⟩
      cases herror
    · rintro ⟨hcompleted, _, _, hdown⟩
      rw [hverdict] at hdown
      rw [hcompleted] at hmoves
      have hsame := (isReplayableStatus_iff .completed).mp rfl _ hmoves
      exact absurd (toSubSessionStatus_eq_completed.mp hsame) hdown
  · obtain ⟨last, hrun, hsituation⟩ := integrateReviewed_error modelExecution hreview
    rw [hrun]
    have hdown (hcompleted : state.situation.status = .completed) :
        (runtime.reviewResultReport result).TurnsDown ↔
          (runtime.reviewResultReport result).parentAborts = false ∧ isAbortLike error = false := by
      unfold ReviewRun.TurnsDown
      obtain hthrown | ⟨review, hverdict, hstays, rfl⟩ := hreview
      · rw [hthrown]
      · have hother : review.status ≠ .completed := by
          intro hsame
          apply hstays
          rw [hcompleted, hsame]
          rfl
        rw [hverdict]
        exact ⟨fun h => ⟨h.1, rfl⟩, fun h => ⟨h.1, hother⟩⟩
    constructor
    · rintro ⟨_, _, herror, hcompleted, haborted, hordinary⟩
      injection herror with hsame hlast
      subst hsame hlast
      rw [hsituation] at hcompleted haborted
      obtain ⟨hbefore, hmeanwhile⟩ := Bool.or_eq_false_iff.mp haborted
      exact ⟨hcompleted, hbefore, (hdown hcompleted).mpr ⟨hmeanwhile, hordinary⟩⟩
    · rintro ⟨hcompleted, hbefore, hturned⟩
      obtain ⟨hmeanwhile, hordinary⟩ := (hdown hcompleted).mp hturned
      refine ⟨_, _, rfl, ?_, ?_, hordinary⟩
      · rw [hsituation]
        exact hcompleted
      · rw [hsituation]
        exact Bool.or_eq_false_iff.mpr ⟨hbefore, hmeanwhile⟩

/-! ## The settling of a result -/

/-- The state with the audit of the execution. -/
def RunnerState.audited (state : RunnerState) (modelExecution : ModelExecutionSnapshot) :
    RunnerState :=
  { state with
    lastModelExecution := some modelExecution
    subSession.modelExecutionSnapshot := some modelExecution }

theorem settleResult_run (modelExecution : ModelExecutionSnapshot) (state : RunnerState) :
    (settleResult runtime result modelExecution).run state =
      if state.aborted then
        (markCancelled runtime "sub_session_cancelled").run (state.audited modelExecution)
      else if state.parentFinalized then
        (suppressLateResult runtime modelExecution).run (state.audited modelExecution)
      else
        (integrateReviewed runtime result modelExecution).run (state.audited modelExecution) := by
  obtain ⟨subSession, aborted, parentFinalized, _, _, _⟩ := state
  cases aborted with
  | true => rfl
  | false => cases parentFinalized <;> rfl

theorem settleResult_accepts (modelExecution : ModelExecutionSnapshot) (state : RunnerState) :
    AcceptsFrom runtime (settleResult runtime result modelExecution) state := by
  intro outcome last hrun
  rw [settleResult_run] at hrun
  split at hrun
  next =>
    have hcancelled : outcome.status = .cancelled := settleCancelled_status hrun
    intro _ hcompleted
    rw [hcancelled] at hcompleted
    cases hcompleted
  next =>
    split at hrun
    next =>
      intro _ _
      obtain ⟨found, after, hfound, hsuppressed⟩ | ⟨_, _, herror, _⟩ :=
        suppressLateResult_cases runtime modelExecution (state.audited modelExecution)
      · rw [hfound] at hrun
        injection hrun with hsame
        exact .inr (hsame ▸ hsuppressed)
      · rw [herror] at hrun
        cases hrun
    next => exact integrateReviewed_accepts runtime result modelExecution _ outcome last hrun

/-- Settling a result leaves an unaccepted `completed` behind exactly where the status was
`completed` already, the parent neither cancelled nor finalized, and the review turns the
result down. -/
theorem settleResult_leaves (modelExecution : ModelExecutionSnapshot) (state : RunnerState) :
    LeavesCompleted ((settleResult runtime result modelExecution).run state) ↔
      state.situation.status = .completed ∧ state.situation.aborted = false ∧
        state.situation.parentFinalized = false ∧
        (runtime.reviewResultReport result).TurnsDown := by
  rw [settleResult_run]
  split
  next haborted =>
    have hsignal : state.situation.aborted := haborted
    constructor
    · rintro ⟨error, last, herror, _, hlive, _⟩
      obtain ⟨_, _, hfound, _⟩ | ⟨_, _, hfound, hsituation⟩ := settleCancelled_cases runtime
        "sub_session_cancelled" "Sub-session execution was cancelled."
        (state.audited modelExecution)
      · rw [markCancelled, hfound] at herror
        cases herror
      · rw [markCancelled, hfound] at herror
        injection herror with _ hlast
        rw [← hlast, hsituation] at hlive
        cases hsignal.symm.trans hlive
    · rintro ⟨_, hlive, _⟩
      cases hsignal.symm.trans hlive
  next haborted =>
    split
    next hfinalized =>
      have hsignal : state.situation.parentFinalized := hfinalized
      constructor
      · rintro ⟨error, last, herror, hcompleted, _⟩
        obtain ⟨_, _, hfound, _⟩ | ⟨_, _, hfound, hother⟩ :=
          suppressLateResult_cases runtime modelExecution (state.audited modelExecution)
        · rw [hfound] at herror
          cases herror
        · rw [hfound] at herror
          injection herror with _ hlast
          exact absurd (hlast ▸ hcompleted) hother
      · rintro ⟨_, _, hopen, _⟩
        cases hsignal.symm.trans hopen
    next hfinalized =>
      have hopen : state.situation.parentFinalized = false := Bool.eq_false_iff.mpr hfinalized
      refine (integrateReviewed_leaves runtime result modelExecution _).trans ?_
      change state.situation.status = _ ∧ state.situation.aborted = _ ∧ _ ↔ _
      simp only [hopen, true_and]

/-! ## The execution and its recovery -/

/-- The handler leaves the status at `completed`, the parent is not cancelled, and the
handler then fails or its result is turned down. -/
def HandlerRun.LeavesCompleted (handler : HandlerRun Outputs)
    (runtime : SubSessionRuntime Outputs) : Prop :=
  let ending := handler.ending ⟨.running, false, runtime.parentFinalized⟩
  ending.1.status = .completed ∧ ending.1.aborted = false ∧
    match ending.2 with
    | .error error => isAbortLike error = false
    | .ok result => ending.1.parentFinalized = false ∧ (runtime.reviewResultReport result).TurnsDown

theorem executeWithModelPolicy_ok {input : RunSubSessionInput} {handler : HandlerRun Outputs}
    {result : ResultReport Outputs} (hsnapshot : input.modelPolicy.snapshot = some snapshot)
    (hresult : (handler.ending state.situation).2 = .ok result) :
    ∃ last, (executeWithModelPolicy runtime input handler).run state =
        .ok (result, { snapshot with status := some "completed" }) last ∧
      last.situation = (handler.ending state.situation).1 := by
  obtain ⟨hsettled, hsituation⟩ := runHandler_ending runtime handler state
  rw [hresult] at hsettled
  have hrun := eq_ok_of_settled hsettled
  generalize stateAfter ((runHandler runtime handler).run state) = returned at hrun hsituation
  unfold executeWithModelPolicy
  rw [hsnapshot]
  simp only [Effects.run_tryCatch, run_bind, hrun, record_run]
  exact ⟨_, rfl, hsituation⟩

/-- A handler's error reaches the runner, as an `Error` unless it cancels the run. -/
theorem executeWithModelPolicy_error {input : RunSubSessionInput} {handler : HandlerRun Outputs}
    (hsnapshot : input.modelPolicy.snapshot = some snapshot)
    (herror : (handler.ending state.situation).2 = .error error) :
    ∃ last, (executeWithModelPolicy runtime input handler).run state =
        .error (if last.situation.aborted || isAbortLike error then error else asError error) last ∧
      last.situation = (handler.ending state.situation).1 := by
  obtain ⟨hsettled, hsituation⟩ := runHandler_ending runtime handler state
  rw [herror] at hsettled
  have hrun := eq_error_of_settled hsettled
  generalize stateAfter ((runHandler runtime handler).run state) = thrown at hrun hsituation
  unfold executeWithModelPolicy
  rw [hsnapshot]
  simp only [Effects.run_tryCatch, run_bind, hrun, run_get]
  by_cases hcancels : (thrown.aborted || isAbortLike error)
  · rw [if_pos hcancels]
    refine ⟨thrown, ?_, hsituation⟩
    change _ = EStateM.Result.error (ite ((thrown.aborted || isAbortLike error)) _ _) _
    rw [if_pos hcancels]
    rfl
  · rw [if_neg hcancels]
    let failedExecution : ModelExecutionSnapshot := { snapshot with status := some "failed" }
    refine ⟨{ thrown with subSession.modelExecutionSnapshot := some failedExecution }, ?_,
      hsituation⟩
    change _ = EStateM.Result.error (ite ((thrown.aborted || isAbortLike error)) _ _) _
    rw [if_neg hcancels]
    rfl

/-- Starting a queued sub-session leads to the handler with the status `running`. -/
theorem executeSubSession_run (handler : HandlerRun Outputs)
    (hqueued : state.situation.status = .queued) :
    ∃ started, started.situation = { state.situation with status := .running } ∧
      (executeSubSession runtime input handler).run state =
        match (executeWithModelPolicy runtime input handler).run started with
        | .ok execution last => (settleResult runtime execution.1 execution.2).run last
        | .error error last => .error error last := by
  have hmoves : canTransitionSubSessionStatus state.subSession.status .running := by
    change state.subSession.status = .queued at hqueued
    rw [hqueued]
    decide
  obtain ⟨last, hrun, hsituation⟩ := changeStatus_ok runtime hmoves
  let started : RunnerState :=
    { last with
      records := last.records ++ [.parentEvent last.subSession.parentRunId
        s!"sub_session_started:{last.subSession.subSessionId}"] }
  refine ⟨started, hsituation, ?_⟩
  simp only [executeSubSession, run_bind, hrun, appendParentEvent_run]
  cases (executeWithModelPolicy runtime input handler).run started <;> rfl

theorem executeSubSession_accepts {runtime : SubSessionRuntime Outputs}
    (handler : HandlerRun Outputs) (hqueued : state.situation.status = .queued) :
    AcceptsFrom runtime (executeSubSession runtime input handler) state := by
  intro outcome last hrun
  obtain ⟨started, -, hexecute⟩ := executeSubSession_run runtime input handler hqueued
  rw [hexecute] at hrun
  cases hpolicy : (executeWithModelPolicy runtime input handler).run started with
  | ok execution returned =>
    rw [hpolicy] at hrun
    exact settleResult_accepts runtime execution.1 execution.2 returned outcome last hrun
  | error error thrown =>
    rw [hpolicy] at hrun
    cases hrun

/-- Without a model the execution fails at once, with the status still `running`. -/
theorem executeSubSession_without_model {runtime : SubSessionRuntime Outputs}
    {input : RunSubSessionInput} (hqueued : state.situation.status = .queued)
    (hsnapshot : input.modelPolicy.snapshot = none) :
    ¬ LeavesCompleted ((executeSubSession runtime input handler).run state) := by
  rintro ⟨error, last, hrun, hcompleted, _⟩
  obtain ⟨started, hstarted, hexecute⟩ := executeSubSession_run runtime input handler hqueued
  rw [hexecute, executeWithModelPolicy, hsnapshot] at hrun
  injection hrun with _ hlast
  rw [← hlast, hstarted] at hcompleted
  cases hcompleted

/-- The execution leaves an unaccepted `completed` behind exactly where the handler does. -/
theorem executeSubSession_leaves {runtime : SubSessionRuntime Outputs} {input : RunSubSessionInput}
    (hqueued : state.situation = ⟨.queued, false, runtime.parentFinalized⟩)
    (hsnapshot : input.modelPolicy.snapshot = some snapshot) :
    LeavesCompleted ((executeSubSession runtime input handler).run state) ↔
      handler.LeavesCompleted runtime := by
  obtain ⟨started, hstarted, hexecute⟩ :=
    executeSubSession_run runtime input handler (congrArg Situation.status hqueued)
  rw [hqueued] at hstarted
  rw [hexecute, HandlerRun.LeavesCompleted, ← hstarted]
  cases hending : (handler.ending started.situation).2 with
  | ok result =>
    obtain ⟨last, hrun, hlast⟩ := executeWithModelPolicy_ok runtime hsnapshot hending
    rw [hrun]
    rw [settleResult_leaves, hlast]
  | error error =>
    obtain ⟨last, hrun, hlast⟩ := executeWithModelPolicy_error runtime hsnapshot hending
    rw [hrun, ← hlast]
    constructor
    · rintro ⟨_, _, herror, hcompleted, haborted, hordinary⟩
      injection herror with hsame hstate
      subst hsame hstate
      refine ⟨hcompleted, haborted, ?_⟩
      rw [haborted, Bool.false_or] at hordinary
      by_cases habort : isAbortLike error
      · rw [if_pos habort] at hordinary
        exact hordinary
      · exact Bool.eq_false_iff.mpr habort
    · rintro ⟨hcompleted, haborted, hordinary⟩
      refine ⟨_, last, rfl, hcompleted, haborted, ?_⟩
      rw [haborted, Bool.false_or, if_neg (by rw [hordinary]; decide)]
      exact isAbortLike_asError hordinary

/-- An outcome of the `catch` branch that counts as completed was completed before. -/
theorem recoverSubSession_status {runtime : SubSessionRuntime Outputs}
    (hrun : (recoverSubSession runtime error).run state = .ok outcome last)
    (hcompleted : outcome.status = .completed) :
    state.situation.status = .completed ∧ state.situation.aborted = false ∧
      isAbortLike error = false := by
  rw [recoverSubSession, run_bind, run_get] at hrun
  dsimp only at hrun
  split at hrun
  next =>
    have hcancelled : outcome.status = .cancelled := settleCancelled_status hrun
    rw [hcancelled] at hcompleted
    cases hcompleted
  next hcancels =>
    obtain ⟨haborted, hordinary⟩ := Bool.or_eq_false_iff.mp (Bool.eq_false_iff.mpr hcancels)
    refine ⟨?_, haborted, hordinary⟩
    split at hrun
    next =>
      injection hrun with hsame
      rw [← hsame] at hcompleted
      exact hcompleted
    next hterminal =>
      -- Failing the sub-session gives the status `failed`, or does not return.
      rw [run_bind] at hrun
      cases hfailed : (changeStatus runtime .failed).run state with
      | ok value failed =>
        rw [hfailed] at hrun
        injection hrun with hsame
        rw [← hsame] at hcompleted
        cases hcompleted
      | error thrown failed =>
        rw [hfailed] at hrun
        cases hrun

/-- The `catch` branch takes a status `completed` for one the runner had settled. -/
theorem recoverSubSession_completed (hcompleted : state.situation.status = .completed)
    (haborted : state.situation.aborted = false) (hordinary : isAbortLike error = false) :
    ∃ outcome last, (recoverSubSession runtime error).run state = .ok outcome last ∧
      ¬ CompletedOnlyIfAccepted runtime outcome := by
  have hlive : ¬ (state.aborted || isAbortLike error) := by
    change state.aborted = false at haborted
    rw [haborted, hordinary]
    decide
  rw [recoverSubSession, run_bind, run_get]
  dsimp only
  have hstatus : state.subSession.status = .completed := hcompleted
  rw [if_neg hlive, if_pos (Or.inl hstatus)]
  refine ⟨_, _, rfl, ?_⟩
  intro haccepted
  obtain ⟨_, _, hreport, _⟩ | hsuppressed := haccepted rfl hcompleted
  · cases hreport
  · cases hsuppressed

theorem recoverSubSession_accepts {runtime : SubSessionRuntime Outputs}
    {body : Runner (SubSessionRunOutcome Outputs)} (hbody : AcceptsFrom runtime body state) :
    AcceptsFrom runtime (tryCatch body (recoverSubSession runtime)) state ↔
      ¬ LeavesCompleted (body.run state) := by
  unfold AcceptsFrom
  rw [Effects.run_tryCatch]
  cases hrun : body.run state with
  | ok outcome last =>
    refine iff_of_true ?_ ?_
    · intro found after hfound
      exact hbody found after (hrun.trans hfound)
    · rintro ⟨_, _, herror, _⟩
      cases herror
  | error error last =>
    constructor
    · rintro haccepts ⟨_, _, herror, hcompleted, haborted, hordinary⟩
      injection herror with hsame hstate
      subst hsame hstate
      obtain ⟨outcome, after, hfound, hunaccepted⟩ :=
        recoverSubSession_completed runtime hcompleted haborted hordinary
      exact hunaccepted (haccepts outcome after hfound)
    · intro hleaves outcome after hfound _ hcompleted
      obtain ⟨hstatus, haborted, hordinary⟩ := recoverSubSession_status hfound hcompleted
      exact absurd ⟨error, last, rfl, hstatus, haborted, hordinary⟩ hleaves

/-! ## The whole run -/

/-- The runner gets as far as calling the handler. -/
def CallsHandler (runtime : SubSessionRuntime Outputs) (input : RunSubSessionInput) : Prop :=
  refusal input = none ∧
    (runtime.loadSubSessionByIdempotencyKey input.command.idempotencyKey).filter
      (isReplayableStatus ·.status) = none ∧
    (runtime.persistSubSession ∨
      runtime.reloadSubSessionByIdempotencyKey input.command.idempotencyKey = none) ∧
    runtime.parentAborted = false ∧ runtime.isParentCancelled = false ∧
    input.modelPolicy.snapshot ≠ none

/-- A new sub-session is queued. -/
theorem queueSubSession_run (hcreated : state.situation.status = .created) :
    ∃ queued, (queueSubSession runtime input).run state = .ok () queued ∧
      queued.situation = { state.situation with status := .queued } := by
  have hmoves : canTransitionSubSessionStatus state.subSession.status .queued := by
    change state.subSession.status = .created at hcreated
    rw [hcreated]
    decide
  simp only [queueSubSession, run_bind, appendParentEvent_run, record_run,
    changeStatus_run, transitionSubSessionStatus, if_pos hmoves]
  cases input.modelPolicy.snapshot with
  | none | some => exact ⟨_, rfl, rfl⟩

theorem startSubSession_accepts {runtime : SubSessionRuntime Outputs} (handler : HandlerRun Outputs)
    (hcreated : state.situation = ⟨.created, false, runtime.parentFinalized⟩) :
    AcceptsFrom runtime (startSubSession runtime input handler) state ↔
      ¬ (runtime.parentAborted = false ∧ runtime.isParentCancelled = false ∧
        input.modelPolicy.snapshot ≠ none ∧ handler.LeavesCompleted runtime) := by
  obtain ⟨queued, hrun, hqueued⟩ :=
    queueSubSession_run runtime input (congrArg Situation.status hcreated)
  rw [hcreated] at hqueued
  have hstatus : queued.situation.status = .queued := congrArg Situation.status hqueued
  have hsame : AcceptsFrom runtime (startSubSession runtime input handler) state ↔
      AcceptsFrom runtime
        (if runtime.parentAborted || runtime.isParentCancelled then cancelBeforeStart runtime
          else tryCatch (executeSubSession runtime input handler) (recoverSubSession runtime))
        queued := by
    unfold AcceptsFrom startSubSession
    rw [run_bind, hrun]
  rw [hsame]
  by_cases hcancelled : (runtime.parentAborted || runtime.isParentCancelled)
  · rw [if_pos hcancelled]
    refine iff_of_true (acceptsFrom_of_status ?_) ?_
    · intro outcome last hfound hcompleted
      have hstopped : outcome.status = .cancelled := settleCancelled_status hfound
      rw [hstopped] at hcompleted
      cases hcompleted
    · rintro ⟨haborted, hopen, _⟩
      rw [haborted, hopen] at hcancelled
      cases hcancelled
  · rw [if_neg hcancelled]
    obtain ⟨haborted, hopen⟩ := Bool.or_eq_false_iff.mp (Bool.eq_false_iff.mpr hcancelled)
    rw [recoverSubSession_accepts (executeSubSession_accepts input handler hstatus)]
    cases hsnapshot : input.modelPolicy.snapshot with
    | none =>
      refine iff_of_true (executeSubSession_without_model handler hstatus hsnapshot) ?_
      rintro ⟨_, _, hmodel, _⟩
      exact hmodel rfl
    | some snapshot =>
      rw [executeSubSession_leaves handler hqueued hsnapshot]
      simp [haborted, hopen]

theorem replayOutcome_accepts (existing : SubSessionContract) (state : RunnerState) :
    AcceptsFrom runtime (replayOutcome existing) state := by
  intro outcome last hrun hreplayed
  rw [replayOutcome, run_bind, record_run] at hrun
  injection hrun with hsame
  rw [← hsame] at hreplayed
  cases hreplayed

/-- A refused input gives an outcome with status `failed`. -/
theorem refuseSubSession_status {refused : Refusal}
    (hrun : (refuseSubSession refused).run state = .ok outcome last) :
    outcome.status = .failed := by
  unfold refuseSubSession at hrun
  cases hsummary : refused.ledgerSummary with
  | none | some =>
    rw [hsummary] at hrun
    injection hrun with hsame
    rw [← hsame]
    rfl

/-- An outcome of a run that was no replay counts as completed only if the review accepted
its result or the parent had been finalized, exactly where the handler, once called, does
not itself leave the status at `completed` and then fail, or return a result that is turned
down, without the run being cancelled. -/
theorem completed_iff_accepted (runtime : SubSessionRuntime Outputs) (input : RunSubSessionInput)
    (handler : HandlerRun Outputs) :
    AcceptsFrom runtime (runSubSession runtime input handler) (initialState runtime input) ↔
      ¬ (CallsHandler runtime input ∧ handler.LeavesCompleted runtime) := by
  have hcreated : (initialState runtime input).situation =
      ⟨.created, false, runtime.parentFinalized⟩ := rfl
  have hstart := startSubSession_accepts input handler hcreated
  unfold runSubSession CallsHandler
  cases hrefusal : refusal input with
  | some refused =>
    refine iff_of_true (acceptsFrom_of_status ?_) ?_
    · intro outcome last hrun hcompleted
      have hfailed : outcome.status = .failed := refuseSubSession_status hrun
      rw [hfailed] at hcompleted
      cases hcompleted
    · rintro ⟨⟨hnone, _⟩, _⟩
      cases hnone
  | none =>
    cases hstored : (runtime.loadSubSessionByIdempotencyKey
        input.command.idempotencyKey).filter (isReplayableStatus ·.status) with
    | some existing =>
      refine iff_of_true (replayOutcome_accepts runtime existing _) ?_
      rintro ⟨⟨_, hnone, _⟩, _⟩
      cases hnone
    | none =>
      cases hpersisted : runtime.persistSubSession with
      | true =>
        rw [if_pos rfl, hstart]
        simp [and_assoc]
      | false =>
        rw [if_neg (by decide)]
        cases hreloaded : runtime.reloadSubSessionByIdempotencyKey
            input.command.idempotencyKey with
        | some replayed =>
          refine iff_of_true (replayOutcome_accepts runtime replayed _) ?_
          rintro ⟨⟨_, _, hinserted | hnone, _⟩, _⟩
          · cases hinserted
          · cases hnone
        | none =>
          rw [hstart]
          simp [and_assoc]

/-- A review that finds the result wanting, in a run nothing else disturbs. -/
def wantingRuntime : SubSessionRuntime String where
  now reading := reading
  loadSubSessionByIdempotencyKey _ := none
  persistSubSession := true
  reloadSubSessionByIdempotencyKey _ := none
  parentAborted := false
  isParentCancelled := false
  parentFinalized := false
  reviewResultReport _ :=
    { parentAborts := false
      verdict := .ok
        { status := .needsRevision
          verdict := "needs_revision"
          parentIntegrationStatus := "requires_revision"
          normalizedFailureKey := none
          feedbackRequested := false } }

def plainInput : RunSubSessionInput where
  command :=
    { commandRequestId := "command"
      subSessionId := "sub"
      parentRunId := "run"
      idempotencyKey := "key"
      expectedOutputs := [{ required := true }]
      topologyExecutor := none }
  sender := "parent"
  recipient := "child"
  nestedReasonCodes := none
  modelPolicy :=
    { blocked := false
      reasonCode := "model_allowed"
      userMessage := ""
      snapshot := some { providerId := "openai", modelId := "gpt-5.4", status := none } }
  preflightIssueCodes := []

/-- A handler that reports its own completion before it returns. -/
def selfCompleting : HandlerRun String :=
  .emitProgress "done" (some .completed) fun _ =>
    .returns { resultReportId := "report", outputs := "draft" }

/-- The review asks for a revision; the outcome counts as completed all the same. -/
theorem selfCompleted_counts :
    ¬ AcceptsFrom wantingRuntime (runSubSession wantingRuntime plainInput selfCompleting)
      (initialState wantingRuntime plainInput) := by
  intro haccepts
  have hstarts : AcceptsFrom wantingRuntime
      (startSubSession wantingRuntime plainInput selfCompleting)
      (initialState wantingRuntime plainInput) := haccepts
  have hleaves : selfCompleting.LeavesCompleted wantingRuntime := by
    refine ⟨rfl, rfl, rfl, rfl, ?_⟩
    change ReviewStatus.needsRevision ≠ .completed
    decide
  exact (startSubSession_accepts plainInput selfCompleting rfl).mp hstarts
    ⟨rfl, rfl, by decide, hleaves⟩

end Nobie.Orchestration
