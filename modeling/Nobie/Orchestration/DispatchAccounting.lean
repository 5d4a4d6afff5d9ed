/-
# What a dispatch accounts for

A dispatch owes one outcome for every task, and for every task of the team plans that are
carried out. An outcome is to be completed, and a report satisfied, only where the child run of
the task completed, and a task waits for its prerequisites. The dispatcher counts every
child that has not failed as completed, it takes the tasks as they come, and it stops at the
first call of the runner that rejects. It keeps its accounts exactly where none of this
matters.
-/

import Nobie.Orchestration.DispatchAnswers

namespace Nobie.Orchestration

open Foundation Foundation.Effects List

/-! ## The steps of a dispatch -/

/-! ## Tasks an outcome is owed for -/

/-- A task an outcome is owed for: a task of the plan, or one of the team plan that the task
`planTaskId` is carried out by. -/
structure TaskSlot where
  planTaskId : String
  task : OrchestrationTask
  dependsOnTaskIds : List String

section Slots

variable (environment : DispatchEnvironment)

/-- The tasks of the team plan that a task is expanded to, if it is. -/
def expandedTeamTasks (task : OrchestrationTask) : List TeamExecutionTaskSnapshot :=
  if (assignedAgent environment task.assignedAgentId).isSome then []
  else
    match truthyText task.assignedTeamId with
    | none => []
    | some teamId =>
      let teamPlan := environment.buildTeamExecutionPlan task teamId
      if (teamDispatchBlockReason task).isSome || !teamPlan.ok then []
      else (teamPlan.plan.map (delegatedTeamTasks environment)).getD []

def taskSlots (task : OrchestrationTask) : List TaskSlot :=
  match expandedTeamTasks environment task with
  | [] => [{ planTaskId := task.taskId, task, dependsOnTaskIds := [] }]
  | first :: rest => (first :: rest).map fun teamTask =>
    { planTaskId := task.taskId
      task := orchestrationTaskFromTeamTask task teamTask
      dependsOnTaskIds := teamTask.dependsOnTaskIds }

def planSlots (plan : OrchestrationPlan) : List TaskSlot :=
  plan.delegatedTasks.flatMap (taskSlots environment)

end Slots

/-! ## Steps -/

/-- What the dispatcher does for a task: it records an outcome at once, or it hands the task
to the runner. -/
inductive DispatchStep
  | recorded (attempted : Bool) (outcome : DelegatedTaskDispatchOutcome)
  | handedOver (task : OrchestrationTask) (agent : AgentRegistryEntry)

section Steps

variable (environment : DispatchEnvironment)

variable (task : OrchestrationTask)

variable (agent : AgentRegistryEntry) (slot : TaskSlot)

def agentStep : DispatchStep :=
  match validateDispatchToChildExecutorInput task agent with
  | some blocked => .recorded true (blockedOutcome task agent blocked)
  | none => .handedOver task agent

def expandedStep : DispatchStep :=
  match assignedAgent environment task.assignedAgentId with
  | none => .recorded false (unstartedOutcome task.taskId .skipped "assigned_agent_missing" none)
  | some agent => agentStep task agent

def teamSteps (teamId : String) : List DispatchStep :=
  match teamDispatchBlockReason task with
  | some blockReason => [.recorded false (unstartedOutcome task.taskId .skipped blockReason
      (some s!"Skipped team dispatch for {teamId} because the team was not explicitly selected."))]
  | none =>
    let teamPlan := environment.buildTeamExecutionPlan task teamId
    match teamPlan.plan.filter fun _ => teamPlan.ok with
    | none => [.recorded false (unstartedOutcome task.taskId .failed
        (teamPlan.diagnostics.head?.getD "team_execution_plan_failed")
        (some s!"Team execution plan failed for {teamId}."))]
    | some assignments =>
      match delegatedTeamTasks environment assignments with
      | [] => [.recorded false (unstartedOutcome task.taskId .failed
          "team_execution_plan_no_delegated_tasks"
          (some s!"Team execution plan produced no delegated tasks for {teamId}."))]
      | first :: rest => ((first :: rest).map (orchestrationTaskFromTeamTask task)).map
          (expandedStep environment)

def taskSteps : List DispatchStep :=
  match assignedAgent environment task.assignedAgentId with
  | some agent => [agentStep task agent]
  | none =>
    match truthyText task.assignedTeamId with
    | some teamId => teamSteps environment task teamId
    | none =>
      [.recorded false (unstartedOutcome task.taskId .skipped "assigned_agent_missing" none)]

def planSteps (plan : OrchestrationPlan) : List DispatchStep :=
  plan.delegatedTasks.flatMap (taskSteps environment)

/-- The effect of a step. -/
def perform : DispatchStep → Dispatcher Unit
  | .recorded attempted outcome => do
    if attempted then
      modify fun state => { state with attempted := state.attempted + 1 }
    pushOutcome outcome
  | .handedOver task agent => do
    let number := (← get).calls
    modify fun state => { state with attempted := state.attempted + 1, calls := number + 1 }
    pushOutcome (runningOutcome number task agent)
    match settled (runnerCall environment number task agent) with
    | .error error => throw error
    | .ok answer =>
      modify fun state =>
        { state with
          outcomes := state.outcomes.dropLast ++ [settledOutcome number task agent answer] }

theorem dispatchAgentTask_eq :
    dispatchAgentTask environment task agent = perform environment (agentStep task agent) := by
  unfold dispatchAgentTask agentStep
  cases validateDispatchToChildExecutorInput task agent <;> rfl

theorem dispatchExpandedTask_eq :
    dispatchExpandedTask environment task = perform environment (expandedStep environment task) := by
  unfold dispatchExpandedTask expandedStep
  cases assignedAgent environment task.assignedAgentId with
  | none => rfl
  | some agent => exact dispatchAgentTask_eq environment task agent

theorem forM_map_expanded (tasks : List OrchestrationTask) :
    forM tasks (dispatchExpandedTask environment) =
      forM (tasks.map (expandedStep environment)) (perform environment) := by
  induction tasks with
  | nil => rfl
  | cons task rest ih => rw [map_cons, forM_cons, forM_cons, dispatchExpandedTask_eq, ih]

theorem forM_singleton (step : DispatchStep) :
    forM [step] (perform environment) = perform environment step := by
  rw [forM_cons]
  exact bind_pure _

theorem forM_recorded (outcome : DelegatedTaskDispatchOutcome) :
    forM [.recorded false outcome] (perform environment) = pushOutcome outcome :=
  (forM_singleton environment _).trans rfl

theorem dispatchTeamTask_eq (teamId : String) :
    dispatchTeamTask environment task teamId =
      forM (teamSteps environment task teamId) (perform environment) := by
  unfold dispatchTeamTask teamSteps
  cases teamDispatchBlockReason task with
  | some blockReason => exact (forM_recorded environment _).symm
  | none =>
    dsimp only
    cases (environment.buildTeamExecutionPlan task teamId).plan.filter
        fun _ => (environment.buildTeamExecutionPlan task teamId).ok with
    | none => exact (forM_recorded environment _).symm
    | some assignments =>
      dsimp only
      cases delegatedTeamTasks environment assignments with
      | nil => exact (forM_recorded environment _).symm
      | cons first rest => exact forM_map_expanded environment _

/-- A round of the loop performs the steps of its task. -/
theorem dispatchTask_eq :
    dispatchTask environment task = forM (taskSteps environment task) (perform environment) := by
  unfold dispatchTask taskSteps
  cases assignedAgent environment task.assignedAgentId with
  | some agent =>
    exact (dispatchAgentTask_eq environment task agent).trans (forM_singleton environment _).symm
  | none =>
    cases truthyText task.assignedTeamId with
    | some teamId => exact dispatchTeamTask_eq environment task teamId
    | none => exact (forM_recorded environment _).symm

/-- The loop performs the steps of the plan. -/
theorem forM_dispatchTask (tasks : List OrchestrationTask) :
    forM tasks (dispatchTask environment) =
      forM (tasks.flatMap (taskSteps environment)) (perform environment) := by
  induction tasks with
  | nil => rfl
  | cons task rest ih => rw [forM_cons, flatMap_cons, forM_append, dispatchTask_eq, ih]

/-- A step belongs to a slot: it records an outcome for its task, or hands its task over. -/
def DispatchStep.BelongsTo : DispatchStep → Prop
  | .recorded _ outcome => outcome.taskId = slot.task.taskId ∧ outcome.subSession = none ∧
      outcome.resultReport = none ∧ (outcome.status = .failed ∨ outcome.status = .skipped)
  | .handedOver task _ => task = slot.task

theorem agentStep_belongs (agent : AgentRegistryEntry) :
    (agentStep slot.task agent).BelongsTo slot := by
  unfold agentStep
  split
  · exact ⟨rfl, rfl, rfl, .inl rfl⟩
  · exact rfl

theorem expandedStep_belongs : (expandedStep environment slot.task).BelongsTo slot := by
  unfold expandedStep
  split
  · exact ⟨rfl, rfl, rfl, .inr rfl⟩
  · exact agentStep_belongs slot _

/-- The steps of a task are those of its slots. -/
theorem taskSteps_belong :
    List.Forall₂ (fun slot step => step.BelongsTo slot) (taskSlots environment task)
      (taskSteps environment task) := by
  have hown (step : DispatchStep) (hexpanded : expandedTeamTasks environment task = [])
      (hstep : step.BelongsTo { planTaskId := task.taskId, task, dependsOnTaskIds := [] }) :
      List.Forall₂ (fun slot step => step.BelongsTo slot) (taskSlots environment task) [step] := by
    rw [taskSlots, hexpanded]
    exact .cons hstep .nil
  unfold taskSteps
  cases hagent : assignedAgent environment task.assignedAgentId with
  | some agent =>
    refine hown _ ?_ (agentStep_belongs _ agent)
    simp [expandedTeamTasks, hagent]
  | none =>
    cases hteam : truthyText task.assignedTeamId with
    | none =>
      refine hown _ ?_ ⟨rfl, rfl, rfl, .inr rfl⟩
      simp [expandedTeamTasks, hagent, hteam]
    | some teamId =>
      unfold teamSteps
      cases hblocked : teamDispatchBlockReason task with
      | some blockReason =>
        refine hown _ ?_ ⟨rfl, rfl, rfl, .inr rfl⟩
        simp [expandedTeamTasks, hagent, hteam, hblocked]
      | none =>
        dsimp only
        cases hplan : (environment.buildTeamExecutionPlan task teamId).plan.filter
            fun _ => (environment.buildTeamExecutionPlan task teamId).ok with
        | none =>
          refine hown _ ?_ ⟨rfl, rfl, rfl, .inl rfl⟩
          rw [Option.filter_eq_none_iff] at hplan
          cases hbuilt : (environment.buildTeamExecutionPlan task teamId).plan with
          | none => simp [expandedTeamTasks, hagent, hteam, hblocked, hbuilt]
          | some assignments =>
            have hok := hplan assignments hbuilt
            simp [expandedTeamTasks, hagent, hteam, hblocked, hok]
        | some assignments =>
          obtain ⟨hbuilt, hok⟩ := Option.filter_eq_some_iff.mp hplan
          have hexpanded : expandedTeamTasks environment task =
              delegatedTeamTasks environment assignments := by
            simp [expandedTeamTasks, hagent, hteam, hblocked, hbuilt, hok]
          dsimp only
          cases htasks : delegatedTeamTasks environment assignments with
          | nil => exact hown _ (hexpanded.trans htasks) ⟨rfl, rfl, rfl, .inl rfl⟩
          | cons first rest =>
            rw [taskSlots, hexpanded, htasks]
            dsimp only
            rw [map_map, forall₂_map_left_iff, forall₂_map_right_iff, forall₂_same]
            exact fun teamTask _ => expandedStep_belongs environment
              { planTaskId := task.taskId
                task := orchestrationTaskFromTeamTask task teamTask
                dependsOnTaskIds := teamTask.dependsOnTaskIds }

theorem planSteps_belong (plan : OrchestrationPlan) :
    List.Forall₂ (fun slot step => step.BelongsTo slot) (planSlots environment plan)
      (planSteps environment plan) := by
  unfold planSlots planSteps
  induction plan.delegatedTasks with
  | nil => exact .nil
  | cons task rest ih =>
    rw [flatMap_cons, flatMap_cons]
    exact rel_append (taskSteps_belong environment task) ih

/-- The steps, each with the number of calls of the runner before it. -/
def numbered : ℕ → List DispatchStep → List (DispatchStep × ℕ)
  | _, [] => []
  | number, .recorded attempted outcome :: rest =>
    (.recorded attempted outcome, number) :: numbered number rest
  | number, .handedOver task agent :: rest =>
    (.handedOver task agent, number) :: numbered (number + 1) rest

theorem map_fst_numbered (number : ℕ) (steps : List DispatchStep) :
    (numbered number steps).map Prod.fst = steps := by
  induction steps generalizing number with
  | nil => rfl
  | cons step rest ih =>
    cases step with
    | recorded attempted outcome => rw [numbered, map_cons, ih]
    | handedOver task agent => rw [numbered, map_cons, ih]

/-- The outcome that a step leaves. -/
def Leaves : DispatchStep × ℕ → DelegatedTaskDispatchOutcome → Prop
  | (.recorded _ recorded, _), outcome => outcome = recorded
  | (.handedOver task agent, number), outcome => ∃ answer last,
      runnerCall environment number task agent = .ok answer last ∧
        outcome = settledOutcome number task agent answer

/-- One step: it leaves its outcome, or the runner rejected. -/
theorem perform_run (step : DispatchStep) (state : DispatchState) :
    (∃ outcome last, (perform environment step).run state = .ok () last ∧
      last.outcomes = state.outcomes ++ [outcome] ∧ Leaves environment (step, state.calls) outcome ∧
        ∀ rest, numbered state.calls (step :: rest) =
          (step, state.calls) :: numbered last.calls rest) ∨
    ∃ task agent error failed, step = .handedOver task agent ∧
      runnerCall environment state.calls task agent = .error error failed ∧
        ∃ last, (perform environment step).run state = .error error last := by
  cases step with
  | recorded attempted outcome =>
    cases attempted with
    | true => exact .inl ⟨outcome, _, rfl, rfl, rfl, fun _ => rfl⟩
    | false => exact .inl ⟨outcome, _, rfl, rfl, rfl, fun _ => rfl⟩
  | handedOver task agent =>
    cases hanswer : runnerCall environment state.calls task agent with
    | ok answer finished =>
      refine .inl ⟨settledOutcome state.calls task agent answer,
        { outcomes := state.outcomes ++ [settledOutcome state.calls task agent answer]
          attempted := state.attempted + 1
          calls := state.calls + 1 }, ?_, rfl, ⟨answer, finished, hanswer, rfl⟩, fun _ => rfl⟩
      simp [perform, pushOutcome, hanswer]
    | error error failed =>
      refine .inr ⟨task, agent, error, failed, rfl, hanswer, ?_⟩
      simp [perform, pushOutcome, hanswer]

/-- All steps: each leaves its outcome, or the runner rejected at one of them. -/
theorem forM_perform (steps : List DispatchStep) (state : DispatchState) :
    (∃ outcomes last, (forM steps (perform environment)).run state = .ok () last ∧
      last.outcomes = state.outcomes ++ outcomes ∧
        List.Forall₂ (Leaves environment) (numbered state.calls steps) outcomes) ∨
    ∃ task agent number error failed, (.handedOver task agent, number) ∈
        numbered state.calls steps ∧ runnerCall environment number task agent = .error error failed ∧
          ∃ last, (forM steps (perform environment)).run state = .error error last := by
  induction steps generalizing state with
  | nil => exact .inl ⟨[], state, rfl, (append_nil _).symm, .nil⟩
  | cons step rest ih =>
    rw [forM_cons, EStateM.run_bind]
    obtain ⟨outcome, middle, hstep, houtcomes, hleaves, hnumbered⟩ |
        ⟨task, agent, error, failed, rfl, hcall, last, hstep⟩ := perform_run environment step state
    · rw [hstep, hnumbered]
      obtain ⟨outcomes, last, hrun, hlast, hrest⟩ |
          ⟨task, agent, number, error, failed, hmem, hcall, hrun⟩ := ih middle
      · refine .inl ⟨outcome :: outcomes, last, hrun, ?_, .cons hleaves hrest⟩
        rw [hlast, houtcomes, append_assoc, singleton_append]
      · exact .inr ⟨task, agent, number, error, failed, mem_cons_of_mem _ hmem, hcall, hrun⟩
    · rw [hstep]
      exact .inr ⟨task, agent, state.calls, error, failed, mem_cons_self .., hcall, last, rfl⟩

end Steps

/-! ## What is owed -/

/-- The prerequisites of the task at a place come before it and are completed: the tasks of
the plan that an edge leads from, and the tasks of its team plan that it depends on. -/
structure PrerequisitesMet (plan : OrchestrationPlan) (slots : List TaskSlot)
    (completed : ℕ → Prop) (place : ℕ) (slot : TaskSlot) : Prop where
  planned : ∀ edge ∈ plan.dependencyEdges, edge.toTaskId = slot.planTaskId →
    edge.fromTaskId ∈ plan.delegatedTasks.map (·.taskId) →
      ∀ earlier other, slots[earlier]? = some other → other.planTaskId = edge.fromTaskId →
        earlier < place ∧ completed earlier
  teamPlanned : ∀ taskId ∈ slot.dependsOnTaskIds, ∃ earlier other,
    earlier < place ∧ slots[earlier]? = some other ∧ other.planTaskId = slot.planTaskId ∧
      other.task.taskId = taskId ∧ completed earlier

/-- The child run of a task was started, its end was told to the runner, and it ended with
this status; or this is what is known of a sub-session that was stored before. -/
def ChildEnded (environment : DispatchEnvironment) (number : ℕ) (task : OrchestrationTask)
    (agent : AgentRegistryEntry) (status : RunStatus) : Prop :=
  let call := environment.call number
  let collaborators := reviewingCollaborators call task
  let input := runSubSessionInputFor environment call task agent
  (Replays collaborators input .completed ∧ call.storedChildStatus = some status) ∨
    ∃ meanwhile childRun finalized,
      call.startSubAgentRun = .starts meanwhile (.resolves (some childRun)) ∧
        Delivers collaborators input (delegatedHandler call task)
          (reportFor call task (some childRun)) finalized ∧ childRun.status = status

/-- The outcome reports satisfied outputs. -/
def DelegatedTaskDispatchOutcome.ReportsSatisfied (outcome : DelegatedTaskDispatchOutcome) : Prop :=
  ∃ report output, outcome.resultReport = some report ∧ output ∈ report.outputs ∧
    output.status = .satisfied

structure AccountsFor (environment : DispatchEnvironment) (plan : OrchestrationPlan)
    (result : DelegatedTaskDispatchResult) : Prop where
  outcomes : result.outcomes.map (·.taskId) = (planSlots environment plan).map (·.task.taskId)
  settled : ∀ outcome ∈ result.outcomes, outcome.status = .completed ∨
    outcome.status = .failed ∨ outcome.status = .skipped
  completedCount : result.completed = (result.outcomes.filter (·.status = .completed)).length
  failedCount : result.failed = (result.outcomes.filter (·.status = .failed)).length
  skippedCount : result.skipped = (result.outcomes.filter (·.status = .skipped)).length
  truthful : ∀ (place : ℕ) (outcome : DelegatedTaskDispatchOutcome) (slot : TaskSlot), result.outcomes[place]? = some outcome →
    (planSlots environment plan)[place]? = some slot →
      outcome.status = .completed ∨ outcome.ReportsSatisfied →
        ∃ number agent, outcome.subSession = some number ∧ outcome.agent = some agent ∧
          ChildEnded environment number slot.task agent .completed
  ordered : ∀ (place : ℕ) (outcome : DelegatedTaskDispatchOutcome) (slot : TaskSlot), result.outcomes[place]? = some outcome →
    (planSlots environment plan)[place]? = some slot → outcome.subSession.isSome →
      PrerequisitesMet plan (planSlots environment plan)
        (fun earlier => ∃ other, result.outcomes[earlier]? = some other ∧
          other.status = .completed) place slot

/-- The dispatch resolves with a result that accounts for its tasks. -/
def KeepsAccounts (environment : DispatchEnvironment) (plan : OrchestrationPlan) : Prop :=
  ∃ result, dispatchDelegatedSubAgentTasks environment plan = .ok result ∧
    AccountsFor environment plan result

/-! ## When a call tells the truth -/

variable {last : FallibleState} {place : ℕ} {outcome : DelegatedTaskDispatchOutcome}

variable {result : ResultReport ReportBody} {answer : SubSessionRunOutcome ReportBody} {number : ℕ}
  {task : OrchestrationTask} {agent : AgentRegistryEntry}

section Calls

variable (environment : DispatchEnvironment) (number : ℕ) (task : OrchestrationTask)
  (agent : AgentRegistryEntry)

/-- The collaborators of a call. -/
def callCollaborators : Collaborators ReportBody :=
  reviewingCollaborators (environment.call number) task

/-- The input of a call. -/
def callInput : RunSubSessionInput :=
  runSubSessionInputFor environment (environment.call number) task agent

/-- The handler of a call. -/
def callHandler : HandlerRun ReportBody := delegatedHandler (environment.call number) task

/-- The condition under which a call tells the truth: the child of a sub-session that is stored
as completed had completed, and a child whose report is settled completed, or it failed while
the parent was not yet finalized. -/
structure TellsTruth : Prop where
  stored : Replays (callCollaborators environment number task)
    (callInput environment number task agent) .completed →
      (environment.call number).storedChildStatus = some .completed
  delivered : ∀ meanwhile childRun finalized,
    (environment.call number).startSubAgentRun = .starts meanwhile (.resolves childRun) →
      Delivers (callCollaborators environment number task)
        (callInput environment number task agent) (callHandler environment number task)
        (reportFor (environment.call number) task childRun) finalized →
          childRun.map (·.status) = some .completed ∨
            (reportStatusOf childRun = .failed ∧ finalized = false)

/-- The handler never moves the status of its sub-session, and what it returns is the report
for a child run that has ended. -/
theorem delegatedHandler_triple (collaborators : Collaborators ReportBody) (call : SubSessionCall) :
    Triple Running (tryRunHandler collaborators (delegatedHandler call task))
      (fun result state => Running state ∧ ∃ meanwhile childRun,
        call.startSubAgentRun = .starts meanwhile (.resolves childRun) ∧
          result = reportFor call task childRun) Running := by
  have hawaits (meanwhile : ParentSignals) (next : HandlerRun ReportBody)
      (after : ResultReport ReportBody → FallibleState → Prop)
      (hnext : Triple Running (tryRunHandler collaborators next) after Running) :
      Triple Running (tryRunHandler collaborators (awaiting meanwhile next)) after Running := by
    have haborting : Triple Running (tryRunHandler collaborators (.parentAborts next)) after
        Running := Triple.bind (Triple.modify fun _ hstate => hstate) fun _ => hnext
    obtain ⟨aborts, finalizes⟩ := meanwhile
    cases aborts <;> cases finalizes
    · exact hnext
    · exact Triple.bind (Triple.modify fun _ hstate => hstate) fun _ => hnext
    · exact haborting
    · exact Triple.bind (Triple.modify fun _ hstate => hstate) fun _ => haborting
  refine Triple.bind (steady_tryEmitProgress collaborators _).attempt fun thrown => ?_
  cases thrown with
  | some error => exact Triple.throw fun _ hstate => hstate
  | none =>
    rw [unlessThrown]
    cases hstart : call.startSubAgentRun with
    | throws error => exact Triple.throw fun _ hstate => hstate
    | starts meanwhile finished =>
      apply hawaits
      cases finished with
      | rejects error => exact Triple.throw fun _ hstate => hstate
      | resolves childRun =>
        refine Triple.bind (steady_tryEmitProgress collaborators _).attempt fun thrown => ?_
        cases thrown with
        | some error => exact Triple.throw fun _ hstate => hstate
        | none => exact Triple.pure fun _ hstate => ⟨hstate, meanwhile, childRun, rfl, rfl⟩

/-- The result of an execution is one the handler returned. -/
theorem handler_of_childExecution {collaborators : Collaborators ReportBody}
    {input : RunSubSessionInput} {handler : HandlerRun ReportBody}
    {good : ResultReport ReportBody → Prop}
    (hhandler : Triple Running (tryRunHandler collaborators handler)
      (fun result state => Running state ∧ good result) Running) {start : FallibleState}
    (hstart : start.subSession.status = .queued) {modelExecution : ModelExecutionSnapshot}
    (hrun : (childExecution collaborators input handler).run start =
      .ok (result, modelExecution) last) : good result := by
  have htriple : Triple (fun state => state.subSession.status = .queued)
      (childExecution collaborators input handler)
      (fun execution state => Running state ∧ good execution.1) Running := by
    refine Triple.bind (tryChangeStatus_settles collaborators .queued .running rfl) fun _ => ?_
    refine Triple.bind (still_tryAppendParentEvent collaborators _).steady fun _ => ?_
    unfold tryExecuteWithModelPolicy
    split
    · exact Triple.throw fun _ hstate => hstate
    · apply Triple.tryCatch
      · refine Triple.bind hhandler fun result => Triple.assuming fun hgood => ?_
        refine Triple.bind (still_tryRecordLedgerEvent collaborators _ _ _).steady fun _ => ?_
        exact Triple.pure fun _ hstate => ⟨hstate, hgood⟩
      · refine fun error => Triple.get fun state hstate => ?_
        split
        · exact Triple.throw fun _ heq => heq ▸ hstate
        · exact Triple.bind (Triple.modify fun _ heq => heq ▸ hstate) fun _ =>
            Triple.throw fun _ hlast => hlast
  have hresult := htriple start hstart
  rw [hrun] at hresult
  exact hresult.2

variable {environment number task agent}

/-- A result that gets as far as being settled is the report for the child run. -/
theorem delivered_report {finalized : Bool}
    (h : Delivers (callCollaborators environment number task)
      (callInput environment number task agent) (callHandler environment number task) result
      finalized) :
    ∃ meanwhile childRun,
      (environment.call number).startSubAgentRun = .starts meanwhile (.resolves childRun) ∧
        result = reportFor (environment.call number) task childRun := by
  obtain ⟨state, ⟨⟨modelExecution, hreturned⟩, -, -⟩, -⟩ := h.settles
  have hqueued : (queuedState (callCollaborators environment number task)
      (callInput environment number task agent)).subSession.status = .queued := by
    obtain ⟨-, -, hstatuses⟩ | ⟨hthrows, -⟩ :=
      storeSubSession_run (callCollaborators environment number task)
        (callInput environment number task agent)
    · exact congrArg Prod.fst hstatuses
    · exact absurd h.stored hthrows
  exact handler_of_childExecution (delegatedHandler_triple task _ _) hqueued hreturned

theorem steady_callHandler (number : ℕ) (task : OrchestrationTask) :
    Steady (tryRunHandler (callCollaborators environment number task)
      (callHandler environment number task)) :=
  (delegatedHandler_triple task _ _).weaken (fun _ hstate => hstate) fun _ _ hafter => hafter.1

/-- The runner answers a call if and only if it contains the failures of the call. -/
theorem runnerCall_answers_iff :
    (∃ answer last, runnerCall environment number task agent = .ok answer last) ↔
      ContainsFailures (callCollaborators environment number task)
        (callInput environment number task agent) (callHandler environment number task) := by
  rw [← failuresContained_iff]
  constructor
  · rintro ⟨answer, last, hanswer⟩
    have hresolves := (answer_tells (steady_callHandler number task) (fun _ => ⟨_, rfl⟩) hanswer).1
    rwa [← hanswer] at hresolves
  · rintro ⟨answer, last, hanswer, -⟩
    exact ⟨answer, last, hanswer⟩

theorem tells_of_answer (hanswer : runnerCall environment number task agent = .ok answer last) :
    Tells (callCollaborators environment number task) (callInput environment number task agent)
      (callHandler environment number task) answer :=
  (answer_tells (steady_callHandler number task) (fun _ => ⟨_, rfl⟩) hanswer).2

/-- The verdict on the report for a child run. -/
theorem review_callCollaborators (result : ResultReport ReportBody) :
    ((callCollaborators environment number task).runtime.reviewResultReport result).verdict =
      .ok (reviewSubAgentResult none result.outputs task.scope.expectedOutputs
        []).toSubAgentResultReview :=
  rfl

theorem settledOutcome_completed_iff (answer : SubSessionRunOutcome ReportBody) :
    (settledOutcome number task agent answer).status = .completed ↔ answer.status = .completed := by
  unfold settledOutcome
  split
  · next h => simp [h]
  · next h => simp [h]

/-- A completed answer is told about a child that completed, in a call that tells the truth. -/
theorem TellsTruth.childEnded (h : TellsTruth environment number task agent)
    (hcompletes : AnswersCompleted (callCollaborators environment number task)
      (callInput environment number task agent) (callHandler environment number task)) :
    ChildEnded environment number task agent .completed := by
  rcases hcompletes with hreplays | ⟨result, finalized, hdelivers, haccepted⟩
  · exact .inl ⟨hreplays, h.stored hreplays⟩
  · obtain ⟨meanwhile, childRun, hstart, rfl⟩ := delivered_report hdelivers
    rcases h.delivered meanwhile childRun finalized hstart hdelivers with hended | ⟨hfailed, hnot⟩
    · obtain ⟨childRun, rfl, hstatus⟩ := Option.map_eq_some_iff.mp hended
      exact .inr ⟨meanwhile, childRun, finalized, hstart, hdelivers, hstatus⟩
    · rcases haccepted with hfinalized | ⟨review, hverdict, hcompleted⟩
      · rw [hnot] at hfinalized
        cases hfinalized
      · rw [review_callCollaborators] at hverdict
        cases hverdict
        exact absurd hcompleted (review_failed hfailed _ _)

/-- A call tells the truth if and only if its outcome is completed, or reports satisfied
outputs, only for a child that completed. -/
theorem tellsTruth_iff (hanswer : runnerCall environment number task agent = .ok answer last) :
    TellsTruth environment number task agent ↔
      ((settledOutcome number task agent answer).status = .completed ∨
        (settledOutcome number task agent answer).ReportsSatisfied →
          ChildEnded environment number task agent .completed) := by
  have htells := tells_of_answer hanswer
  rw [settledOutcome_completed_iff, htells.completed]
  constructor
  · rintro htruth (hcompletes | ⟨body, output, hbody, hmem, hsatisfied⟩)
    · exact htruth.childEnded hcompletes
    · have hbody : answer.resultReport.map (·.outputs) = some body := hbody
      obtain ⟨report, hreport, rfl⟩ := Option.map_eq_some_iff.mp hbody
      have hdelivers := htells.reported report hreport
      obtain ⟨meanwhile, childRun, hstart, rfl⟩ := delivered_report hdelivers
      rcases htruth.delivered meanwhile childRun false hstart hdelivers with hended | ⟨hfailed, -⟩
      · obtain ⟨childRun, rfl, hstatus⟩ := Option.map_eq_some_iff.mp hended
        exact .inr ⟨meanwhile, childRun, false, hstart, hdelivers, hstatus⟩
      · obtain ⟨expected, -, rfl⟩ := mem_map.mp hmem
        simp [hfailed] at hsatisfied
  · intro htruthful
    refine ⟨fun hreplays => ?_, fun meanwhile childRun finalized hstart hdelivers => ?_⟩
    · rcases htruthful (.inl (.inl hreplays)) with ⟨-, hstored⟩ | ⟨_, _, _, -, hdelivers, -⟩
      · exact hstored
      · exact absurd hreplays (not_replays_of_creates hdelivers.created _)
    · have hcompleted (hends : ChildEnded environment number task agent .completed) :
          childRun.map (·.status) = some .completed := by
        rcases hends with ⟨hreplays, -⟩ | ⟨other, found, _, hother, -, hstatus⟩
        · exact absurd hreplays (not_replays_of_creates hdelivers.created _)
        · rw [hstart] at hother
          cases hother
          exact congrArg some hstatus
      cases finalized with
      | true => exact .inl (hcompleted (htruthful (.inl (.inr ⟨_, true, hdelivers, .inl rfl⟩))))
      | false =>
        cases hstatus : reportStatusOf childRun with
        | failed => exact .inr ⟨rfl, rfl⟩
        | needsRevision =>
          unfold reportStatusOf at hstatus
          split at hstatus <;> cases hstatus
        | completed =>
          refine .inl (hcompleted ?_)
          have hreview : (reviewSubAgentResult none
              (reportFor (environment.call number) task childRun).outputs
              task.scope.expectedOutputs []).status = .completed ∨ (reviewSubAgentResult none
              (reportFor (environment.call number) task childRun).outputs
              task.scope.expectedOutputs []).status = .needsRevision :=
            review_completed_or_needsRevision rfl _
          rcases hreview with haccepted | hneeds
          · exact htruthful (.inl (.inr ⟨_, false, hdelivers, .inr ⟨_, rfl, haccepted⟩⟩))
          · have hreport := htells.returned _ _ hdelivers rfl hneeds
            cases hexpected : task.scope.expectedOutputs with
            | nil =>
              rw [hexpected, review_completed_of_nothing_expected hstatus] at hneeds
              cases hneeds
            | cons expected rest =>
              refine htruthful (.inr ⟨(reportFor (environment.call number) task
                childRun).outputs, { outputId := expected.outputId, status := .satisfied },
                ?_, ?_, rfl⟩)
              · exact congrArg (Option.map _) hreport
              · simp [reportFor, hexpected, hstatus]

end Calls

/-! ## The accounts of a dispatch -/

section Accounts

variable (environment : DispatchEnvironment) (plan : OrchestrationPlan)

/-- The task at a place of the plan is handed to the runner, in the call with this number. -/
def HandedOver (place number : ℕ) (task : OrchestrationTask) (agent : AgentRegistryEntry) : Prop :=
  (numbered 0 (planSteps environment plan))[place]? = some (.handedOver task agent, number)

/-- The task at a place of the plan is handed to the runner, and the answer is completed. -/
def CompletesAt (place : ℕ) : Prop :=
  ∃ number task agent, HandedOver environment plan place number task agent ∧
    AnswersCompleted (callCollaborators environment number task)
      (callInput environment number task agent) (callHandler environment number task)

/-- The condition under which a dispatch keeps its accounts. -/
structure AccountingCondition : Prop where
  assigned : isDelegationDispatchEligible plan ∨ plan.delegatedTasks = []
  contained : ∀ place number task agent, HandedOver environment plan place number task agent →
    ContainsFailures (callCollaborators environment number task)
      (callInput environment number task agent) (callHandler environment number task)
  truthful : ∀ place number task agent, HandedOver environment plan place number task agent →
    TellsTruth environment number task agent
  ordered : ∀ place number task agent slot,
    HandedOver environment plan place number task agent →
      (planSlots environment plan)[place]? = some slot →
        PrerequisitesMet plan (planSlots environment plan) (CompletesAt environment plan) place slot

theorem forall₂_getElem? {A B : Type} {R : A → B → Prop} {first : List A} {second : List B}
    (h : List.Forall₂ R first second) {value : A} (hvalue : first[place]? = some value) :
    ∃ other, second[place]? = some other ∧ R value other := by
  induction h generalizing place with
  | nil => cases hvalue
  | cons hrelated _ ih =>
    cases place with
    | zero =>
      cases hvalue
      exact ⟨_, rfl, hrelated⟩
    | succ place => exact ih hvalue

/-- The outcomes that are left where every call is answered. -/
structure Outcomes (outcomes : List DelegatedTaskDispatchOutcome) : Prop where
  leaves : List.Forall₂ (Leaves environment) (numbered 0 (planSteps environment plan)) outcomes

variable {environment plan} {outcomes : List DelegatedTaskDispatchOutcome}

namespace Outcomes

/-- The outcome at a place, with the step that left it and the slot it is for. -/
theorem at_place (h : Outcomes environment plan outcomes)
    (houtcome : outcomes[place]? = some outcome) :
    ∃ step number slot, (numbered 0 (planSteps environment plan))[place]? = some (step, number) ∧
        Leaves environment (step, number) outcome ∧
          (planSlots environment plan)[place]? = some slot ∧ step.BelongsTo slot := by
  obtain ⟨⟨step, number⟩, hstep, hleaves⟩ := forall₂_getElem? h.leaves.flip houtcome
  have hplain : (planSteps environment plan)[place]? = some step := by
    rw [← map_fst_numbered 0 (planSteps environment plan), getElem?_map, hstep]
    rfl
  obtain ⟨slot, hslot, hbelongs⟩ := forall₂_getElem? (planSteps_belong environment plan).flip hplain
  exact ⟨step, number, slot, hstep, hleaves, hslot, hbelongs⟩

/-- An outcome is for its slot. -/
theorem taskId_eq {step : DispatchStep} {slot : TaskSlot}
    (hleaves : Leaves environment (step, number) outcome) (hbelongs : step.BelongsTo slot) :
    outcome.taskId = slot.task.taskId := by
  cases step with
  | recorded attempted recorded => exact hleaves ▸ hbelongs.1
  | handedOver task agent =>
    obtain ⟨_, _, -, rfl⟩ := hleaves
    exact congrArg OrchestrationTask.taskId hbelongs

section

variable (h : Outcomes environment plan outcomes)
include h

theorem taskIds :
    outcomes.map (·.taskId) = (planSlots environment plan).map (·.task.taskId) := by
  have hslots := planSteps_belong environment plan
  rw [← map_fst_numbered 0 (planSteps environment plan)] at hslots
  rw [forall₂_map_right_iff] at hslots
  have hlength : outcomes.length = (planSlots environment plan).length :=
    h.leaves.length_eq.symm.trans hslots.length_eq.symm
  apply ext_getElem?
  intro place
  rw [getElem?_map, getElem?_map]
  cases houtcome : outcomes[place]? with
  | none =>
    rw [List.getElem?_eq_none_iff, hlength] at houtcome
    rw [getElem?_eq_none houtcome]
    rfl
  | some outcome =>
    obtain ⟨step, number, slot, -, hleaves, hslot, hbelongs⟩ := h.at_place houtcome
    rw [hslot]
    exact congrArg some (taskId_eq hleaves hbelongs)

/-- A task that was handed over has the outcome of the runner's answer. -/
theorem of_handedOver
    (hover : HandedOver environment plan place number task agent) :
    ∃ answer last, runnerCall environment number task agent = .ok answer last ∧
      outcomes[place]? = some (settledOutcome number task agent answer) ∧
        ∃ slot, (planSlots environment plan)[place]? = some slot ∧ slot.task = task := by
  obtain ⟨outcome, houtcome, answer, last, hanswer, rfl⟩ := forall₂_getElem? h.leaves hover
  obtain ⟨step, found, slot, hstep, -, hslot, hbelongs⟩ := h.at_place houtcome
  rw [HandedOver, hstep] at hover
  cases hover
  exact ⟨answer, last, hanswer, houtcome, slot, hslot, hbelongs.symm⟩

/-- An outcome with a sub-session is one of a task that was handed over. -/
theorem handedOver_of_subSession
    (houtcome : outcomes[place]? = some outcome)
    (hsubSession : outcome.subSession.isSome ∨ outcome.status = .completed ∨
      outcome.ReportsSatisfied) :
    ∃ number task agent, HandedOver environment plan place number task agent := by
  obtain ⟨step, number, slot, hstep, hleaves, -, hbelongs⟩ := h.at_place houtcome
  cases step with
  | handedOver task agent => exact ⟨number, task, agent, hstep⟩
  | recorded attempted recorded =>
    obtain rfl : outcome = recorded := hleaves
    obtain ⟨-, hnone, hunreported, hstatus⟩ := hbelongs
    rcases hsubSession with hsome | hcompleted | ⟨report, _, hreport, -⟩
    · rw [hnone] at hsome
      cases hsome
    · rcases hstatus with h | h <;> rw [h] at hcompleted <;> cases hcompleted
    · rw [hunreported] at hreport
      cases hreport

/-- The completed outcomes are those whose answer will be completed. -/
theorem completed_iff (place : ℕ) :
    (∃ outcome, outcomes[place]? = some outcome ∧ outcome.status = .completed) ↔
      CompletesAt environment plan place := by
  constructor
  · rintro ⟨outcome, houtcome, hcompleted⟩
    obtain ⟨number, task, agent, hover⟩ :=
      h.handedOver_of_subSession houtcome (.inr (.inl hcompleted))
    obtain ⟨answer, last, hanswer, hsettled, -⟩ := h.of_handedOver hover
    rw [houtcome] at hsettled
    cases hsettled
    rw [settledOutcome_completed_iff, (tells_of_answer hanswer).completed] at hcompleted
    exact ⟨number, task, agent, hover, hcompleted⟩
  · rintro ⟨number, task, agent, hover, hcompletes⟩
    obtain ⟨answer, last, hanswer, hsettled, -⟩ := h.of_handedOver hover
    refine ⟨_, hsettled, ?_⟩
    rwa [settledOutcome_completed_iff, (tells_of_answer hanswer).completed]

theorem settled :
    ∀ outcome ∈ outcomes, outcome.status = .completed ∨ outcome.status = .failed ∨
      outcome.status = .skipped := by
  intro outcome hmem
  obtain ⟨place, houtcome⟩ := getElem?_of_mem hmem
  obtain ⟨step, number, slot, -, hleaves, -, hbelongs⟩ := h.at_place houtcome
  cases step with
  | recorded attempted recorded =>
    obtain rfl : outcome = recorded := hleaves
    exact .inr hbelongs.2.2.2
  | handedOver task agent =>
    obtain ⟨answer, last, -, rfl⟩ := hleaves
    unfold settledOutcome
    split
    · exact .inl rfl
    · exact .inr (.inl rfl)

/-- Where every call is answered, the result accounts for the tasks if and only if the calls
tell the truth and the tasks are ordered. -/
theorem accountsFor_iff
    {result : DelegatedTaskDispatchResult} (houtcomes : result.outcomes = outcomes)
    (hcompleted : result.completed = (outcomes.filter (·.status = .completed)).length)
    (hfailed : result.failed = (outcomes.filter (·.status = .failed)).length)
    (hskipped : result.skipped = (outcomes.filter (·.status = .skipped)).length) :
    AccountsFor environment plan result ↔
      (∀ place number task agent, HandedOver environment plan place number task agent →
        TellsTruth environment number task agent) ∧
      ∀ place number task agent slot, HandedOver environment plan place number task agent →
        (planSlots environment plan)[place]? = some slot →
          PrerequisitesMet plan (planSlots environment plan) (CompletesAt environment plan) place
            slot := by
  have hplaces : (fun earlier => ∃ other, outcomes[earlier]? = some other ∧
      other.status = .completed) = CompletesAt environment plan :=
    funext fun earlier => propext (h.completed_iff earlier)
  constructor
  · intro haccounts
    refine ⟨fun place number task agent hover => ?_,
      fun place number task agent slot hover hslot => ?_⟩
    · obtain ⟨answer, last, hanswer, hsettled, slot, hslot, rfl⟩ := h.of_handedOver hover
      rw [tellsTruth_iff hanswer]
      intro htold
      obtain ⟨number', agent', hnumber, hagent, hended⟩ :=
        haccounts.truthful place _ slot (houtcomes ▸ hsettled) hslot htold
      cases hnumber
      cases hagent
      exact hended
    · obtain ⟨answer, last, hanswer, hsettled, -⟩ := h.of_handedOver hover
      have hmet := haccounts.ordered place _ slot (houtcomes ▸ hsettled) hslot rfl
      rwa [houtcomes, hplaces] at hmet
  · rintro ⟨htruthful, hordered⟩
    refine ⟨?_, ?_, ?_, ?_, ?_, ?_, ?_⟩
    · rw [houtcomes]
      exact h.taskIds
    · rw [houtcomes]
      exact h.settled
    · rw [houtcomes, hcompleted]
    · rw [houtcomes, hfailed]
    · rw [houtcomes, hskipped]
    · intro place outcome slot houtcome hslot htold
      rw [houtcomes] at houtcome
      obtain ⟨number, task, agent, hover⟩ := h.handedOver_of_subSession houtcome (.inr htold)
      obtain ⟨answer, last, hanswer, hsettled, found, hfound, rfl⟩ := h.of_handedOver hover
      rw [houtcome] at hsettled
      cases hsettled
      rw [hslot] at hfound
      cases hfound
      exact ⟨number, agent, rfl, rfl,
        (tellsTruth_iff hanswer).mp (htruthful place number slot.task agent hover) htold⟩
    · intro place outcome slot houtcome hslot hstarted
      rw [houtcomes] at houtcome ⊢
      rw [hplaces]
      obtain ⟨number, task, agent, hover⟩ := h.handedOver_of_subSession houtcome (.inl hstarted)
      exact hordered place number task agent slot hover hslot

end

end Outcomes

/-- The dispatch of a plan with an assigned task: every call is answered, and the outcomes are
those of the steps, or the dispatch rejects with a call. -/
theorem dispatch_run (environment : DispatchEnvironment)
    (heligible : isDelegationDispatchEligible plan) :
    (∃ result, dispatchDelegatedSubAgentTasks environment plan = .ok result ∧
      Outcomes environment plan result.outcomes ∧
        result.completed = (result.outcomes.filter (·.status = .completed)).length ∧
          result.failed = (result.outcomes.filter (·.status = .failed)).length ∧
            result.skipped = (result.outcomes.filter (·.status = .skipped)).length) ∨
    (∃ place number task agent, HandedOver environment plan place number task agent ∧
      (¬ ∃ answer last, runnerCall environment number task agent = .ok answer last) ∧
        ∀ result, dispatchDelegatedSubAgentTasks environment plan ≠ .ok result) := by
  unfold dispatchDelegatedSubAgentTasks
  rw [if_pos heligible, forM_dispatchTask]
  obtain ⟨outcomes, last, hrun, houtcomes, hleaves⟩ |
      ⟨task, agent, number, error, failed, hmem, hcall, last, hrun⟩ :=
    forM_perform environment (planSteps environment plan)
      { outcomes := [], attempted := 0, calls := 0 }
  · rw [← planSteps, hrun]
    refine .inl ⟨_, rfl, ⟨?_⟩, rfl, rfl, rfl⟩
    change List.Forall₂ _ _ last.outcomes
    rw [houtcomes]
    exact hleaves
  · rw [← planSteps, hrun]
    obtain ⟨place, hplace⟩ := getElem?_of_mem hmem
    refine .inr ⟨place, number, task, agent, hplace, ?_, fun _ h => by cases h⟩
    rintro ⟨answer, finished, hanswer⟩
    rw [hcall] at hanswer
    cases hanswer

theorem taskSlots_ne_nil (task : OrchestrationTask) : taskSlots environment task ≠ [] := by
  unfold taskSlots
  split <;> simp

/-- A dispatch that hands nothing over because no task is assigned. -/
theorem dispatch_of_not_eligible (environment : DispatchEnvironment)
    (hnot : ¬ isDelegationDispatchEligible plan) :
    dispatchDelegatedSubAgentTasks environment plan =
      .ok { attempted := 0, completed := 0, failed := 0, skipped := 0, outcomes := [] } := by
  unfold dispatchDelegatedSubAgentTasks
  rw [if_neg hnot]

theorem not_handedOver_of_no_tasks (hempty : plan.delegatedTasks = []) :
    ¬ HandedOver environment plan place number task agent := by
  unfold HandedOver planSteps
  rw [hempty]
  exact fun h => by cases h

/-- A dispatch keeps its accounts if and only if the condition holds. -/
theorem keepsAccounts_iff (environment : DispatchEnvironment) (plan : OrchestrationPlan) :
    KeepsAccounts environment plan ↔ AccountingCondition environment plan := by
  by_cases heligible : isDelegationDispatchEligible plan
  · obtain ⟨result, hresult, houtcomes, hcompleted, hfailed, hskipped⟩ |
        ⟨place, number, task, agent, hover, hrejects, hnone⟩ :=
      dispatch_run environment heligible
    · have hiff := houtcomes.accountsFor_iff rfl hcompleted hfailed hskipped
      constructor
      · rintro ⟨found, hfound, haccounts⟩
        rw [hresult] at hfound
        cases hfound
        obtain ⟨htruthful, hordered⟩ := hiff.mp haccounts
        refine ⟨.inl heligible, fun place number task agent hover => ?_, htruthful, hordered⟩
        obtain ⟨answer, last, hanswer, -⟩ := houtcomes.of_handedOver hover
        exact runnerCall_answers_iff.mp ⟨answer, last, hanswer⟩
      · exact fun hcondition =>
          ⟨result, hresult, hiff.mpr ⟨hcondition.truthful, hcondition.ordered⟩⟩
    · refine iff_of_false ?_ fun hcondition => hrejects
        (runnerCall_answers_iff.mpr (hcondition.contained place number task agent hover))
      rintro ⟨result, hresult, -⟩
      exact hnone result hresult
  · have hresult := dispatch_of_not_eligible environment heligible
    constructor
    · rintro ⟨result, hfound, haccounts⟩
      rw [hresult] at hfound
      cases hfound
      have hempty : plan.delegatedTasks = [] := by
        have hslots : planSlots environment plan = [] := map_eq_nil_iff.mp haccounts.outcomes.symm
        unfold planSlots at hslots
        rw [flatMap_eq_nil_iff] at hslots
        apply eq_nil_iff_forall_not_mem.mpr
        exact fun task hmem => taskSlots_ne_nil task (hslots task hmem)
      refine ⟨.inr hempty, ?_, ?_, ?_⟩
      · exact fun _ _ _ _ hover => absurd hover (not_handedOver_of_no_tasks hempty)
      · exact fun _ _ _ _ hover => absurd hover (not_handedOver_of_no_tasks hempty)
      · exact fun _ _ _ _ _ hover => absurd hover (not_handedOver_of_no_tasks hempty)
    · intro hcondition
      have hempty := hcondition.assigned.resolve_left heligible
      refine ⟨_, hresult, ?_, ?_, rfl, rfl, rfl, ?_, ?_⟩
      · rw [planSlots, hempty]
        rfl
      · exact fun _ hmem => absurd hmem not_mem_nil
      · exact fun _ _ _ h => by cases h
      · exact fun _ _ _ h => by cases h

end Accounts

/-! ## A child that waits for the user -/

/-- Collaborators that always work. -/
def workingCollaborators : Collaborators ReportBody where
  runtime :=
    { now := fun reading => reading
      loadSubSessionByIdempotencyKey := fun _ => none
      persistSubSession := true
      reloadSubSessionByIdempotencyKey := fun _ => none
      parentAborted := false
      isParentCancelled := false
      parentFinalized := false
      reviewResultReport := fun _ =>
        { parentAborts := false, verdict := .error (.value "replaced by the dispatcher") } }
  call _ := { parentAborts := false, thrown := none }
  batch _ := false
  refusalHook := none
  createdHook := none
  closingBatch := none
  closingHook := none

/-- Every child run ends with a question to the user. -/
def askingChildren : DispatchEnvironment where
  parentRunId := "run:parent"
  agents := [{ agentId := "agent:alpha", displayName := "alpha", source := .db }]
  buildTeamExecutionPlan _ _ := { ok := false, plan := none, diagnostics := [] }
  localeCompare _ _ := 0
  call _ :=
    { collaborators := workingCollaborators
      reviewAborts := false
      subSessionId := "sub-session:1"
      sender := "nobie"
      recipient := "alpha"
      nestedReasonCodes := none
      modelPolicy :=
        { blocked := false
          reasonCode := "model_allowed"
          userMessage := ""
          snapshot := some { providerId := "openai", modelId := "gpt-5.4", status := none } }
      preflightIssueCodes := []
      bundleIssueCodes := []
      startSubAgentRun := .starts { aborts := false, finalizes := false }
        (.resolves (some
          { id := "run:child", status := .awaitingUser, summary := "Which branch?" }))
      resultReportId := "report"
      storedChildStatus := none }

def oneTaskPlan : OrchestrationPlan where
  delegatedTasks :=
    [{ taskId := "plan:task:0"
       scope :=
        { expectedOutputs :=
            [{ outputId := "implementation_summary", required := true
               requiredEvidenceKinds := ["child_run"], artifactRequired := false }]
          reasonCodes := ["delegation_required"] }
       assignedAgentId := some "agent:alpha"
       assignedTeamId := none
       planningTrace := none }]
  dependencyEdges := []

/-- The task whose child waits for the user is counted as completed. -/
theorem askingChildren_not_accounted : ¬ KeepsAccounts askingChildren oneTaskPlan := by
  rintro ⟨result, hresult, haccounts⟩
  have hstatuses : (dispatchDelegatedSubAgentTasks askingChildren oneTaskPlan).toOption.map
      (fun result => result.outcomes.map (·.status)) = some [.completed] := by
    decide +kernel
  have hstatuses : result.outcomes.map (·.status) = [.completed] := by
    rw [hresult] at hstatuses
    exact Option.some.inj hstatuses
  obtain ⟨outcome, houtcomes, hcompleted⟩ := map_eq_singleton_iff.mp hstatuses
  obtain ⟨slot, hslot⟩ : ∃ slot, (planSlots askingChildren oneTaskPlan)[0]? = some slot := ⟨_, rfl⟩
  obtain ⟨number, agent, -, -, ⟨⟨-, existing, hexisting, -⟩, -⟩ |
      ⟨meanwhile, childRun, finalized, hstart, -, hended⟩⟩ :=
    haccounts.truthful 0 outcome slot (by rw [houtcomes]; rfl) hslot (.inl hcompleted)
  · cases hexisting
  · cases hstart
    cases hended

end Nobie.Orchestration
