/-
# What a plan promises

A plan delegates to the executor that was decided on or to the team that the intent names, and
both can take the work. Tasks that want the same exclusive lock are put in order. Two things are
left to the caller: the locks that it gives for single tasks are listed in the plan only if they
are locks of the whole plan as well, and the order of the locks, which is that of the scopes, may
close a cycle with the dependencies that it gives.
-/

import Nobie.Orchestration.Planner

namespace Nobie.Orchestration.Planner

open Foundation Security List

/-! ## What is promised -/

/-- The agent may be handed the work. -/
structure FitFor (registry : RegistrySnapshot) (intent : Intent) (parentAgentId : String)
    (agent : AgentRegistryEntry) : Prop where
  enabled : agent.status = .enabled
  delegationEnabled : agent.delegationEnabled
  hasRoom : agent.currentLoad.activeSubSessions < agent.currentLoad.maxParallelSessions
  withinCeiling : (requiredRiskOf intent).order ≤ agent.permissionProfile.riskCeiling.order
  directChild : ∀ children ∈ directChildAgentIdsFor registry parentAgentId, agent.agentId ∈ children

/-- The task is for the executor, which is registered and may be handed the work. -/
structure GoesToExecutor (input : PlannerInput) (executorId : String) (task : OrchestrationTask) :
    Prop where
  assigned : task.assignedAgentId = some executorId ∧ task.assignedTeamId = none
  registered : ∃ agent, input.registry.agents.find? (·.agentId = executorId) = some agent ∧
    FitFor input.registry input.intent (plannerParentAgentId input) agent

/-- The task is for the team, which is registered, not invalid and has an active member. -/
structure GoesToTeam (input : PlannerInput) (teamId : String) (task : OrchestrationTask) :
    Prop where
  assigned : task.assignedTeamId = some teamId ∧ task.assignedAgentId = none
  registered : ∃ team, input.registry.teams.find? (·.teamId = teamId) = some team ∧
    team.health ≠ some .invalid ∧ activeMembers team ≠ []

/-- An edge leads from the first task to the second. -/
def DependsOn (edges : List DependencyEdge) (first second : String) : Prop :=
  ∃ edge ∈ edges, edge.fromTaskId = first ∧ edge.toTaskId = second

def Acyclic (before : String → String → Prop) : Prop := ∀ id, ¬Relation.TransGen before id id

variable (input : PlannerInput)

/-- The locks that the input has for a task and that the task lists. -/
def carriedLocks (task : OrchestrationTask) : List ResourceLock :=
  (locksFor input task.taskId).filter (·.lockId ∈ task.resourceLockIds)

/-- A dependency path leads from one of the tasks to the other. -/
def Ordered (edges : List DependencyEdge) (first second : OrchestrationTask) : Prop :=
  Relation.TransGen (DependsOn edges) first.taskId second.taskId ∨
    Relation.TransGen (DependsOn edges) second.taskId first.taskId

structure SoundPlan (input : PlannerInput) (plan : OrchestrationPlan) : Prop where
  decided : plan.delegatedTasks ≠ [] →
    ∃ decision ∈ input.agentExecutionDecision, ∃ executorId ∈ decision.selectedExecutorId,
      hasText executorId ∧ delegatesToSelected decision.executionRoute
  toExecutor : truthyText input.intent.explicitTeamId = none →
    ∀ task ∈ plan.delegatedTasks, ∃ executorId,
      selectedExecutorFromDelegatingDecision input.agentExecutionDecision = some executorId ∧
        GoesToExecutor input executorId task
  toTeam : ∀ teamId ∈ truthyText input.intent.explicitTeamId,
    ∀ task ∈ plan.delegatedTasks, GoesToTeam input teamId task
  locksListed : ∀ task ∈ plan.directNobieTasks ++ plan.delegatedTasks,
    ∀ lockId ∈ task.resourceLockIds, ∃ lock ∈ plan.resourceLocks, lock.lockId = lockId
  approvalsListed : ∀ approval ∈ plan.approvalRequirements,
    ∃ task ∈ plan.delegatedTasks, task.taskId = approval.taskId
  conflictsOrdered : plan.delegatedTasks.Pairwise fun first second =>
    hasExclusiveLockConflict (carriedLocks input first) (carriedLocks input second) →
      Ordered plan.dependencyEdges first second
  acyclic : Acyclic (DependsOn input.dependencyEdges) → Acyclic (DependsOn plan.dependencyEdges)
  parallel : plan.parallelGroups ≠ [] → plan.dependencyEdges = [] ∧ 1 < plan.delegatedTasks.length

/-! ## When it is kept -/

/-- The planner gets as far as the tasks of an executor. -/
def PlansForExecutor : Prop :=
  input.mode = .orchestration ∧ input.elapsedMs ≤ max 1 (input.timeoutMs.getD 120) ∧
    truthyText input.intent.explicitTeamId = none ∧
    ∃ executorId agent,
      selectedExecutorFromDelegatingDecision input.agentExecutionDecision = some executorId ∧
        input.registry.agents.find? (·.agentId = executorId) = some agent ∧
        (∀ children ∈ directChildAgentIdsFor input.registry (plannerParentAgentId input),
          executorId ∈ children) ∧
        uniqueStrings (excludedReasonCodes input.registry (plannedIntent input)
          (plannerParentAgentId input) agent) = []

/-- What must come before what: the dependencies that are given, and of two tasks whose locks
conflict the earlier one. -/
def MustPrecede (first second : String) : Prop :=
  DependsOn input.dependencyEdges first second ∨
    ∃ i j, i < j ∧ j < (plannedScopes input).length ∧ delegatedTaskId input i = first ∧
      delegatedTaskId input j = second ∧
      hasExclusiveLockConflict (locksFor input first) (locksFor input second)

/-- The locks of the input fit together with each other and with its dependencies. -/
structure LocksConsistent (input : PlannerInput) : Prop where
  listed : ∀ index < (plannedScopes input).length,
    ∀ lock ∈ locksFor input (delegatedTaskId input index),
      ∃ listed ∈ input.resourceLocks, listed.lockId = lock.lockId
  acyclic : Acyclic (DependsOn input.dependencyEdges) → Acyclic (MustPrecede input)

/-! ## Texts and codes -/

variable {values : List String} {condition : Bool} {code : String} {registry : RegistrySnapshot}
  {parentAgentId : String} {candidate : CandidateScore} {scores : List CandidateScore}
  {executorId : String}

theorem mem_uniqueStrings {text : String} :
    text ∈ uniqueStrings values ↔ (∃ value ∈ values, jsTrim value = text) ∧ text ≠ "" := by
  rw [uniqueStrings, mem_mergeSort]
  refine (OrderedSet.mem_ofList _ _).trans ?_
  rw [mem_filter, mem_map, decide_eq_true_eq]

/-- None of the codes says anything. -/
def Blank (codes : List String) : Prop := ∀ code ∈ codes, jsTrim code = ""

theorem uniqueStrings_eq_nil : uniqueStrings values = [] ↔ Blank values := by
  rw [eq_nil_iff_forall_not_mem]
  constructor
  · intro h value hvalue
    by_contra htext
    exact h (jsTrim value) (mem_uniqueStrings.mpr ⟨⟨value, hvalue, rfl⟩, htext⟩)
  · intro h text htext
    obtain ⟨⟨value, hvalue, rfl⟩, hne⟩ := mem_uniqueStrings.mp htext
    exact hne (h value hvalue)

theorem blank_append {codes others : List String} :
    Blank (codes ++ others) ↔ Blank codes ∧ Blank others := forall_mem_append

theorem blank_codeIf (hcode : jsTrim code ≠ "") :
    Blank (codeIf condition code) ↔ condition = false := by
  cases condition <;> simp [Blank, codeIf, hcode]

theorem blank_codeIf_not (hcode : jsTrim code ≠ "") :
    Blank (codeIf (!condition) code) ↔ condition := by
  rw [blank_codeIf hcode, Bool.not_eq_false']

/-! ## Candidates that are not excluded -/

section Candidates

variable {host : PlannerHost} {input : PlannerInput} {agent : AgentRegistryEntry}
  {executorId : String}

section

variable (hdecision : selectedExecutorFromDelegatingDecision input.agentExecutionDecision = some
  executorId)
include hdecision

theorem explicitAgentId_plannedIntent : plannedIntent input = { input.intent with
        explicitAgentId := some executorId } := by
  rw [plannedIntent, hdecision]

theorem hasText_of_selected :
    ∃ decision ∈ input.agentExecutionDecision, ∃ executorId ∈ decision.selectedExecutorId,
      hasText executorId ∧ delegatesToSelected decision.executionRoute := by
  obtain ⟨decision, hgiven, hselected⟩ := Option.bind_eq_some_iff.mp hdecision
  obtain ⟨hexecutor, hroute⟩ := Option.filter_eq_some_iff.mp hselected
  exact ⟨decision, hgiven, executorId, hexecutor, Bool.and_eq_true_iff.mp hroute⟩

theorem filled_of_selected : executorId ≠ "" := by
  obtain ⟨decision, -, hselected⟩ := Option.bind_eq_some_iff.mp hdecision
  obtain ⟨htext, -⟩ := Bool.and_eq_true_iff.mp (Option.filter_eq_some_iff.mp hselected).2
  rintro rfl
  exact absurd htext (by decide +kernel)

/-- An agent that nothing excludes is the executor that was decided on. -/
theorem agentId_of_blank
    (hblank : Blank (excludedReasonCodes registry (plannedIntent input) parentAgentId agent)) :
    agent.agentId = executorId := by
  simp only [excludedReasonCodes, blank_append, and_assoc] at hblank
  obtain ⟨-, htarget, -⟩ := hblank
  have hexplicit : truthyText (plannedIntent input).explicitAgentId = some executorId := by
    rw [explicitAgentId_plannedIntent hdecision]
    exact Option.filter_eq_some_iff.mpr ⟨rfl, decide_eq_true (filled_of_selected hdecision)⟩
  have hallowed := (blank_codeIf_not (by decide +kernel)).mp htarget
  rw [candidateAllowedByExplicitTarget, hexplicit] at hallowed
  exact of_decide_eq_true hallowed

end

/-- An agent that nothing excludes and that is a child may be handed the work. -/
theorem fitFor_of_blank
    (hblank : Blank (excludedReasonCodes registry (plannedIntent input) parentAgentId agent))
    (hvisible : ∀ children ∈ directChildAgentIdsFor registry parentAgentId,
      agent.agentId ∈ children) : FitFor registry input.intent parentAgentId agent := by
  simp only [excludedReasonCodes, blank_append, and_assoc] at hblank
  obtain ⟨-, -, hstatus, -, hdelegates, hroom, -, -, -, -, hrisk, -⟩ := hblank
  have hrequired : requiredRiskOf (plannedIntent input) = requiredRiskOf input.intent := by
    unfold plannedIntent
    split <;> rfl
  refine ⟨?_, ?_, ?_, ?_, hvisible⟩
  · exact of_not_not (of_decide_eq_false ((blank_codeIf (by decide +kernel)).mp hstatus))
  · exact (blank_codeIf_not (by decide +kernel)).mp hdelegates
  · exact not_le.mp (of_decide_eq_false ((blank_codeIf (by decide +kernel)).mp hroom))
  · exact hrequired ▸ of_decide_eq_true ((blank_codeIf_not (by decide +kernel)).mp hrisk)

/-- The scores of all agents of the registry. -/
def candidatesOf (host : PlannerHost) (input : PlannerInput) : List CandidateScore :=
  input.registry.agents.map
    (scoreCandidate host input.registry (plannedIntent input) (plannerParentAgentId input))

/-- Every eligible candidate is the executor. -/
theorem agentId_of_eligible
    (hdecision : selectedExecutorFromDelegatingDecision input.agentExecutionDecision =
      some executorId)
    (hcandidate : candidate ∈ sortedEligibleCandidates host (candidatesOf host input)) :
    candidate.agentId = executorId := by
  rw [sortedEligibleCandidates, mem_mergeSort, mem_filter, candidatesOf, mem_map] at hcandidate
  obtain ⟨⟨agent, -, rfl⟩, heligible⟩ := hcandidate
  exact agentId_of_blank hdecision (uniqueStrings_eq_nil.mp (List.isEmpty_iff.mp heligible))

end Candidates

/-! ## Edges between tasks with conflicting locks -/

section Edges

variable {input : PlannerInput} {edges others : List DependencyEdge} {first second : String}

theorem dependsOn_append :
    DependsOn (edges ++ others) first second ↔
      DependsOn edges first second ∨ DependsOn others first second := by
  simp only [DependsOn, mem_append, or_and_right, exists_or]

/-- The edges lead from each task to the later ones with conflicting locks. -/
theorem dependsOn_lockConflictEdges {tasks : List OrchestrationTask} :
    DependsOn (lockConflictEdges input tasks) first second ↔
      ∃ i j : ℕ, ∃ current next : OrchestrationTask, i < j ∧ tasks[i]? = some current ∧
        tasks[j]? = some next ∧ current.taskId = first ∧ next.taskId = second ∧
        hasExclusiveLockConflict (locksFor input first) (locksFor input second) := by
  induction tasks with
  | nil => simp [DependsOn, lockConflictEdges]
  | cons current rest ih =>
    rw [lockConflictEdges, dependsOn_append, ih]
    constructor
    · rintro (⟨edge, hedge, rfl, rfl⟩ | ⟨i, j, earlier, later, hij, hearlier, hlater, hends⟩)
      · obtain ⟨next, hnext, rfl⟩ := mem_map.mp hedge
        obtain ⟨hmem, hconflict⟩ := mem_filter.mp hnext
        obtain ⟨j, hj⟩ := getElem?_of_mem hmem
        exact ⟨0, j + 1, current, next, Nat.succ_pos j, rfl, hj, rfl, rfl, hconflict⟩
      · exact ⟨i + 1, j + 1, earlier, later, Nat.succ_lt_succ hij, hearlier, hlater, hends⟩
    · rintro ⟨i, j, earlier, later, hij, hearlier, hlater, rfl, rfl, hconflict⟩
      obtain ⟨k, rfl⟩ := Nat.exists_eq_succ_of_ne_zero (Nat.ne_zero_of_lt hij)
      cases i with
      | zero =>
        left
        obtain rfl : current = earlier := Option.some.inj hearlier
        refine ⟨conflictEdge current later, mem_map_of_mem (mem_filter.mpr ⟨?_, ?_⟩), rfl, rfl⟩
        · exact mem_of_getElem? hlater
        · exact hconflict
      | succ i =>
        exact .inr ⟨i, k, earlier, later, Nat.lt_of_succ_lt_succ hij, hearlier, hlater, rfl,
          rfl, hconflict⟩

end Edges

/-! ## The plan for an executor -/

section Executor

variable {input : PlannerInput} {scores eligible : List CandidateScore} {executorId : String}
  {chosen : ℕ → CandidateScore}

theorem exists_candidateAt (hsome : eligible ≠ []) (index : ℕ) :
    ∃ candidate ∈ eligible, candidateAt eligible index = some candidate := by
  have hlength := length_pos_iff.mpr hsome
  have hindex := Nat.mod_lt index hlength
  refine ⟨eligible[index % eligible.length], getElem_mem hindex, ?_⟩
  rw [candidateAt, getElem?_eq_getElem hindex, Option.some_or]

section

variable (hchosen : ∀ index, candidateAt eligible index = some (chosen index))
include hchosen

theorem delegatedTasks_agentPlan :
    (agentPlan input scores eligible).plan.delegatedTasks =
      (plannedScopes input).zipIdx.map fun scope => delegatedTask input (chosen scope.2) scope := by
  simp only [agentPlan, hchosen, Option.map_some, filterMap_eq_map', map_map]
  rfl

theorem approvals_agentPlan :
    (agentPlan input scores eligible).plan.approvalRequirements =
      (plannedScopes input).zipIdx.filterMap fun scope =>
        approvalFor input (chosen scope.2) scope.2 := by
  simp only [agentPlan, hchosen, Option.map_some, filterMap_eq_map', filterMap_map]
  rfl

/-- The tasks stand in the order of the scopes. -/
theorem task_agentPlan
    {index : ℕ} {task : OrchestrationTask} :
    (agentPlan input scores eligible).plan.delegatedTasks[index]? = some task ↔
      ∃ scope, (plannedScopes input)[index]? = some scope ∧
        delegatedTask input (chosen index) (scope, index) = task := by
  rw [delegatedTasks_agentPlan hchosen, getElem?_map, getElem?_zipIdx, Option.map_map,
    Option.map_eq_some_iff, zero_add]
  rfl

end

/-- The edges of the plan are what must come before what. -/
theorem dependsOn_agentPlan (input : PlannerInput) (scores : List CandidateScore)
    (hchosen : ∀ index, candidateAt eligible index = some (chosen index)) :
    DependsOn (agentPlan input scores eligible).plan.dependencyEdges = MustPrecede input := by
  funext first second
  apply propext
  show DependsOn (input.dependencyEdges ++ lockConflictEdges input
    (agentPlan input scores eligible).plan.delegatedTasks) first second ↔ _
  rw [dependsOn_append, dependsOn_lockConflictEdges]
  refine or_congr_right (exists₂_congr fun i j => ?_)
  constructor
  · rintro ⟨current, next, hij, hcurrent, hnext, rfl, rfl, hconflict⟩
    obtain ⟨scope, -, rfl⟩ := (task_agentPlan hchosen).mp hcurrent
    obtain ⟨other, hother, rfl⟩ := (task_agentPlan hchosen).mp hnext
    exact ⟨hij, (List.getElem?_eq_some_iff.mp hother).1, rfl, rfl, hconflict⟩
  · rintro ⟨hij, hj, rfl, rfl, hconflict⟩
    have hi := hij.trans hj
    exact ⟨_, _, hij, (task_agentPlan hchosen).mpr ⟨_, getElem?_eq_getElem hi, rfl⟩,
      (task_agentPlan hchosen).mpr ⟨_, getElem?_eq_getElem hj, rfl⟩, rfl, rfl, hconflict⟩

theorem carriedLocks_delegatedTask {scope : TaskScope × ℕ} :
    carriedLocks input (delegatedTask input candidate scope) =
      locksFor input (delegatedTaskId input scope.2) := by
  refine filter_eq_self.mpr fun lock hlock => decide_eq_true ?_
  exact mem_map_of_mem hlock

/-- The plan for an executor keeps its promises if the locks of the input are consistent. -/
theorem soundPlan_agentPlan
    (hdecision : selectedExecutorFromDelegatingDecision input.agentExecutionDecision =
      some executorId)
    (hteam : truthyText input.intent.explicitTeamId = none)
    (hregistered : ∃ agent, input.registry.agents.find? (·.agentId = executorId) = some agent ∧
      FitFor input.registry input.intent (plannerParentAgentId input) agent)
    (hsome : eligible ≠ []) (heligible : ∀ candidate ∈ eligible, candidate.agentId = executorId) :
    SoundPlan input (agentPlan input scores eligible).plan ↔ LocksConsistent input := by
  choose chosen hmem hchosen using exists_candidateAt hsome
  have hedges := dependsOn_agentPlan input scores hchosen
  have htask {index : ℕ} {task : OrchestrationTask} :
      (agentPlan input scores eligible).plan.delegatedTasks[index]? = some task ↔
        ∃ scope, (plannedScopes input)[index]? = some scope ∧
          delegatedTask input (chosen index) (scope, index) = task := task_agentPlan hchosen
  constructor
  · intro hsound
    refine ⟨fun index hindex lock hlock => ?_, fun hacyclic => hedges ▸ hsound.acyclic hacyclic⟩
    have hplanned := htask.mpr ⟨_, getElem?_eq_getElem hindex, rfl⟩
    exact hsound.locksListed _ (mem_append_right _ (mem_of_getElem? hplanned)) lock.lockId
      (mem_map_of_mem hlock)
  · intro hlocks
    constructor
    · exact fun _ => hasText_of_selected hdecision
    · intro _ task hdelegated
      obtain ⟨index, hindex⟩ := getElem?_of_mem hdelegated
      obtain ⟨scope, -, rfl⟩ := htask.mp hindex
      exact ⟨executorId, hdecision, ⟨congrArg some (heligible _ (hmem index)), hteam⟩, hregistered⟩
    · intro teamId hnamed
      rw [hteam] at hnamed
      cases hnamed
    · intro task hdelegated lockId hlockId
      obtain ⟨index, hindex⟩ := getElem?_of_mem hdelegated
      obtain ⟨scope, hscope, rfl⟩ := htask.mp hindex
      obtain ⟨lock, hlock, rfl⟩ := mem_map.mp hlockId
      exact hlocks.listed index (List.getElem?_eq_some_iff.mp hscope).1 lock hlock
    · intro approval happroval
      rw [approvals_agentPlan hchosen] at happroval
      obtain ⟨⟨scope, index⟩, hscope, hfor⟩ := mem_filterMap.mp happroval
      obtain ⟨risk, -, rfl⟩ := Option.map_eq_some_iff.mp hfor
      refine ⟨delegatedTask input (chosen index) (scope, index), ?_, rfl⟩
      rw [delegatedTasks_agentPlan hchosen]
      exact mem_map_of_mem hscope
    · rw [pairwise_iff_getElem]
      intro i j hi hj hij hconflict
      have hfirst := getElem?_eq_getElem hi
      have hsecond := getElem?_eq_getElem hj
      obtain ⟨scope, -, htaken⟩ := htask.mp hfirst
      obtain ⟨other, hother, hlater⟩ := htask.mp hsecond
      rw [← htaken, ← hlater, carriedLocks_delegatedTask, carriedLocks_delegatedTask] at hconflict
      rw [← htaken, ← hlater, Ordered, hedges]
      exact .inl (.single (.inr ⟨i, j, hij, (List.getElem?_eq_some_iff.mp hother).1, rfl, rfl,
        hconflict⟩))
    · exact fun hacyclic => hedges.symm ▸ hlocks.acyclic hacyclic
    · intro hgroups
      by_contra hnone
      exact hgroups (if_neg hnone)

end Executor

/-! ## The other plans -/

section Others

variable {host : PlannerHost} {input : PlannerInput} {plan : OrchestrationPlan}

/-- A plan that delegates nothing keeps its promises. -/
theorem soundPlan_of_nothing (htasks : plan.delegatedTasks = [])
    (hdirect : ∀ task ∈ plan.directNobieTasks, task.resourceLockIds = [])
    (happrovals : plan.approvalRequirements = []) (hedges : plan.dependencyEdges = [])
    (hgroups : plan.parallelGroups = []) : SoundPlan input plan where
  decided hsome := absurd htasks hsome
  toExecutor _ task htask := by
    rw [htasks] at htask
    cases htask
  toTeam _ _ task htask := by
    rw [htasks] at htask
    cases htask
  locksListed task htask lockId hlockId := by
    rw [htasks, append_nil] at htask
    rw [hdirect task htask] at hlockId
    cases hlockId
  approvalsListed approval happroval := by
    rw [happrovals] at happroval
    cases happroval
  conflictsOrdered := by
    rw [htasks]
    exact .nil
  acyclic _ id hcycle := by
    obtain ⟨next, ⟨edge, hedge, -⟩, -⟩ := Relation.TransGen.head'_iff.mp hcycle
    rw [hedges] at hedge
    cases hedge
  parallel hsome := absurd hgroups hsome

theorem soundPlan_directFallback {fallback : DirectFallback} :
    SoundPlan input (directFallbackPlan input scores fallback).plan :=
  soundPlan_of_nothing rfl (forall_mem_singleton.mpr rfl) rfl rfl rfl

/-- The plan for a team keeps its promises: its tasks have no locks and its edges are those that
are given. -/
theorem soundPlan_teamPlan {teamId : String} {team : TeamRegistryEntry}
    (hdecision : selectedExecutorFromDelegatingDecision input.agentExecutionDecision =
      some executorId) (hnamed : truthyText input.intent.explicitTeamId = some teamId)
    (hteam : input.registry.teams.find? (·.teamId = teamId) = some team)
    (havailable : teamAvailable team) :
    SoundPlan input (teamPlan input scores teamId team).plan := by
  have hfilled : teamId ≠ "" := of_decide_eq_true (Option.filter_eq_some_iff.mp hnamed).2
  obtain ⟨hvalid, hmembers⟩ := Bool.and_eq_true_iff.mp havailable
  have htask (task : OrchestrationTask)
      (hdelegated : task ∈ (teamPlan input scores teamId team).plan.delegatedTasks) :
      ∃ scope, teamTask input teamId team scope = task := by
    obtain ⟨scope, -, hscope⟩ := mem_map.mp hdelegated
    exact ⟨scope, hscope⟩
  constructor
  · exact fun _ => hasText_of_selected hdecision
  · intro hnone
    rw [hnone] at hnamed
    cases hnamed
  · intro other hother task hdelegated
    obtain rfl : teamId = other := Option.some.inj (hnamed.symm.trans hother)
    obtain ⟨scope, rfl⟩ := htask task hdelegated
    refine ⟨⟨?_, rfl⟩, team, hteam, of_decide_eq_true hvalid, ?_⟩
    · show truthyText (some teamId) = some teamId
      exact Option.filter_eq_some_iff.mpr ⟨rfl, decide_eq_true hfilled⟩
    · simpa using hmembers
  · intro task hdelegated lockId hlockId
    obtain ⟨scope, rfl⟩ := htask task hdelegated
    cases hlockId
  · exact forall_mem_nil _
  · refine pairwise_of_forall_mem_list fun first hfirst second _ hconflict => ?_
    obtain ⟨scope, rfl⟩ := htask first hfirst
    have hcarried : carriedLocks input (teamTask input teamId team scope) = [] :=
      filter_eq_nil_iff.mpr fun lock _ => of_decide_eq_false rfl
    rw [hcarried] at hconflict
    cases hconflict
  · exact fun hacyclic => hacyclic
  · exact fun hgroups => absurd rfl hgroups

/-- The executor is available if it is registered and visible and nothing excludes it. -/
theorem available_iff (host : PlannerHost) :
    ((input.registry.agents.find? (·.agentId = executorId)).isNone ||
        !(directChildAgentIdsFor input.registry (plannerParentAgentId input)).all
          (executorId ∈ ·) ||
        !((candidatesOf host input).find? (·.agentId = executorId)).any
          (·.excludedReasonCodes.isEmpty)) = false ↔
      ∃ agent, input.registry.agents.find? (·.agentId = executorId) = some agent ∧
        (∀ children ∈ directChildAgentIdsFor input.registry (plannerParentAgentId input),
          executorId ∈ children) ∧
        uniqueStrings (excludedReasonCodes input.registry (plannedIntent input)
          (plannerParentAgentId input) agent) = [] := by
  have hscore : (candidatesOf host input).find? (·.agentId = executorId) =
      (input.registry.agents.find? (·.agentId = executorId)).map (scoreCandidate host
        input.registry (plannedIntent input) (plannerParentAgentId input)) := by
    rw [candidatesOf, find?_map]
    rfl
  rw [hscore]
  cases input.registry.agents.find? (·.agentId = executorId) with
  | none => simp
  | some agent =>
    simp only [Option.isNone_some, Bool.false_or, Option.map_some, Option.any_some,
      Bool.or_eq_false_iff, Bool.not_eq_false', List.isEmpty_iff, Option.some.injEq,
      exists_eq_left', Option.all_eq_true, decide_eq_true_eq, Option.mem_def]
    rfl

/-- Where the planner does not get as far as the tasks of an executor, the promises are kept. -/
theorem soundPlan_of_not_plansForExecutor (hnot : ¬PlansForExecutor input) :
    SoundPlan input (buildOrchestrationPlan host input).plan := by
  unfold buildOrchestrationPlan
  dsimp only
  split_ifs with hmode hdirect hworkflow htime
  · exact soundPlan_directFallback
  · exact soundPlan_directFallback
  · exact soundPlan_of_nothing rfl (forall_mem_nil _) rfl rfl rfl
  · exact soundPlan_directFallback
  · unfold planWithRegistry
    split
    · exact soundPlan_directFallback
    · next executorId hdecision =>
      split
      · next teamId hnamed =>
        unfold planForTeam
        dsimp only
        split
        · next team hteam =>
          obtain ⟨hfound, havailable⟩ := Option.filter_eq_some_iff.mp hteam
          exact soundPlan_teamPlan hdecision hnamed hfound havailable
        · exact soundPlan_directFallback
      · next hteam =>
        unfold planForExecutor
        dsimp only
        split_ifs with hunavailable hnone
        · exact soundPlan_directFallback
        · exact soundPlan_directFallback
        · obtain ⟨agent, havailable⟩ :=
            (available_iff host).mp (Bool.eq_false_of_not_eq_true hunavailable)
          exact absurd ⟨of_not_not hmode, not_lt.mp htime, hteam, executorId, agent, hdecision,
            havailable⟩ hnot

/-- Where it does, the locks decide. -/
theorem soundPlan_iff_of_plansForExecutor (hplans : PlansForExecutor input) :
    SoundPlan input (buildOrchestrationPlan host input).plan ↔ LocksConsistent input := by
  obtain ⟨hmode, htime, hteam, executorId, agent, hdecision, hfound, hvisible, hcodes⟩ := hplans
  have hblank := uniqueStrings_eq_nil.mp hcodes
  have hagent : agent.agentId = executorId := agentId_of_blank hdecision hblank
  have hfit := fitFor_of_blank hblank (hagent ▸ hvisible)
  have hcandidate : scoreCandidate host input.registry (plannedIntent input)
      (plannerParentAgentId input) agent ∈
        sortedEligibleCandidates host (candidatesOf host input) := by
    rw [sortedEligibleCandidates, mem_mergeSort, mem_filter]
    exact ⟨mem_map_of_mem (mem_of_find?_eq_some hfound), List.isEmpty_iff.mpr hcodes⟩
  have hsome := ne_nil_of_mem hcandidate
  have hplan : buildOrchestrationPlan host input = agentPlan input (candidatesOf host input)
      (sortedEligibleCandidates host (candidatesOf host input)) := by
    have havailable := (available_iff host).mpr ⟨agent, hfound, hvisible, hcodes⟩
    have hclass (other : FastPathClassification) (hother : .delegationCandidate ≠ other) :
        ¬(classifyFastPath (plannedIntent input)).1 = other := hother
    have hregistry : buildOrchestrationPlan host input = planWithRegistry host input := by
      rw [buildOrchestrationPlan, if_neg (not_not_intro hmode), if_neg (hclass _ (by decide)),
        if_neg (hclass _ (by decide)), if_neg (not_lt.mpr htime)]
    have hexecutor : planWithRegistry host input =
        planForExecutor host input (candidatesOf host input) executorId := by
      rw [planWithRegistry, hdecision, hteam]
      rfl
    rw [hregistry, hexecutor, planForExecutor, if_neg (Bool.eq_false_iff.mp havailable),
      if_neg hsome]
  rw [hplan]
  exact soundPlan_agentPlan hdecision hteam ⟨agent, hfound, hfit⟩ hsome
    fun candidate hmem => agentId_of_eligible hdecision hmem

/-- A plan keeps its promises exactly if the locks of the input are consistent wherever tasks of
an executor are planned. -/
theorem soundPlan_iff (host : PlannerHost) (input : PlannerInput) :
    SoundPlan input (buildOrchestrationPlan host input).plan ↔
      (PlansForExecutor input → LocksConsistent input) := by
  by_cases hplans : PlansForExecutor input
  · rw [soundPlan_iff_of_plansForExecutor hplans]
    exact ⟨fun h _ => h, fun h => h hplans⟩
  · exact iff_of_true (soundPlan_of_not_plansForExecutor hplans) fun h => absurd h hplans

end Others

/-! ## Locks of single tasks and a dependency against the order of the scopes -/

def plainPlannerHost : PlannerHost where
  localeCompare _ _ := 0
  roundedProduct value factor := ⌊value * factor + 1 / 2⌋

def plainWorker : AgentRegistryEntry where
  agentId := "agent:worker"
  status := .enabled
  role := "worker"
  specialtyTags := []
  teamIds := []
  delegationEnabled := true
  source := .config
  permissionProfile :=
    { profileId := "profile:worker", riskCeiling := .moderate, approvalRequiredFrom := .moderate }
  skillMcpSummary := { enabledSkillIds := [], enabledMcpServerIds := [], enabledToolNames := [] }
  capabilityAvailability := .available
  modelAvailability := .available
  currentLoad := { activeSubSessions := 0, maxParallelSessions := 2, utilization := 0 }
  failureRate := 0

def workerDecision : ExecutionDecision where
  currentExecutorId := "agent:nobie"
  parentExecutorId := none
  domain := "unresolved"
  behaviorPattern := .delegate
  executionRoute := .delegateToChild
  selectedExecutorId := some "agent:worker"
  selectedConnectionPath := ["agent:worker"]
  taskProfile := []
  requiredOutputs := []
  riskBoundary := []
  confidence := .ofNat 1
  fallbackIfUnavailable := .selfSolve
  unresolvedReason := none
  reason := "The worker can do it."

def fileLock : ResourceLock where
  lockId := "lock:file"
  kind := .file
  target := "/data/report.txt"
  mode := .exclusive

def workerRegistry : RegistrySnapshot where
  agents := [plainWorker]
  teams := []
  membershipEdges := []
  hierarchy := none
  capabilityIndex := none

/-- Two scopes for the worker, with locks of the whole plan and of single tasks and with
dependencies that are given. -/
def twoScopes (resourceLocks : List ResourceLock)
    (resourceLocksByTaskId : OrderedMap String (List ResourceLock))
    (dependencyEdges : List DependencyEdge) : PlannerInput where
  userRequest := "Write the report."
  mode := .orchestration
  modeReasonCode := "orchestration_ready"
  registry := workerRegistry
  taskScopes :=
    [buildDefaultStructuredTaskScope "Write the report.",
      buildDefaultStructuredTaskScope "Check the report."]
  intent := {}
  agentExecutionDecision := some workerDecision
  parentAgentId := none
  resourceLocks
  resourceLocksByTaskId
  dependencyEdges
  timeoutMs := none
  elapsedMs := 0
  planId := "plan:locks"

theorem plansForExecutor_twoScopes (resourceLocks : List ResourceLock)
    (resourceLocksByTaskId : OrderedMap String (List ResourceLock))
    (dependencyEdges : List DependencyEdge) :
    PlansForExecutor (twoScopes resourceLocks resourceLocksByTaskId dependencyEdges) := by
  have hdecision : selectedExecutorFromDelegatingDecision (some workerDecision) =
      some "agent:worker" := by decide +kernel
  have hcodes : excludedReasonCodes workerRegistry { explicitAgentId := some "agent:worker" }
      "agent:nobie" plainWorker = [] := by decide +kernel
  refine ⟨rfl, zero_le_one.trans (le_max_left _ _), rfl, "agent:worker", plainWorker, hdecision,
    rfl, ?_, ?_⟩
  · intro children hchildren
    cases hchildren
  · rw [explicitAgentId_plannedIntent hdecision, uniqueStrings_eq_nil]
    show Blank (excludedReasonCodes workerRegistry { explicitAgentId := some "agent:worker" }
      "agent:nobie" plainWorker)
    rw [hcodes]
    exact forall_mem_nil _

/-- Each of the two tasks has a lock of its own, which is none of the whole plan. -/
def ownLocks : PlannerInput :=
  twoScopes [] ((OrderedMap.set ∅ "plan:locks:delegated:0" [fileLock]).set
    "plan:locks:delegated:1" [fileLock]) []

def checkFirst : DependencyEdge where
  fromTaskId := "plan:locks:delegated:1"
  toTaskId := "plan:locks:delegated:0"
  reasonCode := "check_first"

/-- The second scope is given to come before the first, and both want one lock. -/
def lockedBackwards : PlannerInput := twoScopes [fileLock] ∅ [checkFirst]

theorem acyclic_checkFirst : Acyclic (DependsOn [checkFirst]) := by
  have hedge {first second : String} (h : DependsOn [checkFirst] first second) :
      first = checkFirst.fromTaskId ∧ second = checkFirst.toTaskId := by
    obtain ⟨edge, hedge, rfl, rfl⟩ := h
    rw [mem_singleton.mp hedge]
    exact ⟨rfl, rfl⟩
  intro id hcycle
  obtain ⟨next, hfirst, -⟩ := Relation.TransGen.head'_iff.mp hcycle
  obtain ⟨before, -, hlast⟩ := Relation.TransGen.tail'_iff.mp hcycle
  exact absurd ((hedge hfirst).1.symm.trans (hedge hlast).2) (by decide)

/-- The lock of a task is not listed, and the order of the locks closes a cycle with the
dependency that is given. -/
theorem ownLocks_lockedBackwards_not_sound :
    ¬SoundPlan ownLocks (buildOrchestrationPlan plainPlannerHost ownLocks).plan ∧
      ¬SoundPlan lockedBackwards
        (buildOrchestrationPlan plainPlannerHost lockedBackwards).plan := by
  constructor
  · intro hsound
    have hlocks := (soundPlan_iff_of_plansForExecutor (plansForExecutor_twoScopes _ _ _)).mp hsound
    have htask : locksFor ownLocks (delegatedTaskId ownLocks 0) = [fileLock] := by decide +kernel
    obtain ⟨listed, hlisted, -⟩ := hlocks.listed 0 (by decide) fileLock
      (htask ▸ mem_singleton_self fileLock)
    cases hlisted
  · intro hsound
    have hlocks := (soundPlan_iff_of_plansForExecutor (plansForExecutor_twoScopes _ _ _)).mp hsound
    have hforward : MustPrecede lockedBackwards "plan:locks:delegated:0" "plan:locks:delegated:1" :=
      .inr ⟨0, 1, Nat.one_pos, by decide, by decide +kernel, by decide +kernel, by decide +kernel⟩
    have hbackward : MustPrecede lockedBackwards "plan:locks:delegated:1"
        "plan:locks:delegated:0" :=
      .inl ⟨checkFirst, mem_singleton_self checkFirst, rfl, rfl⟩
    exact hlocks.acyclic acyclic_checkFirst _ ((Relation.TransGen.single hforward).tail hbackward)

end Nobie.Orchestration.Planner
