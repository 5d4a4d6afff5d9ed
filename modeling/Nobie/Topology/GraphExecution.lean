/-
# Simulated execution of a graph plan

The nodes of a plan are run in the order in which the plan lists them. A node that finishes
hands its output over along every edge that leaves it; a node that fails either ends the run
or is left in recovery while the run goes on. Every step is an event with an id of its own.

The content of a recovery decision is made by the recovery controller and only carried in
the payload of an event, so that it is a parameter here.
-/

import Mathlib.Data.List.Flatten
import Mathlib.Logic.Relation
import Nobie.Foundation.Chronicle
import Nobie.Runs.FailureReasons

namespace Nobie.Topology

open Foundation Runs JsString

/-! ## Plans -/

structure NodeTaskAnalysis where
  analysisId : JsString

structure NodeDelegationResolution where
  (resolutionId selectedRoute selectedTargetId : JsString)

structure NodeExecutionPlan where
  executorId : JsString
  taskAnalysis : NodeTaskAnalysis
  delegationResolution : NodeDelegationResolution

structure EdgeExecutionPlan where
  (edgeId sourceExecutorId targetExecutorId relationKind : JsString)

structure GraphExecutionPlan where
  graphExecutionPlanId : JsString
  entryExecutorIds : List JsString
  nodePlans : List NodeExecutionPlan
  edgePlans : List EdgeExecutionPlan

/-! ## Events -/

inductive GraphExecutionEventType
  | graphPlanCreated | nodeExecutionPlanning | nodeDelegationStarted | nodeExecutionStarted
  | nodeRecoveryStarted | nodeExecutionCompleted | nodeExecutionFailed | nodeExecutionCancelled
  | edgeHandoffStarted | edgeHandoffCompleted | graphExecutionCompleted | graphExecutionCancelled
  deriving DecidableEq

def GraphExecutionEventType.text : GraphExecutionEventType → String
  | graphPlanCreated => "graph_plan_created"
  | nodeExecutionPlanning => "node_execution_planning"
  | nodeDelegationStarted => "node_delegation_started"
  | nodeExecutionStarted => "node_execution_started"
  | nodeRecoveryStarted => "node_recovery_started"
  | nodeExecutionCompleted => "node_execution_completed"
  | nodeExecutionFailed => "node_execution_failed"
  | nodeExecutionCancelled => "node_execution_cancelled"
  | edgeHandoffStarted => "edge_handoff_started"
  | edgeHandoffCompleted => "edge_handoff_completed"
  | graphExecutionCompleted => "graph_execution_completed"
  | graphExecutionCancelled => "graph_execution_cancelled"

inductive GraphExecutionOutcomeStatus
  | completed | cancelled | failed | waitingForUser
  deriving DecidableEq

/-- The status of an event: that of a node or that of the graph. -/
inductive GraphEventStatus
  | pending | planning | delegating | running | waiting | recovering | completed | failed
  | cancelled | waitingForUser

def GraphExecutionOutcomeStatus.toEventStatus : GraphExecutionOutcomeStatus → GraphEventStatus
  | completed => .completed
  | cancelled => .cancelled
  | failed => .failed
  | waitingForUser => .waitingForUser

inductive CancellationReason
  | userCancelled | channelCancelled | nodeCancelled

inductive RecoveryState
  | notNeeded | needsAlternative | waitingForUser | noSafeAlternative | cancelled

structure GraphExecutionOutcome where
  status : GraphExecutionOutcomeStatus
  recoveryState : RecoveryState
  terminalReason : Option TerminalFailureReason := none
  cancellationReason : Option CancellationReason := none
  recoverySignal : Option NonTerminalRecoveryReason := none
  diagnosticId : Option JsString := none

structure GraphEdgeHandoffEnvelope where
  (edgeId sourceExecutorId targetExecutorId relationKind outputBinding inputBinding : JsString)

inductive EventPayload (Decision : Type)
  | entries (entryExecutorIds : List JsString)
  | planning (taskAnalysisId delegationResolutionId : JsString)
  | delegation (selectedRoute selectedTargetId : JsString)
  | recovery (originalReason : JsString) (recoveryDecision : Decision)
  | handoff (envelope : GraphEdgeHandoffEnvelope)

/-- What an event is about: the last argument of `event`. -/
structure EventRefs (Decision : Type) where
  executorId : Option JsString := none
  edgeId : Option JsString := none
  status : Option GraphEventStatus := none
  activeExecutorIds : List JsString := []
  activeEdgeIds : List JsString := []
  terminalReason : Option TerminalFailureReason := none
  recoveryReason : Option NonTerminalRecoveryReason := none
  cancellationReason : Option CancellationReason := none
  payload : Option (EventPayload Decision) := none

structure GraphExecutionEvent (Decision : Type) extends EventRefs Decision where
  (eventId graphExecutionPlanId : JsString)
  type : GraphExecutionEventType
  moment : JsString

/-- An empty string counts as absent. -/
def nonEmpty (text : Option JsString) : Option JsString := text.filter (· ≠ [])

variable {Decision : Type}

/-- The text of an event id. -/
def eventIdText (planId : JsString) (type : GraphExecutionEventType) (reference : JsString) :
    JsString :=
  ofString "graph-event:" ++ planId ++ ofString ":" ++
    (ofString type.text ++ ofString ":" ++ reference)

variable (plan : GraphExecutionPlan) (node : NodeExecutionPlan)

def event (type : GraphExecutionEventType) (moment : JsString) (refs : EventRefs Decision) :
    GraphExecutionEvent Decision where
  eventId := eventIdText plan.graphExecutionPlanId type
    ((refs.executorId <|> refs.edgeId).getD (ofString "graph"))
  graphExecutionPlanId := plan.graphExecutionPlanId
  type := type
  executorId := nonEmpty refs.executorId
  edgeId := nonEmpty refs.edgeId
  status := refs.status
  activeExecutorIds := refs.activeExecutorIds
  activeEdgeIds := refs.activeEdgeIds
  terminalReason := refs.terminalReason
  recoveryReason := refs.recoveryReason
  cancellationReason := refs.cancellationReason
  payload := refs.payload
  moment := moment

/-! ## Outcomes -/

def normalizeGraphExecutionOutcome (status : GraphExecutionOutcomeStatus)
    (terminalReason : Option JsString) (cancellationReason : Option CancellationReason)
    (explicitUserLimit : Option Bool) : GraphExecutionOutcome :=
  match status with
  | .cancelled =>
    { status := .cancelled
      cancellationReason := some (cancellationReason.getD .userCancelled)
      recoveryState := .cancelled }
  | .completed => { status := .completed, recoveryState := .notNeeded }
  | .waitingForUser => { status := .waitingForUser, recoveryState := .waitingForUser }
  | .failed =>
    match guardTerminalFailure (terminalReason.getD (ofString "unknown"))
        explicitUserLimit with
    | .recoverySignal reason originalReason =>
      { status := .waitingForUser
        recoveryState := .needsAlternative
        recoverySignal := some reason
        diagnosticId := some (ofString "recovery-signal:" ++ originalReason) }
    | .terminal reason =>
      { status := .failed
        terminalReason := some reason
        recoveryState :=
          if reason = .noSafeAlternative then .noSafeAlternative else .waitingForUser }

/-! ## The run -/

structure GraphFailure where
  (executorId reason : JsString)
  explicitUserLimit : Option Bool := none

structure SimulationInput where
  plan : GraphExecutionPlan
  cancelled : Bool := false
  failure : Option GraphFailure := none
  now : Option JsString := none

def SimulationInput.moment (input : SimulationInput) : JsString :=
  input.now.getD (ofString "1970-01-01T00:00:00.000Z")

structure GraphExecutionRunResult (Decision : Type) where
  status : GraphExecutionOutcomeStatus
  outcome : GraphExecutionOutcome
  (activeExecutorIds activeEdgeIds : List JsString)
  events : List (GraphExecutionEvent Decision)

section Run

variable (chooseRecoveryAlternative : NodeExecutionPlan → JsString → Decision)

/-- How the run goes wrong at a node, if it does. -/
def failureAt (failure : Option GraphFailure) (node : NodeExecutionPlan) :
    Option (GraphFailure × FailureReasonNormalization) :=
  match failure with
  | none => none
  | some failure =>
    if failure.executorId = node.executorId then
      some (failure, guardTerminalFailure failure.reason failure.explicitUserLimit)
    else none

def handoffEnvelope (edgePlan : EdgeExecutionPlan) : GraphEdgeHandoffEnvelope where
  edgeId := edgePlan.edgeId
  sourceExecutorId := edgePlan.sourceExecutorId
  targetExecutorId := edgePlan.targetExecutorId
  relationKind := edgePlan.relationKind
  outputBinding := edgePlan.sourceExecutorId ++ ofString ":output"
  inputBinding := edgePlan.targetExecutorId ++ ofString ":input"

variable (moment : JsString)

/-- The three events that every node begins with. -/
def startEvents (node : NodeExecutionPlan) : List (GraphExecutionEvent Decision) :=
  [event plan .nodeExecutionPlanning moment
      { executorId := some node.executorId
        status := some .planning
        activeExecutorIds := [node.executorId]
        payload := some (.planning node.taskAnalysis.analysisId
          node.delegationResolution.resolutionId) },
    event plan .nodeDelegationStarted moment
      { executorId := some node.executorId
        status := some .delegating
        activeExecutorIds := [node.executorId]
        payload := some (.delegation node.delegationResolution.selectedRoute
          node.delegationResolution.selectedTargetId) },
    event plan .nodeExecutionStarted moment
      { executorId := some node.executorId
        status := some .running
        activeExecutorIds := [node.executorId] }]

def recoveryEvent (plan : GraphExecutionPlan) (moment : JsString) (node : NodeExecutionPlan)
    (failure : GraphFailure) (reason : NonTerminalRecoveryReason) (originalReason : JsString) :
    GraphExecutionEvent Decision :=
  event plan .nodeRecoveryStarted moment
    { executorId := some node.executorId
      status := some .recovering
      activeExecutorIds := [node.executorId]
      recoveryReason := some reason
      payload := some (.recovery originalReason
        (chooseRecoveryAlternative node failure.reason)) }

def failedEvent (node : NodeExecutionPlan) (reason : TerminalFailureReason) :
    GraphExecutionEvent Decision :=
  event plan .nodeExecutionFailed moment
    { executorId := some node.executorId
      status := some .failed
      terminalReason := some reason }

def completedEvent (node : NodeExecutionPlan) : GraphExecutionEvent Decision :=
  event plan .nodeExecutionCompleted moment
    { executorId := some node.executorId
      status := some .completed }

/-- The handoff along one edge. -/
def handoffEvents (edgePlan : EdgeExecutionPlan) : List (GraphExecutionEvent Decision) :=
  [event plan .edgeHandoffStarted moment
      { edgeId := some edgePlan.edgeId
        status := some .running
        activeExecutorIds := [edgePlan.sourceExecutorId, edgePlan.targetExecutorId]
        activeEdgeIds := [edgePlan.edgeId]
        payload := some (.handoff (handoffEnvelope edgePlan)) },
    event plan .edgeHandoffCompleted moment
      { edgeId := some edgePlan.edgeId
        status := some .completed
        payload := some (.handoff (handoffEnvelope edgePlan)) }]

def outgoing : List EdgeExecutionPlan :=
  plan.edgePlans.filter fun edgePlan => edgePlan.sourceExecutorId = node.executorId

/-- The loop over the node plans: the events so far, and the reason of the failure that the
run was left with. -/
def runNodePlans (plan : GraphExecutionPlan) (moment : JsString) (failure : Option GraphFailure) :
    List NodeExecutionPlan → List (GraphExecutionEvent Decision) →
      List (GraphExecutionEvent Decision) × Option TerminalFailureReason
  | [], events => (events, none)
  | node :: rest, events =>
    let events := events ++ startEvents plan moment node
    match failureAt failure node with
    | some (failure', .recoverySignal reason originalReason) =>
      runNodePlans plan moment failure rest
        (events ++ [recoveryEvent chooseRecoveryAlternative plan moment node failure' reason
          originalReason])
    | some (_, .terminal reason) => (events ++ [failedEvent plan moment node reason], some reason)
    | none =>
      runNodePlans plan moment failure rest
        (events ++ [completedEvent plan moment node] ++
          (outgoing plan node).flatMap (handoffEvents plan moment))

def createdEvent : GraphExecutionEvent Decision :=
  event plan .graphPlanCreated moment
    { status := some .pending, payload := some (.entries plan.entryExecutorIds) }

def cancelledEvent (node : NodeExecutionPlan) : GraphExecutionEvent Decision :=
  event plan .nodeExecutionCancelled moment
    { executorId := some node.executorId
      status := some .cancelled
      cancellationReason := some .userCancelled }

/-- The last event of a run that was not cancelled. -/
def endEvent (outcome : GraphExecutionOutcome) : GraphExecutionEvent Decision :=
  event plan .graphExecutionCompleted moment
    { status := some outcome.status.toEventStatus, terminalReason := outcome.terminalReason }

/-- The result of a run with an outcome. -/
def runResult (outcome : GraphExecutionOutcome) (events : List (GraphExecutionEvent Decision)) :
    GraphExecutionRunResult Decision where
  status := outcome.status
  outcome := outcome
  activeExecutorIds := []
  activeEdgeIds := []
  events := events

def simulateGraphExecutionPlan (input : SimulationInput) : GraphExecutionRunResult Decision :=
  let plan := input.plan
  let moment := input.moment
  let events := [createdEvent plan moment]
  if input.cancelled then
    let outcome := normalizeGraphExecutionOutcome .cancelled none (some .userCancelled) none
    runResult outcome
      (events ++ plan.nodePlans.map (cancelledEvent plan moment) ++
        [event plan .graphExecutionCancelled moment
          { status := some outcome.status.toEventStatus
            cancellationReason := outcome.cancellationReason }])
  else
    match runNodePlans chooseRecoveryAlternative plan moment input.failure plan.nodePlans events with
    | (events, some reason) =>
      let outcome := normalizeGraphExecutionOutcome .failed (some reason.text) none none
      runResult outcome (events ++ [endEvent plan moment outcome])
    | (events, none) =>
      let outcome := normalizeGraphExecutionOutcome .completed none none none
      runResult outcome (events ++ [endEvent plan moment outcome])

end Run

/-! ## The laws of a simulated run

A run is complete when every node is and every edge has handed over, a node waits for what leads
to it, nothing that depends on a stopped node is started, and events are told apart by their ids.
-/

open List

variable {Decision : Type}

/-! ## The laws -/

/-- An event of a kind about an executor. An event does not show an empty id. -/
def About (type : GraphExecutionEventType) (executorId : JsString)
    (event : GraphExecutionEvent Decision) : Prop :=
  event.type = type ∧ event.executorId.getD [] = executorId

/-- A completed handoff along an edge. -/
def HandedOff (edgePlan : EdgeExecutionPlan) (event : GraphExecutionEvent Decision) : Prop :=
  event.type = .edgeHandoffCompleted ∧ event.payload = some (.handoff (handoffEnvelope edgePlan))

variable (plan : GraphExecutionPlan) (input : SimulationInput) (nodes : List NodeExecutionPlan)

def LeadsTo (source target : JsString) : Prop :=
  ∃ edgePlan ∈ plan.edgePlans,
    edgePlan.sourceExecutorId = source ∧ edgePlan.targetExecutorId = target

/-- The work of one executor needs, directly or not, that of another. -/
def DependsOn (dependent other : JsString) : Prop :=
  Relation.TransGen (LeadsTo plan) other dependent

/-- All that leads to an executor has been handed over. -/
def InputsReceived (before : List (GraphExecutionEvent Decision)) (executorId : JsString) : Prop :=
  ∀ edgePlan ∈ plan.edgePlans, edgePlan.targetExecutorId = executorId →
    ∃ handoff ∈ before, HandedOff edgePlan handoff

/-- Nothing that an executor depends on has failed or is in recovery. -/
def NothingStopped (before : List (GraphExecutionEvent Decision)) (executorId : JsString) : Prop :=
  ∀ stopped, ∀ event ∈ before,
    About .nodeExecutionFailed stopped event ∨ About .nodeRecoveryStarted stopped event →
      ¬ DependsOn plan executorId stopped

/-- A law that every start of a node keeps. -/
def EachStart (law : List (GraphExecutionEvent Decision) → JsString → Prop)
    (events : List (GraphExecutionEvent Decision)) : Prop :=
  EachAfter (fun before event => ∀ executorId, About .nodeExecutionStarted executorId event →
    law before executorId) events

structure KeepsGraphLaws (plan : GraphExecutionPlan) (result : GraphExecutionRunResult Decision) :
    Prop where
  nodesCompleted : result.status = .completed → ∀ node ∈ plan.nodePlans,
    ∃ event ∈ result.events, About .nodeExecutionCompleted node.executorId event
  edgesHandedOff : result.status = .completed → ∀ edgePlan ∈ plan.edgePlans,
    ∃ event ∈ result.events, HandedOff edgePlan event
  inputsFirst : EachStart (InputsReceived plan) result.events
  dependentsHeldBack : EachStart (NothingStopped plan) result.events
  distinctIds : (result.events.map (·.eventId)).Nodup

/-! ## The condition -/

/-- The run ends at this node. -/
def failsAt (node : NodeExecutionPlan) : Bool :=
  match failureAt input.failure node with
  | some (_, .terminal _) => true
  | _ => false

/-- The run goes on after this node with the node in recovery. -/
def recoversAt (node : NodeExecutionPlan) : Bool :=
  match failureAt input.failure node with
  | some (_, .recoverySignal _ _) => true
  | _ => false

def startedAmong : List NodeExecutionPlan :=
  nodes.takeWhile (fun node => !failsAt input node) ++ (nodes.find? (failsAt input)).toList

/-- The nodes up to the first one that fails. -/
def startedNodes : List NodeExecutionPlan := startedAmong input input.plan.nodePlans

def finishedNodes : List NodeExecutionPlan :=
  (startedNodes input).filter fun node => (failureAt input.failure node).isNone

def executorIds : List JsString := nodes.map (·.executorId)

/-- The edges that leave one of the nodes. -/
def edgesFrom : List EdgeExecutionPlan :=
  plan.edgePlans.filter fun edgePlan => isAmong (executorIds nodes) edgePlan.sourceExecutorId

/-- Every edge to a node comes from a node that stands before it. -/
def SourcesFirst : Prop :=
  ∀ front node back, nodes = front ++ node :: back → ∀ edgePlan ∈ plan.edgePlans,
    edgePlan.targetExecutorId = node.executorId → edgePlan.sourceExecutorId ∈ executorIds front

/-- A run that was not cancelled fits its plan. -/
structure RunFits (input : SimulationInput) : Prop where
  nothingRecovers : ∀ node ∈ input.plan.nodePlans, recoversAt input node = false
  distinctNodes : (executorIds (startedNodes input)).Nodup
  distinctEdges : ((edgesFrom input.plan (finishedNodes input)).map (·.edgeId)).Nodup
  sourcesFirst : SourcesFirst input.plan (startedNodes input)
  knownSources : (∀ node ∈ input.plan.nodePlans, failsAt input node = false) →
    ∀ edgePlan ∈ input.plan.edgePlans, edgePlan.sourceExecutorId ∈ executorIds input.plan.nodePlans

def FitsPlan : Prop :=
  if input.cancelled then (executorIds input.plan.nodePlans).Nodup else RunFits input

/-! ## What a run tells -/

variable {type : GraphExecutionEventType} {executorId : JsString}
  {found : GraphExecutionEvent Decision} {outcome : GraphExecutionOutcome}
  {kind : GraphExecutionEventType} {front : List NodeExecutionPlan}

variable {refs : EventRefs Decision} {other : NodeExecutionPlan}

section Run

variable {chooseRecoveryAlternative : NodeExecutionPlan → JsString → Decision}
  {input : SimulationInput} {plan : GraphExecutionPlan} {moment : JsString}

/-- The events after the start of a node. -/
def closingEvents (chooseRecoveryAlternative : NodeExecutionPlan → JsString → Decision)
    (plan : GraphExecutionPlan) (moment : JsString) (failure : Option GraphFailure)
    (node : NodeExecutionPlan) : List (GraphExecutionEvent Decision) :=
  match failureAt failure node with
  | some (failure', .recoverySignal reason originalReason) =>
    [recoveryEvent chooseRecoveryAlternative plan moment node failure' reason originalReason]
  | some (_, .terminal reason) => [failedEvent plan moment node reason]
  | none =>
    completedEvent plan moment node :: (outgoing plan node).flatMap (handoffEvents plan moment)

def nodeEvents (chooseRecoveryAlternative : NodeExecutionPlan → JsString → Decision)
    (plan : GraphExecutionPlan) (moment : JsString) (failure : Option GraphFailure)
    (node : NodeExecutionPlan) : List (GraphExecutionEvent Decision) :=
  startEvents plan moment node ++ closingEvents chooseRecoveryAlternative plan moment failure node

/-- The loop tells of the nodes that it starts, one after the other. -/
theorem runNodePlans_events (nodes : List NodeExecutionPlan)
    (events : List (GraphExecutionEvent Decision)) :
    (runNodePlans chooseRecoveryAlternative plan moment input.failure nodes events).1 =
      events ++ (startedAmong input nodes).flatMap
        (nodeEvents chooseRecoveryAlternative plan moment input.failure) := by
  induction nodes generalizing events with
  | nil => simp [runNodePlans, startedAmong]
  | cons node rest ih =>
    unfold runNodePlans
    cases hfailure : failureAt input.failure node with
    | none =>
      have hfails : failsAt input node = false := by rw [failsAt, hfailure]
      rw [ih]
      simp [startedAmong, hfails, nodeEvents, closingEvents, hfailure]
    | some found =>
      obtain ⟨failure, reason | ⟨reason, originalReason⟩⟩ := found
      · have hfails : failsAt input node := by rw [failsAt, hfailure]
        simp [startedAmong, hfails, nodeEvents, closingEvents, hfailure]
      · have hfails : failsAt input node = false := by rw [failsAt, hfailure]
        rw [ih]
        simp [startedAmong, hfails, nodeEvents, closingEvents, hfailure]

/-- The loop is left with a reason when one of the nodes fails. -/
theorem runNodePlans_reason (nodes : List NodeExecutionPlan)
    (events : List (GraphExecutionEvent Decision)) :
    (runNodePlans chooseRecoveryAlternative plan moment input.failure nodes events).2 = none ↔
      ∀ node ∈ nodes, failsAt input node = false := by
  induction nodes generalizing events with
  | nil => simp [runNodePlans]
  | cons node rest ih =>
    unfold runNodePlans
    rw [forall_mem_cons]
    cases hfailure : failureAt input.failure node with
    | none =>
      have hfails : failsAt input node = false := by rw [failsAt, hfailure]
      exact (ih _).trans (iff_and_self.mpr fun _ => hfails)
    | some found =>
      obtain ⟨failure, reason | ⟨reason, originalReason⟩⟩ := found
      · have hfails : failsAt input node := by rw [failsAt, hfailure]
        simp [hfails]
      · have hfails : failsAt input node = false := by rw [failsAt, hfailure]
        exact (ih _).trans (iff_and_self.mpr fun _ => hfails)

/-- All that a run with an outcome tells. -/
def runEvents (chooseRecoveryAlternative : NodeExecutionPlan → JsString → Decision)
    (input : SimulationInput) (outcome : GraphExecutionOutcome) :
    List (GraphExecutionEvent Decision) :=
  createdEvent input.plan input.moment ::
    ((startedNodes input).flatMap
      (nodeEvents chooseRecoveryAlternative input.plan input.moment input.failure) ++
        [endEvent input.plan input.moment outcome])

/-- A run that was not cancelled counts as completed unless a node fails. -/
theorem simulate_run (hcancelled : input.cancelled = false) :
    ∃ outcome : GraphExecutionOutcome,
      (outcome.status = .completed ↔ ∀ node ∈ input.plan.nodePlans, failsAt input node = false) ∧
      simulateGraphExecutionPlan chooseRecoveryAlternative input =
        runResult outcome (runEvents chooseRecoveryAlternative input outcome) := by
  have hevents := @runNodePlans_events _ chooseRecoveryAlternative input input.plan
    input.moment input.plan.nodePlans [createdEvent input.plan input.moment]
  have hreason := @runNodePlans_reason _ chooseRecoveryAlternative input input.plan
    input.moment input.plan.nodePlans [createdEvent input.plan input.moment]
  unfold simulateGraphExecutionPlan
  rw [hcancelled, if_neg Bool.false_ne_true]
  generalize runNodePlans chooseRecoveryAlternative input.plan input.moment input.failure
    input.plan.nodePlans [createdEvent input.plan input.moment] = result at hevents hreason ⊢
  obtain ⟨events, reason⟩ := result
  subst hevents
  cases reason with
  | none =>
    refine ⟨normalizeGraphExecutionOutcome .completed none none none,
      iff_of_true rfl (hreason.mp rfl), ?_⟩
    simp [runEvents, startedNodes]
  | some reason =>
    refine ⟨normalizeGraphExecutionOutcome .failed (some reason.text) none none,
      iff_of_false ?_ fun hfails => ?_, by simp [runEvents, startedNodes]⟩
    · dsimp only [normalizeGraphExecutionOutcome, Option.getD_some]
      rw [guardTerminalFailure_text]
      exact GraphExecutionOutcomeStatus.noConfusion
    · cases hreason.mpr hfails

/-! ### Kinds of events -/

@[simp]
theorem getD_nonEmpty (text : Option JsString) : (nonEmpty text).getD [] = text.getD [] := by
  rcases text with _ | _ | ⟨unit, rest⟩ <;> rfl

@[simp]
theorem about_event {type' : GraphExecutionEventType} :
    About type executorId (event plan type' moment refs) ↔
      type' = type ∧ refs.executorId.getD [] = executorId := by
  simp [About, event]

@[simp]
theorem handedOff_event {edgePlan : EdgeExecutionPlan} :
    HandedOff edgePlan (event plan type moment refs) ↔
      type = .edgeHandoffCompleted ∧ refs.payload = some (.handoff (handoffEnvelope edgePlan)) := by
  simp [HandedOff, event]

theorem handoffEnvelope_injective : Function.Injective handoffEnvelope := by
  rintro ⟨id, source, target, kind⟩ ⟨id', source', target', kind'⟩ hsame
  obtain ⟨rfl, rfl, rfl, rfl, -⟩ := hsame
  rfl

variable {failure : Option GraphFailure} {node : NodeExecutionPlan}

theorem mem_nodeEvents_of_finished (hfinished : failureAt failure node = none) :
    found ∈ nodeEvents chooseRecoveryAlternative plan moment failure node ↔
      found ∈ startEvents plan moment node ∨ found = completedEvent plan moment node ∨
        ∃ edgePlan ∈ plan.edgePlans, edgePlan.sourceExecutorId = node.executorId ∧
          found ∈ handoffEvents plan moment edgePlan := by
  unfold nodeEvents closingEvents
  rw [hfinished]
  simp [outgoing, and_assoc]

theorem completed_mem_nodeEvents {executorId : JsString} :
    (∃ event ∈ nodeEvents chooseRecoveryAlternative plan moment failure node,
      About .nodeExecutionCompleted executorId event) ↔
        failureAt failure node = none ∧ node.executorId = executorId := by
  rcases hfailure : failureAt failure node with _ | ⟨failure', reason | ⟨reason, originalReason⟩⟩
  · simp only [mem_nodeEvents_of_finished hfailure, true_and]
    constructor
    · rintro ⟨found, hmem | rfl | ⟨edgePlan, -, -, hmem⟩, habout⟩
      · simp only [startEvents, mem_cons, not_mem_nil, or_false] at hmem
        obtain rfl | rfl | rfl := hmem <;> simp at habout
      · exact (about_event.mp habout).2
      · simp only [handoffEvents, mem_cons, not_mem_nil, or_false] at hmem
        obtain rfl | rfl := hmem <;> simp at habout
    · rintro rfl
      exact ⟨_, .inr (.inl rfl), about_event.mpr ⟨rfl, rfl⟩⟩
  · simp [nodeEvents, startEvents, closingEvents, hfailure, failedEvent]
  · simp [nodeEvents, startEvents, closingEvents, hfailure, recoveryEvent]

theorem handedOff_mem_nodeEvents {edgePlan : EdgeExecutionPlan}
    (hedge : edgePlan ∈ plan.edgePlans) :
    (∃ event ∈ nodeEvents chooseRecoveryAlternative plan moment failure node,
      HandedOff edgePlan event) ↔
        failureAt failure node = none ∧ edgePlan.sourceExecutorId = node.executorId := by
  rcases hfailure : failureAt failure node with _ | ⟨failure', reason | ⟨reason, originalReason⟩⟩
  · simp only [mem_nodeEvents_of_finished hfailure, true_and]
    constructor
    · rintro ⟨found, hmem | rfl | ⟨other, -, hsource, hmem⟩, hhanded⟩
      · simp only [startEvents, mem_cons, not_mem_nil, or_false] at hmem
        obtain rfl | rfl | rfl := hmem <;> simp at hhanded
      · simp [completedEvent] at hhanded
      · simp only [handoffEvents, mem_cons, not_mem_nil, or_false] at hmem
        obtain rfl | rfl := hmem
        · simp at hhanded
        · simp only [handedOff_event, true_and, Option.some.injEq, EventPayload.handoff.injEq,
            handoffEnvelope_injective.eq_iff] at hhanded
          rw [← hhanded, hsource]
    · intro hsource
      have hlast := mem_singleton.mpr (Eq.refl (event plan .edgeHandoffCompleted moment
        ({ edgeId := some edgePlan.edgeId
           status := some .completed
           payload := some (.handoff (handoffEnvelope edgePlan)) } : EventRefs Decision)))
      exact ⟨_, .inr (.inr ⟨edgePlan, hedge, hsource, mem_cons_of_mem _ hlast⟩),
        handedOff_event.mpr ⟨rfl, rfl⟩⟩
  · simp [nodeEvents, startEvents, closingEvents, hfailure, failedEvent]
  · simp [nodeEvents, startEvents, closingEvents, hfailure, recoveryEvent]

theorem stopped_mem_nodeEvents {stopped : JsString}
    (hmem : found ∈ nodeEvents chooseRecoveryAlternative plan moment failure node)
    (habout : About .nodeExecutionFailed stopped found ∨ About .nodeRecoveryStarted stopped found) :
    failureAt failure node ≠ none := by
  intro hfinished
  obtain hmem | rfl | ⟨edgePlan, -, -, hmem⟩ := (mem_nodeEvents_of_finished hfinished).mp hmem
  · simp only [startEvents, mem_cons, not_mem_nil, or_false] at hmem
    obtain rfl | rfl | rfl := hmem <;> simp at habout
  · simp [completedEvent] at habout
  · simp only [handoffEvents, mem_cons, not_mem_nil, or_false] at hmem
    obtain rfl | rfl := hmem <;> simp at habout

theorem not_started_of_mem_closingEvents
    (hmem : found ∈ closingEvents chooseRecoveryAlternative plan moment failure node) :
    ¬ About .nodeExecutionStarted executorId found := by
  unfold closingEvents at hmem
  rcases hfailure : failureAt failure node with _ | ⟨failure', reason | ⟨reason, originalReason⟩⟩
  · rw [hfailure] at hmem
    simp only [mem_cons, mem_flatMap, handoffEvents, not_mem_nil, or_false, completedEvent] at hmem
    obtain rfl | ⟨edgePlan, -, rfl | rfl⟩ := hmem <;> simp
  · rw [hfailure] at hmem
    obtain rfl := mem_singleton.mp hmem
    simp [failedEvent]
  · rw [hfailure] at hmem
    obtain rfl := mem_singleton.mp hmem
    simp [recoveryEvent]

/-- What had happened when a node was started. -/
def startedAfter (chooseRecoveryAlternative : NodeExecutionPlan → JsString → Decision)
    (input : SimulationInput) (front : List NodeExecutionPlan) (node : NodeExecutionPlan) :
    List (GraphExecutionEvent Decision) :=
  createdEvent input.plan input.moment ::
    (front.flatMap (nodeEvents chooseRecoveryAlternative input.plan input.moment input.failure) ++
      (startEvents input.plan input.moment node).take 2)

theorem eachStart_runEvents {law : List (GraphExecutionEvent Decision) → JsString → Prop} :
    EachStart law (runEvents chooseRecoveryAlternative input outcome) ↔
      ∀ front node back, startedNodes input = front ++ node :: back →
        law (startedAfter chooseRecoveryAlternative input front node) node.executorId := by
  unfold EachStart runEvents
  rw [eachAfter_cons, eachAfter_append, eachAfter_flatMap, eachAfter_singleton]
  constructor
  · rintro ⟨-, hnodes, -⟩ front node back hstarted
    have hnode := hnodes front node back hstarted
    unfold nodeEvents startEvents at hnode
    rw [eachAfter_append, eachAfter_cons, eachAfter_cons, eachAfter_singleton] at hnode
    exact hnode.1.2.2 node.executorId (about_event.mpr ⟨rfl, rfl⟩)
  · intro h
    refine ⟨fun executorId habout => ?_, fun front node back hstarted => ?_,
      fun executorId habout => ?_⟩
    · simp [createdEvent] at habout
    · unfold nodeEvents startEvents
      rw [eachAfter_append, eachAfter_cons, eachAfter_cons, eachAfter_singleton]
      refine ⟨⟨fun executorId habout => ?_, fun executorId habout => ?_,
        fun executorId habout => ?_⟩, eachAfter_of_forall fun found hfound before executorId habout => ?_⟩
      · simp at habout
      · simp at habout
      · obtain rfl := (about_event.mp habout).2
        exact h front node back hstarted
      · exact absurd habout (not_started_of_mem_closingEvents hfound)
    · simp [endEvent] at habout

/-! ### Ids -/

abbrev EventLabel : Type := GraphExecutionEventType × JsString

/-- The id that a label stands for. -/
def idOf (plan : GraphExecutionPlan) (label : EventLabel) : JsString :=
  eventIdText plan.graphExecutionPlanId label.1 label.2

def graphLabel (type : GraphExecutionEventType) : EventLabel := (type, ofString "graph")

def closingLabels (plan : GraphExecutionPlan) (failure : Option GraphFailure)
    (node : NodeExecutionPlan) : List EventLabel :=
  match failureAt failure node with
  | some (_, .recoverySignal _ _) => [(.nodeRecoveryStarted, node.executorId)]
  | some (_, .terminal _) => [(.nodeExecutionFailed, node.executorId)]
  | none =>
    (.nodeExecutionCompleted, node.executorId) :: (outgoing plan node).flatMap fun edgePlan =>
      [(.edgeHandoffStarted, edgePlan.edgeId), (.edgeHandoffCompleted, edgePlan.edgeId)]

def nodeLabels (plan : GraphExecutionPlan) (failure : Option GraphFailure)
    (node : NodeExecutionPlan) : List EventLabel :=
  [(.nodeExecutionPlanning, node.executorId), (.nodeDelegationStarted, node.executorId),
    (.nodeExecutionStarted, node.executorId)] ++ closingLabels plan failure node

def runLabels (input : SimulationInput) : List EventLabel :=
  graphLabel .graphPlanCreated :: ((startedNodes input).flatMap
    (nodeLabels input.plan input.failure) ++ [graphLabel .graphExecutionCompleted])

theorem typeText_colon (type : GraphExecutionEventType) : codeUnit 58 ∉ ofString type.text := by
  cases type <;> decide +kernel

theorem typeText_injective {other : GraphExecutionEventType}
    (hsame : ofString type.text = ofString other.text) : type = other := by
  revert hsame
  cases type <;> cases other <;> decide +kernel

/-- The kind of an event has no colon, so that an id is read back. -/
theorem idOf_injective (plan : GraphExecutionPlan) : Function.Injective (idOf plan) := by
  intro first second hsame
  have hcolon : ofString ":" = [codeUnit 58] := by decide
  have hparts := append_cancel_left hsame
  rw [hcolon, append_assoc, append_assoc, singleton_append, singleton_append] at hparts
  obtain ⟨htypes, hreferences⟩ :=
    append_cons_cancel (typeText_colon first.1) (typeText_colon second.1) hparts
  exact Prod.ext (typeText_injective htypes) hreferences

theorem nodeEvents_ids :
    (nodeEvents chooseRecoveryAlternative plan moment failure node).map (·.eventId) =
      (nodeLabels plan failure node).map (idOf plan) := by
  unfold nodeEvents nodeLabels closingEvents closingLabels
  rcases hfailure : failureAt failure node with _ | ⟨failure', reason | ⟨reason, originalReason⟩⟩
  · simp only [startEvents, map_append, map_cons, map_flatMap, handoffEvents]
    rfl
  · rfl
  · rfl

theorem runEvents_ids :
    (runEvents chooseRecoveryAlternative input outcome).map (·.eventId) =
      (runLabels input).map (idOf input.plan) := by
  unfold runEvents runLabels
  simp only [map_cons, map_append, map_flatMap, nodeEvents_ids]
  rfl

theorem eventIds_nodup :
    ((runEvents chooseRecoveryAlternative input outcome).map (·.eventId)).Nodup ↔
      (runLabels input).Nodup := by
  rw [runEvents_ids]
  exact nodup_map_iff (idOf_injective input.plan)

theorem labelsOf_planning :
    labelsOf .nodeExecutionPlanning (nodeLabels plan failure node) = [node.executorId] := by
  unfold nodeLabels closingLabels
  rcases hfailure : failureAt failure node with _ | ⟨failure', reason | ⟨reason, originalReason⟩⟩ <;>
    simp

/-- A handoff is told of the edges that leave a finished node. -/
theorem labelsOf_handoff (hkind : kind = .edgeHandoffStarted ∨ kind = .edgeHandoffCompleted) :
    labelsOf kind (nodeLabels plan failure node) =
      if (failureAt failure node).isNone then (outgoing plan node).map (·.edgeId) else [] := by
  unfold nodeLabels closingLabels
  rcases hfailure : failureAt failure node with _ | ⟨failure', reason | ⟨reason, originalReason⟩⟩
  · obtain rfl | rfl := hkind <;> simp [map_eq_flatMap]
  · obtain rfl | rfl := hkind <;> simp
  · obtain rfl | rfl := hkind <;> simp

/-- Everything else is told of a node once at most. -/
theorem labelsOf_sublist (hstarted : kind ≠ .edgeHandoffStarted)
    (hcompleted : kind ≠ .edgeHandoffCompleted) :
    (labelsOf kind (nodeLabels plan failure node)).Sublist [node.executorId] := by
  unfold nodeLabels closingLabels
  rcases hfailure : failureAt failure node with _ | ⟨failure', reason | ⟨reason, originalReason⟩⟩
  · cases kind <;> simp_all
  · cases kind <;> simp
  · cases kind <;> simp

theorem labelsOf_graph (hkind : kind = .graphPlanCreated ∨ kind = .graphExecutionCompleted) :
    labelsOf kind (nodeLabels plan failure node) = [] := by
  unfold nodeLabels closingLabels
  rcases hfailure : failureAt failure node with _ | ⟨failure', reason | ⟨reason, originalReason⟩⟩ <;>
    obtain rfl | rfl := hkind <;> simp

theorem flatMap_finished {told : NodeExecutionPlan → List JsString} :
    (nodes.flatMap fun node => if (failureAt failure node).isNone then told node else []) =
      (nodes.filter fun node => (failureAt failure node).isNone).flatMap told := by
  induction nodes with
  | nil => rfl
  | cons node rest ih =>
    rw [flatMap_cons, ih, filter_cons]
    split
    · rw [flatMap_cons]
    · rw [nil_append]

theorem outgoing_perm {nodes : List NodeExecutionPlan} (hdistinct : (executorIds nodes).Nodup) :
    (nodes.flatMap fun node => (outgoing plan node).map (·.edgeId)).Perm
      ((edgesFrom plan nodes).map (·.edgeId)) := by
  have hperm := (@flatMap_filter_perm _ _ _ (fun edgePlan : EdgeExecutionPlan =>
    edgePlan.sourceExecutorId) _ hdistinct plan.edgePlans).map (·.edgeId)
  unfold executorIds at hperm
  rw [flatMap_map, map_flatMap] at hperm
  exact hperm

theorem runLabels_nodup :
    (runLabels input).Nodup ↔ (executorIds (startedNodes input)).Nodup ∧
      ((edgesFrom input.plan (finishedNodes input)).map (·.edgeId)).Nodup := by
  have hfinished (hdistinct : (executorIds (startedNodes input)).Nodup) :
      (executorIds (finishedNodes input)).Nodup :=
    hdistinct.sublist ((filter_sublist).map _)
  have hhandoffs {kind : GraphExecutionEventType}
      (hkind : kind = .edgeHandoffStarted ∨ kind = .edgeHandoffCompleted) :
      labelsOf kind (runLabels input) =
        (finishedNodes input).flatMap fun node => (outgoing input.plan node).map (·.edgeId) := by
    have hends : labelsOf kind [graphLabel .graphPlanCreated] = [] ∧
        labelsOf kind [graphLabel .graphExecutionCompleted] = [] := by
      obtain rfl | rfl := hkind <;> exact ⟨rfl, rfl⟩
    rw [runLabels, ← singleton_append, labelsOf_append, labelsOf_append, hends.1, hends.2,
      labelsOf_flatMap, nil_append, append_nil]
    simp only [labelsOf_handoff hkind]
    exact flatMap_finished _
  rw [nodup_iff_labelsOf]
  constructor
  · intro h
    have hstarted := h .nodeExecutionPlanning
    have hedges := h .edgeHandoffStarted
    rw [hhandoffs (.inl rfl)] at hedges
    have hnodes : labelsOf .nodeExecutionPlanning (runLabels input) =
        executorIds (startedNodes input) := by
      simp [runLabels, graphLabel, labelsOf_planning, executorIds, map_eq_flatMap]
    rw [hnodes] at hstarted
    exact ⟨hstarted, (outgoing_perm (hfinished hstarted)).nodup_iff.mp hedges⟩
  · rintro ⟨hstarted, hedges⟩ kind
    by_cases hkind : kind = .edgeHandoffStarted ∨ kind = .edgeHandoffCompleted
    · rw [hhandoffs hkind]
      exact (outgoing_perm (hfinished hstarted)).nodup_iff.mpr hedges
    obtain ⟨hhandoff, hhandoff'⟩ := not_or.mp hkind
    have hnodes : (labelsOf kind ((startedNodes input).flatMap
        (nodeLabels input.plan input.failure))).Sublist (executorIds (startedNodes input)) := by
      rw [labelsOf_flatMap, executorIds, map_eq_flatMap]
      refine List.Sublist.flatMap_right _ fun node _ => ?_
      exact labelsOf_sublist hhandoff hhandoff'
    by_cases hgraph : kind = .graphPlanCreated ∨ kind = .graphExecutionCompleted
    · have hnone : labelsOf kind ((startedNodes input).flatMap
          (nodeLabels input.plan input.failure)) = [] := by
        simp [labelsOf_graph hgraph]
      rw [runLabels, labelsOf_cons, labelsOf_append, hnone]
      obtain rfl | rfl := hgraph <;> simp [graphLabel]
    · obtain ⟨hcreated, hended⟩ := not_or.mp hgraph
      have hfirst : ¬ (graphLabel .graphPlanCreated).1 = kind := Ne.symm hcreated
      have hlast : ¬ (graphLabel .graphExecutionCompleted).1 = kind := Ne.symm hended
      rw [runLabels, labelsOf_cons, if_neg hfirst, labelsOf_append, labelsOf_cons, if_neg hlast,
        labelsOf_nil, append_nil]
      exact hstarted.sublist hnodes

/-! ## When the laws are kept -/

/-- The run of a failure that is recovered from never fails. -/
theorem failsAt_of_recoversAt (hrecovers : recoversAt input node)
    (other : NodeExecutionPlan) : failsAt input other = false := by
  unfold recoversAt failureAt at hrecovers
  unfold failsAt failureAt
  cases hfailure : input.failure with
  | none => rfl
  | some failure =>
    rw [hfailure] at hrecovers
    dsimp only at hrecovers ⊢
    by_cases hnode : failure.executorId = node.executorId
    · rw [if_pos hnode] at hrecovers
      by_cases hother : failure.executorId = other.executorId
      · rw [if_pos hother]
        cases hguard : guardTerminalFailure failure.reason failure.explicitUserLimit with
        | terminal reason =>
          rw [hguard] at hrecovers
          cases hrecovers
        | recoverySignal reason originalReason => rfl
      · rw [if_neg hother]
    · rw [if_neg hnode] at hrecovers
      cases hrecovers

theorem failureAt_congr (hsame : other.executorId = node.executorId) :
    failureAt failure other = failureAt failure node := by
  unfold failureAt
  rw [hsame]

theorem failureAt_eq_none : failureAt input.failure node = none ↔
    failsAt input node = false ∧ recoversAt input node = false := by
  unfold failsAt recoversAt
  rcases failureAt input.failure node with _ | ⟨failure', reason | ⟨reason, originalReason⟩⟩ <;>
    simp

theorem startedNodes_eq (hfails : ∀ node ∈ input.plan.nodePlans, failsAt input node = false) :
    startedNodes input = input.plan.nodePlans := by
  unfold startedNodes startedAmong
  have hnone : input.plan.nodePlans.find? (failsAt input) = none :=
    find?_eq_none.mpr fun node hnode => by rw [hfails node hnode]; exact Bool.false_ne_true
  rw [hnone, Option.toList_none, append_nil, takeWhile_eq_self_iff]
  intro node hnode
  rw [hfails node hnode]
  rfl

theorem startedNodes_subset : startedNodes input ⊆ input.plan.nodePlans := by
  intro node hnode
  obtain hnode | hnode := mem_append.mp hnode
  · exact (List.takeWhile_prefix _).subset hnode
  · exact mem_of_find?_eq_some (Option.mem_toList.mp hnode)

/-- Only the last node that is started can fail. -/
theorem failsAt_front {back : List NodeExecutionPlan}
    (hstarted : startedNodes input = front ++ node :: back) (hother : other ∈ front) :
    failsAt input other = false := by
  unfold startedNodes startedAmong at hstarted
  have hmem : other ∈ input.plan.nodePlans.takeWhile fun node => !failsAt input node := by
    cases hfound : input.plan.nodePlans.find? (failsAt input) with
    | none =>
      rw [hfound, Option.toList_none, append_nil] at hstarted
      rw [hstarted]
      exact mem_append_left _ hother
    | some found =>
      rw [hfound, Option.toList_some] at hstarted
      have hinit := congrArg List.dropLast hstarted
      rw [dropLast_concat, dropLast_append_cons] at hinit
      rw [hinit]
      exact mem_append_left _ hother
  have hfalse := mem_takeWhile_imp hmem
  rwa [Bool.not_eq_true'] at hfalse

theorem mem_runEvents :
    found ∈ runEvents chooseRecoveryAlternative input outcome ↔
      found = createdEvent input.plan input.moment ∨
        (∃ node ∈ startedNodes input,
          found ∈ nodeEvents chooseRecoveryAlternative input.plan input.moment input.failure node) ∨
        found = endEvent input.plan input.moment outcome := by
  simp [runEvents]

theorem mem_startedAfter :
    found ∈ startedAfter chooseRecoveryAlternative input front node ↔
      found = createdEvent input.plan input.moment ∨
        (∃ earlier ∈ front, found ∈
          nodeEvents chooseRecoveryAlternative input.plan input.moment input.failure earlier) ∨
        found ∈ (startEvents input.plan input.moment node).take 2 := by
  simp [startedAfter]

theorem inputsReceived_startedAfter :
    InputsReceived input.plan (startedAfter chooseRecoveryAlternative input front node) executorId ↔
      ∀ edgePlan ∈ input.plan.edgePlans, edgePlan.targetExecutorId = executorId →
        ∃ earlier ∈ front, failureAt input.failure earlier = none ∧
          edgePlan.sourceExecutorId = earlier.executorId := by
  refine forall₃_congr fun edgePlan hedge _ => ?_
  constructor
  · rintro ⟨found, hmem, hhanded⟩
    obtain rfl | ⟨earlier, hearlier, hmem⟩ | hmem := mem_startedAfter.mp hmem
    · simp [createdEvent] at hhanded
    · exact ⟨earlier, hearlier, (handedOff_mem_nodeEvents hedge).mp ⟨found, hmem, hhanded⟩⟩
    · simp only [startEvents, take_succ_cons, take_zero, mem_cons, not_mem_nil, or_false] at hmem
      obtain rfl | rfl := hmem <;> simp at hhanded
  · rintro ⟨earlier, hearlier, hsource⟩
    obtain ⟨found, hmem, hhanded⟩ := (@handedOff_mem_nodeEvents _ chooseRecoveryAlternative
      _ input.moment _ _ _ hedge).mpr hsource
    exact ⟨found, mem_startedAfter.mpr (.inr (.inl ⟨earlier, hearlier, hmem⟩)), hhanded⟩

theorem runFits_of_keepsGraphLaws (hcancelled : input.cancelled = false)
    (hlaws : KeepsGraphLaws input.plan
      (simulateGraphExecutionPlan chooseRecoveryAlternative input)) : RunFits input := by
  obtain ⟨outcome, hstatus, hresult⟩ := @simulate_run _ chooseRecoveryAlternative _ hcancelled
  rw [hresult] at hlaws
  have hnodup := runLabels_nodup.mp (eventIds_nodup.mp hlaws.distinctIds)
  refine ⟨fun node hnode => ?_, hnodup.1, hnodup.2, ?_, fun hfails edgePlan hedge => ?_⟩
  · by_contra hrecovers
    rw [Bool.not_eq_false] at hrecovers
    have hcompleted := hstatus.mpr fun other _ => failsAt_of_recoversAt hrecovers other
    obtain ⟨found, hmem, habout⟩ := hlaws.nodesCompleted hcompleted node hnode
    obtain rfl | ⟨other, -, hmem⟩ | rfl := mem_runEvents.mp hmem
    · simp [createdEvent] at habout
    · obtain ⟨hnone, hsame⟩ := completed_mem_nodeEvents.mp ⟨found, hmem, habout⟩
      have hnot := (failureAt_eq_none.mp ((failureAt_congr hsame).symm.trans hnone)).2
      rw [hrecovers] at hnot
      cases hnot
    · simp [endEvent] at habout
  · intro front node back hstarted edgePlan hedge htarget
    have hinputs := eachStart_runEvents.mp hlaws.inputsFirst front node back hstarted
    obtain ⟨earlier, hearlier, -, hsource⟩ :=
      inputsReceived_startedAfter.mp hinputs edgePlan hedge htarget
    exact mem_map.mpr ⟨earlier, hearlier, hsource.symm⟩
  · obtain ⟨found, hmem, hhanded⟩ := hlaws.edgesHandedOff (hstatus.mpr hfails) edgePlan hedge
    obtain rfl | ⟨node, hnode, hmem⟩ | rfl := mem_runEvents.mp hmem
    · simp [createdEvent] at hhanded
    · have hsource := ((handedOff_mem_nodeEvents hedge).mp ⟨found, hmem, hhanded⟩).2
      exact mem_map.mpr ⟨node, startedNodes_subset hnode, hsource.symm⟩
    · simp [endEvent] at hhanded

theorem keepsGraphLaws_of_runFits (hcancelled : input.cancelled = false) (hfits : RunFits input) :
    KeepsGraphLaws input.plan (simulateGraphExecutionPlan chooseRecoveryAlternative input) := by
  obtain ⟨outcome, hstatus, hresult⟩ := @simulate_run _ chooseRecoveryAlternative _ hcancelled
  have hnone {node : NodeExecutionPlan} (hnode : node ∈ input.plan.nodePlans)
      (hfails : failsAt input node = false) : failureAt input.failure node = none :=
    failureAt_eq_none.mpr ⟨hfails, hfits.nothingRecovers node hnode⟩
  have hfront {front back : List NodeExecutionPlan} {node earlier : NodeExecutionPlan}
      (hstarted : startedNodes input = front ++ node :: back) (hearlier : earlier ∈ front) :
      failureAt input.failure earlier = none := by
    have hmem : earlier ∈ startedNodes input := hstarted ▸ mem_append_left _ hearlier
    exact hnone (startedNodes_subset hmem) (failsAt_front hstarted hearlier)
  rw [hresult]
  refine ⟨fun hcompleted node hnode => ?_, fun hcompleted edgePlan hedge => ?_,
    eachStart_runEvents.mpr fun front node back hstarted => ?_,
    eachStart_runEvents.mpr fun front node back hstarted => ?_, ?_⟩
  · have hfails := hstatus.mp hcompleted
    obtain ⟨found, hmem, habout⟩ := (@completed_mem_nodeEvents _ chooseRecoveryAlternative
      input.plan input.moment input.failure node _).mpr ⟨hnone hnode (hfails node hnode), rfl⟩
    have hstarted : node ∈ startedNodes input := startedNodes_eq hfails ▸ hnode
    exact ⟨found, mem_runEvents.mpr (.inr (.inl ⟨node, hstarted, hmem⟩)), habout⟩
  · have hfails := hstatus.mp hcompleted
    obtain ⟨node, hnode, hsource⟩ := mem_map.mp (hfits.knownSources hfails edgePlan hedge)
    obtain ⟨found, hmem, hhanded⟩ := (@handedOff_mem_nodeEvents _ chooseRecoveryAlternative
      _ input.moment _ _ _ hedge).mpr ⟨hnone hnode (hfails node hnode), hsource.symm⟩
    have hstarted : node ∈ startedNodes input := startedNodes_eq hfails ▸ hnode
    exact ⟨found, mem_runEvents.mpr (.inr (.inl ⟨node, hstarted, hmem⟩)), hhanded⟩
  · refine inputsReceived_startedAfter.mpr fun edgePlan hedge htarget => ?_
    obtain ⟨earlier, hearlier, hsource⟩ :=
      mem_map.mp (hfits.sourcesFirst front node back hstarted edgePlan hedge htarget)
    exact ⟨earlier, hearlier, hfront hstarted hearlier, hsource.symm⟩
  · intro stopped found hmem habout
    obtain rfl | ⟨earlier, hearlier, hmem⟩ | hmem := mem_startedAfter.mp hmem
    · simp [createdEvent] at habout
    · exact absurd (hfront hstarted hearlier) (stopped_mem_nodeEvents hmem habout)
    · simp only [startEvents, take_succ_cons, take_zero, mem_cons, not_mem_nil, or_false] at hmem
      obtain rfl | rfl := hmem <;> simp at habout
  · exact eventIds_nodup.mpr (runLabels_nodup.mpr ⟨hfits.distinctNodes, hfits.distinctEdges⟩)

/-! ### Cancelled runs -/

def cancelledLabels (input : SimulationInput) : List EventLabel :=
  graphLabel .graphPlanCreated ::
    (input.plan.nodePlans.map (fun node => (.nodeExecutionCancelled, node.executorId)) ++
      [graphLabel .graphExecutionCancelled])

theorem cancelledLabels_nodup :
    (cancelledLabels input).Nodup ↔ (executorIds input.plan.nodePlans).Nodup := by
  have hlabels : cancelledLabels input = graphLabel .graphPlanCreated ::
      ((executorIds input.plan.nodePlans).map (fun id => (.nodeExecutionCancelled, id)) ++
        [graphLabel .graphExecutionCancelled]) := by
    unfold cancelledLabels executorIds
    rw [map_map]
    rfl
  have hinjective : Function.Injective
      fun id : JsString => (GraphExecutionEventType.nodeExecutionCancelled, id) :=
    fun _ _ hsame => (Prod.mk.inj hsame).2
  rw [hlabels, nodup_cons, nodup_append, nodup_map_iff hinjective]
  simp [graphLabel]

theorem simulate_cancelled (hcancelled : input.cancelled) :
    ∃ last : GraphExecutionEvent Decision,
      (∀ type executorId, type ≠ .graphExecutionCancelled → ¬ About type executorId last) ∧
      last.eventId = idOf input.plan (graphLabel .graphExecutionCancelled) ∧
      (simulateGraphExecutionPlan chooseRecoveryAlternative input).status = .cancelled ∧
      (simulateGraphExecutionPlan chooseRecoveryAlternative input).events =
        createdEvent input.plan input.moment ::
          (input.plan.nodePlans.map (cancelledEvent input.plan input.moment) ++ [last]) := by
  unfold simulateGraphExecutionPlan
  rw [hcancelled, if_pos rfl]
  refine ⟨event input.plan .graphExecutionCancelled input.moment _,
    fun type executorId htype habout => ?_, rfl, rfl, rfl⟩
  exact htype (about_event.mp habout).1.symm

theorem keepsGraphLaws_cancelled (hcancelled : input.cancelled) :
    KeepsGraphLaws input.plan (simulateGraphExecutionPlan chooseRecoveryAlternative input) ↔
      (executorIds input.plan.nodePlans).Nodup := by
  obtain ⟨last, hlast, hid, hstatus, hevents⟩ := @simulate_cancelled _ chooseRecoveryAlternative _ hcancelled
  have hnot : (simulateGraphExecutionPlan chooseRecoveryAlternative input).status ≠ .completed := by
    rw [hstatus]
    exact GraphExecutionOutcomeStatus.noConfusion
  have hstart (law : List (GraphExecutionEvent Decision) → JsString → Prop) :
      EachStart law (simulateGraphExecutionPlan chooseRecoveryAlternative input).events := by
    refine eachAfter_of_forall fun found hfound before executorId habout => ?_
    rw [hevents] at hfound
    obtain rfl | hfound := mem_cons.mp hfound
    · simp [createdEvent] at habout
    obtain hfound | hfound := mem_append.mp hfound
    · obtain ⟨node, -, rfl⟩ := mem_map.mp hfound
      simp [cancelledEvent] at habout
    · obtain rfl := mem_singleton.mp hfound
      exact absurd habout (hlast _ _ GraphExecutionEventType.noConfusion)
  have hids : (simulateGraphExecutionPlan chooseRecoveryAlternative input).events.map (·.eventId) =
      (cancelledLabels input).map (idOf input.plan) := by
    rw [hevents]
    simp only [cancelledLabels, map_cons, map_append, map_map, map_nil, hid]
    rfl
  rw [← cancelledLabels_nodup, ← nodup_map_iff (idOf_injective input.plan), ← hids]
  constructor
  · intro hlaws
    exact hlaws.distinctIds
  · intro hdistinct
    exact ⟨fun hcompleted => absurd hcompleted hnot, fun hcompleted => absurd hcompleted hnot,
      hstart _, hstart _, hdistinct⟩

end Run

/-- A simulated run keeps the laws exactly when it fits its plan: no node recovers, the ids
that are told are distinct, every edge to a started node comes from an earlier node, and a
run without a failure knows the source of every edge. -/
theorem keepsGraphLaws_iff (chooseRecoveryAlternative : NodeExecutionPlan → JsString → Decision)
    (input : SimulationInput) :
    KeepsGraphLaws input.plan (simulateGraphExecutionPlan chooseRecoveryAlternative input) ↔
      FitsPlan input := by
  unfold FitsPlan
  cases hcancelled : input.cancelled with
  | true =>
    rw [if_pos rfl]
    exact keepsGraphLaws_cancelled hcancelled
  | false =>
    rw [if_neg Bool.false_ne_true]
    exact ⟨runFits_of_keepsGraphLaws hcancelled, keepsGraphLaws_of_runFits hcancelled⟩

/-! ## A node in recovery -/

def plannerNode : NodeExecutionPlan where
  executorId := ofString "planner"
  taskAnalysis := ⟨ofString "node-task-analysis:planner"⟩
  delegationResolution :=
    ⟨ofString "resolution:planner", ofString "nobie_direct",
      ofString "nobie_direct"⟩

def reviewerNode : NodeExecutionPlan where
  executorId := ofString "reviewer"
  taskAnalysis := ⟨ofString "node-task-analysis:reviewer"⟩
  delegationResolution :=
    ⟨ofString "resolution:reviewer", ofString "nobie_direct",
      ofString "nobie_direct"⟩

/-- The planner, which hands over to the reviewer, meets a failing tool. -/
def failingPlanner : SimulationInput where
  plan :=
    { graphExecutionPlanId := ofString "graph-execution-plan:g"
      entryExecutorIds := [ofString "planner"]
      nodePlans := [plannerNode, reviewerNode]
      edgePlans :=
        [⟨ofString "edge", ofString "planner", ofString "reviewer",
          ofString "work_request"⟩] }
  failure := some ⟨ofString "planner", ofString "tool_failed", none⟩

/-- The run counts as completed, the planner is still in recovery. -/
theorem failingPlanner_breaksLaws :
    ¬ KeepsGraphLaws failingPlanner.plan
      (simulateGraphExecutionPlan (fun _ _ => ()) failingPlanner) := by
  intro hlaws
  obtain ⟨found, hmem, htype, hplanner⟩ := hlaws.nodesCompleted (by decide +kernel) plannerNode
    mem_cons_self
  have hnever : ((simulateGraphExecutionPlan (fun _ _ => ()) failingPlanner).events.all
      fun event => !(event.type = .nodeExecutionCompleted ∧
        event.executorId.getD [] = plannerNode.executorId)) := by
    decide +kernel
  have hfound := all_eq_true.mp hnever found hmem
  simp [htype, hplanner] at hfound

end Nobie.Topology
