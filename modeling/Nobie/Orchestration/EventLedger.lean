/-
# The orchestration event ledger

Events are stored in the order of their sequence numbers, which the database gives out in
increasing order and never again. A listing selects events by their columns and by a cursor
and is cut to a page from its oldest end.
-/

import Nobie.Foundation.JsNumber
import Nobie.Foundation.JsValue

namespace Nobie.Orchestration

open Foundation JsString

inductive OrchestrationEventKind
  | agentRegistered | teamRegistered | hierarchyChanged | orchestrationPlanned
  | teamExecutionPlanned | commandRequested | namedHandoffCreated | dataExchangeCreated
  | subSessionQueued | subSessionStarted | subSessionProgressReported | subSessionCompleted
  | subSessionFailed | subSessionCancelled | capabilityCalled | approvalRequested | resultReported
  | resultReviewed | parentChildResultAggregated | controlAction | resourceLockWait
  | resourceLockReleased | resourceLockTimeout | budgetBlocked | modelResolved | modelFallback
  | modelBudgetBlocked | feedbackRequested | redelegationRequested | retryStarted
  | finalDeliveryCompleted | namedDeliveryAttributed | learningRecorded | historyRestored
  deriving DecidableEq

namespace OrchestrationEventKind

def text : OrchestrationEventKind → String
  | .agentRegistered => "agent_registered"
  | .teamRegistered => "team_registered"
  | .hierarchyChanged => "hierarchy_changed"
  | .orchestrationPlanned => "orchestration_planned"
  | .teamExecutionPlanned => "team_execution_planned"
  | .commandRequested => "command_requested"
  | .namedHandoffCreated => "named_handoff_created"
  | .dataExchangeCreated => "data_exchange_created"
  | .subSessionQueued => "sub_session_queued"
  | .subSessionStarted => "sub_session_started"
  | .subSessionProgressReported => "sub_session_progress_reported"
  | .subSessionCompleted => "sub_session_completed"
  | .subSessionFailed => "sub_session_failed"
  | .subSessionCancelled => "sub_session_cancelled"
  | .capabilityCalled => "capability_called"
  | .approvalRequested => "approval_requested"
  | .resultReported => "result_reported"
  | .resultReviewed => "result_reviewed"
  | .parentChildResultAggregated => "parent_child_result_aggregated"
  | .controlAction => "control_action"
  | .resourceLockWait => "resource_lock_wait"
  | .resourceLockReleased => "resource_lock_released"
  | .resourceLockTimeout => "resource_lock_timeout"
  | .budgetBlocked => "budget_blocked"
  | .modelResolved => "model_resolved"
  | .modelFallback => "model_fallback"
  | .modelBudgetBlocked => "model_budget_blocked"
  | .feedbackRequested => "feedback_requested"
  | .redelegationRequested => "redelegation_requested"
  | .retryStarted => "retry_started"
  | .finalDeliveryCompleted => "final_delivery_completed"
  | .namedDeliveryAttributed => "named_delivery_attributed"
  | .learningRecorded => "learning_recorded"
  | .historyRestored => "history_restored"

end OrchestrationEventKind

/-- `ORCHESTRATION_EVENT_KINDS`. -/
def orchestrationEventKinds : List OrchestrationEventKind :=
  [.agentRegistered, .teamRegistered, .hierarchyChanged, .orchestrationPlanned,
   .teamExecutionPlanned, .commandRequested, .namedHandoffCreated, .dataExchangeCreated,
   .subSessionQueued, .subSessionStarted, .subSessionProgressReported, .subSessionCompleted,
   .subSessionFailed, .subSessionCancelled, .capabilityCalled, .approvalRequested,
   .resultReported, .resultReviewed, .parentChildResultAggregated, .controlAction,
   .resourceLockWait, .resourceLockReleased, .resourceLockTimeout, .budgetBlocked,
   .modelResolved, .modelFallback, .modelBudgetBlocked, .feedbackRequested,
   .redelegationRequested, .retryStarted, .finalDeliveryCompleted, .namedDeliveryAttributed,
   .learningRecorded, .historyRestored]

theorem mem_orchestrationEventKinds (kind : OrchestrationEventKind) :
    kind ∈ orchestrationEventKinds := by
  cases kind <;> decide

inductive OrchestrationEventSeverity
  | debug | info | warning | error

/-- A row of `orchestration_events`. The payload is kept as what its text is made of. -/
structure OrchestrationEvent where
  sequence : ℕ
  createdAt : JsNumber
  eventKind : OrchestrationEventKind
  (runId parentRunId requestGroupId subSessionId agentId teamId exchangeId : Option JsString)
  approvalId : Option JsString
  correlationId : JsString
  dedupeKey : Option JsString
  source : JsString
  severity : OrchestrationEventSeverity
  summary : JsString
  payload : JsValue

/-- The stored events in the order of their sequence numbers, and the last number given out. -/
structure EventLedger where
  events : List OrchestrationEvent
  lastSequence : ℕ
  increasing : (events.map OrchestrationEvent.sequence).Pairwise (· < ·)
  bounded : ∀ event ∈ events, event.sequence ≤ lastSequence

def EventLedger.empty : EventLedger := ⟨[], 0, .nil, by simp⟩

/-- A new event gets the next sequence number. -/
def EventLedger.add (ledger : EventLedger) (event : OrchestrationEvent) : EventLedger where
  events := ledger.events ++ [{ event with sequence := ledger.lastSequence + 1 }]
  lastSequence := ledger.lastSequence + 1
  increasing := by
    rw [List.map_append, List.pairwise_append]
    refine ⟨ledger.increasing, List.pairwise_singleton _ _, fun first hfirst second hsecond => ?_⟩
    obtain ⟨stored, hstored, rfl⟩ := List.mem_map.mp hfirst
    obtain rfl := List.mem_singleton.mp hsecond
    exact Nat.lt_succ_of_le (ledger.bounded stored hstored)
  bounded := by
    refine List.forall_mem_append.mpr ⟨fun stored hstored => ?_, ?_⟩
    · exact (ledger.bounded stored hstored).trans (Nat.le_succ _)
    · exact List.forall_mem_singleton.mpr le_rfl

/-! ## Queries -/

structure OrchestrationEventQuery where
  (runId requestGroupId subSessionId agentId teamId exchangeId approvalId : Option JsString)
  correlationId : Option JsString
  eventKind : Option OrchestrationEventKind
  afterCursor : Option JsString
  limit : Option JsNumber

/-- A text is in the way of an event only when it is not empty, and then the column has to
hold it. -/
def admits (wanted : Option JsString) (column : Option JsString) : Bool :=
  match wanted with
  | none => true
  | some [] => true
  | some wanted => column = some (toWellFormed wanted)

/-- The digits a text begins with, as a number. -/
def leadingNumber (text : JsString) : Option ℕ :=
  let digits := (text.map fun unit => unit.val).takeWhile fun unit => 48 ≤ unit && unit ≤ 57
  if digits.isEmpty then none else some (digits.foldl (fun total unit => 10 * total + (unit - 48)) 0)

/-- `Number.parseInt(text, 10)` where it gives a finite number above zero. -/
def parsePositiveInt (text : JsString) : Option ℕ :=
  let text := text.dropWhile isSpace
  let digits := if text.head? = some (codeUnit 43) then text.tail else text
  (leadingNumber digits).filter fun value => 0 < value && (Number.ofNat value).isFinite

/-- Rounding of a natural number to 53 significant bits, half to even. -/
def roundToDouble (value : ℕ) : ℕ :=
  if value < 2 ^ 53 then value
  else
    let unit := 2 ^ (Nat.log2 value - 52)
    let quotient := value / unit
    let rest := value % unit
    (if 2 * rest > unit ∨ (2 * rest = unit ∧ quotient % 2 = 1) then quotient + 1 else quotient) * unit

/-- The cursor's text up to its first colon, read as a number. -/
def parseOrchestrationReplayCursor (cursor : Option JsString) : ℕ :=
  let raw := trim (cursor.getD [])
  let first := raw.takeWhile fun unit => unit.val ≠ 58
  ((parsePositiveInt first).map roundToDouble).getD 0

/-- `WHERE` of the listing. -/
def OrchestrationEventQuery.matches (query : OrchestrationEventQuery)
    (event : OrchestrationEvent) : Bool :=
  admits query.runId event.runId && admits query.requestGroupId event.requestGroupId &&
    admits query.subSessionId event.subSessionId && admits query.agentId event.agentId &&
    admits query.teamId event.teamId && admits query.exchangeId event.exchangeId &&
    admits query.approvalId event.approvalId &&
    admits query.correlationId (some event.correlationId) &&
    (query.eventKind.all fun kind => event.eventKind = kind) &&
    decide (parseOrchestrationReplayCursor query.afterCursor < event.sequence)

/-- `Math.max(1, Math.min(2_000, Math.floor(limit ?? 500)))`, for a limit that is not 0 or
NaN: such a limit is not passed on. -/
def pageLength (limit : Option JsNumber) : ℕ :=
  match limit with
  | none | some .nan => 500
  | some .infinity => 2000
  | some .negInfinity => 1
  | some (.finite value) =>
    if value = 0 then 500
    else if ⌊value⌋ < 1 then 1
    else if 2000 < ⌊value⌋ then 2000
    else ⌊value⌋.toNat

/-- All stored events that match a query. -/
def matchingEvents (ledger : EventLedger) (query : OrchestrationEventQuery) :
    List OrchestrationEvent :=
  ledger.events.filter query.matches

/-- `ORDER BY sequence ASC LIMIT ?`. -/
def listOrchestrationEvents (ledger : EventLedger) (query : OrchestrationEventQuery) :
    List OrchestrationEvent :=
  (matchingEvents ledger query).take (pageLength query.limit)

end Nobie.Orchestration
