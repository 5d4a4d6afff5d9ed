/-
# Running a group of sub-sessions

A group takes the items its budget allows, plans them in waves and runs wave after wave.
Before a wave the group may be cancelled; in a wave the items whose dependencies have
completed are started together, unless they waited too long for a lock. What became of an
item goes into the outcomes, into the skipped ones, and into sets that later waves read;
the status of the group is read off the outcomes and the skipped ones in the end.
-/

import Mathlib.Data.List.Infix
import Nobie.Orchestration.ExecutionWaves
import Nobie.Orchestration.SubSessionRun

namespace Nobie.Orchestration

open Foundation Foundation.Effects

/-! ## The budget -/

structure SkippedTask where
  (taskId subSessionId reasonCode : String)
  deriving DecidableEq

structure ParallelSubSessionBudget where
  (maxChildren maxEstimatedCost maxEstimatedDurationMs : Option JsNumber)

structure BudgetTotals where
  childCount : ℕ
  (estimatedCost estimatedDurationMs : JsNumber)

inductive BudgetStatus
  | ok | shrunk | blocked
  deriving DecidableEq

structure ParallelSubSessionBudgetDecision where
  status : BudgetStatus
  (reasonCodes selectedTaskIds : List String)
  skipped : List SkippedTask
  totals : BudgetTotals

/-- Sums and differences of numbers, rounded as the host rounds them. -/
structure Arithmetic where
  (add sub : JsNumber → JsNumber → JsNumber)

def numericEstimate : Option JsNumber → JsNumber
  | some (.finite value) => if 0 < value then .finite value else .finite 0
  | _ => .finite 0

def positiveBudgetValue : Option JsNumber → Option JsNumber
  | some (.finite value) => if value < 0 then none else some (.finite value)
  | _ => none

/-- Whether an estimate on top of a total goes over a maximum. -/
def exceedsBudget (arithmetic : Arithmetic) (total : JsNumber) (estimate maximum : Option JsNumber) :
    Bool :=
  match positiveBudgetValue maximum with
  | none => false
  | some maximum => JsNumber.lt maximum (arithmetic.add total (numericEstimate estimate))

def budgetExceededReason (arithmetic : Arithmetic) (item : SubSessionWorkItem)
    (totals : BudgetTotals) (budget : Option ParallelSubSessionBudget) : Option String :=
  budget.bind fun budget =>
    if (normalizedPositiveLimit budget.maxChildren).any (· ≤ (totals.childCount : ℤ)) then
      some "max_child_budget_exceeded"
    else if exceedsBudget arithmetic totals.estimatedCost item.estimatedCost
        budget.maxEstimatedCost then
      some "cost_budget_exceeded"
    else if exceedsBudget arithmetic totals.estimatedDurationMs item.estimatedDurationMs
        budget.maxEstimatedDurationMs then
      some "time_budget_exceeded"
    else
      none

def skippedFor (item : SubSessionWorkItem) (reasonCode : String) : SkippedTask where
  taskId := item.taskId
  subSessionId := item.subSessionId
  reasonCode := reasonCode

structure Budgeted where
  selected : List SubSessionWorkItem
  skipped : List SkippedTask
  totals : BudgetTotals

def budgetStep (arithmetic : Arithmetic) (budget : Option ParallelSubSessionBudget)
    (budgeted : Budgeted) (item : SubSessionWorkItem) : Budgeted :=
  match budgetExceededReason arithmetic item budgeted.totals budget with
  | some reasonCode =>
    { budgeted with skipped := budgeted.skipped ++ [skippedFor item reasonCode] }
  | none =>
    { budgeted with
      selected := budgeted.selected ++ [item]
      totals :=
        { childCount := budgeted.totals.childCount + 1
          estimatedCost :=
            arithmetic.add budgeted.totals.estimatedCost (numericEstimate item.estimatedCost)
          estimatedDurationMs := arithmetic.add budgeted.totals.estimatedDurationMs
            (numericEstimate item.estimatedDurationMs) } }

def budgetItems (arithmetic : Arithmetic) (items : List SubSessionWorkItem)
    (budget : Option ParallelSubSessionBudget) : Budgeted :=
  items.foldl (budgetStep arithmetic budget) ⟨[], [], ⟨0, .finite 0, .finite 0⟩⟩

def Budgeted.decision (budgeted : Budgeted) : ParallelSubSessionBudgetDecision where
  status :=
    if budgeted.skipped = [] then .ok else if budgeted.selected ≠ [] then .shrunk else .blocked
  reasonCodes := (OrderedSet.ofList (budgeted.skipped.map (·.reasonCode))).elements
  selectedTaskIds := budgeted.selected.map (·.taskId)
  skipped := budgeted.skipped
  totals := budgeted.totals

def applyParallelSubSessionBudget (arithmetic : Arithmetic) (items : List SubSessionWorkItem)
    (budget : Option ParallelSubSessionBudget) :
    List SubSessionWorkItem × ParallelSubSessionBudgetDecision :=
  ((budgetItems arithmetic items budget).selected, (budgetItems arithmetic items budget).decision)

/-! ## Reading wait reasons -/

/-- What the object of wait reasons has under a task id: a list of reasons, or something it
inherits, from the object prototype or from a list that was made its prototype. -/
inductive PropertyValue
  | undefined
  | codes (reasonCodes : List String)
  | text (reasonCode : String)
  | callable (length : ℕ)
  | object
  deriving DecidableEq

/-- The functions every object inherits, with their `length`. -/
def objectFunctions : List (String × ℕ) :=
  [("constructor", 1), ("__defineGetter__", 2), ("__defineSetter__", 2), ("hasOwnProperty", 1),
    ("__lookupGetter__", 1), ("__lookupSetter__", 1), ("isPrototypeOf", 1),
    ("propertyIsEnumerable", 1), ("toString", 0), ("valueOf", 0), ("toLocaleString", 0)]

/-- The functions every list inherits, with their `length`. -/
def listFunctions : List (String × ℕ) :=
  [("at", 1), ("concat", 1), ("copyWithin", 2), ("entries", 0), ("every", 1), ("fill", 1),
    ("filter", 1), ("find", 1), ("findIndex", 1), ("findLast", 1), ("findLastIndex", 1),
    ("flat", 0), ("flatMap", 1), ("forEach", 1), ("includes", 1), ("indexOf", 1), ("join", 1),
    ("keys", 0), ("lastIndexOf", 1), ("map", 1), ("pop", 0), ("push", 1), ("reduce", 1),
    ("reduceRight", 1), ("reverse", 0), ("shift", 0), ("slice", 2), ("some", 1), ("sort", 1),
    ("splice", 2), ("toReversed", 0), ("toSorted", 1), ("toSpliced", 2), ("unshift", 1),
    ("values", 0), ("with", 2)]

def inheritedFunction (functions : List (String × ℕ)) (name : String) : PropertyValue :=
  match functions.lookup name with
  | some length => .callable length
  | none => .undefined

/-- What a list that is a prototype has under a name. -/
def listMember (reasonCodes : List String) (name : String) : PropertyValue :=
  match reasonCodes.zipIdx.find? (fun entry => toString entry.2 = name) with
  | some entry => .text entry.1
  | none =>
    if name = "length" then .object
    else inheritedFunction (listFunctions ++ objectFunctions) name

def WaitReasons.get (reasons : WaitReasons) (taskId : String) : PropertyValue :=
  match reasons.own.lookup taskId with
  | some reasonCodes => .codes reasonCodes
  | none =>
    match reasons.prototype with
    | some reasonCodes =>
      if taskId = "__proto__" then .codes reasonCodes else listMember reasonCodes taskId
    | none =>
      if taskId = "__proto__" then .object else inheritedFunction objectFunctions taskId

/-- `wave.waitReasonCodesByTask?.[taskId]`. -/
def SubSessionExecutionWave.waitReasons (wave : SubSessionExecutionWave) (taskId : String) :
    PropertyValue :=
  match wave.waitReasonCodesByTask with
  | none => .undefined
  | some reasons => reasons.get taskId

def typeError (message : String) : Thrown := .error "TypeError" message none

/-- What the summary of waiting tasks makes of a value: the reasons to join, nothing where
there are none, and an error where the value has a length but no `join`. -/
def PropertyValue.summarized : PropertyValue → Except Thrown (Option (List String))
  | .undefined => .ok none
  | .codes reasonCodes => .ok (if reasonCodes = [] then none else some reasonCodes)
  | .text reasonCode =>
    if reasonCode = "" then .ok none
    else .error (typeError "waitReasonCodes.join is not a function")
  | .callable length =>
    if length = 0 then .ok none
    else .error (typeError "waitReasonCodes.join is not a function")
  | .object => .error (typeError "waitReasonCodes.join is not a function")

/-- `(value ?? []).includes("resource_lock")`, and, where that holds and events are
written, `join`. -/
def PropertyValue.waitedForLock (writesEvents : Bool) : PropertyValue → Except Thrown Bool
  | .undefined => .ok false
  | .codes reasonCodes => .ok (reasonCodes.contains "resource_lock")
  | .text reasonCode =>
    if "resource_lock".toList <:+: reasonCode.toList then
      if writesEvents then .error (typeError "waitReasonCodes.join is not a function")
      else .ok true
    else .ok false
  | .callable _ | .object => .error (typeError "waitReasonCodes.includes is not a function")

/-! ## The group -/

structure ParallelSubSessionGroup where
  groupId : String
  dependencyEdges : List DependencyEdgeContract
  concurrencyLimit : JsNumber

/-- What a call of an item's `run` does: its promise resolves or rejects, or the call
itself throws. -/
inductive RunBehaviour (Outputs : Type)
  | resolves (outcome : SubSessionRunOutcome Outputs)
  | rejects (error : Thrown)
  | throws (error : Thrown)

/-- The options of a group and what it meets. The clock is read when the group starts and
when a wave starts, the signals before each wave. -/
structure GroupRuntime (Outputs : Type) where
  arithmetic : Arithmetic
  groupStartedAt : JsNumber
  waveStartedAt : ℕ → JsNumber
  runId : Option String
  (parentAborted isParentCancelled : ℕ → Bool)
  resourceLockWaitTimeoutMs : Option JsNumber
  budget : Option ParallelSubSessionBudget
  concurrency : SubSessionExecutionPlanningOptions
  run : String → RunBehaviour Outputs

/-- What a group does that can throw: it looks up the wait reasons of a task, for the
summary or in a wave, and it calls an item's `run`. -/
inductive GroupCall
  | summarize (value : PropertyValue)
  | consult (value : PropertyValue)
  | run (item : SubSessionWorkItem)
  deriving DecidableEq

inductive GroupEvent
  | waiting (entries : List (String × List String))
  | budget (status : BudgetStatus) (reasonCodes : List String)
  | lockWait (taskId : String) (waitMs : JsNumber)
  | lockTimeout (taskId : String) (waitMs : JsNumber)
  | lockAcquired (taskId : String)
  | lockReleased (taskId : String)
  | cancelled (reasonCode : String)

structure GroupState (Outputs : Type) where
  outcomes : List (SubSessionRunOutcome Outputs)
  skipped : List SkippedTask
  (completedTasks blockedTasks skippedTaskIds : List String)
  calls : List GroupCall
  events : List GroupEvent

inductive GroupStatus
  | completed | failed | blocked
  deriving DecidableEq

structure ParallelSubSessionGroupRunResult (Outputs : Type) where
  groupId : String
  status : GroupStatus
  waves : List SubSessionExecutionWave
  outcomes : List (SubSessionRunOutcome Outputs)
  skipped : List SkippedTask
  budget : ParallelSubSessionBudgetDecision

abbrev GroupM (Outputs : Type) := EStateM Thrown (GroupState Outputs)

section

variable {Outputs : Type}

/-- Events are written for a group with a run id. -/
def GroupRuntime.writesEvents (runtime : GroupRuntime Outputs) : Bool :=
  (truthyText runtime.runId).isSome

def writeEvents (runtime : GroupRuntime Outputs) (events : List GroupEvent) :
    GroupM Outputs Unit :=
  modify fun state =>
    if runtime.writesEvents then { state with events := state.events ++ events } else state

/-- Something that can throw, with a note that it was tried. -/
def tryCall {Value : Type} (call : GroupCall) (result : Except Thrown Value) :
    GroupM Outputs Value := do
  modify fun state => { state with calls := state.calls ++ [call] }
  match result with
  | .ok value => pure value
  | .error error => throw error

/-! ## One wave -/

/-- The item's own dependencies and the edges to it. -/
def groupDependencies (group : ParallelSubSessionGroup) (item : SubSessionWorkItem) :
    List String :=
  item.dependencies ++
    (group.dependencyEdges.filter (·.toTaskId = item.taskId)).map (·.fromTaskId)

/-- The items of a wave that are ready. One with a dependency that has not completed is
skipped. -/
def dependencyReady (group : ParallelSubSessionGroup) :
    List SubSessionWorkItem → GroupM Outputs (List SubSessionWorkItem)
  | [] => pure []
  | item :: rest => do
    let state ← get
    if item.taskId ∈ state.skippedTaskIds then
      dependencyReady group rest
    else if (groupDependencies group item).any fun dependency =>
        dependency ∈ state.blockedTasks ∨ dependency ∉ state.completedTasks then
      modify fun state =>
        { state with
          skipped := state.skipped ++ [skippedFor item "dependency_not_completed"]
          blockedTasks := state.blockedTasks ++ [item.taskId] }
      dependencyReady group rest
    else
      let ready ← dependencyReady group rest
      pure (item :: ready)

/-- The ready items that did not wait too long for a lock. -/
def runnableItems (runtime : GroupRuntime Outputs) (wave : SubSessionExecutionWave)
    (waitMs : JsNumber) : List SubSessionWorkItem → GroupM Outputs (List SubSessionWorkItem)
  | [] => pure []
  | item :: rest => do
    let value := wave.waitReasons item.taskId
    let waited ← tryCall (.consult value) (value.waitedForLock runtime.writesEvents)
    writeEvents runtime (if waited then [.lockWait item.taskId waitMs] else [])
    if waited ∧ runtime.resourceLockWaitTimeoutMs.any (JsNumber.lt · waitMs) then
      modify fun state =>
        { state with
          skipped := state.skipped ++ [skippedFor item "resource_lock_timeout"]
          skippedTaskIds := state.skippedTaskIds ++ [item.taskId]
          blockedTasks := state.blockedTasks ++ [item.taskId] }
      writeEvents runtime [.lockTimeout item.taskId waitMs]
      runnableItems runtime wave waitMs rest
    else
      let runnable ← runnableItems runtime wave waitMs rest
      pure (item :: runnable)

/-- What came of a call of `run`, once its promise has settled. -/
def RunBehaviour.settled : RunBehaviour Outputs →
    Except Thrown (Except Thrown (SubSessionRunOutcome Outputs))
  | .resolves outcome => .ok (.ok outcome)
  | .rejects error => .ok (.error error)
  | .throws error => .error error

/-- `runnable.map((item) => item.run())`, and what the promises settle with. -/
def startItems (runtime : GroupRuntime Outputs) : List SubSessionWorkItem →
    GroupM Outputs (List (SubSessionWorkItem × Except Thrown (SubSessionRunOutcome Outputs)))
  | [] => pure []
  | item :: rest => do
    let result ← tryCall (.run item) (runtime.run item.taskId).settled
    let results ← startItems runtime rest
    pure ((item, result) :: results)

/-- The effect of a settled promise. -/
def GroupState.settle (state : GroupState Outputs)
    (result : SubSessionWorkItem × Except Thrown (SubSessionRunOutcome Outputs)) :
    GroupState Outputs :=
  match result.2 with
  | .ok outcome =>
    if outcome.status = .completed then
      { state with
        outcomes := state.outcomes ++ [outcome]
        completedTasks := state.completedTasks ++ [result.1.taskId] }
    else
      { state with
        outcomes := state.outcomes ++ [outcome]
        blockedTasks := state.blockedTasks ++ [result.1.taskId] }
  | .error _ => { state with blockedTasks := state.blockedTasks ++ [result.1.taskId] }

def lockEvents (event : String → GroupEvent) (items : List SubSessionWorkItem) :
    List GroupEvent :=
  (items.filter (·.resourceLocks ≠ [])).map fun item => event item.taskId

/-- `Math.max(0, waveStartedAt - groupStartedAt)`. -/
def GroupRuntime.waitMs (runtime : GroupRuntime Outputs) (waveNumber : ℕ) : JsNumber :=
  JsNumber.max (.finite 0)
    (runtime.arithmetic.sub (runtime.waveStartedAt waveNumber) runtime.groupStartedAt)

def runWave (runtime : GroupRuntime Outputs) (group : ParallelSubSessionGroup)
    (wave : SubSessionExecutionWave) (waveNumber : ℕ) : GroupM Outputs Unit := do
  let ready ← dependencyReady group wave.items
  let runnable ← runnableItems runtime wave (runtime.waitMs waveNumber) ready
  writeEvents runtime (lockEvents .lockAcquired runnable)
  let results ← startItems runtime runnable
  modify fun state => results.foldl GroupState.settle state
  writeEvents runtime (lockEvents .lockReleased runnable)

/-! ## The waves of a group -/

def isParallelGroupCancelled (runtime : GroupRuntime Outputs) (waveNumber : ℕ) : Bool :=
  runtime.parentAborted waveNumber ||
    (runtime.writesEvents && runtime.isParentCancelled waveNumber)

/-- Skip an item that nothing is known of yet. -/
def GroupState.skipRemaining (reasonCode : String) (state : GroupState Outputs)
    (item : SubSessionWorkItem) : GroupState Outputs :=
  if item.taskId ∈ state.completedTasks ∨ item.taskId ∈ state.blockedTasks ∨
      item.taskId ∈ state.skippedTaskIds then
    state
  else
    { state with
      skipped := state.skipped ++ [skippedFor item reasonCode]
      skippedTaskIds := state.skippedTaskIds ++ [item.taskId]
      blockedTasks := state.blockedTasks ++ [item.taskId] }

def skipRemainingWaveItems (runtime : GroupRuntime Outputs)
    (waves : List SubSessionExecutionWave) (reasonCode : String) : GroupM Outputs Unit := do
  modify fun state =>
    (waves.flatMap (·.items)).foldl (GroupState.skipRemaining reasonCode) state
  writeEvents runtime [.cancelled reasonCode]

/-- The loop over the waves; a cancelled group leaves it. -/
def runWaves (runtime : GroupRuntime Outputs) (group : ParallelSubSessionGroup)
    (waves : List SubSessionExecutionWave) :
    List SubSessionExecutionWave → ℕ → GroupM Outputs Unit
  | [], _ => pure ()
  | wave :: rest, waveNumber => do
    if isParallelGroupCancelled runtime waveNumber then
      skipRemainingWaveItems runtime waves "parent_run_cancelled"
    else
      runWave runtime group wave waveNumber
      runWaves runtime group waves rest (waveNumber + 1)

/-- The entries of the summary of waiting tasks. -/
def buildDeferredWaveSummary :
    List (SubSessionExecutionWave × SubSessionWorkItem) →
      GroupM Outputs (List (String × List String))
  | [] => pure []
  | (wave, item) :: rest => do
    let value := wave.waitReasons item.taskId
    let reasonCodes ← tryCall (.summarize value) value.summarized
    let entries ← buildDeferredWaveSummary rest
    match reasonCodes with
    | none => pure entries
    | some reasonCodes => pure ((item.taskId, reasonCodes) :: entries)

def isBlockingSkip (reasonCode : String) : Bool :=
  ["max_child_budget_exceeded", "cost_budget_exceeded", "time_budget_exceeded",
    "resource_lock_timeout", "parent_run_cancelled"].contains reasonCode

def resolveParallelGroupStatus (outcomes : List (SubSessionRunOutcome Outputs))
    (skipped : List SkippedTask) (budget : ParallelSubSessionBudgetDecision) : GroupStatus :=
  if budget.status = .blocked then .blocked
  else if outcomes.any (·.status ≠ .completed) then .failed
  else if skipped.any (isBlockingSkip ·.reasonCode) then .blocked
  else if 0 < skipped.length then .failed
  else .completed

def groupWaves (runtime : GroupRuntime Outputs) (group : ParallelSubSessionGroup)
    (items : List SubSessionWorkItem) : List SubSessionExecutionWave :=
  planSubSessionExecutionWaves
    { items := (applyParallelSubSessionBudget runtime.arithmetic items runtime.budget).1
      group := some
        { dependencyEdges := group.dependencyEdges
          concurrencyLimit := group.concurrencyLimit }
      options := runtime.concurrency }

/-- The events a group with a run id begins with. -/
def announceGroup (runtime : GroupRuntime Outputs) (waves : List SubSessionExecutionWave)
    (decision : ParallelSubSessionBudgetDecision) : GroupM Outputs Unit :=
  if runtime.writesEvents then do
    let entries ← buildDeferredWaveSummary
      (waves.flatMap fun wave => wave.items.map (wave, ·))
    writeEvents runtime (if entries = [] then [] else [.waiting entries])
    writeEvents runtime
      (if decision.status = .ok then [] else [.budget decision.status decision.reasonCodes])
  else
    pure ()

def runParallelSubSessionGroup (runtime : GroupRuntime Outputs) (group : ParallelSubSessionGroup)
    (items : List SubSessionWorkItem) : GroupM Outputs (ParallelSubSessionGroupRunResult Outputs) := do
  let (selected, decision) := applyParallelSubSessionBudget runtime.arithmetic items runtime.budget
  let waves := groupWaves runtime group items
  announceGroup runtime waves decision
  if selected = [] then
    let state ← get
    pure
      { groupId := group.groupId
        status := .blocked
        waves := []
        outcomes := state.outcomes
        skipped := state.skipped
        budget := decision }
  else
    runWaves runtime group waves waves 0
    let state ← get
    pure
      { groupId := group.groupId
        status := resolveParallelGroupStatus state.outcomes state.skipped decision
        waves := waves
        outcomes := state.outcomes
        skipped := state.skipped
        budget := decision }

/-- The state a group starts in: the tasks the budget left out are skipped. -/
def initialGroupState (runtime : GroupRuntime Outputs) (items : List SubSessionWorkItem) :
    GroupState Outputs where
  outcomes := []
  skipped := (applyParallelSubSessionBudget runtime.arithmetic items runtime.budget).2.skipped
  completedTasks := []
  blockedTasks := []
  skippedTaskIds :=
    (applyParallelSubSessionBudget runtime.arithmetic items runtime.budget).2.skipped.map (·.taskId)
  calls := []
  events := []

end

end Nobie.Orchestration
