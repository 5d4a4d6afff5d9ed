/-
# Approvals of dispatched calls

A dispatched call of a tool that needs an approval is served by a grant of its request group
that is held in memory, or asks the approval registry and waits. Its promise is settled by
the resolver that goes out with the request, by a timer or by the abort of its signal; a
decision from the web interface goes through the one interaction that is remembered for each
run. A denial cancels the run, and the runs that end clear the grants of their group.

A step is what happens between two awaits. The interactions, the grants and the controllers
are maps from ids. Beside what the dispatcher keeps, a state lists the approvals that the
registry has taken and the cancellations that denials have asked for; a grant has a number,
and it is marked once all runs of its group have ended.
-/

import Nobie.Runs.ApprovalLifeCycle
import Nobie.Runs.RootRuns

namespace Nobie.Tools.Approvals

open Foundation Runs
open Orchestration (RunStatus)

/-! ## Calls -/

/-- A grant held in memory. -/
structure MemoryGrant where
  serial : ℕ
  owner : String
  outlived : Bool := false

/-- How a call stands to its approval. -/
inductive CallGate
  | notRequired
  | allowRunScope (grant : MemoryGrant)
  | singleScope (grant : MemoryGrant)
  | asked (approvalId : String) (outcome : Option ApprovalDecision)

/-- A call at its approval gate; the owner key is that of its run when it came in. -/
structure GatedCall where
  (runId toolName : String)
  signal : ℕ
  owner : String
  required : Bool
  gate : CallGate
  executed : Option Bool := none

def CallGate.waits : CallGate → Bool
  | .asked _ none => true
  | _ => false

/-- What `requestApproval` has answered. -/
def CallGate.decision : CallGate → Option ApprovalDecision
  | .notRequired => none
  | .allowRunScope _ => some .allowRun
  | .singleScope _ => some .allowOnce
  | .asked _ outcome => outcome

/-- The first answer stands. -/
def CallGate.settle (decision : ApprovalDecision) : CallGate → CallGate
  | .asked approvalId none => .asked approvalId (some decision)
  | gate => gate

variable (call : GatedCall)

def GatedCall.waits : Bool := call.gate.waits

def GatedCall.settle (decision : ApprovalDecision) (call : GatedCall) : GatedCall :=
  { call with gate := call.gate.settle decision }

/-- The call waits for an approval, and this signal would end its wait. -/
def GatedCall.listensTo (signal : ℕ) (call : GatedCall) : Bool := call.waits && call.signal = signal

def GatedCall.approvalId? : Option String :=
  match call.gate with
  | .asked approvalId _ => some approvalId
  | _ => none

structure PendingInteraction where
  (approvalId toolName : String)
  kind : ApprovalKind

structure DispatcherState where
  registry : ApprovalTable
  runs : RootRunTable
  controllers : String → Option ℕ := fun _ => none
  aborted : List ℕ := []
  pendingInteractionKinds : String → Option PendingInteraction := fun _ => none
  runApprovalScopes : String → Option MemoryGrant := fun _ => none
  runSingleApprovalScopes : String → Option MemoryGrant := fun _ => none
  grantsMade : ℕ := 0
  calls : List GatedCall := []
  approvals : List (String × ApprovalDecision) := []
  cancellations : List (String × String) := []

/-! ## Runs, their signals and their grants -/

namespace DispatcherState

variable (state : DispatcherState)

variable (runId : String) (delivered : String → Bool) (now : ℤ)

def getApprovalOwnerKey : String :=
  ((state.runs.getRootRun runId).map RootRunRow.requestGroupId).getD runId

def clearApprovalScopesForCompletedRun : DispatcherState :=
  let ownerKey := state.getApprovalOwnerKey runId
  let cleared := { state with
    pendingInteractionKinds := Function.update state.pendingInteractionKinds runId none }
  if state.runs.hasActiveRequestGroupRuns ownerKey then cleared
  else { cleared with
    runApprovalScopes := Function.update state.runApprovalScopes ownerKey none
    runSingleApprovalScopes := Function.update state.runSingleApprovalScopes ownerKey none }

/-- The events `run.completed`, `run.failed` and `run.cancelled` clear the grants; there is no
event of an interrupted run. -/
def hasEndEvent : RunStatus → Bool
  | .completed | .failed | .cancelled => true
  | .queued | .running | .awaitingApproval | .awaitingUser | .interrupted => false

def updateRunStatus (status : RunStatus) (delivered : String → Bool) : DispatcherState :=
  match state.runs.updateRunStatus runId status (delivered runId) with
  | none => state
  | some (next, runs) =>
    if hasEndEvent next then { state with runs }.clearApprovalScopesForCompletedRun runId
    else { state with runs }

/-- The decision that the listener of an abort takes to the registry. -/
def abortDecision (approvalId : String) : DecisionInput where
  approvalId := approvalId
  decision := .deny
  decisionBy := some "system"
  decisionSource := "abort"
  now := now

/-- The listener of a call, when its signal is aborted. -/
def abortListener (call : GatedCall) : DispatcherState :=
  match call.gate with
  | .asked approvalId none => { state with
      registry := (runCall (.resolve (abortDecision now approvalId)) state.registry).2
      pendingInteractionKinds := Function.update state.pendingInteractionKinds call.runId none }
  | _ => state

/-- A signal is aborted once; every call that waits with it is denied. -/
def abortSignal (signal : ℕ) : DispatcherState :=
  if signal ∈ state.aborted then state
  else
    let heard := (state.calls.filter (GatedCall.listensTo signal)).foldl
      (fun state call => state.abortListener now call) state
    { heard with
      aborted := signal :: state.aborted
      calls := state.calls.map fun call =>
        if call.listensTo signal then call.settle .deny else call }

/-- `controller.abort()` and `clearActiveRunController`. -/
def abortController (runId : String) : DispatcherState :=
  match state.controllers runId with
  | some signal => { state.abortSignal now signal with
      controllers := Function.update state.controllers runId none }
  | none => state

/-- What a cancellation does to a run of its scope. -/
def cancelRun (delivered : String → Bool) (runId : String) : DispatcherState :=
  (state.abortController now runId).updateRunStatus runId .cancelled delivered

/-- The ids of the runs that `cancelRootRun` cancels. -/
def cancellationScope : List String :=
  match state.runs.getRootRun runId with
  | none => []
  | some current =>
    (state.runs.listCancellationScopeRuns (fun id => (state.controllers id).isSome) current).map
      RootRunRow.id

def cancelRootRun (delivered : String → Bool) (runId : String) : DispatcherState :=
  (state.cancellationScope runId).foldl (fun state id => state.cancelRun now delivered id) state

/-! ## Grants -/

def newGrant (ownerKey : String) : MemoryGrant := ⟨state.grantsMade, ownerKey, false⟩

def setRunApprovalScope (ownerKey : String) : DispatcherState :=
  { state with
    runApprovalScopes :=
      Function.update state.runApprovalScopes ownerKey (some (state.newGrant ownerKey))
    grantsMade := state.grantsMade + 1 }

def grantRunApprovalScope : DispatcherState :=
  let ownerKey := state.getApprovalOwnerKey runId
  { state with
    runSingleApprovalScopes := Function.update state.runSingleApprovalScopes ownerKey none
  }.setRunApprovalScope ownerKey

def grantRunSingleApproval : DispatcherState :=
  let ownerKey := state.getApprovalOwnerKey runId
  if (state.runApprovalScopes ownerKey).isSome then state
  else if (state.runSingleApprovalScopes ownerKey).isSome then state
  else { state with
    runSingleApprovalScopes :=
      Function.update state.runSingleApprovalScopes ownerKey (some (state.newGrant ownerKey))
    grantsMade := state.grantsMade + 1 }

/-- The grants in memory whose group has only runs that have ended are marked. -/
def markOutlived : DispatcherState :=
  let mark (grants : String → Option MemoryGrant) (ownerKey : String) : Option MemoryGrant :=
    (grants ownerKey).map fun grant =>
      { grant with outlived := grant.outlived || state.runs.hasEnded ownerKey }
  { state with
    runApprovalScopes := mark state.runApprovalScopes
    runSingleApprovalScopes := mark state.runSingleApprovalScopes }

/-! ## Decisions -/

def finishApproval (delivered : String → Bool) (runId approvalId : String)
    (decision : ApprovalDecision) : DispatcherState :=
  let ownerKey := state.getApprovalOwnerKey runId
  let finished := { state with
    pendingInteractionKinds := Function.update state.pendingInteractionKinds runId none }
  match decision with
  | .allowRun => (finished.setRunApprovalScope ownerKey).updateRunStatus runId .running delivered
  | .allowOnce => finished.updateRunStatus runId .running delivered
  | .deny =>
    { finished with cancellations := state.cancellations ++ [(runId, approvalId)]
    }.cancelRootRun now delivered runId

/-- A decision goes to the registry, and an approval is used up at once; the answer is whether
both were accepted. -/
def decideAndConsume (params : DecisionInput) : Bool × DispatcherState :=
  let (decided, registry) := runCall (.resolve params) state.registry
  let state := { state with registry }
  if !decided.accepted then (false, state)
  else if params.decision = .deny then (true, state)
  else
    let (consumed, registry) := runCall (.consume params.approvalId params.now) state.registry
    (consumed.accepted, { state with
      registry
      approvals := state.approvals ++ [(params.approvalId, params.decision)] })

end DispatcherState

/-! ## Requests -/

def fileApprovalToolNames : List String :=
  ["file_read", "file_write", "file_list", "file_search", "file_patch", "file_delete"]

def approvalRequiredToolNames : List String :=
  fileApprovalToolNames ++ ["app_launch", "shell_exec", "process_kill", "screen_capture",
    "screen_find_text", "yeonjang_camera_capture"]

def screenInteractionToolNames : List String :=
  ["window_focus", "mouse_move", "mouse_click", "mouse_action", "keyboard_type",
    "keyboard_shortcut", "keyboard_action"]

/-- A call that comes in: what the approval gate reads of the configuration, the tool, the
capability decision and the context, the time of the clock and the id drawn for a request. -/
structure DispatchInput where
  (toolName runId : String)
  requestGroupId : Option String
  source : String
  signal : ℕ
  (approvalModeOff requiresApproval capabilityApprovalRequired : Bool)
  (riskLevel paramsHash : String)
  (paramsPreviewJson metadataJson : Option String)
  approvalId : String
  now : ℤ

def shouldRequireApproval (input : DispatchInput) : Bool :=
  !input.approvalModeOff &&
    (input.requiresApproval || input.toolName ∈ approvalRequiredToolNames ||
      input.capabilityApprovalRequired)

def approvalKind (toolName : String) : ApprovalKind :=
  if toolName ∈ screenInteractionToolNames then .screenConfirmation else .approval

/-- The row that asks for an approval; a screen confirmation does not expire. -/
def registryRequest (ownerKey : String) (input : DispatchInput) : CreateInput where
  id := input.approvalId
  runId := input.runId
  requestGroupId := some (input.requestGroupId.getD ownerKey)
  channel := input.source
  toolName := input.toolName
  riskLevel := input.riskLevel
  kind := approvalKind input.toolName
  paramsHash := input.paramsHash
  paramsPreviewJson := input.paramsPreviewJson
  expiresAt :=
    match approvalKind input.toolName with
    | .screenConfirmation => none
    | .approval => some (input.now + 60000)
  metadataJson := input.metadataJson
  now := input.now

/-- The status of a run that waits for an answer. -/
def awaitingStatus : ApprovalKind → RunStatus
  | .screenConfirmation => .awaitingUser
  | .approval => .awaitingApproval

namespace DispatcherState

variable (state : DispatcherState)

variable (input : DispatchInput)

/-- A call is added with the gate it stands at. -/
def addCall (gate : CallGate) : DispatcherState :=
  { state with
    calls := state.calls ++
      [{ runId := input.runId, toolName := input.toolName, signal := input.signal,
         owner := state.getApprovalOwnerKey input.runId,
         required := shouldRequireApproval input, gate }] }

/-- The part of `requestApproval` that goes to the registry. -/
def askRegistry : DispatcherState :=
  let ownerKey := state.getApprovalOwnerKey input.runId
  let kind := approvalKind input.toolName
  { state.addCall input (.asked input.approvalId none) with
    registry := (runCall (.create (registryRequest ownerKey input)) state.registry).2
    pendingInteractionKinds := Function.update state.pendingInteractionKinds input.runId
      (some ⟨input.approvalId, input.toolName, kind⟩)
  }.updateRunStatus input.runId (awaitingStatus kind) fun _ => false

def requestApproval : DispatcherState :=
  let ownerKey := state.getApprovalOwnerKey input.runId
  match state.runApprovalScopes ownerKey, state.runSingleApprovalScopes ownerKey with
  | some grant, _ => state.addCall input (.allowRunScope grant)
  | none, some grant => { state.addCall input (.singleScope grant) with
      runSingleApprovalScopes := Function.update state.runSingleApprovalScopes ownerKey none }
  | none, none => state.askRegistry input

def dispatch : DispatcherState :=
  if shouldRequireApproval input then state.requestApproval input
  else state.addCall input .notRequired

/-! ## Answers -/

variable (place : ℕ)

/-- A call settles. -/
def settleAt (call : GatedCall) (decision : ApprovalDecision) : DispatcherState :=
  { state with calls := state.calls.set place (call.settle decision) }

/-- The resolver that goes out with `approval.request`. -/
def resolveRequest (call : GatedCall) (approvalId : String) (params : DecisionInput)
    (delivered : String → Bool) : DispatcherState :=
  match state.decideAndConsume { params with approvalId } with
  | (false, state) => state
  | (true, state) =>
    (state.settleAt place call params.decision).finishApproval params.now delivered call.runId
      approvalId params.decision

/-- `resolvePendingInteraction`, called by the web interface. -/
def resolvePendingInteraction (runId : String) (decision : ApprovalDecision) (now : ℤ)
    (delivered : String → Bool) : DispatcherState :=
  match state.pendingInteractionKinds runId with
  | none => state
  | some interaction =>
    match state.decideAndConsume
        ⟨interaction.approvalId, decision, some "webui", "user", now⟩ with
    | (false, state) => state
    | (true, state) => state.finishApproval now delivered runId interaction.approvalId decision

/-- The timer of a request. -/
def timeOut (call : GatedCall) (approvalId : String) (now : ℤ) (delivered : String → Bool) :
    DispatcherState :=
  let settled := state.settleAt place call .deny
  { settled with registry := (runCall (.expire approvalId now) state.registry).2
  }.finishApproval now delivered call.runId approvalId .deny

end DispatcherState

/-! ## The policy behind the gate -/

def localMutationTools : List String :=
  ["shell_exec", "file_write", "file_patch", "file_delete", "process_kill", "app_launch",
    "keyboard_type", "keyboard_shortcut", "keyboard_action", "mouse_move", "mouse_click",
    "mouse_action", "window_focus", "screen_capture", "screen_find_text",
    "yeonjang_camera_capture"]

inductive RiskLevel
  | safe | moderate | dangerous
  deriving DecidableEq

/-- What `evaluateToolPolicy` finds out about a call. -/
structure PolicyFindings where
  (capabilityAllowed legacyNoAgentContext capabilityApprovalRequired permissionAllowed : Bool)
  riskLevel : RiskLevel

variable (findings : PolicyFindings)

/-- Whether `evaluateToolPolicy` allows a call with what its approval decided. -/
def evaluateToolPolicy (toolName : String) (approvalDecision : Option ApprovalDecision) : Bool :=
  let legacyModerateApprovalRequired :=
    findings.legacyNoAgentContext && findings.riskLevel = .moderate
  let approvalRequired := legacyModerateApprovalRequired || findings.riskLevel = .dangerous ||
    toolName ∈ localMutationTools || findings.capabilityApprovalRequired
  findings.capabilityAllowed && findings.permissionAllowed &&
    !(approvalRequired && approvalDecision.isNone)

/-- Whether a call is executed behind its gate. -/
def executes (withinRate : Bool) (call : GatedCall) : Bool :=
  call.gate.decision ≠ some .deny &&
    evaluateToolPolicy findings call.toolName call.gate.decision && withinRate

/-- The call goes on behind its gate. -/
def GatedCall.proceed (withinRate : Bool) (call : GatedCall) : GatedCall :=
  { call with executed := some (executes findings withinRate call) }

/-! ## Steps -/

/-- The steps of the dispatcher and of the code around it: a call comes in or goes on behind its
gate; an answer by the resolver, by the web interface, by the timer or by an abort; a grant; and
what happens to runs. -/
inductive ApprovalStep
  | dispatch (input : DispatchInput)
  | proceed (place : ℕ) (findings : PolicyFindings) (withinRate : Bool)
  | resolve (place : ℕ) (params : DecisionInput) (delivered : String → Bool)
  | resolvePending (runId : String) (decision : ApprovalDecision) (now : ℤ)
      (delivered : String → Bool)
  | timeOut (place : ℕ) (now : ℤ) (delivered : String → Bool)
  | abort (signal : ℕ) (now : ℤ)
  | grantRunApprovalScope (runId : String)
  | grantRunSingleApproval (runId : String)
  | createRun (run : RootRunRow)
  | bindController (runId : String) (signal : ℕ)
  | clearController (runId : String)
  | updateStatus (runId : String) (status : RunStatus) (delivered : String → Bool)
  | cancel (runId : String) (now : ℤ) (delivered : String → Bool)
  | deleteRuns (runIds : List String) (now : ℤ)

/-- A step, unless it is not possible: an id is drawn or created once, a call goes on when its
gate has answered, a promise is settled while its call waits, a screen confirmation has no
timer, and only runs that have ended are deleted. -/
def act? (state : DispatcherState) : ApprovalStep → Option DispatcherState
  | .dispatch input =>
    if (state.registry.find input.approvalId).isSome then none else some (state.dispatch input)
  | .proceed place findings withinRate =>
    match state.calls[place]? with
    | some call =>
      if call.waits || call.executed.isSome then none
      else some { state with
        calls := state.calls.set place (call.proceed findings withinRate) }
    | none => none
  | .resolve place params delivered =>
    match state.calls[place]? with
    | some call =>
      match call.gate with
      | .asked approvalId none => some (state.resolveRequest place call approvalId params delivered)
      | .asked _ (some _) => some state
      | _ => none
    | none => none
  | .resolvePending runId decision now delivered =>
    some (state.resolvePendingInteraction runId decision now delivered)
  | .timeOut place now delivered =>
    match state.calls[place]? with
    | some call =>
      match call.gate, approvalKind call.toolName with
      | .asked approvalId none, .approval =>
        some (state.timeOut place call approvalId now delivered)
      | _, _ => none
    | none => none
  | .abort signal now => some (state.abortSignal now signal)
  | .grantRunApprovalScope runId => some (state.grantRunApprovalScope runId)
  | .grantRunSingleApproval runId => some (state.grantRunSingleApproval runId)
  | .createRun run =>
    if habsent : run.id ∉ state.runs.rows.map RootRunRow.id then
      some { state with runs := state.runs.createRootRun run habsent }
    else none
  | .bindController runId signal =>
    some { state with controllers := Function.update state.controllers runId (some signal) }
  | .clearController runId =>
    some { state with controllers := Function.update state.controllers runId none }
  | .updateStatus runId status delivered => some (state.updateRunStatus runId status delivered)
  | .cancel runId now delivered => some (state.cancelRootRun now delivered runId)
  | .deleteRuns runIds now =>
    if ∀ run ∈ state.runs.rows, run.id ∈ runIds → isTerminalRunStatus run.status then
      let aborted := runIds.foldl (fun state runId => state.abortController now runId) state
      some { aborted with runs := aborted.runs.deleteRuns runIds }
    else none

/-- A step, and the marks of the grants that their groups leave behind. -/
def approvalStep? (state : DispatcherState) (step : ApprovalStep) : Option DispatcherState :=
  (act? state step).map DispatcherState.markOutlived

/-! ## What the operations on approvals do

An abort, and so a cancellation, denies the calls that wait with a signal it reaches, and the
registry decides their rows; nothing else about calls and rows changes. -/

open List

/-! ## Calls -/

@[simp]
theorem approvalId_settle (call : GatedCall) (decision : ApprovalDecision) :
    (call.settle decision).approvalId? = call.approvalId? := by
  unfold GatedCall.settle GatedCall.approvalId?
  cases call.gate with
  | asked approvalId outcome => cases outcome <;> rfl
  | notRequired | allowRunScope | singleScope => rfl

@[simp]
theorem waits_settle (call : GatedCall) (decision : ApprovalDecision) :
    (call.settle decision).waits = false := by
  unfold GatedCall.settle GatedCall.waits CallGate.waits
  cases call.gate with
  | asked approvalId outcome => cases outcome <;> rfl
  | notRequired | allowRunScope | singleScope => rfl

variable {call : GatedCall} {state next : DispatcherState} {runId : String}
  {interaction : PendingInteraction}

theorem gate_of_waits (h : call.waits) : ∃ approvalId, call.gate = .asked approvalId none := by
  unfold GatedCall.waits CallGate.waits at h
  split at h
  · next approvalId hgate => exact ⟨approvalId, hgate⟩
  · cases h

/-- A call with the answer of an abort, if it waits with a signal that is heard. -/
def denyHeard (heard : ℕ → Bool) (call : GatedCall) : GatedCall :=
  if call.waits && heard call.signal then call.settle .deny else call

@[simp]
theorem approvalId_denyHeard (heard : ℕ → Bool) (call : GatedCall) :
    (denyHeard heard call).approvalId? = call.approvalId? := by
  unfold denyHeard
  split
  · exact approvalId_settle call .deny
  · rfl

@[simp]
theorem waits_denyHeard (heard : ℕ → Bool) (call : GatedCall) :
    (denyHeard heard call).waits = (call.waits && !heard call.signal) := by
  unfold denyHeard
  cases hwaits : call.waits <;> cases hheard : heard call.signal <;> simp [hwaits]

@[simp]
theorem signal_denyHeard (heard : ℕ → Bool) (call : GatedCall) :
    (denyHeard heard call).signal = call.signal := by
  unfold denyHeard
  split <;> rfl

theorem denyHeard_denyHeard (first second : ℕ → Bool) (call : GatedCall) :
    denyHeard second (denyHeard first call) =
      denyHeard (fun signal => first signal || second signal) call := by
  rw [denyHeard, waits_denyHeard, signal_denyHeard]
  unfold denyHeard
  cases call.waits <;> cases hfirst : first call.signal <;>
    cases hsecond : second call.signal <;> simp [hfirst, hsecond]

/-! ## Aborts -/

variable (now : ℤ)

/-- The row is decided by the abort of a call that waits for it. -/
def deniedRow (heard : ℕ → Bool) (calls : List GatedCall) (id : String) (row : ApprovalRow) :
    ApprovalRow :=
  if calls.any fun call => call.approvalId? = some id && (call.waits && heard call.signal) then
    decideRow (DispatcherState.abortDecision now id) row
  else row

/-- The calls that wait with a signal that is heard are denied, and their rows are decided. -/
structure Denies (now : ℤ) (heard : ℕ → Bool) (state next : DispatcherState) : Prop where
  calls : next.calls = state.calls.map (denyHeard heard)
  rows : ∀ id row, state.registry.find id = some row →
    next.registry.find id = some (deniedRow now heard state.calls id row)
  pending : ∀ runId interaction, next.pendingInteractionKinds runId = some interaction →
    state.pendingInteractionKinds runId = some interaction
  approvals : next.approvals = state.approvals
  cancellations : next.cancellations = state.cancellations

theorem decideRow_twice (params : DecisionInput) (row : ApprovalRow) :
    decideRow params (decideRow params row) = decideRow params row := by
  apply decideRow_of_not_requested
  rw [status_decideRow]
  by_cases hopen : isOpen row params.now
  · rw [if_pos hopen]
    cases params.decision <;> decide
  · rw [if_neg hopen]
    by_cases hrequested : row.status = .requested
    · rw [if_pos hrequested]
      decide
    · rwa [if_neg hrequested]

theorem deniedRow_deniedRow (first second : ℕ → Bool) (calls : List GatedCall) (id : String)
    (row : ApprovalRow) :
    deniedRow now second (calls.map (denyHeard first)) id (deniedRow now first calls id row) =
      deniedRow now (fun signal => first signal || second signal) calls id row := by
  have hany : (calls.any fun call => decide (call.approvalId? = some id) &&
        (call.waits && (first call.signal || second call.signal))) =
      ((calls.any fun call => decide (call.approvalId? = some id) &&
          (call.waits && first call.signal)) ||
        (calls.map (denyHeard first)).any fun call => decide (call.approvalId? = some id) &&
          (call.waits && second call.signal)) := by
    induction calls with
    | nil => rfl
    | cons call rest ih =>
      simp only [any_cons, map_cons, ih, approvalId_denyHeard, waits_denyHeard, signal_denyHeard]
      cases decide (call.approvalId? = some id) <;> cases call.waits <;>
        cases first call.signal <;> cases second call.signal <;> simp
  unfold deniedRow
  rw [hany]
  cases calls.any fun call => decide (call.approvalId? = some id) &&
      (call.waits && first call.signal) with
  | true =>
    simp only [if_true, Bool.true_or]
    split
    · exact decideRow_twice _ row
    · rfl
  | false => simp only [Bool.false_eq_true, if_false, Bool.false_or]

theorem Denies.trans {now : ℤ} {first second : ℕ → Bool} {middle : DispatcherState}
    (h : Denies now first state middle) (h' : Denies now second middle next) :
    Denies now (fun signal => first signal || second signal) state next where
  calls := by
    rw [h'.calls, h.calls, map_map]
    exact map_congr_left fun call _ => denyHeard_denyHeard first second call
  rows := by
    intro id row hrow
    rw [h'.rows id _ (h.rows id row hrow), h.calls, deniedRow_deniedRow]
  pending runId interaction hpending := h.pending _ _ (h'.pending _ _ hpending)
  approvals := h'.approvals.trans h.approvals
  cancellations := h'.cancellations.trans h.cancellations

/-- Nothing is heard where no request changes. -/
theorem denies_of_unchanged (hcalls : next.calls = state.calls)
    (hregistry : next.registry = state.registry)
    (hpending : ∀ runId interaction, next.pendingInteractionKinds runId = some interaction →
      state.pendingInteractionKinds runId = some interaction)
    (happrovals : next.approvals = state.approvals)
    (hcancellations : next.cancellations = state.cancellations) :
    Denies now (fun _ => false) state next where
  calls := by
    rw [hcalls]
    conv_lhs => rw [← map_id state.calls]
    exact map_congr_left fun call _ => by simp [denyHeard]
  rows := by
    intro id row hrow
    rw [hregistry, hrow, deniedRow, if_neg]
    simp
  pending := hpending
  approvals := happrovals
  cancellations := hcancellations

theorem pending_of_update {pending : String → Option PendingInteraction} {other : String}
    (h : Function.update pending runId none other = some interaction) :
    pending other = some interaction := by
  by_cases hother : other = runId
  · rw [hother, Function.update_self] at h
    cases h
  · rwa [Function.update_of_ne hother] at h

namespace DispatcherState

variable (state : DispatcherState)

/-! ## Statuses of runs -/

/-- The requests, the signals and the controllers are as they were. -/
structure SameRequests (state next : DispatcherState) : Prop where
  calls : next.calls = state.calls
  registry : next.registry = state.registry
  approvals : next.approvals = state.approvals
  cancellations : next.cancellations = state.cancellations
  controllers : next.controllers = state.controllers
  aborted : next.aborted = state.aborted
  grantsMade : next.grantsMade = state.grantsMade
  pending : ∀ runId interaction, next.pendingInteractionKinds runId = some interaction →
    state.pendingInteractionKinds runId = some interaction

variable (now : ℤ) (runIds : List String)

theorem SameRequests.denies {state : DispatcherState} (h : state.SameRequests next) (now : ℤ) :
    Denies now (fun _ => false) state next :=
  denies_of_unchanged now h.calls h.registry h.pending h.approvals h.cancellations

theorem sameRequests_clear (runId : String) :
    state.SameRequests (state.clearApprovalScopesForCompletedRun runId) := by
  unfold clearApprovalScopesForCompletedRun
  dsimp only
  split
  · exact ⟨rfl, rfl, rfl, rfl, rfl, rfl, rfl, fun _ _ h => pending_of_update h⟩
  · exact ⟨rfl, rfl, rfl, rfl, rfl, rfl, rfl, fun _ _ h => pending_of_update h⟩

theorem sameRequests_updateRunStatus (runId : String) (status : RunStatus)
    (delivered : String → Bool) :
    state.SameRequests (state.updateRunStatus runId status delivered) := by
  unfold updateRunStatus
  split
  · exact ⟨rfl, rfl, rfl, rfl, rfl, rfl, rfl, fun _ _ h => h⟩
  · next next runs hupdate =>
    split
    · obtain ⟨hcalls, hregistry, happrovals, hcancellations, hcontrollers, haborted, hgrants,
        hpending⟩ := sameRequests_clear { state with runs } runId
      exact ⟨hcalls, hregistry, happrovals, hcancellations, hcontrollers, haborted, hgrants,
        hpending⟩
    · exact ⟨rfl, rfl, rfl, rfl, rfl, rfl, rfl, fun _ _ h => h⟩

/-! ## Aborted signals -/

/-- The listener of a call that waits decides its row. -/
theorem find_abortListener (hwaits : call.waits) {id : String} {row : ApprovalRow}
    (hrow : state.registry.find id = some row) :
    (state.abortListener now call).registry.find id =
      some (if call.approvalId? = some id then decideRow (abortDecision now id) row else row) := by
  obtain ⟨approvalId, hgate⟩ := gate_of_waits hwaits
  have hid : call.approvalId? = some approvalId := by
    unfold GatedCall.approvalId?
    rw [hgate]
  unfold abortListener
  rw [hgate, hid]
  have hparams : (abortDecision now approvalId).approvalId = approvalId := rfl
  rw [find_resolve hrow, hparams]
  by_cases hsame : id = approvalId
  · subst hsame
    rw [if_pos rfl, if_pos rfl]
  · rw [if_neg hsame, if_neg fun h => hsame (Option.some.inj h).symm]

theorem pending_abortListener (call : GatedCall)
    (h : (state.abortListener now call).pendingInteractionKinds runId = some interaction) :
    state.pendingInteractionKinds runId = some interaction := by
  unfold abortListener at h
  split at h
  · exact pending_of_update h
  · exact h

/-- The state of the listeners of the calls that are heard, one after the other. -/
theorem abortListeners (heard : List GatedCall) (hwaits : ∀ call ∈ heard, call.waits) :
    let after := heard.foldl (fun state call => state.abortListener now call) state
    (∀ id row, state.registry.find id = some row → after.registry.find id = some (
      if heard.any fun call => call.approvalId? = some id then
        decideRow (abortDecision now id) row else row)) ∧
    (∀ runId interaction, after.pendingInteractionKinds runId = some interaction →
      state.pendingInteractionKinds runId = some interaction) ∧
    after = { state with
      registry := after.registry, pendingInteractionKinds := after.pendingInteractionKinds } := by
  induction heard generalizing state with
  | nil => exact ⟨fun id row hrow => hrow, fun _ _ h => h, rfl⟩
  | cons call rest ih =>
    have hcall := hwaits call mem_cons_self
    obtain ⟨hrows, hpending, hsame⟩ := ih (state.abortListener now call)
      fun other hother => hwaits other (mem_cons_of_mem _ hother)
    rw [foldl_cons]
    refine ⟨fun id row hrow => ?_, fun runId interaction h =>
      state.pending_abortListener now call (hpending runId interaction h), ?_⟩
    · rw [hrows id _ (state.find_abortListener now hcall hrow), any_cons]
      by_cases hid : call.approvalId? = some id
      · rw [if_pos hid, decide_eq_true hid, Bool.true_or, if_pos rfl]
        split
        · rw [decideRow_twice]
        · rfl
      · rw [if_neg hid, decide_eq_false hid, Bool.false_or]
    · obtain ⟨approvalId, hgate⟩ := gate_of_waits hcall
      rw [hsame]
      unfold abortListener
      rw [hgate]

variable (signal : ℕ)

/-- An abort denies the calls that wait with its signal, unless it was aborted before. -/
theorem denies_abortSignal :
    Denies now (fun other => other = signal && signal ∉ state.aborted) state
      (state.abortSignal now signal) := by
  unfold abortSignal
  by_cases haborted : signal ∈ state.aborted
  · rw [if_pos haborted]
    simp only [haborted, not_true_eq_false, decide_false, Bool.and_false]
    exact denies_of_unchanged now rfl rfl (fun _ _ h => h) rfl rfl
  · rw [if_neg haborted]
    obtain ⟨hrows, hpending, hsame⟩ := state.abortListeners now
      (state.calls.filter (GatedCall.listensTo signal)) fun call hcall => by
        have hlistens := (mem_filter.mp hcall).2
        exact (Bool.and_eq_true_iff.mp hlistens).1
    simp only [haborted, not_false_eq_true, decide_true, Bool.and_true]
    refine ⟨map_congr_left fun call _ => ?_, fun id row hrow => ?_, hpending, ?_, ?_⟩
    · rfl
    · dsimp only
      rw [hrows id row hrow, any_filter, deniedRow]
      refine congrArg some (if_congr (Eq.congr ?_ rfl) rfl rfl)
      refine congrArg (fun test => state.calls.any test) (funext fun call => ?_)
      exact Bool.and_comm _ _
    · rw [hsame]
    · rw [hsame]

theorem aborted_abortSignal (signal other : ℕ) :
    other ∈ (state.abortSignal now signal).aborted ↔ other = signal ∨ other ∈ state.aborted := by
  unfold abortSignal
  split
  · next haborted =>
    refine ⟨Or.inr, ?_⟩
    rintro (rfl | hother)
    · exact haborted
    · exact hother
  · exact mem_cons

/-- What an abort leaves alone. -/
structure SameRuns (state next : DispatcherState) : Prop where
  runs : next.runs = state.runs
  runApprovalScopes : next.runApprovalScopes = state.runApprovalScopes
  runSingleApprovalScopes : next.runSingleApprovalScopes = state.runSingleApprovalScopes
  grantsMade : next.grantsMade = state.grantsMade

theorem sameRuns_abortSignal :
    state.SameRuns (state.abortSignal now signal) ∧
      (state.abortSignal now signal).controllers = state.controllers := by
  unfold abortSignal
  split
  · exact ⟨⟨rfl, rfl, rfl, rfl⟩, rfl⟩
  · obtain ⟨-, -, hsame⟩ := state.abortListeners now
      (state.calls.filter (GatedCall.listensTo signal)) fun call hcall => by
        have hlistens := (mem_filter.mp hcall).2
        exact (Bool.and_eq_true_iff.mp hlistens).1
    rw [hsame]
    exact ⟨⟨rfl, rfl, rfl, rfl⟩, rfl⟩

/-! ## Cancellations -/

/-- The signals that the controllers of runs would abort now. -/
def reached : Bool :=
  runIds.any (fun runId => state.controllers runId = some signal) && signal ∉ state.aborted

theorem denies_abortController (runId : String) :
    Denies now (state.reached [runId]) state (state.abortController now runId) := by
  unfold abortController
  cases hcontroller : state.controllers runId with
  | none =>
    have hreached : state.reached [runId] = fun _ => false := by
      funext signal
      simp [reached, hcontroller]
    rw [hreached]
    exact denies_of_unchanged now rfl rfl (fun _ _ h => h) rfl rfl
  | some signal =>
    have hreached : state.reached [runId] =
        fun other => other = signal && signal ∉ state.aborted := by
      funext other
      by_cases hother : other = signal
      · subst hother
        simp [reached, hcontroller]
      · have hsignal : ¬ signal = other := fun h => hother h.symm
        simp [reached, hcontroller, hother, hsignal]
    rw [hreached]
    obtain ⟨hcalls, hrows, hpending, happrovals, hcancellations⟩ :=
      state.denies_abortSignal now signal
    exact ⟨hcalls, hrows, hpending, happrovals, hcancellations⟩

theorem sameRuns_abortController (runId : String) :
    state.SameRuns (state.abortController now runId) := by
  unfold abortController
  split
  · next signal hcontroller =>
    obtain ⟨⟨hruns, hscopes, hsingle, hgrants⟩, -⟩ := state.sameRuns_abortSignal now signal
    exact ⟨hruns, hscopes, hsingle, hgrants⟩
  · exact ⟨rfl, rfl, rfl, rfl⟩

theorem SameRuns.trans {first second third : DispatcherState} (h : first.SameRuns second)
    (h' : second.SameRuns third) : first.SameRuns third :=
  ⟨h'.runs.trans h.runs, h'.runApprovalScopes.trans h.runApprovalScopes,
    h'.runSingleApprovalScopes.trans h.runSingleApprovalScopes, h'.grantsMade.trans h.grantsMade⟩

theorem sameRuns_abortControllers :
    state.SameRuns (runIds.foldl (fun state id => state.abortController now id) state) := by
  induction runIds generalizing state with
  | nil => exact ⟨rfl, rfl, rfl, rfl⟩
  | cons first rest ih =>
    rw [foldl_cons]
    exact (state.sameRuns_abortController now first).trans (ih _)

/-- Once the signal of one run is aborted, the others still reach what they would have. -/
theorem reached_abortController (runId : String) (runIds : List String) (signal : ℕ) :
    (state.reached [runId] signal || (state.abortController now runId).reached runIds signal) =
      state.reached (runId :: runIds) signal := by
  unfold abortController
  cases hcontroller : state.controllers runId with
  | none => simp [reached, hcontroller]
  | some own =>
    have haborted : signal ∈ (state.abortSignal now own).aborted ↔
        signal = own ∨ signal ∈ state.aborted := state.aborted_abortSignal now own signal
    by_cases hsignal : signal = own
    · subst hsignal
      have hgone : signal ∈ (state.abortSignal now signal).aborted := haborted.mpr (.inl rfl)
      simp [reached, hcontroller, hgone]
    · have hown : ¬ own = signal := fun h => hsignal h.symm
      have hcontrollers (other : String) :
          Function.update state.controllers runId none other = some signal ↔
            state.controllers other = some signal := by
        by_cases hother : other = runId
        · subst hother
          simp [hcontroller, hown]
        · rw [Function.update_of_ne hother]
      simp [reached, hcontroller, hown, hsignal, haborted, hcontrollers]

/-- Aborting the controllers of runs one after the other, with what follows for each, denies the
calls that their signals reach. -/
theorem denies_foldl (step : DispatcherState → String → DispatcherState)
    (hstep : ∀ (state : DispatcherState) (runId : String),
      (state.abortController now runId).SameRequests (step state runId)) (runIds : List String) :
    Denies now (state.reached runIds) state (runIds.foldl step state) := by
  induction runIds generalizing state with
  | nil =>
    have hreached : state.reached [] = fun _ => false := by
      funext signal
      simp [reached]
    rw [hreached]
    exact denies_of_unchanged now rfl rfl (fun _ _ h => h) rfl rfl
  | cons runId rest ih =>
    have hsame := hstep state runId
    have hfirst := (state.denies_abortController now runId).trans (hsame.denies now)
    simp only [Bool.or_false] at hfirst
    have hboth := hfirst.trans (ih (step state runId))
    have hreached : (fun signal => state.reached [runId] signal ||
        (step state runId).reached rest signal) = state.reached (runId :: rest) := by
      funext signal
      have hlater : (step state runId).reached rest signal =
          (state.abortController now runId).reached rest signal := by
        unfold reached
        rw [hsame.controllers, hsame.aborted]
      rw [hlater]
      exact state.reached_abortController now runId rest signal
    rw [hreached] at hboth
    exact hboth

/-- A cancellation denies the calls that the signals of its scope reach. -/
theorem denies_cancelRootRun (delivered : String → Bool) (runId : String) :
    Denies now (state.reached (state.cancellationScope runId)) state
      (state.cancelRootRun now delivered runId) :=
  state.denies_foldl now (fun state id => state.cancelRun now delivered id)
    (fun state id => (state.abortController now id).sameRequests_updateRunStatus id .cancelled
      delivered) (state.cancellationScope runId)

theorem denies_abortControllers :
    Denies now (state.reached runIds) state
      (runIds.foldl (fun state id => state.abortController now id) state) :=
  state.denies_foldl now (fun state id => state.abortController now id)
    (fun _ _ => ⟨rfl, rfl, rfl, rfl, rfl, rfl, rfl, fun _ _ h => h⟩) runIds

end DispatcherState

end Nobie.Tools.Approvals
