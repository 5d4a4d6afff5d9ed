/-
# The writers of the sub-session table

The row of a sub-session is written by the call of `runSubSession` that works on it, by the
acknowledgement of a spawn, by the cancel and kill controls, and by the decision on an
approval. The runner keeps a copy of the contract between its awaits and writes that copy;
the others read the row and write it back in one go. A contract's text is read back as the
contract it was written from, so a row is given by its contract.
-/

import Mathlib.Data.List.Nodup
import Mathlib.Logic.Function.Basic
import Nobie.Orchestration.SubSessionRun

namespace Nobie.Orchestration.Writers

open List

/-! ## The table -/

/-- The parts of a `SubSessionContract` that its writers read. -/
structure Contract where
  (subSessionId parentRunId : String)
  /-- `identity.parent.parentSubSessionId`. -/
  parentSubSessionId : Option String
  idempotencyKey : String
  status : SubSessionStatus

variable (contract : Contract) (status : SubSessionStatus) (input : Contract) (call : ℕ)

def Contract.withStatus : Contract := { contract with status }

/-- `run_subsessions` with its primary key and its unique column. -/
structure Table where
  rows : List Contract
  distinctIds : (rows.map Contract.subSessionId).Nodup
  distinctKeys : (rows.map Contract.idempotencyKey).Nodup

def Table.empty : Table := ⟨[], .nil, .nil⟩

variable (table : Table)

/-- Is a unique constraint in the way of a new row? -/
def Table.Conflicts (input : Contract) : Prop :=
  input.subSessionId ∈ table.rows.map Contract.subSessionId ∨
    input.idempotencyKey ∈ table.rows.map Contract.idempotencyKey

instance (table : Table) (input : Contract) : Decidable (table.Conflicts input) :=
  inferInstanceAs (Decidable (_ ∨ _))

def Table.add (table : Table) (input : Contract) (hfree : ¬ table.Conflicts input) : Table where
  rows := table.rows ++ [input]
  distinctIds := by
    rw [List.map_append, List.map_singleton]
    exact table.distinctIds.append (List.nodup_singleton _)
      (List.disjoint_singleton.mpr fun hmem => hfree (.inl hmem))
  distinctKeys := by
    rw [List.map_append, List.map_singleton]
    exact table.distinctKeys.append (List.nodup_singleton _)
      (List.disjoint_singleton.mpr fun hmem => hfree (.inr hmem))

/-- Any violation of a unique constraint is answered `false`. -/
def insertRunSubSession (input : Contract) : Bool × Table :=
  if hconflict : table.Conflicts input then (false, table)
  else (true, table.add input hconflict)

variable (rows : List Contract)

/-- `SET … WHERE sub_session_id = ?` on the rows. -/
def rewriteRows (input : Contract) : List Contract :=
  rows.map fun stored => if stored.subSessionId = input.subSessionId then input else stored

theorem rewriteRows_ids (input : Contract) :
    (rewriteRows rows input).map Contract.subSessionId = rows.map Contract.subSessionId := by
  unfold rewriteRows
  rw [map_map]
  refine map_congr_left fun stored _ => ?_
  rw [Function.comp_apply]
  split
  · next hsame => exact hsame.symm
  · rfl

/-- An update throws where the new key is another row's. -/
def updateRunSubSession (input : Contract) : Except Unit Table :=
  if hunique : ((rewriteRows table.rows input).map Contract.idempotencyKey).Nodup then
    .ok {
      rows := rewriteRows table.rows input
      distinctIds := by
        rw [rewriteRows_ids]
        exact table.distinctIds
      distinctKeys := hunique }
  else .error ()

variable (subSessionId : String)

def getRunSubSession : Option Contract :=
  table.rows.find? fun row => row.subSessionId = subSessionId

def getRunSubSessionByIdempotencyKey (idempotencyKey : String) : Option Contract :=
  table.rows.find? fun row => row.idempotencyKey = idempotencyKey

/-- In the order of the rows; the order of a cancellation does not show. -/
def listRunSubSessionsForParentRun (parentRunId : String) : List Contract :=
  table.rows.filter fun row => row.parentRunId = parentRunId

/-! ## Controls -/

def activeControlStatuses : List SubSessionStatus :=
  [.created, .queued, .running, .waitingForInput, .awaitingApproval]

/-- An update whose error ends the caller. -/
def storeRow (input : Contract) : Table :=
  match updateRunSubSession table input with
  | .ok after => after
  | .error () => table

/-- The loop body of the cancellations: an active sub-session becomes `cancelled`. -/
def cancelActive (subSession : Contract) : Table :=
  if subSession.status ∈ activeControlStatuses ∧
      canTransitionSubSessionStatus subSession.status .cancelled then
    storeRow table (subSession.withStatus .cancelled)
  else table

/-- `childrenByParent.get(parentSubSessionId)`; an empty parent does not count. -/
def childrenOf (parentSubSessionId : String) : List String :=
  if parentSubSessionId = "" then []
  else (rows.filter fun row => row.parentSubSessionId = some parentSubSessionId).map
    Contract.subSessionId

/-- The loop over the stack, whose top comes first. Each turn takes one id off it. -/
def descend (rows : List Contract) : ℕ → List String → List String → List String
  | 0, _, result => result
  | _ + 1, [], result => result
  | fuel + 1, childId :: stack, result =>
    if childId = "" ∨ childId ∈ result then descend rows fuel stack result
    else descend rows fuel (childrenOf rows childId ++ stack) (result ++ [childId])

/-- The children of the start may be put on the stack twice, all others once. -/
def descendantSubSessionIds (table : Table) (parentRunId subSessionId : String) : List String :=
  let rows := listRunSubSessionsForParentRun table parentRunId
  descend rows (2 * rows.length + 1) (childrenOf rows subSessionId) []

def cancelById : Table :=
  match getRunSubSession table subSessionId with
  | none => table
  | some subSession => cancelActive table subSession

def cancelDescendantSubSessions (parentRunId subSessionId : String) : Table :=
  (descendantSubSessionIds table parentRunId subSessionId).foldl cancelById table

/-- `controlSubSession` with the action `cancel` or `kill`. -/
def cancelSubSession (expectedParentRunId : Option String) : Table :=
  match getRunSubSession table subSessionId with
  | none => table
  | some subSession =>
    if ∃ expected ∈ expectedParentRunId, expected ≠ "" ∧ expected ≠ subSession.parentRunId then
      table
    else if subSession.status ∈ activeControlStatuses ∧
        canTransitionSubSessionStatus subSession.status .cancelled then
      cancelDescendantSubSessions (storeRow table (subSession.withStatus .cancelled))
        subSession.parentRunId subSession.subSessionId
    else table

def killAllSubSessionsForRun (parentRunId : String) : Table :=
  (listRunSubSessionsForParentRun table parentRunId).foldl cancelActive table

/-- `applyCapabilityDelegationApprovalDecision` on the sub-session, whatever its status is. -/
def applyApprovalDecision (approved : Bool) : Table :=
  match getRunSubSession table subSessionId with
  | none => table
  | some subSession =>
    storeRow table (subSession.withStatus (if approved then .queued else .cancelled))

/-! ## Spawns -/

/-- What `parseSpawnBody` makes of a request. -/
inductive SpawnRequest
  | invalid (error : String)
  | approvalRequired (command : Contract)
  | accepted (command : Contract)

inductive SpawnAckStatus
  | accepted | queued | blockedByApproval | rejected
  deriving DecidableEq

structure SpawnAck where
  status : SpawnAckStatus
  reasonCode : String
  (subSessionId parentRunId : Option String)
  replayed : Option Bool

def SpawnAck.ok (ack : SpawnAck) : Bool := ack.status = .accepted || ack.status = .queued

def idempotentReplay (subSession : Contract) : SpawnAck where
  status := .accepted
  reasonCode := "idempotent_replay"
  subSessionId := some subSession.subSessionId
  parentRunId := some subSession.parentRunId
  replayed := some true

def spawnSubSessionAck : SpawnRequest → SpawnAck × Table
  | .invalid error => (⟨.rejected, error, none, none, none⟩, table)
  | .approvalRequired command =>
    (⟨.blockedByApproval, "blocked_by_approval", some command.subSessionId,
      some command.parentRunId, none⟩, table)
  | .accepted command =>
    match getRunSubSessionByIdempotencyKey table command.idempotencyKey with
    | some existing => (idempotentReplay existing, table)
    | none =>
      match insertRunSubSession table (command.withStatus .queued) with
      | (false, table) => (idempotentReplay command, table)
      | (true, table) =>
        (⟨.queued, "spawn_queued", some command.subSessionId, some command.parentRunId,
          some false⟩, table)

/-! ## Runs of a sub-session -/

/-- Where a call of `runSubSession` stands between two awaits. -/
inductive Stage
  /-- The key is looked up next. -/
  | arrived
  /-- Nothing was found to replay; the row is inserted next. -/
  | missed
  /-- The insertion was refused; the key is looked up again next. -/
  | refused
  /-- The call goes on to execution; `queued` is written next. -/
  | admitted
  /-- `running` or, for a cancelled parent, `cancelled` is written next. -/
  | queued
  /-- The handler is started next. -/
  | running
  /-- The handler was started. -/
  | executing
  /-- `running` could not be written; the `catch` branch is next. -/
  | recovering
  | ended
  deriving DecidableEq

/-- A call and its copy of the contract. -/
structure RunCall where
  contract : Contract
  stage : Stage

/-- What is told outside, and what becomes of the calls. -/
inductive Event
  /-- An acknowledgement, and the table at that time. -/
  | acknowledged (command : Contract) (ack : SpawnAck) (table : Table)
  /-- A call that is answered with a stored sub-session. -/
  | replayed (contract existing : Contract)
  /-- A call that goes on to execution. -/
  | takenUp (contract : Contract)
  /-- The handler of a call starts. -/
  | executed (contract : Contract)

/-- The table, the calls, and what has happened, the latest first. -/
structure State where
  table : Table
  calls : ℕ → Option RunCall
  journal : List Event

def State.start : State := ⟨.empty, fun _ => none, []⟩

inductive Label
  | spawn (request : SpawnRequest)
  /-- A call of `runSubSession` that passed the checks on its input. -/
  | arrive (call : ℕ) (contract : Contract)
  /-- The next look-up or insertion of a call. -/
  | advance (call : ℕ)
  | changeStatus (call : ℕ) (status : SubSessionStatus)
  | execute (call : ℕ)
  /-- The call returns or throws. -/
  | leave (call : ℕ)
  | cancel (subSessionId : String) (expectedParentRunId : Option String)
  | killAll (parentRunId : String)
  | decide (subSessionId : String) (approved : Bool)

variable (state : State) (stage : Stage)

def State.put (call : ℕ) (contract : Contract) (stage : Stage) : State :=
  { state with calls := Function.update state.calls call (some ⟨contract, stage⟩) }

def State.note (event : Event) : State := { state with journal := event :: state.journal }

/-- The row that answers a call at the look-up it stands before. -/
def answering (contract : Contract) : Stage → Option Contract
  | .arrived =>
    (getRunSubSessionByIdempotencyKey table contract.idempotencyKey).filter fun existing =>
      isReplayableStatus existing.status
  | .refused => getRunSubSessionByIdempotencyKey table contract.idempotencyKey
  | _ => none

/-- The next look-up or insertion of a call. -/
def State.advance (call : ℕ) (contract : Contract) (stage : Stage) : Option State :=
  match stage, answering state.table contract stage with
  | .arrived, some existing | .refused, some existing =>
    some ((state.note (.replayed contract existing)).put call contract .ended)
  | .arrived, none => some (state.put call contract .missed)
  | .refused, none => some ((state.note (.takenUp contract)).put call contract .admitted)
  | .missed, _ =>
    match insertRunSubSession state.table contract with
    | (true, table) =>
      some (({ state with table }.note (.takenUp contract)).put call contract .admitted)
    | (false, _) => some (state.put call contract .refused)
  | _, _ => none

/-- What follows a status that was written. -/
def writtenStage (status : SubSessionStatus) : Option Stage :=
  match stage, status with
  | .admitted, .queued => some .queued
  | .queued, .running => some .running
  | .queued, .cancelled => some .ended
  | .executing, _ => some .executing
  | .recovering, .cancelled | .recovering, .failed => some .ended
  | _, _ => none

/-- What follows a write that throws: inside the `try` block the `catch` branch, elsewhere
the end of the call. A handler that was started may go on. -/
def thrownStage (status : SubSessionStatus) : Stage :=
  match stage, status with
  | .queued, .running => .recovering
  | .executing, _ => .executing
  | _, _ => .ended

/-- `changeStatus`: the copy moves along the transitions and is then written. -/
def State.changeStatus (call : ℕ) (contract : Contract) (stage : Stage) (status : SubSessionStatus)
    : Option State :=
  if canTransitionSubSessionStatus contract.status status then
    (writtenStage stage status).map fun written =>
      match updateRunSubSession state.table (contract.withStatus status) with
      | .ok table => { state with table }.put call (contract.withStatus status) written
      | .error () => state.put call (contract.withStatus status) (thrownStage stage status)
  else none

def State.spawn : SpawnRequest → State
  | .accepted command =>
    let answer := spawnSubSessionAck state.table (.accepted command)
    { state with table := answer.2 }.note (.acknowledged command answer.1 answer.2)
  | request => { state with table := (spawnSubSessionAck state.table request).2 }

def State.arrive (call : ℕ) (contract : Contract) : Option State :=
  match state.calls call with
  | some _ => none
  | none => some (state.put call (contract.withStatus .created) .arrived)

def State.step? : Label → Option State
  | .spawn request => some (state.spawn request)
  | .arrive call contract => state.arrive call contract
  | .advance call =>
    (state.calls call).bind fun found => state.advance call found.contract found.stage
  | .changeStatus call status =>
    (state.calls call).bind fun found => state.changeStatus call found.contract found.stage status
  | .execute call =>
    (state.calls call).bind fun found =>
      if found.stage = .running then
        some ((state.note (.executed found.contract)).put call found.contract .executing)
      else none
  | .leave call => (state.calls call).map fun found => state.put call found.contract .ended
  | .cancel subSessionId expectedParentRunId =>
    some { state with
      table := cancelSubSession state.table subSessionId expectedParentRunId }
  | .killAll parentRunId =>
    some { state with table := killAllSubSessionsForRun state.table parentRunId }
  | .decide subSessionId approved =>
    some { state with table := applyApprovalDecision state.table subSessionId approved }

/-! ## What the operations do -/

section Operations

variable {table : Table} {input : Contract}

theorem mem_rewriteRows {rows : List Contract} {stored : Contract}
    (hmem : stored ∈ rewriteRows rows input) : stored = input ∨ stored ∈ rows := by
  obtain ⟨found, hfound, rfl⟩ := mem_map.mp hmem
  split
  · exact .inl rfl
  · exact .inr hfound

theorem updateRunSubSession_rows {after : Table} (h : updateRunSubSession table input = .ok after) :
    after.rows = rewriteRows table.rows input := by
  unfold updateRunSubSession at h
  split at h
  · cases h
    rfl
  · cases h

variable {found : Contract}

theorem mem_of_getRunSubSession {subSessionId : String}
    (h : getRunSubSession table subSessionId = some found) :
    found ∈ table.rows ∧ found.subSessionId = subSessionId := by
  have hid := find?_some h
  exact ⟨mem_of_find?_eq_some h, of_decide_eq_true hid⟩

theorem mem_of_getRunSubSessionByIdempotencyKey {idempotencyKey : String}
    (h : getRunSubSessionByIdempotencyKey table idempotencyKey = some found) :
    found ∈ table.rows ∧ found.idempotencyKey = idempotencyKey := by
  have hkey := find?_some h
  exact ⟨mem_of_find?_eq_some h, of_decide_eq_true hkey⟩

/-- What an insertion does. -/
theorem insertRunSubSession_cases (table : Table) (input : Contract) :
    (insertRunSubSession table input = (false, table) ∧ table.Conflicts input) ∨
      ∃ after, insertRunSubSession table input = (true, after) ∧
        after.rows = table.rows ++ [input] := by
  by_cases hconflict : table.Conflicts input
  · exact .inl ⟨dif_pos hconflict, hconflict⟩
  · exact .inr ⟨_, dif_neg hconflict, rfl⟩

end Operations

theorem calls_put (call : ℕ) (contract : Contract) (stage : Stage) (other : ℕ) :
    (state.put call contract stage).calls other =
      if other = call then some ⟨contract, stage⟩ else state.calls other :=
  Function.update_apply ..

/-- A request on its own. -/
def teaRequest : Contract where
  subSessionId := "tea"
  parentRunId := "run"
  parentSubSessionId := none
  idempotencyKey := "key"
  status := .created

end Nobie.Orchestration.Writers
