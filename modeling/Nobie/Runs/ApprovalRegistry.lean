/-
# The approval registry

An approval is a row of the table `approval_registry`. Every call on the
registry is a sequence of SQL statements, each of them atomic, and nothing but
the statement itself is: the calls are given as programs of statements, which
can run alone or interleave with the calls of other processes.

The hash and the preview of the parameters are texts that are computed before
the first statement; they come with the input of the call.
-/

import Nobie.Foundation.Interleaving
import Nobie.Foundation.OrderedMap
import Mathlib.Data.Int.Notation

namespace Nobie.Runs

open Foundation List

inductive ApprovalStatus
  | requested | approvedOnce | approvedRun | denied | expired | superseded | consumed
  deriving DecidableEq

inductive ApprovalDecision
  | allowOnce | allowRun | deny
  deriving DecidableEq

/-- The status a decision gives to its row. -/
def ApprovalDecision.status : ApprovalDecision → ApprovalStatus
  | .allowRun => .approvedRun
  | .allowOnce => .approvedOnce
  | .deny => .denied

inductive ApprovalKind
  | approval | screenConfirmation
  deriving DecidableEq

structure ApprovalRow where
  (id runId : String)
  requestGroupId : Option String
  channel : String
  channelMessageId : Option String
  (toolName riskLevel : String)
  kind : ApprovalKind
  status : ApprovalStatus
  paramsHash : String
  paramsPreviewJson : Option String
  requestedAt : ℤ
  (expiresAt consumedAt decisionAt : Option ℤ)
  (decisionBy decisionSource supersededBy metadataJson : Option String)
  (createdAt updatedAt : ℤ)
  deriving DecidableEq

/-! ## The table -/

/-- The rows in the order they were inserted. The id is the primary key. -/
@[ext]
structure ApprovalTable where
  rows : List ApprovalRow
  primaryKey : (rows.map ApprovalRow.id).Nodup

instance : DecidableEq ApprovalTable := fun first second =>
  decidable_of_iff (first.rows = second.rows) (by cases first; cases second; simp)

/-- The violation of the primary key. -/
inductive DatabaseError
  | uniqueConstraint

variable (table : ApprovalTable) (id : String)

namespace ApprovalTable

def empty : ApprovalTable := ⟨[], by simp⟩

def find (table : ApprovalTable) (id : String) : Option ApprovalRow :=
  table.rows.find? fun row => row.id = id

/-- An `UPDATE` that leaves the primary key alone, with the number of rows it
changed. -/
def update (table : ApprovalTable) (selects : ApprovalRow → Bool)
    (set : ApprovalRow → ApprovalRow) (hset : ∀ row, (set row).id = row.id) :
    ℕ × ApprovalTable :=
  ((table.rows.filter selects).length,
    { rows := table.rows.map fun row => if selects row then set row else row
      primaryKey := by
        have hids : (table.rows.map fun row => if selects row then set row else row).map
            ApprovalRow.id = table.rows.map ApprovalRow.id := by
          rw [List.map_map]
          refine List.map_congr_left fun row _ => ?_
          simp only [Function.comp_apply]
          split
          · exact hset row
          · rfl
        rw [hids]
        exact table.primaryKey })

/-- An `INSERT` of one row. -/
def insert (table : ApprovalTable) (row : ApprovalRow) :
    Except DatabaseError Unit × ApprovalTable :=
  if h : row.id ∈ table.rows.map ApprovalRow.id then (.error .uniqueConstraint, table)
  else (.ok (),
    { rows := table.rows ++ [row]
      primaryKey := by
        rw [List.map_append, List.nodup_append]
        refine ⟨table.primaryKey, by simp, ?_⟩
        rintro id hid _ hrow rfl
        rw [List.map_cons, List.map_nil, List.mem_singleton] at hrow
        exact h (hrow ▸ hid) })

theorem find_eq_some_iff (row : ApprovalRow) :
    table.find id = some row ↔ row ∈ table.rows ∧ row.id = id :=
  find?_key_eq_some_iff table.primaryKey

theorem find_eq_none_iff : table.find id = none ↔ id ∉ table.rows.map ApprovalRow.id := by
  simp [find]

theorem find_update (selects : ApprovalRow → Bool) (set : ApprovalRow → ApprovalRow)
    (hset : ∀ row, (set row).id = row.id) (id : String) :
    (table.update selects set hset).2.find id =
      (table.find id).map fun row => if selects row then set row else row := by
  unfold find update
  rw [find?_map]
  congr 2
  funext row
  simp only [Function.comp_apply]
  split
  · rw [hset]
  · rfl

variable {row : ApprovalRow}

theorem insert_of_find_none {table : ApprovalTable} (h : table.find row.id = none) :
    (table.insert row).1 = .ok () ∧ (table.insert row).2.rows = table.rows ++ [row] := by
  rw [insert, dif_neg ((find_eq_none_iff ..).mp h)]
  exact ⟨rfl, rfl⟩

theorem insert_of_find_some {table : ApprovalTable} (h : table.find row.id ≠ none) :
    table.insert row = (.error .uniqueConstraint, table) := by
  rw [insert, dif_pos]
  by_contra habsent
  exact h ((find_eq_none_iff ..).mpr habsent)

theorem find_insert (row : ApprovalRow) (id : String) :
    (table.insert row).2.find id =
      if (table.find row.id).isNone ∧ row.id = id then some row else table.find id := by
  by_cases hnone : table.find row.id = none
  · unfold find at hnone ⊢
    rw [(insert_of_find_none hnone).2, find?_append, hnone]
    by_cases hid : row.id = id
    · subst hid
      simp [hnone]
    · simp [hid]
  · have hsome : ¬ (table.find row.id).isNone := by rwa [Option.isNone_iff_eq_none]
    rw [if_neg fun h => hsome h.1, insert_of_find_some hnone]

end ApprovalTable

/-! ## Statements -/

inductive ApprovalStatement
  | select (id : String)
  | supersede (supersededBy : String) (now : ℤ) (runId toolName : String)
  | insert (row : ApprovalRow)
  | attach (channelMessageId : String) (now : ℤ) (id : String)
  | markExpired (now : ℤ) (id : String)
  | storeDecision (decision : ApprovalDecision) (now : ℤ) (decisionBy : Option String)
      (decisionSource : String) (id : String)
  | markConsumed (now : ℤ) (id : String)

namespace ApprovalStatement

/-- What a statement returns: rows, success, or the number of changed rows. -/
@[reducible]
def Answer : ApprovalStatement → Type
  | .select _ => Option ApprovalRow
  | .insert _ => Except DatabaseError Unit
  | _ => ℕ

/-- The `WHERE` of an `UPDATE`. -/
def selects : ApprovalStatement → ApprovalRow → Bool
  | .supersede _ _ runId toolName, row =>
    row.runId = runId && row.toolName = toolName && row.status = .requested
  | .attach _ _ id, row => row.id = id
  | .markExpired _ id, row => row.id = id && row.status = .requested
  | .storeDecision _ _ _ _ id, row => row.id = id && row.status = .requested
  | .markConsumed _ id, row =>
    row.id = id && (row.status = .approvedOnce || row.status = .approvedRun)
  | .select _, _ => false
  | .insert _, _ => false

/-- The `SET` of an `UPDATE`. -/
def set : ApprovalStatement → ApprovalRow → ApprovalRow
  | .supersede supersededBy now _ _, row =>
    { row with status := .superseded, supersededBy := some supersededBy, updatedAt := now }
  | .attach channelMessageId now _, row =>
    { row with channelMessageId := some channelMessageId, updatedAt := now }
  | .markExpired now _, row =>
    { row with
      status := .expired, decisionAt := some now, decisionSource := some "timeout",
      updatedAt := now }
  | .storeDecision decision now decisionBy decisionSource _, row =>
    { row with
      status := decision.status, decisionAt := some now, decisionBy,
      decisionSource := some decisionSource, updatedAt := now }
  | .markConsumed now _, row =>
    { row with status := .consumed, consumedAt := some now, updatedAt := now }
  | .select _, row => row
  | .insert _, row => row

variable (statement : ApprovalStatement)

theorem set_id (row : ApprovalRow) : (statement.set row).id = row.id := by
  cases statement <;> rfl

/-- An `UPDATE` on the table. -/
def updateRows (table : ApprovalTable) : ℕ × ApprovalTable :=
  table.update statement.selects statement.set statement.set_id

/-- The statements on the table. -/
def effect : (statement : ApprovalStatement) → ApprovalTable → statement.Answer × ApprovalTable
  | .select id, table => (table.find id, table)
  | .insert row, table => table.insert row
  | .supersede supersededBy now runId toolName, table =>
    updateRows (.supersede supersededBy now runId toolName) table
  | .attach channelMessageId now id, table => updateRows (.attach channelMessageId now id) table
  | .markExpired now id, table => updateRows (.markExpired now id) table
  | .storeDecision decision now decisionBy decisionSource id, table =>
    updateRows (.storeDecision decision now decisionBy decisionSource id) table
  | .markConsumed now id, table => updateRows (.markConsumed now id) table

/-- The row a statement leaves of a row that is in the table. -/
def onRow (row : ApprovalRow) : ApprovalRow :=
  if statement.selects row then statement.set row else row

theorem find_effect {statement : ApprovalStatement} {table : ApprovalTable} {id : String}
    {row : ApprovalRow} (h : table.find id = some row) :
    (statement.effect table).2.find id = some (statement.onRow row) := by
  have hupdate : (statement.updateRows table).2.find id = some (statement.onRow row) := by
    rw [updateRows, ApprovalTable.find_update, h]
    rfl
  cases statement with
  | select other => exact h
  | insert new =>
    rw [effect, ApprovalTable.find_insert, if_neg, h]
    · rfl
    · rintro ⟨hnone, rfl⟩
      rw [h] at hnone
      cases hnone
  | supersede | attach | markExpired | storeDecision | markConsumed => exact hupdate

end ApprovalStatement

/-! ## Calls -/

abbrev ApprovalProgram (Result : Type) : Type :=
  Program ApprovalStatement ApprovalStatement.Answer Result

structure CreateInput where
  (id runId : String)
  requestGroupId : Option String := none
  (channel toolName riskLevel : String)
  kind : ApprovalKind
  paramsHash : String
  paramsPreviewJson : Option String
  expiresAt : Option ℤ := none
  channelMessageId : Option String := none
  metadataJson : Option String := none
  now : ℤ
  supersedePending : Bool := true

/-- The row a request inserts. -/
def CreateInput.row (input : CreateInput) : ApprovalRow where
  id := input.id
  runId := input.runId
  requestGroupId := input.requestGroupId
  channel := input.channel
  channelMessageId := input.channelMessageId
  toolName := input.toolName
  riskLevel := input.riskLevel
  kind := input.kind
  status := .requested
  paramsHash := input.paramsHash
  paramsPreviewJson := input.paramsPreviewJson
  requestedAt := input.now
  expiresAt := input.expiresAt
  consumedAt := none
  decisionAt := none
  decisionBy := none
  decisionSource := none
  supersededBy := none
  metadataJson := input.metadataJson
  createdAt := input.now
  updatedAt := input.now

inductive DecisionReason
  | timeout | late | alreadyConsumed | superseded

/-- The result of a decision call. A status of `none` is "missing". -/
structure DecisionResult where
  accepted : Bool
  status : Option ApprovalStatus
  decision : Option ApprovalDecision := none
  reason : Option DecisionReason := none
  row : Option ApprovalRow := none

structure DecisionInput where
  approvalId : String
  decision : ApprovalDecision
  decisionBy : Option String := none
  decisionSource : String
  now : ℤ

def getApprovalRegistryRow (id : String) : ApprovalProgram (Option ApprovalRow) :=
  .perform (.select id) .finish

/-- The insertion of `createApprovalRegistryRequest` and what follows it. -/
def insertRequest (input : CreateInput) :
    ApprovalProgram (Except DatabaseError (Option ApprovalRow)) :=
  .perform (.insert input.row) fun
    | .error error => .finish (.error error)
    | .ok () => (getApprovalRegistryRow input.id).andThen fun row => .finish (.ok row)

def createApprovalRegistryRequest (input : CreateInput) :
    ApprovalProgram (Except DatabaseError (Option ApprovalRow)) :=
  if input.supersedePending then
    .perform (.supersede input.id input.now input.runId input.toolName) fun _ => insertRequest input
  else insertRequest input

def attachApprovalChannelMessage (approvalId channelMessageId : String) (now : ℤ) :
    ApprovalProgram Bool :=
  .perform (.attach channelMessageId now approvalId) fun changes => .finish (0 < changes)

variable (now : ℤ) (row : ApprovalRow)

def expireApprovalRegistryRequest (approvalId : String) (now : ℤ) :
    ApprovalProgram DecisionResult :=
  (getApprovalRegistryRow approvalId).andThen fun
    | none => .finish { accepted := false, status := none, reason := some .timeout }
    | some row =>
      if row.status ≠ .requested then
        .finish { accepted := false, status := some row.status, row := some row }
      else
        .perform (.markExpired now approvalId) fun _ =>
          (getApprovalRegistryRow approvalId).andThen fun row =>
            .finish { accepted := false, status := some .expired, reason := some .timeout, row }

/-- `row.expires_at !== null && row.expires_at <= now && row.status === "requested"`. -/
def isLate (now : ℤ) : Bool := row.expiresAt.any (· ≤ now) && row.status = .requested

/-- The answer to a decision that comes too late: the request expires. -/
def expireLate (now : ℤ) : ApprovalProgram DecisionResult :=
  (expireApprovalRegistryRequest row.id now).andThen fun _ =>
    (getApprovalRegistryRow row.id).andThen fun row =>
      .finish { accepted := false, status := some .expired, reason := some .late, row }

/-- The answer to a decision on a row that has left the status it would need. -/
def refusal : DecisionResult where
  accepted := false
  status := some row.status
  reason := some (
    if row.status = .consumed then .alreadyConsumed
    else if row.status = .superseded then .superseded else .late)
  row := some row

def resolveApprovalRegistryDecision (params : DecisionInput) : ApprovalProgram DecisionResult :=
  (getApprovalRegistryRow params.approvalId).andThen fun
    | none => .finish { accepted := false, status := none }
    | some row =>
      if isLate row params.now then expireLate row params.now
      else if row.status ≠ .requested then .finish (refusal row)
      else
        .perform (.storeDecision params.decision params.now params.decisionBy
          params.decisionSource params.approvalId) fun _ =>
          (getApprovalRegistryRow params.approvalId).andThen fun row =>
            .finish
              { accepted := true, status := some params.decision.status,
                decision := some params.decision, row }

/-- `APPROVED_STATUSES.has`. -/
def isApproved (status : ApprovalStatus) : Bool := status = .approvedOnce || status = .approvedRun

def consumeApprovalRegistryDecision (approvalId : String) (now : ℤ) :
    ApprovalProgram DecisionResult :=
  (getApprovalRegistryRow approvalId).andThen fun
    | none => .finish { accepted := false, status := none }
    | some row =>
      if isLate row now then expireLate row now
      else if ¬ isApproved row.status then .finish (refusal row)
      else
        .perform (.markConsumed now approvalId) fun _ =>
          (getApprovalRegistryRow approvalId).andThen fun reloaded =>
            .finish
              { accepted := true, status := some .consumed,
                decision := some (if row.status = .approvedRun then .allowRun else .allowOnce),
                row := reloaded }

/-- A call on the registry. -/
inductive ApprovalCall
  | create (input : CreateInput)
  | attach (approvalId channelMessageId : String) (now : ℤ)
  | expire (approvalId : String) (now : ℤ)
  | resolve (params : DecisionInput)
  | consume (approvalId : String) (now : ℤ)

inductive CallResult
  | created (row : Except DatabaseError (Option ApprovalRow))
  | attached (changed : Bool)
  | decided (result : DecisionResult)

def ApprovalCall.program : ApprovalCall → ApprovalProgram CallResult
  | .create input => (createApprovalRegistryRequest input).andThen fun row => .finish (.created row)
  | .attach approvalId channelMessageId now =>
    (attachApprovalChannelMessage approvalId channelMessageId now).andThen fun changed =>
      .finish (.attached changed)
  | .expire approvalId now =>
    (expireApprovalRegistryRequest approvalId now).andThen fun result => .finish (.decided result)
  | .resolve params =>
    (resolveApprovalRegistryDecision params).andThen fun result => .finish (.decided result)
  | .consume approvalId now =>
    (consumeApprovalRegistryDecision approvalId now).andThen fun result => .finish (.decided result)

/-! ## A registry with one request -/

/-- A request for one tool of one run. -/
def shellRequest (id : String) (now : ℤ) : CreateInput where
  id := id
  runId := "run-1"
  channel := "webui"
  toolName := "shell"
  riskLevel := "high"
  kind := .approval
  paramsHash := "h"
  paramsPreviewJson := none
  expiresAt := some 100
  now := now

/-- The registry with the request pending. -/
def requestedTable : ApprovalTable := (ApprovalTable.empty.insert (shellRequest "a" 0).row).2

/-- A decision on the request. -/
def decideShell (decision : ApprovalDecision) : DecisionInput where
  approvalId := "a"
  decision := decision
  decisionSource := "webui"
  now := 1

end Nobie.Runs
