/-
# Root runs

A row of the table `root_runs` is a run of a request group. Its status may change until it
is terminal. A cancellation reaches the runs of the group, the children and the lineage of a
run that are active or still have a controller.
-/

import Nobie.Orchestration.TaskDispatch

namespace Nobie.Runs

open List

open Orchestration (RunStatus)

structure RootRunRow where
  (id requestGroupId lineageRootRunId : String)
  parentRunId : Option String
  status : RunStatus

def isTerminalRunStatus : RunStatus → Bool
  | .completed | .failed | .cancelled | .interrupted => true
  | .queued | .running | .awaitingApproval | .awaitingUser => false

/-- `ACTIVE_REQUEST_GROUP_STATUSES.includes`. -/
def isActiveRunStatus : RunStatus → Bool
  | .queued | .running | .awaitingApproval | .awaitingUser => true
  | .completed | .failed | .cancelled | .interrupted => false

@[simp]
theorem isActiveRunStatus_eq (status : RunStatus) :
    isActiveRunStatus status = !isTerminalRunStatus status := by
  cases status <;> rfl

def canTransitionRunStatus (current next : RunStatus) : Bool :=
  current = next || !isTerminalRunStatus current

/-- The status that `updateRunStatus` writes: a run whose answer was delivered completes where
it would fail or end. -/
def finalRunStatus (current status : RunStatus) (delivered : Bool) : RunStatus :=
  match status with
  | .failed | .cancelled | .interrupted =>
    if current ≠ .completed ∧ delivered then .completed else status
  | _ => status

/-! ## The table -/

/-- The rows in the order they were created. The id is the primary key. -/
structure RootRunTable where
  rows : List RootRunRow
  primaryKey : (rows.map RootRunRow.id).Nodup

variable {runId : String} {run : RootRunRow} {requestGroupId : String}

namespace RootRunTable

def empty : RootRunTable := ⟨[], List.nodup_nil⟩

variable (table : RootRunTable)

def getRootRun (runId : String) : Option RootRunRow := table.rows.find? fun run => run.id = runId

def hasActiveRequestGroupRuns (requestGroupId : String) : Bool :=
  table.rows.any fun run => run.requestGroupId = requestGroupId && isActiveRunStatus run.status

/-- The group has runs, and all of them have ended. -/
def hasEnded (requestGroupId : String) : Bool :=
  table.rows.any (fun run => run.requestGroupId = requestGroupId) &&
    !table.hasActiveRequestGroupRuns requestGroupId

/-- The runs that a cancellation of a run reaches. -/
def listCancellationScopeRuns (controlled : String → Bool) (current : RootRunRow) :
    List RootRunRow :=
  table.rows.filter fun run =>
    (run.id = current.id || run.requestGroupId = current.requestGroupId ||
      run.parentRunId = some current.id || run.lineageRootRunId = current.lineageRootRunId) &&
    (isActiveRunStatus run.status || controlled run.id)

def setStatus (runId : String) (status : RunStatus) : RootRunTable where
  rows := table.rows.map fun run => if run.id = runId then { run with status } else run
  primaryKey := by
    have hids : (table.rows.map fun run => if run.id = runId then { run with status } else run).map
        RootRunRow.id = table.rows.map RootRunRow.id := by
      rw [List.map_map]
      refine List.map_congr_left fun run _ => ?_
      simp only [Function.comp_apply]
      split <;> rfl
    rw [hids]
    exact table.primaryKey

/-- The status that is written and the table, unless the run is unknown or its status is
locked. -/
def updateRunStatus (runId : String) (status : RunStatus) (delivered : Bool) :
    Option (RunStatus × RootRunTable) :=
  (table.getRootRun runId).bind fun current =>
    let next := finalRunStatus current.status status delivered
    if canTransitionRunStatus current.status next then some (next, table.setStatus runId next)
    else none

/-- A new run is queued. -/
def createRootRun (run : RootRunRow) (habsent : run.id ∉ table.rows.map RootRunRow.id) :
    RootRunTable where
  rows := table.rows ++ [{ run with status := .queued }]
  primaryKey := by
    rw [List.map_append, List.nodup_append]
    refine ⟨table.primaryKey, List.nodup_singleton _, ?_⟩
    rintro id hid _ hnew rfl
    rw [List.map_singleton, List.mem_singleton] at hnew
    exact habsent (hnew ▸ hid)

def deleteRuns (runIds : List String) : RootRunTable where
  rows := table.rows.filter fun run => run.id ∉ runIds
  primaryKey := table.primaryKey.sublist (List.filter_sublist.map _)

variable {table}

theorem getRootRun_eq_some_iff :
    table.getRootRun runId = some run ↔ run ∈ table.rows ∧ run.id = runId :=
  Foundation.find?_key_eq_some_iff table.primaryKey

theorem hasActiveRequestGroupRuns_iff :
    table.hasActiveRequestGroupRuns requestGroupId ↔
      ∃ run ∈ table.rows, run.requestGroupId = requestGroupId ∧
        isTerminalRunStatus run.status = false := by
  simp [hasActiveRequestGroupRuns, any_eq_true]

theorem hasEnded_iff :
    table.hasEnded requestGroupId ↔
      (∃ run ∈ table.rows, run.requestGroupId = requestGroupId) ∧
        ∀ run ∈ table.rows, run.requestGroupId = requestGroupId →
          isTerminalRunStatus run.status := by
  rw [hasEnded, Bool.and_eq_true, Bool.not_eq_true', ← Bool.not_eq_true,
    hasActiveRequestGroupRuns_iff, any_eq_true]
  refine and_congr (by simp) ?_
  push Not
  simp

theorem getRootRun_setStatus (hrun : table.getRootRun runId = some run) (status : RunStatus) :
    (table.setStatus runId status).getRootRun runId = some { run with status } := by
  obtain ⟨hmem, hid⟩ := getRootRun_eq_some_iff.mp hrun
  refine getRootRun_eq_some_iff.mpr ⟨mem_map.mpr ⟨run, hmem, if_pos hid⟩, hid⟩

/-- The active runs of a group after a run has got a status. -/
theorem hasActive_setStatus_iff {status : RunStatus} :
    (table.setStatus runId status).hasActiveRequestGroupRuns requestGroupId ↔
      ∃ run ∈ table.rows, run.requestGroupId = requestGroupId ∧
        isTerminalRunStatus (if run.id = runId then status else run.status) = false := by
  rw [hasActiveRequestGroupRuns_iff]
  constructor
  · rintro ⟨changed, hchanged, hgroup, hactive⟩
    obtain ⟨run, hrun, rfl⟩ := mem_map.mp hchanged
    refine ⟨run, hrun, ?_⟩
    split at hgroup
    · next hid =>
      rw [if_pos hid] at hactive ⊢
      exact ⟨hgroup, hactive⟩
    · next hid =>
      rw [if_neg hid] at hactive ⊢
      exact ⟨hgroup, hactive⟩
  · rintro ⟨run, hrun, hgroup, hactive⟩
    refine ⟨_, mem_map_of_mem hrun, ?_⟩
    split
    · next hid => exact ⟨hgroup, by rwa [if_pos hid] at hactive⟩
    · next hid => exact ⟨hgroup, by rwa [if_neg hid] at hactive⟩

theorem hasRuns_setStatus (runId requestGroupId : String) (status : RunStatus) :
    ((table.setStatus runId status).rows.any fun run => run.requestGroupId = requestGroupId) =
      table.rows.any fun run => run.requestGroupId = requestGroupId := by
  rw [setStatus, any_map]
  congr 1
  funext run
  simp only [Function.comp_apply]
  split <;> rfl

/-- A group ends only by a run of its own that ends. -/
theorem hasEnded_setStatus_of_same {status : RunStatus}
    (h : ∀ run ∈ table.rows, run.id = runId → run.requestGroupId = requestGroupId →
      isTerminalRunStatus status = isTerminalRunStatus run.status) :
    (table.setStatus runId status).hasEnded requestGroupId = table.hasEnded requestGroupId := by
  have hactive : (table.setStatus runId status).hasActiveRequestGroupRuns requestGroupId =
      table.hasActiveRequestGroupRuns requestGroupId := by
    rw [Bool.eq_iff_iff, hasActive_setStatus_iff, hasActiveRequestGroupRuns_iff]
    refine exists_congr fun run => and_congr_right fun hrun => and_congr_right fun hgroup => ?_
    split
    · next hid => rw [h run hrun hid hgroup]
    · exact Iff.rfl
  rw [hasEnded, hasEnded, hactive, hasRuns_setStatus]

theorem hasEnded_createRootRun (habsent : run.id ∉ table.rows.map RootRunRow.id)
    (h : table.hasEnded requestGroupId = false) :
    (table.createRootRun run habsent).hasEnded requestGroupId = false := by
  rw [← Bool.not_eq_true, hasEnded_iff] at h ⊢
  rintro ⟨⟨member, hmember, hgroup⟩, hall⟩
  have hnew : run.requestGroupId ≠ requestGroupId := fun hsame =>
    Bool.false_ne_true (hall { run with status := .queued } (mem_append_cons_self) hsame)
  refine h ⟨?_, fun other hother => hall other (mem_append_left _ hother)⟩
  rcases mem_append.mp hmember with hbefore | hadded
  · exact ⟨member, hbefore, hgroup⟩
  · rw [mem_singleton.mp hadded] at hgroup
    exact absurd hgroup hnew

/-- Deleting runs that have ended ends no group. -/
theorem hasEnded_deleteRuns {runIds : List String}
    (hended : ∀ run ∈ table.rows, run.id ∈ runIds → isTerminalRunStatus run.status)
    (h : table.hasEnded requestGroupId = false) :
    (table.deleteRuns runIds).hasEnded requestGroupId = false := by
  rw [← Bool.not_eq_true, hasEnded_iff] at h ⊢
  rintro ⟨⟨member, hmember, hgroup⟩, hall⟩
  have hkept := (mem_filter.mp hmember).1
  refine h ⟨⟨member, hkept, hgroup⟩, fun run hrun hsame => ?_⟩
  by_cases hdeleted : run.id ∈ runIds
  · exact hended run hrun hdeleted
  · exact hall run (mem_filter.mpr ⟨hrun, decide_eq_true hdeleted⟩) hsame

/-- A status is written where the run is there and its status is not locked. -/
theorem updateRunStatus_cases (table : RootRunTable) (runId : String) (status : RunStatus)
    (delivered : Bool) :
    (table.updateRunStatus runId status delivered = none ∧
      ∀ run, table.getRootRun runId = some run → isTerminalRunStatus run.status) ∨
    ∃ run, table.getRootRun runId = some run ∧
      (run.status = finalRunStatus run.status status delivered ∨
        isTerminalRunStatus run.status = false) ∧
      table.updateRunStatus runId status delivered =
        some (finalRunStatus run.status status delivered,
          table.setStatus runId (finalRunStatus run.status status delivered)) := by
  unfold updateRunStatus
  cases hrun : table.getRootRun runId with
  | none => exact .inl ⟨rfl, fun run hsome => absurd hsome (Option.some_ne_none run).symm⟩
  | some run =>
    dsimp only [Option.bind_some]
    by_cases hallowed :
        canTransitionRunStatus run.status (finalRunStatus run.status status delivered)
    · refine .inr ⟨run, rfl, ?_, by rw [if_pos hallowed]⟩
      simpa [canTransitionRunStatus] using hallowed
    · refine .inl ⟨by rw [if_neg hallowed], fun other hother => ?_⟩
      cases hother
      unfold canTransitionRunStatus at hallowed
      rw [Bool.or_eq_true, not_or] at hallowed
      simpa using hallowed.2

end RootRunTable

end Nobie.Runs
