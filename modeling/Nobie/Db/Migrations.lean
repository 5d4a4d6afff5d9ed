/-
# The lock under which a database is migrated

A row of `migration_locks` with status `active` is the lock: whoever migrates inserts it
first, moves it through its phases and releases it or marks it failed at the end. Guarded
writes refuse to start while a lock is active. The rows of the two tables that the
migrations keep about themselves are modelled one by one; the rest of the database is the
schema that migrations change, with the names of its objects.
-/

import Mathlib.Data.List.Sort
import Nobie.Foundation.Connections

namespace Nobie.Db

open Foundation

/-! ## Rows -/

inductive MigrationLockStatus
  | active | released | failed
  deriving DecidableEq, Repr

inductive MigrationLockPhase
  | preflight | backup | lock | apply | verify | unlock | failed
  deriving DecidableEq, Repr

structure MigrationVerificationReport where
  ok : Bool
  schemaVersion : ℤ
  (requiredTables requiredIndexes : List (String × Bool))
  integrityCheck : String
  (missingTables missingIndexes : List String)
  deriving DecidableEq, Repr

/-- A row of `migration_locks`. The columns with JSON hold what the JSON is made of. -/
structure MigrationLockRow where
  id : String
  status : MigrationLockStatus
  lockedBy : String
  phase : MigrationLockPhase
  (startedAt updatedAt : ℤ)
  releasedAt : Option ℤ
  backupSnapshotId : Option String
  pendingVersionsJson : Option (List ℤ)
  verifyReportJson : Option MigrationVerificationReport
  (errorMessage rollbackRunbookRef : Option String)
  deriving DecidableEq, Repr

/-- A row of `schema_migrations`. -/
structure VersionRow where
  (version appliedAt : ℤ)
  deriving DecidableEq, Repr

/-! ## The database -/

inductive ObjectType
  | table | index
  deriving DecidableEq, Repr

/-- The tables and indexes that migrations make, by their names, and what they contain. -/
structure Schema (Content : Type) where
  objects : List (ObjectType × String)
  content : Content
  deriving DecidableEq, Repr

/-- A database file. The tables of the migrations themselves may not exist yet. -/
structure Database (Content : Type) where
  lockRows : Option (List MigrationLockRow)
  lockIndex : Bool
  versionRows : Option (List VersionRow)
  schema : Schema Content
  deriving DecidableEq, Repr

/-- What is thrown. -/
structure JsError where
  message : String
  (code lockId : Option String)
  deriving Repr

def JsError.ofMessage (message : String) : JsError := ⟨message, none, none⟩

variable {Content : Type}

namespace Database

def locks (database : Database Content) : List MigrationLockRow := database.lockRows.getD []

def activeLocks (database : Database Content) : List MigrationLockRow :=
  database.locks.filter fun row => row.status = .active

/-- The versions in `schema_migrations`, in the order of their insertion. -/
def versions (database : Database Content) : List ℤ :=
  (database.versionRows.getD []).map (·.version)

end Database

/-! ## Statements -/

inductive Statement (Content : Type) : Type
  | createLockTable | createLockIndex | createVersionTable | selectVersions | selectActiveLock
  | insertLock (row : MigrationLockRow)
  | updateLockPhase (lockId : String) (phase : MigrationLockPhase) (now : ℤ)
  | releaseLock (lockId : String) (now : ℤ) (verifyReport : MigrationVerificationReport)
  | failLock (lockId : String) (now : ℤ) (error : String)
      (verifyReport : Option MigrationVerificationReport)
  | insertVersion (version appliedAt : ℤ)
  | selectObject (type : ObjectType) (name : String)
  | integrityCheck
  | selectMaxVersion
  /-- A statement of the migration to a version. -/
  | migrate (version : ℤ) (change : Schema Content → Schema Content)
  /-- A statement of a guarded write. -/
  | write (operation : String) (change : Schema Content → Schema Content)

/-- What a statement returns if it does not fail. -/
def Statement.Value : Statement Content → Type
  | .selectVersions => List ℤ
  | .selectActiveLock => Option MigrationLockRow
  | .selectObject _ _ => Bool
  | .integrityCheck => String
  | .selectMaxVersion => ℤ
  | .migrate _ _ => Schema Content
  | _ => Unit

def noSuchTable (table : String) : JsError := ⟨s!"no such table: {table}", some "SQLITE_ERROR", none⟩

def uniqueFailed (column : String) : JsError :=
  ⟨s!"UNIQUE constraint failed: {column}", some "SQLITE_CONSTRAINT_PRIMARYKEY", none⟩

namespace Database

/-- A statement on `migration_locks`. -/
def onLocks {Result : Type} (database : Database Content)
    (statement : List MigrationLockRow → Except JsError Result × List MigrationLockRow) :
    Except JsError Result × Database Content :=
  match database.lockRows with
  | none => (.error (noSuchTable "migration_locks"), database)
  | some rows => ((statement rows).1, { database with lockRows := some (statement rows).2 })

/-- A statement on `schema_migrations`. -/
def onVersions {Result : Type} (database : Database Content)
    (statement : List VersionRow → Except JsError Result × List VersionRow) :
    Except JsError Result × Database Content :=
  match database.versionRows with
  | none => (.error (noSuchTable "schema_migrations"), database)
  | some rows => ((statement rows).1, { database with versionRows := some (statement rows).2 })

/-- `UPDATE migration_locks SET … WHERE id = ?`. -/
def updateLocks (lockId : String) (change : MigrationLockRow → MigrationLockRow)
    (rows : List MigrationLockRow) : Except JsError Unit × List MigrationLockRow :=
  (.ok (), rows.map fun row => if row.id = lockId then change row else row)

def objectExists (database : Database Content) (type : ObjectType) (name : String) : Bool :=
  if (type, name) = (.table, "migration_locks") then database.lockRows.isSome
  else if (type, name) = (.index, "idx_migration_locks_status") then database.lockIndex
  else if (type, name) = (.table, "schema_migrations") then database.versionRows.isSome
  else database.schema.objects.contains (type, name)

def maxVersion : List VersionRow → ℤ
  | [] => 0
  | row :: rows =>
    rows.foldl (fun best other => if best < other.version then other.version else best)
      row.version

/-- `ORDER BY updated_at DESC LIMIT 1`. -/
def mostRecent : List MigrationLockRow → Option MigrationLockRow
  | [] => none
  | row :: rows =>
    match mostRecent rows with
    | none => some row
    | some other => if row.updatedAt < other.updatedAt then some other else some row

/-- How the database executes a statement. `integrity` is what `PRAGMA integrity_check` finds
in the content. -/
def run (integrity : Content → String) :
    (statement : Statement Content) → Database Content →
      Except JsError statement.Value × Database Content
  | .createLockTable, database => (.ok (), { database with lockRows := some database.locks })
  | .createLockIndex, database =>
    match database.lockRows with
    | none => (.error (noSuchTable "migration_locks"), database)
    | some _ => (.ok (), { database with lockIndex := true })
  | .createVersionTable, database =>
    (.ok (), { database with versionRows := some (database.versionRows.getD []) })
  | .selectVersions, database =>
    database.onVersions fun rows => (.ok ((rows.map (·.version)).insertionSort (· ≤ ·)), rows)
  | .selectActiveLock, database =>
    database.onLocks fun rows =>
      (.ok (mostRecent (rows.filter fun row => row.status = .active)), rows)
  | .insertLock row, database =>
    database.onLocks fun rows =>
      if row.id ∈ rows.map (·.id) then (.error (uniqueFailed "migration_locks.id"), rows)
      else (.ok (), rows ++ [row])
  | .updateLockPhase lockId phase now, database =>
    database.onLocks (updateLocks lockId fun row =>
      if row.status = .active then { row with phase := phase, updatedAt := now } else row)
  | .releaseLock lockId now verifyReport, database =>
    database.onLocks (updateLocks lockId fun row =>
      { row with
        status := .released, phase := .unlock, updatedAt := now, releasedAt := some now
        verifyReportJson := some verifyReport })
  | .failLock lockId now error verifyReport, database =>
    database.onLocks (updateLocks lockId fun row =>
      { row with
        status := .failed, phase := .failed, updatedAt := now, errorMessage := some error
        verifyReportJson := verifyReport })
  | .insertVersion version appliedAt, database =>
    database.onVersions fun rows =>
      if version ∈ rows.map (·.version) then
        (.error (uniqueFailed "schema_migrations.version"), rows)
      else (.ok (), rows ++ [⟨version, appliedAt⟩])
  | .selectObject type name, database => (.ok (database.objectExists type name), database)
  | .integrityCheck, database => (.ok (integrity database.schema.content), database)
  | .selectMaxVersion, database => database.onVersions fun rows => (.ok (maxVersion rows), rows)
  | .migrate _ change, database =>
    (.ok (change database.schema), { database with schema := change database.schema })
  | .write _ change, database => (.ok (), { database with schema := change database.schema })

end Database

/-- The engine of a database file. -/
def engine (integrity : Content → String) :
    Engine (Statement Content) JsError (Database Content) Statement.Value where
  run := Database.run integrity
  busy := ⟨"database is locked", some "SQLITE_BUSY_SNAPSHOT", none⟩

/-- Programs of a process on its connection to the database. -/
abbrev Sql (Content : Type) := Session (@Statement.Value Content) JsError

/-! ## The lock -/

def REQUIRED_TABLES : List String :=
  ["schema_migrations", "migration_locks", "runtime_feature_flags", "rollout_shadow_compares",
    "rollout_evidence", "root_runs", "audit_logs", "agent_configs", "team_configs",
    "agent_team_memberships", "nickname_namespaces", "agent_relationships", "run_subsessions",
    "agent_data_exchanges", "capability_delegations", "learning_events",
    "profile_history_versions", "profile_restore_events", "team_execution_plans",
    "orchestration_events", "channel_connections", "channel_capabilities",
    "channel_identity_mappings", "channel_runtime_events", "enterprise_topologies",
    "enterprise_topology_versions", "enterprise_topology_history", "compiled_topology_snapshots",
    "topology_validation_snapshots", "topology_runs", "topology_node_runs",
    "topology_work_orders", "topology_result_reports", "topology_failure_reports",
    "topology_trace_events", "topology_tool_calls", "topology_metrics_daily",
    "observed_topology_edges", "topology_gap_findings", "graph_execution_plans",
    "node_task_analyses", "node_delegation_resolutions", "graph_execution_events",
    "recovery_strategy_ledger"]

def REQUIRED_INDEXES : List String :=
  ["idx_migration_locks_status", "idx_runtime_feature_flags_mode",
    "idx_rollout_shadow_compares_feature", "idx_rollout_evidence_feature",
    "idx_nickname_namespaces_entity", "idx_agent_relationships_parent",
    "idx_run_subsessions_parent_sub_session", "idx_team_execution_plans_parent_run",
    "idx_orchestration_events_run", "idx_orchestration_events_cursor",
    "idx_channel_connections_provider", "idx_channel_runtime_events_connection",
    "idx_channel_identity_mappings_connection_namespace", "idx_enterprise_topologies_status",
    "idx_enterprise_topology_versions_topology_version",
    "idx_enterprise_topology_history_topology",
    "idx_compiled_topology_snapshots_topology_version",
    "idx_topology_validation_snapshots_topology_version", "idx_topology_runs_topology",
    "idx_topology_runs_status", "idx_topology_runs_root_run", "idx_topology_node_runs_topology",
    "idx_topology_node_runs_node", "idx_topology_work_orders_topology",
    "idx_topology_work_orders_parent", "idx_topology_result_reports_topology",
    "idx_topology_result_reports_status", "idx_topology_failure_reports_topology",
    "idx_topology_failure_reports_node", "idx_topology_trace_events_run",
    "idx_topology_trace_events_node", "idx_topology_trace_events_phase",
    "idx_topology_tool_calls_topology", "idx_topology_tool_calls_tool",
    "idx_topology_metrics_daily_topology", "idx_observed_topology_edges_topology",
    "idx_topology_gap_findings_topology", "idx_graph_execution_plans_topology",
    "idx_graph_execution_plans_status", "idx_node_task_analyses_plan",
    "idx_node_delegation_resolutions_plan", "idx_graph_execution_events_plan",
    "idx_graph_execution_events_executor", "idx_recovery_strategy_ledger_plan"]

def MIGRATION_ROLLBACK_RUNBOOK_REF : String := "migration-rollback-runbook"

def ensureMigrationSafetyTables : Sql Content Unit := do
  Session.execute (.createLockTable : Statement Content)
  Session.execute (.createLockIndex : Statement Content)

def getActiveMigrationLock : Sql Content (Option MigrationLockRow) := do
  ensureMigrationSafetyTables
  Session.execute (.selectActiveLock : Statement Content)

structure BeginMigrationLockInput where
  id : String
  pendingVersions : List ℤ
  (lockedBy backupSnapshotId : Option String)

/-- The row that `beginMigrationLock` inserts. -/
def BeginMigrationLockInput.row (input : BeginMigrationLockInput) (pid : ℕ) (now : ℤ) :
    MigrationLockRow where
  id := input.id
  status := .active
  lockedBy := input.lockedBy.getD s!"pid:{pid}"
  phase := .lock
  startedAt := now
  updatedAt := now
  releasedAt := none
  backupSnapshotId := input.backupSnapshotId
  pendingVersionsJson := some input.pendingVersions
  verifyReportJson := none
  errorMessage := none
  rollbackRunbookRef := some MIGRATION_ROLLBACK_RUNBOOK_REF

/-- An active lock is returned as it is, whoever holds it. -/
def beginMigrationLock (pid : ℕ) (input : BeginMigrationLockInput) :
    Sql Content MigrationLockRow := do
  ensureMigrationSafetyTables
  match ← getActiveMigrationLock with
  | some existing => pure existing
  | none =>
    let now ← Session.now
    Session.execute (.insertLock (input.row pid now) : Statement Content)
    match ← getActiveMigrationLock with
    | none => throw (JsError.ofMessage "migration lock was not created")
    | some active => pure active

def updateMigrationLockPhase (lockId : String) (phase : MigrationLockPhase) : Sql Content Unit := do
  let now ← Session.now
  ensureMigrationSafetyTables
  Session.execute (.updateLockPhase lockId phase now : Statement Content)

def releaseMigrationLock (lockId : String) (verifyReport : MigrationVerificationReport) :
    Sql Content Unit := do
  ensureMigrationSafetyTables
  let now ← Session.now
  Session.execute (.releaseLock lockId now verifyReport : Statement Content)

def failMigrationLock (lockId error : String)
    (verifyReport : Option MigrationVerificationReport) : Sql Content Unit := do
  ensureMigrationSafetyTables
  let now ← Session.now
  Session.execute (.failLock lockId now error verifyReport : Statement Content)

/-! ## Verification -/

/-- Which of the required objects exist, each by a query of its own. -/
def requiredObjects (type : ObjectType) : List String → Sql Content (List (String × Bool))
  | [] => pure []
  | name :: names => do
    let ok ← Session.execute (.selectObject type name : Statement Content)
    let rest ← requiredObjects type names
    pure ((name, ok) :: rest)

def latestSchemaVersion : Sql Content ℤ := do
  let found : Bool ←
    Session.execute (.selectObject .table "schema_migrations" : Statement Content)
  if found then Session.execute (.selectMaxVersion : Statement Content)
  else pure 0

def missing (items : List (String × Bool)) : List String :=
  (items.filter fun item => !item.2).map (·.1)

def verifyMigrationState : Sql Content MigrationVerificationReport := do
  ensureMigrationSafetyTables
  let requiredTables ← requiredObjects .table REQUIRED_TABLES
  let requiredIndexes ← requiredObjects .index REQUIRED_INDEXES
  let integrityCheck : String ← Session.execute (.integrityCheck : Statement Content)
  let schemaVersion ← latestSchemaVersion
  pure {
    ok := (missing requiredTables).isEmpty && (missing requiredIndexes).isEmpty &&
      integrityCheck == "ok"
    schemaVersion, requiredTables, requiredIndexes, integrityCheck
    missingTables := missing requiredTables
    missingIndexes := missing requiredIndexes }

/-! ## The write guard -/

structure MigrationWriteGuardResult where
  ok : Bool
  operation : String
  lock : Option MigrationLockRow
  (userMessage recoveryGuide : Option String)

def lockUserMessage : String := "DB migration 또는 복구 lock이 남아 있어 쓰기 작업을 시작하지 않았습니다."

def lockRecoveryGuide (lock : MigrationLockRow) : String :=
  let backup := lock.backupSnapshotId.getD "없음"
  let runbook := lock.rollbackRunbookRef.getD MIGRATION_ROLLBACK_RUNBOOK_REF
  s!"doctor report에서 migration lock {lock.id}와 backup snapshot {backup}을 확인한 뒤 " ++
    s!"{runbook} 절차로 복구하세요."

def checkMigrationWriteGuard (operation : String) : Sql Content MigrationWriteGuardResult := do
  match ← getActiveMigrationLock with
  | none => pure { ok := true, operation, lock := none, userMessage := none, recoveryGuide := none }
  | some lock =>
    pure {
      ok := false, operation, lock := some lock, userMessage := some lockUserMessage
      recoveryGuide := some (lockRecoveryGuide lock) }

def assertMigrationWriteAllowed (operation : String) : Sql Content Unit := do
  let guard ← checkMigrationWriteGuard operation
  let userMessage := guard.userMessage.getD "null"
  if guard.ok then pure ()
  else
    throw {
      message := userMessage ++ s!" ({operation})"
      code := some "MIGRATION_LOCK_ACTIVE"
      lockId := guard.lock.map (·.id) }

/-! ## Migrations

What is pending is applied under the lock, most migrations in a transaction with their version row.
A process can crash at any time, and an operator can release a lock or mark it failed. -/

/-- What `up` does to a schema, statement by statement. It can look at the schema between
them, and throw. -/
inductive Script (Content : Type) : Type
  | done
  | throws (error : JsError)
  | statement (change : Schema Content → Schema Content)
      (next : Schema Content → Script Content)

/-- The schema that a script leaves if nothing interferes and it does not throw. -/
def Script.outcome : Script Content → Schema Content → Option (Schema Content)
  | .done, schema => some schema
  | .throws _, _ => none
  | .statement change next, schema => (next (change schema)).outcome (change schema)

structure Migration (Content : Type) where
  version : ℤ
  transaction : Option Bool
  up : Script Content

variable (migration : Migration Content) (applied : List ℤ)

/-- `migration.transaction === false`. -/
def Migration.outsideTransaction : Prop := migration.transaction = some false

instance (migration : Migration Content) : Decidable migration.outsideTransaction :=
  inferInstanceAs (Decidable (_ = _))

structure RunMigrationsOptions where
  (backupSnapshotId lockedBy : Option String)

/-- The statements of a migration. -/
def runScript (version : ℤ) : Script Content → Sql Content Unit
  | .done => pure ()
  | .throws error => throw error
  | .statement change next => do
    let schema : Schema Content ←
      Session.execute (.migrate version change : Statement Content)
    runScript version (next schema)

/-- `migration.up(db)` and the row of its version. -/
def upAndRecord : Sql Content Unit := do
  runScript migration.version migration.up
  let now ← Session.now
  Session.execute (.insertVersion migration.version now : Statement Content)

def applyMigration (migration : Migration Content) : Sql Content Unit :=
  if migration.version ∈ applied then pure ()
  else if migration.outsideTransaction then upAndRecord migration
  else Session.transaction (upAndRecord migration)

def applyMigrations (applied : List ℤ) : List (Migration Content) → Sql Content Unit
  | [] => pure ()
  | migration :: rest => do
    applyMigration applied migration
    applyMigrations applied rest

def verifyFailed (report : MigrationVerificationReport) : JsError :=
  let tables := ",".intercalate report.missingTables
  let indexes := ",".intercalate report.missingIndexes
  JsError.ofMessage (s!"Migration verify failed: missing tables={tables}; " ++
    s!"missing indexes={indexes}; integrity={report.integrityCheck}")

/-- The part of `runMigrations` whose errors mark the lock failed. -/
def migrateUnderLock (pendingMigrations : List (Migration Content)) (lock : MigrationLockRow) :
    Sql Content Unit := do
  updateMigrationLockPhase lock.id .apply
  applyMigrations applied pendingMigrations
  updateMigrationLockPhase lock.id .verify
  let verifyReport ← verifyMigrationState
  if verifyReport.ok then releaseMigrationLock lock.id verifyReport
  else throw (verifyFailed verifyReport)

/-- The error branch: verify once more if possible, mark the lock failed, throw on. -/
def failMigrations (lock : MigrationLockRow) (error : JsError) : Sql Content Unit := do
  let verifyReport ← tryCatch
    (do
      let report ← verifyMigrationState
      pure (some report))
    fun _ => pure none
  failMigrationLock lock.id error.message verifyReport
  throw error

/-- `migration-${Date.now()}-${randomUUID().slice(0, 8)}`. -/
def migrationLockId (now : ℤ) (uuid : String) : String := s!"migration-{now}-{uuid.take 8}"

variable (migrations : List (Migration Content))

def pendingMigrations (applied : List ℤ) : List (Migration Content) :=
  migrations.filter fun migration => migration.version ∉ applied

def runMigrations (pid : ℕ) (options : RunMigrationsOptions) : Sql Content Unit := do
  ensureMigrationSafetyTables
  Session.execute (.createVersionTable : Statement Content)
  let applied : List ℤ ← Session.execute (.selectVersions : Statement Content)
  let pending := pendingMigrations migrations applied
  if pending.isEmpty then pure ()
  else
    match ← getActiveMigrationLock with
    | some _ => pure ()
    | none => do
      let now ← Session.now
      let uuid ← Session.randomUUID
      let lock ← beginMigrationLock pid {
        id := migrationLockId now uuid
        pendingVersions := pending.map (·.version)
        lockedBy := options.lockedBy.filter (· ≠ "")
        backupSnapshotId := options.backupSnapshotId }
      tryCatch (migrateUnderLock applied pending lock) (failMigrations lock)

/-! ## Processes on one database -/

/-- A write as the other parts of the program make them: the guard first. -/
def guardedWrite (operation : String) (change : Schema Content → Schema Content) :
    Sql Content Unit := do
  assertMigrationWriteAllowed operation
  Session.execute (.write operation change : Statement Content)

/-- What a process does on its connection. -/
inductive Call (Content : Type) : Type
  | migrate (pid : ℕ) (options : RunMigrationsOptions)
  | write (operation : String) (change : Schema Content → Schema Content)

def Call.program : Call Content → Sql Content Unit
  | .migrate pid options => runMigrations migrations pid options
  | .write operation change => guardedWrite operation change

/-- An operator takes a lock away that a process left behind. -/
inductive Recovery
  | release (lockId : String) (now : ℤ) (verifyReport : MigrationVerificationReport)
  | fail (lockId : String) (now : ℤ) (error : String)
      (verifyReport : Option MigrationVerificationReport)

def Recovery.lockId : Recovery → String
  | .release lockId _ _ => lockId
  | .fail lockId _ _ _ => lockId

def Recovery.effect (integrity : Content → String) : Recovery → Database Content → Database Content
  | .release lockId now verifyReport, database =>
    (database.run integrity (.releaseLock lockId now verifyReport)).2
  | .fail lockId now error verifyReport, database =>
    (database.run integrity (.failLock lockId now error verifyReport)).2

/-- The connection of a process. -/
abbrev ProcessConnection (Content : Type) :=
  Connection (Call Content) JsError (Database Content) (@Statement.Value Content)

/-- The processes on a database file. -/
abbrev Processes (Content : Type) :=
  System (Call Content) JsError (Database Content) (@Statement.Value Content)

abbrev Step (Content : Type) := Turning (Call Content) Recovery JsError

/-- What one step of a process, a crash or a recovery can do. -/
def step? [DecidableEq Content] (integrity : Content → String)
    (migrations : List (Migration Content)) :
    Processes Content → Step Content → Option (Processes Content) :=
  System.step? (engine integrity) (Recovery.effect integrity) (Call.program migrations)

end Nobie.Db
