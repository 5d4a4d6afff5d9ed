/-
# Migrations are applied in order, whole and once

Every statement of a process has the effect that its stage allows: the rows of the versions
only grow, in the order of the versions and without repetition, a migration in a transaction
is committed whole with its row, and a call returns only for one of three reasons. This holds
however the statements of any number of processes are interleaved.
-/

import Nobie.Db.MigrationStages

namespace Nobie.Db

open Foundation List

variable {Content : Type}

/-! ## What statements change -/

/-- The rows of the two tables and the schema are the same. -/
structure SameContents (before after : Database Content) : Prop where
  locks : after.locks = before.locks
  versions : after.versions = before.versions
  schema : after.schema = before.schema

variable {Result : Type} {value : Result} {lockId : String} {before : Database Content}

section Statements

variable {integrity : Content → String} {database : Database Content}

theorem SameContents.refl (database : Database Content) : SameContents database database :=
  ⟨rfl, rfl, rfl⟩

variable {statement : List MigrationLockRow → Except JsError Result × List MigrationLockRow}
  {error : JsError}

/-- A query of a table, or its failure. -/
theorem sameContents_onLocks (h : ∀ rows, (statement rows).2 = rows) :
    SameContents database (database.onLocks statement).2 := by
  unfold Database.onLocks
  split
  · exact SameContents.refl database
  · next rows hrows => exact ⟨by simp [Database.locks, hrows, h], rfl, rfl⟩

theorem sameContents_onVersions
    {statement : List VersionRow → Except JsError Result × List VersionRow}
    (h : ∀ rows, (statement rows).2 = rows) :
    SameContents database (database.onVersions statement).2 := by
  unfold Database.onVersions
  split
  · exact SameContents.refl database
  · next rows hrows => exact ⟨rfl, by simp [Database.versions, hrows, h], rfl⟩

theorem run_quiet {statement : Statement Content} (hquiet : Quiet statement) :
    SameContents database (database.run integrity statement).2 := by
  cases hquiet with
  | createLockTable | createVersionTable => exact ⟨rfl, rfl, rfl⟩
  | createLockIndex =>
    simp only [Database.run]
    split
    · exact SameContents.refl database
    · exact ⟨rfl, rfl, rfl⟩
  | selectVersions | selectMaxVersion => exact sameContents_onVersions fun _ => rfl
  | selectActiveLock => exact sameContents_onLocks fun _ => rfl
  | selectObject | integrityCheck => exact SameContents.refl database

/-- A statement on a table succeeds only on a table that exists. -/
theorem onLocks_ok (h : (database.onLocks statement).1 = .ok value) :
    (statement database.locks).1 = .ok value ∧ (database.onLocks statement).2 =
        { database with lockRows := some (statement database.locks).2 } := by
  unfold Database.onLocks at h ⊢
  split at h
  · cases h
  · next rows hrows => simpa [Database.locks, hrows] using h

theorem onVersions_ok {statement : List VersionRow → Except JsError Result × List VersionRow}
    (h : (database.onVersions statement).1 = .ok value) :
    (statement (database.versionRows.getD [])).1 = .ok value ∧ (database.onVersions statement).2 =
        { database with versionRows := some (statement (database.versionRows.getD [])).2 } := by
  unfold Database.onVersions at h ⊢
  split at h
  · cases h
  · next rows hrows => simpa [hrows] using h

theorem run_selectVersions {versions : List ℤ}
    (h : (database.run integrity .selectVersions).1 = .ok versions) :
    ∀ version, version ∈ versions ↔ version ∈ database.versions := by
  intro version
  have hanswer := (onVersions_ok h).1
  rw [← Except.ok.inj hanswer, mem_insertionSort]
  rfl

theorem run_selectActiveLock {lock : Option MigrationLockRow}
    (h : (database.run integrity .selectActiveLock).1 = .ok lock) :
    lock = Database.mostRecent database.activeLocks :=
  (Except.ok.inj (onLocks_ok h).1).symm

/-- Updates of the lock table change nothing else. -/
theorem run_updateLocks {change : MigrationLockRow → MigrationLockRow} {value : Unit}
    (h : (database.onLocks (Database.updateLocks lockId change)).1 = .ok value) :
    (database.onLocks (Database.updateLocks lockId change)).2 =
      { database with
        lockRows :=
          some (database.locks.map fun row => if row.id = lockId then change row else row) } :=
  (onLocks_ok h).2

theorem run_insertLock {row : MigrationLockRow}
    (h : (database.run integrity (.insertLock row)).1 = .ok ()) :
    (database.run integrity (.insertLock row)).2 =
      { database with lockRows := some (database.locks ++ [row]) } := by
  obtain ⟨hanswer, hafter⟩ := onLocks_ok h
  refine hafter.trans ?_
  split at hanswer
  · cases hanswer
  · next hnew => rw [if_neg hnew]

/-- The row of a version is new, or the statement fails. -/
theorem run_insertVersion {version now : ℤ}
    (h : (database.run integrity (.insertVersion version now)).1 = .ok ()) :
    version ∉ database.versions ∧ (database.run integrity (.insertVersion version now)).2 =
        { database with
          versionRows := some (database.versionRows.getD [] ++ [⟨version, now⟩]) } := by
  obtain ⟨hanswer, hafter⟩ := onVersions_ok h
  split at hanswer
  · cases hanswer
  · next hnew => exact ⟨hnew, hafter.trans (by rw [if_neg hnew])⟩

/-- A statement that fails on a table changes nothing if it fails on all its rows so. -/
theorem sameContents_onLocks_error (h : (database.onLocks statement).1 = .error error)
    (hkeep : ∀ rows, (statement rows).1 = .error error → (statement rows).2 = rows) :
    SameContents database (database.onLocks statement).2 := by
  unfold Database.onLocks at h ⊢
  split at h
  · exact SameContents.refl database
  · next rows hrows => exact ⟨by simp [Database.locks, hrows, hkeep rows h], rfl, rfl⟩

theorem sameContents_onVersions_error
    {statement : List VersionRow → Except JsError Result × List VersionRow}
    (h : (database.onVersions statement).1 = .error error)
    (hkeep : ∀ rows, (statement rows).1 = .error error → (statement rows).2 = rows) :
    SameContents database (database.onVersions statement).2 := by
  unfold Database.onVersions at h ⊢
  split at h
  · exact SameContents.refl database
  · next rows hrows => exact ⟨rfl, by simp [Database.versions, hrows, hkeep rows h], rfl⟩

/-- A statement that fails changes nothing. -/
theorem run_error {statement : Statement Content}
    (h : (database.run integrity statement).1 = .error error) :
    SameContents database (database.run integrity statement).2 := by
  cases statement with
  | createLockTable => exact run_quiet .createLockTable
  | createLockIndex => exact run_quiet .createLockIndex
  | createVersionTable => exact run_quiet .createVersionTable
  | selectVersions => exact run_quiet .selectVersions
  | selectActiveLock => exact run_quiet .selectActiveLock
  | selectObject type name => exact run_quiet (.selectObject type name)
  | integrityCheck => exact run_quiet .integrityCheck
  | selectMaxVersion => exact run_quiet .selectMaxVersion
  | insertLock row =>
    refine sameContents_onLocks_error h fun rows hrows => ?_
    split at hrows
    · next hmem => rw [if_pos hmem]
    · cases hrows
  | updateLockPhase | releaseLock | failLock => exact sameContents_onLocks_error h nofun
  | insertVersion version now =>
    refine sameContents_onVersions_error h fun rows hrows => ?_
    split at hrows
    · next hmem => rw [if_pos hmem]
    · cases hrows
  | migrate | write => exact nomatch h

end Statements

/-! ## What holds at a stage -/

variable (log : Log Content)

/-- The process has inserted a lock with this id. -/
def Owns (lockId : String) : Prop :=
  ∃ row : MigrationLockRow, row.id = lockId ∧ Exchange.returned (.insertLock row) () ∈ log

/-- The process has not inserted a lock. -/
def NoLock : Prop := ∀ row : MigrationLockRow, Exchange.returned (.insertLock row) () ∉ log

/-- The process has found no active lock and has not inserted one. -/
def Checked : Prop := Exchange.returned .selectActiveLock none ∈ log ∧ NoLock log

/-- The exchanges are the statements of a script up to the rest, without a failure. -/
inductive Leads (version : ℤ) : Script Content → Log Content → Script Content → Prop
  | start (script : Script Content) : Leads version script [] script
  | next {script : Script Content} {entries : Log Content}
      {change : Schema Content → Schema Content} {next : Schema Content → Script Content}
      (hprior : Leads version script entries (.statement change next))
      (schema : Schema Content) :
      Leads version script (entries ++ [Exchange.returned (.migrate version change) schema])
        (next schema)

/-- The last things a process did are the statements of `up`, all of them, and to read the
clock. -/
def RanToEnd (migration : Migration Content) (log : Log Content) : Prop :=
  ∃ earlier entries time, log = earlier ++ entries ++ [⟨.now, time⟩] ∧
    Leads migration.version migration.up entries .done

namespace Stage

/-- The versions that a process knows to have rows. -/
def known : Stage Content → List ℤ
  | looked versions => versions
  | checked versions => versions
  | locked versions _ => versions
  | holding _ known => known
  | running _ known _ _ => known
  | ran _ known _ => known
  | within _ known _ _ => known
  | recorded _ known _ => known
  | released known => known
  | _ => []

/-- What the process did so far. -/
def Did : Stage Content → Log Content → Prop
  | opening, log => NoLock log
  | looked versions, log => NoLock log ∧ Exchange.returned .selectVersions versions ∈ log
  | checked versions, log => Checked log ∧ Exchange.returned .selectVersions versions ∈ log
  | locked _ own, log => Owns log own
  | holding hold _, log => ∀ own ∈ hold.own, Owns log own
  | running hold _ migration rest, log => (∀ own ∈ hold.own, Owns log own) ∧
      ∃ earlier entries, log = earlier ++ entries ∧
        Leads migration.version migration.up entries rest
  | ran hold _ migration, log => (∀ own ∈ hold.own, Owns log own) ∧ RanToEnd migration log
  | within hold _ _ _, log => ∀ own ∈ hold.own, Owns log own
  | recorded hold _ _, log => ∀ own ∈ hold.own, Owns log own
  | guarding, log => NoLock log
  | cleared, log => Checked log
  | _, _ => True

end Stage

/-- The copy of a transaction in the middle of a migration, against what the transaction
found. -/
structure Follows (migration : Migration Content) (known : List ℤ) (rest : Script Content)
    (transaction : Transaction (Database Content)) (database : Database Content) : Prop where
  begun : transaction = .begun → rest = migration.up
  known : known ⊆ (transaction.base database).versions
  locks : (transaction.copy database).locks = (transaction.base database).locks
  versions : (transaction.copy database).versions = (transaction.base database).versions
  outcome : rest.outcome (transaction.copy database).schema =
    migration.up.outcome (transaction.base database).schema

/-- The copy of a transaction that holds the whole migration and its row. -/
structure Completes (migration : Migration Content) (known : List ℤ)
    (base copy : Database Content) : Prop where
  known : known ⊆ base.versions
  locks : copy.locks = base.locks
  fresh : migration.version ∉ base.versions
  versions : copy.versions = base.versions ++ [migration.version]
  outcome : migration.up.outcome base.schema = some copy.schema

/-- The transaction that is open at a stage. -/
def Stage.Works (migrations : List (Migration Content)) (database : Database Content) :
    Stage Content → Option (Transaction (Database Content)) → Prop
  | running _ known migration _, transaction =>
    transaction = none ∧ Due migrations known migration ∧ migration.outsideTransaction
  | ran _ known migration, transaction =>
    transaction = none ∧ Due migrations known migration ∧ migration.outsideTransaction
  | within _ known migration rest, transaction =>
    Due migrations known migration ∧ ¬ migration.outsideTransaction ∧
      ∃ opened, transaction = some opened ∧ Follows migration known rest opened database
  | recorded _ known migration, transaction =>
    Due migrations known migration ∧ ¬ migration.outsideTransaction ∧
      ∃ base copy, transaction = some (.opened base copy) ∧ Completes migration known base copy
  | _, transaction => transaction = none

/-- What holds of a process at a stage. -/
structure Assert (migrations : List (Migration Content)) (stage : Stage Content)
    (database : Database Content) (transaction : Option (Transaction (Database Content)))
    (log : Log Content) : Prop where
  known : stage.known ⊆ database.versions
  did : stage.Did log
  works : stage.Works migrations database transaction

section Stages

variable {migrations : List (Migration Content)} {stage : Stage Content}
  {database database' : Database Content} {transaction : Option (Transaction (Database Content))}
  {log : Log Content} {exchange : Exchange (@Statement.Value Content) JsError}

@[simp]
theorem Stage.known_settled (stage : Stage Content) : stage.settled.known = stage.known := by
  cases stage <;> rfl

theorem Owns.append (h : Owns log lockId) (exchange) : Owns (log ++ [exchange]) lockId := by
  obtain ⟨row, hid, hmem⟩ := h
  exact ⟨row, hid, mem_append_left _ hmem⟩

/-- Is the command the insertion of a lock? -/
def insertsLock : Command (Statement Content) → Bool
  | .execute (.insertLock _) => true
  | _ => false

/-- Exchanges of other commands are no insertion of a lock. -/
theorem ne_insertLock {command : Command (Statement Content)}
    (hcommand : insertsLock command = false)
    (answer : command.Answer (@Statement.Value Content) JsError) (row : MigrationLockRow) :
    (⟨command, answer⟩ : Exchange (@Statement.Value Content) JsError) ≠
      Exchange.returned (.insertLock row) () := by
  intro heq
  have hsame : command = .execute (.insertLock row) := congrArg Sigma.fst heq
  rw [hsame] at hcommand
  cases hcommand

theorem NoLock.append (h : NoLock log)
    (hother : ∀ row : MigrationLockRow, exchange ≠ Exchange.returned (.insertLock row) ()) :
    NoLock (log ++ [exchange]) := by
  intro row hmem
  obtain hmem | hlast := mem_append.mp hmem
  · exact h row hmem
  · exact hother row (mem_singleton.mp hlast).symm

theorem Checked.append (h : Checked log)
    (hother : ∀ row : MigrationLockRow, exchange ≠ Exchange.returned (.insertLock row) ()) :
    Checked (log ++ [exchange]) :=
  ⟨mem_append_left _ h.1, h.2.append hother⟩

/-- A command that inserts no lock leaves a stage or settles it. -/
theorem Stage.Did.settle (h : stage.Did log)
    (hother : ∀ row : MigrationLockRow, exchange ≠ Exchange.returned (.insertLock row) ()) :
    stage.settled.Did (log ++ [exchange]) := by
  have howns : ∀ hold : Hold, (∀ own ∈ hold.own, Owns log own) →
      ∀ own ∈ hold.own, Owns (log ++ [exchange]) own :=
    fun hold hown own hmem => (hown own hmem).append exchange
  cases stage with
  | opening | guarding => exact NoLock.append h hother
  | looked versions => exact ⟨NoLock.append h.1 hother, mem_append_left _ h.2⟩
  | checked versions => exact ⟨Checked.append h.1 hother, mem_append_left _ h.2⟩
  | locked versions own => exact Owns.append h exchange
  | holding hold known => exact howns hold h
  | running hold known migration rest => exact howns hold h.1
  | ran hold known migration => exact howns hold h.1
  | within hold known migration rest => exact howns hold h
  | recorded hold known migration => exact howns hold h
  | released | failed | written => trivial
  | cleared => exact Checked.append h hother

namespace Assert

section

variable (h : Assert migrations stage database transaction log)
include h

/-- What others commit does not disturb a process, as version rows only grow. -/
theorem stable
    (hgrows : database.versions ⊆ database'.versions) :
    Assert migrations stage database' transaction log where
  known := List.Subset.trans h.known hgrows
  did := h.did
  works := by
    have hworks := h.works
    cases stage with
    | within hold known migration rest =>
      obtain ⟨hdue, hinside, opened, hopened, hfollows⟩ := hworks
      refine ⟨hdue, hinside, opened, hopened, ?_⟩
      cases opened with
      | begun =>
        obtain rfl := hfollows.begun rfl
        exact ⟨fun _ => rfl, List.Subset.trans hfollows.known hgrows, rfl, rfl, rfl⟩
      | opened base copy => exact ⟨nofun, hfollows.known, hfollows.locks, hfollows.versions,
          hfollows.outcome⟩
    | _ => exact hworks

/-- No transaction is open outside one. -/
theorem transaction_eq
    (houtside : stage.Outside) : transaction = none := by
  have hworks := h.works
  cases stage with
  | within | recorded => exact houtside.elim
  | running | ran => exact hworks.1
  | _ => exact hworks

theorem settle (houtside : stage.Outside)
    (hversions : database'.versions = database.versions)
    (hother : ∀ row : MigrationLockRow, exchange ≠ Exchange.returned (.insertLock row) ()) :
    Assert migrations stage.settled database' none (log ++ [exchange]) where
  known := by
    rw [Stage.known_settled, hversions]
    exact h.known
  did := h.did.settle hother
  works := by
    cases stage with
    | within | recorded => exact houtside.elim
    | _ => rfl

end

end Assert

/-- The rest of a migration outside a transaction, with what the process did before. -/
theorem Before.leads {hold : Hold} {known : List ℤ} {migration : Migration Content}
    {rest : Script Content} (hbefore : Before migrations stage hold known migration rest)
    (hassert : Assert migrations stage database transaction log) :
    transaction = none ∧ known ⊆ database.versions ∧ Due migrations known migration ∧
      migration.outsideTransaction ∧ (∀ own ∈ hold.own, Owns log own) ∧
      ∃ earlier entries, log = earlier ++ entries ∧
        Leads migration.version migration.up entries rest := by
  cases hbefore with
  | start hdue houtside =>
    exact ⟨hassert.works, hassert.known, hdue, houtside, hassert.did, log, [],
      (append_nil log).symm, .start _⟩
  | running =>
    exact ⟨hassert.works.1, hassert.known, hassert.works.2.1, hassert.works.2.2,
      hassert.did.1, hassert.did.2⟩

/-- The exchange after a command at a stage that stays as it is. -/
theorem Assert.append (h : Assert migrations stage database transaction log)
    (hsettled : stage.settled = stage)
    (hother : ∀ row : MigrationLockRow, exchange ≠ Exchange.returned (.insertLock row) ()) :
    Assert migrations stage database transaction (log ++ [exchange]) where
  known := h.known
  did := hsettled ▸ h.did.settle hother
  works := h.works

end Stages

/-! ## What a command changes -/

section Changes

variable (migrations : List (Migration Content))

/-- The row of a migration is added: none was there, all lower migrations have theirs, and
with it comes the whole of `up`, or, outside a transaction, `up` has just been run. -/
structure RecordsMigration (log : Log Content) (migration : Migration Content)
    (before after : Database Content) : Prop where
  mem : migration ∈ migrations
  fresh : migration.version ∉ before.versions
  lower : ∀ other ∈ migrations, other.version < migration.version → other.version ∈ before.versions
  added : after.versions = before.versions ++ [migration.version]
  whole : ¬ migration.outsideTransaction → migration.up.outcome before.schema = some after.schema
  apart : migration.outsideTransaction → after.schema = before.schema ∧ RanToEnd migration log

/-- What a command can do to the version rows and the schema. -/
inductive ContentsChange (transaction : Option (Transaction (Database Content)))
    (log : Log Content) (command : Command (Statement Content))
    (before after : Database Content) : Prop
  | same (hversions : after.versions = before.versions) (hschema : after.schema = before.schema)
  | records (migration : Migration Content)
      (hrecords : RecordsMigration migrations log migration before after)
  | migrates (migration : Migration Content) (change : Schema Content → Schema Content)
      (hcommand : command = .execute (.migrate migration.version change))
      (hmem : migration ∈ migrations) (houtside : migration.outsideTransaction)
      (hlower : ∀ other ∈ migrations, other.version < migration.version →
        other.version ∈ before.versions)
      (htransaction : transaction = none) (hversions : after.versions = before.versions)
  | writes (operation : String) (change : Schema Content → Schema Content)
      (hcommand : command = .execute (.write operation change))
      (hversions : after.versions = before.versions)

end Changes

theorem ContentsChange.of_same {migrations : List (Migration Content)}
    {transaction : Option (Transaction (Database Content))} {log : Log Content}
    {command : Command (Statement Content)} {after : Database Content}
    (h : SameContents before after) :
    ContentsChange migrations transaction log command before after :=
  .same h.versions h.schema

section Effects

variable [DecidableEq Content] {integrity : Content → String}
  {surroundings : Surroundings JsError} {database : Database Content}

theorem perform_quiet {statement : Statement Content} (hquiet : Quiet statement) :
    SameContents database ((engine integrity).perform surroundings (.execute statement) database
        none).database ∧
      ((engine integrity).perform surroundings (.execute statement) database none).transaction =
        none := by
  obtain ⟨error, hfailed⟩ | hrun :=
    (engine integrity).perform_execute surroundings statement database none
  · rw [hfailed]
    exact ⟨SameContents.refl database, rfl⟩
  · rw [hrun]
    exact ⟨run_quiet hquiet, rfl⟩

theorem perform_error {statement : Statement Content} {error : JsError}
    (h : ((engine integrity).perform surroundings (.execute statement) database none).answer =
      .error error) :
    SameContents database ((engine integrity).perform surroundings (.execute statement) database
        none).database ∧
      ((engine integrity).perform surroundings (.execute statement) database none).transaction =
        none := by
  obtain ⟨error', hfailed⟩ | hrun :=
    (engine integrity).perform_execute surroundings statement database none
  · rw [hfailed]
    exact ⟨SameContents.refl database, rfl⟩
  · rw [hrun] at h ⊢
    exact ⟨run_error h, rfl⟩

/-- A failed statement inside a transaction leaves the copy with the same contents. -/
theorem perform_error_within {statement : Statement Content} {error : JsError}
    {opened : Transaction (Database Content)}
    (h : ((engine integrity).perform surroundings (.execute statement) database
      (some opened)).answer = .error error) :
    ((engine integrity).perform surroundings (.execute statement) database
        (some opened)).database = database ∧
      ∃ opened', ((engine integrity).perform surroundings (.execute statement) database
          (some opened)).transaction = some opened' ∧
        (opened' = opened ∨ ∃ copy, opened' = .opened (opened.base database) copy ∧
          SameContents (opened.copy database) copy) := by
  obtain ⟨error', hfailed⟩ | hrun :=
    (engine integrity).perform_execute surroundings statement database (some opened)
  · rw [hfailed]
    exact ⟨rfl, opened, rfl, .inl rfl⟩
  · rw [hrun] at h ⊢
    exact ⟨rfl, _, rfl, .inr ⟨_, rfl, run_error h⟩⟩

variable {migrations : List (Migration Content)} {stage after : Stage Content}
  {transaction : Option (Transaction (Database Content))} {log : Log Content}

/-- A statement that failed settles its stage. -/
theorem Assert.error {statement : Statement Content} {error : JsError}
    {performed : Performed (Except JsError statement.Value) (Database Content)}
    (hassert : Assert migrations stage database transaction log)
    (hperformed : (engine integrity).perform surroundings (.execute statement) database
      transaction = performed)
    (hanswer : performed.answer = .error error) :
    Assert migrations stage.settled performed.database performed.transaction
        (log ++ [⟨.execute statement, .error error⟩]) ∧
      SameContents database performed.database := by
  have hother : ∀ row : MigrationLockRow,
      (⟨.execute statement, .error error⟩ : Exchange (@Statement.Value Content) JsError) ≠
        Exchange.returned (.insertLock row) () := by
    intro row heq
    cases heq
  subst hperformed
  by_cases houtside : stage.Outside
  · obtain rfl := hassert.transaction_eq houtside
    obtain ⟨hsame, hnone⟩ := perform_error hanswer
    rw [hnone]
    exact ⟨hassert.settle houtside hsame.versions hother, hsame⟩
  · cases stage with
    | within hold known migration rest =>
      obtain ⟨hdue, hinside, opened, rfl, hfollows⟩ := hassert.works
      obtain ⟨hdatabase, opened', hopened, hcopy⟩ := perform_error_within hanswer
      rw [hdatabase, hopened]
      refine ⟨⟨hassert.known, hassert.did.settle hother, hdue, hinside, opened', rfl, ?_⟩,
        SameContents.refl database⟩
      obtain rfl | ⟨copy, rfl, hsame⟩ := hcopy
      · exact hfollows
      · exact ⟨nofun, hfollows.known, hsame.locks.trans hfollows.locks,
          hsame.versions.trans hfollows.versions,
          (congrArg rest.outcome hsame.schema).trans hfollows.outcome⟩
    | recorded hold known migration =>
      obtain ⟨hdue, hinside, base, copy, rfl, hcompletes⟩ := hassert.works
      obtain ⟨hdatabase, opened', hopened, hcopy⟩ := perform_error_within hanswer
      rw [hdatabase, hopened]
      obtain rfl | ⟨copy', rfl, hsame⟩ := hcopy
      · exact ⟨⟨hassert.known, hassert.did.settle hother, hdue, hinside, base, copy, rfl,
          hcompletes⟩, SameContents.refl database⟩
      · refine ⟨⟨hassert.known, hassert.did.settle hother, hdue, hinside, base, copy', rfl, ?_⟩,
          SameContents.refl database⟩
        exact ⟨hcompletes.known, hsame.locks.trans hcompletes.locks, hcompletes.fresh,
          hsame.versions.trans hcompletes.versions,
          hcompletes.outcome.trans (congrArg some hsame.schema.symm)⟩
    | _ => exact absurd trivial houtside

/-- A process keeps what holds at its stages, and changes what its moves allow. -/
theorem Moves.keeps {command : Command (Statement Content)}
    {answer : command.Answer (@Statement.Value Content) JsError}
    {performed : Performed (command.Answer (@Statement.Value Content) JsError) (Database Content)}
    (hmove : Moves migrations stage command answer after)
    (hassert : Assert migrations stage database transaction log)
    (hperformed : (engine integrity).perform surroundings command database transaction = performed)
    (hanswer : performed.answer = answer) :
    Assert migrations after performed.database performed.transaction (log ++ [⟨command, answer⟩]) ∧
      ContentsChange migrations transaction log command database performed.database := by
  cases hmove with
  | @quiet _ statement answer hquiet houtside =>
    obtain rfl := hassert.transaction_eq houtside
    obtain ⟨hsame, hnone⟩ := @perform_quiet _ _ integrity surroundings database _ hquiet
    rw [hperformed] at hsame hnone
    rw [hnone]
    have hother : insertsLock (.execute statement) = false := by cases hquiet <;> rfl
    exact ⟨hassert.settle houtside hsame.versions (ne_insertLock hother _), .of_same hsame⟩
  | error error =>
    obtain ⟨hafter, hsame⟩ := hassert.error hperformed hanswer
    exact ⟨hafter, .of_same hsame⟩
  | now time hsettled =>
    subst hperformed
    exact ⟨hassert.append hsettled (ne_insertLock rfl _), .of_same (SameContents.refl database)⟩
  | uuid text hsettled =>
    subst hperformed
    exact ⟨hassert.append hsettled (ne_insertLock rfl _), .of_same (SameContents.refl database)⟩
  | look versions =>
    obtain rfl : transaction = none := hassert.works
    obtain ⟨hrun, hdatabase, htransaction⟩ := Engine.perform_execute_ok hperformed hanswer
    have hsame : SameContents database performed.database := hdatabase ▸ run_quiet .selectVersions
    refine ⟨⟨?_, ⟨NoLock.append hassert.did (ne_insertLock rfl _), ?_⟩, htransaction⟩,
      .of_same hsame⟩
    · intro version hmem
      rw [hsame.versions]
      exact (@run_selectVersions _ integrity _ _ hrun version).mp hmem
    · exact mem_append_cons_self
  | check versions =>
    obtain rfl : transaction = none := hassert.works
    obtain ⟨hrun, hdatabase, htransaction⟩ := Engine.perform_execute_ok hperformed hanswer
    have hsame : SameContents database performed.database := hdatabase ▸ run_quiet .selectActiveLock
    refine ⟨⟨?_, ⟨⟨?_, NoLock.append hassert.did.1 (ne_insertLock rfl _)⟩, ?_⟩, htransaction⟩,
      .of_same hsame⟩
    · rw [hsame.versions]
      exact hassert.known
    · exact mem_append_cons_self
    · exact mem_append_left _ hassert.did.2
  | insert versions row hactive =>
    obtain rfl : transaction = none := hassert.works
    obtain ⟨hrun, hdatabase, htransaction⟩ := Engine.perform_execute_ok hperformed hanswer
    have hafter : performed.database =
        { database with lockRows := some (database.locks ++ [row]) } :=
      hdatabase.trans (@run_insertLock _ integrity _ _ hrun)
    rw [hafter]
    exact ⟨⟨hassert.known, ⟨row, rfl, mem_append_cons_self⟩, htransaction⟩, .same rfl rfl⟩
  | take versions row =>
    obtain rfl : transaction = none := hassert.works
    obtain ⟨hrun, hdatabase, htransaction⟩ := Engine.perform_execute_ok hperformed hanswer
    have hsame : SameContents database performed.database := hdatabase ▸ run_quiet .selectActiveLock
    refine ⟨⟨?_, nofun, htransaction⟩, .of_same hsame⟩
    rw [hsame.versions]
    exact hassert.known
  | confirm versions own row =>
    obtain rfl : transaction = none := hassert.works
    obtain ⟨hrun, hdatabase, htransaction⟩ := Engine.perform_execute_ok hperformed hanswer
    have hsame : SameContents database performed.database := hdatabase ▸ run_quiet .selectActiveLock
    refine ⟨⟨?_, ?_, htransaction⟩, .of_same hsame⟩
    · rw [hsame.versions]
      exact hassert.known
    · rintro _ ⟨⟩
      exact Owns.append hassert.did _
  | phase hold known phase now =>
    obtain rfl : transaction = none := hassert.works
    obtain ⟨hrun, hdatabase, htransaction⟩ := Engine.perform_execute_ok hperformed hanswer
    rw [hdatabase.trans (run_updateLocks hrun), htransaction]
    exact ⟨hassert.settle trivial rfl (ne_insertLock rfl _), .same rfl rfl⟩
  | @migrate _ hold known migration change next schema hbefore =>
    obtain ⟨rfl, hknown, hdue, houtside, hown, earlier, entries, rfl, hleads⟩ :=
      hbefore.leads hassert
    obtain ⟨-, hdatabase, htransaction⟩ := Engine.perform_execute_ok hperformed hanswer
    have hversions : performed.database.versions = database.versions := by
      rw [hdatabase]
      rfl
    refine ⟨⟨?_, ⟨fun own hmem => (hown own hmem).append _, earlier, _,
        append_assoc .., hleads.next schema⟩, htransaction, hdue, houtside⟩,
      .migrates migration change rfl hdue.mem houtside
        (fun other hother hlower => hknown (hdue.lower other hother hlower)) rfl hversions⟩
    rw [hversions]
    exact hknown
  | @clock _ hold known migration time hbefore =>
    obtain ⟨rfl, hknown, hdue, houtside, hown, earlier, entries, rfl, hleads⟩ :=
      hbefore.leads hassert
    subst hperformed
    exact ⟨⟨hknown, ⟨fun own hmem => (hown own hmem).append _, earlier, entries, time, rfl,
      hleads⟩, rfl, hdue, houtside⟩, .of_same (SameContents.refl database)⟩
  | record hold known migration now =>
    obtain ⟨rfl, hdue, houtside⟩ := hassert.works
    obtain ⟨hrun, hdatabase, htransaction⟩ := Engine.perform_execute_ok hperformed hanswer
    obtain ⟨hfresh, hinserted⟩ := @run_insertVersion _ integrity _ _ _ hrun
    have hadded : performed.database.versions = database.versions ++ [migration.version] := by
      rw [hdatabase.trans hinserted]
      simp [Database.versions]
    have hschema : performed.database.schema = database.schema := by rw [hdatabase.trans hinserted]
    refine ⟨⟨?_, fun own hmem => (hassert.did.1 own hmem).append _, htransaction⟩,
      .records migration {
        mem := hdue.mem
        fresh := hfresh
        lower := fun other hother hlower => hassert.known (hdue.lower other hother hlower)
        added := hadded
        whole := fun hinside => absurd houtside hinside
        apart := fun _ => ⟨hschema, hassert.did.2⟩ }⟩
    rw [hadded]
    exact append_subset.mpr ⟨List.Subset.trans hassert.known (subset_append_left ..),
      subset_append_right ..⟩
  | @begin hold known migration hdue hinside =>
    obtain rfl : transaction = none := hassert.works
    obtain ⟨hdatabase, htransaction⟩ := Engine.perform_begin_ok hperformed hanswer
    rw [hdatabase, htransaction]
    exact ⟨⟨hassert.known, fun own hmem => (hassert.did own hmem).append _, hdue, hinside, _,
      rfl, fun _ => rfl, hassert.known, rfl, rfl, rfl⟩,
      .of_same (SameContents.refl database)⟩
  | beginError hold known error =>
    obtain ⟨hdatabase, htransaction⟩ := Engine.perform_begin_error hperformed hanswer
    rw [hdatabase, htransaction]
    exact ⟨hassert.append rfl (ne_insertLock rfl _), .of_same (SameContents.refl database)⟩
  | @migrateWithin hold known migration change next schema =>
    obtain ⟨hdue, hinside, opened, rfl, hfollows⟩ := hassert.works
    obtain ⟨hrun, hdatabase, htransaction⟩ := Engine.perform_execute_ok_within hperformed hanswer
    obtain rfl : change (opened.copy database).schema = schema := Except.ok.inj hrun
    rw [hdatabase, htransaction]
    exact ⟨⟨hassert.known, hassert.did.settle (ne_insertLock rfl _), hdue, hinside, _, rfl, nofun,
      hfollows.known, hfollows.locks, hfollows.versions, hfollows.outcome⟩,
      .of_same (SameContents.refl database)⟩
  | recordWithin hold known migration now =>
    obtain ⟨hdue, hinside, opened, rfl, hfollows⟩ := hassert.works
    obtain ⟨hrun, hdatabase, htransaction⟩ := Engine.perform_execute_ok_within hperformed hanswer
    obtain ⟨hfresh, hinserted⟩ := @run_insertVersion _ integrity _ _ _ hrun
    rw [hdatabase, htransaction]
    refine ⟨⟨hassert.known, hassert.did.settle (ne_insertLock rfl _), hdue, hinside, _, _, rfl,
      ?_⟩, .of_same (SameContents.refl database)⟩
    have hadded : ((engine integrity).run (.insertVersion migration.version now)
        (opened.copy database)).2.versions =
          (opened.copy database).versions ++ [migration.version] := by
      rw [show ((engine integrity).run (.insertVersion migration.version now)
        (opened.copy database)).2 = _ from hinserted]
      simp [Database.versions]
    exact {
      known := hfollows.known
      locks := (congrArg Database.locks hinserted).trans hfollows.locks
      fresh := hfollows.versions ▸ hfresh
      versions := hadded.trans (congrArg (· ++ [migration.version]) hfollows.versions)
      outcome := hfollows.outcome.symm.trans (congrArg (some ∘ Database.schema) hinserted).symm }
  | commit hold known migration =>
    obtain ⟨hdue, hinside, base, copy, rfl, hcompletes⟩ := hassert.works
    obtain ⟨rfl, hdatabase, htransaction⟩ := Engine.perform_commit_ok hperformed hanswer
    rw [hdatabase]
    refine ⟨⟨?_, fun own hmem => (hassert.did own hmem).append _, htransaction⟩,
      .records migration {
        mem := hdue.mem
        fresh := hcompletes.fresh
        lower := fun other hother hlower => hassert.known (hdue.lower other hother hlower)
        added := hcompletes.versions
        whole := fun _ => hcompletes.outcome
        apart := fun houtside => absurd houtside hinside }⟩
    rw [hcompletes.versions]
    exact append_subset.mpr ⟨List.Subset.trans hassert.known (subset_append_left ..),
      subset_append_right ..⟩
  | commitError hold known migration error =>
    obtain ⟨hdue, hinside, base, copy, rfl, hcompletes⟩ := hassert.works
    obtain ⟨hdatabase, htransaction⟩ := Engine.perform_commit_error hperformed hanswer
    rw [hdatabase, htransaction]
    exact ⟨hassert.append rfl (ne_insertLock rfl _), .of_same (SameContents.refl database)⟩
  | rollbackWithin | rollbackRecorded =>
    subst hperformed
    exact ⟨⟨hassert.known, fun own hmem => (hassert.did own hmem).append _, rfl⟩,
      .of_same (SameContents.refl database)⟩
  | release hold known now report =>
    obtain rfl : transaction = none := hassert.works
    obtain ⟨hrun, hdatabase, htransaction⟩ := Engine.perform_execute_ok hperformed hanswer
    rw [hdatabase.trans (run_updateLocks hrun)]
    exact ⟨⟨hassert.known, trivial, htransaction⟩, .same rfl rfl⟩
  | fail hold known now error report =>
    obtain rfl : transaction = none := hassert.works
    obtain ⟨hrun, hdatabase, htransaction⟩ := Engine.perform_execute_ok hperformed hanswer
    rw [hdatabase.trans (run_updateLocks hrun)]
    exact ⟨⟨nil_subset _, trivial, htransaction⟩, .same rfl rfl⟩
  | guard =>
    obtain rfl : transaction = none := hassert.works
    obtain ⟨-, hdatabase, htransaction⟩ := Engine.perform_execute_ok hperformed hanswer
    have hsame : SameContents database performed.database := hdatabase ▸ run_quiet .selectActiveLock
    exact ⟨⟨nil_subset _, ⟨mem_append_cons_self,
      NoLock.append hassert.did (ne_insertLock rfl _)⟩, htransaction⟩, .of_same hsame⟩
  | write operation change =>
    obtain rfl : transaction = none := hassert.works
    obtain ⟨-, hdatabase, htransaction⟩ := Engine.perform_execute_ok hperformed hanswer
    have hversions : performed.database.versions = database.versions := by
      rw [hdatabase]
      rfl
    exact ⟨⟨nil_subset _, trivial, htransaction⟩, .writes operation change rfl hversions⟩

end Effects

/-! ## Runs -/

/-- What a step can do to the version rows and the schema: nothing, unless a process performs
a command that does. -/
inductive ContentsStep (migrations : List (Migration Content)) (before : Processes Content)
    (step : Step Content) (after : Processes Content) : Prop
  | same (hversions : after.database.versions = before.database.versions)
      (hschema : after.database.schema = before.database.schema)
  | performs (process : ℕ) (surroundings : Surroundings JsError)
      (connection : ProcessConnection Content)
      (command : Command (Statement Content))
      (rest : command.Answer Statement.Value JsError → Work Statement.Value JsError Unit)
      (hstep : step = .advance process surroundings)
      (hconnection : before.connections process = some connection)
      (hrest : connection.rest = .perform command rest)
      (hchange : ContentsChange migrations connection.transaction connection.log command
        before.database after.database)

/-- A call of `runMigrations` that returned has found an active lock, or every migration has
its row: it had when the call looked, or the database was verified. -/
def ReturnsSoundly (migrations : List (Migration Content)) (system : Processes Content) : Prop :=
  ∀ process connection pid options, system.connections process = some connection →
    connection.call = .migrate pid options → connection.rest = .finish (.ok ()) →
    (∃ lock, connection.log.getLast? = some (Exchange.returned .selectActiveLock (some lock))) ∨
    (∀ migration ∈ migrations, migration.version ∈ system.database.versions) ∧
      ((∃ applied : List ℤ, Exchange.returned .selectVersions applied ∈ connection.log ∧
        ∀ migration ∈ migrations, migration.version ∈ applied) ∨ Verified connection.log)

/-- What holds of every process at its stage. -/
def Asserted (migrations : List (Migration Content)) (stages : ℕ → Stage Content)
    (system : Processes Content) : Prop :=
  ∀ process connection, system.connections process = some connection →
    Assert migrations (stages process) system.database connection.transaction connection.log

section Runs

variable {integrity : Content → String} {migrations : List (Migration Content)}
  {stages : ℕ → Stage Content} {system : Processes Content}

theorem assert_initial (call : Call Content) (database : Database Content) :
    Assert migrations (initial call) database none [] := by
  cases call with
  | migrate | write => exact ⟨nil_subset _, fun _ => not_mem_nil, rfl⟩

theorem ContentsChange.versions_subset {transaction : Option (Transaction (Database Content))}
    {log : Log Content} {command : Command (Statement Content)} {after : Database Content}
    (h : ContentsChange migrations transaction log command before after) :
    before.versions ⊆ after.versions := by
  cases h with
  | same hversions => rw [hversions]; exact List.Subset.refl _
  | records migration hrecords => rw [hrecords.added]; exact subset_append_left ..
  | migrates migration change hcommand hmem houtside hlower htransaction hversions =>
    rw [hversions]
    exact List.Subset.refl _
  | writes operation change hcommand hversions => rw [hversions]; exact List.Subset.refl _

/-- Taking a lock away changes neither the version rows nor the schema. -/
theorem recovery_contents (recovery : Recovery) (database : Database Content) :
    (recovery.effect integrity database).versions = database.versions ∧
      (recovery.effect integrity database).schema = database.schema := by
  have hlocks : ∀ statement : List MigrationLockRow → Except JsError Unit × List MigrationLockRow,
      (database.onLocks statement).2.versions = database.versions ∧
        (database.onLocks statement).2.schema = database.schema := by
    intro statement
    unfold Database.onLocks
    split
    · exact ⟨rfl, rfl⟩
    · exact ⟨rfl, rfl⟩
  cases recovery with
  | release | fail => exact hlocks _

namespace Asserted

section

variable (h : Asserted migrations stages system)
include h

theorem begin (process : ℕ) (call : Call Content) :
    Asserted migrations (Function.update stages process (initial call))
      (system.put process (some (System.opening (Call.program migrations) call))) := by
  intro other connection hother
  obtain ⟨rfl, rfl⟩ | ⟨hne, hbefore⟩ := System.connections_put_some hother
  · rw [Function.update_self]
    exact assert_initial call _
  · rw [Function.update_of_ne hne]
    exact h other connection hbefore

theorem crash (process : ℕ) :
    Asserted migrations stages (system.put process none) :=
  fun other connection hother => h other connection (System.connections_put_none hother).2

theorem recover (recovery : Recovery) :
    Asserted migrations stages
      { system with database := recovery.effect integrity system.database } := by
  intro other connection hother
  refine (h other connection hother).stable ?_
  rw [(recovery_contents recovery system.database).1]
  exact List.Subset.refl _

end

variable [DecidableEq Content]

theorem advance (h : Asserted migrations stages system) {process : ℕ}
    {surroundings : Surroundings JsError}
    {connection : ProcessConnection Content}
    {command : Command (Statement Content)}
    {rest : command.Answer Statement.Value JsError → Work Statement.Value JsError Unit}
    {after : Stage Content} (hconnection : system.connections process = some connection)
    (hmove : Moves migrations (stages process) command
      ((engine integrity).perform surroundings command system.database
        connection.transaction).answer after) :
    Asserted migrations (Function.update stages process after)
      (system.afterCommand process connection command rest
        ((engine integrity).perform surroundings command system.database
          connection.transaction)) := by
  obtain ⟨hassert, hchange⟩ := hmove.keeps (h process connection hconnection) rfl rfl
  intro other connection' hother
  obtain ⟨rfl, rfl⟩ | ⟨hne, hbefore⟩ := System.connections_afterCommand hother
  · rw [Function.update_self]
    exact hassert
  · rw [Function.update_of_ne hne]
    exact (h other connection' hbefore).stable hchange.versions_subset

end Asserted

theorem returnsSoundly_of_staged (hasserted : Asserted migrations stages system)
    (hstaged : System.Staged (Moves migrations) (Post migrations) stages system) :
    ReturnsSoundly migrations system := by
  intro process connection pid options hconnection hcall hrest
  have hassert := hasserted process connection hconnection
  have hpost := hstaged process connection hconnection
  rw [hrest, hcall] at hpost
  obtain ⟨applied, hstage, hall⟩ | hlock | ⟨known, hstage, hall, hverified⟩ := hpost
  · rw [hstage] at hassert
    exact .inr ⟨fun migration hmem => hassert.known (hall migration hmem),
      .inl ⟨applied, hassert.did.2, hall⟩⟩
  · exact .inl hlock
  · rw [hstage] at hassert
    exact .inr ⟨fun migration hmem => hassert.known (hall migration hmem), .inr hverified⟩

variable [DecidableEq Content]

/-- Whatever happened, every process is at a stage of its program and what holds there
holds. -/
theorem exists_stages
    (hordered : migrations.Pairwise fun first second => first.version < second.version)
    {database : Database Content} {steps : List (Step Content)} {last : Processes Content}
    (run : Run (Takes (step? integrity migrations)) (System.idle database) steps last) :
    ∃ stages, Asserted migrations stages last ∧
      System.Staged (Moves migrations) (Post migrations) stages last := by
  have hrun : Run (Meeting (fun _ _ => True) (Takes (step? integrity migrations)))
      (System.idle database) steps last := run.mono fun _ _ _ htaken => ⟨trivial, htaken⟩
  refine System.invariant_of_obeys (obeys_program hordered)
    (fun stages system process call h _ => h.begin process call)
    (fun stages system process surroundings connection command rest after h _ hconnection _
      hmove => h.advance hconnection hmove)
    (fun stages system process h => h.crash process)
    (fun stages system recovery h _ => h.recover recovery) hrun ?_
  exact ⟨fun _ => .opening, nofun, System.staged_idle _ _⟩

theorem contentsStep_of_staged {next : Processes Content} {step : Step Content}
    (hasserted : Asserted migrations stages system)
    (hstaged : System.Staged (Moves migrations) (Post migrations) stages system)
    (htaken : step? integrity migrations system step = some next) :
    ContentsStep migrations system step next := by
  obtain ⟨process, call, rfl, hnone, rfl⟩ |
      ⟨process, surroundings, connection, command, rest, rfl, hconnection, hrest, rfl⟩ |
      ⟨process, connection, rfl, hconnection, rfl⟩ | ⟨recovery, rfl, rfl⟩ :=
    System.step?_cases _ _ _ htaken
  · exact .same rfl rfl
  · have hobeys := hstaged process connection hconnection
    rw [hrest] at hobeys
    obtain ⟨after, hmove, -⟩ := hobeys ((engine integrity).perform surroundings command
      system.database connection.transaction).answer
    exact .performs process surroundings connection command rest rfl hconnection hrest
      (hmove.keeps (hasserted process connection hconnection) rfl rfl).2
  · exact .same rfl rfl
  · exact .same (recovery_contents recovery system.database).1
      (recovery_contents recovery system.database).2

end Runs

end Nobie.Db
