/-
# What a process does on the way to a migrated database

The stages of a call and the moves between them: which commands it performs at which stage.
A migration is applied only when all lower ones are known to be applied, in a transaction or
statement by statement, and its row is inserted only at the end of its `up`. Every program of
a process obeys the moves, whatever the database answers.
-/

import Nobie.Db.Migrations

namespace Nobie.Db

open Foundation List

variable {Content : Type}

/-- What a process performed and was answered. -/
abbrev Log (Content : Type) := List (Exchange (@Statement.Value Content) JsError)

/-! ## Stages -/

/-- The lock that a process works under, and the one it inserted itself, if it did. -/
structure Hold where
  lock : String
  own : Option String

/-- Where a process is. The lists are versions known to have rows. -/
inductive Stage (Content : Type) : Type
  | opening
  | looked (versions : List ℤ)
  | checked (versions : List ℤ)
  | locked (versions : List ℤ) (own : String)
  | holding (hold : Hold) (known : List ℤ)
  | running (hold : Hold) (known : List ℤ) (migration : Migration Content)
      (rest : Script Content)
  | ran (hold : Hold) (known : List ℤ) (migration : Migration Content)
  | within (hold : Hold) (known : List ℤ) (migration : Migration Content)
      (rest : Script Content)
  | recorded (hold : Hold) (known : List ℤ) (migration : Migration Content)
  | released (known : List ℤ)
  | failed
  | guarding | cleared | written

namespace Stage

/-- What remains of a stage once a migration outside a transaction is given up. -/
def settled : Stage Content → Stage Content
  | running hold known _ _ => holding hold known
  | ran hold known _ => holding hold known
  | stage => stage

/-- No transaction is open. -/
def Outside : Stage Content → Prop
  | within _ _ _ _ => False
  | recorded _ _ _ => False
  | _ => True

@[simp]
theorem settled_settled (stage : Stage Content) : stage.settled.settled = stage.settled := by
  cases stage <;> rfl

@[simp]
theorem outside_settled {stage : Stage Content} : stage.settled.Outside ↔ stage.Outside := by
  cases stage <;> exact Iff.rfl

end Stage

/-- Statements that change no row and no schema. -/
inductive Quiet : Statement Content → Prop
  | createLockTable : Quiet .createLockTable
  | createLockIndex : Quiet .createLockIndex
  | createVersionTable : Quiet .createVersionTable
  | selectVersions : Quiet .selectVersions
  | selectActiveLock : Quiet .selectActiveLock
  | selectObject (type : ObjectType) (name : String) : Quiet (.selectObject type name)
  | integrityCheck : Quiet .integrityCheck
  | selectMaxVersion : Quiet .selectMaxVersion

section Moves

variable (migrations : List (Migration Content))

/-- A migration is due when it has no row yet and all lower ones do. -/
structure Due (known : List ℤ) (migration : Migration Content) : Prop where
  mem : migration ∈ migrations
  fresh : migration.version ∉ known
  lower : ∀ other ∈ migrations, other.version < migration.version → other.version ∈ known

/-- A process at this stage has the rest of a migration outside a transaction before it. -/
inductive Before : Stage Content → Hold → List ℤ → Migration Content → Script Content → Prop
  | start {hold : Hold} {known : List ℤ} {migration : Migration Content}
      (hdue : Due migrations known migration) (houtside : migration.outsideTransaction) :
      Before (.holding hold known) hold known migration migration.up
  | running {hold : Hold} {known : List ℤ} {migration : Migration Content}
      {rest : Script Content} :
      Before (.running hold known migration rest) hold known migration rest

/-- What a process may do at a stage, with the answer it gets. -/
inductive Moves : Stage Content → (command : Command (Statement Content)) →
    command.Answer (@Statement.Value Content) JsError → Stage Content → Prop
  | quiet {stage : Stage Content} {statement : Statement Content}
      (answer : Except JsError statement.Value) (hquiet : Quiet statement)
      (houtside : stage.Outside) :
      Moves stage (.execute statement) answer stage.settled
  | error {stage : Stage Content} {statement : Statement Content} (error : JsError) :
      Moves stage (.execute statement) (.error error) stage.settled
  | now {stage : Stage Content} (time : ℤ) (hsettled : stage.settled = stage) :
      Moves stage .now time stage
  | uuid {stage : Stage Content} (text : String) (hsettled : stage.settled = stage) :
      Moves stage .randomUUID text stage
  | look (versions : List ℤ) :
      Moves .opening (.execute .selectVersions) (.ok versions) (.looked versions)
  | check (versions : List ℤ) :
      Moves (.looked versions) (.execute .selectActiveLock) (.ok none) (.checked versions)
  | insert (versions : List ℤ) (row : MigrationLockRow) (hactive : row.status = .active) :
      Moves (.checked versions) (.execute (.insertLock row)) (.ok ()) (.locked versions row.id)
  /-- `beginMigrationLock` returns the lock of another process. -/
  | take (versions : List ℤ) (row : MigrationLockRow) :
      Moves (.checked versions) (.execute .selectActiveLock) (.ok (some row))
        (.holding ⟨row.id, none⟩ versions)
  | confirm (versions : List ℤ) (own : String) (row : MigrationLockRow) :
      Moves (.locked versions own) (.execute .selectActiveLock) (.ok (some row))
        (.holding ⟨row.id, some own⟩ versions)
  | phase (hold : Hold) (known : List ℤ) (phase : MigrationLockPhase) (now : ℤ) :
      Moves (.holding hold known) (.execute (.updateLockPhase hold.lock phase now)) (.ok ())
        (.holding hold known)
  | migrate {stage : Stage Content} {hold : Hold} {known : List ℤ}
      {migration : Migration Content} {change : Schema Content → Schema Content}
      {next : Schema Content → Script Content} (schema : Schema Content)
      (hbefore : Before migrations stage hold known migration (.statement change next)) :
      Moves stage (.execute (.migrate migration.version change)) (.ok schema)
        (.running hold known migration (next schema))
  | clock {stage : Stage Content} {hold : Hold} {known : List ℤ}
      {migration : Migration Content} (time : ℤ)
      (hbefore : Before migrations stage hold known migration .done) :
      Moves stage .now time (.ran hold known migration)
  | record (hold : Hold) (known : List ℤ) (migration : Migration Content) (now : ℤ) :
      Moves (.ran hold known migration) (.execute (.insertVersion migration.version now))
        (.ok ()) (.holding hold (known ++ [migration.version]))
  | begin {hold : Hold} {known : List ℤ} {migration : Migration Content}
      (hdue : Due migrations known migration) (hinside : ¬ migration.outsideTransaction) :
      Moves (.holding hold known) .begin (.ok ()) (.within hold known migration migration.up)
  | beginError (hold : Hold) (known : List ℤ) (error : JsError) :
      Moves (.holding hold known) .begin (.error error) (.holding hold known)
  | migrateWithin {hold : Hold} {known : List ℤ} {migration : Migration Content}
      {change : Schema Content → Schema Content} {next : Schema Content → Script Content}
      (schema : Schema Content) :
      Moves (.within hold known migration (.statement change next))
        (.execute (.migrate migration.version change)) (.ok schema)
        (.within hold known migration (next schema))
  | recordWithin (hold : Hold) (known : List ℤ) (migration : Migration Content) (now : ℤ) :
      Moves (.within hold known migration .done)
        (.execute (.insertVersion migration.version now)) (.ok ())
        (.recorded hold known migration)
  | commit (hold : Hold) (known : List ℤ) (migration : Migration Content) :
      Moves (.recorded hold known migration) .commit (.ok ())
        (.holding hold (known ++ [migration.version]))
  | commitError (hold : Hold) (known : List ℤ) (migration : Migration Content)
      (error : JsError) :
      Moves (.recorded hold known migration) .commit (.error error) (.recorded hold known migration)
  | rollbackWithin (hold : Hold) (known : List ℤ) (migration : Migration Content)
      (rest : Script Content) :
      Moves (.within hold known migration rest) .rollback () (.holding hold known)
  | rollbackRecorded (hold : Hold) (known : List ℤ) (migration : Migration Content) :
      Moves (.recorded hold known migration) .rollback () (.holding hold known)
  | release (hold : Hold) (known : List ℤ) (now : ℤ) (report : MigrationVerificationReport) :
      Moves (.holding hold known) (.execute (.releaseLock hold.lock now report)) (.ok ())
        (.released known)
  | fail (hold : Hold) (known : List ℤ) (now : ℤ) (error : String)
      (report : Option MigrationVerificationReport) :
      Moves (.holding hold known) (.execute (.failLock hold.lock now error report)) (.ok ()) .failed
  | guard : Moves .guarding (.execute .selectActiveLock) (.ok none) .cleared
  | write (operation : String) (change : Schema Content → Schema Content) :
      Moves .cleared (.execute (.write operation change)) (.ok ()) .written

end Moves

/-- Every required object was found and the content is intact. -/
structure Verified (log : Log Content) : Prop where
  tables : ∀ name ∈ REQUIRED_TABLES, Exchange.returned (.selectObject .table name) true ∈ log
  indexes : ∀ name ∈ REQUIRED_INDEXES, Exchange.returned (.selectObject .index name) true ∈ log
  integrity : Exchange.returned .integrityCheck "ok" ∈ log

/-- Why `runMigrations` returns: nothing was pending, a lock was active, or everything is
applied and verified. -/
def Settled (migrations : List (Migration Content)) (stage : Stage Content)
    (log : Log Content) : Prop :=
  (∃ applied, stage = .looked applied ∧ ∀ migration ∈ migrations, migration.version ∈ applied) ∨
  (∃ lock, log.getLast? = some (Exchange.returned .selectActiveLock (some lock))) ∨
  ∃ known, stage = .released known ∧ (∀ migration ∈ migrations, migration.version ∈ known) ∧
    Verified log

/-- What holds at the end of a call. -/
def Post (migrations : List (Migration Content)) :
    Call Content → Stage Content → Log Content → Except JsError Unit → Prop
  | .migrate _ _, stage, log, .ok _ => Settled migrations stage log
  | _, _, _, _ => True

def initial : Call Content → Stage Content
  | .migrate _ _ => .opening
  | .write _ _ => .guarding

/-! ## Tables, locks and verification -/

variable {hold : Hold}

variable {known : List ℤ} {migration : Migration Content} {rest : Script Content} {applied : List ℤ}
  {pending : List (Migration Content)} {lock : MigrationLockRow} {own : Option String}

section Programs

variable {migrations : List (Migration Content)} {stage : Stage Content} {log : Log Content}

theorem meets_quiet {statement : Statement Content} (hquiet : Quiet statement)
    (houtside : stage.Outside) :
    Meets (Moves migrations) stage log (Session.execute statement : Sql Content statement.Value)
      (fun after log' value =>
        after = stage.settled ∧ log' = log ++ [Exchange.returned statement value])
      (fun after _ _ => after = stage.settled) :=
  Meets.execute (fun value => ⟨_, .quiet (.ok value) hquiet houtside, rfl, rfl⟩)
    fun error => ⟨_, .quiet (.error error) hquiet houtside, rfl⟩

theorem meets_ensure (houtside : stage.Outside) :
    Meets (Moves migrations) stage log (ensureMigrationSafetyTables : Sql Content Unit)
      (fun after log' _ => after = stage.settled ∧ log <+: log')
      (fun after _ _ => after = stage.settled) := by
  refine Meets.bind (Meets.mono (meets_quiet .createLockTable houtside) ?_ fun _ _ _ h => h)
  rintro _ _ _ ⟨rfl, rfl⟩
  refine Meets.mono (meets_quiet .createLockIndex (Stage.outside_settled.mpr houtside)) ?_ ?_
  · rintro _ _ _ ⟨rfl, rfl⟩
    rw [append_assoc]
    exact ⟨Stage.settled_settled stage, prefix_append ..⟩
  · rintro _ _ _ rfl
    exact Stage.settled_settled stage

/-- The look-up of the active lock after its tables are made sure of. -/
theorem meets_getActive {returned : Stage Content → Log Content → Option MigrationLockRow → Prop}
    {thrown : Stage Content → Log Content → JsError → Prop} (houtside : stage.Outside)
    (hselect : ∀ log', log <+: log' → Meets (Moves migrations) stage.settled log'
      (Session.execute (.selectActiveLock : Statement Content)) returned thrown)
    (hthrown : ∀ log' error, thrown stage.settled log' error) :
    Meets (Moves migrations) stage log
      (getActiveMigrationLock : Sql Content (Option MigrationLockRow)) returned thrown := by
  refine Meets.bind (Meets.mono (meets_ensure houtside) ?_ ?_)
  · rintro _ log' _ ⟨rfl, hlog⟩
    exact hselect log' hlog
  · rintro _ log' error rfl
    exact hthrown log' error

theorem meets_requiredObjects (type : ObjectType) (names : List String)
    (hsettled : stage.settled = stage) (houtside : stage.Outside) :
    Meets (Moves migrations) stage log
      (requiredObjects type names : Sql Content (List (String × Bool)))
      (fun after log' items => after = stage ∧ log <+: log' ∧ (missing items = [] →
        ∀ name ∈ names, Exchange.returned (.selectObject type name) true ∈ log'))
      (fun after _ _ => after = stage) := by
  induction names generalizing log with
  | nil => exact Meets.pure ⟨rfl, prefix_rfl, fun _ name hname => nomatch hname⟩
  | cons name names ih =>
    refine Meets.bind (Meets.mono (meets_quiet (.selectObject type name) houtside) ?_ ?_)
    · rintro _ _ found ⟨rfl, rfl⟩
      rw [hsettled]
      refine Meets.bind (Meets.mono ih ?_ fun _ _ _ h => h)
      rintro _ log' items ⟨rfl, hlog, hfound⟩
      refine Meets.pure ⟨rfl, (prefix_append ..).trans hlog, fun hmissing => ?_⟩
      cases found with
      | false => cases hmissing
      | true =>
        intro other hother
        obtain rfl | hrest := mem_cons.mp hother
        · exact hlog.subset (mem_append_cons_self)
        · exact hfound hmissing other hrest
    · rintro _ _ _ rfl
      exact hsettled

theorem meets_latestSchemaVersion (hsettled : stage.settled = stage) (houtside : stage.Outside) :
    Meets (Moves migrations) stage log (latestSchemaVersion : Sql Content ℤ)
      (fun after log' _ => after = stage ∧ log <+: log') (fun after _ _ => after = stage) := by
  refine Meets.bind (Meets.mono (meets_quiet (.selectObject _ _) houtside) ?_ ?_)
  · rintro _ _ found ⟨rfl, rfl⟩
    rw [hsettled]
    cases found with
    | false => exact Meets.pure ⟨rfl, prefix_append ..⟩
    | true =>
      refine Meets.mono (meets_quiet .selectMaxVersion houtside) ?_ ?_
      · rintro _ _ _ ⟨rfl, rfl⟩
        rw [append_assoc]
        exact ⟨hsettled, prefix_append ..⟩
      · rintro _ _ _ rfl
        exact hsettled
  · rintro _ _ _ rfl
    exact hsettled

/-- A report that is in order was made from the objects found. -/
theorem meets_verify (houtside : stage.Outside) :
    Meets (Moves migrations) stage log
      (verifyMigrationState : Sql Content MigrationVerificationReport)
      (fun after log' report => after = stage.settled ∧ (report.ok → Verified log'))
      (fun after _ _ => after = stage.settled) := by
  have hsettled := Stage.settled_settled stage
  have hout := Stage.outside_settled.mpr houtside
  refine Meets.bind (Meets.mono (meets_ensure houtside) ?_ fun _ _ _ h => h)
  rintro _ _ _ ⟨rfl, -⟩
  refine Meets.bind (Meets.mono (meets_requiredObjects .table REQUIRED_TABLES hsettled hout) ?_
    fun _ _ _ h => h)
  rintro _ afterTables tables ⟨rfl, -, htables⟩
  refine Meets.bind (Meets.mono (meets_requiredObjects .index REQUIRED_INDEXES hsettled hout) ?_
    fun _ _ _ h => h)
  rintro _ afterIndexes indexes ⟨rfl, hafterIndexes, hindexes⟩
  refine Meets.bind (Meets.mono (meets_quiet .integrityCheck hout) ?_ ?_)
  · rintro _ _ integrity ⟨rfl, rfl⟩
    rw [hsettled]
    refine Meets.bind (Meets.mono (meets_latestSchemaVersion hsettled hout) ?_ fun _ _ _ h => h)
    rintro _ log' version ⟨rfl, hlog⟩
    refine Meets.pure ⟨rfl, fun hok => ?_⟩
    rw [Bool.and_eq_true, Bool.and_eq_true, List.isEmpty_iff, List.isEmpty_iff, beq_iff_eq] at hok
    obtain ⟨⟨hnoTable, hnoIndex⟩, rfl⟩ := hok
    have hbefore := (prefix_append afterIndexes _).trans hlog
    exact {
      tables := fun name hname => (hafterIndexes.trans hbefore).subset (htables hnoTable name hname)
      indexes := fun name hname => hbefore.subset (hindexes hnoIndex name hname)
      integrity := hlog.subset (mem_append_cons_self) }
  · rintro _ _ _ rfl
    exact hsettled

/-- From the check on, a process gets a lock to work under: its own or another one's. -/
theorem meets_beginMigrationLock (versions : List ℤ) (pid : ℕ) (input : BeginMigrationLockInput) :
    Meets (Moves migrations) (.checked versions) log
      (beginMigrationLock pid input : Sql Content MigrationLockRow)
      (fun after _ lock => ∃ own, after = .holding ⟨lock.id, own⟩ versions)
      (fun _ _ _ => True) := by
  refine Meets.bind (Meets.mono (meets_ensure trivial) ?_ fun _ _ _ _ => trivial)
  rintro _ _ _ ⟨rfl, -⟩
  refine Meets.bind (meets_getActive trivial ?_ fun _ _ => trivial)
  intro _ _
  refine Meets.execute ?_ fun error => ⟨_, .error error, trivial⟩
  rintro (_ | existing)
  · refine ⟨_, .quiet _ .selectActiveLock trivial, Meets.bind (Meets.now fun time => ?_)⟩
    refine ⟨_, .now time rfl, Meets.bind (Meets.execute ?_ fun error => ⟨_, .error error, trivial⟩)⟩
    rintro ⟨⟩
    refine ⟨_, .insert versions (input.row pid time) rfl, ?_⟩
    refine Meets.bind (meets_getActive trivial ?_ fun _ _ => trivial)
    intro _ _
    refine Meets.execute ?_ fun error => ⟨_, .error error, trivial⟩
    rintro (_ | active)
    · exact ⟨_, .quiet _ .selectActiveLock trivial, trivial⟩
    · exact ⟨_, .confirm versions input.id active, some input.id, rfl⟩
  · exact ⟨_, .take versions existing, none, rfl⟩

theorem meets_updatePhase (hold : Hold) (known : List ℤ) (phase : MigrationLockPhase) :
    Meets (Moves migrations) (.holding hold known) log
      (updateMigrationLockPhase hold.lock phase : Sql Content Unit)
      (fun after _ _ => after = .holding hold known)
      (fun after _ _ => after = .holding hold known) := by
  refine Meets.bind (Meets.now fun time => ⟨_, .now time rfl, ?_⟩)
  refine Meets.bind (Meets.mono (meets_ensure trivial) ?_ fun _ _ _ h => h)
  rintro _ _ _ ⟨rfl, -⟩
  exact Meets.execute (fun _ => ⟨_, .phase hold known phase time, rfl⟩)
    fun error => ⟨_, .error error, rfl⟩

theorem meets_release (hold : Hold) (known : List ℤ) (report : MigrationVerificationReport)
    (hverified : Verified log) :
    Meets (Moves migrations) (.holding hold known) log
      (releaseMigrationLock hold.lock report : Sql Content Unit)
      (fun after log' _ => after = .released known ∧ Verified log')
      (fun after _ _ => after = .holding hold known) := by
  have hkeep : ∀ log', log <+: log' → Verified log' := fun log' hlog => {
    tables := fun name hname => hlog.subset (hverified.tables name hname)
    indexes := fun name hname => hlog.subset (hverified.indexes name hname)
    integrity := hlog.subset hverified.integrity }
  refine Meets.bind (Meets.mono (meets_ensure trivial) ?_ fun _ _ _ h => h)
  rintro _ _ _ ⟨rfl, hlog⟩
  refine Meets.bind (Meets.now fun time => ⟨_, .now time rfl, ?_⟩)
  refine Meets.execute (fun _ => ⟨_, .release hold known time report, rfl, hkeep _ ?_⟩)
    fun error => ⟨_, .error error, rfl⟩
  rw [append_assoc]
  exact hlog.trans (prefix_append ..)

/-! ## The migrations -/

theorem Before.settled (hbefore : Before migrations stage hold known migration rest) :
    stage.settled = .holding hold known := by
  cases hbefore with
  | start | running => rfl

theorem meets_runScript (hbefore : Before migrations stage hold known migration rest) :
    Meets (Moves migrations) stage log (runScript migration.version rest)
      (fun after _ _ => Before migrations after hold known migration .done)
      (fun after _ _ => after.settled = .holding hold known) := by
  induction rest generalizing stage log with
  | done => exact Meets.pure hbefore
  | throws error => exact Meets.throw hbefore.settled
  | statement change next ih =>
    refine Meets.bind (Meets.execute (fun schema => ⟨_, .migrate schema hbefore, ?_⟩)
      fun error => ⟨_, .error error, ?_⟩)
    · exact ih schema .running
    · rw [Stage.settled_settled]
      exact hbefore.settled

theorem meets_runScript_within (hold : Hold) (known : List ℤ) (migration : Migration Content)
    (rest : Script Content) :
    Meets (Moves migrations) (.within hold known migration rest) log
      (runScript migration.version rest)
      (fun after _ _ => after = .within hold known migration .done)
      (fun after _ _ => ∃ rest, after = .within hold known migration rest) := by
  induction rest generalizing log with
  | done => exact Meets.pure rfl
  | throws error => exact Meets.throw ⟨_, rfl⟩
  | statement change next ih =>
    refine Meets.bind (Meets.execute (fun schema => ⟨_, .migrateWithin schema, ?_⟩)
      fun error => ⟨_, .error error, _, rfl⟩)
    exact ih schema

/-- Outside a transaction: the statements of the migration one by one, then its row. -/
theorem meets_upAndRecord (hdue : Due migrations known migration)
    (houtside : migration.outsideTransaction) :
    Meets (Moves migrations) (.holding hold known) log (upAndRecord migration)
      (fun after _ _ => after = .holding hold (known ++ [migration.version]))
      (fun after _ _ => after.settled = .holding hold known) := by
  refine Meets.bind (Meets.mono (meets_runScript (.start hdue houtside)) ?_ fun _ _ _ h => h)
  intro after _ _ hbefore
  refine Meets.bind (Meets.now fun time => ⟨_, .clock time hbefore, ?_⟩)
  exact Meets.execute (fun _ => ⟨_, .record hold known migration time, rfl⟩)
    fun error => ⟨_, .error error, rfl⟩

/-- Inside a transaction: all of the migration with its row, or nothing of it. -/
theorem meets_transaction (hdue : Due migrations known migration)
    (hinside : ¬ migration.outsideTransaction) :
    Meets (Moves migrations) (.holding hold known) log (Session.transaction (upAndRecord migration))
      (fun after _ _ => after = .holding hold (known ++ [migration.version]))
      (fun after _ _ => after.settled = .holding hold known) := by
  refine Meets.transaction ⟨_, .begin hdue hinside, ?_⟩
    fun error => ⟨_, .beginError hold known error, rfl⟩
  have habort : ∀ rest, ∃ after, Moves migrations (.within hold known migration rest) .rollback
      () after ∧ after.settled = .holding hold known :=
    fun rest => ⟨_, .rollbackWithin hold known migration rest, rfl⟩
  refine Meets.bind (Meets.mono (meets_runScript_within hold known migration migration.up) ?_ ?_)
  · rintro _ _ _ rfl
    refine Meets.bind (Meets.now fun time => ⟨_, .now time rfl, ?_⟩)
    refine Meets.execute (fun _ => ⟨_, .recordWithin hold known migration time, ?_, ?_⟩)
      fun error => ⟨_, .error error, habort _⟩
    · exact ⟨_, .commit hold known migration, rfl⟩
    · exact fun error => ⟨_, .commitError hold known migration error, _,
        .rollbackRecorded hold known migration, rfl⟩
  · rintro _ _ _ ⟨rest, rfl⟩
    exact habort rest

/-- What a loop over pending migrations keeps: the rest is in order, without rows, and with
what is known to have rows it is all there is. -/
structure Loop (migrations : List (Migration Content)) (applied known : List ℤ)
    (rest : List (Migration Content)) : Prop where
  ordered : rest.Pairwise fun first second => first.version < second.version
  mem : ∀ migration ∈ rest, migration ∈ migrations
  fresh : ∀ migration ∈ rest, migration.version ∉ known
  covers : ∀ migration ∈ migrations, migration.version ∈ known ∨ migration ∈ rest
  applied : applied ⊆ known

namespace Loop

variable {applied known : List ℤ} {migration : Migration Content}
  {rest : List (Migration Content)}

theorem start (hordered : migrations.Pairwise fun first second => first.version < second.version) :
    Loop migrations applied applied (pendingMigrations migrations applied) where
  ordered := hordered.sublist filter_sublist
  mem := fun _ hmem => mem_of_mem_filter hmem
  fresh := fun _ hmem => by simpa using of_mem_filter hmem
  covers := fun migration hmem => by
    by_cases happlied : migration.version ∈ applied
    · exact .inl happlied
    · exact .inr (mem_filter.mpr ⟨hmem, by simpa using happlied⟩)
  applied := List.Subset.refl _

theorem due (hloop : Loop migrations applied known (migration :: rest)) :
    Due migrations known migration where
  mem := hloop.mem _ mem_cons_self
  fresh := hloop.fresh _ mem_cons_self
  lower := fun other hother hlower => by
    obtain hknown | hrest := hloop.covers other hother
    · exact hknown
    · obtain rfl | hrest := mem_cons.mp hrest
      · exact absurd hlower (lt_irrefl _)
      · exact absurd hlower ((rel_of_pairwise_cons hloop.ordered hrest).not_gt)

theorem next (hloop : Loop migrations applied known (migration :: rest)) :
    Loop migrations applied (known ++ [migration.version]) rest where
  ordered := hloop.ordered.of_cons
  mem := fun _ hmem => hloop.mem _ (mem_cons_of_mem _ hmem)
  fresh := fun other hmem => by
    have hgreater := rel_of_pairwise_cons hloop.ordered hmem
    have hfresh := hloop.fresh other (mem_cons_of_mem _ hmem)
    simp [hfresh, hgreater.ne']
  covers := fun other hother => by
    obtain hknown | hrest := hloop.covers other hother
    · exact .inl (mem_append_left _ hknown)
    · obtain rfl | hrest := mem_cons.mp hrest
      · exact .inl (mem_append_cons_self)
      · exact .inr hrest
  applied := fun _ hmem => mem_append_left _ (hloop.applied hmem)

end Loop

theorem meets_applyMigrations (hloop : Loop migrations applied known pending) :
    Meets (Moves migrations) (.holding hold known) log (applyMigrations applied pending)
      (fun after _ _ => ∃ all, after = .holding hold all ∧
        ∀ migration ∈ migrations, migration.version ∈ all)
      (fun after _ _ => ∃ known, after.settled = .holding hold known) := by
  induction pending generalizing known log with
  | nil =>
    refine Meets.pure ⟨known, rfl, fun migration hmem => ?_⟩
    exact (hloop.covers migration hmem).resolve_right not_mem_nil
  | cons migration rest ih =>
    have hdue := hloop.due
    have hnew : migration.version ∉ applied := fun hmem => hdue.fresh (hloop.applied hmem)
    have happly : Meets (Moves migrations) (.holding hold known) log
        (applyMigration applied migration)
        (fun after _ _ => after = .holding hold (known ++ [migration.version]))
        (fun after _ _ => after.settled = .holding hold known) := by
      unfold applyMigration
      rw [if_neg hnew]
      by_cases houtside : migration.outsideTransaction
      · rw [if_pos houtside]
        exact meets_upAndRecord hdue houtside
      · rw [if_neg houtside]
        exact meets_transaction hdue houtside
    refine Meets.bind (Meets.mono happly ?_ fun _ _ _ h => ⟨known, h⟩)
    rintro _ _ _ rfl
    exact ih hloop.next

theorem meets_migrateUnderLock (hloop : Loop migrations applied applied pending) :
    Meets (Moves migrations) (.holding ⟨lock.id, own⟩ applied) log
      (migrateUnderLock applied pending lock)
      (fun after log' _ => Settled migrations after log')
      (fun after _ _ => ∃ known, after.settled = .holding ⟨lock.id, own⟩ known) := by
  have hphase := fun (known : List ℤ) (phase : MigrationLockPhase) (log : Log Content) =>
    @meets_updatePhase _ migrations log ⟨lock.id, own⟩ known phase
  refine Meets.bind (Meets.mono (hphase applied .apply log) ?_ ?_)
  · rintro _ _ _ rfl
    refine Meets.bind (Meets.mono (meets_applyMigrations hloop) ?_ fun _ _ _ h => h)
    rintro _ log' _ ⟨all, rfl, hall⟩
    refine Meets.bind (Meets.mono (hphase all .verify log') ?_ ?_)
    · rintro _ _ _ rfl
      refine Meets.bind (Meets.mono (meets_verify trivial) ?_ ?_)
      · rintro _ log' report ⟨rfl, hverified⟩
        cases hok : report.ok with
        | false =>
          rw [if_neg Bool.false_ne_true]
          exact Meets.throw ⟨all, rfl⟩
        | true =>
          rw [if_pos rfl]
          refine Meets.mono (meets_release ⟨lock.id, own⟩ all report (hverified hok)) ?_ ?_
          · rintro _ _ _ ⟨rfl, hafter⟩
            exact .inr (.inr ⟨all, rfl, hall, hafter⟩)
          · rintro _ _ _ rfl
            exact ⟨all, rfl⟩
      · rintro _ _ _ rfl
        exact ⟨all, rfl⟩
    · rintro _ _ _ rfl
      exact ⟨all, rfl⟩
  · rintro _ _ _ rfl
    exact ⟨applied, rfl⟩

/-- The error branch never returns. -/
theorem meets_failMigrations (hholding : stage.settled = .holding ⟨lock.id, own⟩ known)
    (error : JsError) :
    Meets (Moves migrations) stage log (failMigrations lock error)
      (fun _ _ _ => False) (fun _ _ _ => True) := by
  have houtside : stage.Outside := by
    rw [← Stage.outside_settled, hholding]
    trivial
  have hverify : Meets (Moves migrations) stage log (tryCatch (do
          let report ← verifyMigrationState
          pure (some report))
        fun _ => pure none : Sql Content (Option MigrationVerificationReport))
      (fun after _ _ => after = .holding ⟨lock.id, own⟩ known)
      (fun _ _ _ => True) := by
    refine Meets.tryCatch (Meets.bind (Meets.mono (meets_verify houtside) ?_ ?_))
    · rintro _ _ _ ⟨rfl, -⟩
      exact Meets.pure hholding
    · rintro _ _ _ rfl
      exact Meets.pure hholding
  refine Meets.bind (Meets.mono hverify ?_ fun _ _ _ h => h)
  rintro _ _ report rfl
  refine Meets.bind (Meets.bind (Meets.mono (meets_ensure trivial) ?_ fun _ _ _ _ => trivial))
  rintro _ _ _ ⟨rfl, -⟩
  refine Meets.bind (Meets.now fun time => ⟨_, .now time rfl, ?_⟩)
  exact Meets.execute (fun _ => ⟨_, .fail ⟨lock.id, own⟩ known time error.message report, trivial⟩)
    fun failure => ⟨_, .error failure, trivial⟩

/-! ## Whole calls -/

theorem meets_runMigrations
    (hordered : migrations.Pairwise fun first second => first.version < second.version)
    (pid : ℕ) (options : RunMigrationsOptions) :
    Meets (Moves migrations) .opening [] (runMigrations migrations pid options)
      (fun after log' _ => Settled migrations after log') (fun _ _ _ => True) := by
  refine Meets.bind (Meets.mono (meets_ensure trivial) ?_ fun _ _ _ _ => trivial)
  rintro _ _ _ ⟨rfl, -⟩
  refine Meets.bind (Meets.mono (meets_quiet .createVersionTable trivial) ?_ fun _ _ _ _ => trivial)
  rintro _ _ _ ⟨rfl, -⟩
  refine Meets.bind (Meets.execute (fun applied : List ℤ => ⟨_, .look applied, ?_⟩)
    fun error => ⟨_, .error error, trivial⟩)
  have hloop : Loop migrations applied applied (pendingMigrations migrations applied) :=
    Loop.start hordered
  cases hempty : (pendingMigrations migrations applied).isEmpty with
  | true =>
    rw [if_pos hempty]
    rw [List.isEmpty_iff] at hempty
    refine Meets.pure (.inl ⟨applied, rfl, fun migration hmem => ?_⟩)
    rw [hempty] at hloop
    exact (hloop.covers migration hmem).resolve_right not_mem_nil
  | false =>
    rw [if_neg (by simp [hempty])]
    refine Meets.bind (meets_getActive trivial ?_ fun _ _ => trivial)
    intro log' _
    refine Meets.execute ?_ fun error => ⟨_, .error error, trivial⟩
    rintro (_ | lock)
    · refine ⟨_, .check applied, Meets.bind (Meets.now fun now => ⟨_, .now now rfl, ?_⟩)⟩
      refine Meets.bind (Meets.randomUUID fun uuid => ⟨_, .uuid uuid rfl, ?_⟩)
      refine Meets.bind (Meets.mono (meets_beginMigrationLock applied pid _) ?_ fun _ _ _ h => h)
      rintro _ _ lock ⟨own, rfl⟩
      refine Meets.tryCatch (Meets.mono (meets_migrateUnderLock hloop) (fun _ _ _ h => h) ?_)
      rintro _ _ error ⟨known, hholding⟩
      exact Meets.mono (meets_failMigrations hholding error) (fun _ _ _ h => h.elim)
        fun _ _ _ h => h
    · refine ⟨_, .quiet _ .selectActiveLock trivial, Meets.pure ?_⟩
      exact .inr (.inl ⟨lock, getLast?_concat⟩)

theorem meets_guardedWrite (operation : String) (change : Schema Content → Schema Content) :
    Meets (Moves migrations) .guarding [] (guardedWrite operation change)
      (fun _ _ _ => True) (fun _ _ _ => True) := by
  refine Meets.bind (Meets.bind (Meets.bind (meets_getActive trivial ?_ fun _ _ => trivial)))
  intro _ _
  refine Meets.execute ?_ fun error => ⟨_, .error error, trivial⟩
  rintro (_ | lock)
  · refine ⟨_, .guard, Meets.execute (fun _ => ⟨_, .write operation change, trivial⟩) ?_⟩
    exact fun error => ⟨_, .error error, trivial⟩
  · exact ⟨_, .quiet _ .selectActiveLock trivial, trivial⟩

/-- Every call obeys the moves. -/
theorem obeys_program
    (hordered : migrations.Pairwise fun first second => first.version < second.version)
    (call : Call Content) :
    Obeys (Moves migrations) (Post migrations call) (initial call) []
      (call.program migrations) := by
  cases call with
  | migrate pid options =>
    refine Obeys.mono (fun after log result hresult => ?_)
      (meets_runMigrations hordered pid options)
    cases result with
    | ok _ => exact hresult
    | error _ => trivial
  | write operation change =>
    exact Obeys.mono (fun _ _ _ _ => trivial) (meets_guardedWrite operation change)

end Programs

end Nobie.Db
