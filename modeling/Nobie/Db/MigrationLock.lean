/-
# One lock at a time

Between the look for an active lock and the insertion of the own one another process can come
in: `beginMigrationLock` then hands over the other one's lock, or two locks become active.
In runs where this does not happen, and where an operator takes away only locks of processes
that have ended, at most one lock is active, only the process that inserted it changes the
database, and everything that belongs to a migration is done under the own lock.
-/

import Nobie.Db.MigrationRuns

namespace Nobie.Db

open Foundation List Option Function

variable {Content : Type}

/-! ## Undisturbed runs -/

/-- The call has a command before it. -/
def Unfinished (connection : ProcessConnection Content) : Prop :=
  ∃ command rest, connection.rest = .perform command rest

/-- Commands by which a process acts on its check: it looks again, inserts its lock, or makes
a guarded write. -/
def ActsOnCheck : Command (Statement Content) → Prop
  | .execute .selectActiveLock => True
  | .execute (.insertLock _) => True
  | .execute (.write _ _) => True
  | _ => False

/-- A process acts on its check only while no lock is active and no version row is new; a lock
is taken away only if no call that inserted it goes on. -/
def Undisturbed (system : Processes Content) : Step Content → Prop
  | .advance process _ => ∀ connection command rest,
      system.connections process = some connection → connection.rest = .perform command rest →
      Checked connection.log → ActsOnCheck command →
      system.database.activeLocks = [] ∧
        ∀ versions : List ℤ, Exchange.returned .selectVersions versions ∈ connection.log →
          ∀ version ∈ system.database.versions, version ∈ versions
  | .interfere recovery => ∀ process connection,
      system.connections process = some connection → Unfinished connection →
      ¬ Owns connection.log recovery.lockId
  | _ => True

/-- Commands that belong to a migration. -/
def OfMigration : Command (Statement Content) → Prop
  | .execute (.migrate _ _) => True
  | .execute (.insertVersion _ _) => True
  | .commit => True
  | _ => False

/-- At most one lock is active; while one is, only the process that inserted it changes the
database, unless it is taken away; and what belongs to a migration is done under the own lock,
outside a transaction only while the row is missing. -/
structure ExclusiveStep (before : Processes Content) (step : Step Content)
    (after : Processes Content) : Prop where
  single : before.database.activeLocks.length ≤ 1
  owner : ∀ lock ∈ before.database.activeLocks,
    SameContents before.database after.database ∨
    (∃ recovery, step = .interfere recovery) ∨
    ∃ process surroundings connection, step = .advance process surroundings ∧
      before.connections process = some connection ∧ Owns connection.log lock.id
  migrating : ∀ process surroundings connection command rest,
    step = .advance process surroundings → before.connections process = some connection →
    connection.rest = .perform command rest → OfMigration command →
    ∃ lock ∈ before.database.activeLocks, Owns connection.log lock.id ∧
      ∀ version change, command = .execute (.migrate version change) →
        connection.transaction = none → version ∉ before.database.versions

/-! ## Active locks -/

variable {before next : Database Content}

variable {row : MigrationLockRow} {lockId : String} {process : ℕ}
  {connection : ProcessConnection Content}

namespace Database

/-- The ids of the active locks. -/
def activeIds (database : Database Content) : List String := database.activeLocks.map (·.id)

variable {after : Database Content}

theorem activeIds_of_locks (h : after.locks = before.locks) :
    after.activeIds = before.activeIds := by
  rw [activeIds, activeIds, activeLocks, activeLocks, h]

theorem activeIds_insert (h : after.locks = before.locks ++ [row]) (hactive : row.status = .active)
    : after.activeIds = before.activeIds ++ [row.id] := by
  simp [activeIds, activeLocks, h, hactive]

/-- An update that keeps ids and statuses keeps the active locks. -/
theorem activeIds_update {change : MigrationLockRow → MigrationLockRow}
    (hchange : ∀ row, (change row).id = row.id ∧ (change row).status = row.status)
    (h : after.locks = before.locks.map fun row => if row.id = lockId then change row else row) :
    after.activeIds = before.activeIds := by
  simp only [activeIds, activeLocks, h]
  induction before.locks with
  | nil => rfl
  | cons row rows ih =>
    have hrow : (if row.id = lockId then change row else row).id = row.id ∧
        (if row.id = lockId then change row else row).status = row.status := by
      split
      · exact hchange row
      · exact ⟨rfl, rfl⟩
    rw [map_cons, filter_cons, filter_cons, hrow.2]
    split
    · rw [map_cons, map_cons, hrow.1, ih]
    · exact ih

/-- An update to another status takes the lock out of the active ones. -/
theorem activeIds_close {change : MigrationLockRow → MigrationLockRow}
    (hchange : ∀ row, (change row).status ≠ .active)
    (h : after.locks = before.locks.map fun row => if row.id = lockId then change row else row) :
    after.activeIds = before.activeIds.filter (· ≠ lockId) := by
  simp only [activeIds, activeLocks, h]
  induction before.locks with
  | nil => rfl
  | cons row rows ih =>
    by_cases hid : row.id = lockId
    · by_cases hactive : row.status = .active <;> simp_all
    · by_cases hactive : row.status = .active <;> simp_all

theorem mem_of_mostRecent {rows : List MigrationLockRow} (h : mostRecent rows = some row) :
    row ∈ rows := by
  induction rows with
  | nil => cases h
  | cons first rows ih =>
    unfold mostRecent at h
    split at h
    · cases h
      exact mem_cons_self
    · next other hother =>
      split at h
      · exact mem_cons_of_mem _ (ih (hother.trans h))
      · cases h
        exact mem_cons_self

theorem activeIds_eq_nil {database : Database Content} :
    database.activeIds = [] ↔ database.activeLocks = [] :=
  map_eq_nil_iff

end Database

/-- Taking a lock away deactivates it and no other. -/
theorem recovery_activeIds {integrity : Content → String} (recovery : Recovery)
    (database : Database Content) :
    (recovery.effect integrity database).activeIds =
      database.activeIds.filter (· ≠ recovery.lockId) := by
  have hclose : ∀ (lockId : String) (change : MigrationLockRow → MigrationLockRow),
      (∀ row, (change row).status ≠ .active) →
      (database.onLocks (Database.updateLocks lockId change)).2.activeIds =
        database.activeIds.filter (· ≠ lockId) := by
    intro lockId change hchange
    unfold Database.onLocks
    split
    · next hnone => simp [Database.activeIds, Database.activeLocks, Database.locks, hnone]
    · next rows hrows =>
      refine Database.activeIds_close hchange ?_
      simp [Database.updateLocks, Database.locks, hrows]
  cases recovery with
  | release lockId now report => exact hclose lockId _ fun _ => by simp
  | fail lockId now error report => exact hclose lockId _ fun _ => by simp

/-! ## Exclusion -/

/-- The lock that a process works under. -/
def Stage.hold? : Stage Content → Option Hold
  | locked _ own => some ⟨own, some own⟩
  | holding hold _ => some hold
  | running hold _ _ _ => some hold
  | ran hold _ _ => some hold
  | within hold _ _ _ => some hold
  | recorded hold _ _ => some hold
  | _ => none

@[simp]
theorem Stage.hold?_settled (stage : Stage Content) : stage.settled.hold? = stage.hold? := by
  cases stage <;> rfl

/-- A process holds the only active lock, which is its own, and knows all version rows. -/
structure Holder (stage : Stage Content) (hold : Hold) (database : Database Content) : Prop where
  own : hold.own = some hold.lock
  active : database.activeIds = [hold.lock]
  known : database.versions ⊆ stage.known

theorem Holder.owns {migrations : List (Migration Content)} {stage : Stage Content}
    {database : Database Content} {transaction : Option (Transaction (Database Content))}
    {log : Log Content} {hold : Hold} (hholder : Holder stage hold database)
    (hstage : stage.hold? = some hold) (hassert : Assert migrations stage database transaction log) :
    ∃ lock ∈ database.activeLocks, lock.id = hold.lock ∧ Owns log lock.id := by
  have howns : Owns log hold.lock := by
    have hdid := hassert.did
    have hown : hold.lock ∈ hold.own := hholder.own
    cases stage with
    | locked versions own =>
      cases hstage
      exact hdid
    | holding | within | recorded =>
      cases hstage
      exact hdid _ hown
    | running | ran =>
      cases hstage
      exact hdid.1 _ hown
    | _ => cases hstage
  have hmem : hold.lock ∈ database.activeIds := by
    rw [hholder.active]
    exact mem_singleton_self _
  obtain ⟨lock, hlock, hid⟩ := mem_map.mp hmem
  exact ⟨lock, hlock, hid, hid ▸ howns⟩

/-- What a move does to the locks, for a process that is not disturbed. -/
structure LockMove (stage after : Stage Content) (before next : Database Content) : Prop where
  holder : ∀ hold, after.hold? = some hold → Holder after hold next
  single : next.activeIds.length ≤ 1
  /-- Others keep what they know. -/
  others : stage.hold? ≠ none ∨ before.activeIds = [] ∨ SameContents before next
  acquires : after.hold? ≠ none → stage.hold? ≠ none ∨ before.activeIds = []

section Moves

variable {migrations : List (Migration Content)} {stage after : Stage Content}
  {database : Database Content}

/-- A move that changes no contents and takes no lock. -/
theorem LockMove.of_same (hsame : SameContents database next)
    (hsingle : database.activeIds.length ≤ 1)
    (hholder : ∀ hold, stage.hold? = some hold → Holder stage hold database)
    (hhold : after.hold? = stage.hold?) (hknown : after.hold? ≠ none → after.known = stage.known) :
    LockMove stage after database next where
  holder := fun hold hafter => by
    have hbefore := hholder hold (hhold ▸ hafter)
    refine ⟨hbefore.own, ?_, ?_⟩
    · rw [Database.activeIds_of_locks hsame.locks, hbefore.active]
    · rw [hsame.versions, hknown (by simp [hafter])]
      exact hbefore.known
  single := by rwa [Database.activeIds_of_locks hsame.locks]
  others := .inr (.inr hsame)
  acquires := fun h => .inl (hhold ▸ h)

/-- A move of the holder that keeps the active locks. -/
theorem LockMove.of_holder {hold : Hold} (hactive : next.activeIds = database.activeIds)
    (hstage : stage.hold? = some hold) (hafter : after.hold? = some hold)
    (hholder : Holder stage hold database) (hknown : next.versions ⊆ after.known) :
    LockMove stage after database next where
  holder := fun hold' hsome => by
    cases hafter.symm.trans hsome
    exact ⟨hholder.own, hactive.trans hholder.active, hknown⟩
  single := by simp [hactive, hholder.active]
  others := .inl (by simp [hstage])
  acquires := fun _ => .inl (by simp [hstage])

/-- A move of the holder that gives the lock up. -/
theorem LockMove.of_close {hold : Hold}
    (hactive : next.activeIds = database.activeIds.filter (· ≠ hold.lock))
    (hstage : stage.hold? = some hold) (hafter : after.hold? = none)
    (hholder : Holder stage hold database) : LockMove stage after database next where
  holder := fun hold' hsome => by
    rw [hafter] at hsome
    cases hsome
  single := by
    rw [hactive, hholder.active]
    simp
  others := .inl (by simp [hstage])
  acquires := fun h => absurd hafter h

theorem Before.hold {hold : Hold} {known : List ℤ} {migration : Migration Content}
    {rest : Script Content} (hbefore : Before migrations stage hold known migration rest) :
    stage.hold? = some hold ∧ stage.known = known := by
  cases hbefore with
  | start | running => exact ⟨rfl, rfl⟩

/-- A row that is found active is among the active ones. -/
theorem mem_activeIds_of_select {integrity : Content → String} {row : MigrationLockRow}
    (h : (database.run integrity .selectActiveLock).1 = .ok (some row)) :
    row.id ∈ database.activeIds := by
  have hrow := run_selectActiveLock h
  exact mem_map_of_mem (Database.mem_of_mostRecent hrow.symm)

variable [DecidableEq Content] {integrity : Content → String}
  {surroundings : Surroundings JsError}
  {transaction : Option (Transaction (Database Content))} {log : Log Content}

/-- A process that is not disturbed takes a lock only when none is active, and then holds it
alone until it gives it up. -/
theorem Moves.lockMove {command : Command (Statement Content)}
    {answer : command.Answer (@Statement.Value Content) JsError}
    {performed : Performed (command.Answer (@Statement.Value Content) JsError) (Database Content)}
    (hmove : Moves migrations stage command answer after)
    (hassert : Assert migrations stage database transaction log)
    (hperformed : (engine integrity).perform surroundings command database transaction = performed)
    (hanswer : performed.answer = answer)
    (hcheck : Checked log → ActsOnCheck command → database.activeLocks = [] ∧
      ∀ versions : List ℤ, Exchange.returned .selectVersions versions ∈ log →
        ∀ version ∈ database.versions, version ∈ versions)
    (hsingle : database.activeIds.length ≤ 1)
    (hholder : ∀ hold, stage.hold? = some hold → Holder stage hold database) :
    LockMove stage after database performed.database := by
  cases hmove with
  | @quiet _ statement answer hquiet houtside =>
    obtain rfl := hassert.transaction_eq houtside
    obtain ⟨hsame, -⟩ := @perform_quiet _ _ integrity surroundings database _ hquiet
    rw [hperformed] at hsame
    exact .of_same hsame hsingle hholder (by simp) (by simp)
  | error error =>
    obtain ⟨-, hsame⟩ := hassert.error hperformed hanswer
    exact .of_same hsame hsingle hholder (by simp) (by simp)
  | now | uuid | rollbackWithin | rollbackRecorded =>
    subst hperformed
    exact .of_same (SameContents.refl database) hsingle hholder rfl fun _ => rfl
  | look versions =>
    obtain rfl : transaction = none := hassert.works
    obtain ⟨-, hdatabase, -⟩ := Engine.perform_execute_ok hperformed hanswer
    have hsame : SameContents database performed.database := hdatabase ▸ run_quiet .selectVersions
    exact .of_same hsame hsingle hholder rfl fun h => absurd rfl h
  | check | guard =>
    obtain rfl : transaction = none := hassert.works
    obtain ⟨-, hdatabase, -⟩ := Engine.perform_execute_ok hperformed hanswer
    have hsame : SameContents database performed.database := hdatabase ▸ run_quiet .selectActiveLock
    exact .of_same hsame hsingle hholder rfl fun h => absurd rfl h
  | insert versions row hactive =>
    obtain rfl : transaction = none := hassert.works
    obtain ⟨hrun, hdatabase, -⟩ := Engine.perform_execute_ok hperformed hanswer
    obtain ⟨hnone, hread⟩ := hcheck hassert.did.1 trivial
    have hids : performed.database.activeIds = [row.id] := by
      have hinserted := hdatabase.trans (@run_insertLock _ integrity _ _ hrun)
      rw [Database.activeIds_insert (congrArg Database.locks hinserted) hactive,
        Database.activeIds_eq_nil.mpr hnone, nil_append]
    have hversions : performed.database.versions = database.versions := by
      rw [hdatabase.trans (@run_insertLock _ integrity _ _ hrun)]
      rfl
    refine ⟨?_, by simp [hids], .inr (.inl (Database.activeIds_eq_nil.mpr hnone)),
      fun _ => .inr (Database.activeIds_eq_nil.mpr hnone)⟩
    rintro _ ⟨⟩
    refine ⟨rfl, hids, fun version hmem => hread versions hassert.did.2 version ?_⟩
    rwa [hversions] at hmem
  | take versions row =>
    obtain rfl : transaction = none := hassert.works
    obtain ⟨hrun, -, -⟩ := Engine.perform_execute_ok hperformed hanswer
    have hmem := @mem_activeIds_of_select _ _ integrity _ hrun
    rw [Database.activeIds_eq_nil.mpr (hcheck hassert.did.1 trivial).1] at hmem
    cases hmem
  | confirm versions own row =>
    obtain rfl : transaction = none := hassert.works
    obtain ⟨hrun, hdatabase, -⟩ := Engine.perform_execute_ok hperformed hanswer
    have hsame : SameContents database performed.database := hdatabase ▸ run_quiet .selectActiveLock
    have hbefore := hholder _ rfl
    have hmem := @mem_activeIds_of_select _ _ integrity _ hrun
    rw [hbefore.active, mem_singleton] at hmem
    refine .of_same hsame hsingle hholder ?_ fun _ => rfl
    exact congrArg (fun lock => some (Hold.mk lock (some own))) hmem
  | phase hold known phase now =>
    obtain rfl : transaction = none := hassert.works
    obtain ⟨hrun, hdatabase, -⟩ := Engine.perform_execute_ok hperformed hanswer
    have hbefore := hholder _ rfl
    have hupdated := hdatabase.trans (run_updateLocks hrun)
    have hactive : performed.database.activeIds = database.activeIds := by
      refine Database.activeIds_update (fun row => ?_) (congrArg Database.locks hupdated)
      split
      · exact ⟨rfl, rfl⟩
      · exact ⟨rfl, rfl⟩
    refine .of_holder hactive rfl rfl hbefore ?_
    rw [hupdated]
    exact hbefore.known
  | @migrate _ hold known migration change next schema hbefore =>
    obtain ⟨rfl, -, -, -, -, -⟩ := hbefore.leads hassert
    obtain ⟨-, hdatabase, -⟩ := Engine.perform_execute_ok hperformed hanswer
    have hhold := hbefore.hold
    have hheld := hholder _ hhold.1
    refine .of_holder (Database.activeIds_of_locks ?_) hhold.1 rfl hheld ?_
    · rw [hdatabase]
      rfl
    · have hversions : performed.database.versions = database.versions := by
        rw [hdatabase]
        rfl
      rw [hversions]
      exact hhold.2 ▸ hheld.known
  | @clock _ hold known migration time hbefore =>
    have hhold := hbefore.hold
    subst hperformed
    exact .of_same (SameContents.refl database) hsingle hholder hhold.1.symm fun _ => hhold.2.symm
  | record hold known migration now =>
    obtain ⟨rfl, -, -⟩ := hassert.works
    obtain ⟨hrun, hdatabase, -⟩ := Engine.perform_execute_ok hperformed hanswer
    have hinserted := hdatabase.trans (@run_insertVersion _ integrity _ _ _ hrun).2
    have hheld := hholder _ rfl
    have hlocks : performed.database.locks = database.locks := by
      rw [hinserted]
      rfl
    refine .of_holder (Database.activeIds_of_locks hlocks) rfl rfl hheld ?_
    have hadded : performed.database.versions = database.versions ++ [migration.version] := by
      rw [hinserted]
      simp [Database.versions]
    rw [hadded]
    exact append_subset.mpr ⟨List.Subset.trans hheld.known (subset_append_left ..),
      subset_append_right ..⟩
  | @begin hold known migration hdue hinside =>
    obtain ⟨hdatabase, -⟩ := Engine.perform_begin_ok hperformed hanswer
    rw [hdatabase]
    exact .of_same (SameContents.refl database) hsingle hholder rfl fun _ => rfl
  | beginError hold known error =>
    obtain ⟨hdatabase, -⟩ := Engine.perform_begin_error hperformed hanswer
    rw [hdatabase]
    exact .of_same (SameContents.refl database) hsingle hholder rfl fun _ => rfl
  | @migrateWithin | recordWithin =>
    obtain ⟨-, -, opened, rfl, -⟩ := hassert.works
    obtain ⟨-, hdatabase, -⟩ := Engine.perform_execute_ok_within hperformed hanswer
    rw [hdatabase]
    exact .of_same (SameContents.refl database) hsingle hholder rfl fun _ => rfl
  | commit hold known migration =>
    obtain ⟨-, -, base, copy, rfl, hcompletes⟩ := hassert.works
    obtain ⟨rfl, hdatabase, -⟩ := Engine.perform_commit_ok hperformed hanswer
    rw [hdatabase]
    have hheld := hholder _ rfl
    refine .of_holder (Database.activeIds_of_locks hcompletes.locks) rfl rfl hheld ?_
    rw [hcompletes.versions]
    exact append_subset.mpr ⟨List.Subset.trans hheld.known (subset_append_left ..),
      subset_append_right ..⟩
  | commitError hold known migration error =>
    obtain ⟨-, -, base, copy, rfl, -⟩ := hassert.works
    obtain ⟨hdatabase, -⟩ := Engine.perform_commit_error hperformed hanswer
    rw [hdatabase]
    exact .of_same (SameContents.refl database) hsingle hholder rfl fun _ => rfl
  | release | fail =>
    obtain rfl : transaction = none := hassert.works
    obtain ⟨hrun, hdatabase, -⟩ := Engine.perform_execute_ok hperformed hanswer
    have hupdated := hdatabase.trans (run_updateLocks hrun)
    exact .of_close (Database.activeIds_close (fun _ => by simp)
      (congrArg Database.locks hupdated)) rfl rfl (hholder _ rfl)
  | write operation change =>
    obtain rfl : transaction = none := hassert.works
    obtain ⟨-, hdatabase, -⟩ := Engine.perform_execute_ok hperformed hanswer
    have hnone := Database.activeIds_eq_nil.mpr (hcheck hassert.did trivial).1
    refine ⟨fun hold hsome => ?_, ?_, .inr (.inl hnone), fun h => absurd rfl h⟩
    · cases hsome
    · rw [hdatabase]
      exact hsingle

end Moves

/-! ## Runs -/

/-- At most one lock is active, and every unfinished process that works under a lock holds it
alone. -/
structure Exclusive (stages : ℕ → Stage Content) (system : Processes Content) : Prop where
  single : system.database.activeIds.length ≤ 1
  holder : ∀ process connection hold, system.connections process = some connection →
    Unfinished connection → (stages process).hold? = some hold →
    Holder (stages process) hold system.database
  unique : ∀ process other connection connection',
    system.connections process = some connection → Unfinished connection →
    (stages process).hold? ≠ none → system.connections other = some connection' →
    Unfinished connection' → (stages other).hold? ≠ none → process = other

section Runs

variable {integrity : Content → String} {migrations : List (Migration Content)}
  {stages : ℕ → Stage Content} {system : Processes Content}

namespace Exclusive

section

variable (h : Exclusive stages system)
include h

theorem begin (process : ℕ) (call : Call Content) :
    Exclusive (Function.update stages process (initial call))
      (system.put process (some (System.opening (Call.program migrations) call))) := by
  have hnone : (initial call : Stage Content).hold? = none := by cases call <;> rfl
  refine ⟨h.single, ?_, ?_⟩
  · intro other connection hold hother hunfinished hhold
    obtain ⟨rfl, rfl⟩ | ⟨hne, hbefore⟩ := System.connections_put_some hother
    · rw [update_self, hnone] at hhold
      cases hhold
    · rw [update_of_ne hne] at hhold ⊢
      exact h.holder other connection hold hbefore hunfinished hhold
  · intro first second connection connection' hfirst hunfinished hhold hsecond hunfinished' hhold'
    obtain ⟨rfl, rfl⟩ | ⟨hne, hbefore⟩ := System.connections_put_some hfirst
    · rw [update_self] at hhold
      exact absurd hnone hhold
    · obtain ⟨rfl, rfl⟩ | ⟨hne', hbefore'⟩ := System.connections_put_some hsecond
      · rw [update_self] at hhold'
        exact absurd hnone hhold'
      · rw [update_of_ne hne] at hhold
        rw [update_of_ne hne'] at hhold'
        exact h.unique first second connection connection' hbefore hunfinished hhold hbefore'
          hunfinished' hhold'

theorem crash (process : ℕ) :
    Exclusive stages (system.put process none) where
  single := h.single
  holder := fun other connection hold hother =>
    h.holder other connection hold (System.connections_put_none hother).2
  unique := fun first second connection connection' hfirst hunfinished hhold hsecond =>
    h.unique first second connection connection' (System.connections_put_none hfirst).2
      hunfinished hhold (System.connections_put_none hsecond).2

/-- Taking away a lock that no unfinished process inserted disturbs no holder. -/
theorem recover (hasserted : Asserted migrations stages system)
    (recovery : Recovery) (hundisturbed : Undisturbed system (.interfere recovery)) :
    Exclusive stages { system with database := recovery.effect integrity system.database } where
  single := by
    rw [recovery_activeIds]
    exact (length_filter_le _ _).trans h.single
  holder := fun process connection hold hconnection hunfinished hhold => by
    have hheld := h.holder process connection hold hconnection hunfinished hhold
    obtain ⟨lock, -, hid, howns⟩ := hheld.owns hhold (hasserted process connection hconnection)
    have hne : hold.lock ≠ recovery.lockId := by
      intro hsame
      rw [hid, hsame] at howns
      exact hundisturbed process connection hconnection hunfinished howns
    refine ⟨hheld.own, ?_, ?_⟩
    · show (recovery.effect integrity system.database).activeIds = [hold.lock]
      rw [recovery_activeIds, hheld.active]
      simp [hne]
    · show (recovery.effect integrity system.database).versions ⊆ _
      rw [(recovery_contents recovery system.database).1]
      exact hheld.known
  unique := h.unique

theorem advance {command : Command (Statement Content)}
    {rest : command.Answer Statement.Value JsError → Work Statement.Value JsError Unit}
    {performed : Performed (command.Answer Statement.Value JsError) (Database Content)}
    {after : Stage Content} (hconnection : system.connections process = some connection)
    (hrest : connection.rest = .perform command rest)
    (hmove : LockMove (stages process) after system.database performed.database) :
    Exclusive (Function.update stages process after)
      (system.afterCommand process connection command rest performed) := by
  have hunfinished : Unfinished connection := ⟨command, rest, hrest⟩
  -- A holder other than the process that moved sees the contents it saw before.
  have hothers : ∀ other connection' hold, other ≠ process →
      system.connections other = some connection' → Unfinished connection' →
      (stages other).hold? = some hold → SameContents system.database performed.database := by
    intro other connection' hold hne hother hgoes hhold
    obtain hholds | hnone | hsame := hmove.others
    · exact absurd (h.unique other process connection' connection hother hgoes
        (by simp [hhold]) hconnection hunfinished hholds) hne
    · have hactive := (h.holder other connection' hold hother hgoes hhold).active
      rw [hnone] at hactive
      cases hactive
    · exact hsame
  refine ⟨hmove.single, ?_, ?_⟩
  · intro other connection' hold hother hgoes hhold
    obtain ⟨rfl, rfl⟩ | ⟨hne, hbefore⟩ := System.connections_afterCommand hother
    · rw [update_self] at hhold ⊢
      exact hmove.holder hold hhold
    · rw [update_of_ne hne] at hhold ⊢
      have hheld := h.holder other connection' hold hbefore hgoes hhold
      have hsame := hothers other connection' hold hne hbefore hgoes hhold
      refine ⟨hheld.own, (Database.activeIds_of_locks hsame.locks).trans hheld.active, ?_⟩
      rw [System.database_afterCommand, hsame.versions]
      exact hheld.known
  · -- The process that moved holds a lock only if it did before, or none was active.
    have hfresh : ∀ other connection', other ≠ process → after.hold? ≠ none →
        system.connections other = some connection' → Unfinished connection' →
        (stages other).hold? ≠ none → False := by
      intro other connection' hne hafter hother hgoes hhold
      obtain hholds | hnone := hmove.acquires hafter
      · exact hne (h.unique other process connection' connection hother hgoes hhold hconnection
          hunfinished hholds)
      · obtain ⟨hold, hsome⟩ := ne_none_iff_exists'.mp hhold
        have hactive := (h.holder other connection' hold hother hgoes hsome).active
        rw [hnone] at hactive
        cases hactive
    intro first second connection₁ connection₂ hfirst hgoes hhold hsecond hgoes' hhold'
    obtain ⟨rfl, rfl⟩ | ⟨hne, hbefore⟩ := System.connections_afterCommand hfirst
    · obtain ⟨rfl, rfl⟩ | ⟨hne', hbefore'⟩ := System.connections_afterCommand hsecond
      · rfl
      · rw [update_self] at hhold
        rw [update_of_ne hne'] at hhold'
        exact (hfresh second connection₂ hne' hhold hbefore' hgoes' hhold').elim
    · rw [update_of_ne hne] at hhold
      obtain ⟨rfl, rfl⟩ | ⟨hne', hbefore'⟩ := System.connections_afterCommand hsecond
      · rw [update_self] at hhold'
        exact (hfresh first connection₁ hne hhold' hbefore hgoes hhold).elim
      · rw [update_of_ne hne'] at hhold'
        exact h.unique first second connection₁ connection₂ hbefore hgoes hhold hbefore' hgoes'
          hhold'

end

end Exclusive

/-- A process that can go on with a statement of a migration, its row or its commit works under
a lock. -/
theorem hold?_of_ofMigration {stage : Stage Content} {command : Command (Statement Content)}
    {rest : command.Answer Statement.Value JsError → Work Statement.Value JsError Unit}
    {post : Stage Content → Log Content → Except JsError Unit → Prop} {log : Log Content}
    (hobeys : Obeys (Moves migrations) post stage log (.perform command rest))
    (hof : OfMigration command) (schema : Schema Content) : ∃ hold, stage.hold? = some hold := by
  cases command with
  | execute statement =>
    cases statement with
    | migrate version change =>
      obtain ⟨after, hmove, -⟩ := hobeys (.ok schema)
      cases hmove with
      | quiet _ hquiet => cases hquiet
      | migrate _ hbefore => exact ⟨_, hbefore.hold.1⟩
      | migrateWithin => exact ⟨_, rfl⟩
    | insertVersion version now =>
      obtain ⟨after, hmove, -⟩ := hobeys (.ok ())
      cases hmove with
      | quiet _ hquiet => cases hquiet
      | record => exact ⟨_, rfl⟩
      | recordWithin => exact ⟨_, rfl⟩
    | _ => exact hof.elim
  | commit =>
    obtain ⟨after, hmove, -⟩ := hobeys (.ok ())
    cases hmove with
    | commit => exact ⟨_, rfl⟩
  | _ => exact hof.elim

/-- Outside a transaction a statement of a migration is performed only if its row is not
known. -/
theorem fresh_of_migrate {stage : Stage Content} {version : ℤ}
    {change : Schema Content → Schema Content}
    {rest : Except JsError (Schema Content) → Work Statement.Value JsError Unit}
    {post : Stage Content → Log Content → Except JsError Unit → Prop} {log : Log Content}
    {database : Database Content} {transaction : Option (Transaction (Database Content))}
    (hobeys : Obeys (Moves migrations) post stage log
      (.perform (.execute (.migrate version change)) rest))
    (hassert : Assert migrations stage database transaction log)
    (hnone : transaction = none) : version ∉ stage.known := by
  obtain ⟨after, hmove, -⟩ := hobeys (.ok database.schema)
  cases hmove with
  | quiet _ hquiet => cases hquiet
  | migrate _ hbefore =>
    rw [hbefore.hold.2]
    exact (hbefore.leads hassert).2.2.1.fresh
  | migrateWithin =>
    obtain ⟨-, -, opened, hopened, -⟩ := hassert.works
    rw [hnone] at hopened
    cases hopened

variable [DecidableEq Content]

/-- The move that an undisturbed process makes, seen from the locks. -/
theorem Exclusive.lockMove (h : Exclusive stages system)
    (hasserted : Asserted migrations stages system) {surroundings : Surroundings JsError}
    {command : Command (Statement Content)}
    {rest : command.Answer Statement.Value JsError → Work Statement.Value JsError Unit}
    {after : Stage Content} (hundisturbed : Undisturbed system (.advance process surroundings))
    (hconnection : system.connections process = some connection)
    (hrest : connection.rest = .perform command rest)
    (hmove : Moves migrations (stages process) command
      ((engine integrity).perform surroundings command system.database
        connection.transaction).answer after) :
    LockMove (stages process) after system.database
      ((engine integrity).perform surroundings command system.database
        connection.transaction).database :=
  hmove.lockMove (hasserted process connection hconnection) rfl rfl
    (hundisturbed connection command rest hconnection hrest) h.single
    fun hold hhold => h.holder process connection hold hconnection ⟨command, rest, hrest⟩ hhold

/-- In an undisturbed run every process is at a stage, and locks exclude each other. -/
theorem exists_exclusive_stages
    (hordered : migrations.Pairwise fun first second => first.version < second.version)
    {database : Database Content} (hsingle : database.activeLocks.length ≤ 1)
    {steps : List (Step Content)} {last : Processes Content}
    (run : Run (Meeting Undisturbed (Takes (step? integrity migrations)))
      (System.idle database) steps last) :
    ∃ stages, (Asserted migrations stages last ∧ Exclusive stages last) ∧
      System.Staged (Moves migrations) (Post migrations) stages last := by
  refine @System.invariant_of_obeys _ _ _ _ _ _ _ _ _ _ _ _ _ _ Undisturbed
    (fun stages system => Asserted migrations stages system ∧ Exclusive stages system)
    (obeys_program hordered)
    (fun stages system process call h _ => ⟨h.1.begin process call, h.2.begin process call⟩)
    (fun stages system process surroundings connection command rest after h hundisturbed
      hconnection hrest hmove => ⟨h.1.advance hconnection hmove, h.2.advance hconnection hrest
        (h.2.lockMove h.1 hundisturbed hconnection hrest hmove)⟩)
    (fun stages system process h => ⟨h.1.crash process, h.2.crash process⟩)
    (fun stages system recovery h hundisturbed =>
      ⟨h.1.recover recovery, h.2.recover h.1 recovery hundisturbed⟩) _ _ _ run ?_
  have hidle : ∀ process connection,
      (System.idle database : Processes Content).connections process ≠ some connection :=
    nofun
  refine ⟨fun _ => .opening, ⟨fun process connection h => absurd h (hidle process connection), ?_,
    fun process connection hold h => absurd h (hidle process connection),
    fun process other connection connection' h => absurd h (hidle process connection)⟩,
    System.staged_idle _ _⟩
  show (database.activeLocks.map (·.id)).length ≤ 1
  rwa [length_map]

theorem exclusiveStep_of_staged {step : Step Content} {next : Processes Content}
    (hasserted : Asserted migrations stages system) (hexclusive : Exclusive stages system)
    (hstaged : System.Staged (Moves migrations) (Post migrations) stages system)
    (hundisturbed : Undisturbed system step)
    (htaken : step? integrity migrations system step = some next) :
    ExclusiveStep system step next where
  single := by
    have hids := hexclusive.single
    rwa [Database.activeIds, length_map] at hids
  owner := fun lock hlock => by
    obtain ⟨process, call, rfl, hnone, rfl⟩ |
        ⟨process, surroundings, connection, command, rest, rfl, hconnection, hrest, rfl⟩ |
        ⟨process, connection, rfl, hconnection, rfl⟩ | ⟨recovery, rfl, rfl⟩ :=
      System.step?_cases _ _ _ htaken
    · exact .inl (SameContents.refl _)
    · have hobeys := hstaged process connection hconnection
      rw [hrest] at hobeys
      obtain ⟨after, hmove, -⟩ := hobeys ((engine integrity).perform surroundings command
        system.database connection.transaction).answer
      have hmem : lock.id ∈ system.database.activeIds := mem_map_of_mem hlock
      obtain hholds | hnone | hsame := (hexclusive.lockMove hasserted hundisturbed hconnection
        hrest hmove).others
      · obtain ⟨hold, hhold⟩ := ne_none_iff_exists'.mp hholds
        have hheld := hexclusive.holder process connection hold hconnection ⟨_, _, hrest⟩ hhold
        obtain ⟨own, -, hid, howns⟩ := hheld.owns hhold (hasserted process connection hconnection)
        rw [hheld.active, mem_singleton, ← hid] at hmem
        exact .inr (.inr ⟨process, surroundings, connection, rfl, hconnection, hmem ▸ howns⟩)
      · rw [hnone] at hmem
        cases hmem
      · exact .inl hsame
    · exact .inl (SameContents.refl _)
    · exact .inr (.inl ⟨recovery, rfl⟩)
  migrating := fun process surroundings connection command rest _ hconnection hrest hof => by
    have hassert := hasserted process connection hconnection
    have hobeys := hstaged process connection hconnection
    rw [hrest] at hobeys
    obtain ⟨hold, hhold⟩ := hold?_of_ofMigration hobeys hof system.database.schema
    have hheld := hexclusive.holder process connection hold hconnection ⟨_, _, hrest⟩ hhold
    obtain ⟨lock, hlock, -, howns⟩ := hheld.owns hhold hassert
    refine ⟨lock, hlock, howns, ?_⟩
    rintro version change rfl hnone hmem
    exact fresh_of_migrate hobeys hassert hnone (hheld.known hmem)

end Runs

/-! ## The result -/

/-- What running the migrations guarantees. -/
structure MigratesSafely [DecidableEq Content] (integrity : Content → String)
    (migrations : List (Migration Content)) : Prop where
  steps : ∀ (database : Database Content) steps last step next,
    Run (Takes (step? integrity migrations)) (System.idle database) steps last →
    step? integrity migrations last step = some next → ContentsStep migrations last step next
  returns : ∀ (database : Database Content) steps last,
    Run (Takes (step? integrity migrations)) (System.idle database) steps last →
    ReturnsSoundly migrations last
  exclusive : ∀ (database : Database Content) steps last step next,
    database.activeLocks.length ≤ 1 →
    Run (Meeting Undisturbed (Takes (step? integrity migrations))) (System.idle database) steps
      last → Undisturbed last step → step? integrity migrations last step = some next →
    ExclusiveStep last step next

/-- Migrations in increasing order are applied in order, once and whole, and in undisturbed
runs under one lock. -/
theorem migrations_run_safely [DecidableEq Content] (integrity : Content → String)
    (migrations : List (Migration Content))
    (hordered : migrations.Pairwise fun first second => first.version < second.version) :
    MigratesSafely integrity migrations where
  steps := fun database steps last step next run htaken => by
    obtain ⟨stages, hasserted, hstaged⟩ := exists_stages hordered run
    exact contentsStep_of_staged hasserted hstaged htaken
  returns := fun database steps last run => by
    obtain ⟨stages, hasserted, hstaged⟩ := exists_stages hordered run
    exact returnsSoundly_of_staged hasserted hstaged
  exclusive := fun database steps last step next hsingle run hundisturbed htaken => by
    obtain ⟨stages, ⟨hasserted, hexclusive⟩, hstaged⟩ :=
      exists_exclusive_stages hordered hsingle run
    exact exclusiveStep_of_staged hasserted hexclusive hstaged hundisturbed htaken

/-- A statement that counts itself. -/
def countUp (schema : Schema ℕ) : Schema ℕ := { schema with content := schema.content + 1 }

/-- A migration in a transaction and one outside. -/
def twoMigrations : List (Migration ℕ) :=
  [⟨1, none, .statement countUp fun _ => .done⟩, ⟨2, some false, .statement countUp fun _ => .done⟩]

theorem twoMigrations_run_safely : MigratesSafely (fun _ => "ok") twoMigrations :=
  migrations_run_safely (fun _ => "ok") twoMigrations (by simp [twoMigrations])

/-! ## What is not guaranteed -/

section Failures

variable [DecidableEq Content] (integrity : Content → String)
  (migrations : List (Migration Content))

/-- Whoever records a version has inserted a lock. -/
def OnlyOwnersRecord : Prop :=
  ∀ (database : Database Content) steps last,
    Run (Takes (step? integrity migrations)) (System.idle database) steps last →
    ∀ process connection version now, last.connections process = some connection →
      Exchange.returned (.insertVersion version now) () ∈ connection.log →
      ∃ lockId, Owns connection.log lockId

/-- A call that returns leaves every migration with its row. -/
def ReturnsMigrated : Prop :=
  ∀ (database : Database Content) steps last,
    Run (Takes (step? integrity migrations)) (System.idle database) steps last →
    ∀ process connection pid options, last.connections process = some connection →
      connection.call = .migrate pid options → connection.rest = .finish (.ok ()) →
      ∀ migration ∈ migrations, migration.version ∈ last.database.versions

/-- A statement of a migration commits nothing by itself. -/
def CommitsWithRow : Prop :=
  ∀ (database : Database Content) steps last next process surroundings connection version change
      rest, Run (Takes (step? integrity migrations)) (System.idle database) steps last →
    last.connections process = some connection →
    connection.rest = .perform (.execute (.migrate version change)) rest →
    step? integrity migrations last (.advance process surroundings) = some next →
    next.database.schema = last.database.schema

end Failures

/-- A database without tables. -/
def emptyDatabase : Database ℕ := ⟨none, false, none, ⟨[], 0⟩⟩

def plainCall : Call ℕ := .migrate 1 ⟨none, none⟩

/-- A process performs its next commands, with this text for its id. -/
def advances (process : ℕ) (uuid : String) (count : ℕ) : List (Step ℕ) :=
  List.replicate count (.advance process ⟨none, 0, uuid⟩)

/-- Both processes find no lock; the second gets the lock that the first has inserted. -/
def takenLock : List (Step ℕ) :=
  [.begin 0 plainCall, .begin 1 plainCall] ++ advances 0 "a" 9 ++ advances 1 "b" 9 ++
    advances 0 "a" 7 ++ advances 1 "b" 14

def insertedLock : Exchange (@Statement.Value ℕ) JsError → Bool
  | ⟨.execute (.insertLock _), _⟩ => true
  | _ => false

def recordedVersion : Exchange (@Statement.Value ℕ) JsError → Option (ℤ × ℤ)
  | ⟨.execute (.insertVersion version now), .ok _⟩ => some (version, now)
  | _ => none

/-- A database with a lock that a crash left behind. -/
def lockedDatabase : Database ℕ :=
  ⟨some [{ id := "left", status := .active, lockedBy := "pid:1", phase := .apply, startedAt := 0
           updatedAt := 0, releasedAt := none, backupSnapshotId := none
           pendingVersionsJson := none, verifyReportJson := none, errorMessage := none
           rollbackRunbookRef := none }], true, none, ⟨[], 0⟩⟩

theorem takenLock_not_owned : ¬ OnlyOwnersRecord (fun _ => "ok") twoMigrations := by
  intro howners
  obtain ⟨last, hlast⟩ : ∃ last, execute (step? (fun _ => "ok") twoMigrations)
      (System.idle emptyDatabase) takenLock = some last :=
    isSome_iff_exists.mp (by decide +kernel)
  have hlog : ((execute (step? (fun _ => "ok") twoMigrations) (System.idle emptyDatabase)
      takenLock).bind fun last => (last.connections 1).map fun connection =>
        (connection.log.any insertedLock, connection.log.filterMap recordedVersion)) =
      some (false, [(1, 0)]) := by
    decide +kernel
  rw [hlast, bind_some, map_eq_some_iff] at hlog
  obtain ⟨connection, hconnection, hanswers⟩ := hlog
  obtain ⟨hnone, hrecorded⟩ := Prod.mk.inj hanswers
  have hmem : Exchange.returned (.insertVersion 1 0) () ∈ connection.log := by
    have hone : ((1, 0) : ℤ × ℤ) ∈ connection.log.filterMap recordedVersion := by
      rw [hrecorded]
      exact mem_singleton_self _
    obtain ⟨exchange, hexchange, hsome⟩ := mem_filterMap.mp hone
    unfold recordedVersion at hsome
    split at hsome
    · next version now value =>
      cases Option.some.inj hsome
      exact hexchange
    · cases hsome
  obtain ⟨lockId, row, -, hinserted⟩ := howners emptyDatabase takenLock last
    (Run.of_execute hlast) 1 connection 1 0 hconnection hmem
  exact any_eq_false.mp hnone _ hinserted rfl

/-- Has the call returned? -/
def hasReturned : Work (@Statement.Value ℕ) JsError Unit → Bool
  | .finish (.ok _) => true
  | _ => false

def isMigrateCall : Call ℕ → Bool
  | .migrate _ _ => true
  | .write _ _ => false

theorem lockedDatabase_not_migrated : ¬ ReturnsMigrated (fun _ => "ok") twoMigrations := by
  intro hreturns
  obtain ⟨last, hlast⟩ : ∃ last, execute (step? (fun _ => "ok") twoMigrations)
      (System.idle lockedDatabase) ([.begin 0 plainCall] ++ advances 0 "a" 7) = some last :=
    isSome_iff_exists.mp (by decide +kernel)
  have hend : ((execute (step? (fun _ => "ok") twoMigrations) (System.idle lockedDatabase)
      ([.begin 0 plainCall] ++ advances 0 "a" 7)).bind fun last =>
        (last.connections 0).map fun connection => (hasReturned connection.rest,
          isMigrateCall connection.call, last.database.versions)) = some (true, true, []) := by
    decide +kernel
  rw [hlast, bind_some, map_eq_some_iff] at hend
  obtain ⟨connection, hconnection, hends⟩ := hend
  obtain ⟨hreturned, hmigrate, hversions⟩ : hasReturned connection.rest ∧
      isMigrateCall connection.call ∧ last.database.versions = [] := by
    simpa using hends
  obtain ⟨pid, options, hcall⟩ : ∃ pid options, connection.call = .migrate pid options := by
    cases hcall : connection.call with
    | migrate pid options => exact ⟨pid, options, rfl⟩
    | write operation change =>
      rw [hcall] at hmigrate
      cases hmigrate
  have hrest : connection.rest = .finish (.ok ()) := by
    cases hrest : connection.rest with
    | finish result =>
      cases result with
      | ok => rfl
      | error error =>
        rw [hrest] at hreturned
        cases hreturned
    | perform command next =>
      rw [hrest] at hreturned
      cases hreturned
  have hmem := hreturns lockedDatabase _ last (Run.of_execute hlast) 0 connection pid options
    hconnection hcall hrest _ mem_cons_self
  rw [hversions] at hmem
  exact not_mem_nil hmem

/-- Is the next command a statement of a migration? -/
def isMigrating : Work (@Statement.Value ℕ) JsError Unit → Bool
  | .perform (.execute (.migrate _ _)) _ => true
  | _ => false

/-- The second migration, with the row of the first one in the database already. -/
def halfDatabase : Database ℕ := ⟨none, false, some [⟨1, 0⟩], ⟨[], 0⟩⟩

theorem halfDatabase_commits_alone : ¬ CommitsWithRow (fun _ => "ok") twoMigrations := by
  intro hcommits
  obtain ⟨last, hlast⟩ : ∃ last, execute (step? (fun _ => "ok") twoMigrations)
      (System.idle halfDatabase) ([.begin 0 plainCall] ++ advances 0 "a" 23) = some last :=
    isSome_iff_exists.mp (by decide +kernel)
  have hstep : ((execute (step? (fun _ => "ok") twoMigrations) (System.idle halfDatabase)
      ([.begin 0 plainCall] ++ advances 0 "a" 23)).bind fun last =>
        ((step? (fun _ => "ok") twoMigrations last (.advance 0 ⟨none, 0, "a"⟩)).bind fun next =>
          (last.connections 0).map fun connection => (isMigrating connection.rest,
            last.database.schema.content, next.database.schema.content))) =
      some (true, 0, 1) := by
    decide +kernel
  rw [hlast, bind_some, bind_eq_some_iff] at hstep
  obtain ⟨next, hnext, hstep⟩ := hstep
  rw [map_eq_some_iff] at hstep
  obtain ⟨connection, hconnection, hcontents⟩ := hstep
  obtain ⟨hmigrating, hbefore, hafter⟩ : isMigrating connection.rest ∧
      last.database.schema.content = 0 ∧ next.database.schema.content = 1 := by
    simpa using hcontents
  obtain ⟨version, change, rest, hrest⟩ : ∃ version change rest,
      connection.rest = .perform (.execute (.migrate version change)) rest := by
    generalize connection.rest = rest at hmigrating
    unfold isMigrating at hmigrating
    split at hmigrating
    · exact ⟨_, _, _, rfl⟩
    · cases hmigrating
  have hsame := hcommits halfDatabase _ last next 0 ⟨none, 0, "a"⟩ connection version change rest
    (Run.of_execute hlast) hconnection hrest hnext
  rw [hsame, hbefore] at hafter
  cases hafter

/-- A process can migrate under the lock of another one, a call can return while nothing is
migrated, and a statement outside a transaction is committed without the row. -/
theorem twoMigrations_not_exclusive :
    ¬ OnlyOwnersRecord (fun _ => "ok") twoMigrations ∧
      ¬ ReturnsMigrated (fun _ => "ok") twoMigrations ∧
      ¬ CommitsWithRow (fun _ => "ok") twoMigrations :=
  ⟨takenLock_not_owned, lockedDatabase_not_migrated, halfDatabase_commits_alone⟩

end Nobie.Db
