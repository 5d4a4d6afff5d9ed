/-
# Programs on connections to one database

Several programs share a database, each through a connection of its own. Outside a
transaction a statement takes effect at once; inside one it works on a copy, which
replaces the database at the commit if nothing was committed since the copy was made. Any
statement can fail and any program can crash between two commands. What a program may do
is said by stages and the moves between them; a program that obeys the moves keeps every
invariant that each move keeps.
-/

import Nobie.Foundation.Interleaving
import Mathlib.Data.Int.Notation

namespace Nobie.Foundation

/-! ## Commands -/

/-- What a program asks of its connection and of its surroundings. -/
inductive Command (Statement : Type) : Type
  | execute (statement : Statement)
  | begin
  | commit | rollback | now | randomUUID

variable {Statement Error Database Call Act : Type} {Value : Statement → Type}

/-- The answers to a command. Statements, `begin` and `commit` can fail. -/
def Command.Answer (Value : Statement → Type) (Error : Type) : Command Statement → Type
  | .execute statement => Except Error (Value statement)
  | .begin => Except Error Unit
  | .commit => Except Error Unit
  | .rollback => Unit
  | .now => ℤ
  | .randomUUID => String

/-- How a database executes a statement. -/
structure Engine (Statement Error Database : Type) (Value : Statement → Type) where
  run : (statement : Statement) → Database → Except Error (Value statement) × Database
  /-- The error of a transaction whose copy is out of date. -/
  busy : Error

/-- What a command finds outside the database: a failure of its own, the clock, a random
text. -/
structure Surroundings (Error : Type) where
  failure : Option Error
  time : ℤ
  uuid : String

/-- A transaction reads the database at its first statement. -/
inductive Transaction (Database : Type)
  | begun
  | opened (base copy : Database)

/-- The database as the transaction found it. -/
def Transaction.base : Transaction Database → Database → Database
  | .begun, database => database
  | .opened base _, _ => base

/-- The database as the transaction has it now. -/
def Transaction.copy : Transaction Database → Database → Database
  | .begun, database => database
  | .opened _ copy, _ => copy

/-- What a command leaves: its answer, the database and the open transaction. -/
structure Performed (Answer Database : Type) where
  answer : Answer
  database : Database
  transaction : Option (Transaction Database)

variable {statement : Statement} {value : Value statement}
  {performed : Performed (Except Error Unit) Database} {error : Error} {base copy : Database}
  {process other : ℕ}

namespace Engine

variable [DecidableEq Database] (engine : Engine Statement Error Database Value)

/-- A statement outside or inside a transaction. -/
def runStatement (statement : Statement) (database : Database) :
    Option (Transaction Database) → Performed (Except Error (Value statement)) Database
  | none => ⟨(engine.run statement database).1, (engine.run statement database).2, none⟩
  | some transaction =>
    ⟨(engine.run statement (transaction.copy database)).1, database,
      some (.opened (transaction.base database)
        (engine.run statement (transaction.copy database)).2)⟩

/-- The copy replaces the database if that still is what the transaction found. -/
def runCommit (database : Database) :
    Option (Transaction Database) → Performed (Except Error Unit) Database
  | some (.opened base copy) =>
    if database = base then ⟨.ok (), copy, none⟩
    else ⟨.error engine.busy, database, some (.opened base copy)⟩
  | _ => ⟨.ok (), database, none⟩

def perform (surroundings : Surroundings Error) :
    (command : Command Statement) → Database → Option (Transaction Database) →
      Performed (command.Answer Value Error) Database
  | .execute statement, database, transaction =>
    match surroundings.failure with
    | some error => ⟨.error error, database, transaction⟩
    | none => engine.runStatement statement database transaction
  | .begin, database, transaction =>
    match surroundings.failure with
    | some error => ⟨.error error, database, transaction⟩
    | none => ⟨.ok (), database, some (transaction.getD .begun)⟩
  | .commit, database, transaction =>
    match surroundings.failure with
    | some error => ⟨.error error, database, transaction⟩
    | none => engine.runCommit database transaction
  | .rollback, database, _ => ⟨(), database, none⟩
  | .now, database, transaction => ⟨surroundings.time, database, transaction⟩
  | .randomUUID, database, transaction => ⟨surroundings.uuid, database, transaction⟩

/-- A statement fails for a reason of its own, or it is run. -/
theorem perform_execute (surroundings : Surroundings Error) (statement : Statement)
    (database : Database) (transaction : Option (Transaction Database)) :
    (∃ error, engine.perform surroundings (.execute statement) database transaction =
      ⟨.error error, database, transaction⟩) ∨
    engine.perform surroundings (.execute statement) database transaction =
      engine.runStatement statement database transaction := by
  cases hfailure : surroundings.failure with
  | none =>
    right
    simp only [perform, hfailure]
    rfl
  | some error => exact .inl ⟨error, by simp only [perform, hfailure]⟩

section Performed

variable {engine : Engine Statement Error Database Value} {surroundings : Surroundings Error}
  {database : Database}

/-- Outside a transaction a statement that does not fail takes effect at once. -/
theorem perform_execute_ok {performed : Performed (Except Error (Value statement)) Database}
    (hperformed : engine.perform surroundings (.execute statement) database none = performed)
    (hanswer : performed.answer = .ok value) :
    (engine.run statement database).1 = .ok value ∧
      performed.database = (engine.run statement database).2 ∧ performed.transaction = none := by
  obtain ⟨error, hfailed⟩ | hrun := engine.perform_execute surroundings statement database none
  · rw [← hperformed, hfailed] at hanswer
    cases hanswer
  · obtain rfl := hrun.symm.trans hperformed
    exact ⟨hanswer, rfl, rfl⟩

/-- Inside a transaction a statement that does not fail takes effect on the copy. -/
theorem perform_execute_ok_within {transaction : Transaction Database}
    {performed : Performed (Except Error (Value statement)) Database}
    (hperformed : engine.perform surroundings (.execute statement) database (some transaction) =
      performed) (hanswer : performed.answer = .ok value) :
    (engine.run statement (transaction.copy database)).1 = .ok value ∧
      performed.database = database ∧
      performed.transaction = some (.opened (transaction.base database)
        (engine.run statement (transaction.copy database)).2) := by
  obtain ⟨error, hfailed⟩ | hrun :=
    engine.perform_execute surroundings statement database (some transaction)
  · rw [← hperformed, hfailed] at hanswer
    cases hanswer
  · obtain rfl := hrun.symm.trans hperformed
    exact ⟨hanswer, rfl, rfl⟩

variable {transaction : Option (Transaction Database)}

section

variable (hperformed : engine.perform surroundings .begin database transaction = performed)
include hperformed

theorem perform_begin_ok
    (hanswer : performed.answer = .ok ()) :
    performed.database = database ∧ performed.transaction = some (transaction.getD .begun) := by
  subst hperformed
  cases hfailure : surroundings.failure with
  | none => exact ⟨by simp only [perform, hfailure], by simp only [perform, hfailure]⟩
  | some error =>
    simp only [perform, hfailure] at hanswer
    cases hanswer

theorem perform_begin_error
    (hanswer : performed.answer = .error error) :
    performed.database = database ∧ performed.transaction = transaction := by
  subst hperformed
  cases hfailure : surroundings.failure with
  | none =>
    simp only [perform, hfailure] at hanswer
    cases hanswer
  | some other => exact ⟨by simp only [perform, hfailure], by simp only [perform, hfailure]⟩

end

section

variable (hperformed : engine.perform surroundings .commit database (some (.opened base copy)) =
  performed)
include hperformed

/-- A commit that does not fail puts the copy in the place of what it was made from. -/
theorem perform_commit_ok (hanswer : performed.answer = .ok ()) :
    database = base ∧ performed.database = copy ∧ performed.transaction = none := by
  subst hperformed
  cases hfailure : surroundings.failure with
  | some error =>
    simp only [perform, hfailure] at hanswer
    cases hanswer
  | none =>
    simp only [perform, hfailure, runCommit] at hanswer ⊢
    by_cases hbase : database = base
    · rw [if_pos hbase]
      exact ⟨hbase, rfl, rfl⟩
    · rw [if_neg hbase] at hanswer
      cases hanswer

theorem perform_commit_error (hanswer : performed.answer = .error error) :
    performed.database = database ∧ performed.transaction = some (.opened base copy) := by
  subst hperformed
  cases hfailure : surroundings.failure with
  | some other => exact ⟨by simp only [perform, hfailure], by simp only [perform, hfailure]⟩
  | none =>
    simp only [perform, hfailure, runCommit] at hanswer ⊢
    by_cases hbase : database = base
    · rw [if_pos hbase] at hanswer
      cases hanswer
    · rw [if_neg hbase]
      exact ⟨rfl, rfl⟩

end

end Performed

end Engine

/-! ## Systems of connections -/

/-- A command with its answer. -/
abbrev Exchange (Value : Statement → Type) (Error : Type) :=
  (command : Command Statement) × command.Answer Value Error

/-- A statement that was executed without failing. -/
def Exchange.returned (statement : Statement) (value : Value statement) : Exchange Value Error :=
  ⟨.execute statement, .ok value⟩

/-- Programs of a connection. They return or throw. -/
abbrev Work (Value : Statement → Type) (Error Result : Type) :=
  Program (Command Statement) (Command.Answer Value Error) (Except Error Result)

/-- A call, what is left of its program, its open transaction and what it was answered. -/
structure Connection (Call Error Database : Type) (Value : Statement → Type) where
  call : Call
  rest : Work Value Error Unit
  transaction : Option (Transaction Database)
  log : List (Exchange Value Error)

structure System (Call Error Database : Type) (Value : Statement → Type) where
  database : Database
  connections : ℕ → Option (Connection Call Error Database Value)

/-- A call begins, performs its next command or crashes; or something outside acts on the
database. -/
inductive Turning (Call Act Error : Type)
  | begin (process : ℕ) (call : Call)
  | advance (process : ℕ) (surroundings : Surroundings Error)
  | crash (process : ℕ)
  | interfere (act : Act)

variable (system : System Call Error Database Value)
  {connection connection' : Connection Call Error Database Value}

namespace System

def idle (database : Database) : System Call Error Database Value := ⟨database, fun _ => none⟩

def put (system : System Call Error Database Value) (process : ℕ)
    (connection : Option (Connection Call Error Database Value)) :
    System Call Error Database Value :=
  { system with connections := Function.update system.connections process connection }

@[simp]
theorem connections_put_self (process : ℕ)
    (connection : Option (Connection Call Error Database Value)) :
    (system.put process connection).connections process = connection :=
  Function.update_self ..

theorem connections_put_of_ne (connection : Option (Connection Call Error Database Value))
    (hne : other ≠ process) :
    (system.put process connection).connections other = system.connections other :=
  Function.update_of_ne hne ..

/-- A call that has just begun. -/
def opening (program : Call → Work Value Error Unit) (call : Call) :
    Connection Call Error Database Value :=
  ⟨call, program call, none, []⟩

/-- The connection after a command. -/
def answered (connection : Connection Call Error Database Value) (command : Command Statement)
    (next : command.Answer Value Error → Work Value Error Unit)
    (performed : Performed (command.Answer Value Error) Database) :
    Connection Call Error Database Value :=
  { connection with
    rest := next performed.answer
    transaction := performed.transaction
    log := connection.log ++ [⟨command, performed.answer⟩] }

/-- The system after a command. -/
def afterCommand (system : System Call Error Database Value) (process : ℕ)
    (connection : Connection Call Error Database Value) (command : Command Statement)
    (next : command.Answer Value Error → Work Value Error Unit)
    (performed : Performed (command.Answer Value Error) Database) :
    System Call Error Database Value :=
  ({ system with database := performed.database } : System Call Error Database Value).put process
    (some (answered connection command next performed))

@[simp]
theorem database_afterCommand (process : ℕ) (connection : Connection Call Error Database Value)
    (command : Command Statement) (next : command.Answer Value Error → Work Value Error Unit)
    (performed : Performed (command.Answer Value Error) Database) :
    (system.afterCommand process connection command next performed).database =
      performed.database := rfl

/-- After a command of a process its own connection has its answer, all others are as before. -/
theorem connections_afterCommand {system : System Call Error Database Value}
    {command : Command Statement} {next : command.Answer Value Error → Work Value Error Unit}
    {performed : Performed (command.Answer Value Error) Database}
    (h : (system.afterCommand process connection command next performed).connections other =
      some connection') :
    other = process ∧ connection' = answered connection command next performed ∨
      other ≠ process ∧ system.connections other = some connection' := by
  by_cases hsame : other = process
  · subst hsame
    rw [afterCommand, connections_put_self, Option.some.injEq] at h
    exact .inl ⟨rfl, h.symm⟩
  · rw [afterCommand, connections_put_of_ne _ _ hsame] at h
    exact .inr ⟨hsame, h⟩

theorem connections_put_some {system : System Call Error Database Value}
    (h : (system.put process (some connection)).connections other = some connection') :
    other = process ∧ connection' = connection ∨
      other ≠ process ∧ system.connections other = some connection' := by
  by_cases hsame : other = process
  · subst hsame
    rw [connections_put_self, Option.some.injEq] at h
    exact .inl ⟨rfl, h.symm⟩
  · rw [connections_put_of_ne _ _ hsame] at h
    exact .inr ⟨hsame, h⟩

theorem connections_put_none {system : System Call Error Database Value}
    (h : (system.put process none).connections other = some connection) :
    other ≠ process ∧ system.connections other = some connection := by
  by_cases hsame : other = process
  · subst hsame
    rw [connections_put_self] at h
    cases h
  · rw [connections_put_of_ne _ _ hsame] at h
    exact ⟨hsame, h⟩

variable [DecidableEq Database] (engine : Engine Statement Error Database Value)
  (effect : Act → Database → Database) (program : Call → Work Value Error Unit)

def step? (system : System Call Error Database Value) :
    Turning Call Act Error → Option (System Call Error Database Value)
  | .begin process call =>
    match system.connections process with
    | some _ => none
    | none => some (system.put process (some (opening program call)))
  | .advance process surroundings =>
    match system.connections process with
    | some ⟨call, .perform command next, transaction, log⟩ =>
      some (system.afterCommand process ⟨call, .perform command next, transaction, log⟩
        command next (engine.perform surroundings command system.database transaction))
    | _ => none
  | .crash process =>
    match system.connections process with
    | some _ => some (system.put process none)
    | none => none
  | .interfere act => some { system with database := effect act system.database }

/-- What a step can do. -/
theorem step?_cases {system next : System Call Error Database Value}
    {turning : Turning Call Act Error}
    (h : system.step? engine effect program turning = some next) :
    (∃ process call, turning = .begin process call ∧ system.connections process = none ∧
      next = system.put process (some (opening program call))) ∨
    (∃ process surroundings connection command rest, turning = .advance process surroundings ∧
      system.connections process = some connection ∧
      connection.rest = .perform command rest ∧
      next = system.afterCommand process connection command rest
        (engine.perform surroundings command system.database connection.transaction)) ∨
    (∃ process connection, turning = .crash process ∧
      system.connections process = some connection ∧ next = system.put process none) ∨
    ∃ act, turning = .interfere act ∧
      next = { system with database := effect act system.database } := by
  cases turning with
  | begin process call =>
    simp only [step?] at h
    split at h
    · cases h
    · next hnone => exact .inl ⟨process, call, rfl, hnone, (Option.some.inj h).symm⟩
  | advance process surroundings =>
    simp only [step?] at h
    split at h
    · next call command rest transaction log hconnection =>
      exact .inr (.inl ⟨process, surroundings, _, command, rest, rfl, hconnection, rfl,
        (Option.some.inj h).symm⟩)
    · cases h
  | crash process =>
    simp only [step?] at h
    split at h
    · next connection hconnection =>
      exact .inr (.inr (.inl ⟨process, connection, rfl, hconnection, (Option.some.inj h).symm⟩))
    · cases h
  | interfere act => exact .inr (.inr (.inr ⟨act, rfl, (Option.some.inj h).symm⟩))

end System

/-! ## Writing programs -/

/-- `Work` as a monad: throwing ends a program unless it is caught. -/
def Session (Value : Statement → Type) (Error Result : Type) : Type := Work Value Error Result

namespace Session

variable {Result Result' : Type}

protected def pure (result : Result) : Session Value Error Result := Program.finish (.ok result)

protected def throw (error : Error) : Session Value Error Result := Program.finish (.error error)

protected def bind (session : Session Value Error Result)
    (next : Result → Session Value Error Result') : Session Value Error Result' :=
  session.andThen fun
    | .ok result => next result
    | .error error => Session.throw error

protected def tryCatch (session : Session Value Error Result)
    (handler : Error → Session Value Error Result) : Session Value Error Result :=
  session.andThen fun
    | .ok result => Session.pure result
    | .error error => handler error

instance : Monad (Session Value Error) where
  pure := Session.pure
  bind := Session.bind

instance : MonadExceptOf Error (Session Value Error) where
  throw := Session.throw
  tryCatch := Session.tryCatch

/-- A statement whose failure is thrown. -/
def execute (statement : Statement) : Session Value Error (Value statement) :=
  Program.perform (.execute statement) fun answer => Program.finish answer

def now : Session Value Error ℤ := Program.perform .now fun time => Program.finish (.ok time)

def randomUUID : Session Value Error String :=
  Program.perform .randomUUID fun text => Program.finish (.ok text)

def begin : Session Value Error Unit := Program.perform .begin fun answer => Program.finish answer

def commit : Session Value Error Unit := Program.perform .commit fun answer => Program.finish answer

def rollback : Session Value Error Unit :=
  Program.perform .rollback fun _ => Program.finish (.ok ())

/-- `db.transaction(body)()`: commit what the body did, or roll it back and throw. -/
def transaction (body : Session Value Error Result) : Session Value Error Result := do
  begin
  tryCatch
    (do
      let result ← body
      commit
      pure result)
    fun error => do
      rollback
      throw error

end Session

/-! ## Obeying moves -/

section Moves

variable {Stage Result Result' : Type}
  (moves : Stage → (command : Command Statement) → command.Answer Value Error → Stage → Prop)

/-- Every command a program performs is a move from its stage, whatever the answer, and the
result, the stage and the answers at its end satisfy a property. -/
def Obeys (post : Stage → List (Exchange Value Error) → Except Error Result → Prop) :
    Stage → List (Exchange Value Error) → Work Value Error Result → Prop
  | stage, log, .finish result => post stage log result
  | stage, log, .perform command next => ∀ answer, ∃ after, moves stage command answer after ∧
      Obeys post after (log ++ [⟨command, answer⟩]) (next answer)

/-- What holds at the end of a program, if it returns and if it throws. -/
def Ends (returned : Stage → List (Exchange Value Error) → Result → Prop)
    (thrown : Stage → List (Exchange Value Error) → Error → Prop) (stage : Stage)
    (log : List (Exchange Value Error)) : Except Error Result → Prop
  | .ok result => returned stage log result
  | .error error => thrown stage log error

/-- A session obeys the moves from a stage and ends as described. -/
def Meets (stage : Stage) (log : List (Exchange Value Error))
    (session : Session Value Error Result)
    (returned : Stage → List (Exchange Value Error) → Result → Prop)
    (thrown : Stage → List (Exchange Value Error) → Error → Prop) : Prop :=
  Obeys moves (Ends returned thrown) stage log session

variable {moves} {stage : Stage} {log : List (Exchange Value Error)}
  {returned : Stage → List (Exchange Value Error) → Result → Prop}
  {returned' : Stage → List (Exchange Value Error) → Result' → Prop}
  {thrown thrown' : Stage → List (Exchange Value Error) → Error → Prop}

variable {program : Work Value Error Result}

theorem Obeys.andThen {next : Except Error Result → Work Value Error Result'}
    {post : Stage → List (Exchange Value Error) → Except Error Result' → Prop}
    (h : Obeys moves (fun stage log result => Obeys moves post stage log (next result)) stage
      log program) : Obeys moves post stage log (program.andThen next) := by
  induction program generalizing stage log with
  | finish result => exact h
  | perform command rest ih =>
    intro answer
    obtain ⟨after, hmove, hrest⟩ := h answer
    exact ⟨after, hmove, ih answer hrest⟩

theorem Obeys.mono {post post' : Stage → List (Exchange Value Error) → Except Error Result → Prop}
    (himp : ∀ stage log result, post stage log result → post' stage log result)
    (h : Obeys moves post stage log program) : Obeys moves post' stage log program := by
  induction program generalizing stage log with
  | finish result => exact himp _ _ _ h
  | perform command rest ih =>
    intro answer
    obtain ⟨after, hmove, hrest⟩ := h answer
    exact ⟨after, hmove, ih answer hrest⟩

namespace Meets

theorem pure {result : Result} (h : returned stage log result) :
    Meets moves stage log (Pure.pure result) returned thrown := h

theorem throw (h : thrown stage log error) :
    Meets moves stage log (MonadExcept.throw error : Session Value Error Result) returned
      thrown := h

variable {session : Session Value Error Result}

theorem bind {next : Result → Session Value Error Result'} (h : Meets moves stage log session
      (fun stage log result => Meets moves stage log (next result) returned' thrown) thrown) :
    Meets moves stage log (session >>= next) returned' thrown := by
  refine Obeys.andThen (Obeys.mono (fun stage log result hresult => ?_) h)
  cases result with
  | ok | error => exact hresult

theorem tryCatch {handler : Error → Session Value Error Result}
    (h : Meets moves stage log session returned
      (fun stage log error => Meets moves stage log (handler error) returned thrown)) :
    Meets moves stage log (MonadExcept.tryCatch session handler) returned thrown := by
  refine Obeys.andThen (Obeys.mono (fun stage log result hresult => ?_) h)
  cases result with
  | ok | error => exact hresult

theorem mono {returned' : Stage → List (Exchange Value Error) → Result → Prop}
    (h : Meets moves stage log session returned thrown)
    (hreturned : ∀ stage log result, returned stage log result → returned' stage log result)
    (hthrown : ∀ stage log error, thrown stage log error → thrown' stage log error) :
    Meets moves stage log session returned' thrown' := by
  refine Obeys.mono (fun stage log result hresult => ?_) h
  cases result with
  | ok result => exact hreturned _ _ _ hresult
  | error error => exact hthrown _ _ _ hresult

theorem execute {returned : Stage → List (Exchange Value Error) → Value statement → Prop}
    (hok : ∀ value, ∃ after, moves stage (.execute statement) (.ok value) after ∧
      returned after (log ++ [⟨.execute statement, .ok value⟩]) value)
    (herror : ∀ error, ∃ after, moves stage (.execute statement) (.error error) after ∧
      thrown after (log ++ [⟨.execute statement, .error error⟩]) error) :
    Meets moves stage log (Session.execute statement) returned thrown := by
  intro answer
  cases answer with
  | ok value => exact hok value
  | error error => exact herror error

theorem now {returned : Stage → List (Exchange Value Error) → ℤ → Prop}
    (h : ∀ time : ℤ, ∃ after, moves stage .now time after ∧
      returned after (log ++ [⟨.now, time⟩]) time) :
    Meets moves stage log Session.now returned thrown := h

theorem randomUUID {returned : Stage → List (Exchange Value Error) → String → Prop}
    (h : ∀ text : String, ∃ after, moves stage .randomUUID text after ∧
      returned after (log ++ [⟨.randomUUID, text⟩]) text) :
    Meets moves stage log Session.randomUUID returned thrown := h

/-- A transaction: its body, then the commit; whatever is thrown on the way is rolled back. -/
theorem transaction {body : Session Value Error Result}
    (hbegin : ∃ after, moves stage .begin (.ok ()) after ∧
      Meets moves after (log ++ [⟨.begin, .ok ()⟩]) body (fun stage log result =>
          (∃ after, moves stage .commit (.ok ()) after ∧
            returned after (log ++ [⟨.commit, .ok ()⟩]) result) ∧
          ∀ error, ∃ failed, moves stage .commit (.error error) failed ∧
            ∃ after, moves failed .rollback () after ∧
              thrown after (log ++ [⟨.commit, .error error⟩] ++ [⟨.rollback, ()⟩]) error)
        (fun stage log error => ∃ after, moves stage .rollback () after ∧
          thrown after (log ++ [⟨.rollback, ()⟩]) error))
    (hfailed : ∀ error, ∃ after, moves stage .begin (.error error) after ∧
      thrown after (log ++ [⟨.begin, .error error⟩]) error) :
    Meets moves stage log (Session.transaction body) returned thrown := by
  refine Meets.bind fun answer => ?_
  cases answer with
  | error error => exact hfailed error
  | ok =>
    obtain ⟨after, hmove, hbody⟩ := hbegin
    refine ⟨after, hmove, Meets.tryCatch (Meets.bind (Meets.mono hbody ?_ ?_))⟩
    · rintro stage log result ⟨hcommit, habort⟩ answer
      cases answer with
      | ok => exact hcommit
      | error error =>
        obtain ⟨failed, hfail, after, hroll, hthrown⟩ := habort error
        exact ⟨failed, hfail, fun _ => ⟨after, hroll, hthrown⟩⟩
    · rintro stage log error ⟨after, hroll, hthrown⟩ _
      exact ⟨after, hroll, hthrown⟩

end Meets

end Moves

/-! ## Runs of obedient programs -/

namespace System

section Runs

variable {Stage : Type}
  {moves : Stage → (command : Command Statement) → command.Answer Value Error → Stage → Prop}
  {post : Call → Stage → List (Exchange Value Error) → Except Error Unit → Prop}
  {engine : Engine Statement Error Database Value} {effect : Act → Database → Database}
  {program : Call → Session Value Error Unit} {initial : Call → Stage}

/-- What is left of every call obeys the moves from the stage of its process. -/
def Staged (moves : Stage → (command : Command Statement) → command.Answer Value Error →
      Stage → Prop)
    (post : Call → Stage → List (Exchange Value Error) → Except Error Unit → Prop)
    (stages : ℕ → Stage) (system : System Call Error Database Value) : Prop :=
  ∀ process connection, system.connections process = some connection →
    Obeys moves (post connection.call) (stages process) connection.log connection.rest

theorem staged_idle (stages : ℕ → Stage) (database : Database) :
    Staged moves post stages (idle database : System Call Error Database Value) :=
  nofun

theorem Staged.put {stages : ℕ → Stage} {system : System Call Error Database Value}
    (hstaged : Staged moves post stages system) {after : Stage}
    (h : Obeys moves (post connection.call) after connection.log connection.rest) :
    Staged moves post (Function.update stages process after)
      (system.put process (some connection)) := by
  intro other connection' hother
  obtain ⟨rfl, rfl⟩ | ⟨hne, hbefore⟩ := connections_put_some hother
  · rwa [Function.update_self]
  · rw [Function.update_of_ne hne]
    exact hstaged other connection' hbefore

variable [DecidableEq Database]

/-- Calls of programs that obey the moves keep an invariant of the database and the stages
that every move keeps. -/
theorem invariant_of_obeys
    {condition : System Call Error Database Value → Turning Call Act Error → Prop}
    {Inv : (ℕ → Stage) → System Call Error Database Value → Prop}
    (hprogram : ∀ call, Obeys moves (post call) (initial call) [] (program call))
    (hbegin : ∀ stages system process call, Inv stages system →
      system.connections process = none → Inv (Function.update stages process (initial call))
        (system.put process (some (opening program call))))
    (hadvance : ∀ stages system process surroundings connection command rest after,
      Inv stages system → condition system (.advance process surroundings) →
      system.connections process = some connection →
      connection.rest = .perform command rest →
      moves (stages process) command (engine.perform surroundings command system.database
        connection.transaction).answer after →
      Inv (Function.update stages process after) (system.afterCommand process connection command
        rest (engine.perform surroundings command system.database connection.transaction)))
    (hcrash : ∀ stages system process, Inv stages system → Inv stages (system.put process none))
    (hinterfere : ∀ stages system act, Inv stages system → condition system (.interfere act) →
      Inv stages { system with database := effect act system.database })
    {first last : System Call Error Database Value} {turnings : List (Turning Call Act Error)}
    (run : Run (Meeting condition (Takes (step? engine effect program))) first turnings last)
    (hfirst : ∃ stages, Inv stages first ∧ Staged moves post stages first) :
    ∃ stages, Inv stages last ∧ Staged moves post stages last := by
  suffices hstep : ∀ system turning next,
      (∃ stages, Inv stages system ∧ Staged moves post stages system) →
      condition system turning → Takes (step? engine effect program) system turning next →
      ∃ stages, Inv stages next ∧ Staged moves post stages next from
    Run.invariant_of_meeting hstep run hfirst
  rintro system turning next ⟨stages, hinv, hstaged⟩ hcondition htaken
  obtain ⟨process, call, rfl, hnone, rfl⟩ |
      ⟨process, surroundings, connection, command, rest, rfl, hconnection, hrest, rfl⟩ |
      ⟨process, connection, rfl, hconnection, rfl⟩ | ⟨act, rfl, rfl⟩ :=
    step?_cases engine effect program htaken
  · exact ⟨_, hbegin stages system process call hinv hnone, hstaged.put (hprogram call)⟩
  · have hobeys := hstaged process connection hconnection
    rw [hrest] at hobeys
    obtain ⟨after, hmove, hnext⟩ := hobeys (engine.perform surroundings command
      system.database connection.transaction).answer
    exact ⟨_, hadvance stages system process surroundings connection command rest after hinv
      hcondition hconnection hrest hmove, Staged.put (fun other connection' hother =>
        hstaged other connection' hother) hnext⟩
  · exact ⟨stages, hcrash stages system process hinv, fun other connection' hother =>
      hstaged other connection' (connections_put_none hother).2⟩
  · exact ⟨stages, hinterfere stages system act hinv hcondition, hstaged⟩

end Runs

end System

end Nobie.Foundation
