/-
# Nicknames of agents and teams

Agents and teams are stored in two tables, and a third one lists for each nickname whose it
is. Nicknames are compared trimmed, with every run of white space as one blank and in lower
case. The table of nicknames is kept by hand: an operation looks whether the nickname is free,
and in one transaction with the write of the entity drops the entity's entry and makes it anew.

Only the columns that these operations read are modelled. Whether a constraint on another
column or table fails, what the migration guard says and the clock are given with each call.
-/

import Mathlib.Data.List.Sort
import Nobie.Foundation.Effects
import Nobie.Foundation.JsCase
import Nobie.Foundation.Pairing
import Nobie.Foundation.Transition

namespace Nobie.Db.Nicknames

open Foundation JsString

/-! ## Nicknames -/

def collapseNicknameWhitespace (value : JsString) : JsString :=
  collapseSpaces false (trim value)

def normalizeNicknameSnapshot (value : JsString) : JsString := collapseNicknameWhitespace value

variable (host : CaseHost) (entityId : JsString)

def normalizeNickname (value : JsString) : JsString :=
  host.toLowerCase (collapseNicknameWhitespace value)

def normalizedNicknameOrNull (value : Option JsString) : Option JsString :=
  (some (normalizeNickname host (value.getD []))).filter (· ≠ [])

/-! ## Tables -/

inductive EntityType
  | agent | team
  deriving DecidableEq

inductive DbConfigSource
  | manual | import | system

/-- A row of `agent_configs` or `team_configs` without its id. -/
structure ConfigRow where
  (nickname normalizedNickname : Option JsString)
  status : JsString
  source : DbConfigSource
  (createdAt updatedAt : ℤ)

/-- A row of `nickname_namespaces` without its key, the normalized nickname. -/
structure DbNicknameNamespace where
  entityType : EntityType
  (entityId nicknameSnapshot status : JsString)
  source : DbConfigSource
  (createdAt updatedAt : ℤ)

/-- The tables by their primary keys. -/
structure ConfigTables where
  (agentConfigs teamConfigs : OrderedMap JsString ConfigRow)
  nicknameNamespaces : OrderedMap JsString DbNicknameNamespace

def ConfigTables.empty : ConfigTables := ⟨∅, ∅, ∅⟩

variable (tables : ConfigTables) (entityType : EntityType)

def ConfigTables.configs : EntityType → OrderedMap JsString ConfigRow
  | .agent => tables.agentConfigs
  | .team => tables.teamConfigs

def ConfigTables.setConfigs (configs : OrderedMap JsString ConfigRow) : ConfigTables :=
  match entityType with
  | .agent => { tables with agentConfigs := configs }
  | .team => { tables with teamConfigs := configs }

inductive NicknameReasonCode
  | nicknameRequired | nicknameConflict

structure NicknameNamespaceErrorDetails where
  reasonCode : NicknameReasonCode
  attemptedEntityType : EntityType
  attemptedEntityId : JsString
  nickname : Option JsString
  normalizedNickname : JsString
  existing : Option DbNicknameNamespace := none

inductive StorageError
  | nickname (details : NicknameNamespaceErrorDetails)
  | constraint
  | migrationLocked

abbrev Storage : Type → Type := EStateM StorageError ConfigTables

/-- `db.transaction(body)()`: an error undoes what the body wrote. -/
def transaction {A : Type} (body : Storage A) : Storage A := fun tables =>
  match body tables with
  | .ok value last => .ok value last
  | .error error _ => .error error tables

theorem transaction_run {A : Type} (body : Storage A) (tables : ConfigTables) :
    (transaction body).run tables =
      match body.run tables with
      | .ok value last => .ok value last
      | .error error _ => .error error tables :=
  rfl

/-- What a call meets. -/
structure Conditions where
  writeAllowed : Bool
  dateNow : ℤ
  (configWriteFails namespaceWriteFails : EntityType → JsString → Bool)
  otherWriteFails : Bool

variable (conditions : Conditions)

def assertMigrationWriteAllowed : Storage Unit :=
  if conditions.writeAllowed then pure () else throw .migrationLocked

/-- A statement on tables that are not modelled. -/
def otherWrites : Storage Unit :=
  if conditions.otherWriteFails then throw .constraint else pure ()

/-! ## The namespace -/

structure NamespaceInput where
  entityType : EntityType
  entityId : JsString
  nickname : Option JsString
  status : JsString
  source : DbConfigSource
  (createdAt updatedAt : ℤ)

/-- `DELETE FROM nickname_namespaces WHERE entity_type = ? AND entity_id = ?`. -/
def deleteNamespaceOf (entityId : JsString) : Storage Unit :=
  modify fun tables =>
    { tables with
      nicknameNamespaces := tables.nicknameNamespaces.filter fun _ row =>
        !(row.entityType = entityType && row.entityId = toWellFormed entityId) }

/-- The row at a nickname. -/
def selectNamespace (normalizedNickname : JsString) : Storage (Option DbNicknameNamespace) := do
  let tables ← get
  pure (tables.nicknameNamespaces.get? (toWellFormed normalizedNickname))

/-- Another nickname of the entity of a row: what the unique index on the entity forbids. -/
def entityTaken (namespaces : OrderedMap JsString DbNicknameNamespace) (key : JsString)
    (row : DbNicknameNamespace) : Bool :=
  namespaces.entries.any fun entry =>
    entry.1 ≠ key && entry.2.entityType = row.entityType && entry.2.entityId = row.entityId

/-- `INSERT … ON CONFLICT(normalized_nickname) DO UPDATE`. -/
def upsertNamespace (normalizedNickname : JsString) (row : DbNicknameNamespace) : Storage Unit := do
  let tables ← get
  let key := toWellFormed normalizedNickname
  if conditions.namespaceWriteFails row.entityType row.entityId ||
      entityTaken tables.nicknameNamespaces key row then
    throw .constraint
  else
    set { tables with nicknameNamespaces := tables.nicknameNamespaces.set key row }

def nicknameConflict (entityId : JsString) (nickname : Option JsString)
    (normalizedNickname : JsString) (existing : DbNicknameNamespace) : StorageError :=
  .nickname
    { reasonCode := .nicknameConflict
      attemptedEntityType := entityType
      attemptedEntityId := entityId
      nickname := nickname
      normalizedNickname := normalizedNickname
      existing := some existing }

/-- The existing row is that of another entity. -/
def ownedByOther (entityId : JsString) (existing : DbNicknameNamespace) : Bool :=
  existing.entityType ≠ entityType || existing.entityId ≠ entityId

def syncNicknameNamespace (input : NamespaceInput) : Storage Unit := do
  deleteNamespaceOf input.entityType input.entityId
  match normalizedNicknameOrNull host input.nickname with
  | none => pure ()
  | some normalizedNickname => do
    let row : DbNicknameNamespace :=
      { entityType := input.entityType
        entityId := toWellFormed input.entityId
        nicknameSnapshot := toWellFormed (input.nickname.getD normalizedNickname)
        status := input.status
        source := input.source
        createdAt := input.createdAt
        updatedAt := input.updatedAt }
    match (← selectNamespace normalizedNickname).filter
        (ownedByOther input.entityType input.entityId) with
    | some existing =>
      throw (nicknameConflict input.entityType input.entityId input.nickname
        normalizedNickname existing)
    | none => upsertNamespace conditions normalizedNickname row

def assertNicknameAvailable (entityId : JsString) (nickname : Option JsString) : Storage Unit := do
  let normalizedNickname := normalizeNickname host (nickname.getD [])
  if normalizedNickname = [] then
    throw (.nickname
      { reasonCode := .nicknameRequired
        attemptedEntityType := entityType
        attemptedEntityId := entityId
        nickname := nickname
        normalizedNickname := [] })
  else
    match (← selectNamespace normalizedNickname).filter (ownedByOther entityType entityId) with
    | some existing =>
      throw (nicknameConflict entityType entityId nickname normalizedNickname existing)
    | none => pure ()

/-! ## Operations -/

/-- `AgentConfig` or `TeamConfig`. -/
structure EntityConfig where
  id : JsString
  nickname : Option JsString
  status : JsString
  createdAt : ℤ
  updatedAt : Option ℤ

structure PersistenceOptions where
  imported : Bool := false
  source : Option DbConfigSource := none
  now : Option ℤ := none

variable (options : PersistenceOptions) (input : EntityConfig)

def persistenceSource : DbConfigSource :=
  if options.imported then .import else options.source.getD .manual

/-- `persistedAgentConfig` and `persistedTeamConfig`. -/
def persistedConfig (imported : Bool) : EntityConfig :=
  { input with
    nickname := some (normalizeNicknameSnapshot (input.nickname.getD []))
    status := if imported then ofString "disabled" else input.status }

/-- `INSERT … ON CONFLICT(agent_id) DO UPDATE`, which keeps `created_at`. -/
def upsertConfigRow (entityType : EntityType) (id : JsString) (row : ConfigRow) : Storage Unit := do
  let tables ← get
  let key := toWellFormed id
  if conditions.configWriteFails entityType key then throw .constraint
  else
    let createdAt := (((tables.configs entityType).get? key).map (·.createdAt)).getD row.createdAt
    set (tables.setConfigs entityType
      ((tables.configs entityType).set key { row with createdAt := createdAt }))

def upsertConfig (entityType : EntityType) (input : EntityConfig) (options : PersistenceOptions) :
    Storage Unit := do
  assertMigrationWriteAllowed conditions
  let config := persistedConfig input options.imported
  assertNicknameAvailable host entityType config.id config.nickname
  let now := options.now.getD conditions.dateNow
  let updatedAt := (options.now <|> config.updatedAt).getD now
  let source := persistenceSource options
  transaction do
    upsertConfigRow conditions entityType config.id
      { nickname := config.nickname.map toWellFormed
        normalizedNickname := (normalizedNicknameOrNull host config.nickname).map toWellFormed
        status := config.status
        source := source
        createdAt := config.createdAt
        updatedAt := updatedAt }
    syncNicknameNamespace host conditions
      { entityType := entityType
        entityId := config.id
        nickname := config.nickname
        status := config.status
        source := source
        createdAt := config.createdAt
        updatedAt := updatedAt }
    if entityType = .team then otherWrites conditions

def upsertAgentConfig (options : PersistenceOptions) : Storage Unit :=
  upsertConfig host conditions .agent input options

/-- The memberships are written in the same transaction. -/
def upsertTeamConfig (options : PersistenceOptions) : Storage Unit :=
  upsertConfig host conditions .team input options

def disableAgentConfig (agentId : JsString) (now : ℤ) : Storage Bool := do
  assertMigrationWriteAllowed conditions
  let tables ← get
  let key := toWellFormed agentId
  match tables.agentConfigs.get? key with
  | none => pure false
  | some row =>
    transaction do
      if conditions.configWriteFails .agent key then throw .constraint
      else
        modify fun tables =>
          { tables with
            agentConfigs := tables.agentConfigs.set key
              { row with status := ofString "disabled", updatedAt := now } }
        syncNicknameNamespace host conditions
          { entityType := .agent
            entityId := agentId
            nickname := row.nickname
            status := ofString "disabled"
            source := row.source
            createdAt := row.createdAt
            updatedAt := now }
        pure true

def deleteTeamConfig (teamId : JsString) : Storage Bool := do
  assertMigrationWriteAllowed conditions
  let tables ← get
  let key := toWellFormed teamId
  match tables.teamConfigs.get? key with
  | none => pure false
  | some _ =>
    transaction do
      otherWrites conditions
      deleteNamespaceOf .team teamId
      modify fun tables => { tables with teamConfigs := tables.teamConfigs.erase key }
      pure true

/-- `ORDER BY updated_at DESC, agent_id ASC`. -/
def laterFirst (first second : JsString × ConfigRow) : Bool :=
  decide (second.2.updatedAt < first.2.updatedAt) ||
    (decide (first.2.updatedAt = second.2.updatedAt) &&
      decide (codePoints first.1 ≤ codePoints second.1))

def rowsByUpdate (configs : OrderedMap JsString ConfigRow) : List (JsString × ConfigRow) :=
  configs.entries.mergeSort laterFirst

/-- One row of `reconcileSubAgentStorageDerivedFields`: an error about nicknames is caught. -/
def reconcileRow (entityType : EntityType) (entry : JsString × ConfigRow) : Storage Unit := do
  let normalizedNickname :=
    (normalizedNicknameOrNull host entry.2.nickname).map toWellFormed
  if conditions.configWriteFails entityType entry.1 then throw .constraint
  else
    modify fun tables =>
      tables.setConfigs entityType ((tables.configs entityType).mapValues fun key row =>
        if key = entry.1 then { row with normalizedNickname := normalizedNickname } else row)
    tryCatch
      (syncNicknameNamespace host conditions
        { entityType := entityType
          entityId := entry.1
          nickname := entry.2.nickname
          status := entry.2.status
          source := entry.2.source
          createdAt := entry.2.createdAt
          updatedAt := entry.2.updatedAt })
      fun error =>
        match error with
        | .nickname _ => pure ()
        | .constraint => throw .constraint
        | .migrationLocked => throw .migrationLocked

def reconcileRows (host : CaseHost) (conditions : Conditions) (entityType : EntityType) :
    List (JsString × ConfigRow) → Storage Unit
  | [] => pure ()
  | entry :: rest => do
    reconcileRow host conditions entityType entry
    reconcileRows host conditions entityType rest

def reconcileSubAgentStorageDerivedFields : Storage Unit :=
  transaction do
    let tables ← get
    reconcileRows host conditions .agent (rowsByUpdate tables.agentConfigs)
    let tables ← get
    reconcileRows host conditions .team (rowsByUpdate tables.teamConfigs)

/-! ## Calls -/

inductive ConfigCall
  | upsertAgent (input : EntityConfig) (options : PersistenceOptions)
  | upsertTeam (input : EntityConfig) (options : PersistenceOptions)
  | disableAgent (agentId : JsString) (now : ℤ)
  | deleteTeam (teamId : JsString)
  | reconcile

/-- What a call does; the answers of `disableAgentConfig` and `deleteTeamConfig` are left
out. -/
def ConfigCall.perform : ConfigCall → Storage Unit
  | upsertAgent input options => upsertAgentConfig host conditions input options
  | upsertTeam input options => upsertTeamConfig host conditions input options
  | disableAgent agentId now => do
    let _ ← disableAgentConfig host conditions agentId now
    pure ()
  | deleteTeam teamId => do
    let _ ← deleteTeamConfig conditions teamId
    pure ()
  | reconcile => reconcileSubAgentStorageDerivedFields host conditions

/-- The tables after a call, whether it returns or throws. -/
def ConfigStep (call : Conditions × ConfigCall) (next : ConfigTables) : Prop :=
  next = Effects.stateAfter ((call.2.perform host call.1).run tables)

/-! ## Every nickname has one owner -/

open List OrderedMap EStateM

abbrev Entity : Type := EntityType × JsString

variable (tables : ConfigTables)

/-- The entity that the namespace lists for a normalized nickname. -/
def ownerOf (nickname : JsString) : Option Entity :=
  (tables.nicknameNamespaces.get? nickname).map fun row => (row.entityType, row.entityId)

def storedRow (entity : Entity) : Option ConfigRow := (tables.configs entity.1).get? entity.2

variable (host : CaseHost)

/-- The current normalized nickname of a stored entity. -/
def nicknameOf (tables : ConfigTables) (entity : Entity) : Option JsString :=
  (storedRow tables entity).bind fun row => normalizedNicknameOrNull host row.nickname

/-- The rows of the namespace that are an entity's. -/
def rowsOf (entity : Entity) : List (JsString × DbNicknameNamespace) :=
  tables.nicknameNamespaces.entries.filter fun entry =>
    entry.2.entityType = entity.1 && entry.2.entityId = entity.2

structure NicknamesUnique (host : CaseHost) (tables : ConfigTables) : Prop where
  oneOwner : ∀ entity other nickname, nicknameOf host tables entity = some nickname →
    nicknameOf host tables other = some nickname → entity = other
  oneRow : ∀ entity nickname, nicknameOf host tables entity = some nickname →
    ∃ row, rowsOf tables entity = [(nickname, row)]
  noOtherRows : ∀ entity, nicknameOf host tables entity = none → rowsOf tables entity = []

/-! ## The invariant -/

/-- The columns are well-formed texts and no stored entity is without a nickname. -/
def StoredRight (tables : ConfigTables) : Prop :=
  ∀ entity row, storedRow tables entity = some row →
    toWellFormed entity.2 = entity.2 ∧
      row.nickname.map toWellFormed = row.nickname ∧
      normalizedNicknameOrNull host row.nickname ≠ none

structure Kept (host : CaseHost) (tables : ConfigTables) : Prop where
  paired : Paired (ownerOf tables) (nicknameOf host tables)
  stored : StoredRight host tables

theorem kept_empty : Kept host .empty := by
  constructor
  · intro nickname entity
    obtain ⟨entityType, id⟩ := entity
    have howner : ownerOf .empty nickname = none := rfl
    have hname : nicknameOf host .empty (entityType, id) = none := by cases entityType <;> rfl
    rw [howner, hname]
    exact iff_of_false (Option.some_ne_none _).symm (Option.some_ne_none _).symm
  · intro entity row hrow
    obtain ⟨entityType, id⟩ := entity
    cases entityType <;> cases hrow

theorem nicknamesUnique_of_kept {host : CaseHost} {tables : ConfigTables}
    (h : Kept host tables) : NicknamesUnique host tables := by
  have hrow {entity : Entity} {entry : JsString × DbNicknameNamespace}
      (hentry : entry ∈ rowsOf tables entity) : nicknameOf host tables entity = some entry.1 := by
    obtain ⟨hmem, howner⟩ := mem_filter.mp hentry
    rw [Bool.and_eq_true, decide_eq_true_eq, decide_eq_true_eq] at howner
    refine (h.paired entry.1 entity).mp ?_
    rw [ownerOf, get?_of_mem_entries hmem, Option.map_some, howner.1, howner.2]
  refine ⟨fun entity other nickname hentity hother => ?_, fun entity nickname hentity => ?_,
    fun entity hnone => ?_⟩
  · have howner := (h.paired nickname entity).mpr hentity
    rw [(h.paired nickname other).mpr hother] at howner
    exact (Option.some.inj howner).symm
  · have howner := (h.paired nickname entity).mpr hentity
    obtain ⟨row, hget, howns⟩ := Option.map_eq_some_iff.mp howner
    refine ⟨row, ?_⟩
    have hmem : (nickname, row) ∈ rowsOf tables entity := by
      refine mem_filter.mpr ⟨mem_entries_of_get? hget, ?_⟩
      rw [← howns, Bool.and_eq_true, decide_eq_true_eq, decide_eq_true_eq]
      exact ⟨rfl, rfl⟩
    have hall : ∀ entry ∈ rowsOf tables entity, entry = (nickname, row) := by
      intro entry hentry
      have hkey : entry.1 = nickname := Option.some.inj ((hrow hentry).symm.trans hentity)
      have hvalue := get?_of_mem_entries (mem_filter.mp hentry).1
      rw [hkey, hget] at hvalue
      exact Prod.ext hkey (Option.some.inj hvalue).symm
    have hnodup : (rowsOf tables entity).Nodup :=
      (List.Nodup.of_map _ tables.nicknameNamespaces.nodup).filter _
    refine perm_singleton.mp
      ((perm_ext_iff_of_nodup hnodup (nodup_singleton _)).mpr fun entry => ?_)
    rw [mem_singleton]
    exact ⟨hall entry, fun hsame => hsame ▸ hmem⟩
  · refine eq_nil_iff_forall_not_mem.mpr fun entry hentry => ?_
    rw [hrow hentry] at hnone
    cases hnone

/-! ## The namespace after a write -/

variable {entity : Entity} {nickname : JsString} {last : ConfigTables} {row : ConfigRow}
  (entityType : EntityType) {id : JsString}

variable {input : NamespaceInput} {good : ConfigTables → Prop} {entry : JsString × ConfigRow}

section Sync

variable {host : CaseHost} {conditions : Conditions} {tables : ConfigTables}

theorem ownerOf_filter (tables : ConfigTables) (entityType : EntityType) (entityId : JsString)
    (nickname : JsString) :
    ((tables.nicknameNamespaces.filter fun _ row =>
        !(row.entityType = entityType && row.entityId = entityId)).get? nickname).map
          (fun row => (row.entityType, row.entityId)) =
      release (ownerOf tables) (entityType, entityId) nickname := by
  rw [get?_filter]
  unfold release ownerOf
  cases tables.nicknameNamespaces.get? nickname with
  | none => rfl
  | some row =>
    by_cases hsame : (row.entityType, row.entityId) = (entityType, entityId)
    · obtain ⟨htype, hid⟩ := Prod.mk.inj hsame
      simp [Option.filter_some, htype, hid]
    · have hdiffers : ¬ (row.entityType = entityType ∧ row.entityId = entityId) :=
        fun h => hsame (Prod.ext h.1 h.2)
      rw [Option.filter_some, if_pos (by simpa using not_and_or.mp hdiffers), Option.map_some,
        Option.filter_some, if_pos (by simpa using not_and_or.mp hdiffers)]

/-- The tables after an entity's rows of the namespace are dropped. -/
def dropped (tables : ConfigTables) (entity : Entity) : ConfigTables :=
  { tables with
    nicknameNamespaces := tables.nicknameNamespaces.filter fun _ row =>
      !(row.entityType = entity.1 && row.entityId = entity.2) }

theorem ownerOf_dropped (tables : ConfigTables) (entity : Entity) :
    ownerOf (dropped tables entity) = release (ownerOf tables) entity :=
  funext (ownerOf_filter tables entity.1 entity.2)

theorem entityTaken_dropped {key : JsString} {row : DbNicknameNamespace}
    (hrow : (row.entityType, row.entityId) = entity) :
    entityTaken (dropped tables entity).nicknameNamespaces key row = false := by
  subst hrow
  rw [entityTaken, any_eq_false]
  intro entry hentry
  have howner := ownerOf_dropped tables (row.entityType, row.entityId)
  intro htaken
  simp only [Bool.and_eq_true, decide_eq_true_eq] at htaken
  have hentered : ownerOf (dropped tables (row.entityType, row.entityId)) entry.1 =
      some (row.entityType, row.entityId) := by
    rw [ownerOf, get?_of_mem_entries hentry, Option.map_some, htaken.1.2, htaken.2]
  rw [howner] at hentered
  exact (release_eq_some.mp hentered).2 rfl

theorem storedRow_nicknames {namespaces : OrderedMap JsString DbNicknameNamespace} :
    storedRow { tables with nicknameNamespaces := namespaces } = storedRow tables := by
  funext entity
  obtain ⟨entityType, id⟩ := entity
  cases entityType <;> rfl

/-- The row that is entered for an entity. -/
def enteredRow (input : NamespaceInput) (nickname : JsString) : DbNicknameNamespace where
  entityType := input.entityType
  entityId := toWellFormed input.entityId
  nicknameSnapshot := toWellFormed (input.nickname.getD nickname)
  status := input.status
  source := input.source
  createdAt := input.createdAt
  updatedAt := input.updatedAt

/-- The tables after a nickname is entered. -/
def entered (tables : ConfigTables) (input : NamespaceInput) (nickname : JsString) : ConfigTables :=
  { tables with
    nicknameNamespaces :=
      (dropped tables (input.entityType, toWellFormed input.entityId)).nicknameNamespaces.set
        (toWellFormed nickname) (enteredRow input nickname) }

theorem sync_run (hnickname : normalizedNicknameOrNull host input.nickname = some nickname)
    (hnone : (dropped tables (input.entityType,
      toWellFormed input.entityId)).nicknameNamespaces.get? (toWellFormed nickname) = none) :
    (syncNicknameNamespace host conditions input).run tables =
      if conditions.namespaceWriteFails input.entityType (toWellFormed input.entityId) then
        .error .constraint (dropped tables (input.entityType, toWellFormed input.entityId))
      else .ok () (entered tables input nickname) := by
  have hdelete : (deleteNamespaceOf input.entityType input.entityId).run tables =
      .ok () (dropped tables (input.entityType, toWellFormed input.entityId)) := rfl
  have hselect : (selectNamespace nickname).run
      (dropped tables (input.entityType, toWellFormed input.entityId)) =
        .ok none (dropped tables (input.entityType, toWellFormed input.entityId)) := by
    unfold selectNamespace
    rw [run_bind]
    exact congrArg (fun found => EStateM.Result.ok found _) hnone
  have htaken : entityTaken
      (dropped tables (input.entityType, toWellFormed input.entityId)).nicknameNamespaces
        (toWellFormed nickname) (enteredRow input nickname) = false :=
    entityTaken_dropped rfl
  unfold syncNicknameNamespace
  rw [run_bind, hdelete]
  rw [hnickname]
  dsimp only
  rw [run_bind, hselect]
  dsimp only [Option.filter_none]
  unfold upsertNamespace
  rw [run_bind]
  change (if (conditions.namespaceWriteFails input.entityType
      (toWellFormed input.entityId) || entityTaken _ _ (enteredRow input nickname))
        then _ else _ : Storage Unit) _ = _
  rw [htaken, Bool.or_false]
  split <;> rfl

/-- Where the nickname is free or the entity's own, nobody has it once the entity's rows are
dropped. -/
theorem dropped_free (hfree : ∀ owner, ownerOf tables nickname = some owner → owner = entity) :
    (dropped tables entity).nicknameNamespaces.get? nickname = none := by
  have hselect : ownerOf (dropped tables entity) nickname = none := by
    rw [ownerOf_dropped, Option.eq_none_iff_forall_ne_some]
    intro owner howner
    obtain ⟨hentered, hother⟩ := release_eq_some.mp howner
    exact hother (hfree owner hentered)
  exact Option.map_eq_none_iff.mp hselect

theorem ownerOf_entered (tables : ConfigTables) (input : NamespaceInput) (nickname : JsString) :
    ownerOf (entered tables input nickname) =
      claim (ownerOf tables) (input.entityType, toWellFormed input.entityId)
        (toWellFormed nickname) := by
  funext name
  unfold claim entered ownerOf
  rw [get?_set]
  split
  · rfl
  · exact congrFun (ownerOf_dropped tables _) name

/-- A nickname that is free or the entity's own is entered for it. -/
theorem sync_triple (hnickname : normalizedNicknameOrNull host input.nickname = some nickname)
    (hfree : ∀ owner, ownerOf tables (toWellFormed nickname) = some owner →
      owner = (input.entityType, toWellFormed input.entityId)) :
    Effects.Triple (· = tables) (syncNicknameNamespace host conditions input)
      (fun _ last => storedRow last = storedRow tables ∧ ownerOf last =
        claim (ownerOf tables) (input.entityType, toWellFormed input.entityId)
          (toWellFormed nickname))
      fun _ => True := by
  rintro tables rfl
  rw [sync_run hnickname (dropped_free hfree)]
  cases conditions.namespaceWriteFails input.entityType (toWellFormed input.entityId) with
  | true => trivial
  | false => exact ⟨storedRow_nicknames, ownerOf_entered tables input nickname⟩

/-! ## Well-formed nicknames -/

theorem normalizeNickname_toWellFormed (value : JsString) :
    normalizeNickname host (toWellFormed value) = toWellFormed (normalizeNickname host value) := by
  unfold normalizeNickname collapseNicknameWhitespace
  rw [trim_toWellFormed, collapseSpaces_toWellFormed, host.toLowerCase_toWellFormed]

theorem normalizedNickname_toWellFormed (nickname : Option JsString) :
    normalizedNicknameOrNull host (nickname.map toWellFormed) =
      (normalizedNicknameOrNull host nickname).map toWellFormed := by
  have hgetD : (nickname.map toWellFormed).getD [] = toWellFormed (nickname.getD []) := by
    cases nickname <;> rfl
  unfold normalizedNicknameOrNull
  rw [hgetD, normalizeNickname_toWellFormed, Option.filter_some, Option.filter_some]
  by_cases hempty : normalizeNickname host (nickname.getD []) = []
  · simp [hempty, toWellFormed_eq_nil]
  · simp [hempty, toWellFormed_eq_nil]

theorem Kept.owner_wellFormed (h : Kept host tables) {owner : Entity}
    (howner : ownerOf tables nickname = some owner) : toWellFormed owner.2 = owner.2 := by
  obtain ⟨row, hrow, -⟩ := Option.bind_eq_some_iff.mp ((h.paired nickname owner).mp howner)
  exact (h.stored owner row hrow).1

/-! ## What an operation keeps -/

/-- An entity's row is written and its nickname is entered. -/
theorem kept_of_entered {written : ConfigTables} (h : Kept host tables)
    (hwritten : storedRow written entity = some row)
    (hothers : ∀ other, other ≠ entity → storedRow written other = storedRow tables other)
    (hid : toWellFormed entity.2 = entity.2) (hrow : row.nickname.map toWellFormed = row.nickname)
    (hnickname : normalizedNicknameOrNull host row.nickname = some nickname)
    (hfree : ∀ owner, ownerOf tables nickname = some owner → owner = entity)
    (hstored : storedRow last = storedRow written)
    (howners : ownerOf last = claim (ownerOf tables) entity nickname) : Kept host last := by
  have hname : nicknameOf host last entity = some nickname := by
    rw [nicknameOf, hstored, hwritten]
    exact hnickname
  have hsame : ∀ other, other ≠ entity →
      nicknameOf host last other = nicknameOf host tables other := by
    intro other hother
    rw [nicknameOf, nicknameOf, hstored, hothers other hother]
  constructor
  · rw [howners]
    exact (h.paired.change hsame).claim hname hfree
  · intro other found hfound
    rw [hstored] at hfound
    by_cases hother : other = entity
    · subst hother
      cases hwritten.symm.trans hfound
      refine ⟨hid, hrow, ?_⟩
      rw [hnickname]
      exact Option.some_ne_none _
    · rw [hothers other hother] at hfound
      exact h.stored other found hfound

theorem storedRow_setConfigs (tables : ConfigTables) (entityType : EntityType)
    (configs : OrderedMap JsString ConfigRow) (entity : Entity) :
    storedRow (tables.setConfigs entityType configs) entity =
      if entityType = entity.1 then configs.get? entity.2 else storedRow tables entity := by
  obtain ⟨found, id⟩ := entity
  cases entityType <;> cases found <;> rfl

theorem ownerOf_setConfigs (tables : ConfigTables) (entityType : EntityType)
    (configs : OrderedMap JsString ConfigRow) :
    ownerOf (tables.setConfigs entityType configs) = ownerOf tables := by
  cases entityType <;> rfl

theorem storedRow_set (tables : ConfigTables) (entityType : EntityType) (id : JsString)
    (row : ConfigRow) (other : Entity) :
    storedRow (tables.setConfigs entityType ((tables.configs entityType).set id row)) other =
      if (entityType, id) = other then some row else storedRow tables other := by
  obtain ⟨found, key⟩ := other
  rw [storedRow_setConfigs]
  by_cases htype : entityType = found
  · subst htype
    rw [if_pos rfl, get?_set]
    simp [storedRow]
  · rw [if_neg htype, if_neg fun hsame => htype (Prod.mk.inj hsame).1]

/-- The same where the write sets a row. -/
theorem kept_of_set {entityType : EntityType} (h : Kept host tables) (hid : toWellFormed id = id)
    (hrow : row.nickname.map toWellFormed = row.nickname)
    (hnickname : normalizedNicknameOrNull host row.nickname = some nickname)
    (hfree : ∀ owner, ownerOf tables nickname = some owner → owner = (entityType, id))
    (hstored : storedRow last =
      storedRow (tables.setConfigs entityType ((tables.configs entityType).set id row)))
    (howners : ownerOf last = claim (ownerOf tables) (entityType, id) nickname) :
    Kept host last := by
  refine kept_of_entered h ?_ (fun other hother => ?_) hid hrow hnickname hfree hstored howners
  · rw [storedRow_set, if_pos rfl]
  · rw [storedRow_set, if_neg (Ne.symm hother)]

/-- Where the body keeps the tables right, an error leaves them as they were. -/
theorem transaction_triple {A : Type} {body : Storage A}
    (hbody : Effects.Triple (· = tables) body (fun _ => good) fun _ => True) :
    Effects.Triple (· = tables) (transaction body) (fun _ => good) (· = tables) := by
  rintro tables rfl
  have hrun := hbody tables rfl
  rw [transaction_run]
  cases hresult : body.run tables with
  | ok value last =>
    rw [hresult] at hrun
    exact hrun
  | error error last => rfl

theorem guard_triple :
    Effects.Triple (· = tables) (assertMigrationWriteAllowed conditions) (fun _ => (· = tables))
      (· = tables) := by
  unfold assertMigrationWriteAllowed
  split
  · exact Effects.Triple.pure fun _ h => h
  · exact Effects.Triple.throw fun _ h => h

/-- A nickname passes the check when it is free or the entity's own. -/
theorem available_triple {entityType : EntityType} {entityId : JsString}
    {nickname : Option JsString} :
    Effects.Triple (· = tables) (assertNicknameAvailable host entityType entityId nickname)
      (fun _ last => last = tables ∧ ∃ normalized,
        normalizedNicknameOrNull host nickname = some normalized ∧
        ∀ owner, ownerOf tables (toWellFormed normalized) = some owner →
          owner = (entityType, entityId))
      (· = tables) := by
  rintro tables rfl
  unfold assertNicknameAvailable
  by_cases hempty : normalizeNickname host (nickname.getD []) = []
  · rw [if_pos hempty]
    rfl
  · rw [if_neg hempty, run_bind]
    have hselect : (selectNamespace (normalizeNickname host (nickname.getD []))).run tables =
        .ok (tables.nicknameNamespaces.get?
          (toWellFormed (normalizeNickname host (nickname.getD [])))) tables := rfl
    rw [hselect]
    dsimp only
    cases hfound : (tables.nicknameNamespaces.get? (toWellFormed
        (normalizeNickname host (nickname.getD [])))).filter (ownedByOther entityType entityId) with
    | some existing => rfl
    | none =>
      refine ⟨rfl, normalizeNickname host (nickname.getD []), ?_, fun owner howner => ?_⟩
      · rw [normalizedNicknameOrNull, Option.filter_some, if_pos (decide_eq_true hempty)]
      · obtain ⟨row, hrow, rfl⟩ := Option.map_eq_some_iff.mp howner
        rw [hrow, Option.filter_some] at hfound
        have hown : ¬ ownedByOther entityType entityId row := by
          intro hother
          rw [if_pos hother] at hfound
          cases hfound
        unfold ownedByOther at hown
        simp only [Bool.or_eq_true, decide_eq_true_eq, not_or, not_not] at hown
        exact Prod.ext hown.1 hown.2

/-! ## The operations -/

theorem otherWrites_triple :
    Effects.Triple good (otherWrites conditions) (fun _ => good) fun _ => True := by
  unfold otherWrites
  split
  · exact Effects.Triple.throw fun _ _ => trivial
  · exact Effects.Triple.pure fun _ h => h

/-- The row of an entity is written, its creation time apart. -/
theorem upsertConfigRow_triple {entityType : EntityType} :
    Effects.Triple (· = tables) (upsertConfigRow conditions entityType id row)
      (fun _ last => ∃ createdAt, last = tables.setConfigs entityType
        ((tables.configs entityType).set (toWellFormed id) { row with createdAt := createdAt }))
      fun _ => True := by
  rintro tables rfl
  unfold upsertConfigRow
  rw [run_bind]
  dsimp only
  cases hfails : conditions.configWriteFails entityType (toWellFormed id) with
  | true =>
    rw [run_get]
    dsimp only
    rw [if_pos rfl]
    trivial
  | false => exact ⟨_, rfl⟩

section

variable (h : Kept host tables)
include h

theorem upsertConfig_triple (entityType : EntityType) (input : EntityConfig)
    (options : PersistenceOptions) :
    Effects.Triple (· = tables) (upsertConfig host conditions entityType input options)
      (fun _ => Kept host) (· = tables) := by
  refine Effects.Triple.bind guard_triple fun _ => ?_
  refine Effects.Triple.bind available_triple fun _ => ?_
  refine Effects.Triple.atState fun state hstate => ?_
  obtain ⟨rfl, nickname, hnickname, hfree⟩ := hstate
  have hid (owner : Entity) (howner : ownerOf state (toWellFormed nickname) = some owner) :
      owner = (entityType, toWellFormed input.id) := by
    have hsame := hfree owner howner
    have hformed := h.owner_wellFormed howner
    rw [hsame] at hformed ⊢
    exact Prod.ext rfl hformed.symm
  refine transaction_triple ?_
  refine Effects.Triple.bind upsertConfigRow_triple fun _ => ?_
  refine Effects.Triple.atState fun written hwritten => ?_
  obtain ⟨createdAt, rfl⟩ := hwritten
  refine Effects.Triple.bindThrough (fun _ => Kept host)
    (Effects.Triple.weaken (sync_triple hnickname ?_) (fun _ h => h)
      fun _ last hlast => ?_) fun _ => ?_
  · rw [ownerOf_setConfigs]
    exact hid
  · obtain ⟨hstored, howners⟩ := hlast
    rw [ownerOf_setConfigs] at howners
    refine kept_of_set h (toWellFormed_toWellFormed _) ?_ ?_ hid hstored howners
    · simp [Option.map_map, Function.comp_def]
    · rw [normalizedNickname_toWellFormed, hnickname, Option.map_some]
  · split
    · exact otherWrites_triple
    · exact Effects.Triple.pure fun _ h => h

/-- The nickname of a stored entity is entered for it and nobody else. -/
theorem Kept.own (hrow : storedRow tables entity = some row) :
    ∃ nickname, normalizedNicknameOrNull host row.nickname = some nickname ∧
      toWellFormed nickname = nickname ∧
      ∀ owner, ownerOf tables nickname = some owner → owner = entity := by
  obtain ⟨-, hformed, hsome⟩ := h.stored entity row hrow
  obtain ⟨nickname, hnickname⟩ := Option.ne_none_iff_exists'.mp hsome
  have hname : nicknameOf host tables entity = some nickname := by
    rw [nicknameOf, hrow]
    exact hnickname
  refine ⟨nickname, hnickname, ?_, fun owner howner => ?_⟩
  · have hmap := @normalizedNickname_toWellFormed host row.nickname
    rw [hformed, hnickname] at hmap
    exact (Option.some.inj hmap).symm
  · have hown := (h.paired nickname entity).mpr hname
    rw [howner] at hown
    exact Option.some.inj hown

theorem disableAgentConfig_triple (agentId : JsString) (now : ℤ) :
    Effects.Triple (· = tables) (disableAgentConfig host conditions agentId now)
      (fun _ => Kept host) (· = tables) := by
  refine Effects.Triple.bind guard_triple fun _ => Effects.Triple.get fun state hstate => ?_
  obtain rfl : state = tables := hstate
  dsimp only
  cases hrow : state.agentConfigs.get? (toWellFormed agentId) with
  | none => exact Effects.Triple.pure fun last hlast => hlast ▸ h
  | some row =>
    have hstored : storedRow state (.agent, toWellFormed agentId) = some row := hrow
    obtain ⟨nickname, hnickname, hformed, hfree⟩ := h.own hstored
    refine transaction_triple ?_
    split
    · exact Effects.Triple.throw fun _ _ => trivial
    · refine Effects.Triple.bindThrough (fun _ last => last = state.setConfigs .agent
        (state.agentConfigs.set (toWellFormed agentId)
          { row with status := ofString "disabled", updatedAt := now }))
        (Effects.Triple.modify fun last hlast => by rw [hlast]; rfl) fun _ => ?_
      refine Effects.Triple.bindThrough (fun _ => Kept host)
        (Effects.Triple.weaken (sync_triple hnickname ?_) (fun _ hlast => hlast)
          fun _ last hlast => ?_) fun _ => Effects.Triple.pure fun _ hlast => hlast
      · rw [hformed]
        exact hfree
      · obtain ⟨hlaststored, howners⟩ := hlast
        rw [hformed] at howners
        refine kept_of_set h (toWellFormed_toWellFormed _) ?_ ?_ hfree hlaststored howners
        · exact (h.stored _ _ hstored).2.1
        · exact hnickname

theorem kept_of_erased :
    Kept host { dropped tables (.team, id) with
      teamConfigs := (dropped tables (.team, id)).teamConfigs.erase id } := by
  have hstored (other : Entity) : storedRow { dropped tables (.team, id) with
      teamConfigs := (dropped tables (.team, id)).teamConfigs.erase id } other =
        if other = (.team, id) then none else storedRow tables other := by
    obtain ⟨found, key⟩ := other
    cases found with
    | agent => rfl
    | team =>
      refine (get?_erase _ _ _).trans ?_
      by_cases hkey : id = key
      · subst hkey
        simp
      · rw [if_neg hkey, if_neg fun hsame => hkey (Prod.mk.inj hsame).2.symm]
        rfl
  constructor
  · have hothers : ∀ other, other ≠ (EntityType.team, id) →
        nicknameOf host { dropped tables (.team, id) with
          teamConfigs := (dropped tables (.team, id)).teamConfigs.erase id } other =
            nicknameOf host tables other := by
      intro other hother
      rw [nicknameOf, nicknameOf, hstored, if_neg hother]
    have hname : nicknameOf host { dropped tables (.team, id) with
        teamConfigs := (dropped tables (.team, id)).teamConfigs.erase id } (.team, id) = none := by
      rw [nicknameOf, hstored, if_pos rfl]
      rfl
    have hreleased := (h.paired.change hothers).release hname
    rw [← ownerOf_dropped] at hreleased
    exact hreleased
  · intro other row hrow
    rw [hstored] at hrow
    split at hrow
    · cases hrow
    · exact h.stored other row hrow

theorem deleteTeamConfig_triple (teamId : JsString) :
    Effects.Triple (· = tables) (deleteTeamConfig conditions teamId) (fun _ => Kept host)
      (· = tables) := by
  refine Effects.Triple.bind guard_triple fun _ => Effects.Triple.get fun state hstate => ?_
  obtain rfl : state = tables := hstate
  dsimp only
  cases hrow : state.teamConfigs.get? (toWellFormed teamId) with
  | none => exact Effects.Triple.pure fun last hlast => hlast ▸ h
  | some row =>
    refine transaction_triple ?_
    refine Effects.Triple.bind otherWrites_triple fun _ => ?_
    refine Effects.Triple.bindThrough
      (fun _ last => last = dropped state (.team, toWellFormed teamId))
        (Effects.Triple.modify fun last hlast => by rw [hlast]; rfl) fun _ => ?_
    refine Effects.Triple.bindThrough (fun _ => Kept host)
      (Effects.Triple.modify fun last hlast => ?_) fun _ => Effects.Triple.pure fun _ hlast => hlast
    subst hlast
    exact kept_of_erased h

end

/-! ## Reconciling -/

/-- Every stored entity has the nickname that it had. -/
def SameNicknames (tables last : ConfigTables) : Prop :=
  ∀ entity, (storedRow last entity).map (·.nickname) = (storedRow tables entity).map (·.nickname)

theorem SameNicknames.nicknameOf (h : SameNicknames tables last) :
    nicknameOf host last = Nicknames.nicknameOf host tables := by
  funext entity
  have hnickname := congrArg (fun found => found.bind (normalizedNicknameOrNull host)) (h entity)
  rw [Option.bind_map, Option.bind_map] at hnickname
  exact hnickname

/-- Neither the namespace nor a nickname changes. -/
theorem kept_of_sameNicknames (h : Kept host tables) (howners : ownerOf last = ownerOf tables)
    (hsame : SameNicknames tables last) : Kept host last := by
  constructor
  · rw [howners, hsame.nicknameOf]
    exact h.paired
  · intro entity row hrow
    have hnickname := hsame entity
    rw [hrow, Option.map_some] at hnickname
    obtain ⟨found, hfound, hfoundNickname⟩ := Option.map_eq_some_iff.mp hnickname.symm
    rw [← hfoundNickname]
    exact h.stored entity found hfound

/-- The derived column of one row is written. -/
def rederived (host : CaseHost) (tables : ConfigTables) (entityType : EntityType)
    (entry : JsString × ConfigRow) : ConfigTables :=
  tables.setConfigs entityType ((tables.configs entityType).mapValues fun key row =>
    if key = entry.1 then
      { row with
        normalizedNickname := (normalizedNicknameOrNull host entry.2.nickname).map
          toWellFormed }
    else row)

theorem sameNicknames_rederived (entry : JsString × ConfigRow) :
    SameNicknames tables (rederived host tables entityType entry) := by
  intro other
  unfold rederived
  rw [storedRow_setConfigs]
  split
  · rename_i htype
    rw [get?_mapValues, Option.map_map, storedRow, htype]
    refine congrArg (fun f => Option.map f _) (funext fun found => ?_)
    split <;> rfl
  · rfl

theorem reconcileRow_triple (h : Kept host tables) {entityType : EntityType}
    (hentry : (storedRow tables (entityType, entry.1)).map (·.nickname) = some entry.2.nickname) :
    Effects.Triple (· = tables) (reconcileRow host conditions entityType entry)
      (fun _ last => Kept host last ∧ SameNicknames tables last) fun _ => True := by
  unfold reconcileRow
  split
  · exact Effects.Triple.throw fun _ _ => trivial
  refine Effects.Triple.bindThrough (fun _ last => last = rederived host tables entityType entry)
    (Effects.Triple.modify fun last hlast => by rw [hlast]; rfl) fun _ => ?_
  have hsame : SameNicknames tables (rederived host tables entityType entry) :=
    sameNicknames_rederived entityType entry
  have hwritten : Kept host (rederived host tables entityType entry) :=
    kept_of_sameNicknames h (ownerOf_setConfigs _ _ _) hsame
  rintro written rfl
  generalize rederived host tables entityType entry = written at hsame hwritten
  obtain ⟨row, hrow, hnicknames⟩ := Option.map_eq_some_iff.mp ((hsame _).trans hentry)
  obtain ⟨nickname, hnickname, hformed, hfree⟩ := hwritten.own hrow
  have hid : toWellFormed entry.1 = entry.1 := (hwritten.stored _ _ hrow).1
  have hfree' : ∀ owner, ownerOf written (toWellFormed nickname) = some owner →
      owner = (entityType, toWellFormed entry.1) := by
    rw [hformed, hid]
    exact hfree
  have hinput := hnickname
  rw [hnicknames] at hinput
  rw [Effects.run_tryCatch, sync_run hinput (dropped_free hfree')]
  cases conditions.namespaceWriteFails entityType (toWellFormed entry.1) with
  | true => trivial
  | false =>
    rw [if_neg Bool.false_ne_true]
    refine ⟨kept_of_entered hwritten hrow (fun _ _ => rfl) hid (hwritten.stored _ _ hrow).2.1
      hnickname hfree storedRow_nicknames ?_, fun other => ?_⟩
    · rw [ownerOf_entered, hformed, hid]
    · rw [← hsame other]
      exact congrArg (Option.map _) (congrFun storedRow_nicknames other)

theorem SameNicknames.refl (tables : ConfigTables) : SameNicknames tables tables := fun _ => rfl

theorem SameNicknames.trans {middle : ConfigTables} (hfirst : SameNicknames tables middle)
    (hsecond : SameNicknames middle last) : SameNicknames tables last :=
  fun entity => (hsecond entity).trans (hfirst entity)

theorem reconcileRows_triple {entityType : EntityType} (entries : List (JsString × ConfigRow))
    (h : Kept host tables) (hentries : ∀ entry ∈ entries,
      (storedRow tables (entityType, entry.1)).map (·.nickname) = some entry.2.nickname) :
    Effects.Triple (· = tables) (reconcileRows host conditions entityType entries)
      (fun _ last => Kept host last ∧ SameNicknames tables last) fun _ => True := by
  induction entries generalizing tables with
  | nil =>
    refine Effects.Triple.pure fun last hlast => ?_
    rw [hlast]
    exact ⟨h, SameNicknames.refl tables⟩
  | cons entry rest ih =>
    obtain ⟨hentry, hrest⟩ := forall_mem_cons.mp hentries
    refine Effects.Triple.bind (reconcileRow_triple h hentry) fun _ => ?_
    refine Effects.Triple.atState fun middle hmiddle => ?_
    refine Effects.Triple.weaken (ih hmiddle.1 fun other hother => ?_) (fun _ hlast => hlast)
      fun _ last hlast => ⟨hlast.1, hmiddle.2.trans hlast.2⟩
    rw [hmiddle.2 (entityType, other.1)]
    exact hrest other hother

/-- The rows that are gone through are the stored ones. -/
theorem mem_rowsByUpdate {entityType : EntityType}
    (hentry : entry ∈ rowsByUpdate (tables.configs entityType)) :
    (storedRow tables (entityType, entry.1)).map (·.nickname) = some entry.2.nickname := by
  have hmem := (mergeSort_perm _ _).mem_iff.mp hentry
  exact congrArg (Option.map (·.nickname)) (get?_of_mem_entries hmem)

theorem reconcile_triple (h : Kept host tables) :
    Effects.Triple (· = tables) (reconcileSubAgentStorageDerivedFields host conditions)
      (fun _ => Kept host) (· = tables) := by
  refine transaction_triple (Effects.Triple.get fun state hstate => ?_)
  obtain rfl : state = tables := hstate
  refine Effects.Triple.bind (@reconcileRows_triple host conditions _ .agent _ h
    fun _ hentry => mem_rowsByUpdate hentry) fun _ => ?_
  refine Effects.Triple.atState fun middle hmiddle => ?_
  refine Effects.Triple.get fun last hlast => ?_
  obtain rfl : last = middle := hlast
  exact Effects.Triple.weaken (@reconcileRows_triple host conditions _ .team _ hmiddle.1
    fun _ hentry => mem_rowsByUpdate hentry) (fun _ hlast => hlast) fun _ _ hlast => hlast.1

/-! ## Runs -/

theorem perform_triple (h : Kept host tables) (call : ConfigCall) :
    Effects.Triple (· = tables) (call.perform host conditions) (fun _ => Kept host)
      (· = tables) := by
  have hunit {A : Type} {body : Storage A} (hbody : Effects.Triple (· = tables) body
      (fun _ => Kept host) (· = tables)) : Effects.Triple (· = tables)
        (do let _ ← body; pure ()) (fun _ => Kept host) (· = tables) :=
    Effects.Triple.bind hbody fun _ => Effects.Triple.pure fun _ hlast => hlast
  cases call with
  | upsertAgent input options => exact upsertConfig_triple h .agent input options
  | upsertTeam input options => exact upsertConfig_triple h .team input options
  | disableAgent agentId now => exact hunit (disableAgentConfig_triple h agentId now)
  | deleteTeam teamId => exact hunit (deleteTeamConfig_triple h teamId)
  | reconcile => exact reconcile_triple h

theorem kept_of_run {calls : List (Conditions × ConfigCall)}
    (run : Run (ConfigStep host) .empty calls tables) : Kept host tables := by
  refine run.invariant (fun state call next hstate taken => ?_) (kept_empty host)
  have hcall := @perform_triple host call.1 state hstate call.2 state rfl
  rw [taken]
  cases hresult : (call.2.perform host call.1).run state with
  | ok value last =>
    rw [hresult] at hcall
    exact hcall
  | error error last =>
    rw [hresult] at hcall
    exact hcall ▸ hstate

end Sync

/-- After every sequence of operations from empty tables, nicknames are unique and the
namespace is exactly what they are; and an operation that throws leaves the tables alone. -/
theorem nicknameNamespace_invariant (host : CaseHost) (calls : List (Conditions × ConfigCall))
    (tables : ConfigTables) (run : Run (ConfigStep host) .empty calls tables) :
    NicknamesUnique host tables ∧ ∀ (conditions : Conditions) (call : ConfigCall) error last,
      (call.perform host conditions).run tables = .error error last → last = tables := by
  have hkept := kept_of_run run
  refine ⟨nicknamesUnique_of_kept hkept, fun conditions call error last hthrown => ?_⟩
  have hcall := @perform_triple host conditions tables hkept call tables rfl
  rw [hthrown] at hcall
  exact hcall

/-- A call that no constraint stops. -/
def openConditions : Conditions where
  writeAllowed := true
  dateNow := 0
  configWriteFails _ _ := false
  namespaceWriteFails _ _ := false
  otherWriteFails := false

def annConfig : EntityConfig where
  id := ofString "agent:ann"
  nickname := some (ofString " Ann")
  status := ofString "enabled"
  createdAt := 0
  updatedAt := none

def annStored : ConfigTables :=
  Effects.stateAfter ((upsertAgentConfig asciiCase openConditions annConfig {}).run .empty)

/-- A team that asks for the nickname of a stored agent is refused. -/
theorem nicknameNamespace_annStored :
    NicknamesUnique asciiCase annStored ∧
      nicknameOf asciiCase annStored (.agent, ofString "agent:ann") =
        some (ofString "ann") ∧
      Effects.stateAfter ((upsertTeamConfig asciiCase openConditions
        { annConfig with nickname := some (ofString "ann") } {}).run annStored) =
          annStored := by
  have hinvariant := nicknameNamespace_invariant asciiCase
    [(openConditions, .upsertAgent annConfig {})] annStored (Run.single rfl)
  have hrefused : Except.isOk (Effects.settled ((upsertTeamConfig asciiCase openConditions
      { annConfig with nickname := some (ofString "ann") } {}).run annStored)) = false := by
    decide +kernel
  refine ⟨hinvariant.1, by decide +kernel, ?_⟩
  cases hresult : (upsertTeamConfig asciiCase openConditions
      { annConfig with nickname := some (ofString "ann") } {}).run annStored with
  | ok value last =>
    rw [hresult] at hrefused
    cases hrefused
  | error error last => exact hinvariant.2 openConditions (.upsertTeam _ _) error last hresult

end Nobie.Db.Nicknames
