/-
# Stored sub-sessions

A row of `run_subsessions` holds the contract of a sub-session as canonical JSON next to the
columns it is looked up by. The sub-session id is the primary key and the idempotency key is
unique, so an insertion may be refused for either, and the answer does not say for which. An
update is by sub-session id and writes the idempotency key anew.
-/

import Mathlib.Logic.Function.Basic
import Nobie.Contracts.CanonicalIdentity
import Nobie.Foundation.Transition
import Nobie.Orchestration.SubSessionRun

namespace Nobie.Orchestration

open Foundation Contracts JsString

/-! ## Contracts -/

/-- A `SubSessionContract`: the members of the object, and those of them that the store
reads. Whatever else the contract has is among the members. -/
structure SubSessionDocument where
  (members identity : List (JsString × JsValue))
  subSessionId : JsString
  status : SubSessionStatus
  idempotencyKey : JsString
  proper : (JsValue.object members).proper
  hasIdentity : (ofString "identity", .object identity) ∈ members
  hasSubSessionId : (ofString "subSessionId", .string subSessionId) ∈ members
  hasStatus : (ofString "status", textValue status.text) ∈ members
  hasIdempotencyKey : (ofString "idempotencyKey", .string idempotencyKey) ∈ identity

variable (document : SubSessionDocument)

def SubSessionDocument.value : JsValue := .object document.members

/-- A text as a column holds it, in UTF-8. -/
def columnText (text : JsString) : JsString := toWellFormed text

/-! ## Texts of contracts -/

/-- `typeof parsed === "object"` for a truthy value. -/
def isObject : JsonValue → Bool
  | .array _ | .object _ => true
  | .null | .bool _ | .number _ | .string _ => false

def parseStoredSubSession (value : String) : Option JsonValue :=
  (JsonValue.parse value).filter isObject

/-- The text of a contract is one of an object, since the status is never left out. -/
theorem parseStoredSubSession_document (contract : SubSessionDocument) :
    ∃ read, parseStoredSubSession (toCanonicalJson contract.value) = some read ∧
      JsonValue.parse (toCanonicalJson contract.value) = some read := by
  obtain ⟨status, hstatus⟩ : ∃ status, reduced (textValue contract.status.text) = some status := by
    cases contract.status <;> exact ⟨_, reduced_string (by decide)⟩
  have hkey : ofString "status" ≠ protoKey := by decide
  have hmem : (ofString "status", status) ∈ dropProto reduced contract.members :=
    mem_dropProto.mpr ⟨hkey, _, contract.hasStatus, hstatus⟩
  have hnonempty : (dropProto reduced contract.members).isEmpty = false :=
    List.isEmpty_eq_false_iff.mpr (List.ne_nil_of_mem hmem)
  obtain ⟨read, hread, hsame⟩ := parse_toCanonicalJson contract.proper
  have hobject : isObject read := by
    rw [reduced_object, nonemptyObject, hnonempty] at hsame
    cases hsame
    rfl
  have hparse : JsonValue.parse (toCanonicalJson contract.value) = some read := hread
  exact ⟨read, by rw [parseStoredSubSession, hparse, Option.filter_some, if_pos hobject], hparse⟩

/-! ## The table -/

/-- A row. The columns that no look-up by key reads are left out. -/
structure SubSessionRow where
  (subSessionId idempotencyKey : JsString)
  contractJson : String

/-- The row that is written for a contract; the contract is written with `toJson`. -/
def SubSessionDocument.row : SubSessionRow where
  subSessionId := columnText document.subSessionId
  idempotencyKey := columnText document.idempotencyKey
  contractJson := toCanonicalJson document.value

variable (row : SubSessionRow) (idempotencyKey : JsString)

/-- The row has the text of an object. -/
def SubSessionRow.Readable : Prop := ∃ read, parseStoredSubSession row.contractJson = some read

theorem row_readable : document.row.Readable := by
  obtain ⟨read, hread, -⟩ := parseStoredSubSession_document document
  exact ⟨read, hread⟩

/-- `run_subsessions` with its primary key, its unique column and the texts of objects. -/
structure SubSessionTable where
  rows : List SubSessionRow
  distinctIds : (rows.map SubSessionRow.subSessionId).Nodup
  distinctKeys : (rows.map SubSessionRow.idempotencyKey).Nodup
  readable : ∀ row ∈ rows, row.Readable

def SubSessionTable.empty : SubSessionTable := ⟨[], .nil, .nil, by simp⟩

variable (table : SubSessionTable)

/-- Is a unique constraint in the way of a new row? -/
def SubSessionTable.Conflicts (row : SubSessionRow) : Prop :=
  row.subSessionId ∈ table.rows.map SubSessionRow.subSessionId ∨
    row.idempotencyKey ∈ table.rows.map SubSessionRow.idempotencyKey

instance (table : SubSessionTable) (row : SubSessionRow) : Decidable (table.Conflicts row) :=
  inferInstanceAs (Decidable (_ ∨ _))

def SubSessionTable.add (table : SubSessionTable) (row : SubSessionRow) (hreadable : row.Readable)
    (hfree : ¬ table.Conflicts row) : SubSessionTable where
  rows := table.rows ++ [row]
  distinctIds := by
    rw [List.map_append, List.map_singleton]
    exact table.distinctIds.append (List.nodup_singleton _)
      (List.disjoint_singleton.mpr fun hmem => hfree (.inl hmem))
  distinctKeys := by
    rw [List.map_append, List.map_singleton]
    exact table.distinctKeys.append (List.nodup_singleton _)
      (List.disjoint_singleton.mpr fun hmem => hfree (.inr hmem))
  readable := List.forall_mem_append.mpr ⟨table.readable, List.forall_mem_singleton.mpr hreadable⟩

/-- Any violation of a unique constraint is answered `false`. -/
def insertRunSubSession (input : SubSessionDocument) : Bool × SubSessionTable :=
  if hconflict : table.Conflicts input.row then (false, table)
  else (true, table.add input.row (row_readable input) hconflict)

/-- `SET … WHERE sub_session_id = ?` on the rows. -/
def rewriteRows (rows : List SubSessionRow) (row : SubSessionRow) : List SubSessionRow :=
  rows.map fun stored => if stored.subSessionId = row.subSessionId then row else stored

theorem rewriteRows_ids (rows : List SubSessionRow) (row : SubSessionRow) :
    (rewriteRows rows row).map SubSessionRow.subSessionId =
      rows.map SubSessionRow.subSessionId := by
  unfold rewriteRows
  rw [List.map_map]
  refine List.map_congr_left fun stored _ => ?_
  rw [Function.comp_apply]
  split
  · next hsame => exact hsame.symm
  · rfl

theorem mem_rewriteRows {rows : List SubSessionRow} {row stored : SubSessionRow}
    (hmem : stored ∈ rewriteRows rows row) : stored = row ∨ stored ∈ rows := by
  obtain ⟨found, hfound, rfl⟩ := List.mem_map.mp hmem
  split
  · exact .inl rfl
  · exact .inr hfound

/-- An update throws where the new key is another row's. `true` is the answer when a row was
changed. -/
def updateRunSubSession (input : SubSessionDocument) : Except Unit (Bool × SubSessionTable) :=
  if input.row.subSessionId ∈ table.rows.map SubSessionRow.subSessionId then
    if hunique : ((rewriteRows table.rows input.row).map SubSessionRow.idempotencyKey).Nodup then
      .ok (true,
        { rows := rewriteRows table.rows input.row
          distinctIds := by
            rw [rewriteRows_ids]
            exact table.distinctIds
          distinctKeys := hunique
          readable := fun stored hmem => (mem_rewriteRows hmem).elim
            (fun hsame => hsame ▸ row_readable input) (table.readable stored) })
    else .error ()
  else .ok (false, table)

def getRunSubSessionByIdempotencyKey (idempotencyKey : JsString) : Option SubSessionRow :=
  table.rows.find? fun row => row.idempotencyKey = columnText idempotencyKey

/-! ## Reading a contract -/

def loadSubSessionByIdempotencyKey (idempotencyKey : JsString) : Option JsonValue :=
  (getRunSubSessionByIdempotencyKey table idempotencyKey).bind
    fun row => parseStoredSubSession row.contractJson

/-- `existing.status`. -/
def storedStatus : JsonValue → Option JsString
  | .object members =>
    match OrderedMap.lookup members (ofString "status") with
    | some (.string status) => some status
    | _ => none
  | _ => none

/-- `isReplayableStatus(existing.status)` of a stored contract. -/
def isReplayable (existing : JsonValue) : Bool :=
  [SubSessionStatus.completed, .needsRevision, .failed, .cancelled].any fun status =>
    storedStatus existing = some (ofString status.text)

/-- The stored contract that the first look-up of `runSubSession` answers with. -/
def replayOnArrival (idempotencyKey : JsString) : Option JsonValue :=
  (loadSubSessionByIdempotencyKey table idempotencyKey).filter isReplayable

/-- The stored contract that the look-up after a refused insertion answers with. -/
def replayOnRefusal (idempotencyKey : JsString) : Option JsonValue :=
  loadSubSessionByIdempotencyKey table idempotencyKey

/-! ## A stored contract is read back as far as canonical JSON goes

What a look-up parses is the contract, its undefined members disregarded, exactly if canonical
JSON leaves nothing in the contract out. -/

open JsonValue List

/-- The contract was written to the table by an insertion or an update. -/
inductive Written (before : SubSessionTable) (contract : SubSessionDocument)
    (after : SubSessionTable) : Prop
  | inserted (hinserted : insertRunSubSession before contract = (true, after))
  | updated (hupdated : updateRunSubSession before contract = .ok (true, after))

/-- A look-up by the contract's key gives the contract, and so does every replay. -/
structure ReadsBack (table : SubSessionTable) (contract : SubSessionDocument) : Prop where
  loads : ∃ read, loadSubSessionByIdempotencyKey table contract.idempotencyKey = some read ∧
    EqualToRead contract.value read
  replays : ∀ read, replayOnArrival table contract.idempotencyKey = some read ∨
    replayOnRefusal table contract.idempotencyKey = some read → EqualToRead contract.value read

variable {before after : SubSessionTable} {contract : SubSessionDocument}

/-- What was written stands in the table. -/
theorem Written.mem (hwritten : Written before contract after) : contract.row ∈ after.rows := by
  cases hwritten with
  | inserted hinserted =>
    unfold insertRunSubSession at hinserted
    split at hinserted
    · cases hinserted
    · cases hinserted
      exact mem_append_cons_self
  | updated hupdated =>
    unfold updateRunSubSession at hupdated
    split at hupdated
    · next hstored =>
      split at hupdated
      · cases Except.ok.inj hupdated
        obtain ⟨stored, hmem, hsame⟩ := mem_map.mp hstored
        exact mem_map.mpr ⟨stored, hmem, if_pos hsame⟩
      · cases hupdated
    · cases hupdated

/-- A look-up by key finds the row that has the key. -/
theorem getRunSubSessionByIdempotencyKey_of_mem {table : SubSessionTable} {row : SubSessionRow}
    (hmem : row ∈ table.rows) {idempotencyKey : JsString}
    (hkey : row.idempotencyKey = columnText idempotencyKey) :
    getRunSubSessionByIdempotencyKey table idempotencyKey = some row := by
  unfold getRunSubSessionByIdempotencyKey
  cases hfound : table.rows.find? fun row => row.idempotencyKey = columnText idempotencyKey with
  | none => exact absurd hkey (by simpa using find?_eq_none.mp hfound row hmem)
  | some found =>
    have hfoundKey : found.idempotencyKey = columnText idempotencyKey := by
      simpa using find?_some hfound
    exact congrArg some (inj_on_of_nodup_map table.distinctKeys
      (mem_of_find?_eq_some hfound) hmem (hfoundKey.trans hkey.symm))

/-- The look-up parses the text that was written. -/
theorem Written.loads (hwritten : Written before contract after) :
    ∃ read, loadSubSessionByIdempotencyKey after contract.idempotencyKey = some read ∧
      parse (toCanonicalJson contract.value) = some read := by
  obtain ⟨read, hread, hparse⟩ := parseStoredSubSession_document contract
  have hrow := getRunSubSessionByIdempotencyKey_of_mem hwritten.mem rfl
  exact ⟨read, by rw [loadSubSessionByIdempotencyKey, hrow]; exact hread, hparse⟩

/-- The contract comes back as it was written exactly if canonical JSON leaves nothing in it
out. -/
theorem readsBack_iff {before after : SubSessionTable} {contract : SubSessionDocument}
    (hwritten : Written before contract after) :
    ReadsBack after contract ↔ NothingLeftOut contract.value := by
  obtain ⟨read, hload, hread⟩ := hwritten.loads
  have hiff : EqualToRead contract.value read ↔ NothingLeftOut contract.value :=
    (readBack_iff contract.proper hread).trans (or_iff_right fun hnull => by cases hnull)
  constructor
  · rintro ⟨⟨found, hfound, hequal⟩, -⟩
    cases hfound.symm.trans hload
    exact hiff.mp hequal
  · intro hwhole
    refine ⟨⟨read, hload, hiff.mpr hwhole⟩, fun found hfound => ?_⟩
    obtain hfound | hfound := hfound
    · rw [replayOnArrival, hload, Option.filter_eq_some_iff] at hfound
      cases hfound.1
      exact hiff.mpr hwhole
    · cases hfound.symm.trans hload
      exact hiff.mpr hwhole

/-- What is left out of a member is left out of the object. -/
theorem nothingLeftOut_member {members : List (JsString × JsValue)} {key : JsString}
    {value : JsValue} (hwhole : NothingLeftOut (.object members)) (hmember : (key, value) ∈ members)
    (hdefined : value ≠ .undefined) : NothingLeftOut value := by
  cases hwhole with
  | object _ _ hmembers => exact hmembers (key, value) hmember hdefined

theorem written_empty (contract : SubSessionDocument) :
    Written .empty contract (insertRunSubSession .empty contract).2 := by
  refine .inserted ?_
  have hfree : ¬ SubSessionTable.empty.Conflicts contract.row := by
    rintro (hmem | hmem) <;> cases hmem
  rw [insertRunSubSession, dif_neg hfree]

/-! ## A contract that is read back -/

/-- The members that the store reads, and no others. -/
def bareContract : SubSessionDocument where
  members :=
    [(ofString "identity", objectOf [("idempotencyKey", textValue "key-1")]),
      (ofString "subSessionId", textValue "sub-1"),
      (ofString "status", textValue "queued")]
  identity := [(ofString "idempotencyKey", textValue "key-1")]
  subSessionId := ofString "sub-1"
  status := .queued
  idempotencyKey := ofString "key-1"
  proper := by decide +kernel
  hasIdentity := by simp [objectOf]
  hasSubSessionId := by simp [textValue]
  hasStatus := by simp [SubSessionStatus.text]
  hasIdempotencyKey := by simp [textValue]

theorem bareContract_whole : NothingLeftOut bareContract.value := by
  have htext {text : String} (hblank : trim (ofString text) ≠ []) :
      NothingLeftOut (textValue text) := .string hblank
  have hidentity : NothingLeftOut (objectOf [("idempotencyKey", textValue "key-1")]) := by
    refine .object ⟨_, mem_cons_self, by simp [textValue]⟩ ?_ ?_
    · simp only [map_cons, map_nil, forall_mem_singleton]
      exact fun _ => by decide
    · simp only [map_cons, map_nil, forall_mem_singleton]
      exact fun _ => htext (by decide)
  refine .object ⟨_, mem_cons_self, by simp [objectOf]⟩ ?_ ?_
  · simp only [bareContract, forall_mem_cons]
    exact ⟨fun _ => by decide, fun _ => by decide, fun _ => by decide, by simp⟩
  · simp only [bareContract, forall_mem_cons]
    exact ⟨fun _ => hidentity, fun _ => htext (by decide), fun _ => htext (by decide), by simp⟩

theorem bareContract_readsBack :
    Written .empty bareContract (insertRunSubSession .empty bareContract).2 ∧
      NothingLeftOut bareContract.value ∧
      ReadsBack (insertRunSubSession .empty bareContract).2 bareContract :=
  ⟨written_empty _, bareContract_whole,
    (readsBack_iff (written_empty bareContract)).mpr bareContract_whole⟩

/-! ## A contract that is not -/

def identityMembers : List (JsString × JsValue) :=
  [(ofString "schemaVersion", contractSchemaVersion),
    (ofString "entityType", textValue "sub_session"),
    (ofString "entityId", textValue "sub-1"),
    (ofString "owner",
      objectOf [("ownerType", textValue "sub_agent"), ("ownerId", textValue "a")]),
    (ofString "idempotencyKey", textValue "key-1")]

/-- The model of a sub-session, chosen for no particular reason. -/
def unreasonedSnapshot : List (String × JsValue) :=
  [("providerId", textValue "p"), ("modelId", textValue "m"), ("fallbackApplied", .bool false),
    ("estimatedInputTokens", .number (.ofNat 1)), ("estimatedOutputTokens", .number (.ofNat 1)),
    ("estimatedCost", .number (.ofNat 0)), ("reasonCodes", .array [])]

def unreasonedContract : SubSessionDocument where
  members :=
    [(ofString "identity", .object identityMembers),
      (ofString "subSessionId", textValue "sub-1"),
      (ofString "parentSessionId", textValue "session-1"),
      (ofString "parentRunId", textValue "run-1"),
      (ofString "agentId", textValue "a"),
      (ofString "agentDisplayName", textValue "A"),
      (ofString "commandRequestId", textValue "c"),
      (ofString "status", textValue "queued"),
      (ofString "promptBundleId", textValue "p"),
      (ofString "modelExecutionSnapshot", objectOf unreasonedSnapshot)]
  identity := identityMembers
  subSessionId := ofString "sub-1"
  status := .queued
  idempotencyKey := ofString "key-1"
  proper := by decide +kernel
  hasIdentity := by simp
  hasSubSessionId := by simp [textValue]
  hasStatus := by simp [SubSessionStatus.text]
  hasIdempotencyKey := by simp [identityMembers, textValue]

/-- The empty list of reasons does not come back. -/
theorem unreasonedContract_not_readBack :
    Written .empty unreasonedContract (insertRunSubSession .empty unreasonedContract).2 ∧
      ¬ ReadsBack (insertRunSubSession .empty unreasonedContract).2 unreasonedContract := by
  have hwritten := written_empty unreasonedContract
  refine ⟨hwritten, fun hback => ?_⟩
  obtain ⟨read, hload, hread⟩ := hwritten.loads
  obtain ⟨found, hfound, hequal⟩ := hback.loads
  cases hfound.symm.trans hload
  obtain hnull | hwhole := (readBack_iff unreasonedContract.proper hread).mp hequal
  · cases hnull
  · have hmember : (ofString "modelExecutionSnapshot", objectOf unreasonedSnapshot) ∈
        unreasonedContract.members := by simp [unreasonedContract]
    have hsnapshot := nothingLeftOut_member hwhole hmember (by simp [objectOf])
    have hreason : (ofString "reasonCodes", JsValue.array []) ∈
        unreasonedSnapshot.map fun member => (ofString member.1, member.2) :=
      mem_map.mpr ⟨("reasonCodes", .array []), by simp [unreasonedSnapshot], rfl⟩
    have hreasons := nothingLeftOut_member hsnapshot hreason (by simp)
    cases hreasons with
    | array hne _ => exact hne rfl

/-! ## The idempotency gate of the runner

Calls of `runSubSession` take turns between their awaits at the table of sub-sessions. A call looks
its key up, inserts its row, looks the key up again when the insertion was refused, and goes on to
execute when it was inserted or when the second look-up finds nothing. -/

/-! ## Calls and their steps -/

/-- Where a call stands between two awaits. -/
inductive CallStage
  /-- The key is looked up next. -/
  | arrived
  /-- Nothing was found to replay; the row is inserted next. -/
  | missed
  /-- The insertion was refused; the key is looked up again next. -/
  | refused
  /-- The sub-session goes on to execution; `queued` is written next. -/
  | admitted
  /-- `running` or, for a cancelled parent, `cancelled` is written next. -/
  | queued
  /-- The handler is started next. -/
  | running
  /-- The handler was started. -/
  | executing
  /-- `running` could not be written; the `catch` branch is next. -/
  | recovering
  | replayed (existing : JsonValue)
  | ended

structure GateCall where
  contract : SubSessionDocument
  stage : CallStage

/-- The table, the calls, and the calls whose handler was started. -/
structure GateState where
  table : SubSessionTable
  calls : ℕ → Option GateCall
  executed : List ℕ

def GateState.start (table : SubSessionTable) : GateState := ⟨table, fun _ => none, []⟩

inductive GateLabel
  /-- A call begins. -/
  | arrive (call : ℕ) (contract : SubSessionDocument)
  /-- The next look-up or insertion of a call. -/
  | advance (call : ℕ)
  /-- `changeStatus`, with the contract as it is then. -/
  | changeStatus (call : ℕ) (contract : SubSessionDocument)
  /-- The handler of a call starts. -/
  | execute (call : ℕ)
  /-- The call returns or throws. -/
  | leave (call : ℕ)

variable (state : GateState) (contract : SubSessionDocument) (stage : CallStage)
  (table : SubSessionTable)

def GateState.put (call : ℕ) (contract : SubSessionDocument) (stage : CallStage) : GateState :=
  { state with calls := Function.update state.calls call (some ⟨contract, stage⟩) }

/-- The first look-up: a stored sub-session with a replayable status answers the call. -/
def arrivalStage (contract : SubSessionDocument) : CallStage :=
  match replayOnArrival table contract.idempotencyKey with
  | some existing => .replayed existing
  | none => .missed

/-- The look-up after a refused insertion. Where it finds nothing the call goes on. -/
def refusalStage (contract : SubSessionDocument) : CallStage :=
  match replayOnRefusal table contract.idempotencyKey with
  | some replayed => .replayed replayed
  | none => .admitted

/-- What follows a status that was written. A status outside the order of the runner is not
written. -/
def writtenStage (status : SubSessionStatus) : Option CallStage :=
  match stage, status with
  | .admitted, .queued => some .queued
  | .queued, .running => some .running
  | .queued, .cancelled => some .ended
  | .executing, _ => some .executing
  | .recovering, .cancelled | .recovering, .failed => some .ended
  | _, _ => none

/-- What follows a write that throws: inside the `try` block the `catch` branch, elsewhere
the end of the call. A handler that was started may go on. -/
def thrownStage (status : SubSessionStatus) : CallStage :=
  match stage, status with
  | .queued, .running => .recovering
  | .executing, _ => .executing
  | _, _ => .ended

/-- A contract of the same sub-session under the same key. -/
def SameSubSession (first second : SubSessionDocument) : Prop :=
  first.subSessionId = second.subSessionId ∧ first.idempotencyKey = second.idempotencyKey

instance (first second : SubSessionDocument) : Decidable (SameSubSession first second) :=
  inferInstanceAs (Decidable (_ ∧ _))

/-- The next look-up or insertion of a call. -/
def GateState.advance (call : ℕ) (contract : SubSessionDocument) : CallStage → Option GateState
  | .arrived => some (state.put call contract (arrivalStage state.table contract))
  | .missed =>
    let (inserted, table) := insertRunSubSession state.table contract
    some ({ state with table }.put call contract (if inserted then .admitted else .refused))
  | .refused => some (state.put call contract (refusalStage state.table contract))
  | _ => none

/-- `updateSubSession` with the contract as it is then. Whether a row was changed is not
looked at. -/
def GateState.changeStatus (call : ℕ) (contract : SubSessionDocument) (stage : CallStage) :
    Option GateState :=
  (writtenStage stage contract.status).map fun written =>
    match updateRunSubSession state.table contract with
    | .ok (_, table) => { state with table }.put call contract written
    | .error () => state.put call contract (thrownStage stage contract.status)

def GateState.step? : GateLabel → Option GateState
  | .arrive call contract =>
    match state.calls call with
    | some _ => none
    | none => some (state.put call contract .arrived)
  | .advance call =>
    (state.calls call).bind fun found => state.advance call found.contract found.stage
  | .changeStatus call contract =>
    (state.calls call).bind fun found =>
      if SameSubSession contract found.contract then
        state.changeStatus call contract found.stage
      else none
  | .execute call =>
    (state.calls call).bind fun found =>
      match found.stage with
      | .running =>
        some ({ state with executed := state.executed ++ [call] }.put call found.contract
          .executing)
      | _ => none
  | .leave call => (state.calls call).map fun found => state.put call found.contract .ended

/-! ## What is claimed of a run -/

/-- Row of a contract: its sub-session id stands in the table under its key. -/
def StoredUnderKey (contract : SubSessionDocument) : Prop :=
  ∃ row ∈ table.rows, row.subSessionId = columnText contract.subSessionId ∧
    row.idempotencyKey = columnText contract.idempotencyKey

/-- No two calls under one key have started a handler, and the row of a call whose handler
is about to start or has started stands in the table under the call's key. -/
structure ExecutedOncePerKey (state : GateState) : Prop where
  once : ∀ first ∈ state.executed, ∀ second ∈ state.executed, ∀ found other,
    state.calls first = some found → state.calls second = some other →
    found.contract.idempotencyKey = other.contract.idempotencyKey → first = second
  stored : ∀ call contract, state.calls call = some ⟨contract, .running⟩ ∨
    state.calls call = some ⟨contract, .executing⟩ → StoredUnderKey state.table contract

/-- The key of a contract stands in the table. -/
def KeyStored (contract : SubSessionDocument) : Prop :=
  ∃ row ∈ table.rows, row.idempotencyKey = columnText contract.idempotencyKey

/-- A call that inserts its row while its sub-session id is stored has its key stored too. -/
def IdComesWithKey : GateLabel → Prop
  | .advance call => ∀ contract, state.calls call = some ⟨contract, .missed⟩ →
      (∃ row ∈ state.table.rows, row.subSessionId = columnText contract.subSessionId) →
        KeyStored state.table contract
  | _ => True

/-! ## What a table keeps -/

/-- The pairs of ids and keys of a table are still there. -/
def KeepsRows (before after : SubSessionTable) : Prop :=
  ∀ row ∈ before.rows, ∃ kept ∈ after.rows,
    kept.subSessionId = row.subSessionId ∧ kept.idempotencyKey = row.idempotencyKey

theorem KeepsRows.refl : KeepsRows table table := fun row hrow => ⟨row, hrow, rfl, rfl⟩

variable {after : SubSessionTable} {contract : SubSessionDocument} {table : SubSessionTable}
  {state next : GateState} {call : ℕ} {found : GateCall}

variable {before : SubSessionTable} {stage : CallStage}

theorem StoredUnderKey.kept (hstored : StoredUnderKey before contract)
    (hkeeps : KeepsRows before after) : StoredUnderKey after contract := by
  obtain ⟨row, hrow, hid, hkey⟩ := hstored
  obtain ⟨kept, hkept, hsameId, hsameKey⟩ := hkeeps row hrow
  exact ⟨kept, hkept, hsameId.trans hid, hsameKey.trans hkey⟩

theorem KeyStored.kept (hstored : KeyStored before contract) (hkeeps : KeepsRows before after) :
    KeyStored after contract := by
  obtain ⟨row, hrow, hkey⟩ := hstored
  obtain ⟨kept, hkept, -, hsameKey⟩ := hkeeps row hrow
  exact ⟨kept, hkept, hsameKey.trans hkey⟩

theorem SameSubSession.storedUnderKey {first second : SubSessionDocument}
    (hsame : SameSubSession first second) (hstored : StoredUnderKey table second) :
    StoredUnderKey table first := by
  obtain ⟨row, hrow, hid, hkey⟩ := hstored
  exact ⟨row, hrow, hid.trans (congrArg columnText hsame.1.symm),
    hkey.trans (congrArg columnText hsame.2.symm)⟩

/-- What an insertion does. -/
theorem insertRunSubSession_cases (table : SubSessionTable) (contract : SubSessionDocument) :
    (insertRunSubSession table contract = (false, table) ∧ table.Conflicts contract.row) ∨
      ∃ after, insertRunSubSession table contract = (true, after) ∧
        ¬ table.Conflicts contract.row ∧ after.rows = table.rows ++ [contract.row] := by
  by_cases hconflict : table.Conflicts contract.row
  · exact .inl ⟨dif_pos hconflict, hconflict⟩
  · exact .inr ⟨_, dif_neg hconflict, hconflict, rfl⟩

/-- An update of a row under its own key keeps the pairs of ids and keys. -/
theorem updateRunSubSession_keeps {changed : Bool} (hstored : StoredUnderKey table contract)
    (hupdated : updateRunSubSession table contract = .ok (changed, after)) :
    KeepsRows table after := by
  unfold updateRunSubSession at hupdated
  split at hupdated
  · split at hupdated
    · cases Except.ok.inj hupdated
      intro row hrow
      refine ⟨_, mem_map_of_mem hrow, ?_⟩
      split
      · next hsame =>
        obtain ⟨own, hown, hid, hkey⟩ := hstored
        obtain rfl : own = row :=
          inj_on_of_nodup_map table.distinctIds hown hrow (hid.trans hsame.symm)
        exact ⟨hsame.symm, hkey.symm⟩
      · exact ⟨rfl, rfl⟩
    · cases hupdated
  · obtain ⟨-, rfl⟩ := Prod.mk.inj (Except.ok.inj hupdated)
    exact KeepsRows.refl table

/-- A key that is stored is found, and its contract can be read. -/
theorem refusalStage_of_keyStored (hstored : KeyStored table contract) :
    ∃ replayed, refusalStage table contract = .replayed replayed := by
  obtain ⟨row, hrow, hkey⟩ := hstored
  obtain ⟨read, hread⟩ := table.readable row hrow
  have hfound := getRunSubSessionByIdempotencyKey_of_mem hrow hkey
  have hreplay : replayOnRefusal table contract.idempotencyKey = some read := by
    rw [replayOnRefusal, loadSubSessionByIdempotencyKey, hfound]
    exact hread
  exact ⟨read, by rw [refusalStage, hreplay]⟩

/-! ## The invariant -/

/-- The stages of a call that is past the gate. -/
def CallStage.PastGate : CallStage → Prop
  | .admitted | .queued | .running | .executing | .recovering => True
  | .arrived | .missed | .refused | .replayed _ | .ended => False

/-- A call that is past the gate, or has started its handler at some time. -/
def GateState.Passed (state : GateState) (call : ℕ) (contract : SubSessionDocument) : Prop :=
  ∃ stage, state.calls call = some ⟨contract, stage⟩ ∧ (stage.PastGate ∨ call ∈ state.executed)

/-- Every call past the gate has its row, no two of them have one key, and a call whose
insertion was refused finds its key. -/
structure GateInvariant (state : GateState) : Prop where
  stored : ∀ call contract, state.Passed call contract → StoredUnderKey state.table contract
  once : ∀ first second contract other, state.Passed first contract → state.Passed second other →
    columnText contract.idempotencyKey = columnText other.idempotencyKey → first = second
  refused : ∀ call contract, state.calls call = some ⟨contract, .refused⟩ →
    KeyStored state.table contract
  known : ∀ call ∈ state.executed, (state.calls call).isSome

theorem gateInvariant_start (table : SubSessionTable) : GateInvariant (.start table) where
  stored := by
    rintro call contract ⟨stage, hcall, -⟩
    cases hcall
  once := by
    rintro first second contract other ⟨stage, hcall, -⟩
    cases hcall
  refused := by
    intro call contract hcall
    cases hcall
  known := by
    intro call hcall
    cases hcall

theorem calls_put (state : GateState) (call : ℕ) (contract : SubSessionDocument)
    (stage : CallStage) (other : ℕ) :
    (state.put call contract stage).calls other =
      if other = call then some ⟨contract, stage⟩ else state.calls other :=
  Function.update_apply ..

/-- A step that keeps the rows and takes no new call past the gate keeps the invariant. -/
theorem GateInvariant.of_shrinking (h : GateInvariant state)
    (hrows : KeepsRows state.table next.table)
    (hpassed : ∀ call contract, next.Passed call contract →
      ∃ earlier, state.Passed call earlier ∧ SameSubSession contract earlier)
    (hrefused : ∀ call contract, next.calls call = some ⟨contract, .refused⟩ →
      state.calls call = some ⟨contract, .refused⟩ ∨ KeyStored next.table contract)
    (hknown : ∀ call ∈ next.executed, (next.calls call).isSome) : GateInvariant next where
  stored := by
    intro call contract hcall
    obtain ⟨earlier, hearlier, hsame⟩ := hpassed call contract hcall
    exact hsame.storedUnderKey ((h.stored call earlier hearlier).kept hrows)
  once := by
    intro first second contract other hfirst hsecond hkey
    obtain ⟨earlier, hearlier, hsame⟩ := hpassed first contract hfirst
    obtain ⟨before, hbefore, hsameOther⟩ := hpassed second other hsecond
    refine h.once first second earlier before hearlier hbefore ?_
    rw [← hsame.2, ← hsameOther.2]
    exact hkey
  refused := by
    intro call contract hcall
    obtain hbefore | hstored := hrefused call contract hcall
    · exact (h.refused call contract hbefore).kept hrows
    · exact hstored
  known := hknown

/-- The case of one call that changes its stage and may have written its contract. -/
theorem GateInvariant.put (h : GateInvariant state) (hfound : state.calls call = some found)
    (hrows : KeepsRows state.table table) (hsame : SameSubSession contract found.contract)
    (hstage : stage.PastGate → found.stage.PastGate)
    (hrefused : stage = .refused → KeyStored table contract) :
    GateInvariant ({ state with table }.put call contract stage) := by
  refine h.of_shrinking hrows ?_ ?_ ?_
  · rintro other written ⟨reached, hreached, hpast⟩
    rw [calls_put] at hreached
    split at hreached
    · next heq =>
      subst heq
      obtain ⟨rfl, rfl⟩ := GateCall.mk.inj (Option.some.inj hreached)
      exact ⟨found.contract, ⟨found.stage, hfound, hpast.imp_left hstage⟩, hsame⟩
    · exact ⟨written, ⟨reached, hreached, hpast⟩, rfl, rfl⟩
  · intro other written hreached
    rw [calls_put] at hreached
    split at hreached
    · obtain ⟨rfl, rfl⟩ := GateCall.mk.inj (Option.some.inj hreached)
      exact .inr (hrefused rfl)
    · exact .inl hreached
  · intro other hother
    rw [calls_put]
    split
    · rfl
    · exact h.known other hother

/-! ## Steps and runs -/

theorem sameSubSession_refl (contract : SubSessionDocument) : SameSubSession contract contract :=
  ⟨rfl, rfl⟩

/-- A call that inserted its row is past the gate; no other call has its key. -/
theorem GateInvariant.inserted (h : GateInvariant state)
    (hfound : state.calls call = some ⟨contract, .missed⟩)
    (hfree : ¬ state.table.Conflicts contract.row)
    (hrows : table.rows = state.table.rows ++ [contract.row]) :
    GateInvariant ({ state with table }.put call contract .admitted) := by
  have hown : contract.row ∈ table.rows := hrows ▸ mem_append_cons_self
  have hkeeps : KeepsRows state.table table :=
    fun row hrow => ⟨row, hrows ▸ mem_append_left _ hrow, rfl, rfl⟩
  have hcases {other : ℕ} {found : SubSessionDocument}
      (hpassed : ({ state with table }.put call contract .admitted).Passed other found) :
      (other = call ∧ found = contract) ∨ (other ≠ call ∧ state.Passed other found) := by
    obtain ⟨stage, hstage, hpast⟩ := hpassed
    rw [calls_put] at hstage
    split at hstage
    · next heq => exact .inl ⟨heq, (GateCall.mk.inj (Option.some.inj hstage)).1.symm⟩
    · next hne => exact .inr ⟨hne, stage, hstage, hpast⟩
  have hnone {other : ℕ} {found : SubSessionDocument} (hpassed : state.Passed other found) :
      columnText found.idempotencyKey ≠ columnText contract.idempotencyKey := by
    intro hkey
    obtain ⟨row, hrow, -, hrowKey⟩ := h.stored other found hpassed
    exact hfree (.inr (mem_map.mpr ⟨row, hrow, hrowKey.trans hkey⟩))
  constructor
  · intro other found hpassed
    obtain ⟨rfl, rfl⟩ | ⟨-, hbefore⟩ := hcases hpassed
    · exact ⟨found.row, hown, rfl, rfl⟩
    · exact (h.stored other found hbefore).kept hkeeps
  · intro first second found other hfirst hsecond hkey
    obtain ⟨rfl, rfl⟩ | ⟨-, hbefore⟩ := hcases hfirst <;>
      obtain ⟨rfl, rfl⟩ | ⟨-, hother⟩ := hcases hsecond
    · rfl
    · exact absurd hkey.symm (hnone hother)
    · exact absurd hkey (hnone hbefore)
    · exact h.once first second found other hbefore hother hkey
  · intro other found hstage
    rw [calls_put] at hstage
    split at hstage
    · cases hstage
    · exact (h.refused other found hstage).kept hkeeps
  · intro other hother
    rw [calls_put]
    split
    · rfl
    · exact h.known other hother

theorem gateInvariant_advance (h : GateInvariant state)
    (hcondition : IdComesWithKey state (.advance call)) (hfound : state.calls call = some found)
    (htaken : state.advance call found.contract found.stage = some next) : GateInvariant next := by
  obtain ⟨contract, stage⟩ := found
  have hunmoved {reached : CallStage} (hreached : ∀ contract, reached.PastGate → stage.PastGate)
      (hrefused : reached ≠ .refused) : GateInvariant (state.put call contract reached) :=
    h.put hfound (KeepsRows.refl _) (sameSubSession_refl _) (hreached contract)
      fun heq => absurd heq hrefused
  cases stage with
  | arrived =>
    cases htaken
    refine hunmoved (fun _ hpast => ?_) ?_ <;> unfold arrivalStage at *
    · split at hpast <;> exact hpast
    · split <;> exact CallStage.noConfusion
  | missed =>
    obtain ⟨hinsert, hconflict⟩ | ⟨after, hinsert, hfree, hrows⟩ :=
      insertRunSubSession_cases state.table contract
    · simp only [GateState.advance, hinsert] at htaken
      cases htaken
      refine h.put hfound (KeepsRows.refl _) (sameSubSession_refl _) (fun hpast => hpast) ?_
      intro _
      obtain hid | hkey := hconflict
      · obtain ⟨row, hrow, hsame⟩ := mem_map.mp hid
        exact hcondition contract hfound ⟨row, hrow, hsame⟩
      · exact mem_map.mp hkey
    · simp only [GateState.advance, hinsert] at htaken
      cases htaken
      exact h.inserted hfound hfree hrows
  | refused =>
    cases htaken
    obtain ⟨replayed, hreplayed⟩ := refusalStage_of_keyStored (h.refused call contract hfound)
    rw [hreplayed]
    exact hunmoved (fun _ hpast => hpast) (by simp)
  | admitted | queued | running | executing | recovering | replayed | ended => cases htaken

/-- Only a call past the gate writes a status, and a write never leads before the gate. -/
theorem writtenStage_pastGate {written : CallStage} {status : SubSessionStatus}
    (hwritten : writtenStage stage status = some written) :
    stage.PastGate ∧ written ≠ .refused := by
  cases stage <;> cases status <;> cases hwritten <;> exact ⟨trivial, CallStage.noConfusion⟩

theorem gateInvariant_changeStatus (h : GateInvariant state)
    (hfound : state.calls call = some found) (hsame : SameSubSession contract found.contract)
    (htaken : state.changeStatus call contract found.stage = some next) : GateInvariant next := by
  obtain ⟨written, hwritten, rfl⟩ := Option.map_eq_some_iff.mp htaken
  obtain ⟨hpast, hnotRefused⟩ := writtenStage_pastGate hwritten
  have hstored : StoredUnderKey state.table contract :=
    hsame.storedUnderKey (h.stored call found.contract ⟨found.stage, hfound, .inl hpast⟩)
  cases hupdate : updateRunSubSession state.table contract with
  | ok answer =>
    obtain ⟨changed, table⟩ := answer
    exact h.put hfound (updateRunSubSession_keeps hstored hupdate) hsame (fun _ => hpast)
      fun heq => absurd heq hnotRefused
  | error error =>
    refine h.put hfound (KeepsRows.refl _) hsame (fun _ => hpast) fun heq => ?_
    unfold thrownStage at heq
    split at heq <;> cases heq

theorem gateInvariant_step {label : GateLabel} (h : GateInvariant state)
    (hcondition : IdComesWithKey state label) (htaken : state.step? label = some next) :
    GateInvariant next := by
  cases label with
  | arrive call contract =>
    simp only [GateState.step?] at htaken
    split at htaken
    · cases htaken
    · next hnone =>
      cases htaken
      have hunknown : call ∉ state.executed := by
        intro hmem
        have hknown := h.known call hmem
        rw [hnone] at hknown
        cases hknown
      refine h.of_shrinking (KeepsRows.refl _) ?_ ?_ ?_
      · rintro other found ⟨stage, hstage, hpast⟩
        rw [calls_put] at hstage
        split at hstage
        · next heq =>
          obtain ⟨rfl, rfl⟩ := GateCall.mk.inj (Option.some.inj hstage)
          exact absurd (hpast.resolve_left id) (heq ▸ hunknown)
        · exact ⟨found, ⟨stage, hstage, hpast⟩, rfl, rfl⟩
      · intro other found hstage
        rw [calls_put] at hstage
        split at hstage
        · cases hstage
        · exact .inl hstage
      · intro other hother
        rw [calls_put]
        split
        · rfl
        · exact h.known other hother
  | advance call =>
    obtain ⟨found, hfound, htaken⟩ := Option.bind_eq_some_iff.mp htaken
    exact gateInvariant_advance h hcondition hfound htaken
  | changeStatus call contract =>
    obtain ⟨found, hfound, htaken⟩ := Option.bind_eq_some_iff.mp htaken
    split at htaken
    · next hsame => exact gateInvariant_changeStatus h hfound hsame htaken
    · cases htaken
  | execute call =>
    obtain ⟨found, hfound, htaken⟩ := Option.bind_eq_some_iff.mp htaken
    obtain ⟨contract, stage⟩ := found
    cases stage with
    | running =>
      cases htaken
      refine h.of_shrinking (KeepsRows.refl _) ?_ ?_ ?_
      · rintro other written ⟨reached, hreached, hpast⟩
        rw [calls_put] at hreached
        split at hreached
        · next heq =>
          subst heq
          obtain ⟨rfl, rfl⟩ := GateCall.mk.inj (Option.some.inj hreached)
          exact ⟨contract, ⟨.running, hfound, .inl trivial⟩, rfl, rfl⟩
        · next hne =>
          refine ⟨written, ⟨reached, hreached, hpast.imp_right fun hmem => ?_⟩, rfl, rfl⟩
          exact (mem_append.mp hmem).resolve_right fun hlast => hne (mem_singleton.mp hlast)
      · intro other written hreached
        rw [calls_put] at hreached
        split at hreached
        · cases hreached
        · exact .inl hreached
      · intro other hother
        rw [calls_put]
        split
        · rfl
        · next hne =>
          exact h.known other ((mem_append.mp hother).resolve_right
            fun hlast => hne (mem_singleton.mp hlast))
    | arrived | missed | refused | admitted | queued | executing | recovering
    | replayed existing | ended => cases htaken
  | leave call =>
    obtain ⟨found, hfound, rfl⟩ := Option.map_eq_some_iff.mp htaken
    exact h.put hfound (KeepsRows.refl _) (sameSubSession_refl _) False.elim fun heq => by cases heq

theorem executedOncePerKey_of_invariant (h : GateInvariant state) : ExecutedOncePerKey state where
  once := by
    intro first hfirst second hsecond found other hfound hother hkey
    exact h.once first second found.contract other.contract ⟨found.stage, hfound, .inr hfirst⟩
      ⟨other.stage, hother, .inr hsecond⟩ (congrArg columnText hkey)
  stored := by
    rintro call contract (hcall | hcall)
    · exact h.stored call contract ⟨_, hcall, .inl trivial⟩
    · exact h.stored call contract ⟨_, hcall, .inl trivial⟩

/-- A contract with the members that the store reads. -/
def plainContract (subSessionId idempotencyKey : JsString) (status : SubSessionStatus) :
    SubSessionDocument where
  members :=
    [(ofString "identity", .object [(ofString "idempotencyKey", .string idempotencyKey)]),
      (ofString "subSessionId", .string subSessionId),
      (ofString "status", Contracts.textValue status.text)]
  identity := [(ofString "idempotencyKey", .string idempotencyKey)]
  subSessionId := subSessionId
  status := status
  idempotencyKey := idempotencyKey
  proper := by
    have hkeys : ([ofString "identity", ofString "subSessionId",
        ofString "status"]).Nodup := by decide +kernel
    rw [JsValue.proper_object]
    refine ⟨hkeys, ?_⟩
    simp only [List.forall_mem_cons, JsValue.proper_object, List.map_cons, List.map_nil]
    exact ⟨⟨List.nodup_singleton _, rfl, by simp⟩, rfl, rfl, by simp⟩
  hasIdentity := by simp
  hasSubSessionId := by simp
  hasStatus := by simp
  hasIdempotencyKey := by simp

def idA : JsString := ofString "a"

def keyOne : JsString := ofString "1"

/-- A call on its own, from its arrival to the start of its handler. -/
def ownSteps (call : ℕ) (subSessionId idempotencyKey : JsString) : List GateLabel :=
  [.arrive call (plainContract subSessionId idempotencyKey .created), .advance call, .advance call,
    .changeStatus call (plainContract subSessionId idempotencyKey .queued),
    .changeStatus call (plainContract subSessionId idempotencyKey .running), .execute call]

def idB : JsString := ofString "b"

def keyTwo : JsString := ofString "2"

/-- The sub-session `a` comes under key 1 and then under key 2, which takes the row over. A
third call under key 1 finds nothing. -/
def takenOver : List GateLabel :=
  ownSteps 0 idA keyOne ++
    [.arrive 1 (plainContract idA keyTwo .created), .advance 1, .advance 1, .advance 1,
      .changeStatus 1 (plainContract idA keyTwo .queued)] ++ ownSteps 2 idB keyOne

/-- The handlers that were started, and the keys of their calls. -/
def GateState.startedUnder (state : GateState) : List (ℕ × Option JsString) :=
  state.executed.map fun call =>
    (call, (state.calls call).map fun found => found.contract.idempotencyKey)

end Nobie.Orchestration
