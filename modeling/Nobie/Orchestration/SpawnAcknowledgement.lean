/-
# Acknowledged spawns

A spawn that is acknowledged has queued a row, or repeats a request that is stored. An
insertion that is refused for the sub-session id alone is acknowledged as a repeat although
nothing is stored under the key, and a run of a request whose row a spawn has queued finds
that row and reports it instead of taking it up. In runs without these two, every
acknowledgement names the row under its key, and a run reports only what another run has
taken up or what is cancelled.
-/

import Nobie.Foundation.Transition
import Nobie.Orchestration.SubSessionWriters

namespace Nobie.Orchestration.Writers

open Foundation List Option

/-! ## What is claimed -/

section Journal

variable (journal : List Event) (idempotencyKey : String)

/-- A run of the request has gone on to execution. -/
def TakenUp : Prop :=
  ∃ contract, Event.takenUp contract ∈ journal ∧ contract.idempotencyKey = idempotencyKey

/-- The request was acknowledged. -/
def Acknowledged : Prop :=
  ∃ command ack table, Event.acknowledged command ack table ∈ journal ∧ ack.ok ∧
    command.idempotencyKey = idempotencyKey

/-- A spawn has queued the row of the request. -/
def QueuedBySpawn : Prop :=
  ∃ command ack table, Event.acknowledged command ack table ∈ journal ∧ ack.status = .queued ∧
    command.idempotencyKey = idempotencyKey

end Journal

/-- The table holds the sub-session an acknowledgement names, under the key of the request. -/
def Names (table : Table) (command : Contract) (ack : SpawnAck) : Prop :=
  ∃ row ∈ table.rows, row.idempotencyKey = command.idempotencyKey ∧
    ack.subSessionId = some row.subSessionId ∧ ack.parentRunId = some row.parentRunId

/-- Every acknowledgement names what is stored, and no run of an acknowledged request reports
a row that is neither cancelled nor taken up. -/
def Honest : List Event → Prop
  | [] => True
  | .acknowledged command ack table :: earlier =>
    (ack.ok → Names table command ack) ∧ Honest earlier
  | .replayed contract existing :: earlier =>
    (Acknowledged earlier contract.idempotencyKey →
      existing.status = .cancelled ∨ TakenUp earlier contract.idempotencyKey) ∧ Honest earlier
  | .takenUp _ :: earlier | .executed _ :: earlier => Honest earlier

/-- A spawn whose sub-session id is stored has its key stored, and a row that a spawn has
queued answers a run only when it is cancelled. -/
def SpawnsTakenUp (state : State) : Label → Prop
  | .spawn (.accepted command) =>
    (∃ row ∈ state.table.rows, row.subSessionId = command.subSessionId) →
      ∃ row ∈ state.table.rows, row.idempotencyKey = command.idempotencyKey
  | .advance call => ∀ contract stage existing, state.calls call = some ⟨contract, stage⟩ →
      answering state.table contract stage = some existing →
        existing.status = .cancelled ∨ ¬ QueuedBySpawn state.journal contract.idempotencyKey
  | _ => True

/-! ## Whose keys a table holds -/

/-- All keys of the table meet a condition. -/
def KeysMeet (condition : String → Prop) (table : Table) : Prop :=
  ∀ row ∈ table.rows, condition row.idempotencyKey

variable {after : Table} (subSessionId : String) {table : Table} {existing : Contract}
  {status : SubSessionStatus}

section Keys

variable {condition : String → Prop} {table : Table} {input : Contract}

section

variable (h : KeysMeet condition table)
include h

section

variable (hinput : condition input.idempotencyKey)
include hinput

theorem keysMeet_update
    (hupdate : updateRunSubSession table input = .ok after) : KeysMeet condition after := by
  intro row hrow
  rw [updateRunSubSession_rows hupdate] at hrow
  obtain rfl | hbefore := mem_rewriteRows hrow
  · exact hinput
  · exact h row hbefore

theorem keysMeet_storeRow : KeysMeet condition (storeRow table input) := by
  unfold storeRow
  split
  · next hupdate => exact keysMeet_update h hinput hupdate
  · exact h

theorem keysMeet_cancelActive : KeysMeet condition (cancelActive table input) := by
  unfold cancelActive
  split_ifs
  · exact keysMeet_storeRow h hinput
  · exact h

end

theorem keysMeet_cancelById (subSessionId : String) :
    KeysMeet condition (cancelById table subSessionId) := by
  unfold cancelById
  split
  · exact h
  · next found hfound => exact keysMeet_cancelActive h (h found (mem_of_getRunSubSession hfound).1)

theorem keysMeet_cancelSubSession (subSessionId : String)
    (expected : Option String) :
    KeysMeet condition (cancelSubSession table subSessionId expected) := by
  unfold cancelSubSession
  split
  · exact h
  · next found hfound =>
    have hkey := h found (mem_of_getRunSubSession hfound).1
    split_ifs
    · exact h
    · exact List.foldlRecOn _ _ (motive := KeysMeet condition) (keysMeet_storeRow h hkey)
        fun table htable subSessionId _ => keysMeet_cancelById htable subSessionId
    · exact h

theorem keysMeet_killAll (parentRunId : String) :
    KeysMeet condition (killAllSubSessionsForRun table parentRunId) :=
  List.foldlRecOn _ _ (motive := KeysMeet condition) h fun _ htable subSession hlisted =>
    keysMeet_cancelActive htable (h subSession (mem_of_mem_filter hlisted))

theorem keysMeet_applyApprovalDecision (subSessionId : String)
    (approved : Bool) : KeysMeet condition (applyApprovalDecision table subSessionId approved) := by
  unfold applyApprovalDecision
  split
  · exact h
  · next found hfound => exact keysMeet_storeRow h (h found (mem_of_getRunSubSession hfound).1)

theorem keysMeet_insert (hinput : condition input.idempotencyKey)
    (hrows : after.rows = table.rows ++ [input]) : KeysMeet condition after := by
  intro row hrow
  rw [hrows] at hrow
  obtain hbefore | hlast := mem_append.mp hrow
  · exact h row hbefore
  · exact mem_singleton.mp hlast ▸ hinput

theorem KeysMeet.imp {weaker : String → Prop}
    (himp : ∀ idempotencyKey, condition idempotencyKey → weaker idempotencyKey) :
    KeysMeet weaker table :=
  fun row hrow => himp _ (h row hrow)

end

end Keys

/-! ## The invariant -/

/-- The stages of a call that is past the gate. -/
def Stage.PastGate : Stage → Prop
  | .admitted | .queued | .running | .executing | .recovering => True
  | .arrived | .missed | .refused | .ended => False

/-- The key is that of a request that a spawn has queued or a run has taken up. -/
def Accounted (journal : List Event) (idempotencyKey : String) : Prop :=
  QueuedBySpawn journal idempotencyKey ∨ TakenUp journal idempotencyKey

structure SpawnInvariant (state : State) : Prop where
  honest : Honest state.journal
  accounted : KeysMeet (Accounted state.journal) state.table
  takenUp : ∀ call contract stage, state.calls call = some ⟨contract, stage⟩ → stage.PastGate →
    TakenUp state.journal contract.idempotencyKey

theorem TakenUp.cons {journal : List Event} {idempotencyKey : String} (event : Event)
    (h : TakenUp journal idempotencyKey) : TakenUp (event :: journal) idempotencyKey := by
  obtain ⟨contract, hmem, hkey⟩ := h
  exact ⟨contract, mem_cons_of_mem _ hmem, hkey⟩

theorem Accounted.cons {journal : List Event} {idempotencyKey : String} (event : Event)
    (h : Accounted journal idempotencyKey) : Accounted (event :: journal) idempotencyKey := by
  refine h.imp (fun hqueued => ?_) (·.cons event)
  obtain ⟨command, ack, table, hmem, hack⟩ := hqueued
  exact ⟨command, ack, table, mem_cons_of_mem _ hmem, hack⟩

variable {next : State}

section Steps

variable {state : State} {call : ℕ} {contract : Contract} {stage : Stage}

/-- A call that is not past the gate, or was taken up, is put where it comes to stand. -/
theorem SpawnInvariant.put (h : SpawnInvariant state)
    (hpast : stage.PastGate → TakenUp state.journal contract.idempotencyKey) :
    SpawnInvariant (state.put call contract stage) where
  honest := h.honest
  accounted := h.accounted
  takenUp := by
    intro other found reached hcall hreached
    rw [calls_put] at hcall
    split at hcall
    · obtain ⟨rfl, rfl⟩ := RunCall.mk.inj (Option.some.inj hcall)
      exact hpast hreached
    · exact h.takenUp other found reached hcall hreached

/-- Another table whose keys are accounted for. -/
theorem SpawnInvariant.withTable (h : SpawnInvariant state)
    (htable : KeysMeet (Accounted state.journal) table) : SpawnInvariant { state with table } where
  honest := h.honest
  accounted := htable
  takenUp := h.takenUp

/-- One more event, with a table whose keys are accounted for by then. -/
theorem SpawnInvariant.note (h : SpawnInvariant state) (event : Event) (table : Table)
    (hhonest : Honest (event :: state.journal))
    (htable : KeysMeet (Accounted (event :: state.journal)) table) :
    SpawnInvariant ({ state with table }.note event) where
  honest := hhonest
  accounted := htable
  takenUp := fun other found reached hcall hreached =>
    (h.takenUp other found reached hcall hreached).cons event

theorem takenUp_head (contract : Contract) (journal : List Event) :
    TakenUp (.takenUp contract :: journal) contract.idempotencyKey :=
  ⟨contract, mem_cons_self, rfl⟩

/-- A call that goes on to execution, with its row or without. -/
theorem SpawnInvariant.admit (h : SpawnInvariant state)
    (htable : KeysMeet (Accounted (.takenUp contract :: state.journal)) table) :
    SpawnInvariant (({ state with table }.note (.takenUp contract)).put call contract .admitted) :=
  (h.note (.takenUp contract) table h.honest htable).put
    fun _ => takenUp_head contract state.journal

/-- An answer from the table. -/
theorem SpawnInvariant.replay (h : SpawnInvariant state) (hstored : existing ∈ state.table.rows)
    (hkey : existing.idempotencyKey = contract.idempotencyKey)
    (hqueued : existing.status = .cancelled ∨
      ¬ QueuedBySpawn state.journal contract.idempotencyKey) :
    SpawnInvariant ((state.note (.replayed contract existing)).put call contract .ended) := by
  refine (h.note (.replayed contract existing) state.table ⟨fun _ => ?_, h.honest⟩
    (h.accounted.imp fun key hkey => hkey.cons _)).put False.elim
  obtain hcancelled | hnot := hqueued
  · exact .inl hcancelled
  · have haccounted := h.accounted existing hstored
    rw [hkey] at haccounted
    exact .inr (haccounted.resolve_left hnot)

/-- The row that answers a call stands under its key. -/
theorem answering_stored (h : answering table contract stage = some existing) :
    existing ∈ table.rows ∧ existing.idempotencyKey = contract.idempotencyKey := by
  cases stage with
  | arrived => exact mem_of_getRunSubSessionByIdempotencyKey (filter_eq_some_iff.mp h).1
  | refused => exact mem_of_getRunSubSessionByIdempotencyKey h
  | missed | admitted | queued | running | executing | recovering | ended => cases h

theorem spawnInvariant_advance (h : SpawnInvariant state)
    (hcondition : SpawnsTakenUp state (.advance call))
    (hfound : state.calls call = some ⟨contract, stage⟩)
    (htaken : state.advance call contract stage = some next) : SpawnInvariant next := by
  have hreplay {existing : Contract}
      (hanswer : answering state.table contract stage = some existing) :
      SpawnInvariant ((state.note (.replayed contract existing)).put call contract .ended) := by
    obtain ⟨hstored, hkey⟩ := answering_stored hanswer
    exact h.replay hstored hkey (hcondition contract stage existing hfound hanswer)
  unfold State.advance at htaken
  split at htaken
  · next hanswer =>
    cases htaken
    exact hreplay hanswer
  · next hanswer =>
    cases htaken
    exact hreplay hanswer
  · cases htaken
    exact h.put False.elim
  · cases htaken
    exact h.admit (h.accounted.imp fun key hkey => hkey.cons _)
  · obtain ⟨hinsert, -⟩ | ⟨after, hinsert, hrows⟩ := insertRunSubSession_cases state.table contract
    · rw [hinsert] at htaken
      cases htaken
      exact h.put False.elim
    · rw [hinsert] at htaken
      cases htaken
      have hown : Accounted (.takenUp contract :: state.journal) contract.idempotencyKey :=
        .inr (takenUp_head contract state.journal)
      exact h.admit (keysMeet_insert (h.accounted.imp fun key hkey => hkey.cons _) hown hrows)
  · cases htaken

/-- Only a call past the gate writes a status. -/
theorem pastGate_of_writtenStage {written : Stage} (h : writtenStage stage status = some written) :
    stage.PastGate := by
  cases stage <;> cases status <;> cases h <;> trivial

theorem spawnInvariant_changeStatus (h : SpawnInvariant state)
    (hfound : state.calls call = some ⟨contract, stage⟩)
    (htaken : state.changeStatus call contract stage status = some next) : SpawnInvariant next := by
  unfold State.changeStatus at htaken
  split_ifs at htaken
  obtain ⟨written, hwritten, rfl⟩ := map_eq_some_iff.mp htaken
  have htakenUp : TakenUp state.journal contract.idempotencyKey :=
    h.takenUp call contract stage hfound (pastGate_of_writtenStage hwritten)
  split
  · next table hupdate =>
    have hown : Accounted state.journal (contract.withStatus status).idempotencyKey :=
      .inr htakenUp
    exact (h.withTable (keysMeet_update h.accounted hown hupdate)).put fun _ => htakenUp
  · exact h.put fun _ => htakenUp

/-- What a spawn answers names what it leaves in the table. -/
theorem spawnSubSessionAck_names {command : Contract}
    (hcondition : SpawnsTakenUp state (.spawn (.accepted command))) :
    Names (spawnSubSessionAck state.table (.accepted command)).2 command
        (spawnSubSessionAck state.table (.accepted command)).1 ∧
      ((spawnSubSessionAck state.table (.accepted command)).2 = state.table ∨
        (spawnSubSessionAck state.table (.accepted command)).1.status = .queued ∧
          (spawnSubSessionAck state.table (.accepted command)).2.rows =
            state.table.rows ++ [command.withStatus .queued]) := by
  unfold spawnSubSessionAck
  dsimp only
  split
  · next existing hexisting =>
    obtain ⟨hstored, hkey⟩ := mem_of_getRunSubSessionByIdempotencyKey hexisting
    exact ⟨⟨existing, hstored, hkey, rfl, rfl⟩, .inl rfl⟩
  · next hmissing =>
    have hnone : ¬ ∃ row ∈ state.table.rows, row.idempotencyKey = command.idempotencyKey := by
      rintro ⟨row, hrow, hkey⟩
      exact find?_eq_none.mp hmissing row hrow (decide_eq_true hkey)
    obtain ⟨-, hconflict⟩ | ⟨table, hinsert, hrows⟩ :=
      insertRunSubSession_cases state.table (command.withStatus .queued)
    · -- Without the key, the sub-session id is in the way.
      obtain hid | hkey := hconflict
      · exact absurd (hcondition (mem_map.mp hid)) hnone
      · exact absurd (mem_map.mp hkey) hnone
    · rw [hinsert]
      refine ⟨⟨command.withStatus .queued, ?_, rfl, rfl, rfl⟩, .inr ⟨rfl, hrows⟩⟩
      rw [hrows]
      exact mem_append_cons_self

theorem spawnInvariant_spawn {request : SpawnRequest} (h : SpawnInvariant state)
    (hcondition : SpawnsTakenUp state (.spawn request)) : SpawnInvariant (state.spawn request) := by
  cases request with
  | invalid | approvalRequired => exact h
  | accepted command =>
    obtain ⟨hnames, hafter⟩ := spawnSubSessionAck_names hcondition
    unfold State.spawn
    dsimp only
    generalize spawnSubSessionAck state.table (.accepted command) = answer at hnames hafter ⊢
    have hkept := h.accounted.imp fun key hkey =>
      hkey.cons (.acknowledged command answer.1 answer.2)
    refine h.note _ answer.2 ⟨fun _ => hnames, h.honest⟩ ?_
    obtain hsame | ⟨hqueued, hrows⟩ := hafter
    · rw [hsame] at hkept ⊢
      exact hkept
    · have hown : Accounted (.acknowledged command answer.1 answer.2 :: state.journal)
          (command.withStatus .queued).idempotencyKey :=
        .inl ⟨command, answer.1, answer.2, mem_cons_self, hqueued, rfl⟩
      exact keysMeet_insert hkept hown hrows

theorem spawnInvariant_step {label : Label} (h : SpawnInvariant state)
    (hcondition : SpawnsTakenUp state label) (htaken : state.step? label = some next) :
    SpawnInvariant next := by
  cases label with
  | spawn request =>
    cases htaken
    exact spawnInvariant_spawn h hcondition
  | arrive call contract =>
    change state.arrive call contract = some next at htaken
    unfold State.arrive at htaken
    split at htaken
    · cases htaken
    · cases htaken
      exact h.put False.elim
  | advance call =>
    obtain ⟨found, hfound, htaken⟩ := bind_eq_some_iff.mp htaken
    exact spawnInvariant_advance h hcondition hfound htaken
  | changeStatus call status =>
    obtain ⟨found, hfound, htaken⟩ := bind_eq_some_iff.mp htaken
    exact spawnInvariant_changeStatus h hfound htaken
  | execute call =>
    obtain ⟨found, hfound, htaken⟩ := bind_eq_some_iff.mp htaken
    split_ifs at htaken with hrunning
    cases htaken
    have htakenUp : TakenUp state.journal found.contract.idempotencyKey := by
      refine h.takenUp call found.contract found.stage hfound ?_
      rw [hrunning]
      trivial
    exact (h.note (.executed found.contract) state.table h.honest
      (h.accounted.imp fun key hkey => hkey.cons _)).put fun _ => htakenUp.cons _
  | leave call =>
    obtain ⟨found, -, rfl⟩ := map_eq_some_iff.mp htaken
    exact h.put False.elim
  | cancel subSessionId expected =>
    cases htaken
    exact h.withTable (keysMeet_cancelSubSession h.accounted subSessionId expected)
  | killAll parentRunId =>
    cases htaken
    exact h.withTable (keysMeet_killAll h.accounted parentRunId)
  | decide subSessionId approved =>
    cases htaken
    exact h.withTable (keysMeet_applyApprovalDecision h.accounted subSessionId approved)

end Steps

theorem spawnInvariant_start : SpawnInvariant .start where
  honest := trivial
  accounted := nofun
  takenUp := by
    intro call contract stage hcall
    cases hcall

/-- Nothing answers from an empty table. -/
theorem spawnsTakenUp_empty {state : State} (call : ℕ) (h : state.table.rows = []) :
    SpawnsTakenUp state (.advance call) := by
  intro contract stage existing _ hanswer
  have hstored := (answering_stored hanswer).1
  rw [h] at hstored
  cases hstored

/-- The run of a request that a spawn has queued reports the queued row. -/
def spawnThenRun : List Label :=
  [.spawn (.accepted teaRequest), .arrive 0 teaRequest, .advance 0, .advance 0, .advance 0]

end Nobie.Orchestration.Writers
