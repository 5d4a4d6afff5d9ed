/-
# The life cycle of an approval

The calls on the registry, each run alone, move every row along the life cycle
of an approval. One call needs a condition: a request is created by two
statements without a transaction around them, so an id that is taken fails the
second one after the first one has superseded the requests that were pending.
-/

import Mathlib.Logic.Relation
import Nobie.Runs.ApprovalRegistry

namespace Nobie.Runs

open Foundation Program

section LifeCycle

open List Bool

/-- One step of the life cycle. -/
inductive Moves : ApprovalStatus → ApprovalStatus → Prop
  | approvedOnce : Moves .requested .approvedOnce
  | approvedRun : Moves .requested .approvedRun
  | denied : Moves .requested .denied
  | expired : Moves .requested .expired
  | superseded : Moves .requested .superseded
  | consumedOnce : Moves .approvedOnce .consumed
  | consumedRun : Moves .approvedRun .consumed

/-- The statuses that end the life cycle. -/
def Terminal (status : ApprovalStatus) : Prop :=
  status = .denied ∨ status = .expired ∨ status = .superseded ∨ status = .consumed

variable {first second : ApprovalStatus} {row : ApprovalRow} (table : ApprovalTable)
  {table' : ApprovalTable}

theorem Moves.not_terminal (h : Moves first second) : ¬ Terminal first := by
  cases h <;> simp [Terminal]

theorem Moves.ne_requested (h : Moves first second) : second ≠ .requested := by
  cases h <;> simp

/-- A terminal status is the last one. -/
theorem eq_of_terminal (h : Relation.ReflTransGen Moves first second) (hterminal : Terminal first) :
    second = first := by
  induction h with
  | refl => rfl
  | tail _ hmove ih => exact absurd (ih ▸ hterminal) hmove.not_terminal

theorem ApprovalDecision.moves (decision : ApprovalDecision) :
    Moves .requested decision.status := by
  cases decision
  · exact .approvedOnce
  · exact .approvedRun
  · exact .denied

/-! ## Rows -/

/-- A row that was approved, whether or not it is spent, was decided before it
expired. -/
def Timely (row : ApprovalRow) : Prop :=
  (isApproved row.status ∨ row.status = .consumed) → ∀ expiresAt, row.expiresAt = some expiresAt →
    ∃ decisionAt, row.decisionAt = some decisionAt ∧ decisionAt < expiresAt

/-- What a statement may do to a row. -/
structure RowMove (row row' : ApprovalRow) : Prop where
  id : row'.id = row.id
  runId : row'.runId = row.runId
  toolName : row'.toolName = row.toolName
  status : row'.status = row.status ∨ Moves row.status row'.status
  timely : Timely row → Timely row'

theorem RowMove.refl (row : ApprovalRow) : RowMove row row :=
  ⟨rfl, rfl, rfl, Or.inl rfl, fun h => h⟩

variable {row' : ApprovalRow} (now : ℤ) {input : CreateInput} {call : ApprovalCall}
  {calls : List ApprovalCall} {last : ApprovalTable}

/-- A pending row was pending before. -/
theorem RowMove.requested (h : RowMove row row') (hrequested : row'.status = .requested) :
    row.status = .requested := by
  rcases h.status with hsame | hmove
  · rw [← hsame, hrequested]
  · exact absurd hrequested hmove.ne_requested

/-! ## Tables -/

/-- A superseded row names a row of the same run and tool that was inserted after
it. -/
def HasSuccessor (table : ApprovalTable) (row : ApprovalRow) : Prop :=
  ∃ later, row.supersededBy = some later.id ∧ later.runId = row.runId ∧
    later.toolName = row.toolName ∧ [row, later].Sublist table.rows

/-- What holds of the registry between two calls. -/
structure LifeCycle (table : ApprovalTable) : Prop where
  pending : ∀ row ∈ table.rows, ∀ row' ∈ table.rows,
    row.status = .requested → row'.status = .requested →
    row.runId = row'.runId → row.toolName = row'.toolName → row = row'
  successor : ∀ row ∈ table.rows, row.status = .superseded → HasSuccessor table row
  timely : ∀ row ∈ table.rows, Timely row

theorem lifeCycle_empty : LifeCycle .empty :=
  ⟨by simp [ApprovalTable.empty], by simp [ApprovalTable.empty], by simp [ApprovalTable.empty]⟩

/-- Every row is still there and has moved by at most one step. -/
def Advances (table table' : ApprovalTable) : Prop :=
  ∀ row ∈ table.rows, ∃ row' ∈ table'.rows, RowMove row row'

theorem Advances.refl : Advances table table := fun row hrow => ⟨row, hrow, .refl row⟩

/-- The life cycle goes on if the rows move, and at most one request is added that supersedes
what is pending and takes its place. -/
theorem LifeCycle.extend {table : ApprovalTable} (h : LifeCycle table)
    (change : ApprovalRow → ApprovalRow) (added : List ApprovalRow)
    (hrows : table'.rows = table.rows.map change ++ added)
    (hmove : ∀ row ∈ table.rows, RowMove row (change row))
    (hsuperseded : ∀ row ∈ table.rows, (change row).status = .superseded →
      (row.status = .superseded ∧ (change row).supersededBy = row.supersededBy) ∨
      ∃ new ∈ added, (change row).supersededBy = some new.id ∧ new.runId = row.runId ∧
        new.toolName = row.toolName)
    (hadded : ∀ new ∈ added, added = [new] ∧ new.status = .requested ∧ ∀ row ∈ table.rows,
      (change row).status = .requested → row.runId = new.runId → row.toolName ≠ new.toolName) :
    LifeCycle table' ∧ Advances table table' := by
  have hother (new : ApprovalRow) (hnew : new ∈ added) (row : ApprovalRow) (hrow : row ∈ table.rows)
      (hrequested : (change row).status = .requested) (hrun : (change row).runId = new.runId)
      (htool : (change row).toolName = new.toolName) : False := by
    rw [(hmove row hrow).runId] at hrun
    rw [(hmove row hrow).toolName] at htool
    exact (hadded new hnew).2.2 row hrow hrequested hrun htool
  have hcases (row : ApprovalRow) : row ∈ table'.rows ↔
      (∃ former ∈ table.rows, change former = row) ∨ row ∈ added := by
    rw [hrows, mem_append, mem_map]
  refine ⟨⟨?_, ?_, ?_⟩, fun row hrow => ⟨change row, (hcases _).mpr (Or.inl ⟨row, hrow, rfl⟩),
    hmove row hrow⟩⟩
  · simp only [hcases]
    rintro _ (⟨row, hrow, rfl⟩ | hnew) _ (⟨row', hrow', rfl⟩ | hnew') hrequested hrequested' hrun
      htool
    · have hmove₁ := hmove row hrow
      have hmove₂ := hmove row' hrow'
      rw [h.pending row hrow row' hrow' (hmove₁.requested hrequested)
        (hmove₂.requested hrequested') (by rw [← hmove₁.runId, hrun, hmove₂.runId])
        (by rw [← hmove₁.toolName, htool, hmove₂.toolName])]
    · exact (hother _ hnew' row hrow hrequested hrun htool).elim
    · exact (hother _ hnew row' hrow' hrequested' hrun.symm htool.symm).elim
    · rw [(hadded _ hnew').1] at hnew
      exact mem_singleton.mp hnew
  · intro row' hrow' hstatus
    obtain ⟨row, hrow, rfl⟩ | hnew := (hcases row').mp hrow'
    · have hmove₁ := hmove row hrow
      rcases hsuperseded row hrow hstatus with ⟨hbefore, hsame⟩ | ⟨new, hnew, hby, hrun, htool⟩
      · obtain ⟨later, hlater, hrun, htool, hsublist⟩ := h.successor row hrow hbefore
        have hmove₂ := hmove later (hsublist.subset (by simp))
        refine ⟨change later, ?_, ?_, ?_, ?_⟩
        · rw [hsame, hlater, hmove₂.id]
        · rw [hmove₂.runId, hrun, hmove₁.runId]
        · rw [hmove₂.toolName, htool, hmove₁.toolName]
        · rw [hrows]
          exact (hsublist.map change).trans (sublist_append_left _ _)
      · refine ⟨new, hby, by rw [hrun, hmove₁.runId], by rw [htool, hmove₁.toolName], ?_⟩
        rw [hrows]
        exact (singleton_sublist.mpr (mem_map_of_mem hrow)).append (singleton_sublist.mpr hnew)
    · exact absurd ((hadded _ hnew).2.1.symm.trans hstatus) (by simp)
  · intro row' hrow'
    obtain ⟨row, hrow, rfl⟩ | hnew := (hcases row').mp hrow'
    · exact (hmove row hrow).timely (h.timely row hrow)
    · rintro (happroved | hconsumed)
      · simp [(hadded _ hnew).2.1, isApproved] at happroved
      · exact absurd ((hadded _ hnew).2.1.symm.trans hconsumed) (by simp)

/-! ## Calls run alone -/

/-- A call with nothing else on the table. -/
def runCall (call : ApprovalCall) (table : ApprovalTable) : CallResult × ApprovalTable :=
  call.program.alone ApprovalStatement.effect table

/-- The table after one statement. -/
def after (statement : ApprovalStatement) (table : ApprovalTable) : ApprovalTable :=
  (statement.effect table).2

/-- A request is created with the default `supersedePending`. -/
def ApprovalCall.Default : ApprovalCall → Prop
  | .create input => input.supersedePending
  | _ => True

/-- A request is created under an id that is not taken, or where no request is
pending for its run and tool. -/
def Unclaimed (table : ApprovalTable) : ApprovalCall → Prop
  | .create input => table.find input.id = none ∨
      ∀ row ∈ table.rows, row.status = .requested → row.runId = input.runId →
        row.toolName ≠ input.toolName
  | _ => True

/-- What one call does to the table. -/
inductive Change (table : ApprovalTable) : ApprovalTable → Prop
  | unchanged : Change table table
  | attached (channelMessageId : String) (now : ℤ) (id : String) :
      Change table (after (.attach channelMessageId now id) table)
  | expired (now : ℤ) (id : String) : Change table (after (.markExpired now id) table)
  | decided (params : DecisionInput) (row : ApprovalRow)
      (found : table.find params.approvalId = some row)
      (timely : ∀ expiresAt, row.expiresAt = some expiresAt → params.now < expiresAt) :
      Change table (after (.storeDecision params.decision params.now params.decisionBy
        params.decisionSource params.approvalId) table)
  | consumed (now : ℤ) (id : String) : Change table (after (.markConsumed now id) table)
  | created (input : CreateInput) (absent : table.find input.id = none) :
      Change table (after (.insert input.row)
        (after (.supersede input.id input.now input.runId input.toolName) table))

theorem change_expire (approvalId : String) (now : ℤ) (table : ApprovalTable) :
    ((expireApprovalRegistryRequest approvalId now).alone ApprovalStatement.effect table).2 =
        table ∨
      ((expireApprovalRegistryRequest approvalId now).alone ApprovalStatement.effect table).2 =
        after (.markExpired now approvalId) table := by
  rw [expireApprovalRegistryRequest, alone_andThen]
  cases hfind : table.find approvalId with
  | none =>
    left
    simp only [getApprovalRegistryRow, Program.alone, ApprovalStatement.effect, hfind]
  | some row =>
    simp only [getApprovalRegistryRow, Program.alone, ApprovalStatement.effect, hfind]
    split
    · exact Or.inl rfl
    · exact Or.inr rfl

theorem change_expireLate (row : ApprovalRow) (now : ℤ) (table : ApprovalTable) :
    Change table ((expireLate row now).alone ApprovalStatement.effect table).2 := by
  have hexpire := change_expire row.id now table
  simp only [expireLate, alone_andThen, getApprovalRegistryRow, Program.alone,
    ApprovalStatement.effect] at hexpire ⊢
  rcases hexpire with hsame | hexpired
  · rw [hsame]
    exact .unchanged
  · rw [hexpired]
    exact .expired now row.id

/-- A request that is not late and is pending has not expired. -/
theorem timely_of_not_late {now : ℤ} (hlate : isLate row now = false)
    (hrequested : row.status = .requested) (expiresAt : ℤ)
    (hexpiry : row.expiresAt = some expiresAt) : now < expiresAt := by
  simpa [isLate, hrequested, hexpiry] using hlate

theorem change_resolve (params : DecisionInput) (table : ApprovalTable) :
    Change table
      ((resolveApprovalRegistryDecision params).alone ApprovalStatement.effect table).2 := by
  rw [resolveApprovalRegistryDecision, alone_andThen]
  cases hfind : table.find params.approvalId with
  | none =>
    simp only [getApprovalRegistryRow, Program.alone, ApprovalStatement.effect, hfind]
    exact .unchanged
  | some row =>
    simp only [getApprovalRegistryRow, Program.alone, ApprovalStatement.effect, hfind]
    cases hlate : isLate row params.now with
    | true =>
      simp only [if_true]
      exact change_expireLate row params.now table
    | false =>
      simp only [false_eq_true, if_false]
      split
      · exact .unchanged
      · next hrequested =>
        exact .decided params row hfind (timely_of_not_late hlate (not_not.mp hrequested))

theorem change_consume (approvalId : String) (now : ℤ) (table : ApprovalTable) :
    Change table
      ((consumeApprovalRegistryDecision approvalId now).alone ApprovalStatement.effect table).2 := by
  rw [consumeApprovalRegistryDecision, alone_andThen]
  cases hfind : table.find approvalId with
  | none =>
    simp only [getApprovalRegistryRow, Program.alone, ApprovalStatement.effect, hfind]
    exact .unchanged
  | some row =>
    simp only [getApprovalRegistryRow, Program.alone, ApprovalStatement.effect, hfind]
    split
    · exact change_expireLate row now table
    · split
      · exact .unchanged
      · exact .consumed now approvalId

/-- A request that nothing pending would give way to leaves the table as it is
when its id is taken. -/
theorem after_supersede_of_none {table : ApprovalTable}
    (h : ∀ row ∈ table.rows, row.status = .requested → row.runId = input.runId →
      row.toolName ≠ input.toolName) :
    after (.supersede input.id input.now input.runId input.toolName) table = table := by
  apply ApprovalTable.ext
  change table.rows.map _ = table.rows
  nth_rewrite 2 [← map_id table.rows]
  refine map_congr_left fun row hrow => ?_
  split
  · next hselected =>
    simp only [ApprovalStatement.selects, and_eq_true, decide_eq_true_eq] at hselected
    exact absurd hselected.1.2 (h row hrow hselected.2 hselected.1.1)
  · rfl

theorem find_after_supersede_eq_none_iff (input : CreateInput) :
    (after (.supersede input.id input.now input.runId input.toolName) table).find
        input.row.id = none ↔ table.find input.id = none := by
  simp only [after, ApprovalStatement.effect, ApprovalStatement.updateRows,
    ApprovalTable.find_update, Option.map_eq_none_iff]
  rfl

/-- Creating a request supersedes and inserts, or throws and leaves the table as
it is. -/
theorem change_create {table : ApprovalTable} (hdefault : (ApprovalCall.create input).Default)
    (h : Unclaimed table (.create input)) :
    Change table ((createApprovalRegistryRequest input).alone ApprovalStatement.effect table).2 ∧
      ∀ error, ((createApprovalRegistryRequest input).alone ApprovalStatement.effect table).1 =
          .error error →
        ((createApprovalRegistryRequest input).alone ApprovalStatement.effect table).2 = table := by
  have hsupersede : input.supersedePending := hdefault
  have halone : (createApprovalRegistryRequest input).alone ApprovalStatement.effect table =
      (insertRequest input).alone ApprovalStatement.effect
        (after (.supersede input.id input.now input.runId input.toolName) table) := by
    rw [createApprovalRegistryRequest, if_pos hsupersede]
    rfl
  rw [halone]
  generalize hmiddle : after (.supersede input.id input.now input.runId input.toolName) table =
    middle
  have hfind := find_after_supersede_eq_none_iff table input
  rw [hmiddle] at hfind
  by_cases habsent : table.find input.id = none
  · obtain ⟨hok, -⟩ := ApprovalTable.insert_of_find_none (hfind.mpr habsent)
    simp only [insertRequest, Program.alone, ApprovalStatement.effect, hok]
    refine ⟨?_, fun error herror => absurd herror (by simp [alone_andThen, Program.alone,
      getApprovalRegistryRow, ApprovalStatement.effect])⟩
    rw [← hmiddle]
    exact .created input habsent
  · have hinsert := ApprovalTable.insert_of_find_some (fun hnone => habsent (hfind.mp hnone))
    simp only [insertRequest, Program.alone, ApprovalStatement.effect, hinsert]
    have hsame : middle = table := by
      rw [← hmiddle]
      exact after_supersede_of_none (h.resolve_left habsent)
    rw [hsame]
    exact ⟨.unchanged, fun _ _ => rfl⟩

/-- Every call makes one of the changes. -/
theorem change_runCall {table : ApprovalTable} (hdefault : call.Default) (h : Unclaimed table call)
    : Change table (runCall call table).2 := by
  cases call with
  | create input =>
    rw [runCall, ApprovalCall.program, alone_andThen]
    exact (change_create hdefault h).1
  | attach approvalId channelMessageId now => exact .attached channelMessageId now approvalId
  | expire approvalId now =>
    rw [runCall, ApprovalCall.program, alone_andThen]
    rcases change_expire approvalId now table with hsame | hexpired
    · simp only [Program.alone, hsame]
      exact .unchanged
    · simp only [Program.alone, hexpired]
      exact .expired now approvalId
  | resolve params =>
    rw [runCall, ApprovalCall.program, alone_andThen]
    exact change_resolve params table
  | consume approvalId now =>
    rw [runCall, ApprovalCall.program, alone_andThen]
    exact change_consume approvalId now table

/-- A call that throws leaves every row as it was. -/
theorem runCall_of_error {table : ApprovalTable} {error : DatabaseError} (hdefault : call.Default)
    (h : Unclaimed table call) (herror : (runCall call table).1 = .created (.error error)) :
    (runCall call table).2 = table := by
  cases call with
  | create input =>
    rw [runCall, ApprovalCall.program, alone_andThen] at herror ⊢
    simp only [Program.alone, CallResult.created.injEq] at herror ⊢
    exact (change_create hdefault h).2 error herror
  | attach | expire | resolve | consume => exact absurd herror (by
      simp [runCall, ApprovalCall.program, alone_andThen, Program.alone])

/-! ## What the changes keep -/

/-- An `UPDATE` that supersedes nothing, by what it does to the rows it selects. -/
theorem LifeCycle.update {table : ApprovalTable} (h : LifeCycle table)
    {selects : ApprovalRow → Bool} {set : ApprovalRow → ApprovalRow}
    (hrows : table'.rows = table.rows.map fun row => if selects row then set row else row)
    (hmove : ∀ row ∈ table.rows, selects row → RowMove row (set row))
    (hsuperseded : ∀ row ∈ table.rows, selects row → (set row).status = .superseded →
      row.status = .superseded ∧ (set row).supersededBy = row.supersededBy) :
    LifeCycle table' ∧ Advances table table' := by
  refine h.extend (fun row => if selects row then set row else row) []
    (hrows.trans (append_nil _).symm) ?_ ?_ (forall_mem_nil _)
  · intro row hrow
    split
    · next hselected => exact hmove row hrow hselected
    · exact .refl row
  · intro row hrow
    split
    · next hselected => exact fun hstatus => Or.inl (hsuperseded row hrow hselected hstatus)
    · exact fun hstatus => Or.inl ⟨hstatus, rfl⟩

/-- Every change keeps the life cycle and moves no row by more than one step. -/
theorem LifeCycle.change {table table' : ApprovalTable} (h : LifeCycle table)
    (hchange : Change table table') : LifeCycle table' ∧ Advances table table' := by
  cases hchange with
  | unchanged => exact ⟨h, .refl table⟩
  | attached channelMessageId now id =>
    refine h.update rfl (fun row hrow hselected => ?_) fun row hrow hselected hstatus =>
      ⟨hstatus, rfl⟩
    exact ⟨rfl, rfl, rfl, Or.inl rfl, fun htimely => htimely⟩
  | expired now id =>
    refine h.update rfl (fun row hrow hselected => ?_) fun row hrow hselected hstatus => ?_
    · simp only [ApprovalStatement.selects, and_eq_true, decide_eq_true_eq] at hselected
      refine ⟨rfl, rfl, rfl, Or.inr (hselected.2 ▸ .expired), fun _ => ?_⟩
      rintro (happroved | hconsumed)
      · exact absurd happroved (by simp [ApprovalStatement.set, isApproved])
      · exact absurd hconsumed (by simp [ApprovalStatement.set])
    · exact absurd hstatus (by simp [ApprovalStatement.set])
  | decided params found hfound htimely =>
    refine h.update rfl (fun row hrow hselected => ?_) fun row hrow hselected hstatus => ?_
    · simp only [ApprovalStatement.selects, and_eq_true, decide_eq_true_eq] at hselected
      refine ⟨rfl, rfl, rfl, Or.inr (hselected.2 ▸ params.decision.moves), fun _ _ => ?_⟩
      intro expiresAt hexpiry
      have hsame : found = row := by
        have hrow := (table.find_eq_some_iff params.approvalId row).mpr ⟨hrow, hselected.1⟩
        exact Option.some.inj (hfound.symm.trans hrow)
      exact ⟨params.now, rfl, htimely expiresAt (hsame ▸ hexpiry)⟩
    · have hsuperseded : params.decision.status = .superseded := hstatus
      cases hdecision : params.decision <;> rw [hdecision] at hsuperseded <;>
        exact absurd hsuperseded (by simp [ApprovalDecision.status])
  | consumed now id =>
    refine h.update rfl (fun row hrow hselected => ?_) fun row hrow hselected hstatus => ?_
    · simp only [ApprovalStatement.selects, and_eq_true, or_eq_true,
        decide_eq_true_eq] at hselected
      refine ⟨rfl, rfl, rfl, Or.inr ?_, fun htimely _ expiresAt hexpiry => ?_⟩
      · rcases hselected.2 with honce | hrun
        · exact honce ▸ .consumedOnce
        · exact hrun ▸ .consumedRun
      · exact htimely (Or.inl (by simpa [isApproved] using hselected.2)) expiresAt hexpiry
    · exact absurd hstatus (by simp [ApprovalStatement.set])
  | created input absent =>
    have hfind := (find_after_supersede_eq_none_iff table input).mpr absent
    refine h.extend _ [input.row] (ApprovalTable.insert_of_find_none hfind).2 ?_ ?_
      (forall_mem_singleton.mpr ⟨rfl, rfl, ?_⟩)
    · intro row hrow
      split
      · next hselected =>
        simp only [ApprovalStatement.selects, and_eq_true, decide_eq_true_eq] at hselected
        refine ⟨rfl, rfl, rfl, Or.inr (hselected.2 ▸ .superseded), fun _ => ?_⟩
        rintro (happroved | hconsumed)
        · exact absurd happroved (by simp [ApprovalStatement.set, isApproved])
        · exact absurd hconsumed (by simp [ApprovalStatement.set])
      · exact .refl row
    · intro row hrow
      split
      · next hselected =>
        simp only [ApprovalStatement.selects, and_eq_true, decide_eq_true_eq] at hselected
        exact fun _ => Or.inr ⟨input.row, mem_singleton_self _, rfl, hselected.1.1.symm,
          hselected.1.2.symm⟩
      · exact fun hstatus => Or.inl ⟨hstatus, rfl⟩
    · intro row hrow
      split
      · exact fun hrequested => absurd hrequested (by simp [ApprovalStatement.set])
      · next hselected =>
        intro hrequested hrun htool
        exact hselected (by simpa [ApprovalStatement.selects, hrequested] using ⟨hrun, htool⟩)

/-! ## Runs -/

/-- One call of the registry, with the default `supersedePending`. -/
def lifeCycleStep (table : ApprovalTable) (call : ApprovalCall) (next : ApprovalTable) : Prop :=
  call.Default ∧ next = (runCall call table).2

/-- What a run of calls does to a row: it is still there, for the same run and
tool, and its status has moved along the life cycle. -/
def Follows (row row' : ApprovalRow) : Prop :=
  row'.id = row.id ∧ row'.runId = row.runId ∧ row'.toolName = row.toolName ∧
    Relation.ReflTransGen Moves row.status row'.status ∧
    (Terminal row.status → row'.status = row.status)

theorem RowMove.follows (h : RowMove row row') : Follows row row' := by
  have hmoves : Relation.ReflTransGen Moves row.status row'.status := by
    rcases h.status with hsame | hmove
    · rw [hsame]
    · exact .single hmove
  exact ⟨h.id, h.runId, h.toolName, hmoves, eq_of_terminal hmoves⟩

theorem Follows.trans {first second third : ApprovalRow} (h : Follows first second)
    (h' : Follows second third) : Follows first third := by
  have hmoves := h.2.2.2.1.trans h'.2.2.2.1
  exact ⟨h'.1.trans h.1, h'.2.1.trans h.2.1, h'.2.2.1.trans h.2.2.1, hmoves, eq_of_terminal hmoves⟩

theorem lifeCycle_of_run {first : ApprovalTable}
    (run : Run (Meeting Unclaimed lifeCycleStep) first calls last) (h : LifeCycle first) :
    LifeCycle last := by
  refine run.invariant_of_meeting (fun table call next hlife hunclaimed htaken => ?_) h
  obtain ⟨hdefault, rfl⟩ := htaken
  exact (hlife.change (change_runCall hdefault hunclaimed)).1

theorem follows_of_run {first : ApprovalTable}
    (run : Run (Meeting Unclaimed lifeCycleStep) first calls last) (h : LifeCycle first) :
    ∀ row ∈ first.rows, ∃ row' ∈ last.rows, Follows row row' := by
  induction run with
  | start => exact fun row hrow => ⟨row, hrow, (RowMove.refl row).follows⟩
  | extend prior call taken ih =>
    intro row hrow
    obtain ⟨middle, hmiddle, hfollows⟩ := ih row hrow
    obtain ⟨hunclaimed, hdefault, rfl⟩ := taken
    obtain ⟨row', hrow', hmove⟩ :=
      ((lifeCycle_of_run prior h).change (change_runCall hdefault hunclaimed)).2 middle hmiddle
    exact ⟨row', hrow', hfollows.trans hmove.follows⟩

/-- In every run of calls from the empty registry in which each request is
created under an id that is not taken, or where nothing is pending for its run
and tool, the life cycle holds of every table, every row moves along it from any
table of the run to any later one, and a call that throws leaves every row as it
was. -/
theorem approvalLifeCycle {before between : List ApprovalCall} {table last : ApprovalTable}
    (runBefore : Run (Meeting Unclaimed lifeCycleStep) .empty before table)
    (runBetween : Run (Meeting Unclaimed lifeCycleStep) table between last) :
    LifeCycle last ∧
      (∀ row ∈ table.rows, ∃ row' ∈ last.rows, Follows row row') ∧
      ∀ call error, call.Default → Unclaimed last call →
        (runCall call last).1 = .created (.error error) → (runCall call last).2 = last := by
  have hlife := lifeCycle_of_run runBefore lifeCycle_empty
  exact ⟨lifeCycle_of_run runBetween hlife, follows_of_run runBetween hlife,
    fun _ _ hdefault hunclaimed => runCall_of_error hdefault hunclaimed⟩

/-- The registry after one request and the decision on it. -/
def approvedTable : ApprovalTable := (runCall (.resolve (decideShell .allowOnce)) requestedTable).2

/-- An approval is spent, and of two later requests the second supersedes the
first. -/
theorem approvalLifeCycle_shellRequest :
    ∃ last : ApprovalTable, LifeCycle last ∧
      (∀ row ∈ approvedTable.rows, ∃ row' ∈ last.rows, Follows row row') ∧
      approvedTable.rows.map ApprovalRow.status = [.approvedOnce] ∧
      last.rows.map ApprovalRow.status = [.consumed, .superseded, .requested] := by
  have run : Run (Meeting Unclaimed lifeCycleStep) .empty [] .empty := .start _
  have run := run.extend (.create (shellRequest "a" 0)) ⟨Or.inl rfl, rfl, rfl⟩
  have run := run.extend (.resolve (decideShell .allowOnce)) ⟨trivial, trivial, rfl⟩
  have later : Run (Meeting Unclaimed lifeCycleStep) approvedTable [] approvedTable := .start _
  have later := later.extend (.consume "a" 2) ⟨trivial, trivial, rfl⟩
  have later := later.extend (.create (shellRequest "b" 3)) ⟨Or.inl (by decide), rfl, rfl⟩
  have later := later.extend (.create (shellRequest "c" 4)) ⟨Or.inl (by decide), rfl, rfl⟩
  obtain ⟨hlife, hfollows, -⟩ := approvalLifeCycle run later
  exact ⟨_, hlife, hfollows, by decide, by decide⟩

/-- A second request under the id of the first: the call throws, and the first
request is superseded by itself. -/
theorem takenId_supersedes :
    Run lifeCycleStep .empty [.create (shellRequest "a" 0)] requestedTable ∧
      (runCall (.create (shellRequest "a" 1)) requestedTable).1 =
        .created (.error .uniqueConstraint) ∧
      (runCall (.create (shellRequest "a" 1)) requestedTable).2 ≠ requestedTable ∧
      ((runCall (.create (shellRequest "a" 1)) requestedTable).2.rows.map fun row =>
        (row.status, row.supersededBy)) = [(.superseded, some "a")] :=
  ⟨.single ⟨rfl, rfl⟩, rfl, by decide, by decide⟩

end LifeCycle

/-! ## What a call makes of each row

None of the changes touches what the row was requested for. -/

/-! ## Rows -/

variable (now : ℤ) (row : ApprovalRow)

def expireRow : ApprovalRow :=
  if row.status = .requested then (ApprovalStatement.markExpired now row.id).set row else row

def decideRow (params : DecisionInput) (row : ApprovalRow) : ApprovalRow :=
  if isLate row params.now then expireRow params.now row
  else if row.status = .requested then
    (ApprovalStatement.storeDecision params.decision params.now params.decisionBy
      params.decisionSource params.approvalId).set row
  else row

def consumeRow : ApprovalRow :=
  if isLate row now then expireRow now row
  else if isApproved row.status then (ApprovalStatement.markConsumed now row.id).set row
  else row

def supersedeRow (input : CreateInput) (row : ApprovalRow) : ApprovalRow :=
  (ApprovalStatement.supersede input.id input.now input.runId input.toolName).onRow row

/-- The request waits for a decision and has not expired. -/
def isOpen (now : ℤ) : Bool := row.status = .requested && !isLate row now

/-- The rows are of one request. -/
structure SameRequest (row row' : ApprovalRow) : Prop where
  id : row'.id = row.id
  runId : row'.runId = row.runId
  toolName : row'.toolName = row.toolName
  expiresAt : row'.expiresAt = row.expiresAt

theorem SameRequest.refl : SameRequest row row := ⟨rfl, rfl, rfl, rfl⟩

theorem SameRequest.trans {first second third : ApprovalRow} (h : SameRequest first second)
    (h' : SameRequest second third) : SameRequest first third :=
  ⟨h'.id.trans h.id, h'.runId.trans h.runId, h'.toolName.trans h.toolName,
    h'.expiresAt.trans h.expiresAt⟩

theorem sameRequest_set (statement : ApprovalStatement) (row : ApprovalRow) :
    SameRequest row (statement.set row) := by
  cases statement <;> exact ⟨rfl, rfl, rfl, rfl⟩

variable (now : ℤ) (params : DecisionInput) {input : CreateInput}

theorem sameRequest_expireRow (row : ApprovalRow) : SameRequest row (expireRow now row) := by
  unfold expireRow
  split
  · exact sameRequest_set _ row
  · exact .refl row

theorem sameRequest_decideRow (row : ApprovalRow) : SameRequest row (decideRow params row) := by
  unfold decideRow
  split
  · exact sameRequest_expireRow _ row
  · split
    · exact sameRequest_set _ row
    · exact .refl row

theorem sameRequest_consumeRow (row : ApprovalRow) : SameRequest row (consumeRow now row) := by
  unfold consumeRow
  split
  · exact sameRequest_expireRow _ row
  · split
    · exact sameRequest_set _ row
    · exact .refl row

theorem sameRequest_supersedeRow (input : CreateInput) (row : ApprovalRow) :
    SameRequest row (supersedeRow input row) := by
  unfold supersedeRow ApprovalStatement.onRow
  split
  · exact sameRequest_set _ row
  · exact .refl row

/-! ## Statuses -/

theorem status_expireRow (row : ApprovalRow) :
    (expireRow now row).status = if row.status = .requested then .expired else row.status := by
  unfold expireRow
  split <;> rfl

variable {row : ApprovalRow}

section

variable (h : row.status ≠ .requested)
include h

theorem isLate_of_not_requested (now : ℤ) :
    isLate row now = false := by
  simp [isLate, h]

/-- A row that is not pending is left as it is. -/
theorem decideRow_of_not_requested (params : DecisionInput) :
    decideRow params row = row := by
  rw [decideRow, isLate_of_not_requested h, if_neg Bool.false_ne_true, if_neg h]

theorem expireRow_of_not_requested (now : ℤ) :
    expireRow now row = row := if_neg h

end

theorem status_decideRow (row : ApprovalRow) :
    (decideRow params row).status =
      if isOpen row params.now then params.decision.status
      else if row.status = .requested then .expired else row.status := by
  unfold decideRow isOpen
  by_cases hrequested : row.status = .requested
  · cases hlate : isLate row params.now with
    | true =>
      rw [if_pos rfl, status_expireRow]
      simp [hrequested]
    | false =>
      rw [if_neg Bool.false_ne_true, if_pos hrequested]
      simp [hrequested, ApprovalStatement.set]
  · rw [isLate_of_not_requested hrequested]
    simp [hrequested]

/-- An approved row is used up. -/
theorem status_consumeRow_of_approved (h : isApproved row.status) (now : ℤ) :
    (consumeRow now row).status = .consumed := by
  have hrequested : row.status ≠ .requested := by
    intro hrequested
    rw [hrequested] at h
    cases h
  rw [consumeRow, isLate_of_not_requested hrequested, if_neg Bool.false_ne_true, if_pos h]
  rfl

theorem status_supersedeRow (input : CreateInput) (row : ApprovalRow) :
    (supersedeRow input row).status =
      if row.runId = input.runId ∧ row.toolName = input.toolName ∧ row.status = .requested
      then .superseded else row.status := by
  unfold supersedeRow ApprovalStatement.onRow
  simp only [ApprovalStatement.selects, Bool.and_eq_true, decide_eq_true_eq, and_assoc]
  split <;> rfl

/-! ## Calls -/

section Calls

variable {table : ApprovalTable} {row : ApprovalRow} {id : String}

/-- The call takes the decision, or uses it. -/
def CallResult.accepted : CallResult → Bool
  | .decided result => result.accepted
  | .created _ | .attached _ => false

theorem onRow_markExpired (target : String) (row : ApprovalRow) :
    (ApprovalStatement.markExpired now target).onRow row =
      if row.id = target then expireRow now row else row := by
  unfold ApprovalStatement.onRow expireRow
  simp only [ApprovalStatement.selects, Bool.and_eq_true, decide_eq_true_eq]
  by_cases hid : row.id = target
  · by_cases hrequested : row.status = .requested
    · rw [if_pos ⟨hid, hrequested⟩, if_pos hid, if_pos hrequested]
      rfl
    · rw [if_neg fun hboth => hrequested hboth.2, if_pos hid, if_neg hrequested]
  · rw [if_neg fun hboth => hid hboth.1, if_neg hid]

theorem onRow_storeDecision (row : ApprovalRow) (hlate : isLate row params.now = false) :
    (ApprovalStatement.storeDecision params.decision params.now params.decisionBy
      params.decisionSource params.approvalId).onRow row =
      if row.id = params.approvalId then decideRow params row else row := by
  unfold ApprovalStatement.onRow decideRow
  simp only [ApprovalStatement.selects, Bool.and_eq_true, decide_eq_true_eq, hlate,
    Bool.false_eq_true, if_false]
  by_cases hid : row.id = params.approvalId
  · simp only [hid, true_and, if_true]
  · rw [if_neg fun hboth => hid hboth.1, if_neg hid]

theorem onRow_markConsumed (target : String) (row : ApprovalRow) (hlate : isLate row now = false) :
    (ApprovalStatement.markConsumed now target).onRow row =
      if row.id = target then consumeRow now row else row := by
  unfold ApprovalStatement.onRow consumeRow
  simp only [ApprovalStatement.selects, Bool.and_eq_true, Bool.or_eq_true, decide_eq_true_eq,
    hlate, Bool.false_eq_true, if_false, isApproved]
  by_cases hid : row.id = target
  · simp only [hid, true_and, if_true]
  · rw [if_neg fun hboth => hid hboth.1, if_neg hid]

variable (approvalId : String)

section

variable (h : table.find id = some row)
include h

theorem ne_of_find_none (hfind : table.find approvalId = none) : id ≠ approvalId := by
  rintro rfl
  exact Option.some_ne_none row (h.symm.trans hfind)

/-- An expiry leaves a row that is there, expired if it is the row of the call. -/
theorem find_alone_expire (approvalId : String) (now : ℤ) :
    ((expireApprovalRegistryRequest approvalId now).alone ApprovalStatement.effect table).2.find
      id = some (if id = approvalId then expireRow now row else row) := by
  have hid : row.id = id := ((table.find_eq_some_iff id row).mp h).2
  rw [expireApprovalRegistryRequest, alone_andThen]
  cases hfind : table.find approvalId with
  | none =>
    simp only [getApprovalRegistryRow, Program.alone, ApprovalStatement.effect, hfind]
    rw [if_neg (ne_of_find_none _ h hfind)]
    exact h
  | some found =>
    simp only [getApprovalRegistryRow, Program.alone, ApprovalStatement.effect, hfind]
    by_cases hrequested : found.status = .requested
    · simp only [hrequested, ne_eq, not_true_eq_false, if_false, Program.alone, alone_andThen]
      have hfound := @ApprovalStatement.find_effect (.markExpired now approvalId) table id row h
      rw [onRow_markExpired, hid] at hfound
      exact hfound
    · simp only [hrequested, ne_eq, not_false_eq_true, if_true, Program.alone]
      by_cases hsame : id = approvalId
      · subst hsame
        cases h.symm.trans hfind
        rw [if_pos rfl, expireRow_of_not_requested hrequested]
        exact h
      · rw [if_neg hsame]
        exact h

theorem find_expire (approvalId : String) (now : ℤ) :
    (runCall (.expire approvalId now) table).2.find id =
      some (if id = approvalId then expireRow now row else row) := by
  rw [runCall, ApprovalCall.program, alone_andThen]
  exact find_alone_expire h approvalId now

theorem find_alone_expireLate {late : ApprovalRow} (now : ℤ) :
    ((expireLate late now).alone ApprovalStatement.effect table).2.find id =
      some (if id = late.id then expireRow now row else row) := by
  rw [expireLate, alone_andThen]
  exact find_alone_expire h late.id now

/-- A decision leaves a row that is there, decided if it is the row of the call. -/
theorem find_resolve (params : DecisionInput) :
    (runCall (.resolve params) table).2.find id =
      some (if id = params.approvalId then decideRow params row else row) := by
  have hid : row.id = id := ((table.find_eq_some_iff id row).mp h).2
  rw [runCall, ApprovalCall.program, alone_andThen, resolveApprovalRegistryDecision, alone_andThen]
  cases hfind : table.find params.approvalId with
  | none =>
    simp only [getApprovalRegistryRow, Program.alone, ApprovalStatement.effect, hfind]
    rw [if_neg (ne_of_find_none _ h hfind)]
    exact h
  | some found =>
    simp only [getApprovalRegistryRow, Program.alone, ApprovalStatement.effect, hfind]
    have hfoundId : found.id = params.approvalId :=
      ((table.find_eq_some_iff params.approvalId found).mp hfind).2
    have hsame (hid' : id = params.approvalId) : row = found := by
      rw [hid'] at h
      exact Option.some.inj (h.symm.trans hfind)
    cases hlate : isLate found params.now with
    | true =>
      simp only [if_true]
      rw [find_alone_expireLate h params.now, hfoundId]
      split
      · next hid' =>
        obtain rfl := hsame hid'
        rw [decideRow, if_pos hlate]
      · rfl
    | false =>
      by_cases hrequested : found.status = .requested
      · simp only [hrequested, Bool.false_eq_true, ne_eq, not_true_eq_false, if_false,
          Program.alone, alone_andThen]
        have hstored := @ApprovalStatement.find_effect (.storeDecision params.decision
          params.now params.decisionBy params.decisionSource params.approvalId) table id row h
        refine hstored.trans (congrArg some ?_)
        by_cases hid' : id = params.approvalId
        · obtain rfl := hsame hid'
          rw [onRow_storeDecision params row hlate, hid]
        · rw [if_neg hid', ApprovalStatement.onRow, if_neg]
          simp [ApprovalStatement.selects, hid, hid']
      · simp only [hrequested, Bool.false_eq_true, ne_eq, not_false_eq_true, if_true, if_false,
          Program.alone]
        split
        · next hid' =>
          obtain rfl := hsame hid'
          rw [decideRow_of_not_requested hrequested]
          exact h
        · exact h

end

/-- A decision is taken where its request is open. -/
theorem accepted_resolve {params : DecisionInput} (h : table.find params.approvalId = some row) :
    (runCall (.resolve params) table).1.accepted = isOpen row params.now := by
  rw [runCall, ApprovalCall.program, alone_andThen, resolveApprovalRegistryDecision, alone_andThen]
  simp only [getApprovalRegistryRow, Program.alone, ApprovalStatement.effect, h]
  unfold isOpen
  cases hlate : isLate row params.now with
  | true => simp [expireLate, alone_andThen, Program.alone, CallResult.accepted]
  | false =>
    by_cases hrequested : row.status = .requested
    · simp [hrequested, alone_andThen, Program.alone, CallResult.accepted]
    · simp [hrequested, Program.alone, CallResult.accepted, refusal]

/-- The use of a decision leaves a row that is there, used if it is the row of the call. -/
theorem find_consume (h : table.find id = some row) (approvalId : String) (now : ℤ) :
    (runCall (.consume approvalId now) table).2.find id =
      some (if id = approvalId then consumeRow now row else row) := by
  have hid : row.id = id := ((table.find_eq_some_iff id row).mp h).2
  rw [runCall, ApprovalCall.program, alone_andThen, consumeApprovalRegistryDecision, alone_andThen]
  cases hfind : table.find approvalId with
  | none =>
    simp only [getApprovalRegistryRow, Program.alone, ApprovalStatement.effect, hfind]
    rw [if_neg (ne_of_find_none _ h hfind)]
    exact h
  | some found =>
    simp only [getApprovalRegistryRow, Program.alone, ApprovalStatement.effect, hfind]
    have hfoundId : found.id = approvalId := ((table.find_eq_some_iff approvalId found).mp hfind).2
    have hsame (hid' : id = approvalId) : row = found := by
      rw [hid'] at h
      exact Option.some.inj (h.symm.trans hfind)
    cases hlate : isLate found now with
    | true =>
      simp only [if_true]
      rw [find_alone_expireLate h now, hfoundId]
      split
      · next hid' =>
        obtain rfl := hsame hid'
        rw [consumeRow, if_pos hlate]
      · rfl
    | false =>
      cases happroved : isApproved found.status with
      | true =>
        simp only [Bool.false_eq_true, not_true_eq_false, if_false, Program.alone, alone_andThen]
        have hused := @ApprovalStatement.find_effect (.markConsumed now approvalId) table id row h
        refine hused.trans (congrArg some ?_)
        by_cases hid' : id = approvalId
        · obtain rfl := hsame hid'
          rw [onRow_markConsumed now approvalId row hlate, hid]
        · rw [if_neg hid', ApprovalStatement.onRow, if_neg]
          simp [ApprovalStatement.selects, hid, hid']
      | false =>
        simp only [Bool.false_eq_true, not_false_eq_true, if_true, if_false, Program.alone]
        split
        · next hid' =>
          obtain rfl := hsame hid'
          rw [consumeRow, hlate, happroved, if_neg Bool.false_ne_true, if_neg Bool.false_ne_true]
          exact h
        · exact h

/-- The use of a decision is granted where its row is approved. -/
theorem accepted_consume {approvalId : String} (h : table.find approvalId = some row) (now : ℤ) :
    (runCall (.consume approvalId now) table).1.accepted =
      (isApproved row.status && !isLate row now) := by
  rw [runCall, ApprovalCall.program, alone_andThen, consumeApprovalRegistryDecision, alone_andThen]
  simp only [getApprovalRegistryRow, Program.alone, ApprovalStatement.effect, h]
  cases hlate : isLate row now with
  | true => simp [expireLate, alone_andThen, Program.alone, CallResult.accepted]
  | false =>
    cases happroved : isApproved row.status with
    | true => simp [alone_andThen, Program.alone, CallResult.accepted]
    | false => simp [Program.alone, CallResult.accepted, refusal]

section

variable (hsupersede : input.supersedePending) (habsent : table.find input.id = none)
include hsupersede habsent

/-- A request under an id that is not taken supersedes and inserts. -/
theorem runCall_create :
    (runCall (.create input) table).2 = after (.insert input.row)
      (after (.supersede input.id input.now input.runId input.toolName) table) := by
  have hfind := (find_after_supersede_eq_none_iff table input).mpr habsent
  obtain ⟨hok, -⟩ := ApprovalTable.insert_of_find_none hfind
  rw [runCall, ApprovalCall.program, alone_andThen, createApprovalRegistryRequest,
    if_pos hsupersede]
  generalize hmiddle : after (.supersede input.id input.now input.runId input.toolName) table =
    middle at hok ⊢
  have halone : (insertRequest input).alone ApprovalStatement.effect middle =
      (.ok (((middle.insert input.row).2).find input.id), (middle.insert input.row).2) := by
    simp only [insertRequest, Program.alone, ApprovalStatement.effect, hok, alone_andThen,
      getApprovalRegistryRow]
  change (Program.alone ApprovalStatement.effect (.finish _)
    ((insertRequest input).alone ApprovalStatement.effect
      (after (.supersede input.id input.now input.runId input.toolName) table)).2).2 = _
  rw [hmiddle, halone]
  rfl

theorem find_create_own :
    (runCall (.create input) table).2.find input.id = some input.row := by
  have hfind := (find_after_supersede_eq_none_iff table input).mpr habsent
  rw [runCall_create hsupersede habsent, after, ApprovalStatement.effect,
    ApprovalTable.find_insert, if_pos ⟨Option.isNone_iff_eq_none.mpr hfind, rfl⟩]

end

theorem find_create (h : table.find id = some row) (hsupersede : input.supersedePending)
    (habsent : table.find input.id = none) :
    (runCall (.create input) table).2.find id = some (supersedeRow input row) := by
  rw [runCall_create hsupersede habsent]
  have hsuperseded := @ApprovalStatement.find_effect
    (.supersede input.id input.now input.runId input.toolName) table id row h
  exact @ApprovalStatement.find_effect (.insert input.row) _ id _ hsuperseded

end Calls

end Nobie.Runs
