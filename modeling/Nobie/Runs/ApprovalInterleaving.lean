/-
# Approvals under interleaved calls

Processes that share the database interleave their calls between any two
statements. The guards of the `UPDATE` statements keep the stored row safe, but
no call looks at the number of rows its statement changed. What a caller is told
is right as long as the statement it decided on finds the row as the call read
it, and two decisions that cross show that it can be wrong otherwise.
-/

import Nobie.Runs.ApprovalRegistry

namespace Nobie.Runs

open Foundation List Program ApprovalStatement

/-! ## What a statement does to one row -/

/-- The decision fields of a row. -/
def ApprovalRow.decisionFields (row : ApprovalRow) : Option ℤ × Option String × Option String :=
  (row.decisionAt, row.decisionBy, row.decisionSource)

variable {row : ApprovalRow} {id : String} {table : ApprovalTable}
  {trace : List (ℕ × ApprovalStatement)}

/-- A row that is no longer pending keeps its decision, and its status but for
the use of an approval. -/
theorem onRow_of_decided (statement : ApprovalStatement) (h : row.status ≠ .requested) :
    (statement.onRow row).decisionFields = row.decisionFields ∧
      ((statement.onRow row).status = row.status ∨
        isApproved row.status ∧ (statement.onRow row).status = .consumed) := by
  unfold ApprovalStatement.onRow
  split
  · next hselected =>
    cases statement with
    | attach channelMessageId now id => exact ⟨rfl, Or.inl rfl⟩
    | markConsumed now id =>
      simp only [ApprovalStatement.selects, Bool.and_eq_true] at hselected
      exact ⟨rfl, Or.inr ⟨hselected.2, rfl⟩⟩
    | _ => simp [ApprovalStatement.selects, h] at hselected
  · exact ⟨rfl, Or.inl rfl⟩

theorem status_ne_requested (decision : ApprovalDecision) : decision.status ≠ .requested := by
  cases decision <;> simp [ApprovalDecision.status]

/-! ## The decision and the use of a row -/

/-- Does a statement store a decision on the row with the given id? -/
def isDecision (id : String) : ApprovalStatement → Bool
  | .storeDecision _ _ _ _ other => other = id
  | _ => false

/-- Does a statement mark the row with the given id consumed? -/
def isUse (id : String) : ApprovalStatement → Bool
  | .markConsumed _ other => other = id
  | _ => false

/-- A row holds a decision, or the use of it. -/
def HoldsDecision (row : ApprovalRow) (decision : ApprovalDecision) (now : ℤ)
    (decisionBy : Option String) (decisionSource : String) : Prop :=
  row.decisionFields = (some now, decisionBy, some decisionSource) ∧
    (row.status = decision.status ∨ isApproved decision.status ∧ row.status = .consumed)

/-- The guarded statements on a row find it as their calls read it: a decision
finds it pending, a use finds it approved. -/
def Finds (id : String) (table : ApprovalTable) : ApprovalStatement → Prop
  | .storeDecision _ _ _ _ other =>
    other = id → ∃ row, table.find id = some row ∧ row.status = .requested
  | .markConsumed _ other => other = id → ∃ row, table.find id = some row ∧ isApproved row.status
  | _ => True

/-- What the statements performed so far have left of a row. -/
structure Settled (id : String) (table : ApprovalTable) (trace : List (ℕ × ApprovalStatement)) :
    Prop where
  decisions : (trace.filter fun entry => isDecision id entry.2).length ≤ 1
  uses : (trace.filter fun entry => isUse id entry.2).length ≤ 1
  decided : ∀ process decision now decisionBy decisionSource,
    (process, .storeDecision decision now decisionBy decisionSource id) ∈ trace →
    ∃ row, table.find id = some row ∧ HoldsDecision row decision now decisionBy decisionSource
  used : ∀ process now, (process, .markConsumed now id) ∈ trace →
    ∃ row, table.find id = some row ∧ row.status = .consumed

variable {decision : ApprovalDecision} {now : ℤ} {decisionBy : Option String}
  {decisionSource : String} {α : Type} {p : α → Bool} {entries : List α} {process : ℕ}
  {statement : ApprovalStatement}

section

variable (h : HoldsDecision row decision now decisionBy decisionSource)
include h

theorem HoldsDecision.ne_requested :
    row.status ≠ .requested := by
  rcases h.2 with hstatus | ⟨-, hstatus⟩
  · rw [hstatus]
    exact status_ne_requested decision
  · rw [hstatus]
    simp

theorem HoldsDecision.onRow
    (statement : ApprovalStatement) :
    HoldsDecision (statement.onRow row) decision now decisionBy decisionSource := by
  obtain ⟨hfields, hstatus⟩ := onRow_of_decided statement h.ne_requested
  refine ⟨hfields.trans h.1, ?_⟩
  rcases hstatus with hsame | ⟨happroved, hconsumed⟩
  · rw [hsame]
    exact h.2
  · rcases h.2 with hdecided | ⟨happroval, -⟩
    · exact Or.inr ⟨hdecided ▸ happroved, hconsumed⟩
    · exact Or.inr ⟨happroval, hconsumed⟩

end

theorem filter_append_length_le {entry : α} (h : (entries.filter p).length ≤ 1)
    (hnew : p entry → entries.filter p = []) : ((entries ++ [entry]).filter p).length ≤ 1 := by
  rw [filter_append, length_append]
  cases hentry : p entry with
  | true => simp [hnew hentry, hentry]
  | false => simpa [hentry] using h

/-- Before a decision that finds the row pending there was none. -/
theorem Settled.no_decision (h : Settled id table trace) (hfind : table.find id = some row)
    (hrequested : row.status = .requested) :
    (trace.filter fun entry => isDecision id entry.2) = [] := by
  rw [filter_eq_nil_iff]
  rintro ⟨process, statement⟩ hmem hdecision
  cases statement with
  | storeDecision decision now decisionBy decisionSource other =>
    obtain rfl : other = id := by simpa [isDecision] using hdecision
    obtain ⟨row', hfind', hholds⟩ := h.decided _ _ _ _ _ hmem
    rw [hfind, Option.some.injEq] at hfind'
    exact hholds.ne_requested (hfind' ▸ hrequested)
  | select | insert | supersede | attach | markExpired | markConsumed =>
        exact absurd hdecision (by simp [isDecision])

/-- Before a use that finds the row approved there was none. -/
theorem Settled.no_use (h : Settled id table trace) (hfind : table.find id = some row)
    (happroved : isApproved row.status) :
    (trace.filter fun entry => isUse id entry.2) = [] := by
  rw [filter_eq_nil_iff]
  rintro ⟨process, statement⟩ hmem huse
  cases statement with
  | markConsumed now other =>
    obtain rfl : other = id := by simpa [isUse] using huse
    obtain ⟨row', hfind', hconsumed⟩ := h.used _ _ hmem
    rw [hfind, Option.some.injEq] at hfind'
    rw [hfind', hconsumed] at happroved
    exact absurd happroved (by simp [isApproved])
  | select | insert | supersede | attach | markExpired => exact absurd huse (by simp [isUse])
  | storeDecision decision now decisionBy decisionSource other =>
    exact absurd huse (by simp [isUse])

/-- A statement that finds the row as its call read it keeps what the row was
settled on. -/
theorem Settled.step (h : Settled id table trace) (hfinds : Finds id table statement) :
    Settled id (statement.effect table).2 (trace ++ [(process, statement)]) where
  decisions := by
    refine filter_append_length_le h.decisions fun hdecision => ?_
    cases statement with
    | storeDecision decision now decisionBy decisionSource other =>
      obtain ⟨row, hfind, hrequested⟩ := hfinds (by simpa [isDecision] using hdecision)
      exact h.no_decision hfind hrequested
    | _ => exact absurd hdecision (by simp [isDecision])
  uses := by
    refine filter_append_length_le h.uses fun huse => ?_
    cases statement with
    | markConsumed now other =>
      obtain ⟨row, hfind, happroved⟩ := hfinds (by simpa [isUse] using huse)
      exact h.no_use hfind happroved
    | _ => exact absurd huse (by simp [isUse])
  decided := by
    intro process' decision now decisionBy decisionSource hmem
    rw [mem_append, mem_singleton, Prod.mk.injEq] at hmem
    rcases hmem with hbefore | ⟨-, rfl⟩
    · obtain ⟨row, hfind, hholds⟩ := h.decided _ _ _ _ _ hbefore
      exact ⟨statement.onRow row, find_effect hfind, hholds.onRow statement⟩
    · obtain ⟨row, hfind, hrequested⟩ := hfinds rfl
      have hid := ((table.find_eq_some_iff id row).mp hfind).2
      refine ⟨_, find_effect hfind, ?_⟩
      have hselected : (ApprovalStatement.storeDecision decision now decisionBy decisionSource
          id).selects row := by
        simp [ApprovalStatement.selects, hid, hrequested]
      rw [ApprovalStatement.onRow, if_pos hselected]
      exact ⟨rfl, Or.inl rfl⟩
  used := by
    intro process' now hmem
    rw [mem_append, mem_singleton, Prod.mk.injEq] at hmem
    rcases hmem with hbefore | ⟨-, rfl⟩
    · obtain ⟨row, hfind, hconsumed⟩ := h.used _ _ hbefore
      refine ⟨statement.onRow row, find_effect hfind, ?_⟩
      have hdecided : row.status ≠ .requested := by simp [hconsumed]
      rcases (onRow_of_decided statement hdecided).2 with hsame | ⟨-, hagain⟩
      · rw [hsame, hconsumed]
      · exact hagain
    · obtain ⟨row, hfind, happroved⟩ := hfinds rfl
      have hid := ((table.find_eq_some_iff id row).mp hfind).2
      refine ⟨_, find_effect hfind, ?_⟩
      have hselected : (ApprovalStatement.markConsumed now id).selects row := by
        rw [ApprovalStatement.selects, Bool.and_eq_true]
        exact ⟨by simpa using hid, happroved⟩
      rw [ApprovalStatement.onRow, if_pos hselected]
      rfl

/-! ## What an accepted call has done -/

/-- What the calls tell their callers: an accepted decision was stored and an
accepted use was marked by the call itself. -/
def ApprovalCall.Tells : ApprovalCall → List ApprovalStatement → CallResult → Prop
  | .resolve params, performed, .decided result => result.accepted →
      .storeDecision params.decision params.now params.decisionBy params.decisionSource
        params.approvalId ∈ performed ∧
      result.status = some params.decision.status ∧ result.decision = some params.decision
  | .consume approvalId now, performed, .decided result => result.accepted →
      .markConsumed now approvalId ∈ performed
  | _, _, _ => True

theorem ensures_expireLate {Post : List ApprovalStatement → DecisionResult → Prop}
    (h : ∀ performed result, result.accepted = false → Post performed result) (row : ApprovalRow)
    (now : ℤ) (performed : List ApprovalStatement) : (expireLate row now).Ensures Post performed :=
  ensures_andThen (ensures_of_forall (fun _ _ _ => h _ _ rfl) _ _)

theorem ensures_resolve (params : DecisionInput) :
    (ApprovalCall.resolve params).program.Ensures (ApprovalCall.Tells (.resolve params)) [] := by
  refine ensures_andThen (ensures_andThen fun found => ?_)
  cases found with
  | none => exact fun haccepted => absurd haccepted (by simp)
  | some row =>
    change Program.Ensures _ _ (if isLate row params.now then _ else _)
    split
    · exact ensures_expireLate (fun _ _ hrefused haccepted => by simp [hrefused] at haccepted)
        row params.now _
    · split
      · exact fun haccepted => absurd haccepted (by simp [refusal])
      · exact fun _ reloaded _ => ⟨by simp, rfl, rfl⟩

theorem ensures_consume (approvalId : String) (now : ℤ) :
    (ApprovalCall.consume approvalId now).program.Ensures
      (ApprovalCall.Tells (.consume approvalId now)) [] := by
  refine ensures_andThen (ensures_andThen fun found => ?_)
  cases found with
  | none => exact fun haccepted => absurd haccepted (by simp)
  | some row =>
    change Program.Ensures _ _ (if isLate row now then _ else _)
    split
    · exact ensures_expireLate (fun _ _ hrefused haccepted => by simp [hrefused] at haccepted)
        row now _
    · split
      · exact fun haccepted => absurd haccepted (by simp [refusal])
      · exact fun _ reloaded _ => by simp

theorem ensures_program (call : ApprovalCall) : call.program.Ensures call.Tells [] := by
  cases call with
  | resolve params => exact ensures_resolve params
  | consume approvalId now => exact ensures_consume approvalId now
  | create | attach | expire =>
    exact ensures_of_forall (fun _ result => by cases result <;> trivial) _ _

/-! ## Runs of interleaved calls -/

/-- The calls of all processes and the table they share. -/
abbrev ApprovalPool : Type :=
  Pool ApprovalCall ApprovalStatement ApprovalStatement.Answer CallResult ApprovalTable

/-- One statement of one process, or the begin of a call. -/
def approvalTurn : ApprovalPool → Turn ApprovalCall → ApprovalPool → Prop :=
  Takes (Pool.turn? ApprovalStatement.effect ApprovalCall.program)

/-- A turn whose guarded statement on a row finds it as the call read it. -/
def TurnFinds (id : String) (pool : ApprovalPool) : Turn ApprovalCall → Prop
  | .begin _ _ => True
  | .advance process => ∀ statement, pool.Next process statement → Finds id pool.store statement

/-- A process has been told that its decision on a row was accepted. -/
def Resolved (pool : ApprovalPool) (process : ℕ) (params : DecisionInput)
    (result : DecisionResult) : Prop :=
  pool.Returned process (.resolve params) (.decided result) ∧ result.accepted

/-- A process has been told that its use of a row was accepted. -/
def Consumed (pool : ApprovalPool) (process : ℕ) (approvalId : String) : Prop :=
  ∃ now result, pool.Returned process (.consume approvalId now) (.decided result) ∧ result.accepted

/-- An approval is decided once and spent once, and who decided it was told what
the row holds. -/
structure DecidedOnce (id : String) (pool : ApprovalPool) : Prop where
  resolved : ∀ process params result process' params' result',
    Resolved pool process params result → Resolved pool process' params' result' →
    params.approvalId = id → params'.approvalId = id → process = process'
  stored : ∀ process params result, Resolved pool process params result →
    params.approvalId = id →
    result.status = some params.decision.status ∧ result.decision = some params.decision ∧
      ∃ row, pool.store.find id = some row ∧
        HoldsDecision row params.decision params.now params.decisionBy params.decisionSource
  consumed : ∀ process process', Consumed pool process id → Consumed pool process' id →
    process = process'

theorem mem_trace_of_mem_performedBy {pool : ApprovalPool}
    (h : statement ∈ pool.performedBy process) : (process, statement) ∈ pool.trace := by
  rw [Pool.performedBy, mem_map] at h
  obtain ⟨⟨other, _⟩, hmem, rfl⟩ := h
  rw [mem_filter, decide_eq_true_eq] at hmem
  obtain ⟨hmem, rfl⟩ := hmem
  exact hmem

theorem eq_of_length_filter_le_one {first second : α} (h : (entries.filter p).length ≤ 1)
    (hfirst : first ∈ entries) (hp : p first) (hsecond : second ∈ entries) (hp' : p second) :
    first = second := by
  have hmem : first ∈ entries.filter p := mem_filter.mpr ⟨hfirst, hp⟩
  have hmem' : second ∈ entries.filter p := mem_filter.mpr ⟨hsecond, hp'⟩
  match hentries : entries.filter p with
  | [] =>
    rw [hentries] at hmem
    cases hmem
  | [only] =>
    rw [hentries, mem_singleton] at hmem hmem'
    rw [hmem, hmem']
  | _ :: _ :: _ =>
    rw [hentries] at h
    simp at h

/-- In every run of any number of interleaved calls, on any table, in which each
decision on a row finds it pending and each use of it finds it approved, at most
one decision on the row is accepted, its caller was told what the row holds, and
at most one use is accepted. -/
theorem approval_decidedOnce {id : String} {table : ApprovalTable}
    {turns : List (Turn ApprovalCall)} {pool : ApprovalPool}
    (run : Run (Meeting (TurnFinds id) approvalTurn) (.idle table) turns pool) :
    DecidedOnce id pool := by
  have hsettled : Settled id pool.store pool.trace :=
    Pool.invariant_of_meeting (fun pool process statement hsettled hnext hfinds =>
      hsettled.step (hfinds statement hnext)) run
      ⟨by simp [Pool.idle], by simp [Pool.idle], by simp [Pool.idle], by simp [Pool.idle]⟩
  have htold {process : ℕ} {call : ApprovalCall} {result : CallResult}
      (h : pool.Returned process call result) : call.Tells (pool.performedBy process) result :=
    Pool.post_of_returned ensures_program (run.mono fun _ _ _ taken => taken.2) h
  have hresolved {process : ℕ} {params : DecisionInput} {result : DecisionResult}
      (h : Resolved pool process params result) := htold h.1 h.2
  refine ⟨?_, ?_, ?_⟩
  · intro process params result process' params' result' h h' hid hid'
    have hmem := mem_trace_of_mem_performedBy (hresolved h).1
    have hmem' := mem_trace_of_mem_performedBy (hresolved h').1
    exact congrArg Prod.fst (eq_of_length_filter_le_one hsettled.decisions hmem
      (by simpa [isDecision] using hid) hmem' (by simpa [isDecision] using hid'))
  · rintro process params result h rfl
    obtain ⟨hmem, hstatus, hdecision⟩ := hresolved h
    exact ⟨hstatus, hdecision, hsettled.decided _ _ _ _ _ (mem_trace_of_mem_performedBy hmem)⟩
  · rintro process process' ⟨now, result, h, haccepted⟩ ⟨now', result', h', haccepted'⟩
    have hmem := mem_trace_of_mem_performedBy (htold h haccepted)
    have hmem' := mem_trace_of_mem_performedBy (htold h' haccepted')
    exact congrArg Prod.fst (eq_of_length_filter_le_one hsettled.uses hmem
      (by simp [isUse]) hmem' (by simp [isUse]))

/-- A decision and its use, which begins while the decision still runs. -/
theorem approval_decidedOnce_shell :
    ∃ pool : ApprovalPool, DecidedOnce "a" pool ∧
      (∃ result, Resolved pool 0 (decideShell .allowOnce) result) ∧ Consumed pool 1 "a" := by
  have run : Run (Meeting (TurnFinds "a") approvalTurn) (.idle requestedTable) []
      (.idle requestedTable) := .start _
  have run := run.extend (.begin 0 (.resolve (decideShell .allowOnce))) ⟨trivial, rfl⟩
  have run := run.extend (.advance 0) ⟨(by rintro _ ⟨_, _, ⟨⟩⟩; trivial), rfl⟩
  have run := run.extend (.advance 0) ⟨(by rintro _ ⟨_, _, ⟨⟩⟩; exact fun _ => ⟨_, rfl, rfl⟩), rfl⟩
  have run := run.extend (.begin 1 (.consume "a" 2)) ⟨trivial, rfl⟩
  have run := run.extend (.advance 1) ⟨(by rintro _ ⟨_, _, ⟨⟩⟩; trivial), rfl⟩
  have run := run.extend (.advance 0) ⟨(by rintro _ ⟨_, _, ⟨⟩⟩; trivial), rfl⟩
  have run := run.extend (.advance 1) ⟨(by rintro _ ⟨_, _, ⟨⟩⟩; exact fun _ => ⟨_, rfl, rfl⟩), rfl⟩
  have run := run.extend (.advance 1) ⟨(by rintro _ ⟨_, _, ⟨⟩⟩; trivial), rfl⟩
  exact ⟨_, approval_decidedOnce run, ⟨_, rfl, rfl⟩, ⟨2, _, rfl, rfl⟩⟩

/-- Two decisions on one request that both read it pending. -/
def crossedDecisions : List (Turn ApprovalCall) :=
  [.begin 0 (.resolve (decideShell .allowOnce)), .begin 1 (.resolve (decideShell .deny)),
    .advance 0, .advance 1, .advance 0, .advance 1, .advance 0, .advance 1]

/-- Both callers are told that their decision was accepted, and the second one
that the request is denied while its row is approved. -/
theorem crossedDecisions_accepted :
    ∃ pool : ApprovalPool,
      execute (Pool.turn? ApprovalStatement.effect ApprovalCall.program) (.idle requestedTable)
        crossedDecisions = some pool ∧
      pool.store.rows.map ApprovalRow.status = [.approvedOnce] ∧
      (∃ result, Resolved pool 1 (decideShell .deny) result ∧ result.status = some .denied) ∧
      ¬ DecidedOnce "a" pool := by
  refine ⟨_, rfl, rfl, ⟨_, ⟨rfl, rfl⟩, rfl⟩, fun h => ?_⟩
  have heq : (0 : ℕ) = 1 := h.resolved 0 (decideShell .allowOnce) _ 1 (decideShell .deny) _
    ⟨rfl, rfl⟩ ⟨rfl, rfl⟩ rfl rfl
  cases heq

end Nobie.Runs
