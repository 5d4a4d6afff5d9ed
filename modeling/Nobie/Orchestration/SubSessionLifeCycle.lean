/-
# The life cycle in the table

Only the runner checks the transitions, and it checks them on its own copy. The controls
check the row they read. A decision on an approval checks nothing. So the stored status of a
sub-session moves along the transitions exactly if the runner's copy is up to date, or says
what the row says already, whenever it is written, and decisions come while their status can
still follow.
-/

import Nobie.Foundation.Transition
import Nobie.Orchestration.SubSessionWriters

namespace Nobie.Orchestration.Writers

open Foundation List

/-! ## What is claimed -/

/-- Every stored status stays or moves along a transition. -/
def Moves (before after : Table) : Prop :=
  ∀ row ∈ before.rows, ∀ later ∈ after.rows, later.subSessionId = row.subSessionId →
    canTransitionSubSessionStatus row.status later.status

/-- A sub-session has one execution, and no spawn comes in between. -/
def OneExecution (state : State) : Label → Prop
  | .arrive _ contract => ∀ other found, state.calls other = some found →
      found.contract.subSessionId ≠ contract.subSessionId
  | .spawn _ => False
  | _ => True

/-- The steps of executions, controls and decisions. -/
abbrev LifeStep : State → Label → State → Prop := Meeting OneExecution (Takes State.step?)

/-- A runner whose write goes through finds the status it wrote last, or the one it writes
now; an approval finds a sub-session that was not started, and a denial one that is neither
completed nor failed. -/
def UpToDate (state : State) : Label → Prop
  | .changeStatus call status => ∀ contract stage, state.calls call = some ⟨contract, stage⟩ →
      ∀ after, updateRunSubSession state.table (contract.withStatus status) = .ok after →
        ∀ row ∈ state.table.rows, row.subSessionId = contract.subSessionId →
          row.status = contract.status ∨ row.status = status
  | .decide subSessionId approved => ∀ row ∈ state.table.rows, row.subSessionId = subSessionId →
      if approved then row.status = .created ∨ row.status = .queued
      else row.status ≠ .completed ∧ row.status ≠ .needsRevision ∧ row.status ≠ .failed
  | _ => True

/-- No call has come, whatever is stored. -/
def State.startWith (table : Table) : State := ⟨table, fun _ => none, []⟩

/-! ## Statuses -/

variable (status : SubSessionStatus) {rows : List Contract} {next : State}

theorem canTransition_refl : canTransitionSubSessionStatus status status := by
  unfold canTransitionSubSessionStatus
  rw [decide_eq_true rfl, Bool.true_or]

theorem canTransition_queued_iff :
    canTransitionSubSessionStatus status .queued ↔ status = .created ∨ status = .queued := by
  cases status <;> decide

theorem canTransition_cancelled_iff :
    canTransitionSubSessionStatus status .cancelled ↔
      status ≠ .completed ∧ status ≠ .needsRevision ∧ status ≠ .failed := by
  cases status <;> decide

theorem canTransition_of_cancelled {status : SubSessionStatus}
    (h : canTransitionSubSessionStatus .cancelled status) : status = .cancelled := by
  cases status <;> first | rfl | cases h

theorem canTransition_to_created {status : SubSessionStatus}
    (h : canTransitionSubSessionStatus status .created) : status = .created := by
  cases status <;> first | rfl | cases h

/-! ## What a write does to the rows -/

section Writes

variable {table after : Table} {row : Contract} (input : Contract)

/-- One row stands under one id. -/
theorem row_unique (hrow : row ∈ table.rows) {other : Contract} (hother : other ∈ table.rows)
    (hid : other.subSessionId = row.subSessionId) : other = row :=
  inj_on_of_nodup_map table.distinctIds hother hrow hid

theorem Moves.refl (table : Table) : Moves table table := by
  intro row hrow later hlater hid
  rw [row_unique hrow hlater hid]
  exact canTransition_refl row.status

/-- A row of another sub-session stays. -/
theorem mem_rewriteRows_of_ne (hid : row.subSessionId ≠ input.subSessionId) :
    row ∈ rewriteRows rows input ↔ row ∈ rows := by
  constructor
  · intro hmem
    obtain rfl | hbefore := mem_rewriteRows hmem
    · exact absurd rfl hid
    · exact hbefore
  · intro hmem
    exact mem_map.mpr ⟨row, hmem, if_neg hid⟩

theorem eq_of_mem_rewriteRows {input : Contract} (hmem : row ∈ rewriteRows rows input)
    (hid : row.subSessionId = input.subSessionId) : row = input := by
  obtain ⟨found, hfound, hrow⟩ := mem_map.mp hmem
  by_cases hsame : found.subSessionId = input.subSessionId
  · rw [if_pos hsame] at hrow
    exact hrow.symm
  · rw [if_neg hsame] at hrow
    exact absurd (hrow ▸ hid) hsame

/-- A write of a stored sub-session moves its row, and no other. -/
theorem moves_rewrite_iff (hrow : row ∈ table.rows)
    (hid : input.subSessionId = row.subSessionId)
    (hafter : after.rows = rewriteRows table.rows input) :
    Moves table after ↔ canTransitionSubSessionStatus row.status input.status := by
  constructor
  · intro h
    refine h row hrow input ?_ hid
    rw [hafter]
    exact mem_map.mpr ⟨row, hrow, if_pos hid.symm⟩
  · intro h other hother later hlater hsame
    rw [hafter] at hlater
    by_cases hown : later.subSessionId = input.subSessionId
    · obtain rfl := eq_of_mem_rewriteRows hlater hown
      obtain rfl := row_unique hrow hother (hsame.symm.trans hid)
      exact h
    · have hbefore := (mem_rewriteRows_of_ne _ hown).mp hlater
      rw [row_unique hother hbefore hsame]
      exact canTransition_refl other.status

/-- A write of a sub-session that is not stored changes nothing. -/
theorem rewriteRows_of_missing (h : ∀ row ∈ rows, row.subSessionId ≠ input.subSessionId) :
    rewriteRows rows input = rows :=
  (map_congr_left fun row hrow => if_neg (h row hrow)).trans (map_id rows)

/-- A write under the key of the row goes through. -/
theorem updateRunSubSession_of_sameKey
    (h : ∀ row ∈ table.rows, row.subSessionId = input.subSessionId →
      row.idempotencyKey = input.idempotencyKey) :
    ∃ after, updateRunSubSession table input = .ok after := by
  have hkeys : (rewriteRows table.rows input).map Contract.idempotencyKey =
      table.rows.map Contract.idempotencyKey := by
    unfold rewriteRows
    rw [map_map]
    refine map_congr_left fun row hrow => ?_
    rw [Function.comp_apply]
    split
    · next hid => exact (h row hrow hid).symm
    · rfl
  unfold updateRunSubSession
  rw [dif_pos (hkeys ▸ table.distinctKeys)]
  exact ⟨_, rfl⟩

theorem storeRow_rows (hrow : row ∈ table.rows) (status : SubSessionStatus) :
    (storeRow table (row.withStatus status)).rows =
      rewriteRows table.rows (row.withStatus status) := by
  have hown : ∀ other ∈ table.rows, other.subSessionId = (row.withStatus status).subSessionId →
      other.idempotencyKey = (row.withStatus status).idempotencyKey := by
    intro other hother hid
    rw [row_unique hrow hother hid]
    rfl
  obtain ⟨after, hafter⟩ := updateRunSubSession_of_sameKey _ hown
  unfold storeRow
  rw [hafter]
  exact updateRunSubSession_rows hafter

theorem moves_storeRow_iff (hrow : row ∈ table.rows) (status : SubSessionStatus) :
    Moves table (storeRow table (row.withStatus status)) ↔
      canTransitionSubSessionStatus row.status status :=
  moves_rewrite_iff (row.withStatus status) hrow rfl (storeRow_rows hrow status)

end Writes

/-! ## Cancellations -/

/-- Every row is as it was, or an active one has become `cancelled`. -/
def Cancels (before after : Table) : Prop :=
  ∀ later ∈ after.rows, ∃ row ∈ before.rows, later = row ∨
    (canTransitionSubSessionStatus row.status .cancelled ∧ later = row.withStatus .cancelled)

variable {after table : Table} {label : Label}

section Cancellations

variable {before table : Table} {subSession : Contract}

theorem Cancels.refl (table : Table) : Cancels table table :=
  fun later hlater => ⟨later, hlater, .inl rfl⟩

theorem Cancels.moves (h : Cancels before after) : Moves before after := by
  intro row hrow later hlater hid
  obtain ⟨found, hfound, rfl | ⟨hactive, rfl⟩⟩ := h later hlater
  · rw [row_unique hrow hfound hid]
    exact canTransition_refl row.status
  · rw [row_unique hrow hfound hid] at hactive ⊢
    exact hactive

/-- The loop body of the cancellations, with a row that was there before. -/
theorem Cancels.cancelActive (h : Cancels before table) (hstored : subSession ∈ before.rows) :
    Cancels before (cancelActive table subSession) := by
  unfold Writers.cancelActive
  split_ifs with hactive
  · unfold storeRow
    split
    · next after hupdate =>
      intro later hlater
      rw [updateRunSubSession_rows hupdate] at hlater
      obtain rfl | hearlier := mem_rewriteRows hlater
      · exact ⟨subSession, hstored, .inr ⟨hactive.2, rfl⟩⟩
      · exact h later hearlier
    · exact h
  · exact h

/-- A row that was cancelled meanwhile is not active. -/
theorem Cancels.cancelById (h : Cancels before table) (subSessionId : String) :
    Cancels before (cancelById table subSessionId) := by
  unfold Writers.cancelById
  split
  · exact h
  · next found hfound =>
    obtain ⟨row, hrow, rfl | ⟨-, rfl⟩⟩ := h found (mem_of_getRunSubSession hfound).1
    · exact h.cancelActive hrow
    · have hinactive : SubSessionStatus.cancelled ∉ activeControlStatuses := by decide
      unfold Writers.cancelActive
      rw [if_neg fun hactive => hinactive hactive.1]
      exact h

theorem cancels_killAll (table : Table) (parentRunId : String) :
    Cancels table (killAllSubSessionsForRun table parentRunId) :=
  List.foldlRecOn _ _ (motive := Cancels table) (.refl table) fun _ hbefore _ hlisted =>
    hbefore.cancelActive (mem_of_mem_filter hlisted)

theorem cancels_cancelSubSession (table : Table) (subSessionId : String)
    (expected : Option String) : Cancels table (cancelSubSession table subSessionId expected) := by
  unfold cancelSubSession
  split
  · exact .refl table
  · next found hfound =>
    have hstored := (mem_of_getRunSubSession hfound).1
    split_ifs with hparent hactive
    · exact .refl table
    · have hfirst := (Cancels.refl table).cancelActive hstored
      unfold Writers.cancelActive at hfirst
      rw [if_pos hactive] at hfirst
      exact List.foldlRecOn _ _ (motive := Cancels table) hfirst
        fun _ hbefore subSessionId _ => hbefore.cancelById subSessionId
    · exact .refl table

end Cancellations

/-! ## The invariant -/

/-- The stages up to the first write of a status. -/
def Stage.Early : Stage → Prop
  | .arrived | .missed | .refused | .admitted => True
  | .queued | .running | .executing | .recovering | .ended => False

/-- The stages from then on. -/
def Stage.Late : Stage → Prop
  | .queued | .running | .executing | .recovering => True
  | .arrived | .missed | .refused | .admitted | .ended => False

/-- The row of a call, if there is one, has the call's key, and the status of its copy
unless it is cancelled. -/
structure CopyFits (table : Table) (contract : Contract) : Prop where
  begun : contract.status ≠ .created
  row : ∀ row ∈ table.rows, row.subSessionId = contract.subSessionId →
    row.idempotencyKey = contract.idempotencyKey ∧
      (row.status = contract.status ∨ row.status = .cancelled)

structure LifeInvariant (state : State) : Prop where
  early : ∀ call contract stage, state.calls call = some ⟨contract, stage⟩ → stage.Early →
    contract.status = .created
  late : ∀ call contract stage, state.calls call = some ⟨contract, stage⟩ → stage.Late →
    CopyFits state.table contract
  alone : ∀ first second found other, state.calls first = some found →
    state.calls second = some other →
    found.contract.subSessionId = other.contract.subSessionId → first = second

theorem lifeInvariant_startWith (table : Table) : LifeInvariant (.startWith table) where
  early := by
    intro call contract stage hcall
    cases hcall
  late := by
    intro call contract stage hcall
    cases hcall
  alone := by
    intro first second found other hfirst
    cases hfirst

section Steps

variable {state : State} {call : ℕ} {contract : Contract} {stage : Stage}

/-- A call that comes to stand elsewhere, with a table that fits the copies of the others. -/
theorem LifeInvariant.put (h : LifeInvariant state)
    (hcall : state.calls call = some ⟨contract, stage⟩) {written : Contract} {reached : Stage}
    (journal : List Event) (hid : written.subSessionId = contract.subSessionId)
    (hearly : reached.Early → written.status = .created)
    (hlate : reached.Late → CopyFits table written)
    (hothers : ∀ found, found.subSessionId ≠ contract.subSessionId →
      CopyFits state.table found → CopyFits table found) :
    LifeInvariant (({ state with table, journal }).put call written reached) where
  early := by
    intro other found at_ hother hat
    rw [calls_put] at hother
    split at hother
    · obtain ⟨rfl, rfl⟩ := RunCall.mk.inj (Option.some.inj hother)
      exact hearly hat
    · exact h.early other found at_ hother hat
  late := by
    intro other found at_ hother hat
    rw [calls_put] at hother
    split at hother
    · obtain ⟨rfl, rfl⟩ := RunCall.mk.inj (Option.some.inj hother)
      exact hlate hat
    · next hne =>
      refine hothers found (fun hsame => hne ?_) (h.late other found at_ hother hat)
      exact h.alone other call _ _ hother hcall hsame
  alone := by
    -- The ids of the calls are as before.
    have hbefore {other : ℕ} {found : RunCall}
        (hother : (({ state with table, journal }).put call written reached).calls other =
          some found) :
        ∃ earlier, state.calls other = some earlier ∧
          earlier.contract.subSessionId = found.contract.subSessionId := by
      rw [calls_put] at hother
      split at hother
      · next heq =>
        cases hother
        exact ⟨_, heq ▸ hcall, hid.symm⟩
      · exact ⟨found, hother, rfl⟩
    intro first second found other hfirst hsecond hsame
    obtain ⟨earlier, hearlier, hfound⟩ := hbefore hfirst
    obtain ⟨before, hbefore, hother⟩ := hbefore hsecond
    exact h.alone first second earlier before hearlier hbefore
      (hfound.trans (hsame.trans hother.symm))

theorem CopyFits.of_cancels (hcancels : Cancels table after) (h : CopyFits table contract) :
    CopyFits after contract where
  begun := h.begun
  row := by
    intro later hlater hid
    obtain ⟨row, hrow, rfl | ⟨-, rfl⟩⟩ := hcancels later hlater
    · exact h.row later hrow hid
    · exact ⟨(h.row row hrow hid).1, .inr rfl⟩

theorem LifeInvariant.of_table (h : LifeInvariant state)
    (hfits : ∀ found, CopyFits state.table found → CopyFits table found) :
    LifeInvariant { state with table } where
  early := h.early
  late := fun call contract stage hcall hlate =>
    hfits contract (h.late call contract stage hcall hlate)
  alone := h.alone

section

variable (h : LifeInvariant state) (hcall : state.calls call = some ⟨contract, stage⟩)
include h hcall

/-- A stage that is neither early nor late asks for nothing. -/
theorem LifeInvariant.end (journal : List Event) :
    LifeInvariant (({ state with journal }).put call contract .ended) :=
  h.put hcall journal rfl False.elim False.elim fun _ _ hfits => hfits

theorem lifeInvariant_advance
    (htaken : state.advance call contract stage = some next) : LifeInvariant next := by
  have hearly (hstage : stage.Early) (reached : Stage) (hlate : ¬ reached.Late)
      (journal : List Event) :
      LifeInvariant (({ state with journal }).put call contract reached) :=
    h.put hcall journal rfl (fun _ => h.early call contract stage hcall hstage)
      (fun hreached => absurd hreached hlate) fun _ _ hfits => hfits
  unfold State.advance at htaken
  split at htaken
  · cases htaken
    exact h.end hcall _
  · cases htaken
    exact h.end hcall _
  · cases htaken
    exact hearly trivial .missed not_false state.journal
  · cases htaken
    exact hearly trivial .admitted not_false _
  · obtain ⟨hinsert, -⟩ | ⟨after, hinsert, hrows⟩ := insertRunSubSession_cases state.table contract
    · rw [hinsert] at htaken
      cases htaken
      exact hearly trivial .refused not_false state.journal
    · rw [hinsert] at htaken
      cases htaken
      refine h.put hcall _ rfl (fun _ => h.early call contract _ hcall trivial) False.elim ?_
      -- The new row is that of this call alone.
      intro found hne hfits
      refine ⟨hfits.begun, fun row hrow hid => ?_⟩
      rw [hrows] at hrow
      obtain hbefore | hlast := mem_append.mp hrow
      · exact hfits.row row hbefore hid
      · rw [mem_singleton.mp hlast] at hid
        exact absurd hid.symm hne
  · cases htaken

end

/-- Where a call stands that writes a status. -/
theorem writtenStage_cases {written : Stage} {status : SubSessionStatus}
    (h : writtenStage stage status = some written) :
    ¬ written.Early ∧ ((stage = .admitted ∧ status = .queued) ∨ stage.Late) := by
  cases stage <;> cases status <;> cases h <;>
    exact ⟨not_false, by first | exact .inr trivial | exact .inl ⟨rfl, rfl⟩⟩

theorem thrownStage_of_admitted : thrownStage .admitted status = .ended := by
  cases status <;> rfl

theorem lifeInvariant_changeStatus {status : SubSessionStatus} (h : LifeInvariant state)
    (hcall : state.calls call = some ⟨contract, stage⟩)
    (htaken : state.changeStatus call contract stage status = some next) : LifeInvariant next := by
  unfold State.changeStatus at htaken
  split_ifs at htaken with hmoves
  obtain ⟨written, hwritten, rfl⟩ := Option.map_eq_some_iff.mp htaken
  obtain ⟨hnotEarly, hwriter⟩ := writtenStage_cases hwritten
  split
  · next table hupdate =>
    have hrows := updateRunSubSession_rows hupdate
    refine h.put hcall state.journal rfl (fun hearly => absurd hearly hnotEarly) (fun _ => ?_) ?_
    · refine ⟨fun hcreated => ?_, fun row hrow hid => ?_⟩
      · -- Nothing leads back to `created`.
        subst hcreated
        obtain ⟨-, hqueued⟩ | hlate := hwriter
        · cases hqueued
        · exact (h.late call contract stage hcall hlate).begun (canTransition_to_created hmoves)
      · rw [hrows] at hrow
        obtain rfl := eq_of_mem_rewriteRows hrow hid
        exact ⟨rfl, .inl rfl⟩
    · intro found hne hfits
      refine ⟨hfits.begun, fun row hrow hid => ?_⟩
      rw [hrows] at hrow
      exact hfits.row row 
        ((mem_rewriteRows_of_ne (contract.withStatus status)
          fun hsame => hne (hid.symm.trans hsame)).mp hrow) hid
  · next hupdate =>
    obtain ⟨rfl, -⟩ | hlate := hwriter
    · rw [thrownStage_of_admitted]
      exact h.put hcall state.journal rfl False.elim False.elim fun _ _ hfits => hfits
    · -- A row under the call's own key can be written.
      have hfits := h.late call contract stage hcall hlate
      obtain ⟨after, hafter⟩ := updateRunSubSession_of_sameKey (contract.withStatus status)
        fun row hrow hid => (hfits.row row hrow hid).1
      rw [hafter] at hupdate
      cases hupdate

/-- A decision after which the row has moved fits the copy of a running call. -/
theorem copyFits_decision {subSessionId : String} {approved : Bool}
    (hmoves : Moves table (applyApprovalDecision table subSessionId approved))
    (h : CopyFits table contract) :
    CopyFits (applyApprovalDecision table subSessionId approved) contract := by
  unfold applyApprovalDecision at hmoves ⊢
  split
  · exact h
  · next found hfound =>
    obtain ⟨hstored, -⟩ := mem_of_getRunSubSession hfound
    rw [hfound] at hmoves
    generalize hstatus : (if approved then SubSessionStatus.queued else .cancelled) = status
      at hmoves ⊢
    have hrows := storeRow_rows hstored status
    have hmoved := (moves_storeRow_iff hstored _).mp hmoves
    refine ⟨h.begun, fun row hrow hid => ?_⟩
    rw [hrows] at hrow
    by_cases hown : row.subSessionId = found.subSessionId
    · obtain rfl := eq_of_mem_rewriteRows hrow hown
      obtain ⟨hkey, hfits⟩ := h.row found hstored hid
      refine ⟨hkey, ?_⟩
      cases approved with
      | false => exact .inr hstatus.symm
      | true =>
        obtain rfl : SubSessionStatus.queued = status := hstatus
        -- The row was queued, as its call has gone past `created`.
        obtain hcreated | hqueued := (canTransition_queued_iff found.status).mp hmoved
        · rw [hcreated] at hfits
          obtain hsame | hcancelled := hfits
          · exact absurd hsame.symm h.begun
          · cases hcancelled
        · rw [hqueued] at hfits
          obtain hsame | hcancelled := hfits
          · exact .inl hsame
          · cases hcancelled
    · have hbefore := (mem_rewriteRows_of_ne (found.withStatus status) hown).mp hrow
      exact h.row row hbefore hid

theorem lifeInvariant_step (h : LifeInvariant state) (hmoves : Moves state.table next.table)
    (htaken : LifeStep state label next) : LifeInvariant next := by
  obtain ⟨hone, htaken⟩ := htaken
  cases label with
  | spawn request => exact absurd hone not_false
  | arrive call contract =>
    change state.arrive call contract = some next at htaken
    unfold State.arrive at htaken
    split at htaken
    · cases htaken
    · cases htaken
      have hnew {other : ℕ} {found : RunCall}
          (hother : (state.put call (contract.withStatus .created) .arrived).calls other =
            some found) : (other = call ∧ found = ⟨contract.withStatus .created, .arrived⟩) ∨
            (state.calls other = some found) := by
        rw [calls_put] at hother
        split at hother
        · next heq => exact .inl ⟨heq, (Option.some.inj hother).symm⟩
        · exact .inr hother
      constructor
      · intro other found stage hother hearly
        obtain ⟨-, hfound⟩ | hbefore := hnew hother
        · obtain ⟨rfl, -⟩ := RunCall.mk.inj hfound
          rfl
        · exact h.early other found stage hbefore hearly
      · intro other found stage hother hlate
        obtain ⟨-, hfound⟩ | hbefore := hnew hother
        · obtain ⟨-, rfl⟩ := RunCall.mk.inj hfound
          exact absurd hlate not_false
        · exact h.late other found stage hbefore hlate
      · intro first second found other hfirst hsecond hsame
        obtain ⟨rfl, rfl⟩ | hbefore := hnew hfirst <;> obtain ⟨rfl, rfl⟩ | hother := hnew hsecond
        · rfl
        · exact absurd hsame.symm (hone second other hother)
        · exact absurd hsame (hone first found hbefore)
        · exact h.alone first second found other hbefore hother hsame
  | advance call =>
    obtain ⟨⟨contract, stage⟩, hcall, htaken⟩ := Option.bind_eq_some_iff.mp htaken
    exact lifeInvariant_advance h hcall htaken
  | changeStatus call status =>
    obtain ⟨⟨contract, stage⟩, hcall, htaken⟩ := Option.bind_eq_some_iff.mp htaken
    exact lifeInvariant_changeStatus h hcall htaken
  | execute call =>
    obtain ⟨⟨contract, stage⟩, hcall, htaken⟩ := Option.bind_eq_some_iff.mp htaken
    split_ifs at htaken with hrunning
    cases htaken
    refine h.put hcall _ rfl False.elim (fun _ => ?_) fun _ _ hfits => hfits
    refine h.late call contract stage hcall ?_
    change stage = .running at hrunning
    rw [hrunning]
    trivial
  | leave call =>
    obtain ⟨⟨contract, stage⟩, hcall, rfl⟩ := Option.map_eq_some_iff.mp htaken
    exact h.end hcall state.journal
  | cancel subSessionId expected =>
    cases htaken
    exact h.of_table fun found hfits => hfits.of_cancels (cancels_cancelSubSession _ _ _)
  | killAll parentRunId =>
    cases htaken
    exact h.of_table fun found hfits => hfits.of_cancels (cancels_killAll _ _)
  | decide subSessionId approved =>
    cases htaken
    exact h.of_table fun found hfits => copyFits_decision hmoves hfits

/-! ## When a step moves along the transitions -/

theorem moves_insert {input : Contract} (hrows : after.rows = table.rows ++ [input])
    (hfree : ¬ table.Conflicts input) : Moves table after := by
  intro row hrow later hlater hid
  rw [hrows] at hlater
  obtain hbefore | hlast := mem_append.mp hlater
  · rw [row_unique hrow hbefore hid]
    exact canTransition_refl row.status
  · rw [mem_singleton.mp hlast] at hid
    exact absurd (.inl (hid ▸ mem_map_of_mem hrow)) hfree

theorem moves_advance (htaken : state.advance call contract stage = some next) :
    Moves state.table next.table := by
  unfold State.advance at htaken
  split at htaken
  · cases htaken
    exact .refl _
  · cases htaken
    exact .refl _
  · cases htaken
    exact .refl _
  · cases htaken
    exact .refl _
  · by_cases hconflict : state.table.Conflicts contract
    · unfold insertRunSubSession at htaken
      rw [dif_pos hconflict] at htaken
      cases htaken
      exact .refl _
    · unfold insertRunSubSession at htaken
      rw [dif_neg hconflict] at htaken
      cases htaken
      exact moves_insert rfl hconflict
  · cases htaken

/-- A runner's write moves the row exactly if its copy is up to date. -/
theorem moves_changeStatus_iff {status : SubSessionStatus} (h : LifeInvariant state)
    (hcall : state.calls call = some ⟨contract, stage⟩)
    (htaken : state.changeStatus call contract stage status = some next) :
    Moves state.table next.table ↔ UpToDate state (.changeStatus call status) := by
  unfold State.changeStatus at htaken
  split_ifs at htaken with hmoves
  obtain ⟨written, hwritten, rfl⟩ := Option.map_eq_some_iff.mp htaken
  obtain ⟨-, hwriter⟩ := writtenStage_cases hwritten
  have hcondition : UpToDate state (.changeStatus call status) ↔
      ∀ after, updateRunSubSession state.table (contract.withStatus status) = .ok after →
        ∀ row ∈ state.table.rows, row.subSessionId = contract.subSessionId →
          row.status = contract.status ∨ row.status = status := by
    refine ⟨fun hfresh => hfresh contract stage hcall, fun hfresh found reached hfound => ?_⟩
    obtain ⟨rfl, -⟩ := RunCall.mk.inj (Option.some.inj (hcall.symm.trans hfound))
    exact hfresh
  rw [hcondition]
  split
  · next table hupdate =>
    have hrows := updateRunSubSession_rows hupdate
    change Moves state.table table ↔ _
    constructor
    · intro hmoved after _ row hrow hid
      have hstep := (moves_rewrite_iff (contract.withStatus status) hrow hid.symm hrows).mp hmoved
      obtain ⟨rfl, rfl⟩ | hlate := hwriter
      · rw [h.early call contract _ hcall trivial]
        exact (canTransition_queued_iff row.status).mp hstep
      · obtain hsame | hcancelled := ((h.late call contract stage hcall hlate).row row hrow hid).2
        · exact .inl hsame
        · rw [hcancelled] at hstep ⊢
          exact .inr (canTransition_of_cancelled hstep).symm
    · intro hfresh
      by_cases hstored : ∃ row ∈ state.table.rows, row.subSessionId = contract.subSessionId
      · obtain ⟨row, hrow, hid⟩ := hstored
        refine (moves_rewrite_iff (contract.withStatus status) hrow hid.symm hrows).mpr ?_
        obtain hsame | hwrites := hfresh table hupdate row hrow hid
        · rw [hsame]
          exact hmoves
        · rw [hwrites]
          exact canTransition_refl status
      · rw [rewriteRows_of_missing (contract.withStatus status)
          fun row hrow hid => hstored ⟨row, hrow, hid⟩] at hrows
        intro row hrow later hlater hid
        rw [hrows] at hlater
        rw [row_unique hrow hlater hid]
        exact canTransition_refl row.status
  · next hupdate =>
    refine iff_of_true (.refl _) fun after hafter => ?_
    rw [hupdate] at hafter
    cases hafter

theorem moves_decision_iff (table : Table) (subSessionId : String) (approved : Bool) :
    Moves table (applyApprovalDecision table subSessionId approved) ↔
      ∀ row ∈ table.rows, row.subSessionId = subSessionId →
        if approved then row.status = .created ∨ row.status = .queued
        else row.status ≠ .completed ∧ row.status ≠ .needsRevision ∧ row.status ≠ .failed := by
  unfold applyApprovalDecision
  split
  · next hmissing =>
    refine iff_of_true (.refl _) fun row hrow hid => ?_
    exact absurd (decide_eq_true hid) (find?_eq_none.mp hmissing row hrow)
  · next found hfound =>
    obtain ⟨hstored, hid⟩ := mem_of_getRunSubSession hfound
    have honly {condition : Contract → Prop} :
        condition found ↔ ∀ row ∈ table.rows, row.subSessionId = subSessionId →
          condition row := by
      refine ⟨fun hcondition row hrow hsame => ?_, fun hall => hall found hstored hid⟩
      rw [row_unique hstored hrow (hsame.trans hid.symm)]
      exact hcondition
    rw [moves_storeRow_iff hstored, ← honly]
    cases approved with
    | true => exact canTransition_queued_iff found.status
    | false => exact canTransition_cancelled_iff found.status

theorem moves_iff_upToDate (h : LifeInvariant state) (htaken : LifeStep state label next) :
    Moves state.table next.table ↔ UpToDate state label := by
  obtain ⟨hone, htaken⟩ := htaken
  cases label with
  | spawn request => exact absurd hone not_false
  | arrive call contract =>
    change state.arrive call contract = some next at htaken
    unfold State.arrive at htaken
    split at htaken
    · cases htaken
    · cases htaken
      exact iff_of_true (.refl _) trivial
  | advance call =>
    obtain ⟨⟨contract, stage⟩, -, htaken⟩ := Option.bind_eq_some_iff.mp htaken
    exact iff_of_true (moves_advance htaken) trivial
  | changeStatus call status =>
    obtain ⟨⟨contract, stage⟩, hcall, htaken⟩ := Option.bind_eq_some_iff.mp htaken
    exact moves_changeStatus_iff h hcall htaken
  | execute call =>
    obtain ⟨⟨contract, stage⟩, -, htaken⟩ := Option.bind_eq_some_iff.mp htaken
    split_ifs at htaken
    cases htaken
    exact iff_of_true (.refl _) trivial
  | leave call =>
    obtain ⟨found, -, rfl⟩ := Option.map_eq_some_iff.mp htaken
    exact iff_of_true (.refl _) trivial
  | cancel subSessionId expected =>
    cases htaken
    exact iff_of_true (cancels_cancelSubSession _ _ _).moves trivial
  | killAll parentRunId =>
    cases htaken
    exact iff_of_true (cancels_killAll _ _).moves trivial
  | decide subSessionId approved =>
    cases htaken
    exact moves_decision_iff state.table subSessionId approved

end Steps

/-- The stored statuses move along the transitions in every step of a run exactly if every
write of the runner is up to date and every decision comes in time. -/
theorem statusesMove_iff (table : Table) (labels : List Label) (last : State) :
    Run (Keeping (fun before after => Moves before.table after.table) LifeStep)
        (.startWith table) labels last ↔
      Run (Meeting UpToDate LifeStep) (.startWith table) labels last := by
  refine Run.keeping_iff_meeting LifeInvariant ?_ ?_ (lifeInvariant_startWith table)
  · intro state label next hinv hmoves htaken
    exact lifeInvariant_step hinv hmoves htaken
  · intro state label next hinv htaken
    exact moves_iff_upToDate hinv htaken

/-! ## A cancelled sub-session that is completed -/

/-- An execution up to its handler, and a kill. -/
def killedRun : List Label :=
  [.arrive 0 teaRequest, .advance 0, .advance 0, .changeStatus 0 .queued,
    .changeStatus 0 .running, .execute 0, .cancel "tea" none]

/-- The runner goes on after the kill and writes its copy. -/
theorem killed_completed : ∃ before after,
    Run LifeStep (.startWith .empty) killedRun before ∧
      LifeStep before (.changeStatus 0 .completed) after ∧ ¬ Moves before.table after.table := by
  have begun : Run LifeStep (.startWith .empty) [] (.startWith .empty) := .start _
  have run := ((((((begun.extend (.arrive 0 teaRequest) ⟨fun _ _ => nofun, rfl⟩).extend
      (.advance 0) ⟨trivial, rfl⟩).extend (.advance 0) ⟨trivial, rfl⟩).extend
      (.changeStatus 0 .queued) ⟨trivial, rfl⟩).extend (.changeStatus 0 .running)
      ⟨trivial, rfl⟩).extend (.execute 0) ⟨trivial, rfl⟩).extend (.cancel "tea" none)
      ⟨trivial, rfl⟩
  refine ⟨_, _, run, ⟨trivial, rfl⟩, fun hmoves => ?_⟩
  have hmoved := hmoves (teaRequest.withStatus .cancelled) mem_cons_self
    (teaRequest.withStatus .completed) mem_cons_self rfl
  cases hmoved

end Nobie.Orchestration.Writers
