/-
# Requests of calls

Every call that asked the registry has a row of its own, for its run and tool. No step but the
coming in of a call changes what was asked, and no row that was decided is pending again. A
decision goes to the row of its id alone.
-/

import Nobie.Tools.ApprovalDispatch

namespace Nobie.Tools.Approvals

open Foundation Runs List

/-! ## Calls and rows belong together -/

/-- Every call that asked has a row of its own. -/
structure Registered (state : DispatcherState) : Prop where
  distinct : ∀ (first second : ℕ) (call other : GatedCall) (id : String),
    state.calls[first]? = some call → state.calls[second]? = some other →
      call.approvalId? = some id → other.approvalId? = some id → first = second
  row : ∀ (place : ℕ) (call : GatedCall) (id : String), state.calls[place]? = some call →
    call.approvalId? = some id → ∃ row, state.registry.find id = some row ∧ row.runId = call.runId ∧
      row.toolName = call.toolName
  pending : ∀ runId interaction, state.pendingInteractionKinds runId = some interaction →
    ∃ call ∈ state.calls, call.approvalId? = some interaction.approvalId ∧ call.runId = runId
  approved : ∀ id decision, (id, decision) ∈ state.approvals → decision ≠ .deny ∧
    ∃ row, state.registry.find id = some row ∧ row.status = .consumed

/-- What a call asked for. -/
def GatedCall.request (call : GatedCall) : Option String × String × String :=
  (call.approvalId?, call.runId, call.toolName)

/-- The requests are the same, and a row that was decided stays as it was. -/
structure Evolves (state next : DispatcherState) : Prop where
  calls : next.calls.map GatedCall.request = state.calls.map GatedCall.request
  rows : ∀ id row, state.registry.find id = some row → ∃ row',
    next.registry.find id = some row' ∧ SameRequest row row' ∧
      (row.status ≠ .requested → row'.status = row.status)
  pending : ∀ runId interaction, next.pendingInteractionKinds runId = some interaction →
    state.pendingInteractionKinds runId = some interaction
  approvals : ∀ id decision, (id, decision) ∈ next.approvals → (id, decision) ∈ state.approvals ∨
    decision ≠ .deny ∧ ∃ row, next.registry.find id = some row ∧ row.status = .consumed

theorem Evolves.refl (state : DispatcherState) : Evolves state state :=
  ⟨rfl, fun _ row h => ⟨row, h, .refl row, fun _ => rfl⟩, fun _ _ h => h, fun _ _ h => .inl h⟩

theorem Evolves.trans {first second third : DispatcherState} (h : Evolves first second)
    (h' : Evolves second third) : Evolves first third where
  calls := h'.calls.trans h.calls
  rows := by
    intro id row hrow
    obtain ⟨middle, hmiddle, hsame, hdecided⟩ := h.rows id row hrow
    obtain ⟨last, hlast, hsame', hdecided'⟩ := h'.rows id middle hmiddle
    refine ⟨last, hlast, hsame.trans hsame', fun hstatus => ?_⟩
    have hmiddleStatus := hdecided hstatus
    exact (hdecided' (by rwa [hmiddleStatus])).trans hmiddleStatus
  pending runId interaction hpending := h.pending _ _ (h'.pending _ _ hpending)
  approvals := by
    intro id decision hmem
    rcases h'.approvals id decision hmem with hmiddle | hnew
    · rcases h.approvals id decision hmiddle with hfirst | ⟨hallow, row, hrow, hstatus⟩
      · exact .inl hfirst
      · obtain ⟨row', hrow', -, hdecided⟩ := h'.rows id row hrow
        refine .inr ⟨hallow, row', hrow', ?_⟩
        rw [hdecided (by rw [hstatus]; decide), hstatus]
    · exact .inr hnew

variable {state : DispatcherState} {id : String} (params : DecisionInput)
  (decision : ApprovalDecision) {approvalId : String} {input : DispatchInput}

/-- A call of the later state was there with the same request. -/
theorem Evolves.call {next : DispatcherState} (h : Evolves state next) {place : ℕ}
    {call : GatedCall} (hcall : next.calls[place]? = some call) :
    ∃ before, state.calls[place]? = some before ∧ call.request = before.request := by
  have hrequest : (next.calls.map GatedCall.request)[place]? = some call.request := by
    rw [getElem?_map, hcall, Option.map_some]
  rw [h.calls, getElem?_map, Option.map_eq_some_iff] at hrequest
  obtain ⟨before, hbefore, hsame⟩ := hrequest
  exact ⟨before, hbefore, hsame.symm⟩

theorem Registered.evolves {next : DispatcherState} (h : Registered state)
    (hevolves : Evolves state next) : Registered next where
  distinct := by
    intro first second call other id hcall hother hid hid'
    obtain ⟨before, hbefore, hrequest⟩ := hevolves.call hcall
    obtain ⟨before', hbefore', hrequest'⟩ := hevolves.call hother
    have hsame : call.approvalId? = before.approvalId? := congrArg Prod.fst hrequest
    have hsame' : other.approvalId? = before'.approvalId? := congrArg Prod.fst hrequest'
    exact h.distinct first second before before' id hbefore hbefore' (hsame ▸ hid) (hsame' ▸ hid')
  row := by
    intro place call id hcall hid
    obtain ⟨before, hbefore, hrequest⟩ := hevolves.call hcall
    obtain ⟨hsame, hrun, htool⟩ : call.approvalId? = before.approvalId? ∧
        call.runId = before.runId ∧ call.toolName = before.toolName := by
      simpa [GatedCall.request] using hrequest
    obtain ⟨row, hrow, hrowRun, hrowTool⟩ := h.row place before id hbefore (hsame ▸ hid)
    obtain ⟨row', hrow', hrequest', -⟩ := hevolves.rows id row hrow
    exact ⟨row', hrow', by rw [hrequest'.runId, hrowRun, hrun],
      by rw [hrequest'.toolName, hrowTool, htool]⟩
  pending := by
    intro runId interaction hpending
    obtain ⟨call, hcall, hid, hrun⟩ := h.pending runId interaction
      (hevolves.pending runId interaction hpending)
    have hrequest : call.request ∈ next.calls.map GatedCall.request := by
      rw [hevolves.calls]
      exact mem_map_of_mem hcall
    obtain ⟨after, hafter, hsame⟩ := mem_map.mp hrequest
    obtain ⟨hsameId, hsameRun, -⟩ : after.approvalId? = call.approvalId? ∧
        after.runId = call.runId ∧ after.toolName = call.toolName := by
      simpa [GatedCall.request] using hsame
    exact ⟨after, hafter, hsameId.trans hid, hsameRun.trans hrun⟩
  approved := by
    intro id decision hmem
    rcases hevolves.approvals id decision hmem with hbefore | hnew
    · obtain ⟨hallow, row, hrow, hstatus⟩ := h.approved id decision hbefore
      obtain ⟨row', hrow', -, hdecided⟩ := hevolves.rows id row hrow
      exact ⟨hallow, row', hrow', by rw [hdecided (by rw [hstatus]; decide), hstatus]⟩
    · exact hnew

variable {call : GatedCall} {next : DispatcherState} {place : ℕ} (now : ℤ)
  (delivered : String → Bool) {step : ApprovalStep}

/-- Two calls that asked under one id are one call. -/
theorem Registered.eq_of_id (h : Registered state) {other : GatedCall} (hcall : call ∈ state.calls)
    (hother : other ∈ state.calls) (hid : call.approvalId? = some id)
    (hid' : other.approvalId? = some id) : call = other := by
  obtain ⟨first, hfirst⟩ := getElem?_of_mem hcall
  obtain ⟨second, hsecond⟩ := getElem?_of_mem hother
  obtain rfl := h.distinct first second call other id hfirst hsecond hid hid'
  exact Option.some.inj (hfirst.symm.trans hsecond)

theorem request_denyHeard (heard : ℕ → Bool) (call : GatedCall) :
    (denyHeard heard call).request = call.request := by
  unfold GatedCall.request
  rw [approvalId_denyHeard]
  unfold denyHeard
  split <;> rfl

theorem Denies.evolves {now : ℤ} {heard : ℕ → Bool} (h : Denies now heard state next) :
    Evolves state next where
  calls := by
    rw [h.calls, map_map]
    exact map_congr_left fun call _ => request_denyHeard heard call
  rows := by
    intro id row hrow
    refine ⟨_, h.rows id row hrow, ?_, fun hstatus => ?_⟩
    · unfold deniedRow
      split
      · exact sameRequest_decideRow _ row
      · exact .refl row
    · unfold deniedRow
      split
      · rw [decideRow_of_not_requested hstatus]
      · rfl
  pending := h.pending
  approvals := by
    intro id decision hmem
    rw [h.approvals] at hmem
    exact .inl hmem

/-- An entry gives way to one with the same image. -/
theorem map_set_of_same {α β : Type} {image : α → β} {entries : List α} {entry entry' : α}
    (hentry : entries[place]? = some entry) (hsame : image entry' = image entry) :
    (entries.set place entry').map image = entries.map image := by
  refine ext_getElem? fun index => ?_
  rw [getElem?_map, getElem?_map, getElem?_set]
  split
  · next hplace =>
    subst hplace
    have hlength : place < entries.length := (List.getElem?_eq_some_iff.mp hentry).1
    rw [if_pos hlength, hentry, Option.map_some, Option.map_some, hsame]
  · rfl

/-! ## Decisions -/

/-- What a decision makes of its row; an approval is used up. -/
def answerRow (params : DecisionInput) (row : ApprovalRow) : ApprovalRow :=
  if isOpen row params.now && params.decision ≠ .deny then
    consumeRow params.now (decideRow params row)
  else decideRow params row

theorem sameRequest_answerRow (row : ApprovalRow) : SameRequest row (answerRow params row) := by
  unfold answerRow
  split
  · exact (sameRequest_decideRow params row).trans (sameRequest_consumeRow _ _)
  · exact sameRequest_decideRow params row

theorem isApproved_of_allow {decision : ApprovalDecision} (h : decision ≠ .deny) :
    isApproved decision.status := by
  cases decision with
  | allowOnce | allowRun => rfl
  | deny => exact absurd rfl h

theorem status_answerRow (row : ApprovalRow) :
    (answerRow params row).status =
      if isOpen row params.now then
        if params.decision = .deny then .denied else .consumed
      else if row.status = .requested then .expired else row.status := by
  unfold answerRow
  by_cases hopen : isOpen row params.now
  · have hdecided : (decideRow params row).status = params.decision.status := by
      rw [status_decideRow, if_pos hopen]
    by_cases hdeny : params.decision = .deny
    · rw [if_neg (by simp [hdeny]), hdecided, if_pos hopen, if_pos hdeny, hdeny]
      rfl
    · rw [if_pos (by simp [hopen, hdeny]), if_pos hopen, if_neg hdeny]
      apply status_consumeRow_of_approved
      rw [hdecided]
      exact isApproved_of_allow hdeny
  · rw [if_neg (by simp [hopen]), status_decideRow, if_neg hopen, if_neg hopen]

namespace DispatcherState

variable (state : DispatcherState)

section

variable {params : DecisionInput} {own : ApprovalRow}
  (hown : state.registry.find params.approvalId = some own)
include hown

/-- A decision changes the registry at its row, and is accepted where the row is open. -/
theorem decideAndConsume_spec :
    (state.decideAndConsume params).1 = isOpen own params.now ∧
    (∀ id row, state.registry.find id = some row →
      (state.decideAndConsume params).2.registry.find id =
        some (if id = params.approvalId then answerRow params row else row)) ∧
    (state.decideAndConsume params).2 = { state with
      registry := (state.decideAndConsume params).2.registry
      approvals := if isOpen own params.now && params.decision ≠ .deny then
          state.approvals ++ [(params.approvalId, params.decision)]
        else state.approvals } := by
  have haccepted := accepted_resolve hown
  unfold decideAndConsume
  dsimp only
  rw [haccepted]
  have hfindOwn := find_resolve hown params
  rw [if_pos rfl] at hfindOwn
  have hsame {id : String} {row : ApprovalRow} (hrow : state.registry.find id = some row)
      (hid : id = params.approvalId) : row = own := by
    rw [hid] at hrow
    exact Option.some.inj (hrow.symm.trans hown)
  cases hopen : isOpen own params.now with
  | false =>
    refine ⟨rfl, fun id row hrow => ?_, rfl⟩
    refine (find_resolve hrow params).trans (congrArg some ?_)
    split
    · next hid =>
      obtain rfl := hsame hrow hid
      rw [answerRow, hopen, Bool.false_and, if_neg Bool.false_ne_true]
    · rfl
  | true =>
    by_cases hdeny : params.decision = .deny
    · simp only [hdeny, Bool.not_true, Bool.false_eq_true, if_false, if_true, ne_eq,
        not_true_eq_false, decide_false, Bool.and_false]
      refine ⟨trivial, fun id row hrow => ?_, trivial⟩
      refine (find_resolve hrow params).trans (congrArg some ?_)
      split
      · rw [answerRow, if_neg (by simp [hdeny])]
      · rfl
    · have hstatus : (decideRow params own).status = params.decision.status := by
        rw [status_decideRow, if_pos hopen]
      have happroved : isApproved (decideRow params own).status := by
        rw [hstatus]
        exact isApproved_of_allow hdeny
      have hlate : isLate (decideRow params own) params.now = false := by
        apply isLate_of_not_requested
        intro hrequested
        rw [hrequested] at happroved
        cases happroved
      simp only [hdeny, Bool.not_true, Bool.false_eq_true, if_false, ne_eq, not_false_eq_true,
        decide_true, Bool.and_true, if_true]
      refine ⟨?_, fun id row hrow => ?_, trivial⟩
      · rw [accepted_consume hfindOwn, happroved, hlate]
        rfl
      · refine (find_consume (find_resolve hrow params) _ _).trans (congrArg some ?_)
        split
        · next hid =>
          obtain rfl := hsame hrow hid
          rw [answerRow, if_pos (by simp [hopen, hdeny])]
        · rfl

theorem evolves_decideAndConsume :
    Evolves state (state.decideAndConsume params).2 := by
  obtain ⟨-, hrows, hstate⟩ := state.decideAndConsume_spec hown
  refine ⟨by rw [hstate], fun id row hrow => ?_, by rw [hstate]; exact fun _ _ h => h, ?_⟩
  · refine ⟨_, hrows id row hrow, ?_, fun hdecided => ?_⟩
    · split
      · exact sameRequest_answerRow params row
      · exact .refl row
    · split
      · have hclosed : isOpen row params.now = false := by simp [isOpen, hdecided]
        rw [status_answerRow, hclosed, if_neg Bool.false_ne_true, if_neg hdecided]
      · rfl
  · intro id decision hmem
    have happrovals := congrArg DispatcherState.approvals hstate
    rw [happrovals] at hmem
    split at hmem
    · next hallowed =>
      rw [mem_append, mem_singleton] at hmem
      rcases hmem with hbefore | hnew
      · exact .inl hbefore
      · cases hnew
        rw [Bool.and_eq_true, decide_eq_true_eq] at hallowed
        have hfound := hrows params.approvalId own hown
        rw [if_pos rfl] at hfound
        refine .inr ⟨hallowed.2, _, hfound, ?_⟩
        rw [status_answerRow, if_pos hallowed.1, if_neg hallowed.2]
    · exact .inl hmem

end

theorem evolves_settleAt (hcall : state.calls[place]? = some call) (decision : ApprovalDecision) :
    Evolves state (state.settleAt place call decision) := by
  refine ⟨?_, fun id row hrow => ⟨row, hrow, .refl row, fun _ => rfl⟩, fun _ _ h => h,
    fun _ _ h => .inl h⟩
  have hrequest : (call.settle decision).request = call.request := by
    unfold GatedCall.request
    rw [approvalId_settle]
    rfl
  exact map_set_of_same hcall hrequest

/-- An allowed request changes no other. -/
theorem denies_finishApproval_allow {decision : ApprovalDecision} (hallow : decision ≠ .deny)
    (now : ℤ) (delivered : String → Bool) (runId approvalId : String) :
    Denies now (fun _ => false) state
      (state.finishApproval now delivered runId approvalId decision) := by
  have hupdate (middle : DispatcherState) (hcalls : middle.calls = state.calls)
      (hregistry : middle.registry = state.registry)
      (hpending : ∀ other interaction, middle.pendingInteractionKinds other = some interaction →
        state.pendingInteractionKinds other = some interaction)
      (happrovals : middle.approvals = state.approvals)
      (hcancellations : middle.cancellations = state.cancellations) :
      Denies now (fun _ => false) state (middle.updateRunStatus runId .running delivered) := by
    have hboth := (denies_of_unchanged now hcalls hregistry hpending happrovals
      hcancellations).trans ((middle.sameRequests_updateRunStatus runId .running delivered).denies
        now)
    exact hboth
  cases decision with
  | allowOnce | allowRun => exact hupdate _ rfl rfl (fun _ _ h => pending_of_update h) rfl rfl
  | deny => exact absurd rfl hallow

/-- A denied request cancels its run. -/
theorem denies_finishApproval_deny (runId approvalId : String) :
    Denies now (state.reached (state.cancellationScope runId))
      { state with cancellations := state.cancellations ++ [(runId, approvalId)] }
      (state.finishApproval now delivered runId approvalId .deny) := by
  obtain ⟨hcalls, hrows, hpending, happrovals, hcancellations⟩ :=
    denies_cancelRootRun { state with
      pendingInteractionKinds := Function.update state.pendingInteractionKinds runId none
      cancellations := state.cancellations ++ [(runId, approvalId)] } now delivered runId
  exact ⟨hcalls, hrows, fun other interaction h => pending_of_update (hpending other interaction h),
    happrovals, hcancellations⟩

theorem evolves_finishApproval (runId approvalId : String) (decision : ApprovalDecision) :
    Evolves state (state.finishApproval now delivered runId approvalId decision) := by
  by_cases hdeny : decision = .deny
  · subst hdeny
    obtain ⟨hcalls, hrows, hpending, happrovals⟩ :=
      (state.denies_finishApproval_deny now delivered runId approvalId).evolves
    exact ⟨hcalls, hrows, hpending, happrovals⟩
  · exact (state.denies_finishApproval_allow hdeny now delivered runId approvalId).evolves

/-- The answers. -/
theorem evolves_resolveRequest {own : ApprovalRow} (hcall : state.calls[place]? = some call)
    (hown : state.registry.find approvalId = some own) (params : DecisionInput)
    (delivered : String → Bool) :
    Evolves state (state.resolveRequest place call approvalId params delivered) := by
  have hdecide := @evolves_decideAndConsume state { params with approvalId } own hown
  unfold resolveRequest
  split
  · next middle hmiddle =>
    rw [hmiddle] at hdecide
    exact hdecide
  · next middle hmiddle =>
    have hcalls := congrArg DispatcherState.calls
      (@decideAndConsume_spec state { params with approvalId } own hown).2.2
    rw [hmiddle] at hdecide hcalls
    have hcall' : middle.calls[place]? = some call := by
      rw [show middle.calls = state.calls from hcalls]
      exact hcall
    exact hdecide.trans ((middle.evolves_settleAt hcall' _).trans
      (evolves_finishApproval _ _ _ _ _ _))

theorem evolves_resolvePendingInteraction (hregistered : Registered state) (runId : String)
    (decision : ApprovalDecision) (now : ℤ) (delivered : String → Bool) :
    Evolves state (state.resolvePendingInteraction runId decision now delivered) := by
  unfold resolvePendingInteraction
  cases hpending : state.pendingInteractionKinds runId with
  | none => exact .refl state
  | some interaction =>
    obtain ⟨call, hcall, hid, -⟩ := hregistered.pending runId interaction hpending
    obtain ⟨place, hplace⟩ := getElem?_of_mem hcall
    obtain ⟨own, hown, -⟩ := hregistered.row place call _ hplace hid
    have hdecide := @evolves_decideAndConsume state
      ⟨interaction.approvalId, decision, some "webui", "user", now⟩ own hown
    dsimp only
    split
    · next middle hmiddle =>
      rw [hmiddle] at hdecide
      exact hdecide
    · next middle hmiddle =>
      rw [hmiddle] at hdecide
      exact hdecide.trans (evolves_finishApproval _ _ _ _ _ _)

theorem evolves_expire (approvalId : String) (now : ℤ) :
    Evolves state
      { state with registry := (runCall (.expire approvalId now) state.registry).2 } := by
  refine ⟨rfl, fun id row hrow => ⟨_, find_expire hrow approvalId now, ?_, fun hdecided => ?_⟩,
    fun _ _ h => h, fun _ _ h => .inl h⟩
  · split
    · exact sameRequest_expireRow now row
    · exact .refl row
  · split
    · rw [expireRow_of_not_requested hdecided]
    · rfl

theorem evolves_timeOut (hcall : state.calls[place]? = some call) (approvalId : String) (now : ℤ)
    (delivered : String → Bool) :
    Evolves state (state.timeOut place call approvalId now delivered) := by
  unfold timeOut
  exact (state.evolves_settleAt hcall .deny).trans
    (((state.settleAt place call .deny).evolves_expire approvalId now).trans
      (evolves_finishApproval _ _ _ _ _ _))

theorem evolves_markOutlived : Evolves state state.markOutlived :=
  ⟨rfl, fun _ row h => ⟨row, h, .refl row, fun _ => rfl⟩, fun _ _ h => h, fun _ _ h => .inl h⟩

end DispatcherState

/-! ## Steps -/

/-- The steps that add a call, let one go on or answer one. -/
def ApprovalStep.isOfCall : ApprovalStep → Bool
  | .dispatch _ | .proceed .. | .resolve .. | .resolvePending .. | .timeOut .. => true
  | _ => false

/-- The other steps change no request but by what they abort. -/
theorem denies_act (h : act? state step = some next) (hstep : step.isOfCall = false) :
    ∃ now heard, Denies now heard state next := by
  have hquiet : ∀ next : DispatcherState, next.calls = state.calls →
      next.registry = state.registry →
      next.pendingInteractionKinds = state.pendingInteractionKinds →
      next.approvals = state.approvals → next.cancellations = state.cancellations →
      ∃ now heard, Denies now heard state next := by
    intro next hcalls hregistry hpending happrovals hcancellations
    exact ⟨0, _, denies_of_unchanged 0 hcalls hregistry (by rw [hpending]; exact fun _ _ h => h)
      happrovals hcancellations⟩
  cases step with
  | dispatch | proceed | resolve | resolvePending | timeOut => cases hstep
  | abort signal now =>
    cases h
    exact ⟨now, _, state.denies_abortSignal now signal⟩
  | grantRunApprovalScope | bindController | clearController =>
    cases h
    exact hquiet _ rfl rfl rfl rfl rfl
  | grantRunSingleApproval runId =>
    cases h
    unfold DispatcherState.grantRunSingleApproval
    dsimp only
    split
    · exact hquiet _ rfl rfl rfl rfl rfl
    · split
      · exact hquiet _ rfl rfl rfl rfl rfl
      · exact hquiet _ rfl rfl rfl rfl rfl
  | createRun run =>
    simp only [act?] at h
    split at h
    · cases h
      exact hquiet _ rfl rfl rfl rfl rfl
    · cases h
  | updateStatus runId status delivered =>
    cases h
    exact ⟨0, _, (state.sameRequests_updateRunStatus runId status delivered).denies 0⟩
  | cancel runId now delivered =>
    cases h
    exact ⟨now, _, state.denies_cancelRootRun now delivered runId⟩
  | deleteRuns runIds now =>
    simp only [act?] at h
    split at h
    · cases h
      obtain ⟨hcalls, hrows, hpending, happrovals, hcancellations⟩ :=
        state.denies_abortControllers now runIds
      exact ⟨now, _, hcalls, hrows, hpending, happrovals, hcancellations⟩
    · cases h

/-- A call goes on. -/
theorem proceed_cases {findings : PolicyFindings} {withinRate : Bool}
    (h : act? state (.proceed place findings withinRate) = some next) :
    ∃ call, state.calls[place]? = some call ∧ call.waits = false ∧ call.executed = none ∧
      next = { state with
        calls := state.calls.set place (call.proceed findings withinRate) } := by
  simp only [act?] at h
  split at h
  · next call hcall =>
    split at h
    · cases h
    · next hready =>
      rw [Bool.or_eq_true, not_or, Bool.not_eq_true, Bool.not_eq_true,
        Option.isSome_eq_false_iff, Option.isNone_iff_eq_none] at hready
      exact ⟨call, hcall, hready.1, hready.2, (Option.some.inj h).symm⟩
  · cases h

/-- The resolver answers a call that waits, and is deaf afterwards. -/
theorem resolve_cases {params : DecisionInput} {delivered : String → Bool}
    (h : act? state (.resolve place params delivered) = some next) :
    ∃ call, state.calls[place]? = some call ∧ ((∃ approvalId, call.gate = .asked approvalId none ∧
          next = state.resolveRequest place call approvalId params delivered) ∨
        call.waits = false ∧ next = state) := by
  simp only [act?] at h
  split at h
  · next call hcall =>
    refine ⟨call, hcall, ?_⟩
    split at h
    · next approvalId hgate => exact .inl ⟨approvalId, hgate, (Option.some.inj h).symm⟩
    · next approvalId outcome hgate =>
      refine .inr ⟨?_, (Option.some.inj h).symm⟩
      unfold GatedCall.waits CallGate.waits
      rw [hgate]
    · cases h
  · cases h

/-- The timer ends the wait of a call. -/
theorem timeOut_cases {now : ℤ} {delivered : String → Bool}
    (h : act? state (.timeOut place now delivered) = some next) :
    ∃ call approvalId, state.calls[place]? = some call ∧ call.gate = .asked approvalId none ∧
      next = state.timeOut place call approvalId now delivered := by
  simp only [act?] at h
  split at h
  · next call hcall =>
    split at h
    · next approvalId hgate hkind =>
      exact ⟨call, approvalId, hcall, hgate, (Option.some.inj h).symm⟩
    · cases h
  · cases h

theorem approvalId_of_gate {outcome : Option ApprovalDecision}
    (h : call.gate = .asked approvalId outcome) : call.approvalId? = some approvalId := by
  unfold GatedCall.approvalId?
  rw [h]

theorem settle_of_gate (hgate : call.gate = .asked id none) (decision : ApprovalDecision) :
    (call.settle decision).gate = .asked id (some decision) := by
  unfold GatedCall.settle CallGate.settle
  rw [hgate]

/-- Only a call that comes in asks anew. -/
theorem evolves_act (hregistered : Registered state) (h : act? state step = some next)
    (hstep : ∀ input, step ≠ .dispatch input) : Evolves state next := by
  cases hkind : step.isOfCall with
  | false =>
    obtain ⟨now, heard, hdenies⟩ := denies_act h hkind
    exact hdenies.evolves
  | true =>
    cases step with
    | dispatch input => exact absurd rfl (hstep input)
    | proceed place findings withinRate =>
      obtain ⟨call, hcall, -, -, rfl⟩ := proceed_cases h
      refine ⟨?_, fun id row hrow => ⟨row, hrow, .refl row, fun _ => rfl⟩,
        fun _ _ hpending => hpending, fun _ _ hmem => .inl hmem⟩
      exact map_set_of_same hcall rfl
    | resolve place params delivered =>
      obtain ⟨call, hcall, ⟨approvalId, hgate, rfl⟩ | ⟨-, rfl⟩⟩ := resolve_cases h
      · obtain ⟨own, hown, -⟩ := hregistered.row place call approvalId hcall
          (approvalId_of_gate hgate)
        exact state.evolves_resolveRequest hcall hown params delivered
      · exact .refl _
    | resolvePending runId decision now delivered =>
      cases h
      exact state.evolves_resolvePendingInteraction hregistered runId decision now delivered
    | timeOut place now delivered =>
      obtain ⟨call, approvalId, hcall, -, rfl⟩ := timeOut_cases h
      exact state.evolves_timeOut hcall approvalId now delivered
    | abort signal now => cases hkind
    | grantRunApprovalScope runId => cases hkind
    | grantRunSingleApproval runId => cases hkind
    | createRun run => cases hkind
    | bindController runId signal => cases hkind
    | clearController runId => cases hkind
    | updateStatus runId status delivered => cases hkind
    | cancel runId now delivered => cases hkind
    | deleteRuns runIds now => cases hkind

/-! ## A call that comes in -/

/-- A call that is added belongs to a row of its own, if it asks at all. -/
theorem Registered.add {state next : DispatcherState} (h : Registered state) {call : GatedCall}
    (hcalls : next.calls = state.calls ++ [call])
    (hrows : ∀ id row, state.registry.find id = some row → ∃ row',
      next.registry.find id = some row' ∧ SameRequest row row' ∧
        (row.status ≠ .requested → row'.status = row.status))
    (happrovals : next.approvals = state.approvals)
    (hnew : ∀ id, call.approvalId? = some id → state.registry.find id = none ∧
      ∃ row, next.registry.find id = some row ∧ row.runId = call.runId ∧
        row.toolName = call.toolName)
    (hpending : ∀ runId interaction, next.pendingInteractionKinds runId = some interaction →
      state.pendingInteractionKinds runId = some interaction ∨
        call.approvalId? = some interaction.approvalId ∧ call.runId = runId) :
    Registered next := by
  have hplaces {place : ℕ} {other : GatedCall} (hother : next.calls[place]? = some other) :
      state.calls[place]? = some other ∨ place = state.calls.length ∧ other = call := by
    rw [hcalls, getElem?_append] at hother
    split at hother
    · exact .inl hother
    · next hlength =>
      obtain ⟨hindex, hsame⟩ := List.getElem?_eq_some_iff.mp hother
      rw [length_singleton, Nat.lt_one_iff] at hindex
      refine .inr ⟨by omega, ?_⟩
      rw [← hsame]
      simp [hindex]
  have hknown {place : ℕ} {other : GatedCall} {id : String}
      (hother : state.calls[place]? = some other) (hid : other.approvalId? = some id) :
      call.approvalId? ≠ some id := by
    intro hcall
    obtain ⟨row, hrow, -⟩ := h.row place other id hother hid
    exact Option.some_ne_none row (hrow.symm.trans (hnew id hcall).1)
  refine ⟨?_, ?_, ?_, ?_⟩
  · intro first second one other id hone hother hid hid'
    obtain hone | ⟨hfirst, rfl⟩ := hplaces hone
    · obtain hother | ⟨-, rfl⟩ := hplaces hother
      · exact h.distinct first second one other id hone hother hid hid'
      · exact absurd hid' (hknown hone hid)
    · obtain hother | ⟨hsecond, -⟩ := hplaces hother
      · exact absurd hid (hknown hother hid')
      · rw [hfirst, hsecond]
  · intro place other id hother hid
    obtain hother | ⟨-, rfl⟩ := hplaces hother
    · obtain ⟨row, hrow, hrun, htool⟩ := h.row place other id hother hid
      obtain ⟨row', hrow', hsame, -⟩ := hrows id row hrow
      exact ⟨row', hrow', hsame.runId.trans hrun, hsame.toolName.trans htool⟩
    · exact (hnew id hid).2
  · intro runId interaction hinteraction
    rcases hpending runId interaction hinteraction with hbefore | hown
    · obtain ⟨other, hother, hid, hrun⟩ := h.pending runId interaction hbefore
      exact ⟨other, by rw [hcalls]; exact mem_append_left _ hother, hid, hrun⟩
    · exact ⟨call, by rw [hcalls]; exact mem_append_cons_self, hown⟩
  · intro id decision hmem
    rw [happrovals] at hmem
    obtain ⟨hallow, row, hrow, hstatus⟩ := h.approved id decision hmem
    obtain ⟨row', hrow', -, hdecided⟩ := hrows id row hrow
    exact ⟨hallow, row', hrow', by rw [hdecided (by rw [hstatus]; decide), hstatus]⟩

namespace DispatcherState

variable (state : DispatcherState)

/-- The call as it comes in. -/
def newCall (input : DispatchInput) (gate : CallGate) : GatedCall where
  runId := input.runId
  toolName := input.toolName
  signal := input.signal
  owner := state.getApprovalOwnerKey input.runId
  required := shouldRequireApproval input
  gate := gate

/-- What comes of a call: it needs no approval, is served by a grant, or asks. -/
theorem dispatch_cases (input : DispatchInput) :
    (shouldRequireApproval input = false ∧
      state.dispatch input = state.addCall input .notRequired) ∨
    (∃ grant, shouldRequireApproval input ∧
      state.runApprovalScopes (state.getApprovalOwnerKey input.runId) = some grant ∧
      state.dispatch input = state.addCall input (.allowRunScope grant)) ∨
    (∃ grant, shouldRequireApproval input ∧
      state.runSingleApprovalScopes (state.getApprovalOwnerKey input.runId) = some grant ∧
      state.dispatch input = { state.addCall input (.singleScope grant) with
        runSingleApprovalScopes := Function.update state.runSingleApprovalScopes
          (state.getApprovalOwnerKey input.runId) none }) ∨
    (shouldRequireApproval input ∧
      state.runApprovalScopes (state.getApprovalOwnerKey input.runId) = none ∧
      state.runSingleApprovalScopes (state.getApprovalOwnerKey input.runId) = none ∧
      state.dispatch input = state.askRegistry input) := by
  unfold dispatch
  cases hrequired : shouldRequireApproval input with
  | false => exact .inl ⟨rfl, by rw [if_neg Bool.false_ne_true]⟩
  | true =>
    rw [if_pos rfl]
    unfold requestApproval
    dsimp only
    cases hscope : state.runApprovalScopes (state.getApprovalOwnerKey input.runId) with
    | some grant => exact .inr (.inl ⟨grant, rfl, rfl, rfl⟩)
    | none =>
      cases hsingle : state.runSingleApprovalScopes (state.getApprovalOwnerKey input.runId) with
      | some grant => exact .inr (.inr (.inl ⟨grant, rfl, rfl, rfl⟩))
      | none => exact .inr (.inr (.inr ⟨rfl, rfl, rfl, rfl⟩))

/-- What the registry and the calls are behind a request. -/
theorem askRegistry_spec (habsent : state.registry.find input.approvalId = none) :
    (state.askRegistry input).calls =
        state.calls ++ [state.newCall input (.asked input.approvalId none)] ∧
    (∃ row, (state.askRegistry input).registry.find input.approvalId = some row ∧
      row.status = .requested ∧ row.runId = input.runId ∧ row.toolName = input.toolName) ∧
    (∀ id row, state.registry.find id = some row →
      (state.askRegistry input).registry.find id = some (supersedeRow
        (registryRequest (state.getApprovalOwnerKey input.runId) input) row)) ∧
    (∀ runId interaction,
      (state.askRegistry input).pendingInteractionKinds runId = some interaction →
        state.pendingInteractionKinds runId = some interaction ∨
          input.approvalId = interaction.approvalId ∧ input.runId = runId) ∧
    (state.askRegistry input).approvals = state.approvals ∧
    (state.askRegistry input).cancellations = state.cancellations := by
  unfold askRegistry
  obtain ⟨hcalls, hregistry, happrovals, hcancellations, -, -, -, hpending⟩ :=
    DispatcherState.sameRequests_updateRunStatus
      { state.addCall input (.asked input.approvalId none) with
      registry := (runCall (.create (registryRequest (state.getApprovalOwnerKey input.runId) input))
        state.registry).2
      pendingInteractionKinds := Function.update state.pendingInteractionKinds input.runId
        (some ⟨input.approvalId, input.toolName, approvalKind input.toolName⟩) }
      input.runId (awaitingStatus (approvalKind input.toolName)) fun _ => false
  rw [hcalls, hregistry, happrovals, hcancellations]
  refine ⟨rfl, ⟨_, find_create_own rfl habsent, rfl, rfl, rfl⟩, fun id row hrow =>
    find_create hrow rfl habsent, fun runId interaction hinteraction => ?_, rfl, rfl⟩
  have hentry := hpending runId interaction hinteraction
  dsimp only at hentry
  by_cases hrun : runId = input.runId
  · rw [hrun, Function.update_self] at hentry
    cases hentry
    exact .inr ⟨rfl, hrun.symm⟩
  · rw [Function.update_of_ne hrun] at hentry
    exact .inl hentry

theorem registered_dispatch {state : DispatcherState} (h : Registered state)
    (habsent : state.registry.find input.approvalId = none) :
    Registered (state.dispatch input) := by
  have hquiet (next : DispatcherState) (gate : CallGate)
      (hgate : (state.newCall input gate).approvalId? = none)
      (hcalls : next.calls = state.calls ++ [state.newCall input gate])
      (hregistry : next.registry = state.registry) (happrovals : next.approvals = state.approvals)
      (hpending : next.pendingInteractionKinds = state.pendingInteractionKinds) :
      Registered next := by
    refine h.add hcalls (fun id row hrow => ⟨row, by rw [hregistry, hrow], .refl row, fun _ => rfl⟩)
      happrovals (fun id hid => ?_) fun runId interaction hinteraction => .inl ?_
    · rw [hgate] at hid
      exact absurd hid (Option.some_ne_none id).symm
    · rw [← hpending]
      exact hinteraction
  obtain ⟨-, hnext⟩ | ⟨grant, -, -, hnext⟩ | ⟨grant, -, -, hnext⟩ | ⟨-, -, -, hnext⟩ :=
    state.dispatch_cases input
  · rw [hnext]
    exact hquiet _ .notRequired rfl rfl rfl rfl rfl
  · rw [hnext]
    exact hquiet _ (.allowRunScope grant) rfl rfl rfl rfl rfl
  · rw [hnext]
    exact hquiet _ (.singleScope grant) rfl rfl rfl rfl rfl
  · rw [hnext]
    obtain ⟨hcalls, ⟨row, hrow, -, hrun, htool⟩, hrows, hpending, happrovals, -⟩ :=
      state.askRegistry_spec habsent
    refine h.add hcalls (fun id row hrow => ?_) happrovals (fun id hid => ?_)
      fun runId interaction hinteraction => ?_
    · refine ⟨_, hrows id row hrow, sameRequest_supersedeRow _ row, fun hdecided => ?_⟩
      rw [status_supersedeRow, if_neg fun hall => hdecided hall.2.2]
    · cases hid
      exact ⟨habsent, row, hrow, hrun, htool⟩
    · rcases hpending runId interaction hinteraction with hbefore | ⟨hid, hrunId⟩
      · exact .inl hbefore
      · exact .inr ⟨congrArg some hid, hrunId⟩

end DispatcherState

/-- Every step keeps the calls and their rows together. -/
theorem registered_step (h : Registered state) (hnext : approvalStep? state step = some next) :
    Registered next := by
  obtain ⟨middle, hmiddle, rfl⟩ := Option.map_eq_some_iff.mp hnext
  suffices hregistered : Registered middle from hregistered.evolves middle.evolves_markOutlived
  by_cases hdispatch : ∃ input, step = .dispatch input
  · obtain ⟨input, rfl⟩ := hdispatch
    simp only [act?] at hmiddle
    split at hmiddle
    · cases hmiddle
    · next habsent =>
      cases hmiddle
      rw [Option.not_isSome_iff_eq_none] at habsent
      exact DispatcherState.registered_dispatch h habsent
  · exact h.evolves (evolves_act h hmiddle fun input hinput => hdispatch ⟨input, hinput⟩)

/-- At the start no call has come in. -/
def startState (registry : ApprovalTable) (runs : RootRunTable) : DispatcherState :=
  { registry, runs }

theorem registered_startState (registry : ApprovalTable) (runs : RootRunTable) :
    Registered (startState registry runs) := by
  refine ⟨fun first _ _ _ _ hcall => ?_, fun place _ _ hcall => ?_,
    fun _ _ hpending => absurd hpending (Option.some_ne_none _).symm,
    nofun⟩
  · exact absurd hcall (by simp [startState])
  · exact absurd hcall (by simp [startState])

/-- In every state of a run each call that asked has a row of its own, for its run and tool. -/
theorem calls_registered (registry : ApprovalTable) (runs : RootRunTable)
    (steps : List ApprovalStep) (last : DispatcherState) :
    Run (Reaching Registered (Takes approvalStep?)) (startState registry runs) steps last ↔
      Run (Takes approvalStep?) (startState registry runs) steps last :=
  Run.reaching_iff Registered (fun _ _ _ h hnext => registered_step h hnext) (fun _ h => h)
    (registered_startState registry runs)

end Nobie.Tools.Approvals
