/-
# Grants serve the calls of their own group

A call that needs an approval is executed by a row of its own that was used up, by a single
approval that served no other call, or by a grant of its request group. The grants in memory
are cleared by the events of runs that complete, fail or are cancelled, and stay where the last
active run of a group is interrupted, or where they are made after the runs of the group have
ended; such a grant serves the next run of the group.
-/

import Nobie.Tools.ApprovalAnswers

namespace Nobie.Tools.Approvals

open Foundation Runs List Option Function
open Orchestration (RunStatus)

/-! ## What is asked of the grants -/

variable (state : DispatcherState) (call : GatedCall)

/-- The grant is held in memory under a key. -/
def InForce (ownerKey : String) (grant : MemoryGrant) : Prop :=
  state.runApprovalScopes ownerKey = some grant ∨
    state.runSingleApprovalScopes ownerKey = some grant

/-- The call has a row of its own that was approved and used up. -/
def OwnRow (place : ℕ) (call : GatedCall) : Prop :=
  ∃ id decision row, call.gate = .asked id (some decision) ∧ decision ≠ .deny ∧
    state.registry.find id = some row ∧ row.runId = call.runId ∧ row.toolName = call.toolName ∧
    row.status = .consumed ∧ (id, decision) ∈ state.approvals ∧
    ∀ (index : ℕ) (other : GatedCall), state.calls[index]? = some other →
      other.approvalId? = some id → index = place

/-- The call has used up a single approval of its group that serves no other call. -/
def OwnSingleApproval (place : ℕ) (call : GatedCall) : Prop :=
  ∃ grant, call.gate = .singleScope grant ∧ grant.owner = call.owner ∧ grant.outlived = false ∧
    ∀ (index : ℕ) (other : GatedCall) (spent : MemoryGrant), state.calls[index]? = some other →
      other.gate = .singleScope spent → spent.serial = grant.serial → index = place

/-- The call came in while a grant for its group was in force, which no end of the group's runs
had outlived. -/
def OwnScope : Prop :=
  ∃ grant, call.gate = .allowRunScope grant ∧ grant.owner = call.owner ∧ grant.outlived = false

/-- Every executed call that needed an approval had one of its own, and no grant stays in force
that the runs of its group have outlived. -/
structure GrantedRightly (state : DispatcherState) : Prop where
  executed : ∀ (place : ℕ) (call : GatedCall), state.calls[place]? = some call →
    call.required → call.executed = some true →
      OwnRow state place call ∨ OwnSingleApproval state place call ∨ OwnScope call
  served : ∀ call ∈ state.calls, ∀ grant,
    call.gate = .allowRunScope grant ∨ call.gate = .singleScope grant → grant.outlived = false
  inForce : ∀ ownerKey grant, InForce state ownerKey grant →
    state.runs.hasEnded ownerKey = false ∧ grant.outlived = false

/-- The decision on an open request would allow the rest of its run. -/
def AllowsRun (approvalId : String) (decision : ApprovalDecision) (now : ℤ) : Prop :=
  decision = .allowRun ∧ ∃ row, state.registry.find approvalId = some row ∧ isOpen row now

/-- A grant is made only while its group has not ended, and the last active run of a group is
interrupted only where no grant of the group is in force. -/
def GrantsEndWithGroup : ApprovalStep → Prop
  | .grantRunApprovalScope runId | .grantRunSingleApproval runId =>
    state.runs.hasEnded (state.getApprovalOwnerKey runId) = false
  | .resolve place params _ => ∀ call id, state.calls[place]? = some call →
      call.gate = .asked id none → AllowsRun state id params.decision params.now →
        state.runs.hasEnded (state.getApprovalOwnerKey call.runId) = false
  | .resolvePending runId decision now _ => ∀ interaction,
      state.pendingInteractionKinds runId = some interaction →
      AllowsRun state interaction.approvalId decision now →
        state.runs.hasEnded (state.getApprovalOwnerKey runId) = false
  | .updateStatus runId status delivered => ∀ run, state.runs.getRootRun runId = some run →
      isTerminalRunStatus run.status = false →
      finalRunStatus run.status status (delivered runId) = .interrupted →
        (∃ other ∈ state.runs.rows, other.id ≠ runId ∧
          other.requestGroupId = run.requestGroupId ∧ isTerminalRunStatus other.status = false) ∨
        ∀ grant, ¬ InForce state run.requestGroupId grant
  | _ => True

/-! ## The books -/

/-- What holds of calls and grants in every run. -/
structure GrantBooks (state : DispatcherState) : Prop where
  registered : Registered state
  gated : ∀ call ∈ state.calls, call.required → call.gate ≠ .notRequired
  executed : ∀ call ∈ state.calls, call.executed = some true →
    call.waits = false ∧ call.gate.decision ≠ some .deny
  allowed : ∀ call ∈ state.calls, ∀ id decision, call.gate = .asked id (some decision) →
    decision ≠ .deny → (id, decision) ∈ state.approvals
  owner : ∀ ownerKey grant, InForce state ownerKey grant →
    grant.owner = ownerKey ∧ grant.serial < state.grantsMade
  callOwner : ∀ call ∈ state.calls, ∀ grant,
    call.gate = .allowRunScope grant ∨ call.gate = .singleScope grant →
      grant.owner = call.owner ∧ grant.serial < state.grantsMade
  unspent : ∀ call ∈ state.calls, ∀ spent ownerKey grant, call.gate = .singleScope spent →
    state.runSingleApprovalScopes ownerKey = some grant → grant.serial ≠ spent.serial
  single : ∀ first second grant other, state.runSingleApprovalScopes first = some grant →
    state.runSingleApprovalScopes second = some other → grant.serial = other.serial → first = second
  spentOnce : ∀ (first second : ℕ) (call other : GatedCall) (grant spent : MemoryGrant),
    state.calls[first]? = some call → state.calls[second]? = some other →
      call.gate = .singleScope grant → other.gate = .singleScope spent →
        grant.serial = spent.serial → first = second

variable {place : ℕ} {call : GatedCall} {approvalId : String} {own : ApprovalRow}
  {input : DispatchInput}

variable {state next : DispatcherState} {step : ApprovalStep}

/-- An executed call that asked has a row of its own. -/
theorem GrantBooks.ownRow (h : GrantBooks state) (hcall : state.calls[place]? = some call)
    (hexecuted : call.executed = some true) {id : String} {outcome : Option ApprovalDecision}
    (hgate : call.gate = .asked id outcome) : OwnRow state place call := by
  have hmem : call ∈ state.calls := mem_of_getElem? hcall
  obtain ⟨hwaits, hdecision⟩ := h.executed call hmem hexecuted
  have hid := approvalId_of_gate hgate
  cases outcome with
  | none =>
    unfold GatedCall.waits CallGate.waits at hwaits
    rw [hgate] at hwaits
    cases hwaits
  | some decision =>
    have hallow : decision ≠ .deny := by
      rintro rfl
      rw [hgate] at hdecision
      exact hdecision rfl
    have happroved := h.allowed call hmem id decision hgate hallow
    obtain ⟨row, hrow, hrun, htool⟩ := h.registered.row place call id hcall hid
    obtain ⟨-, found, hfound, hconsumed⟩ := h.registered.approved id decision happroved
    cases hrow.symm.trans hfound
    refine ⟨id, decision, row, hgate, hallow, hrow, hrun, htool, hconsumed, happroved,
      fun index other hother hotherId => ?_⟩
    exact h.registered.distinct index place other call id hother hcall hotherId hid

/-- An executed call has an approval of its own as far as the books tell. -/
theorem GrantBooks.granted (h : GrantBooks state) (hserved : ∀ call ∈ state.calls, ∀ grant,
      call.gate = .allowRunScope grant ∨ call.gate = .singleScope grant → grant.outlived = false)
    (hcall : state.calls[place]? = some call) (hrequired : call.required)
    (hexecuted : call.executed = some true) :
    OwnRow state place call ∨ OwnSingleApproval state place call ∨ OwnScope call := by
  have hmem : call ∈ state.calls := mem_of_getElem? hcall
  cases hgate : call.gate with
  | notRequired => exact absurd hgate (h.gated call hmem hrequired)
  | allowRunScope grant =>
    exact .inr (.inr ⟨grant, hgate, (h.callOwner call hmem grant (.inl hgate)).1,
      hserved call hmem grant (.inl hgate)⟩)
  | singleScope grant =>
    refine .inr (.inl ⟨grant, hgate, (h.callOwner call hmem grant (.inr hgate)).1,
      hserved call hmem grant (.inr hgate), fun index other spent hother hspent hserial => ?_⟩)
    exact h.spentOnce index place other call spent grant hother hcall hspent hgate hserial
  | asked id outcome => exact .inl (h.ownRow hcall hexecuted hgate)

/-! ## Moves -/

/-- What a call may become in a step other than its own coming in or going on: it is settled
once, and allowed only what the registry has approved. -/
structure CallMove (approvals : List (String × ApprovalDecision)) (call next : GatedCall) :
    Prop where
  owner : next.owner = call.owner
  required : next.required = call.required
  executed : next.executed = call.executed
  gate : next.gate = call.gate ∨ ∃ id decision, call.gate = .asked id none ∧
    next.gate = .asked id (some decision) ∧ (decision ≠ .deny → (id, decision) ∈ approvals)

/-- Calls are settled and grants are dropped; a new grant is one for the rest of a run. -/
structure Moves (state next : DispatcherState) : Prop where
  calls : ∀ (place : ℕ) (call' : GatedCall), next.calls[place]? = some call' →
    ∃ call, state.calls[place]? = some call ∧ CallMove next.approvals call call'
  approvals : ∀ entry ∈ state.approvals, entry ∈ next.approvals
  grantsMade : state.grantsMade ≤ next.grantsMade
  scopes : ∀ ownerKey grant, next.runApprovalScopes ownerKey = some grant →
    state.runApprovalScopes ownerKey = some grant ∨
      grant.owner = ownerKey ∧ grant.serial < next.grantsMade ∧ grant.outlived = false
  singles : ∀ ownerKey grant, next.runSingleApprovalScopes ownerKey = some grant →
    state.runSingleApprovalScopes ownerKey = some grant

theorem CallMove.refl (approvals : List (String × ApprovalDecision)) (call : GatedCall) :
    CallMove approvals call call := ⟨rfl, rfl, rfl, .inl rfl⟩

theorem CallMove.trans {approvals approvals' : List (String × ApprovalDecision)}
    {first second third : GatedCall} (h : CallMove approvals first second)
    (h' : CallMove approvals' second third)
    (happrovals : ∀ entry ∈ approvals, entry ∈ approvals') : CallMove approvals' first third where
  owner := h'.owner.trans h.owner
  required := h'.required.trans h.required
  executed := h'.executed.trans h.executed
  gate := by
    rcases h.gate with hsame | ⟨id, decision, hasked, hsettled, hallowed⟩
    · rcases h'.gate with hsame' | ⟨id, decision, hasked, hsettled, hallowed⟩
      · exact .inl (hsame'.trans hsame)
      · exact .inr ⟨id, decision, hsame.symm.trans hasked, hsettled, hallowed⟩
    · rcases h'.gate with hsame' | ⟨id', decision', hasked', -⟩
      · exact .inr ⟨id, decision, hasked, hsame'.trans hsettled,
          fun hallow => happrovals _ (hallowed hallow)⟩
      · rw [hsettled] at hasked'
        exact absurd (CallGate.asked.inj hasked').2 (some_ne_none _)

theorem Moves.refl (state : DispatcherState) : Moves state state :=
  ⟨fun _ call hcall => ⟨call, hcall, .refl _ call⟩, fun _ h => h, le_rfl, fun _ _ h => .inl h,
    fun _ _ h => h⟩

theorem Moves.trans {first second third : DispatcherState} (h : Moves first second)
    (h' : Moves second third) : Moves first third where
  calls := by
    intro place call hcall
    obtain ⟨middle, hmiddle, hmove'⟩ := h'.calls place call hcall
    obtain ⟨before, hbefore, hmove⟩ := h.calls place middle hmiddle
    exact ⟨before, hbefore, hmove.trans hmove' h'.approvals⟩
  approvals entry hentry := h'.approvals entry (h.approvals entry hentry)
  grantsMade := h.grantsMade.trans h'.grantsMade
  scopes := by
    intro ownerKey grant hgrant
    rcases h'.scopes ownerKey grant hgrant with hmiddle | hnew
    · rcases h.scopes ownerKey grant hmiddle with hbefore | ⟨howner, hserial, hplain⟩
      · exact .inl hbefore
      · exact .inr ⟨howner, lt_of_lt_of_le hserial h'.grantsMade, hplain⟩
    · exact .inr hnew
  singles ownerKey grant hgrant := h.singles _ _ (h'.singles _ _ hgrant)

theorem moves_of_unchanged (hcalls : next.calls = state.calls)
    (happrovals : next.approvals = state.approvals) (hgrants : next.grantsMade = state.grantsMade)
    (hscopes : next.runApprovalScopes = state.runApprovalScopes)
    (hsingles : next.runSingleApprovalScopes = state.runSingleApprovalScopes) :
    Moves state next := by
  refine ⟨fun _ call hcall => ⟨call, by rw [← hcalls]; exact hcall, .refl _ call⟩, ?_,
    hgrants.ge, fun _ _ h => .inl ?_, fun _ _ h => ?_⟩
  · rw [happrovals]
    exact fun _ h => h
  · rwa [← hscopes]
  · rwa [← hsingles]

/-- Nothing about calls and grants changes but that calls are denied. -/
theorem Denies.moves {now : ℤ} {heard : ℕ → Bool} (h : Denies now heard state next)
    (hgrants : next.grantsMade = state.grantsMade)
    (hscopes : ∀ ownerKey grant, next.runApprovalScopes ownerKey = some grant →
      state.runApprovalScopes ownerKey = some grant)
    (hsingles : ∀ ownerKey grant, next.runSingleApprovalScopes ownerKey = some grant →
      state.runSingleApprovalScopes ownerKey = some grant) : Moves state next where
  calls := by
    intro place call' hcall'
    rw [h.calls, getElem?_map, map_eq_some_iff] at hcall'
    obtain ⟨call, hcall, rfl⟩ := hcall'
    refine ⟨call, hcall, ?_⟩
    unfold denyHeard
    split
    · next hheard =>
      obtain ⟨id, hgate⟩ := gate_of_waits (Bool.and_eq_true_iff.mp hheard).1
      exact ⟨rfl, rfl, rfl, .inr ⟨id, .deny, hgate, settle_of_gate hgate .deny,
        fun hallow => absurd rfl hallow⟩⟩
    · exact .refl _ call
  approvals := by
    rw [h.approvals]
    exact fun _ hentry => hentry
  grantsMade := hgrants.ge
  scopes ownerKey grant hgrant := .inl (hscopes ownerKey grant hgrant)
  singles := hsingles

variable {ownerKey : String} {grant : MemoryGrant}

theorem scope_of_update {grants : String → Option MemoryGrant} {other : String}
    (h : Function.update grants ownerKey none other = some grant) : grants other = some grant := by
  by_cases hother : other = ownerKey
  · rw [hother, update_self] at h
    cases h
  · rwa [update_of_ne hother] at h

namespace DispatcherState

variable (state : DispatcherState)

variable (runId : String) (delivered : String → Bool) (now : ℤ)

theorem scopes_clear :
    (∀ ownerKey grant,
      (state.clearApprovalScopesForCompletedRun runId).runApprovalScopes ownerKey = some grant →
        state.runApprovalScopes ownerKey = some grant) ∧
    ∀ ownerKey grant,
      (state.clearApprovalScopesForCompletedRun runId).runSingleApprovalScopes ownerKey =
        some grant → state.runSingleApprovalScopes ownerKey = some grant := by
  unfold clearApprovalScopesForCompletedRun
  dsimp only
  split
  · exact ⟨fun _ _ h => h, fun _ _ h => h⟩
  · exact ⟨fun _ _ h => scope_of_update h, fun _ _ h => scope_of_update h⟩

/-- A status makes no grant. -/
theorem scopes_updateRunStatus (status : RunStatus) (delivered : String → Bool) :
    (∀ ownerKey grant,
      (state.updateRunStatus runId status delivered).runApprovalScopes ownerKey = some grant →
        state.runApprovalScopes ownerKey = some grant) ∧
    ∀ ownerKey grant,
      (state.updateRunStatus runId status delivered).runSingleApprovalScopes ownerKey =
        some grant → state.runSingleApprovalScopes ownerKey = some grant := by
  unfold updateRunStatus
  split
  · exact ⟨fun _ _ h => h, fun _ _ h => h⟩
  · next next runs hupdate =>
    split
    · exact scopes_clear { state with runs } runId
    · exact ⟨fun _ _ h => h, fun _ _ h => h⟩

theorem moves_updateRunStatus (status : RunStatus) (delivered : String → Bool) :
    Moves state (state.updateRunStatus runId status delivered) := by
  have hsame := state.sameRequests_updateRunStatus runId status delivered
  obtain ⟨hscopes, hsingles⟩ := state.scopes_updateRunStatus runId status delivered
  exact (hsame.denies 0).moves hsame.grantsMade hscopes hsingles

/-- A request makes no grant. -/
theorem grants_askRegistry (input : DispatchInput) :
    (state.askRegistry input).grantsMade = state.grantsMade ∧
    (∀ ownerKey grant, (state.askRegistry input).runApprovalScopes ownerKey = some grant →
      state.runApprovalScopes ownerKey = some grant) ∧
    ∀ ownerKey grant, (state.askRegistry input).runSingleApprovalScopes ownerKey = some grant →
      state.runSingleApprovalScopes ownerKey = some grant := by
  exact ⟨(sameRequests_updateRunStatus _ _ _ _).grantsMade, scopes_updateRunStatus _ _ _ _⟩

theorem moves_of_sameRuns {now : ℤ} {heard : ℕ → Bool} {next : DispatcherState}
    (h : Denies now heard state next) (hsame : state.SameRuns next) : Moves state next :=
  h.moves hsame.grantsMade (by rw [hsame.runApprovalScopes]; exact fun _ _ h => h)
    (by rw [hsame.runSingleApprovalScopes]; exact fun _ _ h => h)

theorem moves_abortController (runId : String) : Moves state (state.abortController now runId) :=
  state.moves_of_sameRuns (state.denies_abortController now runId)
    (state.sameRuns_abortController now runId)

theorem moves_cancelRootRun (delivered : String → Bool) (runId : String) :
    Moves state (state.cancelRootRun now delivered runId) := by
  unfold cancelRootRun
  generalize state.cancellationScope runId = runIds
  induction runIds generalizing state with
  | nil => exact .refl state
  | cons first rest ih =>
    rw [foldl_cons]
    exact ((state.moves_abortController now first).trans
      (moves_updateRunStatus _ first .cancelled delivered)).trans (ih _)

theorem moves_setRunApprovalScope (ownerKey : String) :
    Moves state (state.setRunApprovalScope ownerKey) := by
  refine ⟨fun _ call hcall => ⟨call, hcall, .refl _ call⟩, fun _ h => h, Nat.le_succ _,
    fun other grant hgrant => ?_, fun _ _ h => h⟩
  unfold setRunApprovalScope at hgrant ⊢
  dsimp only at hgrant ⊢
  by_cases hother : other = ownerKey
  · rw [hother, update_self] at hgrant
    cases hgrant
    exact .inr ⟨hother.symm, Nat.lt_succ_self _, rfl⟩
  · rw [update_of_ne hother] at hgrant
    exact .inl hgrant

theorem moves_finishApproval (delivered : String → Bool) (runId approvalId : String)
    (decision : ApprovalDecision) :
    Moves state (state.finishApproval now delivered runId approvalId decision) := by
  cases decision with
  | allowRun =>
    refine Moves.trans ?_ (moves_updateRunStatus _ _ _ _)
    refine Moves.trans ?_ (moves_setRunApprovalScope _ _)
    exact moves_of_unchanged rfl rfl rfl rfl rfl
  | allowOnce =>
    refine Moves.trans ?_ (moves_updateRunStatus _ _ _ _)
    exact moves_of_unchanged rfl rfl rfl rfl rfl
  | deny =>
    refine Moves.trans ?_ (moves_cancelRootRun _ _ _ _)
    exact moves_of_unchanged rfl rfl rfl rfl rfl

/-- A decision changes no call and no grant. -/
theorem moves_decideAndConsume {params : DecisionInput} {own : ApprovalRow}
    (hown : state.registry.find params.approvalId = some own) :
    Moves state (state.decideAndConsume params).2 := by
  obtain ⟨-, -, hstate⟩ := state.decideAndConsume_spec hown
  rw [hstate]
  refine ⟨fun _ call hcall => ⟨call, hcall, .refl _ call⟩, fun entry hentry => ?_, le_rfl,
    fun _ _ h => .inl h, fun _ _ h => h⟩
  split
  · exact mem_append_left _ hentry
  · exact hentry

theorem moves_settleAt {place : ℕ} {call : GatedCall} {id : String} {decision : ApprovalDecision}
    (hcall : state.calls[place]? = some call) (hgate : call.gate = .asked id none)
    (hallowed : decision ≠ .deny → (id, decision) ∈ state.approvals) :
    Moves state (state.settleAt place call decision) := by
  refine ⟨fun index call' hcall' => ?_, fun _ h => h, le_rfl, fun _ _ h => .inl h, fun _ _ h => h⟩
  unfold settleAt at hcall' ⊢
  rw [getElem?_set] at hcall'
  split at hcall'
  · next hplace =>
    subst hplace
    split at hcall'
    · cases hcall'
      exact ⟨call, hcall, rfl, rfl, rfl, .inr ⟨id, decision, hgate, settle_of_gate hgate _,
        hallowed⟩⟩
    · cases hcall'
  · exact ⟨call', hcall', .refl _ call'⟩

/-- An accepted decision that allows is among the approvals. -/
theorem mem_approvals_of_accepted {params : DecisionInput} {own : ApprovalRow}
    (hown : state.registry.find params.approvalId = some own)
    (haccepted : (state.decideAndConsume params).1) (hallow : params.decision ≠ .deny) :
    (params.approvalId, params.decision) ∈ (state.decideAndConsume params).2.approvals := by
  obtain ⟨hfirst, -, hstate⟩ := state.decideAndConsume_spec hown
  rw [hfirst] at haccepted
  rw [hstate]
  rw [if_pos (by simp [haccepted, hallow])]
  exact mem_append_cons_self

theorem moves_resolveRequest (hcall : state.calls[place]? = some call)
    (hgate : call.gate = .asked approvalId none) (hown : state.registry.find approvalId = some own)
    (params : DecisionInput) (delivered : String → Bool) :
    Moves state (state.resolveRequest place call approvalId params delivered) := by
  have hdecide := @moves_decideAndConsume state { params with approvalId } own hown
  have haccepted := @mem_approvals_of_accepted state { params with approvalId } own hown
  have hcalls := congrArg DispatcherState.calls
    (@decideAndConsume_spec state { params with approvalId } own hown).2.2
  unfold resolveRequest
  split
  · next middle hmiddle =>
    rw [hmiddle] at hdecide
    exact hdecide
  · next middle hmiddle =>
    rw [hmiddle] at hdecide haccepted hcalls
    have hcall' : middle.calls[place]? = some call := by
      rw [show middle.calls = state.calls from hcalls]
      exact hcall
    exact (hdecide.trans (middle.moves_settleAt hcall' hgate (haccepted rfl))).trans
      (moves_finishApproval _ _ _ _ _ _)

theorem moves_resolvePendingInteraction (hregistered : Registered state) (runId : String)
    (decision : ApprovalDecision) (now : ℤ) (delivered : String → Bool) :
    Moves state (state.resolvePendingInteraction runId decision now delivered) := by
  unfold resolvePendingInteraction
  cases hpending : state.pendingInteractionKinds runId with
  | none => exact .refl state
  | some interaction =>
    obtain ⟨call, hcall, hid, -⟩ := hregistered.pending runId interaction hpending
    obtain ⟨place, hplace⟩ := getElem?_of_mem hcall
    obtain ⟨own, hown, -⟩ := hregistered.row place call _ hplace hid
    have hdecide := @moves_decideAndConsume state
      ⟨interaction.approvalId, decision, some "webui", "user", now⟩ own hown
    dsimp only
    split
    · next middle hmiddle =>
      rw [hmiddle] at hdecide
      exact hdecide
    · next middle hmiddle =>
      rw [hmiddle] at hdecide
      exact hdecide.trans (moves_finishApproval _ _ _ _ _ _)

theorem moves_timeOut (hcall : state.calls[place]? = some call)
    (hgate : call.gate = .asked approvalId none) (now : ℤ) (delivered : String → Bool) :
    Moves state (state.timeOut place call approvalId now delivered) := by
  have hsettled := @moves_settleAt state place call approvalId .deny hcall hgate
    fun hallow => absurd rfl hallow
  obtain ⟨hcalls, happrovals, hgrants, hscopes, hsingles⟩ := hsettled
  have hexpired : Moves state { state.settleAt place call .deny with
      registry := (runCall (.expire approvalId now) state.registry).2 } :=
    ⟨hcalls, happrovals, hgrants, hscopes, hsingles⟩
  unfold timeOut
  exact hexpired.trans (moves_finishApproval _ _ _ _ _ _)

end DispatcherState

/-- The steps that are no moves: a call comes in or goes on, and a single approval is given. -/
def ApprovalStep.addsOrSpends : ApprovalStep → Bool
  | .dispatch _ | .proceed .. | .grantRunSingleApproval _ => true
  | _ => false

theorem moves_act (hregistered : Registered state) (h : act? state step = some next)
    (hstep : step.addsOrSpends = false) : Moves state next := by
  cases step with
  | dispatch | proceed | grantRunSingleApproval => cases hstep
  | resolve place params delivered =>
    obtain ⟨call, hcall, ⟨approvalId, hgate, rfl⟩ | ⟨-, rfl⟩⟩ := resolve_cases h
    · obtain ⟨own, hown, -⟩ := hregistered.row place call approvalId hcall
        (approvalId_of_gate hgate)
      exact state.moves_resolveRequest hcall hgate hown params delivered
    · exact .refl _
  | resolvePending runId decision now delivered =>
    cases h
    exact state.moves_resolvePendingInteraction hregistered runId decision now delivered
  | timeOut place now delivered =>
    obtain ⟨call, approvalId, hcall, hgate, rfl⟩ := timeOut_cases h
    exact state.moves_timeOut hcall hgate now delivered
  | abort signal now =>
    cases h
    exact state.moves_of_sameRuns (state.denies_abortSignal now signal)
      (state.sameRuns_abortSignal now signal).1
  | grantRunApprovalScope runId =>
    cases h
    have hcleared : Moves state { state with
        runSingleApprovalScopes := Function.update state.runSingleApprovalScopes
          (state.getApprovalOwnerKey runId) none } :=
      ⟨fun _ call hcall => ⟨call, hcall, .refl _ call⟩, fun _ h => h, le_rfl,
        fun _ _ h => .inl h, fun _ _ h => scope_of_update h⟩
    exact hcleared.trans (DispatcherState.moves_setRunApprovalScope _ _)
  | createRun run =>
    simp only [act?] at h
    split at h
    · cases h
      exact moves_of_unchanged rfl rfl rfl rfl rfl
    · cases h
  | bindController | clearController =>
    cases h
    exact moves_of_unchanged rfl rfl rfl rfl rfl
  | updateStatus runId status delivered =>
    cases h
    exact state.moves_updateRunStatus runId status delivered
  | cancel runId now delivered =>
    cases h
    exact state.moves_cancelRootRun now delivered runId
  | deleteRuns runIds now =>
    simp only [act?] at h
    split at h
    · cases h
      have hmoves := state.moves_of_sameRuns (state.denies_abortControllers now runIds)
        (state.sameRuns_abortControllers now runIds)
      exact ⟨hmoves.calls, hmoves.approvals, hmoves.grantsMade, hmoves.scopes, hmoves.singles⟩
    · cases h

/-! ## The books are kept -/

theorem GrantBooks.moves (h : GrantBooks state) (hregistered : Registered next)
    (hmoves : Moves state next) : GrantBooks next := by
  have hbefore {call' : GatedCall} (hcall' : call' ∈ next.calls) :
      ∃ call ∈ state.calls, CallMove next.approvals call call' := by
    obtain ⟨place, hplace⟩ := getElem?_of_mem hcall'
    obtain ⟨call, hcall, hmove⟩ := hmoves.calls place call' hplace
    exact ⟨call, mem_of_getElem? hcall, hmove⟩
  have hgrant {call call' : GatedCall} {grant : MemoryGrant}
      (hmove : CallMove next.approvals call call')
      (hgate : call'.gate = .allowRunScope grant ∨ call'.gate = .singleScope grant) :
      call.gate = call'.gate := by
    rcases hmove.gate with hsame | ⟨id, decision, -, hsettled, -⟩
    · exact hsame.symm
    · rcases hgate with hgate | hgate
      · cases hsettled.symm.trans hgate
      · cases hsettled.symm.trans hgate
  refine ⟨hregistered, ?_, ?_, ?_, ?_, ?_, ?_, ?_, ?_⟩
  · intro call' hcall' hrequired hnone
    obtain ⟨call, hcall, hmove⟩ := hbefore hcall'
    rcases hmove.gate with hsame | ⟨id, decision, -, hsettled, -⟩
    · exact h.gated call hcall (hmove.required ▸ hrequired) (hsame.symm.trans hnone)
    · cases hsettled.symm.trans hnone
  · intro call' hcall' hexecuted
    obtain ⟨call, hcall, hmove⟩ := hbefore hcall'
    obtain ⟨hwaits, hdecision⟩ := h.executed call hcall (hmove.executed ▸ hexecuted)
    unfold GatedCall.waits at hwaits ⊢
    rcases hmove.gate with hsame | ⟨id, decision, hasked, -⟩
    · rw [hsame]
      exact ⟨hwaits, hdecision⟩
    · rw [hasked] at hwaits
      cases hwaits
  · intro call' hcall' id decision hgate hallow
    obtain ⟨call, hcall, hmove⟩ := hbefore hcall'
    rcases hmove.gate with hsame | ⟨id', decision', -, hsettled, hallowed⟩
    · exact hmoves.approvals _ (h.allowed call hcall id decision (hsame.symm.trans hgate) hallow)
    · obtain ⟨rfl, hdecision⟩ := CallGate.asked.inj (hgate.symm.trans hsettled)
      cases hdecision
      exact hallowed hallow
  · intro ownerKey grant hforce
    rcases hforce with hscope | hsingle
    · rcases hmoves.scopes ownerKey grant hscope with hold | ⟨howner, hserial, -⟩
      · obtain ⟨howner, hserial⟩ := h.owner ownerKey grant (.inl hold)
        exact ⟨howner, lt_of_lt_of_le hserial hmoves.grantsMade⟩
      · exact ⟨howner, hserial⟩
    · obtain ⟨howner, hserial⟩ :=
        h.owner ownerKey grant (.inr (hmoves.singles ownerKey grant hsingle))
      exact ⟨howner, lt_of_lt_of_le hserial hmoves.grantsMade⟩
  · intro call' hcall' grant hgate
    obtain ⟨call, hcall, hmove⟩ := hbefore hcall'
    have hsame := hgrant hmove hgate
    rw [← hsame] at hgate
    obtain ⟨howner, hserial⟩ := h.callOwner call hcall grant hgate
    exact ⟨howner.trans hmove.owner.symm, lt_of_lt_of_le hserial hmoves.grantsMade⟩
  · intro call' hcall' spent ownerKey grant hgate hsingle
    obtain ⟨call, hcall, hmove⟩ := hbefore hcall'
    have hsame := hgrant hmove (.inr hgate)
    exact h.unspent call hcall spent ownerKey grant (hsame.trans hgate)
      (hmoves.singles ownerKey grant hsingle)
  · intro first second grant other hfirst hsecond hserial
    exact h.single first second grant other (hmoves.singles first grant hfirst)
      (hmoves.singles second other hsecond) hserial
  · intro first second call' other' grant spent hcall' hother' hgate hspent hserial
    obtain ⟨call, hcall, hmove⟩ := hmoves.calls first call' hcall'
    obtain ⟨other, hother, hmove'⟩ := hmoves.calls second other' hother'
    exact h.spentOnce first second call other grant spent hcall hother
      ((hgrant hmove (.inr hgate)).trans hgate) ((hgrant hmove' (.inr hspent)).trans hspent)
      hserial

/-- A call that goes on is executed only behind a gate that has let it through. -/
theorem GrantBooks.proceed (h : GrantBooks state) (hcall : state.calls[place]? = some call)
    (hwaits : call.waits = false) (findings : PolicyFindings) (withinRate : Bool)
    (hregistered : Registered { state with
      calls := state.calls.set place (call.proceed findings withinRate) }) :
    GrantBooks { state with
      calls := state.calls.set place (call.proceed findings withinRate) } := by
  have hmem : call ∈ state.calls := mem_of_getElem? hcall
  -- Every call of the new list is one of the old list but for what it has executed.
  have hold {index : ℕ} {call' : GatedCall}
      (hcall' : (state.calls.set place (call.proceed findings withinRate))[index]? = some call') :
      ∃ before, state.calls[index]? = some before ∧ call'.gate = before.gate ∧
        call'.owner = before.owner ∧ call'.required = before.required := by
    rw [getElem?_set] at hcall'
    split at hcall'
    · next hplace =>
      subst hplace
      split at hcall'
      · cases hcall'
        exact ⟨call, hcall, rfl, rfl, rfl⟩
      · cases hcall'
    · exact ⟨call', hcall', rfl, rfl, rfl⟩
  have hbefore {call' : GatedCall}
      (hcall' : call' ∈ state.calls.set place (call.proceed findings withinRate)) :
      ∃ before ∈ state.calls, call'.gate = before.gate ∧ call'.owner = before.owner ∧
        call'.required = before.required := by
    obtain ⟨index, hindex⟩ := getElem?_of_mem hcall'
    obtain ⟨before, hbefore, hsame⟩ := hold hindex
    exact ⟨before, mem_of_getElem? hbefore, hsame⟩
  refine ⟨hregistered, ?_, ?_, ?_, h.owner, ?_, ?_, h.single, ?_⟩
  · intro call' hcall' hrequired
    obtain ⟨before, hbefore, hgate, -, hsame⟩ := hbefore hcall'
    rw [hgate]
    exact h.gated before hbefore (hsame ▸ hrequired)
  · intro call' hcall' hexecuted
    rcases mem_or_eq_of_mem_set hcall' with hother | rfl
    · exact h.executed call' hother hexecuted
    · refine ⟨hwaits, fun hdeny => ?_⟩
      have hgate : (call.proceed findings withinRate).gate = call.gate := rfl
      rw [hgate] at hdeny
      have hruns : executes findings withinRate call := Option.some.inj hexecuted
      unfold executes at hruns
      rw [hdeny] at hruns
      simp at hruns
  · intro call' hcall' id decision hgate hallow
    obtain ⟨before, hbefore, hsame, -⟩ := hbefore hcall'
    exact h.allowed before hbefore id decision (hsame ▸ hgate) hallow
  · intro call' hcall' grant hgate
    obtain ⟨before, hbefore, hsame, howner, -⟩ := hbefore hcall'
    rw [howner]
    exact h.callOwner before hbefore grant (hsame ▸ hgate)
  · intro call' hcall' spent ownerKey grant hgate
    obtain ⟨before, hbefore, hsame, -⟩ := hbefore hcall'
    exact h.unspent before hbefore spent ownerKey grant (hsame ▸ hgate)
  · intro first second call' other' grant spent hcall' hother' hgate hspent
    obtain ⟨before, hbefore, hsame, -⟩ := hold hcall'
    obtain ⟨other, hother, hsame', -⟩ := hold hother'
    exact h.spentOnce first second before other grant spent hbefore hother (hsame ▸ hgate)
      (hsame' ▸ hspent)

/-- The grants that a single approval leaves. -/
theorem grantRunSingleApproval_cases (state : DispatcherState) (runId : String) :
    state.grantRunSingleApproval runId = state ∧
        (∃ grant, InForce state (state.getApprovalOwnerKey runId) grant) ∨
      state.grantRunSingleApproval runId = { state with
        runSingleApprovalScopes := Function.update state.runSingleApprovalScopes
          (state.getApprovalOwnerKey runId)
          (some (state.newGrant (state.getApprovalOwnerKey runId)))
        grantsMade := state.grantsMade + 1 } := by
  unfold DispatcherState.grantRunSingleApproval
  dsimp only
  split
  · next hscope =>
    obtain ⟨grant, hgrant⟩ := isSome_iff_exists.mp hscope
    exact .inl ⟨rfl, grant, .inl hgrant⟩
  · split
    · next hsingle =>
      obtain ⟨grant, hgrant⟩ := isSome_iff_exists.mp hsingle
      exact .inl ⟨rfl, grant, .inr hgrant⟩
    · exact .inr rfl

theorem GrantBooks.single_grant (h : GrantBooks state) (ownerKey : String)
    (hregistered : Registered { state with
      runSingleApprovalScopes :=
        Function.update state.runSingleApprovalScopes ownerKey (some (state.newGrant ownerKey))
      grantsMade := state.grantsMade + 1 }) :
    GrantBooks { state with
      runSingleApprovalScopes :=
        Function.update state.runSingleApprovalScopes ownerKey (some (state.newGrant ownerKey))
      grantsMade := state.grantsMade + 1 } := by
  have hcases {other : String} {grant : MemoryGrant}
      (hsingle : Function.update state.runSingleApprovalScopes ownerKey
        (some (state.newGrant ownerKey)) other = some grant) :
      state.runSingleApprovalScopes other = some grant ∨
        other = ownerKey ∧ grant = state.newGrant ownerKey := by
    by_cases hother : other = ownerKey
    · rw [hother, update_self] at hsingle
      exact .inr ⟨hother, (Option.some.inj hsingle).symm⟩
    · rw [update_of_ne hother] at hsingle
      exact .inl hsingle
  have hold {other : String} {grant : MemoryGrant}
      (hsingle : state.runSingleApprovalScopes other = some grant) :
      grant.serial < state.grantsMade := (h.owner other grant (.inr hsingle)).2
  refine ⟨hregistered, h.gated, h.executed, h.allowed, ?_, ?_, ?_, ?_, h.spentOnce⟩
  · rintro other grant (hscope | hsingle)
    · obtain ⟨howner, hserial⟩ := h.owner other grant (.inl hscope)
      exact ⟨howner, hserial.trans (Nat.lt_succ_self _)⟩
    · rcases hcases hsingle with hbefore | ⟨rfl, rfl⟩
      · obtain ⟨howner, hserial⟩ := h.owner other grant (.inr hbefore)
        exact ⟨howner, hserial.trans (Nat.lt_succ_self _)⟩
      · exact ⟨rfl, Nat.lt_succ_self _⟩
  · intro call hcall grant hgate
    obtain ⟨howner, hserial⟩ := h.callOwner call hcall grant hgate
    exact ⟨howner, hserial.trans (Nat.lt_succ_self _)⟩
  · intro call hcall spent other grant hgate hsingle
    rcases hcases hsingle with hbefore | ⟨rfl, rfl⟩
    · exact h.unspent call hcall spent other grant hgate hbefore
    · exact (h.callOwner call hcall spent (.inr hgate)).2.ne'
  · intro first second grant other hfirst hsecond hserial
    rcases hcases hfirst with hbefore | ⟨rfl, rfl⟩
    · rcases hcases hsecond with hbefore' | ⟨rfl, rfl⟩
      · exact h.single first second grant other hbefore hbefore' hserial
      · exact absurd hserial (hold hbefore).ne
    · rcases hcases hsecond with hbefore' | ⟨rfl, -⟩
      · exact absurd hserial.symm (hold hbefore').ne
      · rfl

/-- A call that comes in, at a gate that the books allow. -/
theorem GrantBooks.add {state next : DispatcherState} (h : GrantBooks state)
    (hregistered : Registered next) {input : DispatchInput} {gate : CallGate}
    (hcalls : next.calls = state.calls ++ [state.newCall input gate])
    (happrovals : next.approvals = state.approvals)
    (hgrants : next.grantsMade = state.grantsMade)
    (hscopes : ∀ ownerKey grant, next.runApprovalScopes ownerKey = some grant →
      state.runApprovalScopes ownerKey = some grant)
    (hsingles : ∀ ownerKey grant, next.runSingleApprovalScopes ownerKey = some grant →
      state.runSingleApprovalScopes ownerKey = some grant)
    (hgated : shouldRequireApproval input → gate ≠ .notRequired)
    (hunsettled : ∀ id decision, gate ≠ .asked id (some decision))
    (hforce : ∀ grant, gate = .allowRunScope grant ∨ gate = .singleScope grant →
      InForce state (state.getApprovalOwnerKey input.runId) grant)
    (hspent : ∀ grant, gate = .singleScope grant →
      state.runSingleApprovalScopes (state.getApprovalOwnerKey input.runId) = some grant ∧
        next.runSingleApprovalScopes (state.getApprovalOwnerKey input.runId) = none) :
    GrantBooks next := by
  have hcases {call : GatedCall} (hcall : call ∈ next.calls) :
      call ∈ state.calls ∨ call = state.newCall input gate := by
    rw [hcalls, mem_append, mem_singleton] at hcall
    exact hcall
  have hplaces {place : ℕ} {call : GatedCall} (hcall : next.calls[place]? = some call) :
      state.calls[place]? = some call ∨
        place = state.calls.length ∧ call = state.newCall input gate := by
    rw [hcalls, getElem?_append] at hcall
    split at hcall
    · exact .inl hcall
    · next hlength =>
      obtain ⟨hindex, hsame⟩ := List.getElem?_eq_some_iff.mp hcall
      rw [length_singleton, Nat.lt_one_iff] at hindex
      refine .inr ⟨by omega, ?_⟩
      rw [← hsame]
      simp [hindex]
  refine ⟨hregistered, ?_, ?_, ?_, ?_, ?_, ?_, ?_, ?_⟩
  · intro call hcall hrequired
    rcases hcases hcall with hbefore | rfl
    · exact h.gated call hbefore hrequired
    · exact hgated hrequired
  · intro call hcall hexecuted
    rcases hcases hcall with hbefore | rfl
    · exact h.executed call hbefore hexecuted
    · cases hexecuted
  · intro call hcall id decision hgate hallow
    rw [happrovals]
    rcases hcases hcall with hbefore | rfl
    · exact h.allowed call hbefore id decision hgate hallow
    · exact absurd hgate (hunsettled id decision)
  · rintro ownerKey grant (hscope | hsingle)
    · rw [hgrants]
      exact h.owner ownerKey grant (.inl (hscopes ownerKey grant hscope))
    · rw [hgrants]
      exact h.owner ownerKey grant (.inr (hsingles ownerKey grant hsingle))
  · intro call hcall grant hgate
    rw [hgrants]
    rcases hcases hcall with hbefore | rfl
    · exact h.callOwner call hbefore grant hgate
    · exact h.owner _ grant (hforce grant hgate)
  · intro call hcall spent ownerKey grant hgate hsingle
    rcases hcases hcall with hbefore | rfl
    · exact h.unspent call hbefore spent ownerKey grant hgate (hsingles ownerKey grant hsingle)
    · intro hserial
      obtain ⟨hown, hgone⟩ := hspent spent hgate
      obtain rfl := h.single ownerKey _ grant spent (hsingles ownerKey grant hsingle) hown hserial
      exact some_ne_none grant (hsingle.symm.trans hgone)
  · intro first second grant other hfirst hsecond hserial
    exact h.single first second grant other (hsingles first grant hfirst)
      (hsingles second other hsecond) hserial
  · intro first second call other grant spent hcall hother hgate hspentGate hserial
    obtain hbefore | ⟨hfirst, rfl⟩ := hplaces hcall
    · have hmem : call ∈ state.calls := mem_of_getElem? hbefore
      obtain hbefore' | ⟨-, rfl⟩ := hplaces hother
      · exact h.spentOnce first second call other grant spent hbefore hbefore' hgate hspentGate
          hserial
      · exact absurd hserial.symm
          (h.unspent call hmem grant _ spent hgate (hspent spent hspentGate).1)
    · obtain hbefore' | ⟨hsecond, -⟩ := hplaces hother
      · have hmem : other ∈ state.calls := mem_of_getElem? hbefore'
        exact absurd hserial (h.unspent other hmem spent _ grant hspentGate (hspent grant hgate).1)
      · rw [hfirst, hsecond]

/-! ## Grants and the runs of their group -/

/-- No grant is in force of a group whose runs have all ended. -/
def Current (state : DispatcherState) : Prop :=
  ∀ ownerKey grant, InForce state ownerKey grant → state.runs.hasEnded ownerKey = false

theorem current_congr (hruns : next.runs = state.runs)
    (hscopes : next.runApprovalScopes = state.runApprovalScopes)
    (hsingles : next.runSingleApprovalScopes = state.runSingleApprovalScopes) :
    Current next ↔ Current state := by
  unfold Current InForce
  rw [hruns, hscopes, hsingles]

theorem DispatcherState.SameRuns.current_iff (h : state.SameRuns next) :
    Current next ↔ Current state :=
  current_congr h.runs h.runApprovalScopes h.runSingleApprovalScopes

namespace DispatcherState

variable {state : DispatcherState}

/-- The event of a run that ends clears the grants of its group once the group has ended. -/
theorem current_clear {runId ownerKey : String}
    (howner : state.getApprovalOwnerKey runId = ownerKey)
    (h : ∀ other grant, InForce state other grant → other ≠ ownerKey →
      state.runs.hasEnded other = false) :
    Current (state.clearApprovalScopesForCompletedRun runId) := by
  unfold clearApprovalScopesForCompletedRun
  dsimp only
  rw [howner]
  split
  · next hactive =>
    intro other grant hforce
    by_cases hother : other = ownerKey
    · rw [hother]
      unfold RootRunTable.hasEnded
      rw [hactive, Bool.not_true, Bool.and_false]
    · exact h other grant hforce hother
  · intro other grant hforce
    have hother : other ≠ ownerKey := by
      rintro rfl
      rcases hforce with hscope | hsingle
      · dsimp only at hscope
        rw [update_self] at hscope
        exact some_ne_none grant hscope.symm
      · dsimp only at hsingle
        rw [update_self] at hsingle
        exact some_ne_none grant hsingle.symm
    exact h other grant (hforce.imp scope_of_update scope_of_update) hother

variable (runId : String) (delivered : String → Bool)

section

variable (h : Current state)
include h

/-- A new status keeps the grants current just where it does not interrupt the last active run
of a group with a grant. -/
theorem current_updateRunStatus_iff (runId : String) (status : RunStatus)
    (delivered : String → Bool) :
    Current (state.updateRunStatus runId status delivered) ↔
      GrantsEndWithGroup state (.updateStatus runId status delivered) := by
  unfold updateRunStatus
  obtain ⟨hnone, hlocked⟩ | ⟨run, hrun, hallowed, hsome⟩ :=
    state.runs.updateRunStatus_cases runId status (delivered runId)
  · rw [hnone]
    refine iff_of_true h fun run hrun hactive => ?_
    cases (hlocked run hrun).symm.trans hactive
  · rw [hsome]
    dsimp only
    obtain ⟨hmem, hid⟩ := RootRunTable.getRootRun_eq_some_iff.mp hrun
    generalize hnext : finalRunStatus run.status status (delivered runId) = next at hallowed
    have hown {member : RootRunRow} (hmember : member ∈ state.runs.rows)
        (hmemberId : member.id = runId) : member = run :=
      inj_on_of_nodup_map state.runs.primaryKey hmember hmem (hmemberId.trans hid.symm)
    -- A group that is not that of the run ends as little as before.
    have hothers {ownerKey : String} (hother : ownerKey ≠ run.requestGroupId) :
        (state.runs.setStatus runId next).hasEnded ownerKey = state.runs.hasEnded ownerKey := by
      refine RootRunTable.hasEnded_setStatus_of_same fun member hmember hmemberId hgroup => ?_
      rw [hown hmember hmemberId] at hgroup
      exact absurd hgroup.symm hother
    have hcondition : GrantsEndWithGroup state (.updateStatus runId status delivered) ↔
        (isTerminalRunStatus run.status = false → next = .interrupted →
          (∃ other ∈ state.runs.rows, other.id ≠ runId ∧ other.requestGroupId = run.requestGroupId ∧
              isTerminalRunStatus other.status = false) ∨
          ∀ grant, ¬ InForce state run.requestGroupId grant) := by
      constructor
      · intro hall hactive hinterrupted
        exact hall run hrun hactive (hnext.trans hinterrupted)
      · intro hone found hfound hactive hinterrupted
        cases hrun.symm.trans hfound
        exact hone hactive (hnext.symm.trans hinterrupted)
    rw [hcondition]
    cases hevent : hasEndEvent next with
    | true =>
      rw [if_pos rfl]
      refine iff_of_true ?_ fun _ hinterrupted => ?_
      · refine @current_clear { state with runs := state.runs.setStatus runId next } runId
          run.requestGroupId ?_ fun other grant hforce hother => ?_
        · unfold getApprovalOwnerKey
          rw [RootRunTable.getRootRun_setStatus hrun]
          rfl
        · exact (hothers hother).trans (h other grant hforce)
      · rw [hinterrupted] at hevent
        cases hevent
    | false =>
      rw [if_neg Bool.false_ne_true]
      by_cases hsame : isTerminalRunStatus next = isTerminalRunStatus run.status
      · refine iff_of_true (fun ownerKey grant hforce => ?_) fun hactive hinterrupted => ?_
        · refine (RootRunTable.hasEnded_setStatus_of_same
            fun member hmember hmemberId _ => ?_).trans (h ownerKey grant hforce)
          rw [hown hmember hmemberId]
          exact hsame
        · rw [hinterrupted, hactive] at hsame
          cases hsame
      · -- The run was active and is interrupted.
        have hactive : isTerminalRunStatus run.status = false := by
          rcases hallowed with heq | hactive
          · exact absurd (by rw [heq]) hsame
          · exact hactive
        have hinterrupted : next = .interrupted := by
          rw [hactive] at hsame
          cases next with
          | interrupted => rfl
          | completed => cases hevent
          | failed => cases hevent
          | cancelled => cases hevent
          | queued => exact absurd rfl hsame
          | running => exact absurd rfl hsame
          | awaitingApproval => exact absurd rfl hsame
          | awaitingUser => exact absurd rfl hsame
        simp only [hactive, hinterrupted, true_implies]
        have hgroup : (state.runs.setStatus runId .interrupted).hasEnded run.requestGroupId =
            false ↔ ∃ other ∈ state.runs.rows, other.id ≠ runId ∧
              other.requestGroupId = run.requestGroupId ∧
                isTerminalRunStatus other.status = false := by
          have hany : (state.runs.rows.any fun other =>
              other.requestGroupId = run.requestGroupId) :=
            any_eq_true.mpr ⟨run, hmem, decide_eq_true rfl⟩
          rw [RootRunTable.hasEnded, RootRunTable.hasRuns_setStatus, hany, Bool.true_and,
            Bool.not_eq_false', RootRunTable.hasActive_setStatus_iff]
          refine exists_congr fun other => and_congr_right fun _ => ?_
          constructor
          · rintro ⟨hsameGroup, hotherActive⟩
            split at hotherActive
            · cases hotherActive
            · next hne => exact ⟨hne, hsameGroup, hotherActive⟩
          · rintro ⟨hne, hsameGroup, hotherActive⟩
            exact ⟨hsameGroup, by rwa [if_neg hne]⟩
        rw [← hgroup]
        rw [hinterrupted] at hothers
        constructor
        · intro hcurrent
          cases hended : (state.runs.setStatus runId .interrupted).hasEnded
              run.requestGroupId with
          | false => exact .inl rfl
          | true =>
            refine .inr fun grant hforce => ?_
            cases (hcurrent _ grant hforce).symm.trans hended
        · intro hor ownerKey grant hforce
          by_cases hother : ownerKey = run.requestGroupId
          · rw [hother] at hforce ⊢
            rcases hor with hactive' | hnone
            · exact hactive'
            · exact absurd hforce (hnone grant)
          · exact (hothers hother).trans (h ownerKey grant hforce)

/-- A status that is not that of an interruption keeps the grants current. -/
theorem current_updateRunStatus (runId : String) {status : RunStatus}
    (delivered : String → Bool) (hstatus : status ≠ .interrupted) :
    Current (state.updateRunStatus runId status delivered) := by
  refine (current_updateRunStatus_iff h runId status delivered).mpr fun run _ _ hfinal => ?_
  unfold finalRunStatus at hfinal
  cases status with
  | interrupted => exact absurd rfl hstatus
  | failed | cancelled =>
    dsimp only at hfinal
    split at hfinal <;> exact absurd hfinal (by decide)
  | queued | running | awaitingApproval | awaitingUser | completed =>
        exact RunStatus.noConfusion hfinal

theorem current_cancelRootRun (now : ℤ) (delivered : String → Bool)
    (runId : String) : Current (state.cancelRootRun now delivered runId) := by
  unfold cancelRootRun
  generalize state.cancellationScope runId = runIds
  induction runIds generalizing state with
  | nil => exact h
  | cons first rest ih =>
    rw [foldl_cons]
    refine ih (current_updateRunStatus ?_ first delivered (by decide))
    exact (state.sameRuns_abortController now first).current_iff.mpr h

/-- A new grant for the rest of a run is current just where its group has not ended. -/
theorem current_setRunApprovalScope_iff (ownerKey : String) :
    Current (state.setRunApprovalScope ownerKey) ↔ state.runs.hasEnded ownerKey = false := by
  unfold setRunApprovalScope
  constructor
  · intro hcurrent
    refine hcurrent ownerKey (state.newGrant ownerKey) (.inl ?_)
    dsimp only
    rw [update_self]
  · intro hgroup other grant hforce
    by_cases hother : other = ownerKey
    · rw [hother]
      exact hgroup
    · refine h other grant (hforce.imp (fun hscope => ?_) fun hsingle => hsingle)
      dsimp only at hscope
      rwa [update_of_ne hother] at hscope

theorem current_finishApproval_iff (now : ℤ) (delivered : String → Bool)
    (runId approvalId : String) (decision : ApprovalDecision) :
    Current (state.finishApproval now delivered runId approvalId decision) ↔
      (decision = .allowRun → state.runs.hasEnded (state.getApprovalOwnerKey runId) = false) := by
  unfold finishApproval
  cases decision with
  | allowOnce =>
    refine iff_of_true ?_ fun hallow => ApprovalDecision.noConfusion hallow
    refine current_updateRunStatus ?_ runId delivered fun hstatus => RunStatus.noConfusion hstatus
    exact (current_congr rfl rfl rfl).mpr h
  | deny =>
    refine iff_of_true ?_ fun hallow => ApprovalDecision.noConfusion hallow
    refine current_cancelRootRun ?_ now delivered runId
    exact (current_congr rfl rfl rfl).mpr h
  | allowRun =>
    simp only [true_implies]
    generalize hmiddle : ({ state with
      pendingInteractionKinds := Function.update state.pendingInteractionKinds runId none
      } : DispatcherState) = middle
    have hruns : middle.runs = state.runs := by rw [← hmiddle]
    have hcurrent : Current middle := by
      rw [← hmiddle]
      exact (current_congr rfl rfl rfl).mpr h
    have hscope := current_setRunApprovalScope_iff hcurrent (state.getApprovalOwnerKey runId)
    rw [hruns] at hscope
    rw [← hscope]
    constructor
    · intro hafter
      rw [hscope]
      -- Where the group has ended, the run is unknown or its status is locked.
      cases hended : state.runs.hasEnded (state.getApprovalOwnerKey runId) with
      | false => rfl
      | true =>
        have hlocked : state.runs.updateRunStatus runId .running (delivered runId) = none := by
          obtain ⟨hnone, -⟩ | ⟨run, hrun, hallowed, -⟩ :=
            state.runs.updateRunStatus_cases runId .running (delivered runId)
          · exact hnone
          · have howner : state.getApprovalOwnerKey runId = run.requestGroupId := by
              unfold getApprovalOwnerKey
              rw [hrun]
              rfl
            have hterminal := (RootRunTable.hasEnded_iff.mp hended).2 run
              (RootRunTable.getRootRun_eq_some_iff.mp hrun).1 howner.symm
            rcases hallowed with hrunning | hactive
            · rw [hrunning] at hterminal
              cases hterminal
            · cases hactive.symm.trans hterminal
        unfold updateRunStatus at hafter
        rw [show (middle.setRunApprovalScope (state.getApprovalOwnerKey runId)).runs =
          state.runs from hruns, hlocked] at hafter
        exact (hended.symm.trans (hscope.mp hafter))
    · intro hbefore
      exact current_updateRunStatus hbefore runId delivered (by decide)

end

/-- A decision that is accepted changes no run and no grant. -/
theorem current_decideAndConsume {params : DecisionInput} {own : ApprovalRow}
    (hown : state.registry.find params.approvalId = some own) :
    (state.decideAndConsume params).2.runs = state.runs ∧
      (Current (state.decideAndConsume params).2 ↔ Current state) := by
  obtain ⟨-, -, hstate⟩ := state.decideAndConsume_spec hown
  rw [hstate]
  exact ⟨rfl, current_congr rfl rfl rfl⟩

theorem current_resolveRequest_iff (h : Current state)
    (hown : state.registry.find approvalId = some own) (params : DecisionInput)
    (delivered : String → Bool) :
    Current (state.resolveRequest place call approvalId params delivered) ↔
      (AllowsRun state approvalId params.decision params.now →
        state.runs.hasEnded (state.getApprovalOwnerKey call.runId) = false) := by
  obtain ⟨hruns, hcurrent⟩ := @current_decideAndConsume state { params with approvalId } own hown
  obtain ⟨hfirst, -⟩ := @decideAndConsume_spec state { params with approvalId } own hown
  have hallows : AllowsRun state approvalId params.decision params.now ↔
      params.decision = .allowRun ∧ isOpen own params.now := by
    refine and_congr_right fun _ => ⟨fun ⟨row, hrow, hopen⟩ => ?_, fun hopen => ⟨own, hown, hopen⟩⟩
    cases hown.symm.trans hrow
    exact hopen
  rw [hallows]
  unfold resolveRequest
  split
  · next middle hmiddle =>
    rw [hmiddle] at hcurrent hfirst
    refine iff_of_true (hcurrent.mpr h) fun hopen => ?_
    cases hfirst.trans hopen.2
  · next middle hmiddle =>
    rw [hmiddle] at hcurrent hfirst hruns
    have hsettled : Current (middle.settleAt place call params.decision) :=
      (current_congr rfl rfl rfl).mpr (hcurrent.mpr h)
    have hsameRuns : (middle.settleAt place call params.decision).runs = state.runs := hruns
    rw [current_finishApproval_iff hsettled]
    unfold getApprovalOwnerKey
    rw [hsameRuns, ← hfirst]
    simp only [and_true]

theorem current_resolvePending_iff (h : Current state) (hregistered : Registered state)
    (runId : String) (decision : ApprovalDecision) (now : ℤ) (delivered : String → Bool) :
    Current (state.resolvePendingInteraction runId decision now delivered) ↔
      GrantsEndWithGroup state (.resolvePending runId decision now delivered) := by
  unfold resolvePendingInteraction
  cases hpending : state.pendingInteractionKinds runId with
  | none =>
    refine iff_of_true h fun interaction hsome => ?_
    cases hsome.symm.trans hpending
  | some interaction =>
    obtain ⟨call, hcall, hid, -⟩ := hregistered.pending runId interaction hpending
    obtain ⟨place, hplace⟩ := getElem?_of_mem hcall
    obtain ⟨own, hown, -⟩ := hregistered.row place call _ hplace hid
    have hcondition : GrantsEndWithGroup state (.resolvePending runId decision now delivered) ↔
        (decision = .allowRun ∧ isOpen own now →
          state.runs.hasEnded (state.getApprovalOwnerKey runId) = false) := by
      constructor
      · rintro hall ⟨hallow, hopen⟩
        exact hall interaction hpending ⟨hallow, own, hown, hopen⟩
      · rintro hone other hother ⟨hallow, row, hrow, hopen⟩
        cases hpending.symm.trans hother
        cases hown.symm.trans hrow
        exact hone ⟨hallow, hopen⟩
    obtain ⟨hruns, hcurrent⟩ := @current_decideAndConsume state
      ⟨interaction.approvalId, decision, some "webui", "user", now⟩ own hown
    obtain ⟨hfirst, -⟩ := @decideAndConsume_spec state
      ⟨interaction.approvalId, decision, some "webui", "user", now⟩ own hown
    rw [hcondition]
    dsimp only
    split
    · next middle hmiddle =>
      rw [hmiddle] at hcurrent hfirst
      refine iff_of_true (hcurrent.mpr h) fun hopen => ?_
      cases hfirst.trans hopen.2
    · next middle hmiddle =>
      rw [hmiddle] at hcurrent hfirst hruns
      rw [current_finishApproval_iff (hcurrent.mpr h)]
      unfold getApprovalOwnerKey
      rw [hruns, ← hfirst]
      simp only [and_true]

end DispatcherState

/-! ## Steps -/

/-- A step keeps the grants current just where it meets the condition. -/
theorem current_act_iff (hregistered : Registered state) (h : Current state)
    (hnext : act? state step = some next) : Current next ↔ GrantsEndWithGroup state step := by
  cases step with
  | dispatch input =>
    simp only [act?] at hnext
    split at hnext
    · cases hnext
    · cases hnext
      refine iff_of_true ?_ trivial
      obtain ⟨-, hnext⟩ | ⟨grant, -, -, hnext⟩ | ⟨grant, -, -, hnext⟩ | ⟨-, -, -, hnext⟩ :=
        state.dispatch_cases input
      · rw [hnext]
        exact (current_congr rfl rfl rfl).mpr h
      · rw [hnext]
        exact (current_congr rfl rfl rfl).mpr h
      · rw [hnext]
        intro ownerKey grant hforce
        exact h ownerKey grant (hforce.imp (fun hscope => hscope) scope_of_update)
      · rw [hnext]
        unfold DispatcherState.askRegistry
        refine DispatcherState.current_updateRunStatus ?_ input.runId _ ?_
        · exact (current_congr rfl rfl rfl).mpr h
        · cases approvalKind input.toolName <;> decide
  | proceed place findings withinRate =>
    obtain ⟨call, -, -, -, rfl⟩ := proceed_cases hnext
    exact iff_of_true ((current_congr rfl rfl rfl).mpr h) trivial
  | resolve place params delivered =>
    obtain ⟨call, hcall, ⟨approvalId, hgate, rfl⟩ | ⟨hwaits, rfl⟩⟩ := resolve_cases hnext
    · obtain ⟨own, hown, -⟩ := hregistered.row place call approvalId hcall
        (approvalId_of_gate hgate)
      rw [DispatcherState.current_resolveRequest_iff h hown params delivered]
      constructor
      · intro hone other id hother hotherGate
        cases hcall.symm.trans hother
        obtain ⟨rfl, -⟩ := CallGate.asked.inj (hgate.symm.trans hotherGate)
        exact hone
      · intro hall
        exact hall call approvalId hcall hgate
    · refine iff_of_true h fun other id hother hotherGate => ?_
      cases hcall.symm.trans hother
      unfold GatedCall.waits CallGate.waits at hwaits
      rw [hotherGate] at hwaits
      cases hwaits
  | resolvePending runId decision now delivered =>
    cases hnext
    exact DispatcherState.current_resolvePending_iff h hregistered runId decision now delivered
  | timeOut place now delivered =>
    obtain ⟨call, approvalId, hcall, hgate, rfl⟩ := timeOut_cases hnext
    refine iff_of_true ?_ trivial
    refine (DispatcherState.current_finishApproval_iff ?_ now delivered call.runId approvalId
      .deny).mpr fun hallow => ApprovalDecision.noConfusion hallow
    exact (current_congr rfl rfl rfl).mpr h
  | abort signal now =>
    cases hnext
    exact iff_of_true ((state.sameRuns_abortSignal now signal).1.current_iff.mpr h) trivial
  | grantRunApprovalScope runId =>
    cases hnext
    have hcleared : Current { state with
        runSingleApprovalScopes := Function.update state.runSingleApprovalScopes
          (state.getApprovalOwnerKey runId) none } := by
      intro ownerKey grant hforce
      exact h ownerKey grant (hforce.imp (fun hscope => hscope) scope_of_update)
    exact DispatcherState.current_setRunApprovalScope_iff hcleared _
  | grantRunSingleApproval runId =>
    cases hnext
    obtain ⟨hsame, grant, hforce⟩ | hadded := grantRunSingleApproval_cases state runId
    · rw [hsame]
      exact iff_of_true h (h _ grant hforce)
    · rw [hadded]
      constructor
      · intro hcurrent
        refine hcurrent _ (state.newGrant (state.getApprovalOwnerKey runId)) (.inr ?_)
        dsimp only
        rw [update_self]
      · intro hgroup ownerKey grant hforce
        by_cases hother : ownerKey = state.getApprovalOwnerKey runId
        · rw [hother]
          exact hgroup
        · refine h ownerKey grant (hforce.imp (fun hscope => hscope) fun hsingle => ?_)
          dsimp only at hsingle
          rwa [update_of_ne hother] at hsingle
  | createRun run =>
    simp only [act?] at hnext
    split at hnext
    · next habsent =>
      cases hnext
      exact iff_of_true (fun ownerKey grant hforce =>
        RootRunTable.hasEnded_createRootRun habsent (h ownerKey grant hforce)) trivial
    · cases hnext
  | bindController | clearController =>
    cases hnext
    exact iff_of_true ((current_congr rfl rfl rfl).mpr h) trivial
  | updateStatus runId status delivered =>
    cases hnext
    exact DispatcherState.current_updateRunStatus_iff h runId status delivered
  | cancel runId now delivered =>
    cases hnext
    exact iff_of_true (DispatcherState.current_cancelRootRun h now delivered runId) trivial
  | deleteRuns runIds now =>
    simp only [act?] at hnext
    split at hnext
    · next hended =>
      cases hnext
      obtain ⟨hruns, hscopes, hsingles, -⟩ := state.sameRuns_abortControllers now runIds
      refine iff_of_true (fun ownerKey grant hforce => ?_) trivial
      rw [hruns]
      refine RootRunTable.hasEnded_deleteRuns hended (h ownerKey grant ?_)
      unfold InForce at hforce ⊢
      rwa [hscopes, hsingles] at hforce
    · cases hnext

/-- A call comes in without a change of what the books say. -/
theorem GrantBooks.dispatch (h : GrantBooks state)
    (habsent : state.registry.find input.approvalId = none) :
    GrantBooks (state.dispatch input) := by
  have hregistered := DispatcherState.registered_dispatch h.registered habsent
  obtain ⟨hnone, hnext⟩ | ⟨grant, -, hscope, hnext⟩ | ⟨grant, -, hsingle, hnext⟩ |
      ⟨-, -, -, hnext⟩ := state.dispatch_cases input
  · rw [hnext] at hregistered ⊢
    refine @GrantBooks.add state _ h hregistered input .notRequired rfl rfl rfl
      (fun _ _ h => h) (fun _ _ h => h)
      (fun hrequired => absurd (hnone.symm.trans hrequired) Bool.false_ne_true)
      (fun id decision hgate => CallGate.noConfusion hgate) (fun grant hgate => ?_)
      fun grant hgate => CallGate.noConfusion hgate
    rcases hgate with hgate | hgate <;> exact CallGate.noConfusion hgate
  · rw [hnext] at hregistered ⊢
    refine @GrantBooks.add state _ h hregistered input (.allowRunScope grant) rfl rfl rfl
      (fun _ _ h => h) (fun _ _ h => h) (fun _ hgate => CallGate.noConfusion hgate)
      (fun id decision hgate => CallGate.noConfusion hgate) (fun other hgate => ?_)
      fun other hgate => CallGate.noConfusion hgate
    rcases hgate with hgate | hgate
    · rw [← CallGate.allowRunScope.inj hgate]
      exact .inl hscope
    · exact CallGate.noConfusion hgate
  · rw [hnext] at hregistered ⊢
    refine @GrantBooks.add state _ h hregistered input (.singleScope grant) rfl rfl rfl
      (fun _ _ h => h) (fun _ _ h => scope_of_update h) (fun _ hgate => CallGate.noConfusion hgate)
      (fun id decision hgate => CallGate.noConfusion hgate) (fun other hgate => ?_)
      fun other hgate => ?_
    · rcases hgate with hgate | hgate
      · exact CallGate.noConfusion hgate
      · rw [← CallGate.singleScope.inj hgate]
        exact .inr hsingle
    · rw [← CallGate.singleScope.inj hgate]
      dsimp only
      rw [update_self]
      exact ⟨hsingle, rfl⟩
  · rw [hnext] at hregistered ⊢
    obtain ⟨hcalls, -, -, -, happrovals, -⟩ := state.askRegistry_spec habsent
    obtain ⟨hgrants, hscopes, hsingles⟩ := state.grants_askRegistry input
    refine h.add hregistered hcalls happrovals hgrants hscopes hsingles
      (fun _ hgate => CallGate.noConfusion hgate) (fun id decision hgate => ?_)
      (fun grant hgate => ?_) fun grant hgate => CallGate.noConfusion hgate
    · exact some_ne_none _ (CallGate.asked.inj hgate).2.symm
    · rcases hgate with hgate | hgate <;> exact CallGate.noConfusion hgate

theorem GrantBooks.act (h : GrantBooks state) (hregistered : Registered next)
    (hnext : act? state step = some next) : GrantBooks next := by
  cases hkind : step.addsOrSpends with
  | false => exact h.moves hregistered (moves_act h.registered hnext hkind)
  | true =>
    cases step with
    | dispatch input =>
      simp only [act?] at hnext
      split at hnext
      · cases hnext
      · next habsent =>
        cases hnext
        exact h.dispatch (not_isSome_iff_eq_none.mp habsent)
    | proceed place findings withinRate =>
      obtain ⟨call, hcall, hwaits, -, rfl⟩ := proceed_cases hnext
      exact h.proceed hcall hwaits findings withinRate hregistered
    | grantRunSingleApproval runId =>
      cases hnext
      obtain ⟨hsame, -⟩ | hadded := grantRunSingleApproval_cases state runId
      · rwa [hsame]
      · rw [hadded] at hregistered ⊢
        exact h.single_grant _ hregistered
    | _ => cases hkind

/-- A grant with the mark that it has once its group has ended. -/
def MemoryGrant.mark (ended : Bool) (grant : MemoryGrant) : MemoryGrant :=
  { grant with outlived := grant.outlived || ended }

theorem inForce_markOutlived (h : InForce state.markOutlived ownerKey grant) :
    ∃ before, InForce state ownerKey before ∧
      grant = before.mark (state.runs.hasEnded ownerKey) := by
  rcases h with hscope | hsingle
  · obtain ⟨before, hbefore, hmark⟩ := map_eq_some_iff.mp hscope
    exact ⟨before, .inl hbefore, hmark.symm⟩
  · obtain ⟨before, hbefore, hmark⟩ := map_eq_some_iff.mp hsingle
    exact ⟨before, .inr hbefore, hmark.symm⟩

theorem markOutlived_of_inForce (h : InForce state ownerKey grant) :
    InForce state.markOutlived ownerKey (grant.mark (state.runs.hasEnded ownerKey)) :=
  h.imp (fun hscope => map_eq_some_iff.mpr ⟨grant, hscope, rfl⟩)
    fun hsingle => map_eq_some_iff.mpr ⟨grant, hsingle, rfl⟩

/-- Marks change neither the number nor the owner of a grant. -/
theorem GrantBooks.markOutlived (h : GrantBooks state) (hregistered : Registered state.markOutlived)
    : GrantBooks state.markOutlived := by
  have hsingles {ownerKey : String} {grant : MemoryGrant}
      (hsingle : state.markOutlived.runSingleApprovalScopes ownerKey = some grant) :
      ∃ before, state.runSingleApprovalScopes ownerKey = some before ∧
        grant.serial = before.serial := by
    obtain ⟨before, hbefore, hmark⟩ := map_eq_some_iff.mp hsingle
    exact ⟨before, hbefore, hmark ▸ rfl⟩
  refine ⟨hregistered, h.gated, h.executed, h.allowed, ?_, h.callOwner, ?_, ?_, h.spentOnce⟩
  · intro ownerKey grant hforce
    obtain ⟨before, hbefore, rfl⟩ := inForce_markOutlived hforce
    exact h.owner ownerKey before hbefore
  · intro call hcall spent ownerKey grant hgate hsingle
    obtain ⟨before, hbefore, hserial⟩ := hsingles hsingle
    rw [hserial]
    exact h.unspent call hcall spent ownerKey before hgate hbefore
  · intro first second grant other hfirst hsecond hserial
    obtain ⟨before, hbefore, hgrant⟩ := hsingles hfirst
    obtain ⟨before', hbefore', hother⟩ := hsingles hsecond
    exact h.single first second before before' hbefore hbefore'
      (hgrant.symm.trans (hserial.trans hother))

theorem grantBooks_step (h : GrantBooks state) (hnext : approvalStep? state step = some next) :
    GrantBooks next := by
  have hregistered := registered_step h.registered hnext
  obtain ⟨middle, hmiddle, rfl⟩ := map_eq_some_iff.mp hnext
  have hplain : Registered middle :=
    ⟨hregistered.distinct, hregistered.row, hregistered.pending, hregistered.approved⟩
  exact (h.act hplain hmiddle).markOutlived hregistered

/-! ## Marks -/

/-- No grant carries a mark, in memory or at the gate of a call. -/
structure Unmarked (state : DispatcherState) : Prop where
  served : ∀ call ∈ state.calls, ∀ grant,
    call.gate = .allowRunScope grant ∨ call.gate = .singleScope grant → grant.outlived = false
  inForce : ∀ ownerKey grant, InForce state ownerKey grant → grant.outlived = false

theorem Unmarked.moves (h : Unmarked state) (hmoves : Moves state next) : Unmarked next where
  served := by
    intro call' hcall' grant hgate
    obtain ⟨place, hplace⟩ := getElem?_of_mem hcall'
    obtain ⟨call, hcall, hmove⟩ := hmoves.calls place call' hplace
    refine h.served call (mem_of_getElem? hcall) grant ?_
    rcases hmove.gate with hsame | ⟨id, decision, -, hsettled, -⟩
    · rwa [hsame] at hgate
    · rw [hsettled] at hgate
      rcases hgate with hgate | hgate <;> exact CallGate.noConfusion hgate
  inForce := by
    rintro ownerKey grant (hscope | hsingle)
    · rcases hmoves.scopes ownerKey grant hscope with hold | ⟨-, -, hplain⟩
      · exact h.inForce ownerKey grant (.inl hold)
      · exact hplain
    · exact h.inForce ownerKey grant (.inr (hmoves.singles ownerKey grant hsingle))

theorem Unmarked.dispatch (h : Unmarked state)
    (habsent : state.registry.find input.approvalId = none) : Unmarked (state.dispatch input) := by
  have hserved {gate : CallGate} {calls : List GatedCall}
      (hcalls : calls = state.calls ++ [state.newCall input gate])
      (hgate : ∀ grant, gate = .allowRunScope grant ∨ gate = .singleScope grant →
        grant.outlived = false) :
      ∀ call ∈ calls, ∀ grant, call.gate = .allowRunScope grant ∨
        call.gate = .singleScope grant → grant.outlived = false := by
    intro call hcall grant hgrant
    rw [hcalls, mem_append, mem_singleton] at hcall
    rcases hcall with hbefore | rfl
    · exact h.served call hbefore grant hgrant
    · exact hgate grant hgrant
  obtain ⟨-, hnext⟩ | ⟨grant, -, hscope, hnext⟩ | ⟨grant, -, hsingle, hnext⟩ |
      ⟨-, -, -, hnext⟩ := state.dispatch_cases input
  · rw [hnext]
    refine ⟨hserved rfl fun grant hgate => ?_, h.inForce⟩
    rcases hgate with hgate | hgate <;> exact CallGate.noConfusion hgate
  · rw [hnext]
    refine ⟨hserved rfl fun other hgate => ?_, h.inForce⟩
    rcases hgate with hgate | hgate
    · obtain rfl := CallGate.allowRunScope.inj hgate
      exact h.inForce _ grant (.inl hscope)
    · exact CallGate.noConfusion hgate
  · rw [hnext]
    refine ⟨hserved rfl fun other hgate => ?_, fun ownerKey other hforce => ?_⟩
    · rcases hgate with hgate | hgate
      · exact CallGate.noConfusion hgate
      · obtain rfl := CallGate.singleScope.inj hgate
        exact h.inForce _ grant (.inr hsingle)
    · exact h.inForce ownerKey other (hforce.imp (fun hscope => hscope) scope_of_update)
  · rw [hnext]
    obtain ⟨hcalls, -⟩ := state.askRegistry_spec habsent
    obtain ⟨-, hscopes, hsingles⟩ := state.grants_askRegistry input
    refine ⟨hserved hcalls fun grant hgate => ?_, fun ownerKey grant hforce => ?_⟩
    · rcases hgate with hgate | hgate <;> exact CallGate.noConfusion hgate
    · exact h.inForce ownerKey grant (hforce.imp (hscopes _ _) (hsingles _ _))

theorem Unmarked.act (h : Unmarked state) (hregistered : Registered state)
    (hnext : act? state step = some next) : Unmarked next := by
  cases hkind : step.addsOrSpends with
  | false => exact h.moves (moves_act hregistered hnext hkind)
  | true =>
    cases step with
    | dispatch input =>
      simp only [act?] at hnext
      split at hnext
      · cases hnext
      · next habsent =>
        cases hnext
        exact h.dispatch (not_isSome_iff_eq_none.mp habsent)
    | proceed place findings withinRate =>
      obtain ⟨call, hcall, -, -, rfl⟩ := proceed_cases hnext
      refine ⟨fun other hother grant hgate => ?_, h.inForce⟩
      rcases mem_or_eq_of_mem_set hother with hbefore | rfl
      · exact h.served other hbefore grant hgate
      · exact h.served call (mem_of_getElem? hcall) grant hgate
    | grantRunSingleApproval runId =>
      cases hnext
      obtain ⟨hsame, -⟩ | hadded := grantRunSingleApproval_cases state runId
      · rwa [hsame]
      · rw [hadded]
        refine ⟨h.served, ?_⟩
        rintro ownerKey grant (hscope | hsingle)
        · exact h.inForce ownerKey grant (.inl hscope)
        · by_cases hother : ownerKey = state.getApprovalOwnerKey runId
          · dsimp only at hsingle
            rw [hother, update_self] at hsingle
            exact (Option.some.inj hsingle) ▸ rfl
          · dsimp only at hsingle
            rw [update_of_ne hother] at hsingle
            exact h.inForce ownerKey grant (.inr hsingle)
    | _ => cases hkind

/-! ## Runs -/

/-- A step keeps every call granted rightly just where the grants end with their groups. -/
theorem grantedRightly_step_iff (h : GrantBooks state) (hright : GrantedRightly state)
    (hnext : approvalStep? state step = some next) :
    GrantedRightly next ↔ GrantsEndWithGroup state step := by
  have hbooks := grantBooks_step h hnext
  obtain ⟨middle, hmiddle, rfl⟩ := map_eq_some_iff.mp hnext
  have hcurrent : Current state := fun ownerKey grant hforce =>
    (hright.inForce ownerKey grant hforce).1
  have hunmarked : Unmarked state :=
    ⟨hright.served, fun ownerKey grant hforce => (hright.inForce ownerKey grant hforce).2⟩
  rw [← current_act_iff h.registered hcurrent hmiddle]
  constructor
  · intro hafter ownerKey grant hforce
    exact (hafter.inForce ownerKey _ (markOutlived_of_inForce hforce)).1
  · intro hafter
    have hplain := hunmarked.act h.registered hmiddle
    refine ⟨fun place call hcall hrequired hexecuted => ?_, hplain.served, ?_⟩
    · exact hbooks.granted hplain.served hcall hrequired hexecuted
    · intro ownerKey grant hforce
      obtain ⟨before, hbefore, rfl⟩ := inForce_markOutlived hforce
      have hgroup := hafter ownerKey before hbefore
      refine ⟨hgroup, ?_⟩
      unfold MemoryGrant.mark
      rw [hplain.inForce ownerKey before hbefore, hgroup]
      rfl

theorem grantBooks_startState (registry : ApprovalTable) (runs : RootRunTable) :
    GrantBooks (startState registry runs) := by
  refine ⟨registered_startState registry runs, ?_, ?_, ?_, ?_, ?_, ?_, ?_, ?_⟩
  · exact nofun
  · exact nofun
  · exact nofun
  · rintro ownerKey grant (hscope | hsingle)
    · cases hscope
    · cases hsingle
  · exact nofun
  · exact nofun
  · exact fun _ _ _ _ hfirst => absurd hfirst (some_ne_none _).symm
  · exact fun _ _ _ _ _ _ hcall => absurd hcall (some_ne_none _).symm

theorem grantedRightly_startState (registry : ApprovalTable) (runs : RootRunTable) :
    GrantedRightly (startState registry runs) := by
  refine ⟨fun _ _ hcall => absurd hcall (some_ne_none _).symm, nofun, ?_⟩
  rintro ownerKey grant (hscope | hsingle)
  · cases hscope
  · cases hsingle

/-- In every state of a run the executed calls had an approval of their own, and no grant is
left by a group that has ended, just where every step of the run lets the grants end with their
groups. -/
theorem grantsOfOwnGroup_iff (registry : ApprovalTable) (runs : RootRunTable)
    (steps : List ApprovalStep) (last : DispatcherState) :
    Run (Reaching GrantedRightly (Takes approvalStep?)) (startState registry runs) steps last ↔
      Run (Meeting GrantsEndWithGroup (Takes approvalStep?)) (startState registry runs) steps
        last := by
  have hinv : ∀ state step next, GrantBooks state → Takes approvalStep? state step next →
      GrantBooks next := fun _ _ _ h hnext => grantBooks_step h hnext
  have hstep : ∀ state step next, GrantBooks state → GrantedRightly state →
      Takes approvalStep? state step next → (GrantedRightly next ↔ GrantsEndWithGroup state step) :=
    fun _ _ _ h hright hnext => grantedRightly_step_iff h hright hnext
  exact Run.reaching_iff_meeting GrantBooks hinv hstep (grantBooks_startState registry runs)
    (grantedRightly_startState registry runs)

/-- Every executed call that needed an approval has a row of its own, or was served by a grant of its
group: one for the rest of a run, or a single one that serves no other call. -/
def OwnApproval (state : DispatcherState) : Prop :=
  ∀ (place : ℕ) (call : GatedCall), state.calls[place]? = some call → call.required →
    call.executed = some true → OwnRow state place call ∨ ∃ grant, grant.owner = call.owner ∧
      (call.gate = .allowRunScope grant ∨ call.gate = .singleScope grant ∧
        ∀ (index : ℕ) (other : GatedCall) (spent : MemoryGrant), state.calls[index]? = some other →
          other.gate = .singleScope spent → spent.serial = grant.serial → index = place)

theorem GrantBooks.ownApproval (h : GrantBooks state) : OwnApproval state := by
  intro place call hcall hrequired hexecuted
  have hmem : call ∈ state.calls := mem_of_getElem? hcall
  cases hgate : call.gate with
  | notRequired => exact absurd hgate (h.gated call hmem hrequired)
  | asked id outcome => exact .inl (h.ownRow hcall hexecuted hgate)
  | allowRunScope grant =>
    exact .inr ⟨grant, (h.callOwner call hmem grant (.inl hgate)).1, .inl rfl⟩
  | singleScope grant =>
    refine .inr ⟨grant, (h.callOwner call hmem grant (.inr hgate)).1, .inr ⟨rfl, ?_⟩⟩
    intro index other spent hother hspent hserial
    exact h.spentOnce index place other call spent grant hother hcall hspent hgate hserial

/-- In every state of a run no call is executed on the approval of another call or group. -/
theorem calls_ownApproval (registry : ApprovalTable) (runs : RootRunTable)
    (steps : List ApprovalStep) (last : DispatcherState) :
    Run (Reaching OwnApproval (Takes approvalStep?)) (startState registry runs) steps last ↔
      Run (Takes approvalStep?) (startState registry runs) steps last :=
  Run.reaching_iff GrantBooks (fun _ _ _ h hnext => grantBooks_step h hnext)
    (fun _ h => h.ownApproval) (grantBooks_startState registry runs)

/-! ## A grant that an interrupted run leaves behind -/

/-- A run of a group that is allowed for its rest and is interrupted; a later run of the group
then calls a tool that needs an approval. -/
def laterRunOfGroup : List ApprovalStep :=
  [.createRun ⟨"run-1", "group", "group", none, .running⟩,
    .grantRunApprovalScope "run-1",
    .updateStatus "run-1" .interrupted fun _ => false,
    .createRun ⟨"run-2", "group", "group", none, .running⟩,
    .dispatch (askingCall "shell_exec" "run-2" "a" 0),
    .proceed 0 ⟨true, false, true, true, .moderate⟩ true]

/-- How the calls of a state stand: what was required, what served and what was executed. -/
def servedByGrant (state : DispatcherState) : List (Bool × Option Bool × Option Bool) :=
  state.calls.map fun call => (call.required,
    match call.gate with
    | .allowRunScope grant => some grant.outlived
    | _ => none, call.executed)

theorem laterRunOfGroup_served :
    (execute approvalStep? (startState .empty .empty) laterRunOfGroup).map servedByGrant =
      some [(true, some true, some true)] := by
  decide +kernel

/-- The call of the later run is executed by a grant that the runs of its group have outlived. -/
theorem laterRunOfGroup_notGranted :
    ∃ state : DispatcherState,
      Run (Takes approvalStep?) (startState .empty .empty) laterRunOfGroup state ∧
        ¬ GrantedRightly state := by
  obtain ⟨state, hstate, htold⟩ := map_eq_some_iff.mp laterRunOfGroup_served
  refine ⟨state, Run.of_execute hstate, fun hright => ?_⟩
  have hmem : (true, some true, some true) ∈ servedByGrant state := by
    rw [htold]
    exact mem_cons_self
  obtain ⟨call, hcall, hsame⟩ := mem_map.mp hmem
  obtain ⟨-, hserved, -⟩ := by simpa only [Prod.mk.injEq] using hsame
  split at hserved
  · next grant hgate =>
    have hplain := hright.served call hcall grant (.inl hgate)
    cases hplain.symm.trans (Option.some.inj hserved)
  · cases hserved

end Nobie.Tools.Approvals
