/-
# Approvals reach the calls that asked

A call that asked the registry is answered as its row is decided in every run whose steps meet
a condition: no request supersedes one that a call of the run still waits for, no answer comes
after its request has expired, and the web interface neither allows a request nor denies one
whose call the cancellation does not reach. The answers of the resolver, the timer and an abort
need nothing else.
-/

import Nobie.Tools.ApprovalRequests

namespace Nobie.Tools.Approvals

open Foundation Runs List

/-! ## What is asked of the answers -/

/-- A call waits while its row is requested, is denied just where its row was denied, expired or
superseded, and is allowed just what was approved and used up. -/
structure AnswerFits (approvals : List (String × ApprovalDecision)) (id : String)
    (status : ApprovalStatus) (outcome : Option ApprovalDecision) : Prop where
  waiting : outcome = none → status = .requested
  denied : outcome = some .deny ↔ status = .denied ∨ status = .expired ∨ status = .superseded
  allowed : ∀ decision, decision ≠ .deny →
    (outcome = some decision ↔ status = .consumed ∧ (id, decision) ∈ approvals)

/-- Every call that asked is answered as its row was decided, and every cancellation by a denial
is for a row of the run that was denied or that expired. -/
structure AnsweredRightly (state : DispatcherState) : Prop where
  calls : ∀ call ∈ state.calls, ∀ id outcome, call.gate = .asked id outcome →
    ∃ row, state.registry.find id = some row ∧ AnswerFits state.approvals id row.status outcome
  cancellations : ∀ runId id, (runId, id) ∈ state.cancellations →
    ∃ row, state.registry.find id = some row ∧ row.runId = runId ∧
      (row.status = .denied ∨ row.status = .expired)

variable (state : DispatcherState) {runId : String} {step : ApprovalStep}

/-- The call goes to the registry. -/
def Asks (input : DispatchInput) : Prop :=
  shouldRequireApproval input ∧
    state.runApprovalScopes (state.getApprovalOwnerKey input.runId) = none ∧
    state.runSingleApprovalScopes (state.getApprovalOwnerKey input.runId) = none

/-- The request has not expired. -/
def InTime (id : String) (now : ℤ) : Prop :=
  ∀ row, state.registry.find id = some row → ∀ expiresAt, row.expiresAt = some expiresAt →
    now < expiresAt

/-- A request asks for no approval that a call of its run still waits for with the same tool; a
call that waits is answered in time, and by the web interface only with a denial whose
cancellation reaches it. -/
def AnswersReach : ApprovalStep → Prop
  | .dispatch input => Asks state input → ∀ call ∈ state.calls, call.waits →
      ¬ (call.runId = input.runId ∧ call.toolName = input.toolName)
  | .resolve place params _ => ∀ call, state.calls[place]? = some call → call.waits →
      ∀ id, call.approvalId? = some id → InTime state id params.now
  | .resolvePending runId decision now _ => ∀ interaction,
      state.pendingInteractionKinds runId = some interaction →
      ∀ call ∈ state.calls, call.waits → call.approvalId? = some interaction.approvalId →
        InTime state interaction.approvalId now ∧ decision = .deny ∧
          state.reached (state.cancellationScope runId) call.signal
  | _ => True

/-! ## Answers that fit -/

variable {approvals : List (String × ApprovalDecision)} {id : String} {status : ApprovalStatus}
  {decision : ApprovalDecision} {state next : DispatcherState} {call : GatedCall}
  {row : ApprovalRow} {now : ℤ} {place : ℕ} {approvalId : String}

theorem answerFits_none_iff : AnswerFits approvals id status none ↔ status = .requested := by
  constructor
  · intro h
    exact h.waiting rfl
  · rintro rfl
    exact ⟨fun _ => rfl, by simp, fun decision _ => by simp⟩

theorem answerFits_deny_iff : AnswerFits approvals id status (some .deny) ↔
      status = .denied ∨ status = .expired ∨ status = .superseded := by
  constructor
  · intro h
    exact h.denied.mp rfl
  · intro hstatus
    refine ⟨fun hnone => absurd hnone (Option.some_ne_none _), by simp [hstatus],
      fun decision hallow => ?_⟩
    refine iff_of_false (fun hsame => hallow (Option.some.inj hsame).symm) fun hconsumed => ?_
    rw [hconsumed.1] at hstatus
    exact absurd hstatus (by decide)

theorem answerFits_allow_iff (hallow : decision ≠ .deny) :
    AnswerFits approvals id status (some decision) ↔ status = .consumed ∧
      ∀ other, other ≠ .deny → ((id, other) ∈ approvals ↔ other = decision) := by
  constructor
  · intro h
    obtain ⟨hconsumed, -⟩ := (h.allowed decision hallow).mp rfl
    refine ⟨hconsumed, fun other hother => ?_⟩
    have hiff := h.allowed other hother
    rw [hconsumed] at hiff
    simp only [Option.some.injEq, true_and] at hiff
    rw [← hiff]
    exact eq_comm
  · rintro ⟨rfl, hother⟩
    refine ⟨fun hnone => absurd hnone (Option.some_ne_none _), by simp [hallow],
      fun other hallowed => ?_⟩
    rw [hother other hallowed, Option.some.injEq]
    simp [eq_comm]

/-- A call that asked is answered as its row was decided. -/
def Fits (state : DispatcherState) (call : GatedCall) : Prop :=
  ∀ id outcome, call.gate = .asked id outcome →
    ∃ row, state.registry.find id = some row ∧ AnswerFits state.approvals id row.status outcome

/-- Only the status of the row and what was approved count. -/
theorem fits_congr (hrow : ∀ id, call.approvalId? = some id →
      (next.registry.find id).map ApprovalRow.status =
        (state.registry.find id).map ApprovalRow.status)
    (happrovals : ∀ id, call.approvalId? = some id → ∀ decision,
      (id, decision) ∈ next.approvals ↔ (id, decision) ∈ state.approvals) :
    Fits next call ↔ Fits state call := by
  have hone {first second : DispatcherState}
      (hrow : ∀ id, call.approvalId? = some id →
        (second.registry.find id).map ApprovalRow.status =
          (first.registry.find id).map ApprovalRow.status)
      (happrovals : ∀ id, call.approvalId? = some id → ∀ decision,
        (id, decision) ∈ second.approvals ↔ (id, decision) ∈ first.approvals)
      (h : Fits first call) : Fits second call := by
    intro id outcome hgate
    have hid := approvalId_of_gate hgate
    obtain ⟨row, hfound, hwaiting, hdenied, hallowed⟩ := h id outcome hgate
    have hstatus := hrow id hid
    rw [hfound, Option.map_some, Option.map_eq_some_iff] at hstatus
    obtain ⟨row', hfound', hsame⟩ := hstatus
    refine ⟨row', hfound', by rwa [hsame], by rwa [hsame], fun decision hallow => ?_⟩
    rw [happrovals id hid, hsame]
    exact hallowed decision hallow
  exact ⟨hone (fun id hid => (hrow id hid).symm) fun id hid decision =>
    (happrovals id hid decision).symm, hone hrow happrovals⟩

/-- A call that waits fits where its row is requested. -/
theorem fits_waiting_iff (hgate : call.gate = .asked id none)
    (hrow : state.registry.find id = some row) : Fits state call ↔ row.status = .requested := by
  constructor
  · intro h
    obtain ⟨found, hfound, hfits⟩ := h id none hgate
    cases hrow.symm.trans hfound
    exact answerFits_none_iff.mp hfits
  · intro hstatus other outcome hother
    obtain ⟨rfl, rfl⟩ := CallGate.asked.inj (hgate.symm.trans hother)
    exact ⟨row, hrow, answerFits_none_iff.mpr hstatus⟩

/-- A call that does not wait and fits has a row that was decided. -/
theorem decided_of_fits (h : Fits state call) (hwaits : call.waits = false)
    (hid : call.approvalId? = some id) (hrow : state.registry.find id = some row) :
    row.status ≠ .requested := by
  unfold GatedCall.approvalId? at hid
  split at hid
  · next approvalId outcome hgate =>
    cases hid
    obtain ⟨found, hfound, hfits⟩ := h _ _ hgate
    cases hrow.symm.trans hfound
    cases outcome with
    | none =>
      unfold GatedCall.waits CallGate.waits at hwaits
      rw [hgate] at hwaits
      cases hwaits
    | some decision =>
      intro hrequested
      by_cases hdeny : decision = .deny
      · have hdenied := hfits.denied.mp (by rw [hdeny])
        rw [hrequested] at hdenied
        exact absurd hdenied (by decide)
      · have hconsumed := ((hfits.allowed decision hdeny).mp rfl).1
        rw [hrequested] at hconsumed
        exact ApprovalStatus.noConfusion hconsumed
  · exact absurd hid (Option.some_ne_none id).symm

/-- A call that was settled fits where its row was decided so. -/
theorem fits_settled (hgate : call.gate = .asked id none) (hrow : state.registry.find id = some row)
    (hfits : AnswerFits state.approvals id row.status (some decision)) :
    Fits state (call.settle decision) := by
  intro other outcome hother
  rw [settle_of_gate hgate] at hother
  obtain ⟨rfl, rfl⟩ := CallGate.asked.inj hother
  exact ⟨row, hrow, hfits⟩

/-! ## Aborts and cancellations -/

/-- An abort leaves the row of a call alone that it does not reach. -/
theorem deniedRow_of_not_heard (h : Registered state) (hcall : call ∈ state.calls)
    (hid : call.approvalId? = some id) {heard : ℕ → Bool}
    (hheard : (call.waits && heard call.signal) = false) (now : ℤ) (row : ApprovalRow) :
    deniedRow now heard state.calls id row = row := by
  rw [deniedRow, if_neg]
  rw [Bool.not_eq_true, any_eq_false]
  intro other hother hboth
  rw [Bool.and_eq_true, decide_eq_true_eq] at hboth
  obtain rfl := h.eq_of_id hcall hother hid hboth.1
  rw [hheard] at hboth
  cases hboth.2

/-- Behind an abort a call fits if it did, or if it waited for a row that was not approved and
the abort reaches it. -/
theorem fits_denyHeard_iff {heard : ℕ → Bool} (h : Registered state)
    (hdenies : Denies now heard state next) (hcall : call ∈ state.calls)
    (hwaiting : ∀ id row, call.gate = .asked id none → state.registry.find id = some row →
      row.status = .requested ∨ row.status = .denied) :
    Fits next (denyHeard heard call) ↔ Fits state call ∨ (call.waits && heard call.signal) := by
  cases hheard : call.waits && heard call.signal with
  | false =>
    rw [denyHeard, hheard, if_neg Bool.false_ne_true]
    simp only [Bool.false_eq_true, or_false]
    refine fits_congr (fun id hid => ?_) fun id hid decision => by rw [hdenies.approvals]
    obtain ⟨place, hplace⟩ := getElem?_of_mem hcall
    obtain ⟨row, hrow, -⟩ := h.row place call id hplace hid
    rw [hdenies.rows id row hrow, hrow, deniedRow_of_not_heard h hcall hid hheard]
  | true =>
    rw [denyHeard, hheard, if_pos rfl]
    refine iff_of_true ?_ (.inr rfl)
    obtain ⟨hwaits, hsignal⟩ := (Bool.and_eq_true_iff).mp hheard
    obtain ⟨id, hgate⟩ := gate_of_waits hwaits
    obtain ⟨place, hplace⟩ := getElem?_of_mem hcall
    obtain ⟨row, hrow, -⟩ := h.row place call id hplace (approvalId_of_gate hgate)
    refine fits_settled hgate (hdenies.rows id row hrow) (answerFits_deny_iff.mpr ?_)
    have hany : (state.calls.any fun other => other.approvalId? = some id &&
        (other.waits && heard other.signal)) := by
      refine any_eq_true.mpr ⟨call, hcall, ?_⟩
      rw [hheard, Bool.and_true, decide_eq_true_eq]
      exact approvalId_of_gate hgate
    rw [deniedRow, if_pos hany, status_decideRow]
    rcases hwaiting id row hgate hrow with hrequested | hdenied
    · split
      · exact .inl rfl
      · exact .inr (.inl rfl)
    · have hclosed : isOpen row now = false := by simp [isOpen, hdenied]
      rw [show (DispatcherState.abortDecision now id).now = now from rfl, hclosed,
        if_neg Bool.false_ne_true, if_neg (by rw [hdenied]; decide)]
      exact .inl hdenied

/-- Rows that were decided stay as they were. -/
theorem status_deniedRow {heard : ℕ → Bool} {calls : List GatedCall} (h : row.status ≠ .requested) :
    deniedRow now heard calls id row = row := by
  unfold deniedRow
  split
  · exact decideRow_of_not_requested h _
  · rfl

/-- Behind an abort the answers are right just where each call fitted or is reached. -/
theorem answeredRightly_denies_iff {heard : ℕ → Bool} (h : Registered state)
    (hdenies : Denies now heard state next)
    (hwaiting : ∀ call ∈ state.calls, ∀ id row, call.gate = .asked id none →
      state.registry.find id = some row → row.status = .requested ∨ row.status = .denied)
    (hcancellations : ∀ runId id, (runId, id) ∈ state.cancellations →
      ∃ row, state.registry.find id = some row ∧ row.runId = runId ∧
        (row.status = .denied ∨ row.status = .expired)) :
    AnsweredRightly next ↔ ∀ call ∈ state.calls,
      Fits state call ∨ (call.waits && heard call.signal) := by
  constructor
  · intro hright call hcall
    rw [← fits_denyHeard_iff h hdenies hcall (hwaiting call hcall)]
    refine hright.calls _ ?_
    rw [hdenies.calls]
    exact mem_map_of_mem hcall
  · intro hfits
    refine ⟨fun call hcall => ?_, fun runId id hmem => ?_⟩
    · rw [hdenies.calls] at hcall
      obtain ⟨before, hbefore, rfl⟩ := mem_map.mp hcall
      exact (fits_denyHeard_iff h hdenies hbefore (hwaiting before hbefore)).mpr
        (hfits before hbefore)
    · rw [hdenies.cancellations] at hmem
      obtain ⟨row, hrow, hrun, hstatus⟩ := hcancellations runId id hmem
      have hdecided : row.status ≠ .requested := by
        rcases hstatus with hstatus | hstatus <;> rw [hstatus] <;> decide
      refine ⟨row, ?_, hrun, hstatus⟩
      rw [hdenies.rows id row hrow, status_deniedRow hdecided]

theorem AnsweredRightly.requested (h : AnsweredRightly state) (hcall : call ∈ state.calls)
    (hgate : call.gate = .asked id none) (hrow : state.registry.find id = some row) :
    row.status = .requested :=
  (fits_waiting_iff hgate hrow).mp (h.calls call hcall)

/-- An abort answers rightly. -/
theorem AnsweredRightly.denies {heard : ℕ → Bool} (hright : AnsweredRightly state)
    (h : Registered state) (hdenies : Denies now heard state next) : AnsweredRightly next :=
  (answeredRightly_denies_iff h hdenies (fun _ hcall _ _ hgate hrow =>
    .inl (hright.requested hcall hgate hrow)) hright.cancellations).mpr
      fun call hcall => .inl (hright.calls call hcall)

/-! ## One call is answered -/

/-- The row of one waiting call was decided, and what was there before is as it was. -/
structure Decides (id : String) (state next : DispatcherState) : Prop where
  rows : ∀ other row, other ≠ id → state.registry.find other = some row →
    next.registry.find other = some row
  approvals : ∀ other decision, other ≠ id →
    ((other, decision) ∈ next.approvals ↔ (other, decision) ∈ state.approvals)

/-- Calls with other rows fit as before. -/
theorem Decides.fits_iff (h : Decides id state next) (hregistered : Registered state)
    (hcall : call ∈ state.calls) (hid : call.approvalId? ≠ some id) :
    Fits next call ↔ Fits state call := by
  have hne {other : String} (hother : call.approvalId? = some other) : other ≠ id := by
    rintro rfl
    exact hid hother
  refine fits_congr (fun other hother => ?_) fun other hother decision =>
    h.approvals other decision (hne hother)
  obtain ⟨place, hplace⟩ := getElem?_of_mem hcall
  obtain ⟨row, hrow, -⟩ := hregistered.row place call other hplace hother
  rw [h.rows other row (hne hother) hrow, hrow]

/-- Cancellations are for other rows as long as the row is requested. -/
theorem Decides.cancellations (h : Decides id state next) (hright : AnsweredRightly state)
    (hrow : state.registry.find id = some row) (hrequested : row.status = .requested)
    {other : String} (hmem : (runId, other) ∈ state.cancellations) :
    ∃ row, next.registry.find other = some row ∧ row.runId = runId ∧
      (row.status = .denied ∨ row.status = .expired) := by
  obtain ⟨found, hfound, hrun, hstatus⟩ := hright.cancellations runId other hmem
  have hne : other ≠ id := by
    rintro rfl
    cases hrow.symm.trans hfound
    rw [hrequested] at hstatus
    exact absurd hstatus (by decide)
  exact ⟨found, h.rows other found hne hfound, hrun, hstatus⟩

/-- A call that waits at a place is settled as its row was decided. -/
theorem answeredRightly_settled (h : Registered state) (hright : AnsweredRightly state)
    (hcall : state.calls[place]? = some call) (hgate : call.gate = .asked id none)
    (hdecides : Decides id state next)
    (hcalls : next.calls = state.calls.set place (call.settle decision))
    (hrow : next.registry.find id = some row) (hrun : row.runId = call.runId)
    (hfits : AnswerFits next.approvals id row.status (some decision))
    (hcancellations : ∀ entry ∈ next.cancellations, entry ∈ state.cancellations ∨
      entry = (call.runId, id) ∧ (row.status = .denied ∨ row.status = .expired)) :
    AnsweredRightly next := by
  have hid := approvalId_of_gate hgate
  refine ⟨fun other hother => ?_, fun runId other hmem => ?_⟩
  · obtain ⟨index, hindex⟩ := getElem?_of_mem hother
    rw [hcalls, getElem?_set] at hindex
    split at hindex
    · split at hindex
      · cases hindex
        exact fits_settled hgate hrow hfits
      · cases hindex
    · next hplace =>
      have hother' : other ∈ state.calls := mem_of_getElem? hindex
      refine (hdecides.fits_iff h hother' fun hsame => hplace ?_).mpr
        (hright.calls other hother')
      exact h.distinct place index call other id hcall hindex hid hsame
  · rcases hcancellations _ hmem with hbefore | ⟨hown, hstatus⟩
    · obtain ⟨found, hfound, -⟩ := h.row place call id hcall hid
      exact hdecides.cancellations hright hfound
        (hright.requested (mem_of_getElem? hcall) hgate hfound) hbefore
    · cases hown
      exact ⟨row, hrow, hrun, hstatus⟩

/-- A call whose row was decided while it waits on is not answered rightly. -/
theorem not_answeredRightly_of_waiting (hcall : call ∈ state.calls)
    (hgate : call.gate = .asked id none) (hrow : state.registry.find id = some row)
    (hstatus : row.status ≠ .requested) : ¬ AnsweredRightly state := fun hright =>
  hstatus (hright.requested hcall hgate hrow)

theorem Registered.of_same (h : Registered state) (hcalls : next.calls = state.calls)
    (hregistry : next.registry = state.registry)
    (hpending : next.pendingInteractionKinds = state.pendingInteractionKinds)
    (happrovals : next.approvals = state.approvals) : Registered next := by
  refine h.evolves ⟨by rw [hcalls], fun id row hrow => ⟨row, by rw [hregistry, hrow], .refl row,
    fun _ => rfl⟩, ?_, ?_⟩
  · rw [hpending]
    exact fun _ _ hinteraction => hinteraction
  · rw [happrovals]
    exact fun _ _ hmem => .inl hmem

/-- An answer that has settled its call, and what follows in its run. -/
theorem AnsweredRightly.finishApproval {delivered : String → Bool} (h : Registered state)
    (hright : AnsweredRightly (if decision = .deny then
      { state with cancellations := state.cancellations ++ [(runId, approvalId)] } else state)) :
    AnsweredRightly (state.finishApproval now delivered runId approvalId decision) := by
  by_cases hdeny : decision = .deny
  · subst hdeny
    rw [if_pos rfl] at hright
    exact hright.denies (h.of_same rfl rfl rfl rfl)
      (state.denies_finishApproval_deny now delivered runId approvalId)
  · rw [if_neg hdeny] at hright
    exact hright.denies h (state.denies_finishApproval_allow hdeny now delivered runId approvalId)

/-! ## Decisions -/

/-- Where a request is open is where it is requested and has not expired. -/
theorem isOpen_iff (h : row.status = .requested) :
    isOpen row now ↔ ∀ expiresAt, row.expiresAt = some expiresAt → now < expiresAt := by
  unfold isOpen isLate
  cases row.expiresAt with
  | none | some => simp [h]

theorem inTime_iff (hrow : state.registry.find id = some row) (h : row.status = .requested) :
    InTime state id now ↔ isOpen row now := by
  rw [isOpen_iff h]
  constructor
  · intro htime
    exact htime row hrow
  · intro hopen found hfound
    cases hrow.symm.trans hfound
    exact hopen

/-- A decision on a call that waits: it is accepted while its request is open, and its row is
then denied or used up. -/
theorem decide_waiting {state : DispatcherState} (h : Registered state)
    (hright : AnsweredRightly state) {call : GatedCall} (hcall : call ∈ state.calls)
    {params : DecisionInput} (hgate : call.gate = .asked params.approvalId none) :
    ∃ row, state.registry.find params.approvalId = some row ∧ row.runId = call.runId ∧
      row.status = .requested ∧ (state.decideAndConsume params).1 = isOpen row params.now ∧
      (state.decideAndConsume params).2.registry.find params.approvalId =
        some (answerRow params row) ∧
      Decides params.approvalId state (state.decideAndConsume params).2 ∧
      (state.decideAndConsume params).2.calls = state.calls ∧
      (state.decideAndConsume params).2.cancellations = state.cancellations ∧
      (isOpen row params.now → ∀ decision, decision ≠ .deny →
        ((params.approvalId, decision) ∈ (state.decideAndConsume params).2.approvals ↔
          params.decision = decision)) := by
  obtain ⟨place, hplace⟩ := getElem?_of_mem hcall
  obtain ⟨row, hrow, hrun, -⟩ := h.row place call _ hplace (approvalId_of_gate hgate)
  have hrequested := hright.requested hcall hgate hrow
  obtain ⟨hfirst, hrows, hstate⟩ := state.decideAndConsume_spec hrow
  have hfound := hrows _ row hrow
  rw [if_pos rfl] at hfound
  have happrovals := congrArg DispatcherState.approvals hstate
  have hfresh (decision : ApprovalDecision) : (params.approvalId, decision) ∉ state.approvals := by
    intro hmem
    obtain ⟨-, found, hfound', hdecided⟩ := h.approved _ decision hmem
    cases hrow.symm.trans hfound'
    rw [hrequested] at hdecided
    exact ApprovalStatus.noConfusion hdecided
  refine ⟨row, hrow, hrun, hrequested, hfirst, hfound, ⟨fun other found hne hother => ?_,
    fun other decision hne => ?_⟩, by rw [hstate], by rw [hstate], fun hopen decision hallow => ?_⟩
  · rw [hrows other found hother, if_neg hne]
  · rw [happrovals]
    split
    · rw [mem_append, mem_singleton, Prod.mk.injEq]
      simp [hne]
    · exact Iff.rfl
  · rw [happrovals, hopen, Bool.true_and]
    by_cases hdeny : params.decision = .deny
    · rw [if_neg (by simp [hdeny]), hdeny]
      exact iff_of_false (hfresh decision) fun hsame => hallow hsame.symm
    · rw [if_pos (by simp [hdeny]), mem_append, mem_singleton, Prod.mk.injEq]
      simp [hfresh decision, eq_comm]

/-- An open request that is decided is answered by its decision. -/
theorem answerFits_answerRow {params : DecisionInput} {row : ApprovalRow}
    {approvals : List (String × ApprovalDecision)} (hopen : isOpen row params.now)
    (happrovals : ∀ decision, decision ≠ .deny →
      ((params.approvalId, decision) ∈ approvals ↔ params.decision = decision)) :
    AnswerFits approvals params.approvalId (answerRow params row).status
      (some params.decision) := by
  rw [status_answerRow, if_pos hopen]
  by_cases hdeny : params.decision = .deny
  · rw [hdeny, if_pos rfl]
    exact answerFits_deny_iff.mpr (.inl rfl)
  · rw [if_neg hdeny, answerFits_allow_iff hdeny]
    refine ⟨rfl, fun other hother => ?_⟩
    rw [happrovals other hother]
    exact eq_comm

/-- A request that is late expires. -/
theorem status_answerRow_of_late {params : DecisionInput} {row : ApprovalRow}
    (hlate : isOpen row params.now = false) (hrequested : row.status = .requested) :
    (answerRow params row).status = .expired := by
  rw [status_answerRow, hlate, if_neg Bool.false_ne_true, if_pos hrequested]

/-! ## The resolver -/

section

variable (h : Registered state)
include h

section

variable (hright : AnsweredRightly state)
include hright

section

variable (hcall : state.calls[place]? = some call) (hgate : call.gate = .asked approvalId none)
include hcall hgate

theorem resolve_iff
    (params : DecisionInput) (delivered : String → Bool) :
    AnsweredRightly (state.resolveRequest place call approvalId params delivered) ↔
      InTime state approvalId params.now := by
  have hmem : call ∈ state.calls := mem_of_getElem? hcall
  obtain ⟨row, hrow, hrun, hrequested, hfirst, hfound, hdecides, hcalls, hcancellations,
    happrovals⟩ := @decide_waiting state h hright call hmem { params with approvalId } hgate
  have hevolves := @DispatcherState.evolves_decideAndConsume state { params with approvalId } row
    hrow
  rw [inTime_iff hrow hrequested]
  unfold DispatcherState.resolveRequest
  generalize hanswer : state.decideAndConsume { params with approvalId } = answer at *
  obtain ⟨accepted, middle⟩ := answer
  subst hfirst
  cases hopen : isOpen row params.now with
  | false =>
    rw [iff_false_right Bool.false_ne_true]
    refine not_answeredRightly_of_waiting (hcalls ▸ hmem) hgate hfound ?_
    rw [@status_answerRow_of_late { params with approvalId } row hopen hrequested]
    decide
  | true =>
    refine iff_of_true ?_ rfl
    have hplace : middle.calls[place]? = some call := by rw [hcalls, hcall]
    have hregistered : Registered (middle.settleAt place call params.decision) :=
      h.evolves (hevolves.trans (middle.evolves_settleAt hplace _))
    have hfits := @answerFits_answerRow { params with approvalId } row middle.approvals hopen
      (happrovals hopen)
    have hset : (middle.settleAt place call params.decision).calls =
        state.calls.set place (call.settle params.decision) := by
      unfold DispatcherState.settleAt
      rw [hcalls]
    have hrun' : (answerRow { params with approvalId } row).runId = call.runId :=
      (sameRequest_answerRow _ row).runId.trans hrun
    refine AnsweredRightly.finishApproval hregistered ?_
    split
    · next hdeny =>
      refine answeredRightly_settled h hright hcall hgate ⟨hdecides.rows, hdecides.approvals⟩
        hset hfound hrun' hfits fun entry hentry => ?_
      rw [mem_append, mem_singleton] at hentry
      rcases hentry with hbefore | hown
      · rw [← hcancellations]
        exact .inl hbefore
      · refine .inr ⟨hown, .inl ?_⟩
        rw [status_answerRow, if_pos hopen, if_pos hdeny]
    · refine answeredRightly_settled h hright hcall hgate ⟨hdecides.rows, hdecides.approvals⟩
        hset hfound hrun' hfits fun entry hentry => ?_
      rw [← hcancellations]
      exact .inl hentry

/-! ## The timer -/

theorem AnsweredRightly.timeOut (now : ℤ)
    (delivered : String → Bool) :
    AnsweredRightly (state.timeOut place call approvalId now delivered) := by
  have hmem : call ∈ state.calls := mem_of_getElem? hcall
  obtain ⟨row, hrow, hrun, -⟩ := h.row place call approvalId hcall (approvalId_of_gate hgate)
  have hrequested := hright.requested hmem hgate hrow
  have hfound := find_expire hrow approvalId now
  rw [if_pos rfl] at hfound
  have hexpired : (expireRow now row).status = .expired := by
    rw [status_expireRow, if_pos hrequested]
  have hregistered := h.evolves ((state.evolves_settleAt hcall .deny).trans
    ((state.settleAt place call .deny).evolves_expire approvalId now))
  unfold DispatcherState.timeOut
  refine AnsweredRightly.finishApproval hregistered ?_
  rw [if_pos rfl]
  refine answeredRightly_settled h hright hcall hgate ⟨fun other found hne hother => ?_,
    fun _ _ _ => Iff.rfl⟩ rfl hfound ((sameRequest_expireRow now row).runId.trans hrun) ?_
    fun entry hentry => ?_
  · exact (find_expire hother approvalId now).trans (by rw [if_neg hne])
  · rw [hexpired]
    exact answerFits_deny_iff.mpr (.inr (.inl rfl))
  · rcases mem_append.mp hentry with hbefore | hown
    · exact .inl hbefore
    · exact .inr ⟨mem_singleton.mp hown, .inr hexpired⟩

end

/-! ## The web interface -/

theorem resolvePending_iff (runId : String)
    (decision : ApprovalDecision) (now : ℤ) (delivered : String → Bool) :
    AnsweredRightly (state.resolvePendingInteraction runId decision now delivered) ↔
      AnswersReach state (.resolvePending runId decision now delivered) := by
  unfold DispatcherState.resolvePendingInteraction
  cases hpending : state.pendingInteractionKinds runId with
  | none =>
    refine iff_of_true hright fun interaction hsome => ?_
    cases hsome.symm.trans hpending
  | some interaction =>
    obtain ⟨call, hcall, hid, hcallRun⟩ := h.pending runId interaction hpending
    have hcondition : AnswersReach state (.resolvePending runId decision now delivered) ↔
        (call.waits → InTime state interaction.approvalId now ∧ decision = .deny ∧
          state.reached (state.cancellationScope runId) call.signal) := by
      constructor
      · intro hall hwaits
        exact hall interaction hpending call hcall hwaits hid
      · intro hone other hother found hfound hwaits hfoundId
        cases hpending.symm.trans hother
        obtain rfl := h.eq_of_id hcall hfound hid hfoundId
        exact hone hwaits
    rw [hcondition]
    dsimp only
    cases hwaits : call.waits with
    | false =>
      -- The row was decided, so the decision is not accepted and changes nothing.
      refine iff_of_true ?_ fun htrue => absurd htrue Bool.false_ne_true
      obtain ⟨place, hplace⟩ := getElem?_of_mem hcall
      obtain ⟨row, hrow, -⟩ := h.row place call _ hplace hid
      have hdecided := decided_of_fits (hright.calls call hcall) hwaits hid hrow
      have hclosed : isOpen row now = false := by simp [isOpen, hdecided]
      obtain ⟨hfirst, hrows, hstate⟩ := @DispatcherState.decideAndConsume_spec state
        ⟨interaction.approvalId, decision, some "webui", "user", now⟩ row hrow
      generalize hanswer : state.decideAndConsume
        ⟨interaction.approvalId, decision, some "webui", "user", now⟩ = answer at *
      obtain ⟨accepted, middle⟩ := answer
      dsimp only at hfirst hrows hstate
      rw [hclosed] at hfirst
      subst hfirst
      have hsame (id : String) (other : ApprovalRow)
          (hother : state.registry.find id = some other) :
          middle.registry.find id = some other := by
        rw [hrows id other hother]
        split
        · next hown =>
          rw [hown] at hother
          cases hrow.symm.trans hother
          have hunchanged : answerRow
              ⟨interaction.approvalId, decision, some "webui", "user", now⟩ row = row := by
            rw [answerRow, hclosed, Bool.false_and, if_neg Bool.false_ne_true,
              decideRow_of_not_requested hdecided]
          rw [hunchanged]
        · rfl
      have hmiddleCalls : middle.calls = state.calls := by rw [hstate]
      have hmiddleApprovals : middle.approvals = state.approvals := by
        rw [hstate]
        rw [hclosed, Bool.false_and, if_neg Bool.false_ne_true]
      have hmiddleCancellations : middle.cancellations = state.cancellations := by rw [hstate]
      refine ⟨fun other hother id outcome hgate => ?_, fun other id hmem => ?_⟩
      · rw [hmiddleCalls] at hother
        obtain ⟨found, hfound, hfits⟩ := hright.calls other hother id outcome hgate
        rw [hmiddleApprovals]
        exact ⟨found, hsame id found hfound, hfits⟩
      · rw [hmiddleCancellations] at hmem
        obtain ⟨found, hfound, htold⟩ := hright.cancellations other id hmem
        exact ⟨found, hsame id found hfound, htold⟩
    | true =>
      obtain ⟨id, hgate⟩ := gate_of_waits hwaits
      cases (approvalId_of_gate hgate).symm.trans hid
      obtain ⟨row, hrow, hrun, hrequested, hfirst, hfound, hdecides, hcalls, hcancellations,
        -⟩ := @decide_waiting state h hright call hcall
          ⟨interaction.approvalId, decision, some "webui", "user", now⟩ hgate
      have hevolves := @DispatcherState.evolves_decideAndConsume state
        ⟨interaction.approvalId, decision, some "webui", "user", now⟩ row hrow
      obtain ⟨-, -, hstate⟩ := @DispatcherState.decideAndConsume_spec state
        ⟨interaction.approvalId, decision, some "webui", "user", now⟩ row hrow
      rw [inTime_iff hrow hrequested]
      generalize hanswer : state.decideAndConsume
        ⟨interaction.approvalId, decision, some "webui", "user", now⟩ = answer at *
      obtain ⟨accepted, middle⟩ := answer
      dsimp only at hfirst hfound hdecides hcalls hcancellations hevolves hstate
      subst hfirst
      simp only [true_implies]
      cases hopen : isOpen row now with
      | false =>
        refine iff_of_false ?_ fun hall => Bool.false_ne_true hall.1
        refine not_answeredRightly_of_waiting (hcalls ▸ hcall) hgate hfound ?_
        rw [@status_answerRow_of_late
          ⟨interaction.approvalId, decision, some "webui", "user", now⟩ row hopen hrequested]
        decide
      | true =>
        have hregistered : Registered middle := h.evolves hevolves
        have hstatus := status_answerRow
          ⟨interaction.approvalId, decision, some "webui", "user", now⟩ row
        rw [if_pos hopen] at hstatus
        by_cases hdeny : decision = .deny
        · subst hdeny
          rw [if_pos rfl] at hstatus
          have hscope : middle.cancellationScope runId = state.cancellationScope runId := by
            rw [hstate]
            rfl
          have hreached : middle.reached (state.cancellationScope runId) =
              state.reached (state.cancellationScope runId) := by
            rw [hstate]
            rfl
          have hdenies := middle.denies_finishApproval_deny now delivered runId
            interaction.approvalId
          rw [hscope, hreached] at hdenies
          have hothers : ∀ other ∈ state.calls,
              other.approvalId? ≠ some interaction.approvalId → Fits middle other :=
            fun other hother hne => (hdecides.fits_iff h hother hne).mpr (hright.calls other hother)
          have hready : Registered { middle with cancellations :=
              middle.cancellations ++ [(runId, interaction.approvalId)] } :=
            hregistered.of_same rfl rfl rfl rfl
          rw [answeredRightly_denies_iff hready hdenies]
          · dsimp only
            rw [hcalls]
            constructor
            · intro hall
              refine ⟨rfl, rfl, ?_⟩
              rcases hall call hcall with hfits | hheard
              · have hbad := (fits_waiting_iff hgate hfound).mp hfits
                rw [hstatus] at hbad
                cases hbad
              · exact (Bool.and_eq_true_iff.mp hheard).2
            · rintro ⟨-, -, hheard⟩ other hother
              by_cases hown : other.approvalId? = some interaction.approvalId
              · obtain rfl := h.eq_of_id hcall hother hid hown
                exact .inr (by rw [hwaits, hheard]; rfl)
              · exact .inl (hothers other hother hown)
          · intro other hother otherId found hotherGate hotherRow
            by_cases hown : otherId = interaction.approvalId
            · rw [hown] at hotherRow
              cases hfound.symm.trans hotherRow
              exact .inr hstatus
            · have hne : other.approvalId? ≠ some interaction.approvalId := by
                rw [approvalId_of_gate hotherGate]
                exact fun hsame => hown (Option.some.inj hsame)
              rw [hcalls] at hother
              exact .inl ((fits_waiting_iff hotherGate hotherRow).mp (hothers other hother hne))
          · intro other otherId hmem
            rcases mem_append.mp hmem with hbefore | hown
            · rw [hcancellations] at hbefore
              exact hdecides.cancellations hright hrow hrequested hbefore
            · cases mem_singleton.mp hown
              exact ⟨_, hfound, (sameRequest_answerRow _ row).runId.trans
                (hrun.trans hcallRun), .inl hstatus⟩
        · refine iff_of_false (fun hbad => ?_) fun hall => hdeny hall.2.1
          rw [if_neg hdeny] at hstatus
          have hdenies := middle.denies_finishApproval_allow hdeny now delivered runId
            interaction.approvalId
          have hrowAfter := hdenies.rows _ _ hfound
          rw [status_deniedRow (by rw [hstatus]; decide)] at hrowAfter
          have hcallAfter : call ∈ (middle.finishApproval now delivered runId
              interaction.approvalId decision).calls := by
            rw [hdenies.calls, hcalls]
            refine mem_map.mpr ⟨call, hcall, ?_⟩
            simp [denyHeard]
          exact not_answeredRightly_of_waiting hcallAfter hgate hrowAfter
            (by rw [hstatus]; decide) hbad

/-! ## A call that comes in -/

/-- A call with the gate it is given joins the calls, and a call that asks supersedes the others
that wait for its run and tool. -/
theorem dispatch_iff {input : DispatchInput}
    (habsent : state.registry.find input.approvalId = none) :
    AnsweredRightly (state.dispatch input) ↔
      (Asks state input → ∀ call ∈ state.calls, call.waits →
        ¬ (call.runId = input.runId ∧ call.toolName = input.toolName)) := by
  have hserved (next : DispatcherState) (gate : CallGate)
      (hgate : (state.newCall input gate).approvalId? = none)
      (hcalls : next.calls = state.calls ++ [state.newCall input gate])
      (hregistry : next.registry = state.registry) (happrovals : next.approvals = state.approvals)
      (hcancellations : next.cancellations = state.cancellations) : AnsweredRightly next := by
    refine ⟨fun call hcall id outcome hasked => ?_, ?_⟩
    · rw [hcalls, mem_append, mem_singleton] at hcall
      rcases hcall with hbefore | rfl
      · rw [hregistry, happrovals]
        exact hright.calls call hbefore id outcome hasked
      · exact absurd ((approvalId_of_gate hasked).symm.trans hgate) (Option.some_ne_none id)
    · rw [hregistry, hcancellations]
      exact hright.cancellations
  obtain ⟨hnone, hnext⟩ | ⟨grant, -, hscope, hnext⟩ | ⟨grant, -, hsingle, hnext⟩ |
      ⟨hrequired, hscope, hsingle, hnext⟩ := state.dispatch_cases input
  · rw [hnext]
    refine iff_of_true (hserved _ .notRequired rfl rfl rfl rfl rfl) fun hasks => ?_
    cases hnone.symm.trans hasks.1
  · rw [hnext]
    refine iff_of_true (hserved _ (.allowRunScope grant) rfl rfl rfl rfl rfl) fun hasks => ?_
    exact absurd (hscope.symm.trans hasks.2.1) (Option.some_ne_none grant)
  · rw [hnext]
    refine iff_of_true (hserved _ (.singleScope grant) rfl rfl rfl rfl rfl) fun hasks => ?_
    exact absurd (hsingle.symm.trans hasks.2.2) (Option.some_ne_none grant)
  · rw [hnext]
    obtain ⟨hcalls, ⟨row, hrow, hrequested, -⟩, hrows, -, happrovals, hcancellations⟩ :=
      state.askRegistry_spec habsent
    have hsuperseded {call : GatedCall} {id : String} {row : ApprovalRow} {place : ℕ}
        (hplace : state.calls[place]? = some call) (hid : call.approvalId? = some id)
        (hrow : state.registry.find id = some row) :
        (supersedeRow (registryRequest (state.getApprovalOwnerKey input.runId) input) row).status =
          if (call.runId = input.runId ∧ call.toolName = input.toolName) ∧
            row.status = .requested then .superseded else row.status := by
      obtain ⟨found, hfound, hrun, htool⟩ := h.row place call id hplace hid
      cases hrow.symm.trans hfound
      rw [status_supersedeRow, hrun, htool]
      refine if_congr ?_ rfl rfl
      rw [and_assoc]
      exact Iff.rfl
    constructor
    · rintro hafter - call hcall hwaits hsame
      obtain ⟨id, hgate⟩ := gate_of_waits hwaits
      obtain ⟨place, hplace⟩ := mem_iff_getElem?.mp hcall
      obtain ⟨row, hrow, -⟩ := h.row place call id hplace (approvalId_of_gate hgate)
      refine not_answeredRightly_of_waiting (by rw [hcalls]; exact mem_append_left _ hcall)
        hgate (hrows id row hrow) ?_ hafter
      rw [hsuperseded hplace (approvalId_of_gate hgate) hrow,
        if_pos ⟨hsame, hright.requested hcall hgate hrow⟩]
      decide
    · intro hfree
      have hfree := hfree ⟨hrequired, hscope, hsingle⟩
      refine ⟨fun call hcall => ?_, fun runId id hmem => ?_⟩
      · rw [hcalls, mem_append, mem_singleton] at hcall
        rcases hcall with hbefore | rfl
        · refine (fits_congr (fun id hid => ?_) fun id _ decision => by rw [happrovals]).mpr
            (hright.calls call hbefore)
          obtain ⟨place, hplace⟩ := mem_iff_getElem?.mp hbefore
          obtain ⟨found, hfound, -⟩ := h.row place call id hplace hid
          rw [hrows id found hfound, hfound, Option.map_some, Option.map_some,
            hsuperseded hplace hid hfound, if_neg]
          rintro ⟨hsame, hrequested⟩
          cases hwaits : call.waits with
          | true => exact hfree call hbefore hwaits hsame
          | false => exact decided_of_fits (hright.calls call hbefore) hwaits hid hfound hrequested
        · exact (fits_waiting_iff rfl hrow).mpr hrequested
      · rw [hcancellations] at hmem
        obtain ⟨found, hfound, hrun, hstatus⟩ := hright.cancellations runId id hmem
        have hkept : (supersedeRow (registryRequest (state.getApprovalOwnerKey input.runId) input)
            found).status = found.status := by
          rw [status_supersedeRow, if_neg]
          rintro ⟨-, -, hrequested⟩
          rw [hrequested] at hstatus
          exact absurd hstatus (by decide)
        exact ⟨_, hrows id found hfound, (sameRequest_supersedeRow _ found).runId.trans hrun,
          by rwa [hkept]⟩

end

end

/-! ## Runs -/

theorem answersReach_of_other (h : step.isOfCall = false) : AnswersReach state step := by
  cases step with
  | dispatch | proceed | resolve | resolvePending | timeOut => cases h
  | _ => trivial

/-- A step keeps the answers right just where they reach the calls that asked. -/
theorem answeredRightly_step_iff (h : Registered state) (hright : AnsweredRightly state)
    (hnext : approvalStep? state step = some next) :
    AnsweredRightly next ↔ AnswersReach state step := by
  obtain ⟨middle, hmiddle, rfl⟩ := Option.map_eq_some_iff.mp hnext
  have hmarks : AnsweredRightly middle.markOutlived ↔ AnsweredRightly middle :=
    ⟨fun hmarked => ⟨hmarked.calls, hmarked.cancellations⟩,
      fun hplain => ⟨hplain.calls, hplain.cancellations⟩⟩
  rw [hmarks]
  cases hkind : step.isOfCall with
  | false =>
    obtain ⟨now, heard, hdenies⟩ := denies_act hmiddle hkind
    exact iff_of_true (hright.denies h hdenies) (answersReach_of_other hkind)
  | true =>
    cases step with
    | dispatch input =>
      simp only [act?] at hmiddle
      split at hmiddle
      · cases hmiddle
      · next habsent =>
        cases hmiddle
        rw [Option.not_isSome_iff_eq_none] at habsent
        exact dispatch_iff h hright habsent
    | proceed place findings withinRate =>
      obtain ⟨call, hcall, -, -, rfl⟩ := proceed_cases hmiddle
      refine iff_of_true ⟨fun other hother => ?_, hright.cancellations⟩ trivial
      rcases mem_or_eq_of_mem_set hother with hbefore | rfl
      · exact hright.calls other hbefore
      · exact hright.calls call (mem_of_getElem? hcall)
    | resolve place params delivered =>
      obtain ⟨call, hcall, ⟨approvalId, hgate, rfl⟩ | ⟨hwaits, rfl⟩⟩ := resolve_cases hmiddle
      · have hid := approvalId_of_gate hgate
        have hwaits : call.waits := by
          unfold GatedCall.waits CallGate.waits
          rw [hgate]
        rw [resolve_iff h hright hcall hgate params delivered]
        constructor
        · intro htime other hother _ id hotherId
          cases hcall.symm.trans hother
          cases hid.symm.trans hotherId
          exact htime
        · intro hall
          exact hall call hcall hwaits approvalId hid
      · refine iff_of_true hright fun other hother hwaiting => ?_
        cases hcall.symm.trans hother
        cases hwaits.symm.trans hwaiting
    | resolvePending runId decision now delivered =>
      cases hmiddle
      exact resolvePending_iff h hright runId decision now delivered
    | timeOut place now delivered =>
      obtain ⟨call, approvalId, hcall, hgate, rfl⟩ := timeOut_cases hmiddle
      exact iff_of_true (hright.timeOut h hcall hgate now delivered) trivial
    | abort signal now => cases hkind
    | grantRunApprovalScope runId => cases hkind
    | grantRunSingleApproval runId => cases hkind
    | createRun run => cases hkind
    | bindController runId signal => cases hkind
    | clearController runId => cases hkind
    | updateStatus runId status delivered => cases hkind
    | cancel runId now delivered => cases hkind
    | deleteRuns runIds now => cases hkind

theorem answeredRightly_startState (registry : ApprovalTable) (runs : RootRunTable) :
    AnsweredRightly (startState registry runs) :=
  ⟨nofun, nofun⟩

/-- In every state of a run the calls are answered as their rows were decided, and runs are
cancelled for denied and expired rows of their own, just where every answer of the run reaches
the call that asked. -/
theorem approvalAnswers_iff (registry : ApprovalTable) (runs : RootRunTable)
    (steps : List ApprovalStep) (last : DispatcherState) :
    Run (Reaching AnsweredRightly (Takes approvalStep?)) (startState registry runs) steps last ↔
      Run (Meeting AnswersReach (Takes approvalStep?)) (startState registry runs) steps last := by
  have hinv : ∀ state step next, Registered state → Takes approvalStep? state step next →
      Registered next := fun _ _ _ h hnext => registered_step h hnext
  have hstep : ∀ state step next, Registered state → AnsweredRightly state →
      Takes approvalStep? state step next → (AnsweredRightly next ↔ AnswersReach state step) :=
    fun _ _ _ h hright hnext => answeredRightly_step_iff h hright hnext
  exact Run.reaching_iff_meeting Registered hinv hstep (registered_startState registry runs)
    (answeredRightly_startState registry runs)

/-! ## Two captures of one run -/

/-- A call of a tool in a run, which asks for an approval. -/
def askingCall (toolName runId approvalId : String) (now : ℤ) : DispatchInput where
  toolName := toolName
  runId := runId
  requestGroupId := none
  source := "webui"
  signal := 0
  approvalModeOff := false
  requiresApproval := true
  capabilityApprovalRequired := false
  riskLevel := "moderate"
  paramsHash := "h"
  paramsPreviewJson := none
  metadataJson := none
  approvalId := approvalId
  now := now

/-- The registry and the runs are empty when two calls for one tool come in, one behind the
other. -/
def twoCaptures : List ApprovalStep :=
  [.dispatch (askingCall "screen_capture" "run-1" "a" 0),
    .dispatch (askingCall "screen_capture" "run-1" "b" 1)]

theorem twoCaptures_superseded :
    ((execute approvalStep? (startState .empty .empty) twoCaptures).map fun state =>
      (state.calls.map fun call => (call.approvalId?, call.waits),
        (state.registry.find "a").map ApprovalRow.status)) =
      some ([(some "a", true), (some "b", true)], some .superseded) := by
  decide +kernel

/-- The first capture waits on although its row is superseded. -/
theorem twoCaptures_notAnswered :
    ∃ state : DispatcherState,
      Run (Takes approvalStep?) (startState .empty .empty) twoCaptures state ∧
        ¬ AnsweredRightly state := by
  obtain ⟨state, hstate, htold⟩ := Option.map_eq_some_iff.mp twoCaptures_superseded
  obtain ⟨hcalls, hstatus⟩ := Prod.mk.inj htold
  refine ⟨state, Run.of_execute hstate, ?_⟩
  have hmem : (some "a", true) ∈ state.calls.map fun call => (call.approvalId?, call.waits) := by
    rw [hcalls]
    exact mem_cons_self
  obtain ⟨call, hcall, hsame⟩ := mem_map.mp hmem
  obtain ⟨hid, hwaits⟩ := Prod.mk.inj hsame
  obtain ⟨id, hgate⟩ := gate_of_waits hwaits
  cases (approvalId_of_gate hgate).symm.trans hid
  obtain ⟨row, hrow, hsuperseded⟩ := Option.map_eq_some_iff.mp hstatus
  exact not_answeredRightly_of_waiting hcall hgate hrow (by rw [hsuperseded]; decide)

end Nobie.Tools.Approvals
