/-
# When the decision of the harness is safe

A decision is safe if it delegates only to an available direct child, along a path of
allowed connections, and if it asks first whenever the model states a risk that needs
approval. The harness keeps to this for what it accepts and for what it falls back to, with
three exceptions. The check exempts the current executor, its parent and the executor that
asked from being a direct child. A fallback is never held against the graph or the stated
risk. And a stated risk boundary that is not complete is dropped before it is checked.
-/

import Nobie.Orchestration.ExecutionHarness

namespace Nobie.Orchestration

open Foundation List Option

/-! ## Safe decisions -/

/-- The graph lists the executor among the available children of the current one, and no
profile in the context says otherwise. -/
structure AvailableDirectChild (context : ExecutionContext) (graph : ExecutionGraphContext)
    (executorId : String) : Prop where
  listed : executorId ∈ graph.availableExecutorIds
  available : ∀ profile : ExecutorProfile,
    executorProfileById context executorId = some profile → profile.available

/-- A path from an executor to another along allowed connections. It may name the executor
it starts from or begin with the first hop. -/
def LeadsTo (graph : ExecutionGraphContext) (current : String) (path : List String)
    (target : String) : Prop :=
  ∃ hops : List String, (path = current :: hops ∨ path = hops) ∧
    hops.getLast? = some target ∧ (current :: hops).IsChain fun first second =>
      hasConnection graph.allowedConnections first second

variable (context : ExecutionContext)

/-- Does an object state that approval is required, or a kind of boundary that requires it? -/
def statesRisk (object : Json) : Bool :=
  match object.field? "risk_boundary" with
  | some (.obj boundary) =>
    ((Json.lookup boundary "requires_user_approval").any fun stated =>
        isBool (some stated) && stated.truthy) ||
      (stringValue (Json.lookup boundary "boundary_kind")).any (demandsApproval context.riskPolicy)
  | _ => false

/-- The JSON object in the output of the model, if there is one. -/
def outputObject : Option ModelBehaviour → Option Json
  | some (.answered output) => parseDecisionModelOutput output
  | some .rejected | some .timedOut | none => none

structure SafeDecision (context : ExecutionContext) (graph : ExecutionGraphContext)
    (object : Option Json) (decision : ExecutionDecision) : Prop where
  delegates : requiresSelectedPath decision.executionRoute →
    ∃ child, decision.selectedExecutorId = some child ∧
      AvailableDirectChild context graph child ∧
      LeadsTo graph context.currentExecutor.executorId decision.selectedConnectionPath child
  asks : ∀ stated ∈ object, statesRisk context stated → approvalRoute decision.executionRoute

/-! ## When the harness is safe -/

/-- The decision that the output of the model proposes. -/
def proposal (call : Option ModelBehaviour) : Option ExecutionDecision :=
  (outputObject call).bind (proposedDecision context)

def proposalStatus (decision : ExecutionDecision) : DelegationStatus :=
  (validateDecisionAgainstContext context decision false).status

/-- The selected executor is exempted from being a direct child only if it is one. -/
def EscapesToChild (graph : ExecutionGraphContext) (decision : ExecutionDecision) : Prop :=
  ∀ selected ∈ decision.selectedExecutorId, isStructuralEscape context false selected →
    selected ∈ graph.availableExecutorIds

/-- The first accessible executor that is available is a child in the graph as well. -/
def FallbackChildListed (graph : ExecutionGraphContext) : Prop :=
  ∀ child ∈ firstDelegableExecutor context,
    child.executorId ≠ "" ∧ child.executorId ≠ context.currentExecutor.executorId ∧
      AvailableDirectChild context graph child.executorId ∧
      hasConnection graph.allowedConnections context.currentExecutor.executorId child.executorId

/-- The stated boundary says whether it needs approval and why. -/
def statesBoundary (object : Json) : Bool :=
  match object.field? "risk_boundary" with
  | some (.obj boundary) => boundaryComplete boundary
  | _ => false

/-- Without a proposal the fallback asks. -/
def asksWithoutProposal : Bool :=
  directExecutionUnsafe context ||
    (!context.currentExecutor.available && (firstDelegableExecutor context).isNone &&
      context.parentExecutor.isSome)

/-- The issues whose fallback asks. -/
def asksForIssue (code : DelegationIssueCode) : Bool :=
  code = .riskBoundaryRequiresApproval || code = .parentExecutorMissing ||
    code = .providerTargetMissing

/-- In place of a refused proposal the fallback asks. -/
def asksAfterRefusal (code : DelegationIssueCode) : Bool :=
  asksForIssue code || directExecutionUnsafe context ||
    (!context.currentExecutor.available && context.parentExecutor.isSome)

/-- Whatever becomes of the output, the stated risk leads to a route that asks. -/
structure RiskKept (context : ExecutionContext) (object : Json) : Prop where
  missing : proposedDecision context object = none → asksWithoutProposal context
  refused : ∀ decision code, proposedDecision context object = some decision →
    proposalStatus context decision = .issue code → asksAfterRefusal context code
  accepted : ∀ decision, proposedDecision context object = some decision →
    proposalStatus context decision = .valid →
    statesBoundary object ∨ approvalRoute decision.executionRoute

/-- When the harness returns a safe decision. -/
structure ReturnsSafely (context : ExecutionContext) (graph : ExecutionGraphContext)
    (call : Option ModelBehaviour) : Prop where
  escapes : ∀ decision, proposal context call = some decision →
    proposalStatus context decision = .valid →
    requiresSelectedPath decision.executionRoute → EscapesToChild context graph decision
  fallbackChild : proposal context call = none → context.currentExecutor.available = false →
    context.directExecutionRequested = some true → FallbackChildListed context graph
  risk : ∀ object ∈ outputObject call, statesRisk context object → RiskKept context object

/-! ## Issues -/

variable {issues : List DelegationIssue}

/-- Something is left of every list of issues that is not empty. -/
theorem dedupeDelegationIssues_eq_nil : dedupeDelegationIssues issues = [] ↔ issues = [] := by
  have hkeeps : ∀ (rest result : List DelegationIssue), result ≠ [] →
      rest.foldl (fun result issue =>
        if result.any (·.key = issue.key) then result else result ++ [issue]) result ≠ [] := by
    intro rest
    induction rest with
    | nil => exact fun result hresult => hresult
    | cons issue rest ih =>
      intro result hresult
      rw [foldl_cons]
      apply ih
      split
      · exact hresult
      · simp
  cases issues with
  | nil => exact iff_of_true rfl rfl
  | cons issue rest =>
    refine iff_of_false ?_ (cons_ne_nil _ _)
    exact hkeeps rest [issue] (cons_ne_nil _ _)

theorem firstValidationStatus_eq_valid : firstValidationStatus issues = .valid ↔ issues = [] := by
  cases issues <;> simp [firstValidationStatus]

theorem ok_iff_valid (decision : ExecutionDecision) :
    (validateDecisionAgainstContext context decision false).ok ↔
      proposalStatus context decision = .valid := by
  unfold proposalStatus validateDecisionAgainstContext DelegationValidationResult.ok
  rw [firstValidationStatus_eq_valid, List.isEmpty_iff]

variable {decision : ExecutionDecision} {code : DelegationIssueCode} {object : Json}
  {call : Option ModelBehaviour}

/-- An accepted decision has no issue at all. -/
theorem decisionIssues_of_valid {context : ExecutionContext}
    (hvalid : proposalStatus context decision = .valid) :
    decisionIssues context decision false = [] := by
  exact dedupeDelegationIssues_eq_nil.mp (firstValidationStatus_eq_valid.mp hvalid)

/-! ## What is accepted -/

theorem isChain_of_pairPath {R : String → String → Prop} (path : List String)
    (hpairs : ∀ pair ∈ pairPath path, R pair.1 pair.2) : path.IsChain R := by
  induction path with
  | nil => exact .nil
  | cons first rest ih =>
    cases rest with
    | nil => exact .singleton _
    | cons second rest =>
      apply List.IsChain.cons_cons
      · exact hpairs (first, second) mem_cons_self
      · exact ih fun pair hpair => hpairs pair (mem_cons_of_mem _ hpair)

variable {context : ExecutionContext} {graph : ExecutionGraphContext}

section

variable (hgraph : context.executionGraph = some graph)
include hgraph

theorem directChildExecutorIds_eq :
    directChildExecutorIds context = graph.availableExecutorIds := by
  rw [directChildExecutorIds, hgraph]

/-- A path without issues leads from the current executor to the selected one. -/
theorem leadsTo_of_path_valid {selected : String}
    {route : ExecutionRoute} {path : List String} (hpath : path ≠ [])
    (hvalid : validateSelectedConnectionPath context (some selected) route path code = []) :
    LeadsTo graph context.currentExecutor.executorId path selected := by
  obtain ⟨hops, hhops, hnamed⟩ : ∃ hops,
      normalizeSelectedConnectionPath context (some selected) path = some hops ∧
        (path = context.currentExecutor.executorId :: hops ∨ path = hops) := by
    cases path with
    | nil => exact absurd rfl hpath
    | cons first rest =>
      by_cases hfirst : first = context.currentExecutor.executorId
      · exact ⟨rest, if_pos hfirst, .inl (by rw [hfirst])⟩
      · exact ⟨first :: rest, if_neg hfirst, .inr rfl⟩
  simp only [validateSelectedConnectionPath, hhops, append_eq_nil_iff,
    flatMap_eq_nil_iff, issueUnless_eq_nil, isNone_some, Bool.false_or,
    decide_eq_true_eq] at hvalid
  obtain ⟨⟨-, hlast⟩, hconnected⟩ := hvalid
  refine ⟨hops, hnamed, hlast, isChain_of_pairPath _ fun pair hpair => ?_⟩
  have hconnection := hconnected pair hpair
  rwa [allowedConnections, hgraph] at hconnection

/-- An accepted decision that delegates selects an executor that is available and a path to
it. Only an exempted executor need not be a direct child. -/
theorem delegates_of_valid
    (hvalid : proposalStatus context decision = .valid)
    (hroute : requiresSelectedPath decision.executionRoute) :
    ∃ selected, truthyText decision.selectedExecutorId = some selected ∧
      (selected ∈ graph.availableExecutorIds ∨ isStructuralEscape context false selected) ∧
      (∀ profile : ExecutorProfile,
        executorProfileById context selected = some profile → profile.available) ∧
      LeadsTo graph context.currentExecutor.executorId decision.selectedConnectionPath
        selected := by
  have hissues := decisionIssues_of_valid hvalid
  have hrequires : requiresSelectedExecutor decision.executionRoute := by
    unfold requiresSelectedPath at hroute
    simp only [requiresSelectedExecutor, hroute, Bool.true_or]
  simp only [decisionIssues, append_eq_nil_iff, issueUnless_eq_nil, hrequires,
    Bool.not_true, Bool.false_or, Bool.false_and, Bool.false_eq_true, if_false] at hissues
  obtain ⟨⟨⟨⟨⟨⟨-, hsome⟩, hselected⟩, hpath⟩, -⟩, -⟩, -⟩ := hissues
  obtain ⟨selected, hselectedId⟩ := isSome_iff_exists.mp hsome
  rw [hselectedId] at hselected
  simp only [map_some, getD_some, selectedIssues, append_eq_nil_iff,
    issueUnless_eq_nil, hrequires, hgraph, isSome_some, directChildExecutorIds_eq hgraph,
    decide_eq_true_eq, true_and] at hselected
  obtain ⟨⟨⟨-, hchild⟩, havailable⟩, -⟩ := hselected
  simp only [selectedPathIssues, hroute, true_or, if_true, append_eq_nil_iff,
    issueUnless_eq_nil, hselectedId, decide_eq_true_eq, true_and] at hpath
  refine ⟨selected, hselectedId, ?_, ?_, leadsTo_of_path_valid hgraph hpath.1 hpath.2⟩
  · by_contra hneither
    rw [not_or] at hneither
    exact hchild hneither
  · intro profile hprofile
    rw [hprofile] at havailable
    exact havailable

end

theorem riskBoundary_of_valid (hvalid : proposalStatus context decision = .valid) :
    riskBoundaryNeedsFallback context decision = false := by
  have hissues := decisionIssues_of_valid hvalid
  simp only [decisionIssues, append_eq_nil_iff, issueUnless_eq_nil] at hissues
  simpa using hissues.2

/-! ## What becomes of the stated boundary -/

/-- The boundary of a proposal is what the filling makes of the stated one. -/
theorem riskBoundary_of_proposedDecision
    (hproposed : proposedDecision context object = some decision) :
    decision.riskBoundary = coerceRiskBoundary (object.field? "risk_boundary") := by
  unfold proposedDecision at hproposed
  split at hproposed
  · rename_i found hfound
    split at hproposed
    · cases hproposed
      unfold normalizeDecisionModelValue at hfound
      cases object with
      | obj fields =>
        simp only [Json.fields?, Json.field?] at hfound ⊢
        split at hfound
        · rename_i candidate hcandidate
          unfold coerceDecisionV2Like at hcandidate
          split at hcandidate
          · cases hcandidate
          · cases hcandidate
            split at hfound
            · obtain rfl := NormalizedValue.decision.inj hfound
              rfl
            · cases hfound
        · split at hfound
          · rename_i candidate hcandidate
            unfold coerceDecisionV1Like at hcandidate
            split at hcandidate
            · cases hcandidate
            · cases hcandidate
              obtain rfl := NormalizedValue.decision.inj hfound
              rfl
          · cases hfound
      | null | bool value | num value | str value | arr items => simp [Json.fields?] at hfound
    · cases hproposed
  · cases hproposed
  · cases hproposed

/-- A complete boundary reaches the check, and a stated risk is found there. -/
theorem approvalRoute_of_boundary (hproposed : proposedDecision context object = some decision)
    (hvalid : proposalStatus context decision = .valid) (hboundary : statesBoundary object)
    (hrisk : statesRisk context object) : approvalRoute decision.executionRoute := by
  have hkept := riskBoundary_of_proposedDecision hproposed
  have hneeds := riskBoundary_of_valid hvalid
  unfold statesBoundary at hboundary
  split at hboundary
  · rename_i boundary hfield
    simp only [hfield, coerceRiskBoundary, hboundary, if_true] at hkept
    simp only [riskBoundaryNeedsFallback, hkept] at hneeds
    simp only [statesRisk, hfield, Bool.or_eq_true] at hrisk
    by_contra hroute
    rw [Bool.not_eq_true] at hroute
    rw [hroute, Bool.not_false, Bool.and_true, Bool.or_eq_false_iff] at hneeds
    obtain hrequired | hkind := hrisk
    · obtain ⟨stated, hstated, hboth⟩ := Option.any_eq_true _ _ |>.mp hrequired
      rw [Bool.and_eq_true] at hboth
      rw [hstated] at hneeds
      simp [hboth.2] at hneeds
    · obtain ⟨kind, hkind, hdemands⟩ := Option.any_eq_true _ _ |>.mp hkind
      rw [hkind] at hneeds
      simp [hdemands] at hneeds
  · cases hboundary

/-! ## What the fallback does -/

section

variable {reasonCode : HarnessReasonCode} (hreason : ∀ status, reasonCode ≠ .delegation status)
include hreason

/-- Without a proposal no fallback is preferred, and the reasons for it do not matter. -/
theorem selectFallbackRoute_none :
    selectFallbackRoute context none reasonCode =
      if directExecutionUnsafe context then
        if context.parentExecutor.isSome then .askParent else .askUser
      else if context.currentExecutor.available then .selfSolve
      else if (firstDelegableExecutor context).isSome then .delegateToChild
      else if context.parentExecutor.isSome then .returnToParent
      else .rootNobieDirect := by
  have hrisk := hreason (.issue .riskBoundaryRequiresApproval)
  simp [selectFallbackRoute, hrisk]

theorem asks_without_proposal :
    approvalRoute (selectFallbackRoute context none reasonCode).route =
      asksWithoutProposal context := by
  rw [selectFallbackRoute_none hreason, asksWithoutProposal]
  cases hunsafe : directExecutionUnsafe context <;> cases context.parentExecutor.isSome <;>
    cases context.currentExecutor.available <;>
    cases hchild : firstDelegableExecutor context <;> rfl

theorem delegates_without_proposal :
    requiresSelectedPath (selectFallbackRoute context none reasonCode).route ↔
      selectFallbackRoute context none reasonCode = .delegateToChild ∧
        context.currentExecutor.available = false ∧
        context.directExecutionRequested = some true ∧
        (firstDelegableExecutor context).isSome := by
  rw [selectFallbackRoute_none hreason, directExecutionUnsafe]
  cases context.parentExecutor.isSome <;> cases context.currentExecutor.available <;>
    cases hchild : firstDelegableExecutor context <;>
    by_cases hdirect : context.directExecutionRequested = some true <;>
    simp [hdirect, requiresSelectedPath, FallbackReason.route]

end

theorem isFallbackRouteAllowed_of_no_issue {route : FallbackReason}
    (hissues : routeIssues context route.route = []) :
    isFallbackRouteAllowed context route := by
  rw [isFallbackRouteAllowed, fallbackRouteIssues, hissues, List.isEmpty_iff]
  exact dedupeDelegationIssues_eq_nil.mpr rfl

/-- The preferred fallback is always one that the context allows. -/
theorem preferredFallback_allowed (code : DelegationIssueCode) :
    isFallbackRouteAllowed context (fallbackReasonForValidationStatus context (.issue code)) =
      true := by
  apply isFallbackRouteAllowed_of_no_issue
  unfold fallbackReasonForValidationStatus
  split_ifs with hrisk hparent hmissing hrequester hprovider havailable hparent <;>
    simp_all [routeIssues, FallbackReason.route, isSome_iff_ne_none]

/-- The fallback in place of a refused proposal. -/
theorem selectFallbackRoute_refused (code : DelegationIssueCode) :
    selectFallbackRoute context (some (fallbackReasonForValidationStatus context (.issue code)))
        (.delegation (.issue code)) =
      if code = .riskBoundaryRequiresApproval ∨
          (directExecutionUnsafe context ∧ isCurrentExecutorDirectFallback
            (fallbackReasonForValidationStatus context (.issue code))) then
        if context.parentExecutor.isSome then .askParent else .askUser
      else fallbackReasonForValidationStatus context (.issue code) := by
  have hallowed := @preferredFallback_allowed context code
  by_cases hcode : code = .riskBoundaryRequiresApproval
  · simp [selectFallbackRoute, hcode]
  · cases hunsafe : directExecutionUnsafe context <;>
      cases hdirect : isCurrentExecutorDirectFallback
        (fallbackReasonForValidationStatus context (.issue code)) <;>
      simp [selectFallbackRoute, hcode, hallowed, hunsafe, hdirect, Option.filter]

theorem asks_after_refusal (code : DelegationIssueCode) :
    approvalRoute (selectFallbackRoute context
        (some (fallbackReasonForValidationStatus context (.issue code)))
        (.delegation (.issue code))).route =
      asksAfterRefusal context code := by
  rw [selectFallbackRoute_refused, asksAfterRefusal, fallbackReasonForValidationStatus]
  cases hunsafe : directExecutionUnsafe context <;> cases context.parentExecutor.isSome <;>
    cases context.requesterExecutorId.isSome <;> cases context.currentExecutor.available <;>
    cases code <;> rfl

/-- A refused proposal is never replaced by a delegation. -/
theorem refusal_not_delegates (code : DelegationIssueCode) :
    requiresSelectedPath (selectFallbackRoute context
        (some (fallbackReasonForValidationStatus context (.issue code)))
        (.delegation (.issue code))).route = false := by
  rw [selectFallbackRoute_refused, fallbackReasonForValidationStatus]
  cases hunsafe : directExecutionUnsafe context <;> cases context.parentExecutor.isSome <;>
    cases context.requesterExecutorId.isSome <;> cases context.currentExecutor.available <;>
    cases code <;> rfl

/-- The fallback delegates to the first executor it finds, along an edge it does not look up. -/
theorem fallbackChildListed_iff {child : ExecutorProfile}
    (hchild : firstDelegableExecutor context = some child) :
    FallbackChildListed context graph ↔
      ∃ selected, truthyText (some child.executorId) = some selected ∧
        AvailableDirectChild context graph selected ∧
        LeadsTo graph context.currentExecutor.executorId
          (selectedPathForFallback context (some child.executorId)) selected := by
  have htruthy : ∀ selected, truthyText (some child.executorId) = some selected ↔
      child.executorId ≠ "" ∧ child.executorId = selected := by
    intro selected
    by_cases hempty : child.executorId = "" <;> simp [truthyText, Option.filter, hempty]
  constructor
  · intro hlisted
    obtain ⟨hnonempty, hother, havailable, hconnected⟩ := hlisted child hchild
    have hselected := (htruthy child.executorId).mpr ⟨hnonempty, rfl⟩
    refine ⟨child.executorId, hselected, havailable, [child.executorId], .inl ?_, rfl, ?_⟩
    · simp only [selectedPathForFallback, hselected, if_neg hother]
    · exact .cons_cons hconnected (.singleton _)
  · rintro ⟨selected, hselected, havailable, hops, hpath, hlast, hchain⟩ other hother
    cases hchild.symm.trans hother
    simp only [selectedPathForFallback, hselected] at hpath
    obtain ⟨hnonempty, rfl⟩ := (htruthy selected).mp hselected
    have hne : child.executorId ≠ context.currentExecutor.executorId := by
      intro hsame
      rw [if_pos hsame] at hpath
      obtain hnil | rfl := hpath
      · cases hnil
      · cases hlast
    rw [if_neg hne] at hpath
    refine ⟨hnonempty, hne, havailable, ?_⟩
    obtain hnamed | rfl := hpath
    · obtain rfl := (List.cons.inj hnamed).2
      exact (isChain_cons_cons.mp hchain).1
    · exact (isChain_cons_cons.mp (isChain_cons_cons.mp hchain).2).1

/-! ## The run -/

/-- Without a proposal the run falls back for a reason that is no refusal. -/
theorem run_without_proposal (hproposal : proposal context call = none) :
    ∃ (reasonCode : HarnessReasonCode) (detail : Option String),
      (∀ status, reasonCode ≠ .delegation status) ∧
        (runAgentExecutionHarness { context, callModel := call }).decision =
          buildFallbackDecision context (selectFallbackRoute context none reasonCode) reasonCode
            detail := by
  cases call with
  | none => exact ⟨.modelUnavailable, _, by simp, rfl⟩
  | some behaviour =>
    cases behaviour with
    | rejected => exact ⟨.modelCallFailed, none, by simp, rfl⟩
    | timedOut => exact ⟨.modelTimeout, none, by simp, rfl⟩
    | answered output =>
      cases hobject : parseDecisionModelOutput output with
      | none =>
        refine ⟨.nonJsonOutput, none, by simp, ?_⟩
        simp only [runAgentExecutionHarness, hobject]
        rfl
      | some object =>
        simp only [proposal, outputObject, hobject, bind_some] at hproposal
        refine ⟨.schemaInvalid, none, by simp, ?_⟩
        simp only [runAgentExecutionHarness, hobject, hproposal]
        rfl

theorem answered_of_outputObject (hobject : outputObject call = some object) :
    ∃ output, call = some (.answered output) ∧ parseDecisionModelOutput output = some object := by
  cases call with
  | none => cases hobject
  | some behaviour =>
    cases behaviour with
    | answered output => exact ⟨output, rfl, hobject⟩
    | rejected | timedOut => cases hobject

/-- A proposal without issues is returned. Only its confidence is brought into bounds. -/
theorem run_accepted (hproposal : proposal context call = some decision)
    (hvalid : proposalStatus context decision = .valid) :
    (runAgentExecutionHarness { context, callModel := call }).decision =
      { decision with
        confidence := normalizeConfidence (some (.num decision.confidence)) } := by
  obtain ⟨object, hobject, hproposed⟩ := bind_eq_some_iff.mp hproposal
  obtain ⟨output, rfl, hparsed⟩ := answered_of_outputObject hobject
  simp only [runAgentExecutionHarness, hparsed, hproposed, getD_none,
    (ok_iff_valid context decision).mpr hvalid, if_true]
  rfl

/-- A refused proposal is replaced by the fallback for its first issue. -/
theorem run_refused (hproposal : proposal context call = some decision)
    (hrefused : proposalStatus context decision = .issue code) :
    (runAgentExecutionHarness { context, callModel := call }).decision =
      buildFallbackDecision context (selectFallbackRoute context
          (some (fallbackReasonForValidationStatus context (.issue code)))
          (.delegation (.issue code)))
        (.delegation (.issue code)) none := by
  obtain ⟨object, hobject, hproposed⟩ := bind_eq_some_iff.mp hproposal
  obtain ⟨output, rfl, hparsed⟩ := answered_of_outputObject hobject
  have hnot : (validateDecisionAgainstContext context decision false).ok = false := by
    rw [← Bool.not_eq_true, ok_iff_valid, hrefused]
    exact DelegationStatus.noConfusion
  have hstatus : (validateDecisionAgainstContext context decision false).status = .issue code :=
    hrefused
  have hfallback : (validateDecisionAgainstContext context decision false).fallbackIfInvalid =
      fallbackReasonForValidationStatus context (.issue code) := by
    rw [← hrefused]
    rfl
  simp only [runAgentExecutionHarness, hparsed, hproposed, getD_none, hnot,
    Bool.false_eq_true, if_false, buildFallbackResult, hstatus, map_some, hfallback]
  rfl

theorem safe_without_proposal (hproposal : proposal context call = none) :
    SafeDecision context graph (outputObject call)
        (runAgentExecutionHarness { context, callModel := call }).decision ↔
      ReturnsSafely context graph call := by
  obtain ⟨reasonCode, detail, hreason, hrun⟩ := run_without_proposal hproposal
  have hasks := @asks_without_proposal context reasonCode hreason
  have hdelegates := @delegates_without_proposal context reasonCode hreason
  rw [hrun]
  constructor
  · intro hsafe
    refine ⟨?_, ?_, ?_⟩
    · intro decision hdecision
      cases hproposal.symm.trans hdecision
    · intro _ hunavailable hdirect child hmem
      have hchild : firstDelegableExecutor context = some child := hmem
      have hsome : (firstDelegableExecutor context).isSome := by simp [hchild]
      have hroute : selectFallbackRoute context none reasonCode = .delegateToChild := by
        rw [selectFallbackRoute_none hreason]
        simp [directExecutionUnsafe, hdirect, hunavailable, hsome]
      have hfound := hsafe.delegates (hdelegates.mpr ⟨hroute, hunavailable, hdirect, hsome⟩)
      simp only [buildFallbackDecision, hroute, selectedExecutorForFallback, hchild,
        map_some] at hfound
      exact (fallbackChildListed_iff hchild).mpr hfound child hmem
    · intro object hobject hrisk
      have hroute := hasks.symm.trans (hsafe.asks object hobject hrisk)
      have hnone : proposedDecision context object = none := by
        rwa [proposal, mem_def.mp hobject] at hproposal
      exact ⟨fun _ => hroute, fun decision _ hdecision => by simp [hnone] at hdecision,
        fun decision hdecision => by simp [hnone] at hdecision⟩
  · intro hreturns
    refine ⟨?_, ?_⟩
    · intro hroute
      obtain ⟨hselect, hunavailable, hdirect, hsome⟩ := hdelegates.mp hroute
      obtain ⟨child, hchild⟩ := isSome_iff_exists.mp hsome
      have hlisted := hreturns.fallbackChild hproposal hunavailable hdirect
      simpa only [buildFallbackDecision, hselect, selectedExecutorForFallback, hchild,
        map_some] using (fallbackChildListed_iff hchild).mp hlisted
    · intro object hobject hrisk
      have hnone : proposedDecision context object = none := by
        rwa [proposal, mem_def.mp hobject] at hproposal
      exact hasks.trans ((hreturns.risk object hobject hrisk).missing hnone)

theorem safe_of_refused (hproposal : proposal context call = some decision)
    (hrefused : proposalStatus context decision = .issue code) :
    SafeDecision context graph (outputObject call)
        (runAgentExecutionHarness { context, callModel := call }).decision ↔
      ReturnsSafely context graph call := by
  obtain ⟨object, hobject, hproposed⟩ := bind_eq_some_iff.mp hproposal
  have hasks := @asks_after_refusal context code
  have hdelegates := @refusal_not_delegates context code
  have hnever : proposalStatus context decision ≠ .valid := by simp [hrefused]
  rw [run_refused hproposal hrefused]
  constructor
  · intro hsafe
    refine ⟨?_, fun hnone => by simp [hproposal] at hnone, ?_⟩
    · intro other hother hvalid
      cases hproposal.symm.trans hother
      exact absurd hvalid hnever
    · intro other hother hrisk
      cases hobject.symm.trans hother
      refine ⟨fun hnone => by simp [hproposed] at hnone, ?_, ?_⟩
      · intro other code' hother hstatus
        cases hproposed.symm.trans hother
        obtain rfl := DelegationStatus.issue.inj (hrefused.symm.trans hstatus)
        exact hasks.symm.trans (hsafe.asks object hobject hrisk)
      · intro other hother hvalid
        cases hproposed.symm.trans hother
        exact absurd hvalid hnever
  · intro hreturns
    refine ⟨fun hroute => ?_, ?_⟩
    · cases hdelegates.symm.trans hroute
    · intro other hother hrisk
      cases hobject.symm.trans hother
      exact hasks.trans ((hreturns.risk object hobject hrisk).refused decision code hproposed
        hrefused)

theorem safe_of_accepted (hgraph : context.executionGraph = some graph)
    (hproposal : proposal context call = some decision)
    (hvalid : proposalStatus context decision = .valid) :
    SafeDecision context graph (outputObject call)
        (runAgentExecutionHarness { context, callModel := call }).decision ↔
      ReturnsSafely context graph call := by
  obtain ⟨object, hobject, hproposed⟩ := bind_eq_some_iff.mp hproposal
  rw [run_accepted hproposal hvalid]
  constructor
  · intro hsafe
    refine ⟨?_, fun hnone => by simp [hproposal] at hnone, ?_⟩
    · intro other hother _ hroute selected hselected _
      cases hproposal.symm.trans hother
      obtain ⟨child, hchild, havailable, -⟩ := hsafe.delegates hroute
      cases hchild.symm.trans hselected
      exact havailable.listed
    · intro other hother hrisk
      cases hobject.symm.trans hother
      refine ⟨fun hnone => by simp [hproposed] at hnone, ?_, ?_⟩
      · intro other code hother hstatus
        cases hproposed.symm.trans hother
        simp [hvalid] at hstatus
      · intro other hother _
        cases hproposed.symm.trans hother
        exact .inr (hsafe.asks object hobject hrisk)
  · intro hreturns
    refine ⟨?_, ?_⟩
    · intro hroute
      obtain ⟨selected, hselected, hlisted, havailable, hleads⟩ :=
        delegates_of_valid hgraph hvalid hroute
      have hstated : decision.selectedExecutorId = some selected :=
        (filter_eq_some_iff.mp hselected).1
      refine ⟨selected, hstated, ⟨?_, havailable⟩, hleads⟩
      obtain hchild | hescape := hlisted
      · exact hchild
      · exact hreturns.escapes decision hproposal hvalid hroute selected hstated hescape
    · intro other hother hrisk
      cases hobject.symm.trans hother
      obtain hboundary | hroute :=
        (hreturns.risk object hobject hrisk).accepted decision hproposed hvalid
      · have hasks := approvalRoute_of_boundary hproposed hvalid hboundary hrisk
        exact hasks
      · exact hroute

/-- Within a graph, and without leave to go to an explicit target, the returned decision is
safe exactly when an accepted delegation to an exempted executor goes to a child all the
same, a fallback that delegates goes to a child of the graph, and a stated risk is met by a
complete boundary or by a fallback that asks. -/
theorem safeDecision_iff (hgraph : context.executionGraph = some graph)
    (call : Option ModelBehaviour) :
    SafeDecision context graph (outputObject call)
        (runAgentExecutionHarness { context, callModel := call }).decision ↔
      ReturnsSafely context graph call := by
  cases hproposal : proposal context call with
  | none => exact safe_without_proposal hproposal
  | some decision =>
    cases hstatus : proposalStatus context decision with
    | valid => exact safe_of_accepted hgraph hproposal hstatus
    | issue code => exact safe_of_refused hproposal hstatus

/-! ## A risk without a reason -/

def aloneGraph : ExecutionGraphContext where
  rootExecutorId := "agent:nobie"
  currentExecutorId := "agent:nobie"
  availableExecutorIds := []
  allActiveExecutorIds := ["agent:nobie"]
  allRegisteredExecutorIds := none
  allowedConnections := []

/-- The root executor, alone in its graph. Every kind of risk needs approval. -/
def aloneContext : ExecutionContext where
  request := { latestUserMessage := none, structuredGoal := none, requiredOutputs := none }
  currentExecutor :=
    { executorId := "agent:nobie", displayName := "Nobie", roleName := none
      canDelegate := true, available := true }
  parentExecutor := none
  requester := none
  accessibleExecutors := []
  diagnosticExecutors := none
  accessibleConnections := []
  riskPolicy := { approvalRequiredFor := RiskBoundaryKind.all, blockedWithoutApproval := none }
  executionGraph := some aloneGraph
  directExecutionRequested := none
  explicitTargetExecutorId := none
  explicitProviderTargetId := none

/-- The model wants to do the work itself and says that the user must approve. It gives no
reason for that. -/
def unexplainedApproval : ModelBehaviour :=
  .answered
    "\x7b\"action\":\"self_solve\",\"risk_boundary\":\x7b\"requires_user_approval\":true\x7d\x7d"

theorem safeDecision_alone :
    SafeDecision aloneContext aloneGraph (outputObject (some unexplainedApproval))
        (runAgentExecutionHarness
          { context := aloneContext, callModel := some unexplainedApproval }).decision ↔
      ReturnsSafely aloneContext aloneGraph (some unexplainedApproval) :=
  safeDecision_iff rfl (some unexplainedApproval)

/-- The work is done without approval. -/
theorem unexplainedApproval_not_safe :
    ¬ SafeDecision aloneContext aloneGraph (outputObject (some unexplainedApproval))
      (runAgentExecutionHarness
        { context := aloneContext, callModel := some unexplainedApproval }).decision := by
  intro hsafe
  have hroute : approvalRoute (runAgentExecutionHarness
      { context := aloneContext, callModel := some unexplainedApproval }).decision.executionRoute =
        false := by decide +kernel
  have hstated : (outputObject (some unexplainedApproval)).any (statesRisk aloneContext) := by
    decide +kernel
  obtain ⟨object, hobject, hrisk⟩ := Option.any_eq_true _ _ |>.mp hstated
  exact absurd (hsafe.asks object hobject hrisk) (by simp [hroute])

end Nobie.Orchestration
