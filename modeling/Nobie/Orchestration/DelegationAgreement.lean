/-
# How far the two checks of a delegation agree

Where the candidate edges have no cycle, what the harness lets pass is what the check of the path
lets pass, with three things more: every edge of the path is a candidate, the first executor of
the path is available, and so is the selected one, unless it is the executor that asked. The check
of the path looks at none of the three. It trims the ids of a path, which the harness does not, so
that the two speak of the same path only where trimming changes nothing.
-/

import Nobie.Orchestration.DelegationPath
import Nobie.Orchestration.DecisionSafety

namespace Nobie.Orchestration

open Foundation Nobie.Topology List Relation

/-! ## What is compared -/

/-- The issues about the executor, its path and its availability. -/
def DelegationIssueCode.concernsDelegation : DelegationIssueCode → Bool
  | .missingExecutor | .emptySelectedPath | .inaccessibleConnectionPath
  | .selectedExecutorNotInGraph | .selectedExecutorNotDirectChild
  | .selectedConnectionPathInvalid | .executorUnavailable => true
  | .permissionDenied | .riskBoundaryRequiresApproval | .fallbackNotAllowed
  | .providerTargetMissing | .parentExecutorMissing => false

/-- None of the issues is about the executor, its path and its availability. -/
def Silent (issues : List DelegationIssue) : Prop :=
  ∀ issue ∈ issues, issue.code.concernsDelegation = false

/-- The harness has nothing against the executor, its path and its availability. -/
def HarnessAccepts (context : ExecutionContext) (decision : ExecutionDecision) : Prop :=
  Silent (validateDecisionAgainstContext context decision false).issues

/-- The executors behind the current one on a path that may name it first. -/
def hopsOf (currentExecutorId : String) (path : List String) : List String :=
  if path.head? = some currentExecutorId then path.tail else path

/-- What the harness asks for beyond a path in the graph. -/
structure OpenTo (parts : GraphParts) (requesterId : Option String) (hops : List String)
    (selectedId : String) : Prop where
  candidates : (parts.currentExecutorId :: hops).IsChain parts.Open
  entry : ∃ first, hops.head? = some first ∧ parts.Available first
  selected : parts.Available selectedId ∨ requesterId = some selectedId ∧ parts.Enabled selectedId

/-- The current executor, and the executors of the graph that a decision names, have ids that
trimming leaves as they are. -/
def NamesTrimmed (parts : GraphParts) (decision : ExecutionDecision) : Prop :=
  ∀ id, id = parts.currentExecutorId ∨
      (decision.selectedExecutorId = some id ∨ id ∈ decision.selectedConnectionPath) ∧
        (parts.agentsById.get? id).isSome →
    jsTrim id = id ∧ id ≠ ""

/-! ## Issues that concern the delegation -/

variable {issue : DelegationIssue} {issues : List DelegationIssue} {path : List String}
  {first executorId id current : String}

/-- Two issues with one key have one code, since no code has a colon. -/
theorem code_of_key {other : DelegationIssue} (hkey : issue.key = other.key) :
    issue.code = other.code := by
  have hfront (issue : DelegationIssue) :
      issue.key.toList.takeWhile (· ≠ ':') = issue.code.text.toList := by
    have hkey : issue.key = issue.code.text ++ ":" ++ issue.executorId.getD "" ++ ":" ++
        String.intercalate ">" (issue.connectionPath.getD []) ++ ":" ++ issue.message := rfl
    have hshape : ∃ rest, issue.key.toList = issue.code.text.toList ++ ':' :: rest := by
      refine ⟨(issue.executorId.getD "" ++ ":" ++
        String.intercalate ">" (issue.connectionPath.getD []) ++ ":" ++ issue.message).toList, ?_⟩
      rw [hkey]
      simp only [String.toList_append, append_assoc]
      rfl
    obtain ⟨rest, hrest⟩ := hshape
    rw [hrest, takeWhile_append_of_pos]
    · simp
    · cases issue.code <;> simp [DelegationIssueCode.text]
  have htext : issue.code.text.toList = other.code.text.toList := by rw [← hfront, ← hfront, hkey]
  revert htext
  cases issue.code <;> cases other.code <;> decide +kernel

theorem exists_mem_dedupe (hissue : issue ∈ issues) :
    ∃ kept ∈ dedupeDelegationIssues issues, kept.key = issue.key := by
  have hfold : ∀ (rest result : List DelegationIssue),
      (∃ kept ∈ result, kept.key = issue.key) ∨ issue ∈ rest →
      ∃ kept ∈ rest.foldl (fun result issue =>
        if result.any (·.key = issue.key) then result else result ++ [issue]) result,
          kept.key = issue.key := by
    intro rest
    induction rest with
    | nil =>
      intro result hkept
      exact hkept.resolve_right not_mem_nil
    | cons first rest ih =>
      intro result hkept
      rw [foldl_cons]
      apply ih
      rw [mem_cons] at hkept
      obtain ⟨kept, hmem, hkey⟩ | rfl | hrest := hkept
      · left
        split
        · exact ⟨kept, hmem, hkey⟩
        · exact ⟨kept, mem_append_left _ hmem, hkey⟩
      · left
        split
        · next hany => simpa using hany
        · exact ⟨issue, mem_append_cons_self, rfl⟩
      · exact .inr hrest
  exact hfold issues [] (.inr hissue)

theorem mem_of_mem_dedupe (hissue : issue ∈ dedupeDelegationIssues issues) : issue ∈ issues := by
  refine List.foldlRecOn issues _ (motive := fun result : List DelegationIssue =>
    ∀ issue ∈ result, issue ∈ issues) (forall_mem_nil _) ?_ issue hissue
  intro result hresult first hfirst kept hkept
  split at hkept
  · exact hresult kept hkept
  · obtain hbefore | hnew := mem_append.mp hkept
    · exact hresult kept hbefore
    · exact mem_singleton.mp hnew ▸ hfirst

/-- No issue is lost with its duplicates. -/
theorem silent_dedupe : Silent (dedupeDelegationIssues issues) ↔ Silent issues := by
  constructor
  · intro h issue hissue
    obtain ⟨kept, hkept, hkey⟩ := exists_mem_dedupe hissue
    rw [← code_of_key hkey]
    exact h kept hkept
  · exact fun h issue hissue => h issue (mem_of_mem_dedupe hissue)

theorem silent_append {others : List DelegationIssue} :
    Silent (issues ++ others) ↔ Silent issues ∧ Silent others :=
  forall_mem_append

variable {holds : Bool} {hops : List String}

theorem silent_issueUnless (hconcerns : issue.code.concernsDelegation) :
    Silent (issueUnless holds issue) ↔ holds := by
  cases holds <;> simp [Silent, issueUnless, hconcerns]

theorem silent_issueUnless_other (hother : issue.code.concernsDelegation = false) :
    Silent (issueUnless holds issue) := by
  cases holds <;> simp [Silent, issueUnless, hother]

/-- The routes say nothing about the delegation. -/
theorem silent_fallbackRouteIssues {context : ExecutionContext} {route : ExecutionRoute}
    {fallback : FallbackReason} : Silent (fallbackRouteIssues context route fallback) := by
  have hroute (route : ExecutionRoute) : Silent (routeIssues context route) := by
    refine silent_append.mpr ⟨silent_append.mpr ⟨?_, ?_⟩, ?_⟩
    · exact silent_issueUnless_other rfl
    · exact silent_issueUnless_other rfl
    · exact silent_issueUnless_other rfl
  exact silent_dedupe.mpr (silent_append.mpr ⟨hroute _, hroute _⟩)

/-! ## What the harness accepts -/

section Harness

variable {context : ExecutionContext} {decision : ExecutionDecision} {selectedId : String}
  {graph : ExecutionGraphContext}

/-- The questions about the selected executor. -/
theorem silent_selectedIssues (hgraph : context.executionGraph = some graph)
    (hrequires : requiresSelectedExecutor decision.executionRoute) :
    Silent (selectedIssues context decision false selectedId) ↔
      (selectedId ∈ allKnownGraphExecutorIds context ∨
          isStructuralEscape context false selectedId) ∧
        (selectedId ∈ graph.availableExecutorIds ∨ isStructuralEscape context false selectedId) ∧
        (executorProfileById context selectedId).all (·.available) ∧
        (selectedId = context.currentExecutor.executorId → context.currentExecutor.available) := by
  simp only [selectedIssues, hgraph, Option.isSome_some, if_true, silent_append]
  rw [silent_issueUnless rfl, silent_issueUnless rfl, silent_issueUnless rfl,
    silent_issueUnless rfl]
  simp only [directChildExecutorIds_eq hgraph, hrequires, true_and, Bool.or_eq_true,
    decide_eq_true_eq]
  tauto

/-- The questions about a path that is given. -/
theorem silent_selectedPathIssues (hgraph : context.executionGraph = some graph)
    (hrequires : requiresSelectedPath decision.executionRoute)
    (hselected : truthyText decision.selectedExecutorId = some selectedId)
    (hpath : decision.selectedConnectionPath ≠ []) :
    Silent (selectedPathIssues context decision) ↔
      (truthyText (hopsOf context.currentExecutor.executorId
          decision.selectedConnectionPath).head?).any (· ∈ graph.availableExecutorIds) ∧
        (hopsOf context.currentExecutor.executorId
          decision.selectedConnectionPath).getLast? = some selectedId ∧
        ∀ pair ∈ pairPath (context.currentExecutor.executorId ::
            hopsOf context.currentExecutor.executorId decision.selectedConnectionPath),
          hasConnection graph.allowedConnections pair.1 pair.2 := by
  have hhops : normalizeSelectedConnectionPath context (some selectedId)
      decision.selectedConnectionPath = some (hopsOf context.currentExecutor.executorId
        decision.selectedConnectionPath) := by
    cases hitems : decision.selectedConnectionPath with
    | nil => exact absurd hitems hpath
    | cons first rest =>
      by_cases hfirst : first = context.currentExecutor.executorId
      · simp [normalizeSelectedConnectionPath, hopsOf, hfirst]
      · simp [normalizeSelectedConnectionPath, hopsOf, hfirst]
  have hallowed : allowedConnections context = graph.allowedConnections := by
    rw [allowedConnections, hgraph]
    rfl
  have hcode : (if context.executionGraph.isSome then
        DelegationIssueCode.selectedConnectionPathInvalid
      else DelegationIssueCode.inaccessibleConnectionPath).concernsDelegation := by
    rw [hgraph]
    rfl
  have hedges (pairs : List (String × String)) (issue : String × String → DelegationIssue)
      (hissue : ∀ pair, (issue pair).code.concernsDelegation) :
      Silent (pairs.flatMap fun pair => issueUnless
          (hasConnection graph.allowedConnections pair.1 pair.2) (issue pair)) ↔
        ∀ pair ∈ pairs, hasConnection graph.allowedConnections pair.1 pair.2 := by
    rw [Silent, forall_mem_flatMap]
    exact forall₂_congr fun pair _ => silent_issueUnless (hissue pair)
  rw [selectedPathIssues, if_pos (.inl hrequires), silent_append, silent_issueUnless rfl, hselected,
    validateSelectedConnectionPath, hhops]
  rw [silent_append, silent_append, silent_issueUnless hcode, silent_issueUnless hcode, hallowed,
    hedges _ _ fun _ => hcode]
  simp only [hgraph, directChildExecutorIds_eq hgraph, hpath, Option.isNone_some, Bool.false_or,
    decide_eq_true_eq, and_false, not_false_eq_true, true_and, and_assoc]

/-- What the harness asks of a decision that delegates to a child. -/
theorem harnessAccepts_cases
    (hnamed : decision.currentExecutorId = context.currentExecutor.executorId)
    (hselected : truthyText decision.selectedExecutorId = some selectedId) :
    HarnessAccepts context decision ↔ Silent (selectedIssues context decision false selectedId) ∧
        Silent (selectedPathIssues context decision) := by
  have hlast : Silent (issueUnless (!riskBoundaryNeedsFallback context decision)
      { code := .riskBoundaryRequiresApproval
        message := "Decision crosses a configured risk boundary without an approval route." }) :=
    silent_issueUnless_other rfl
  rw [HarnessAccepts, validateDecisionAgainstContext, silent_dedupe, decisionIssues, hselected]
  simp only [silent_append, Option.map_some, Option.getD_some, Bool.false_and, Bool.false_eq_true,
    if_false]
  rw [silent_issueUnless rfl, silent_issueUnless rfl]
  simp only [hnamed, decide_true, Option.isSome_some, Bool.or_true, true_and,
    silent_fallbackRouteIssues, hlast, and_true]
  exact and_iff_left (silent_issueUnless_other rfl)

end Harness

/-! ## Chains without cycles -/

/-- No executor is reached from itself over candidate edges. -/
def GraphParts.Acyclic (parts : GraphParts) : Prop := ∀ id, ¬Relation.TransGen parts.Open id id

section Chains

variable {parts : GraphParts} {hops : List String} {selectedId : String}

theorem forall_pairPath_iff {R : String → String → Prop} :
    (∀ pair ∈ pairPath path, R pair.1 pair.2) ↔ path.IsChain R := by
  constructor
  · exact isChain_of_pairPath path
  · intro hchain
    induction hchain with
    | nil | singleton => exact forall_mem_nil _
    | cons_cons hfirst hrest ih => exact forall_mem_cons.mpr ⟨hfirst, ih⟩

/-- Every executor of a chain leads to all that follow. -/
theorem pairwise_of_open (hchain : (parts.currentExecutorId :: hops).IsChain parts.Open) :
    (parts.currentExecutorId :: hops).Pairwise (TransGen parts.Open) :=
  isChain_iff_pairwise.mp (hchain.imp fun _ _ => TransGen.single)

theorem nodup_of_open (hacyclic : parts.Acyclic)
    (hchain : (parts.currentExecutorId :: hops).IsChain parts.Open) :
    (parts.currentExecutorId :: hops).Nodup := by
  apply (pairwise_of_open hchain).imp
  intro first second hleads hsame
  exact hacyclic first (hsame ▸ hleads)

theorem leads_to_last (hchain : (parts.currentExecutorId :: hops).IsChain parts.Open)
    (hlast : hops.getLast? = some selectedId) :
    TransGen parts.Open parts.currentExecutorId selectedId :=
  rel_of_pairwise_cons (pairwise_of_open hchain) (mem_of_getLast? hlast)

/-- The executors behind the first of a chain stand in the graph. -/
theorem known_of_chain (hchain : (first :: hops).IsChain parts.Open) :
    ∀ id ∈ hops, ∃ agent, parts.agentsById.get? id = some agent := by
  induction hops generalizing first with
  | nil => exact forall_mem_nil _
  | cons second rest ih =>
    rw [isChain_cons_cons] at hchain
    exact forall_mem_cons.mpr ⟨hchain.1.linked.known, ih hchain.2⟩

end Chains

/-! ## The context of a snapshot -/

section Context

variable {host : Host} {names : String → ExecutorNames} {parts : GraphParts} {input : ContextInput}

theorem executorId_graphProfile (executorId : String) :
    (graphProfile names (parts.snapshot host) executorId).executorId = executorId := by
  unfold graphProfile runtimeProjectionToExecutorProfile
  split
  · rfl
  · next hagent => exact parts.keyed _ _ hagent

theorem available_graphProfile (hknown : ∃ agent, parts.agentsById.get? executorId = some agent) :
    (graphProfile names (parts.snapshot host) executorId).available ↔ parts.Enabled executorId := by
  obtain ⟨agent, hagent⟩ := hknown
  have hprofile : graphProfile names (parts.snapshot host) executorId =
      runtimeProjectionToExecutorProfile names (some agent) executorId := by
    rw [← hagent]
    rfl
  rw [hprofile, GraphParts.Enabled, hagent]
  simp [runtimeProjectionToExecutorProfile]

theorem open_of_parent {parentId : String}
    (hparent : (buildExecutionContext host names (parts.snapshot host) input).parentExecutor.map
      (·.executorId) = some parentId) : parts.Open parentId parts.currentExecutorId := by
  have hfirst : parentExecutorIdFor host (parts.snapshot host) parts.currentExecutorId =
      some parentId := by
    rw [← hparent]
    show _ = ((parentExecutorIdFor host (parts.snapshot host) parts.currentExecutorId).map _).map _
    have hids : (fun profile : ExecutorProfile => profile.executorId) ∘
        graphProfile names (parts.snapshot host) = id := funext executorId_graphProfile
    rw [Option.map_map, hids, Option.map_id, id_eq]
  obtain ⟨edge, hedge, rfl⟩ := mem_map.mp (mem_sortedTexts.mp (mem_of_head? hfirst))
  obtain ⟨hmem, hends⟩ := mem_filter.mp hedge
  rw [Bool.and_eq_true, decide_eq_true_eq] at hends
  exact ⟨edge, GraphParts.mem_edges_snapshot.mp hmem, hends.2, rfl, hends.1⟩

theorem hasConnection_context {second : String} :
    hasConnection (((parts.snapshot host).edges.filter (·.executionCandidate)).map graphConnection)
        first second ↔ parts.Open first second := by
  rw [hasConnection, any_map, any_filter, any_eq_true]
  simp only [Function.comp_apply, Bool.and_eq_true, decide_eq_true_eq]
  exact GraphParts.candidateEdge_snapshot

/-- A known executor that is not the current one or its parent is shown as the graph has it. -/
theorem profile_of_known (host : Host) (names : String → ExecutorNames)
    (hknown : ∃ agent, parts.agentsById.get? executorId = some agent)
    (hcurrent : executorId ≠ parts.currentExecutorId)
    (hother : (buildExecutionContext host names (parts.snapshot host)
      input).currentExecutor.executorId ≠ executorId)
    (hparent : (buildExecutionContext host names (parts.snapshot host) input).parentExecutor.map
      (·.executorId) ≠ some executorId) :
    executorProfileById (buildExecutionContext host names (parts.snapshot host) input) executorId =
      some (graphProfile names (parts.snapshot host) executorId) := by
  let diagnostics := (parts.snapshot host).allRegisteredExecutorIds.filter fun id =>
    id ≠ (parts.snapshot host).currentExecutorId && id ∉ (parts.snapshot host).availableExecutorIds
  have hlisted : executorId ∈ (parts.snapshot host).availableExecutorIds ++ diagnostics := by
    by_cases havailable : executorId ∈ (parts.snapshot host).availableExecutorIds
    · exact mem_append_left _ havailable
    · refine mem_append_right _ (mem_filter.mpr ⟨?_, ?_⟩)
      · exact GraphParts.mem_registered_snapshot.mpr hknown
      · exact Bool.and_eq_true_iff.mpr ⟨decide_eq_true hcurrent, decide_eq_true havailable⟩
  have hfound : ((parts.snapshot host).availableExecutorIds ++ diagnostics).find?
      (· = executorId) = some executorId := by
    have hsome : (((parts.snapshot host).availableExecutorIds ++ diagnostics).find?
        (· = executorId)).isSome :=
      find?_isSome.mpr ⟨executorId, hlisted, decide_eq_true rfl⟩
    obtain ⟨found, hfind⟩ := Option.isSome_iff_exists.mp hsome
    have hsame := find?_some hfind
    rw [hfind, of_decide_eq_true hsame]
  rw [executorProfileById, if_neg hother, if_neg hparent]
  show List.find? _ (List.map _ _ ++ List.map _ diagnostics) = _
  rw [← map_append, find?_map]
  have hids : (fun profile : ExecutorProfile => decide (profile.executorId = executorId)) ∘
      graphProfile names (parts.snapshot host) = fun id => decide (id = executorId) :=
    funext fun id => congrArg (fun id => decide (id = executorId)) (executorId_graphProfile id)
  rw [hids, hfound, Option.map_some]

theorem current_context (host : Host) (names : String → ExecutorNames)
    (hcurrent : ∀ profile ∈ input.currentExecutor, profile.executorId = parts.currentExecutorId) :
    (buildExecutionContext host names (parts.snapshot host) input).currentExecutor.executorId =
      parts.currentExecutorId := by
  show (input.currentExecutor.getD _).executorId = _
  cases hgiven : input.currentExecutor with
  | none => exact executorId_graphProfile _
  | some profile => exact hcurrent profile hgiven

end Context

/-! ## The two checks -/

section Agreement

variable {host : Host} {names : String → ExecutorNames} {parts : GraphParts} {input : ContextInput}
  {decision : ExecutionDecision} {selectedId : String}

theorem mem_of_mem_hopsOf (hid : id ∈ hopsOf current path) : id ∈ path := by
  unfold hopsOf at hid
  split at hid
  · exact mem_of_mem_tail hid
  · exact hid

section

variable (hselected : truthyText decision.selectedExecutorId = some selectedId)
include hselected

theorem selectedExecutorId_eq :
    decision.selectedExecutorId = some selectedId :=
  (Option.filter_eq_some_iff.mp hselected).1

theorem hasText_of_trimmed
    (htrimmed : NamesTrimmed parts decision)
    (hknown : ∃ agent, parts.agentsById.get? selectedId = some agent) :
    hasText selectedId := by
  have hsame := htrimmed selectedId
    (.inr ⟨.inl (selectedExecutorId_eq hselected), Option.isSome_iff_exists.mpr hknown⟩)
  rw [hasText, hsame.1]
  exact decide_eq_true hsame.2

end

/-- What the harness asks of a path, said of the edges that the snapshot is made from. -/
theorem silent_path_iff
    (hcurrent : ∀ profile ∈ input.currentExecutor, profile.executorId = parts.currentExecutorId)
    (hroute : decision.executionRoute = .delegateToChild)
    (hselected : truthyText decision.selectedExecutorId = some selectedId)
    (hpath : decision.selectedConnectionPath ≠ [])
    (hfilled : ∀ id ∈ decision.selectedConnectionPath, parts.Enabled id → id ≠ "") :
    Silent (selectedPathIssues (buildExecutionContext host names (parts.snapshot host) input)
        decision) ↔
      (∃ first, (hopsOf parts.currentExecutorId decision.selectedConnectionPath).head? =
          some first ∧ parts.Available first) ∧
        (hopsOf parts.currentExecutorId decision.selectedConnectionPath).getLast? =
          some selectedId ∧
        (parts.currentExecutorId ::
          hopsOf parts.currentExecutorId decision.selectedConnectionPath).IsChain parts.Open := by
  have hid := current_context host names hcurrent
  rw [silent_selectedPathIssues rfl (by rw [hroute]; rfl) hselected hpath, hid]
  refine and_congr ?_ (and_congr_right fun _ => ?_)
  · rw [Option.any_eq_true]
    refine exists_congr fun first => ?_
    rw [truthyText, Option.filter_eq_some_iff, and_assoc, decide_eq_true_eq, decide_eq_true_eq]
    refine and_congr_right fun hfirst => ?_
    have hmem := mem_of_mem_hopsOf (mem_of_head? hfirst)
    constructor
    · exact fun h => GraphParts.mem_available_snapshot.mp h.2
    · intro havailable
      exact ⟨hfilled first hmem havailable.1, GraphParts.mem_available_snapshot.mpr havailable⟩
  · rw [← forall_pairPath_iff]
    exact forall₂_congr fun pair _ => hasConnection_context

/-- What the harness asks of the executor at the end of an open path. -/
theorem silent_selected_iff (host : Host) (names : String → ExecutorNames)
    (hacyclic : parts.Acyclic)
    (hcurrent : ∀ profile ∈ input.currentExecutor, profile.executorId = parts.currentExecutorId)
    (hroute : decision.executionRoute = .delegateToChild)
    (hchain : (parts.currentExecutorId :: hops).IsChain parts.Open)
    (hlast : hops.getLast? = some selectedId) (htext : hasText selectedId) :
    Silent (selectedIssues (buildExecutionContext host names (parts.snapshot host) input)
        decision false selectedId) ↔
      parts.Available selectedId ∨
        (buildExecutionContext host names (parts.snapshot host) input).requesterExecutorId =
          some selectedId ∧ parts.Enabled selectedId := by
  have hid := current_context host names hcurrent
  have hleads := leads_to_last hchain hlast
  have hother : selectedId ≠ parts.currentExecutorId := by
    rintro rfl
    exact hacyclic _ hleads
  have hparent : (buildExecutionContext host names (parts.snapshot host) input).parentExecutor.map
      (·.executorId) ≠ some selectedId := fun hparent =>
    hacyclic _ (hleads.tail (open_of_parent hparent))
  have hknown := known_of_chain hchain selectedId (mem_of_getLast? hlast)
  have hlisted : selectedId ∈ allKnownGraphExecutorIds
      (buildExecutionContext host names (parts.snapshot host) input) := by
    refine mem_filter.mpr ⟨?_, htext⟩
    simp only [mem_append]
    exact .inl (.inl (.inl (.inl (.inl (.inr (GraphParts.mem_registered_snapshot.mpr hknown))))))
  have hescape : isStructuralEscape (buildExecutionContext host names (parts.snapshot host) input)
        false selectedId ↔
      (buildExecutionContext host names (parts.snapshot host) input).requesterExecutorId =
        some selectedId := by
    rw [isStructuralEscape, hid, Bool.false_and, Bool.or_false, decide_eq_false hother,
      decide_eq_false hparent, Bool.false_or, Bool.false_or, decide_eq_true_eq]
  have hprofile := profile_of_known host names hknown hother (hid ▸ hother.symm) hparent
  have havailable : selectedId ∈ (parts.snapshot host).availableExecutorIds ↔
      parts.Available selectedId := GraphParts.mem_available_snapshot
  rw [silent_selectedIssues rfl (by rw [hroute]; rfl), hescape, hprofile, Option.all_some,
    available_graphProfile hknown, hid]
  constructor
  · rintro ⟨-, hfound, henabled, -⟩
    exact hfound.imp havailable.mp fun hrequester => ⟨hrequester, henabled⟩
  · intro hselected
    refine ⟨.inl hlisted, hselected.imp havailable.mpr And.left, ?_, fun h => absurd h hother⟩
    exact hselected.elim And.left And.right

/-- Nothing is left for the harness to ask where the path is open and ends at the executor. -/
theorem harnessAccepts_iff (hacyclic : parts.Acyclic)
    (hcurrent : ∀ profile ∈ input.currentExecutor, profile.executorId = parts.currentExecutorId)
    (hroute : decision.executionRoute = .delegateToChild)
    (hnamed : decision.currentExecutorId = parts.currentExecutorId)
    (hselected : truthyText decision.selectedExecutorId = some selectedId)
    (hpath : decision.selectedConnectionPath ≠ [])
    (hfilled : ∀ id ∈ decision.selectedConnectionPath, parts.Enabled id → id ≠ "")
    (htext : (∃ agent, parts.agentsById.get? selectedId = some agent) → hasText selectedId) :
    HarnessAccepts (buildExecutionContext host names (parts.snapshot host) input) decision ↔
      OpenTo parts (buildExecutionContext host names (parts.snapshot host)
          input).requesterExecutorId
        (hopsOf parts.currentExecutorId decision.selectedConnectionPath) selectedId ∧
      (hopsOf parts.currentExecutorId decision.selectedConnectionPath).getLast? =
        some selectedId := by
  have hid := current_context host names hcurrent
  have hends (hchain : (parts.currentExecutorId ::
      hopsOf parts.currentExecutorId decision.selectedConnectionPath).IsChain parts.Open)
      (hlast : (hopsOf parts.currentExecutorId decision.selectedConnectionPath).getLast? =
        some selectedId) := silent_selected_iff host names hacyclic hcurrent
    hroute hchain hlast (htext (known_of_chain hchain selectedId (mem_of_getLast? hlast)))
  rw [harnessAccepts_cases (hnamed.trans hid.symm) hselected,
    silent_path_iff hcurrent hroute hselected hpath hfilled]
  constructor
  · rintro ⟨hexecutor, hentry, hlast, hchain⟩
    exact ⟨⟨hchain, hentry, (hends hchain hlast).mp hexecutor⟩, hlast⟩
  · rintro ⟨⟨hchain, hentry, hexecutor⟩, hlast⟩
    exact ⟨(hends hchain hlast).mpr hexecutor, hentry, hlast, hchain⟩

theorem eq_or_mem_hopsOf (hid : id ∈ path) : id = current ∨ id ∈ hopsOf current path := by
  unfold hopsOf
  split
  · next hhead =>
    obtain ⟨rest, rfl⟩ := head?_eq_some_iff.mp hhead
    exact mem_cons.mp hid
  · exact .inr hid

/-- The current executor and all that an open path names are spelt as the path check reads them. -/
theorem trimmed_of_chain (htrimmed : NamesTrimmed parts decision)
    (hchain : (parts.currentExecutorId ::
      hopsOf parts.currentExecutorId decision.selectedConnectionPath).IsChain parts.Open) :
    ∀ id ∈ parts.currentExecutorId ::
      hopsOf parts.currentExecutorId decision.selectedConnectionPath, jsTrim id = id ∧ id ≠ "" := by
  intro id hid
  obtain rfl | hhop := mem_cons.mp hid
  · exact htrimmed _ (.inl rfl)
  · exact htrimmed id (.inr ⟨.inr (mem_of_mem_hopsOf hhop),
      Option.isSome_iff_exists.mpr (known_of_chain hchain id hhop)⟩)

/-- A trimmed path is normalized to the current executor and its hops. -/
theorem delegationPathOf_eq (hpath : path ≠ [])
    (htrimmed : ∀ id ∈ current :: hopsOf current path, jsTrim id = id ∧ id ≠ "") :
    delegationPathOf current selectedId path = current :: hopsOf current path := by
  have hids (id : String) (hid : id ∈ path) : jsTrim id = id ∧ id ≠ "" :=
    htrimmed id (mem_cons.mpr (eq_or_mem_hopsOf hid))
  have hmap : path.map jsTrim = path := by
    rw [map_congr_left fun id hid => (hids id hid).1, map_id']
  have hfilter : path.filter (· ≠ "") = path :=
    filter_eq_self.mpr fun id hid => decide_eq_true (hids id hid).2
  rw [delegationPathOf, if_neg hpath, normalizeConnectionPath, hmap, hfilter, hopsOf]
  split
  · next hhead =>
    obtain ⟨rest, hrest⟩ := head?_eq_some_iff.mp hhead
    rw [hrest, tail_cons]
  · rfl

/-- The issues of a path in the graph that names nobody twice are those of its last executor. -/
theorem delegationPathIssues_iff (hchain : (parts.currentExecutorId :: hops).IsChain parts.Linked)
    (hnodup : (parts.currentExecutorId :: hops).Nodup) (hfirst : hops.head? = some first)
    (htrimmed : ∀ id ∈ parts.currentExecutorId :: hops, jsTrim id = id ∧ id ≠ "") :
    delegationPathIssues (parts.snapshot host) selectedId (parts.currentExecutorId :: hops) = [] ↔
      hops.getLast? = some selectedId := by
  obtain ⟨rest, rfl⟩ := head?_eq_some_iff.mp hfirst
  have hlinked := (isChain_cons_cons.mp hchain).1
  have hentry : (truthyText (parts.currentExecutorId :: first :: rest)[1]?).any
      (· ∈ ((parts.snapshot host).directChildAgentIdsByParent.get?
        (parts.snapshot host).currentExecutorId).getD []) := by
    have htruthy : truthyText (some first) = some first :=
      Option.filter_eq_some_iff.mpr ⟨rfl, decide_eq_true
        (htrimmed first (mem_cons_of_mem _ mem_cons_self)).2⟩
    show (truthyText (some first)).any _
    rw [htruthy]
    exact decide_eq_true (GraphParts.mem_directChildren_snapshot.mpr hlinked)
  have hpairs : ∀ pair ∈ pairPath (parts.currentExecutorId :: first :: rest),
      (decide (pair.1 ≠ "") && decide (pair.2 ≠ "") &&
        (indexedEdge (parts.snapshot host) pair.1 pair.2).isSome) := by
    intro pair hpair
    have hends := of_mem_zip hpair
    have hedge := forall_pairPath_iff.mpr hchain pair hpair
    rw [Bool.and_eq_true, Bool.and_eq_true, decide_eq_true_eq, decide_eq_true_eq]
    exact ⟨⟨(htrimmed _ hends.1).2, (htrimmed _ (mem_cons_of_mem _ hends.2)).2⟩,
      GraphParts.indexedEdge_snapshot.mpr hedge⟩
  simp only [delegationPathIssues, append_eq_nil_iff, flatMap_eq_nil_iff,
    issueUnless_eq_nil, hentry, true_and, decide_eq_true_eq, hnodup, and_true,
    getLast?_cons_cons]
  exact and_iff_left hpairs

/-- A known executor is accepted if its path has no issues. -/
theorem ok_of_known {graph : ExecutionGraphSnapshot}
    (hselected : truthyText (decision.selectedExecutorId.map jsTrim) = some selectedId)
    (hknown : selectedId ∈ graph.allRegisteredExecutorIds) :
    (validateDelegationPath executorId (some decision) (some graph)).ok ↔
      delegationPathIssues graph selectedId (delegationPathOf graph.currentExecutorId selectedId
        decision.selectedConnectionPath) = [] := by
  unfold validateDelegationPath
  dsimp only [Option.bind_some]
  rw [hselected]
  dsimp only
  rw [if_neg (not_not_intro (mem_append_right _ hknown))]
  exact List.isEmpty_iff

/-- Where the path is open, the check of the path asks only where it ends. -/
theorem validateDelegationPath_iff {requesterId : Option String} (hacyclic : parts.Acyclic)
    (hselected : truthyText decision.selectedExecutorId = some selectedId)
    (hpath : decision.selectedConnectionPath ≠ [])
    (htrimmed : NamesTrimmed parts decision)
    (hopen : OpenTo parts requesterId
      (hopsOf parts.currentExecutorId decision.selectedConnectionPath) selectedId)
    (executorId : String) :
    (validateDelegationPath executorId (some decision) (some (parts.snapshot host))).ok ↔
      (hopsOf parts.currentExecutorId decision.selectedConnectionPath).getLast? =
        some selectedId := by
  obtain ⟨agent, hagent, -⟩ : parts.Enabled selectedId := hopen.selected.elim And.left And.right
  obtain ⟨first, hfirst, -⟩ := hopen.entry
  have hnamed := selectedExecutorId_eq hselected
  have hspelt := htrimmed selectedId (.inr ⟨.inl hnamed, Option.isSome_iff_exists.mpr ⟨_, hagent⟩⟩)
  have hids := trimmed_of_chain htrimmed hopen.candidates
  have hread : truthyText (decision.selectedExecutorId.map jsTrim) = some selectedId := by
    rw [hnamed] at hselected ⊢
    rw [Option.map_some, hspelt.1]
    exact hselected
  rw [ok_of_known hread (GraphParts.mem_registered_snapshot.mpr ⟨agent, hagent⟩)]
  show delegationPathIssues _ _ (delegationPathOf parts.currentExecutorId _ _) = [] ↔ _
  rw [delegationPathOf_eq hpath hids]
  exact delegationPathIssues_iff (hopen.candidates.imp fun _ _ => GraphParts.Open.linked)
    (nodup_of_open hacyclic hopen.candidates) hfirst hids

/-- The harness accepts what the check of the path accepts, if the path is open as well. -/
theorem delegationChecks_agree (host : Host) (names : String → ExecutorNames) (parts : GraphParts)
    (hacyclic : parts.Acyclic) (input : ContextInput)
    (hcurrent : ∀ profile ∈ input.currentExecutor, profile.executorId = parts.currentExecutorId)
    (decision : ExecutionDecision) (hroute : decision.executionRoute = .delegateToChild)
    (hnamed : decision.currentExecutorId = parts.currentExecutorId) (selectedId : String)
    (hselected : truthyText decision.selectedExecutorId = some selectedId)
    (hpath : decision.selectedConnectionPath ≠ []) (htrimmed : NamesTrimmed parts decision)
    (executorId : String) :
    HarnessAccepts (buildExecutionContext host names (parts.snapshot host) input) decision ↔
      (validateDelegationPath executorId (some decision) (some (parts.snapshot host))).ok = true ∧
        OpenTo parts (buildExecutionContext host names (parts.snapshot host)
            input).requesterExecutorId
          (hopsOf parts.currentExecutorId decision.selectedConnectionPath) selectedId := by
  have hfilled (id : String) (hid : id ∈ decision.selectedConnectionPath)
      (henabled : parts.Enabled id) : id ≠ "" := by
    obtain ⟨agent, hagent, -⟩ := henabled
    exact (htrimmed id (.inr ⟨.inr hid, Option.isSome_iff_exists.mpr ⟨agent, hagent⟩⟩)).2
  rw [harnessAccepts_iff hacyclic hcurrent hroute hnamed hselected hpath hfilled
    (hasText_of_trimmed hselected htrimmed), and_comm]
  exact and_congr_left fun hopen =>
    (validateDelegationPath_iff hacyclic hselected hpath htrimmed hopen executorId).symm

end Agreement

/-! ## Children that one check lets pass and the other does not -/

def executorNamed (executorId : String) (enabled : Bool) : ExecutorRuntimeProjection where
  agentId := executorId
  status := if enabled then .active else .inactive
  delegationEnabled := enabled
  executionCandidate := enabled
  reasonCodes := []

def edgeBetween (parentAgentId childAgentId : String) (executionCandidate : Bool) : GraphEdge where
  edgeId := parentAgentId ++ ">" ++ childAgentId
  parentAgentId
  childAgentId
  source := .topologyRelation
  executionCandidate
  reasonCodes := if executionCandidate then [] else ["cycle_detected"]

/-- The lead has three children: one is inactive, one leads back to it, so that the edges of this
cycle are excluded, and the id of the last ends with a blank. -/
def threeChildren : GraphParts where
  rootAgentId := executionGraphRootAgentId
  currentExecutorId := "t:lead"
  agentsById :=
    [executorNamed "t:lead" true, executorNamed "t:off" false, executorNamed "t:cut" true,
      executorNamed "t:wide " true].foldl (fun agents agent => agents.set agent.agentId agent) ∅
  edges :=
    [edgeBetween "t:lead" "t:off" true, edgeBetween "t:lead" "t:cut" false,
      edgeBetween "t:cut" "t:lead" false, edgeBetween "t:lead" "t:wide " true]
  keyed agentId agent hagent := by
    rw [OrderedMap.get?_foldl_set (fun agent : ExecutorRuntimeProjection => agent.agentId)
      fun agent => agent, OrderedMap.get?_empty, Option.or_none, Option.map_id'] at hagent
    have hid := List.find?_some hagent
    exact of_decide_eq_true hid
  known := by decide +kernel

def leadInput : ContextInput where
  request := { latestUserMessage := none, structuredGoal := none, requiredOutputs := none }

def delegateTo (executorId : String) : ExecutionDecision where
  currentExecutorId := "t:lead"
  parentExecutorId := none
  domain := "unresolved"
  behaviorPattern := .delegate
  executionRoute := .delegateToChild
  selectedExecutorId := some executorId
  selectedConnectionPath := ["t:lead", executorId]
  taskProfile := []
  requiredOutputs := []
  riskBoundary := []
  confidence := .ofNat 1
  fallbackIfUnavailable := .selfSolve
  unresolvedReason := none
  reason := "The child can do it."

theorem acyclic_threeChildren : threeChildren.Acyclic := by
  have hopen {first second : String} (h : threeChildren.Open first second) :
      first = "t:lead" ∧ second ≠ "t:lead" := by
    obtain ⟨edge, hedge, hcandidate, rfl, rfl⟩ := h
    revert hcandidate
    exact (by decide +kernel : ∀ edge ∈ threeChildren.edges, edge.executionCandidate →
      edge.parentAgentId = "t:lead" ∧ edge.childAgentId ≠ "t:lead") edge hedge
  intro id hcycle
  obtain ⟨next, hfirst, -⟩ := TransGen.head'_iff.mp hcycle
  obtain ⟨before, -, hlast⟩ := TransGen.tail'_iff.mp hcycle
  exact (hopen hlast).2 (hopen hfirst).1

theorem namesTrimmed_delegateTo (hspelt : jsTrim id = id ∧ id ≠ "") :
    NamesTrimmed threeChildren (delegateTo id) := by
  have hlead : jsTrim "t:lead" = "t:lead" ∧ "t:lead" ≠ "" := by decide +kernel
  intro name hname
  obtain rfl | ⟨hselected | hlisted, -⟩ := hname
  · exact hlead
  · exact Option.some.inj hselected ▸ hspelt
  · obtain rfl | hlast := mem_cons.mp hlisted
    · exact hlead
    · exact mem_singleton.mp hlast ▸ hspelt

theorem delegationChecks_agree_off :
    HarnessAccepts (buildExecutionContext plainHost (fun id => ⟨id, id⟩)
        (threeChildren.snapshot plainHost) leadInput) (delegateTo "t:off") ↔
      (validateDelegationPath "t:lead" (some (delegateTo "t:off"))
          (some (threeChildren.snapshot plainHost))).ok = true ∧
        OpenTo threeChildren none ["t:off"] "t:off" :=
  delegationChecks_agree plainHost (fun id => ⟨id, id⟩) threeChildren acyclic_threeChildren
    leadInput (fun _ h => absurd h (Option.not_mem_none _)) (delegateTo "t:off") rfl rfl "t:off"
    (by decide +kernel) (cons_ne_nil _ _) (namesTrimmed_delegateTo (by decide +kernel))
    "t:lead"

/-- The check of the path lets every child of the lead pass whose id is trimmed. -/
theorem ok_delegateTo (hlinked : threeChildren.Linked "t:lead" id) (hother : id ≠ "t:lead")
    (hspelt : jsTrim id = id ∧ id ≠ "") :
    (validateDelegationPath "t:lead" (some (delegateTo id))
      (some (threeChildren.snapshot plainHost))).ok := by
  have hids : ∀ name ∈ ["t:lead", id], jsTrim name = name ∧ name ≠ "" :=
    forall_mem_cons.mpr ⟨by decide +kernel, forall_mem_singleton.mpr hspelt⟩
  have hselected : truthyText ((delegateTo id).selectedExecutorId.map jsTrim) = some id := by
    show truthyText (some (jsTrim id)) = some id
    rw [hspelt.1]
    exact Option.filter_eq_some_iff.mpr ⟨rfl, decide_eq_true hspelt.2⟩
  have hpath : delegationPathOf "t:lead" id ["t:lead", id] = ["t:lead", id] :=
    delegationPathOf_eq (cons_ne_nil _ _) hids
  rw [ok_of_known hselected (GraphParts.mem_registered_snapshot.mpr hlinked.known)]
  show delegationPathIssues _ id (delegationPathOf "t:lead" id ["t:lead", id]) = []
  rw [hpath]
  have hchain : (threeChildren.currentExecutorId :: [id]).IsChain threeChildren.Linked :=
    isChain_pair.mpr hlinked
  have hnodup : (threeChildren.currentExecutorId :: [id]).Nodup :=
    nodup_cons.mpr ⟨fun h => hother (mem_singleton.mp h).symm, nodup_singleton id⟩
  exact (delegationPathIssues_iff hchain hnodup rfl hids).mpr rfl

theorem truthyText_delegateTo (hfilled : id ≠ "") :
    truthyText (delegateTo id).selectedExecutorId = some id :=
  Option.filter_eq_some_iff.mpr ⟨rfl, decide_eq_true hfilled⟩

/-- The harness lets a child of the lead pass if it is available. -/
theorem harnessAccepts_delegateTo (htext : hasText id) (hfilled : id ≠ "") :
    HarnessAccepts (buildExecutionContext plainHost (fun id => ⟨id, id⟩)
        (threeChildren.snapshot plainHost) leadInput) (delegateTo id) ↔
      threeChildren.Available id := by
  have hfirst : ∀ name ∈ ["t:lead", id], threeChildren.Enabled name → name ≠ "" :=
    forall_mem_cons.mpr ⟨fun _ => by decide, forall_mem_singleton.mpr fun _ => hfilled⟩
  rw [@harnessAccepts_iff plainHost (fun id => ⟨id, id⟩) threeChildren leadInput (delegateTo id) id
    acyclic_threeChildren (fun _ h => absurd h (Option.not_mem_none _)) rfl rfl
    (truthyText_delegateTo hfilled) (cons_ne_nil _ _) hfirst fun _ => htext]
  have hhops : hopsOf threeChildren.currentExecutorId (delegateTo id).selectedConnectionPath =
      [id] := rfl
  rw [hhops]
  constructor
  · rintro ⟨⟨-, ⟨first, hfound, havailable⟩, -⟩, -⟩
    exact Option.some.inj hfound ▸ havailable
  · intro havailable
    exact ⟨⟨isChain_pair.mpr havailable.2, ⟨id, rfl, havailable⟩, .inl havailable⟩, rfl⟩

/-- The check of the path lets the inactive child and the one over the excluded edge pass, and
does not find the child whose id it trims. The harness decides the other way each time. -/
theorem delegationChecks_disagree :
    threeChildren.Acyclic ∧
      (∀ id ∈ ["t:off", "t:cut"],
        (validateDelegationPath "t:lead" (some (delegateTo id))
            (some (threeChildren.snapshot plainHost))).ok = true ∧
          ¬HarnessAccepts (buildExecutionContext plainHost (fun id => ⟨id, id⟩)
            (threeChildren.snapshot plainHost) leadInput) (delegateTo id)) ∧
      (validateDelegationPath "t:lead" (some (delegateTo "t:wide "))
          (some (threeChildren.snapshot plainHost))).ok = false ∧
        HarnessAccepts (buildExecutionContext plainHost (fun id => ⟨id, id⟩)
          (threeChildren.snapshot plainHost) leadInput) (delegateTo "t:wide ") := by
  refine ⟨acyclic_threeChildren, ?_, ?_, ?_⟩
  · intro id hid
    have hlinked : threeChildren.Linked "t:lead" id := by
      revert id
      decide +kernel
    have hspelt : hasText id ∧ id ≠ "t:lead" ∧ jsTrim id = id ∧ id ≠ "" := by
      clear hlinked
      revert id
      decide +kernel
    have hclosed : ¬threeChildren.Available id := by
      clear hlinked hspelt
      revert id
      decide +kernel
    obtain ⟨htext, hother, hsame⟩ := hspelt
    rw [harnessAccepts_delegateTo htext hsame.2]
    exact ⟨ok_delegateTo hlinked hother hsame, hclosed⟩
  · have hunknown : "t:wide" ∉ (threeChildren.snapshot plainHost).agentsById.keys ++
        (threeChildren.snapshot plainHost).allActiveExecutorIds ++
        (threeChildren.snapshot plainHost).allRegisteredExecutorIds := by
      have hnone : ¬∃ agent, threeChildren.agentsById.get? "t:wide" = some agent := by
        rw [← Option.isSome_iff_exists]
        decide +kernel
      intro hlisted
      rw [mem_append, mem_append, or_assoc] at hlisted
      obtain hkey | hactive | hregistered := hlisted
      · exact hnone ((OrderedMap.mem_keys_iff _ _).mp hkey)
      · exact hnone (GraphParts.known_of_active hactive)
      · exact hnone (GraphParts.mem_registered_snapshot.mp hregistered)
    have hread : truthyText ((delegateTo "t:wide ").selectedExecutorId.map jsTrim) =
        some "t:wide" := by decide +kernel
    unfold validateDelegationPath
    dsimp only [Option.bind_some]
    rw [hread]
    dsimp only
    rw [if_pos hunknown]
  · rw [harnessAccepts_delegateTo (by decide +kernel) (by decide)]
    decide +kernel

end Nobie.Orchestration
