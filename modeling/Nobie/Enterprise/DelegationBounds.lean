/-
# Bounds of delegation

The guard of the depth, told by what it does to a run: it is kept just where it lets nothing
be planned at all, or where no chain of delegations that the checks let through is longer
than it allows. A run whose nodes are all called nodes goes one delegation too far at most.
-/

import Nobie.Enterprise.DelegationPlanner

namespace Nobie.Enterprise

open Foundation List JsString

variable {plans : WorkOrder → Prop} {chain : List JsString}

namespace RuntimeTopology

/-! ## Compiled topologies -/

/-- What the planner looks things up in, for a topology that compiles. -/
theorem ordered_of_compile {rules : EnterpriseRules} {topology : EnterpriseTopology}
    {validation : TopologyValidatorOptions} {snapshot : CompiledTopologySnapshot}
    (hcompile : compileTopology rules topology validation = .ok snapshot) :
    (runtimeTopology topology).Ordered := by
  obtain ⟨hexecutable, rfl⟩ := executable_of_compile hcompile
  have h := executableTopology hexecutable
  have hindexed (nodeId : JsString) (hnode : nodeId ∈ topology.nodes.map (·.id)) :
      ∃ node, (buildNodeIndex topology).get? nodeId = some node ∧ node.id = nodeId := by
    obtain ⟨node, hmem, rfl⟩ := mem_map.mp hnode
    exact ⟨_, OrderedMap.get?_foldl_set_of_mem (fun node : NodeContract => node.id) compiledNode ∅
      h.distinctNodes hmem, rfl⟩
  have hpair {parent child : JsString}
      (hchild : child ∈
        childrenOf (runtimeTopology topology).snapshot.parentChildTree.edges parent) :=
    adjacent_of_mem_delegationPairs h (mem_childrenOf_edges.mp hchild)
  exact
    { found := fun parent child hchild => hindexed child (hpair hchild).2.1
      parents := by
        intro parent hsome
        obtain ⟨child, hchild⟩ := exists_mem_of_ne_nil _ hsome
        obtain ⟨node, hnode, -⟩ := hindexed parent (hpair hchild).1
        exact Option.isSome_iff_exists.mpr ⟨node, hnode⟩
      acyclic := acyclic_delegates h
      distinct := fun node => childrenOf_edges topology node ▸ nodup_foldl_addUnique .nil _ }

/-! ## The guard -/

/-- So many delegations are within the depth that was asked for. -/
def WithinDepth (maxDelegationDepth : Option JsNumber) (hops : ℕ) : Prop :=
  JsNumber.le (.ofNat hops) (maxDelegationDepth.getD defaultTopologyRuntimeMaxDelegationDepth)

/-- The depth that is made of what was asked for is a natural number, and where anything is
beyond what was asked for the next number is. -/
theorem normalizedMaxDelegationDepth_spec (maxDelegationDepth : Option JsNumber) :
    ∃ limit, normalizedMaxDelegationDepth maxDelegationDepth = .ofNat limit ∧
      ∀ hops, ¬ WithinDepth maxDelegationDepth hops →
        ¬ WithinDepth maxDelegationDepth (limit + 1) := by
  cases maxDelegationDepth with
  | none => exact ⟨5, rfl, fun _ _ => by unfold WithinDepth; decide +kernel⟩
  | some number =>
    cases number with
    | nan => exact ⟨5, rfl, fun _ h => h⟩
    | negInfinity => exact ⟨5, rfl, fun _ h => h⟩
    | infinity => exact ⟨5, rfl, fun _ h => absurd rfl h⟩
    | finite value =>
      by_cases hnegative : value < 0
      · refine ⟨5, ?_, fun _ _ => ?_⟩
        · simp [normalizedMaxDelegationDepth, JsNumber.isFinite, JsNumber.lt, JsNumber.ofNat,
            hnegative]
          rfl
        · have hless : value < ((5 + 1 : ℕ) : ℚ) := by
            have : (0 : ℚ) ≤ ((5 + 1 : ℕ) : ℚ) := Nat.cast_nonneg _
            linarith
          simpa [WithinDepth, JsNumber.le, JsNumber.lt, JsNumber.ofNat] using hless
      · have hnonneg : 0 ≤ ⌊value⌋ := Int.floor_nonneg.mpr (not_lt.mp hnegative)
        refine ⟨⌊value⌋.toNat, ?_, fun _ _ => ?_⟩
        · have hcast : ((⌊value⌋.toNat : ℕ) : ℚ) = ((⌊value⌋ : ℤ) : ℚ) := by
            exact_mod_cast congrArg (Int.cast : ℤ → ℚ) (Int.toNat_of_nonneg hnonneg)
          simp [normalizedMaxDelegationDepth, JsNumber.isFinite, JsNumber.lt, JsNumber.ofNat,
            JsNumber.floor, hnegative, hcast]
        · have hless : value < ((⌊value⌋.toNat + 1 : ℕ) : ℚ) := by
            have hcast : ((⌊value⌋.toNat : ℕ) : ℚ) = ((⌊value⌋ : ℤ) : ℚ) := by
              exact_mod_cast congrArg (Int.cast : ℤ → ℚ) (Int.toNat_of_nonneg hnonneg)
            rw [Nat.cast_add, hcast, Nat.cast_one]
            exact Int.lt_floor_add_one value
          simpa [WithinDepth, JsNumber.le, JsNumber.lt, JsNumber.ofNat] using hless

variable {topology : RuntimeTopology} {checks : WorkOrder → Bool}
  {options : ChildDelegationOptions} {workOrder : WorkOrder}

/-- The chain is followed as long as the checks let it, whatever the guard says. -/
def Unguarded (topology : RuntimeTopology) (checks : WorkOrder → Bool)
    (options : ChildDelegationOptions) (workOrder : WorkOrder) (chain : List JsString) : Prop :=
  topology.Follows (fun workOrder => checks workOrder) options workOrder chain

/-- The guard lets nothing be planned, or no chain that the checks let through is longer than
what was asked for. -/
def GuardKept (topology : RuntimeTopology) (checks : WorkOrder → Bool)
    (options : ChildDelegationOptions) (workOrder : WorkOrder) : Prop :=
  (normalizedMaxDelegationDepth options.maxDelegationDepth).lt (.ofNat 1) ∨
    ∀ chain, chain ≠ [] → topology.Unguarded checks options workOrder chain →
      WithinDepth options.maxDelegationDepth chain.length

/-- Behind a chain from an entry the depth that is read off is below the chain's length. -/
theorem depth_orderAlong_le (h : topology.Ordered)
    (hentry : workOrder.delegationPath = [workOrder.toNodeId])
    (hfollows : topology.Follows plans options workOrder chain) :
    calculateWorkOrderDelegationDepth (topology.orderAlong options workOrder chain) ≤
      chain.length - 1 := by
  obtain ⟨hpath, ⟨before, hbefore⟩, hsteps⟩ := delegationPath_orderAlong h ⟨[], hentry⟩ hfollows
  have hnodup : (topology.orderAlong options workOrder chain).delegationPath.Nodup := by
    rw [hpath, hentry]
    exact nodup_of_isChain h.acyclic hsteps
  have hlength := congrArg List.length (hbefore.symm.trans hpath)
  simp only [hentry, length_append, length_singleton] at hlength
  have hdepth := depth_le hbefore hnodup
  omega

/-- Every step of a chain that keeps a condition makes it a chain of that condition. -/
theorem Follows.of_steps {others : WorkOrder → Prop}
    (hfollows : topology.Follows plans options workOrder chain)
    (hsteps : ∀ front child rest, chain = front ++ child :: rest →
      others (topology.orderAlong options workOrder front)) :
    topology.Follows others options workOrder chain := by
  induction chain generalizing options workOrder with
  | nil => exact trivial
  | cons child rest ih =>
    obtain ⟨-, hchild, hrest⟩ := hfollows
    refine ⟨hsteps [] child rest rfl, hchild, ih hrest ?_⟩
    intro front next after hsplit
    exact hsteps (child :: front) next after (congrArg (child :: ·) hsplit)

section

variable (h : topology.Ordered) (hentry : workOrder.delegationPath = [workOrder.toNodeId])
include h hentry

/-- The guard lets a chain through that is at most one longer than it allows. -/
theorem follows_of_unguarded {limit : ℕ}
    (hlimit : normalizedMaxDelegationDepth options.maxDelegationDepth = .ofNat limit)
    (hpositive : 1 ≤ limit) (hlength : chain.length ≤ limit + 1)
    (hfollows : topology.Unguarded checks options workOrder chain) :
    topology.Follows (Plans checks options) options workOrder chain := by
  refine Follows.of_steps hfollows fun front child rest hsplit => ?_
  subst hsplit
  obtain ⟨hfront, hchecks, -⟩ := follows_append hfollows
  refine ⟨hchecks, ?_⟩
  have hdepth := depth_orderAlong_le h hentry hfront
  rw [length_append, length_cons] at hlength
  rw [TooDeep, hlimit, JsNumber.lt_ofNat_ofNat, decide_eq_true_eq]
  omega

theorem withinDepth_iff :
    (∀ created ∈ topology.runWorkOrders checks options workOrder,
        WithinDepth options.maxDelegationDepth created.hops) ↔
      topology.GuardKept checks options workOrder := by
  have hends : EndsAtTarget workOrder := ⟨[], hentry⟩
  obtain ⟨limit, hlimit, hbeyond⟩ := normalizedMaxDelegationDepth_spec options.maxDelegationDepth
  constructor
  · intro hwithin
    by_cases hpositive : 1 ≤ limit
    · refine .inr fun chain hchain hfollows => ?_
      by_contra hlong
      have hnext := hbeyond _ hlong
      -- a chain that is too long has a beginning that the guard lets through and is too long
      have hbeginning : ∃ front, front <+: chain ∧ front ≠ [] ∧ front.length ≤ limit + 1 ∧
          ¬ WithinDepth options.maxDelegationDepth front.length := by
        obtain hshort | hbeyondLimit := Nat.le_or_ge chain.length (limit + 1)
        · exact ⟨chain, prefix_rfl, hchain, hshort, hlong⟩
        · have hlength : (chain.take (limit + 1)).length = limit + 1 :=
            length_take_of_le hbeyondLimit
          refine ⟨chain.take (limit + 1), take_prefix _ _, ?_, hlength.le, by rwa [hlength]⟩
          exact ne_nil_of_length_eq_add_one hlength
      obtain ⟨front, hbegins, hfront, hlength, hnot⟩ := hbeginning
      have hplanned := follows_of_unguarded h hentry hlimit hpositive hlength
        (Follows.of_initial hbegins hfollows)
      exact hnot (hwithin _ ((mem_runWorkOrders h hends).mpr ⟨front, hfront, hplanned, rfl⟩))
    · left
      rw [hlimit, JsNumber.lt_ofNat_ofNat, decide_eq_true_eq]
      omega
  · rintro hkept created hcreated
    obtain ⟨chain, hchain, hfollows, rfl⟩ := (mem_runWorkOrders h hends).mp hcreated
    obtain hnothing | hshort := hkept
    · obtain ⟨child, rest, rfl⟩ := exists_cons_of_ne_nil hchain
      refine absurd ?_ hfollows.1.2
      rw [hlimit, JsNumber.lt_ofNat_ofNat, decide_eq_true_eq] at hnothing
      rw [TooDeep, hlimit, JsNumber.lt_ofNat_ofNat, decide_eq_true_eq]
      omega
    · exact hshort chain hchain (hfollows.mono fun _ hplans => hplans.1)

end

/-! ## Sound delegation -/

/-- What is asked of the work orders of a run: each goes along an edge of the tree, is no
deeper than was asked for, has the chain of nodes from the first one's to its own as its
path, and no two of them or of the first one have one id. -/
structure DelegationSound (tree : CompiledDelegationTree) (maxDelegationDepth : Option JsNumber)
    (entry : WorkOrder) (orders : List CreatedWorkOrder) : Prop where
  edges : ∀ created ∈ orders, Delegates tree created.workOrder.fromNodeId created.workOrder.toNodeId
  within : ∀ created ∈ orders, WithinDepth maxDelegationDepth created.hops
  paths : ∀ created ∈ orders, ∃ chain, chain.length = created.hops ∧
    created.workOrder.delegationPath = entry.toNodeId :: chain ∧
      (entry.toNodeId :: chain).IsChain (Delegates tree) ∧
        (entry.toNodeId :: chain).getLast? = some created.workOrder.toNodeId
  ids : (entry.workOrderId :: orders.map fun created => created.workOrder.workOrderId).Nodup

theorem fromNodeId_orderAlong (h : topology.Indexed) (hchain : chain ≠ [])
    (hfollows : topology.Follows plans options workOrder chain) :
    Delegates topology.snapshot.parentChildTree
      (topology.orderAlong options workOrder chain).fromNodeId
      (topology.orderAlong options workOrder chain).toNodeId := by
  obtain ⟨front, child, rfl⟩ := (eq_nil_or_concat' chain).resolve_left hchain
  obtain ⟨-, -, hdelegates⟩ := follows_append hfollows
  rw [orderAlong_concat, toNodeId_childOrder h hdelegates]
  exact hdelegates

/-- In a run whose ids tell its chains apart the work orders are sound just where the guard
is kept. -/
theorem delegationSound_iff_of_ordered (h : topology.Ordered)
    (hentry : workOrder.delegationPath = [workOrder.toNodeId])
    (hids : topology.TellingIds (Plans checks options) options workOrder) :
    DelegationSound topology.snapshot.parentChildTree options.maxDelegationDepth workOrder
        (topology.runWorkOrders checks options workOrder) ↔
      topology.GuardKept checks options workOrder := by
  have hends : EndsAtTarget workOrder := ⟨[], hentry⟩
  refine ⟨fun hsound => (withinDepth_iff h hentry).mp hsound.within, fun hkept => ?_⟩
  constructor
  · intro created hcreated
    obtain ⟨chain, hchain, hfollows, rfl⟩ := (mem_runWorkOrders h hends).mp hcreated
    exact fromNodeId_orderAlong h.toIndexed hchain hfollows
  · exact (withinDepth_iff h hentry).mpr hkept
  · intro created hcreated
    obtain ⟨chain, hchain, hfollows, rfl⟩ := (mem_runWorkOrders h hends).mp hcreated
    obtain ⟨hpath, ⟨before, hbefore⟩, hsteps⟩ := delegationPath_orderAlong h hends hfollows
    rw [hentry, singleton_append] at hpath
    refine ⟨chain, rfl, hpath, hsteps, ?_⟩
    rw [← hpath, hbefore, getLast?_concat]
  · have hnodup : ((topology.runWorkOrders checks options workOrder).map
        fun created => created.workOrder.delegationPath).Nodup :=
      nodup_delegationPaths h topology.nodeIndex.entries.length 0 hends hids.targets
    refine nodup_cons.mpr ⟨fun hmem => ?_, ?_⟩
    · obtain ⟨created, hcreated, hsame⟩ := mem_map.mp hmem
      obtain ⟨chain, hchain, hfollows, rfl⟩ := (mem_runWorkOrders h hends).mp hcreated
      exact hchain (hids.chain_eq h.toIndexed hfollows trivial hsame)
    · refine List.Nodup.map_on (fun first hfirst second hsecond hsame => ?_) (hnodup.of_map _)
      obtain ⟨chain, -, hfollows, rfl⟩ := (mem_runWorkOrders h hends).mp hfirst
      obtain ⟨chain', -, hfollows', rfl⟩ := (mem_runWorkOrders h hends).mp hsecond
      rw [hids.chain_eq h.toIndexed hfollows hfollows' hsame]

end RuntimeTopology

/-- Of a compiled topology, whatever its checks let through: in a run whose ids tell its
chains apart the delegations are sound just where the guard of the depth is kept. -/
theorem delegationSound_iff {rules : EnterpriseRules} {topology : EnterpriseTopology}
    {validation : TopologyValidatorOptions} {snapshot : CompiledTopologySnapshot}
    (hcompile : compileTopology rules topology validation = .ok snapshot)
    (checks : WorkOrder → Bool) (options : ChildDelegationOptions) {entry : WorkOrder}
    (hentry : entry.delegationPath = [entry.toNodeId])
    (hids : (runtimeTopology topology).TellingIds (RuntimeTopology.Plans checks options) options
      entry) :
    RuntimeTopology.DelegationSound snapshot.parentChildTree options.maxDelegationDepth entry
        ((runtimeTopology topology).runWorkOrders checks options entry) ↔
      (runtimeTopology topology).GuardKept checks options entry := by
  have h := RuntimeTopology.ordered_of_compile hcompile
  obtain ⟨-, rfl⟩ := executable_of_compile hcompile
  exact RuntimeTopology.delegationSound_iff_of_ordered h hentry hids

/-! ## Runs of small topologies -/

/-- A work order for the node, with which a run starts. -/
def entryWorkOrder (nodeId : JsString) : WorkOrder where
  workOrderId := ofString "w"
  parentWorkOrderId := none
  fromNodeId := nodeId
  toNodeId := nodeId
  permissionScope := ⟨[], [], []⟩
  delegationPath := [nodeId]

/-- Nothing is asked for but a depth. -/
def depthOptions (maxDelegationDepth : ℕ) : ChildDelegationOptions :=
  ⟨none, some (.ofNat maxDelegationDepth), ∅⟩

theorem planned_pairTopology :
    (runtimeTopology (pairTopology .active)).plannedChildNodeIds (depthOptions 1) nodeA = [nodeB] ∧
      (runtimeTopology (pairTopology .active)).plannedChildNodeIds (depthOptions 1) nodeB = [] := ⟨by decide +kernel, by decide +kernel⟩

theorem follows_pairTopology (hfollows : (runtimeTopology (pairTopology .active)).Follows plans
      (depthOptions 1) (entryWorkOrder nodeA) chain) : chain = [] ∨ chain = [nodeB] := by
  obtain ⟨hfirst, hsecond⟩ := planned_pairTopology
  cases chain with
  | nil => exact .inl rfl
  | cons child rest =>
    obtain ⟨-, hchild, hrest⟩ := hfollows
    obtain rfl : child = nodeB := mem_singleton.mp (hfirst ▸ hchild)
    cases rest with
    | nil => exact .inr rfl
    | cons next rest =>
      have hnext := hrest.2.1
      have hnone : next ∈ ([] : List JsString) := hsecond ▸ hnext
      cases hnone

theorem delegationSound_pairTopology :
    RuntimeTopology.DelegationSound (compiledSnapshot (pairTopology .active)).parentChildTree
        (some (.ofNat 1)) (entryWorkOrder nodeA)
        ((runtimeTopology (pairTopology .active)).runWorkOrders (fun _ => true) (depthOptions 1)
          (entryWorkOrder nodeA)) ↔
      (runtimeTopology (pairTopology .active)).GuardKept (fun _ => true) (depthOptions 1)
        (entryWorkOrder nodeA) := by
  have hlast {front : List JsString} {node : JsString} {plans : WorkOrder → Prop}
      (hfollows : (runtimeTopology (pairTopology .active)).Follows plans (depthOptions 1)
        (entryWorkOrder nodeA) (front ++ [node])) : node = nodeB := by
    obtain hnil | hone := follows_pairTopology hfollows
    · exact absurd (append_eq_nil_iff.mp hnil).2 (cons_ne_nil _ _)
    · have hend := congrArg List.getLast? hone
      rw [getLast?_concat] at hend
      exact Option.some.inj hend
  have hnone (node given : JsString) :
      (depthOptions 1).childWorkOrderIdByNodeId.get? node ≠ some given := nofun
  refine delegationSound_iff (compile_pairTopology (fun _ _ => []) .active) (fun _ => true)
    (depthOptions 1) rfl ?_
  constructor
  · rw [show (entryWorkOrder nodeA).toNodeId = nodeA from rfl, planned_pairTopology.1]
    exact nodup_singleton _
  · intro front first second hfirst hsecond _ _ _
    rw [hlast hfirst, hlast hsecond]
  · intro front node hfollows _
    rw [hlast hfollows]
    decide +kernel
  · exact fun _ _ node given hgiven => absurd hgiven (hnone node given)
  · exact fun _ _ node _ given _ hgiven => absurd hgiven (hnone node given)
  · exact fun _ node given hgiven => absurd hgiven (hnone node given)

def chainNode (name : String) : JsString := ofString name

def chainRelation (name : String) (source target : JsString) : EnterpriseRelation where
  toEnterpriseBaseEntity := plainEntity (ofString name) .active
  relationType := .delegatesTo
  source := ⟨.node, source⟩
  target := ⟨.node, target⟩
  label := none

/-- Three nodes, each of which delegates to the next. -/
def chainTopology : EnterpriseTopology :=
  { pairTopology .active with
    nodes := [plainNode (chainNode "node:a"), plainNode (chainNode "node:b"),
      plainNode (chainNode "node:c")]
    relations := [chainRelation "r" (chainNode "node:a") (chainNode "node:b"),
      chainRelation "s" (chainNode "node:b") (chainNode "node:c")] }

theorem searched_chainTopology :
    (delegationAdjacency chainTopology).backEdges = [] ∧
      (delegationAdjacency chainTopology).overlong
        (exceedsDepth (JsNumber.max (.ofNat 0) defaultTopologyMaxDelegationDepth)) = [] := by
  have hvertices : (delegationAdjacency chainTopology).vertices =
      [chainNode "node:a", chainNode "node:b", chainNode "node:c"] := rfl
  let first := relationEdge (chainRelation "r" (chainNode "node:a") (chainNode "node:b"), 0)
  let second := relationEdge (chainRelation "s" (chainNode "node:b") (chainNode "node:c"), 1)
  have houtgoing : (delegationAdjacency chainTopology).outgoing (chainNode "node:a") = [first] ∧
      (delegationAdjacency chainTopology).outgoing (chainNode "node:b") = [second] ∧
      (delegationAdjacency chainTopology).outgoing (chainNode "node:c") = [] := ⟨rfl, rfl, rfl⟩
  have htargets : (delegationAdjacency chainTopology).target first = chainNode "node:b" ∧
      (delegationAdjacency chainTopology).target second = chainNode "node:c" := ⟨rfl, rfl⟩
  obtain ⟨hfirst, hsecond, hthird⟩ := houtgoing
  obtain ⟨htarget, htarget'⟩ := htargets
  have hba : chainNode "node:b" ≠ chainNode "node:a" := by decide +kernel
  have hca : chainNode "node:c" ≠ chainNode "node:a" := by decide +kernel
  have hcb : chainNode "node:c" ≠ chainNode "node:b" := by decide +kernel
  constructor
  · rw [PathSearch.backEdges, hvertices]
    simp [PathSearch.searchVertex, PathSearch.searchEdges, hfirst, hsecond, hthird, htarget,
      htarget', hvertices, hba, hca, hcb]
  · rw [PathSearch.overlong, hvertices]
    simp [PathSearch.overlongFrom, hfirst, hsecond, hthird, htarget, htarget', hvertices, hba,
      hca, hcb]
    decide +kernel

theorem compile_chainTopology (rules : EnterpriseRules) :
    compileTopology rules chainTopology ⟨none, none⟩ = .ok (compiledSnapshot chainTopology) := by
  obtain ⟨hcycles, hdepths⟩ := searched_chainTopology
  refine compileTopology_of_clean rules ?_ ?_ ?_ ?_
    (validateDelegationGraph_of_searched hcycles hdepths ?_)
  all_goals decide +kernel

/-- With a depth of one that is asked for, a work order comes two delegations below the first:
what the path of the node between tells of its depth is still nothing. -/
theorem beyondDepth_chainTopology :
    compileTopology (fun _ _ => []) chainTopology ⟨none, none⟩ =
        .ok (compiledSnapshot chainTopology) ∧
      ¬ RuntimeTopology.DelegationSound (compiledSnapshot chainTopology).parentChildTree
        (some (.ofNat 1)) (entryWorkOrder (chainNode "node:a"))
        ((runtimeTopology chainTopology).runWorkOrders (fun _ => true) (depthOptions 1)
          (entryWorkOrder (chainNode "node:a"))) := by
  refine ⟨compile_chainTopology (fun _ _ => []), fun hsound => ?_⟩
  have hhops : ((runtimeTopology chainTopology).runWorkOrders (fun _ => true) (depthOptions 1)
      (entryWorkOrder (chainNode "node:a"))).map CreatedWorkOrder.hops = [1, 2] := by
    decide +kernel
  have hmem : 2 ∈ ((runtimeTopology chainTopology).runWorkOrders (fun _ => true) (depthOptions 1)
      (entryWorkOrder (chainNode "node:a"))).map CreatedWorkOrder.hops := by
    rw [hhops]
    exact mem_cons_of_mem _ (mem_singleton_self _)
  obtain ⟨created, hcreated, htwo⟩ := mem_map.mp hmem
  have hwithin := hsound.within created hcreated
  rw [htwo] at hwithin
  unfold RuntimeTopology.WithinDepth at hwithin
  exact absurd hwithin (by decide +kernel)

end Nobie.Enterprise
