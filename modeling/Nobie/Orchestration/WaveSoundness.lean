/-
# What a plan of waves keeps to

Every round of planning moves items from the pending ones into one wave, so the waves
hold every item once. Within a wave the items fit beside each other, which keeps the locks
and the limits; over the waves each item finds its dependencies in earlier ones as long
as no round has to fall back on an item that does not fit.
-/

import Mathlib.Data.List.Perm.Basic
import Nobie.Foundation.FiniteDigraph
import Nobie.Orchestration.ExecutionWaves

namespace Nobie.Orchestration

open Foundation List JsNumber

/-! ## Bookkeeping of the rounds -/

def wavesItems (waves : List SubSessionExecutionWave) : List SubSessionWorkItem :=
  waves.flatMap (·.items)

/-- Distinct task ids. -/
def WaveInput.Distinct (input : WaveInput) : Prop := (input.items.map (·.taskId)).Nodup

/-- The waves so far and the pending items share out the items of the input, and the
completed ids are those of the waves. -/
structure PlanState.Accounts (input : WaveInput) (state : PlanState) : Prop where
  shared : (wavesItems state.waves ++ state.pending).Perm input.items
  completed : state.completed = (wavesItems state.waves).map (·.taskId)

variable {item : SubSessionWorkItem} {options : SubSessionExecutionPlanningOptions}
  (deferred : DeferredReasons) (candidates : List SubSessionWorkItem) {kind : ConcurrencyKind}
  {key : String} {limit : JsNumber}

variable {input : WaveInput} {state last : PlanState} {before after : List SubSessionExecutionWave}
  {wave : SubSessionExecutionWave} {taken : List SubSessionWorkItem}

theorem byTaskId_eq_some (hdistinct : input.Distinct) (hitem : item ∈ input.items) :
    input.byTaskId item.taskId = some item := by
  unfold WaveInput.byTaskId
  cases hfound : input.items.reverse.find? (·.taskId = item.taskId) with
  | none =>
    have habsent := find?_eq_none.mp hfound item (mem_reverse.mpr hitem)
    exact absurd (decide_eq_true rfl) habsent
  | some found =>
    have hmatches := find?_some hfound
    have hsame : found.taskId = item.taskId := of_decide_eq_true hmatches
    have hmem : found ∈ input.items := mem_reverse.mp (mem_of_find?_eq_some hfound)
    rw [inj_on_of_nodup_map hdistinct hmem hitem hsame]

/-- With distinct task ids all items are pending at the start. -/
theorem initialPending_eq (hdistinct : input.Distinct) : input.initialPending = input.items := by
  unfold WaveInput.initialPending
  rw [OrderedSet.elements_ofList hdistinct, filterMap_map]
  have hsame : ∀ item ∈ input.items, (input.byTaskId ∘ (·.taskId)) item = some item :=
    fun item hitem => byTaskId_eq_some hdistinct hitem
  rw [filterMap_congr hsame, filterMap_some]

theorem initialState_accounts (hdistinct : input.Distinct) : input.initialState.Accounts input where
  shared := by
    change ([] ++ input.initialPending).Perm input.items
    rw [initialPending_eq hdistinct]
    exact List.Perm.refl _
  completed := rfl

namespace PlanState.Accounts

variable {input : WaveInput} {state : PlanState}

/-- The pending items have distinct task ids. -/
theorem pending_distinct (haccounts : state.Accounts input) (hdistinct : input.Distinct) :
    (state.pending.map (·.taskId)).Nodup := by
  have hall : ((wavesItems state.waves ++ state.pending).map (·.taskId)).Nodup :=
    (haccounts.shared.map _).nodup_iff.mpr hdistinct
  rw [map_append] at hall
  exact hall.of_append_right

theorem afterWave (haccounts : state.Accounts input) (hdistinct : input.Distinct)
    {waveItems : List SubSessionWorkItem} (hsublist : waveItems.Sublist state.pending) :
    (input.afterWave state waveItems).Accounts input where
  shared := by
    have hmoved := sublist_append_filter_perm (·.taskId) hsublist
      (haccounts.pending_distinct hdistinct)
    have hwaves : wavesItems (input.afterWave state waveItems).waves =
        wavesItems state.waves ++ waveItems := by
      unfold wavesItems
      rw [WaveInput.afterWave, flatMap_append, flatMap_singleton]
    rw [hwaves, append_assoc]
    exact (hmoved.append_left _).trans haccounts.shared
  completed := by
    rw [WaveInput.afterWave, wavesItems, flatMap_append, flatMap_singleton,
      map_append, haccounts.completed]
    rfl

end PlanState.Accounts

/-- A state that planning reaches. -/
def Planned (input : WaveInput) (state : PlanState) : Prop :=
  Rounds (planWave input) input.initialState state

theorem Planned.accounts (hdistinct : input.Distinct) (hplanned : Planned input state) :
    state.Accounts input := by
  refine Rounds.invariant (PlanState.Accounts input) ?_ hplanned (initialState_accounts hdistinct)
  intro state next haccounts hround
  obtain ⟨waveItems, rfl, -, hsublist, -⟩ := planWave_cases hround
  exact haccounts.afterWave hdistinct hsublist

/-! ## Where a wave comes from -/

/-- A round that plans a wave with the given items. -/
structure PlansWave (input : WaveInput) (state : PlanState)
    (waveItems : List SubSessionWorkItem) : Prop where
  nonempty : waveItems ≠ []
  pending : waveItems.Sublist state.pending
  drafted : waveItems = (input.draft state).items ∨
    ((input.draft state).items = [] ∧ ∃ fallback, waveItems = [fallback])

/-- Every wave of a planned state was planned by a round, from the waves before it. -/
theorem Planned.origin (hplanned : Planned input last)
    (hwaves : last.waves = before ++ wave :: after) :
    ∃ state, Planned input state ∧ state.waves = before ∧ PlansWave input state wave.items := by
  induction hplanned generalizing after with
  | refl => exact absurd hwaves.symm (by simp [WaveInput.initialState])
  | @tail state next hrounds hround ih =>
    obtain ⟨waveItems, rfl, hne, hsublist, hdrafted⟩ := planWave_cases hround
    obtain rfl | ⟨others, newest, rfl⟩ := eq_nil_or_concat after
    · -- The last wave is the one the round planned.
      obtain ⟨hbefore, hwave⟩ := append_inj' hwaves rfl
      refine ⟨state, hrounds, hbefore, ?_⟩
      rw [← head_eq_of_cons_eq hwave]
      exact ⟨hne, hsublist, hdrafted⟩
    · have hprior : state.waves = before ++ wave :: others := by
        rw [concat_eq_append, ← cons_append, ← append_assoc] at hwaves
        exact (append_inj' hwaves rfl).1
      exact ih hprior

/-- The state in which planning ends. -/
def WaveInput.finalState (input : WaveInput) : PlanState :=
  loop (planWave input) (fun state => state.pending.length) (planWave_runsDown input)
    input.initialState

theorem finalState_planned (input : WaveInput) : Planned input input.finalState :=
  (rounds_loop (planWave_runsDown input) input.initialState).1

theorem finalState_pending (input : WaveInput) : input.finalState.pending = [] :=
  planWave_eq_none.mp (rounds_loop (planWave_runsDown input) input.initialState).2

/-- Rounds only add waves. -/
theorem Rounds.waves_prefix {first : PlanState} (hrounds : Rounds (planWave input) first last) :
    first.waves <+: last.waves := by
  induction hrounds with
  | refl => exact prefix_refl _
  | tail _ hround ih =>
    obtain ⟨waveItems, rfl, -⟩ := planWave_cases hround
    exact ih.trans (prefix_append _ _)

/-- What a round plans is a wave of the plan. -/
theorem Planned.wave_mem (hplanned : Planned input state) (hpending : state.pending ≠ []) :
    ∃ wave ∈ planSubSessionExecutionWaves input, PlansWave input state wave.items := by
  cases hround : planWave input state with
  | none => exact absurd (planWave_eq_none.mp hround) hpending
  | some next =>
    obtain ⟨waveItems, rfl, hne, hsublist, hdrafted⟩ := planWave_cases hround
    have hnext : Planned input (input.afterWave state waveItems) := hplanned.tail hround
    have hend : loop (planWave input) (fun state => state.pending.length)
        (planWave_runsDown input) (input.afterWave state waveItems) = input.finalState :=
      (loop_eq_of_rounds (planWave_runsDown input) hnext).symm
    have hrest := (rounds_loop (planWave_runsDown input) (input.afterWave state waveItems)).1
    rw [hend] at hrest
    have hmem := (Rounds.waves_prefix hrest).subset (mem_append_cons_self)
    exact ⟨_, hmem, ⟨hne, hsublist, hdrafted⟩⟩

/-! ## Soundness -/

/-- Two items want the same resource, and one of them for itself alone. -/
def LocksConflict (first second : SubSessionWorkItem) : Prop :=
  ∃ held ∈ first.resourceLocks, ∃ wanted ∈ second.resourceLocks,
    held.kind = wanted.kind ∧ held.target = wanted.target ∧
      (held.mode = .exclusive ∨ wanted.mode = .exclusive)

/-- How many of the items use the agent, tool or server. -/
def useCount (kind : ConcurrencyKind) (key : String) (items : List SubSessionWorkItem) : ℕ :=
  items.countP fun item => key ∈ item.keys kind

/-- A task of the list depends on another one. -/
def WaveInput.Depends (input : WaveInput) (task dependency : String) : Prop :=
  task ∈ input.items.map (·.taskId) ∧ dependency ∈ input.dependenciesOf task

/-- Every dependency names an item of the list, and no task depends on itself, directly or
through others. -/
structure WaveInput.Ordered (input : WaveInput) : Prop where
  named : ∀ task dependency, input.Depends task dependency → dependency ∈ input.items.map (·.taskId)
  acyclic : ∀ task, ¬ Relation.TransGen input.Depends task task

structure WavesSound (input : WaveInput) (waves : List SubSessionExecutionWave) : Prop where
  placed : (wavesItems waves).Perm input.items
  locks : ∀ wave ∈ waves, wave.items.Pairwise fun first second => ¬ LocksConflict first second
  groupLimit : ∀ wave ∈ waves, ∀ group, input.group = some group →
    JsNumber.le (JsNumber.ofNat wave.items.length) group.concurrencyLimit
  limits : ∀ wave ∈ waves, ∀ kind key limit,
    effectiveLimit input.options kind key = some limit →
    JsNumber.lt (JsNumber.ofNat 0) limit →
    JsNumber.le (JsNumber.ofNat (useCount kind key wave.items)) limit
  ordered : input.Ordered → ∀ before wave after, waves = before ++ wave :: after →
    ∀ item ∈ wave.items, ∀ dependency ∈ input.dependenciesOf item.taskId,
      ∃ earlier ∈ before, ∃ other ∈ earlier.items, other.taskId = dependency

/-- The positive limits on what the items use admit one user. -/
def WaveInput.UsesAdmitted (input : WaveInput) : Prop :=
  ∀ item ∈ input.items, ∀ kind, ∀ key ∈ item.keys kind, ∀ limit,
    effectiveLimit input.options kind key = some limit →
    JsNumber.lt (JsNumber.ofNat 0) limit → JsNumber.le (JsNumber.ofNat 1) limit

/-- The candidates of a state that fit together, were there no limit for the group. -/
def WaveInput.fitting (input : WaveInput) (state : PlanState) : List SubSessionWorkItem :=
  (draftWave input.options .infinity state.deferred (input.candidates state)).items

/-- The group's limit admits one item, and is whole or never outnumbered by the candidates
that fit together. -/
def WaveInput.GroupAdmitted (input : WaveInput) : Prop :=
  ∀ group, input.group = some group → input.items = [] ∨
    (JsNumber.le (JsNumber.ofNat 1) group.concurrencyLimit ∧
      (JsNumber.floor group.concurrencyLimit = group.concurrencyLimit ∨
        ∀ state, Planned input state →
          JsNumber.le (JsNumber.ofNat (input.fitting state).length) group.concurrencyLimit))

/-! ## Locks -/

theorem canAcquire_eq_nil {holders : List HeldLock} {locks : List ResourceLockContract}
    (hfree : ResourceLockManager.canAcquire ⟨holders⟩ locks = []) {holder : HeldLock}
    (hholder : holder ∈ holders) {wanted : ResourceLockContract} (hwanted : wanted ∈ locks)
    (hkind : holder.lock.kind = wanted.kind) (htarget : holder.lock.target = wanted.target) :
    ¬ (holder.lock.mode = .exclusive ∨ wanted.mode = .exclusive) := by
  intro hexclusive
  have hnone := flatMap_eq_nil_iff.mp hfree wanted hwanted
  have hkey : ResourceLockManager.lockKey holder.lock = ResourceLockManager.lockKey wanted := by
    unfold ResourceLockManager.lockKey
    rw [hkind, htarget]
  have hmem : holder ∈ holders.filter fun holder =>
      ResourceLockManager.lockKey holder.lock = ResourceLockManager.lockKey wanted ∧
        (holder.lock.mode = .exclusive ∨ wanted.mode = .exclusive) :=
    mem_filter.mpr ⟨hholder, decide_eq_true ⟨hkey, hexclusive⟩⟩
  rw [map_eq_nil_iff.mp hnone] at hmem
  exact not_mem_nil hmem

/-- What fits beside the items taken has no conflict with any of them. -/
theorem FitsBeside.no_conflict (hfits : FitsBeside options taken item) :
    ∀ other ∈ taken, ¬ LocksConflict other item := by
  rintro other hother ⟨held, hheld, wanted, hwanted, hkind, htarget, hexclusive⟩
  have hholder : ⟨other.taskId, held⟩ ∈ taken.flatMap (·.heldLocks) :=
    mem_flatMap.mpr ⟨other, hother, mem_map_of_mem hheld⟩
  exact canAcquire_eq_nil hfits.2 hholder hwanted hkind htarget hexclusive

theorem draftWave_locks (options : SubSessionExecutionPlanningOptions) (limit : JsNumber)
    (deferred : DeferredReasons) (candidates : List SubSessionWorkItem) :
    (draftWave options limit deferred candidates).items.Pairwise
      fun first second => ¬ LocksConflict first second := by
  refine draftWave_induction (List.Pairwise _) deferred List.Pairwise.nil ?_
  intro taken item _ htaken _ hfits
  rw [pairwise_append]
  refine ⟨htaken, pairwise_singleton _ _, ?_⟩
  intro first hfirst second hsecond
  rw [mem_singleton.mp hsecond]
  exact hfits.no_conflict first hfirst

/-! ## Limits on agents, tools and servers -/

theorem count_kindKeys (item : SubSessionWorkItem) (kind other : ConcurrencyKind) (key : String) :
    ((item.keys other).elements.map (other, ·)).count (kind, key) =
      if other = kind ∧ key ∈ item.keys kind then 1 else 0 := by
  by_cases hkind : other = kind
  · subst hkind
    rw [count_map_of_injective _ _ (Prod.mk_right_injective other)]
    by_cases hkey : key ∈ item.keys other
    · rw [if_pos ⟨rfl, hkey⟩]
      exact count_eq_one_of_mem (item.keys other).nodup hkey
    · rw [if_neg (by simp [hkey])]
      exact count_eq_zero.mpr hkey
  · rw [if_neg (by simp [hkind])]
    refine count_eq_zero.mpr ?_
    intro hmem
    obtain ⟨_, _, hsame⟩ := mem_map.mp hmem
    exact hkind (congrArg Prod.fst hsame)

/-- An item uses each of its keys once. -/
theorem count_uses (item : SubSessionWorkItem) (kind : ConcurrencyKind) (key : String) :
    item.uses.count (kind, key) = if key ∈ item.keys kind then 1 else 0 := by
  unfold SubSessionWorkItem.uses
  simp only [flatMap_cons, flatMap_nil, append_nil, count_append, count_kindKeys]
  cases kind <;> simp

/-- The reserved uses of a key are the items that use it. -/
theorem count_reserved (taken : List SubSessionWorkItem) (kind : ConcurrencyKind) (key : String) :
    (taken.flatMap (·.uses)).count (kind, key) = useCount kind key taken := by
  unfold useCount
  induction taken with
  | nil => rfl
  | cons item rest ih =>
    rw [flatMap_cons, count_append, ih, count_uses, countP_cons, Nat.add_comm]
    simp

/-- An item that uses a key fits only if the users so far leave room under its limit. -/
theorem FitsBeside.room (hfits : FitsBeside options taken item) (hkey : key ∈ item.keys kind) :
    countLimitExceeded (taken.flatMap (·.uses)) options kind key = false := by
  have hkinds : kind ∈ [ConcurrencyKind.agent, .tool, .mcpServer] := by cases kind <;> simp
  have hreasons := filter_eq_nil_iff.mp (map_eq_nil_iff.mp hfits.1) kind hkinds
  exact Bool.eq_false_iff.mpr fun hexceeded => hreasons (any_eq_true.mpr ⟨key, hkey, hexceeded⟩)

/-- A limit that leaves room admits one user more. -/
theorem succ_le_of_room {reserved : List (ConcurrencyKind × String)}
    (hroom : countLimitExceeded reserved options kind key = false)
    (hlimit : effectiveLimit options kind key = some limit)
    (hpositive : JsNumber.lt (JsNumber.ofNat 0) limit) :
    JsNumber.le (JsNumber.ofNat (reserved.count (kind, key) + 1)) limit := by
  cases limit with
  | finite value =>
    have hvalue : 0 < value := by simpa [JsNumber.lt, JsNumber.ofNat] using hpositive
    rw [countLimitExceeded, hlimit, normalizedPositiveLimit, if_neg (not_le.mpr hvalue)] at hroom
    have hless : (reserved.count (kind, key) : ℤ) < ⌊value⌋ := not_le.mp (of_decide_eq_false hroom)
    rw [le_ofNat_finite, decide_eq_true_eq]
    exact_mod_cast Int.le_floor.mp (Int.add_one_le_of_lt hless)
  | infinity => rfl
  | nan | negInfinity => cases hpositive

theorem draftWave_limits {bound : JsNumber} (hbound : effectiveLimit options kind key = some bound)
    (hpositive : JsNumber.lt (JsNumber.ofNat 0) bound) :
    JsNumber.le (JsNumber.ofNat
      (useCount kind key (draftWave options limit deferred candidates).items)) bound := by
  refine draftWave_induction (P := fun taken =>
    JsNumber.le (JsNumber.ofNat (useCount kind key taken)) bound) deferred ?_ ?_
  · exact JsNumber.le_of_lt hpositive
  · intro taken item _ htaken _ hfits
    have happend : useCount kind key (taken ++ [item]) =
        useCount kind key taken + if key ∈ item.keys kind then 1 else 0 := by
      unfold useCount
      rw [countP_append, countP_singleton]
      simp
    rw [happend]
    by_cases hkey : key ∈ item.keys kind
    · rw [if_pos hkey, ← count_reserved]
      exact succ_le_of_room (hfits.room hkey) hbound hpositive
    · rw [if_neg hkey]
      exact htaken

/-! ## The limit of the group -/

theorem draftWave_groupLimit (hone : JsNumber.le (JsNumber.ofNat 1) limit)
    (hwhole : JsNumber.floor limit = limit) :
    JsNumber.le (JsNumber.ofNat (draftWave options limit deferred candidates).items.length)
      limit := by
  refine draftWave_induction (P := fun taken =>
    JsNumber.le (JsNumber.ofNat taken.length) limit) deferred ?_ ?_
  · exact ofNat_le_of_le (Nat.zero_le 1) hone
  · intro taken item _ _ hroom _
    rw [length_append, length_singleton]
    exact succ_le_of_whole hwhole hone hroom

/-- Two lists of items agree, or the first has reached the limit and is not the longer one. -/
def AgreeUnder (limit : JsNumber) (limited unlimited : List SubSessionWorkItem) : Prop :=
  limited = unlimited ∨
    (JsNumber.le limit (JsNumber.ofNat limited.length) ∧ limited.length ≤ unlimited.length)

theorem consider_agree {first second : WaveDraft} (item : SubSessionWorkItem)
    (hagree : AgreeUnder limit first.items second.items) :
    AgreeUnder limit (first.consider options limit item).items
      (second.consider options .infinity item).items := by
  have hunbounded : ¬ JsNumber.le .infinity (JsNumber.ofNat second.items.length) := by
    simp [JsNumber.le, JsNumber.lt, JsNumber.ofNat]
  obtain hsame | ⟨hfull, hlength⟩ := hagree
  · obtain ⟨hdefer, hreason⟩ | ⟨htake, hroom, hfits⟩ := consider_cases options limit first item
    · obtain ⟨hother, hwhy⟩ | ⟨hother, -, hfits⟩ := consider_cases options .infinity second item
      · exact .inl (by rw [hdefer, hother, hsame])
      · obtain hfull | hunfit := hreason
        · refine .inr ⟨by rw [hdefer]; exact hfull, ?_⟩
          rw [hdefer, hother, hsame, length_append]
          exact Nat.le_add_right _ _
        · exact absurd (hsame ▸ hfits) hunfit
    · obtain ⟨-, hfull | hunfit⟩ | ⟨hother, -, -⟩ := consider_cases options .infinity second item
      · exact absurd hfull hunbounded
      · exact absurd (hsame ▸ hfits) hunfit
      · exact .inl (by rw [htake, hother, hsame])
  · obtain ⟨hdefer, -⟩ | ⟨-, hroom, -⟩ := consider_cases options limit first item
    · refine .inr ⟨by rw [hdefer]; exact hfull, ?_⟩
      rw [hdefer]
      obtain ⟨hother, -⟩ | ⟨hother, -⟩ := consider_cases options .infinity second item
      · rw [hother]
        exact hlength
      · rw [hother, length_append]
        exact hlength.trans (Nat.le_add_right _ _)
    · rw [hfull] at hroom
      cases hroom

/-- A draft under a limit and one without a limit agree until the limit is reached. -/
theorem draftWave_agree (options : SubSessionExecutionPlanningOptions) (limit : JsNumber)
    (deferred : DeferredReasons) (candidates : List SubSessionWorkItem) :
    AgreeUnder limit (draftWave options limit deferred candidates).items
      (draftWave options .infinity deferred candidates).items := by
  have hfold : ∀ (candidates : List SubSessionWorkItem) (first second : WaveDraft),
      AgreeUnder limit first.items second.items →
      AgreeUnder limit (candidates.foldl (WaveDraft.consider options limit) first).items
        (candidates.foldl (WaveDraft.consider options .infinity) second).items := by
    intro candidates
    induction candidates with
    | nil => exact fun _ _ hagree => hagree
    | cons item rest ih => exact fun first second hagree => ih _ _ (consider_agree item hagree)
  exact hfold candidates _ _ (.inl rfl)

/-! ## Rounds that do not fall back -/

/-- In an ordered input some pending item has all its dependencies in earlier waves. -/
theorem exists_candidate (hordered : input.Ordered) (haccounts : state.Accounts input)
    (hpending : state.pending ≠ []) : input.candidates state ≠ [] := by
  obtain ⟨first, hfirst⟩ := exists_mem_of_ne_nil _ hpending
  have hfinite : {task | task ∈ state.pending.map (·.taskId)}.Finite :=
    finite_toSet (state.pending.map (·.taskId))
  obtain ⟨task, htask, hsink⟩ := exists_sink hordered.acyclic hfinite
    ⟨first.taskId, mem_map_of_mem hfirst⟩
  obtain ⟨item, hitem, rfl⟩ := mem_map.mp htask
  refine ne_nil_of_mem (mem_filter.mpr ⟨hitem, all_eq_true.mpr ?_⟩)
  intro dependency hdependency
  have hlisted : item.taskId ∈ input.items.map (·.taskId) :=
    mem_map_of_mem (haccounts.shared.subset (mem_append_right _ hitem))
  have hdepends : input.Depends item.taskId dependency := ⟨hlisted, hdependency⟩
  have hnamed := hordered.named _ _ hdepends
  have hwhere := (haccounts.shared.map (·.taskId)).symm.subset hnamed
  rw [map_append] at hwhere
  obtain hbefore | hlater := mem_append.mp hwhere
  · rw [← haccounts.completed] at hbefore
    exact decide_eq_true hbefore
  · exact absurd hdepends (hsink dependency hlater)

theorem concurrencyLimitReasons_nil (hadmitted : ∀ kind, ∀ key ∈ item.keys kind, ∀ limit,
      effectiveLimit options kind key = some limit →
      JsNumber.lt (JsNumber.ofNat 0) limit →
      JsNumber.le (JsNumber.ofNat 1) limit) :
    concurrencyLimitReasons item [] options = [] := by
  unfold concurrencyLimitReasons
  rw [map_eq_nil_iff, filter_eq_nil_iff]
  intro kind _ hexceeded
  obtain ⟨key, hkey, hreached⟩ := any_eq_true.mp hexceeded
  cases hlimit : effectiveLimit options kind key with
  | none =>
    rw [countLimitExceeded, hlimit] at hreached
    cases hreached
  | some limit =>
    rw [countLimitExceeded, hlimit] at hreached
    cases limit with
    | finite value =>
      by_cases hvalue : value ≤ 0
      · rw [normalizedPositiveLimit, if_pos hvalue] at hreached
        cases hreached
      · -- A positive limit that admits one user is not reached by none.
        rw [normalizedPositiveLimit, if_neg hvalue] at hreached
        have hpositive : JsNumber.lt (JsNumber.ofNat 0) (.finite value) := by
          simpa [JsNumber.lt, JsNumber.ofNat] using hvalue
        have hone := hadmitted kind key hkey (.finite value) hlimit hpositive
        rw [le_ofNat_finite, decide_eq_true_eq] at hone
        have hfloor : (1 : ℤ) ≤ ⌊value⌋ := Int.le_floor.mpr (by exact_mod_cast hone)
        have hzero : ⌊value⌋ ≤ (0 : ℤ) := of_decide_eq_true hreached
        omega
    | nan => cases hreached
    | infinity => cases hreached
    | negInfinity => cases hreached

/-- The first candidate fits into an empty wave. -/
theorem draft_ne_nil (hadmitted : input.UsesAdmitted)
    (hitems : ∀ item ∈ input.candidates state, item ∈ input.items)
    (hcandidates : input.candidates state ≠ []) : (input.draft state).items ≠ [] := by
  cases hlist : input.candidates state with
  | nil => exact absurd hlist hcandidates
  | cons item rest =>
    have hitem : item ∈ input.items := hitems item (hlist ▸ mem_cons_self)
    have hfits : FitsBeside input.options [] item := by
      constructor
      · exact concurrencyLimitReasons_nil (hadmitted item hitem)
      · exact flatMap_eq_nil_iff.mpr fun _ _ => rfl
    obtain ⟨-, hfull | hunfit⟩ | ⟨htake, -⟩ := consider_cases input.options input.limit
      (WaveDraft.empty state.deferred) item
    · exact absurd hfull (Bool.eq_false_iff.mp (max_one_not_le_zero _))
    · exact absurd hfits hunfit
    · obtain ⟨added, hadded, -⟩ := foldl_consider_items input.options input.limit rest
        ((WaveDraft.empty state.deferred).consider input.options input.limit item)
      rw [WaveInput.draft, hlist, draftWave, foldl_cons, hadded, htake]
      simp

/-! ## Sound plans -/

/-- What holds of the items of every round holds of every wave of the plan. -/
theorem forall_waves {P : List SubSessionWorkItem → Prop}
    (hround : ∀ state waveItems, Planned input state → PlansWave input state waveItems →
      P waveItems) : ∀ wave ∈ planSubSessionExecutionWaves input, P wave.items := by
  intro wave hwave
  obtain ⟨before, after, hsplit⟩ := append_of_mem hwave
  obtain ⟨state, hplanned, -, hplans⟩ := (finalState_planned input).origin hsplit
  exact hround state wave.items hplanned hplans

theorem planned_placed (hdistinct : input.Distinct) :
    (wavesItems (planSubSessionExecutionWaves input)).Perm input.items := by
  have hshared := ((finalState_planned input).accounts hdistinct).shared
  rw [finalState_pending, append_nil] at hshared
  exact hshared

theorem planned_locks (input : WaveInput) : ∀ wave ∈ planSubSessionExecutionWaves input,
    wave.items.Pairwise fun first second => ¬ LocksConflict first second := by
  refine forall_waves fun state waveItems _ hplans => ?_
  obtain hdraft | ⟨-, fallback, hsingle⟩ := hplans.drafted
  · rw [hdraft]
    exact draftWave_locks _ _ _ _
  · rw [hsingle]
    exact pairwise_singleton _ _

/-- A single item that is admitted keeps to every limit. -/
theorem useCount_singleton (hadmitted : input.UsesAdmitted) (hitem : item ∈ input.items)
    (hlimit : effectiveLimit input.options kind key = some limit)
    (hpositive : JsNumber.lt (JsNumber.ofNat 0) limit) :
    JsNumber.le (JsNumber.ofNat (useCount kind key [item])) limit := by
  unfold useCount
  rw [countP_singleton]
  by_cases hkey : key ∈ item.keys kind
  · rw [if_pos (decide_eq_true hkey)]
    exact hadmitted item hitem kind key hkey limit hlimit hpositive
  · rw [if_neg (by simpa using hkey)]
    exact JsNumber.le_of_lt hpositive

theorem planned_limits (hdistinct : input.Distinct) (hadmitted : input.UsesAdmitted) :
    ∀ wave ∈ planSubSessionExecutionWaves input,
    ∀ kind key limit, effectiveLimit input.options kind key = some limit →
      JsNumber.lt (JsNumber.ofNat 0) limit →
      JsNumber.le (JsNumber.ofNat (useCount kind key wave.items)) limit := by
  refine forall_waves (P := fun items => ∀ kind key limit,
    effectiveLimit input.options kind key = some limit →
    JsNumber.lt (JsNumber.ofNat 0) limit →
    JsNumber.le (JsNumber.ofNat (useCount kind key items)) limit) ?_
  intro state waveItems hplanned hplans kind key limit hlimit hpositive
  obtain hdraft | ⟨-, fallback, hsingle⟩ := hplans.drafted
  · rw [hdraft]
    exact draftWave_limits _ _ hlimit hpositive
  · have hpending : fallback ∈ state.pending :=
      hplans.pending.subset (hsingle ▸ mem_singleton_self _)
    have hitem := (hplanned.accounts hdistinct).shared.subset (mem_append_right _ hpending)
    rw [hsingle]
    exact useCount_singleton hadmitted hitem hlimit hpositive

theorem planned_groupLimit (hdistinct : input.Distinct) (hadmitted : input.GroupAdmitted) :
    ∀ wave ∈ planSubSessionExecutionWaves input,
    ∀ group, input.group = some group →
      JsNumber.le (JsNumber.ofNat wave.items.length) group.concurrencyLimit := by
  refine forall_waves (P := fun items => ∀ group, input.group = some group →
    JsNumber.le (JsNumber.ofNat items.length) group.concurrencyLimit) ?_
  intro state waveItems hplanned hplans group hgroup
  obtain hnone | ⟨hone, hwhole⟩ := hadmitted group hgroup
  · -- There is nothing to plan.
    have hpending : state.pending = [] := by
      have hshared := (hplanned.accounts hdistinct).shared
      rw [hnone] at hshared
      exact (append_eq_nil_iff.mp hshared.eq_nil).2
    exact absurd (sublist_nil.mp (hpending ▸ hplans.pending)) hplans.nonempty
  · have hlimit : input.limit = group.concurrencyLimit := by
      rw [WaveInput.limit, hgroup]
      exact max_one_of_le hone
    obtain hdraft | ⟨-, fallback, hsingle⟩ := hplans.drafted
    · rw [hdraft, WaveInput.draft, hlimit]
      obtain hwhole | hnever := hwhole
      · exact draftWave_groupLimit _ _ hone hwhole
      · refine ofNat_le_of_le ?_ (hnever state hplanned)
        obtain hsame | ⟨-, hlength⟩ := draftWave_agree input.options group.concurrencyLimit
          state.deferred (input.candidates state)
        · rw [hsame]
          exact Nat.le_refl _
        · exact hlength
    · rw [hsingle]
      exact hone

theorem planned_ordered (hdistinct : input.Distinct) (hadmitted : input.UsesAdmitted)
    (hordered : input.Ordered)
    (hsplit : planSubSessionExecutionWaves input = before ++ wave :: after) :
    ∀ item ∈ wave.items, ∀ dependency ∈ input.dependenciesOf item.taskId,
      ∃ earlier ∈ before, ∃ other ∈ earlier.items, other.taskId = dependency := by
  intro item hitem dependency hdependency
  obtain ⟨state, hplanned, rfl, hplans⟩ := (finalState_planned input).origin hsplit
  have haccounts := hplanned.accounts hdistinct
  have hpending : state.pending ≠ [] := by
    intro hnil
    exact hplans.nonempty (sublist_nil.mp (hnil ▸ hplans.pending))
  have hlisted : ∀ other ∈ input.candidates state, other ∈ input.items := fun other hother =>
    haccounts.shared.subset (mem_append_right _ (mem_of_mem_filter hother))
  have hdrafted := draft_ne_nil hadmitted hlisted (exists_candidate hordered haccounts hpending)
  obtain hdraft | ⟨hempty, -⟩ := hplans.drafted
  · rw [hdraft] at hitem
    have hcandidate := (draftWave_sublist _ _ _ _).subset hitem
    have hready := all_eq_true.mp (mem_filter.mp hcandidate).2 dependency hdependency
    have hcompleted : dependency ∈ state.completed := of_decide_eq_true hready
    rw [haccounts.completed] at hcompleted
    obtain ⟨other, hother, hname⟩ := mem_map.mp hcompleted
    obtain ⟨earlier, hearlier, hmem⟩ := mem_flatMap.mp hother
    exact ⟨earlier, hearlier, other, hmem, hname⟩
  · exact absurd hempty hdrafted

/-! ## Limits that a sound plan shows to be admitted -/

section

variable (hsound : WavesSound input (planSubSessionExecutionWaves input))
include hsound

theorem usesAdmitted_of_sound :
    input.UsesAdmitted := by
  intro item hitem kind key hkey limit hlimit hpositive
  obtain ⟨wave, hwave, hmem⟩ := mem_flatMap.mp (hsound.placed.symm.subset hitem)
  refine ofNat_le_of_le ?_ (hsound.limits wave hwave kind key limit hlimit hpositive)
  exact countP_pos_iff.mpr ⟨item, hmem, decide_eq_true hkey⟩

/-- In a sound plan the draft of every round keeps to the group's limit. -/
theorem draft_groupLimit_of_sound
    {group : WaveGroup} (hgroup : input.group = some group)
    (hone : JsNumber.le (JsNumber.ofNat 1) group.concurrencyLimit) (hplanned : Planned input state)
    :
    JsNumber.le (JsNumber.ofNat (input.draft state).items.length) group.concurrencyLimit =
      true := by
  have hnothing : (input.draft state).items = [] → JsNumber.le
      (JsNumber.ofNat (input.draft state).items.length) group.concurrencyLimit := by
    intro hempty
    rw [hempty]
    exact ofNat_le_of_le (Nat.zero_le 1) hone
  by_cases hpending : state.pending = []
  · apply hnothing
    have hsublist := (draftWave_sublist input.options input.limit state.deferred
      (input.candidates state)).trans filter_sublist
    rw [hpending] at hsublist
    exact sublist_nil.mp hsublist
  · obtain ⟨wave, hwave, hplans⟩ := hplanned.wave_mem hpending
    obtain hdraft | ⟨hempty, -⟩ := hplans.drafted
    · rw [← hdraft]
      exact hsound.groupLimit wave hwave group hgroup
    · exact hnothing hempty

theorem groupAdmitted_of_sound :
    input.GroupAdmitted := by
  intro group hgroup
  by_cases hnone : input.items = []
  · exact .inl hnone
  · obtain ⟨item, hitem⟩ := exists_mem_of_ne_nil _ hnone
    obtain ⟨wave, hwave, hmem⟩ := mem_flatMap.mp (hsound.placed.symm.subset hitem)
    have hone : JsNumber.le (JsNumber.ofNat 1) group.concurrencyLimit :=
      ofNat_le_of_le (length_pos_of_mem hmem) (hsound.groupLimit wave hwave group hgroup)
    refine .inr ⟨hone, ?_⟩
    by_cases hwhole : JsNumber.floor group.concurrencyLimit = group.concurrencyLimit
    · exact .inl hwhole
    · refine .inr fun state hplanned => ?_
      have hlimit : input.limit = group.concurrencyLimit := by
        rw [WaveInput.limit, hgroup]
        exact max_one_of_le hone
      have hagree := draftWave_agree input.options input.limit state.deferred
        (input.candidates state)
      rw [hlimit] at hagree
      have hkept := draft_groupLimit_of_sound hsound hgroup hone hplanned
      rw [WaveInput.draft, hlimit] at hkept
      obtain hsame | ⟨hfull, -⟩ := hagree
      · rw [WaveInput.fitting, ← hsame]
        exact hkept
      · exact absurd (whole_of_le_of_le hfull hkept) hwhole

end

/-- For a list of items with distinct task ids the plan of waves is sound exactly if no
positive limit on what an item uses is below one, and the group's limit is at least one,
and whole or never outnumbered by candidates that fit together. -/
theorem wavesSound_iff {input : WaveInput} (hdistinct : input.Distinct) :
    WavesSound input (planSubSessionExecutionWaves input) ↔
      input.UsesAdmitted ∧ input.GroupAdmitted := by
  constructor
  · intro hsound
    exact ⟨usesAdmitted_of_sound hsound, groupAdmitted_of_sound hsound⟩
  · rintro ⟨huses, hgroup⟩
    exact
      { placed := planned_placed hdistinct
        locks := planned_locks input
        groupLimit := planned_groupLimit hdistinct hgroup
        limits := planned_limits hdistinct huses
        ordered := fun hordered _ _ _ hsplit => planned_ordered hdistinct huses hordered hsplit }

/-! ## Two items -/

def plainItem (taskId : String) (dependencies : List String) : SubSessionWorkItem where
  taskId := taskId
  subSessionId := taskId
  agentId := none
  toolNames := []
  mcpServerIds := []
  estimatedCost := none
  estimatedDurationMs := none
  resourceLocks := []
  dependencies := dependencies

/-- Two items in a group, the second of which may depend on the first. -/
def pairInput (concurrencyLimit : JsNumber) (dependencies : List String) : WaveInput where
  items := [plainItem "draft" [], plainItem "review" dependencies]
  group := some { dependencyEdges := [], concurrencyLimit }
  options := .unlimited

theorem dependentPair_sound :
    WavesSound (pairInput (.finite 2) ["draft"])
      (planSubSessionExecutionWaves (pairInput (.finite 2) ["draft"])) := by
  refine (wavesSound_iff (by unfold WaveInput.Distinct; decide)).mpr ⟨?_, ?_⟩
  · intro item _ kind key _ limit hlimit
    cases kind <;> cases hlimit
  · rintro group hgroup
    cases hgroup
    exact .inr ⟨by decide, .inl (by decide)⟩

/-- Under a limit of one and a half both items are put into one wave. -/
theorem fractionalLimit_overfills :
    ¬ WavesSound (pairInput (.finite (3 / 2)) [])
      (planSubSessionExecutionWaves (pairInput (.finite (3 / 2)) [])) := by
  intro hsound
  obtain hnone | ⟨-, hwhole | hnever⟩ := groupAdmitted_of_sound hsound _ rfl
  · cases hnone
  · exact absurd hwhole (by decide +kernel)
  · have hinitial := hnever _ .refl
    exact absurd hinitial (by decide +kernel)

end Nobie.Orchestration
