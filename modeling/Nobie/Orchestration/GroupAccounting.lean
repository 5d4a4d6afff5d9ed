/-
# What a group accounts for

At every moment of a group its items are shared out: those whose `run` was called, those
that are skipped, and those that are still open. Every step moves open items into one of
the other shares and keeps the sets of the group in line with them. What the outcomes say of
the started items depends on their promises: one that rejects leaves no outcome.
-/

import Nobie.Orchestration.ParallelGroup
import Nobie.Orchestration.WaveSoundness

namespace Nobie.Orchestration

open Foundation Foundation.Effects List

variable {Outputs : Type}

/-! ## Calls -/

/-- The items whose `run` was called. -/
def startedItems (calls : List GroupCall) : List SubSessionWorkItem :=
  calls.filterMap fun call =>
    match call with
    | .run item => some item
    | .summarize _ | .consult _ => none

def GroupState.started (state : GroupState Outputs) : List SubSessionWorkItem :=
  startedItems state.calls

variable (runtime : GroupRuntime Outputs)

/-- The call ends without an error: a look-up reads, a `run` resolves. -/
def GroupCall.Succeeds : GroupCall → Prop
  | .summarize value => ∃ entry, value.summarized = .ok entry
  | .consult value => ∃ waited, value.waitedForLock runtime.writesEvents = .ok waited
  | .run item => ∃ outcome, runtime.run item.taskId = .resolves outcome

/-- The call itself throws. -/
def GroupCall.Throws : GroupCall → Prop
  | .summarize value => ∃ error, value.summarized = .error error
  | .consult value => ∃ error, value.waitedForLock runtime.writesEvents = .error error
  | .run item => ∃ error, (runtime.run item.taskId).settled = .error error

variable {call : GroupCall} {item : SubSessionWorkItem} {others started : List SubSessionWorkItem}
  {state : GroupState Outputs} (unsettled : List SubSessionWorkItem)

theorem GroupCall.Succeeds.not_throws {runtime : GroupRuntime Outputs}
    (hsucceeds : call.Succeeds runtime) : ¬ call.Throws runtime := by
  cases call with
  | summarize | consult | run =>
    obtain ⟨_, hok⟩ := hsucceeds
    rintro ⟨_, herror⟩
    rw [hok] at herror
    cases herror

def RunBehaviour.outcome? : RunBehaviour Outputs → Option (SubSessionRunOutcome Outputs)
  | .resolves outcome => some outcome
  | .rejects _ | .throws _ => none

/-- The item's `run` resolves with the status `completed`. -/
def Completes (item : SubSessionWorkItem) : Prop :=
  ∃ outcome, runtime.run item.taskId = .resolves outcome ∧ outcome.status = .completed

/-- Something the group called has thrown. -/
def SomeCallThrows (state : GroupState Outputs) : Prop := ∃ call ∈ state.calls, call.Throws runtime

/-! ## The shares -/

structure GroupState.Accounts (runtime : GroupRuntime Outputs) (group : ParallelSubSessionGroup)
    (items unsettled : List SubSessionWorkItem) (state : GroupState Outputs) : Prop where
  shared : (state.started.map (·.taskId) ++ state.skipped.map (·.taskId) ++
    unsettled.map (·.taskId)).Perm (items.map (·.taskId))
  started_listed : ∀ item ∈ state.started, item ∈ items
  unsettled_listed : ∀ item ∈ unsettled, item ∈ items
  known : ∀ taskId, (taskId ∈ state.completedTasks ∨ taskId ∈ state.blockedTasks ∨
    taskId ∈ state.skippedTaskIds) ↔
      (taskId ∈ state.started.map (·.taskId) ∨ taskId ∈ state.skipped.map (·.taskId))
  completed : ∀ taskId ∈ state.completedTasks,
    ∃ item ∈ state.started, item.taskId = taskId ∧ Completes runtime item
  ordered : ∀ before item after, state.started = before ++ item :: after →
    ∀ dependency ∈ groupDependencies group item,
      ∃ other ∈ before, other.taskId = dependency ∧ Completes runtime other
  outcomes : state.outcomes = state.started.filterMap fun item => (runtime.run item.taskId).outcome?
  quiet : ∀ call ∈ state.calls, ¬ call.Throws runtime

variable (reasonCode : String) {Value : Type} (done : List String) (arithmetic : Arithmetic)
  (budget : Option ParallelSubSessionBudget) {value : ParallelSubSessionGroupRunResult Outputs}
  {last : GroupState Outputs}

namespace GroupState.Accounts

variable {runtime : GroupRuntime Outputs} {group : ParallelSubSessionGroup}
  {items unsettled : List SubSessionWorkItem} {state : GroupState Outputs}

/-- An item that is still open is in none of the sets. -/
theorem unknown (haccounts : state.Accounts runtime group items unsettled)
    (hdistinct : (items.map (·.taskId)).Nodup) (hitem : item ∈ unsettled) :
    ¬ (item.taskId ∈ state.completedTasks ∨ item.taskId ∈ state.blockedTasks ∨
      item.taskId ∈ state.skippedTaskIds) := by
  rw [haccounts.known, ← mem_append]
  intro hknown
  have hnodup := haccounts.shared.nodup_iff.mpr hdistinct
  exact disjoint_of_nodup_append hnodup hknown (mem_map_of_mem hitem)

/-- An item of the group that is in none of the sets is open. -/
theorem mem_unsettled (haccounts : state.Accounts runtime group items unsettled)
    (hdistinct : (items.map (·.taskId)).Nodup) (hitem : item ∈ items)
    (hunknown : ¬ (item.taskId ∈ state.completedTasks ∨ item.taskId ∈ state.blockedTasks ∨
      item.taskId ∈ state.skippedTaskIds)) : item ∈ unsettled := by
  rw [haccounts.known, ← mem_append] at hunknown
  have hshared := haccounts.shared.mem_iff.mpr (mem_map_of_mem hitem)
  obtain hknown | hopen := mem_append.mp hshared
  · exact absurd hknown hunknown
  · obtain ⟨other, hother, hsame⟩ := mem_map.mp hopen
    rw [← inj_on_of_nodup_map hdistinct (haccounts.unsettled_listed other hother) hitem hsame]
    exact hother

theorem unsettled_distinct (haccounts : state.Accounts runtime group items unsettled)
    (hdistinct : (items.map (·.taskId)).Nodup) : (unsettled.map (·.taskId)).Nodup :=
  (haccounts.shared.nodup_iff.mpr hdistinct).of_append_right

/-- The order of the open items does not matter. -/
theorem perm (haccounts : state.Accounts runtime group items unsettled)
    (hperm : others.Perm unsettled) : state.Accounts runtime group items others :=
  { haccounts with
    shared := ((hperm.map _).append_left _).trans haccounts.shared
    unsettled_listed := fun item hitem => haccounts.unsettled_listed item (hperm.subset hitem) }

/-- Events are no part of the accounts. -/
theorem withEvents (haccounts : state.Accounts runtime group items unsettled)
    (events : List GroupEvent) :
    ({ state with events } : GroupState Outputs).Accounts runtime group items unsettled :=
  { haccounts with }

/-- A look-up that reads changes nothing but the list of calls. -/
theorem withCall (haccounts : state.Accounts runtime group items unsettled)
    (hlookup : startedItems [call] = []) (hquiet : ¬ call.Throws runtime) :
    ({ state with calls := state.calls ++ [call] } : GroupState Outputs).Accounts
      runtime group items unsettled := by
  have hstarted : ({ state with calls := state.calls ++ [call] } : GroupState Outputs).started =
      state.started := by
    change startedItems (state.calls ++ [call]) = startedItems state.calls
    unfold startedItems at hlookup ⊢
    rw [filterMap_append, hlookup, append_nil]
  exact
    { shared := by rw [hstarted]; exact haccounts.shared
      started_listed := by rw [hstarted]; exact haccounts.started_listed
      unsettled_listed := haccounts.unsettled_listed
      known := by rw [hstarted]; exact haccounts.known
      completed := by rw [hstarted]; exact haccounts.completed
      ordered := by rw [hstarted]; exact haccounts.ordered
      outcomes := by rw [hstarted]; exact haccounts.outcomes
      quiet := by
        intro other hother
        obtain hbefore | hsame := mem_append.mp hother
        · exact haccounts.quiet other hbefore
        · rw [mem_singleton.mp hsame]
          exact hquiet }

/-- Skipping an open item. -/
theorem skip (haccounts : state.Accounts runtime group items (item :: unsettled))
    (reasonCode : String) (taskIds : List String)
    (htaskIds : ∀ taskId ∈ taskIds, taskId = item.taskId) :
    ({ state with
      skipped := state.skipped ++ [skippedFor item reasonCode]
      skippedTaskIds := state.skippedTaskIds ++ taskIds
      blockedTasks := state.blockedTasks ++ [item.taskId] } : GroupState Outputs).Accounts
        runtime group items unsettled where
  shared := by
    have hshared := haccounts.shared
    rw [map_append, map_singleton, append_assoc, append_assoc, singleton_append]
    rw [map_cons, append_assoc] at hshared
    exact hshared
  started_listed := haccounts.started_listed
  unsettled_listed := fun other hother =>
    haccounts.unsettled_listed other (mem_cons_of_mem _ hother)
  known := by
    intro taskId
    have hknown := haccounts.known taskId
    have hskip : taskId ∈ taskIds → taskId = item.taskId := htaskIds taskId
    have hname : (skippedFor item reasonCode).taskId = item.taskId := rfl
    simp only [mem_append, mem_singleton, map_append, map_singleton, hname] at hknown ⊢
    tauto
  completed := haccounts.completed
  ordered := haccounts.ordered
  outcomes := haccounts.outcomes
  quiet := haccounts.quiet

end GroupState.Accounts

/-! ## The steps of a wave -/

section Steps

variable {runtime : GroupRuntime Outputs} {group : ParallelSubSessionGroup}
  {items : List SubSessionWorkItem}

theorem writeEvents_keeps (events : List GroupEvent) {P : GroupState Outputs → Prop}
    (hevents : ∀ state events, P state → P { state with events })
    {thrown : GroupState Outputs → Prop} :
    Triple P (writeEvents runtime events) (fun _ => P) thrown := by
  refine Triple.modify fun state hstate => ?_
  split
  · exact hevents state _ hstate
  · exact hstate

theorem tryCall_run (call : GroupCall) (result : Except Thrown Value) (state : GroupState Outputs) :
    (tryCall call result).run state =
      match result with
      | .ok value => .ok value { state with calls := state.calls ++ [call] }
      | .error error => .error error { state with calls := state.calls ++ [call] } := by
  cases result <;> rfl

/-- A look-up reads, or throws and is on record as a call that threw. -/
theorem tryCall_lookup {result : Except Thrown Value} (hlookup : startedItems [call] = [])
    (hthrows : call.Throws runtime ↔ ∃ error, result = .error error)
    (unsettled : List SubSessionWorkItem) (done : List String) :
    Triple (fun state => state.Accounts runtime group items unsettled ∧ state.completedTasks = done)
      (tryCall call result)
      (fun _ state => state.Accounts runtime group items unsettled ∧ state.completedTasks = done)
      (SomeCallThrows runtime) := by
  intro state hstate
  rw [tryCall_run]
  cases result with
  | ok value =>
    have hquiet : ¬ call.Throws runtime := by
      rw [hthrows]
      rintro ⟨_, herror⟩
      cases herror
    exact ⟨hstate.1.withCall hlookup hquiet, hstate.2⟩
  | error error => exact ⟨call, mem_append_cons_self, hthrows.mpr ⟨error, rfl⟩⟩

/-- The ready items stay open, the others are skipped. -/
theorem dependencyReady_accounts (hdistinct : (items.map (·.taskId)).Nodup)
    (candidates unsettled : List SubSessionWorkItem) (done : List String) :
    Triple (fun state => state.Accounts runtime group items (candidates ++ unsettled) ∧
        state.completedTasks = done)
      (dependencyReady group candidates)
      (fun ready state => (state.Accounts runtime group items (ready ++ unsettled) ∧
        state.completedTasks = done) ∧
        ∀ item ∈ ready, ∀ dependency ∈ groupDependencies group item, dependency ∈ done)
      (SomeCallThrows runtime) := by
  induction candidates generalizing unsettled with
  | nil =>
    refine Triple.pure fun state hstate => ⟨hstate, ?_⟩
    intro item hitem
    cases hitem
  | cons item rest ih =>
    refine Triple.get fun state hstate => ?_
    split
    next hskipped => exact absurd (.inr (.inr hskipped)) (hstate.1.unknown hdistinct mem_cons_self)
    next =>
      split
      next hblocked =>
        refine Triple.bind (Triple.modify fun same hsame => ?_) fun _ => ih unsettled
        subst hsame
        have hskip := hstate.1.skip "dependency_not_completed" [] (by simp)
        rw [append_nil] at hskip
        exact ⟨hskip, hstate.2⟩
      next hready =>
        have hopen : state.Accounts runtime group items (rest ++ item :: unsettled) :=
          hstate.1.perm perm_middle
        refine Triple.bind ((ih (item :: unsettled)).weaken (fun same hsame => ?_)
          fun _ _ hafter => hafter) fun ready => Triple.pure fun last hlast => ?_
        · subst hsame
          exact ⟨hopen, hstate.2⟩
        · refine ⟨⟨hlast.1.1.perm perm_middle.symm, hlast.1.2⟩, ?_⟩
          intro other hother dependency hdependency
          obtain rfl | hlater := mem_cons.mp hother
          · have hnone := any_eq_false.mp (Bool.eq_false_iff.mpr hready) dependency
              hdependency
            rw [← hstate.2]
            exact of_not_not fun habsent => hnone (decide_eq_true (.inr habsent))
          · exact hlast.2 other hlater dependency hdependency

theorem consult_throws {value : PropertyValue} :
    (GroupCall.consult value).Throws runtime ↔
      ∃ error, value.waitedForLock runtime.writesEvents = .error error :=
  Iff.rfl

/-- The runnable items stay open, those that waited too long are skipped. -/
theorem runnableItems_accounts (wave : SubSessionExecutionWave) (waitMs : JsNumber)
    (ready unsettled : List SubSessionWorkItem) (done : List String) :
    Triple (fun state => state.Accounts runtime group items (ready ++ unsettled) ∧
        state.completedTasks = done)
      (runnableItems runtime wave waitMs ready)
      (fun runnable state => (state.Accounts runtime group items (runnable ++ unsettled) ∧
        state.completedTasks = done) ∧ runnable ⊆ ready)
      (SomeCallThrows runtime) := by
  induction ready generalizing unsettled with
  | nil => exact Triple.pure fun state hstate => ⟨hstate, nil_subset _⟩
  | cons item rest ih =>
    have hevents : ∀ (open' : List SubSessionWorkItem) (state : GroupState Outputs) events,
        (state.Accounts runtime group items open' ∧ state.completedTasks = done) →
        ({ state with events } : GroupState Outputs).Accounts runtime group items open' ∧
          state.completedTasks = done :=
      fun _ _ events hstate => ⟨hstate.1.withEvents events, hstate.2⟩
    refine Triple.bind (tryCall_lookup rfl consult_throws _ done) fun waited => ?_
    refine Triple.bind (writeEvents_keeps _ (hevents _)) fun _ => ?_
    split
    next =>
      refine Triple.bind (Triple.modify fun state hstate => ?_) fun _ =>
        Triple.bind (writeEvents_keeps _ (hevents (rest ++ unsettled))) fun _ =>
          (ih unsettled).weaken (fun _ hafter => hafter) fun runnable state hafter => ?_
      · exact ⟨hstate.1.skip "resource_lock_timeout" [item.taskId] (by simp), hstate.2⟩
      · exact ⟨hafter.1, fun _ hother => mem_cons_of_mem _ (hafter.2 hother)⟩
    next =>
      refine Triple.bind ((ih (item :: unsettled)).weaken (fun state hstate => ?_)
        fun _ _ hafter => hafter) fun runnable => Triple.pure fun last hlast => ?_
      · exact ⟨hstate.1.perm perm_middle, hstate.2⟩
      · exact ⟨⟨hlast.1.1.perm perm_middle.symm, hlast.1.2⟩, cons_subset_cons _ hlast.2⟩

/-- What the promises of started items settle with. -/
def settledResults (runtime : GroupRuntime Outputs) (started : List SubSessionWorkItem) :
    List (SubSessionWorkItem × Except Thrown (SubSessionRunOutcome Outputs)) :=
  started.filterMap fun item =>
    match (runtime.run item.taskId).settled with
    | .ok result => some (item, result)
    | .error _ => none

/-- Starting items notes the calls and gives what the promises settle with, unless a call
throws. -/
theorem startItems_run (runnable : List SubSessionWorkItem) (state : GroupState Outputs) :
    ((∀ item ∈ runnable, ¬ (GroupCall.run item).Throws runtime) ∧
        (startItems runtime runnable).run state = .ok (settledResults runtime runnable)
            { state with calls := state.calls ++ runnable.map .run }) ∨
      ∃ error last, (startItems runtime runnable).run state = .error error last ∧
        SomeCallThrows runtime last := by
  induction runnable generalizing state with
  | nil =>
    refine .inl ⟨nofun, ?_⟩
    rw [map_nil, append_nil]
    rfl
  | cons item rest ih =>
    rw [startItems, EStateM.run_bind, tryCall_run]
    cases hsettled : (runtime.run item.taskId).settled with
    | error error => exact .inr ⟨error, _, rfl, .run item, mem_append_cons_self, error, hsettled⟩
    | ok result =>
      dsimp only
      rw [EStateM.run_bind]
      obtain ⟨hquiet, hrest⟩ | ⟨error, last, hrest, hthrows⟩ :=
        ih { state with calls := state.calls ++ [.run item] }
      · rw [hrest]
        refine .inl ⟨?_, ?_⟩
        · intro other hother
          obtain rfl | hlater := mem_cons.mp hother
          · rintro ⟨error, herror⟩
            rw [hsettled] at herror
            cases herror
          · exact hquiet other hlater
        · have hresults : settledResults runtime (item :: rest) =
              (item, result) :: settledResults runtime rest := by
            simp [settledResults, hsettled]
          have hcalls : state.calls ++ [.run item] ++ rest.map .run =
              state.calls ++ (item :: rest).map .run := by simp
          rw [hresults, ← hcalls]
          rfl
      · rw [hrest]
        exact .inr ⟨error, last, rfl, hthrows⟩

/-- The task a settled promise completes, and the one it blocks. -/
def completedTask (result : SubSessionWorkItem × Except Thrown (SubSessionRunOutcome Outputs)) :
    Option String :=
  match result.2 with
  | .ok outcome => if outcome.status = .completed then some result.1.taskId else none
  | .error _ => none

def blockedTask (result : SubSessionWorkItem × Except Thrown (SubSessionRunOutcome Outputs)) :
    Option String :=
  match result.2 with
  | .ok outcome => if outcome.status = .completed then none else some result.1.taskId
  | .error _ => some result.1.taskId

theorem foldl_settle
    (results : List (SubSessionWorkItem × Except Thrown (SubSessionRunOutcome Outputs)))
    (state : GroupState Outputs) :
    results.foldl GroupState.settle state =
      { state with
        outcomes := state.outcomes ++ results.filterMap (·.2.toOption)
        completedTasks := state.completedTasks ++ results.filterMap completedTask
        blockedTasks := state.blockedTasks ++ results.filterMap blockedTask } := by
  induction results generalizing state with
  | nil => simp
  | cons result rest ih =>
    obtain ⟨item, settled⟩ := result
    rw [foldl_cons, ih]
    cases settled with
    | error error =>
      simp [GroupState.settle, completedTask, blockedTask, Except.toOption, filterMap_cons]
    | ok outcome =>
      by_cases hstatus : outcome.status = .completed
      · simp [GroupState.settle, completedTask, blockedTask, Except.toOption, hstatus]
      · simp [GroupState.settle, completedTask, blockedTask, Except.toOption, hstatus]

theorem outcomes_settledResults (started : List SubSessionWorkItem) :
    (settledResults runtime started).filterMap (·.2.toOption) =
      started.filterMap fun item => (runtime.run item.taskId).outcome? := by
  unfold settledResults
  rw [filterMap_filterMap]
  refine filterMap_congr fun item _ => ?_
  cases runtime.run item.taskId <;> rfl

theorem mem_completed_settledResults {taskId : String} :
    taskId ∈ (settledResults runtime started).filterMap completedTask ↔
      ∃ item ∈ started, item.taskId = taskId ∧ Completes runtime item := by
  unfold settledResults
  rw [filterMap_filterMap, mem_filterMap]
  refine exists_congr fun item => and_congr_right fun _ => ?_
  unfold Completes
  cases hrun : runtime.run item.taskId with
  | resolves outcome => simp [RunBehaviour.settled, completedTask]; tauto
  | rejects error => simp [RunBehaviour.settled, completedTask]
  | throws error => simp [RunBehaviour.settled]

/-- A promise that settled completes its task or blocks it. -/
theorem mem_settledResults (hquiet : ∀ item ∈ started, ¬ (GroupCall.run item).Throws runtime)
    (taskId : String) :
    taskId ∈ (settledResults runtime started).filterMap completedTask ∨
        taskId ∈ (settledResults runtime started).filterMap blockedTask ↔
      taskId ∈ started.map (·.taskId) := by
  unfold settledResults
  rw [filterMap_filterMap, filterMap_filterMap, mem_filterMap, mem_filterMap, mem_map, ← exists_or]
  refine exists_congr fun item => ?_
  rw [← and_or_left]
  refine and_congr_right fun hitem => ?_
  have hcall := hquiet item hitem
  cases hrun : runtime.run item.taskId with
  | resolves outcome =>
    by_cases hstatus : outcome.status = .completed
    · simp [RunBehaviour.settled, completedTask, blockedTask, hstatus]
    · simp [RunBehaviour.settled, completedTask, blockedTask, hstatus]
  | rejects error => simp [RunBehaviour.settled, completedTask, blockedTask]
  | throws error => exact absurd ⟨error, by rw [hrun]; rfl⟩ hcall

theorem startedItems_append (calls : List GroupCall) (runnable : List SubSessionWorkItem) :
    startedItems (calls ++ runnable.map .run) = startedItems calls ++ runnable := by
  unfold startedItems
  rw [filterMap_append, filterMap_map]
  congr 1
  exact filterMap_some

/-- Open items whose dependencies have completed are started, and their promises settle. -/
theorem GroupState.Accounts.settle {runnable unsettled : List SubSessionWorkItem}
    {state : GroupState Outputs}
    (haccounts : state.Accounts runtime group items (runnable ++ unsettled))
    (hready : ∀ item ∈ runnable, ∀ dependency ∈ groupDependencies group item,
      dependency ∈ state.completedTasks)
    (hquiet : ∀ item ∈ runnable, ¬ (GroupCall.run item).Throws runtime) :
    ((settledResults runtime runnable).foldl GroupState.settle
      { state with calls := state.calls ++ runnable.map .run }).Accounts runtime group items
        unsettled := by
  have hstarted : startedItems (state.calls ++ runnable.map .run) = state.started ++ runnable :=
    startedItems_append state.calls runnable
  rw [foldl_settle]
  constructor
  case shared =>
    change ((startedItems (state.calls ++ runnable.map .run)).map (·.taskId) ++ _ ++ _).Perm _
    rw [hstarted, map_append]
    refine List.Perm.trans ?_ haccounts.shared
    rw [map_append, append_assoc, append_assoc, append_assoc]
    refine List.Perm.append_left _ ?_
    rw [← append_assoc, ← append_assoc]
    exact perm_append_comm.append_right _
  case started_listed =>
    intro item hitem
    change item ∈ startedItems (state.calls ++ runnable.map .run) at hitem
    rw [hstarted] at hitem
    obtain hbefore | hnow := mem_append.mp hitem
    · exact haccounts.started_listed item hbefore
    · exact haccounts.unsettled_listed item (mem_append_left _ hnow)
  case unsettled_listed =>
    exact fun item hitem => haccounts.unsettled_listed item (mem_append_right _ hitem)
  case known =>
    intro taskId
    change _ ↔ taskId ∈ (startedItems (state.calls ++ runnable.map .run)).map (·.taskId) ∨ _
    have hknown := haccounts.known taskId
    have hsettled := mem_settledResults hquiet taskId
    rw [hstarted, map_append]
    simp only [mem_append] at hknown hsettled ⊢
    tauto
  case completed =>
    intro taskId htask
    change ∃ item ∈ startedItems (state.calls ++ runnable.map .run), _
    rw [hstarted]
    obtain hbefore | hnow := mem_append.mp htask
    · obtain ⟨item, hitem, hcompletes⟩ := haccounts.completed taskId hbefore
      exact ⟨item, mem_append_left _ hitem, hcompletes⟩
    · obtain ⟨item, hitem, hcompletes⟩ := mem_completed_settledResults.mp hnow
      exact ⟨item, mem_append_right _ hitem, hcompletes⟩
  case ordered =>
    intro before item after hsplit dependency hdependency
    change startedItems (state.calls ++ runnable.map .run) = _ at hsplit
    rw [hstarted] at hsplit
    obtain ⟨between, rfl, hafter⟩ | ⟨between, hbefore, hnow⟩ := append_eq_append_iff.mp hsplit
    · -- The item is one of those started now.
      have hitem : item ∈ runnable := by
        rw [hafter]
        exact mem_append_cons_self
      obtain ⟨other, hother, hcompletes⟩ :=
        haccounts.completed dependency (hready item hitem dependency hdependency)
      exact ⟨other, mem_append_left _ hother, hcompletes⟩
    · cases between with
      | nil =>
        have hitem : item ∈ runnable := by
          rw [nil_append] at hnow
          rw [← hnow]
          exact mem_cons_self
        rw [append_nil] at hbefore
        rw [← hbefore]
        exact haccounts.completed dependency (hready item hitem dependency hdependency)
      | cons first others =>
        obtain ⟨rfl, -⟩ := List.cons.inj hnow
        exact haccounts.ordered before item others hbefore dependency hdependency
  case outcomes =>
    change state.outcomes ++ _ = (startedItems (state.calls ++ runnable.map .run)).filterMap _
    rw [hstarted, filterMap_append, haccounts.outcomes, outcomes_settledResults]
  case quiet =>
    intro call hcall
    obtain hbefore | hnow := mem_append.mp hcall
    · exact haccounts.quiet call hbefore
    · obtain ⟨item, hitem, rfl⟩ := mem_map.mp hnow
      exact hquiet item hitem

theorem startItems_accounts (runnable unsettled : List SubSessionWorkItem) (done : List String)
    (hready : ∀ item ∈ runnable, ∀ dependency ∈ groupDependencies group item, dependency ∈ done) :
    Triple (fun state => state.Accounts runtime group items (runnable ++ unsettled) ∧
        state.completedTasks = done)
      (startItems runtime runnable)
      (fun results state => (results.foldl GroupState.settle state).Accounts runtime group items
        unsettled)
      (SomeCallThrows runtime) := by
  rintro state ⟨haccounts, rfl⟩
  obtain ⟨hquiet, hrun⟩ | ⟨error, last, hrun, hthrows⟩ := startItems_run runnable state
  · rw [hrun]
    exact haccounts.settle hready hquiet
  · rw [hrun]
    exact hthrows

/-- A wave leaves none of its items open. -/
theorem runWave_accounts (hdistinct : (items.map (·.taskId)).Nodup)
    (wave : SubSessionExecutionWave) (waveNumber : ℕ) (unsettled : List SubSessionWorkItem) :
    Triple (fun state => state.Accounts runtime group items (wave.items ++ unsettled))
      (runWave runtime group wave waveNumber)
      (fun _ state => state.Accounts runtime group items unsettled)
      (SomeCallThrows runtime) := by
  refine Triple.atState fun first hfirst => ?_
  refine Triple.bind ((dependencyReady_accounts hdistinct wave.items unsettled
    first.completedTasks).weaken ?_ fun _ _ hafter => hafter) fun ready => ?_
  · rintro state rfl
    exact ⟨hfirst, rfl⟩
  refine Triple.assuming fun hready => ?_
  refine Triple.bind (runnableItems_accounts wave _ ready unsettled _) fun runnable => ?_
  refine Triple.assuming fun hsubset => ?_
  refine Triple.bind (writeEvents_keeps _ fun _ events hstate =>
    ⟨hstate.1.withEvents events, hstate.2⟩) fun _ => ?_
  refine Triple.bind (startItems_accounts runnable unsettled _ fun item hitem =>
    hready item (hsubset hitem)) fun results => ?_
  have hsettle : Triple
      (fun state => (results.foldl GroupState.settle state).Accounts runtime group items unsettled)
      (modify fun state => results.foldl GroupState.settle state : GroupM Outputs Unit)
      (fun _ state => state.Accounts runtime group items unsettled) (SomeCallThrows runtime) :=
    Triple.modify fun _ hstate => hstate
  refine Triple.bind hsettle fun _ => ?_
  exact writeEvents_keeps _ fun _ events hstate => hstate.withEvents events

/-! ## The waves -/

/-- Skipping the items of a list leaves open only those under other task ids. -/
theorem GroupState.Accounts.skipRemaining (hdistinct : (items.map (·.taskId)).Nodup)
    (reasonCode : String) {unsettled : List SubSessionWorkItem}
    (hothers : ∀ item ∈ others, item ∈ items)
    (haccounts : state.Accounts runtime group items unsettled) :
    (others.foldl (GroupState.skipRemaining reasonCode) state).Accounts runtime group items
      (unsettled.filter (·.taskId ∉ others.map (·.taskId))) := by
  induction others generalizing unsettled state with
  | nil => simpa using haccounts
  | cons item rest ih =>
    have hrest : ∀ other ∈ rest, other ∈ items :=
      fun other hother => hothers other (mem_cons_of_mem _ hother)
    have hfilter : ∀ open' : List SubSessionWorkItem,
        (open'.filter (·.taskId ≠ item.taskId)).filter (·.taskId ∉ rest.map (·.taskId)) =
          open'.filter (·.taskId ∉ (item :: rest).map (·.taskId)) := by
      intro open'
      rw [filter_filter]
      refine filter_congr fun other _ => ?_
      simp only [map_cons, mem_cons, not_or, Bool.decide_and, Bool.and_comm, ne_eq]
    rw [foldl_cons, ← hfilter]
    refine ih hrest ?_
    unfold GroupState.skipRemaining
    split
    next hknown =>
      rw [filter_eq_self.mpr]
      · exact haccounts
      · intro other hother
        refine decide_eq_true fun hsame => ?_
        rw [← hsame] at hknown
        exact haccounts.unknown hdistinct hother hknown
    next hunknown =>
      have hopen : item ∈ unsettled :=
        haccounts.mem_unsettled hdistinct (hothers item mem_cons_self) hunknown
      have hmoved := sublist_append_filter_perm (·.taskId) (singleton_sublist.mpr hopen)
        (haccounts.unsettled_distinct hdistinct)
      simp only [map_singleton, mem_singleton, singleton_append] at hmoved
      exact (haccounts.perm hmoved).skip reasonCode [item.taskId] (by simp)

/-- Skipping items that include the open ones leaves none open. -/
theorem GroupState.Accounts.skipAll (hdistinct : (items.map (·.taskId)).Nodup) (reasonCode : String)
    {unsettled : List SubSessionWorkItem} (hothers : ∀ item ∈ others, item ∈ items)
    (hcovers : unsettled ⊆ others) (haccounts : state.Accounts runtime group items unsettled) :
    (others.foldl (GroupState.skipRemaining reasonCode) state).Accounts runtime group items [] := by
  have hskipped := haccounts.skipRemaining hdistinct reasonCode hothers
  rw [filter_eq_nil_iff.mpr] at hskipped
  · exact hskipped
  · intro item hitem habsent
    exact of_decide_eq_true habsent (mem_map_of_mem (hcovers hitem))

/-- The waves leave no item open, cancelled or not. -/
theorem runWaves_accounts (hdistinct : (items.map (·.taskId)).Nodup)
    {waves : List SubSessionExecutionWave} (hwaves : ∀ item ∈ wavesItems waves, item ∈ items)
    {remaining : List SubSessionExecutionWave} (hremaining : remaining ⊆ waves) (waveNumber : ℕ) :
    Triple (fun state => state.Accounts runtime group items (wavesItems remaining))
      (runWaves runtime group waves remaining waveNumber)
      (fun _ state => state.Accounts runtime group items [])
      (SomeCallThrows runtime) := by
  induction remaining generalizing waveNumber with
  | nil => exact Triple.pure fun _ hstate => hstate
  | cons wave rest ih =>
    unfold runWaves
    split
    next =>
      have hcovers : wavesItems (wave :: rest) ⊆ wavesItems waves := by
        intro item hitem
        obtain ⟨other, hother, hin⟩ := mem_flatMap.mp hitem
        exact mem_flatMap.mpr ⟨other, hremaining hother, hin⟩
      have hskip : Triple
          (fun state => state.Accounts runtime group items (wavesItems (wave :: rest)))
          (modify fun state => (wavesItems waves).foldl
            (GroupState.skipRemaining "parent_run_cancelled") state : GroupM Outputs Unit)
          (fun _ state => state.Accounts runtime group items []) (SomeCallThrows runtime) :=
        Triple.modify fun _ hstate => hstate.skipAll hdistinct _ hwaves hcovers
      refine Triple.bind hskip fun _ => ?_
      exact writeEvents_keeps _ fun _ events hstate => hstate.withEvents events
    next =>
      refine Triple.bind ((runWave_accounts hdistinct wave waveNumber (wavesItems rest)).weaken
        (fun _ hstate => hstate) fun _ _ hafter => hafter) fun _ => ?_
      exact ih (fun _ hother => hremaining (mem_cons_of_mem _ hother)) (waveNumber + 1)
/-- The summary of waiting tasks and the first events change no share. -/
theorem buildDeferredWaveSummary_accounts
    (entries : List (SubSessionExecutionWave × SubSessionWorkItem)) :
    Triple (fun state => state.Accounts runtime group items unsettled ∧ state.completedTasks = done)
      (buildDeferredWaveSummary entries)
      (fun _ state => state.Accounts runtime group items unsettled ∧ state.completedTasks = done)
      (SomeCallThrows runtime) := by
  induction entries with
  | nil => exact Triple.pure fun _ hstate => hstate
  | cons entry rest ih =>
    obtain ⟨wave, item⟩ := entry
    refine Triple.bind (tryCall_lookup rfl Iff.rfl unsettled done) fun reasonCodes => ?_
    refine Triple.bind ih fun entries => ?_
    cases reasonCodes with
    | none => exact Triple.pure fun _ hstate => hstate
    | some reasonCodes => exact Triple.pure fun _ hstate => hstate

theorem announceGroup_accounts (waves : List SubSessionExecutionWave)
    (decision : ParallelSubSessionBudgetDecision) (unsettled : List SubSessionWorkItem)
    (done : List String) :
    Triple (fun state => state.Accounts runtime group items unsettled ∧ state.completedTasks = done)
      (announceGroup runtime waves decision)
      (fun _ state => state.Accounts runtime group items unsettled ∧ state.completedTasks = done)
      (SomeCallThrows runtime) := by
  have hevents : ∀ (state : GroupState Outputs) events,
      (state.Accounts runtime group items unsettled ∧ state.completedTasks = done) →
      ({ state with events } : GroupState Outputs).Accounts runtime group items unsettled ∧
        state.completedTasks = done :=
    fun _ events hstate => ⟨hstate.1.withEvents events, hstate.2⟩
  unfold announceGroup
  split
  · refine Triple.bind (buildDeferredWaveSummary_accounts unsettled done _) fun entries => ?_
    refine Triple.bind (writeEvents_keeps _ hevents) fun _ => ?_
    exact writeEvents_keeps _ hevents
  · exact Triple.pure fun _ hstate => hstate

end Steps

/-! ## The budget -/

theorem budgetStep_shared (budgeted : Budgeted) (item : SubSessionWorkItem) :
    ((budgetStep arithmetic budget budgeted item).selected.map (·.taskId) ++
        (budgetStep arithmetic budget budgeted item).skipped.map (·.taskId)).Perm
      (budgeted.selected.map (·.taskId) ++ budgeted.skipped.map (·.taskId) ++ [item.taskId]) ∧
    (budgetStep arithmetic budget budgeted item).selected ⊆ budgeted.selected ++ [item] := by
  unfold budgetStep
  split
  · refine ⟨?_, subset_append_left _ _⟩
    rw [map_append, append_assoc]
    exact List.Perm.refl _
  · refine ⟨?_, List.Subset.refl _⟩
    rw [map_append, append_assoc, append_assoc]
    exact perm_append_comm.append_left _

theorem foldl_budgetStep_shared (items : List SubSessionWorkItem) (budgeted : Budgeted) :
    ((items.foldl (budgetStep arithmetic budget) budgeted).selected.map (·.taskId) ++
        (items.foldl (budgetStep arithmetic budget) budgeted).skipped.map (·.taskId)).Perm
      (budgeted.selected.map (·.taskId) ++ budgeted.skipped.map (·.taskId) ++
        items.map (·.taskId)) ∧
    (items.foldl (budgetStep arithmetic budget) budgeted).selected ⊆ budgeted.selected ++ items := by
  induction items generalizing budgeted with
  | nil =>
    rw [foldl_nil, map_nil, append_nil, append_nil]
    exact ⟨List.Perm.refl _, List.Subset.refl _⟩
  | cons item rest ih =>
    obtain ⟨hshared, hsubset⟩ := budgetStep_shared arithmetic budget budgeted item
    obtain ⟨hrest, hrestSubset⟩ := ih (budgetStep arithmetic budget budgeted item)
    constructor
    · refine hrest.trans ?_
      rw [map_cons, append_cons]
      exact hshared.append_right _
    · intro other hother
      rw [append_cons]
      obtain hselected | hlater := mem_append.mp (hrestSubset hother)
      · exact mem_append_left _ (hsubset hselected)
      · exact mem_append_right _ hlater

/-- The budget shares the items out into those it selects and those it skips. -/
theorem applyParallelSubSessionBudget_shared (items : List SubSessionWorkItem)
    (budget : Option ParallelSubSessionBudget) :
    ((applyParallelSubSessionBudget arithmetic items budget).1.map (·.taskId) ++
        (applyParallelSubSessionBudget arithmetic items budget).2.skipped.map (·.taskId)).Perm
      (items.map (·.taskId)) ∧
    (applyParallelSubSessionBudget arithmetic items budget).1 ⊆ items :=
  foldl_budgetStep_shared arithmetic budget items ⟨[], [], ⟨0, .finite 0, .finite 0⟩⟩

/-! ## A whole group -/

section Run

variable {runtime : GroupRuntime Outputs} {group : ParallelSubSessionGroup}
  {items : List SubSessionWorkItem}

/-- The waves hold the items the budget selects. -/
theorem groupWaves_placed (hdistinct : (items.map (·.taskId)).Nodup) :
    (wavesItems (groupWaves runtime group items)).Perm
      (applyParallelSubSessionBudget runtime.arithmetic items runtime.budget).1 := by
  refine planned_placed ?_
  have hshared := (applyParallelSubSessionBudget_shared runtime.arithmetic items runtime.budget).1
  exact (hshared.nodup_iff.mpr hdistinct).of_append_left

theorem initialGroupState_accounts (hdistinct : (items.map (·.taskId)).Nodup) :
    (initialGroupState runtime items).Accounts runtime group items
      (wavesItems (groupWaves runtime group items)) := by
  obtain ⟨hshared, hselected⟩ :=
    applyParallelSubSessionBudget_shared runtime.arithmetic items runtime.budget
  have hplaced : (wavesItems (groupWaves runtime group items)).Perm _ := groupWaves_placed hdistinct
  exact
    { shared := (((hplaced.map _).append_left _).trans perm_append_comm).trans hshared
      started_listed := nofun
      unsettled_listed := fun item hitem => hselected (hplaced.subset hitem)
      known := by
        intro taskId
        have hempty : (initialGroupState runtime items).started = [] := rfl
        rw [hempty]
        simp [initialGroupState]
      completed := nofun
      ordered := by
        intro before item after hsplit
        cases before <;> cases hsplit
      outcomes := rfl
      quiet := nofun }

/-- A group reports completed only over outcomes that completed, with nothing skipped. -/
theorem resolveParallelGroupStatus_completed {outcomes : List (SubSessionRunOutcome Outputs)}
    {skipped : List SkippedTask} {budget : ParallelSubSessionBudgetDecision}
    (hcompleted : resolveParallelGroupStatus outcomes skipped budget = .completed) :
    (∀ outcome ∈ outcomes, outcome.status = .completed) ∧ skipped = [] := by
  unfold resolveParallelGroupStatus at hcompleted
  split at hcompleted
  · cases hcompleted
  split at hcompleted
  · cases hcompleted
  next hall =>
    split at hcompleted
    · cases hcompleted
    split at hcompleted
    · cases hcompleted
    next hlength =>
      refine ⟨fun outcome houtcome => ?_, length_eq_zero_iff.mp (by omega)⟩
      have hother := any_eq_false.mp (Bool.eq_false_iff.mpr hall) outcome houtcome
      exact of_not_not fun hne => hother (decide_eq_true hne)

/-- What a group that returns has to account for. -/
structure RunReport (runtime : GroupRuntime Outputs) (group : ParallelSubSessionGroup)
    (items : List SubSessionWorkItem) (value : ParallelSubSessionGroupRunResult Outputs)
    (last : GroupState Outputs) : Prop where
  accounts : last.Accounts runtime group items []
  outcomes : value.outcomes = last.outcomes
  skipped : value.skipped = last.skipped
  completed : value.status = .completed →
    (∀ outcome ∈ value.outcomes, outcome.status = .completed) ∧ value.skipped = []

/-- A group returns a report, or it ends with the error of something it called. -/
theorem runParallelSubSessionGroup_reports (hdistinct : (items.map (·.taskId)).Nodup) :
    Triple (· = initialGroupState runtime items) (runParallelSubSessionGroup runtime group items)
      (RunReport runtime group items) (SomeCallThrows runtime) := by
  have hplaced : (wavesItems (groupWaves runtime group items)).Perm _ := groupWaves_placed hdistinct
  have hinitial : (initialGroupState runtime items).Accounts runtime group items
      (wavesItems (groupWaves runtime group items)) := initialGroupState_accounts hdistinct
  have hannounce : Triple (· = initialGroupState runtime items)
      (announceGroup runtime (groupWaves runtime group items)
        (applyParallelSubSessionBudget runtime.arithmetic items runtime.budget).2)
      (fun _ state =>
        state.Accounts runtime group items (wavesItems (groupWaves runtime group items)) ∧
          state.completedTasks = [])
      (SomeCallThrows runtime) := by
    refine (announceGroup_accounts _ _ _ []).weaken ?_ fun _ _ hafter => hafter
    rintro state rfl
    exact ⟨hinitial, rfl⟩
  refine Triple.bind hannounce fun _ => ?_
  split
  next hnone =>
    refine Triple.get fun state hstate => Triple.pure ?_
    rintro last rfl
    have hselected : (applyParallelSubSessionBudget runtime.arithmetic items runtime.budget).1 =
        [] := hnone
    rw [hselected] at hplaced
    rw [hplaced.eq_nil] at hstate
    exact
      { accounts := hstate.1
        outcomes := rfl
        skipped := rfl
        completed := fun hcompleted => nomatch hcompleted }
  next =>
    have hwaves : ∀ item ∈ wavesItems (groupWaves runtime group items), item ∈ items :=
      hinitial.unsettled_listed
    refine Triple.bind ((runWaves_accounts hdistinct hwaves (List.Subset.refl _) 0).weaken
      (fun _ hstate => hstate.1) fun _ _ hafter => hafter) fun _ => ?_
    refine Triple.get fun state hstate => Triple.pure ?_
    rintro last rfl
    exact
      { accounts := hstate
        outcomes := rfl
        skipped := rfl
        completed := resolveParallelGroupStatus_completed }

/-! ## When the accounts come out -/

/-- The run of a group from its start. -/
def groupRun (runtime : GroupRuntime Outputs) (group : ParallelSubSessionGroup)
    (items : List SubSessionWorkItem) :
    EStateM.Result Thrown (GroupState Outputs) (ParallelSubSessionGroupRunResult Outputs) :=
  (runParallelSubSessionGroup runtime group items).run (initialGroupState runtime items)

/-- The group resolves; every item has an outcome of its own run or is among the skipped
ones, once; an item was started after its dependencies had completed; and a group that
reports completed has run every item, and all completed. -/
structure GroupSound (runtime : GroupRuntime Outputs) (group : ParallelSubSessionGroup)
    (items : List SubSessionWorkItem)
    (result : EStateM.Result Thrown (GroupState Outputs)
      (ParallelSubSessionGroupRunResult Outputs)) : Prop where
  resolves : ∃ value, settled result = .ok value
  represented : ∀ value, settled result = .ok value →
    ∃ ran : List SubSessionWorkItem, ran.Sublist (stateAfter result).started ∧
      ran.map (fun item => runtime.run item.taskId) = value.outcomes.map .resolves ∧
      (ran.map (·.taskId) ++ value.skipped.map (·.taskId)).Perm (items.map (·.taskId))
  ordered : ∀ before item after, (stateAfter result).started = before ++ item :: after →
    item ∈ items ∧ ∀ dependency ∈ groupDependencies group item,
      ∃ other ∈ before, other.taskId = dependency ∧ Completes runtime other
  completed : ∀ value, settled result = .ok value → value.status = .completed →
    ∀ item ∈ items, item ∈ (stateAfter result).started ∧ Completes runtime item

theorem GroupCall.succeeds_lookup (hquiet : ¬ call.Throws runtime)
    (hlookup : startedItems [call] = []) : call.Succeeds runtime := by
  cases call with
  | summarize value =>
    cases hvalue : value.summarized with
    | ok entry => exact ⟨entry, hvalue⟩
    | error error => exact absurd ⟨error, hvalue⟩ hquiet
  | consult value =>
    cases hvalue : value.waitedForLock runtime.writesEvents with
    | ok waited => exact ⟨waited, hvalue⟩
    | error error => exact absurd ⟨error, hvalue⟩ hquiet
  | run item => cases hlookup

theorem mem_started : item ∈ state.started ↔ .run item ∈ state.calls := by
  unfold GroupState.started startedItems
  rw [mem_filterMap]
  constructor
  · rintro ⟨call, hcall, hitem⟩
    cases call with
    | summarize | consult => cases hitem
    | run other =>
      cases hitem
      exact hcall
  · intro hcall
    exact ⟨.run item, hcall, rfl⟩

/-- Items that all resolve leave their outcomes in the order they were started in. -/
theorem map_run_eq
    (hresolve : ∀ item ∈ started, ∃ outcome, runtime.run item.taskId = .resolves outcome) :
    started.map (fun item => runtime.run item.taskId) =
      (started.filterMap fun item => (runtime.run item.taskId).outcome?).map .resolves := by
  induction started with
  | nil => rfl
  | cons item rest ih =>
    obtain ⟨outcome, hrun⟩ := hresolve item mem_cons_self
    rw [map_cons, ih fun other hother => hresolve other (mem_cons_of_mem _ hother),
      filterMap_cons_some (by rw [hrun]; rfl), map_cons, hrun]

/-- A report over calls that all succeeded is sound. -/
theorem RunReport.sound (hreport : RunReport runtime group items value last)
    (hdistinct : (items.map (·.taskId)).Nodup)
    (hsucceed : ∀ call ∈ last.calls, call.Succeeds runtime) :
    GroupSound runtime group items (.ok value last) := by
  have haccounts := hreport.accounts
  have hresolve : ∀ item ∈ last.started, ∃ outcome, runtime.run item.taskId = .resolves outcome :=
    fun item hitem => hsucceed (.run item) (mem_started.mp hitem)
  have houtcomes := hreport.outcomes.trans haccounts.outcomes
  have hshared := haccounts.shared
  rw [map_nil, append_nil, ← hreport.skipped] at hshared
  constructor
  case resolves => exact ⟨value, rfl⟩
  case represented =>
    intro found hfound
    cases hfound
    refine ⟨last.started, List.Sublist.refl _, ?_, hshared⟩
    rw [map_run_eq hresolve, houtcomes]
  case ordered =>
    intro before item after hsplit
    change last.started = _ at hsplit
    refine ⟨haccounts.started_listed item ?_, haccounts.ordered before item after hsplit⟩
    rw [hsplit]
    exact mem_append_cons_self
  case completed =>
    intro found hfound hcompleted item hitem
    cases hfound
    obtain ⟨hall, hnone⟩ := hreport.completed hcompleted
    rw [hnone, map_nil, append_nil] at hshared
    obtain ⟨other, hother, hsame⟩ := mem_map.mp (hshared.mem_iff.mpr (mem_map_of_mem hitem))
    obtain rfl := inj_on_of_nodup_map hdistinct (haccounts.started_listed other hother) hitem hsame
    obtain ⟨outcome, hrun⟩ := hresolve other hother
    refine ⟨hother, outcome, hrun, hall outcome ?_⟩
    rw [houtcomes]
    exact mem_filterMap.mpr ⟨other, hother, by rw [hrun]; rfl⟩

/-- In a sound report no started item is without its outcome. -/
theorem RunReport.resolved (hreport : RunReport runtime group items value last)
    (hsound : GroupSound runtime group items (.ok value last)) :
    ∀ call ∈ last.calls, call.Succeeds runtime := by
  have haccounts := hreport.accounts
  obtain ⟨ran, -, hran, hrepresented⟩ := hsound.represented value rfl
  -- As many items were started as there are outcomes.
  have hshared := haccounts.shared
  rw [map_nil, append_nil, ← hreport.skipped] at hshared
  have hcount := (hrepresented.trans hshared.symm).length_eq
  have hlength := congrArg List.length hran
  rw [length_append, length_append, length_map, length_map, length_map,
    Nat.add_right_cancel_iff] at hcount
  rw [length_map, length_map, hreport.outcomes, haccounts.outcomes, hcount] at hlength
  have hresolve := filterMap_length_eq_length.mp hlength.symm
  intro call hcall
  cases call with
  | summarize | consult => exact GroupCall.succeeds_lookup (haccounts.quiet _ hcall) rfl
  | run item =>
    have hsome := hresolve item (mem_started.mpr hcall)
    cases hrun : runtime.run item.taskId with
    | resolves outcome => exact ⟨outcome, hrun⟩
    | rejects error =>
      rw [hrun] at hsome
      cases hsome
    | throws error =>
      rw [hrun] at hsome
      cases hsome

/-- A group accounts for its items exactly where everything it calls succeeds: every `run`
it calls resolves, and every look-up of wait reasons reads. -/
theorem groupSound_iff (hdistinct : (items.map (·.taskId)).Nodup) :
    GroupSound runtime group items (groupRun runtime group items) ↔
      ∀ call ∈ (stateAfter (groupRun runtime group items)).calls, call.Succeeds runtime := by
  have hreports : Triple (· = initialGroupState runtime items)
      (runParallelSubSessionGroup runtime group items) (RunReport runtime group items)
      (SomeCallThrows runtime) := runParallelSubSessionGroup_reports hdistinct
  have hreports := hreports (initialGroupState runtime items) rfl
  unfold groupRun
  cases hrun : (runParallelSubSessionGroup runtime group items).run
      (initialGroupState runtime items) with
  | ok value last =>
    rw [hrun] at hreports
    exact ⟨hreports.resolved, hreports.sound hdistinct⟩
  | error error last =>
    rw [hrun] at hreports
    obtain ⟨call, hcall, hthrows⟩ := hreports
    constructor
    · intro hsound
      obtain ⟨value, hvalue⟩ := hsound.resolves
      cases hvalue
    · intro hsucceed
      exact absurd hthrows (hsucceed call hcall).not_throws

end Run

/-! ## A group of two -/

/-- A runtime without limits, budget, or events. -/
def plainRuntime (run : String → RunBehaviour Unit) : GroupRuntime Unit where
  arithmetic := { add := fun _ _ => .finite 0, sub := fun _ _ => .finite 0 }
  groupStartedAt := .finite 0
  waveStartedAt := fun _ => .finite 0
  runId := none
  parentAborted := fun _ => false
  isParentCancelled := fun _ => false
  resourceLockWaitTimeoutMs := none
  budget := none
  concurrency := .unlimited
  run := run

def plainGroup : ParallelSubSessionGroup where
  groupId := "group"
  dependencyEdges := []
  concurrencyLimit := .finite 2

def draftAndReview : List SubSessionWorkItem := [plainItem "draft" [], plainItem "review" ["draft"]]

def completedOutcome : SubSessionRunOutcome Unit where
  subSession :=
    { subSessionId := "draft"
      parentRunId := "parent"
      status := .completed
      startedAt := some 0
      finishedAt := some 1
      modelExecutionSnapshot := none }
  status := .completed
  replayed := false
  resultReport := some { resultReportId := "report", outputs := () }
  errorReport := none
  review := none
  feedbackRequested := false
  integrationSuppressed := false
  suppressionReasonCode := none
  modelExecution := none

theorem draftAndReview_sound :
    GroupSound (plainRuntime fun _ => .resolves completedOutcome) plainGroup draftAndReview
      (groupRun (plainRuntime fun _ => .resolves completedOutcome) plainGroup draftAndReview) := by
  refine (groupSound_iff (by decide)).mpr fun call hcall => ?_
  have hcalls : (stateAfter (groupRun (plainRuntime fun _ => .resolves completedOutcome)
      plainGroup draftAndReview)).calls =
        [.consult .undefined, .run (plainItem "draft" []), .consult .undefined,
          .run (plainItem "review" ["draft"])] := by
    decide +kernel
  rw [hcalls] at hcall
  simp only [mem_cons, not_mem_nil, or_false] at hcall
  obtain rfl | rfl | rfl | rfl := hcall
  · exact ⟨false, rfl⟩
  · exact ⟨completedOutcome, rfl⟩
  · exact ⟨false, rfl⟩
  · exact ⟨completedOutcome, rfl⟩

/-- A group whose only item rejects reports completed, and the item is nowhere in it. -/
theorem rejectedRun_completes :
    (settled (groupRun (plainRuntime fun _ => .rejects (typeError "no provider")) plainGroup
      [plainItem "draft" []])).toOption.map
        (fun value => (value.status, value.outcomes.length, value.skipped)) =
      some (.completed, 0, []) ∧
    ¬ GroupSound (plainRuntime fun _ => .rejects (typeError "no provider")) plainGroup
      [plainItem "draft" []]
      (groupRun (plainRuntime fun _ => .rejects (typeError "no provider")) plainGroup
        [plainItem "draft" []]) := by
  have hreport : (settled (groupRun (plainRuntime fun _ => .rejects (typeError "no provider"))
      plainGroup [plainItem "draft" []])).toOption.map
        (fun value => (value.status, value.outcomes.length, value.skipped)) =
      some (.completed, 0, []) := by
    decide +kernel
  refine ⟨hreport, fun hsound => ?_⟩
  obtain ⟨value, hvalue⟩ := hsound.resolves
  rw [hvalue] at hreport
  obtain ⟨hstatus, -⟩ := Prod.mk.inj (Option.some.inj hreport)
  obtain ⟨-, outcome, hrun, -⟩ := hsound.completed value hvalue hstatus _ mem_cons_self
  cases hrun

end Nobie.Orchestration
