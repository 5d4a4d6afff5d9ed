/-
# Finished runs stay finished

Of the writers of the run store only `updateRunStatus` asks whether a run may change, and it
lets a status through that the run has already. A finished run keeps its status, its summary
and its current step, and has had the one event of its end, as long as the other writers are
not called for it and no cancellation reaches it by a controller that was left behind.
-/

import Nobie.Runs.ApprovalRegistry
import Nobie.Runs.RunStore

namespace Nobie.Runs.Store

open Foundation Runs List
open Orchestration (RunStatus)

/-! ## What a finished run keeps -/

structure RunSnapshot where
  status : RunStatus
  (summary currentStepKey : String)
  currentStepIndex : ℕ

def StoredRun.snapshot (run : StoredRun) : RunSnapshot where
  status := run.status
  summary := run.summary
  currentStepKey := run.currentStepKey
  currentStepIndex := run.currentStepIndex

variable (state : StoreState)

/-- The end events of a run, in order. -/
def StoreState.eventsOf (runId : String) : List RunStatus :=
  (state.emitted.filter fun event => event.1 = runId).map Prod.snd

/-- A run goes on rightly: what has ended stays as it is, and an end is told once. -/
structure GoesOn (state next : StoreState) (runId : String) (run after : StoredRun) : Prop where
  identity : after.identity = run.identity
  ended : isTerminalRunStatus run.status →
    after.snapshot = run.snapshot ∧ next.eventsOf runId = state.eventsOf runId
  active : isTerminalRunStatus run.status = false → state.eventsOf runId = [] →
    next.eventsOf runId = endEvents after.status

/-- All runs go on rightly, and no run comes in or goes. -/
structure Follows (state next : StoreState) : Prop where
  known : ∀ runId run, state.getRootRun runId = some run →
    ∃ after, next.getRootRun runId = some after ∧ GoesOn state next runId run after
  unknown : ∀ runId, state.getRootRun runId = none →
    next.getRootRun runId = none ∧ next.eventsOf runId = state.eventsOf runId

variable {status : RunStatus} {runId : String} {run : StoredRun} (clock : Clock)

theorem endEvents_of_active (h : isTerminalRunStatus status = false) : endEvents status = [] := by
  cases status with
  | completed | failed | cancelled => cases h
  | _ => rfl

theorem Follows.refl : Follows state state :=
  ⟨fun _ run hrun => ⟨run, hrun, rfl, fun _ => ⟨rfl, rfl⟩, fun hactive hnone => by
    rw [hnone, endEvents_of_active hactive]⟩, fun _ hnone => ⟨hnone, rfl⟩⟩

variable {first second third : StoreState} {change : RowChange} {stepKey stepSummary : String}
  (now : ℤ) {next : RecoveryState}

theorem Follows.trans (h : Follows first second) (h' : Follows second third) :
    Follows first third where
  known := by
    intro runId run hrun
    obtain ⟨middle, hmiddle, hidentity, hended, hactive⟩ := h.known runId run hrun
    obtain ⟨after, hafter, hidentity', hended', hactive'⟩ := h'.known runId middle hmiddle
    refine ⟨after, hafter, hidentity'.trans hidentity, fun hterminal => ?_, fun hopen hnone => ?_⟩
    · obtain ⟨hsnapshot, hevents⟩ := hended hterminal
      have hstatus := congrArg RunSnapshot.status hsnapshot
      obtain ⟨hsnapshot', hevents'⟩ := hended' ((congrArg isTerminalRunStatus hstatus).trans
        hterminal)
      exact ⟨hsnapshot'.trans hsnapshot, hevents'.trans hevents⟩
    · have hmiddleEvents := hactive hopen hnone
      cases hterminal : isTerminalRunStatus middle.status with
      | true =>
        obtain ⟨hsnapshot, hevents⟩ := hended' hterminal
        have hstatus : after.status = middle.status := congrArg RunSnapshot.status hsnapshot
        rw [hevents, hmiddleEvents, hstatus]
      | false =>
        refine hactive' hterminal ?_
        rw [hmiddleEvents, endEvents_of_active hterminal]
  unknown := by
    intro runId hnone
    obtain ⟨hmiddle, hevents⟩ := h.unknown runId hnone
    obtain ⟨hafter, hevents'⟩ := h'.unknown runId hmiddle
    exact ⟨hafter, hevents'.trans hevents⟩

theorem follows_of_same {state next : StoreState} (hruns : next.runs = state.runs)
    (hemitted : next.emitted = state.emitted) : Follows state next := by
  have hget (runId : String) : next.getRootRun runId = state.getRootRun runId := by
    unfold StoreState.getRootRun
    rw [hruns]
  have hevents (runId : String) : next.eventsOf runId = state.eventsOf runId := by
    unfold StoreState.eventsOf
    rw [hemitted]
  refine ⟨fun runId run hrun => ⟨run, (hget runId).trans hrun, rfl, fun _ => ⟨rfl, hevents runId⟩,
    fun hactive hnone => ?_⟩, fun runId hnone => ⟨(hget runId).trans hnone, hevents runId⟩⟩
  rw [hevents, hnone, endEvents_of_active hactive]

theorem finalRunStatus_ne {current : RunStatus} (hends : endsEarly status)
    (hne : current ≠ status) (delivered : Bool) :
    finalRunStatus current status delivered ≠ current := by
  intro hsame
  have hcases : finalRunStatus current status delivered =
      if current ≠ .completed ∧ delivered then .completed else status := by
    cases status with
    | failed | cancelled | interrupted => rfl
    | _ => cases hends
  rw [hcases] at hsame
  split at hsame
  · next hopen => exact hopen.1 hsame.symm
  · exact hne hsame.symm

theorem isTerminal_finalRunStatus (hends : endsEarly status) (current : RunStatus)
    (delivered : Bool) : isTerminalRunStatus (finalRunStatus current status delivered) := by
  unfold finalRunStatus
  cases status with
  | failed | cancelled | interrupted => dsimp only; split <;> rfl
  | _ => cases hends

namespace StoreState

variable {state : StoreState}

/-! ## Writers that ask nothing -/

theorem getRootRun_changeRuns (selected : StoredRun → Bool) (change : RowChange)
    (runId : String) :
    (state.changeRuns selected change).getRootRun runId = (state.getRootRun runId).map
      fun run => if selected run then change.apply run else run := by
  unfold getRootRun changeRuns
  rw [find?_map]
  congr 1
  refine congrArg (fun test => List.find? test state.runs) (funext fun run => ?_)
  rw [Function.comp_apply]
  split
  · exact congrArg (fun id => decide (id = runId))
      (congrArg RunIdentity.id (change.keeps run))
  · rfl

/-- A change of rows without an event, which changes no status and leaves alone what has
ended. -/
theorem follows_changeRuns {selected : StoredRun → Bool}
    (hended : ∀ runId run, state.getRootRun runId = some run → selected run →
      isTerminalRunStatus run.status → (change.apply run).snapshot = run.snapshot)
    (hstatus : ∀ run, (change.apply run).status = run.status) :
    Follows state (state.changeRuns selected change) := by
  refine ⟨fun runId run hrun => ?_, fun runId hnone => ⟨?_, rfl⟩⟩
  · refine ⟨if selected run then change.apply run else run,
      (getRootRun_changeRuns selected change runId).trans (by rw [hrun]; rfl), ?_⟩
    split
    · next hselected =>
      refine ⟨change.keeps run, fun hterminal => ⟨hended runId run hrun hselected hterminal, rfl⟩,
        fun hactive hnone => ?_⟩
      rw [hstatus, endEvents_of_active hactive]
      exact hnone
    · refine ⟨rfl, fun _ => ⟨rfl, rfl⟩, fun hactive hnone => ?_⟩
      rw [endEvents_of_active hactive]
      exact hnone
  · rw [getRootRun_changeRuns, hnone]
    rfl

theorem follows_changeRun (hended : ∀ run, state.getRootRun runId = some run →
      isTerminalRunStatus run.status → (change.apply run).snapshot = run.snapshot)
    (hstatus : ∀ run, (change.apply run).status = run.status) :
    Follows state (state.changeRun runId change) := by
  refine follows_changeRuns (fun other run hrun hselected hterminal => ?_) hstatus
  obtain ⟨-, hid⟩ := getRootRun_eq_some_iff.mp hrun
  obtain rfl := hid.symm.trans (of_decide_eq_true hselected)
  exact hended run hrun hterminal

/-- What a step write would change of a run: nothing. -/
def StepIsCurrent (run : StoredRun) (stepKey summary : String) : Prop :=
  stepKey ∈ defaultRunSteps → ∀ step, (run.steps.find? fun step => step.key = stepKey) = some step →
    stepKey = run.currentStepKey ∧ step.index = run.currentStepIndex ∧ summary = run.summary

theorem follows_setRunStepStatus {summary : String} (status : RunStepStatus)
    (h : ∀ run, state.getRootRun runId = some run →
      isTerminalRunStatus run.status → StepIsCurrent run stepKey summary) :
    Follows state (state.setRunStepStatus clock runId stepKey status summary) := by
  unfold setRunStepStatus
  split
  · exact .refl state
  · next hkey =>
    split
    · exact .refl state
    · next step hstep =>
      obtain ⟨found, hfound, hfind⟩ := Option.bind_eq_some_iff.mp hstep
      refine follows_changeRun (fun run hrun hterminal => ?_) fun run => rfl
      cases hfound.symm.trans hrun
      obtain ⟨hcurrent, hindex, hsummary⟩ :=
        h found hfound hterminal (not_not.mp hkey) step hfind
      unfold StoredRun.snapshot stepChange
      rw [hcurrent, hindex, hsummary]

/-! ## The writer that asks -/

/-- A status that a finished run has already may be written again only where it has no event and
the summary stays. -/
def RewriteIsSilent (state : StoreState) (clock : Clock) (run : StoredRun) (status : RunStatus)
    (summary : Option String) (canCancel : Option Bool) : Prop :=
  (state.statusWrite clock run status summary canCancel).status = run.status →
    emitsEnd run.status = false ∧
      (state.statusWrite clock run status summary canCancel).summary = run.summary

theorem eventsOf_append (state next : StoreState) (runId other : String)
    (events : List RunStatus)
    (h : next.emitted = state.emitted ++ events.map fun event => (runId, event)) :
    next.eventsOf other = state.eventsOf other ++ if other = runId then events else [] := by
  unfold eventsOf
  rw [h, filter_append, map_append]
  congr 1
  split
  · next hsame =>
    rw [hsame, filter_eq_self.mpr, map_map]
    · exact map_id' events
    · intro event hevent
      obtain ⟨status, -, rfl⟩ := mem_map.mp hevent
      exact decide_eq_true rfl
  · next hne =>
    rw [filter_eq_nil_iff.mpr, map_nil]
    intro event hevent
    obtain ⟨status, -, rfl⟩ := mem_map.mp hevent
    exact fun hsame => hne (of_decide_eq_true hsame).symm

theorem follows_updateRunStatus {summary : Option String} {canCancel : Option Bool}
    (h : ∀ run, state.getRootRun runId = some run → isTerminalRunStatus run.status →
      RewriteIsSilent state clock run status summary canCancel) :
    Follows state (state.updateRunStatus clock runId status summary canCancel) := by
  unfold updateRunStatus
  split
  · exact .refl state
  · next current hcurrent =>
    dsimp only
    split
    · next hallowed =>
      generalize hwrite : state.statusWrite clock current status summary canCancel = write
        at hallowed
      have hget (other : String) := @getRootRun_changeRuns state
        (fun run => run.id = runId)
        (statusChange write.status write.summary write.canCancel (clock runId).now) other
      have hevents (other : String) := eventsOf_append state
        { state.changeRun runId
            (statusChange write.status write.summary write.canCancel (clock runId).now) with
          ledger := write.ledger
          emitted := state.emitted ++ (endEvents write.status).map fun event => (runId, event) }
        runId other (endEvents write.status) rfl
      refine ⟨fun other run hrun => ?_, fun other hnone =>
        ⟨(hget other).trans (by rw [hnone]; rfl), ?_⟩⟩
      · obtain ⟨-, hid⟩ := getRootRun_eq_some_iff.mp hrun
        have hafter := hget other
        rw [hrun, Option.map_some] at hafter
        by_cases hother : other = runId
        · subst hother
          cases hcurrent.symm.trans hrun
          rw [if_pos (decide_eq_true hid)] at hafter
          refine ⟨_, hafter, rfl, fun hterminal => ?_, fun hactive hnone => ?_⟩
          · have hsame : current.status = write.status := by
              unfold canTransitionRunStatus at hallowed
              rw [hterminal, Bool.not_true, Bool.or_false] at hallowed
              exact of_decide_eq_true hallowed
            obtain ⟨hsilent, hsummary⟩ := h current hcurrent hterminal (by
              rw [hwrite]
              exact hsame.symm)
            rw [hwrite] at hsummary
            refine ⟨?_, ?_⟩
            · unfold StoredRun.snapshot statusChange
              rw [← hsame, hsummary]
            · rw [hevents, if_pos rfl, ← hsame]
              unfold endEvents
              rw [hsilent]
              exact append_nil _
          · rw [hevents, if_pos rfl, hnone]
            rfl
        · rw [if_neg fun hsame => hother (hid.symm.trans (of_decide_eq_true hsame))] at hafter
          refine ⟨run, hafter, rfl, fun _ => ⟨rfl, ?_⟩, fun hactive hnone => ?_⟩
          · rw [hevents, if_neg hother, append_nil]
          · rw [hevents, if_neg hother, append_nil, hnone, endEvents_of_active hactive]
      · have hother : other ≠ runId := by
          rintro rfl
          exact Option.some_ne_none current (hcurrent.symm.trans hnone)
        rw [hevents, if_neg hother, append_nil]
    · exact follows_of_same rfl rfl

/-! ## Runs that are ended by others -/

/-- The rows of other runs, and their places, are as before. -/
def Spares (state next : StoreState) (runId : String) : Prop :=
  ∀ other, other ≠ runId → next.getRootRun other = state.getRootRun other

theorem Spares.trans (h : Spares first second runId) (h' : Spares second third runId) :
    Spares first third runId :=
  fun other hother => (h' other hother).trans (h other hother)

theorem spares_changeRun (runId : String) (change : RowChange) :
    Spares state (state.changeRun runId change) runId := by
  intro other hother
  refine (getRootRun_changeRuns _ change other).trans ?_
  cases hrun : state.getRootRun other with
  | none => rfl
  | some run =>
    obtain ⟨-, hid⟩ := getRootRun_eq_some_iff.mp hrun
    rw [Option.map_some, if_neg fun hsame => hother (hid.symm.trans (of_decide_eq_true hsame))]

theorem spares_setRunStepStatus (runId stepKey summary : String) (status : RunStepStatus) :
    Spares state (state.setRunStepStatus clock runId stepKey status summary) runId := by
  unfold setRunStepStatus
  split
  · exact fun _ _ => rfl
  · split
    · exact fun _ _ => rfl
    · exact spares_changeRun runId _

theorem spares_updateRunStatus (runId : String) (status : RunStatus) (summary : Option String)
    (canCancel : Option Bool) :
    Spares state (state.updateRunStatus clock runId status summary canCancel) runId := by
  unfold updateRunStatus
  split
  · exact fun _ _ => rfl
  · dsimp only
    split
    · exact spares_changeRun runId _
    · exact fun _ _ => rfl

/-- A step write leaves the status of a run as it is. -/
theorem getRootRun_setRunStepStatus (stepKey summary : String) (status : RunStepStatus)
    (hrun : state.getRootRun runId = some run) :
    ∃ after, (state.setRunStepStatus clock runId stepKey status summary).getRootRun runId =
        some after ∧ after.status = run.status ∧ after.identity = run.identity := by
  unfold setRunStepStatus
  split
  · exact ⟨run, hrun, rfl, rfl⟩
  · split
    · exact ⟨run, hrun, rfl, rfl⟩
    · exact ⟨_, getRootRun_changeRun_self hrun _, rfl, rfl⟩

/-- Where a run is ended that is active, or at its current step and not cancelled, the runs go on
rightly. -/
theorem follows_endRun (runSummary : String) (hrun : state.getRootRun run.id = some run)
    (h : isTerminalRunStatus run.status → endsEarly status ∧ run.status ≠ status ∧
      StepIsCurrent run (resolveInterruptStepKey run) stepSummary) :
    Follows state (state.endRun clock status stepSummary runSummary run) := by
  have hcleared : Follows state (state.clearActiveRunController run.id) := follows_of_same rfl rfl
  have hrun' : (state.clearActiveRunController run.id).getRootRun run.id = some run := hrun
  refine (hcleared.trans (follows_setRunStepStatus clock .cancelled fun found hfound hended => ?_)
    ).trans (follows_updateRunStatus clock fun found hfound hended hsame => ?_)
  · cases hrun'.symm.trans hfound
    exact (h hended).2.2
  · obtain ⟨after, hafter, hkept, -⟩ := getRootRun_setRunStepStatus clock
      (resolveInterruptStepKey run) stepSummary .cancelled hrun'
    cases hafter.symm.trans hfound
    rw [hkept] at hended hsame
    obtain ⟨hends, hne, -⟩ := h hended
    rw [statusWrite_status, hkept] at hsame
    exact absurd hsame (finalRunStatus_ne hends hne _)

theorem spares_endRun (status : RunStatus) (stepSummary runSummary : String) (run : StoredRun) :
    Spares state (state.endRun clock status stepSummary runSummary run) run.id := by
  have hcleared : Spares state (state.clearActiveRunController run.id) run.id := fun _ _ => rfl
  exact (hcleared.trans (spares_setRunStepStatus clock _ _ _ _)).trans
    (spares_updateRunStatus clock _ _ _ _)

/-- A run that is ended has ended. -/
theorem ended_endRun (hends : endsEarly status) (stepSummary runSummary : String)
    (hrun : state.getRootRun run.id = some run) :
    ∃ after, (state.endRun clock status stepSummary runSummary run).getRootRun run.id =
      some after ∧ isTerminalRunStatus after.status := by
  have hrun' : (state.clearActiveRunController run.id).getRootRun run.id = some run := hrun
  obtain ⟨middle, hmiddle, hkept, -⟩ := getRootRun_setRunStepStatus clock
    (resolveInterruptStepKey run) stepSummary .cancelled hrun'
  unfold endRun
  generalize (state.clearActiveRunController run.id).setRunStepStatus clock run.id
    (resolveInterruptStepKey run) .cancelled stepSummary = store at hmiddle ⊢
  unfold updateRunStatus
  rw [hmiddle]
  dsimp only
  split
  · refine ⟨_, getRootRun_changeRun_self hmiddle _, ?_⟩
    change isTerminalRunStatus
      (store.statusWrite clock middle status (some runSummary) (some false)).status
    rw [statusWrite_status]
    exact isTerminal_finalRunStatus hends _ _
  · next hblocked =>
    refine ⟨middle, hmiddle, ?_⟩
    unfold canTransitionRunStatus at hblocked
    simp only [Bool.or_eq_true, not_or, Bool.not_eq_true', Bool.not_eq_false] at hblocked
    exact hblocked.2

/-! ## Several runs -/

/-- Runs of a list are taken one after the other, each as it was listed, by a step that spares
the others. -/
theorem follows_foldl {State : Type} (view : State → StoreState)
    {take : State → StoredRun → State} {listed : List StoredRun} {state : State}
    (hspares : ∀ state run, Spares (view state) (view (take state run)) run.id)
    (hfollows : ∀ state, ∀ run ∈ listed, (view state).getRootRun run.id = some run →
      Follows (view state) (view (take state run)))
    (hdistinct : (listed.map fun run => run.id).Nodup)
    (hrows : ∀ run ∈ listed, (view state).getRootRun run.id = some run) :
    Follows (view state) (view (listed.foldl take state)) := by
  induction listed generalizing state with
  | nil => exact .refl _
  | cons first rest ih =>
    rw [foldl_cons]
    rw [map_cons, nodup_cons] at hdistinct
    refine (hfollows state first mem_cons_self (hrows first mem_cons_self)).trans
      (ih (fun state run hrun => hfollows state run (mem_cons_of_mem _ hrun)) hdistinct.2
        fun run hrun => ?_)
    have hother : run.id ≠ first.id := fun hsame => hdistinct.1 (hsame ▸ mem_map_of_mem hrun)
    rw [hspares state first run.id hother]
    exact hrows run (mem_cons_of_mem _ hrun)

/-- The runs of a list are ended one after the other, each as it was listed. -/
theorem follows_endRuns (clock : Clock) {status : RunStatus}
    (texts : StoredRun → String × String) {listed : List StoredRun}
    (hdistinct : (listed.map fun run => run.id).Nodup)
    (hrows : ∀ run ∈ listed, state.getRootRun run.id = some run)
    (h : ∀ run ∈ listed, isTerminalRunStatus run.status →
      endsEarly status ∧ run.status ≠ status ∧
        StepIsCurrent run (resolveInterruptStepKey run) (texts run).1) :
    Follows state (listed.foldl (fun state run =>
      state.endRun clock status (texts run).1 (texts run).2 run) state) :=
  follows_foldl id (fun _ run => spares_endRun clock status _ _ run)
    (fun _ run hrun hrow => follows_endRun clock (texts run).2 hrow (h run hrun)) hdistinct hrows

/-- Runs that are not listed are left alone, and those that are listed end. -/
theorem endRuns_effect (clock : Clock) {status : RunStatus} (hends : endsEarly status)
    (texts : StoredRun → String × String) {listed : List StoredRun}
    (hdistinct : (listed.map fun run => run.id).Nodup)
    (hrows : ∀ run ∈ listed, state.getRootRun run.id = some run) :
    (∀ runId, (∀ run ∈ listed, run.id ≠ runId) → (listed.foldl (fun state run =>
        state.endRun clock status (texts run).1 (texts run).2 run) state).getRootRun runId =
          state.getRootRun runId) ∧
      ∀ run ∈ listed, ∃ after, (listed.foldl (fun state run =>
        state.endRun clock status (texts run).1 (texts run).2 run) state).getRootRun run.id =
          some after ∧ isTerminalRunStatus after.status := by
  induction listed generalizing state with
  | nil => exact ⟨fun _ _ => rfl, fun _ hrun => absurd hrun not_mem_nil⟩
  | cons first rest ih =>
    rw [foldl_cons]
    rw [map_cons, nodup_cons] at hdistinct
    have hspares := state.spares_endRun clock status (texts first).1 (texts first).2 first
    obtain ⟨hothers, hlisted⟩ := ih hdistinct.2 fun run hrun => by
      have hother : run.id ≠ first.id := fun hsame => hdistinct.1 (hsame ▸ mem_map_of_mem hrun)
      rw [hspares run.id hother]
      exact hrows run (mem_cons_of_mem _ hrun)
    refine ⟨fun runId hnone => ?_, fun run hrun => ?_⟩
    · rw [hothers runId fun run hrun => hnone run (mem_cons_of_mem _ hrun)]
      exact hspares runId (hnone first mem_cons_self).symm
    · rcases mem_cons.mp hrun with rfl | hrest
      · have hrest : ∀ other ∈ rest, other.id ≠ run.id := fun other hother hsame =>
          hdistinct.1 (hsame ▸ mem_map_of_mem hother)
        rw [hothers run.id hrest]
        exact ended_endRun clock hends _ _ (hrows run mem_cons_self)
      · exact hlisted run hrest

/-- Rows that are filtered and sorted are found by their ids. -/
theorem getRootRun_of_mem (hrun : run ∈ state.runs) :
    state.getRootRun run.id = some run := getRootRun_eq_some_iff.mpr ⟨hrun, rfl⟩

theorem nodup_listed {keep first : StoredRun → Bool} {order : StoredRun → StoredRun → Prop}
    [DecidableRel order] :
    ((((state.runs.filter first).insertionSort order).filter keep).map
      fun run => run.id).Nodup := by
  have hfirst := state.primaryKey.sublist
    ((filter_sublist (p := first) (l := state.runs)).map fun run => run.id)
  have hsorted := (((state.runs.filter first).perm_insertionSort order).map
    fun run => run.id).nodup_iff.mpr hfirst
  exact hsorted.sublist ((filter_sublist (p := keep)).map fun run => run.id)

theorem mem_of_mem_listed {keep first : StoredRun → Bool} {order : StoredRun → StoredRun → Prop}
    [DecidableRel order] {run : StoredRun}
    (hrun : run ∈ ((state.runs.filter first).insertionSort order).filter keep) :
    run ∈ state.runs ∧ first run ∧ keep run := by
  obtain ⟨hsorted, hkeep⟩ := mem_filter.mp hrun
  obtain ⟨hmem, hfirst⟩ := mem_filter.mp ((mem_insertionSort _).mp hsorted)
  exact ⟨hmem, hfirst, hkeep⟩

/-- A step write of an active run. -/
theorem follows_setRunStepStatus_of_active (stepKey summary : String) (status : RunStepStatus)
    (hrun : state.getRootRun runId = some run) (hactive : isTerminalRunStatus run.status = false) :
    Follows state (state.setRunStepStatus clock runId stepKey status summary) ∧
      ∃ after, (state.setRunStepStatus clock runId stepKey status summary).getRootRun runId =
        some after ∧ isTerminalRunStatus after.status = false := by
  refine ⟨follows_setRunStepStatus clock status fun found hfound hended => ?_, ?_⟩
  · cases hrun.symm.trans hfound
    cases hactive.symm.trans hended
  · obtain ⟨after, hafter, hkept, -⟩ :=
      getRootRun_setRunStepStatus clock stepKey summary status hrun
    exact ⟨after, hafter, by rwa [hkept]⟩

theorem follows_updateRunStatus_of_active (status : RunStatus) (summary : Option String)
    (canCancel : Option Bool) (hrun : state.getRootRun runId = some run)
    (hactive : isTerminalRunStatus run.status = false) :
    Follows state (state.updateRunStatus clock runId status summary canCancel) := by
  refine follows_updateRunStatus clock fun found hfound hended => ?_
  cases hrun.symm.trans hfound
  cases hactive.symm.trans hended

/-- A step write and a status of an active run. -/
theorem follows_stepAndStatus (stepKey summary : String) (stepStatus : RunStepStatus)
    (status : RunStatus) (text : Option String) (canCancel : Option Bool)
    (hrun : state.getRootRun runId = some run) (hactive : isTerminalRunStatus run.status = false) :
    Follows state ((state.setRunStepStatus clock runId stepKey stepStatus summary).updateRunStatus
      clock runId status text canCancel) := by
  obtain ⟨hstep, after, hafter, hopen⟩ :=
    follows_setRunStepStatus_of_active clock stepKey summary stepStatus hrun hactive
  exact hstep.trans (follows_updateRunStatus_of_active clock status text canCancel hafter hopen)

theorem follows_applyRecovery (recovery : StartupRecoveryClassification)
    (hrun : state.getRootRun run.id = some run) (hactive : isTerminalRunStatus run.status = false) :
    Follows state (applyRecovery clock run recovery state) := by
  unfold applyRecovery
  split
  · obtain ⟨hstep, after, hafter, hopen⟩ := follows_setRunStepStatus_of_active clock "finalizing"
      recovery.summary .completed hrun hactive
    exact hstep.trans (follows_stepAndStatus clock _ _ _ _ _ _ hafter hopen)
  · exact follows_stepAndStatus clock _ _ _ _ _ _ hrun hactive
  · exact follows_stepAndStatus clock _ _ _ _ _ _ hrun hactive
  · exact follows_stepAndStatus clock _ _ _ _ _ _ hrun hactive
  · exact follows_stepAndStatus clock _ _ _ _ _ _ hrun hactive
  · exact .refl state

theorem spares_applyRecovery (run : StoredRun) (recovery : StartupRecoveryClassification) :
    Spares state (applyRecovery clock run recovery state) run.id := by
  unfold applyRecovery
  split
  · exact ((spares_setRunStepStatus clock _ _ _ _).trans
      (spares_setRunStepStatus clock _ _ _ _)).trans (spares_updateRunStatus clock _ _ _ _)
  · exact (spares_setRunStepStatus clock _ _ _ _).trans (spares_updateRunStatus clock _ _ _ _)
  · exact (spares_setRunStepStatus clock _ _ _ _).trans (spares_updateRunStatus clock _ _ _ _)
  · exact (spares_setRunStepStatus clock _ _ _ _).trans (spares_updateRunStatus clock _ _ _ _)
  · exact (spares_setRunStepStatus clock _ _ _ _).trans (spares_updateRunStatus clock _ _ _ _)
  · exact fun _ _ => rfl

theorem follows_recoverRuns {state : RecoveryState} {listed : List StoredRun}
    (hdistinct : (listed.map fun run => run.id).Nodup)
    (hrows : ∀ run ∈ listed, state.getRootRun run.id = some run)
    (hactive : ∀ run ∈ listed, isTerminalRunStatus run.status = false) :
    Follows state.toStoreState (listed.foldl (recoverRun clock) state).toStoreState :=
  follows_foldl RecoveryState.toStoreState (fun _ run => spares_applyRecovery clock run _)
    (fun _ run hrun hrow => follows_applyRecovery clock _ hrow (hactive run hrun)) hdistinct hrows

theorem follows_recoverActiveRunsOnStartup (state : RecoveryState) :
    Follows state.toStoreState (recoverActiveRunsOnStartup clock now state).toStoreState := by
  have hlisted : ∀ run ∈ state.listActiveRootRuns 200,
      run ∈ state.runs ∧ isTerminalRunStatus run.status = false := by
    intro run hrun
    obtain ⟨hmem, hactive⟩ := mem_filter.mp ((mem_insertionSort _).mp (mem_of_mem_take hrun))
    rw [isActiveRunStatus_eq, Bool.not_eq_true'] at hactive
    exact ⟨hmem, hactive⟩
  have hdistinct : ((state.listActiveRootRuns 200).map fun run => run.id).Nodup := by
    have hall := @nodup_listed state.toStoreState (fun _ => true)
      (fun run => isActiveRunStatus run.status) (fun left right => right.NotNewer left) _
    rw [filter_true] at hall
    exact hall.sublist ((take_sublist _ _).map _)
  exact follows_recoverRuns clock hdistinct (fun run hrun => getRootRun_of_mem (hlisted run hrun).1)
    fun run hrun => (hlisted run hrun).2

/-! ## Decisions on approvals -/

/-- What the end of an approval does to the run that asked: `finishApproval` without its ledger
row and its continuity. -/
def finishApproval (state : StoreState) (clock : Clock) (runId stepKey toolName : String)
    (decision : ApprovalDecision) (stepSummary runSummary : String) : StoreState :=
  match decision with
  | .allowRun | .allowOnce =>
    ((state.setRunStepStatus clock runId stepKey .completed stepSummary).setRunStepStatus clock
        runId "executing" .running s!"{toolName} 실행을 계속합니다.").updateRunStatus clock runId
      .running (some s!"{toolName} 실행을 계속합니다.") (some true)
  | .deny =>
    (state.setRunStepStatus clock runId stepKey .cancelled stepSummary).cancelRootRun clock
      { stepSummary := some stepSummary, runSummary := some runSummary } runId

end StoreState

/-! ## Histories -/

/-- A database, and how each of its runs stood when it was first seen to have ended. -/
structure HistoryState where
  database : RecoveryState := {}
  settled : List (String × RunSnapshot) := []

/-- The runs that have ended are noted, once each. -/
def HistoryState.note (state : HistoryState) (database : RecoveryState) : HistoryState where
  database := database
  settled := state.settled ++ (database.runs.filter fun run =>
    isTerminalRunStatus run.status && run.id ∉ state.settled.map Prod.fst).map
      fun run => (run.id, run.snapshot)

inductive StoreStep
  | createRootRun (run : RootRunRow) (workerSessionId : Option String) (summary : String)
      (delegationTurnCount : ℕ) (now : ℤ)
  | updateRunStatus (clock : Clock) (runId : String) (status : RunStatus)
      (summary : Option String) (canCancel : Option Bool)
  | setRunStepStatus (clock : Clock) (runId stepKey : String) (status : RunStepStatus)
      (summary : String)
  | updateRunSummary (clock : Clock) (runId summary : String)
  | incrementDelegationTurnCount (clock : Clock) (runId : String) (summary : Option String)
  | cancelRootRun (clock : Clock) (options : CancelRootRunOptions) (runId : String)
  | interruptOrphanWorkerSessionRuns (clock : Clock)
      (requestGroupId workerSessionId keepRunId : String) (summary : Option String)
  | cleanupStaleRunStates (clock : Clock) (staleMs : Option ℤ) (now : ℤ)
  | recoverActiveRunsOnStartup (clock : Clock) (now : ℤ)
  | finishApproval (clock : Clock) (runId stepKey toolName : String)
      (decision : ApprovalDecision) (stepSummary runSummary : String)
  | bindActiveRunController (runId : String)
  | clearActiveRunController (runId : String)
  | recordLedger (row : LedgerRow)
  | rememberContinuity (lineageRootRunId : String) (continuity : TaskContinuity)

/-- What a step does to the database; a run is created once. -/
def databaseStep? (state : RecoveryState) : StoreStep → Option RecoveryState
  | .createRootRun run workerSessionId summary delegationTurnCount now =>
    if habsent : run.id ∉ state.runs.map fun run => run.id then
      some { state with
        toStoreState := state.toStoreState.createRootRun run workerSessionId summary
          delegationTurnCount now habsent }
    else none
  | .updateRunStatus clock runId status summary canCancel =>
    some (state.onStore fun store => store.updateRunStatus clock runId status summary canCancel)
  | .setRunStepStatus clock runId stepKey status summary =>
    some (state.onStore fun store => store.setRunStepStatus clock runId stepKey status summary)
  | .updateRunSummary clock runId summary =>
    some (state.onStore fun store => store.updateRunSummary clock runId summary)
  | .incrementDelegationTurnCount clock runId summary =>
    some (state.onStore fun store => store.incrementDelegationTurnCount clock runId summary)
  | .cancelRootRun clock options runId =>
    some (state.onStore fun store => store.cancelRootRun clock options runId)
  | .interruptOrphanWorkerSessionRuns clock requestGroupId workerSessionId keepRunId summary =>
    some (state.onStore fun store => store.interruptOrphanWorkerSessionRuns clock requestGroupId
      workerSessionId keepRunId summary)
  | .cleanupStaleRunStates clock staleMs now =>
    some (state.onStore fun store => store.cleanupStaleRunStates clock staleMs now)
  | .recoverActiveRunsOnStartup clock now => some (recoverActiveRunsOnStartup clock now state)
  | .finishApproval clock runId stepKey toolName decision stepSummary runSummary =>
    some (state.onStore fun store => store.finishApproval clock runId stepKey toolName decision
      stepSummary runSummary)
  | .bindActiveRunController runId =>
    some (state.onStore fun store => store.bindActiveRunController runId)
  | .clearActiveRunController runId =>
    some (state.onStore fun store => store.clearActiveRunController runId)
  | .recordLedger row =>
    some (state.onStore fun store => { store with ledger := recordLedgerRow store.ledger row })
  | .rememberContinuity lineageRootRunId continuity =>
    some { state with
      continuity := Function.update state.continuity lineageRootRunId (some continuity) }

def historyStep? (state : HistoryState) (step : StoreStep) : Option HistoryState :=
  (databaseStep? state.database step).map state.note

/-! ## The condition -/

/-- A write to a run by its id. -/
def OnFinished (runId : String) (allowed : StoredRun → Prop) : Prop :=
  ∀ run, state.getRootRun runId = some run → isTerminalRunStatus run.status → allowed run

/-- A cancellation reaches runs that have ended only where it changes nothing: they are not
cancelled, and stand at the step and the summary that it writes. -/
def CancelsActive (options : CancelRootRunOptions) (runId : String) : Prop :=
  ∀ current, state.getRootRun runId = some current →
    ∀ run ∈ state.listCancellationScopeRuns current, isTerminalRunStatus run.status →
      run.status ≠ .cancelled ∧ StoreState.StepIsCurrent run (resolveInterruptStepKey run)
        (options.stepSummary.getD "사용자가 실행 취소를 요청했습니다.")

/-- No writer changes a run that has ended, and none writes its last status once more. -/
def SparesFinished (state : HistoryState) : StoreStep → Prop
  | .updateRunStatus clock runId status summary canCancel =>
    OnFinished state.database.toStoreState runId fun run =>
      state.database.toStoreState.RewriteIsSilent clock run status summary canCancel
  | .setRunStepStatus _ runId stepKey _ summary =>
    OnFinished state.database.toStoreState runId fun run =>
      StoreState.StepIsCurrent run stepKey summary
  | .updateRunSummary _ runId summary =>
    OnFinished state.database.toStoreState runId fun run => summary = run.summary
  | .incrementDelegationTurnCount _ runId summary =>
    OnFinished state.database.toStoreState runId fun run => summary.getD run.summary = run.summary
  | .cancelRootRun _ options runId => CancelsActive state.database.toStoreState options runId
  | .finishApproval clock runId stepKey toolName decision stepSummary runSummary =>
    OnFinished state.database.toStoreState runId (fun run =>
      StoreState.StepIsCurrent run stepKey stepSummary) ∧
    match decision with
    | .allowRun | .allowOnce => OnFinished (state.database.toStoreState.setRunStepStatus clock
        runId stepKey .completed stepSummary) runId fun run =>
          StoreState.StepIsCurrent run "executing" s!"{toolName} 실행을 계속합니다."
    | .deny => CancelsActive (state.database.toStoreState.setRunStepStatus clock runId stepKey
        .cancelled stepSummary) ⟨some stepSummary, some runSummary⟩ runId
  | _ => True

/-! ## The property -/

/-- Every run that has ended is as it was when it ended, and every run has had the events of its
status. -/
structure FinishedStay (state : HistoryState) : Prop where
  kept : ∀ entry ∈ state.settled, ∃ run,
    state.database.getRootRun entry.1 = some run ∧ run.snapshot = entry.2
  told : ∀ run ∈ state.database.runs, state.database.eventsOf run.id = endEvents run.status

/-- A cancellation ends every active run of the family of a run, and leaves the other runs
alone. -/
def CancelsFamily (state : StoreState) : Prop :=
  ∀ clock options runId current, state.getRootRun runId = some current →
    (∀ run ∈ (state.cancelRootRun clock options runId).runs,
      inFamilyOf current.toRootRunRow run.toRootRunRow → isTerminalRunStatus run.status) ∧
    ∀ otherId other, state.getRootRun otherId = some other →
      inFamilyOf current.toRootRunRow other.toRootRunRow = false →
        (state.cancelRootRun clock options runId).getRootRun otherId = some other

/-- The books of a history: what is noted has ended, what has ended is noted, and unknown runs
have had no event. -/
structure HistoryBooks (state : HistoryState) : Prop where
  terminal : ∀ entry ∈ state.settled, isTerminalRunStatus entry.2.status
  noted : ∀ run ∈ state.database.runs, isTerminalRunStatus run.status →
    run.id ∈ state.settled.map Prod.fst
  unknown : ∀ runId, state.database.getRootRun runId = none → state.database.eventsOf runId = []

namespace StoreState

variable {state : StoreState}

theorem nodup_cancellationScope (current : StoredRun) :
    ((state.listCancellationScopeRuns current).map fun run => run.id).Nodup := nodup_listed

theorem mem_cancellationScope_iff {current : StoredRun} :
    run ∈ state.listCancellationScopeRuns current ↔
      run ∈ state.runs ∧ inFamilyOf current.toRootRunRow run.toRootRunRow ∧
        (isActiveRunStatus run.status || run.id ∈ state.controllers) := by
  unfold listCancellationScopeRuns
  rw [mem_filter, mem_insertionSort, mem_filter, and_assoc]

/-- A cancellation of a whole family. -/
theorem cancelsFamily (state : StoreState) : CancelsFamily state := by
  intro clock options runId current hcurrent
  obtain ⟨hothers, hlisted⟩ := @endRuns_effect state clock .cancelled rfl (fun _ =>
      (options.stepSummary.getD "사용자가 실행 취소를 요청했습니다.", options.runSummary.getD "사용자가 실행을 취소했습니다."))
    (state.listCancellationScopeRuns current) (nodup_cancellationScope current)
    fun run hrun => getRootRun_of_mem (mem_cancellationScope_iff.mp hrun).1
  unfold cancelRootRun
  rw [hcurrent]
  refine ⟨fun run hrun hfamily => ?_, fun otherId other hother hfamily => ?_⟩
  · have hafter := getRootRun_of_mem hrun
    by_cases hmem : ∃ listed ∈ state.listCancellationScopeRuns current, listed.id = run.id
    · obtain ⟨listed, hin, hid⟩ := hmem
      obtain ⟨after, hfound, hended⟩ := hlisted listed hin
      rw [hid] at hfound
      cases hafter.symm.trans hfound
      exact hended
    · push Not at hmem
      have hbefore := (hothers run.id hmem).symm.trans hafter
      obtain ⟨hin, -⟩ := getRootRun_eq_some_iff.mp hbefore
      -- A run of the family that is not listed was not active.
      cases hended : isTerminalRunStatus run.status with
      | true => rfl
      | false =>
        refine absurd rfl (hmem run (mem_cancellationScope_iff.mpr ⟨hin, hfamily, ?_⟩))
        rw [isActiveRunStatus_eq, hended, Bool.not_false, Bool.true_or]
  · refine (hothers otherId fun listed hin hid => ?_).trans hother
    obtain ⟨-, hid'⟩ := getRootRun_eq_some_iff.mp hother
    obtain ⟨hmem, hin', -⟩ := mem_cancellationScope_iff.mp hin
    have hsame := (getRootRun_of_mem hmem).symm.trans (hid ▸ hother)
    cases hsame
    cases hfamily.symm.trans hin'

theorem follows_cancelRootRun {options : CancelRootRunOptions}
    (h : CancelsActive state options runId) :
    Follows state (state.cancelRootRun clock options runId) := by
  unfold cancelRootRun
  split
  · exact .refl state
  · next current hcurrent =>
    refine @follows_endRuns state clock .cancelled (fun _ =>
        (options.stepSummary.getD "사용자가 실행 취소를 요청했습니다.",
          options.runSummary.getD "사용자가 실행을 취소했습니다."))
      (state.listCancellationScopeRuns current) (nodup_cancellationScope current)
      (fun run hrun => getRootRun_of_mem (mem_cancellationScope_iff.mp hrun).1)
      fun run hrun hended => ⟨rfl, h current hcurrent run hrun hended⟩

theorem follows_interruptOrphans (requestGroupId workerSessionId keepRunId : String)
    (summary : Option String) :
    Follows state (state.interruptOrphanWorkerSessionRuns clock requestGroupId workerSessionId
      keepRunId summary) := by
  have hlisted {run : StoredRun} := @mem_of_mem_listed state
    (fun run => isActiveRunStatus run.status)
    (fun run => run.requestGroupId = requestGroupId &&
      run.workerSessionId = some workerSessionId && run.id ≠ keepRunId)
    (fun left right => right.updatedAt ≤ left.updatedAt) _ run
  refine @follows_endRuns state clock .interrupted (fun _ =>
      (summary.getD "새 작업 세션이 시작되어 이전 실행을 정리했습니다.",
        summary.getD "새 작업 세션이 시작되어 이전 실행을 정리했습니다.")) _ nodup_listed
    (fun run hrun => getRootRun_of_mem (hlisted hrun).1) fun run hrun hended => ?_
  have hactive := (hlisted hrun).2.2
  rw [isActiveRunStatus_eq, hended] at hactive
  cases hactive

theorem follows_cleanupStale (staleMs : Option ℤ) (now : ℤ) :
    Follows state (state.cleanupStaleRunStates clock staleMs now) := by
  have hlisted {run : StoredRun} := @mem_of_mem_listed state (fun _ => true)
    (fun run => isActiveRunStatus run.status &&
      run.updatedAt ≤ now - max 60000 (staleMs.getD (30 * 60 * 1000)))
    (fun left right => left.updatedAt ≤ right.updatedAt) _ run
  have hdistinct := @nodup_listed state (fun _ => true)
    (fun run => isActiveRunStatus run.status &&
      run.updatedAt ≤ now - max 60000 (staleMs.getD (30 * 60 * 1000)))
    (fun left right => left.updatedAt ≤ right.updatedAt) _
  rw [filter_true] at hlisted hdistinct
  refine @follows_endRuns state clock .interrupted (fun run =>
      (staleCleanupSummary run, staleCleanupSummary run)) _ hdistinct
    (fun run hrun => getRootRun_of_mem (hlisted hrun).1) fun run hrun hended => ?_
  have hactive := (Bool.and_eq_true_iff.mp (hlisted hrun).2.1).1
  rw [isActiveRunStatus_eq, hended] at hactive
  cases hactive

theorem follows_finishApproval {toolName : String} {decision : ApprovalDecision}
    {runSummary : String}
    (hstep : OnFinished state runId fun run => StepIsCurrent run stepKey stepSummary)
    (h : match decision with
      | .allowRun | .allowOnce => OnFinished (state.setRunStepStatus clock runId stepKey
          .completed stepSummary) runId fun run =>
            StepIsCurrent run "executing" s!"{toolName} 실행을 계속합니다."
      | .deny => CancelsActive (state.setRunStepStatus clock runId stepKey .cancelled
          stepSummary) ⟨some stepSummary, some runSummary⟩ runId) :
    Follows state (state.finishApproval clock runId stepKey toolName decision stepSummary
      runSummary) := by
  -- A finished run is not set running.
  have hrunning (store : StoreState) (text : Option String) (canCancel : Option Bool) :
      Follows store (store.updateRunStatus clock runId .running text canCancel) := by
    refine follows_updateRunStatus clock fun run hrun hended hsame => ?_
    rw [statusWrite_status] at hsame
    have hstatus : RunStatus.running = run.status := hsame
    rw [← hstatus] at hended
    cases hended
  have hfirst (status : RunStepStatus) := follows_setRunStepStatus clock status hstep
  cases decision with
  | allowRun | allowOnce =>
    exact ((hfirst .completed).trans (follows_setRunStepStatus clock .running h)).trans
      (hrunning _ _ _)
  | deny => exact (hfirst .cancelled).trans (follows_cancelRootRun clock h)

end StoreState

/-! ## Runs of the store -/

variable {state : HistoryState} {step : StoreStep}

/-- A step that creates no run goes on rightly where it meets the condition. -/
theorem follows_databaseStep (h : SparesFinished state step)
    (hnext : databaseStep? state.database step = some next)
    (hstep : ∀ run workerSessionId summary turns now,
      step ≠ .createRootRun run workerSessionId summary turns now) :
    Follows state.database.toStoreState next.toStoreState := by
  cases step with
  | createRootRun run workerSessionId summary turns now =>
    exact absurd rfl (hstep run workerSessionId summary turns now)
  | updateRunStatus clock runId status summary canCancel =>
    cases hnext
    exact StoreState.follows_updateRunStatus clock h
  | setRunStepStatus clock runId stepKey status summary =>
    cases hnext
    exact StoreState.follows_setRunStepStatus clock status h
  | updateRunSummary clock runId summary =>
    cases hnext
    refine StoreState.follows_changeRun (fun run hrun hended => ?_) fun _ => rfl
    unfold StoredRun.snapshot StoreState.summaryChange
    rw [h run hrun hended]
  | incrementDelegationTurnCount clock runId summary =>
    cases hnext
    change Follows state.database.toStoreState
      (state.database.toStoreState.incrementDelegationTurnCount clock runId summary)
    unfold StoreState.incrementDelegationTurnCount
    split
    · exact .refl _
    · next current hcurrent =>
      refine StoreState.follows_changeRuns (fun other run hrun _ hended => ?_) fun _ => rfl
      unfold StoredRun.snapshot StoreState.turnChange
      dsimp only
      split
      · next hid =>
        obtain ⟨-, hother⟩ := StoreState.getRootRun_eq_some_iff.mp hrun
        obtain rfl := hid.symm.trans hother
        cases hcurrent.symm.trans hrun
        rw [h current hcurrent hended]
      · rfl
  | cancelRootRun clock options runId =>
    cases hnext
    exact StoreState.follows_cancelRootRun clock h
  | interruptOrphanWorkerSessionRuns clock requestGroupId workerSessionId keepRunId summary =>
    cases hnext
    exact StoreState.follows_interruptOrphans clock _ _ _ _
  | cleanupStaleRunStates clock staleMs now =>
    cases hnext
    exact StoreState.follows_cleanupStale clock staleMs now
  | recoverActiveRunsOnStartup clock now =>
    cases hnext
    exact StoreState.follows_recoverActiveRunsOnStartup clock now _
  | finishApproval clock runId stepKey toolName decision stepSummary runSummary =>
    cases hnext
    exact StoreState.follows_finishApproval clock h.1 h.2
  | bindActiveRunController | clearActiveRunController | recordLedger =>
    cases hnext
    exact follows_of_same rfl rfl
  | rememberContinuity lineageRootRunId continuity =>
    cases hnext
    exact .refl _

/-- What was noted to have ended stays, and what has ended now is noted. -/
theorem finishedStay_of_follows (hbooks : HistoryBooks state) (h : FinishedStay state)
    (hfollows : Follows state.database.toStoreState next.toStoreState) :
    FinishedStay (state.note next) ∧ HistoryBooks (state.note next) := by
  have hnew {entry : String × RunSnapshot} (hentry : entry ∈ (next.runs.filter fun run =>
      isTerminalRunStatus run.status && run.id ∉ state.settled.map Prod.fst).map
        fun run => (run.id, run.snapshot)) :
      ∃ run ∈ next.runs, isTerminalRunStatus run.status ∧ (run.id, run.snapshot) = entry := by
    obtain ⟨run, hrun, hsame⟩ := mem_map.mp hentry
    obtain ⟨hmem, hkeep⟩ := mem_filter.mp hrun
    exact ⟨run, hmem, (Bool.and_eq_true_iff.mp hkeep).1, hsame⟩
  refine ⟨⟨fun entry hentry => ?_, fun run hrun => ?_⟩, ⟨fun entry hentry => ?_,
    fun run hrun hended => ?_, fun runId hnone => ?_⟩⟩
  · rcases mem_append.mp hentry with hold | hadded
    · obtain ⟨run, hrun, hsnapshot⟩ := h.kept entry hold
      obtain ⟨after, hafter, -, hended, -⟩ := hfollows.known entry.1 run hrun
      have hterminal := hbooks.terminal entry hold
      rw [← hsnapshot] at hterminal
      exact ⟨after, hafter, (hended hterminal).1.trans hsnapshot⟩
    · obtain ⟨run, hmem, -, rfl⟩ := hnew hadded
      exact ⟨run, StoreState.getRootRun_of_mem hmem, rfl⟩
  · have hfound := StoreState.getRootRun_of_mem hrun
    cases hbefore : state.database.getRootRun run.id with
    | none =>
      have hnone := (hfollows.unknown run.id hbefore).1
      exact absurd (hfound.symm.trans hnone) (Option.some_ne_none run)
    | some before =>
      obtain ⟨after, hafter, -, hended, hactive⟩ := hfollows.known run.id before hbefore
      cases hfound.symm.trans hafter
      obtain ⟨hmem, hid⟩ := StoreState.getRootRun_eq_some_iff.mp hbefore
      have htold := h.told before hmem
      rw [hid] at htold
      cases hterminal : isTerminalRunStatus before.status with
      | true =>
        obtain ⟨hsnapshot, hevents⟩ := hended hterminal
        have hstatus : run.status = before.status := congrArg RunSnapshot.status hsnapshot
        exact hevents.trans (htold.trans (by rw [hstatus]))
      | false =>
        rw [endEvents_of_active hterminal] at htold
        exact hactive hterminal htold
  · rcases mem_append.mp hentry with hold | hadded
    · exact hbooks.terminal entry hold
    · obtain ⟨run, -, hterminal, rfl⟩ := hnew hadded
      exact hterminal
  · by_cases hknown : run.id ∈ state.settled.map Prod.fst
    · obtain ⟨entry, hentry, hid⟩ := mem_map.mp hknown
      exact mem_map.mpr ⟨entry, mem_append_left _ hentry, hid⟩
    · refine mem_map.mpr ⟨(run.id, run.snapshot), mem_append_right _ ?_, rfl⟩
      refine mem_map.mpr ⟨run, mem_filter.mpr ⟨hrun, ?_⟩, rfl⟩
      rw [hended, Bool.true_and]
      exact decide_eq_true hknown
  · cases hbefore : state.database.getRootRun runId with
    | none => exact (hfollows.unknown runId hbefore).2.trans (hbooks.unknown runId hbefore)
    | some before =>
      obtain ⟨after, hafter, -⟩ := hfollows.known runId before hbefore
      exact absurd (hafter.symm.trans hnone) (Option.some_ne_none after)

/-- A new run is queued and has had no event. -/
theorem finishedStay_createRootRun (hbooks : HistoryBooks state) (h : FinishedStay state)
    {run : RootRunRow} (workerSessionId : Option String) (summary : String) (turns : ℕ) (now : ℤ)
    (habsent : run.id ∉ state.database.runs.map fun run => run.id) :
    FinishedStay (state.note { state.database with
        toStoreState := state.database.toStoreState.createRootRun run workerSessionId summary turns
          now habsent }) ∧
      HistoryBooks (state.note { state.database with
        toStoreState := state.database.toStoreState.createRootRun run workerSessionId summary turns
          now habsent }) := by
  generalize hcreated : state.database.toStoreState.createRootRun run workerSessionId summary turns
    now habsent = created
  have hruns : ∃ added : StoredRun, created.runs = state.database.runs ++ [added] ∧
      added.id = run.id ∧ added.status = .queued := by
    rw [← hcreated]
    exact ⟨_, rfl, rfl, rfl⟩
  obtain ⟨added, hruns, haddedId, hadded⟩ := hruns
  have hevents (runId : String) : created.eventsOf runId = state.database.eventsOf runId := by
    rw [← hcreated]
    rfl
  have hunknown : state.database.getRootRun run.id = none := by
    rw [← Option.not_isSome_iff_eq_none]
    intro hsome
    obtain ⟨found, hfound⟩ := Option.isSome_iff_exists.mp hsome
    obtain ⟨hmem, hid⟩ := StoreState.getRootRun_eq_some_iff.mp hfound
    exact habsent (mem_map.mpr ⟨found, hmem, hid⟩)
  have hkeeps {runId : String} {before : StoredRun}
      (hbefore : state.database.getRootRun runId = some before) :
      created.getRootRun runId = some before := by
    obtain ⟨hmem, hid⟩ := StoreState.getRootRun_eq_some_iff.mp hbefore
    exact StoreState.getRootRun_eq_some_iff.mpr ⟨by rw [hruns]; exact mem_append_left _ hmem, hid⟩
  have hmem {other : StoredRun} (hother : other ∈ created.runs) :
      other ∈ state.database.runs ∨ other = added := by
    rw [hruns, mem_append, mem_singleton] at hother
    exact hother
  -- Nothing that has ended is new.
  have hnone : (created.runs.filter fun run =>
      isTerminalRunStatus run.status && run.id ∉ state.settled.map Prod.fst) = [] := by
    refine filter_eq_nil_iff.mpr fun other hother hnew => ?_
    obtain ⟨hended, hfresh⟩ := Bool.and_eq_true_iff.mp hnew
    rcases hmem hother with hbefore | rfl
    · exact of_decide_eq_true hfresh (hbooks.noted other hbefore hended)
    · rw [hadded] at hended
      cases hended
  have hsettled : (state.note { state.database with toStoreState := created }).settled =
      state.settled := by
    unfold HistoryState.note
    rw [hnone, map_nil, append_nil]
  refine ⟨⟨fun entry hentry => ?_, fun other hother => ?_⟩, ⟨fun entry hentry => ?_,
    fun other hother hended => ?_, fun runId hgone => ?_⟩⟩
  · rw [hsettled] at hentry
    obtain ⟨before, hbefore, hsnapshot⟩ := h.kept entry hentry
    exact ⟨before, hkeeps hbefore, hsnapshot⟩
  · refine (hevents other.id).trans ?_
    rcases hmem hother with hbefore | rfl
    · exact h.told other hbefore
    · rw [haddedId, hbooks.unknown run.id hunknown, hadded]
      rfl
  · rw [hsettled] at hentry
    exact hbooks.terminal entry hentry
  · rw [hsettled]
    rcases hmem hother with hbefore | rfl
    · exact hbooks.noted other hbefore hended
    · rw [hadded] at hended
      cases hended
  · refine (hevents runId).trans (hbooks.unknown runId ?_)
    cases hbefore : state.database.getRootRun runId with
    | none => rfl
    | some before => exact absurd ((hkeeps hbefore).symm.trans hgone) (Option.some_ne_none before)

theorem finishedStay_step {next : HistoryState} (h : HistoryBooks state ∧ FinishedStay state)
    (hcondition : SparesFinished state step) (hnext : historyStep? state step = some next) :
    HistoryBooks next ∧ FinishedStay next := by
  obtain ⟨database, hdatabase, rfl⟩ := Option.map_eq_some_iff.mp hnext
  by_cases hcreates : ∃ run workerSessionId summary turns now,
      step = .createRootRun run workerSessionId summary turns now
  · obtain ⟨run, workerSessionId, summary, turns, now, rfl⟩ := hcreates
    simp only [databaseStep?] at hdatabase
    split at hdatabase
    · next habsent =>
      cases hdatabase
      exact (finishedStay_createRootRun h.1 h.2 workerSessionId summary turns now habsent).symm
    · cases hdatabase
  · have hfollows := follows_databaseStep hcondition hdatabase
      fun run workerSessionId summary turns now hstep =>
        hcreates ⟨run, workerSessionId, summary, turns, now, hstep⟩
    exact (finishedStay_of_follows h.1 h.2 hfollows).symm

def newRun : StoreStep := .createRootRun ⟨"run-1", "group", "group", none, .queued⟩ none "s" 0 0

/-- A run that is completed, and a step that is written behind its end. -/
def lateStep : List StoreStep :=
  [newRun, .updateRunStatus (fun _ => ⟨[], 1⟩) "run-1" .completed (some "done") none,
    .setRunStepStatus (fun _ => ⟨[], 2⟩) "run-1" "executing" .running "late"]

/-- How the first run of a store stands, and how it stood when it ended. -/
def firstRunSummaries (state : HistoryState) : List String × List String :=
  (state.database.runs.map fun run => run.summary, state.settled.map fun entry => entry.2.summary)

theorem lateStep_summaries :
    (execute historyStep? {} lateStep).map firstRunSummaries = some (["late"], ["done"]) := by
  decide +kernel

end Nobie.Runs.Store
