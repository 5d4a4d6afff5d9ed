/-
# The backpressure queue

Callers hand a task and a budget of their own to a queue. A task starts at once or
waits; it is raced against a timer, and when the race has ended the promise of the
call is settled and the next jobs are started. The timer does not stop the task,
which goes on until it settles by itself.

A job is named by the number of the call it comes from. The model is one queue: the
queues of the source share code and no state. What is recorded for diagnostics is
left out, the history of a queue is kept for its specification.
-/

import Mathlib.Data.List.Nodup
import Nobie.Foundation.JsNumber
import Nobie.Foundation.Transition

namespace Nobie.Runs

open Foundation List

/-! ## Budgets -/

inductive QueueName
  | fastReceipt | interactiveRun | toolExecution | delivery | webBrowser | memoryIndex | diagnostic
  | scheduleTick

structure QueueBudget where
  (concurrency timeoutMs backoffMs maxPending : JsNumber)
  deriving DecidableEq

/-- `Partial<QueueBudget>`. -/
structure BudgetOverride where
  concurrency : Option JsNumber := none
  timeoutMs : Option JsNumber := none
  backoffMs : Option JsNumber := none
  maxPending : Option JsNumber := none

def defaultQueueBudgets : QueueName → QueueBudget
  | .fastReceipt => ⟨.ofNat 8, .ofNat 500, .ofNat 0, .ofNat 100⟩
  | .interactiveRun => ⟨.ofNat 2, .ofNat 120000, .ofNat 500, .ofNat 50⟩
  | .toolExecution => ⟨.ofNat 4, .ofNat 60000, .ofNat 1000, .ofNat 80⟩
  | .delivery => ⟨.ofNat 3, .ofNat 30000, .ofNat 1500, .ofNat 100⟩
  | .webBrowser => ⟨.ofNat 1, .ofNat 20000, .ofNat 2000, .ofNat 10⟩
  | .memoryIndex => ⟨.ofNat 1, .ofNat 90000, .ofNat 2000, .ofNat 500⟩
  | .diagnostic => ⟨.ofNat 1, .ofNat 30000, .ofNat 1000, .ofNat 20⟩
  | .scheduleTick => ⟨.ofNat 2, .ofNat 30000, .ofNat 1000, .ofNat 200⟩

def budgetFor (queueName : QueueName) (override : BudgetOverride) : QueueBudget :=
  let base := defaultQueueBudgets queueName
  { concurrency := .max (.ofNat 1) (.floor (override.concurrency.getD base.concurrency))
    timeoutMs := .max (.ofNat 1) (.floor (override.timeoutMs.getD base.timeoutMs))
    backoffMs := .max (.ofNat 0) (.floor (override.backoffMs.getD base.backoffMs))
    maxPending := .max (.ofNat 0) (.floor (override.maxPending.getD base.maxPending)) }

/-! ## States -/

/-- How a race ended, and with it the promise of a call. -/
inductive Settlement
  | completed | failed | timeout
  deriving DecidableEq

/-- A call of `runJob` that has not returned. -/
structure Activation where
  job : ℕ
  budget : QueueBudget
  race : Option Settlement
  deriving DecidableEq

/-- A call that was rejected with `queue_full`, and what it found. -/
structure Refusal where
  budget : QueueBudget
  (running pending : ℕ)

/-- What has happened at a queue. -/
structure QueueHistory where
  accepted : List (ℕ × QueueBudget) := []
  refused : List Refusal := []
  /-- The jobs that were taken from the queue, and the budget each is run with. -/
  dequeued : List (ℕ × QueueBudget) := []
  started : List ℕ := []
  settled : List (ℕ × Settlement) := []

structure QueueState where
  running : ℕ := 0
  pending : List ℕ := []
  active : List Activation := []
  /-- The tasks that the next microtasks start, in order. -/
  scheduled : List ℕ := []
  /-- The tasks that have been started and have not settled. -/
  live : List ℕ := []
  calls : ℕ := 0
  history : QueueHistory := {}

/-! ## Operations -/

variable (budget : QueueBudget) (state : QueueState)

/-- `runJob` up to its await. -/
def runJob (job : ℕ) (state : QueueState) : QueueState :=
  { state with
    running := state.running + 1
    active := state.active ++ [⟨job, budget, none⟩]
    scheduled := state.scheduled ++ [job]
    history := { state.history with dequeued := state.history.dequeued ++ [(job, budget)] } }

/-- The loop of `runNext` over the jobs that are pending. -/
def runPending (budget : QueueBudget) : List ℕ → QueueState → QueueState
  | [], state => state
  | job :: rest, state =>
    if JsNumber.lt (.ofNat state.running) budget.concurrency then
      runPending budget rest (runJob budget job { state with pending := rest })
    else state

def runNext : QueueState := runPending budget state.pending state

/-- Is a call rejected with `queue_full`? -/
def queueFull : Bool :=
  JsNumber.le budget.concurrency (.ofNat state.running) &&
    JsNumber.le budget.maxPending (.ofNat state.pending.length)

/-- A call is refused. -/
def refuse : QueueState :=
  { state with
    calls := state.calls + 1
    history := { state.history with
      refused := state.history.refused ++ [⟨budget, state.running, state.pending.length⟩] } }

/-- A call is accepted: its job waits. -/
def push : QueueState :=
  { state with
    calls := state.calls + 1
    pending := state.pending ++ [state.calls]
    history := { state.history with
      accepted := state.history.accepted ++ [(state.calls, budget)] } }

def enqueueBackpressureTask (queueName : QueueName) (override : BudgetOverride)
    (state : QueueState) : QueueState :=
  let budget := budgetFor queueName override
  if queueFull budget state then refuse budget state else runNext budget (push budget state)

/-- The race of a job ends, unless it has ended before. -/
def endRace (job : ℕ) (settlement : Settlement) (active : List Activation) : List Activation :=
  active.map fun activation =>
    if activation.job = job then { activation with race := activation.race <|> settlement }
    else activation

/-- The promise of a job is settled and its place is given back. -/
def settleJob (activation : Activation) (settlement : Settlement) (state : QueueState) :
    QueueState :=
  { state with
    running := state.running - 1
    active := state.active.erase activation
    history := { state.history with
      settled := state.history.settled ++ [(activation.job, settlement)] } }

/-- `runJob` from its await to its end. -/
def finishJob (activation : Activation) (settlement : Settlement) (state : QueueState) :
    QueueState :=
  runNext activation.budget (settleJob activation settlement state)

/-! ## Steps -/

inductive QueueEvent
  | enqueue (override : BudgetOverride)
  /-- The next microtask starts its task. -/
  | start
  /-- A task settles, with a value or with an error. -/
  | settle (job : ℕ) (succeeds : Bool)
  /-- The timer of a job fires. -/
  | fire (job : ℕ)
  /-- The race of a job has ended and `runJob` goes on. -/
  | resume (job : ℕ)

def queueStep? (queueName : QueueName) (state : QueueState) : QueueEvent → Option QueueState
  | .enqueue override => some (enqueueBackpressureTask queueName override state)
  | .start =>
    match state.scheduled with
    | [] => none
    | job :: rest =>
      some { state with
        scheduled := rest
        live := state.live ++ [job]
        history := { state.history with started := state.history.started ++ [job] } }
  | .settle job succeeds =>
    if job ∈ state.live then
      some { state with
        live := state.live.erase job
        active := endRace job (if succeeds then .completed else .failed) state.active }
    else none
  | .fire job =>
    -- Timers come after all microtasks, so the task has been started.
    if job ∈ state.active.map (·.job) ∧ job ∉ state.scheduled then
      some { state with active := endRace job .timeout state.active }
    else none
  | .resume job =>
    match state.active.find? (·.job = job) with
    | some activation => activation.race.map fun settlement => finishJob activation settlement state
    | none => none

/-- What a step does, by its event. -/
inductive QueueStep (queueName : QueueName) (state : QueueState) : QueueEvent → QueueState → Prop
  | enqueue (override : BudgetOverride) :
      QueueStep queueName state (.enqueue override)
        (enqueueBackpressureTask queueName override state)
  | start {job : ℕ} {rest : List ℕ} (next : state.scheduled = job :: rest) :
      QueueStep queueName state .start
        { state with
          scheduled := rest
          live := state.live ++ [job]
          history := { state.history with started := state.history.started ++ [job] } }
  | settle {job : ℕ} (succeeds : Bool) (live : job ∈ state.live) :
      QueueStep queueName state (.settle job succeeds)
        { state with
          live := state.live.erase job
          active := endRace job (if succeeds then .completed else .failed) state.active }
  | fire {job : ℕ} (active : job ∈ state.active.map (·.job)) (started : job ∉ state.scheduled) :
      QueueStep queueName state (.fire job)
        { state with active := endRace job .timeout state.active }
  | resume {activation : Activation} {settlement : Settlement}
      (active : activation ∈ state.active) (ended : activation.race = some settlement) :
      QueueStep queueName state (.resume activation.job) (finishJob activation settlement state)

theorem queueStep_of_taken {queueName : QueueName} {state next : QueueState} {event : QueueEvent}
    (taken : queueStep? queueName state event = some next) :
    QueueStep queueName state event next := by
  cases event with
  | enqueue override =>
    cases taken
    exact .enqueue override
  | start =>
    rw [queueStep?] at taken
    split at taken
    · cases taken
    · next hnext =>
      cases taken
      exact .start hnext
  | settle job succeeds =>
    rw [queueStep?] at taken
    split at taken
    · next hlive =>
      cases taken
      exact .settle succeeds hlive
    · cases taken
  | fire job =>
    rw [queueStep?] at taken
    split at taken
    · next hfire =>
      cases taken
      exact .fire hfire.1 hfire.2
    · cases taken
  | resume job =>
    rw [queueStep?] at taken
    split at taken
    · next activation hfind =>
      obtain ⟨settlement, hended, rfl⟩ := Option.map_eq_some_iff.mp taken
      have hjob : activation.job = job := by simpa using find?_some hfind
      exact hjob ▸ .resume (mem_of_find?_eq_some hfind) hended
    · cases taken

/-- The runs of a queue that starts without jobs. -/
abbrev QueueRun (queueName : QueueName) : List QueueEvent → QueueState → Prop :=
  Run (Takes (queueStep? queueName)) {}

/-! ## What the loop takes from the queue -/

/-- The pending jobs that are started while so many others run. -/
def admitted (concurrency : JsNumber) (running : ℕ) : List ℕ → List ℕ
  | [] => []
  | job :: rest =>
    if JsNumber.lt (.ofNat running) concurrency then
      job :: admitted concurrency (running + 1) rest
    else []

/-- The jobs that are left. -/
def remaining (concurrency : JsNumber) (running : ℕ) : List ℕ → List ℕ
  | [] => []
  | job :: rest =>
    if JsNumber.lt (.ofNat running) concurrency then
      remaining concurrency (running + 1) rest
    else job :: rest

variable (jobs : List ℕ) {concurrency : JsNumber} {running : ℕ}

theorem admitted_append_remaining (concurrency : JsNumber) (running : ℕ) (jobs : List ℕ) :
    admitted concurrency running jobs ++ remaining concurrency running jobs = jobs := by
  induction jobs generalizing running with
  | nil => rfl
  | cons job rest ih =>
    rw [admitted, remaining]
    split
    · rw [cons_append, ih]
    · rfl

theorem admitted_nan (running : ℕ) (jobs : List ℕ) : admitted .nan running jobs = [] := by
  cases jobs with
  | nil => rfl
  | cons job rest => rw [admitted, JsNumber.lt_nan, if_neg Bool.false_ne_true]

theorem remaining_nan (running : ℕ) (jobs : List ℕ) : remaining .nan running jobs = jobs := by
  have hall := admitted_append_remaining .nan running jobs
  rwa [admitted_nan, nil_append] at hall

/-- A job is left only where there is no room for one more. -/
theorem full_of_remaining {jobs : List ℕ} (h : remaining concurrency running jobs ≠ []) :
    JsNumber.lt (.ofNat (running + (admitted concurrency running jobs).length)) concurrency =
      false := by
  induction jobs generalizing running with
  | nil => exact absurd rfl h
  | cons job rest ih =>
    rw [admitted, remaining] at *
    split
    · next hroom =>
      rw [if_pos hroom] at h
      rw [length_cons, ← Nat.add_assoc, Nat.add_right_comm]
      exact ih h
    · next hfull => simpa using hfull

/-- There was room for the last job that was taken. -/
theorem room_of_admitted {jobs : List ℕ} {taken : ℕ}
    (h : (admitted concurrency running jobs).length = taken + 1) :
    JsNumber.lt (.ofNat (running + taken)) concurrency := by
  induction jobs generalizing running taken with
  | nil => cases h
  | cons job rest ih =>
    rw [admitted] at h
    split at h
    · next hroom =>
      rw [length_cons, Nat.add_right_cancel_iff] at h
      cases taken with
      | zero => exact hroom
      | succ taken =>
        rw [← Nat.add_assoc, Nat.add_right_comm]
        exact ih h
    · cases h

/-- A job at the end of the queue takes the place of none before it. -/
theorem mem_of_mem_admitted_append {last job : ℕ} {jobs : List ℕ}
    (h : job ∈ admitted concurrency running (jobs ++ [last])) :
    job ∈ admitted concurrency running jobs ∨ job = last := by
  induction jobs generalizing running with
  | nil =>
    rw [nil_append, admitted] at h
    split at h
    · exact Or.inr (by simpa [admitted] using h)
    · cases h
  | cons first rest ih =>
    rw [cons_append, admitted] at h
    rw [admitted]
    split at h
    · next hroom =>
      rw [if_pos hroom]
      rcases mem_cons.mp h with rfl | hrest
      · exact Or.inl mem_cons_self
      · exact (ih hrest).imp_left (mem_cons_of_mem _)
    · cases h

/-- And it is taken together with all of them or not at all. -/
theorem admitted_subset_append (concurrency : JsNumber) (running last : ℕ) (jobs : List ℕ) :
    admitted concurrency running jobs ⊆ admitted concurrency running (jobs ++ [last]) := by
  induction jobs generalizing running with
  | nil => exact nil_subset _
  | cons job rest ih =>
    rw [cons_append, admitted, admitted]
    split
    · exact cons_subset_cons job (ih (running + 1))
    · exact nil_subset _

/-- The state after the loop. -/
def started (budget : QueueBudget) (jobs left : List ℕ) (state : QueueState) : QueueState :=
  { state with
    running := state.running + jobs.length
    pending := left
    active := state.active ++ jobs.map fun job => ⟨job, budget, none⟩
    scheduled := state.scheduled ++ jobs
    history := { state.history with
      dequeued := state.history.dequeued ++ jobs.map fun job => (job, budget) } }

variable (budget : QueueBudget) (state : QueueState)

theorem started_nil : started budget [] state.pending state = state := by simp [started]

theorem runPending_eq (jobs : List ℕ) (state : QueueState) (hpending : state.pending = jobs) :
    runPending budget jobs state = started budget (admitted budget.concurrency state.running jobs)
        (remaining budget.concurrency state.running jobs) state := by
  induction jobs generalizing state with
  | nil =>
    have hsame := started_nil budget state
    rw [hpending] at hsame
    exact hsame.symm
  | cons job rest ih =>
    rw [runPending, admitted, remaining]
    split
    · rw [ih _ rfl]
      simp [runJob, started, Nat.add_assoc, Nat.add_comm 1]
    · rw [← hpending, started_nil]

theorem runNext_eq :
    runNext budget state = started budget (admitted budget.concurrency state.running state.pending)
        (remaining budget.concurrency state.running state.pending) state :=
  runPending_eq budget state.pending state rfl

/-! ## What the queue keeps

Jobs are taken from the queue in the order of their calls and every promise is settled once. -/

/-! ## Accounting for jobs -/

/-- Where the jobs of a queue are. -/
structure Accounted (state : QueueState) : Prop where
  accepted : state.history.accepted.map Prod.fst =
    state.history.dequeued.map Prod.fst ++ state.pending
  dequeued : state.history.dequeued.map Prod.fst = state.history.started ++ state.scheduled
  increasing : (state.history.accepted.map Prod.fst).Pairwise (· < ·)
  below : ∀ job ∈ state.history.accepted.map Prod.fst, job < state.calls
  owners : (state.active.map (·.job) ++ state.history.settled.map Prod.fst).Perm
    (state.history.dequeued.map Prod.fst)
  running : state.running = state.active.length
  live : state.live.Sublist state.history.started
  refused : ∀ refusal ∈ state.history.refused,
    JsNumber.le refusal.budget.concurrency (.ofNat refusal.running) ∧
      JsNumber.le refusal.budget.maxPending (.ofNat refusal.pending)

theorem accounted_start : Accounted {} := ⟨rfl, rfl, .nil, by simp, .refl _, rfl, .refl _, by simp⟩

variable {budget : QueueBudget} {queueName : QueueName} {event : QueueEvent} {next : QueueState}
  (settlement : Settlement) {override : BudgetOverride}

variable {activation : Activation} (job : ℕ) {state : QueueState}
  (taken : QueueStep queueName state event next)

namespace Accounted

variable {state : QueueState}

section

variable (h : Accounted state)
include h

theorem nodup_accepted : (state.history.accepted.map Prod.fst).Nodup :=
  h.increasing.imp fun hlt => Nat.ne_of_lt hlt

theorem nodup_dequeued : (state.history.dequeued.map Prod.fst).Nodup :=
  (nodup_append.mp (h.accepted ▸ h.nodup_accepted)).1

theorem nodup_owners :
    (state.active.map (·.job) ++ state.history.settled.map Prod.fst).Nodup :=
  h.owners.nodup_iff.mpr h.nodup_dequeued

theorem nodup_active : (state.active.map (·.job)).Nodup :=
  (nodup_append.mp h.nodup_owners).1

theorem nodup_started : state.history.started.Nodup :=
  (nodup_append.mp (h.dequeued ▸ h.nodup_dequeued)).1

theorem refuse (hfull : queueFull budget state) :
    Accounted (refuse budget state) where
  __ := h
  below job hjob := Nat.lt_succ_of_lt (h.below job hjob)
  refused refusal hrefusal := by
    rcases mem_append.mp hrefusal with hold | hnew
    · exact h.refused refusal hold
    · obtain rfl := mem_singleton.mp hnew
      exact Bool.and_eq_true_iff.mp hfull

theorem push : Accounted (push budget state) where
  __ := h
  accepted := by
    change (state.history.accepted ++ [(state.calls, budget)]).map Prod.fst = _
    rw [map_append, h.accepted, append_assoc]
    rfl
  increasing := by
    change ((state.history.accepted ++ [(state.calls, budget)]).map Prod.fst).Pairwise (· < ·)
    rw [map_append, pairwise_append]
    refine ⟨h.increasing, pairwise_singleton _ _, fun first hfirst second hsecond => ?_⟩
    obtain rfl := mem_singleton.mp hsecond
    exact h.below first hfirst
  below job hjob := by
    change job ∈ (state.history.accepted ++ [(state.calls, budget)]).map Prod.fst at hjob
    rw [map_append] at hjob
    rcases mem_append.mp hjob with hold | hnew
    · exact Nat.lt_succ_of_lt (h.below job hold)
    · obtain rfl := mem_singleton.mp hnew
      exact Nat.lt_succ_self _

theorem started {jobs left : List ℕ} (hpending : jobs ++ left = state.pending)
    : Accounted (started budget jobs left state) where
  __ := h
  accepted := by simp [Runs.started, h.accepted, ← hpending, Function.comp_def]
  dequeued := by simp [Runs.started, h.dequeued, Function.comp_def]
  owners := by
    have hjobs : ((state.active.map (·.job) ++ jobs) ++ state.history.settled.map Prod.fst).Perm
        (state.history.dequeued.map Prod.fst ++ jobs) := by
      rw [append_assoc]
      refine (perm_append_comm.append_left _).trans ?_
      rw [← append_assoc]
      exact h.owners.append_right _
    simpa [Runs.started, Function.comp_def] using hjobs
  running := by simp [Runs.started, h.running]

end

theorem runNext (budget : QueueBudget) (h : Accounted state) : Accounted (runNext budget state) := by
  rw [runNext_eq]
  exact h.started (admitted_append_remaining _ _ _)

theorem enqueue (queueName : QueueName) (override : BudgetOverride) (h : Accounted state) :
    Accounted (enqueueBackpressureTask queueName override state) := by
  unfold enqueueBackpressureTask
  dsimp only
  split
  · next hfull => exact h.refuse hfull
  · exact h.push.runNext _

theorem map_job_endRace (settlement : Settlement) (active : List Activation) :
    (endRace job settlement active).map (·.job) = active.map (·.job) := by
  rw [endRace, map_map]
  refine map_congr_left fun activation _ => ?_
  rw [Function.comp_apply]
  split <;> rfl

theorem endRace (settlement : Settlement) (h : Accounted state) :
    Accounted { state with active := endRace job settlement state.active } where
  __ := h
  owners := by
    rw [map_job_endRace]
    exact h.owners
  running := by simpa [Runs.endRace] using h.running

theorem settleJob (h : Accounted state) (hactive : activation ∈ state.active) :
    Accounted (settleJob activation settlement state) where
  __ := h
  owners := by
    refine List.Perm.trans ?_ h.owners
    have hperm := (perm_cons_erase hactive).map (·.job)
    change ((state.active.erase activation).map (·.job) ++
      (state.history.settled ++ [(activation.job, settlement)]).map Prod.fst).Perm _
    rw [map_append, ← append_assoc]
    refine perm_append_comm.trans (List.Perm.trans ?_ (hperm.append_right _).symm)
    simp
  running := by
    change state.running - 1 = (state.active.erase activation).length
    rw [h.running, length_erase_of_mem hactive]

theorem step (h : Accounted state) (taken : QueueStep queueName state event next) :
    Accounted next := by
  cases taken with
  | enqueue override => exact h.enqueue queueName override
  | @start job rest hnext =>
    exact { h with
      dequeued := by
        rw [h.dequeued, hnext, append_assoc]
        rfl
      live := h.live.append (.refl [job]) }
  | settle succeeds hlive =>
    exact { h.endRace _ (if succeeds then .completed else .failed) with
      live := erase_sublist.trans h.live }
  | fire hactive hstarted => exact h.endRace _ .timeout
  | resume hactive hended => exact (h.settleJob _ hactive).runNext _

end Accounted

theorem accounted_of_run {events : List QueueEvent} (run : QueueRun queueName events state) :
    Accounted state :=
  run.invariant (fun _ _ _ h taken => h.step (queueStep_of_taken taken)) accounted_start

/-! ## Nobody is stranded -/

/-- Where a job is pending another one runs. -/
def NotStranded (state : QueueState) : Prop := state.pending ≠ [] → state.active ≠ []

instance (state : QueueState) : Decidable (NotStranded state) :=
  inferInstanceAs (Decidable (state.pending ≠ [] → state.active ≠ []))

/-- A call whose concurrency is not a number finds a job running. -/
def FindsRunning (state : QueueState) : QueueEvent → Prop
  | .enqueue override => override.concurrency = some .nan → 0 < state.running
  | _ => True

/-- A budget leaves room for one job. -/
def QueueBudget.RunsOne (budget : QueueBudget) : Prop := JsNumber.lt (.ofNat 0) budget.concurrency

theorem defaultConcurrency_ne_nan (queueName : QueueName) :
    (defaultQueueBudgets queueName).concurrency ≠ .nan := by
  cases queueName <;> exact JsNumber.noConfusion

/-- A concurrency is made one at least, unless it is not a number. -/
theorem budgetFor_runsOne (h : override.concurrency ≠ some .nan) :
    (budgetFor queueName override).RunsOne := by
  have hgiven : override.concurrency.getD (defaultQueueBudgets queueName).concurrency ≠ .nan := by
    cases hconcurrency : override.concurrency with
    | none => exact defaultConcurrency_ne_nan queueName
    | some number => exact fun hnan => h (hconcurrency.trans (congrArg some hnan))
  exact JsNumber.lt_max_floor (by decide) hgiven

theorem budgetFor_nan (h : override.concurrency = some .nan) :
    (budgetFor queueName override).concurrency = .nan := by
  simp [budgetFor, h, JsNumber.floor, JsNumber.max]

/-- After the loop a job is pending only if others run. -/
theorem notStranded_runNext (h : Accounted state) (hone : budget.RunsOne) :
    NotStranded (runNext budget state) := by
  have hrunning := (h.runNext budget).running
  rw [runNext_eq] at hrunning ⊢
  intro hpending hactive
  have hfull := full_of_remaining hpending
  have hnone : state.running +
      (admitted budget.concurrency state.running state.pending).length = 0 :=
    hrunning.trans (congrArg List.length hactive)
  rw [hnone] at hfull
  exact absurd hone (by rw [QueueBudget.RunsOne, hfull]; exact Bool.false_ne_true)

/-- Every job is run with a budget that leaves room for one. -/
def BudgetsRun (state : QueueState) : Prop := ∀ activation ∈ state.active, activation.budget.RunsOne

theorem budgetsRun_runNext (h : BudgetsRun state) : BudgetsRun (runNext budget state) := by
  rw [runNext_eq]
  intro activation hactivation
  rcases mem_append.mp hactivation with hold | hnew
  · exact h activation hold
  · obtain ⟨job, hjob, rfl⟩ := mem_map.mp hnew
    obtain ⟨taken, htaken⟩ := Nat.exists_eq_succ_of_ne_zero (length_pos_of_mem hjob).ne'
    exact JsNumber.lt_of_lt_of_le (Nat.zero_le _) (room_of_admitted htaken)

theorem mem_endRace {job : ℕ} {settlement : Settlement} {active : List Activation}
    (h : activation ∈ endRace job settlement active) :
    ∃ before ∈ active, before.job = activation.job ∧ before.budget = activation.budget := by
  obtain ⟨before, hbefore, rfl⟩ := mem_map.mp h
  refine ⟨before, hbefore, ?_⟩
  split <;> exact ⟨rfl, rfl⟩

theorem budgetsRun_step (h : BudgetsRun state) (taken : QueueStep queueName state event next) :
    BudgetsRun next := by
  have hrace (job : ℕ) (settlement : Settlement) :
      ∀ activation ∈ endRace job settlement state.active, activation.budget.RunsOne := by
    intro activation hactivation
    obtain ⟨before, hbefore, -, hbudget⟩ := mem_endRace hactivation
    exact hbudget ▸ h before hbefore
  cases taken with
  | enqueue override =>
    unfold enqueueBackpressureTask
    dsimp only
    split
    · exact h
    · exact budgetsRun_runNext h
  | start hnext => exact h
  | settle | fire => exact hrace _ _
  | resume hactive hended =>
    exact budgetsRun_runNext fun other hother => h other (mem_of_mem_erase hother)

theorem notStranded_endRace (settlement : Settlement) (h : NotStranded state) :
    NotStranded { state with active := endRace job settlement state.active } := by
  intro hpending hactive
  exact h hpending (map_eq_nil_iff.mp hactive)

/-- A call whose concurrency is not a number leaves its job to whoever runs. -/
theorem enqueue_nan (state : QueueState) (hnan : override.concurrency = some .nan) :
    enqueueBackpressureTask queueName override state =
      push (budgetFor queueName override) state := by
  have hbudget : (budgetFor queueName override).concurrency = .nan := budgetFor_nan hnan
  have hsame := started_nil (budgetFor queueName override) (push (budgetFor queueName override) state)
  unfold enqueueBackpressureTask
  dsimp only
  rw [queueFull, hbudget, JsNumber.le_nan, Bool.false_and, if_neg Bool.false_ne_true,
    runNext_eq, hbudget, admitted_nan, remaining_nan, hsame]

/-- A step from a state in which nobody is stranded strands a job exactly if it is a
call whose concurrency is not a number and nothing runs. -/
theorem notStranded_step_iff (haccounted : Accounted state) (hbudgets : BudgetsRun state)
    (h : NotStranded state) (taken : QueueStep queueName state event next) :
    NotStranded next ↔ FindsRunning state event := by
  cases taken with
  | enqueue override =>
    by_cases hnan : override.concurrency = some .nan
    · rw [enqueue_nan state hnan]
      have hpending : (push (budgetFor queueName override) state).pending ≠ [] := by simp [push]
      have hactive : 0 < state.running ↔ state.active ≠ [] := by
        rw [haccounted.running, length_pos_iff]
      exact ⟨fun hnext _ => hactive.mpr (hnext hpending), fun hfinds _ => hactive.mp (hfinds hnan)⟩
    · refine iff_of_true ?_ fun h => absurd h hnan
      unfold enqueueBackpressureTask
      dsimp only
      split
      · exact h
      · exact notStranded_runNext haccounted.push (budgetFor_runsOne hnan)
  | start hnext => exact iff_of_true h trivial
  | settle | fire => exact iff_of_true (notStranded_endRace _ _ h) trivial
  | @resume activation settlement hactive hended =>
    exact iff_of_true (notStranded_runNext (haccounted.settleJob settlement hactive)
      (hbudgets activation hactive)) trivial

/-- Jobs are kept, in the order of their calls, and every promise is settled once. -/
structure Orderly (state : QueueState) : Prop where
  /-- The calls are numbered in their order. -/
  calls : (state.history.accepted.map Prod.fst).Pairwise (· < ·)
  order : state.history.started <+: state.history.accepted.map Prod.fst
  startedOnce : state.history.started.Nodup
  settledOnce : (state.history.settled.map Prod.fst).Nodup
  /-- An accepted job is pending, it runs or its promise has been settled. -/
  kept : (state.history.accepted.map Prod.fst).Perm
    (state.pending ++ (state.active.map (·.job) ++ state.history.settled.map Prod.fst))
  running : state.running = state.active.length
  refused : ∀ refusal ∈ state.history.refused,
    JsNumber.le refusal.budget.concurrency (.ofNat refusal.running) ∧
      JsNumber.le refusal.budget.maxPending (.ofNat refusal.pending)

theorem Accounted.orderly (h : Accounted state) : Orderly state where
  calls := h.increasing
  order := by
    rw [h.accepted, h.dequeued, append_assoc]
    exact prefix_append _ _
  startedOnce := h.nodup_started
  settledOnce := (nodup_append.mp h.nodup_owners).2.1
  kept := by
    rw [h.accepted]
    exact perm_append_comm.trans (h.owners.symm.append_left _)
  running := h.running
  refused := h.refused

/-- In every run jobs are kept in order, and no state of it leaves a job stranded exactly
if every call whose concurrency is not a number finds a job running. -/
theorem backpressureQueue_orderly {queueName : QueueName} {events : List QueueEvent}
    {state : QueueState} (run : QueueRun queueName events state) :
    Orderly state ∧
      (Run (Reaching NotStranded (Takes (queueStep? queueName))) {} events state ↔
        Run (Meeting FindsRunning (Takes (queueStep? queueName))) {} events state) := by
  refine ⟨(accounted_of_run run).orderly, ?_⟩
  refine Run.reaching_iff_meeting (fun state => Accounted state ∧ BudgetsRun state)
    (fun _ _ _ h taken => ?_) (fun _ _ _ h hgood taken => ?_) ⟨accounted_start, ?_⟩ ?_
  · exact ⟨h.1.step (queueStep_of_taken taken), budgetsRun_step h.2 (queueStep_of_taken taken)⟩
  · exact notStranded_step_iff h.1 h.2 hgood (queueStep_of_taken taken)
  · exact fun activation hactivation => absurd hactivation not_mem_nil
  · exact fun hpending => absurd rfl hpending

/-- Two calls for one place: the second job is started when the first has settled. -/
theorem queuedTwice_orderly :
    ∃ state, QueueRun .webBrowser [.enqueue {}, .enqueue {}, .start, .settle 0 true, .resume 0]
      state ∧ Orderly state ∧ NotStranded state := by
  obtain ⟨state, hstate⟩ : ∃ state, execute (queueStep? .webBrowser) {}
      [.enqueue {}, .enqueue {}, .start, .settle 0 true, .resume 0] = some state := ⟨_, rfl⟩
  have run := Run.of_execute hstate
  refine ⟨state, run, (backpressureQueue_orderly run).1, ?_⟩
  cases hstate
  decide +kernel

/-- A call whose concurrency is not a number waits although nothing runs. -/
theorem nanConcurrency_strands :
    ∃ state, QueueRun .webBrowser [.enqueue { concurrency := some .nan }] state ∧
      ¬ NotStranded state := by
  obtain ⟨state, hstate⟩ : ∃ state, execute (queueStep? .webBrowser) {}
      [.enqueue { concurrency := some .nan }] = some state := ⟨_, rfl⟩
  refine ⟨state, Run.of_execute hstate, ?_⟩
  cases hstate
  decide +kernel

/-! ## Whose budget a job is run with

A pending job does not carry the budget of its call. The places of a budget are given back when a
job times out, while its task goes on. -/

open JsNumber

/-! ## Timeouts -/

/-- Every job was taken from the queue with the timeout of its own call. -/
def OwnTimeouts (state : QueueState) : Prop :=
  ∀ job budget own, (job, budget) ∈ state.history.dequeued →
    (job, own) ∈ state.history.accepted → budget.timeoutMs = own.timeoutMs

/-- The pending jobs that a budget leaves room for have its timeout. -/
def Suits (budget : QueueBudget) (running : ℕ) (state : QueueState) : Prop :=
  ∀ job ∈ admitted budget.concurrency running state.pending, ∀ own,
    (job, own) ∈ state.history.accepted → budget.timeoutMs = own.timeoutMs

/-- The jobs a step takes from the queue have the timeout of the budget at hand. -/
def TakesOwn (queueName : QueueName) (state : QueueState) : QueueEvent → Prop
  | .enqueue override =>
    queueFull (budgetFor queueName override) state = false →
      Suits (budgetFor queueName override) state.running state
  | .resume job =>
    ∀ activation ∈ state.active, activation.job = job →
      Suits activation.budget (state.running - 1) state
  | _ => True

variable {budget : QueueBudget} {jobs left : List ℕ} {state : QueueState} {queueName : QueueName}
  {event : QueueEvent} {next : QueueState} {other : QueueBudget}

theorem ownTimeouts_started (h : OwnTimeouts state) :
    OwnTimeouts (started budget jobs left state) ↔
      ∀ job ∈ jobs, ∀ own, (job, own) ∈ state.history.accepted →
        budget.timeoutMs = own.timeoutMs := by
  constructor
  · intro hnext job hjob own hown
    exact hnext job budget own (mem_append_right _ (mem_map_of_mem hjob)) hown
  · intro hjobs job other own hdequeued hown
    rcases mem_append.mp hdequeued with hold | hnew
    · exact h job other own hold hown
    · obtain ⟨next, hnext, heq⟩ := mem_map.mp hnew
      obtain ⟨rfl, rfl⟩ := Prod.mk.inj heq
      exact hjobs next hnext own hown

/-- A call that is accepted changes nothing for the jobs before it. -/
theorem ownTimeouts_push (haccounted : Accounted state) (h : OwnTimeouts state) :
    OwnTimeouts (push budget state) := by
  intro job other own hdequeued hown
  rcases mem_append.mp hown with hold | hnew
  · exact h job other own hdequeued hold
  · cases mem_singleton.mp hnew
    have haccepted : state.calls ∈ state.history.accepted.map Prod.fst := by
      rw [haccounted.accepted]
      exact mem_append_left _ (mem_map_of_mem hdequeued)
    exact absurd (haccounted.below _ haccepted) (Nat.lt_irrefl _)

/-- The job of a call suits its own budget. -/
theorem suits_push (haccounted : Accounted state) :
    Suits budget state.running (push budget state) ↔ Suits budget state.running state := by
  constructor
  · intro h job hjob own hown
    exact h job (admitted_subset_append _ _ _ _ hjob) own (mem_append_left _ hown)
  · intro h job hjob own hown
    rcases mem_append.mp hown with hold | hnew
    · rcases mem_of_mem_admitted_append hjob with hbefore | rfl
      · exact h job hbefore own hold
      · exact absurd (haccounted.below _ (mem_map_of_mem hold)) (Nat.lt_irrefl _)
    · exact congrArg _ (Prod.mk.inj (mem_singleton.mp hnew)).2.symm

/-- A step keeps the timeouts right exactly if it takes jobs that suit it. -/
theorem ownTimeouts_step_iff (haccounted : Accounted state) (h : OwnTimeouts state)
    (taken : QueueStep queueName state event next) :
    OwnTimeouts next ↔ TakesOwn queueName state event := by
  cases taken with
  | enqueue override =>
    unfold enqueueBackpressureTask
    dsimp only
    split
    · next hfull => exact iff_of_true h fun hroom => absurd hfull (by rw [hroom]; exact Bool.false_ne_true)
    · next hroom =>
      rw [runNext_eq, ownTimeouts_started (ownTimeouts_push haccounted h)]
      refine (suits_push haccounted).trans ⟨fun hsuits _ => hsuits, fun htakes => ?_⟩
      exact htakes (Bool.eq_false_iff.mpr hroom)
  | start | settle | fire => exact iff_of_true h trivial
  | @resume activation settlement hactive hended =>
    have hsettled : OwnTimeouts (settleJob activation settlement state) := h
    rw [finishJob, runNext_eq, ownTimeouts_started hsettled]
    constructor
    · intro hsuits other hother hjob
      obtain rfl := inj_on_of_nodup_map haccounted.nodup_active hother hactive hjob
      exact hsuits
    · exact fun htakes => htakes activation hactive rfl

/-- In every run each job is run with the timeout of its own call exactly if every step
takes jobs from the queue whose timeouts are the one of the budget at hand. -/
theorem ownTimeouts_iff {queueName : QueueName} {events : List QueueEvent} {state : QueueState} :
    Run (Reaching OwnTimeouts (Takes (queueStep? queueName))) {} events state ↔
      Run (Meeting (TakesOwn queueName) (Takes (queueStep? queueName))) {} events state := by
  refine Run.reaching_iff_meeting Accounted (fun _ _ _ h taken => ?_)
    (fun _ _ _ h hgood taken => ?_) accounted_start ?_
  · exact h.step (queueStep_of_taken taken)
  · exact ownTimeouts_step_iff h hgood (queueStep_of_taken taken)
  · exact fun _ _ _ hdequeued => absurd hdequeued not_mem_nil

/-- The second job is started by the first one, and with its timeout. -/
theorem finisherTimeout_used :
    ∃ state, QueueRun .webBrowser
        [.enqueue { timeoutMs := some (.ofNat 5000) }, .enqueue { timeoutMs := some (.ofNat 10) },
          .start, .settle 0 true, .resume 0] state ∧ ¬ OwnTimeouts state := by
  obtain ⟨state, hstate⟩ : ∃ state, execute (queueStep? .webBrowser) {}
      [.enqueue { timeoutMs := some (.ofNat 5000) }, .enqueue { timeoutMs := some (.ofNat 10) },
        .start, .settle 0 true, .resume 0] = some state := ⟨_, rfl⟩
  refine ⟨state, Run.of_execute hstate, fun h => ?_⟩
  have hdequeued : (1, budgetFor .webBrowser { timeoutMs := some (.ofNat 5000) }) ∈
      state.history.dequeued := by
    cases hstate
    decide +kernel
  have haccepted : (1, budgetFor .webBrowser { timeoutMs := some (.ofNat 10) }) ∈
      state.history.accepted := by
    cases hstate
    decide +kernel
  exact absurd (h 1 _ _ hdequeued haccepted) (by decide +kernel)

/-! ## Concurrency -/

/-- The timer of a job has ended its race. -/
def TimedOut (state : QueueState) (job : ℕ) : Prop :=
  (job, .timeout) ∈ state.history.settled ∨
    ∃ activation ∈ state.active, activation.job = job ∧ activation.race = some .timeout

instance (state : QueueState) (job : ℕ) : Decidable (TimedOut state job) :=
  inferInstanceAs (Decidable (_ ∨ ∃ activation ∈ state.active, _ ∧ _))

/-- The race of a job is on. -/
def Racing (state : QueueState) (job : ℕ) : Prop :=
  ∃ activation ∈ state.active, activation.job = job ∧ activation.race = none

/-- The places of a budget that all calls share. -/
structure Placed (budget : QueueBudget) (state : QueueState) : Prop where
  budgets : ∀ activation ∈ state.active, activation.budget = budget
  room : JsNumber.lt budget.concurrency (.ofNat state.running) = false
  scheduled : ∀ job ∈ state.scheduled, Racing state job
  live : ∀ job ∈ state.live, TimedOut state job ∨ Racing state job

theorem placed_start (queueName : QueueName) (override : BudgetOverride) :
    Placed (budgetFor queueName override) {} := by
  refine ⟨by simp, ?_, by simp, by simp⟩
  exact not_max_lt (by decide)

variable {job : ℕ} {settlement : Settlement}

namespace Placed

variable {budget : QueueBudget} {state : QueueState}

theorem started (h : Placed budget state)
    (hroom : JsNumber.lt budget.concurrency (.ofNat (state.running + jobs.length)) = false) :
    Placed budget (started budget jobs left state) where
  budgets activation hactivation := by
    rcases mem_append.mp hactivation with hold | hnew
    · exact h.budgets activation hold
    · obtain ⟨job, -, rfl⟩ := mem_map.mp hnew
      rfl
  room := hroom
  scheduled job hjob := by
    rcases mem_append.mp hjob with hold | hnew
    · obtain ⟨activation, hactive, hsame⟩ := h.scheduled job hold
      exact ⟨activation, mem_append_left _ hactive, hsame⟩
    · exact ⟨⟨job, budget, none⟩, mem_append_right _ (mem_map_of_mem hnew), rfl, rfl⟩
  live job hjob := by
    refine (h.live job hjob).imp (Or.imp_right ?_) ?_
    all_goals
      rintro ⟨activation, hactive, hsame⟩
      exact ⟨activation, mem_append_left _ hactive, hsame⟩

/-- The loop takes no more jobs than there are places. -/
theorem runNext (hwhole : JsNumber.floor budget.concurrency = budget.concurrency)
    (h : Placed budget state) : Placed budget (runNext budget state) := by
  rw [runNext_eq]
  refine h.started ?_
  cases htaken : (admitted budget.concurrency state.running state.pending).length with
  | zero => exact h.room
  | succ taken => exact not_lt_succ hwhole (room_of_admitted htaken)

theorem refuse (h : Placed budget state) : Placed budget (refuse other state) where
  __ := h

theorem push (h : Placed budget state) : Placed budget (push other state) where
  __ := h

/-- The end of one race leaves the others on. -/
theorem racing_endRace {other : ℕ} (h : Racing state other) (hne : other ≠ job) :
    Racing { state with active := Runs.endRace job settlement state.active } other := by
  obtain ⟨activation, hactive, rfl, hrace⟩ := h
  refine ⟨activation, mem_map.mpr ⟨activation, hactive, ?_⟩, rfl, hrace⟩
  rw [if_neg hne]

theorem timedOut_endRace {other : ℕ} (h : TimedOut state other) :
    TimedOut { state with active := Runs.endRace job settlement state.active } other := by
  refine h.imp_right ?_
  rintro ⟨activation, hactive, rfl, hrace⟩
  refine ⟨activation, mem_map.mpr ⟨activation, hactive, ?_⟩, rfl, hrace⟩
  split
  · cases activation
    simp_all
  · rfl

/-- A timer ends the race of its job. -/
theorem timedOut_fire (h : Racing state job) :
    TimedOut { state with active := Runs.endRace job .timeout state.active } job := by
  obtain ⟨activation, hactive, rfl, hrace⟩ := h
  refine Or.inr ⟨{ activation with race := some .timeout }, mem_map.mpr
    ⟨activation, hactive, ?_⟩, rfl, rfl⟩
  rw [if_pos rfl, hrace]
  rfl

theorem budgets_endRace (h : Placed budget state) :
    ∀ activation ∈ Runs.endRace job settlement state.active, activation.budget = budget := by
  intro activation hactivation
  obtain ⟨before, hbefore, -, hbudget⟩ := mem_endRace hactivation
  exact hbudget ▸ h.budgets before hbefore

/-- A job whose promise is settled was racing no more. -/
theorem settleJob {activation : Activation} (h : Placed budget state)
    (hactive : activation ∈ state.active) (hended : activation.race = some settlement) :
    Placed budget (settleJob activation settlement state) := by
  have hracing {job : ℕ} (hjob : Racing state job) :
      Racing (Runs.settleJob activation settlement state) job := by
    obtain ⟨other, hother, hsame, hrace⟩ := hjob
    have hne : other ≠ activation := by
      rintro rfl
      rw [hended] at hrace
      cases hrace
    exact ⟨other, (mem_erase_of_ne hne).mpr hother, hsame, hrace⟩
  have htimedOut {job : ℕ} (hjob : TimedOut state job) :
      TimedOut (Runs.settleJob activation settlement state) job := by
    rcases hjob with hold | ⟨other, hother, rfl, hrace⟩
    · exact Or.inl (mem_append_left _ hold)
    · by_cases heq : other = activation
      · subst heq
        cases hended.symm.trans hrace
        exact Or.inl (mem_append_cons_self)
      · exact Or.inr ⟨other, (mem_erase_of_ne heq).mpr hother, rfl, hrace⟩
  exact {
    budgets := fun other hother => h.budgets other (mem_of_mem_erase hother)
    room := not_lt_of_le (Nat.sub_le _ _) h.room
    scheduled := fun job hjob => hracing (h.scheduled job hjob)
    live := fun job hjob => (h.live job hjob).imp htimedOut hracing }

end Placed

/-- All calls of a run have the same budget. -/
def SameBudget (queueName : QueueName) (budget : QueueBudget) : QueueEvent → Prop
  | .enqueue override => budgetFor queueName override = budget
  | _ => True

theorem placed_step (hwhole : JsNumber.floor budget.concurrency = budget.concurrency)
    (haccounted : Accounted state) (h : Placed budget state)
    (hsame : SameBudget queueName budget event) (taken : QueueStep queueName state event next) :
    Placed budget next := by
  cases taken with
  | enqueue override =>
    obtain rfl := hsame
    unfold enqueueBackpressureTask
    dsimp only
    split
    · exact h.refuse
    · exact h.push.runNext hwhole
  | @start job rest hnext =>
    exact { h with
      scheduled := fun other hother => h.scheduled other (hnext ▸ mem_cons_of_mem _ hother)
      live := fun other hother => by
        rcases mem_append.mp hother with hold | hnew
        · exact h.live other hold
        · obtain rfl := mem_singleton.mp hnew
          exact Or.inr (h.scheduled other (hnext ▸ mem_cons_self)) }
  | @settle job succeeds hlive =>
    -- A task that is live is started once, so it is neither scheduled nor live twice.
    have hnodup : (state.history.started ++ state.scheduled).Nodup :=
      haccounted.dequeued ▸ haccounted.nodup_dequeued
    have hscheduled : ∀ other ∈ state.scheduled, other ≠ job := by
      rintro other hother rfl
      exact (nodup_append.mp hnodup).2.2 other (haccounted.live.subset hlive) other hother rfl
    have hother : ∀ other ∈ state.live.erase job, other ≠ job := by
      intro other hother
      exact ((haccounted.nodup_started.sublist haccounted.live).mem_erase_iff.mp hother).1
    exact {
      budgets := h.budgets_endRace
      room := h.room
      scheduled := fun other hscheduled' =>
        Placed.racing_endRace (h.scheduled other hscheduled') (hscheduled other hscheduled')
      live := fun other hlive' =>
        (h.live other (mem_of_mem_erase hlive')).imp Placed.timedOut_endRace
          fun hracing => Placed.racing_endRace hracing (hother other hlive') }
  | @fire job hactive hstarted =>
    exact {
      budgets := h.budgets_endRace
      room := h.room
      scheduled := fun other hother => Placed.racing_endRace (h.scheduled other hother)
        fun heq => hstarted (heq ▸ hother)
      live := fun other hother => by
        rcases h.live other hother with htimedOut | hracing
        · exact Or.inl (Placed.timedOut_endRace htimedOut)
        · by_cases heq : other = job
          · subst heq
            exact Or.inl (Placed.timedOut_fire hracing)
          · exact Or.inr (Placed.racing_endRace hracing heq) }
  | @resume activation settlement hactive hended =>
    rw [finishJob, h.budgets activation hactive]
    exact (h.settleJob hactive hended).runNext hwhole

theorem floor_budgetFor (queueName : QueueName) (override : BudgetOverride) :
    JsNumber.floor (budgetFor queueName override).concurrency =
      (budgetFor queueName override).concurrency :=
  floor_max (by simp [JsNumber.floor, JsNumber.ofNat]) (floor_floor _)

/-- Where all calls have the same budget, the tasks that have been started, have not
settled and have not timed out are no more than its concurrency. -/
theorem concurrency_bounded {queueName : QueueName} {override : BudgetOverride}
    {events : List QueueEvent} {state : QueueState} (run : QueueRun queueName events state)
    (hsame : ∀ event ∈ events, SameBudget queueName (budgetFor queueName override) event) :
    JsNumber.lt (budgetFor queueName override).concurrency
      (.ofNat (state.live.filter fun job => ¬ TimedOut state job).length) = false := by
  have hplaced : Placed (budgetFor queueName override) state := by
    refine (run.invariant_of_labels
      (fun state => Accounted state ∧ Placed (budgetFor queueName override) state)
      (fun _ _ _ h hevent taken => ?_)
      ⟨accounted_start, placed_start queueName override⟩ hsame).2
    exact ⟨h.1.step (queueStep_of_taken taken), placed_step (floor_budgetFor queueName override)
      h.1 h.2 hevent (queueStep_of_taken taken)⟩
  have haccounted := accounted_of_run run
  have hnodup : (state.live.filter fun job => ¬ TimedOut state job).Nodup :=
    (haccounted.nodup_started.sublist haccounted.live).filter _
  have hsubset : (state.live.filter fun job => ¬ TimedOut state job) ⊆
      state.active.map (·.job) := by
    intro job hjob
    obtain ⟨hlive, hrace⟩ := mem_filter.mp hjob
    obtain ⟨activation, hactive, rfl, -⟩ :=
      (hplaced.live job hlive).resolve_left (by simpa using hrace)
    exact mem_map_of_mem hactive
  have hlength := (subperm_of_subset hnodup hsubset).length_le
  rw [length_map, ← haccounted.running] at hlength
  exact not_lt_of_le hlength hplaced.room

/-- Two calls for the one place of a queue, the first of which times out. -/
def timeoutThenCall : List QueueEvent :=
  [.enqueue {}, .start, .fire 0, .resume 0, .enqueue {}, .start]

theorem sameBudget_timeoutThenCall :
    ∀ event ∈ timeoutThenCall, SameBudget .webBrowser (budgetFor .webBrowser {}) event := by
  intro event hevent
  simp only [timeoutThenCall, mem_cons, not_mem_nil, or_false] at hevent
  rcases hevent with rfl | rfl | rfl | rfl | rfl | rfl
  all_goals first | rfl | trivial

/-- Of the two tasks that go on only the second counts. -/
theorem timeoutThenCall_bounded :
    ∃ state, QueueRun .webBrowser timeoutThenCall state ∧
      JsNumber.lt (budgetFor .webBrowser {}).concurrency
        (.ofNat (state.live.filter fun job => ¬ TimedOut state job).length) = false := by
  obtain ⟨state, hstate⟩ : ∃ state, execute (queueStep? .webBrowser) {} timeoutThenCall =
      some state := ⟨_, rfl⟩
  have run := Run.of_execute hstate
  exact ⟨state, run, concurrency_bounded run sameBudget_timeoutThenCall⟩

/-- Two tasks at a time where there is one place: the first has timed out and goes on. -/
theorem timedOut_goesOn :
    ∃ state, QueueRun .webBrowser timeoutThenCall state ∧
      (∀ event ∈ timeoutThenCall, SameBudget .webBrowser (budgetFor .webBrowser {}) event) ∧
      JsNumber.lt (budgetFor .webBrowser {}).concurrency (.ofNat state.live.length) = true := by
  obtain ⟨state, hstate⟩ : ∃ state, execute (queueStep? .webBrowser) {} timeoutThenCall =
      some state := ⟨_, rfl⟩
  refine ⟨state, Run.of_execute hstate, sameBudget_timeoutThenCall, ?_⟩
  cases hstate
  decide +kernel

end Nobie.Runs
