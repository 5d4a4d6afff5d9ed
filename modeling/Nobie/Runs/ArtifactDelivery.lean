/-
# Artifacts delivered once

A call delivers an artifact of a run on a channel by running a task, unless the artifact is
taken for delivered: its key is among the completed keys that the process remembers, its run
has a receipt for it, or the last delivery receipt of the run's request group names it. A call
that finds another call's task under way waits for it and gives up. The tasks and the calls
that gave up are listed beside what the process and its database keep.
-/

import Mathlib.Logic.Function.Basic
import Nobie.Foundation.JsString
import Nobie.Foundation.Transition

namespace Nobie.Runs.ArtifactDelivery

open Foundation List JsString

/-! ## Artifacts and their keys -/

/-- An artifact of a run, on a channel. -/
structure Delivery where
  (runId channel filePath : JsString)
  deriving DecidableEq

def colon : CodeUnit := codeUnit 58

variable (delivery : Delivery) (key home : JsString)

def buildArtifactDeliveryKey : JsString :=
  delivery.runId ++ colon :: (delivery.channel ++ colon :: delivery.filePath)

def displayHomePath (home value : JsString) : JsString :=
  if value.take home.length = home then ofString "~" ++ value.drop home.length else value

/-- The line that a continuity receipt has for a file of a channel. -/
def receiptLine (channel text : JsString) : JsString := channel ++ colon :: text

/-! ## The state -/

structure RootRun where
  requestGroupId : JsString
  lineageRootRunId : Option JsString

/-- A task under way: whether its run was known, and the calls that wait for it. -/
structure Attempt where
  delivery : Delivery
  run : Option RootRun
  waiters : List Delivery := []

structure DeliveryState where
  runs : JsString → Option RootRun
  receipts : List Delivery := []
  continuity : JsString → Option JsString := fun _ => none
  completedKeys : List JsString := []
  active : List Attempt := []
  returned : List Delivery := []
  suppressed : List Delivery := []

inductive TaskOutcome
  | result | nothing | rejected

def maxCompletedArtifactDeliveryKeys : ℕ := 2000

/-- A key keeps its place in the map. -/
def setKey (keys : List JsString) (key : JsString) : List JsString :=
  if isAmong keys key then keys else keys ++ [key]

/-- `completedArtifactDeliveryKeys.set`, and the oldest key goes where there are too many. -/
def rememberCompletedArtifactDelivery (keys : List JsString) (key : JsString) : List JsString :=
  let remembered := setKey keys key
  if remembered.length ≤ maxCompletedArtifactDeliveryKeys then remembered else remembered.tail

namespace DeliveryState

variable (state : DeliveryState)

/-! ## Calls -/

/-- The run's own receipt table has the artifact. -/
def hasArtifactReceipt (delivery : Delivery) : Bool :=
  (state.runs delivery.runId).isSome && isAmong state.receipts delivery

/-- The last delivery receipt of the run's request group names the artifact. -/
def continuityNames (home : JsString) (delivery : Delivery) : Bool :=
  match state.runs delivery.runId with
  | none => false
  | some run =>
    match state.continuity run.requestGroupId with
    | none => false
    | some receipt =>
      isAmong [receiptLine delivery.channel delivery.filePath,
        receiptLine delivery.channel (displayHomePath home delivery.filePath)] receipt

def isCompleted (delivery : Delivery) : Bool :=
  isAmong state.completedKeys (buildArtifactDeliveryKey delivery)

/-- The artifact is taken for delivered. -/
def takesForDelivered (home : JsString) (delivery : Delivery) : Bool :=
  state.isCompleted delivery || state.hasArtifactReceipt delivery ||
    state.continuityNames home delivery

def suppress (delivery : Delivery) : DeliveryState :=
  { state with suppressed := state.suppressed ++ [delivery] }

def remember (delivery : Delivery) : DeliveryState :=
  { state with completedKeys :=
      rememberCompletedArtifactDelivery state.completedKeys (buildArtifactDeliveryKey delivery) }

def addWaiter (key : JsString) (delivery : Delivery) : DeliveryState :=
  { state with active := state.active.map fun attempt =>
      if buildArtifactDeliveryKey attempt.delivery = key then
        { attempt with waiters := attempt.waiters ++ [delivery] }
      else attempt }

def hasActive (delivery : Delivery) : Bool :=
  state.active.any fun attempt =>
    buildArtifactDeliveryKey attempt.delivery = buildArtifactDeliveryKey delivery

def startTask (delivery : Delivery) : DeliveryState :=
  { state with active := state.active ++ [⟨delivery, state.runs delivery.runId, []⟩] }

/-- `deliverArtifactOnce` of a run, without force, up to its first wait. -/
def deliverArtifactOnce (home : JsString) (delivery : Delivery) : DeliveryState :=
  if state.isCompleted delivery then state.suppress delivery
  else if state.hasArtifactReceipt delivery then (state.remember delivery).suppress delivery
  else if state.continuityNames home delivery then (state.remember delivery).suppress delivery
  else if state.hasActive delivery then
    state.addWaiter (buildArtifactDeliveryKey delivery) delivery
  else state.startTask delivery

/-- A task settles: its result is remembered, and the calls that wait for it give up. -/
def settle (place : ℕ) (attempt : Attempt) (outcome : TaskOutcome) (persisted : Bool) :
    DeliveryState :=
  let settled := { state with
    active := state.active.eraseIdx place
    suppressed := state.suppressed ++ attempt.waiters }
  match outcome with
  | .result =>
    let receipt := if attempt.run.isSome && persisted then [attempt.delivery] else []
    { settled.remember attempt.delivery with
      receipts := state.receipts ++ receipt
      returned := state.returned ++ [attempt.delivery] }
  | .nothing | .rejected => settled

/-! ## Receipts of the channels -/

def rememberDeliveryContinuity (runId receipt : JsString) : DeliveryState :=
  match state.runs runId with
  | none => state
  | some run => { state with
      continuity := Function.update state.continuity
        (run.lineageRootRunId.getD run.requestGroupId) (some receipt) }

end DeliveryState

structure SuccessfulFileDelivery where
  (toolName channel filePath : JsString)
  deriving DecidableEq

/-- One artifact of a chunk receipt, unless it is recorded already. -/
def applyArtifact (home runId : JsString)
    (recorded : List SuccessfulFileDelivery × DeliveryState) (delivery : SuccessfulFileDelivery) :
    List SuccessfulFileDelivery × DeliveryState :=
  if isAmong recorded.1 delivery then recorded
  else (recorded.1 ++ [delivery], recorded.2.rememberDeliveryContinuity runId
    (receiptLine delivery.channel (displayHomePath home delivery.filePath)))

/-- The artifacts of `applyChunkDeliveryReceipt`. -/
def applyChunkDeliveryReceipt (home runId : JsString)
    (successfulFileDeliveries artifactDeliveries : List SuccessfulFileDelivery)
    (state : DeliveryState) : DeliveryState :=
  (artifactDeliveries.foldl (applyArtifact home runId) (successfulFileDeliveries, state)).2

/-! ## Steps -/

/-- A call comes in with the run id it was given, a task settles, a chunk receipt or a text is
recorded, a row of the run table is written or deleted, and the process starts again. -/
inductive DeliveryStep
  | call (runId : Option JsString) (channel filePath : JsString)
  | settle (place : ℕ) (outcome : TaskOutcome) (persisted : Bool)
  | applyReceipt (runId : JsString) (successful artifacts : List SuccessfulFileDelivery)
  | applyText (runId channel : JsString)
  | setRun (runId : JsString) (run : Option RootRun)
  | restart

/-- The artifact of a call that names a run. -/
def callDelivery? (runId : Option JsString) (channel filePath : JsString) : Option Delivery :=
  match runId with
  | none => none
  | some text => if trim text = [] then none
      else some ⟨trim text, channel, filePath⟩

/-- A step; a call without a run runs its task and leaves no trace. -/
def deliveryStep? (state : DeliveryState) : DeliveryStep → Option DeliveryState
  | .call runId channel filePath =>
    match callDelivery? runId channel filePath with
    | none => some state
    | some delivery => some (state.deliverArtifactOnce home delivery)
  | .settle place outcome persisted =>
    match state.active[place]? with
    | none => none
    | some attempt => some (state.settle place attempt outcome persisted)
  | .applyReceipt runId successful artifacts =>
    some (applyChunkDeliveryReceipt home runId successful artifacts state)
  | .applyText runId channel =>
    some (state.rememberDeliveryContinuity runId (receiptLine channel (ofString "text")))
  | .setRun runId run => some { state with runs := Function.update state.runs runId run }
  | .restart => some { state with completedKeys := [], active := [] }

/-- The runs are known; nothing is delivered yet. -/
def startState (runs : JsString → Option RootRun) (continuity : JsString → Option JsString) :
    DeliveryState where
  runs := runs
  continuity := continuity

/-! ## What is asked of deliveries -/

/-- A task returns a result for an artifact once, no task is under way for an artifact that is
delivered, and a call gives up only where its own artifact is delivered. -/
structure DeliveredOnce (state : DeliveryState) : Prop where
  once : state.returned.Nodup
  running : ∀ attempt ∈ state.active, attempt.delivery ∉ state.returned
  backed : ∀ delivery ∈ state.suppressed, delivery ∈ state.returned

/-- What is remembered tells the artifacts of a call from those that are not delivered: a key or
a continuity receipt that is found is for its own artifact, a delivered artifact is found, and
the task that a call waits for is that of its own artifact and returns a result. -/
def MemoryIsOwn (state : DeliveryState) : DeliveryStep → Prop
  | .call runId channel filePath => ∀ delivery,
      callDelivery? runId channel filePath = some delivery →
      (state.isCompleted delivery ∨ state.continuityNames home delivery →
        delivery ∈ state.returned) ∧
      (state.takesForDelivered home delivery = false → state.hasActive delivery = false →
        delivery ∉ state.returned)
  | .settle place outcome _ => ∀ attempt, state.active[place]? = some attempt →
      ∀ waiter ∈ attempt.waiters, waiter ∈ state.returned ∨
        outcome = .result ∧ waiter = attempt.delivery
  | _ => True

/-! ## Tables and locks -/

/-- Receipts are for artifacts that were delivered, and no two tasks under way have one key. -/
structure Tables (state : DeliveryState) : Prop where
  receipts : ∀ delivery ∈ state.receipts, delivery ∈ state.returned
  locks : (state.active.map fun attempt => buildArtifactDeliveryKey attempt.delivery).Nodup

/-- A state with the same logs, tasks and receipts. -/
structure SameDeliveries (state next : DeliveryState) : Prop where
  receipts : next.receipts = state.receipts
  active : next.active = state.active
  returned : next.returned = state.returned
  suppressed : next.suppressed = state.suppressed

theorem SameDeliveries.trans {first second third : DeliveryState} (h : SameDeliveries first second)
    (h' : SameDeliveries second third) : SameDeliveries first third :=
  ⟨h'.receipts.trans h.receipts, h'.active.trans h.active, h'.returned.trans h.returned,
    h'.suppressed.trans h.suppressed⟩

variable {state next : DeliveryState}

theorem SameDeliveries.tables (h : SameDeliveries state next) (htables : Tables state) :
    Tables next where
  receipts := by
    rw [h.receipts, h.returned]
    exact htables.receipts
  locks := by
    rw [h.active]
    exact htables.locks

theorem SameDeliveries.deliveredOnce_iff (h : SameDeliveries state next) :
    DeliveredOnce next ↔ DeliveredOnce state := by
  constructor
  · rintro ⟨honce, hrunning, hbacked⟩
    rw [h.returned] at honce hrunning hbacked
    rw [h.active] at hrunning
    rw [h.suppressed] at hbacked
    exact ⟨honce, hrunning, hbacked⟩
  · rintro ⟨honce, hrunning, hbacked⟩
    refine ⟨?_, ?_, ?_⟩
    · rwa [h.returned]
    · rwa [h.active, h.returned]
    · rwa [h.suppressed, h.returned]

variable {place : ℕ} {attempt : Attempt}

namespace DeliveryState

variable (home : JsString) (state : DeliveryState)

theorem sameDeliveries_rememberContinuity (runId receipt : JsString) :
    SameDeliveries state (state.rememberDeliveryContinuity runId receipt) := by
  unfold rememberDeliveryContinuity
  split <;> exact ⟨rfl, rfl, rfl, rfl⟩

theorem sameDeliveries_applyReceipt (runId : JsString)
    (successful artifacts : List SuccessfulFileDelivery) :
    SameDeliveries state (applyChunkDeliveryReceipt home runId successful artifacts state) := by
  unfold applyChunkDeliveryReceipt
  induction artifacts generalizing successful state with
  | nil => exact ⟨rfl, rfl, rfl, rfl⟩
  | cons first rest ih =>
    rw [foldl_cons]
    unfold applyArtifact
    split
    · exact ih state successful
    · exact (state.sameDeliveries_rememberContinuity runId _).trans (ih _ _)

/-! ## Calls -/

theorem hasActive_iff {delivery : Delivery} :
    state.hasActive delivery ↔ ∃ attempt ∈ state.active,
      buildArtifactDeliveryKey attempt.delivery = buildArtifactDeliveryKey delivery := by
  unfold hasActive
  rw [any_eq_true]
  exact exists_congr fun attempt => and_congr_right fun _ => decide_eq_true_iff

/-- What a call comes to. -/
theorem deliverArtifactOnce_cases (delivery : Delivery) :
    (state.takesForDelivered home delivery ∧ SameDeliveries (state.suppress delivery)
        (state.deliverArtifactOnce home delivery)) ∨
      (state.takesForDelivered home delivery = false ∧ state.hasActive delivery ∧
        state.deliverArtifactOnce home delivery =
          state.addWaiter (buildArtifactDeliveryKey delivery) delivery) ∨
      state.takesForDelivered home delivery = false ∧ state.hasActive delivery = false ∧
        state.deliverArtifactOnce home delivery = state.startTask delivery := by
  unfold takesForDelivered deliverArtifactOnce
  cases state.isCompleted delivery with
  | true => exact .inl ⟨rfl, ⟨rfl, rfl, rfl, rfl⟩⟩
  | false =>
    cases state.hasArtifactReceipt delivery with
    | true => exact .inl ⟨rfl, ⟨rfl, rfl, rfl, rfl⟩⟩
    | false =>
      cases state.continuityNames home delivery with
      | true => exact .inl ⟨rfl, ⟨rfl, rfl, rfl, rfl⟩⟩
      | false =>
        cases hactive : state.hasActive delivery with
        | true => exact .inr (.inl ⟨rfl, rfl, rfl⟩)
        | false => exact .inr (.inr ⟨rfl, rfl, rfl⟩)

theorem keys_addWaiter (key : JsString) (delivery : Delivery) :
    (state.addWaiter key delivery).active.map Attempt.delivery =
      state.active.map Attempt.delivery := by
  unfold addWaiter
  rw [map_map]
  refine map_congr_left fun attempt _ => ?_
  rw [Function.comp_apply]
  split <;> rfl

variable {state}

theorem deliveredOnce_suppress_iff (h : DeliveredOnce state) (delivery : Delivery) :
    DeliveredOnce (state.suppress delivery) ↔ delivery ∈ state.returned := by
  constructor
  · intro hafter
    exact hafter.backed delivery (mem_append_cons_self)
  · intro hown
    refine ⟨h.once, h.running, fun other hother => ?_⟩
    rcases mem_append.mp hother with hbefore | hnew
    · exact h.backed other hbefore
    · rw [mem_singleton.mp hnew]
      exact hown

theorem deliveredOnce_startTask_iff (h : DeliveredOnce state) (delivery : Delivery) :
    DeliveredOnce (state.startTask delivery) ↔ delivery ∉ state.returned := by
  constructor
  · intro hafter
    exact hafter.running ⟨delivery, state.runs delivery.runId, []⟩ (mem_append_cons_self)
  · intro hnew
    refine ⟨h.once, fun attempt hattempt => ?_, h.backed⟩
    rcases mem_append.mp hattempt with hbefore | hown
    · exact h.running attempt hbefore
    · rw [mem_singleton.mp hown]
      exact hnew

theorem deliveredOnce_addWaiter (h : DeliveredOnce state) (key : JsString)
    (delivery : Delivery) : DeliveredOnce (state.addWaiter key delivery) := by
  refine ⟨h.once, fun attempt hattempt => ?_, h.backed⟩
  have hmem : attempt.delivery ∈ state.active.map Attempt.delivery := by
    rw [← state.keys_addWaiter key delivery]
    exact mem_map_of_mem hattempt
  obtain ⟨before, hbefore, hsame⟩ := mem_map.mp hmem
  rw [← hsame]
  exact h.running before hbefore

/-- A call keeps deliveries right just where what it finds is for its own artifact. -/
theorem deliveredOnce_call_iff (htables : Tables state) (h : DeliveredOnce state)
    (delivery : Delivery) :
    DeliveredOnce (state.deliverArtifactOnce home delivery) ↔
      (state.isCompleted delivery ∨ state.continuityNames home delivery →
        delivery ∈ state.returned) ∧
      (state.takesForDelivered home delivery = false → state.hasActive delivery = false →
        delivery ∉ state.returned) := by
  obtain ⟨htakes, hsame⟩ | ⟨htakes, hactive, hnext⟩ | ⟨htakes, hactive, hnext⟩ :=
    state.deliverArtifactOnce_cases home delivery
  · rw [hsame.deliveredOnce_iff, deliveredOnce_suppress_iff h]
    constructor
    · intro hown
      exact ⟨fun _ => hown, fun hnot => absurd (hnot.symm.trans htakes) Bool.false_ne_true⟩
    · rintro ⟨hown, -⟩
      unfold takesForDelivered at htakes
      rw [Bool.or_eq_true, Bool.or_eq_true] at htakes
      rcases htakes with (hcompleted | hreceipt) | hcontinuity
      · exact hown (.inl hcompleted)
      · -- A receipt is for the run's own artifact.
        exact htables.receipts delivery (isAmong_iff.mp (Bool.and_eq_true_iff.mp hreceipt).2)
      · exact hown (.inr hcontinuity)
  · rw [hnext]
    refine iff_of_true (deliveredOnce_addWaiter h _ delivery) ⟨fun hfound => ?_, fun _ hnone => ?_⟩
    · unfold takesForDelivered at htakes
      simp only [Bool.or_eq_false_iff] at htakes
      rcases hfound with hcompleted | hcontinuity
      · cases htakes.1.1.symm.trans hcompleted
      · cases htakes.2.symm.trans hcontinuity
    · cases hnone.symm.trans hactive
  · rw [hnext, deliveredOnce_startTask_iff h]
    constructor
    · intro hnew
      refine ⟨fun hfound => ?_, fun _ _ => hnew⟩
      unfold takesForDelivered at htakes
      simp only [Bool.or_eq_false_iff] at htakes
      rcases hfound with hcompleted | hcontinuity
      · cases htakes.1.1.symm.trans hcompleted
      · cases htakes.2.symm.trans hcontinuity
    · rintro ⟨-, hnew⟩
      exact hnew htakes hactive

/-! ## Tasks that settle -/

/-- The other tasks under way are for other artifacts. -/
theorem delivery_ne_of_mem_eraseIdx (htables : Tables state) {other : Attempt}
    (hattempt : state.active[place]? = some attempt) (hother : other ∈ state.active.eraseIdx place)
    :
    other.delivery ≠ attempt.delivery := by
  intro hsame
  obtain ⟨index, hne, hindex⟩ := mem_eraseIdx_iff_getElem?.mp hother
  obtain ⟨hlength, -⟩ := List.getElem?_eq_some_iff.mp hindex
  refine hne ((getElem?_inj (by rwa [length_map]) htables.locks).mp ?_)
  rw [getElem?_map, getElem?_map, hindex, hattempt, Option.map_some, Option.map_some, hsame]

/-- A task that returns nothing leaves the artifacts delivered as they are. -/
theorem deliveredOnce_giveUp_iff (h : DeliveredOnce state)
    (hactive : next.active = state.active.eraseIdx place)
    (hreturned : next.returned = state.returned)
    (hsuppressed : next.suppressed = state.suppressed ++ attempt.waiters) :
    DeliveredOnce next ↔ ∀ waiter ∈ attempt.waiters, waiter ∈ state.returned := by
  constructor
  · intro hafter waiter hwaiter
    rw [← hreturned]
    exact hafter.backed waiter (by rw [hsuppressed]; exact mem_append_right _ hwaiter)
  · intro hbacked
    refine ⟨by rw [hreturned]; exact h.once, fun other hother => ?_, fun delivery hdelivery => ?_⟩
    · rw [hactive] at hother
      rw [hreturned]
      exact h.running other (mem_of_mem_eraseIdx hother)
    · rw [hsuppressed, mem_append] at hdelivery
      rw [hreturned]
      exact hdelivery.elim (h.backed delivery) (hbacked delivery)

/-- A task settles right just where the calls that wait for it wait for their own artifact. -/
theorem deliveredOnce_settle_iff (htables : Tables state) (h : DeliveredOnce state)
    (hattempt : state.active[place]? = some attempt) (outcome : TaskOutcome) (persisted : Bool) :
    DeliveredOnce (state.settle place attempt outcome persisted) ↔
      ∀ waiter ∈ attempt.waiters, waiter ∈ state.returned ∨
        outcome = .result ∧ waiter = attempt.delivery := by
  have hmem : attempt ∈ state.active := mem_of_getElem? hattempt
  have hfailed (hne : outcome ≠ .result) : (∀ waiter ∈ attempt.waiters, waiter ∈ state.returned) ↔
      ∀ waiter ∈ attempt.waiters, waiter ∈ state.returned ∨
        outcome = .result ∧ waiter = attempt.delivery :=
    forall₂_congr fun waiter _ => (or_iff_left fun hresult => hne hresult.1).symm
  cases outcome with
  | nothing | rejected =>
    rw [← hfailed TaskOutcome.noConfusion]
    exact deliveredOnce_giveUp_iff h rfl rfl rfl
  | result =>
    have hreturned : (state.settle place attempt .result persisted).returned =
        state.returned ++ [attempt.delivery] := rfl
    have hsuppressed : (state.settle place attempt .result persisted).suppressed =
        state.suppressed ++ attempt.waiters := rfl
    have hafter {delivery : Delivery} :
        delivery ∈ (state.settle place attempt .result persisted).returned ↔
          delivery ∈ state.returned ∨ delivery = attempt.delivery := by
      rw [hreturned, mem_append, mem_singleton]
    constructor
    · intro hright waiter hwaiter
      have hbacked := hright.backed waiter (by
        rw [hsuppressed]
        exact mem_append_right _ hwaiter)
      exact (hafter.mp hbacked).imp_right fun hown => ⟨rfl, hown⟩
    · intro hwaiters
      refine ⟨?_, fun other hother => ?_, fun delivery hdelivery => ?_⟩
      · rw [hreturned]
        refine nodup_append.mpr ⟨h.once, nodup_singleton _, ?_⟩
        intro before hbefore own hown hsame
        rw [mem_singleton.mp hown] at hsame
        exact h.running attempt hmem (hsame ▸ hbefore)
      · have hne := delivery_ne_of_mem_eraseIdx htables hattempt hother
        rw [hafter, not_or]
        exact ⟨h.running other (mem_of_mem_eraseIdx hother), hne⟩
      · rw [hsuppressed, mem_append] at hdelivery
        rw [hafter]
        rcases hdelivery with hbefore | hwaiter
        · exact .inl (h.backed delivery hbefore)
        · exact (hwaiters delivery hwaiter).imp_right And.right

end DeliveryState

/-! ## Runs -/

theorem tables_step {home : JsString} {step : DeliveryStep} (h : Tables state)
    (hnext : deliveryStep? home state step = some next) : Tables next := by
  cases step with
  | call runId channel filePath =>
    simp only [deliveryStep?] at hnext
    split at hnext
    · cases hnext
      exact h
    · next delivery hdelivery =>
      cases hnext
      obtain ⟨-, hsame⟩ | ⟨-, -, hnext⟩ | ⟨-, hactive, hnext⟩ :=
        state.deliverArtifactOnce_cases home delivery
      · exact hsame.tables ⟨h.receipts, h.locks⟩
      · rw [hnext]
        refine ⟨h.receipts, ?_⟩
        have hkeys := congrArg (List.map buildArtifactDeliveryKey)
          (state.keys_addWaiter (buildArtifactDeliveryKey delivery) delivery)
        rw [map_map, map_map] at hkeys
        exact hkeys ▸ h.locks
      · rw [hnext]
        refine ⟨h.receipts, ?_⟩
        unfold DeliveryState.startTask
        rw [map_append]
        refine nodup_append.mpr ⟨h.locks, nodup_singleton _, ?_⟩
        intro key hkey own hown hsame
        obtain ⟨attempt, hattempt, hattemptKey⟩ := mem_map.mp hkey
        rw [map_singleton, mem_singleton] at hown
        have hfound := state.hasActive_iff.mpr
          ⟨attempt, hattempt, hattemptKey.trans (hsame.trans hown)⟩
        cases hactive.symm.trans hfound
  | settle place outcome persisted =>
    simp only [deliveryStep?] at hnext
    split at hnext
    · cases hnext
    · next attempt hattempt =>
      cases hnext
      have hlocks : ((state.active.eraseIdx place).map fun attempt =>
          buildArtifactDeliveryKey attempt.delivery).Nodup := by
        rw [← eraseIdx_map]
        exact h.locks.eraseIdx place
      cases outcome with
      | nothing => exact ⟨h.receipts, hlocks⟩
      | rejected => exact ⟨h.receipts, hlocks⟩
      | result =>
        refine ⟨fun delivery hdelivery => ?_, hlocks⟩
        rcases mem_append.mp hdelivery with hbefore | hnew
        · exact mem_append_left _ (h.receipts delivery hbefore)
        · refine mem_append_right _ ?_
          split at hnew
          · exact hnew
          · cases hnew
  | applyReceipt runId successful artifacts =>
    cases hnext
    exact (state.sameDeliveries_applyReceipt home runId successful artifacts).tables h
  | applyText runId channel =>
    cases hnext
    exact (state.sameDeliveries_rememberContinuity runId _).tables h
  | setRun runId run =>
    cases hnext
    exact ⟨h.receipts, h.locks⟩
  | restart =>
    cases hnext
    exact ⟨h.receipts, nodup_nil⟩

/-- A step keeps deliveries right just where what is remembered is of its own artifact. -/
theorem deliveredOnce_step_iff {home : JsString} {step : DeliveryStep} (htables : Tables state)
    (h : DeliveredOnce state) (hnext : deliveryStep? home state step = some next) :
    DeliveredOnce next ↔ MemoryIsOwn home state step := by
  cases step with
  | call runId channel filePath =>
    simp only [deliveryStep?] at hnext
    split at hnext
    · next hnone =>
      cases hnext
      refine iff_of_true h fun delivery hdelivery => ?_
      cases hdelivery.symm.trans hnone
    · next delivery hdelivery =>
      cases hnext
      rw [DeliveryState.deliveredOnce_call_iff home htables h]
      constructor
      · intro hown other hother
        cases hdelivery.symm.trans hother
        exact hown
      · intro hall
        exact hall delivery hdelivery
  | settle place outcome persisted =>
    simp only [deliveryStep?] at hnext
    split at hnext
    · cases hnext
    · next attempt hattempt =>
      cases hnext
      rw [DeliveryState.deliveredOnce_settle_iff htables h hattempt]
      constructor
      · intro hown other hother
        cases hattempt.symm.trans hother
        exact hown
      · intro hall
        exact hall attempt hattempt
  | applyReceipt runId successful artifacts =>
    cases hnext
    have hsame := state.sameDeliveries_applyReceipt home runId successful artifacts
    exact iff_of_true (hsame.deliveredOnce_iff.mpr h) trivial
  | applyText runId channel =>
    cases hnext
    have hsame := state.sameDeliveries_rememberContinuity runId
      (receiptLine channel (ofString "text"))
    exact iff_of_true (hsame.deliveredOnce_iff.mpr h) trivial
  | setRun runId run =>
    cases hnext
    exact iff_of_true ⟨h.once, h.running, h.backed⟩ trivial
  | restart =>
    cases hnext
    exact iff_of_true ⟨h.once, nofun, h.backed⟩ trivial

/-- In every state of a run each artifact was delivered at most once and every call that gave up
found its own artifact delivered, just where in every step what is remembered is of the artifact
it is found for. -/
theorem artifactsDeliveredOnce_iff (home : JsString) (runs : JsString → Option RootRun)
    (continuity : JsString → Option JsString) (steps : List DeliveryStep) (last : DeliveryState) :
    Run (Reaching DeliveredOnce (Takes (deliveryStep? home))) (startState runs continuity) steps
        last ↔
      Run (Meeting (MemoryIsOwn home) (Takes (deliveryStep? home))) (startState runs continuity)
        steps last := by
  have hinv : ∀ state step next, Tables state → Takes (deliveryStep? home) state step next →
      Tables next := fun _ _ _ h hnext => tables_step h hnext
  have hstep : ∀ state step next, Tables state → DeliveredOnce state →
      Takes (deliveryStep? home) state step next →
        (DeliveredOnce next ↔ MemoryIsOwn home state step) :=
    fun _ _ _ htables h hnext => deliveredOnce_step_iff htables h hnext
  exact Run.reaching_iff_meeting Tables hinv hstep ⟨nofun, nodup_nil⟩ ⟨nodup_nil, nofun, nofun⟩

/-- In every state of a run receipts are for delivered artifacts and no two tasks have one key. -/
theorem tables_kept (home : JsString) (runs : JsString → Option RootRun)
    (continuity : JsString → Option JsString) (steps : List DeliveryStep) (last : DeliveryState) :
    Run (Reaching Tables (Takes (deliveryStep? home))) (startState runs continuity) steps last ↔
      Run (Takes (deliveryStep? home)) (startState runs continuity) steps last :=
  Run.reaching_iff Tables (fun _ _ _ h hnext => tables_step h hnext) (fun _ h => h)
    ⟨nofun, nodup_nil⟩

/-! ## A call that waits for a task that fails -/

/-- An artifact is asked for twice, and the task of the first call is rejected. -/
def rejectedTask : List DeliveryStep :=
  let call := .call (some (ofString "run-1")) (ofString "slack")
    (ofString "/tmp/a.png")
  [call, call, .settle 0 .rejected true]

theorem rejectedTask_suppresses :
    (execute (deliveryStep? []) (startState (fun _ => none) fun _ => none) rejectedTask).map
        (fun state => (state.returned.length, state.suppressed.length)) = some (0, 1) := by
  decide +kernel

/-- The second call gives up although nothing was delivered. -/
theorem rejectedTask_notDelivered :
    ∃ state : DeliveryState,
      Run (Takes (deliveryStep? [])) (startState (fun _ => none) fun _ => none) rejectedTask
          state ∧
        ¬ DeliveredOnce state := by
  obtain ⟨state, hstate, htold⟩ := Option.map_eq_some_iff.mp rejectedTask_suppresses
  obtain ⟨hreturned, hsuppressed⟩ := Prod.mk.inj htold
  refine ⟨state, Run.of_execute hstate, fun hright => ?_⟩
  obtain ⟨delivery, hdelivery⟩ := length_pos_iff_exists_mem.mp (hsuppressed.symm ▸ Nat.one_pos)
  have hmem := hright.backed delivery hdelivery
  rw [length_eq_zero_iff.mp hreturned] at hmem
  exact not_mem_nil hmem

end Nobie.Runs.ArtifactDelivery
