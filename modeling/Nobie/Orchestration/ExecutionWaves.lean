/-
# Planning execution waves

Work items that depend on each other, hold resource locks and use agents, tools and
servers of limited concurrency are put into waves. A wave takes the items whose
dependencies lie in earlier waves, one after the other in the order of the list, each if
it fits beside those already taken. Where nothing can be taken the first item that is
still pending makes a wave of its own.
-/

import Nobie.Foundation.JsNumber
import Nobie.Foundation.Loop
import Nobie.Foundation.OrderedMap
import Nobie.Foundation.Bytes

namespace Nobie.Orchestration

open Foundation List

/-! ## Work items -/

inductive ResourceLockKind
  | file | display | channel | mcpServer | secretScope | externalTarget | custom
  deriving DecidableEq

def ResourceLockKind.text : ResourceLockKind → String
  | .file => "file"
  | .display => "display"
  | .channel => "channel"
  | .mcpServer => "mcp_server"
  | .secretScope => "secret_scope"
  | .externalTarget => "external_target"
  | .custom => "custom"

inductive ResourceLockMode
  | shared | exclusive
  deriving DecidableEq

structure ResourceLockContract where
  kind : ResourceLockKind
  target : String
  mode : ResourceLockMode
  deriving DecidableEq

/-- A work item without its `run`. A list that is absent in the source is empty here. -/
structure SubSessionWorkItem where
  (taskId subSessionId : String)
  agentId : Option String
  (toolNames mcpServerIds : List String)
  (estimatedCost estimatedDurationMs : Option JsNumber)
  resourceLocks : List ResourceLockContract
  dependencies : List String
  deriving DecidableEq

structure DependencyEdgeContract where
  (fromTaskId toTaskId : String)

/-- What the planner reads of a group. -/
structure WaveGroup where
  dependencyEdges : List DependencyEdgeContract
  concurrencyLimit : JsNumber

/-! ## Resource locks -/

structure HeldLock where
  holderId : String
  lock : ResourceLockContract

/-- The locks that are held, in the order in which they were acquired. -/
structure ResourceLockManager where
  holders : List HeldLock

namespace ResourceLockManager

def lockKey (lock : ResourceLockContract) : String := s!"{lock.kind.text}:{lock.target}"

def conflictsWith (manager : ResourceLockManager) (lock : ResourceLockContract) :
    List ResourceLockContract :=
  (manager.holders.filter fun holder =>
    lockKey holder.lock = lockKey lock ∧
      (holder.lock.mode = .exclusive ∨ lock.mode = .exclusive)).map (·.lock)

/-- The held locks that stand against the wanted ones; it can be acquired if there are none. -/
def canAcquire (manager : ResourceLockManager) (locks : List ResourceLockContract) :
    List ResourceLockContract :=
  locks.flatMap manager.conflictsWith

end ResourceLockManager

/-! ## Concurrency limits -/

/-- What an item uses that has a limit. -/
inductive ConcurrencyKind
  | agent | tool | mcpServer
  deriving DecidableEq

structure SubSessionExecutionPlanningOptions where
  (agentConcurrencyLimits toolConcurrencyLimits : Option (OrderedMap String JsNumber))
  mcpServerConcurrencyLimits : Option (OrderedMap String JsNumber)
  (defaultAgentConcurrencyLimit defaultToolConcurrencyLimit : Option JsNumber)
  defaultMcpServerConcurrencyLimit : Option JsNumber

namespace SubSessionExecutionPlanningOptions

/-- The options `{}`. -/
def unlimited : SubSessionExecutionPlanningOptions := ⟨none, none, none, none, none, none⟩

def explicitLimits (options : SubSessionExecutionPlanningOptions) :
    ConcurrencyKind → Option (OrderedMap String JsNumber)
  | .agent => options.agentConcurrencyLimits
  | .tool => options.toolConcurrencyLimits
  | .mcpServer => options.mcpServerConcurrencyLimits

def defaultLimit (options : SubSessionExecutionPlanningOptions) : ConcurrencyKind → Option JsNumber
  | .agent => options.defaultAgentConcurrencyLimit
  | .tool => options.defaultToolConcurrencyLimit
  | .mcpServer => options.defaultMcpServerConcurrencyLimit

end SubSessionExecutionPlanningOptions

/-- The names every object inherits a member under. -/
def inheritedNames : List String :=
  ["constructor", "__defineGetter__", "__defineSetter__", "hasOwnProperty", "__lookupGetter__",
    "__lookupSetter__", "isPrototypeOf", "propertyIsEnumerable", "toString", "valueOf",
    "__proto__", "toLocaleString"]

/-- `explicitLimits?.[key]`. What a record inherits is no number. -/
def explicitLimit (explicitLimits : Option (OrderedMap String JsNumber)) (key : String) :
    Option JsNumber :=
  explicitLimits.bind fun record =>
    (record.get? key).orElse fun _ => if key ∈ inheritedNames then some .nan else none

variable (options : SubSessionExecutionPlanningOptions)

/-- The limit in force for a key, `explicitLimits?.[key] ?? defaultLimit`. -/
def effectiveLimit (kind : ConcurrencyKind) (key : String) : Option JsNumber :=
  (explicitLimit (options.explicitLimits kind) key).orElse fun _ => options.defaultLimit kind

def normalizedPositiveLimit : Option JsNumber → Option ℤ
  | some (.finite value) => if value ≤ 0 then none else some ⌊value⌋
  | _ => none

def uniqueValues (values : List String) : OrderedSet String :=
  OrderedSet.ofList (values.filter (jsTrim · ≠ ""))

variable (item : SubSessionWorkItem) (taskId : String)

namespace SubSessionWorkItem

/-- The keys under which an item counts. -/
def keys : ConcurrencyKind → OrderedSet String
  | .agent => OrderedSet.ofList (truthyText item.agentId).toList
  | .tool => uniqueValues item.toolNames
  | .mcpServer => uniqueValues item.mcpServerIds

/-- Everything an item uses that has a limit. -/
def uses : List (ConcurrencyKind × String) :=
  [ConcurrencyKind.agent, .tool, .mcpServer].flatMap fun kind =>
    (item.keys kind).elements.map (kind, ·)

end SubSessionWorkItem

/-- Whether the uses already reserved reach the limit of a key. -/
def countLimitExceeded (reserved : List (ConcurrencyKind × String))
    (options : SubSessionExecutionPlanningOptions) (kind : ConcurrencyKind) (key : String) : Bool :=
  match normalizedPositiveLimit (effectiveLimit options kind key) with
  | none => false
  | some limit => limit ≤ reserved.count (kind, key)

def ConcurrencyKind.reason : ConcurrencyKind → String
  | .agent => "agent_concurrency_limit"
  | .tool => "tool_concurrency_limit"
  | .mcpServer => "mcp_concurrency_limit"

def concurrencyLimitReasons (reserved : List (ConcurrencyKind × String))
    (options : SubSessionExecutionPlanningOptions) : List String :=
  ([ConcurrencyKind.agent, .tool, .mcpServer].filter fun kind =>
    (item.keys kind).elements.any (countLimitExceeded reserved options kind)).map (·.reason)

/-! ## One wave -/

abbrev DeferredReasons := OrderedMap String (OrderedSet String)

variable (deferred : DeferredReasons)

def rememberDeferredReasons (taskId : String) (reasonCodes : List String) : DeferredReasons :=
  deferred.set taskId (reasonCodes.foldl OrderedSet.add ((deferred.get? taskId).getD ∅))

/-- The locks an item holds while it runs. -/
def SubSessionWorkItem.heldLocks : List HeldLock := item.resourceLocks.map (⟨item.taskId, ·⟩)

/-- A wave while items are put into it: the items, the locks and uses they hold, and why
items were put off. -/
structure WaveDraft where
  items : List SubSessionWorkItem
  locks : ResourceLockManager
  reserved : List (ConcurrencyKind × String)
  deferred : DeferredReasons
  holders_eq : locks.holders = items.flatMap (·.heldLocks)
  reserved_eq : reserved = items.flatMap (·.uses)

namespace WaveDraft

def empty : WaveDraft where
  items := []
  locks := ⟨[]⟩
  reserved := []
  deferred := deferred
  holders_eq := rfl
  reserved_eq := rfl

def defer (draft : WaveDraft) (item : SubSessionWorkItem) (reasonCodes : List String) : WaveDraft :=
  { draft with deferred := rememberDeferredReasons draft.deferred item.taskId reasonCodes }

/-- `waveLocks.acquire`, `reserveConcurrency` and `waveItems.push`. -/
def take (draft : WaveDraft) (item : SubSessionWorkItem) : WaveDraft where
  items := draft.items ++ [item]
  locks := ⟨draft.locks.holders ++ item.heldLocks⟩
  reserved := draft.reserved ++ item.uses
  deferred := draft.deferred
  holders_eq := by rw [draft.holders_eq, List.flatMap_append, List.flatMap_singleton]
  reserved_eq := by rw [draft.reserved_eq, List.flatMap_append, List.flatMap_singleton]

/-- One candidate: put off for the group's limit, for another limit or for a lock, or taken. -/
def consider (options : SubSessionExecutionPlanningOptions) (limit : JsNumber)
    (draft : WaveDraft) (item : SubSessionWorkItem) : WaveDraft :=
  if JsNumber.le limit (JsNumber.ofNat draft.items.length) then
    draft.defer item ["concurrency_limit"]
  else if concurrencyLimitReasons item draft.reserved options ≠ [] then
    draft.defer item (concurrencyLimitReasons item draft.reserved options)
  else if draft.locks.canAcquire item.resourceLocks ≠ [] then
    draft.defer item ["resource_lock"]
  else
    draft.take item

end WaveDraft

/-- The draft after all candidates. -/
def draftWave (options : SubSessionExecutionPlanningOptions) (limit : JsNumber)
    (deferred : DeferredReasons) (candidates : List SubSessionWorkItem) : WaveDraft :=
  candidates.foldl (WaveDraft.consider options limit) (WaveDraft.empty deferred)

/-! ## The plan -/

/-- The object `waitReasonCodesByTask`. Its member `__proto__` is its prototype. -/
structure WaitReasons where
  own : List (String × List String)
  prototype : Option (List String)

def WaitReasons.assign (reasons : WaitReasons) (taskId : String) (reasonCodes : List String) :
    WaitReasons :=
  if taskId = "__proto__" then { reasons with prototype := some reasonCodes }
  else { reasons with own := OrderedMap.insertEntry reasons.own taskId reasonCodes }

structure SubSessionExecutionWave where
  waveIndex : ℕ
  items : List SubSessionWorkItem
  reasonCodes : List String
  waitReasonCodesByTask : Option WaitReasons

/-- What planning depends on and does not change. -/
structure WaveInput where
  items : List SubSessionWorkItem
  group : Option WaveGroup
  options : SubSessionExecutionPlanningOptions

structure PlanState where
  pending : List SubSessionWorkItem
  completed : List String
  deferred : DeferredReasons
  waves : List SubSessionExecutionWave

namespace WaveInput

variable (input : WaveInput)

/-- `Math.max(1, group?.concurrencyLimit ?? items.length)`. -/
def limit : JsNumber :=
  JsNumber.max (JsNumber.ofNat 1)
    ((input.group.map (·.concurrencyLimit)).getD (JsNumber.ofNat input.items.length))

/-- `byTaskId.get`: the last item with a task id. -/
def byTaskId (taskId : String) : Option SubSessionWorkItem :=
  input.items.reverse.find? (·.taskId = taskId)

/-- `dependencyMap.get`: the item's own dependencies and the edges to it. -/
def dependenciesOf (taskId : String) : List String :=
  ((input.byTaskId taskId).map (·.dependencies)).getD [] ++
    (((input.group.map (·.dependencyEdges)).getD []).filter
      (·.toTaskId = taskId)).map (·.fromTaskId)

/-- The pending items at the start, one for each task id. -/
def initialPending : List SubSessionWorkItem :=
  (OrderedSet.ofList (input.items.map (·.taskId))).elements.filterMap input.byTaskId

def initialState : PlanState where
  pending := input.initialPending
  completed := []
  deferred := ∅
  waves := []

variable (state : PlanState)

/-- The pending items whose dependencies are all in earlier waves. -/
def candidates : List SubSessionWorkItem :=
  state.pending.filter fun item =>
    (input.dependenciesOf item.taskId).all fun dependency => dependency ∈ state.completed

def draft : WaveDraft := draftWave input.options input.limit state.deferred (input.candidates state)

/-- The items of the next wave: those of the draft, or the first one that is pending. -/
def waveItems (fallback : SubSessionWorkItem) : List SubSessionWorkItem :=
  if (input.draft state).items = [] then [fallback] else (input.draft state).items

end WaveInput

def waitReasonCodesByTask (waveItems : List SubSessionWorkItem) : Option WaitReasons :=
  let reasons := waveItems.foldl
    (fun reasons item =>
      match (deferred.get? item.taskId).filter (·.elements ≠ []) with
      | none => reasons
      | some codes => reasons.assign item.taskId codes.elements)
    ⟨[], none⟩
  if reasons.own ≠ [] then some reasons else none

/-- The state after a wave with the given items. -/
def WaveInput.afterWave (input : WaveInput) (state : PlanState)
    (waveItems : List SubSessionWorkItem) : PlanState :=
  let deferred := (input.draft state).deferred
  let taskIds := waveItems.map (·.taskId)
  { pending := state.pending.filter (·.taskId ∉ taskIds)
    completed := state.completed ++ taskIds
    deferred := taskIds.foldl OrderedMap.erase deferred
    waves := state.waves ++
      [{ waveIndex := state.waves.length
         items := waveItems
         reasonCodes :=
           if 1 < waveItems.length then ["parallel_sub_sessions"]
           else ["sequential_or_blocked_sub_session"]
         waitReasonCodesByTask := waitReasonCodesByTask deferred waveItems }] }

/-- One round of planning. -/
def planWave (input : WaveInput) (state : PlanState) : Option PlanState :=
  match state.pending with
  | [] => none
  | fallback :: _ => some (input.afterWave state (input.waveItems state fallback))

/-! ## Every round takes an item -/

/-- An item can be taken beside those taken already, apart from the group's limit. -/
def FitsBeside (options : SubSessionExecutionPlanningOptions) (taken : List SubSessionWorkItem)
    (item : SubSessionWorkItem) : Prop :=
  concurrencyLimitReasons item (taken.flatMap (·.uses)) options = [] ∧
    ResourceLockManager.canAcquire ⟨taken.flatMap (·.heldLocks)⟩ item.resourceLocks = []

variable (options : SubSessionExecutionPlanningOptions) (limit : JsNumber) {input : WaveInput}

theorem consider_cases (draft : WaveDraft) (item : SubSessionWorkItem) :
    ((draft.consider options limit item).items = draft.items ∧
      (JsNumber.le limit (JsNumber.ofNat draft.items.length) ∨
        ¬ FitsBeside options draft.items item)) ∨
    ((draft.consider options limit item).items = draft.items ++ [item] ∧
      JsNumber.le limit (JsNumber.ofNat draft.items.length) = false ∧
      FitsBeside options draft.items item) := by
  have hlocks : draft.locks = ⟨draft.items.flatMap (·.heldLocks)⟩ := by rw [← draft.holders_eq]
  unfold WaveDraft.consider FitsBeside
  rw [← draft.reserved_eq, ← hlocks]
  by_cases hfull : JsNumber.le limit (JsNumber.ofNat draft.items.length)
  · rw [if_pos hfull]
    exact .inl ⟨rfl, .inl hfull⟩
  · rw [if_neg hfull]
    by_cases hreasons : concurrencyLimitReasons item draft.reserved options ≠ []
    · rw [if_pos hreasons]
      exact .inl ⟨rfl, .inr fun hfits => hreasons hfits.1⟩
    · rw [if_neg hreasons]
      by_cases hconflicts : draft.locks.canAcquire item.resourceLocks ≠ []
      · rw [if_pos hconflicts]
        exact .inl ⟨rfl, .inr fun hfits => hconflicts hfits.2⟩
      · rw [if_neg hconflicts]
        exact .inr ⟨rfl, Bool.eq_false_iff.mpr hfull, not_not.mp hreasons, not_not.mp hconflicts⟩

/-- What holds of no items and is kept when a candidate that fits is taken holds of the
items of a draft. -/
theorem draftWave_induction {options : SubSessionExecutionPlanningOptions} {limit : JsNumber}
    {candidates : List SubSessionWorkItem} (P : List SubSessionWorkItem → Prop)
    (deferred : DeferredReasons) (hempty : P [])
    (htake : ∀ taken item, item ∈ candidates → P taken →
      JsNumber.le limit (JsNumber.ofNat taken.length) = false → FitsBeside options taken item →
      P (taken ++ [item])) :
    P (draftWave options limit deferred candidates).items := by
  refine List.foldlRecOn candidates _ (motive := fun draft : WaveDraft => P draft.items) hempty ?_
  intro draft hdraft item hitem
  obtain ⟨hdefer, -⟩ | ⟨hconsider, hroom, hfits⟩ := consider_cases options limit draft item
  · rw [hdefer]
    exact hdraft
  · rw [hconsider]
    exact htake draft.items item hitem hdraft hroom hfits

/-- Considering candidates keeps what was taken and adds some of them in their order. -/
theorem foldl_consider_items (candidates : List SubSessionWorkItem) (draft : WaveDraft) :
    ∃ added, (candidates.foldl (WaveDraft.consider options limit) draft).items =
      draft.items ++ added ∧ added.Sublist candidates := by
  induction candidates generalizing draft with
  | nil => exact ⟨[], (append_nil _).symm, List.Sublist.slnil⟩
  | cons item rest ih =>
    obtain ⟨added, hadded, hsublist⟩ := ih (draft.consider options limit item)
    rw [foldl_cons, hadded]
    obtain ⟨hdefer, -⟩ | ⟨htake, -⟩ := consider_cases options limit draft item
    · exact ⟨added, by rw [hdefer], hsublist.cons item⟩
    · exact ⟨item :: added, by rw [htake, append_assoc, singleton_append],
        hsublist.cons_cons item⟩

theorem draftWave_sublist (deferred : DeferredReasons) (candidates : List SubSessionWorkItem) :
    (draftWave options limit deferred candidates).items.Sublist candidates := by
  obtain ⟨added, hadded, hsublist⟩ :=
    foldl_consider_items options limit candidates (WaveDraft.empty deferred)
  rw [draftWave, hadded]
  exact hsublist

variable {state : PlanState}

/-- A round takes pending items in their order, and at least one. -/
theorem waveItems_sublist (input : WaveInput) {fallback : SubSessionWorkItem}
    (hfallback : fallback ∈ state.pending) :
    (input.waveItems state fallback).Sublist state.pending ∧
      input.waveItems state fallback ≠ [] := by
  unfold WaveInput.waveItems
  split
  next => exact ⟨singleton_sublist.mpr hfallback, cons_ne_nil _ _⟩
  next hitems => exact ⟨(draftWave_sublist _ _ _ _).trans filter_sublist, hitems⟩

theorem planWave_eq_none : planWave input state = none ↔ state.pending = [] := by
  unfold planWave
  cases state.pending with
  | nil => exact iff_of_true rfl rfl
  | cons fallback rest => exact iff_of_false (Option.some_ne_none _) (cons_ne_nil _ _)

/-- What a round does: it takes pending items, at least one, those of its draft if there
are any, and otherwise a single one. -/
theorem planWave_cases {next : PlanState} (hround : planWave input state = some next) :
    ∃ waveItems, next = input.afterWave state waveItems ∧ waveItems ≠ [] ∧
      waveItems.Sublist state.pending ∧
      (waveItems = (input.draft state).items ∨
        ((input.draft state).items = [] ∧ ∃ fallback, waveItems = [fallback])) := by
  unfold planWave at hround
  cases hpending : state.pending with
  | nil =>
    rw [hpending] at hround
    cases hround
  | cons fallback rest =>
    have hmem : fallback ∈ state.pending := by
      rw [hpending]
      exact mem_cons_self
    obtain ⟨hsublist, hne⟩ := waveItems_sublist input hmem
    rw [hpending] at hround
    rw [← hpending]
    refine ⟨_, (Option.some.inj hround).symm, hne, hsublist, ?_⟩
    unfold WaveInput.waveItems
    by_cases hempty : (input.draft state).items = []
    · rw [if_pos hempty]
      exact .inr ⟨hempty, fallback, rfl⟩
    · rw [if_neg hempty]
      exact .inl rfl

theorem planWave_runsDown (input : WaveInput) :
    RunsDown (planWave input) fun state => state.pending.length := by
  intro state next hround
  obtain ⟨waveItems, rfl, hne, hsublist, -⟩ := planWave_cases hround
  obtain ⟨item, hitem⟩ := exists_mem_of_ne_nil _ hne
  refine length_filter_lt_length_iff_exists.mpr ⟨item, hsublist.subset hitem, ?_⟩
  simpa using ⟨item, hitem, rfl⟩

def planSubSessionExecutionWaves (input : WaveInput) : List SubSessionExecutionWave :=
  (loop (planWave input) (fun state => state.pending.length) (planWave_runsDown input)
    input.initialState).waves

end Nobie.Orchestration
