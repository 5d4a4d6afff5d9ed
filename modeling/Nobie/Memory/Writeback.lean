/-
# The queue of proposed memories

A proposal is prepared, queued and reviewed. Preparing it masks its text and looks through
the proposals that were discarded last; one that stands among them is queued as discarded at
once. A review stores the proposal's text or discards it, by the proposal's id alone.
-/

import Nobie.Foundation.Transition
import Nobie.Memory.Compaction
import Nobie.Memory.DocumentStore

namespace Nobie.Memory

open Foundation JsString

/-! ## Proposals -/

inductive TrustTag
  | trusted | userInput | channelInput | webContent | fileContent | toolResult | mcpResult
  | capabilityResult | yeonjangResult | diagnostic
  deriving DecidableEq

def isUntrustedTag : TrustTag → Bool
  | .trusted | .diagnostic => false
  | .userInput | .channelInput | .webContent | .fileContent | .toolResult | .mcpResult
  | .capabilityResult | .yeonjangResult => true

inductive MemoryWritebackStatus
  | pending | writing | failed | completed | discarded
  deriving DecidableEq

/-- What the queue and the reviews read of a proposal's metadata. -/
structure WritebackMetadata where
  sourceTrust : Option TrustTag
  (reviewDedupeKey sessionId : Option JsString)
  /-- `memoryIsolation` is `owner_scoped_writeback`. -/
  ownerScopedWriteback : Bool
  crossOwnerWriteback : Bool
  targetOwnerId : Option JsString
  expiresAt : Option ℕ

structure MemoryWritebackCandidate where
  scope : MemoryScope
  ownerId : Option JsString
  (sourceType content : JsString)
  metadata : WritebackMetadata

inductive BlockReason
  | rawHtmlError | stackTrace | diagnosticSource | untrustedPromptInjection | previouslyDiscarded

def BlockReason.text : BlockReason → String
  | .rawHtmlError => "raw_html_error"
  | .stackTrace => "stack_trace"
  | .diagnosticSource => "diagnostic_source"
  | .untrustedPromptInjection => "untrusted_prompt_injection"
  | .previouslyDiscarded => "previously_discarded"

/-- `blocked: …`. -/
def blockedText (reasons : List BlockReason) : String :=
  "blocked: " ++ ", ".intercalate (reasons.map BlockReason.text)

/-- A proposal as it is queued. -/
structure PreparedMemoryWritebackCandidate extends MemoryWritebackCandidate where
  status : Option MemoryWritebackStatus
  lastError : Option String

/-- A row of `memory_writeback_queue`. -/
structure WritebackRow where
  id : ℕ
  scope : MemoryScope
  (ownerId sourceType content : JsString)
  metadata : WritebackMetadata
  status : MemoryWritebackStatus
  lastError : Option String
  updatedAt : ℕ

structure WritebackQueue where
  rows : List WritebackRow
  nextId : ℕ

/-! ## Inspection -/

/-- The patterns that texts are matched with, and the hash. -/
structure WritebackHost where
  (maskSecrets maskLocalPaths : JsString → JsString)
  (looksLikeRawHtmlError looksLikeStackTrace isDiagnosticSource : JsString → Bool)
  containsPromptInjectionDirective : JsString → Bool
  sha256 : JsString → JsString

variable (safety : MemoryWritebackSafetyResult) (queue : WritebackQueue) (now : ℕ)
  (row : WritebackRow)

section Host

variable (host : WritebackHost)

def normalizedContent (value : JsString) : JsString := normalizeWhitespace value

def buildReviewDedupeKey (scope : MemoryScope) (sourceType content : JsString) : JsString :=
  host.sha256 (joinLines [ofString scope.text, sourceType, normalizedContent content])

structure MemoryWritebackSafetyResult where
  content : JsString
  blockReasons : List BlockReason

def MemoryWritebackSafetyResult.blocked : Bool := safety.blockReasons ≠ []

def inspectMemoryWritebackSafety (scope : MemoryScope) (sourceType content : JsString) :
    MemoryWritebackSafetyResult :=
  let content := host.maskLocalPaths (host.maskSecrets (normalizedContent content))
  { content
    blockReasons :=
      (if host.looksLikeRawHtmlError content then [.rawHtmlError] else []) ++
      (if host.looksLikeStackTrace content then [.stackTrace] else []) ++
      (if scope = .longTerm ∧ host.isDiagnosticSource sourceType then [.diagnosticSource]
        else []) }

/-- `readTrustTagMetadata`: one tag is not among those it knows. -/
def readTrustTagMetadata (metadata : WritebackMetadata) : Option TrustTag :=
  metadata.sourceTrust.filter fun tag => tag ≠ .capabilityResult

/-- `listMemoryWritebackCandidates` of the discarded, the latest 500. -/
def discardedPage : List WritebackRow :=
  ((queue.rows.filter fun row => row.status = .discarded).insertionSort
    fun first second => second.updatedAt ≤ first.updatedAt).take 500

def prepareMemoryWritebackQueueInput (queue : WritebackQueue)
    (candidate : MemoryWritebackCandidate) : PreparedMemoryWritebackCandidate :=
  let safety := inspectMemoryWritebackSafety host candidate.scope candidate.sourceType
    candidate.content
  let untrustedInjectionBlocked :=
    match readTrustTagMetadata candidate.metadata with
    | none => false
    | some tag => isUntrustedTag tag && host.containsPromptInjectionDirective safety.content
  let reviewDedupeKey := buildReviewDedupeKey host candidate.scope candidate.sourceType
    safety.content
  let previouslyDiscarded := (discardedPage queue).any fun row =>
    row.metadata.reviewDedupeKey = some reviewDedupeKey ||
      (row.scope = candidate.scope && row.sourceType = candidate.sourceType &&
        normalizedContent row.content = normalizedContent safety.content)
  let blockReasons := safety.blockReasons ++
    (if untrustedInjectionBlocked then [.untrustedPromptInjection] else []) ++
    (if previouslyDiscarded then [.previouslyDiscarded] else [])
  { candidate with
    content := safety.content
    metadata := { candidate.metadata with reviewDedupeKey := some reviewDedupeKey }
    status := if blockReasons = [] then none else some .discarded
    lastError := if blockReasons = [] then none else some (blockedText blockReasons) }

/-! ## Queueing -/

/-- The row of a proposal. -/
def queuedRow (id : ℕ) (ownerId : JsString) (now : ℕ)
    (input : PreparedMemoryWritebackCandidate) : WritebackRow where
  id
  scope := input.scope
  ownerId
  sourceType := input.sourceType
  content := input.content
  metadata := input.metadata
  status := input.status.getD .pending
  lastError := input.lastError
  updatedAt := now

def enqueueMemoryWritebackCandidate (input : PreparedMemoryWritebackCandidate) (now : ℕ) :
    Except MemoryError (WritebackQueue × WritebackRow) :=
  match resolveMemoryOwnerId input.scope input.ownerId with
  | .error error => .error error
  | .ok ownerId =>
    let row := queuedRow queue.nextId ownerId now input
    .ok (⟨queue.rows ++ [row], queue.nextId + 1⟩, row)

/-! ## Reviews -/

inductive MemoryWritebackReviewAction
  | approveLongTerm | approveEdited | keepSession | discard
  deriving DecidableEq

inductive ReviewError
  | notFound | editedContentRequired | sessionOwnerRequired
  | notStored (error : MemoryError)

def ReviewError.message : ReviewError → String
  | .notFound => "memory writeback candidate not found"
  | .editedContentRequired => "edited content is required for approve_edited"
  | .sessionOwnerRequired => "session owner is required for session-only memory"
  | .notStored error => error.message

def resolveSessionOwner : Option JsString :=
  match row.scope with
  | .session | .shortTerm | .flashFeedback => some row.ownerId
  | _ => row.metadata.sessionId.bind fun sessionId =>
    let trimmed := JsString.trim sessionId
    if trimmed = [] then none else some trimmed

def resolveLongTermReviewOwner : JsString :=
  if row.metadata.ownerScopedWriteback || row.metadata.crossOwnerWriteback ||
      row.metadata.targetOwnerId.isSome then row.ownerId
  else ofString "global"

/-- `updateMemoryWritebackCandidate` of a review: the key stays where there is one. -/
def updateMemoryWritebackCandidate (queue : WritebackQueue) (row : WritebackRow)
    (status : MemoryWritebackStatus) (safety : MemoryWritebackSafetyResult)
    (lastError : Option String) (now : ℕ) : WritebackQueue :=
  let reviewDedupeKey := row.metadata.reviewDedupeKey.getD
    (buildReviewDedupeKey host row.scope row.sourceType safety.content)
  { queue with
    rows := queue.rows.map fun stored =>
      if stored.id = row.id then
        { stored with
          status
          content := safety.content
          metadata := { row.metadata with reviewDedupeKey := some reviewDedupeKey }
          lastError
          updatedAt := now }
      else stored }

structure ReviewRequest where
  id : ℕ
  action : MemoryWritebackReviewAction
  editedContent : JsString
  now : ℕ

/-- What a review did. -/
inductive ReviewOutcome
  | discarded
  | blocked (reason : String)
  | stored (documentId : ℕ)

/-- The document that an approved proposal becomes. -/
def reviewedDocument (action : MemoryWritebackReviewAction) (safety : MemoryWritebackSafetyResult)
    (ownerId : JsString) (now : ℕ) : StoreMemoryDocumentParams where
  rawText := safety.content
  scope := if action = .keepSession then .session else .longTerm
  ownerId := some ownerId
  scheduleId := none
  sourceType := ofString
    (if action = .keepSession then "session_review_memory" else "reviewed_long_term_memory")
  sourceRef := some (ofString (toString row.id))
  title := some (ofString
    (if action = .keepSession then "session memory" else "approved long-term memory"))
  metadata := ⟨action ≠ .keepSession, action ≠ .keepSession, false, row.metadata.expiresAt⟩
  now

/-- The part of a review that stores. -/
def storeReviewed (queue : WritebackQueue) (store : MemoryStore) (row : WritebackRow)
    (request : ReviewRequest) (safety : MemoryWritebackSafetyResult) :
    Except ReviewError (WritebackQueue × MemoryStore × ReviewOutcome) :=
  let ownerId := if request.action = .keepSession then resolveSessionOwner row
    else some (resolveLongTermReviewOwner row)
  match ownerId with
  | none => .error .sessionOwnerRequired
  | some ownerId =>
    if ownerId = [] then .error .sessionOwnerRequired
    else
      match storeMemoryDocument host.sha256 store
          (reviewedDocument row request.action safety ownerId request.now) with
      | .error error => .error (.notStored error)
      | .ok (store, result) =>
        .ok (updateMemoryWritebackCandidate host queue row .completed safety none request.now,
          store, .stored result.documentId)

def reviewMemoryWritebackCandidate (queue : WritebackQueue) (store : MemoryStore)
    (request : ReviewRequest) :
    Except ReviewError (WritebackQueue × MemoryStore × ReviewOutcome) :=
  match queue.rows.find? fun row => row.id = request.id with
  | none => .error .notFound
  | some row =>
    let editedContent := normalizedContent request.editedContent
    if request.action = .approveEdited ∧ editedContent = [] then .error .editedContentRequired
    else
      let proposedText := if editedContent = [] then row.content else editedContent
      let safety := inspectMemoryWritebackSafety host row.scope row.sourceType proposedText
      let shouldBlockLongTerm := safety.blocked || row.scope = .diagnostic ||
        host.isDiagnosticSource row.sourceType
      if request.action = .discard then
        .ok (updateMemoryWritebackCandidate host queue row .discarded safety none request.now,
          store, .discarded)
      else if (request.action = .approveLongTerm ∨ request.action = .approveEdited) ∧
          shouldBlockLongTerm then
        let reason :=
          if safety.blockReasons = [] then
            "diagnostic candidates cannot be promoted to long-term memory"
          else blockedText safety.blockReasons
        .ok (updateMemoryWritebackCandidate host queue row .discarded safety (some reason)
          request.now, store, .blocked reason)
      else storeReviewed host queue store row request safety

end Host

/-! ## Proposals are decided once

Where only undecided proposals are reviewed and what is queued was just prepared, what is stored was
approved, and the text of a discarded proposal is not proposed again. -/

open List

/-! ## Histories -/

inductive ReviewDecision
  | approved | discarded

/-- What identifies a proposal for the reviewers. -/
structure Proposal where
  id : ℕ
  scope : MemoryScope
  (ownerId sourceType : JsString)
  /-- The normalized text. -/
  content : JsString

variable (row : WritebackRow) {queue : WritebackQueue} {store : MemoryStore}
  {request : ReviewRequest}

def WritebackRow.proposal : Proposal where
  id := row.id
  scope := row.scope
  ownerId := row.ownerId
  sourceType := row.sourceType
  content := normalizedContent row.content

inductive ReviewEvent
  | queued (proposal : Proposal) (status : MemoryWritebackStatus)
  | decided (proposal : Proposal) (decision : ReviewDecision)
  | stored (id : ℕ)

def ReviewEvent.decides (id : ℕ) : ReviewEvent → Bool
  | .decided proposal _ => proposal.id = id
  | .queued _ _ | .stored _ => false

def ReviewEvent.stores (id : ℕ) : ReviewEvent → Bool
  | .stored other => other = id
  | .queued _ _ | .decided _ _ => false

structure ReviewState where
  queue : WritebackQueue
  store : MemoryStore
  history : List ReviewEvent

def ReviewState.empty : ReviewState := ⟨⟨[], 0⟩, .empty, []⟩

inductive ReviewCall
  | prepare (candidate : MemoryWritebackCandidate)
  | enqueue (input : PreparedMemoryWritebackCandidate) (now : ℕ)
  | review (request : ReviewRequest)

section Runs

variable (host : WritebackHost)

/-- What an enqueued proposal adds: one that is queued as discarded is decided. -/
def queuedEvents : List ReviewEvent :=
  .queued row.proposal row.status ::
    match row.status with
    | .discarded => [.decided row.proposal .discarded]
    | .completed => [.decided row.proposal .approved]
    | .pending | .writing | .failed => []

/-- What a review adds for the row that it found. -/
def reviewEvents : ReviewOutcome → List ReviewEvent
  | .discarded | .blocked _ => [.decided row.proposal .discarded]
  | .stored _ => [.stored row.id, .decided row.proposal .approved]

variable (state : ReviewState) (proposal : Proposal) {input : PreparedMemoryWritebackCandidate}
  {now : ℕ} {decision : ReviewDecision} {status : MemoryWritebackStatus} {next : WritebackQueue}
  {after : MemoryStore} {outcome : ReviewOutcome}

def reviewStep : ReviewCall → ReviewState
  | .prepare _ => state
  | .enqueue input now =>
    match enqueueMemoryWritebackCandidate state.queue input now with
    | .error _ => state
    | .ok (queue, row) => { state with queue, history := state.history ++ queuedEvents row }
  | .review request =>
    match state.queue.rows.find? fun row => row.id = request.id with
    | none => state
    | some row =>
      match reviewMemoryWritebackCandidate host state.queue state.store request with
      | .error _ => state
      | .ok (queue, store, outcome) => ⟨queue, store, state.history ++ reviewEvents row outcome⟩

def reviewStep? (call : ReviewCall) : Option ReviewState := some (reviewStep host state call)

/-- The proposals of a history that were discarded. -/
def DiscardedIn (history : List ReviewEvent) (proposal : Proposal) : Prop :=
  .decided proposal .discarded ∈ history

/-- The later event does not queue again, as pending, what the earlier one discarded. -/
def NotRepeated : ReviewEvent → ReviewEvent → Prop
  | .decided discarded .discarded, .queued proposal .pending =>
    discarded.ownerId = proposal.ownerId → discarded.content ≠ proposal.content
  | _, _ => True

/-- Every proposal is decided once at most, what is stored is stored once and was approved,
and nothing is queued as pending that repeats a discarded proposal of the owner. -/
structure ReviewedOnce (history : List ReviewEvent) : Prop where
  decidedOnce : ∀ id, history.countP (ReviewEvent.decides id) ≤ 1
  storedOnce : ∀ id, history.countP (ReviewEvent.stores id) ≤ 1
  storedApproved : ∀ id, .stored id ∈ history →
    ∃ proposal, proposal.id = id ∧ .decided proposal .approved ∈ history
  staysDiscarded : history.Pairwise NotRepeated

/-- The call is queueing what was just prepared, while the page of discarded proposals holds
all of them and the text was discarded for the owner in this scope and from this source
only, or it reviews a proposal that is not decided. -/
def AsksForUndecided : ReviewCall → Prop
  | .prepare _ => True
  | .enqueue input _ =>
    (∃ candidate, input = prepareMemoryWritebackQueueInput host state.queue candidate) ∧
      (state.queue.rows.filter fun row => row.status = .discarded).length ≤ 500 ∧
      ∀ discarded, DiscardedIn state.history discarded →
        resolveMemoryOwnerId input.scope input.ownerId = .ok discarded.ownerId →
        discarded.content = normalizedContent input.content →
          discarded.scope = input.scope ∧ discarded.sourceType = input.sourceType
  | .review request =>
    ∀ row ∈ state.queue.rows, row.id = request.id →
      row.status ≠ .discarded ∧ row.status ≠ .completed

/-! ## Steps -/

/-- The key of a proposal. -/
def Proposal.key : JsString :=
  host.sha256 (joinLines [ofString proposal.scope.text, proposal.sourceType,
    proposal.content])

/-- What the steps keep: a decided proposal has a row that says so, a discarded one with its
key, and nothing was decided or stored for a proposal that is pending. -/
structure Settled (state : ReviewState) : Prop where
  ids : (state.queue.rows.map WritebackRow.id).Nodup
  given : ∀ row ∈ state.queue.rows, row.id < state.queue.nextId
  statuses : ∀ row ∈ state.queue.rows,
    row.status = .pending ∨ row.status = .discarded ∨ row.status = .completed
  keyed : ∀ row ∈ state.queue.rows, row.status = .pending →
    row.metadata.reviewDedupeKey = some (row.proposal.key host)
  undecided : ∀ row ∈ state.queue.rows, row.status = .pending →
    state.history.countP (ReviewEvent.decides row.id) = 0
  decided : ∀ proposal decision, .decided proposal decision ∈ state.history →
    ∃ row ∈ state.queue.rows, row.id = proposal.id ∧ row.status ≠ .pending ∧
      (decision = .discarded → row.status = .discarded ∧
        row.metadata.reviewDedupeKey = some (proposal.key host))
  once : ReviewedOnce state.history

theorem settled_empty : Settled host .empty where
  ids := .nil
  given := by simp [ReviewState.empty]
  statuses := by simp [ReviewState.empty]
  keyed := by simp [ReviewState.empty]
  undecided := by simp [ReviewState.empty]
  decided := by simp [ReviewState.empty]
  once := ⟨by simp [ReviewState.empty], by simp [ReviewState.empty], by simp [ReviewState.empty],
    .nil⟩

variable {host} {state : ReviewState}

variable {id : ℕ}

/-- Only what was given an id is decided. -/
theorem Settled.countP_decides_of_le (h : Settled host state) (hid : state.queue.nextId ≤ id) :
    state.history.countP (ReviewEvent.decides id) = 0 := by
  rw [countP_eq_zero]
  intro event hevent hdecides
  cases event with
  | queued | stored => cases hdecides
  | decided proposal decision =>
    obtain ⟨row, hrow, hsame, -⟩ := h.decided proposal decision hevent
    have hlt := h.given row hrow
    have heq : proposal.id = id := of_decide_eq_true hdecides
    omega

/-- What was stored was decided. -/
theorem Settled.countP_stores (h : Settled host state)
    (hid : state.history.countP (ReviewEvent.decides id) = 0) :
    state.history.countP (ReviewEvent.stores id) = 0 := by
  rw [countP_eq_zero] at hid ⊢
  intro event hevent hstores
  cases event with
  | queued | decided => cases hstores
  | stored other =>
    obtain rfl : other = id := of_decide_eq_true hstores
    obtain ⟨proposal, hsame, hdecided⟩ := h.once.storedApproved other hevent
    exact hid _ hdecided (decide_eq_true hsame)

/-- Among the discarded rows no one is missed while the page holds them all. -/
theorem mem_discardedPage
    (hpage : (queue.rows.filter fun row => row.status = .discarded).length ≤ 500)
    {row : WritebackRow} (hrow : row ∈ queue.rows) (hstatus : row.status = .discarded) :
    row ∈ discardedPage queue := by
  unfold discardedPage
  rw [take_of_length_le (by rwa [length_insertionSort])]
  exact (mem_insertionSort _).mpr (mem_filter.mpr ⟨hrow, decide_eq_true hstatus⟩)

/-- What was just prepared is queued as pending or as discarded, with its key. -/
theorem prepared_status (host : WritebackHost) (queue : WritebackQueue) (candidate : MemoryWritebackCandidate) :
    (prepareMemoryWritebackQueueInput host queue candidate).status = none ∨
      (prepareMemoryWritebackQueueInput host queue candidate).status = some .discarded := by
  exact ite_eq_or_eq _ _ _

theorem prepared_key (queue : WritebackQueue) (candidate : MemoryWritebackCandidate)
    (id : ℕ) (ownerId : JsString) (now : ℕ) :
    (prepareMemoryWritebackQueueInput host queue candidate).metadata.reviewDedupeKey =
      some ((queuedRow id ownerId now
        (prepareMemoryWritebackQueueInput host queue candidate)).proposal.key host) :=
  rfl

/-- A key that stands on the page is not queued as pending. -/
theorem prepared_of_page (host : WritebackHost) (candidate : MemoryWritebackCandidate)
    {row : WritebackRow} (hrow : row ∈ discardedPage queue) (hkey : row.metadata.reviewDedupeKey =
      (prepareMemoryWritebackQueueInput host queue candidate).metadata.reviewDedupeKey) :
    (prepareMemoryWritebackQueueInput host queue candidate).status = some .discarded := by
  unfold prepareMemoryWritebackQueueInput at hkey ⊢
  dsimp only at hkey ⊢
  rw [if_neg]
  have hfound : (discardedPage queue).any (fun row =>
      row.metadata.reviewDedupeKey = some (buildReviewDedupeKey host candidate.scope
        candidate.sourceType (inspectMemoryWritebackSafety host candidate.scope
          candidate.sourceType candidate.content).content) ||
      (row.scope = candidate.scope && row.sourceType = candidate.sourceType &&
        normalizedContent row.content = normalizedContent (inspectMemoryWritebackSafety host
          candidate.scope candidate.sourceType candidate.content).content)) := by
    refine any_eq_true.mpr ⟨row, hrow, ?_⟩
    rw [Bool.or_eq_true]
    exact .inl (decide_eq_true hkey)
  rw [if_pos hfound]
  exact append_ne_nil_of_right_ne_nil _ (cons_ne_nil _ _)

/-! ### Queueing -/

theorem decides_queuedEvents (hid : row.id ≠ id) :
    (queuedEvents row).countP (ReviewEvent.decides id) = 0 := by
  have hproposal : row.proposal.id ≠ id := hid
  unfold queuedEvents
  cases row.status <;> simp [ReviewEvent.decides, hproposal]

theorem decides_queuedEvents_le (id : ℕ) :
    (queuedEvents row).countP (ReviewEvent.decides id) ≤ 1 := by
  unfold queuedEvents
  cases row.status <;> simp [ReviewEvent.decides, countP_cons] <;> split <;> omega

theorem stores_queuedEvents (id : ℕ) : (queuedEvents row).countP (ReviewEvent.stores id) = 0 := by
  unfold queuedEvents
  cases row.status <;> simp [ReviewEvent.stores]

/-- The proposal that was just prepared is none that was discarded. -/
theorem Settled.not_repeated (h : Settled host state) {candidate : MemoryWritebackCandidate}
    (hinput : input = prepareMemoryWritebackQueueInput host state.queue candidate)
    (hasks : AsksForUndecided host state (.enqueue input now)) {ownerId : JsString}
    (howner : resolveMemoryOwnerId input.scope input.ownerId = .ok ownerId)
    (hpending : (queuedRow state.queue.nextId ownerId now input).status = .pending)
    {discarded : Proposal} (hdiscarded : DiscardedIn state.history discarded)
    (hsame : discarded.ownerId = ownerId) :
    discarded.content ≠ (queuedRow state.queue.nextId ownerId now input).proposal.content := by
  intro hcontent
  obtain ⟨-, hpage, hkinds⟩ := hasks
  obtain ⟨hscope, hsource⟩ := hkinds discarded hdiscarded (by rw [howner, hsame]) hcontent
  obtain ⟨row, hrow, -, -, hof⟩ := h.decided discarded .discarded hdiscarded
  obtain ⟨hstatus, hkey⟩ := hof rfl
  have hkeys : discarded.key host =
      (queuedRow state.queue.nextId ownerId now input).proposal.key host := by
    unfold Proposal.key
    rw [hscope, hsource, hcontent]
    rfl
  subst hinput
  have hblocked := prepared_of_page host candidate (mem_discardedPage hpage hrow hstatus) (by
    rw [hkey, hkeys]
    exact (prepared_key state.queue candidate _ _ _).symm)
  have hdiscardedStatus : (queuedRow state.queue.nextId ownerId now
      (prepareMemoryWritebackQueueInput host state.queue candidate)).status = .discarded := by
    unfold queuedRow
    rw [hblocked]
    rfl
  rw [hdiscardedStatus] at hpending
  cases hpending

theorem stored_not_mem_queuedEvents {row : WritebackRow} : .stored id ∉ queuedEvents row := by
  unfold queuedEvents
  cases row.status <;> simp

/-- A decision that comes with the queueing is the row's own. -/
theorem decided_mem_queuedEvents {row : WritebackRow} {proposal : Proposal}
    (h : .decided proposal decision ∈ queuedEvents row) :
    proposal = row.proposal ∧ row.status ≠ .pending ∧
      (decision = .discarded → row.status = .discarded) := by
  unfold queuedEvents at h
  cases hstatus : row.status <;> rw [hstatus] at h <;> simp_all

/-- What follows after a history that has no `queued` event of a repeated proposal. -/
theorem pairwise_queuedEvents : (queuedEvents row).Pairwise NotRepeated := by
  unfold queuedEvents
  cases row.status <;> simp [NotRepeated]

theorem queued_mem_queuedEvents {row : WritebackRow} {proposal : Proposal}
    (h : .queued proposal status ∈ queuedEvents row) :
    proposal = row.proposal ∧ status = row.status := by
  unfold queuedEvents at h
  cases hstatus : row.status <;> rw [hstatus] at h <;> simp_all

theorem notRepeated_decided (event : ReviewEvent) (proposal : Proposal)
    (decision : ReviewDecision) : NotRepeated event (.decided proposal decision) := by
  cases event with
  | queued _ _ | stored _ => trivial
  | decided _ made => cases made <;> trivial

theorem notRepeated_stored (event : ReviewEvent) (id : ℕ) : NotRepeated event (.stored id) := by
  cases event with
  | queued _ _ | stored _ => trivial
  | decided _ made => cases made <;> trivial

theorem notRepeated_queuedEvents {row : WritebackRow} {event later : ReviewEvent}
    (hlater : later ∈ queuedEvents row)
    (hrow : row.status = .pending → ∀ discarded, event = .decided discarded .discarded →
      discarded.ownerId = row.ownerId → discarded.content ≠ row.proposal.content) :
    NotRepeated event later := by
  cases later with
  | decided proposal decision => exact notRepeated_decided event proposal decision
  | stored id => exact notRepeated_stored event id
  | queued proposal status =>
    obtain ⟨rfl, rfl⟩ := queued_mem_queuedEvents hlater
    cases event with
    | queued other status => trivial
    | stored id => trivial
    | decided discarded decision =>
      cases decision with
      | approved => trivial
      | discarded =>
        cases hstatus : row.status with
        | pending => exact hrow hstatus discarded rfl
        | writing | failed | completed | discarded => trivial

theorem Settled.enqueue (h : Settled host state)
    (hasks : AsksForUndecided host state (.enqueue input now)) :
    Settled host (reviewStep host state (.enqueue input now)) := by
  unfold reviewStep enqueueMemoryWritebackCandidate
  dsimp only
  cases howner : resolveMemoryOwnerId input.scope input.ownerId with
  | error error => exact h
  | ok ownerId =>
    obtain ⟨candidate, hinput⟩ := hasks.1
    have hnotRepeated := h.not_repeated hinput hasks howner
    set row := queuedRow state.queue.nextId ownerId now input with hrow
    have hid : row.id = state.queue.nextId := rfl
    have hstatus : row.status = .pending ∨ row.status = .discarded := by
      subst hinput
      obtain hnone | hsome := prepared_status host state.queue candidate
      · exact .inl (by rw [hrow, queuedRow, hnone]; rfl)
      · exact .inr (by rw [hrow, queuedRow, hsome]; rfl)
    have hkey : row.metadata.reviewDedupeKey = some (row.proposal.key host) := by
      subst hinput
      exact prepared_key state.queue candidate _ _ _
    refine ⟨?_, ?_, ?_, ?_, ?_, ?_, ?_⟩
    · rw [map_append, map_singleton]
      refine h.ids.append (nodup_singleton _) (disjoint_singleton.mpr fun hmem => ?_)
      obtain ⟨other, hother, hsame⟩ := mem_map.mp hmem
      exact absurd (hsame.trans hid) (h.given other hother).ne
    · intro other hother
      obtain hold | hnew := mem_append.mp hother
      · exact (h.given other hold).trans (Nat.lt_succ_self _)
      · obtain rfl := mem_singleton.mp hnew
        exact Nat.lt_succ_self _
    · intro other hother
      obtain hold | hnew := mem_append.mp hother
      · exact h.statuses other hold
      · obtain rfl := mem_singleton.mp hnew
        exact hstatus.imp id .inl
    · intro other hother hpending
      obtain hold | hnew := mem_append.mp hother
      · exact h.keyed other hold hpending
      · obtain rfl := mem_singleton.mp hnew
        exact hkey
    · intro other hother hpending
      rw [countP_append, Nat.add_eq_zero_iff]
      obtain hold | hnew := mem_append.mp hother
      · exact ⟨h.undecided other hold hpending,
          decides_queuedEvents row (hid.trans_ne (h.given other hold).ne')⟩
      · obtain rfl := mem_singleton.mp hnew
        refine ⟨h.countP_decides_of_le hid.ge, ?_⟩
        unfold queuedEvents
        rw [hpending]
        rfl
    · intro proposal decision hmem
      obtain hold | hnew := mem_append.mp hmem
      · obtain ⟨other, hother, hof⟩ := h.decided proposal decision hold
        exact ⟨other, mem_append_left _ hother, hof⟩
      · obtain ⟨rfl, hfinal, hdiscarded⟩ := decided_mem_queuedEvents hnew
        exact ⟨row, mem_append_cons_self, rfl, hfinal,
          fun hdecision => ⟨hdiscarded hdecision, hkey⟩⟩
    · refine ⟨fun id => ?_, fun id => ?_, fun id hstored => ?_, ?_⟩
      · rw [countP_append]
        by_cases hsame : row.id = id
        · rw [h.countP_decides_of_le (hid.symm.trans hsame).le, Nat.zero_add]
          exact decides_queuedEvents_le row id
        · rw [decides_queuedEvents row hsame]
          exact h.once.decidedOnce id
      · rw [countP_append, stores_queuedEvents]
        exact h.once.storedOnce id
      · obtain hold | hnew := mem_append.mp hstored
        · obtain ⟨proposal, hsame, hdecided⟩ := h.once.storedApproved id hold
          exact ⟨proposal, hsame, mem_append_left _ hdecided⟩
        · exact absurd hnew stored_not_mem_queuedEvents
      · refine pairwise_append.mpr
          ⟨h.once.staysDiscarded, pairwise_queuedEvents row, fun event hevent later hlater => ?_⟩
        refine notRepeated_queuedEvents hlater fun hpending discarded hdiscarded hsame => ?_
        subst hdiscarded
        exact hnotRepeated hpending hevent hsame

/-! ### Reviewing -/

section Update

variable {queue : WritebackQueue} {row : WritebackRow} {status : MemoryWritebackStatus}
  {safety : MemoryWritebackSafetyResult} {lastError : Option String} {now : ℕ}

theorem updateMemoryWritebackCandidate_ids :
    (updateMemoryWritebackCandidate host queue row status safety lastError now).rows.map
      WritebackRow.id = queue.rows.map WritebackRow.id := by
  unfold updateMemoryWritebackCandidate
  rw [map_map]
  refine map_congr_left fun stored _ => ?_
  rw [Function.comp_apply]
  split <;> rfl

variable {stored : WritebackRow}

/-- A row after the update is one of the others, or the reviewed one with its new status. -/
theorem mem_updateMemoryWritebackCandidate (h : stored ∈
      (updateMemoryWritebackCandidate host queue row status safety lastError now).rows) :
    (stored ∈ queue.rows ∧ stored.id ≠ row.id) ∨ (stored.id = row.id ∧ stored.status = status) := by
  obtain ⟨other, hother, rfl⟩ := mem_map.mp h
  split
  · next hsame => exact .inr ⟨hsame, rfl⟩
  · next hne => exact .inl ⟨hother, hne⟩

theorem mem_updateMemoryWritebackCandidate_of_ne (hstored : stored ∈ queue.rows)
    (hne : stored.id ≠ row.id) :
    stored ∈ (updateMemoryWritebackCandidate host queue row status safety lastError now).rows :=
  mem_map.mpr ⟨stored, hstored, if_neg hne⟩

/-- The reviewed row, with its new status and its old key. -/
theorem exists_updateMemoryWritebackCandidate (host : WritebackHost)
    (status : MemoryWritebackStatus) (safety : MemoryWritebackSafetyResult)
    (lastError : Option String) (now : ℕ) (hrow : row ∈ queue.rows) {key : JsString}
    (hkey : row.metadata.reviewDedupeKey = some key) :
    ∃ stored ∈
      (updateMemoryWritebackCandidate host queue row status safety lastError now).rows,
      stored.id = row.id ∧ stored.status = status ∧ stored.metadata.reviewDedupeKey = some key := by
  refine ⟨_, mem_map.mpr ⟨row, hrow, if_pos rfl⟩, rfl, rfl, ?_⟩
  rw [hkey]
  rfl

end Update

/-- A pending proposal is decided. -/
theorem Settled.decide (h : Settled host state) {row : WritebackRow} (hrow : row ∈ state.queue.rows)
    (hpending : row.status = .pending) (hstatus : status = .discarded ∧ decision = .discarded ∨
      status = .completed ∧ decision = .approved) (safety : MemoryWritebackSafetyResult)
    (lastError : Option String) (now : ℕ) {events : List ReviewEvent}
    (hevents : events = [.decided row.proposal decision] ∨
      events = [.stored row.id, .decided row.proposal decision] ∧ decision = .approved) :
    Settled host ⟨updateMemoryWritebackCandidate host state.queue row status safety lastError now,
      store, state.history ++ events⟩ := by
  have hundecided := h.undecided row hrow hpending
  have hfinal : status ≠ .pending := by obtain ⟨rfl, -⟩ | ⟨rfl, -⟩ := hstatus <;> simp
  refine ⟨?_, ?_, ?_, ?_, ?_, ?_, ?_⟩
  · rw [updateMemoryWritebackCandidate_ids]
    exact h.ids
  · intro stored hstored
    have hmem := mem_map_of_mem (f := WritebackRow.id) hstored
    rw [updateMemoryWritebackCandidate_ids] at hmem
    obtain ⟨other, hother, hsame⟩ := mem_map.mp hmem
    exact hsame ▸ h.given other hother
  · intro stored hstored
    obtain ⟨hold, -⟩ | ⟨-, rfl⟩ := mem_updateMemoryWritebackCandidate hstored
    · exact h.statuses stored hold
    · exact .inr (hstatus.imp And.left And.left)
  · intro stored hstored hopen
    obtain ⟨hold, -⟩ | ⟨-, rfl⟩ := mem_updateMemoryWritebackCandidate hstored
    · exact h.keyed stored hold hopen
    · exact absurd hopen hfinal
  · intro stored hstored hopen
    obtain ⟨hold, hne⟩ | ⟨-, rfl⟩ := mem_updateMemoryWritebackCandidate hstored
    · rw [countP_append, h.undecided stored hold hopen, Nat.zero_add]
      have hproposal : row.proposal.id ≠ stored.id := hne.symm
      obtain rfl | ⟨rfl, -⟩ := hevents <;> simp [ReviewEvent.decides, hproposal]
    · exact absurd hopen hfinal
  · intro proposal made hmem
    obtain hold | hnew := mem_append.mp hmem
    · obtain ⟨other, hother, hsame, hother', hof⟩ := h.decided proposal made hold
      have hne : other.id ≠ row.id := by
        intro heq
        obtain rfl := inj_on_of_nodup_map h.ids hother hrow heq
        exact hother' hpending
      exact ⟨other, mem_updateMemoryWritebackCandidate_of_ne hother hne, hsame, hother', hof⟩
    · have hmade : proposal = row.proposal ∧ made = decision := by
        obtain rfl | ⟨rfl, -⟩ := hevents <;> simpa using hnew
      obtain ⟨rfl, rfl⟩ := hmade
      obtain ⟨stored, hstored, hid, hnow, hkey⟩ :=
        exists_updateMemoryWritebackCandidate host status safety lastError now hrow
          (h.keyed row hrow hpending)
      refine ⟨stored, hstored, hid, hnow ▸ hfinal, fun hdiscarded => ⟨?_, hkey⟩⟩
      obtain ⟨rfl, -⟩ | ⟨-, hcompleted⟩ := hstatus
      · exact hnow
      · cases hcompleted.symm.trans hdiscarded
  · refine ⟨fun id => ?_, fun id => ?_, fun id hstored => ?_, ?_⟩
    · rw [countP_append]
      by_cases hsame : row.id = id
      · subst hsame
        rw [hundecided, Nat.zero_add]
        obtain rfl | ⟨rfl, -⟩ := hevents <;> simp [ReviewEvent.decides, countP_cons] <;>
          split <;> omega
      · have hproposal : row.proposal.id ≠ id := hsame
        have hnone : events.countP (ReviewEvent.decides id) = 0 := by
          obtain rfl | ⟨rfl, -⟩ := hevents <;> simp [ReviewEvent.decides, hproposal]
        rw [hnone]
        exact h.once.decidedOnce id
    · rw [countP_append]
      by_cases hsame : row.id = id
      · subst hsame
        rw [h.countP_stores hundecided, Nat.zero_add]
        obtain rfl | ⟨rfl, -⟩ := hevents <;> simp [ReviewEvent.stores]
      · have hnone : events.countP (ReviewEvent.stores id) = 0 := by
          obtain rfl | ⟨rfl, -⟩ := hevents <;> simp [ReviewEvent.stores, hsame]
        rw [hnone]
        exact h.once.storedOnce id
    · obtain hold | hnew := mem_append.mp hstored
      · obtain ⟨proposal, hsame, hdecided⟩ := h.once.storedApproved id hold
        exact ⟨proposal, hsame, mem_append_left _ hdecided⟩
      · obtain rfl | ⟨rfl, rfl⟩ := hevents
        · simp at hnew
        · obtain rfl : id = row.id := by simpa using hnew
          exact ⟨row.proposal, rfl, by simp⟩
    · refine pairwise_append.mpr ⟨h.once.staysDiscarded, ?_, fun event _ later hlater => ?_⟩
      · obtain rfl | ⟨rfl, -⟩ := hevents <;> simp [NotRepeated]
      · obtain rfl | ⟨rfl, -⟩ := hevents
        · obtain rfl := mem_singleton.mp hlater
          exact notRepeated_decided event _ _
        · obtain rfl | rfl : later = .stored row.id ∨ later = .decided row.proposal decision := by
            simpa using hlater
          · exact notRepeated_stored event _
          · exact notRepeated_decided event _ _

/-- What is stored is completed. -/
theorem storeReviewed_ok {row : WritebackRow} {safety : MemoryWritebackSafetyResult}
    (h : storeReviewed host queue store row request safety = .ok (next, after, outcome)) :
    next = updateMemoryWritebackCandidate host queue row .completed safety none request.now ∧
      reviewEvents row outcome = [.stored row.id, .decided row.proposal .approved] := by
  unfold storeReviewed at h
  dsimp only at h
  split at h
  · cases h
  · split_ifs at h
    split at h
    · cases h
    · cases h
      exact ⟨rfl, rfl⟩

/-- A review that does not throw discards the row it found or completes it. -/
theorem reviewMemoryWritebackCandidate_ok {row : WritebackRow}
    (hrow : (queue.rows.find? fun row => row.id = request.id) = some row)
    (h : reviewMemoryWritebackCandidate host queue store request = .ok (next, after, outcome)) :
    ∃ status safety lastError,
      next = updateMemoryWritebackCandidate host queue row status safety lastError request.now ∧
        (status = .discarded ∧ reviewEvents row outcome = [.decided row.proposal .discarded] ∨
          status = .completed ∧
            reviewEvents row outcome = [.stored row.id, .decided row.proposal .approved]) := by
  unfold reviewMemoryWritebackCandidate at h
  rw [hrow] at h
  dsimp only at h
  by_cases hedited : request.action = .approveEdited ∧ normalizedContent request.editedContent = []
  · rw [if_pos hedited] at h
    cases h
  rw [if_neg hedited] at h
  by_cases hdiscard : request.action = .discard
  · rw [if_pos hdiscard] at h
    cases h
    exact ⟨_, _, _, rfl, .inl ⟨rfl, rfl⟩⟩
  rw [if_neg hdiscard] at h
  generalize inspectMemoryWritebackSafety host row.scope row.sourceType _ = safety at h
  by_cases hblocked : (request.action = .approveLongTerm ∨ request.action = .approveEdited) ∧
      (safety.blocked || row.scope = .diagnostic || host.isDiagnosticSource row.sourceType)
  · rw [if_pos hblocked] at h
    cases h
    exact ⟨_, _, _, rfl, .inl ⟨rfl, rfl⟩⟩
  · rw [if_neg hblocked] at h
    obtain ⟨rfl, hevents⟩ := storeReviewed_ok h
    exact ⟨_, _, _, rfl, .inr ⟨rfl, hevents⟩⟩

theorem Settled.review (h : Settled host state)
    (hasks : AsksForUndecided host state (.review request)) :
    Settled host (reviewStep host state (.review request)) := by
  unfold reviewStep
  dsimp only
  cases hfound : state.queue.rows.find? fun row => row.id = request.id with
  | none => exact h
  | some row =>
    cases hreview : reviewMemoryWritebackCandidate host state.queue state.store request with
    | error error => exact h
    | ok result =>
      obtain ⟨queue, store, outcome⟩ := result
      have hrow := mem_of_find?_eq_some hfound
      have hid := find?_some hfound
      obtain ⟨hopen, hopen'⟩ := hasks row hrow (of_decide_eq_true hid)
      have hpending : row.status = .pending :=
        (h.statuses row hrow).resolve_right (not_or.mpr ⟨hopen, hopen'⟩)
      obtain ⟨status, safety, lastError, rfl, ⟨rfl, hevents⟩ | ⟨rfl, hevents⟩⟩ :=
        reviewMemoryWritebackCandidate_ok hfound hreview
      · exact h.decide hrow hpending (.inl ⟨rfl, rfl⟩) safety lastError request.now
          (.inl hevents)
      · exact h.decide hrow hpending (.inr ⟨rfl, rfl⟩) safety lastError request.now
          (.inr ⟨hevents, rfl⟩)

end Runs

/-! ## Runs that ask for undecided proposals -/

/-- In a run that queues what was just prepared and reviews undecided proposals only, every
proposal is decided once, and a discarded one stays discarded. -/
theorem reviewed_once {host : WritebackHost} {calls : List ReviewCall} {state : ReviewState}
    (run : Run (Meeting (AsksForUndecided host) (Takes (reviewStep? host))) .empty calls state) :
    ReviewedOnce state.history := by
  refine Settled.once (run.invariant_of_meeting ?_ (settled_empty host))
  intro state call next hsettled hasks htaken
  cases htaken
  cases call with
  | prepare candidate => exact hsettled
  | enqueue input now => exact hsettled.enqueue hasks
  | review request => exact hsettled.review hasks

/-- A host whose texts match no pattern. -/
def plainWritebackHost : WritebackHost where
  maskSecrets := id
  maskLocalPaths := id
  looksLikeRawHtmlError _ := false
  looksLikeStackTrace _ := false
  isDiagnosticSource _ := false
  containsPromptInjectionDirective _ := false
  sha256 := id

def teaCandidate : MemoryWritebackCandidate where
  scope := .longTerm
  ownerId := none
  sourceType := ofString "durable_fact_candidate"
  content := ofString "likes tea"
  metadata := ⟨none, none, none, false, false, none, none⟩

def teaPrepared : PreparedMemoryWritebackCandidate :=
  prepareMemoryWritebackQueueInput plainWritebackHost ReviewState.empty.queue teaCandidate

theorem discardTea_reviewedOnce :
    ReviewedOnce ([.enqueue teaPrepared 1, .review ⟨0, .discard, [], 2⟩].foldl
      (reviewStep plainWritebackHost) .empty).history := by
  suffices run : Run (Meeting (AsksForUndecided plainWritebackHost)
      (Takes (reviewStep? plainWritebackHost))) .empty
      [.enqueue teaPrepared 1, .review ⟨0, .discard, [], 2⟩] _ from reviewed_once run
  have hqueued : AsksForUndecided plainWritebackHost .empty (.enqueue teaPrepared 1) :=
    ⟨⟨teaCandidate, rfl⟩, by decide, by simp [DiscardedIn, ReviewState.empty]⟩
  have hopen : AsksForUndecided plainWritebackHost
      (reviewStep plainWritebackHost .empty (.enqueue teaPrepared 1))
      (.review ⟨0, .discard, [], 2⟩) := by
    unfold AsksForUndecided
    decide +kernel
  exact ((Run.start _).extend _ ⟨hqueued, rfl⟩).extend _ ⟨hopen, rfl⟩

/-- A proposal is approved after it was discarded. -/
theorem discardedTea_approved :
    ∃ calls state, Run (Takes (reviewStep? plainWritebackHost)) .empty calls state ∧
      ¬ ReviewedOnce state.history := by
  refine ⟨[.enqueue teaPrepared 1, .review ⟨0, .discard, [], 2⟩,
    .review ⟨0, .approveLongTerm, [], 3⟩], _, Run.of_execute rfl, fun h => ?_⟩
  have hdecided := h.decidedOnce 0
  revert hdecided
  decide +kernel

end Nobie.Memory
