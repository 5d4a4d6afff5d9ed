/-
# Delivering a final answer

An answer goes to a channel through two entry points: `emitAssistantTextDelivery` hands the
text and then a closing chunk to the handler of the channel, and `commitFinalDelivery` does the
same for the parent run once its own checks are passed. Both look into the ledger first and
write down only afterwards what came of it. The calls for one run, channel and session are
threads of a step relation; a step is what happens between two awaits.
-/

import Mathlib.Data.List.TakeWhile
import Mathlib.Data.Option.Basic
import Nobie.Foundation.Transition
import Nobie.Runs.MessageLedger

namespace Nobie.Runs

open Foundation JsString

/-! ## Keys -/

/-- The delivery keys of the rows: of a text, of the final answer, and those other code
writes. -/
inductive DeliveryKey (Digest : Type)
  | text (digest : Digest)
  | final
  | foreign (key : JsString)
  deriving DecidableEq

/-- The idempotency keys of the rows. A text's key holds its digest, and a suppressed delivery
the clock as well. -/
inductive DeliveryIdempotencyKey (Digest : Type)
  | textDelivery (digest : Digest)
  | childDirectBlocked (digest : Digest)
  | textSuppressed (digest : Digest) (now : ℤ)
  | finalAnswer
  | finalDelivery
  | finalBlocked (blockedHash : Digest)
  | finalDuplicate (duplicateHash : Digest)
  | foreign (key : JsString)
  deriving DecidableEq

/-- `hashLedgerValue` of a text, of reason codes and of the id of an existing event. -/
structure LedgerHashes (Digest : Type) where
  ofText : JsString → Digest
  ofReasonCodes : List JsString → Digest
  ofEventId : JsString → Digest

abbrev DeliveryEvent (Digest : Type) : Type :=
  MessageLedgerEvent (DeliveryIdempotencyKey Digest) (DeliveryKey Digest)

abbrev DeliveryLedger (Digest : Type) : Type := List (DeliveryEvent Digest)

def deliveryEvent {Digest : Type} (stamp : RowStamp) (eventKind : MessageLedgerEventKind)
    (deliveryKey : DeliveryKey Digest) (idempotencyKey : DeliveryIdempotencyKey Digest)
    (status : MessageLedgerStatus) : DeliveryEvent Digest where
  id := stamp.id
  eventKind := eventKind
  deliveryKey := some deliveryKey
  idempotencyKey := some idempotencyKey
  status := status
  createdAt := stamp.now

/-! ## Inputs and results -/

/-- The parameters of a final delivery that is not forced. -/
structure AssistantTextDelivery where
  text : JsString
  hasHandler : Bool := true
  fromSubSession : Bool := false
  persistMessage : Bool := true
  emitDone : Bool := true

structure AssistantTextDeliveryReceipt where
  (persisted textDelivered doneDelivered : Bool)
  deriving DecidableEq

inductive DeliveryFailureStage
  | none | text | done | textAndDone
  deriving DecidableEq

structure AssistantTextDeliveryOutcome where
  receipt : AssistantTextDeliveryReceipt
  hasDeliveryFailure : Bool
  failureStage : DeliveryFailureStage
  deriving DecidableEq

def resolveAssistantTextDeliveryOutcome (receipt : AssistantTextDeliveryReceipt) :
    AssistantTextDeliveryOutcome where
  receipt := receipt
  hasDeliveryFailure := !receipt.textDelivered || !receipt.doneDelivered
  failureStage :=
    if !receipt.textDelivered && !receipt.doneDelivered then .textAndDone
    else if !receipt.textDelivered then .text
    else if !receipt.doneDelivered then .done
    else .none

structure FinalDeliveryAttribution where
  (nicknameSnapshot summary : JsString)
  deriving DecidableEq

inductive FinalizerApprovalStatus
  | requested | approved | consumed | denied | expired | superseded
  deriving DecidableEq

structure FinalizerApproval where
  approvalId : JsString
  status : FinalizerApprovalStatus

/-- `decideSubSessionCompletionIntegration` of the reviews. -/
structure CompletionIntegration where
  finalDeliveryAllowed : Bool
  reasonCodes : List JsString

/-- The input of a commit. The attributions of the result reports, the integration of the
reviews and the paths of the issues of the visible message are given. -/
structure FinalDeliveryInput where
  text : JsString
  hasHandler : Bool := true
  attributions : List FinalDeliveryAttribution := []
  integration : Option CompletionIntegration := none
  approvals : List FinalizerApproval := []
  visibleIssues : List JsString := []

inductive FinalDeliveryStatus
  | delivered | duplicateSuppressed | blocked | deliveryFailed
  deriving DecidableEq

structure FinalDeliveryCommitResult where
  status : FinalDeliveryStatus
  text : JsString
  attributions : List FinalDeliveryAttribution
  reasonCodes : List JsString
  existingEventId : Option JsString := none
  deliveryOutcome : Option AssistantTextDeliveryOutcome := none
  deriving DecidableEq

/-! ## Texts -/

def attributionLine (item : FinalDeliveryAttribution) : JsString :=
  ofString "- " ++ item.nicknameSnapshot ++ ofString ": " ++ item.summary

def buildNobieFinalAnswer (text : JsString) (attributions : List FinalDeliveryAttribution) :
    JsString :=
  let trimmed := trim text
  if attributions = [] then trimmed
  else
    let lines := (attributions.map attributionLine).intersperse (ofString "\n")
    let listed := ofString "참고한 서브 에이전트 결과:\n" ++ lines.flatten
    (([trimmed, listed].filter (· ≠ [])).intersperse (ofString "\n\n")).flatten

def FinalizerApprovalStatus.text : FinalizerApprovalStatus → String
  | .requested => "requested"
  | .approved => "approved"
  | .consumed => "consumed"
  | .denied => "denied"
  | .expired => "expired"
  | .superseded => "superseded"

def blockingApprovalReasonCodes (approvals : List FinalizerApproval) : List JsString :=
  (approvals.filter fun approval => approval.status = .requested || approval.status = .denied ||
    approval.status = .expired || approval.status = .superseded).map fun approval =>
      ofString "approval_" ++ ofString approval.status.text ++ ofString ":" ++ approval.approvalId

def FinalDeliveryInput.answer (input : FinalDeliveryInput) : JsString :=
  buildNobieFinalAnswer input.text input.attributions

/-- The reasons for which a commit is blocked before it looks into the ledger. -/
def FinalDeliveryInput.reasonCodes (input : FinalDeliveryInput) : List JsString :=
  (if trim input.answer = [] then [ofString "final_answer_empty"] else []) ++
    (match input.integration with
      | some integration =>
        if integration.finalDeliveryAllowed then [] else integration.reasonCodes
      | none => []) ++
    blockingApprovalReasonCodes input.approvals

/-! ## Phases -/

inductive DeliveryCall
  | emit (params : AssistantTextDelivery)
  | commit (input : FinalDeliveryInput)

/-- The delivery a call makes. -/
def DeliveryCall.delivery : DeliveryCall → AssistantTextDelivery
  | .emit params => params
  | .commit input => { text := input.answer, hasHandler := input.hasHandler }

/-- The text a call delivers. -/
def DeliveryCall.text (call : DeliveryCall) : JsString := trim call.delivery.text

/-- Where a call is: a chunk is with the handler, its outcome is known, the delivery has
returned, or the commit has. -/
inductive DeliveryPhase
  | textChunk
  | textSettled (textFailed : Bool)
  | doneChunk (textFailed : Bool)
  | doneSettled (textFailed doneFailed : Bool)
  | returned (receipt : AssistantTextDeliveryReceipt)
  | committed (result : FinalDeliveryCommitResult)
  deriving DecidableEq

/-- A call under way. A text chunk that timed out stays with the handler. -/
structure DeliveryThread where
  call : DeliveryCall
  phase : DeliveryPhase
  textPending : Bool

variable {Digest : Type} [DecidableEq Digest]

/-! ## The two functions -/

def nothingDelivered : AssistantTextDeliveryReceipt := ⟨false, false, false⟩

/-- The look-up of a text among the rows, where it succeeded. -/
def previousDelivery (hashes : LedgerHashes Digest) (ledger : DeliveryLedger Digest)
    (text : JsString) : Bool :=
  (getMessageLedgerEventByIdempotencyKey ledger (.textDelivery (hashes.ofText text))).any
    MessageLedgerEvent.succeeded

/-- `emitAssistantTextDelivery` up to its first await. -/
def startEmit (hashes : LedgerHashes Digest) (params : AssistantTextDelivery) (stamp : RowStamp)
    (ledger : DeliveryLedger Digest) : DeliveryLedger Digest × DeliveryPhase :=
  let normalized := trim params.text
  let digest := hashes.ofText normalized
  if normalized = [] then (ledger, .returned nothingDelivered)
  else if params.fromSubSession then
    (recordMessageLedgerEvent ledger (deliveryEvent stamp .textDeliverySuppressed (.text digest)
      (.childDirectBlocked digest) .suppressed), .returned nothingDelivered)
  else if previousDelivery hashes ledger normalized then
    (recordMessageLedgerEvent ledger (deliveryEvent stamp .textDeliverySuppressed (.text digest)
      (.textSuppressed digest stamp.now) .suppressed), .returned ⟨false, true, params.emitDone⟩)
  -- without a handler the await of the chunk is over at once
  else (ledger, if params.hasHandler then .textChunk else .textSettled false)

/-- `emitAssistantTextDelivery` after its last await. -/
def finishEmit (hashes : LedgerHashes Digest) (params : AssistantTextDelivery)
    (textFailed doneDelivered : Bool) (stamp : RowStamp) (ledger : DeliveryLedger Digest) :
    DeliveryLedger Digest × DeliveryPhase :=
  let digest := hashes.ofText (trim params.text)
  let receipt : AssistantTextDeliveryReceipt :=
    ⟨params.persistMessage, !params.hasHandler || !textFailed, doneDelivered⟩
  let delivered := receipt.textDelivered
  (recordMessageLedgerEvent ledger
    (deliveryEvent stamp (if delivered then .textDelivered else .textDeliveryFailed)
      (.text digest) (.textDelivery digest) (if delivered then .delivered else .failed)),
    .returned receipt)

/-- The event of the final answer among the first thousand of the run; without a session any
final answer of the run counts. -/
def findCommittedFinalDelivery (sessionId : JsString) (ledger : DeliveryLedger Digest) :
    Option (DeliveryEvent Digest) :=
  (listMessageLedgerEvents 1000 ledger).find? fun event =>
    (sessionId = [] || event.deliveryKey = some .final) &&
      event.eventKind = .finalAnswerDelivered && event.succeeded

def commitBlocked (hashes : LedgerHashes Digest) (input : FinalDeliveryInput)
    (reasonCodes : List JsString) (stamp : RowStamp) (ledger : DeliveryLedger Digest) :
    DeliveryLedger Digest × DeliveryPhase :=
  (recordMessageLedgerEvent ledger (deliveryEvent stamp .finalAnswerSuppressed .final
      (.finalBlocked (hashes.ofReasonCodes reasonCodes)) .suppressed),
    .committed
      { status := .blocked
        text := input.answer
        attributions := input.attributions
        reasonCodes })

/-- `commitFinalDelivery` up to its first await. -/
def startCommit (hashes : LedgerHashes Digest) (sessionId : JsString) (input : FinalDeliveryInput)
    (stamp emitStamp : RowStamp) (ledger : DeliveryLedger Digest) :
    DeliveryLedger Digest × DeliveryPhase :=
  if input.reasonCodes ≠ [] then commitBlocked hashes input input.reasonCodes stamp ledger
  else
    match findCommittedFinalDelivery sessionId ledger with
    | some existing =>
      (recordMessageLedgerEvent ledger (deliveryEvent stamp .finalAnswerSuppressed .final
          (.finalDuplicate (hashes.ofEventId existing.id)) .suppressed),
        .committed
          { status := .duplicateSuppressed
            text := input.answer
            attributions := input.attributions
            reasonCodes := [ofString "final_delivery_already_committed"]
            existingEventId := some existing.id })
    | none =>
      if input.visibleIssues ≠ [] then
        commitBlocked hashes input input.visibleIssues stamp ledger
      else
        startEmit hashes (DeliveryCall.commit input).delivery emitStamp
          (recordMessageLedgerEvent ledger
            (deliveryEvent stamp .finalAnswerGenerated .final .finalAnswer .generated))

def deliveryFailedCode : DeliveryFailureStage → String
  | .none => "delivery_none_failed"
  | .text => "delivery_text_failed"
  | .done => "delivery_done_failed"
  | .textAndDone => "delivery_text_and_done_failed"

/-- `commitFinalDelivery` after its await. -/
def finishCommit (input : FinalDeliveryInput) (receipt : AssistantTextDeliveryReceipt)
    (stamp : RowStamp) (ledger : DeliveryLedger Digest) :
    DeliveryLedger Digest × DeliveryPhase :=
  let deliveryOutcome := resolveAssistantTextDeliveryOutcome receipt
  if deliveryOutcome.hasDeliveryFailure then
    (ledger, .committed
      { status := .deliveryFailed
        text := input.answer
        attributions := input.attributions
        reasonCodes := [ofString (deliveryFailedCode deliveryOutcome.failureStage)]
        deliveryOutcome := some deliveryOutcome })
  else
    (recordMessageLedgerEvent ledger
        (deliveryEvent stamp .finalAnswerDelivered .final .finalDelivery .delivered),
      .committed
        { status := .delivered
          text := input.answer
          attributions := input.attributions
          reasonCodes := [ofString "final_delivery_committed"]
          deliveryOutcome := some deliveryOutcome })

def startCall (hashes : LedgerHashes Digest) (sessionId : JsString) (call : DeliveryCall)
    (stamp emitStamp : RowStamp) (ledger : DeliveryLedger Digest) :
    DeliveryLedger Digest × DeliveryPhase :=
  match call with
  | .emit params => startEmit hashes params emitStamp ledger
  | .commit input => startCommit hashes sessionId input stamp emitStamp ledger

/-- What a call does when its await is over. -/
def resumeCall (hashes : LedgerHashes Digest) (thread : DeliveryThread) (stamp : RowStamp)
    (ledger : DeliveryLedger Digest) : Option (DeliveryLedger Digest × DeliveryPhase) :=
  let params := thread.call.delivery
  match thread.phase, thread.call with
  | .textSettled textFailed, _ =>
    if !params.emitDone then some (finishEmit hashes params textFailed false stamp ledger)
    else some (ledger, if params.hasHandler then .doneChunk textFailed
      else .doneSettled textFailed false)
  | .doneSettled textFailed doneFailed, _ =>
    some (finishEmit hashes params textFailed (!doneFailed) stamp ledger)
  | .returned receipt, .commit input => some (finishCommit input receipt stamp ledger)
  | _, _ => none

/-! ## Runs -/

/-- How the await of a chunk ends. The queue gives a chunk up after a while, and the handler
may still be at it. -/
inductive ChunkOutcome
  | delivered | failed | timedOut
  deriving DecidableEq

/-- The ledger, the calls in the order of their starts, and the texts that the handler has
taken. -/
structure DeliveryState (Digest : Type) where
  ledger : DeliveryLedger Digest := []
  threads : List DeliveryThread := []
  handed : List JsString := []

inductive DeliveryStep (Digest : Type)
  | start (call : DeliveryCall) (stamp emitStamp : RowStamp)
  | settleText (thread : ℕ) (outcome : ChunkOutcome)
  | lateText (thread : ℕ) (accepted : Bool)
  | settleDone (thread : ℕ) (outcome : ChunkOutcome)
  | resume (thread : ℕ) (stamp : RowStamp)
  | otherEvent (event : DeliveryEvent Digest)

def DeliveryKey.isForeign : DeliveryKey Digest → Bool
  | .foreign _ => true
  | _ => false

def DeliveryIdempotencyKey.isForeign : DeliveryIdempotencyKey Digest → Bool
  | .foreign _ => true
  | _ => false

/-- A row that other code writes for the run: its keys are none of those above. -/
def isForeignEvent (event : DeliveryEvent Digest) : Bool :=
  event.idempotencyKey.all DeliveryIdempotencyKey.isForeign &&
    event.deliveryKey.all DeliveryKey.isForeign

namespace DeliveryState

/-- A call goes on. -/
def setThread (state : DeliveryState Digest) (thread : ℕ) (value : DeliveryThread) :
    DeliveryState Digest :=
  { state with threads := state.threads.set thread value }

/-- A call has handed its text over. -/
def handOver (state : DeliveryState Digest) (text : JsString) : DeliveryState Digest :=
  { state with handed := state.handed ++ [text] }

end DeliveryState

def deliveryStep? (hashes : LedgerHashes Digest) (sessionId : JsString)
    (state : DeliveryState Digest) : DeliveryStep Digest → Option (DeliveryState Digest)
  | .start call stamp emitStamp =>
    let (ledger, phase) := startCall hashes sessionId call stamp emitStamp state.ledger
    some { state with
      ledger
      threads := state.threads ++ [{ call, phase, textPending := phase = .textChunk }] }
  | .settleText index outcome => do
    let thread ← state.threads[index]?
    guard (thread.phase = .textChunk)
    match outcome with
    | .delivered =>
      some ((state.setThread index { thread with
        phase := .textSettled false, textPending := false }).handOver thread.call.text)
    | .failed =>
      some (state.setThread index { thread with
        phase := .textSettled true, textPending := false })
    | .timedOut => some (state.setThread index { thread with phase := .textSettled true })
  | .lateText index accepted => do
    let thread ← state.threads[index]?
    guard (thread.textPending ∧ thread.phase ≠ .textChunk)
    let settled := state.setThread index { thread with textPending := false }
    some (if accepted then settled.handOver thread.call.text else settled)
  | .settleDone index outcome => do
    let thread ← state.threads[index]?
    match thread.phase with
    | .doneChunk textFailed =>
      some (state.setThread index { thread with
        phase := .doneSettled textFailed (outcome ≠ .delivered) })
    | _ => none
  | .resume index stamp => do
    let thread ← state.threads[index]?
    let (ledger, phase) ← resumeCall hashes thread stamp state.ledger
    some { state.setThread index { thread with phase } with ledger }
  | .otherEvent event => do
    guard (isForeignEvent event)
    some { state with ledger := recordMessageLedgerEvent state.ledger event }

/-! ## A final text is delivered once

The look-up of a text comes before the await of its chunk and the row after it, and the row of a
failed attempt keeps the text's key for good. -/

open List Option

variable {Digest : Type} [DecidableEq Digest]

/-! ## What is guarded -/

variable (thread : DeliveryThread)

/-- The receipt of the delivery a call made, once the call has returned. -/
def DeliveryThread.receipt? : Option AssistantTextDeliveryReceipt :=
  match thread.phase with
  | .returned receipt => some receipt
  | .committed result => result.deliveryOutcome.map AssistantTextDeliveryOutcome.receipt
  | _ => none

/-- A call has returned and says that the text was delivered. -/
def DeliveryThread.reportsText : Bool :=
  thread.receipt?.any AssistantTextDeliveryReceipt.textDelivered

/-- A commit has returned and says that another one went before it. -/
def DeliveryThread.reportsDuplicate : Bool :=
  match thread.phase with
  | .committed result => result.status = .duplicateSuppressed
  | _ => false

/-- A call is between its look-up and its row. -/
def DeliveryPhase.inFlight : DeliveryPhase → Bool
  | .returned _ | .committed _ => false
  | _ => true

/-- The text of a call got through, and its row is still to be written. -/
def DeliveryPhase.textThrough : DeliveryPhase → Bool
  | .textSettled textFailed | .doneChunk textFailed | .doneSettled textFailed _ => !textFailed
  | _ => false

/-- A call may be sent: nothing but the look-up of its text keeps it back. -/
def MaySend (sessionId : JsString) (ledger : DeliveryLedger Digest) : DeliveryCall → Prop
  | .emit params => trim params.text ≠ [] ∧ params.fromSubSession = false
  | .commit input =>
    input.reasonCodes = [] ∧ input.visibleIssues = [] ∧
      findCommittedFinalDelivery sessionId ledger = none

/-- The digest of a text is that of no other text among the calls. -/
def OwnDigest (hashes : LedgerHashes Digest) (state : DeliveryState Digest) (text : JsString) :
    Prop :=
  ∀ thread ∈ state.threads, hashes.ofText thread.call.text = hashes.ofText text →
    thread.call.text = text

/-- No text went out twice; what is reported happened; a text that has not gone out can be
sent, and one reported as delivered is not sent again. -/
structure DeliveredOnce (hashes : LedgerHashes Digest) (sessionId : JsString)
    (state : DeliveryState Digest) : Prop where
  once : ∀ text, state.handed.count text ≤ 1
  reported : ∀ thread ∈ state.threads, thread.reportsText = true →
    thread.call.text ∈ state.handed
  duplicate : ∀ thread ∈ state.threads, thread.reportsDuplicate = true → sessionId ≠ [] →
    state.handed ≠ []
  retry : ∀ call stamp emitStamp, MaySend sessionId state.ledger call →
    OwnDigest hashes state call.text → call.text ∉ state.handed →
    (startCall hashes sessionId call stamp emitStamp state.ledger).2.inFlight = true
  remembered : ∀ thread ∈ state.threads, thread.reportsText = true →
    ∀ call stamp emitStamp, call.text = thread.call.text →
    (startCall hashes sessionId call stamp emitStamp state.ledger).2.inFlight = false

/-- A text chunk may still get through, or its row is still to be written. -/
def DeliveryThread.Live : Prop :=
  thread.textPending = true ∨ thread.phase.inFlight = true

/-- The row under the key of a text. -/
def textRow (hashes : LedgerHashes Digest) (ledger : DeliveryLedger Digest) (text : JsString) :
    Option (DeliveryEvent Digest) :=
  getMessageLedgerEventByIdempotencyKey ledger (.textDelivery (hashes.ofText text))

/-- The steps that leave the ledger in charge: a text is sent to a handler, while no chunk of
it has got through and no other call for it is at work, and its chunk gets through only while
no earlier attempt left a row. -/
def InCharge (hashes : LedgerHashes Digest) (sessionId : JsString)
    (state : DeliveryState Digest) : DeliveryStep Digest → Prop
  | .start call _ _ =>
    OwnDigest hashes state call.text ∧
      (MaySend sessionId state.ledger call →
        previousDelivery hashes state.ledger call.text = false →
        call.delivery.hasHandler = true ∧ call.text ∉ state.handed ∧
          ∀ thread ∈ state.threads, thread.call.text = call.text → ¬ thread.Live)
  | .settleText index .delivered => ∀ thread ∈ state.threads[index]?,
      textRow hashes state.ledger thread.call.text = none
  | _ => True

instance (sessionId : JsString) (ledger : DeliveryLedger Digest) :
    DecidablePred (MaySend sessionId ledger)
  | .emit _ => inferInstanceAs (Decidable (_ ∧ _))
  | .commit _ => inferInstanceAs (Decidable (_ ∧ _ ∧ _))

instance (hashes : LedgerHashes Digest) (state : DeliveryState Digest) (text : JsString) :
    Decidable (OwnDigest hashes state text) :=
  inferInstanceAs (Decidable (∀ thread ∈ state.threads, _ → _))

instance : DecidablePred DeliveryThread.Live := fun _ => inferInstanceAs (Decidable (_ ∨ _))

instance (hashes : LedgerHashes Digest) (sessionId : JsString) (state : DeliveryState Digest) :
    DecidablePred (InCharge hashes sessionId state)
  | .start call _ _ => inferInstanceAs (Decidable (OwnDigest hashes state call.text ∧ (_ → _ →
      _ ∧ _ ∧ ∀ thread ∈ state.threads, thread.call.text = call.text → ¬ thread.Live)))
  | .settleText index .delivered =>
    inferInstanceAs (Decidable (∀ thread ∈ state.threads[index]?, _))
  | .settleText _ .failed | .settleText _ .timedOut | .lateText _ _ | .settleDone _ _
  | .resume _ _ | .otherEvent _ => isTrue trivial

/-! ## Reports -/

variable {thread : DeliveryThread} {text : JsString} {threads : List DeliveryThread}
  {found : DeliveryThread} {index : ℕ} {thread' : DeliveryThread} {stamp : RowStamp}
  {result : DeliveryLedger Digest × DeliveryPhase}

theorem reportsText_iff :
    thread.reportsText = true ↔
      (∃ receipt, thread.phase = .returned receipt ∧ receipt.textDelivered = true) ∨
        ∃ answer outcome, thread.phase = .committed answer ∧
          answer.deliveryOutcome = some outcome ∧ outcome.receipt.textDelivered = true := by
  obtain ⟨call, phase, textPending⟩ := thread
  unfold DeliveryThread.reportsText DeliveryThread.receipt?
  cases phase <;> simp [Option.any_eq_true]

theorem reportsDuplicate_iff :
    thread.reportsDuplicate = true ↔
      ∃ answer, thread.phase = .committed answer ∧ answer.status = .duplicateSuppressed := by
  obtain ⟨call, phase, textPending⟩ := thread
  unfold DeliveryThread.reportsDuplicate
  cases phase <;> simp

/-! ## The start of a call -/

variable {row : DeliveryEvent Digest} {ledger : DeliveryLedger Digest}

section Start

variable {hashes : LedgerHashes Digest} {sessionId : JsString} {ledger : DeliveryLedger Digest}
  {stamp emitStamp : RowStamp}

/-- A row that the guard of texts does not look at. -/
def Aside (row : DeliveryEvent Digest) : Prop :=
  (∀ digest, row.idempotencyKey ≠ some (.textDelivery digest)) ∧
    ¬ (row.deliveryKey = some .final ∧ row.eventKind = .finalAnswerDelivered)

theorem textRow_record (hrow : Aside row) (text : JsString) :
    textRow hashes (recordMessageLedgerEvent ledger row) text = textRow hashes ledger text :=
  getMessageLedgerEvent_record_of_ne (hrow.1 _)

/-- The first part of a call writes rows aside, and it sends the text or returns. -/
structure Started (hashes : LedgerHashes Digest) (sessionId : JsString)
    (ledger : DeliveryLedger Digest) (call : DeliveryCall)
    (result : DeliveryLedger Digest × DeliveryPhase) : Prop where
  rows : ∃ rows : List (DeliveryEvent Digest), (∀ row ∈ rows, Aside row) ∧
    result.1 = rows.foldl recordMessageLedgerEvent ledger
  sends : result.2.inFlight = true ↔
    MaySend sessionId ledger call ∧ previousDelivery hashes ledger call.text = false
  chunk : result.2.inFlight = true →
    result.2 = if call.delivery.hasHandler then .textChunk else .textSettled false
  returned : ∀ receipt, result.2 = .returned receipt → receipt.textDelivered = true →
    previousDelivery hashes ledger call.text = true
  committed : ∀ answer, result.2 = .committed answer →
    (∃ input, call = .commit input) ∧ answer.deliveryOutcome = none ∧
      (answer.status = .duplicateSuppressed →
        (findCommittedFinalDelivery sessionId ledger).isSome = true)

theorem startEmit_started (params : AssistantTextDelivery) :
    Started hashes sessionId ledger (.emit params) (startEmit hashes params stamp ledger) := by
  have hcall : (DeliveryCall.emit params).text = trim params.text := rfl
  unfold startEmit
  dsimp only
  split
  · next hempty =>
    refine ⟨⟨[], by simp, rfl⟩, ?_, nofun, ?_, nofun⟩
    · simp [DeliveryPhase.inFlight, MaySend, hempty]
    · rintro _ ⟨⟩ hdelivered
      cases hdelivered
  split
  · next hsub =>
    refine ⟨⟨[_], by simp [Aside, deliveryEvent], rfl⟩, ?_, nofun, ?_, nofun⟩
    · simp [DeliveryPhase.inFlight, MaySend, hsub]
    · rintro _ ⟨⟩ hdelivered
      cases hdelivered
  split
  · next hprevious =>
    refine ⟨⟨[_], by simp [Aside, deliveryEvent], rfl⟩, ?_, nofun, ?_, nofun⟩
    · simp [DeliveryPhase.inFlight, hcall, hprevious]
    · rintro _ - -
      exact hprevious
  · next hempty hsub hprevious =>
    rw [Bool.not_eq_true] at hsub hprevious
    refine ⟨⟨[], by simp, rfl⟩, ?_, fun _ => rfl, ?_, ?_⟩
    · have hflight : (if params.hasHandler then DeliveryPhase.textChunk
          else .textSettled false).inFlight = true := by
        split <;> rfl
      simp [hflight, MaySend, hempty, hsub, hcall, hprevious]
    · intro receipt hphase
      split at hphase <;> exact nomatch hphase
    · intro answer hphase
      split at hphase <;> exact nomatch hphase

theorem trim_answer_of_reasonCodes {input : FinalDeliveryInput} (hcodes : input.reasonCodes = []) :
    trim input.answer ≠ [] := by
  intro hempty
  unfold FinalDeliveryInput.reasonCodes at hcodes
  rw [if_pos hempty] at hcodes
  simp at hcodes

theorem startCommit_started (input : FinalDeliveryInput) :
    Started hashes sessionId ledger (.commit input)
      (startCommit hashes sessionId input stamp emitStamp ledger) := by
  have hblocked (codes : List JsString) (hsends : ¬ MaySend sessionId ledger (.commit input)) :
      Started hashes sessionId ledger (.commit input)
        (commitBlocked hashes input codes stamp ledger) := by
    refine ⟨⟨[_], by simp [Aside, deliveryEvent], rfl⟩, ?_, nofun, nofun, ?_⟩
    · simp [DeliveryPhase.inFlight, commitBlocked, hsends]
    · rintro _ ⟨⟩
      exact ⟨⟨input, rfl⟩, rfl, nofun⟩
  unfold startCommit
  split
  · next hcodes => exact hblocked _ fun hsends => hcodes hsends.1
  next hcodes =>
  rw [not_not] at hcodes
  cases hfound : findCommittedFinalDelivery sessionId ledger with
  | some existing =>
    refine ⟨⟨[_], by simp [Aside, deliveryEvent], rfl⟩, ?_, nofun, nofun, ?_⟩
    · simp [DeliveryPhase.inFlight, MaySend, hfound]
    · rintro _ ⟨⟩
      exact ⟨⟨input, rfl⟩, rfl, fun _ => by simp [hfound]⟩
  | none =>
    dsimp only
    split
    · next hissues => exact hblocked _ fun hsends => hissues hsends.2.1
    next hissues =>
    rw [not_not] at hissues
    obtain ⟨generated, hgenerated⟩ : ∃ generated : DeliveryEvent Digest, generated =
      deliveryEvent stamp .finalAnswerGenerated .final .finalAnswer .generated := ⟨_, rfl⟩
    have haside : Aside generated := by simp [hgenerated, Aside, deliveryEvent]
    rw [← hgenerated]
    have hstarted := @startEmit_started Digest _ hashes sessionId
      (recordMessageLedgerEvent ledger generated) emitStamp (DeliveryCall.commit input).delivery
    have hprevious : previousDelivery hashes (recordMessageLedgerEvent ledger generated)
        (DeliveryCall.commit input).text =
          previousDelivery hashes ledger (DeliveryCall.commit input).text :=
      congrArg (fun row => row.any MessageLedgerEvent.succeeded)
        (textRow_record haside _)
    obtain ⟨rows, hrows, hledger⟩ := hstarted.rows
    refine ⟨⟨generated :: rows, forall_mem_cons.mpr ⟨haside, hrows⟩, hledger⟩, ?_,
      hstarted.chunk, fun receipt hphase hdelivered => ?_, fun answer hphase => ?_⟩
    · rw [hstarted.sends]
      have htext := trim_answer_of_reasonCodes hcodes
      have hmay : MaySend sessionId ledger (.commit input) := ⟨hcodes, hissues, hfound⟩
      have hmayEmit : MaySend sessionId (recordMessageLedgerEvent ledger generated)
        (.emit (DeliveryCall.commit input).delivery) := ⟨htext, rfl⟩
      simp only [hmay, hmayEmit, true_and]
      exact Eq.congr_left hprevious
    · exact hprevious ▸ hstarted.returned receipt hphase hdelivered
    · obtain ⟨⟨_, hemit⟩, -⟩ := hstarted.committed answer hphase
      exact nomatch hemit

theorem startCall_started (call : DeliveryCall) :
    Started hashes sessionId ledger call
      (startCall hashes sessionId call stamp emitStamp ledger) := by
  cases call with
  | emit params => exact startEmit_started params
  | commit input => exact startCommit_started input

end Start

/-! ## What the steps keep -/

section Steps

variable {hashes : LedgerHashes Digest} {sessionId : JsString}

/-- What holds of a call: its handler is there while it sends, a text with the handler has not
gone out, one that got through has no row yet, and a report is borne out. -/
structure ThreadSound (hashes : LedgerHashes Digest) (sessionId : JsString)
    (ledger : DeliveryLedger Digest) (handed : List JsString) (thread : DeliveryThread) :
    Prop where
  handler : thread.phase.inFlight = true → thread.call.delivery.hasHandler = true
  chunk : thread.phase = .textChunk → thread.textPending = true
  pending : thread.textPending = true → thread.call.text ∉ handed
  through : thread.phase.textThrough = true → thread.call.text ∈ handed ∧
    textRow hashes ledger thread.call.text = none
  reported : thread.reportsText = true → thread.call.text ∈ handed ∧
    previousDelivery hashes ledger thread.call.text = true
  duplicate : thread.reportsDuplicate = true → sessionId ≠ [] → handed ≠ []

/-- What holds of a row: a delivered text has gone out. -/
structure RowSound (hashes : LedgerHashes Digest) (state : DeliveryState Digest)
    (row : DeliveryEvent Digest) : Prop where
  text : ∀ digest, row.idempotencyKey = some (.textDelivery digest) → row.succeeded = true →
    ∃ thread ∈ state.threads, hashes.ofText thread.call.text = digest ∧
      thread.call.text ∈ state.handed
  final : row.deliveryKey = some .final → row.eventKind = .finalAnswerDelivered →
    state.handed ≠ []

structure Sound (hashes : LedgerHashes Digest) (sessionId : JsString)
    (state : DeliveryState Digest) : Prop where
  digests : ∀ thread ∈ state.threads, OwnDigest hashes state thread.call.text
  alone : ∀ (index other : ℕ) (thread thread' : DeliveryThread),
    state.threads[index]? = some thread → state.threads[other]? = some thread' →
    thread.call.text = thread'.call.text → thread.Live → thread'.Live → index = other
  once : state.handed.Nodup
  rows : ∀ row ∈ state.ledger, RowSound hashes state row
  threads : ∀ thread ∈ state.threads,
    ThreadSound hashes sessionId state.ledger state.handed thread

variable {state : DeliveryState Digest}

theorem sound_empty : Sound hashes sessionId {} :=
  ⟨by simp, by simp, nodup_nil, by simp, by simp⟩

/-- A successful look-up finds a text that has gone out. -/
theorem Sound.handed_of_previous (h : Sound hashes sessionId state)
    (htext : OwnDigest hashes state text)
    (hprevious : previousDelivery hashes state.ledger text = true) : text ∈ state.handed := by
  obtain ⟨row, hrow, hsucceeded⟩ := (Option.any_eq_true _ _).mp hprevious
  obtain ⟨hmem, hkey⟩ := mem_of_getMessageLedgerEvent hrow
  obtain ⟨thread, hthread, hdigest, hhanded⟩ := (h.rows row hmem).text _ hkey hsucceeded
  exact htext thread hthread hdigest ▸ hhanded

theorem previousDelivery_record (row : DeliveryEvent Digest)
    (hprevious : previousDelivery hashes ledger text = true) :
    previousDelivery hashes (recordMessageLedgerEvent ledger row) text = true := by
  obtain ⟨found, hfound, hsucceeded⟩ := (Option.any_eq_true _ _).mp hprevious
  exact (Option.any_eq_true _ _).mpr
    ⟨found, getMessageLedgerEvent_record_of_some hfound, hsucceeded⟩

theorem ThreadSound.kept {ledger' : DeliveryLedger Digest} {handed handed' : List JsString}
    (h : ThreadSound hashes sessionId ledger handed thread) (hhanded : handed ⊆ handed')
    (hpending : thread.textPending = true → thread.call.text ∉ handed')
    (hfree : thread.phase.textThrough = true → textRow hashes ledger' thread.call.text = none)
    (hprevious : previousDelivery hashes ledger thread.call.text = true →
      previousDelivery hashes ledger' thread.call.text = true) :
    ThreadSound hashes sessionId ledger' handed' thread where
  handler := h.handler
  chunk := h.chunk
  pending := hpending
  through hthrough := ⟨hhanded (h.through hthrough).1, hfree hthrough⟩
  reported hreports := ⟨hhanded (h.reported hreports).1, hprevious (h.reported hreports).2⟩
  duplicate hduplicate hsession hempty :=
    h.duplicate hduplicate hsession (subset_nil.mp (hempty ▸ hhanded))

/-- A row under no text's key leaves the guard of texts as it is. -/
theorem Sound.record (h : Sound hashes sessionId state)
    (hkey : ∀ digest, row.idempotencyKey ≠ some (.textDelivery digest))
    (hfinal : row.deliveryKey = some .final → row.eventKind = .finalAnswerDelivered →
      state.handed ≠ []) :
    Sound hashes sessionId { state with ledger := recordMessageLedgerEvent state.ledger row } where
  digests := h.digests
  alone := h.alone
  once := h.once
  rows found hfound := by
    obtain hmem | rfl := mem_recordMessageLedgerEvent hfound
    · exact ⟨(h.rows found hmem).text, (h.rows found hmem).final⟩
    · exact ⟨fun digest hdigest => absurd hdigest (hkey digest), hfinal⟩
  threads thread hthread := by
    have hsound := h.threads thread hthread
    refine hsound.kept (fun _ hmem => hmem) hsound.pending (fun hthrough => ?_)
      (previousDelivery_record row)
    exact (getMessageLedgerEvent_record_of_ne (hkey _)).trans (hsound.through hthrough).2

theorem previousDelivery_recordAll (rows : List (DeliveryEvent Digest))
    (hprevious : previousDelivery hashes ledger text = true) :
    previousDelivery hashes (rows.foldl recordMessageLedgerEvent ledger) text = true := by
  induction rows generalizing ledger with
  | nil => exact hprevious
  | cons row rest ih => exact ih (previousDelivery_record row hprevious)

theorem Sound.recordAll (rows : List (DeliveryEvent Digest)) (hrows : ∀ row ∈ rows, Aside row)
    (h : Sound hashes sessionId state) :
    Sound hashes sessionId { state with ledger := rows.foldl recordMessageLedgerEvent state.ledger } := by
  induction rows generalizing state with
  | nil => exact h
  | cons row rest ih =>
    obtain ⟨hrow, hrest⟩ := forall_mem_cons.mp hrows
    exact ih hrest (h.record hrow.1 fun hkey hkind => absurd ⟨hkey, hkind⟩ hrow.2)

theorem getElem?_append_one (hfound : (threads ++ [thread])[index]? = some found) :
    threads[index]? = some found ∨ index = threads.length ∧ found = thread := by
  rw [getElem?_append] at hfound
  split at hfound
  · exact .inl hfound
  · rw [getElem?_singleton] at hfound
    split at hfound
    · exact .inr ⟨by omega, (Option.some.inj hfound).symm⟩
    · exact nomatch hfound

/-- A call is added whose text no other call is at work on. -/
theorem Sound.append (h : Sound hashes sessionId state)
    (hdigest : OwnDigest hashes state thread.call.text)
    (halone : thread.Live → ∀ other ∈ state.threads, other.call.text = thread.call.text →
      ¬ other.Live) (hsound : ThreadSound hashes sessionId state.ledger state.handed thread) :
    Sound hashes sessionId { state with threads := state.threads ++ [thread] } where
  digests other hother another hanother heq := by
    obtain hold | hnew := mem_append.mp hother <;>
      obtain hold' | hnew' := mem_append.mp hanother
    · exact h.digests other hold another hold' heq
    · obtain rfl := mem_singleton.mp hnew'
      exact (hdigest other hold heq.symm).symm
    · obtain rfl := mem_singleton.mp hnew
      exact hdigest another hold' heq
    · rw [mem_singleton.mp hnew, mem_singleton.mp hnew']
  alone index other first second hfirst hsecond heq hlive hlive' := by
    obtain hold | ⟨rfl, rfl⟩ := getElem?_append_one hfirst <;>
      obtain hold' | ⟨rfl, rfl⟩ := getElem?_append_one hsecond
    · exact h.alone index other first second hold hold' heq hlive hlive'
    · exact absurd hlive (halone hlive' first (mem_of_getElem? hold) heq)
    · exact absurd hlive' (halone hlive second (mem_of_getElem? hold') heq.symm)
    · rfl
  once := h.once
  rows row hrow := by
    refine ⟨fun digest hkey hsucceeded => ?_, (h.rows row hrow).final⟩
    obtain ⟨other, hother, hrest⟩ := (h.rows row hrow).text digest hkey hsucceeded
    exact ⟨other, mem_append_left _ hother, hrest⟩
  threads other hother := by
    rcases mem_append.mp hother with hother | hother
    · exact h.threads other hother
    · obtain rfl := mem_singleton.mp hother
      exact hsound

theorem subset_handed {before after : List JsString} {P : Prop}
    (hafter : after = before ∨ after = before ++ [text] ∧ P) : before ⊆ after := by
  obtain rfl | ⟨rfl, -⟩ := hafter
  · exact fun _ hmem => hmem
  · exact subset_append_left _ _

theorem inFlight_of_textThrough {phase : DeliveryPhase} (h : phase.textThrough = true) :
    phase.inFlight = true := by
  cases phase with
  | textSettled | doneChunk | doneSettled | textChunk => rfl
  | returned | committed => exact h

section

variable (hthread : threads[index]? = some thread)
include hthread

section

variable (hcall : thread'.call = thread.call)
include hcall

theorem getElem?_set_calls {other : ℕ} (hlive : thread'.Live → thread.Live)
    (hfound : (threads.set index thread')[other]? = some found) :
    ∃ before, threads[other]? = some before ∧ before.call = found.call ∧
      (found.Live → before.Live) := by
  rw [getElem?_set] at hfound
  split at hfound
  · next hindex =>
    split at hfound
    · cases hfound
      exact ⟨thread, hindex ▸ hthread, hcall.symm, hlive⟩
    · exact nomatch hfound
  · exact ⟨found, hfound, rfl, id⟩

theorem mem_set_calls
    (hfound : found ∈ threads.set index thread') :
    ∃ before ∈ threads, before.call = found.call := by
  obtain hmem | rfl := mem_or_eq_of_mem_set hfound
  · exact ⟨found, hmem, rfl⟩
  · exact ⟨thread, mem_of_getElem? hthread, hcall.symm⟩

theorem mem_calls_set {before : DeliveryThread} (hbefore : before ∈ threads) :
    ∃ found ∈ threads.set index thread', found.call = before.call := by
  obtain ⟨other, hother⟩ := getElem?_of_mem hbefore
  by_cases hindex : index = other
  · subst hindex
    rw [hthread] at hother
    have hlength := (List.getElem?_eq_some_iff.mp hthread).1
    exact ⟨thread', mem_set hlength thread', hcall.trans (congrArg _ (Option.some.inj hother))⟩
  · have hkept : (threads.set index thread')[other]? = some before := by
      rw [getElem?_set_ne hindex, hother]
    exact ⟨before, mem_of_getElem? hkept, rfl⟩

end

end

section

variable (h : Sound hashes sessionId state)
include h

/-- A call goes on: what it hands over is its own text, and what it writes is the row of its
text. No other call for the text is at work. -/
theorem Sound.setThread {handed : List JsString}
    (hthread : state.threads[index]? = some thread) (hcall : thread'.call = thread.call)
    (hlive : thread'.Live → thread.Live) (hhanded : handed = state.handed ∨
      handed = state.handed ++ [thread.call.text] ∧ thread.call.text ∉ state.handed ∧ thread.Live)
    (hledger : ledger = state.ledger ∨ ∃ row, thread.Live ∧
      row.idempotencyKey = some (.textDelivery (hashes.ofText thread.call.text)) ∧
      row.deliveryKey ≠ some .final ∧
      (row.succeeded = true → thread.call.text ∈ handed) ∧
      ledger = recordMessageLedgerEvent state.ledger row)
    (hsound : ThreadSound hashes sessionId ledger handed thread') :
    Sound hashes sessionId { ledger, threads := state.threads.set index thread', handed } where
  digests found hfound other hother heq := by
    obtain ⟨before, hbefore, hsame⟩ := mem_set_calls hthread hcall hfound
    obtain ⟨before', hbefore', hsame'⟩ := mem_set_calls hthread hcall hother
    rw [← hsame, ← hsame'] at heq ⊢
    exact h.digests before hbefore before' hbefore' heq
  alone first other found found' hfound hfound' heq hliveFound hliveFound' := by
    obtain ⟨before, hbefore, hsame, hstill⟩ := getElem?_set_calls hthread hcall hlive hfound
    obtain ⟨before', hbefore', hsame', hstill'⟩ := getElem?_set_calls hthread hcall hlive hfound'
    rw [← hsame, ← hsame'] at heq
    exact h.alone first other before before' hbefore hbefore' heq (hstill hliveFound)
      (hstill' hliveFound')
  once := by
    obtain rfl | ⟨rfl, hnew, -⟩ := hhanded
    · exact h.once
    · refine nodup_append.mpr ⟨h.once, nodup_singleton _, ?_⟩
      rintro text htext _ hother rfl
      exact hnew (mem_singleton.mp hother ▸ htext)
  rows row hrow := by
    have hsub : state.handed ⊆ handed := subset_handed hhanded
    have hold (hmem : row ∈ state.ledger) :
        RowSound hashes ⟨ledger, state.threads.set index thread', handed⟩ row := by
      refine ⟨fun digest hkey hsucceeded => ?_, fun hkey hkind hempty => ?_⟩
      · obtain ⟨before, hbefore, hdigest, hout⟩ := (h.rows row hmem).text digest hkey hsucceeded
        obtain ⟨found, hfound, hsame⟩ := mem_calls_set hthread hcall hbefore
        rw [← hsame] at hdigest hout
        exact ⟨found, hfound, hdigest, hsub hout⟩
      · exact (h.rows row hmem).final hkey hkind (subset_nil.mp (hempty ▸ hsub))
    obtain rfl | ⟨written, -, hkey, hmatter, hout, rfl⟩ := hledger
    · exact hold hrow
    obtain hmem | rfl := mem_recordMessageLedgerEvent hrow
    · exact hold hmem
    refine ⟨fun digest hdigest hsucceeded => ?_, fun hfinal => absurd hfinal hmatter⟩
    obtain ⟨found, hfound, hsame⟩ := mem_calls_set hthread hcall (mem_of_getElem? hthread)
    rw [hkey, Option.some.injEq, DeliveryIdempotencyKey.textDelivery.injEq] at hdigest
    exact ⟨found, hfound, hsame ▸ hdigest, hsame ▸ hout hsucceeded⟩
  threads found hfound := by
    obtain ⟨other, hother⟩ := getElem?_of_mem hfound
    by_cases hindex : index = other
    · rw [← hindex, getElem?_set_self (List.getElem?_eq_some_iff.mp hthread).1] at hother
      exact Option.some.inj hother ▸ hsound
    rw [getElem?_set_ne hindex] at hother
    have hkept := h.threads found (mem_of_getElem? hother)
    -- the text of another call that is at work is another one
    have hne (hfoundLive : found.Live) (hlive : thread.Live) :
        found.call.text ≠ thread.call.text := fun heq =>
      hindex (h.alone other index found thread hother hthread heq hfoundLive hlive).symm
    refine hkept.kept (subset_handed hhanded) (fun hpending => ?_) (fun hthrough => ?_) ?_
    · have hout := hkept.pending hpending
      obtain rfl | ⟨rfl, -, hlive⟩ := hhanded
      · exact hout
      · rw [mem_append, mem_singleton, not_or]
        exact ⟨hout, hne (.inl hpending) hlive⟩
    · have hnone := (hkept.through hthrough).2
      obtain rfl | ⟨written, hlive, hkey, -, -, rfl⟩ := hledger
      · exact hnone
      refine (getMessageLedgerEvent_record_of_ne fun hsame => ?_).trans hnone
      rw [hkey, Option.some.injEq, DeliveryIdempotencyKey.textDelivery.injEq] at hsame
      have htext := h.digests found (mem_of_getElem? hother) thread
        (mem_of_getElem? hthread) hsame
      exact hne (.inr (inFlight_of_textThrough hthrough)) hlive htext.symm
    · obtain rfl | ⟨written, -, -, -, -, rfl⟩ := hledger
      · exact id
      · exact previousDelivery_record written

/-! ## The steps -/

theorem sound_start {call : DeliveryCall} {emitStamp : RowStamp}
    (hcharge : InCharge hashes sessionId state (.start call stamp emitStamp))
    (hresult : startCall hashes sessionId call stamp emitStamp state.ledger = result) :
    Sound hashes sessionId
      { state with
        ledger := result.1
        threads := state.threads ++
          [{ call, phase := result.2, textPending := result.2 = .textChunk }] } := by
  have hstarted := @startCall_started Digest _ hashes sessionId state.ledger stamp emitStamp call
  rw [hresult] at hstarted
  obtain ⟨rows, hrows, hledger⟩ := hstarted.rows
  have hrecorded := h.recordAll rows hrows
  rw [← hledger] at hrecorded
  have hsent (hflight : result.2.inFlight = true) :=
    hcharge.2 (hstarted.sends.mp hflight).1 (hstarted.sends.mp hflight).2
  have hpending (hchunk : decide (result.2 = .textChunk) = true) : result.2.inFlight = true := by
    rw [of_decide_eq_true hchunk]
    rfl
  refine hrecorded.append hcharge.1 (fun hlive other hother hsame => ?_) ?_
  · exact (hsent (hlive.elim hpending id)).2.2 other hother hsame
  refine ⟨fun hflight => (hsent hflight).1, fun hchunk => decide_eq_true hchunk,
    fun hchunk => (hsent (hpending hchunk)).2.1, fun hthrough => ?_, fun hreports => ?_,
    fun hduplicate hsession => ?_⟩
  · have hflight := inFlight_of_textThrough hthrough
    have hphase := hstarted.chunk hflight
    rw [if_pos (hsent hflight).1] at hphase
    rw [hphase] at hthrough
    cases hthrough
  · have hprevious : previousDelivery hashes state.ledger call.text = true := by
      obtain ⟨receipt, hphase, hdelivered⟩ | ⟨answer, outcome, hphase, houtcome, -⟩ :=
        reportsText_iff.mp hreports
      · exact hstarted.returned receipt hphase hdelivered
      · exact nomatch (hstarted.committed answer hphase).2.1.symm.trans houtcome
    refine ⟨h.handed_of_previous hcharge.1 hprevious, ?_⟩
    rw [hledger]
    exact previousDelivery_recordAll rows hprevious
  · obtain ⟨answer, hphase, hstatus⟩ := reportsDuplicate_iff.mp hduplicate
    have hsome := (hstarted.committed answer hphase).2.2 hstatus
    obtain ⟨found, hfound⟩ := isSome_iff_exists.mp hsome
    have hmem := mem_of_mem_listMessageLedgerEvents (mem_of_find?_eq_some hfound)
    have hfinal := find?_some hfound
    simp only [Bool.and_eq_true, Bool.or_eq_true, decide_eq_true_eq, hsession, false_or] at hfinal
    exact (h.rows found hmem).final hfinal.1.1 hfinal.1.2

theorem sound_settleText {outcome : ChunkOutcome}
    (hthread : state.threads[index]? = some thread) (hphase : thread.phase = .textChunk)
    (hcharge : InCharge hashes sessionId state (.settleText index outcome)) :
    ∀ next, deliveryStep? hashes sessionId state (.settleText index outcome) = some next →
      Sound hashes sessionId next := by
  have hkept := h.threads thread (mem_of_getElem? hthread)
  have hlive : thread.Live := .inr (hphase ▸ rfl)
  have hnew := hkept.pending (hkept.chunk hphase)
  have hhandler := hkept.handler (hphase ▸ rfl)
  intro next hnext
  simp only [deliveryStep?, hthread, hphase, bind_eq_bind, bind_some] at hnext
  cases outcome with
  | delivered =>
    cases hnext
    refine h.setThread hthread rfl (fun _ => hlive) (.inr ⟨rfl, hnew, hlive⟩) (.inl rfl) ?_
    refine ⟨fun _ => hhandler, nofun, nofun, fun _ => ⟨?_, hcharge thread hthread⟩, nofun, nofun⟩
    exact mem_append_cons_self
  | failed =>
    cases hnext
    exact h.setThread hthread rfl (fun _ => hlive) (.inl rfl) (.inl rfl)
      ⟨fun _ => hhandler, nofun, nofun, nofun, nofun, nofun⟩
  | timedOut =>
    cases hnext
    exact h.setThread hthread rfl (fun _ => hlive) (.inl rfl) (.inl rfl)
      ⟨fun _ => hhandler, nofun, hkept.pending, nofun, nofun, nofun⟩

theorem sound_lateText {index : ℕ} {accepted : Bool}
    {thread : DeliveryThread} (hthread : state.threads[index]? = some thread)
    (hpending : thread.textPending = true) (hphase : thread.phase ≠ .textChunk) :
    Sound hashes sessionId
      { state with
        threads := state.threads.set index { thread with textPending := false }
        handed := if accepted then state.handed ++ [thread.call.text] else state.handed } := by
  have hkept := h.threads thread (mem_of_getElem? hthread)
  have hlive : thread.Live := .inl hpending
  have hnew := hkept.pending hpending
  have hhanded : (if accepted then state.handed ++ [thread.call.text] else state.handed) =
      state.handed ∨
      (if accepted then state.handed ++ [thread.call.text] else state.handed) =
        state.handed ++ [thread.call.text] ∧ thread.call.text ∉ state.handed ∧ thread.Live := by
    cases accepted with
    | true => exact .inr ⟨rfl, hnew, hlive⟩
    | false => exact .inl rfl
  refine h.setThread hthread rfl (fun _ => hlive) hhanded (.inl rfl) ?_
  exact ⟨hkept.handler, fun hchunk => absurd hchunk hphase, nofun,
    fun hthrough => absurd (hkept.through hthrough).1 hnew,
    fun hreports => absurd (hkept.reported hreports).1 hnew,
    fun hduplicate hsession hempty => hkept.duplicate hduplicate hsession
      (subset_nil.mp (hempty ▸ subset_handed hhanded))⟩

section

variable (hthread : state.threads[index]? = some thread)
include hthread

/-- The last part of a delivery writes the row of the text. -/
theorem sound_finishEmit {textFailed doneDelivered : Bool}
    (hflight : thread.phase.inFlight = true) (hthrough : thread.phase.textThrough = !textFailed)
    (hresult : finishEmit hashes thread.call.delivery textFailed doneDelivered stamp state.ledger =
      result) :
    Sound hashes sessionId
      { state with
        ledger := result.1
        threads := state.threads.set index { thread with phase := result.2 } } := by
  have hkept := h.threads thread (mem_of_getElem? hthread)
  have hhandler := hkept.handler hflight
  have hlive : thread.Live := .inr hflight
  subst hresult
  unfold finishEmit
  rw [hhandler, Bool.not_true, Bool.false_or]
  refine h.setThread hthread rfl (fun _ => hlive) (.inl rfl)
    (.inr ⟨_, hlive, rfl, by simp [deliveryEvent], fun hsucceeded => ?_, rfl⟩)
    ⟨nofun, nofun, hkept.pending, nofun, fun hreports => ?_, nofun⟩
  · cases textFailed with
    | true => cases hsucceeded
    | false => exact (hkept.through hthrough).1
  · cases textFailed with
    | true => cases hreports
    | false =>
      have hwritten := hkept.through hthrough
      exact ⟨hwritten.1, (Option.any_eq_true _ _).mpr
        ⟨_, getMessageLedgerEvent_record_of_none rfl hwritten.2, rfl⟩⟩

theorem sound_finishCommit {receipt : AssistantTextDeliveryReceipt}
    (hphase : thread.phase = .returned receipt) (input : FinalDeliveryInput)
    (hresult : finishCommit input receipt stamp state.ledger = result) :
    Sound hashes sessionId
      { state with
        ledger := result.1
        threads := state.threads.set index { thread with phase := result.2 } } := by
  have hkept := h.threads thread (mem_of_getElem? hthread)
  have hreported (hdelivered : receipt.textDelivered = true) :=
    hkept.reported (reportsText_iff.mpr (.inl ⟨receipt, hphase, hdelivered⟩))
  have hcommitted (answer : FinalDeliveryCommitResult)
      (houtcome : answer.deliveryOutcome = some (resolveAssistantTextDeliveryOutcome receipt))
      (hstatus : answer.status ≠ .duplicateSuppressed) {last : DeliveryState Digest}
      (hlast : Sound hashes sessionId last) (hthreads : last.threads = state.threads)
      (hhanded : last.handed = state.handed)
      (hledger : ∀ text, previousDelivery hashes state.ledger text = true →
        previousDelivery hashes last.ledger text = true) :
      Sound hashes sessionId
        { last with
          threads := last.threads.set index { thread with phase := .committed answer } } := by
    have hbefore : last.threads[index]? = some thread := hthreads ▸ hthread
    refine hlast.setThread hbefore rfl ?_ (.inl rfl) (.inl rfl) ?_
    · rintro (hpending | hflight)
      · exact .inl hpending
      · cases hflight
    rw [hhanded]
    refine ⟨nofun, nofun, hkept.pending, nofun, fun hreports => ?_, fun hduplicate => ?_⟩
    · obtain ⟨_, hnone, -⟩ | ⟨_, outcome, heq, hsome, hdelivered⟩ := reportsText_iff.mp hreports
      · exact nomatch hnone
      · cases heq
        cases houtcome.symm.trans hsome
        have hsent := hreported hdelivered
        exact ⟨hsent.1, hledger _ hsent.2⟩
    · obtain ⟨_, heq, hsuppressed⟩ := reportsDuplicate_iff.mp hduplicate
      cases heq
      exact absurd hsuppressed hstatus
  subst hresult
  unfold finishCommit
  dsimp only
  split
  · exact hcommitted _ rfl (by simp) h rfl rfl fun _ => id
  · next hfailure =>
    have hdelivered : receipt.textDelivered = true := by
      simp only [resolveAssistantTextDeliveryOutcome, Bool.or_eq_true, not_or,
        Bool.not_eq_true', Bool.not_eq_false] at hfailure
      exact hfailure.1
    have hrecorded : Sound hashes sessionId
        { state with
          ledger := recordMessageLedgerEvent state.ledger (deliveryEvent stamp
            .finalAnswerDelivered .final .finalDelivery .delivered) } := by
      refine h.record (by simp [deliveryEvent]) fun _ _ hempty => ?_
      exact absurd (hreported hdelivered).1 (hempty ▸ not_mem_nil)
    exact hcommitted _ rfl (by simp) hrecorded rfl rfl fun _ => previousDelivery_record _

theorem sound_resume
    (hresult : resumeCall hashes thread stamp state.ledger = some result) :
    Sound hashes sessionId
      { state with
        ledger := result.1
        threads := state.threads.set index { thread with phase := result.2 } } := by
  have hkept := h.threads thread (mem_of_getElem? hthread)
  unfold resumeCall at hresult
  dsimp only at hresult
  split at hresult
  · next textFailed hphase =>
    have hflight : thread.phase.inFlight = true := hphase ▸ rfl
    have hthrough : thread.phase.textThrough = !textFailed := hphase ▸ rfl
    split at hresult
    · exact sound_finishEmit h hthread hflight hthrough
        (Option.some.inj hresult)
    · cases hresult
      rw [if_pos (hkept.handler hflight)]
      refine h.setThread hthread rfl (fun _ => .inr hflight) (.inl rfl) (.inl rfl) ?_
      exact ⟨fun _ => hkept.handler hflight, nofun, hkept.pending,
        fun hsent => hkept.through (hthrough.trans hsent), nofun, nofun⟩
  · next textFailed doneFailed hphase =>
    exact sound_finishEmit h hthread (hphase ▸ rfl) (hphase ▸ rfl)
      (Option.some.inj hresult)
  · next receipt input hphase _ =>
    exact sound_finishCommit h hthread hphase input (Option.some.inj hresult)
  · exact nomatch hresult

end

theorem sound_step {step : DeliveryStep Digest}
    (hcharge : InCharge hashes sessionId state step) {next : DeliveryState Digest}
    (hnext : deliveryStep? hashes sessionId state step = some next) :
    Sound hashes sessionId next := by
  cases step with
  | start call stamp emitStamp =>
    cases hnext
    exact sound_start h hcharge rfl
  | settleText index outcome =>
    obtain ⟨thread, hthread, hrest⟩ := bind_eq_some_iff.mp hnext
    obtain ⟨_, hphase, -⟩ := bind_eq_some_iff.mp hrest
    exact sound_settleText h hthread ((guard_eq_some' _).mp hphase) hcharge next hnext
  | lateText index accepted =>
    obtain ⟨thread, hthread, hrest⟩ := bind_eq_some_iff.mp hnext
    obtain ⟨_, hguard, hlast⟩ := bind_eq_some_iff.mp hrest
    obtain ⟨hpending, hphase⟩ := (guard_eq_some' _).mp hguard
    cases hlast
    cases accepted with
    | true => exact @sound_lateText _ _ _ _ _ h index true thread hthread hpending hphase
    | false => exact @sound_lateText _ _ _ _ _ h index false thread hthread hpending hphase
  | settleDone index outcome =>
    obtain ⟨thread, hthread, hrest⟩ := bind_eq_some_iff.mp hnext
    have hkept := h.threads thread (mem_of_getElem? hthread)
    cases hphase : thread.phase with
    | doneChunk textFailed =>
      rw [hphase] at hrest
      cases hrest
      have hflight : thread.phase.inFlight = true := hphase ▸ rfl
      refine h.setThread hthread rfl (fun _ => .inr hflight) (.inl rfl) (.inl rfl) ?_
      exact ⟨fun _ => hkept.handler hflight, nofun, hkept.pending,
        fun hthrough => hkept.through (hphase ▸ hthrough), nofun, nofun⟩
    | _ =>
      rw [hphase] at hrest
      exact nomatch hrest
  | resume index stamp =>
    obtain ⟨thread, hthread, hrest⟩ := bind_eq_some_iff.mp hnext
    obtain ⟨result, hresult, hlast⟩ := bind_eq_some_iff.mp hrest
    cases hlast
    exact sound_resume h hthread hresult
  | otherEvent event =>
    obtain ⟨_, hguard, hlast⟩ := bind_eq_some_iff.mp hnext
    have hforeign := (guard_eq_some' _).mp hguard
    cases hlast
    unfold isForeignEvent at hforeign
    rw [Bool.and_eq_true] at hforeign
    refine h.record (fun digest hkey => ?_) fun hkey => ?_
    · rw [hkey] at hforeign
      cases hforeign.1
    · rw [hkey] at hforeign
      cases hforeign.2

/-! ## Runs -/

theorem deliveredOnce_of_sound :
    DeliveredOnce hashes sessionId state where
  once := nodup_iff_count_le_one.mp h.once
  reported thread hthread hreports := ((h.threads thread hthread).reported hreports).1
  duplicate thread hthread hduplicate :=
    (h.threads thread hthread).duplicate hduplicate
  retry call stamp emitStamp hmay hdigest hnew := by
    refine (startCall_started call).sends.mpr ⟨hmay, ?_⟩
    rw [← Bool.not_eq_true]
    exact fun hprevious => hnew (h.handed_of_previous hdigest hprevious)
  remembered thread hthread hreports call stamp emitStamp hsame := by
    have hprevious := ((h.threads thread hthread).reported hreports).2
    rw [← hsame] at hprevious
    rw [← Bool.not_eq_true, (startCall_started call).sends]
    exact fun hsends => Bool.false_ne_true (hsends.2.symm.trans hprevious)

end

/-- In a run that leaves the ledger in charge no text goes out twice, what is reported
happened, a text that has not gone out can be sent, and one that was reported is remembered. -/
theorem finalDelivery_once (hashes : LedgerHashes Digest) (sessionId : JsString)
    (steps : List (DeliveryStep Digest)) (state : DeliveryState Digest)
    (run : Run (Meeting (InCharge hashes sessionId) (Takes (deliveryStep? hashes sessionId)))
      {} steps state) :
    DeliveredOnce hashes sessionId state := by
  refine deliveredOnce_of_sound (run.invariant_of_meeting ?_ sound_empty)
  exact fun _ _ _ hsound hcharge taken => sound_step hsound hcharge taken

end Steps

/-- Digests that keep the whole value. -/
def plainHashes : LedgerHashes JsString where
  ofText := id
  ofReasonCodes := List.flatten
  ofEventId := id

def answerText : JsString := ofString "done"

def rowStamp (now : ℕ) : RowStamp := ⟨ofString (toString now), now⟩

/-- An answer is delivered, and a commit that comes after it sends nothing. -/
def answerThenCommit : List (DeliveryStep JsString) :=
  [.start (.emit { text := answerText }) (rowStamp 0) (rowStamp 0),
    .settleText 0 .delivered, .resume 0 (rowStamp 1), .settleDone 0 .delivered,
    .resume 0 (rowStamp 2),
    .start (.commit { text := answerText }) (rowStamp 3) (rowStamp 4), .resume 1 (rowStamp 5)]

theorem finalDelivery_answerThenCommit :
    ∃ state, DeliveredOnce plainHashes answerText state ∧ state.handed = [answerText] ∧
      state.threads.map DeliveryThread.reportsText = [true, true] := by
  have hlast : (execute (guarded (InCharge plainHashes answerText)
      (deliveryStep? plainHashes answerText)) {} answerThenCommit).map (fun state =>
        (state.handed, state.threads.map DeliveryThread.reportsText)) =
          some ([answerText], [true, true]) := by
    decide +kernel
  obtain ⟨state, hstate, hreports⟩ := map_eq_some_iff.mp hlast
  obtain ⟨hhanded, hthreads⟩ := Prod.mk.inj hreports
  exact ⟨state, finalDelivery_once _ _ _ _ (Run.of_execute_guarded hstate), hhanded, hthreads⟩

/-- A call looks the text up while the chunk of another one is on its way. -/
def overlappingDeliveries : List (DeliveryStep JsString) :=
  [.start (.emit { text := answerText }) (rowStamp 0) (rowStamp 0),
    .start (.commit { text := answerText }) (rowStamp 1) (rowStamp 1),
    .settleText 0 .delivered, .settleText 1 .delivered]

/-- An attempt fails, the second one gets through, and a third call sends the text again. -/
def retriedDeliveries : List (DeliveryStep JsString) :=
  [.start (.emit { text := answerText }) (rowStamp 0) (rowStamp 0),
    .settleText 0 .failed, .resume 0 (rowStamp 1), .settleDone 0 .delivered,
    .resume 0 (rowStamp 2),
    .start (.emit { text := answerText }) (rowStamp 3) (rowStamp 3),
    .settleText 1 .delivered, .resume 1 (rowStamp 4), .settleDone 1 .delivered,
    .resume 1 (rowStamp 5),
    .start (.emit { text := answerText }) (rowStamp 6) (rowStamp 6),
    .settleText 2 .delivered]

theorem not_deliveredOnce_of_twice {steps : List (DeliveryStep JsString)}
    (htwice : (execute (deliveryStep? plainHashes answerText) {} steps).map
      (fun state => state.handed.count answerText) = some 2) :
    ∃ state, Run (Takes (deliveryStep? plainHashes answerText)) {} steps state ∧
      ¬ DeliveredOnce plainHashes answerText state := by
  obtain ⟨state, hstate, hcount⟩ := map_eq_some_iff.mp htwice
  refine ⟨state, Run.of_execute hstate, fun h => ?_⟩
  have hone := h.once answerText
  omega

/-- Both runs hand the text over twice. -/
theorem deliveredTwice_of_overlap_or_retry :
    (∃ state, Run (Takes (deliveryStep? plainHashes answerText)) {} overlappingDeliveries state ∧
        ¬ DeliveredOnce plainHashes answerText state) ∧
      ∃ state, Run (Takes (deliveryStep? plainHashes answerText)) {} retriedDeliveries state ∧
        ¬ DeliveredOnce plainHashes answerText state :=
  ⟨not_deliveredOnce_of_twice (by decide +kernel), not_deliveredOnce_of_twice (by decide +kernel)⟩

end Nobie.Runs
