/-
# Sending an answer through a messenger

Three layers send an answer. `emitAssistantTextDelivery` makes two chunks of it and writes down
whether it was delivered, `deliverChunk` runs the handler of the channel for a chunk and keeps
the outbox rows and the back-off of the target, and the handler keeps the text of the first
chunk and sends it in parts when the second one arrives. The handler catches what its own sends
throw.
-/

import Nobie.Runs.FinalDelivery

namespace Nobie.Channels

open Foundation Runs JsString

/-! ## The parts of a message -/

section

/-- The last index of a code unit among the first `limit` ones. -/
def lastIndexBelow (unit : CodeUnit) : JsString → ℕ → Option ℕ
  | [], _ => none
  | _, 0 => none
  | head :: rest, limit + 1 =>
    match lastIndexBelow unit rest limit with
    | some index => some (index + 1)
    | none => if head = unit then some 0 else none

def newline : CodeUnit := codeUnit 10

def blank : CodeUnit := codeUnit 32

/-! ## Telegram -/

def telegramMaxLength : ℕ := 4096

variable (remaining text : JsString) (index : Option ℕ)

/-- Where a text that is too long is cut: behind a line break that is not its first unit. -/
def telegramSplitAt : ℕ :=
  match lastIndexBelow newline remaining telegramMaxLength with
  | some (index + 1) => index + 2
  | some 0 | none => telegramMaxLength

theorem telegramSplitAt_pos : 0 < telegramSplitAt remaining := by
  unfold telegramSplitAt
  split
  · exact Nat.succ_pos _
  · exact Nat.succ_pos _
  · exact Nat.succ_pos _

/-- `splitMessage`. -/
def splitMessage (text : JsString) : List JsString :=
  if text.length ≤ telegramMaxLength then [text]
  else
    let splitAt := telegramSplitAt text
    text.take splitAt :: (if text.drop splitAt = [] then [] else splitMessage (text.drop splitAt))
termination_by text.length
decreasing_by
  have hpos := telegramSplitAt_pos text
  rw [List.length_drop]
  omega

theorem splitMessage_ne_nil : splitMessage text ≠ [] := by
  rw [splitMessage]
  split
  · exact List.cons_ne_nil _ _
  · exact List.cons_ne_nil _ _

/-! ## Slack -/

def slackMaxLength : ℕ := 3000

/-- No place to cut, or one in the first half of what fits. -/
def tooEarly : Bool := index.all fun found => found < slackMaxLength / 2

def cutUnlessEarly : ℕ :=
  if tooEarly index then slackMaxLength else index.getD slackMaxLength

/-- Where a text that is too long is cut: at a line break or a space that is not too early. -/
def slackSplitIndex : ℕ :=
  let atNewline := lastIndexBelow newline remaining (slackMaxLength + 1)
  cutUnlessEarly
    (if tooEarly atNewline then lastIndexBelow blank remaining (slackMaxLength + 1) else atNewline)

theorem cutUnlessEarly_pos : 0 < cutUnlessEarly index := by
  unfold cutUnlessEarly
  split
  · exact Nat.succ_pos _
  · next hlate =>
    cases index with
    | none => exact Nat.succ_pos _
    | some found =>
      have hfound : ¬ found < slackMaxLength / 2 := fun hlt => hlate (decide_eq_true hlt)
      unfold slackMaxLength at hfound
      rw [Option.getD_some]
      omega

theorem length_trim_le : (trim text).length ≤ text.length := by
  have hright :=
    (List.rdropWhile_prefix isSpace (text.dropWhile isSpace)).length_le
  have hleft := (List.dropWhile_suffix isSpace : _ <:+ text).length_le
  exact hright.trans hleft

/-- The loop of `splitSlackText`. -/
def splitSlackRemaining (remaining : JsString) : List JsString :=
  if remaining.length ≤ slackMaxLength then (if remaining = [] then [] else [remaining])
  else
    trim (remaining.take (slackSplitIndex remaining)) ::
      splitSlackRemaining (trim (remaining.drop (slackSplitIndex remaining)))
termination_by remaining.length
decreasing_by
  have hpos : 0 < slackSplitIndex remaining := cutUnlessEarly_pos _
  have htrim := length_trim_le (remaining.drop (slackSplitIndex remaining))
  rw [List.length_drop] at htrim
  omega

/-- `splitSlackText`. -/
def splitSlackText : List JsString := splitSlackRemaining (trim text)

end

/-! ## The handler -/

inductive Messenger
  | telegram | slack

def Messenger.text : Messenger → String
  | .telegram => "telegram"
  | .slack => "slack"

/-- The context of a handler: its conversation as it stands in idempotency keys and in delivery
keys, and the run at hand. -/
structure ChunkDeliveryContext where
  messenger : Messenger
  (conversation ledgerTarget : JsString)
  runId : Option JsString
  maxTextChunks : ℕ := 20

/-- How the interface of the messenger answers a send. -/
inductive SendAnswer
  | accepted | refused
  | rateLimited (retryAfterMs : ℕ)
  deriving DecidableEq

/-- A text that was sent, its parts that were accepted, and the answer that ended it early. -/
structure SendAttempt where
  text : JsString
  accepted : List JsString
  failure : Option SendAnswer

inductive DeliveryReceiptStatus
  | accepted | sent | delivered | partialDelivery | failed | rateLimited | blockedByPolicy
  | unsupportedCapability
  deriving DecidableEq

structure DeliveryReceipt where
  status : DeliveryReceiptStatus
  retryAfterMs : Option ℕ := none

/-- The chunks of an answer. -/
inductive AgentChunk
  | text (delta : JsString)
  | done

def AgentChunk.type : AgentChunk → String
  | .text _ => "text"
  | .done => "done"

def Messenger.split : Messenger → JsString → List JsString
  | .telegram => splitMessage
  | .slack => splitSlackText

/-- The responders' loop over the parts of a text; the first send that is not accepted throws. -/
def sendParts (answers : ℕ → SendAnswer) : ℕ → List JsString → List JsString × Option SendAnswer
  | _, [] => ([], none)
  | index, part :: rest =>
    match answers index with
    | .accepted =>
      let (sent, failure) := sendParts answers (index + 1) rest
      (part :: sent, failure)
    | failure => ([], some failure)

variable (text : JsString) (context : ChunkDeliveryContext)

def buildTelegramTooManyChunksFallbackText (estimatedChunks maxChunks : ℕ) : JsString :=
  let trimmed := trim text
  let suffix := if 1200 < trimmed.length then ofString "\n\n...[truncated]" else []
  ofString "결과가 너무 길어 Telegram 메시지 " ++
    ofString (toString estimatedChunks) ++
    ofString "개로 나뉠 수 있어 자동 분할 전송을 중단했습니다.\n최대 허용 분할 수: " ++
    ofString (toString maxChunks) ++
    ofString "\n전체 결과는 WebUI 실행 상세 또는 생성된 artifact에서 확인해 주세요.\n\n" ++
    trimmed.take 1200 ++ suffix

/-- The text that goes out: Telegram gets a notice in place of a text of too many parts. -/
def deliveredText (text : JsString) : JsString :=
  match context.messenger with
  | .telegram =>
    let estimatedChunks := (splitMessage text).length
    if context.maxTextChunks < estimatedChunks then
      buildTelegramTooManyChunksFallbackText text estimatedChunks context.maxTextChunks
    else text
  | .slack => text

/-- `sendFinalText` up to what it does with an error. -/
def sendFinalText (answers : ℕ → SendAnswer) (text : JsString) : SendAttempt :=
  let sent := deliveredText context text
  let (accepted, failure) := sendParts answers 0 (context.messenger.split sent)
  { text := sent, accepted, failure }

/-! ## The ledger -/

/-- The key of a text for a run, a channel and a target. -/
structure TextKey (Digest : Type) where
  (runId channel target : JsString)
  digest : Digest
  deriving DecidableEq

variable {Digest : Type} [DecidableEq Digest]

/-- What a handler did with a chunk: the rows it wrote, the text it keeps, its receipts or the
retry time of the error it threw, and the texts it sent. -/
structure HandledChunk (Digest : Type) where
  ledger : DeliveryLedger (TextKey Digest)
  bufferedText : JsString
  result : Except (Option ℕ) (Option (List DeliveryReceipt))
  attempts : List SendAttempt := []

variable (hashText : JsString → Digest) (ledger : DeliveryLedger (TextKey Digest))

/-- `recordTelegramTextDeliveryFailure` and `recordSlackTextDeliveryFailure`. -/
def recordTextDeliveryFailure (context : ChunkDeliveryContext) (text : JsString) (stamp : RowStamp)
    (ledger : DeliveryLedger (TextKey Digest)) : DeliveryLedger (TextKey Digest) :=
  let provider := ofString context.messenger.text
  match context.runId with
  | none | some [] => ledger
  | some runId =>
    recordMessageLedgerEvent ledger (deliveryEvent stamp .textDeliveryFailed
      (.text ⟨runId, provider, context.ledgerTarget, hashText (trim text)⟩)
      (.foreign (provider ++ ofString ":final:" ++ runId ++ ofString ":" ++
        context.conversation ++ ofString ":failed")) .failed)

/-- The handlers on the chunks of an answer. -/
def handleChunk (context : ChunkDeliveryContext) (answers : ℕ → SendAnswer) (stamp : RowStamp)
    (bufferedText : JsString) (ledger : DeliveryLedger (TextKey Digest)) :
    AgentChunk → HandledChunk Digest
  | .text delta => { ledger, bufferedText := bufferedText ++ delta, result := .ok none }
  | .done =>
    if bufferedText = [] then { ledger, bufferedText, result := .ok none }
    else
      let attempt := sendFinalText context answers bufferedText
      if attempt.failure = none then
        { ledger
          bufferedText := []
          result := .ok (some (attempt.accepted.map fun _ => { status := .sent }))
          attempts := [attempt] }
      else
        -- the error is caught, so the chunk is handled without a receipt
        { ledger := recordTextDeliveryFailure hashText context attempt.text stamp ledger
          bufferedText := []
          result := .ok none
          attempts := [attempt] }

/-! ## The outbox -/

/-- The run, the key of the send queue and the rows' stamps of a chunk: when it waits, when it
is tried, in the handler, and when it is over. -/
structure ChunkSend where
  (runId providerKey : JsString)
  (waits tried handled ended : RowStamp)

def chunkDeliveryKey (send : ChunkSend) (chunk : AgentChunk) : JsString :=
  ofString "chunk:" ++ send.providerKey ++ ofString ":chunk:" ++ send.runId ++
    ofString ":" ++ ofString chunk.type

def recordOutboxEvent (ledger : DeliveryLedger (TextKey Digest)) (stamp : RowStamp)
    (eventKind : MessageLedgerEventKind) (deliveryKey idempotencyKey : JsString)
    (status : MessageLedgerStatus) : DeliveryLedger (TextKey Digest) :=
  recordMessageLedgerEvent ledger
    (deliveryEvent stamp eventKind (.foreign deliveryKey) (.foreign idempotencyKey) status)

def clockText (stamp : RowStamp) : JsString := ofString (toString stamp.now)

def resolveLedgerStatusFromReceipts (receipts : List DeliveryReceipt) : MessageLedgerStatus :=
  let has (statuses : List DeliveryReceiptStatus) : Bool :=
    receipts.any fun receipt => receipt.status ∈ statuses
  if receipts = [] then .succeeded
  else if has [.failed, .blockedByPolicy, .unsupportedCapability] then .failed
  else if has [.rateLimited, .partialDelivery] then .degraded
  else if has [.delivered] then .delivered
  else if has [.sent] then .sent
  else .pending

def maxRetryAfterFromReceipts (receipts : List DeliveryReceipt) : ℕ :=
  (receipts.map fun receipt => receipt.retryAfterMs.getD 0).foldl max 0

abbrev ProviderBackoff : Type := OrderedMap JsString ℤ

def backoffUntil (backoff : ProviderBackoff) (providerKey : JsString) : ℤ :=
  (backoff.get? providerKey).getD 0

def rememberProviderBackoff (backoff : ProviderBackoff) (providerKey : JsString) (now : ℤ)
    (retryAfterMs : ℕ) : ProviderBackoff :=
  if retryAfterMs = 0 then backoff
  else backoff.set providerKey (max (backoffUntil backoff providerKey) (now + retryAfterMs))

/-- What a chunk leaves behind. -/
structure ChunkDelivery (Digest : Type) where
  ledger : DeliveryLedger (TextKey Digest)
  backoff : ProviderBackoff
  bufferedText : JsString
  failed : Bool
  attempts : List SendAttempt

/-- `deliverChunk` when the send queue runs the chunk. -/
def deliverChunk (send : ChunkSend) (chunk : AgentChunk) (backoff : ProviderBackoff)
    (ledger : DeliveryLedger (TextKey Digest))
    (handler : DeliveryLedger (TextKey Digest) → HandledChunk Digest) : ChunkDelivery Digest :=
  let deliveryKey := chunkDeliveryKey send chunk
  let waiting :=
    if 0 < backoffUntil backoff send.providerKey - send.waits.now then
      recordOutboxEvent ledger send.waits .deliveryBackoffScheduled deliveryKey
        (ofString "delivery-backoff:" ++ deliveryKey ++ ofString ":" ++
          clockText send.waits) .pending
    else ledger
  let attempted := recordOutboxEvent waiting send.tried .deliveryAttempted deliveryKey
    (ofString "delivery-attempt:" ++ deliveryKey) .started
  let handled := handler attempted
  let receiptKey := ofString "delivery-receipt:" ++ deliveryKey ++
    ofString ":" ++ clockText send.ended
  match handled.result with
  | .ok receipt =>
    let receipts := receipt.getD []
    { ledger :=
        if receipt.isSome then
          recordOutboxEvent handled.ledger send.ended .deliveryReceipted deliveryKey receiptKey
            (resolveLedgerStatusFromReceipts receipts)
        else handled.ledger
      backoff := rememberProviderBackoff backoff send.providerKey send.ended.now
        (maxRetryAfterFromReceipts receipts)
      bufferedText := handled.bufferedText
      failed := false
      attempts := handled.attempts }
  | .error retryAfterMs =>
    { ledger := recordOutboxEvent handled.ledger send.ended .deliveryReceipted deliveryKey
        (receiptKey ++ ofString ":failed")
        (if retryAfterMs.getD 0 = 0 then .failed else .degraded)
      backoff := rememberProviderBackoff backoff send.providerKey send.ended.now
        (retryAfterMs.getD 0)
      bufferedText := handled.bufferedText
      failed := true
      attempts := handled.attempts }

/-! ## An answer -/

/-- A call of `emitAssistantTextDelivery` with a closing chunk: its parameters, the handler it
is given, how the messenger answers its sends, and the stamps of its rows. -/
structure EmitCall where
  (runId source sessionId targetKey text : JsString)
  fromSubSession : Bool := false
  persistMessage : Bool := true
  isFinal : Bool := true
  force : Bool := false
  handler : ℕ
  answers : ℕ → SendAnswer
  stamps : ℕ → RowStamp

namespace EmitCall

def delivery (call : EmitCall) : AssistantTextDelivery where
  text := call.text
  fromSubSession := call.fromSubSession
  persistMessage := call.persistMessage

/-- The texts' keys of the call's run, channel and target. -/
def hashes (hashText : JsString → Digest) (call : EmitCall) : LedgerHashes (TextKey Digest) :=
  let target := trim call.sessionId
  let key (text : JsString) : TextKey Digest :=
    ⟨call.runId, call.source, if target = [] then ofString "default" else target, hashText text⟩
  { ofText := key
    ofReasonCodes := fun codes => key codes.flatten
    ofEventId := key }

/-- One of the two chunks of the call; the stamps of its rows begin at an index. -/
def chunkSend (call : EmitCall) (first : ℕ) : ChunkSend where
  runId := call.runId
  providerKey := call.source ++ ofString ":" ++ call.targetKey
  waits := call.stamps first
  tried := call.stamps (first + 1)
  handled := call.stamps (first + 2)
  ended := call.stamps (first + 3)

end EmitCall

/-- The ledger, the back-off of the targets and the text each handler keeps. -/
structure MessengerState (Digest : Type) where
  ledger : DeliveryLedger (TextKey Digest)
  backoff : ProviderBackoff
  buffers : ℕ → JsString

/-- What a call returns and leaves behind. -/
structure EmitOutcome (Digest : Type) where
  state : MessengerState Digest
  receipt : AssistantTextDeliveryReceipt
  attempts : List SendAttempt

variable (call : EmitCall) (contexts : ℕ → ChunkDeliveryContext)

/-- The call up to its first chunk; a look-up comes first only for a final answer that is not
forced. -/
def startDelivery (ledger : DeliveryLedger (TextKey Digest)) :
    DeliveryLedger (TextKey Digest) × DeliveryPhase :=
  if call.isFinal && !call.force then
    startEmit (call.hashes hashText) call.delivery (call.stamps 0) ledger
  else if trim call.text = [] then (ledger, .returned nothingDelivered)
  else if call.isFinal && call.fromSubSession then
    startEmit (call.hashes hashText) call.delivery (call.stamps 0) ledger
  else (ledger, .textChunk)

/-- The two chunks of an answer and its row. -/
def deliverAnswer (call : EmitCall) (state : MessengerState Digest) : EmitOutcome Digest :=
  let handle (chunk : AgentChunk) (send : ChunkSend) (bufferedText : JsString)
      (ledger : DeliveryLedger (TextKey Digest)) : HandledChunk Digest :=
    handleChunk hashText (contexts call.handler) call.answers send.handled bufferedText ledger chunk
  let textSend := call.chunkSend 1
  let textChunk := AgentChunk.text (trim call.text)
  let text := deliverChunk textSend textChunk state.backoff state.ledger
    (handle textChunk textSend (state.buffers call.handler))
  let doneSend := call.chunkSend 5
  let done := deliverChunk doneSend .done text.backoff text.ledger
    (handle .done doneSend text.bufferedText)
  let (ledger, phase) := finishEmit (call.hashes hashText) call.delivery text.failed
    (!done.failed) (call.stamps 9) done.ledger
  { state :=
      { ledger
        backoff := done.backoff
        buffers := Function.update state.buffers call.handler done.bufferedText }
    receipt :=
      match phase with
      | .returned receipt => receipt
      | _ => nothingDelivered
    attempts := text.attempts ++ done.attempts }

/-- `emitAssistantTextDelivery` on a handler of a messenger. -/
def emitAssistantTextDelivery (call : EmitCall) (state : MessengerState Digest) :
    EmitOutcome Digest :=
  match startDelivery hashText call state.ledger with
  | (ledger, .returned receipt) => { state := { state with ledger }, receipt, attempts := [] }
  | (ledger, _) => deliverAnswer hashText contexts call { state with ledger }

/-- The state after a sequence of calls whose handlers are fresh. -/
def stateAfter (ledger : DeliveryLedger (TextKey Digest)) (backoff : ProviderBackoff)
    (calls : List EmitCall) : MessengerState Digest :=
  calls.foldl (fun state call => (emitAssistantTextDelivery hashText contexts call state).state)
    { ledger, backoff, buffers := fun _ => [] }

/-! ## An answer counts as delivered when the messenger took it

Both chunks always count as delivered, since what the sends throw never reaches `deliverChunk`. -/

/-! ## Sends -/

variable {index : ℕ} (ledger : DeliveryLedger (TextKey Digest)) (call : EmitCall) (stamp : RowStamp)
  (context : ChunkDeliveryContext) (chunk : AgentChunk)

variable {part : JsString} {rest parts : List JsString} (answers : ℕ → SendAnswer)
  (bufferedText : JsString)

section Sends

variable {answers : ℕ → SendAnswer}

theorem sendParts_of_accepted (h : answers index = .accepted) :
    sendParts answers index (part :: rest) =
      (part :: (sendParts answers (index + 1) rest).1, (sendParts answers (index + 1) rest).2) := by
  rw [sendParts, h]

theorem sendParts_of_failure (h : answers index ≠ .accepted) :
    sendParts answers index (part :: rest) = ([], some (answers index)) := by
  rw [sendParts]
  split
  · next haccepted => exact absurd haccepted h
  · rfl

/-- The sends go through if every one of them is accepted. -/
theorem sendParts_eq_none :
    (sendParts answers index parts).2 = none ↔
      ∀ offset < parts.length, answers (index + offset) = .accepted := by
  induction parts generalizing index with
  | nil => simp [sendParts]
  | cons part rest ih =>
    by_cases h : answers index = .accepted
    · rw [sendParts_of_accepted h, ih]
      constructor
      · intro hrest offset hoffset
        cases offset with
        | zero => exact h
        | succ offset =>
          rw [← hrest offset (Nat.lt_of_succ_lt_succ hoffset)]
          congr 1
          omega
      · intro hall offset hoffset
        rw [← hall (offset + 1) (Nat.succ_lt_succ hoffset)]
        congr 1
        omega
    · rw [sendParts_of_failure h]
      constructor
      · exact nofun
      · intro hall
        exact absurd (hall 0 (Nat.succ_pos _)) h

/-- The sends end early at the first one that is not accepted. -/
theorem sendParts_eq_some {failure : SendAnswer} :
    (sendParts answers index parts).2 = some failure ↔
      ∃ offset < parts.length, (∀ earlier < offset, answers (index + earlier) = .accepted) ∧
        answers (index + offset) = failure ∧ failure ≠ .accepted := by
  induction parts generalizing index with
  | nil => simp [sendParts]
  | cons part rest ih =>
    by_cases h : answers index = .accepted
    · rw [sendParts_of_accepted h, ih]
      constructor
      · rintro ⟨offset, hoffset, hearlier, hanswer, hfailure⟩
        refine ⟨offset + 1, Nat.succ_lt_succ hoffset, fun earlier hlt => ?_, ?_, hfailure⟩
        · cases earlier with
          | zero => exact h
          | succ earlier =>
            rw [← hearlier earlier (Nat.lt_of_succ_lt_succ hlt)]
            congr 1
            omega
        · rw [← hanswer]
          congr 1
          omega
      · rintro ⟨offset, hoffset, hearlier, hanswer, hfailure⟩
        cases offset with
        | zero => exact absurd (hanswer.symm.trans h) hfailure
        | succ offset =>
          refine ⟨offset, Nat.lt_of_succ_lt_succ hoffset, fun earlier hlt => ?_, ?_, hfailure⟩
          · rw [← hearlier (earlier + 1) (Nat.succ_lt_succ hlt)]
            congr 1
            omega
          · rw [← hanswer]
            congr 1
            omega
    · rw [sendParts_of_failure h]
      constructor
      · intro heq
        exact ⟨0, Nat.succ_pos _, nofun, Option.some.inj heq, Option.some.inj heq ▸ h⟩
      · rintro ⟨offset, -, hearlier, hanswer, hfailure⟩
        cases offset with
        | zero => exact congrArg some hanswer
        | succ offset => exact absurd (hearlier 0 (Nat.succ_pos _)) h

end Sends

variable {Digest : Type} [DecidableEq Digest] {hashText : JsString → Digest}
  {contexts : ℕ → ChunkDeliveryContext}

/-! ## The law of a call -/

/-- The row under the key of the call's text. -/
def callRow (hashText : JsString → Digest) (call : EmitCall)
    (ledger : DeliveryLedger (TextKey Digest)) : Option (DeliveryEvent (TextKey Digest)) :=
  textRow (call.hashes hashText) ledger (trim call.text)

/-- The text of the call was sent and every part of it accepted. -/
def TookText (call : EmitCall) (attempts : List SendAttempt) : Prop :=
  ∃ attempt ∈ attempts, attempt.text = trim call.text ∧ attempt.failure = none

/-- A call that counts as delivered was taken by the messenger, a text that was not taken does
not become one to suppress, and a rate limit holds the target back. -/
structure CountsWhatWasTaken (hashText : JsString → Digest) (call : EmitCall)
    (before : MessengerState Digest) (outcome : EmitOutcome Digest) : Prop where
  counted : outcome.receipt.textDelivered → outcome.receipt.doneDelivered →
    callRow hashText call before.ledger = none →
    (∃ row ∈ callRow hashText call outcome.state.ledger, row.status = .delivered) →
    TookText call outcome.attempts
  retriable : ¬ TookText call outcome.attempts →
    (callRow hashText call outcome.state.ledger).any MessageLedgerEvent.succeeded →
    (callRow hashText call before.ledger).any MessageLedgerEvent.succeeded
  heldBack : ∀ attempt ∈ outcome.attempts, ∀ retryAfterMs,
    attempt.failure = some (.rateLimited retryAfterMs) → 0 < retryAfterMs →
    (call.chunkSend 5).ended.now + retryAfterMs ≤
      backoffUntil outcome.state.backoff (call.chunkSend 5).providerKey

/-- The call sends its text: it is not blank, no sub-session's final answer, and not one that the
ledger shows as delivered. -/
def Sends (hashText : JsString → Digest) (call : EmitCall)
    (ledger : DeliveryLedger (TextKey Digest)) : Prop :=
  trim call.text ≠ [] ∧ ¬ (call.isFinal ∧ call.fromSubSession) ∧
    ¬ (call.isFinal ∧ call.force = false ∧
      (callRow hashText call ledger).any MessageLedgerEvent.succeeded)

/-- The parts the handler sends for a call. -/
def partsOf (context : ChunkDeliveryContext) (call : EmitCall) : List JsString :=
  context.messenger.split (deliveredText context (trim call.text))

/-- The messenger answers a call well: it accepts every part of the text, which no notice stands
in for, unless the text has a row already; and it limits the rate only of a target that is held
back long enough. -/
structure AnsweredWell (hashText : JsString → Digest) (contexts : ℕ → ChunkDeliveryContext)
    (call : EmitCall) (before : MessengerState Digest) : Prop where
  accepted : callRow hashText call before.ledger = none →
    deliveredText (contexts call.handler) (trim call.text) = trim call.text ∧
      ∀ index < (partsOf (contexts call.handler) call).length, call.answers index = .accepted
  limited : ∀ index < (partsOf (contexts call.handler) call).length,
    (∀ earlier < index, call.answers earlier = .accepted) → ∀ retryAfterMs,
    call.answers index = .rateLimited retryAfterMs → 0 < retryAfterMs →
    (call.chunkSend 5).ended.now + retryAfterMs ≤
      backoffUntil before.backoff (call.chunkSend 5).providerKey

/-! ## The start -/

theorem textRow_recordAll {hashes : LedgerHashes (TextKey Digest)} {text : JsString}
    (rows : List (DeliveryEvent (TextKey Digest))) (hrows : ∀ row ∈ rows, Aside row)
    (ledger : DeliveryLedger (TextKey Digest)) :
    textRow hashes (rows.foldl recordMessageLedgerEvent ledger) text =
      textRow hashes ledger text := by
  induction rows generalizing ledger with
  | nil => rfl
  | cons row rest ih =>
    obtain ⟨hrow, hrest⟩ := List.forall_mem_cons.mp hrows
    exact (ih hrest _).trans (textRow_record hrow text)

theorem startEmit_spec (call : EmitCall) (ledger : DeliveryLedger (TextKey Digest)) :
    let result := startEmit (call.hashes hashText) call.delivery (call.stamps 0) ledger
    let sends := trim call.text ≠ [] ∧ call.fromSubSession = false ∧
      (callRow hashText call ledger).any MessageLedgerEvent.succeeded = false
    callRow hashText call result.1 = callRow hashText call ledger ∧
      (sends → result.2 = .textChunk) ∧ (¬ sends → ∃ receipt, result.2 = .returned receipt) := by
  intro result sends
  have hstarted := @startEmit_started _ _ (call.hashes hashText) [] ledger (call.stamps 0)
    call.delivery
  obtain ⟨rows, hrows, hledger⟩ := hstarted.rows
  have hsends : result.2.inFlight ↔ sends := hstarted.sends.trans and_assoc
  refine ⟨?_, fun h => hstarted.chunk (hsends.mpr h), fun h => ?_⟩
  · exact (congrArg (callRow hashText call) hledger).trans (textRow_recordAll rows hrows ledger)
  · have hnot : ¬ result.2.inFlight := fun hflight => h (hsends.mp hflight)
    cases hphase : result.2 with
    | returned receipt => exact ⟨receipt, rfl⟩
    | committed answer =>
      obtain ⟨⟨_, hcommit⟩, -⟩ := hstarted.committed answer hphase
      exact nomatch hcommit
    | _ => exact absurd (hphase ▸ rfl) hnot

/-- The first part of a call leaves the rows of texts alone and sends or returns. -/
theorem startDelivery_spec (call : EmitCall) (ledger : DeliveryLedger (TextKey Digest)) :
    callRow hashText call (startDelivery hashText call ledger).1 = callRow hashText call ledger ∧
      (Sends hashText call ledger → (startDelivery hashText call ledger).2 = .textChunk) ∧
      (¬ Sends hashText call ledger →
        ∃ receipt, (startDelivery hashText call ledger).2 = .returned receipt) := by
  obtain ⟨hrow, hsent, hreturned⟩ := @startEmit_spec _ _ hashText call ledger
  unfold startDelivery Sends
  split
  · next hlookUp =>
    simp only [Bool.and_eq_true, Bool.not_eq_true'] at hlookUp
    refine ⟨hrow, fun h => hsent ?_, fun h => hreturned fun hsends => h ?_⟩
    · exact ⟨h.1, by simpa [hlookUp] using h.2.1, by simpa [hlookUp] using h.2.2⟩
    · exact ⟨hsends.1, by simp [hsends.2.1], by simp [hsends.2.2]⟩
  next hlookUp =>
  split
  · next hblank => exact ⟨rfl, fun h => absurd hblank h.1, fun _ => ⟨_, rfl⟩⟩
  next hblank =>
  split
  · next hblocked =>
    rw [Bool.and_eq_true] at hblocked
    refine ⟨hrow, fun h => absurd hblocked h.2.1, fun _ => hreturned fun hsends => ?_⟩
    exact absurd hblocked.2 (by simp [hsends.2.1])
  · next hblocked =>
    refine ⟨rfl, fun _ => rfl, fun h => absurd ⟨hblank, ?_, ?_⟩ h⟩
    · simpa using hblocked
    · rintro ⟨hfinal, hforce, -⟩
      exact hlookUp (by simp [hfinal, hforce])

/-! ## The chunks -/

/-- Rows that other code writes: they have no key of a text. -/
theorem callRow_record {row : DeliveryEvent (TextKey Digest)}
    {ledger : DeliveryLedger (TextKey Digest)} {key : JsString}
    (hkey : row.idempotencyKey = some (.foreign key)) :
    callRow hashText call (recordMessageLedgerEvent ledger row) = callRow hashText call ledger :=
  getMessageLedgerEvent_record_of_ne (by rw [hkey]; simp)

theorem callRow_recordOutboxEvent (ledger : DeliveryLedger (TextKey Digest)) (stamp : RowStamp)
    (eventKind : MessageLedgerEventKind) (deliveryKey idempotencyKey : JsString)
    (status : MessageLedgerStatus) :
    callRow hashText call
      (recordOutboxEvent ledger stamp eventKind deliveryKey idempotencyKey status) =
        callRow hashText call ledger :=
  callRow_record call rfl

theorem callRow_recordTextDeliveryFailure (text : JsString) (stamp : RowStamp)
    (ledger : DeliveryLedger (TextKey Digest)) :
    callRow hashText call (recordTextDeliveryFailure hashText context text stamp ledger) =
      callRow hashText call ledger := by
  unfold recordTextDeliveryFailure
  split
  · rfl
  · rfl
  · exact callRow_record call rfl

theorem callRow_handleChunk (stamp : RowStamp) (bufferedText : JsString)
    (ledger : DeliveryLedger (TextKey Digest)) (chunk : AgentChunk) :
    callRow hashText call
      (handleChunk hashText context answers stamp bufferedText ledger chunk).ledger =
        callRow hashText call ledger := by
  cases chunk with
  | text delta => rfl
  | done =>
    unfold handleChunk
    dsimp only
    split
    · rfl
    · split
      · rfl
      · exact callRow_recordTextDeliveryFailure _ _ _ _ _

theorem maxRetryAfter_sent (parts : List JsString) :
    maxRetryAfterFromReceipts (parts.map fun _ => { status := .sent }) = 0 := by
  unfold maxRetryAfterFromReceipts
  induction parts with
  | nil => rfl
  | cons part rest ih => simpa using ih

/-- The handlers throw nothing, and their receipts name no retry time. -/
theorem handleChunk_quiet (stamp : RowStamp) (bufferedText : JsString)
    (ledger : DeliveryLedger (TextKey Digest)) (chunk : AgentChunk) :
    ∃ receipt, (handleChunk hashText context answers stamp bufferedText ledger chunk).result =
      .ok receipt ∧ maxRetryAfterFromReceipts (receipt.getD []) = 0 := by
  cases chunk with
  | text delta => exact ⟨none, rfl, rfl⟩
  | done =>
    unfold handleChunk
    dsimp only
    split
    · exact ⟨none, rfl, rfl⟩
    · split
      · exact ⟨some _, rfl, maxRetryAfter_sent _⟩
      · exact ⟨none, rfl, rfl⟩

/-- A chunk whose handler throws nothing and names no retry time counts as delivered and leaves
the back-off and the rows of texts alone. -/
theorem deliverChunk_quiet (send : ChunkSend) (chunk : AgentChunk) (backoff : ProviderBackoff)
    (ledger : DeliveryLedger (TextKey Digest))
    {handler : DeliveryLedger (TextKey Digest) → HandledChunk Digest}
    (hquiet : ∀ rows, ∃ receipt, (handler rows).result = .ok receipt ∧
      maxRetryAfterFromReceipts (receipt.getD []) = 0)
    (hrow : ∀ rows, callRow hashText call (handler rows).ledger = callRow hashText call rows) :
    (deliverChunk send chunk backoff ledger handler).failed = false ∧
      (deliverChunk send chunk backoff ledger handler).backoff = backoff ∧
      callRow hashText call (deliverChunk send chunk backoff ledger handler).ledger =
        callRow hashText call ledger ∧
      ∃ rows, (deliverChunk send chunk backoff ledger handler).bufferedText =
          (handler rows).bufferedText ∧
        (deliverChunk send chunk backoff ledger handler).attempts = (handler rows).attempts := by
  unfold deliverChunk
  dsimp only
  generalize hattempted : @recordOutboxEvent Digest _ _ send.tried _ _ _ _ = attempted
  have hkept : callRow hashText call attempted = callRow hashText call ledger := by
    rw [← hattempted, callRow_recordOutboxEvent]
    split
    · exact callRow_recordOutboxEvent _ _ _ _ _ _ _
    · rfl
  obtain ⟨receipt, hresult, hretry⟩ := hquiet attempted
  rw [hresult]
  dsimp only
  rw [hretry]
  refine ⟨rfl, rfl, ?_, attempted, rfl, rfl⟩
  split
  · rw [callRow_recordOutboxEvent, hrow, hkept]
  · rw [hrow, hkept]

theorem deliverChunk_handle (hashText : JsString → Digest) (call : EmitCall) (send : ChunkSend)
    (chunk : AgentChunk) (backoff : ProviderBackoff) (ledger : DeliveryLedger (TextKey Digest))
    (context : ChunkDeliveryContext) (answers : ℕ → SendAnswer) (bufferedText : JsString)
    {delivery : ChunkDelivery Digest}
    (hdelivery : deliverChunk send chunk backoff ledger (fun rows =>
      handleChunk hashText context answers send.handled bufferedText rows chunk) = delivery) :
    delivery.failed = false ∧ delivery.backoff = backoff ∧
      callRow hashText call delivery.ledger = callRow hashText call ledger ∧
      ∃ rows, delivery.bufferedText =
          (handleChunk hashText context answers send.handled bufferedText rows chunk).bufferedText ∧
        delivery.attempts =
          (handleChunk hashText context answers send.handled bufferedText rows chunk).attempts := by
  subst hdelivery
  exact deliverChunk_quiet call send chunk backoff ledger
    (fun rows => handleChunk_quiet context answers send.handled bufferedText rows chunk)
    fun rows => callRow_handleChunk call context answers send.handled bufferedText rows chunk

/-- The handler of a text that is not empty sends it and keeps none of it. -/
theorem handleChunk_done (context : ChunkDeliveryContext) (answers : ℕ → SendAnswer)
    (stamp : RowStamp) {text : JsString} (htext : text ≠ [])
    (ledger : DeliveryLedger (TextKey Digest)) :
    (handleChunk hashText context answers stamp text ledger .done).bufferedText = [] ∧
      (handleChunk hashText context answers stamp text ledger .done).attempts =
        [sendFinalText context answers text] := by
  unfold handleChunk
  dsimp only
  rw [if_neg htext]
  split <;> exact ⟨rfl, rfl⟩

/-! ## An answer -/

/-- What a call that sends does when its handler keeps no text: the handler sends the text, both
chunks count as delivered, and the row says so if the key is free. -/
theorem deliverAnswer_spec (call : EmitCall) {state : MessengerState Digest}
    (hbuffer : state.buffers call.handler = []) (htext : trim call.text ≠ []) :
    (deliverAnswer hashText contexts call state).receipt = ⟨call.persistMessage, true, true⟩ ∧
      (deliverAnswer hashText contexts call state).attempts =
        [sendFinalText (contexts call.handler) call.answers (trim call.text)] ∧
      (deliverAnswer hashText contexts call state).state.backoff = state.backoff ∧
      (deliverAnswer hashText contexts call state).state.buffers = state.buffers ∧
      (callRow hashText call state.ledger = none →
        ∃ row ∈ callRow hashText call (deliverAnswer hashText contexts call state).state.ledger,
          row.status = .delivered) ∧
      (∀ row, callRow hashText call state.ledger = some row →
        callRow hashText call (deliverAnswer hashText contexts call state).state.ledger =
          some row) := by
  unfold deliverAnswer
  dsimp only
  generalize htextChunk : @deliverChunk Digest _ (call.chunkSend 1) _ _ _ _ = text
  obtain ⟨htextFailed, htextBackoff, htextRow, _, htextBuffer, htextAttempts⟩ :=
    deliverChunk_handle hashText call _ _ _ _ _ _ _ htextChunk
  have hbuffered : text.bufferedText = trim call.text := by
    rw [htextBuffer, hbuffer]
    rfl
  generalize hdoneChunk : @deliverChunk Digest _ (call.chunkSend 5) _ _ _ _ = done
  obtain ⟨hdoneFailed, hdoneBackoff, hdoneRow, rows, hdoneBuffer, hdoneAttempts⟩ :=
    deliverChunk_handle hashText call _ _ _ _ _ _ _ hdoneChunk
  have hhandled := @handleChunk_done _ _ hashText (contexts call.handler) call.answers
    (call.chunkSend 5).handled _ htext rows
  rw [hbuffered] at hdoneBuffer hdoneAttempts
  have hrow := hdoneRow.trans htextRow
  unfold finishEmit
  rw [htextFailed, hdoneFailed]
  refine ⟨rfl, ?_, hdoneBackoff.trans htextBackoff, ?_, fun hnone => ?_, fun row hsome => ?_⟩
  · rw [htextAttempts, hdoneAttempts, hhandled.2]
    rfl
  · rw [hdoneBuffer, hhandled.1, ← hbuffer, Function.update_eq_self]
  · exact ⟨_, getMessageLedgerEvent_record_of_none rfl (hrow.trans hnone), rfl⟩
  · exact getMessageLedgerEvent_record_of_some (hrow.trans hsome)

/-- A call that does not send leaves its row, the back-off and the handlers alone. -/
theorem emit_of_not_sends {call : EmitCall} {state : MessengerState Digest}
    (hsends : ¬ Sends hashText call state.ledger) :
    let outcome := emitAssistantTextDelivery hashText contexts call state
    callRow hashText call outcome.state.ledger = callRow hashText call state.ledger ∧
      outcome.attempts = [] ∧ outcome.state.buffers = state.buffers := by
  obtain ⟨hrow, -, hreturned⟩ := @startDelivery_spec _ _ hashText call state.ledger
  obtain ⟨receipt, hphase⟩ := hreturned hsends
  intro outcome
  have houtcome : outcome =
      { state := { state with ledger := (startDelivery hashText call state.ledger).1 }
        receipt
        attempts := [] } := by
    unfold outcome emitAssistantTextDelivery
    rw [← Prod.mk.eta (p := startDelivery hashText call state.ledger), hphase]
  rw [houtcome]
  exact ⟨hrow, rfl, rfl⟩

/-- A call that sends is the delivery of its answer over the rows of its first part. -/
theorem emit_of_sends {call : EmitCall} {state : MessengerState Digest}
    (hsends : Sends hashText call state.ledger) :
    ∃ ledger, callRow hashText call ledger = callRow hashText call state.ledger ∧
      emitAssistantTextDelivery hashText contexts call state =
        deliverAnswer hashText contexts call { state with ledger } := by
  obtain ⟨hrow, hsent, -⟩ := @startDelivery_spec _ _ hashText call state.ledger
  refine ⟨(startDelivery hashText call state.ledger).1, hrow, ?_⟩
  unfold emitAssistantTextDelivery
  rw [← Prod.mk.eta (p := startDelivery hashText call state.ledger), hsent hsends]

theorem buffers_emit {state : MessengerState Digest} (hbuffers : state.buffers = fun _ => []) :
    (emitAssistantTextDelivery hashText contexts call state).state.buffers = fun _ => [] := by
  by_cases hsends : Sends hashText call state.ledger
  · obtain ⟨ledger, -, houtcome⟩ := @emit_of_sends _ _ _ contexts _ _ hsends
    have hbuffer : state.buffers call.handler = [] := congrFun hbuffers call.handler
    obtain ⟨-, -, -, hkept, -⟩ := @deliverAnswer_spec _ _ hashText contexts call
      { state with ledger } hbuffer hsends.1
    rw [houtcome, hkept]
    exact hbuffers
  · exact (emit_of_not_sends hsends).2.2.trans hbuffers

/-- After every call the handlers keep no text. -/
theorem buffers_stateAfter (ledger : DeliveryLedger (TextKey Digest)) (backoff : ProviderBackoff)
    (calls : List EmitCall) :
    (stateAfter hashText contexts ledger backoff calls).buffers = fun _ => [] := by
  suffices h : ∀ state : MessengerState Digest, (state.buffers = fun _ => []) →
      (calls.foldl (fun state call =>
        (emitAssistantTextDelivery hashText contexts call state).state) state).buffers =
          fun _ => [] from h _ rfl
  induction calls with
  | nil => exact fun state hbuffers => hbuffers
  | cons call rest ih => exact fun state hbuffers => ih _ (buffers_emit call hbuffers)

theorem failure_sendFinalText {context : ChunkDeliveryContext} {call : EmitCall} :
    (sendFinalText context call.answers (trim call.text)).failure =
      (sendParts call.answers 0 (partsOf context call)).2 := rfl

/-- The text was taken if it is what went out and every part of it was accepted. -/
theorem tookText_iff {context : ChunkDeliveryContext} {call : EmitCall} :
    TookText call [sendFinalText context call.answers (trim call.text)] ↔
      deliveredText context (trim call.text) = trim call.text ∧
        ∀ index < (partsOf context call).length, call.answers index = .accepted := by
  unfold TookText
  simp only [List.mem_singleton, exists_eq_left]
  rw [failure_sendFinalText, sendParts_eq_none]
  simp only [Nat.zero_add]
  rfl

theorem countsWhatWasTaken_of_sent {call : EmitCall} {before : MessengerState Digest}
    {outcome : EmitOutcome Digest}
    (hreceipt : outcome.receipt = ⟨call.persistMessage, true, true⟩)
    (hattempts : outcome.attempts =
      [sendFinalText (contexts call.handler) call.answers (trim call.text)])
    (hbackoff : outcome.state.backoff = before.backoff)
    (hfree : callRow hashText call before.ledger = none →
      ∃ row ∈ callRow hashText call outcome.state.ledger, row.status = .delivered)
    (htaken : ∀ row, callRow hashText call before.ledger = some row →
      callRow hashText call outcome.state.ledger = some row) :
    CountsWhatWasTaken hashText call before outcome ↔
      AnsweredWell hashText contexts call before := by
  constructor
  · intro hlaw
    refine ⟨fun hnone => ?_, fun index hindex hearlier retryAfterMs hlimited hpos => ?_⟩
    · have htook := hlaw.counted (by rw [hreceipt]) (by rw [hreceipt]) hnone (hfree hnone)
      rw [hattempts] at htook
      exact tookText_iff.mp htook
    · rw [← hbackoff]
      refine hlaw.heldBack _ (hattempts ▸ List.mem_singleton_self _) retryAfterMs ?_ hpos
      rw [failure_sendFinalText, sendParts_eq_some]
      simp only [Nat.zero_add]
      exact ⟨index, hindex, hearlier, hlimited, nofun⟩
  · intro hwell
    refine ⟨fun _ _ hnone _ => ?_, fun hnot hlater => ?_, ?_⟩
    · rw [hattempts]
      exact tookText_iff.mpr (hwell.accepted hnone)
    · cases hrow : callRow hashText call before.ledger with
      | none => exact absurd (hattempts ▸ tookText_iff.mpr (hwell.accepted hrow)) hnot
      | some row => rwa [htaken row hrow] at hlater
    · intro attempt hattempt retryAfterMs hfailure hpos
      rw [hattempts, List.mem_singleton] at hattempt
      rw [hattempt, failure_sendFinalText, sendParts_eq_some] at hfailure
      simp only [Nat.zero_add] at hfailure
      obtain ⟨index, hindex, hearlier, hanswer, -⟩ := hfailure
      rw [hbackoff]
      exact hwell.limited index hindex hearlier retryAfterMs hanswer hpos

/-- In the state after any sequence of calls, a call keeps the law exactly if it does not send
or the messenger answers it well. -/
theorem countsWhatWasTaken_iff (hashText : JsString → Digest)
    (contexts : ℕ → ChunkDeliveryContext) (ledger : DeliveryLedger (TextKey Digest))
    (backoff : ProviderBackoff) (calls : List EmitCall) (call : EmitCall) :
    CountsWhatWasTaken hashText call (stateAfter hashText contexts ledger backoff calls)
        (emitAssistantTextDelivery hashText contexts call
          (stateAfter hashText contexts ledger backoff calls)) ↔
      (Sends hashText call (stateAfter hashText contexts ledger backoff calls).ledger →
        AnsweredWell hashText contexts call (stateAfter hashText contexts ledger backoff calls)) := by
  have hbuffers := @buffers_stateAfter _ _ hashText contexts ledger backoff calls
  generalize stateAfter hashText contexts ledger backoff calls = state at hbuffers ⊢
  by_cases hsends : Sends hashText call state.ledger
  · rw [imp_iff_right hsends]
    obtain ⟨rows, hrows, houtcome⟩ := @emit_of_sends _ _ _ contexts _ _ hsends
    have hbuffer : state.buffers call.handler = [] := congrFun hbuffers call.handler
    obtain ⟨hreceipt, hattempts, hbackoff, -, hfree, htaken⟩ := @deliverAnswer_spec _ _ hashText
      contexts call { state with ledger := rows } hbuffer hsends.1
    rw [hrows] at hfree htaken
    rw [houtcome]
    generalize deliverAnswer hashText contexts call _ = outcome at *
    exact countsWhatWasTaken_of_sent hreceipt hattempts hbackoff hfree htaken
  · obtain ⟨hrow, hattempts, -⟩ := @emit_of_not_sends _ _ _ contexts _ _ hsends
    refine iff_of_true ⟨fun _ _ hnone hstored => ?_, fun _ hlater => ?_, fun attempt hattempt => ?_⟩
      fun h => absurd h hsends
    · rw [hrow, hnone] at hstored
      exact absurd hstored (by simp)
    · rwa [hrow] at hlater
    · rw [hattempts] at hattempt
      cases hattempt

/-- An answer whose only part Telegram refuses. -/
def refusedAnswer : EmitCall where
  runId := ofString "run-1"
  source := ofString "telegram"
  sessionId := ofString "session-1"
  targetKey := ofString "session-1"
  text := ofString "done"
  handler := 0
  answers _ := .refused
  stamps index := ⟨ofString (toString index), index⟩

def telegramChat (_ : ℕ) : ChunkDeliveryContext where
  messenger := .telegram
  conversation := ofString "42:main"
  ledgerTarget := ofString "[42,\"main\"]"
  runId := some (ofString "run-1")

/-- The refused answer counts as delivered. -/
theorem refusedAnswer_counts :
    ¬ CountsWhatWasTaken id refusedAnswer (stateAfter id telegramChat [] ∅ [])
      (emitAssistantTextDelivery id telegramChat refusedAnswer
        (stateAfter id telegramChat [] ∅ [])) := by
  intro hlaw
  have hsends : Sends id refusedAnswer (stateAfter id telegramChat [] ∅ []).ledger :=
    ⟨by decide, by decide, fun h => Bool.false_ne_true h.2.2⟩
  obtain ⟨ledger, hrow, houtcome⟩ := @emit_of_sends _ _ _ telegramChat _ _ hsends
  obtain ⟨hreceipt, hattempts, -, -, hfree, -⟩ := @deliverAnswer_spec _ _ id telegramChat
    refusedAnswer { stateAfter id telegramChat [] ∅ [] with ledger } rfl hsends.1
  rw [houtcome] at hlaw
  have htook := hlaw.counted (by rw [hreceipt]) (by rw [hreceipt]) rfl (hfree hrow)
  rw [hattempts] at htook
  have hparts : partsOf (telegramChat 0) refusedAnswer ≠ [] := splitMessage_ne_nil _
  exact nomatch (tookText_iff.mp htook).2 0 (List.length_pos_of_ne_nil hparts)

end Nobie.Channels
