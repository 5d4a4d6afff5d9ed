/-
# Waiting for a response

`waitForResponse` listens on the response topic that all callers of an extension
share. It is given here as a state machine: its events are the messages the
connection delivers and the end of the wait by the timer, an error or a close.
A settlement keeps the bytes of the response text it was read from, so that a
result can say which text settled the call.
-/

import Nobie.Yeonjang.Protocol

namespace Nobie.Yeonjang

open Foundation

/-- How the promise of a call ends. -/
inductive Outcome
  | resolved (value : Json)
  | rejected (message : String) (code : Option String)

structure Settlement where
  outcome : Outcome
  /-- The response text the outcome was read from. -/
  text : List UInt8

/-- The listeners of one call. They are attached until the call settles. -/
structure Waiter where
  listening : Bool
  chunkParts : OrderedMap ℚ String
  settlements : List Settlement

namespace Waiter

/-- The state in which the listeners are attached. -/
def attached : Waiter := ⟨true, ∅, []⟩

/-- `cleanup()` followed by `resolve` or `reject`. -/
def settle (waiter : Waiter) (outcome : Outcome) (text : List UInt8) : Waiter where
  listening := false
  chunkParts := ∅
  settlements := waiter.settlements ++ [⟨outcome, text⟩]

@[simp]
theorem settle_settlements (waiter : Waiter) (outcome : Outcome) (text : List UInt8) :
    (waiter.settle outcome text).settlements = waiter.settlements ++ [⟨outcome, text⟩] := rfl

end Waiter

variable (requestId : String) (waiter : Waiter)

/-- `id && id !== requestId`: does a member name another request? -/
def namesOther : Option Json → Bool
  | none => false
  | some (.str id) => decide (id ≠ "" ∧ id ≠ requestId)
  | some id => id.truthy

/-- `isChunkEnvelope`. -/
def isChunkEnvelope (value : Json) : Bool :=
  match value.field? "transport" with
  | some (.str transport) => transport = "chunk"
  | _ => false

/-- A string member, by the declared types of the two envelopes. -/
def stringField? (value : Json) (key : String) : Option String :=
  match value.field? key with
  | some (.str s) => some s
  | _ => none

def numberField? (value : Json) (key : String) : Option Number :=
  match value.field? key with
  | some (.num number) => some number
  | _ => none

/-- `createYeonjangResponseError`. -/
def createYeonjangResponseError (error : Option Json) : Outcome :=
  .rejected (((error.bind (stringField? · "message"))).getD "Yeonjang 요청이 실패했습니다.")
    ((error.bind (stringField? · "code")).filter (· ≠ ""))

/-- What a response says to the caller. -/
def responseOutcome (response : Json) : Outcome :=
  if ((response.field? "ok").getD .null).truthy then
    .resolved ((response.field? "result").getD .null)
  else createYeonjangResponseError (response.field? "error")

/-- The end of the listener once a response is parsed, plain or reassembled.
Reading a member of `null` throws out of the listener and settles nothing. -/
def answer (response : Json) (text : List UInt8) : Waiter :=
  match response with
  | .null => waiter
  | response =>
    if namesOther requestId (response.field? "id") then waiter
    else waiter.settle (responseOutcome response) text

/-- The pieces from index zero on, or the first index that has none. -/
def orderedParts (parts : OrderedMap ℚ String) (count : ℚ) : Except ℕ (List String) :=
  match (List.range ⌈count⌉₊).find? fun index : ℕ => (parts.get? (index : ℚ)).isNone with
  | some index => .error index
  | none => .ok ((List.range ⌈count⌉₊).filterMap fun index : ℕ => parts.get? (index : ℚ))

/-- The members of a chunk envelope that pass the type tests: two numbers and
data that is not empty. -/
structure ReceivedChunk where
  (chunkIndex chunkCount : Number)
  base64Data : String

def readChunk (envelope : Json) : Option ReceivedChunk := do
  let chunkIndex ← numberField? envelope "chunk_index"
  let chunkCount ← numberField? envelope "chunk_count"
  let base64Data ← (stringField? envelope "base64_data").filter (· ≠ "")
  some { chunkIndex, chunkCount, base64Data }

/-- Put the pieces together once there are as many as the envelope announces. -/
def restore (chunkCount : Number) (payload : List UInt8) : Waiter :=
  match orderedParts waiter.chunkParts chunkCount.value with
  | .error index =>
    waiter.settle (.rejected (s!"Yeonjang 청크 응답이 누락되었습니다. ({index + 1}/" ++
      String.ofList (Json.printNumber chunkCount) ++ ")") none) payload
  | .ok ordered =>
    let bytes := ordered.flatMap base64Decode
    match Json.parse (utf8Text bytes) with
    | none => waiter.settle (.rejected "Yeonjang 청크 응답 복원 실패" none) bytes
    | some response => answer requestId waiter response bytes

/-- Store a piece under its index. -/
def collect (chunk : ReceivedChunk) (payload : List UInt8) : Waiter :=
  let parts := waiter.chunkParts.set chunk.chunkIndex.value chunk.base64Data
  let waiter := { waiter with chunkParts := parts }
  if (parts.size : ℚ) < chunk.chunkCount.value then waiter
  else restore requestId waiter chunk.chunkCount payload

/-- The branch of the listener for a chunk envelope. -/
def onChunk (envelope : Json) (payload : List UInt8) : Waiter :=
  if namesOther requestId (envelope.field? "id") then waiter
  else match readChunk envelope with
    | none => waiter.settle (.rejected "Yeonjang 청크 응답 형식이 올바르지 않습니다." none) payload
    | some chunk => collect requestId waiter chunk payload

/-- `onMessage`, while the listener is attached. -/
def onMessage (requestId responseTopic : String) (waiter : Waiter) (message : MqttMessage) :
    Waiter :=
  if message.topic ≠ responseTopic then waiter
  else match Json.parse (utf8Text message.payload) with
    | none => waiter.settle (.rejected "Yeonjang 응답 JSON 파싱 실패" none) message.payload
    | some parsed =>
      if isChunkEnvelope parsed then onChunk requestId waiter parsed message.payload
      else answer requestId waiter parsed message.payload

/-- What the connection and the timer do to a waiting call. -/
inductive WaiterEvent
  | message (message : MqttMessage)
  | timer
  | error (message : String)
  | close

def onEvent (requestId responseTopic : String) (waiter : Waiter) : WaiterEvent → Waiter
  | .message message => onMessage requestId responseTopic waiter message
  | .timer => waiter.settle (.rejected "Yeonjang MQTT 응답 시간이 초과되었습니다." none) []
  | .error message => waiter.settle (.rejected message none) []
  | .close => waiter.settle (.rejected "Yeonjang MQTT 응답 대기 중 연결이 닫혔습니다." none) []

/-- One event. A call that has settled has no listener and no timer left. -/
def waiterStep (requestId responseTopic : String) (waiter : Waiter) (event : WaiterEvent) :
    Waiter :=
  if waiter.listening then onEvent requestId responseTopic waiter event else waiter

/-- `waitForResponse` over a sequence of events. -/
def waitForResponse (requestId responseTopic : String) (events : List WaiterEvent) : Waiter :=
  events.foldl (waiterStep requestId responseTopic) .attached

/-! ## Settled calls -/

variable {requestId responseTopic : String}

variable {waiter : Waiter} {id : String} {message : MqttMessage} {envelope : ResponseChunkEnvelope}

/-- A call that has settled is not touched again. -/
theorem foldl_waiterStep_of_not_listening (h : waiter.listening = false) (events : List WaiterEvent)
    :
    events.foldl (waiterStep requestId responseTopic) waiter = waiter := by
  induction events with
  | nil => rfl
  | cons event events ih => simpa [waiterStep, h] using ih

theorem waiterStep_of_listening (h : waiter.listening) (event : WaiterEvent) :
    waiterStep requestId responseTopic waiter event =
      onEvent requestId responseTopic waiter event := by
  simp [waiterStep, h]

theorem waitForResponse_append (requestId responseTopic : String)
    (before after : List WaiterEvent) :
    waitForResponse requestId responseTopic (before ++ after) =
      after.foldl (waiterStep requestId responseTopic)
        (waitForResponse requestId responseTopic before) :=
  List.foldl_append

/-! ## Messages of other calls -/

/-- A well-formed message of another call: an object whose id is a string that
is not the caller's. The receiver takes an empty id for none. -/
def CarriesOtherId (requestId : String) (message : MqttMessage) : Prop :=
  ∃ fields id, Json.parse (utf8Text message.payload) = some (.obj fields) ∧
    Json.lookup fields "id" = some (.str id) ∧ id ≠ "" ∧ id ≠ requestId

theorem namesOther_str (hempty : id ≠ "") (hother : id ≠ requestId) :
    namesOther requestId (some (.str id)) := by
  simp [namesOther, hempty, hother]

theorem namesOther_self (requestId : String) :
    namesOther requestId (some (.str requestId)) = false := by
  simp [namesOther]

/-- The message of another call leaves the wait as it was. -/
theorem onMessage_of_carriesOtherId (h : CarriesOtherId requestId message) (responseTopic : String)
    (waiter : Waiter) : onMessage requestId responseTopic waiter message = waiter := by
  obtain ⟨fields, id, hparse, hid, hempty, hother⟩ := h
  have hnames : namesOther requestId ((Json.obj fields).field? "id") := by
    rw [Json.field?, hid]
    exact namesOther_str hempty hother
  unfold onMessage
  split
  · rfl
  · rw [hparse]
    dsimp only
    split
    · rw [onChunk, if_pos hnames]
    · rw [answer, if_pos hnames]
      simp

/-! ## The messages of the extension -/

@[simp]
theorem field?_id_toJson (response : Response) :
    response.toJson.field? "id" = response.id.map Json.str := by
  rcases response with ⟨_ | id, ok, _ | result, _ | error⟩ <;> rfl

@[simp]
theorem isChunkEnvelope_response (response : Response) :
    isChunkEnvelope response.toJson = false := by
  rcases response with ⟨_ | id, ok, _ | result, _ | error⟩ <;> rfl

/-- A plain response reaches the end of the listener as it was sent. -/
theorem onMessage_response (requestId responseTopic : String) (waiter : Waiter)
    (response : Response) :
    onMessage requestId responseTopic waiter ⟨responseTopic, response.payload⟩ =
      if namesOther requestId (response.id.map Json.str) then waiter
      else waiter.settle (responseOutcome response.toJson) response.payload := by
  unfold onMessage
  simp only [ne_eq, not_true_eq_false, if_false, Response.payload, parse_toVec,
    isChunkEnvelope_response, Bool.false_eq_true]
  rw [answer, field?_id_toJson]
  exact fun h => Json.noConfusion h

@[simp]
theorem field?_id_envelope (envelope : ResponseChunkEnvelope) :
    envelope.toJson.field? "id" = some ((envelope.id.map Json.str).getD .null) := rfl

theorem isChunkEnvelope_envelope (h : envelope.transport = "chunk") :
    isChunkEnvelope envelope.toJson := by
  change (match (some (Json.str envelope.transport) : Option Json) with
    | some (.str transport) => decide (transport = "chunk")
    | _ => false)
  simp [h]

theorem readChunk_envelope (h : envelope.base64Data ≠ "") :
    readChunk envelope.toJson =
      some ⟨.ofNat envelope.chunkIndex, .ofNat envelope.chunkCount, envelope.base64Data⟩ := by
  have hindex : numberField? envelope.toJson "chunk_index" =
    some (.ofNat envelope.chunkIndex) := rfl
  have hcount : numberField? envelope.toJson "chunk_count" =
    some (.ofNat envelope.chunkCount) := rfl
  have hdata : stringField? envelope.toJson "base64_data" = some envelope.base64Data := rfl
  simp [readChunk, hindex, hcount, hdata, Option.filter, h]

/-- A chunk envelope as the extension writes it is read member by member. -/
theorem onMessage_envelope (requestId responseTopic : String) (waiter : Waiter)
    (envelope : ResponseChunkEnvelope) (htransport : envelope.transport = "chunk")
    (hid : envelope.id = some requestId) (hdata : envelope.base64Data ≠ "") :
    onMessage requestId responseTopic waiter ⟨responseTopic, toVec envelope.toJson⟩ =
      collect requestId waiter
        ⟨.ofNat envelope.chunkIndex, .ofNat envelope.chunkCount, envelope.base64Data⟩
        (toVec envelope.toJson) := by
  have hnames : namesOther requestId (envelope.toJson.field? "id") = false := by
    rw [field?_id_envelope, hid]
    exact namesOther_self requestId
  unfold onMessage
  simp only [ne_eq, not_true_eq_false, if_false, parse_toVec]
  rw [if_pos (isChunkEnvelope_envelope htransport), onChunk, hnames, if_neg (by decide),
    readChunk_envelope hdata]

/-- Every message of a response with an id is an object that carries the id. -/
theorem parse_of_mem_publishResponse {response : Response} (hid : response.id = some id)
    (hmem : message ∈ publishResponse responseTopic response) :
    ∃ fields, Json.parse (utf8Text message.payload) = some (.obj fields) ∧
      Json.lookup fields "id" = some (.str id) := by
  rw [publishResponse] at hmem
  split at hmem
  · rw [List.mem_singleton] at hmem
    subst hmem
    refine ⟨response.fields, parse_toVec _, ?_⟩
    have hfield := field?_id_toJson response
    rwa [hid] at hfield
  · rw [List.mem_map] at hmem
    obtain ⟨⟨chunk, index⟩, -, rfl⟩ := hmem
    refine ⟨_, parse_toVec _, ?_⟩
    rw [hid]
    rfl

end Nobie.Yeonjang
