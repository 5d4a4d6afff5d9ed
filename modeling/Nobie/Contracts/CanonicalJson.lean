/-
# Canonical JSON and the keys of contracts

A contract is identified by the canonical text of a projection of it: values that say
nothing are left out, keys are sorted at every depth, and what remains is written as JSON.
The keys of payloads, deliveries and schedules are digests of such texts. The digest
itself is a parameter.
-/

import Nobie.Foundation.Bytes
import Nobie.Foundation.JsValueText

namespace Nobie.Contracts

open Foundation JsString

/-! ## Canonical JSON -/

structure CanonicalizeOptions where
  omitKeys : Option (List JsString) := none
  dropNulls : Option Bool := none
  dropEmptyStrings : Option Bool := none
  dropEmptyArrays : Option Bool := none

def protoKey : JsString := ofString "__proto__"

/-- `result[key] = next` on a plain object. Under `__proto__` there is an accessor, which
takes the value for the prototype or ignores it; no own member comes of it. -/
def assignMember (result : List (JsString × JsonValue)) (key : JsString) (next : JsonValue) :
    List (JsString × JsonValue) :=
  if key = protoKey then result else OrderedMap.insertEntry result key next

/-- The body of the loop over the sorted keys. -/
def canonicalizeKey (options : CanonicalizeOptions) (result : List (JsString × JsonValue))
    (member : JsString × Option JsonValue) : List (JsString × JsonValue) :=
  if (options.omitKeys.getD []).contains member.1 then result
  else
    match member.2 with
    | none => result
    | some next => assignMember result member.1 next

/-- Members in the order of `Object.keys(value).sort()`. -/
def sortKeys {V : Type} (members : List (JsString × V)) : List (JsString × V) :=
  members.mergeSort fun first second => decide (first.1 ≤ second.1)

mutual

def canonicalizeValue (options : CanonicalizeOptions) : JsValue → Option JsonValue
  | .undefined => none
  | .null => if options.dropNulls = some true then none else some .null
  | .string value =>
    if options.dropEmptyStrings = some true ∧ trim value = [] then none
    else some (.string value)
  | .number value => some (.number value)
  | .bool value => some (.bool value)
  | .array items =>
    let items := (canonicalizeItems options items).filterMap id
    if options.dropEmptyArrays = some true ∧ items.isEmpty then none else some (.array items)
  | .object members =>
    let result := (sortKeys (canonicalizeMembers options members)).foldl
      (canonicalizeKey options) []
    if result.isEmpty then none else some (.object result)

def canonicalizeItems (options : CanonicalizeOptions) : List JsValue → List (Option JsonValue)
  | [] => []
  | item :: rest => canonicalizeValue options item :: canonicalizeItems options rest

/-- What becomes of the value under each key. -/
def canonicalizeMembers (options : CanonicalizeOptions) :
    List (JsString × JsValue) → List (JsString × Option JsonValue)
  | [] => []
  | (key, value) :: rest =>
    (key, canonicalizeValue options value) :: canonicalizeMembers options rest

end

def toCanonicalJson (value : JsValue) (options : CanonicalizeOptions := {}) : String :=
  let normalized := canonicalizeValue
    { omitKeys := options.omitKeys
      dropNulls := some (options.dropNulls.getD true)
      dropEmptyStrings := some (options.dropEmptyStrings.getD true)
      dropEmptyArrays := some (options.dropEmptyArrays.getD true) } value
  (normalized.getD .null).stringify

def hashPrefix : String := "nobie-contract-v1"

/-- The bytes that are hashed for a value. -/
def contractBytes (value : JsValue) (kind : String) : List UInt8 :=
  utf8Bytes (hashPrefix ++ ":" ++ kind ++ ":" ++ toCanonicalJson value)

variable (sha256 : List UInt8 → String)

def stableContractHash (value : JsValue) (kind : String := "generic") : String :=
  kind ++ ":v1:" ++ sha256 (contractBytes value kind)

/-! ## Contracts -/

inductive IntentType
  | scheduleRequest | executeNow | cancel | update | question | impossible | clarification

def IntentType.text : IntentType → String
  | .scheduleRequest => "schedule_request"
  | .executeNow => "execute_now"
  | .cancel => "cancel"
  | .update => "update"
  | .question => "question"
  | .impossible => "impossible"
  | .clarification => "clarification"

inductive ActionType
  | createSchedule | updateSchedule | cancelSchedule | runTool | sendMessage | answer | askUser
  | none

def ActionType.text : ActionType → String
  | .createSchedule => "create_schedule"
  | .updateSchedule => "update_schedule"
  | .cancelSchedule => "cancel_schedule"
  | .runTool => "run_tool"
  | .sendMessage => "send_message"
  | .answer => "answer"
  | .askUser => "ask_user"
  | .none => "none"

inductive ToolTargetKind
  | schedule | run | artifact | extension | display | camera | file | unknown

def ToolTargetKind.text : ToolTargetKind → String
  | .schedule => "schedule"
  | .run => "run"
  | .artifact => "artifact"
  | .extension => "extension"
  | .display => "display"
  | .camera => "camera"
  | .file => "file"
  | .unknown => "unknown"

inductive DeliveryMode
  | reply | directArtifact | channelMessage | none

def DeliveryMode.text : DeliveryMode → String
  | .reply => "reply"
  | .directArtifact => "direct_artifact"
  | .channelMessage => "channel_message"
  | .none => "none"

inductive ScheduleKind
  | oneTime | recurring

def ScheduleKind.text : ScheduleKind → String
  | .oneTime => "one_time"
  | .recurring => "recurring"

inductive ScheduleMissedPolicy
  | skip | catchUpOnce | nextOnly

def ScheduleMissedPolicy.text : ScheduleMissedPolicy → String
  | .skip => "skip"
  | .catchUpOnce => "catch_up_once"
  | .nextOnly => "next_only"

inductive SchedulePayloadKind
  | literalMessage | agentTask | toolTask | artifactDelivery

def SchedulePayloadKind.text : SchedulePayloadKind → String
  | .literalMessage => "literal_message"
  | .agentTask => "agent_task"
  | .toolTask => "tool_task"
  | .artifactDelivery => "artifact_delivery"

/-- A field that may be absent or null is absent in both cases. -/
structure ToolTargetContract where
  kind : ToolTargetKind
  id : Option JsString
  selector : Option PlainObject

/-- The channel may be any provider's name. -/
structure DeliveryContract where
  mode : DeliveryMode
  channel : JsString
  (sessionId threadId artifactId : Option JsString)
  explicitResend : Option Bool

structure Impossibility where
  (reasonCode message : JsString)

structure IntentContract where
  intentType : IntentType
  actionType : ActionType
  target : ToolTargetContract
  delivery : DeliveryContract
  constraints : List JsString
  requiresApproval : Bool
  impossibility : Option Impossibility

structure ScheduleTimeContract where
  (runAt cron : Option JsString)
  timezone : JsString
  missedPolicy : ScheduleMissedPolicy

structure SchedulePayloadContract where
  kind : SchedulePayloadKind
  (literalText toolName : Option JsString)
  toolParams : Option PlainObject
  taskContract : Option IntentContract
  artifactId : Option JsString

structure ScheduleContract where
  kind : ScheduleKind
  time : ScheduleTimeContract
  payload : SchedulePayloadContract
  delivery : DeliveryContract

/-! ## Projections -/

/-- An object of the source, its keys written as in the source. -/
def objectOf (members : List (String × JsValue)) : JsValue :=
  .object (members.map fun member => (ofString member.1, member.2))

def textValue (text : String) : JsValue := .string (ofString text)

/-- `value ?? undefined`. -/
def optional {Value : Type} (toValue : Value → JsValue) : Option Value → JsValue
  | none => .undefined
  | some value => toValue value

/-- `CONTRACT_SCHEMA_VERSION`, the only version there is. -/
def contractSchemaVersion : JsValue := .number (.ofNat 1)

def buildToolTargetProjection (target : ToolTargetContract) : JsValue :=
  objectOf
    [("schemaVersion", contractSchemaVersion),
      ("kind", textValue target.kind.text),
      ("id", optional .string target.id),
      ("selector", optional (.object ·.members) target.selector)]

def buildDeliveryProjection (delivery : DeliveryContract) : JsValue :=
  objectOf
    [("schemaVersion", contractSchemaVersion),
      ("mode", textValue delivery.mode.text),
      ("channel", .string delivery.channel),
      ("sessionId", optional .string delivery.sessionId),
      ("threadId", optional .string delivery.threadId),
      ("artifactId", optional .string delivery.artifactId),
      ("explicitResend",
        if delivery.explicitResend = some true then .bool true else .undefined)]

def Impossibility.toValue (impossibility : Impossibility) : JsValue :=
  objectOf
    [("reasonCode", .string impossibility.reasonCode), ("message", .string impossibility.message)]

/-- The task of a payload, as the payload's projection writes it. -/
def taskProjection (task : IntentContract) : JsValue :=
  objectOf
    [("schemaVersion", contractSchemaVersion),
      ("intentType", textValue task.intentType.text),
      ("actionType", textValue task.actionType.text),
      ("target", buildToolTargetProjection task.target),
      ("delivery", buildDeliveryProjection task.delivery),
      ("constraints", .array (task.constraints.map .string)),
      ("requiresApproval", .bool task.requiresApproval),
      ("impossibility", optional Impossibility.toValue task.impossibility)]

def buildSchedulePayloadProjection (payload : SchedulePayloadContract) : JsValue :=
  objectOf
    [("kind", textValue payload.kind.text),
      ("literalText", optional .string payload.literalText),
      ("toolName", optional .string payload.toolName),
      ("toolParams", optional (.object ·.members) payload.toolParams),
      ("taskContract", optional taskProjection payload.taskContract),
      ("artifactId", optional .string payload.artifactId)]

def buildScheduleIdentityProjection (contract : ScheduleContract) : JsValue :=
  objectOf
    [("schemaVersion", contractSchemaVersion),
      ("kind", textValue contract.kind.text),
      ("time", objectOf
        [("runAt", optional .string contract.time.runAt),
          ("cron", optional .string contract.time.cron),
          ("timezone", .string contract.time.timezone),
          ("missedPolicy", textValue contract.time.missedPolicy.text)]),
      ("payload", buildSchedulePayloadProjection contract.payload),
      ("delivery", objectOf
        [("channel", .string contract.delivery.channel),
          ("sessionId", optional .string contract.delivery.sessionId),
          ("threadId", optional .string contract.delivery.threadId)])]

/-! ## Keys -/

inductive DueAt
  | text (value : JsString)
  | number (value : Number)

/-- `String(params.dueAt)`. -/
def DueAt.toJsString : DueAt → JsString
  | .text value => value
  | .number value => ofString (String.ofList (Json.spellNumber value))

structure DeliveryDedupeParams where
  scheduleId : JsString
  dueAt : DueAt
  delivery : DeliveryContract
  payloadHash : JsString

def deliveryDedupeProjection (params : DeliveryDedupeParams) : JsValue :=
  objectOf
    [("scheduleId", .string params.scheduleId),
      ("dueAt", .string params.dueAt.toJsString),
      ("delivery", buildDeliveryProjection params.delivery),
      ("payloadHash", .string params.payloadHash)]

def buildPayloadHash (payload : SchedulePayloadContract) : String :=
  stableContractHash sha256 (buildSchedulePayloadProjection payload) "payload"

def buildDeliveryKey (delivery : DeliveryContract) : String :=
  stableContractHash sha256 (buildDeliveryProjection delivery) "delivery"

def buildScheduleIdentityKey (contract : ScheduleContract) : String :=
  stableContractHash sha256 (buildScheduleIdentityProjection contract) "schedule"

def buildDeliveryDedupeKey (params : DeliveryDedupeParams) : String :=
  stableContractHash sha256 (deliveryDedupeProjection params) "delivery-dedupe"

end Nobie.Contracts
