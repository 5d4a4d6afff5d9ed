/-
# The request and response protocol of the extension

The extension reads a request from its request topic and publishes the response
on its response topic. A response of more than 48 KiB that carries an id is cut
into base64 chunk envelopes; every other response is one plain message.

Only the request metadata that decides what the extension does is kept. The text
a response serializes to is `serde_json`'s compact JSON, members without a value
left out.
-/

import Nobie.Foundation.JsonText
import Nobie.Foundation.Bytes

namespace Nobie.Yeonjang

open Foundation

/-- One publication on a topic of the broker. -/
structure MqttMessage where
  topic : String
  payload : List UInt8
  deriving DecidableEq

structure RequestMetadata where
  targetSessionId : Option String := none
  idempotencyKey : Option String := none
  expiresAt : Option ℤ := none

structure Request where
  id : Option String
  method : String
  params : Json
  metadata : RequestMetadata

structure ErrorBody where
  (code message : String)

structure Response where
  id : Option String
  ok : Bool
  result : Option Json
  error : Option ErrorBody

/-- `Response::ok`. -/
def okResponse (id : Option String) (result : Json) : Response :=
  { id, ok := true, result := some result, error := none }

/-- `Response::error`. -/
def errorResponse (id : Option String) (code message : String) : Response :=
  { id, ok := false, result := none, error := some { code, message } }

/-! ## Serialization -/

def ErrorBody.toJson (error : ErrorBody) : Json :=
  .obj [("code", .str error.code), ("message", .str error.message)]

variable (response : Response)

/-- The members of a serialized response. -/
def Response.fields : List (String × Json) :=
  (response.id.map fun id => ("id", Json.str id)).toList ++
    [("ok", .bool response.ok)] ++
    (response.result.map fun result => ("result", result)).toList ++
    (response.error.map fun error => ("error", error.toJson)).toList

def Response.toJson : Json := .obj response.fields

/-- `serde_json::to_vec`. -/
def toVec (value : Json) : List UInt8 := utf8Bytes value.stringify

@[simp]
theorem parse_toVec (value : Json) : Json.parse (utf8Text (toVec value)) = some value := by
  simp [toVec]

/-- The bytes of a serialized response. -/
def Response.payload : List UInt8 := toVec response.toJson

structure ResponseChunkEnvelope where
  transport : String
  id : Option String
  (chunkIndex chunkCount totalSizeBytes : ℕ)
  (encoding mimeType base64Data : String)

def ResponseChunkEnvelope.toJson (envelope : ResponseChunkEnvelope) : Json :=
  .obj [("transport", .str envelope.transport),
    ("id", (envelope.id.map Json.str).getD .null),
    ("chunk_index", .num (.ofNat envelope.chunkIndex)),
    ("chunk_count", .num (.ofNat envelope.chunkCount)),
    ("total_size_bytes", .num (.ofNat envelope.totalSizeBytes)),
    ("encoding", .str envelope.encoding),
    ("mime_type", .str envelope.mimeType),
    ("base64_data", .str envelope.base64Data)]

/-! ## Publishing a response -/

/-- 48 KiB. -/
def responseChunkBytes : ℕ := 48 * 1024

def base64Table : List Char :=
  "ABCDEFGHIJKLMNOPQRSTUVWXYZabcdefghijklmnopqrstuvwxyz0123456789+/".toList

def base64Char (index : UInt8) : Char := base64Table.getD index.toNat '='

/-- The four characters of up to three bytes. -/
def base64Group (first : UInt8) (second third : Option UInt8) : List Char :=
  [base64Char (first >>> 2),
    base64Char (((first &&& 0b00000011) <<< 4) ||| (second.getD 0 >>> 4)),
    match second with
    | some second => base64Char (((second &&& 0b00001111) <<< 2) ||| (third.getD 0 >>> 6))
    | none => '=',
    match third with
    | some third => base64Char (third &&& 0b00111111)
    | none => '=']

/-- The loop of `base64_encode`, three bytes a turn. -/
def base64Chars : List UInt8 → List Char
  | [] => []
  | [first] => base64Group first none none
  | [first, second] => base64Group first (some second) none
  | first :: second :: third :: rest =>
    base64Group first (some second) (some third) ++ base64Chars rest

def base64Encode (bytes : List UInt8) : String := String.ofList (base64Chars bytes)

/-- `div_ceil`. -/
def divCeil (n size : ℕ) : ℕ := (n + size - 1) / size

/-- The pieces of a byte string: all of the given size but the last. -/
def chunks (size : ℕ) (bytes : List UInt8) : List (List UInt8) :=
  (List.range (divCeil bytes.length size)).map fun index => (bytes.drop (index * size)).take size

/-- The envelope of one piece of a payload. -/
def chunkEnvelope (requestId : Option String) (payload : List UInt8) (chunkIndex : ℕ)
    (chunk : List UInt8) : ResponseChunkEnvelope where
  transport := "chunk"
  id := requestId
  chunkIndex := chunkIndex
  chunkCount := divCeil payload.length responseChunkBytes
  totalSizeBytes := payload.length
  encoding := "base64"
  mimeType := "application/json"
  base64Data := base64Encode chunk

/-- `publish_response`: the messages published for a response, in order. -/
def publishResponse (responseTopic : String) (response : Response) : List MqttMessage :=
  let payload := response.payload
  if payload.length ≤ responseChunkBytes ∨ response.id.isNone then
    [{ topic := responseTopic, payload }]
  else
    (chunks responseChunkBytes payload).zipIdx.map fun (chunk, chunkIndex) =>
      { topic := responseTopic,
        payload := toVec (chunkEnvelope response.id payload chunkIndex chunk).toJson }

/-- A short response and one without an id are one message. -/
theorem publishResponse_plain {responseTopic : String} {response : Response}
    (h : response.payload.length ≤ responseChunkBytes ∨ response.id.isNone) :
    publishResponse responseTopic response = [⟨responseTopic, response.payload⟩] := by
  rw [publishResponse, if_pos h]

end Nobie.Yeonjang
