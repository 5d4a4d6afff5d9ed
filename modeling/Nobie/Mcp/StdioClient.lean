/-
# The client of an MCP server on standard input and output

A request takes the next id, waits in a table under it with a timer, and is settled by whatever
comes first: a frame with its id, its timer, its signal, the end of the process, or `close`. The
buffer of what the server wrote, the id counter and the table belong to the client and live on
when a later request starts the server again.

The state keeps, beside the members of the class, what its callbacks close over (the timers and the
abort listeners) and a record of what happened: what was written to each process and what it wrote,
which frames were taken off the buffer, and every `resolve` and `reject`.
-/

import Nobie.Foundation.JsValueReader
import Nobie.Foundation.Transition
import Nobie.Mcp.Framing
import Nobie.Mcp.Registry

namespace Nobie.Mcp

open Foundation JsString

/-- A server as it is configured, on a host that reads a number literal as a double and spells
it. -/
structure StdioServer where
  name : JsString
  config : McpServerConfig
  numberValue : Number → ℚ
  numberText : Number → JsString

/-! ## Messages -/

def member? : JsonValue → String → Option JsonValue
  | .object members, key => OrderedMap.lookup members (ofString key)
  | _, _ => none

mutual

/-- `String(value)`. An object with a `toString` of its own, which JSON never makes a function,
cannot be converted. -/
def stringOf? (numberText : Number → JsString) : JsonValue → Option JsString
  | .null => some (ofString "null")
  | .bool true => some (ofString "true")
  | .bool false => some (ofString "false")
  | .number literal => some (numberText literal)
  | .string value => some value
  | .array items => (joined? numberText items).map fun texts =>
    List.intercalate (ofString ",") texts
  | .object members =>
    if (OrderedMap.lookup members (ofString "toString")).isSome then none
    else some (ofString "[object Object]")

/-- The texts that `join` puts together. -/
def joined? (numberText : Number → JsString) : List JsonValue → Option (List JsString)
  | [] => some []
  | item :: rest =>
    match item with
    | .null => (joined? numberText rest).map fun texts => [] :: texts
    | item =>
      match stringOf? numberText item, joined? numberText rest with
      | some text, some texts => some (text :: texts)
      | _, _ => none

end

variable (message : JsonValue) (server : StdioServer) (child : ℕ)

namespace StdioServer

variable (server : StdioServer)

def truthy : JsonValue → Bool
  | .null => false
  | .bool value => value
  | .number literal => server.numberValue literal ≠ 0
  | .string value => value ≠ []
  | .array _ | .object _ => true

def said (text : String) : JsString := ofString "MCP server \"" ++ server.name ++ ofString text

/-- `typeof message.id === "number"`. -/
def messageId? (message : JsonValue) : Option ℚ :=
  match member? message "id" with
  | some (.number literal) => some (server.numberValue literal)
  | _ => none

end StdioServer

/-- How a promise ends. A result that is not there is `undefined`. -/
inductive Outcome
  | resolved (result : Option JsonValue)
  | rejected (message : JsString)

/-- What a message with the id of a request does to it, unless its error cannot be made. -/
def answerOutcome? (id : ℕ) (message : JsonValue) : Option Outcome :=
  match (member? message "error").filter server.truthy with
  | none => some (.resolved (member? message "result"))
  | some maybeError =>
    match member? maybeError "message" with
    | none | some .null => some (.rejected (ofString s!"MCP request {id} failed."))
    | some text => (stringOf? server.numberText text).map .rejected

/-- A response answers a request and asks for nothing. -/
def isResponse : Bool := (member? message "method").isNone

/-- `JSON.parse` of the text of a body. -/
def parseBody (body : Bytes) : Option JsonValue := JsonValue.parse (String.ofList (utf8Chars body))

/-! ## The state -/

/-- The arguments of `request` that its settlement depends on. -/
structure RequestCall where
  method : JsString
  timeoutMs : ℕ
  signal : Option ℕ := none

/-- An entry of the table: the call whose promise is settled through it, and the process that
the request was written to. -/
structure PendingRequest where
  (call child : ℕ)

structure RequestTimer where
  call : ℕ
  method : JsString
  timeoutMs : ℕ

structure AbortListener where
  (signal id call : ℕ)
  method : JsString

/-- A request on the standard input of a process. -/
structure SentRequest where
  (call id child : ℕ)

/-- A `resolve` or `reject`, with the message of the server that it was made from. -/
structure Settlement where
  call : ℕ
  outcome : Outcome
  answer : Option JsonValue := none

inductive ExitStatus
  | code (value : ℕ)
  | signal (name : Option JsString)

structure McpStdioClient where
  /-- The processes are numbered in the order of their start. -/
  process : Option ℕ := none
  spawned : ℕ := 0
  /-- The processes with listeners, and those of them that have not ended. -/
  attached : List ℕ := []
  running : List ℕ := []
  stdoutBuffer : Bytes := []
  requestId : ℕ := 0
  pending : OrderedMap ℕ PendingRequest := ∅
  timers : OrderedMap ℕ RequestTimer := ∅
  abortListeners : List AbortListener := []
  abortedSignals : List ℕ := []
  calls : ℕ := 0
  /-- The calls that wait at `await this.ensureProcess()`. -/
  starting : OrderedMap ℕ RequestCall := ∅
  sent : List SentRequest := []
  settlements : List Settlement := []
  received : List (ℕ × Bytes) := []
  handled : List (ℕ × Bytes) := []

variable (client : McpStdioClient)

namespace McpStdioClient

def settle (client : McpStdioClient) (call : ℕ) (outcome : Outcome)
    (answer : Option JsonValue) : McpStdioClient :=
  { client with settlements := client.settlements ++ [{ call, outcome, answer }] }

/-- Take a request out of the table, and its timer with it. -/
def clear (id : ℕ) : McpStdioClient :=
  { client with timers := client.timers.erase id, pending := client.pending.erase id }

def rejectAll (message : JsString) : McpStdioClient :=
  client.pending.entries.foldl (fun client entry =>
    (client.clear entry.1).settle entry.2.call (.rejected message) none) client

/-! ## Processes -/

/-- `ensureProcess`, which throws where no command is configured. -/
def ensureProcess : Option McpStdioClient :=
  match client.process with
  | some _ => some client
  | none =>
    if JsString.trim (server.config.command.getD []) = [] then none
    else some
      { client with
        process := some client.spawned
        spawned := client.spawned + 1
        attached := client.attached ++ [client.spawned]
        running := client.running ++ [client.spawned] }

def close : McpStdioClient :=
  let client := client.rejectAll (server.said "\" was closed.")
  match client.process with
  | none => client
  | some child =>
    { client with
      process := none
      attached := client.attached.filter (· ≠ child)
      running := client.running.filter (· ≠ child) }

def onProcessError (message : JsString) : McpStdioClient :=
  client.rejectAll (server.said "\" process error: " ++ message)

def exitMessage : ExitStatus → JsString
  | .code value => server.said s!"\" exited with code {value}."
  | .signal name =>
    server.said "\" exited with signal " ++ name.getD (ofString "unknown") ++ ofString "."

def onExit (child : ℕ) (status : ExitStatus) : McpStdioClient :=
  ({ client with
      process := none
      running := client.running.filter (· ≠ child) }).rejectAll (exitMessage server status)

/-! ## Requests -/

/-- `request` up to `await this.ensureProcess()`. -/
def beginRequest (request : RequestCall) : McpStdioClient :=
  let counted := { client with calls := client.calls + 1 }
  match counted.ensureProcess server with
  | none => counted.settle client.calls (.rejected (server.said "\" command가 비어 있습니다.")) none
  | some ensured => { ensured with starting := ensured.starting.set client.calls request }

/-- The request enters the table, with its timer and its signal, and is written. -/
def register (call child : ℕ) (request : RequestCall) : McpStdioClient :=
  let id := client.requestId + 1
  { client with
    requestId := id
    pending := client.pending.set id { call, child }
    timers := client.timers.set id
      { call, method := request.method, timeoutMs := request.timeoutMs }
    abortListeners := client.abortListeners ++
      request.signal.toList.map fun signal => { signal, id, call, method := request.method }
    sent := client.sent ++ [{ call, id, child }] }

/-- `request` behind the `await`. -/
def proceedRequest (call : ℕ) (request : RequestCall) : McpStdioClient :=
  let client := { client with starting := client.starting.erase call }
  match client.process with
  | none => client.settle call (.rejected (server.said "\" process is not available.")) none
  | some child => client.register call child request

def timedOutMessage (timer : RequestTimer) : JsString :=
  ofString "MCP " ++ server.name ++ ofString ":" ++ timer.method ++
    ofString s!" timed out after {timer.timeoutMs}ms"

def onTimeout (server : StdioServer) (client : McpStdioClient) (id : ℕ) (timer : RequestTimer) :
    McpStdioClient :=
  (client.clear id).settle timer.call (.rejected (timedOutMessage server timer)) none

def onAbort (listener : AbortListener) : McpStdioClient :=
  match client.pending.get? listener.id with
  | none => client
  | some _ =>
    (client.clear listener.id).settle listener.call
      (.rejected (ofString "MCP " ++ server.name ++ ofString ":" ++
        listener.method ++ ofString " was aborted.")) none

/-- A signal calls its listeners, each once. -/
def abort (signal : ℕ) : McpStdioClient :=
  (client.abortListeners.filter (·.signal = signal)).foldl (onAbort server)
    { client with
      abortedSignals := client.abortedSignals ++ [signal]
      abortListeners := client.abortListeners.filter (·.signal ≠ signal) }

/-! ## The output of the server -/

/-- `this.pending.get(message.id)`, whose keys are the numbers one, two and so on. -/
def pendingFor? (message : JsonValue) : Option (ℕ × PendingRequest) :=
  (server.messageId? message).bind fun id =>
    client.pending.entries.find? fun entry => (entry.1 : ℚ) = id

def handleMessage (message : JsonValue) : McpStdioClient :=
  match client.pendingFor? server message with
  | none => client
  | some (id, pending) =>
    match answerOutcome? server id message with
    | none => client.clear id
    | some outcome => (client.clear id).settle pending.call outcome (some message)

/-- A frame that is taken off the buffer. A body that is no JSON, or `null`, is logged. -/
def handleBody (body : Bytes) : McpStdioClient :=
  let client := { client with handled := client.handled ++ [(child, body)] }
  match parseBody body with
  | none => client
  | some message => client.handleMessage server message

/-- The loop of `consumeFrames`, which makes the buffer shorter in every round. -/
def consumeFrames (server : StdioServer) (child : ℕ) : ℕ → McpStdioClient → McpStdioClient
  | 0, client => client
  | fuel + 1, client =>
    match readFrame? client.stdoutBuffer with
    | none => client
    | some (none, rest) => consumeFrames server child fuel { client with stdoutBuffer := rest }
    | some (some body, rest) =>
      consumeFrames server child fuel
        (handleBody server child { client with stdoutBuffer := rest } body)

def onStdout (server : StdioServer) (client : McpStdioClient) (child : ℕ) (chunk : Bytes) :
    McpStdioClient :=
  let stdoutBuffer := client.stdoutBuffer ++ chunk
  consumeFrames server child stdoutBuffer.length
    { client with stdoutBuffer, received := client.received ++ [(child, chunk)] }

/-! ## What happened -/

def receivedFrom (child : ℕ) : Bytes := (client.received.filter (·.1 = child)).flatMap Prod.snd

def handledFrom (child : ℕ) : List Bytes := (client.handled.filter (·.1 = child)).map Prod.snd

def pendingCalls : List ℕ := client.pending.entries.map fun entry => entry.2.call

def settledCalls : List ℕ := client.settlements.map Settlement.call

end McpStdioClient

/-! ## Steps -/

/-- What can happen to a client. `ensureProcess` is what `notify` and `initialize` do by
themselves. -/
inductive ClientEvent
  | ensureProcess
  | request (request : RequestCall)
  | proceed (call : ℕ)
  | stdout (child : ℕ) (chunk : Bytes)
  | timeout (id : ℕ)
  | abort (signal : ℕ)
  | close
  | exit (child : ℕ) (status : ExitStatus)
  | processError (child : ℕ) (message : JsString)

open McpStdioClient in
/-- A step. The processes write what they write in chunks, cut anywhere; one that ended may have
written more than was read. -/
def clientStep? (server : StdioServer) (written : ℕ → List Piece) (client : McpStdioClient) :
    ClientEvent → Option McpStdioClient
  | .ensureProcess => some ((client.ensureProcess server).getD client)
  | .request request => some (client.beginRequest server request)
  | .proceed call => (client.starting.get? call).map (client.proceedRequest server call)
  | .stdout child chunk =>
    if child ∈ client.attached ∧
        client.receivedFrom child ++ chunk <+: output (written child) then
      some (client.onStdout server child chunk)
    else none
  | .timeout id => (client.timers.get? id).map (client.onTimeout server id)
  | .abort signal =>
    if signal ∈ client.abortedSignals then none else some (client.abort server signal)
  | .close => some (client.close server)
  | .exit child status =>
    if child ∈ client.running then some (client.onExit server child status) else none
  | .processError child message =>
    if child ∈ client.attached then some (client.onProcessError server message) else none

end Nobie.Mcp
