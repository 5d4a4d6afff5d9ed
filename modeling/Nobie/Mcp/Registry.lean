/-
# The registry of MCP servers

A server that is loaded lists its tools; each is put into the tool dispatcher as a bridge under
its registered name, and the entry of the server remembers the names. When the server exits or the
registry is closed, the bridges under these names are taken out again.
-/

import Nobie.Foundation.JsCase

namespace Nobie.Mcp

open Foundation JsString

/-! ## Registered names -/

def underscore : CodeUnit := codeUnit 95

/-- The units from `a` to `z` and from `0` to `9`. -/
def isLetterOrDigit (unit : CodeUnit) : Bool :=
  (97 ≤ unit.val && unit.val ≤ 122) || (48 ≤ unit.val && unit.val ≤ 57)

/-- Each run of units that are not kept becomes one underscore. -/
def replaceRuns (keep : CodeUnit → Bool) : Bool → JsString → JsString
  | _, [] => []
  | inRun, unit :: rest =>
    if keep unit then unit :: replaceRuns keep false rest
    else if inRun then replaceRuns keep true rest
    else underscore :: replaceRuns keep true rest

/-- Without the underscores at both ends. -/
def stripUnderscores (text : JsString) : JsString :=
  (text.dropWhile fun unit => unit = underscore).rdropWhile fun unit => unit = underscore

def sanitizeSegment (host : CaseHost) (value : JsString) : JsString :=
  let sanitized := stripUnderscores
    (replaceRuns isLetterOrDigit false (host.toLowerCase (trim value)))
  if sanitized = [] then ofString "tool" else sanitized

def toRegisteredToolName (host : CaseHost) (serverName toolName : JsString) : JsString :=
  ofString "mcp__" ++ sanitizeSegment host serverName ++ ofString "__" ++
    sanitizeSegment host toolName

/-! ## Servers and tools -/

inductive McpTransport
  | stdio | http
  deriving DecidableEq

structure McpServerConfig where
  enabled : Option Bool := none
  transport : Option McpTransport := none
  command : Option JsString := none
  url : Option JsString := none
  required : Bool := false
  enabledTools : List JsString := []
  disabledTools : List JsString := []

structure McpDiscoveredTool where
  (name description : JsString)

/-- What a server answers while it is loaded: that it fails, or the tools that it reports. -/
inductive ServerAnswer
  | failed (message : JsString)
  | listed (reported : List McpDiscoveredTool)

/-- The tools that are taken from an answer: those with a name, trimmed. -/
def listTools (reported : List McpDiscoveredTool) : List McpDiscoveredTool :=
  (reported.map fun tool =>
    { name := trim tool.name, description := trim tool.description }).filter
      fun tool => tool.name ≠ []

def trimmedNames (names : List JsString) : List JsString :=
  (names.map trim).filter fun name => name ≠ []

variable (config : McpServerConfig) (host : CaseHost) (name : JsString)

def filterTools (tools : List McpDiscoveredTool) (config : McpServerConfig) :
    List McpDiscoveredTool :=
  let enabledTools := trimmedNames config.enabledTools
  let disabledTools := trimmedNames config.disabledTools
  tools.filter fun tool =>
    (enabledTools.isEmpty || isAmong enabledTools tool.name) && !isAmong disabledTools tool.name

/-! ## The dispatcher and the registry -/

/-- A tool of the dispatcher: the bridge to the tool of a server, or one that is not of this
registry. -/
inductive AgentTool
  | bridge (serverName toolName description : JsString)
  | other

structure McpToolStatus where
  (name registeredName description : JsString)

structure McpServerStatus where
  name : JsString
  transport : McpTransport
  (enabled required : Bool)
  ready : Bool := false
  toolCount : ℕ := 0
  registeredToolCount : ℕ := 0
  error : Option JsString := none
  tools : List McpToolStatus := []

structure RegistryEntry where
  hasClient : Bool
  toolNames : List JsString
  status : McpServerStatus

/-- The dispatcher's tools, the registry's entries, and the servers that a load has still to
come to. -/
structure RegistryState where
  tools : OrderedMap JsString AgentTool
  entries : OrderedMap JsString RegistryEntry := ∅
  toLoad : List (JsString × McpServerConfig) := []

variable (state : RegistryState)

namespace RegistryState

def unregisterTools (toolNames : List JsString) : RegistryState :=
  { state with tools := toolNames.foldl OrderedMap.erase state.tools }

variable (serverName : JsString)

def bridgeFor (tool : McpDiscoveredTool) : AgentTool :=
  .bridge serverName tool.name (ofString "[MCP:" ++ serverName ++
    ofString "] " ++ if tool.description = [] then tool.name else tool.description)

/-- `registerTools`: the bridges go into the dispatcher. -/
def registerTools (discovered : List McpDiscoveredTool) (state : RegistryState) : RegistryState :=
  { state with
    tools := discovered.foldl (fun tools tool =>
      tools.set (toRegisteredToolName host serverName tool.name) (bridgeFor serverName tool))
        state.tools }

/-- The statuses that `registerTools` returns. -/
def registeredStatuses (discovered : List McpDiscoveredTool) : List McpToolStatus :=
  discovered.map fun tool =>
    { name := tool.name
      registeredName := toRegisteredToolName host serverName tool.name
      description := tool.description }

def setEntry (name : JsString) (entry : RegistryEntry) : RegistryState :=
  { state with entries := state.entries.set name entry }

def isBlankOption (value : Option JsString) : Bool := trim (value.getD []) = []

/-- `config.transport ?? (config.url ? "http" : "stdio")`. -/
def transportOf : McpTransport :=
  config.transport.getD (if config.url.getD [] = [] then .stdio else .http)

/-- A server is started only where it is enabled and has a command and no URL. -/
def startError : Option String :=
  if config.enabled = some false then some "설정에서 비활성화된 MCP 서버입니다."
  else if transportOf config = .http ∨ isBlankOption config.url = false then
    some "HTTP MCP transport는 아직 구현되지 않았습니다. stdio 기반 MCP server를 사용하세요."
  else if isBlankOption config.command then
    some "command가 설정되지 않아 MCP 서버를 시작할 수 없습니다."
  else none

def baseStatus (config : McpServerConfig) : McpServerStatus :=
  { name
    transport := transportOf config
    enabled := config.enabled ≠ some false
    required := config.required }

/-- The entry of a server that is loaded with its tools. -/
def readyEntry (config : McpServerConfig) (discovered : List McpDiscoveredTool) : RegistryEntry :=
  let tools := registeredStatuses host name discovered
  { hasClient := true
    toolNames := tools.map McpToolStatus.registeredName
    status :=
      { baseStatus name config with
        ready := true
        toolCount := discovered.length
        registeredToolCount := tools.length
        tools } }

/-- `loadServer` with what the server answers if it is started. -/
def loadServer (name : JsString) (config : McpServerConfig) (answer : ServerAnswer) :
    RegistryState :=
  match startError config with
  | some error =>
    state.setEntry name
      { hasClient := false
        toolNames := []
        status := { baseStatus name config with error := some (ofString error) } }
  | none =>
    match answer with
    | .failed message =>
      state.setEntry name
        { hasClient := true
          toolNames := []
          status := { baseStatus name config with error := some message } }
    | .listed reported =>
      let discovered := filterTools (listTools reported) config
      (registerTools host name discovered state).setEntry name
        (readyEntry host name config discovered)

def closeAll : RegistryState :=
  let closed := state.entries.entries.foldl (fun closed entry =>
    closed.unregisterTools entry.2.toolNames) state
  { closed with entries := ∅ }

/-- The handler of the exit of a server. -/
def onExit (name error : JsString) : RegistryState :=
  match state.entries.get? name with
  | none => state
  | some entry =>
    (state.unregisterTools entry.toolNames).setEntry name
      { entry with
        toolNames := []
        status :=
          { entry.status with ready := false, registeredToolCount := 0, error := some error } }

end RegistryState

/-! ## Steps -/

/-- `loadFromConfig` closes all servers and comes to the configured ones one after the other, each
with what it answers; a server can exit at any time. -/
inductive RegistryStep
  | loadFromConfig (servers : OrderedMap JsString McpServerConfig)
  | loadNext (answer : ServerAnswer)
  | serverExits (name error : JsString)
  | closeAll

open RegistryState in
def registryStep? : RegistryStep → Option RegistryState
  | .loadFromConfig servers =>
    if state.toLoad.isEmpty then some { state.closeAll with toLoad := servers.entries } else none
  | .loadNext answer =>
    match state.toLoad with
    | [] => none
    | (name, config) :: rest =>
      some { loadServer host state name config answer with toLoad := rest }
  | .serverExits name error =>
    match state.entries.get? name with
    | none => some state
    | some entry => if entry.hasClient then some (state.onExit name error) else none
  | .closeAll => if state.toLoad.isEmpty then some state.closeAll else none

/-- A dispatcher with tools of its own, and no server. -/
def startRegistry (otherTools : List JsString) : RegistryState where
  tools := otherTools.foldl (fun tools name => tools.set name .other) ∅

end Nobie.Mcp
