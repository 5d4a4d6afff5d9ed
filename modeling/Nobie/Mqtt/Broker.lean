/-
# The extension registry of the MQTT broker

The broker keeps which client owns which extension, which extensions each client
has claimed, and a snapshot of every extension. Six hooks and handlers of the
broker and one administrative call write them; each is a function on the state
here, and `brokerStep` is one of them taken.

A payload is given as `parsePacketPayload` leaves it, as any JSON value. The
exchange log, the registry database and the event bus are written by these
handlers and read by none of them; they are left out.
-/

import Nobie.Foundation.Bytes
import Nobie.Foundation.Json
import Nobie.Foundation.Transition

namespace Nobie.Mqtt

open Foundation

/-! ## Topics -/

inductive ExtensionTopicKind
  | status | capabilities | request | response | event
  deriving DecidableEq

structure ExtensionTopicRef where
  extensionId : String
  kind : ExtensionTopicKind

def parseTopicKind : String → Option ExtensionTopicKind
  | "status" => some .status
  | "capabilities" => some .capabilities
  | "request" => some .request
  | "response" => some .response
  | "event" => some .event
  | _ => none

variable (topic : String) (now : ℤ) (extensionId : String) (payload : Option JsonObject)
  (keys : List String)

/-- `parseExtensionTopic`: `nobie/v1/node/<id>/<kind>`. -/
def parseExtensionTopic : Option ExtensionTopicRef :=
  match ((jsTrim topic).toList.splitOn '/').map String.ofList with
  | ["nobie", "v1", "node", extensionId, kind] =>
    if jsTrim extensionId = "" then none
    else (parseTopicKind kind).map fun kind => { extensionId := jsTrim extensionId, kind }
  | _ => none

/-! ## State -/

/-- `MqttExtensionSnapshot`. An optional field that is absent and one that is
`null` are both `none`. -/
structure MqttExtensionSnapshot where
  extensionId : String
  (clientId displayName instanceId instanceAlias normalizedCallName nodeId : Option String)
  (supportProfile configuredSupportProfile : Option String)
  supportProfileReasonCodes : List String
  (interactiveDesktopAvailable trayRuntimeAvailable : Option Bool)
  (state message version : Option String)
  protocolVersion : Option String := none
  gitTag : Option String := none
  gitCommit : Option String := none
  buildTarget : Option String := none
  platform : Option String := none
  os : Option String := none
  arch : Option String := none
  transport : Option (List String) := none
  capabilityHash : Option String := none
  methods : List String
  (sessionId startupMode windowMode trayState trustState workspaceScopeId : Option String)
  (pairingFingerprint hostFingerprint installFingerprint : Option String)
  permissions : Option JsonObject := none
  toolHealth : Option JsonObject := none
  capabilityMatrix : Option JsonObject := none
  lastCapabilityRefreshAt : Option ℤ := none
  lastSeenAt : ℤ

/-- A connected client, as far as the broker looks at it. -/
structure Client where
  id : String

structure BrokerState where
  activeClientsById : OrderedMap String Client := ∅
  claimedExtensionOwners : OrderedMap String String := ∅
  claimedExtensionsByClient : OrderedMap String (OrderedSet String) := ∅
  extensionSnapshots : OrderedMap String MqttExtensionSnapshot := ∅

variable (client : Option Client) (state : BrokerState)

/-- `client?.id?.trim() || null`. -/
def clientIdOf : Option String := (client.map fun client => jsTrim client.id).filter (· ≠ "")

/-! ## Claims -/

/-- The snapshot a claim rebuilds from the current one. -/
def claimedSnapshot (extensionId clientId : String) (current : Option MqttExtensionSnapshot)
    (now : ℤ) : MqttExtensionSnapshot where
  extensionId := extensionId
  clientId := some clientId
  displayName := current.bind (·.displayName)
  instanceId := current.bind (·.instanceId)
  instanceAlias := current.bind (·.instanceAlias)
  normalizedCallName := current.bind (·.normalizedCallName)
  nodeId := (current.bind (·.nodeId)).getD extensionId
  supportProfile := current.bind (·.supportProfile)
  configuredSupportProfile := current.bind (·.configuredSupportProfile)
  supportProfileReasonCodes := (current.map (·.supportProfileReasonCodes)).getD []
  interactiveDesktopAvailable := current.bind (·.interactiveDesktopAvailable)
  trayRuntimeAvailable := current.bind (·.trayRuntimeAvailable)
  state := (current.bind (·.state)).getD "connected"
  message := current.bind (·.message)
  version := current.bind (·.version)
  methods := (current.map (·.methods)).getD []
  sessionId := current.bind (·.sessionId)
  startupMode := current.bind (·.startupMode)
  windowMode := current.bind (·.windowMode)
  trayState := current.bind (·.trayState)
  trustState := current.bind (·.trustState)
  workspaceScopeId := current.bind (·.workspaceScopeId)
  pairingFingerprint := current.bind (·.pairingFingerprint)
  hostFingerprint := current.bind (·.hostFingerprint)
  installFingerprint := current.bind (·.installFingerprint)
  lastSeenAt := now

def rememberExtensionClaim (extensionId clientId : String) (now : ℤ) : BrokerState :=
  { state with
    claimedExtensionOwners := state.claimedExtensionOwners.set extensionId clientId
    claimedExtensionsByClient := state.claimedExtensionsByClient.set clientId
      (((state.claimedExtensionsByClient.get? clientId).getD ∅).add extensionId)
    extensionSnapshots := state.extensionSnapshots.set extensionId
      (claimedSnapshot extensionId clientId (state.extensionSnapshots.get? extensionId) now) }

/-- A snapshot without a client. -/
def offlineSnapshot (current : MqttExtensionSnapshot) (message : String) (now : ℤ) :
    MqttExtensionSnapshot :=
  { current with clientId := none, state := "offline", message := message, lastSeenAt := now }

/-- The turn of the loop of `releaseExtensionClaimsForClient` for one extension. -/
def releaseExtensionClaim (clientId : String) (now : ℤ) (state : BrokerState)
    (extensionId : String) : BrokerState :=
  if state.claimedExtensionOwners.get? extensionId = some clientId then
    { state with
      claimedExtensionOwners := state.claimedExtensionOwners.erase extensionId
      extensionSnapshots :=
        match state.extensionSnapshots.get? extensionId with
        | some current => state.extensionSnapshots.set extensionId
            (offlineSnapshot current "MQTT connection disconnected." now)
        | none => state.extensionSnapshots }
  else state

def releaseExtensionClaimsForClient (clientId : Option String) (now : ℤ) : BrokerState :=
  match (clientId.map jsTrim).filter (· ≠ "") with
  | none => state
  | some normalizedClientId =>
    match state.claimedExtensionsByClient.get? normalizedClientId with
    | none => state
    | some claimed =>
      let released := claimed.elements.foldl (releaseExtensionClaim normalizedClientId now) state
      { released with
        claimedExtensionsByClient := released.claimedExtensionsByClient.erase normalizedClientId
        activeClientsById := released.activeClientsById.erase normalizedClientId }

def clearExtensionClaims (now : ℤ) : BrokerState where
  activeClientsById := ∅
  claimedExtensionOwners := ∅
  claimedExtensionsByClient := ∅
  extensionSnapshots := state.extensionSnapshots.mapValues fun _ current =>
    offlineSnapshot current "MQTT broker is stopped." now

/-- `enforceUniqueExtensionClaim`: the claim, or the error text of a rejection. -/
def enforceUniqueExtensionClaim (client : Option Client) (extensionId : String) (now : ℤ) :
    Option String × BrokerState :=
  match clientIdOf client with
  | none => (none, state)
  | some clientId =>
    match state.claimedExtensionOwners.get? extensionId with
    | none => (none, rememberExtensionClaim state extensionId clientId now)
    | some currentOwner =>
      if currentOwner = clientId then
        (none, rememberExtensionClaim state extensionId clientId now)
      else
        (some (s!"연장 ID \"{extensionId}\"는 이미 다른 클라이언트({currentOwner})가 " ++
          "사용 중입니다. 같은 연장 ID로 중복 접속할 수 없습니다."), state)

/-! ## Payloads -/

/-- `readString`. -/
def readString : Option String :=
  payload.bind fun payload => keys.findSome? fun key =>
    match Json.lookup payload key with
    | some (.str value) => if jsTrim value = "" then none else some value
    | _ => none

/-- `readStringArray`. -/
def readStringArray : Option (List String) :=
  payload.bind fun payload => keys.findSome? fun key =>
    match Json.lookup payload key with
    | some (.str value) => if jsTrim value = "" then none else some [value]
    | some (.arr items) => some (items.filterMap fun
        | .str item => if jsTrim item = "" then none else some item
        | _ => none)
    | _ => none

/-- `readBoolean`. -/
def readBoolean : Option Bool :=
  payload.bind fun payload => keys.findSome? fun key =>
    match Json.lookup payload key with
    | some (.bool value) => some value
    | _ => none

/-- `readObject`. -/
def readObject : Option JsonObject :=
  payload.bind fun payload => keys.findSome? fun key => (Json.lookup payload key).bind Json.fields?

/-- The first of two members that is neither absent nor `null`. -/
def readCapabilityMatrix : Option JsonObject :=
  payload.bind fun payload =>
    let value := match Json.lookup payload "capabilityMatrix" with
      | none | some .null => Json.lookup payload "capability_matrix"
      | value => value
    value.bind Json.fields?

def readCapabilityMethods (payload capabilityMatrix : Option JsonObject) : List String :=
  match capabilityMatrix with
  | some matrix =>
    ((Json.entries matrix).filter fun entry =>
      match entry.2 with
      | .obj fields =>
        match Json.lookup fields "supported" with
        | some (.bool false) => false
        | _ => true
      | _ => false).map Prod.fst
  | none =>
    match payload.bind (Json.lookup · "methods") with
    | some (.arr items) =>
      items.filterMap fun item =>
        match item.field? "name" with
        | some (.str name) => if name = "" then none else some name
        | _ => none
    | _ => []

/-- `typeof payload[key] === "string" && payload[key]`. -/
def readText (key : String) : Option String :=
  match payload.bind (Json.lookup · key) with
  | some (.str value) => truthyText (some value)
  | _ => none

/-- The snapshot a status or capabilities message merges into the current one. -/
def mergedSnapshot (extensionId currentOwner : String) (clientId : Option String)
    (kind : ExtensionTopicKind) (payload : Option JsonObject)
    (current : Option MqttExtensionSnapshot) (now : ℤ) : MqttExtensionSnapshot :=
  let string (keys : List String) (field : MqttExtensionSnapshot → Option String) :=
    readString payload keys <|> current.bind field
  { extensionId
    clientId := clientId.getD ((current.bind (·.clientId)).getD currentOwner)
    instanceId := string ["instance_id", "instanceId"] (·.instanceId)
    instanceAlias := string ["instance_alias", "instanceAlias"] (·.instanceAlias)
    normalizedCallName := string ["normalized_call_name", "normalizedCallName"]
      (·.normalizedCallName)
    nodeId := (string ["node_id", "nodeId"] (·.nodeId)).getD extensionId
    supportProfile := string ["support_profile", "supportProfile"] (·.supportProfile)
    configuredSupportProfile :=
      string ["configured_support_profile", "configuredSupportProfile"] (·.configuredSupportProfile)
    supportProfileReasonCodes :=
      ((readStringArray payload ["support_profile_reason_codes", "supportProfileReasonCodes"]) <|>
        current.map (·.supportProfileReasonCodes)).getD []
    interactiveDesktopAvailable :=
      readBoolean payload ["interactive_desktop_available", "interactiveDesktopAvailable"] <|>
        current.bind (·.interactiveDesktopAvailable)
    trayRuntimeAvailable :=
      readBoolean payload ["tray_runtime_available", "trayRuntimeAvailable"] <|>
        current.bind (·.trayRuntimeAvailable)
    displayName :=
      readText payload "display_name" <|> readText payload "displayName" <|>
        truthyText (current.bind (·.displayName))
    state := (readText payload "state" <|> truthyText (current.bind (·.state))).getD "connected"
    message := readText payload "message" <|> truthyText (current.bind (·.message))
    version := readText payload "version" <|> truthyText (current.bind (·.version))
    protocolVersion := string ["protocolVersion", "protocol_version"] (·.protocolVersion)
    gitTag := string ["gitTag", "git_tag"] (·.gitTag)
    gitCommit := string ["gitCommit", "git_commit"] (·.gitCommit)
    buildTarget := string ["buildTarget", "build_target"] (·.buildTarget)
    platform := string ["platform"] (·.platform)
    os := string ["os"] (·.os)
    arch := string ["arch"] (·.arch)
    transport := some
      ((readStringArray payload ["transport"] <|> current.bind (·.transport)).getD [])
    capabilityHash := string ["capabilityHash", "capability_hash"] (·.capabilityHash)
    methods :=
      if kind = .capabilities then readCapabilityMethods payload (readCapabilityMatrix payload)
      else (current.map (·.methods)).getD []
    sessionId := string ["session_id", "sessionId"] (·.sessionId)
    startupMode := string ["startup_mode", "startupMode"] (·.startupMode)
    windowMode := string ["window_mode", "windowMode"] (·.windowMode)
    trayState := string ["tray_state", "trayState"] (·.trayState)
    trustState := string ["trust_state", "trustState"] (·.trustState)
    workspaceScopeId := string ["workspace_scope_id", "workspaceScopeId"] (·.workspaceScopeId)
    pairingFingerprint := string ["pairing_fingerprint", "pairingFingerprint"]
      (·.pairingFingerprint)
    hostFingerprint := string ["host_fingerprint", "hostFingerprint"] (·.hostFingerprint)
    installFingerprint := string ["install_fingerprint", "installFingerprint"]
      (·.installFingerprint)
    permissions := readObject payload ["permissions"] <|> current.bind (·.permissions)
    toolHealth := readObject payload ["toolHealth", "tool_health"] <|> current.bind (·.toolHealth)
    capabilityMatrix := readCapabilityMatrix payload <|> current.bind (·.capabilityMatrix)
    lastCapabilityRefreshAt :=
      if kind = .capabilities then some now else current.bind (·.lastCapabilityRefreshAt)
    lastSeenAt := now }

def updateExtensionSnapshotFromPayload (extensionId : String) (clientId : Option String)
    (kind : ExtensionTopicKind) (payload : Json) (now : ℤ) : BrokerState :=
  match state.claimedExtensionOwners.get? extensionId with
  | none => state
  | some currentOwner =>
    if clientId.any (currentOwner ≠ ·) then state
    else
      { state with
        extensionSnapshots := state.extensionSnapshots.set extensionId
          (mergedSnapshot extensionId currentOwner clientId kind payload.fields?
            (state.extensionSnapshots.get? extensionId) now) }

/-! ## Hooks and handlers -/

/-- `authorizePublish`. -/
def authorizePublish (client : Option Client) (topic : String) (now : ℤ) :
    Option String × BrokerState :=
  match parseExtensionTopic topic with
  | some ref =>
    if ref.kind ≠ .request then enforceUniqueExtensionClaim state client ref.extensionId now
    else (none, state)
  | none => (none, state)

/-- `authorizeSubscribe`. -/
def authorizeSubscribe (client : Option Client) (topic : String) (now : ℤ) :
    Option String × BrokerState :=
  match parseExtensionTopic topic with
  | some ref =>
    if ref.kind = .request then enforceUniqueExtensionClaim state client ref.extensionId now
    else (none, state)
  | none => (none, state)

/-- `handleBrokerPublish`. -/
def handleBrokerPublish (client : Option Client) (topic : String) (payload : Json) (now : ℤ) :
    BrokerState :=
  match parseExtensionTopic topic with
  | some ref =>
    if ref.kind = .status ∨ ref.kind = .capabilities then
      updateExtensionSnapshotFromPayload state ref.extensionId (clientIdOf client) ref.kind
        payload now
    else state
  | none => state

/-- The handler of `clientReady`. -/
def handleClientReady (client : Option Client) : BrokerState :=
  match client, clientIdOf client with
  | some client, some clientId =>
    { state with activeClientsById := state.activeClientsById.set clientId client }
  | _, _ => state

/-- What `disconnectMqttExtension` reports. -/
structure DisconnectResult where
  ok : Bool
  message : String

/-- `disconnectMqttExtension`. A client that is connected is asked to disconnect,
which the broker sees as a later step. -/
def disconnectMqttExtension (extensionId : String) (now : ℤ) : DisconnectResult × BrokerState :=
  let normalized := jsTrim extensionId
  if normalized = "" then (⟨false, "연장 ID가 비어 있습니다."⟩, state)
  else
    match state.claimedExtensionOwners.get? normalized with
    | none => (⟨false, s!"연장 \"{normalized}\" 은(는) 현재 연결되어 있지 않습니다."⟩, state)
    | some clientId =>
      match state.activeClientsById.get? clientId with
      | none =>
        (⟨false, s!"연장 \"{normalized}\" 연결 정보를 찾지 못해 목록에서 제거했습니다."⟩,
          releaseExtensionClaimsForClient state clientId now)
      | some _ => (⟨true, s!"연장 \"{normalized}\" 연결 해지를 요청했습니다."⟩, state)

/-- What can happen at the broker. A client is absent where the broker itself
publishes. -/
inductive BrokerStep
  | clientReady (client : Option Client)
  | authorizePublish (client : Option Client) (topic : String) (now : ℤ)
  | authorizeSubscribe (client : Option Client) (topic : String) (now : ℤ)
  | publish (client : Option Client) (topic : String) (payload : Json) (now : ℤ)
  | clientDisconnect (client : Option Client) (now : ℤ)
  | brokerStop (now : ℤ)
  | disconnectExtension (extensionId : String) (now : ℤ)

def brokerStep : BrokerStep → BrokerState
  | .clientReady client => handleClientReady state client
  | .authorizePublish client topic now => (authorizePublish state client topic now).2
  | .authorizeSubscribe client topic now => (authorizeSubscribe state client topic now).2
  | .publish client topic payload now => handleBrokerPublish state client topic payload now
  | .clientDisconnect client now => releaseExtensionClaimsForClient state (client.map Client.id) now
  | .brokerStop now => clearExtensionClaims state now
  | .disconnectExtension extensionId now => (disconnectMqttExtension state extensionId now).2

/-- The broker after a sequence of steps. -/
def runBroker (steps : List BrokerStep) : BrokerState := steps.foldl brokerStep {}

/-! ## Who owns an extension

The three maps of the broker agree in every state it reaches: an extension has one owner at most,
the owner is the client that holds the claim, and a snapshot names the owner or nobody. -/

open List Option OrderedMap

/-- A client holds the claim on an extension. -/
def Claims (state : BrokerState) (clientId extensionId : String) : Prop :=
  ∃ claimed, state.claimedExtensionsByClient.get? clientId = some claimed ∧ extensionId ∈ claimed

/-- The maps of the broker agree. -/
structure Ownership (state : BrokerState) : Prop where
  claims : ∀ extensionId clientId,
    state.claimedExtensionOwners.get? extensionId = some clientId ↔
      Claims state clientId extensionId
  named : ∀ extensionId clientId,
    state.claimedExtensionOwners.get? extensionId = some clientId → clientId ≠ ""
  snapshots : ∀ extensionId snapshot clientId,
    state.extensionSnapshots.get? extensionId = some snapshot →
    snapshot.clientId = some clientId →
    state.claimedExtensionOwners.get? extensionId = some clientId

theorem ownership_start : Ownership {} :=
  ⟨fun _ _ => ⟨fun h => absurd h (by simp), by rintro ⟨_, h, -⟩; exact absurd h (by simp)⟩,
    fun _ _ h => absurd h (by simp), fun _ _ _ h => absurd h (by simp)⟩

variable {client : Option Client} {clientId : String} {state : BrokerState} {extensionId : String}
  (now : ℤ)

theorem ne_empty_of_clientIdOf (h : clientIdOf client = some clientId) : clientId ≠ "" := by
  simpa using (filter_eq_some_iff.mp h).2

/-! ## Taking a claim -/

theorem claims_remember {now : ℤ} (other other' : String) :
    Claims (rememberExtensionClaim state extensionId clientId now) other other' ↔
      Claims state other other' ∨ other = clientId ∧ other' = extensionId := by
  unfold Claims rememberExtensionClaim
  simp only [get?_set]
  by_cases hclient : clientId = other
  · subst hclient
    simp only [if_true, Option.some.injEq, exists_eq_left', OrderedSet.mem_add, true_and]
    cases hclaimed : state.claimedExtensionsByClient.get? clientId with
    | none => simp
    | some claimed => simp [or_comm]
  · have hne : ¬ other = clientId := fun h => hclient h.symm
    simp [hclient, hne]

/-- A claim on an extension that is free or owned by the client itself. -/
theorem Ownership.remember (h : Ownership state) (hclient : clientId ≠ "")
    (hfree : ∀ owner, state.claimedExtensionOwners.get? extensionId = some owner →
      owner = clientId) (now : ℤ) :
    Ownership (rememberExtensionClaim state extensionId clientId now) where
  claims := by
    intro other owner
    rw [claims_remember, ← h.claims]
    change (state.claimedExtensionOwners.set extensionId clientId).get? other = some owner ↔ _
    rw [get?_set]
    by_cases hother : extensionId = other
    · subst hother
      rw [if_pos rfl, Option.some.injEq]
      constructor
      · rintro rfl
        exact Or.inr ⟨rfl, rfl⟩
      · rintro (howner | ⟨rfl, -⟩)
        · exact (hfree owner howner).symm
        · rfl
    · have hne : ¬ other = extensionId := fun heq => hother heq.symm
      simp [hother, hne]
  named := by
    intro other owner howner
    change (state.claimedExtensionOwners.set extensionId clientId).get? other = some owner at howner
    rw [get?_set] at howner
    split at howner
    · exact Option.some.inj howner ▸ hclient
    · exact h.named other owner howner
  snapshots := by
    intro other snapshot owner hsnapshot howner
    change (state.extensionSnapshots.set extensionId _).get? other = some snapshot at hsnapshot
    change (state.claimedExtensionOwners.set extensionId clientId).get? other = some owner
    rw [get?_set] at hsnapshot ⊢
    split at hsnapshot
    · next hother =>
      rw [if_pos hother]
      rw [← Option.some.inj hsnapshot] at howner
      exact howner
    · next hother =>
      rw [if_neg hother]
      exact h.snapshots other snapshot owner hsnapshot howner

theorem Ownership.enforce (h : Ownership state) (client : Option Client) (extensionId : String)
    (now : ℤ) : Ownership (enforceUniqueExtensionClaim state client extensionId now).2 := by
  unfold enforceUniqueExtensionClaim
  split
  · exact h
  · next clientId hclient =>
    have hnamed := ne_empty_of_clientIdOf hclient
    split
    · next hfree =>
      exact h.remember hnamed (fun owner howner => by rw [hfree] at howner; cases howner) now
    · next currentOwner howner =>
      split
      · next hsame =>
        refine h.remember hnamed (fun owner howner' => ?_) now
        rw [howner] at howner'
        rw [← Option.some.inj howner', hsame]
      · exact h

/-! ## Giving claims back -/

/-- Is a claim given back when a client releases a list of extensions? -/
def IsReleased (state : BrokerState) (clientId : String) (extensionIds : List String)
    (extensionId : String) : Prop :=
  extensionId ∈ extensionIds ∧ state.claimedExtensionOwners.get? extensionId = some clientId

instance (state : BrokerState) (clientId : String) (extensionIds : List String)
    (extensionId : String) : Decidable (IsReleased state clientId extensionIds extensionId) :=
  inferInstanceAs (Decidable (_ ∧ _))

/-- What one turn of the loop of a release does to the maps. -/
theorem releaseExtensionClaim_spec (clientId : String) (now : ℤ) (state : BrokerState)
    (first : String) :
    (releaseExtensionClaim clientId now state first).claimedExtensionsByClient =
        state.claimedExtensionsByClient ∧
      (∀ extensionId,
        (releaseExtensionClaim clientId now state first).claimedExtensionOwners.get? extensionId =
          if IsReleased state clientId [first] extensionId then none
          else state.claimedExtensionOwners.get? extensionId) ∧
      ∀ extensionId,
        (releaseExtensionClaim clientId now state first).extensionSnapshots.get? extensionId =
          if IsReleased state clientId [first] extensionId then
            (state.extensionSnapshots.get? extensionId).map
              (offlineSnapshot · "MQTT connection disconnected." now)
          else state.extensionSnapshots.get? extensionId := by
  unfold releaseExtensionClaim
  by_cases howner : state.claimedExtensionOwners.get? first = some clientId
  · rw [if_pos howner]
    refine ⟨rfl, fun extensionId => ?_, fun extensionId => ?_⟩
    · dsimp only
      rw [get?_erase]
      by_cases hfirst : first = extensionId
      · subst hfirst
        simp [IsReleased, howner]
      · have hne : ¬ extensionId = first := fun h => hfirst h.symm
        simp [IsReleased, hfirst, hne]
    · by_cases hfirst : first = extensionId
      · subst hfirst
        cases hsnapshot : state.extensionSnapshots.get? first with
        | none => simp [hsnapshot]
        | some current => simp [IsReleased, howner]
      · have hne : ¬ extensionId = first := fun h => hfirst h.symm
        cases hsnapshot : state.extensionSnapshots.get? first with
        | none => simp [IsReleased, hne]
        | some current => simp [IsReleased, get?_set, hfirst, hne]
  · rw [if_neg howner]
    have hnone (extensionId : String) : ¬ IsReleased state clientId [first] extensionId := by
      rintro ⟨hmem, howner'⟩
      rw [mem_singleton] at hmem
      exact howner (hmem ▸ howner')
    exact ⟨rfl, fun extensionId => by rw [if_neg (hnone extensionId)],
      fun extensionId => by rw [if_neg (hnone extensionId)]⟩

/-- What the loop of a release does to the maps. -/
theorem releaseClaims_spec (state : BrokerState) (clientId : String) (now : ℤ)
    (extensionIds : List String) :
    let released := extensionIds.foldl (releaseExtensionClaim clientId now) state
    released.claimedExtensionsByClient = state.claimedExtensionsByClient ∧
      (∀ extensionId, released.claimedExtensionOwners.get? extensionId =
        if IsReleased state clientId extensionIds extensionId then none
        else state.claimedExtensionOwners.get? extensionId) ∧
      ∀ extensionId, released.extensionSnapshots.get? extensionId =
        if IsReleased state clientId extensionIds extensionId then
          (state.extensionSnapshots.get? extensionId).map
            (offlineSnapshot · "MQTT connection disconnected." now)
        else state.extensionSnapshots.get? extensionId := by
  induction extensionIds generalizing state with
  | nil => simp [IsReleased]
  | cons first rest ih =>
    obtain ⟨hclaims, howners, hsnapshots⟩ := ih (releaseExtensionClaim clientId now state first)
    obtain ⟨hclaims', howners', hsnapshots'⟩ := releaseExtensionClaim_spec clientId now state first
    have hnext (extensionId : String) :
        IsReleased (releaseExtensionClaim clientId now state first) clientId rest extensionId ↔
          ¬ IsReleased state clientId [first] extensionId ∧
            IsReleased state clientId rest extensionId := by
      by_cases hfirst : IsReleased state clientId [first] extensionId
      · have hgone : ¬ IsReleased (releaseExtensionClaim clientId now state first) clientId rest
            extensionId := by
          rintro ⟨-, howner⟩
          rw [howners', if_pos hfirst] at howner
          cases howner
        exact ⟨fun h => absurd h hgone, fun h => absurd hfirst h.1⟩
      · have howner := howners' extensionId
        rw [if_neg hfirst] at howner
        unfold IsReleased at hfirst ⊢
        rw [howner]
        exact ⟨fun h => ⟨hfirst, h⟩, fun h => h.2⟩
    have hall (extensionId : String) :
        IsReleased state clientId (first :: rest) extensionId ↔
          IsReleased state clientId [first] extensionId ∨
            IsReleased state clientId rest extensionId := by
      unfold IsReleased
      rw [mem_cons, mem_singleton]
      exact or_and_right
    refine ⟨hclaims.trans hclaims', fun extensionId => ?_, fun extensionId => ?_⟩
    · rw [foldl_cons, howners, howners']
      by_cases hfirst : IsReleased state clientId [first] extensionId
      · simp [hfirst, hall]
      · simp [hfirst, hall, hnext]
    · rw [foldl_cons, hsnapshots, hsnapshots']
      by_cases hfirst : IsReleased state clientId [first] extensionId
      · simp [hfirst, hall, hnext]
      · simp [hfirst, hall, hnext]

theorem claims_erase (state : BrokerState) (clientId other extensionId : String) :
    (∃ claimed, (state.claimedExtensionsByClient.erase clientId).get? other = some claimed ∧
      extensionId ∈ claimed) ↔ other ≠ clientId ∧ Claims state other extensionId := by
  rw [get?_erase]
  by_cases hother : clientId = other
  · simp [hother]
  · have hne : other ≠ clientId := fun h => hother h.symm
    rw [if_neg hother]
    exact ⟨fun h => ⟨hne, h⟩, fun h => h.2⟩

/-- A client that gives all its claims back. -/
theorem Ownership.release (h : Ownership state) (clientId : Option String) (now : ℤ) :
    Ownership (releaseExtensionClaimsForClient state clientId now) := by
  unfold releaseExtensionClaimsForClient
  split
  · exact h
  · next normalized hnormalized =>
    split
    · exact h
    · next claimed hclaimed =>
      obtain ⟨hclaims, howners, hsnapshots⟩ :=
        releaseClaims_spec state normalized now claimed.elements
      generalize claimed.elements.foldl (releaseExtensionClaim normalized now) state =
        released at hclaims howners hsnapshots
      have hreleased (extensionId : String) :
          IsReleased state normalized claimed.elements extensionId ↔
            state.claimedExtensionOwners.get? extensionId = some normalized := by
        refine ⟨fun hboth => hboth.2, fun howner => ⟨?_, howner⟩⟩
        obtain ⟨claimed', hclaimed', hmem⟩ := (h.claims extensionId normalized).mp howner
        rw [hclaimed, Option.some.injEq] at hclaimed'
        exact hclaimed' ▸ hmem
      have howner (extensionId owner : String) :
          released.claimedExtensionOwners.get? extensionId = some owner ↔ owner ≠ normalized ∧
              state.claimedExtensionOwners.get? extensionId = some owner := by
        rw [howners]
        by_cases hbefore : state.claimedExtensionOwners.get? extensionId = some normalized
        · rw [if_pos ((hreleased extensionId).mpr hbefore), hbefore, Option.some.injEq]
          constructor
          · exact fun hnone => absurd hnone (by simp)
          · rintro ⟨hne, heq⟩
            exact absurd heq.symm hne
        · rw [if_neg fun hboth => hbefore ((hreleased extensionId).mp hboth)]
          refine ⟨fun heq => ⟨?_, heq⟩, fun hboth => hboth.2⟩
          rintro rfl
          exact hbefore heq
      refine ⟨fun extensionId owner => ?_, fun extensionId owner hafter => ?_,
        fun extensionId snapshot owner hsnapshot hclient => ?_⟩
      · rw [howner, h.claims]
        dsimp only
        rw [hclaims]
        exact (claims_erase state normalized owner extensionId).symm
      · exact h.named extensionId owner ((howner extensionId owner).mp hafter).2
      · dsimp only at hsnapshot ⊢
        rw [hsnapshots] at hsnapshot
        rw [howner]
        split at hsnapshot
        · obtain ⟨current, -, rfl⟩ := map_eq_some_iff.mp hsnapshot
          exact absurd hclient (by simp [offlineSnapshot])
        · next hkept =>
          have hbefore := h.snapshots extensionId snapshot owner hsnapshot hclient
          refine ⟨?_, hbefore⟩
          rintro rfl
          exact hkept ((hreleased extensionId).mpr hbefore)

/-! ## The other steps -/

theorem ownership_clear (state : BrokerState) (now : ℤ) :
    Ownership (clearExtensionClaims state now) := by
  refine ⟨fun _ _ => ⟨fun h => absurd h (by simp [clearExtensionClaims]), ?_⟩,
    fun _ _ h => absurd h (by simp [clearExtensionClaims]),
    fun extensionId snapshot owner hsnapshot hclient => ?_⟩
  · rintro ⟨_, h, -⟩
    exact absurd h (by simp [clearExtensionClaims])
  · simp only [clearExtensionClaims, get?_mapValues] at hsnapshot
    obtain ⟨current, -, rfl⟩ := map_eq_some_iff.mp hsnapshot
    exact absurd hclient (by simp [offlineSnapshot])

/-- A message that may touch a snapshot names the owner or nobody as its client. -/
theorem Ownership.updateSnapshot (h : Ownership state) (extensionId : String)
    (clientId : Option String) (kind : ExtensionTopicKind) (payload : Json) (now : ℤ) :
    Ownership (updateExtensionSnapshotFromPayload state extensionId clientId kind payload now) := by
  unfold updateExtensionSnapshotFromPayload
  split
  · exact h
  · next currentOwner howner =>
    split
    · exact h
    · next hsame =>
      refine ⟨h.claims, h.named, fun other snapshot owner hsnapshot hclient => ?_⟩
      rw [get?_set] at hsnapshot
      split at hsnapshot
      · next hother =>
        subst hother
        rw [← Option.some.inj hsnapshot] at hclient
        have howner' : clientId.getD
            (((state.extensionSnapshots.get? extensionId).bind (·.clientId)).getD
              currentOwner) = owner := Option.some.inj hclient
        rw [howner]
        cases clientId with
        | some clientId => simpa [← howner'] using hsame
        | none =>
          rw [getD_none] at howner'
          cases hbind : (state.extensionSnapshots.get? extensionId).bind (·.clientId) with
          | none =>
            rw [hbind, getD_none] at howner'
            rw [howner']
          | some before =>
            rw [hbind, getD_some] at howner'
            obtain ⟨current, hcurrent, hbefore⟩ := bind_eq_some_iff.mp hbind
            rw [← howner', ← howner]
            exact h.snapshots extensionId current before hcurrent hbefore
      · exact h.snapshots other snapshot owner hsnapshot hclient

/-- Every step keeps the maps in agreement. -/
theorem Ownership.step (h : Ownership state) (step : BrokerStep) :
    Ownership (brokerStep state step) := by
  cases step with
  | clientReady client =>
    rw [brokerStep, handleClientReady.eq_def]
    split
    · exact ⟨h.claims, h.named, h.snapshots⟩
    · exact h
  | authorizePublish client topic now =>
    rw [brokerStep, authorizePublish]
    split
    · split
      · exact h.enforce client _ now
      · exact h
    · exact h
  | authorizeSubscribe client topic now =>
    rw [brokerStep, authorizeSubscribe]
    split
    · split
      · exact h.enforce client _ now
      · exact h
    · exact h
  | publish client topic payload now =>
    rw [brokerStep, handleBrokerPublish]
    split
    · split
      · exact h.updateSnapshot ..
      · exact h
    · exact h
  | clientDisconnect client now => exact h.release _ now
  | brokerStop now => exact ownership_clear state now
  | disconnectExtension extensionId now =>
    rw [brokerStep, disconnectMqttExtension]
    split
    · exact h
    · split
      · exact h
      · split
        · exact h.release _ now
        · exact h

theorem ownership_runBroker (steps : List BrokerStep) : Ownership (runBroker steps) := by
  induction steps using List.reverseRecOn with
  | nil => exact ownership_start
  | append_singleton steps step ih =>
    rw [runBroker, foldl_append]
    exact ih.step step

/-! ## What a client that is not the owner can do -/

theorem Ownership.claimant_unique (h : Ownership state) {first second : String}
    (hfirst : Claims state first extensionId) (hsecond : Claims state second extensionId) :
    first = second := by
  have hfirst := (h.claims extensionId first).mpr hfirst
  have hsecond := (h.claims extensionId second).mpr hsecond
  exact Option.some.inj (hfirst.symm.trans hsecond)

variable {topic : String} {ref : ExtensionTopicRef}

/-- A message of a named client that is not the owner is dropped. -/
theorem handleBrokerPublish_of_not_owner (hclient : clientIdOf client = some clientId)
    (href : parseExtensionTopic topic = some ref)
    (howner : state.claimedExtensionOwners.get? ref.extensionId ≠ some clientId) (payload : Json)
    (now : ℤ) : handleBrokerPublish state client topic payload now = state := by
  rw [handleBrokerPublish, href, hclient]
  dsimp only
  split
  · unfold updateExtensionSnapshotFromPayload
    split
    · rfl
    · next currentOwner hcurrent =>
      have hne : currentOwner ≠ clientId := fun heq => howner (heq ▸ hcurrent)
      rw [if_pos (by simpa using hne)]
  · rfl

/-- A named client is turned away from an extension that another client owns. -/
theorem authorizePublish_of_owned {owner : String} (hclient : clientIdOf client = some clientId)
    (href : parseExtensionTopic topic = some ref) (hkind : ref.kind ≠ .request)
    (howner : state.claimedExtensionOwners.get? ref.extensionId = some owner)
    (hne : owner ≠ clientId) (now : ℤ) :
    (authorizePublish state client topic now).1.isSome ∧
      (authorizePublish state client topic now).2 = state := by
  simp [authorizePublish, enforceUniqueExtensionClaim, hclient, href, hkind, howner, hne]

/-- A client that has disconnected owns nothing. -/
theorem Ownership.not_owner_of_release (h : Ownership state) (clientId : String) (now : ℤ)
    (extensionId : String) :
    (releaseExtensionClaimsForClient state clientId now).claimedExtensionOwners.get? extensionId ≠
      some (jsTrim clientId) := by
  intro howner
  have hafter := h.release (some clientId) now
  have hnamed : jsTrim clientId ≠ "" := hafter.named extensionId _ howner
  obtain ⟨claimed, hclaimed, -⟩ := (hafter.claims extensionId _).mp howner
  have hnormalized : ((some clientId).map jsTrim).filter (· ≠ "") = some (jsTrim clientId) := by
    simp [Option.filter, hnamed]
  rw [releaseExtensionClaimsForClient, hnormalized] at howner hclaimed
  dsimp only at howner hclaimed
  split at hclaimed
  · next hnone =>
    rw [hnone] at hclaimed
    cases hclaimed
  · rw [get?_erase_self] at hclaimed
    cases hclaimed

/-- The fields only a capabilities message is expected to write. -/
inductive CapabilityFact
  | capabilityMatrix | capabilityHash | protocolVersion | permissions | toolHealth
  | lastCapabilityRefreshAt

inductive FactValue
  | object (fields : JsonObject)
  | text (text : String)
  | time (time : ℤ)

/-- The fact as a snapshot stores it. -/
def factOf (snapshot : MqttExtensionSnapshot) : CapabilityFact → Option FactValue
  | .capabilityMatrix => snapshot.capabilityMatrix.map .object
  | .capabilityHash => snapshot.capabilityHash.map .text
  | .protocolVersion => snapshot.protocolVersion.map .text
  | .permissions => snapshot.permissions.map .object
  | .toolHealth => snapshot.toolHealth.map .object
  | .lastCapabilityRefreshAt => snapshot.lastCapabilityRefreshAt.map .time

/-- The fact as a status or capabilities message carries it. -/
def carriedFact (kind : ExtensionTopicKind) (payload : Option JsonObject) (now : ℤ) :
    CapabilityFact → Option FactValue
  | .capabilityMatrix => (readCapabilityMatrix payload).map .object
  | .capabilityHash => (readString payload ["capabilityHash", "capability_hash"]).map .text
  | .protocolVersion => (readString payload ["protocolVersion", "protocol_version"]).map .text
  | .permissions => (readObject payload ["permissions"]).map .object
  | .toolHealth => (readObject payload ["toolHealth", "tool_health"]).map .object
  | .lastCapabilityRefreshAt => if kind = .capabilities then some (.time now) else none

variable (state : BrokerState) {now : ℤ}

/-- The fact the broker has of an extension. -/
def fact? (extensionId : String) (fact : CapabilityFact) : Option FactValue :=
  (state.extensionSnapshots.get? extensionId).bind (factOf · fact)

theorem fact?_lastCapabilityRefreshAt (extensionId : String) :
    fact? state extensionId .lastCapabilityRefreshAt =
      ((state.extensionSnapshots.get? extensionId).bind (·.lastCapabilityRefreshAt)).map .time := by
  unfold fact?
  cases state.extensionSnapshots.get? extensionId <;> rfl

theorem map_orElse_bind {A B C : Type} (own : Option A) (current : Option B)
    (field : B → Option A) (f : A → C) :
    (own <|> current.bind field).map f = (own.map f <|> current.bind fun b => (field b).map f) := by
  cases own <;> cases current <;> rfl

/-- The merge of a message keeps the facts it does not carry. -/
theorem factOf_mergedSnapshot (extensionId currentOwner : String) (clientId : Option String)
    (kind : ExtensionTopicKind) (payload : Option JsonObject)
    (current : Option MqttExtensionSnapshot) (now : ℤ) (fact : CapabilityFact) :
    factOf (mergedSnapshot extensionId currentOwner clientId kind payload current now) fact =
      (carriedFact kind payload now fact <|> current.bind (factOf · fact)) := by
  cases fact with
  | capabilityMatrix | capabilityHash | protocolVersion | permissions | toolHealth =>
        exact map_orElse_bind ..
  | lastCapabilityRefreshAt =>
    by_cases hkind : kind = .capabilities
    · simp [factOf, carriedFact, mergedSnapshot, hkind]
    · cases current <;> simp [factOf, carriedFact, mergedSnapshot, hkind]

/-- A claim keeps none of the facts. -/
theorem factOf_claimedSnapshot (extensionId clientId : String)
    (current : Option MqttExtensionSnapshot) (now : ℤ) (fact : CapabilityFact) :
    factOf (claimedSnapshot extensionId clientId current now) fact = none := by
  cases fact <;> rfl

/-! ## What a step does to a fact -/

/-- A hook the owner passes refreshes its claim on the extension. -/
def Refreshes (extensionId clientId : String) : BrokerStep → Prop
  | .authorizePublish client topic _ =>
    clientIdOf client = some clientId ∧
      ∃ kind, parseExtensionTopic topic = some ⟨extensionId, kind⟩ ∧ kind ≠ .request
  | .authorizeSubscribe client topic _ =>
    clientIdOf client = some clientId ∧ parseExtensionTopic topic = some ⟨extensionId, .request⟩
  | _ => False

/-- A message the broker merges that is a capabilities message or carries the fact. -/
def Overwrites (extensionId clientId : String) (fact : CapabilityFact) : BrokerStep → Prop
  | .publish client topic payload now =>
    ∃ kind, parseExtensionTopic topic = some ⟨extensionId, kind⟩ ∧
      ¬ (clientIdOf client).any (clientId ≠ ·) ∧
      (kind = .capabilities ∨ kind = .status ∧ (carriedFact kind payload.fields? now fact).isSome)
  | _ => False

/-- A step that neither overwrites the fact nor releases the claim. -/
def Undisturbed (extensionId clientId : String) (fact : CapabilityFact) (state : BrokerState)
    (step : BrokerStep) : Prop :=
  ¬ Overwrites extensionId clientId fact step ∧
    (brokerStep state step).claimedExtensionOwners.get? extensionId = some clientId

/-- The broker takes a step. -/
def BrokerTakes (step : BrokerStep) (next : BrokerState) : Prop := brokerStep state step = next

variable {state : BrokerState} {extensionId clientId : String} {fact : CapabilityFact}

theorem fact?_remember (other other' : String) (now : ℤ) :
    fact? (rememberExtensionClaim state other other' now) extensionId fact =
      if other = extensionId then none else fact? state extensionId fact := by
  unfold fact? rememberExtensionClaim
  rw [OrderedMap.get?_set]
  split
  · rw [Option.bind_some, factOf_claimedSnapshot]
  · rfl

section

variable (howner : state.claimedExtensionOwners.get? extensionId = some clientId)
include howner

/-- A hook drops the fact if it refreshes the claim of the owner, and only then. -/
theorem fact?_enforce
    (client : Option Client) (other : String) (now : ℤ) :
    fact? (enforceUniqueExtensionClaim state client other now).2 extensionId fact =
      if clientIdOf client = some clientId ∧ other = extensionId then none
      else fact? state extensionId fact := by
  unfold enforceUniqueExtensionClaim
  cases hclient : clientIdOf client with
  | none => simp
  | some clientId' =>
    by_cases hother : other = extensionId
    · subst hother
      rw [howner]
      by_cases hsame : clientId = clientId'
      · subst hsame
        simp [fact?_remember]
      · have hne : ¬ clientId' = clientId := fun h => hsame h.symm
        simp [hsame, hne]
    · rw [if_neg fun h => hother h.2]
      dsimp only
      split
      · rw [fact?_remember, if_neg hother]
      · split
        · rw [fact?_remember, if_neg hother]
        · rfl

/-- A message of the broker's traffic that does not overwrite the fact keeps it. -/
theorem fact?_publish
    {client : Option Client} {topic : String} {payload : Json}
    (hquiet : ¬ Overwrites extensionId clientId fact (.publish client topic payload now)) :
    fact? (handleBrokerPublish state client topic payload now) extensionId fact =
      fact? state extensionId fact := by
  unfold handleBrokerPublish
  split
  · next ref href =>
    obtain ⟨other, kind⟩ := ref
    split
    · next hkind =>
      unfold updateExtensionSnapshotFromPayload
      split
      · rfl
      · next currentOwner hcurrent =>
        split
        · rfl
        · next hheard =>
          unfold fact?
          rw [OrderedMap.get?_set]
          split
          · next hother =>
            subst hother
            obtain rfl : clientId = currentOwner :=
              Option.some.inj (howner.symm.trans hcurrent)
            have hplain : ¬ (kind = .capabilities ∨
                kind = .status ∧ (carriedFact kind payload.fields? now fact).isSome) :=
              fun h => hquiet ⟨kind, href, hheard, h⟩
            rw [not_or, not_and] at hplain
            obtain rfl : kind = .status := hkind.resolve_right hplain.1
            have hnone : carriedFact .status payload.fields? now fact = none := by
              simpa using hplain.2 rfl
            rw [Option.bind_some, factOf_mergedSnapshot, hnone]
            rfl
          · rfl
    · rfl
  · rfl

end

/-- Another client that releases its claims leaves the fact as it was. -/
theorem fact?_release {other : Option String}
    (hkept : (releaseExtensionClaimsForClient state other now).claimedExtensionOwners.get?
      extensionId = some clientId) :
    fact? (releaseExtensionClaimsForClient state other now) extensionId fact =
      fact? state extensionId fact := by
  unfold releaseExtensionClaimsForClient at hkept ⊢
  split
  · rfl
  · next normalized hnormalized =>
    rw [hnormalized] at hkept
    dsimp only at hkept
    split
    · rfl
    · next claimed hclaimed =>
      rw [hclaimed] at hkept
      obtain ⟨-, howners, hsnapshots⟩ :=
        releaseClaims_spec state normalized now claimed.elements
      have hnot : ¬ IsReleased state normalized claimed.elements extensionId := by
        intro hreleased
        rw [howners, if_pos hreleased] at hkept
        cases hkept
      unfold fact?
      rw [hsnapshots, if_neg hnot]

/-- A step that does not overwrite the fact and keeps the claim drops the fact if
it refreshes the claim, and otherwise keeps it. -/
theorem fact?_step (howner : state.claimedExtensionOwners.get? extensionId = some clientId)
    {step : BrokerStep} (h : Undisturbed extensionId clientId fact state step) :
    (Refreshes extensionId clientId step → fact? (brokerStep state step) extensionId fact = none) ∧
      (¬ Refreshes extensionId clientId step →
        fact? (brokerStep state step) extensionId fact = fact? state extensionId fact) := by
  obtain ⟨hquiet, hkept⟩ := h
  cases step with
  | clientReady client =>
    refine ⟨False.elim, fun _ => ?_⟩
    rw [brokerStep, handleClientReady.eq_def]
    split <;> rfl
  | authorizePublish client topic now =>
    rw [brokerStep, authorizePublish]
    split
    · next ref href =>
      obtain ⟨other, kind⟩ := ref
      split
      · next hkind =>
        rw [fact?_enforce howner]
        refine ⟨?_, fun hnot => if_neg ?_⟩
        · rintro ⟨hclient, kind', href', -⟩
          rw [href, Option.some.injEq, ExtensionTopicRef.mk.injEq] at href'
          exact if_pos ⟨hclient, href'.1⟩
        · rintro ⟨hclient, rfl⟩
          exact hnot ⟨hclient, kind, href, hkind⟩
      · next hkind =>
        refine ⟨?_, fun _ => rfl⟩
        rintro ⟨-, kind', href', hkind'⟩
        rw [href, Option.some.injEq, ExtensionTopicRef.mk.injEq] at href'
        exact absurd (href'.2 ▸ hkind') hkind
    · next hnone =>
      refine ⟨?_, fun _ => rfl⟩
      rintro ⟨-, kind', href', -⟩
      cases hnone.symm.trans href'
  | authorizeSubscribe client topic now =>
    rw [brokerStep, authorizeSubscribe]
    split
    · next ref href =>
      obtain ⟨other, kind⟩ := ref
      split
      · next hkind =>
        rw [fact?_enforce howner]
        refine ⟨?_, fun hnot => if_neg ?_⟩
        · rintro ⟨hclient, href'⟩
          rw [href, Option.some.injEq, ExtensionTopicRef.mk.injEq] at href'
          exact if_pos ⟨hclient, href'.1⟩
        · rintro ⟨hclient, rfl⟩
          exact hnot ⟨hclient, href.trans (by rw [show kind = .request from hkind])⟩
      · next hkind =>
        refine ⟨?_, fun _ => rfl⟩
        rintro ⟨-, href'⟩
        rw [href, Option.some.injEq, ExtensionTopicRef.mk.injEq] at href'
        exact absurd href'.2 hkind
    · next hnone =>
      refine ⟨?_, fun _ => rfl⟩
      rintro ⟨-, href'⟩
      cases hnone.symm.trans href'
  | publish client topic payload now =>
    rw [brokerStep]
    exact ⟨False.elim, fun _ => fact?_publish howner hquiet⟩
  | clientDisconnect client now =>
    rw [brokerStep] at hkept ⊢
    exact ⟨False.elim, fun _ => fact?_release hkept⟩
  | brokerStop now => cases hkept
  | disconnectExtension other now =>
    refine ⟨False.elim, fun _ => ?_⟩
    rw [brokerStep, disconnectMqttExtension] at hkept ⊢
    split
    · rfl
    · next hnamed =>
      rw [if_neg hnamed] at hkept
      split
      · rfl
      · next owner hother =>
        rw [hother] at hkept
        dsimp only at hkept
        split
        · next hinactive =>
          rw [hinactive] at hkept
          exact fact?_release hkept
        · rfl

/-- Over a run that leaves the fact and the claim alone, the fact stays until the
first refresh of the claim. -/
theorem fact?_run {labels : List BrokerStep} {last : BrokerState}
    (run : Run (Meeting (Undisturbed extensionId clientId fact) BrokerTakes) state labels last)
    (howner : state.claimedExtensionOwners.get? extensionId = some clientId) :
    last.claimedExtensionOwners.get? extensionId = some clientId ∧
      ((∀ step ∈ labels, ¬ Refreshes extensionId clientId step) →
        fact? last extensionId fact = fact? state extensionId fact) ∧
      ((∃ step ∈ labels, Refreshes extensionId clientId step) →
        fact? last extensionId fact = none) := by
  induction run with
  | start => exact ⟨howner, fun _ => rfl, by simp⟩
  | extend prior step taken ih =>
    obtain ⟨hbefore, hkept, hdropped⟩ := ih
    obtain ⟨hundisturbed, rfl⟩ := taken
    obtain ⟨hrefresh, hother⟩ := fact?_step hbefore hundisturbed
    refine ⟨hundisturbed.2, fun hnone => ?_, fun hsome => ?_⟩
    · rw [hother (hnone step (by simp)), hkept fun step hmem => hnone step (by simp [hmem])]
    · obtain ⟨step', hmem, hstep'⟩ := hsome
      by_cases hlast : Refreshes extensionId clientId step
      · exact hrefresh hlast
      · rw [List.mem_append, List.mem_singleton] at hmem
        have hearlier := hmem.resolve_right fun heq => hlast (heq ▸ hstep')
        rw [hother hlast, hdropped ⟨step', hearlier, hstep'⟩]

/-- A fact the broker has stored for the owner of an extension stays through a run
that neither overwrites it nor releases the claim exactly as long as the owner does
not pass an authorization hook for the extension again. -/
theorem capabilityFact_kept_iff {before : List BrokerStep} {value : FactValue}
    (howner : (runBroker before).claimedExtensionOwners.get? extensionId = some clientId)
    (hstored : fact? (runBroker before) extensionId fact = some value)
    {later : List BrokerStep} {last : BrokerState}
    (run : Run (Meeting (Undisturbed extensionId clientId fact) BrokerTakes) (runBroker before)
      later last) :
    fact? last extensionId fact = some value ↔
      ∀ step ∈ later, ¬ Refreshes extensionId clientId step := by
  obtain ⟨-, hkept, hdropped⟩ := fact?_run run howner
  constructor
  · intro hlast step hmem hrefresh
    rw [hdropped ⟨step, hmem, hrefresh⟩] at hlast
    cases hlast
  · intro hnone
    rw [hkept hnone, hstored]

/-- The node that owns an extension reports its capabilities. -/
def reportedCapabilities : List BrokerStep :=
  [.authorizePublish (some ⟨"node"⟩) "nobie/v1/node/desk/capabilities" 1,
    .publish (some ⟨"node"⟩) "nobie/v1/node/desk/capabilities" (.obj []) 1]

/-- The time of the report stays while another node claims its own extension. -/
theorem reportTime_kept :
    fact? (brokerStep (runBroker reportedCapabilities)
        (.authorizePublish (some ⟨"other"⟩) "nobie/v1/node/lamp/status" 2))
      "desk" .lastCapabilityRefreshAt = some (.time 1) := by
  have howner : (runBroker reportedCapabilities).claimedExtensionOwners.get? "desk" =
      some "node" := by decide
  have hstored : fact? (runBroker reportedCapabilities) "desk" .lastCapabilityRefreshAt =
      some (.time 1) := by
    have htime : ((runBroker reportedCapabilities).extensionSnapshots.get? "desk").bind
        (·.lastCapabilityRefreshAt) = some 1 := by decide
    rw [fact?_lastCapabilityRefreshAt, htime, Option.map_some]
  have hquiet : ¬ Overwrites "desk" "node" .lastCapabilityRefreshAt
      (.authorizePublish (some ⟨"other"⟩) "nobie/v1/node/lamp/status" 2) := fun h => h
  refine (capabilityFact_kept_iff howner hstored (.single ⟨⟨hquiet, by decide⟩, rfl⟩)).mpr ?_
  intro step hmem
  rw [List.mem_singleton] at hmem
  subst hmem
  rintro ⟨hclient, -⟩
  revert hclient
  decide

/-- The next status message of the owner passes the hook first, and the time of the
report is gone. -/
theorem statusMessage_drops_reportTime :
    let reported := runBroker reportedCapabilities
    let hooked := brokerStep reported
      (.authorizePublish (some ⟨"node"⟩) "nobie/v1/node/desk/status" 2)
    let updated := brokerStep hooked
      (.publish (some ⟨"node"⟩) "nobie/v1/node/desk/status" (.obj []) 2)
    (reported.extensionSnapshots.get? "desk").bind (·.lastCapabilityRefreshAt) = some 1 ∧
      updated.claimedExtensionOwners.get? "desk" = some "node" ∧
      (updated.extensionSnapshots.get? "desk").bind (·.lastCapabilityRefreshAt) = none := by
  decide +kernel

end Nobie.Mqtt
