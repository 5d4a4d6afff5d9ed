/-
# One attempt of a call

An attempt subscribes to the response topic, publishes its request and waits for
the acknowledgement of the publication before it attaches the listener of
`waitForResponse`. The broker decides whether the response or the
acknowledgement comes first, and a response that comes while nobody listens is
lost. This module says exactly which responses an attempt settles on.
-/

import Nobie.Yeonjang.ChunkedTransport

namespace Nobie.Yeonjang

open Foundation List

/-- An attempt whose subscription has succeeded: it awaits `publish`, it is about
to go on after the acknowledgement, or its listener is attached. -/
inductive Attempt
  | publishing | acknowledged
  | waiting (waiter : Waiter)

/-- What reaches the connection of an attempt. The continuation of the awaited
`publish` runs some time after the acknowledgement. -/
inductive AttemptEvent
  | message (message : MqttMessage)
  | acknowledgement
  | continuation | timer
  deriving DecidableEq

/-- One event. The timer is set together with the listener. -/
def attemptStep (requestId responseTopic : String) : Attempt → AttemptEvent → Attempt
  | .publishing, .acknowledgement => .acknowledged
  | .acknowledged, .continuation => .waiting .attached
  | .waiting waiter, .message message =>
    .waiting (waiterStep requestId responseTopic waiter (.message message))
  | .waiting waiter, .timer => .waiting (waiterStep requestId responseTopic waiter .timer)
  | attempt, _ => attempt

/-- The attempt of `invokeYeonjangMethod` from its publication on. -/
def runAttempt (requestId responseTopic : String) (events : List AttemptEvent) : Attempt :=
  events.foldl (attemptStep requestId responseTopic) .publishing

def Attempt.settlements : Attempt → List Settlement
  | .waiting waiter => waiter.settlements
  | _ => []

/-! ## The events the listener sees -/

/-- The events after the listener is attached. -/
def afterAttach (events : List AttemptEvent) : List AttemptEvent :=
  ((events.dropWhile (· ≠ .acknowledgement)).tail.dropWhile (· ≠ .continuation)).tail

def AttemptEvent.toWaiterEvent : AttemptEvent → Option WaiterEvent
  | .message delivered => some (.message delivered)
  | .timer => some .timer
  | _ => none

theorem foldl_attemptStep_waiting (requestId responseTopic : String) (waiter : Waiter)
    (events : List AttemptEvent) :
    events.foldl (attemptStep requestId responseTopic) (.waiting waiter) =
      .waiting ((events.filterMap AttemptEvent.toWaiterEvent).foldl
        (waiterStep requestId responseTopic) waiter) := by
  induction events generalizing waiter with
  | nil => rfl
  | cons event events ih =>
    cases event with
    | message message => exact ih _
    | timer => exact ih _
    | acknowledgement => exact ih waiter
    | continuation => exact ih waiter

theorem settlements_acknowledged (requestId responseTopic : String) (events : List AttemptEvent) :
    (events.foldl (attemptStep requestId responseTopic) .acknowledged).settlements =
      (waitForResponse requestId responseTopic
        ((events.dropWhile (· ≠ .continuation)).tail.filterMap
          AttemptEvent.toWaiterEvent)).settlements := by
  induction events with
  | nil => rfl
  | cons event events ih =>
    cases event with
    | message message => exact ih
    | timer => exact ih
    | acknowledgement => exact ih
    | continuation => exact congrArg Attempt.settlements (foldl_attemptStep_waiting ..)

/-- An attempt settles as the wait on the events after the listener is attached. -/
theorem settlements_runAttempt (requestId responseTopic : String) (events : List AttemptEvent) :
    (runAttempt requestId responseTopic events).settlements =
      (waitForResponse requestId responseTopic
        ((afterAttach events).filterMap AttemptEvent.toWaiterEvent)).settlements := by
  induction events with
  | nil => rfl
  | cons event events ih =>
    cases event with
    | message message => exact ih
    | timer => exact ih
    | acknowledgement => exact settlements_acknowledged requestId responseTopic events
    | continuation => exact ih

/-! ## Responses without an id -/

/-- A message on the response topic that holds an object without an id. -/
def isAnonymous (responseTopic : String) (message : MqttMessage) : Bool :=
  message.topic = responseTopic &&
    match Json.parse (utf8Text message.payload) with
    | some (.obj fields) => (Json.lookup fields "id").isNone
    | _ => false

/-- The message of a response without an id. -/
def WithoutId (responseTopic : String) (message : MqttMessage) : Prop :=
  ∃ response : Response, response.id = none ∧ message = ⟨responseTopic, response.payload⟩

variable {responseTopic : String} {message : MqttMessage}

theorem WithoutId.isAnonymous (h : WithoutId responseTopic message) :
    isAnonymous responseTopic message := by
  obtain ⟨response, hid, rfl⟩ := h
  have hparse : Json.parse (utf8Text response.payload) = some (.obj response.fields) :=
    parse_toVec response.toJson
  have hlookup : Json.lookup response.fields "id" = none := by
    have hfield := field?_id_toJson response
    rwa [hid] at hfield
  simp [Yeonjang.isAnonymous, hparse, hlookup]

theorem isAnonymous_of_lookup {fields : List (String × Json)} {id : Json}
    (hparse : Json.parse (utf8Text message.payload) = some (.obj fields))
    (hlookup : Json.lookup fields "id" = some id) : isAnonymous responseTopic message = false := by
  simp [isAnonymous, hparse, hlookup]

/-- A response without an id ends the wait of every caller. -/
theorem WithoutId.settles (h : WithoutId responseTopic message) (requestId : String)
    (waiter : Waiter) :
    ∃ outcome, onMessage requestId responseTopic waiter message =
      waiter.settle outcome message.payload := by
  obtain ⟨response, hid, rfl⟩ := h
  refine ⟨responseOutcome response.toJson, ?_⟩
  rw [onMessage_response, hid]
  rfl

theorem WithoutId.payload_ne {requestId : String} (h : WithoutId responseTopic message)
    {response : Response} (hid : response.id = some requestId) :
    message.payload ≠ response.payload := by
  obtain ⟨other, hother, rfl⟩ := h
  intro heq
  have hvalue := congrArg (fun payload => Json.parse (utf8Text payload)) heq
  simp only [Response.payload, parse_toVec, Option.some.injEq] at hvalue
  have hfield := congrArg (Json.field? · "id") hvalue
  simp only [field?_id_toJson, hid, hother] at hfield
  cases hfield

theorem payload_ne_nil (response : Response) : response.payload ≠ [] := by
  intro hnil
  have hparse : Json.parse (utf8Text response.payload) = some response.toJson :=
    parse_toVec response.toJson
  rw [hnil] at hparse
  have hempty : Json.parse (utf8Text []) = none := by decide
  rw [hempty] at hparse
  cases hparse

/-! ## What an attempt settles on -/

/-- The messages a listener takes before the timer or a response without an id
ends its wait. -/
def heard (responseTopic : String) : List AttemptEvent → List MqttMessage
  | [] => []
  | .message message :: events =>
    if isAnonymous responseTopic message then [] else message :: heard responseTopic events
  | .timer :: _ => []
  | .acknowledgement :: events => heard responseTopic events
  | .continuation :: events => heard responseTopic events

theorem mem_of_mem_heard {events : List AttemptEvent} (h : message ∈ heard responseTopic events) :
    .message message ∈ events ∧ isAnonymous responseTopic message = false := by
  induction events with
  | nil => cases h
  | cons event events ih =>
    cases event with
    | message other =>
      unfold heard at h
      split at h
      · cases h
      · next hother =>
        rcases mem_cons.mp h with rfl | hmem
        · exact ⟨mem_cons_self, by simpa using hother⟩
        · exact ⟨mem_cons_of_mem _ (ih hmem).1, (ih hmem).2⟩
    | timer => cases h
    | acknowledgement => exact ⟨mem_cons_of_mem _ (ih h).1, (ih h).2⟩
    | continuation => exact ⟨mem_cons_of_mem _ (ih h).1, (ih h).2⟩

/-- The end of a wait that is not the response: the timer or a response without
an id. -/
def EndsWait (responseTopic : String) (events : List AttemptEvent) : WaiterEvent → Prop
  | .timer => True
  | .message message => .message message ∈ events ∧ isAnonymous responseTopic message
  | _ => False

/-- The events of a listener are the messages it hears and what comes from the
end of the wait on. -/
theorem toWaiterEvents_eq (responseTopic : String) (events : List AttemptEvent) :
    ∃ rest, events.filterMap AttemptEvent.toWaiterEvent =
        (heard responseTopic events).map .message ++ rest ∧
      (rest = [] ∨ ∃ event tail, rest = event :: tail ∧ EndsWait responseTopic events event) := by
  induction events with
  | nil => exact ⟨[], rfl, Or.inl rfl⟩
  | cons event events ih =>
    obtain ⟨rest, hevents, hrest⟩ := ih
    have hrest' : rest = [] ∨ ∃ other tail, rest = other :: tail ∧
        EndsWait responseTopic (event :: events) other := by
      refine hrest.imp_right ?_
      rintro ⟨other, tail, heq, hends⟩
      refine ⟨other, tail, heq, ?_⟩
      cases other with
      | message message => exact ⟨mem_cons_of_mem _ hends.1, hends.2⟩
      | timer => trivial
      | error message => exact hends
      | close => exact hends
    cases event with
    | message message =>
      by_cases hanonymous : isAnonymous responseTopic message
      · refine ⟨.message message :: events.filterMap AttemptEvent.toWaiterEvent, ?_,
          Or.inr ⟨.message message, _, rfl, mem_cons_self, hanonymous⟩⟩
        simp [heard, hanonymous, AttemptEvent.toWaiterEvent]
      · refine ⟨rest, ?_, hrest'⟩
        simp [heard, hanonymous, AttemptEvent.toWaiterEvent, hevents]
    | timer =>
      exact ⟨.timer :: events.filterMap AttemptEvent.toWaiterEvent, rfl,
        Or.inr ⟨.timer, _, rfl, trivial⟩⟩
    | acknowledgement => exact ⟨rest, hevents, hrest'⟩
    | continuation => exact ⟨rest, hevents, hrest'⟩

/-- The messages that can come on the response topic: those of the attempt's own
response, those of other calls, and responses without an id. -/
def Expected (requestId responseTopic : String) (response : Response) (message : MqttMessage) :
    Prop :=
  message ∈ publishResponse responseTopic response ∨ CarriesOtherId requestId message ∨
    WithoutId responseTopic message

theorem Expected.withoutId {requestId responseTopic : String} {response : Response}
    {message : MqttMessage} (hid : response.id = some requestId)
    (h : Expected requestId responseTopic response message)
    (hanonymous : isAnonymous responseTopic message) : WithoutId responseTopic message := by
  rcases h with hown | ⟨fields, id, hparse, hlookup, -, -⟩ | hwithout
  · obtain ⟨fields, hparse, hlookup⟩ := parse_of_mem_publishResponse hid hown
    rw [isAnonymous_of_lookup hparse hlookup] at hanonymous
    cases hanonymous
  · rw [isAnonymous_of_lookup hparse hlookup] at hanonymous
    cases hanonymous
  · exact hwithout

/-- Whatever the broker delivers in whatever order, an attempt settles from its
response exactly if every message of the response arrives after the listener was
attached and before the timer or a response without an id. -/
theorem attempt_settles_iff {requestId responseTopic : String} {response : Response}
    (hid : response.id = some requestId) {events : List AttemptEvent}
    (hevents : ∀ message, .message message ∈ events →
      Expected requestId responseTopic response message) :
    (runAttempt requestId responseTopic events).settlements =
        [⟨responseOutcome response.toJson, response.payload⟩] ↔
      publishResponse responseTopic response ⊆ heard responseTopic (afterAttach events) := by
  have hsuffix : afterAttach events ⊆ events := by
    unfold afterAttach
    exact ((tail_suffix _).trans ((dropWhile_suffix _).trans
      ((tail_suffix _).trans (dropWhile_suffix _)))).subset
  have hstate := waitForResponse_settledWhenComplete hid
    (heard responseTopic (afterAttach events)) fun message hmem => by
      obtain ⟨hevent, hnamed⟩ := mem_of_mem_heard hmem
      rcases hevents message (hsuffix hevent) with hown | hother | hwithout
      · exact Or.inl hown
      · exact Or.inr hother
      · rw [hwithout.isAnonymous] at hnamed
        cases hnamed
  obtain ⟨rest, hrest, hends⟩ := toWaiterEvents_eq responseTopic (afterAttach events)
  rw [settlements_runAttempt, hrest, waitForResponse_append]
  unfold SettledWhenComplete at hstate
  split at hstate
  · next hcomplete =>
    rw [hstate, foldl_waiterStep_of_not_listening rfl]
    exact ⟨fun _ => hcomplete, fun _ => rfl⟩
  · next hmissing =>
    refine ⟨fun hsettled => ?_, fun hcomplete => absurd hcomplete hmissing⟩
    obtain ⟨hlistening, hnone⟩ := hstate
    exfalso
    rcases hends with rfl | ⟨event, tail, rfl, hend⟩
    · rw [foldl_nil, hnone] at hsettled
      cases hsettled
    · rw [foldl_cons, waiterStep_of_listening hlistening] at hsettled
      cases event with
      | timer =>
        rw [onEvent, foldl_waiterStep_of_not_listening rfl, Waiter.settle_settlements,
          hnone, nil_append, List.cons.injEq, Settlement.mk.injEq] at hsettled
        exact payload_ne_nil response hsettled.1.2.symm
      | message message =>
        have hwithout := (hevents message (hsuffix hend.1)).withoutId hid hend.2
        obtain ⟨outcome, hsettle⟩ := hwithout.settles requestId _
        rw [onEvent, hsettle, foldl_waiterStep_of_not_listening rfl,
          Waiter.settle_settlements, hnone, nil_append, List.cons.injEq,
          Settlement.mk.injEq] at hsettled
        exact hwithout.payload_ne hid hsettled.1.2
      | error | close => exact hend

/-- The response to one request. -/
def pongResponse : Response := okResponse (some "request-a") (.bool true)

def pongMessage : MqttMessage := ⟨"nobie/response", pongResponse.payload⟩

theorem publishResponse_pongResponse :
    publishResponse "nobie/response" pongResponse = [pongMessage] :=
  publishResponse_plain (Or.inl (by decide))

/-- The acknowledgement comes first and the listener hears the response. -/
theorem acknowledged_attempt_settles :
    (runAttempt "request-a" "nobie/response"
      [.acknowledgement, .continuation, .message pongMessage]).settlements =
      [⟨responseOutcome pongResponse.toJson, pongResponse.payload⟩] := by
  have hpublished := publishResponse_pongResponse
  refine (attempt_settles_iff rfl fun message hmem => Or.inl ?_).mpr ?_
  · rw [hpublished]
    simpa using hmem
  · have hmem : pongMessage ∈ publishResponse "nobie/response" pongResponse := by
      rw [hpublished]
      exact mem_singleton_self _
    have hnamed : isAnonymous "nobie/response" pongMessage = false := by
      obtain ⟨fields, hparse, hlookup⟩ := parse_of_mem_publishResponse rfl hmem
      exact isAnonymous_of_lookup hparse hlookup
    rw [hpublished]
    simp [afterAttach, heard, hnamed]

/-- The response comes before the acknowledgement: nobody hears it and the
attempt times out. -/
theorem early_response_lost :
    (runAttempt "request-a" "nobie/response"
      [.message pongMessage, .acknowledgement, .continuation, .timer]).settlements =
        [⟨.rejected "Yeonjang MQTT 응답 시간이 초과되었습니다." none, []⟩] ∧
      ¬ ∀ events : List AttemptEvent,
        publishResponse "nobie/response" pongResponse ⊆
          (events.takeWhile (· ≠ .timer)).filterMap (fun
            | .message message => some message
            | _ => none) →
        (runAttempt "request-a" "nobie/response" events).settlements =
          [⟨responseOutcome pongResponse.toJson, pongResponse.payload⟩] := by
  have hlost : (runAttempt "request-a" "nobie/response"
      [.message pongMessage, .acknowledgement, .continuation, .timer]).settlements =
        [⟨.rejected "Yeonjang MQTT 응답 시간이 초과되었습니다." none, []⟩] := rfl
  refine ⟨hlost, fun hclaim => ?_⟩
  have hsettled := hclaim [.message pongMessage, .acknowledgement, .continuation, .timer] (by
    rw [publishResponse_pongResponse]
    simp)
  rw [hlost, List.cons.injEq, Settlement.mk.injEq] at hsettled
  exact payload_ne_nil pongResponse hsettled.1.2.symm

end Nobie.Yeonjang
