/-
# Callers that share a response topic

Every caller of an extension listens on the same response topic, so each of them
sees the responses to all requests. A response that carries an id reaches its
own caller only. A response without an id, as the extension gives it for a
payload it cannot parse, is taken by whoever waits.
-/

import Nobie.Yeonjang.ResponseWaiter
import Nobie.Yeonjang.RequestThread

namespace Nobie.Yeonjang

open Foundation List

/-! ## What the extension sends -/

/-- A delivered payload of a call: the request it parses to, which has the id the
caller gave it, or the text of the parse error. -/
structure DeliveredCall where
  caller : String
  parsed : Except String Request
  addressed : ∀ request, parsed = .ok request → request.id = some caller

/-- The responses a request thread gives to a delivered payload. -/
inductive Answers (runtimeSessionId : String) (call : DeliveredCall) : Response → Prop
  | invalid (error : String) (parsed : call.parsed = .error error) :
      Answers runtimeSessionId call (errorResponse none "invalid_request"
        s!"failed to parse request payload: {error}")
  | rejected (request : Request) (parsed : call.parsed = .ok request) (now : ℤ)
      (response : Response)
      (rejects : validateCommandMetadata request runtimeSessionId now = some response) :
      Answers runtimeSessionId call response
  | replayed (request : Request) (parsed : call.parsed = .ok request) (now : ℤ)
      (iteration : List String) (processed : ProcessedRequests) (response : Response)
      (cached : (replayCachedResponse iteration processed request now).1 = some response) :
      Answers runtimeSessionId call response
  | executed (request : Request) (parsed : call.parsed = .ok request) (outcome : TaskOutcome) :
      Answers runtimeSessionId call (joinRequestTask request outcome)

variable {response : Response}

theorem id_of_replay {iteration : List String} {processed : ProcessedRequests} {request : Request}
    {now : ℤ} (h : (replayCachedResponse iteration processed request now).1 = some response) :
    response.id = request.id := by
  unfold replayCachedResponse at h
  split at h
  · cases h
  · obtain ⟨cached, -, rfl⟩ := Option.map_eq_some_iff.mp h
    rfl

/-- A response carries the id of the call it answers, or none. -/
theorem Answers.id {runtimeSessionId : String} {call : DeliveredCall}
    (h : Answers runtimeSessionId call response) :
    response.id = none ∨ response.id = some call.caller := by
  cases h with
  | invalid => exact Or.inl rfl
  | rejected request parsed now response rejects =>
    exact Or.inr ((id_of_validateCommandMetadata rejects).1.trans (call.addressed _ parsed))
  | replayed request parsed now iteration processed response cached =>
    exact Or.inr ((id_of_replay cached).trans (call.addressed _ parsed))
  | executed request parsed outcome =>
    cases outcome with
    | dispatched result =>
      right
      rw [← call.addressed _ parsed]
      cases result <;> rfl
    | panicked => exact Or.inl rfl

/-- A message on the response topic, with the response and the call it was
published for. -/
structure Emission (runtimeSessionId responseTopic : String) where
  call : DeliveredCall
  response : Response
  answers : Answers runtimeSessionId call response
  message : MqttMessage
  published : message ∈ publishResponse responseTopic response

/-- An id the receiver takes for none. -/
def Response.Anonymous (response : Response) : Prop := response.id = none ∨ response.id = some ""

/-- A message of a response that carries the id of another call is a message of
that call to every other caller. -/
theorem carriesOtherId_of_mem {requestId id responseTopic : String} (hid : response.id = some id)
    (hempty : id ≠ "") (hother : id ≠ requestId) {message : MqttMessage}
    (hmem : message ∈ publishResponse responseTopic response) :
    CarriesOtherId requestId message := by
  obtain ⟨fields, hparse, hlookup⟩ := parse_of_mem_publishResponse hid hmem
  exact ⟨fields, id, hparse, hlookup, hempty, hother⟩

/-! ## The callers -/

/-- What happens to one of the callers. -/
inductive CallerEvent (runtimeSessionId responseTopic : String)
  | receive (emission : Emission runtimeSessionId responseTopic)
  | timer
  | error (message : String)
  | close

section Exchange

variable {runtimeSessionId responseTopic : String}

def CallerEvent.toWaiterEvent : CallerEvent runtimeSessionId responseTopic → WaiterEvent
  | .receive emission => .message emission.message
  | .timer => .timer
  | .error message => .error message
  | .close => .close

/-- One event at one caller. -/
def exchangeStep (callers : String → Waiter)
    (step : String × CallerEvent runtimeSessionId responseTopic) : String → Waiter :=
  Function.update callers step.1
    (waiterStep step.1 responseTopic (callers step.1) step.2.toWaiterEvent)

variable (steps : List (String × CallerEvent runtimeSessionId responseTopic)) (requestId : String)

/-- The callers after a sequence of events, each of them named by its request id
and all of them waiting at the start. -/
def exchange : String → Waiter := steps.foldl exchangeStep fun _ => .attached

/-- Does an event come from the caller's own request, or from no message at all? -/
def CallerEvent.OwnedBy : CallerEvent runtimeSessionId responseTopic → Prop
  | .receive emission => emission.call.caller = requestId
  | _ => True

/-- Does an event come from the caller's own request, from a response without an
id, or from no message at all? -/
def CallerEvent.Concerns : CallerEvent runtimeSessionId responseTopic → Prop
  | .receive emission => emission.call.caller = requestId ∨ emission.response.Anonymous
  | _ => True

theorem exchange_append_singleton (step : String × CallerEvent runtimeSessionId responseTopic) :
    exchange (steps ++ [step]) = exchangeStep (exchange steps) step :=
  foldl_append

/-- An event that does not concern the caller it reaches changes nothing. -/
theorem waiterStep_of_not_concerns {requestId : String}
    {event : CallerEvent runtimeSessionId responseTopic} (h : ¬ event.Concerns requestId)
    (waiter : Waiter) :
    waiterStep requestId responseTopic waiter event.toWaiterEvent = waiter := by
  cases event with
  | receive emission =>
    rw [CallerEvent.Concerns, not_or] at h
    obtain ⟨hcaller, hanonymous⟩ := h
    rw [Response.Anonymous, not_or] at hanonymous
    have hid := emission.answers.id.resolve_left hanonymous.1
    have hempty : emission.call.caller ≠ "" := by
      intro hempty
      exact hanonymous.2 (hempty ▸ hid)
    rw [waiterStep]
    split
    · exact onMessage_of_carriesOtherId
        (carriesOtherId_of_mem hid hempty hcaller emission.published) responseTopic waiter
    · rfl
  | timer | error | close => exact absurd trivial h

/-- Leaving out the events that concern another caller leaves a caller as it is. -/
theorem exchange_filter_concerns (keep : String × CallerEvent runtimeSessionId responseTopic → Bool)
    (hkeep : ∀ step ∈ steps, step.1 = requestId → step.2.Concerns requestId → keep step) :
    exchange (steps.filter keep) requestId = exchange steps requestId := by
  induction steps using List.reverseRecOn with
  | nil => rfl
  | append_singleton steps step ih =>
    have ih := ih fun other hother => hkeep other (mem_append_left _ hother)
    rw [filter_append, exchange_append_singleton, exchangeStep, Function.update_apply]
    cases hstep : keep step with
    | true =>
      rw [filter_singleton, hstep, cond_true, exchange_append_singleton, exchangeStep,
        Function.update_apply]
      by_cases hcaller : requestId = step.1
      · subst hcaller
        rw [if_pos rfl, if_pos rfl, ih]
      · rw [if_neg hcaller, if_neg hcaller, ih]
    | false =>
      rw [filter_singleton, hstep, cond_false, append_nil, ih]
      by_cases hcaller : requestId = step.1
      · rw [if_pos hcaller]
        subst hcaller
        have hconcerns : ¬ step.2.Concerns step.1 := by
          intro hconcerns
          rw [hkeep step (by simp) rfl hconcerns] at hstep
          cases hstep
        exact (waiterStep_of_not_concerns hconcerns _).symm
      · rw [if_neg hcaller]

/-- A caller settles only on its own events and on responses without an id, and
all other events, of any number and in any order, leave no trace in it. -/
theorem responseIsolation (steps : List (String × CallerEvent runtimeSessionId responseTopic))
    (requestId : String) :
    (∀ step, (exchange steps requestId).settlements = [] →
      (exchange (steps ++ [step]) requestId).settlements ≠ [] →
      step.1 = requestId ∧ step.2.Concerns requestId) ∧
    (∀ keep : String × CallerEvent runtimeSessionId responseTopic → Bool,
      (∀ step ∈ steps, step.1 = requestId → step.2.Concerns requestId → keep step = true) →
      exchange (steps.filter keep) requestId = exchange steps requestId) := by
  refine ⟨fun step hbefore hafter => ?_, exchange_filter_concerns steps requestId⟩
  rw [exchange_append_singleton, exchangeStep, Function.update_apply] at hafter
  by_cases hcaller : requestId = step.1
  · subst hcaller
    refine ⟨rfl, ?_⟩
    by_contra hconcerns
    rw [if_pos rfl, waiterStep_of_not_concerns hconcerns] at hafter
    exact hafter hbefore
  · rw [if_neg hcaller] at hafter
    exact absurd hbefore hafter

end Exchange

/-- A call whose payload does not parse: its `expiresAt` is no whole number. -/
def unparsableCall : DeliveredCall where
  caller := "request-a"
  parsed := .error "invalid type: floating point `1500.5`, expected i64"
  addressed := by simp

/-- The answer to the call that does not parse. -/
def unparsableEmission : Emission "session" "nobie/response" where
  call := unparsableCall
  response := _
  answers := .invalid _ rfl
  message := ⟨"nobie/response", Response.payload _⟩
  published := by
    rw [publishResponse_plain (Or.inr rfl)]
    exact List.mem_singleton_self _

/-- The answer to a call that does not parse settles another caller. -/
theorem anonymousResponse_settles_other :
    ¬ ∀ (steps : List (String × CallerEvent "session" "nobie/response"))
        (step : String × CallerEvent "session" "nobie/response") (requestId : String),
      (exchange steps requestId).settlements = [] →
      (exchange (steps ++ [step]) requestId).settlements ≠ [] →
      step.1 = requestId ∧ step.2.OwnedBy requestId := by
  intro h
  have hsettled := h [] ("request-b", .receive unparsableEmission) "request-b" rfl (by
    rw [exchange_append_singleton, exchangeStep, Function.update_self, waiterStep_of_listening rfl]
    simp only [CallerEvent.toWaiterEvent, onEvent, unparsableEmission]
    rw [onMessage_response]
    simp [errorResponse, namesOther])
  have hcaller : "request-a" = "request-b" := hsettled.2
  exact absurd hcaller (by decide)

end Nobie.Yeonjang
